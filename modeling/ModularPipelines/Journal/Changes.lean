import ModularPipelines.Journal.Admission
import ModularPipelines.Journal.View

namespace ModularPipelines.Journal
open Library

theorem JournalEvent.valid_context {settings : Settings} {e : JournalEvent}
    (h : e.valid settings = true) : validContext e.context = true :=
  (JournalEvent.valid_iff.mp h).2.2.2.2.2.2.2.2.1

theorem eventEntry_ok {settings : Settings} {j : EventStore} {eventId : String} {row : EventRow} :
    eventEntry settings j eventId = .ok row ↔
      j.findEvent eventId = some row ∧ row.event.valid settings = true := by
  unfold eventEntry
  cases j.findEvent eventId with
  | none => simp
  | some found =>
    simp only [decodeRow_ok, Option.some.injEq]
    constructor
    · rintro ⟨hv, rfl⟩
      exact ⟨rfl, hv⟩
    · rintro ⟨rfl, hv⟩
      exact ⟨hv, rfl⟩

theorem eventEntry_mono {settings : Settings} {j j' : EventStore} {eventId : String} {row : EventRow}
    (he : j.Extends j') (h : eventEntry settings j eventId = .ok row) :
    eventEntry settings j' eventId = .ok row := by
  obtain ⟨hf, hv⟩ := eventEntry_ok.mp h
  exact eventEntry_ok.mpr ⟨findEvent_mono he hf, hv⟩

/-- What a related event must be for a command change to name it. -/
def RelatesTo (settings : Settings) (j : EventStore) (change : JournalChangeData) (entry : EventRow)
    (relatedId : String) : Prop :=
  ∃ row d, eventEntry settings j relatedId = .ok row ∧ row.event.eventType = "command.result" ∧
    readCommandResult row.event.data = some d ∧ some d.requestId = change.requestId ∧
    sameOwner row.event.context entry.event.context = true

theorem validateRelated_ok {settings : Settings} {j : EventStore} {change : JournalChangeData}
    {entry : EventRow} {related : List String} {u : Unit} :
    validateRelated settings j change entry related = .ok u ↔
      ∀ relatedId ∈ related, RelatesTo settings j change entry relatedId := by
  induction related with
  | nil => simp [validateRelated]
  | cons relatedId related ih =>
    simp only [validateRelated, bind_ok, rejectIf_ok, exists_const, ih, ne_eq, not_not,
      Bool.not_eq_false, validatedCommandResult_ok, List.forall_mem_cons, RelatesTo]
    constructor
    · rintro ⟨row, hr, ht, d, hd, hreq, ho, hrest⟩
      exact ⟨⟨row, d, hr, ht, hd, hreq, ho⟩, hrest⟩
    · rintro ⟨⟨row, d, hr, ht, hd, hreq, ho⟩, hrest⟩
      exact ⟨row, hr, ht, d, hd, hreq, ho, hrest⟩

/-- The checks of `_decode_change` once its two events are found. -/
structure ChangeRow.Checked (settings : Settings) (j : EventStore) (c : ChangeRow) (entry : EventRow) :
    Prop where
  consistent : c.change.consistent = true
  eventRelated : c.eventId ∈ c.change.relatedEventIds
  effectiveRelated : c.change.effectiveEventId ∈ c.change.relatedEventIds
  ordinary : c.change.kind = .event → c.change.relatedEventIds = [c.eventId] ∧
    entry.event.eventType ≠ "command.result"
  related : c.change.kind = .commandResult →
    ∀ relatedId ∈ c.change.relatedEventIds, RelatesTo settings j c.change entry relatedId
  observer : c.change.kind = .commandResult → ∀ o ∈ c.change.observation,
    sameOwner o.observation.context entry.event.context = true

theorem observedEntry_ok {settings : Settings} {j : EventStore} {c : ChangeRow} {entry observed : EventRow}
    (he : eventEntry settings j c.change.effectiveEventId = .ok entry) :
    observedEntry settings j c entry = .ok observed ↔ eventEntry settings j c.eventId = .ok observed := by
  unfold observedEntry
  split
  · next hid => rw [hid, he]
  · rfl

theorem validateCommandChange_ok {settings : Settings} {j : EventStore} {change : JournalChangeData}
    {entry : EventRow} {u : Unit} :
    validateCommandChange settings j change entry = .ok u ↔
      (∀ relatedId ∈ change.relatedEventIds, RelatesTo settings j change entry relatedId) ∧
      ∀ o ∈ change.observation, sameOwner o.observation.context entry.event.context = true := by
  simp only [validateCommandChange, bind_ok, validateRelated_ok, exists_const]
  cases change.observation <;> simp

theorem decodeChange_ok {settings : Settings} {j : EventStore} {c : ChangeRow} {ce : JournalChangeEntry} :
    decodeChange settings j c = .ok ce ↔ ∃ entry observed,
      eventEntry settings j c.change.effectiveEventId = .ok entry ∧
      eventEntry settings j c.eventId = .ok observed ∧ c.Checked settings j entry ∧
      ce = ⟨c.changeCursor, c.eventId, c.change,
        entry.withResult c.change.effectiveAuthor c.change.provisional, observed⟩ := by
  simp only [decodeChange, bind_ok, rejectIf_ok, exists_const, pure_eq_ok, Except.ok.injEq,
    Bool.not_eq_false, not_or, not_not]
  constructor
  · rintro ⟨hc, entry, he, observed, ho, ⟨h1, h2⟩, u, hk, rfl⟩
    refine ⟨entry, observed, he, (observedEntry_ok he).mp ho, ⟨hc, h1, h2, ?_, ?_, ?_⟩, rfl⟩
    · intro hkind
      simpa [validateChange, hkind] using hk
    · intro hkind
      simp only [validateChange, hkind, validateCommandChange_ok] at hk
      exact hk.1
    · intro hkind
      simp only [validateChange, hkind, validateCommandChange_ok] at hk
      exact hk.2
  · rintro ⟨entry, observed, he, ho, hch, rfl⟩
    refine ⟨hch.consistent, entry, he, observed, (observedEntry_ok he).mpr ho,
      ⟨hch.eventRelated, hch.effectiveRelated⟩, (), ?_, rfl⟩
    cases hkind : c.change.kind with
    | event =>
      obtain ⟨h1, h2⟩ := hch.ordinary hkind
      simp only [validateChange, hkind, rejectIf_ok, h1, ne_eq, not_true_eq_false, false_or]
      exact h2
    | commandResult =>
      simp only [validateChange, hkind, validateCommandChange_ok]
      exact ⟨hch.related hkind, hch.observer hkind⟩

theorem decodeChange_mono {settings : Settings} {j j' : EventStore} {c : ChangeRow}
    {ce : JournalChangeEntry} (he : j.Extends j') (h : decodeChange settings j c = .ok ce) :
    decodeChange settings j' c = .ok ce := by
  obtain ⟨entry, observed, h1, h2, hch, rfl⟩ := decodeChange_ok.mp h
  refine decodeChange_ok.mpr ⟨entry, observed, eventEntry_mono he h1, eventEntry_mono he h2, ?_, rfl⟩
  refine ⟨hch.consistent, hch.eventRelated, hch.effectiveRelated, hch.ordinary, ?_, hch.observer⟩
  intro hkind relatedId hid
  obtain ⟨row, d, hr, rest⟩ := hch.related hkind relatedId hid
  exact ⟨row, d, eventEntry_mono he hr, rest⟩

/-- A text field of a valid context is null where it is not a text. -/
theorem lookup_textField {context : Context} {name : String} (hc : validContext context = true)
    (hn : name ∉ contextIntegerFields) :
    (context.lookup name).getD .null = ((contextText context name).map Json.str).getD .null := by
  induction context with
  | nil => rfl
  | cons item context ih =>
    obtain ⟨key, value⟩ := item
    simp only [validContext, List.all_cons, Bool.and_eq_true] at hc
    by_cases hk : name = key
    · subst hk
      have hitem := hc.1
      simp only [contextText, List.lookup_cons, beq_self_eq_true]
      cases value with
      | null => rfl
      | str t => rfl
      | int n =>
        simp only [validContextItem, Bool.and_eq_true, List.contains_iff_mem] at hitem
        exact absurd hitem.1 hn
      | bool b => cases hitem
      | float t => cases hitem
      | arr xs => cases hitem
      | obj ms => cases hitem
    · have hne : (name == key) = false := beq_eq_false_iff_ne.mpr hk
      simp only [contextText, List.lookup_cons, hne] at ih ⊢
      exact ih hc.2

theorem identityOf_fields {context : Context} {identity : Identity} (h : identityOf context = .ok identity) :
    contextText context "experiment_id" = some identity.experimentId ∧
      contextText context "participant_id" = some identity.participantId ∧
      contextText context "participant_instance_id" = identity.participantInstanceId := by
  unfold identityOf at h
  split at h
  · next he hp =>
    split at h
    · cases h
      exact ⟨he, hp, rfl⟩
    · cases h
  · cases h

theorem sameOwner_of_identity {context other : Context} {identity : Identity} {requestId : Option String}
    (hc : validContext context = true) (ho : validContext other = true)
    (hci : identityOf context = .ok identity) (hoi : identityOf other = .ok identity)
    (hcr : contextText context "request_id" = requestId)
    (hor : contextText other "request_id" = requestId) : sameOwner context other = true := by
  obtain ⟨h1, h2, h3⟩ := identityOf_fields hci
  obtain ⟨h1', h2', h3'⟩ := identityOf_fields hoi
  have hsame : ∀ name, name ∉ contextIntegerFields → contextText context name = contextText other name →
      (context.lookup name).getD .null = (other.lookup name).getD .null := by
    intro name hn htext
    rw [lookup_textField hc hn, lookup_textField ho hn, htext]
  apply List.all_eq_true.mpr
  intro key hkey
  apply decide_eq_true
  simp only [ownerFields, List.mem_cons, List.not_mem_nil, or_false] at hkey
  rcases hkey with rfl | rfl | rfl | rfl
  · exact hsame _ (by decide) (h1.trans h1'.symm)
  · exact hsame _ (by decide) (h2.trans h2'.symm)
  · exact hsame _ (by decide) (h3.trans h3'.symm)
  · exact hsame _ (by decide) (hcr.trans hor.symm)

theorem readText_isText {j : Json} {s : String} (h : readText j = some s) : isText s = true := by
  unfold readText at h
  split at h
  · split at h
    · next ht =>
      cases h
      exact ht
    · cases h
  · cases h

theorem readCommandResult_requestId {data : Json} {d : CommandObservation}
    (h : readCommandResult data = some d) : isText d.requestId = true := by
  obtain ⟨-, -, hreq, -⟩ := readCommandResult_some.mp h
  obtain ⟨v, -, hv⟩ := Option.bind_eq_some_iff.mp hreq
  exact readText_isText hv

/-- The change of an ordinary event decodes beside the event. -/
theorem eventChange_decodes {settings : Settings} {j : EventStore} {c : ChangeRow} {row : EventRow}
    (hf : eventEntry settings j c.eventId = .ok row) (ht : row.event.eventType ≠ "command.result")
    (hc : c.change = ⟨.event, none, c.eventId, none, false, true, [c.eventId], none⟩) :
    ∃ ce, decodeChange settings j c = .ok ce := by
  refine ⟨_, decodeChange_ok.mpr ⟨row, row, ?_, hf, ?_, rfl⟩⟩
  · rw [hc]
    exact hf
  · constructor
    · rw [hc]
      simp [JournalChangeData.consistent]
    · rw [hc]
      exact List.mem_singleton.mpr rfl
    · rw [hc]
      exact List.mem_singleton.mpr rfl
    · intro _
      rw [hc]
      exact ⟨rfl, ht⟩
    · intro hkind
      rw [hc] at hkind
      cases hkind
    · intro hkind
      rw [hc] at hkind
      cases hkind

theorem relatedEventIds_nodup (st : CommandState) : st.relatedEventIds.Nodup := by
  unfold CommandState.relatedEventIds
  split
  · split
    · exact List.nodup_singleton _
    · next hne => simp [hne]
  · exact List.nodup_singleton _
  · exact List.nodup_singleton _
  · exact List.nodup_nil

theorem mem_relatedEventIds {st : CommandState} {eventId : String} :
    eventId ∈ st.relatedEventIds ↔ ∃ author e, st.entry author = some e ∧ e.eventId = eventId := by
  constructor
  · intro h
    unfold CommandState.relatedEventIds at h
    split at h
    · next r p hr hp =>
      split at h
      · exact ⟨.runner, r, hr, (List.mem_singleton.mp h).symm⟩
      · rcases List.mem_cons.mp h with rfl | h
        · exact ⟨.runner, r, hr, rfl⟩
        · exact ⟨.participant, p, hp, (List.mem_singleton.mp h).symm⟩
    · next r hr hp => exact ⟨.runner, r, hr, (List.mem_singleton.mp h).symm⟩
    · next p hr hp => exact ⟨.participant, p, hp, (List.mem_singleton.mp h).symm⟩
    · cases h
  · intro ⟨author, e, he, hid⟩
    subst hid
    cases author with
    | runner =>
      simp only [CommandState.entry] at he
      unfold CommandState.relatedEventIds
      rw [he]
      cases st.participant with
      | none => exact List.mem_singleton.mpr rfl
      | some p =>
        simp only
        split <;> exact List.mem_cons_self
    | participant =>
      simp only [CommandState.entry] at he
      unfold CommandState.relatedEventIds
      rw [he]
      cases st.runner with
      | none => exact List.mem_singleton.mpr rfl
      | some r =>
        simp only
        split
        · next hs => exact List.mem_singleton.mpr hs.symm
        · exact List.mem_cons_of_mem _ (List.mem_singleton.mpr rfl)

/-- The row of a readable request names one of its own events as effective. -/
theorem effective_related {settings : Settings} {j : EventStore} {requestId : String} {st : CommandState}
    (hl : loadCommandResult settings j requestId = .ok (some st)) :
    st.effectiveEventId ∈ st.relatedEventIds := by
  obtain ⟨row, -, hrow⟩ := loadCommandResult_some.mp hl
  have hprec := (loadRow_ok.mp hrow).2.2.2.2.2.2
  rw [mem_relatedEventIds]
  cases hr : st.runner with
  | none =>
    cases hp : st.participant with
    | none => simp [Precedence, hr, hp] at hprec
    | some p =>
      simp only [Precedence, hr, hp] at hprec
      exact ⟨.participant, p, hp, hprec.2.1.symm⟩
  | some r =>
    cases hp : st.participant with
    | none =>
      simp only [Precedence, hr, hp] at hprec
      exact ⟨.runner, r, hr, hprec.2.1.symm⟩
    | some p =>
      simp only [Precedence, hr, hp] at hprec
      exact ⟨.runner, r, hr, hprec.2.1.symm⟩

theorem related_event {settings : Settings} {j : EventStore} {requestId id : String} {st : CommandState}
    (hl : loadCommandResult settings j requestId = .ok (some st)) (hid : id ∈ st.relatedEventIds) :
    ∃ r ∈ j.events, j.findEvent id = some r ∧ r.event.eventId = id := by
  obtain ⟨author, e, he, rfl⟩ := mem_relatedEventIds.mp hid
  obtain ⟨hf, -, -⟩ := loaded_entry hl he
  exact ⟨e.entry, List.mem_of_find?_eq_some hf, hf, findEvent_eventId hf⟩

/-- Everything the index knows about one related event of a readable request. -/
theorem related_answers {settings : Settings} {j : EventStore} {requestId id : String} {st : CommandState}
    (hl : loadCommandResult settings j requestId = .ok (some st)) (hid : id ∈ st.relatedEventIds) :
    ∃ row d, eventEntry settings j id = .ok row ∧ row.event.eventType = "command.result" ∧
      readCommandResult row.event.data = some d ∧ d.requestId = requestId ∧
      contextText row.event.context "request_id" = some requestId ∧
      identityOf row.event.context = .ok st.identity := by
  obtain ⟨author, e, he, rfl⟩ := mem_relatedEventIds.mp hid
  obtain ⟨hf, hv, hdec⟩ := loaded_entry hl he
  obtain ⟨-, ht, hd, hreq, hc, hi, -⟩ := decodeAuthorObservation_ok.mp hdec
  exact ⟨e.entry, e.result, eventEntry_ok.mpr ⟨hf, hv⟩, ht, validatedCommandResult_ok.mp hd, hreq, hc, hi⟩

/-- The change of a command result decodes against the row it was made from. -/
theorem resultChange_decodes {settings : Settings} {j : EventStore} {c : ChangeRow} {requestId : String}
    {st : CommandState} {o : ChangeObserver} {resultChanged : Bool}
    (hl : loadCommandResult settings j requestId = .ok (some st)) (ht : isText requestId = true)
    (hid : c.eventId ∈ st.relatedEventIds) (hoc : validContext o.observation.context = true)
    (hoi : identityOf o.observation.context = .ok st.identity)
    (hor : contextText o.observation.context "request_id" = some requestId)
    (hc : c.change = ⟨.commandResult, some requestId, st.effectiveEventId, some st.effectiveAuthor,
      st.runner.isNone, resultChanged, st.relatedEventIds, some o⟩) :
    ∃ ce, decodeChange settings j c = .ok ce := by
  obtain ⟨observed, -, hobs, -⟩ := related_answers hl hid
  obtain ⟨entry, -, hentry, -, -, -, her, hei⟩ := related_answers hl (effective_related hl)
  have hev := JournalEvent.valid_context (eventEntry_ok.mp hentry).2
  refine ⟨_, decodeChange_ok.mpr ⟨entry, observed, ?_, hobs, ?_, rfl⟩⟩
  · rw [hc]
    exact hentry
  · constructor
    · rw [hc]
      have hprov : (st.runner.isNone == (some st.effectiveAuthor == some Author.participant)) = true := by
        have hprec := loaded_precedence hl
        cases hr : st.runner with
        | none =>
          cases hp : st.participant with
          | none => simp [Precedence, hr, hp] at hprec
          | some p =>
            simp only [Precedence, hr, hp] at hprec
            simp [hprec.1]
        | some r =>
          have hauthor : st.effectiveAuthor = .runner := by
            cases hp : st.participant with
            | none =>
              simp only [Precedence, hr, hp] at hprec
              exact hprec.1
            | some p =>
              simp only [Precedence, hr, hp] at hprec
              exact hprec.1
          simp [hauthor]
      have hne : st.relatedEventIds ≠ [] := List.ne_nil_of_mem hid
      simp only [JournalChangeData.consistent, relatedEventIds_nodup, hprov]
      simp [hne, ht]
    · rw [hc]
      exact hid
    · rw [hc]
      exact effective_related hl
    · intro hkind
      rw [hc] at hkind
      cases hkind
    · intro _ relatedId hrel
      rw [hc] at hrel ⊢
      obtain ⟨row, d, hrow, hty, hd, hreq, hrr, hri⟩ := related_answers hl hrel
      have hrv := JournalEvent.valid_context (eventEntry_ok.mp hrow).2
      exact ⟨row, d, hrow, hty, hd, congrArg some hreq, sameOwner_of_identity hrv hev hri hei hrr her⟩
    · intro _ o' ho'
      rw [hc] at ho'
      obtain rfl := Option.some.inj ho'
      exact sameOwner_of_identity hoc hev hoi hei hor her

end ModularPipelines.Journal
