import Mathlib.Data.List.Nodup
import ModularPipelines.Journal.Growth

namespace ModularPipelines.Journal
open Library

/-- A stored event against the one that was sent: the journal may add its marks to a report. -/
def SentAs : JournalCall → JournalEvent → Prop
  | .append event, stored => stored = event
  | .appendCommandResult event, stored => stored = { event with data := stored.data } ∧
      ∃ d d', readCommandResult event.data = some d ∧ readCommandResult stored.data = some d' ∧
        d' = { d with ignored := d'.ignored, supersedes := d'.supersedes }
  | .other _ _, _ => False

theorem marked_fields (other : Option AuthorEntry) (d : CommandObservation) :
    marked other d = { d with ignored := (marked other d).ignored, supersedes := (marked other d).supersedes } := by
  unfold marked
  split
  · rfl
  · split <;> rfl

def ChangeRow.observes (requestId : String) (author : Author) (c : ChangeRow) : Bool :=
  c.change.requestId == some requestId && c.change.observation.any (·.author == author)

def ChangeRow.about (eventId : String) (c : ChangeRow) : Bool := c.eventId == eventId

/-- Every row of a journal has its one change record, and so has every answer of an author. -/
structure Regular (settings : Settings) (j : EventStore) : Prop where
  readable : ∀ requestId, ∃ state, loadCommandResult settings j requestId = .ok state
  unique : (j.events.map (·.event.eventId)).Nodup
  ordered : j.events.Pairwise (·.cursor < ·.cursor)
  bounded : ∀ row ∈ j.events, row.cursor ≤ j.eventSequence
  changed : ∀ c ∈ j.changes, ∃ row ∈ j.events, row.event.eventId = c.eventId
  ordinary : ∀ row ∈ j.events, row.event.eventType ≠ "command.result" →
    j.changes.countP (·.about row.event.eventId) = 1
  reported : ∀ requestId author own, Claimed settings j requestId author own →
    j.changes.countP (·.observes requestId author) = 1
  unreported : ∀ requestId author, (∀ own, ¬ Claimed settings j requestId author own) →
    j.changes.countP (·.observes requestId author) = 0

theorem create_regular (settings : Settings) (journalId generation : String) :
    Regular settings (EventStore.create journalId generation) := by
  refine ⟨fun requestId => ⟨none, rfl⟩, .nil, .nil, nofun, nofun, nofun, ?_, fun _ _ _ => rfl⟩
  intro requestId author own h
  obtain ⟨state, hl, -⟩ := h
  cases hl

/-- The event that a transaction stores, if it stores one. -/
theorem Growth.stored {settings : Settings} {j k : EventStore} {call : JournalCall} {event : JournalEvent}
    (h : Growth settings j k call) (hcall : call.event = some event) :
    k.events = j.events ∧ k.eventSequence = j.eventSequence ∨
    ∃ stored, k.events = j.events ++ [⟨j.eventSequence + 1, stored⟩] ∧ k.eventSequence = j.eventSequence + 1 ∧
      stored.eventId = event.eventId ∧ SentAs call stored ∧ (∀ r ∈ j.events, r.event.eventId ≠ event.eventId) ∧
      Confirmed settings k (.str event.eventId) call := by
  cases h with
  | @ordinary k event text he hn hi =>
    obtain rfl := Option.some.inj hcall
    obtain ⟨hfresh, -, rfl⟩ := insertEvent_ok.mp hi
    exact .inr ⟨event, rfl, rfl, rfl, rfl, hfresh, ⟨text, he⟩, hn, _, List.mem_append_right _ List.mem_cons_self, rfl⟩
  | @report _ event d identity state eventId st hv hl hi hnew hrec hr =>
    obtain rfl := Option.some.inj hcall
    obtain ⟨-, -, -, hd, -⟩ := validateReport_ok.mp hv
    obtain ⟨e, -, -, -, hevents, hseq⟩ | ⟨snapshot, hfresh, hown, -, hsnap, hread, -, hevents, hseq⟩ := hr.events
    · exact .inl ⟨hevents, hseq⟩
    · have hid : snapshot.eventId = event.eventId := by rw [hsnap]
      obtain ⟨own, ho, hoid, -, ha⟩ := hr.own
      refine .inr ⟨snapshot, hevents, hseq, hid, ⟨hsnap, _, _, hd, hread, marked_fields _ _⟩, hid ▸ hfresh, ?_⟩
      refine ⟨d, identity, own, hv, ⟨st, hr.loaded, hr.identity⟩, ⟨st, hr.loaded, ho⟩, ha, ?_⟩
      rw [hoid, ← hown, hid]

theorem Regular.row_unique {settings : Settings} {j : EventStore} (h : Regular settings j) {a b : EventRow}
    (ha : a ∈ j.events) (hb : b ∈ j.events) (hid : a.event.eventId = b.event.eventId) : a = b :=
  List.inj_on_of_nodup_map h.unique ha hb hid

theorem Regular.append_events {settings : Settings} {j : EventStore} {event : JournalEvent}
    (h : Regular settings j) (hfresh : ∀ r ∈ j.events, r.event.eventId ≠ event.eventId) :
    ((j.events ++ [EventRow.mk (j.eventSequence + 1) event]).map (·.event.eventId)).Nodup ∧
    (j.events ++ [EventRow.mk (j.eventSequence + 1) event]).Pairwise (·.cursor < ·.cursor) ∧
    ∀ row ∈ j.events ++ [EventRow.mk (j.eventSequence + 1) event], row.cursor ≤ j.eventSequence + 1 := by
  refine ⟨?_, ?_, ?_⟩
  · rw [List.map_append, List.nodup_append]
    refine ⟨h.unique, List.nodup_singleton _, ?_⟩
    intro id hid other hother
    obtain ⟨r, hr, rfl⟩ := List.mem_map.mp hid
    obtain rfl := List.mem_singleton.mp hother
    exact hfresh r hr
  · rw [List.pairwise_append]
    refine ⟨h.ordered, List.pairwise_singleton _ _, ?_⟩
    intro r hr row hrow
    obtain rfl := List.mem_singleton.mp hrow
    exact Nat.lt_succ_of_le (h.bounded r hr)
  · intro row hrow
    obtain hrow | hrow := List.mem_append.mp hrow
    · exact (h.bounded row hrow).trans (Nat.le_succ _)
    · obtain rfl := List.mem_singleton.mp hrow
      exact le_refl _

/-- An event without a row has no change record yet. -/
theorem Regular.unchanged {settings : Settings} {j : EventStore} (h : Regular settings j) {eventId : String}
    (hfresh : ∀ r ∈ j.events, r.event.eventId ≠ eventId) : j.changes.countP (·.about eventId) = 0 := by
  rw [List.countP_eq_zero]
  intro c hc habout
  obtain ⟨row, hrow, hid⟩ := h.changed c hc
  exact hfresh row hrow (hid.trans (by simpa [ChangeRow.about] using habout))

theorem countP_snoc {α : Type} (p : α → Bool) (xs : List α) (x : α) :
    (xs ++ [x]).countP p = xs.countP p + if p x then 1 else 0 := by
  rw [List.countP_append, List.countP_singleton]

theorem ordinary_regular {settings : Settings} {j k : EventStore} {event : JournalEvent} {text : String}
    (h : Regular settings j) (he : encodeEvent settings event = .ok text)
    (hn : event.eventType ≠ "command.result") (hi : insertEvent j event = .ok k) :
    Regular settings (recordEventChange k event.eventId) := by
  have hg : Growth settings j (recordEventChange k event.eventId) (.append event) := .ordinary he hn hi
  obtain ⟨hfresh, -, hk⟩ := insertEvent_ok.mp hi
  obtain ⟨hunique, hordered, hbounded⟩ := h.append_events hfresh
  have hload : ∀ requestId state, loadCommandResult settings j requestId = .ok state →
      loadCommandResult settings (recordEventChange k event.eventId) requestId = .ok state := by
    subst hk
    exact fun requestId state hl => loadCommandResult_mono ⟨_, rfl⟩ rfl hl
  have hback : ∀ requestId author own, Claimed settings (recordEventChange k event.eventId) requestId author own →
      Claimed settings j requestId author own := by
    intro requestId author own hc
    obtain ⟨state, hl⟩ := h.readable requestId
    exact .of_bind hl (hc.bind (hload requestId state hl))
  subst hk
  refine ⟨?_, hunique, hordered, hbounded, ?_, ?_, ?_, ?_⟩
  · intro requestId
    obtain ⟨state, hl⟩ := h.readable requestId
    exact ⟨state, hload requestId state hl⟩
  · intro c hc
    obtain hc | hc := List.mem_append.mp hc
    · obtain ⟨row, hrow, hid⟩ := h.changed c hc
      exact ⟨row, List.mem_append_left _ hrow, hid⟩
    · obtain rfl := List.mem_singleton.mp hc
      exact ⟨⟨j.eventSequence + 1, event⟩, List.mem_append_right _ List.mem_cons_self, rfl⟩
  · intro row hrow hr
    change (j.changes ++ [_]).countP _ = 1
    rw [countP_snoc]
    obtain hrow | hrow := List.mem_append.mp hrow
    · rw [h.ordinary row hrow hr, if_neg]
      simpa [ChangeRow.about] using (hfresh row hrow).symm
    · obtain rfl := List.mem_singleton.mp hrow
      rw [h.unchanged hfresh, if_pos]
      simp [ChangeRow.about]
  · intro requestId author own hc
    change (j.changes ++ [_]).countP _ = 1
    rw [countP_snoc, h.reported requestId author own (hback requestId author own hc)]
    simp [ChangeRow.observes]
  · intro requestId author hc
    change (j.changes ++ [_]).countP _ = 0
    rw [countP_snoc, h.unreported requestId author (fun own ho => hc own (hg.claimed ho))]
    simp [ChangeRow.observes]

/-- An index entry refers to a stored report. -/
theorem Claimed.row {settings : Settings} {j : EventStore} {requestId : String} {author : Author}
    {own : AuthorEntry} (h : Claimed settings j requestId author own) :
    own.entry ∈ j.events ∧ own.entry.event.eventId = own.eventId ∧
      own.entry.event.eventType = "command.result" := by
  obtain ⟨state, hl, ho⟩ := h
  obtain ⟨hf, -, hd⟩ := loaded_entry hl ho
  exact ⟨List.mem_of_find?_eq_some hf, findEvent_eventId hf, (decodeAuthorObservation_ok.mp hd).2.1⟩

/-- The event a first report refers to: the other author's, or the one it stores. -/
theorem Recorded.reference {settings : Settings} {j k : EventStore} {event : JournalEvent}
    {d : CommandObservation} {identity : Identity} {state : Option CommandState} {eventId : String}
    {st : CommandState} (hr : Recorded settings j k event d identity state eventId st)
    (hl : loadCommandResult settings j d.requestId = .ok state) (htype : event.eventType = "command.result") :
    (k.events = j.events ∧ k.eventSequence = j.eventSequence ∧
      ∃ row ∈ j.events, row.event.eventId = eventId ∧ row.event.eventType = "command.result") ∨
    ∃ stored : JournalEvent, k.events = j.events ++ [⟨j.eventSequence + 1, stored⟩] ∧
      k.eventSequence = j.eventSequence + 1 ∧ stored.eventId = eventId ∧
      stored.eventType = "command.result" ∧ ∀ r ∈ j.events, r.event.eventId ≠ eventId := by
  obtain ⟨e, he, rfl, -, hevents, hseq⟩ | ⟨snapshot, hfresh, rfl, -, hsnap, -, -, hevents, hseq⟩ := hr.events
  · obtain ⟨hmem, hid, hty⟩ := Claimed.row (.of_bind hl he)
    exact .inl ⟨hevents, hseq, e.entry, hmem, hid, hty⟩
  · have hty : snapshot.eventType = "command.result" := by
      rw [hsnap]
      exact htype
    exact .inr ⟨snapshot, hevents, hseq, rfl, hty, hfresh⟩

theorem report_rows {settings : Settings} {j k : EventStore} {event : JournalEvent} {d : CommandObservation}
    {identity : Identity} {state : Option CommandState} {eventId : String} {st : CommandState}
    (h : Regular settings j) (hr : Recorded settings j k event d identity state eventId st)
    (hl : loadCommandResult settings j d.requestId = .ok state) (htype : event.eventType = "command.result") :
    (k.events.map (·.event.eventId)).Nodup ∧ k.events.Pairwise (·.cursor < ·.cursor) ∧
    (∀ row ∈ k.events, row.cursor ≤ k.eventSequence) ∧
    (∀ c ∈ k.changes, ∃ row ∈ k.events, row.event.eventId = c.eventId) ∧
    ∀ row ∈ k.events, row.event.eventType ≠ "command.result" →
      row ∈ j.events ∧ row.event.eventId ≠ eventId := by
  have hold : ∀ c ∈ j.changes, ∃ row ∈ k.events, row.event.eventId = c.eventId := by
    intro c hc
    obtain ⟨row, hrow, hid⟩ := h.changed c hc
    obtain ⟨more, hmore⟩ := hr.extends
    exact ⟨row, hmore ▸ List.mem_append_left _ hrow, hid⟩
  have hchanged : (∃ row ∈ k.events, row.event.eventId = eventId) →
      ∀ c ∈ k.changes, ∃ row ∈ k.events, row.event.eventId = c.eventId := by
    intro hnew c hc
    rw [hr.changes] at hc
    obtain hc | hc := List.mem_append.mp hc
    · exact hold c hc
    · obtain rfl := List.mem_singleton.mp hc
      exact hnew
  obtain ⟨hevents, hseq, row, hrow, hid, hty⟩ | ⟨stored, hevents, hseq, hid, hty, hfresh⟩ := hr.reference hl htype
  · rw [hevents] at hchanged ⊢
    rw [hseq]
    refine ⟨h.unique, h.ordered, h.bounded, hchanged ⟨row, hrow, hid⟩, ?_⟩
    intro other hother hne
    refine ⟨hother, ?_⟩
    intro heq
    obtain rfl := h.row_unique hother hrow (heq.trans hid.symm)
    exact hne hty
  · subst hid
    obtain ⟨hunique, hordered, hbounded⟩ := h.append_events hfresh
    rw [hevents] at hchanged ⊢
    rw [hseq]
    refine ⟨hunique, hordered, hbounded, hchanged ⟨_, List.mem_append_right _ List.mem_cons_self, rfl⟩, ?_⟩
    intro other hother hne
    obtain hother | hother := List.mem_append.mp hother
    · exact ⟨hother, hfresh other hother⟩
    · obtain rfl := List.mem_singleton.mp hother
      exact (hne hty).elim

theorem report_regular {settings : Settings} {j k : EventStore} {event : JournalEvent} {d : CommandObservation}
    {identity : Identity} {state : Option CommandState} {eventId : String} {st : CommandState}
    (h : Regular settings j) (hg : Growth settings j k (.appendCommandResult event))
    (hr : Recorded settings j k event d identity state eventId st)
    (hl : loadCommandResult settings j d.requestId = .ok state)
    (hnew : state.bind (CommandState.entry · d.author) = none) (htype : event.eventType = "command.result") :
    Regular settings k := by
  obtain ⟨hunique, hordered, hbounded, hchanged, hold⟩ := report_rows h hr hl htype
  have hother : ∀ requestId, d.requestId ≠ requestId → ∀ before,
      loadCommandResult settings j requestId = .ok before → loadCommandResult settings k requestId = .ok before :=
    fun requestId hne before hb => loadCommandResult_mono hr.extends (hr.findResult_ne hne) hb
  have hback : ∀ requestId author own, Claimed settings k requestId author own →
      (d.requestId = requestId ∧ author = d.author) ∨ Claimed settings j requestId author own := by
    intro requestId author own hc
    by_cases hreq : d.requestId = requestId
    · subst hreq
      obtain rfl | rfl := Author.eq_or_other author d.author
      · exact .inl ⟨rfl, rfl⟩
      · right
        apply Claimed.of_bind hl
        rw [← hr.other]
        exact hc.bind hr.loaded
    · obtain ⟨before, hb⟩ := h.readable requestId
      exact .inr (.of_bind hb (hc.bind (hother requestId hreq before hb)))
  have hnone : ∀ own, ¬ Claimed settings j d.requestId d.author own := by
    intro own hc
    rw [hc.bind hl] at hnew
    cases hnew
  refine ⟨?_, hunique, hordered, hbounded, hchanged, ?_, ?_, ?_⟩
  · intro requestId
    by_cases hreq : d.requestId = requestId
    · exact ⟨some st, hreq ▸ hr.loaded⟩
    · obtain ⟨before, hb⟩ := h.readable requestId
      exact ⟨before, hother requestId hreq before hb⟩
  · intro row hrow hne
    obtain ⟨hrow, hid⟩ := hold row hrow hne
    rw [hr.changes, countP_snoc, h.ordinary row hrow hne, if_neg]
    simpa [ChangeRow.about] using hid.symm
  · intro requestId author own hc
    rw [hr.changes, countP_snoc]
    by_cases hsame : d.requestId = requestId ∧ author = d.author
    · obtain ⟨rfl, rfl⟩ := hsame
      rw [h.unreported _ _ hnone, if_pos]
      simp [ChangeRow.observes]
    · obtain hown | hold := hback requestId author own hc
      · exact (hsame hown).elim
      · rw [h.reported requestId author own hold, if_neg]
        simp only [ChangeRow.observes, Option.any_some, Bool.and_eq_true, beq_iff_eq, Option.some.injEq]
        exact fun heq => hsame ⟨heq.1, heq.2.symm⟩
  · intro requestId author hc
    have hsame : ¬ (d.requestId = requestId ∧ d.author = author) := by
      intro heq
      obtain ⟨rfl, rfl⟩ := heq
      obtain ⟨own, ho, -⟩ := hr.own
      exact hc own ⟨st, hr.loaded, ho⟩
    rw [hr.changes, countP_snoc, h.unreported requestId author (fun own ho => hc own (hg.claimed ho)), if_neg]
    simpa [ChangeRow.observes] using hsame

theorem Growth.regular {settings : Settings} {j k : EventStore} {call : JournalCall}
    (h : Growth settings j k call) (hr : Regular settings j) : Regular settings k := by
  cases h with
  | ordinary he hn hi => exact ordinary_regular hr he hn hi
  | report hv hl hi hnew hrec hrecorded =>
    exact report_regular hr (.report hv hl hi hnew hrec hrecorded) hrecorded hl hnew (validateReport_ok.mp hv).choose_spec.2.1

end ModularPipelines.Journal
