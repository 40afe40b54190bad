import Mathlib.Data.List.ReduceOption
import ModularPipelines.Journal.Filtered
import ModularPipelines.Journal.Changes

namespace ModularPipelines.Journal
open Library

/-- The row of the effective view that an event gives, if it gives one. -/
def shown (settings : Settings) (j : EventStore) (row : EventRow) : Option JournalEntry :=
  match effectiveEntry settings j row with
  | .ok entry => entry
  | .error _ => none

def viewOf (settings : Settings) (j : EventStore) : List JournalEntry :=
  j.events.filterMap (shown settings j)

def changeEntry (j : EventStore) (c : ChangeRow) : Option JournalEntry :=
  (j.findEvent c.change.effectiveEventId).map
    (fun row => row.withResult c.change.effectiveAuthor c.change.provisional)

/-- What one change does to a view. -/
def applied (j : EventStore) (rows : List JournalEntry) (c : ChangeRow) : List JournalEntry :=
  match changeEntry j c with
  | none => rows
  | some entry => insertRow JournalEntry.cursor entry
      (rows.filter (fun e => decide (e.event.eventId ∉ c.change.relatedEventIds)))

def replay (j : EventStore) (rows : List JournalEntry) (changes : List ChangeRow) : List JournalEntry :=
  changes.foldl (applied j) rows

theorem effectiveEntry_ordinary {settings : Settings} {j : EventStore} {row : EventRow}
    (h : row.event.eventType ≠ "command.result") :
    effectiveEntry settings j row = .ok (some (row.withResult none false)) := by
  rw [effectiveEntry, if_pos h]

theorem effectiveEntry_result {settings : Settings} {j : EventStore} {row : EventRow}
    {d : CommandObservation} {st : CommandState} (h : row.event.eventType = "command.result")
    (hd : readCommandResult row.event.data = some d)
    (hl : loadCommandResult settings j d.requestId = .ok (some st))
    (hr : row.event.eventId ∈ st.relatedEventIds) :
    effectiveEntry settings j row = .ok (if row.event.eventId = st.effectiveEventId
      then some (row.withResult (some st.effectiveAuthor) st.runner.isNone) else none) := by
  rw [effectiveEntry, if_neg (not_not.mpr h), validatedCommandResult_ok.mpr hd, ok_bind, hl, ok_bind]
  simp only [rejectIf_of_not (not_not.mpr hr), ok_bind]
  by_cases he : row.event.eventId = st.effectiveEventId
  · simp [he]
  · simp [he]

/-- What the rows of a journal look like between two transactions. -/
structure EventStore.Indexed (settings : Settings) (j : EventStore) : Prop where
  valid : ∀ r ∈ j.events, r.event.valid settings = true
  ordered : Ordered EventRow.cursor j.events
  bounded : ∀ r ∈ j.events, r.cursor ≤ j.eventSequence
  distinct : ∀ r ∈ j.events, ∀ r' ∈ j.events, r.event.eventId = r'.event.eventId → r = r'
  readable : ∀ requestId, ∃ state, loadCommandResult settings j requestId = .ok state
  owned : ∀ r ∈ j.events, r.event.eventType = "command.result" →
    ∃ d st, readCommandResult r.event.data = some d ∧
      loadCommandResult settings j d.requestId = .ok (some st) ∧ r.event.eventId ∈ st.relatedEventIds

theorem create_indexed {settings : Settings} (journalId generation : String) :
    (EventStore.create journalId generation).Indexed settings := by
  constructor
  · intro r hr
    cases hr
  · exact List.Pairwise.nil
  · intro r hr
    cases hr
  · intro r hr
    cases hr
  · intro requestId
    exact ⟨none, rfl⟩
  · intro r hr
    cases hr

theorem EventStore.Indexed.effectiveEntry_ok {settings : Settings} {j : EventStore}
    (h : j.Indexed settings) {r : EventRow} (hr : r ∈ j.events) :
    effectiveEntry settings j r = .ok (shown settings j r) := by
  have hsome : ∃ o, effectiveEntry settings j r = .ok o := by
    by_cases ht : r.event.eventType = "command.result"
    · obtain ⟨d, st, hd, hl, hrel⟩ := h.owned r hr ht
      exact ⟨_, effectiveEntry_result ht hd hl hrel⟩
    · exact ⟨_, effectiveEntry_ordinary ht⟩
  obtain ⟨o, ho⟩ := hsome
  simp only [shown, ho]

/-- The whole view is never refused, and holds exactly the rows that are shown. -/
theorem EventStore.Indexed.effectiveView_ok {settings : Settings} {j : EventStore}
    (h : j.Indexed settings) :
    effectiveView settings j = .ok (viewOf settings j) := by
  have hrow : ∀ r ∈ j.events, (do
      let entry ← decodeRow settings r
      effectiveEntry settings j entry) = .ok (shown settings j r) := by
    intro r hr
    rw [decodeRow_ok.mpr ⟨h.valid r hr, rfl⟩, ok_bind, h.effectiveEntry_ok hr]
  rw [effectiveView, mapM_ok_of_forall hrow, ok_bind, pure_eq_ok, List.reduceOption, List.filterMap_map]
  rfl

theorem shown_row {settings : Settings} {j : EventStore} {row : EventRow} {e : JournalEntry}
    (h : shown settings j row = some e) : e.cursor = row.cursor ∧ e.event = row.event := by
  unfold shown at h
  split at h
  · next entry he =>
    subst h
    unfold effectiveEntry at he
    split at he
    · cases he
      exact ⟨rfl, rfl⟩
    · obtain ⟨d, -, he⟩ := bind_ok.mp he
      obtain ⟨state, -, he⟩ := bind_ok.mp he
      split at he
      · cases he
      · obtain ⟨u, -, he⟩ := bind_ok.mp he
        split at he
        · cases he
        · cases he
          exact ⟨rfl, rfl⟩
  · cases h

theorem mem_viewOf {settings : Settings} {j : EventStore} {e : JournalEntry} :
    e ∈ viewOf settings j ↔ ∃ r ∈ j.events, shown settings j r = some e :=
  List.mem_filterMap

theorem EventStore.Indexed.viewOrdered {settings : Settings} {j : EventStore} (h : j.Indexed settings) :
    Ordered JournalEntry.cursor (viewOf settings j) := by
  apply List.Pairwise.filterMap (shown settings j) _ h.ordered
  intro r r' hlt e he e' he'
  rw [(shown_row he).1, (shown_row he').1]
  exact hlt

/-- A change that replaces exactly the events it names is what takes one view to the next. -/
theorem viewOf_applied {settings : Settings} {j j' : EventStore} {c : ChangeRow} (entry : JournalEntry)
    (h : j.Indexed settings) (h' : j'.Indexed settings) (he : changeEntry j' c = some entry)
    (hrel : entry.event.eventId ∈ c.change.relatedEventIds)
    (hmem : ∀ e, e ∈ viewOf settings j' ↔
      e = entry ∨ (e ∈ viewOf settings j ∧ e.event.eventId ∉ c.change.relatedEventIds)) :
    viewOf settings j' = applied j' (viewOf settings j) c := by
  have hentry : entry ∈ viewOf settings j' := (hmem entry).mpr (.inl rfl)
  simp only [applied, he]
  apply h'.viewOrdered.ext
  · apply (h.viewOrdered.filter _).insertRow
    intro a ha hc
    obtain ⟨hav, hid⟩ := List.mem_filter.mp ha
    have hid := of_decide_eq_true hid
    have hin : a ∈ viewOf settings j' := (hmem a).mpr (.inr ⟨hav, hid⟩)
    rw [h'.viewOrdered.key_injective hin hentry hc] at hid
    exact hid hrel
  · intro e
    rw [hmem, mem_insertRow, List.mem_filter, decide_eq_true_eq]

/-- An event keeps its place in the view while the request it answers keeps its row. -/
theorem EventStore.Indexed.shown_mono {settings : Settings} {j j' : EventStore} (h : j.Indexed settings)
    {r : EventRow} (hr : r ∈ j.events)
    (hl : ∀ d st, readCommandResult r.event.data = some d →
      loadCommandResult settings j d.requestId = .ok (some st) → r.event.eventId ∈ st.relatedEventIds →
      loadCommandResult settings j' d.requestId = .ok (some st)) :
    shown settings j' r = shown settings j r := by
  by_cases ht : r.event.eventType = "command.result"
  · obtain ⟨d, st, hd, hload, hrel⟩ := h.owned r hr ht
    simp only [shown, effectiveEntry_result ht hd hload hrel,
      effectiveEntry_result ht hd (hl d st hd hload hrel) hrel]
  · simp only [shown, effectiveEntry_ordinary ht]

theorem append_change {settings : Settings} {j j' : EventStore} {event : JournalEvent}
    (ha : append settings j event = .ok j') :
    (∀ r ∈ j.events, r.event.eventId ≠ event.eventId) ∧ event.valid settings = true ∧
      event.eventType ≠ "command.result" ∧
      j' = { j with eventSequence := j.eventSequence + 1,
                    events := j.events ++ [⟨j.eventSequence + 1, event⟩],
                    changeSequence := j.changeSequence + 1,
                    changes := j.changes ++ [⟨j.changeSequence + 1, event.eventId,
                      ⟨.event, none, event.eventId, none, false, true, [event.eventId], none⟩⟩] } := by
  obtain ⟨t, k, he, ht, hi, rfl⟩ := append_ok.mp ha
  obtain ⟨hfresh, -, rfl⟩ := insertEvent_ok.mp hi
  exact ⟨hfresh, encodeEvent_valid he, ht, rfl⟩

theorem append_loads {settings : Settings} {j j' : EventStore} {event : JournalEvent} {requestId : String}
    {state : Option CommandState} (ha : append settings j event = .ok j')
    (hl : loadCommandResult settings j requestId = .ok state) :
    loadCommandResult settings j' requestId = .ok state := by
  obtain ⟨-, -, -, rfl⟩ := append_change ha
  exact loadCommandResult_mono ⟨_, rfl⟩ rfl hl

/-- The order and identity of events survive an event with a fresh ID. -/
theorem EventStore.Indexed.grow {settings : Settings} {j : EventStore} {event : JournalEvent}
    (h : j.Indexed settings) (hfresh : ∀ r ∈ j.events, r.event.eventId ≠ event.eventId)
    (hv : event.valid settings = true) :
    let rows := j.events ++ [⟨j.eventSequence + 1, event⟩]
    (∀ r ∈ rows, r.event.valid settings = true) ∧ Ordered EventRow.cursor rows ∧
      (∀ r ∈ rows, r.cursor ≤ j.eventSequence + 1) ∧
      (∀ r ∈ rows, ∀ r' ∈ rows, r.event.eventId = r'.event.eventId → r = r') := by
  intro rows
  refine ⟨?_, ?_, ?_, ?_⟩
  · intro r hr
    rcases List.mem_append.mp hr with hr | hr
    · exact h.valid r hr
    · rw [List.mem_singleton.mp hr]
      exact hv
  · apply List.pairwise_append.mpr
    refine ⟨h.ordered, List.pairwise_singleton _ _, ?_⟩
    intro r hr r' hr'
    rw [List.mem_singleton.mp hr']
    exact Nat.lt_succ_of_le (h.bounded r hr)
  · intro r hr
    rcases List.mem_append.mp hr with hr | hr
    · exact (h.bounded r hr).trans (Nat.le_succ _)
    · rw [List.mem_singleton.mp hr]
  · intro r hr r' hr' hid
    rcases List.mem_append.mp hr with hr | hr
    · rcases List.mem_append.mp hr' with hr' | hr'
      · exact h.distinct r hr r' hr' hid
      · rw [List.mem_singleton.mp hr'] at hid
        exact absurd hid (hfresh r hr)
    · rcases List.mem_append.mp hr' with hr' | hr'
      · rw [List.mem_singleton.mp hr] at hid
        exact absurd hid.symm (hfresh r' hr')
      · rw [List.mem_singleton.mp hr, List.mem_singleton.mp hr']

theorem append_indexed {settings : Settings} {j j' : EventStore} {event : JournalEvent}
    (h : j.Indexed settings) (ha : append settings j event = .ok j') : j'.Indexed settings := by
  obtain ⟨hfresh, hv, ht, rfl⟩ := append_change ha
  obtain ⟨h1, h2, h3, h4⟩ := h.grow hfresh hv
  refine ⟨h1, h2, h3, h4, ?_, ?_⟩
  · intro requestId
    obtain ⟨state, hl⟩ := h.readable requestId
    exact ⟨state, append_loads ha hl⟩
  · intro r hr htype
    rcases List.mem_append.mp hr with hr | hr
    · obtain ⟨d, st, hd, hl, hrel⟩ := h.owned r hr htype
      exact ⟨d, st, hd, append_loads ha hl, hrel⟩
    · rw [List.mem_singleton.mp hr] at htype
      exact absurd htype ht

theorem append_view {settings : Settings} {j j' : EventStore} {event : JournalEvent}
    (h : j.Indexed settings) (ha : append settings j event = .ok j') :
    ∃ c, c.changeCursor = j.changeSequence + 1 ∧ j'.changes = j.changes ++ [c] ∧
      (∃ ce, decodeChange settings j' c = .ok ce) ∧
      viewOf settings j' = applied j' (viewOf settings j) c := by
  have h' := append_indexed h ha
  have hold : ∀ r ∈ j.events, shown settings j' r = shown settings j r := fun r hr =>
    h.shown_mono hr (fun d st _ hl _ => append_loads ha hl)
  obtain ⟨hfresh, hv, ht, rfl⟩ := append_change ha
  have hfound := findEvent_appended ⟨j.eventSequence + 1, event⟩ hfresh (j.eventSequence + 1)
  refine ⟨_, rfl, rfl, eventChange_decodes (eventEntry_ok.mpr ⟨hfound, hv⟩) ht rfl, ?_⟩
  apply viewOf_applied ⟨j.eventSequence + 1, event, none, false⟩ h h'
  · simp only [changeEntry, EventStore.findEvent] at hfound ⊢
    rw [hfound]
    rfl
  · exact List.mem_singleton.mpr rfl
  · intro e
    rw [mem_viewOf, mem_viewOf]
    constructor
    · intro h'
      obtain ⟨r, hr, he⟩ := h'
      rcases List.mem_append.mp hr with hr | hr
      · rw [hold r hr] at he
        refine .inr ⟨⟨r, hr, he⟩, ?_⟩
        rw [(shown_row he).2]
        exact fun hmem => hfresh r hr (List.mem_singleton.mp hmem)
      · rw [List.mem_singleton.mp hr, shown, effectiveEntry_ordinary ht] at he
        exact .inl (Option.some.inj he).symm
    · intro hcase
      rcases hcase with rfl | ⟨⟨r, hr, he⟩, -⟩
      · refine ⟨_, List.mem_append_right _ (List.mem_singleton.mpr rfl), ?_⟩
        rw [shown, effectiveEntry_ordinary ht]
        rfl
      · refine ⟨r, List.mem_append_left _ hr, ?_⟩
        rw [hold r hr, he]

def EventRow.AnswersTo (r : EventRow) (requestId : String) : Prop :=
  r.event.eventType = "command.result" ∧
    ∃ d, readCommandResult r.event.data = some d ∧ d.requestId = requestId

/-- The events a row refers to are the events that answer its request. -/
theorem EventStore.Indexed.related_iff {settings : Settings} {j : EventStore} {requestId : String}
    {st : CommandState} (h : j.Indexed settings)
    (hl : loadCommandResult settings j requestId = .ok (some st)) {r : EventRow} (hr : r ∈ j.events) :
    r.event.eventId ∈ st.relatedEventIds ↔ r.AnswersTo requestId := by
  constructor
  · intro hid
    obtain ⟨author, e, he, hid⟩ := mem_relatedEventIds.mp hid
    obtain ⟨hf, -, hdec⟩ := loaded_entry hl he
    obtain ⟨-, ht, hd, hreq, -⟩ := decodeAuthorObservation_ok.mp hdec
    have hrow := h.distinct r hr e.entry (List.mem_of_find?_eq_some hf)
      (hid.symm.trans (findEvent_eventId hf).symm)
    rw [hrow]
    exact ⟨ht, e.result, validatedCommandResult_ok.mp hd, hreq⟩
  · intro ⟨ht, d, hd, hreq⟩
    obtain ⟨d', st', hd', hl', hrel⟩ := h.owned r hr ht
    obtain rfl := Option.some.inj (hd.symm.trans hd')
    rw [hreq, hl] at hl'
    obtain rfl := Option.some.inj (Except.ok.inj hl')
    exact hrel

theorem shown_answer {settings : Settings} {j : EventStore} {requestId : String} {st : CommandState}
    {r : EventRow} (h : j.Indexed settings)
    (hl : loadCommandResult settings j requestId = .ok (some st)) (hr : r ∈ j.events)
    (ha : r.AnswersTo requestId) :
    shown settings j r = if r.event.eventId = st.effectiveEventId
      then some (r.withResult (some st.effectiveAuthor) st.runner.isNone) else none := by
  have hrel := (h.related_iff hl hr).mpr ha
  obtain ⟨ht, d, hd, rfl⟩ := ha
  simp only [shown, effectiveEntry_result ht hd hl hrel]

theorem marked_requestId (other : Option AuthorEntry) (d : CommandObservation) :
    (marked other d).requestId = d.requestId := by
  unfold marked
  split
  · rfl
  · split <;> rfl

/-- The events of the request after a first report: the reported one and those before it. -/
theorem Recorded.related_iff {settings : Settings} {j j' : EventStore} {event : JournalEvent}
    {d : CommandObservation} {identity : Identity} {state : Option CommandState} {eventId : String}
    {st : CommandState} (h : Recorded settings j j' event d identity state eventId st)
    (hnew : state.bind (CommandState.entry · d.author) = none) (id : String) :
    id ∈ st.relatedEventIds ↔ id = eventId ∨ ∃ s ∈ state, id ∈ s.relatedEventIds := by
  obtain ⟨own, hown, hid, -⟩ := h.own
  constructor
  · intro hmem
    obtain ⟨author, e, he, rfl⟩ := mem_relatedEventIds.mp hmem
    rcases Author.eq_or_other author d.author with rfl | rfl
    · rw [hown] at he
      cases he
      exact .inl hid
    · rw [h.other] at he
      obtain ⟨s, hs, he⟩ := Option.bind_eq_some_iff.mp he
      exact .inr ⟨s, hs, mem_relatedEventIds.mpr ⟨_, e, he, rfl⟩⟩
  · intro hcase
    rcases hcase with rfl | ⟨s, hs, hmem⟩
    · exact mem_relatedEventIds.mpr ⟨_, own, hown, hid⟩
    · obtain ⟨author, e, he, rfl⟩ := mem_relatedEventIds.mp hmem
      rcases Author.eq_or_other author d.author with rfl | rfl
      · rw [Option.mem_def.mp hs, Option.bind_some, he] at hnew
        cases hnew
      · refine mem_relatedEventIds.mpr ⟨_, e, h.other.trans ?_, rfl⟩
        rw [Option.mem_def.mp hs, Option.bind_some, he]

theorem Recorded.loads {settings : Settings} {j j' : EventStore} {event : JournalEvent}
    {d : CommandObservation} {identity : Identity} {state : Option CommandState} {eventId requestId : String}
    {st : CommandState} (h : Recorded settings j j' event d identity state eventId st)
    (hne : d.requestId ≠ requestId) {r : Option CommandState}
    (hl : loadCommandResult settings j requestId = .ok r) :
    loadCommandResult settings j' requestId = .ok r :=
  loadCommandResult_mono h.extends (h.findResult_ne hne) hl

theorem recorded_indexed {settings : Settings} {j j' : EventStore} {event : JournalEvent}
    {d : CommandObservation} {identity : Identity} {state : Option CommandState} {eventId : String}
    {st : CommandState} (h : j.Indexed settings)
    (hl : loadCommandResult settings j d.requestId = .ok state)
    (hnew : state.bind (CommandState.entry · d.author) = none)
    (hrec : Recorded settings j j' event d identity state eventId st) : j'.Indexed settings := by
  have hreadable : ∀ requestId, ∃ state, loadCommandResult settings j' requestId = .ok state := by
    intro requestId
    by_cases hreq : d.requestId = requestId
    · exact ⟨some st, hreq ▸ hrec.loaded⟩
    · obtain ⟨s, hs⟩ := h.readable requestId
      exact ⟨s, hrec.loads hreq hs⟩
  have hold : ∀ r ∈ j.events, r.event.eventType = "command.result" →
      ∃ d st, readCommandResult r.event.data = some d ∧
        loadCommandResult settings j' d.requestId = .ok (some st) ∧
        r.event.eventId ∈ st.relatedEventIds := by
    intro r hr htype
    obtain ⟨d₀, st₀, hd₀, hl₀, hrel⟩ := h.owned r hr htype
    by_cases hreq : d.requestId = d₀.requestId
    · rw [← hreq, hl] at hl₀
      obtain rfl := Except.ok.inj hl₀
      exact ⟨d₀, st, hd₀, hreq ▸ hrec.loaded,
        (hrec.related_iff hnew _).mpr (.inr ⟨st₀, rfl, hrel⟩)⟩
    · exact ⟨d₀, st₀, hd₀, hrec.loads hreq hl₀, hrel⟩
  rcases hrec.events with ⟨e, -, -, -, hev, hseq⟩ | ⟨snapshot, hfresh, hid, hv, hs, hread, -, hev, hseq⟩
  · refine ⟨?_, ?_, ?_, ?_, hreadable, ?_⟩
    · rw [hev]
      exact h.valid
    · rw [hev]
      exact h.ordered
    · rw [hev, hseq]
      exact h.bounded
    · rw [hev]
      exact h.distinct
    · rw [hev]
      exact hold
  · obtain ⟨h1, h2, h3, h4⟩ := h.grow hfresh hv
    refine ⟨?_, ?_, ?_, ?_, hreadable, ?_⟩
    · rw [hev]
      exact h1
    · rw [hev]
      exact h2
    · rw [hev, hseq]
      exact h3
    · rw [hev]
      exact h4
    · rw [hev]
      intro r hr htype
      rcases List.mem_append.mp hr with hr | hr
      · exact hold r hr htype
      · rw [List.mem_singleton.mp hr]
        refine ⟨_, st, hread, ?_, ?_⟩
        · rw [marked_requestId]
          exact hrec.loaded
        · exact (hrec.related_iff hnew _).mpr (.inl hid)

theorem Recorded.mem_events {settings : Settings} {j j' : EventStore} {event : JournalEvent}
    {d : CommandObservation} {identity : Identity} {state : Option CommandState} {eventId : String}
    {st : CommandState} (h : Recorded settings j j' event d identity state eventId st) {r : EventRow}
    (hr : r ∈ j'.events) : r ∈ j.events ∨ r.event.eventId = eventId := by
  rcases h.events with ⟨e, -, -, -, hev, -⟩ | ⟨snapshot, -, hid, -, -, -, -, hev, -⟩
  · rw [hev] at hr
    exact .inl hr
  · rw [hev] at hr
    rcases List.mem_append.mp hr with hr | hr
    · exact .inl hr
    · rw [List.mem_singleton.mp hr]
      exact .inr hid

theorem recorded_view {settings : Settings} {j j' : EventStore} {event : JournalEvent}
    {d : CommandObservation} {identity : Identity} {state : Option CommandState} {eventId : String}
    {st : CommandState} (h : j.Indexed settings)
    (hv : validateReport settings event = .ok (d, identity))
    (hl : loadCommandResult settings j d.requestId = .ok state)
    (hnew : state.bind (CommandState.entry · d.author) = none)
    (hrec : Recorded settings j j' event d identity state eventId st) :
    ∃ c, c.changeCursor = j.changeSequence + 1 ∧ j'.changes = j.changes ++ [c] ∧
      (∃ ce, decodeChange settings j' c = .ok ce) ∧
      viewOf settings j' = applied j' (viewOf settings j) c := by
  have h' := recorded_indexed h hl hnew hrec
  obtain ⟨row, hrow, hf, hid⟩ := related_event hrec.loaded (effective_related hrec.loaded)
  obtain ⟨t, he, -, hd, -, -, hi, hr⟩ := validateReport_ok.mp hv
  have hobs := JournalEvent.valid_context (encodeEvent_valid he)
  have hown : eventId ∈ st.relatedEventIds := (hrec.related_iff hnew eventId).mpr (.inl rfl)
  refine ⟨_, rfl, hrec.changes, resultChange_decodes hrec.loaded (readCommandResult_requestId hd) hown hobs
    (hrec.identity ▸ hi) hr rfl, ?_⟩
  -- only events of the reported request are shown otherwise than before
  have hkeep : ∀ r ∈ j.events, ¬ r.AnswersTo d.requestId → shown settings j' r = shown settings j r := by
    intro r hr hother
    apply h.shown_mono hr
    intro d₀ st₀ hd₀ hl₀ hrel
    apply hrec.loads _ hl₀
    intro hreq
    rw [← hreq] at hl₀
    exact hother ((h.related_iff hl₀ hr).mp hrel)
  have hansr : ∀ r ∈ j'.events, r.AnswersTo d.requestId ↔ r.event.eventId ∈ st.relatedEventIds :=
    fun r hr => (h'.related_iff hrec.loaded hr).symm
  have hentry : shown settings j' row = some (row.withResult (some st.effectiveAuthor) st.runner.isNone) := by
    rw [shown_answer h' hrec.loaded hrow ((hansr row hrow).mpr (hid ▸ effective_related hrec.loaded)),
      if_pos hid]
  apply viewOf_applied (row.withResult (some st.effectiveAuthor) st.runner.isNone) h h'
  · simp only [changeEntry, hf, Option.map_some]
  · exact hid ▸ effective_related hrec.loaded
  · intro e
    rw [mem_viewOf, mem_viewOf]
    constructor
    · intro ⟨r, hr, he⟩
      by_cases hans : r.AnswersTo d.requestId
      · rw [shown_answer h' hrec.loaded hr hans] at he
        split at he
        · next heff =>
          rw [h'.distinct r hr row hrow (heff.trans hid.symm)] at he
          exact .inl (Option.some.inj he).symm
        · cases he
      · have hnot := (hansr r hr).not.mp hans
        have hmem : r ∈ j.events := by
          rcases hrec.mem_events hr with hmem | hmem
          · exact hmem
          · exact absurd ((hrec.related_iff hnew _).mpr (.inl hmem)) hnot
        rw [hkeep r hmem hans] at he
        refine .inr ⟨⟨r, hmem, he⟩, ?_⟩
        rwa [(shown_row he).2]
    · intro hcase
      rcases hcase with rfl | ⟨⟨r, hr, he⟩, hnot⟩
      · exact ⟨row, hrow, hentry⟩
      · rw [(shown_row he).2] at hnot
        obtain ⟨es, hes⟩ := hrec.extends
        have hr' : r ∈ j'.events := hes ▸ List.mem_append_left _ hr
        exact ⟨r, hr', by rw [hkeep r hr ((hansr r hr').not.mpr hnot), he]⟩

end ModularPipelines.Journal
