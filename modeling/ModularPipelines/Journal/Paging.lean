import ModularPipelines.Journal.PageSteps

namespace ModularPipelines.Journal
open Library

/-- A later state of a journal, as appends and reports leave it. -/
structure EventStore.Continues (settings : Settings) (j k : EventStore) : Prop where
  events : Appended EventRow.cursor j.events k.events
  changes : Appended ChangeRow.changeCursor j.changes k.changes
  journal : k.journalId = j.journalId ∧ k.generation = j.generation
  effective : ∀ r ∈ j.events, shown settings k r ≠ none → shown settings j r ≠ none

theorem EventStore.Continues.refl (settings : Settings) (j : EventStore) : j.Continues settings j :=
  ⟨.refl _, .refl _, ⟨rfl, rfl⟩, fun _ _ h => h⟩

theorem EventStore.Continues.trans {settings : Settings} {j k l : EventStore} (h : j.Continues settings k)
    (h' : k.Continues settings l) : j.Continues settings l := by
  refine ⟨h.events.trans h'.events, h.changes.trans h'.changes,
    ⟨h'.journal.1.trans h.journal.1, h'.journal.2.trans h.journal.2⟩, ?_⟩
  intro r hr hshown
  exact h.effective r hr (h'.effective r (h.events.mem hr) hshown)

theorem EventStore.Continues.extends {settings : Settings} {j k : EventStore} (h : j.Continues settings k) :
    j.Extends k := by
  obtain ⟨new, hnew, -⟩ := h.events
  exact ⟨new, hnew⟩

theorem EventStore.Readable.appended_event {settings : Settings} {j : EventStore} (h : j.Readable settings)
    (event : JournalEvent) :
    Appended EventRow.cursor j.events (j.events ++ [⟨j.eventSequence + 1, event⟩]) := by
  refine ⟨_, rfl, ?_⟩
  intro r hr x hx
  rw [List.mem_singleton.mp hx]
  exact Nat.lt_succ_of_le (h.bounded r hr)

theorem EventStore.Readable.appended_change {settings : Settings} {j : EventStore} (h : j.Readable settings)
    {c : ChangeRow} (hc : c.changeCursor = j.changeSequence + 1) :
    Appended ChangeRow.changeCursor j.changes (j.changes ++ [c]) := by
  refine ⟨_, rfl, ?_⟩
  intro d hd x hx
  rw [List.mem_singleton.mp hx, hc]
  exact Nat.lt_succ_of_le (h.keyed.changeBound d hd)

theorem positive_snoc {α : Type} {key : α → Nat} {rows : List α} (h : ∀ r ∈ rows, 0 < key r) {row : α}
    (hrow : 0 < key row) : ∀ r ∈ rows ++ [row], 0 < key r := by
  intro r hr
  rcases List.mem_append.mp hr with hr | hr
  · exact h r hr
  · rw [List.mem_singleton.mp hr]
    exact hrow

theorem append_readable {settings : Settings} {j k : EventStore} {event : JournalEvent}
    (h : j.Readable settings) (ha : append settings j event = .ok k) :
    k.Readable settings ∧ j.Continues settings k := by
  have hi := append_indexed h.toIndexed ha
  have hk := (append_grows ha).keyed h.keyed
  obtain ⟨c, hcursor, hchanges, hdecode, -⟩ := append_view h.toIndexed ha
  obtain ⟨-, -, -, hafter⟩ := append_change ha
  have hevents : k.events = j.events ++ [⟨j.eventSequence + 1, event⟩] := by rw [hafter]
  have hext : j.Extends k := ⟨_, hevents⟩
  constructor
  · refine ⟨hi, hk, ⟨?_, ?_⟩, ?_⟩
    · rw [hevents]
      exact positive_snoc h.positive.1 (Nat.succ_pos _)
    · rw [hchanges]
      exact positive_snoc h.positive.2 (by omega)
    · intro d hd
      rw [hchanges] at hd
      rcases List.mem_append.mp hd with hd | hd
      · obtain ⟨item, hitem⟩ := h.decodes d hd
        exact ⟨item, decodeChange_mono hext hitem⟩
      · rw [List.mem_singleton.mp hd]
        exact hdecode
  · refine ⟨?_, ?_, ?_, ?_⟩
    · rw [hevents]
      exact h.appended_event event
    · rw [hchanges]
      exact h.appended_change hcursor
    · rw [hafter]
      exact ⟨rfl, rfl⟩
    · intro r hr hshown
      rw [← h.shown_mono hr fun d st _ hl _ => append_loads ha hl]
      exact hshown

/-- While only one author has answered, that answer is the effective one. -/
theorem sole_effective {st : CommandState} {author : Author} (h : Precedence st)
    (hnone : st.entry author = none) {id : String} (hid : id ∈ st.relatedEventIds) :
    st.effectiveEventId = id := by
  unfold Precedence at h
  unfold CommandState.relatedEventIds at hid
  cases hr : st.runner with
  | none =>
    cases hp : st.participant with
    | none => simp [hr, hp] at h
    | some p =>
      simp only [hr, hp, List.mem_singleton] at h hid
      exact h.2.1.trans hid.symm
  | some r =>
    cases hp : st.participant with
    | none =>
      simp only [hr, hp, List.mem_singleton] at h hid
      exact h.2.1.trans hid.symm
    | some p => cases author <;> simp [CommandState.entry, hr, hp] at hnone

/-- The effective event of a reported request was effective before, or is the new event. -/
theorem Recorded.effective_before {settings : Settings} {j k : EventStore} {event : JournalEvent}
    {d : CommandObservation} {identity : Identity} {state : Option CommandState} {eventId : String}
    {st : CommandState} (hrec : Recorded settings j k event d identity state eventId st)
    (hl : loadCommandResult settings j d.requestId = .ok state)
    (hnew : state.bind (CommandState.entry · d.author) = none) {r : EventRow} (hr : r ∈ j.events)
    (heff : r.event.eventId = st.effectiveEventId) :
    ∃ s, state = some s ∧ s.effectiveEventId = r.event.eventId := by
  have hsole : ∀ s, state = some s → r.event.eventId ∈ s.relatedEventIds →
      s.effectiveEventId = r.event.eventId := by
    intro s hs hmem
    subst hs
    exact sole_effective (loaded_precedence hl) hnew hmem
  rcases (hrec.related_iff hnew _).mp (effective_related hrec.loaded) with hown | ⟨s, hs, hmem⟩
  · rcases hrec.events with ⟨e, he, hid, -⟩ | ⟨snapshot, hfresh, hid, -⟩
    · obtain ⟨s, hs, he⟩ := Option.bind_eq_some_iff.mp he
      refine ⟨s, hs, hsole s hs ?_⟩
      rw [heff, hown, ← hid]
      exact mem_relatedEventIds.mpr ⟨_, e, he, rfl⟩
    · exact absurd (heff.trans (hown.trans hid.symm)) (hfresh r hr)
  · exact ⟨s, hs, hsole s hs (heff ▸ hmem)⟩

theorem report_readable {settings : Settings} {j k : EventStore} {event : JournalEvent} {eventId : String}
    (h : j.Readable settings) (ha : appendCommandResult settings j event = .ok (k, eventId)) :
    k.Readable settings ∧ j.Continues settings k := by
  have hk := (appendCommandResult_grows ha).keyed h.keyed
  obtain ⟨d, identity, state, hv, hl, hid, hcase⟩ := appendCommandResult_ok.mp ha
  rcases hcase with ⟨own, -, -, rfl, -⟩ | ⟨hnew, hrec⟩
  · exact ⟨h, .refl _ _⟩
  · obtain ⟨-, -, -, hd, -⟩ := validateReport_ok.mp hv
    obtain ⟨st, hrec⟩ := recordReport_recorded hd hl hid hrec
    have hi := recorded_indexed h.toIndexed hl hnew hrec
    obtain ⟨c, hcursor, hchanges, hdecode, -⟩ := recorded_view h.toIndexed hv hl hnew hrec
    constructor
    · refine ⟨hi, hk, ⟨?_, ?_⟩, ?_⟩
      · rcases hrec.events with ⟨e, -, -, -, hev, -⟩ | ⟨snapshot, -, -, -, -, -, -, hev, -⟩
        · rw [hev]
          exact h.positive.1
        · rw [hev]
          exact positive_snoc h.positive.1 (Nat.succ_pos _)
      · rw [hchanges]
        exact positive_snoc h.positive.2 (by omega)
      · intro c' hc
        rw [hchanges] at hc
        rcases List.mem_append.mp hc with hc | hc
        · obtain ⟨item, hitem⟩ := h.decodes c' hc
          exact ⟨item, decodeChange_mono hrec.extends hitem⟩
        · rw [List.mem_singleton.mp hc]
          exact hdecode
    · refine ⟨?_, ?_, hrec.journal, ?_⟩
      · rcases hrec.events with ⟨e, -, -, -, hev, -⟩ | ⟨snapshot, -, -, -, -, -, -, hev, -⟩
        · rw [hev]
          exact .refl _
        · rw [hev]
          exact h.appended_event snapshot
      · rw [hchanges]
        exact h.appended_change hcursor
      · intro r hr hshown
        obtain ⟨es, hes⟩ := hrec.extends
        have hr' : r ∈ k.events := hes ▸ List.mem_append_left _ hr
        by_cases hans : r.AnswersTo d.requestId
        · rw [shown_answer hi hrec.loaded hr' hans] at hshown
          split at hshown
          · next heff =>
            obtain ⟨s, rfl, hs⟩ := hrec.effective_before hl hnew hr heff
            rw [shown_answer h.toIndexed hl hr hans, if_pos hs.symm]
            exact Option.some_ne_none _
          · exact absurd rfl hshown
        · rw [h.shown_mono hr] at hshown
          · exact hshown
          · intro d₀ st₀ hd₀ hl₀ hrel
            apply hrec.loads _ hl₀
            intro hreq
            rw [← hreq] at hl₀
            exact hans ((h.related_iff hl₀ hr).mp hrel)

theorem insertEvent_positive {j k : EventStore} {event : JournalEvent} (h : j.Positive)
    (hi : insertEvent j event = .ok k) : k.Positive := by
  obtain ⟨-, -, rfl⟩ := insertEvent_ok.mp hi
  exact ⟨positive_snoc h.1 (Nat.succ_pos _), h.2⟩

theorem insertChange_positive {j : EventStore} (h : j.Positive) (eventId : String)
    (change : JournalChangeData) : (insertChange j eventId change).Positive :=
  ⟨h.1, positive_snoc h.2 (Nat.succ_pos _)⟩

theorem importEvents_positive {settings : Settings} {faults : Faults} {j l : EventStore}
    {events inserted : List JournalEvent} (hj : j.Positive)
    (h : importEvents settings faults j events = .ok (l, inserted)) : l.Positive := by
  induction events generalizing j inserted with
  | nil =>
    cases h
    exact hj
  | cons event events ih =>
    obtain ⟨-, hcase⟩ := importEvents_cons.mp h
    rcases hcase with ⟨row, -, -, -, hrest⟩ | ⟨k, rest, -, hk, hrest, -⟩
    · exact ih hj hrest
    · exact ih (insertEvent_positive hj hk) hrest

theorem importCommands_positive {settings : Settings} {faults : Faults} {j l : EventStore}
    {records : List DiagnosticCommand} {changed : List ChangedRequest} (hj : j.Positive)
    (h : importCommands settings faults j records = .ok (l, changed)) : l.Positive := by
  induction records generalizing j changed with
  | nil =>
    cases h
    exact hj
  | cons record records ih =>
    simp only [importCommands, bind_ok, interrupt_ok, exists_const, Prod.exists, pure_eq_ok,
      Except.ok.injEq, Prod.mk.injEq] at h
    obtain ⟨-, k, first, hk, l', rest, hrest, rfl, rfl⟩ := h
    have hpos : k.Positive := by
      rw [(importCommand_ok hk).1]
      exact hj
    exact ih hpos hrest

theorem recordInserted_positive {settings : Settings} {faults : Faults} {j l : EventStore}
    {events : List JournalEvent} (hj : j.Positive)
    (h : recordInserted settings faults j events = .ok l) : l.Positive := by
  induction events generalizing j with
  | nil =>
    cases h
    exact hj
  | cons event events ih =>
    simp only [recordInserted, bind_ok, interrupt_ok, exists_const] at h
    obtain ⟨-, h⟩ := h
    split at h
    · exact ih (insertChange_positive hj _ _) h
    · simp only [bind_ok] at h
      obtain ⟨row, -, entry, -, hrest⟩ := h
      exact ih hj hrest

theorem recordRequests_positive {settings : Settings} {faults : Faults} {j l : EventStore}
    {changed : List ChangedRequest} (hj : j.Positive)
    (h : recordRequests settings faults j changed = .ok l) : l.Positive := by
  induction changed generalizing j with
  | nil =>
    cases h
    exact hj
  | cons request changed ih =>
    simp only [recordRequests, bind_ok, interrupt_ok, exists_const] at h
    obtain ⟨-, k, hk, hrest⟩ := h
    obtain ⟨st, -, rfl⟩ := recordResultChange_ok.mp hk
    exact ih (insertChange_positive hj _ _) hrest

theorem importDiagnostics_positive {settings : Settings} {faults : Faults} {j l : EventStore}
    {contents : DiagnosticContents} {inserted : List JournalEvent} (hj : j.Positive)
    (h : importDiagnostics settings faults j contents = .ok (l, inserted)) : l.Positive := by
  simp only [importDiagnostics, recordRestoredChanges, bind_ok, pure_eq_ok, Except.ok.injEq,
    Prod.exists, Prod.mk.injEq] at h
  obtain ⟨k, fresh, hevents, k', changed, hcommands, m, ⟨m', hinserted, hrequests⟩, rfl, -⟩ := h
  have hk' := importCommands_positive (importEvents_positive hj hevents) hcommands
  exact recordRequests_positive (recordInserted_positive hk' hinserted) hrequests

theorem restoreTransaction_positive {settings : Settings} {contentDigest : JournalDatabase → String}
    {faults : Faults} {call : RestoreCall} {db restored : JournalDatabase} {result : RestorationResult}
    (h : db.tables.Positive) (ht : restoreTransaction settings contentDigest faults call db = .ok (restored, result)) :
    restored.tables.Positive := by
  obtain ⟨contents, -, -, -, -, hcase⟩ := restoreTransaction_ok.mp ht
  rcases hcase with ⟨previous, -, -, rfl⟩ | ⟨-, ha⟩
  · exact h
  · simp only [applyRestoration, bind_ok, pure_eq_ok, Except.ok.injEq, Prod.exists,
      Prod.mk.injEq] at ha
    obtain ⟨u, -, u', -, u'', -, restored', result', himport, -, -, -, -, -, -, rfl, rfl⟩ := ha
    obtain ⟨tables, inserted, himported, htables, -⟩ := importSnapshot_ok himport
    have hpos := importDiagnostics_positive h himported
    rw [htables]
    exact hpos

theorem create_readable (settings : Settings) (journalId generation : String) :
    (EventStore.create journalId generation).Readable settings := by
  have hkeyed : (EventStore.create journalId generation).Keyed := by
    constructor <;> simp [EventStore.create, Ordered]
  refine ⟨create_indexed journalId generation, hkeyed, ?_, ?_⟩
  · simp [EventStore.Positive, EventStore.create]
  · simp [EventStore.create]

theorem JournalDatabase.append_continues {settings : Settings} {db : JournalDatabase}
    (h : db.tables.Readable settings) (event : JournalEvent) :
    (db.append settings event).tables.Readable settings ∧
      db.tables.Continues settings (db.append settings event).tables := by
  unfold JournalDatabase.append
  split
  · next tables ha => exact append_readable h ha
  · exact ⟨h, .refl _ _⟩

theorem JournalDatabase.report_continues {settings : Settings} {db : JournalDatabase}
    (h : db.tables.Readable settings) (event : JournalEvent) :
    (db.report settings event).tables.Readable settings ∧
      db.tables.Continues settings (db.report settings event).tables := by
  unfold JournalDatabase.report
  split
  · next tables eventId ha => exact report_readable h ha
  · exact ⟨h, .refl _ _⟩

theorem JournalDatabase.step_readable {settings : Settings} {contentDigest : JournalDatabase → String}
    {db : JournalDatabase} (h : db.tables.Readable settings) (action : JournalAction) :
    (db.step settings contentDigest action).tables.Readable settings := by
  cases action with
  | append event => exact (db.append_continues h event).1
  | report event => exact (db.report_continues h event).1
  | restore call faults =>
    simp only [JournalDatabase.step]
    rcases restore_step settings contentDigest faults call db with hsame | hfirst
    · rw [hsame]
      exact h
    · obtain ⟨contents, restored, result, -, hc, hfirst⟩ := hfirst
      rw [hc]
      exact ⟨hfirst.indexed, restored.keyed,
        restoreTransaction_positive h.positive (completeRestore_ok.mp hc), hfirst.changesRead⟩

/-- Appends and reports, and no restoration. -/
def Appends (actions : List JournalAction) : Prop :=
  ∀ call faults, JournalAction.restore call faults ∉ actions

theorem JournalDatabase.run_readable {settings : Settings} {contentDigest : JournalDatabase → String}
    {db : JournalDatabase} (h : db.tables.Readable settings) (actions : List JournalAction) :
    (db.run settings contentDigest actions).tables.Readable settings := by
  induction actions generalizing db with
  | nil => exact h
  | cons action actions ih => exact ih (db.step_readable h action)

theorem JournalDatabase.run_continues {settings : Settings} {contentDigest : JournalDatabase → String}
    {db : JournalDatabase} (h : db.tables.Readable settings) {actions : List JournalAction}
    (ha : Appends actions) :
    db.tables.Continues settings (db.run settings contentDigest actions).tables := by
  induction actions generalizing db with
  | nil => exact .refl _ _
  | cons action actions ih =>
    have hrest : Appends actions := fun call faults hmem => ha call faults (List.mem_cons_of_mem _ hmem)
    apply EventStore.Continues.trans _ (ih (db.step_readable h action) hrest)
    cases action with
    | append event => exact (db.append_continues h event).2
    | report event => exact (db.report_continues h event).2
    | restore call faults => exact absurd List.mem_cons_self (ha call faults)

end ModularPipelines.Journal
