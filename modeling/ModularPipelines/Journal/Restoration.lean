import ModularPipelines.Journal.RestoreImport

namespace ModularPipelines.Journal
open Library

def JournalDatabase.identity (db : JournalDatabase) : String × String :=
  (db.tables.journalId, db.tables.generation)

def JournalDatabase.findRestoration (db : JournalDatabase) (restorationId : String) :
    Option RestorationRow :=
  db.restorations.find? (fun r => r.restorationId == restorationId)

/-- The import into a checked snapshot, its new generation and its own record. -/
def importSnapshot (settings : Settings) (faults : Faults) (contents : DiagnosticContents)
    (call : RestoreCall) (db : JournalDatabase) :
    Except JournalError (JournalDatabase × RestorationResult) :=
  match h : importDiagnostics settings faults db.tables contents with
  | .error e => .error e
  | .ok (tables, inserted) => do
    interrupt faults .generation
    let published : EventStore := { tables with generation := call.newGeneration }
    let result : RestorationResult :=
      ⟨readBoundary published, call.restorationId, call.manifest.snapshotId, inserted.length⟩
    interrupt faults .record
    let row : RestorationRow := ⟨call.restorationId, call.parameters, result.document.dumps⟩
    return (⟨published, db.restorations ++ [row], db.schemaVersion,
      (importDiagnostics_keyed db.keyed h).setGeneration call.newGeneration⟩, result)

def applyRestoration (settings : Settings) (contentDigest : JournalDatabase → String) (faults : Faults)
    (contents : DiagnosticContents) (call : RestoreCall) (db : JournalDatabase) :
    Except JournalError (JournalDatabase × RestorationResult) := do
  rejectIf (db.identity ≠ call.identity) .generationChanged
  interrupt faults .check
  checkRestoredSnapshot settings contentDigest db call.manifest
  let (restored, result) ← importSnapshot settings faults contents call db
  interrupt faults .validate
  validateSnapshotSource settings restored.tables
  interrupt faults .commit
  return (restored, result)

/-- `_restore_journal_records` between BEGIN and COMMIT. -/
def restoreJournalRecords (settings : Settings) (contentDigest : JournalDatabase → String)
    (faults : Faults) (contents : DiagnosticContents) (call : RestoreCall) (db : JournalDatabase) :
    Except JournalError (JournalDatabase × RestorationResult) := do
  rejectIf (call.expectedJournal ≠ call.identity ∧ call.expectedJournal ≠ db.identity)
    (.state "Restoration client must identify the restored journal.")
  match db.findRestoration call.restorationId with
  | some previous => do
    let result ← recordedRestorationResult previous call db.identity
    return (db, result)
  | none => applyRestoration settings contentDigest faults contents call db

def restoreTransaction (settings : Settings) (contentDigest : JournalDatabase → String)
    (faults : Faults) (call : RestoreCall) (db : JournalDatabase) :
    Except JournalError (JournalDatabase × RestorationResult) := do
  rejectIf (call.newGeneration = call.manifest.generation)
    (.value "Restoration requires a fresh generation.")
  let contents ← prepareRestoreImport settings call
  interrupt faults .read
  restoreJournalRecords settings contentDigest faults contents call db

/-- `complete_restore`: every failure rolls the transaction back. -/
def completeRestore (settings : Settings) (contentDigest : JournalDatabase → String) (faults : Faults)
    (call : RestoreCall) (db : JournalDatabase) :
    JournalDatabase × Except JournalError RestorationResult :=
  match restoreTransaction settings contentDigest faults call db with
  | .ok (restored, result) => (restored, .ok result)
  | .error e => (db, .error e)

def JournalDatabase.create (journalId generation : String) (schemaVersion : Nat) : JournalDatabase :=
  ⟨EventStore.create journalId generation, [], schemaVersion, by constructor <;> simp [EventStore.create, Ordered]⟩

/-- What may happen to a journal file: ordinary appends, reports, and restorations. -/
inductive JournalAction where
  | append (event : JournalEvent)
  | report (event : JournalEvent)
  | restore (call : RestoreCall) (faults : Faults)

/-- What every append keeps: the key constraints and the name of the journal. -/
structure EventStore.Grows (j k : EventStore) : Prop where
  keyed : j.Keyed → k.Keyed
  journalId : k.journalId = j.journalId
  generation : k.generation = j.generation

theorem EventStore.Grows.refl (j : EventStore) : j.Grows j :=
  ⟨id, rfl, rfl⟩

theorem EventStore.Grows.trans {j k l : EventStore} (h : j.Grows k) (h' : k.Grows l) : j.Grows l :=
  ⟨fun hj => h'.keyed (h.keyed hj), h'.journalId.trans h.journalId, h'.generation.trans h.generation⟩

theorem insertEvent_grows {j k : EventStore} {event : JournalEvent} (h : insertEvent j event = .ok k) :
    j.Grows k := by
  refine ⟨fun hj => hj.insertEvent h, ?_, ?_⟩
  · rw [insertEvent_addEvents h, EventStore.addEvents]
  · rw [insertEvent_addEvents h, EventStore.addEvents]

theorem insertChange_grows (j : EventStore) (eventId : String) (change : JournalChangeData) :
    j.Grows (insertChange j eventId change) :=
  ⟨fun hj => hj.insertChange eventId change, rfl, rfl⟩

theorem saveCommandState_grows {j k : EventStore} {requestId : String} {identity : Identity}
    {runner participant : Option AuthorColumns}
    (h : saveCommandState j requestId identity runner participant = .ok k) : j.Grows k := by
  refine ⟨fun hj => hj.saveCommandState h, ?_, ?_⟩
  · obtain ⟨effective, -, rfl⟩ := saveCommandState_ok.mp h
    rfl
  · obtain ⟨effective, -, rfl⟩ := saveCommandState_ok.mp h
    rfl

theorem append_grows {settings : Settings} {j k : EventStore} {event : JournalEvent}
    (h : append settings j event = .ok k) : j.Grows k := by
  obtain ⟨t, k', -, -, hk, rfl⟩ := append_ok.mp h
  exact (insertEvent_grows hk).trans (insertChange_grows _ _ _)

theorem writeReport_grows {settings : Settings} {j k : EventStore} {other : Option AuthorEntry}
    {event : JournalEvent} {d : CommandObservation} {eventId : String}
    (h : writeReport settings j other event d = .ok (k, eventId)) : j.Grows k := by
  rcases writeReport_ok.mp h with ⟨e, -, -, -, rfl⟩ | ⟨snapshot, t, -, -, hk, -⟩
  · exact EventStore.Grows.refl _
  · exact insertEvent_grows hk

theorem recordReport_grows {settings : Settings} {j k : EventStore} {event : JournalEvent}
    {d : CommandObservation} {identity : Identity} {state : Option CommandState} {eventId : String}
    (h : recordReport settings j event d identity state = .ok (k, eventId)) : j.Grows k := by
  simp only [recordReport, bind_ok, pure_eq_ok, Except.ok.injEq, Prod.exists, Prod.mk.injEq] at h
  obtain ⟨j1, id1, hwrite, j2, hsave, j3, hchange, rfl, -⟩ := h
  obtain ⟨st, -, rfl⟩ := recordResultChange_ok.mp hchange
  exact ((writeReport_grows hwrite).trans (saveCommandState_grows hsave)).trans (insertChange_grows _ _ _)

theorem appendCommandResult_grows {settings : Settings} {j k : EventStore} {event : JournalEvent}
    {eventId : String} (h : appendCommandResult settings j event = .ok (k, eventId)) : j.Grows k := by
  simp only [appendCommandResult, bind_ok, rejectIf_ok, exists_const, Prod.exists] at h
  obtain ⟨d, identity, -, state, -, -, h⟩ := h
  cases hown : state.bind (CommandState.entry · d.author) with
  | some own =>
    simp only [hown, bind_ok, rejectIf_ok, exists_const, pure_eq_ok, Except.ok.injEq,
      Prod.mk.injEq] at h
    obtain ⟨-, rfl, -⟩ := h
    exact EventStore.Grows.refl _
  | none =>
    simp only [hown] at h
    exact recordReport_grows h

def JournalDatabase.append (settings : Settings) (db : JournalDatabase) (event : JournalEvent) :
    JournalDatabase :=
  match h : Journal.append settings db.tables event with
  | .ok tables => { db with tables := tables, keyed := (append_grows h).keyed db.keyed }
  | .error _ => db

def JournalDatabase.report (settings : Settings) (db : JournalDatabase) (event : JournalEvent) :
    JournalDatabase :=
  match h : Journal.appendCommandResult settings db.tables event with
  | .ok (tables, _) => { db with tables := tables, keyed := (appendCommandResult_grows h).keyed db.keyed }
  | .error _ => db

def JournalDatabase.step (settings : Settings) (contentDigest : JournalDatabase → String)
    (db : JournalDatabase) : JournalAction → JournalDatabase
  | .append event => db.append settings event
  | .report event => db.report settings event
  | .restore call faults => (completeRestore settings contentDigest faults call db).1

def JournalDatabase.run (settings : Settings) (contentDigest : JournalDatabase → String)
    (db : JournalDatabase) (actions : List JournalAction) : JournalDatabase :=
  actions.foldl (JournalDatabase.step settings contentDigest) db

/-- The journal that a first successful restoration leaves. -/
structure Restored (settings : Settings) (snapshot : JournalDatabase) (contents : DiagnosticContents)
    (call : RestoreCall) (restored : JournalDatabase) (result : RestorationResult) : Prop where
  imported : ∃ tables, Imported snapshot.tables contents tables ∧
    restored.tables = { tables with generation := call.newGeneration }
  indexed : restored.tables.Indexed settings
  changesRead : ∀ c ∈ restored.tables.changes, ∃ entry, decodeChange settings restored.tables c = .ok entry
  restorations : restored.restorations = snapshot.restorations ++
    [⟨call.restorationId, call.parameters, result.document.dumps⟩]
  result : result = ⟨readBoundary restored.tables, call.restorationId, call.manifest.snapshotId,
    (freshEvents snapshot.tables contents.events).length⟩
  identified : snapshot.identity = call.identity
  expected : call.expectedJournal = call.identity
  prepared : prepareRestoreImport settings call = .ok contents
  generation : call.newGeneration ≠ call.manifest.generation

theorem readNat_natCast (n : Nat) : readNat (.int n) = some n := by
  simp [readNat]

theorem RestorationResult.read_document (r : RestorationResult) : read r.document = some r := by
  have hkeys : r.document.keys = resultFields := rfl
  have hchange : r.document.get? "change_cursor" = some (.int r.boundary.changeCursor) := rfl
  have hcursor : r.document.get? "cursor" = some (.int r.boundary.cursor) := rfl
  have hcount : r.document.get? "event_count" = some (.int r.boundary.eventCount) := rfl
  have hgeneration : r.document.get? "generation" = some (.str r.boundary.generation) := rfl
  have himported : r.document.get? "imported_events" = some (.int r.importedEvents) := rfl
  have hjournal : r.document.get? "journal_id" = some (.str r.boundary.journalId) := rfl
  have hrestoration : r.document.get? "restoration_id" = some (.str r.restorationId) := rfl
  have hsnapshot : r.document.get? "snapshot_id" = some (.str r.snapshotId) := rfl
  rw [read, if_pos hkeys, hchange, hcursor, hcount, hgeneration, himported, hjournal, hrestoration,
    hsnapshot]
  simp only [Option.bind_some, readNat_natCast, readString]
  rfl

theorem recordedRestorationResult_ok {call : RestoreCall} {actual : String × String}
    {restorationId parameters : String} {result r : RestorationResult} :
    recordedRestorationResult ⟨restorationId, parameters, result.document.dumps⟩ call actual = .ok r ↔
      parameters = call.parameters ∧ result.restorationId = call.restorationId ∧
      result.boundary.generation = call.newGeneration ∧
      actual = (result.boundary.journalId, result.boundary.generation) ∧ r = result := by
  simp only [recordedRestorationResult, Json.loads_dumps, Option.bind_some,
    RestorationResult.read_document, bind_ok, rejectIf_ok, exists_const, pure_eq_ok, Except.ok.injEq,
    ne_eq, not_not, not_or, and_assoc, eq_comm (a := r)]

theorem importSnapshot_ok {settings : Settings} {faults : Faults} {contents : DiagnosticContents}
    {call : RestoreCall} {db restored : JournalDatabase} {result : RestorationResult}
    (h : importSnapshot settings faults contents call db = .ok (restored, result)) :
    ∃ tables inserted, importDiagnostics settings faults db.tables contents = .ok (tables, inserted) ∧
      restored.tables = { tables with generation := call.newGeneration } ∧
      result = ⟨readBoundary restored.tables, call.restorationId, call.manifest.snapshotId,
        inserted.length⟩ ∧
      restored.restorations = db.restorations ++
        [⟨call.restorationId, call.parameters, result.document.dumps⟩] := by
  unfold importSnapshot at h
  split at h
  · cases h
  · next tables inserted himport =>
    simp only [bind_ok, interrupt_ok, exists_const, pure_eq_ok, Except.ok.injEq, Prod.mk.injEq] at h
    obtain ⟨-, -, rfl, rfl⟩ := h
    exact ⟨tables, inserted, himport, rfl, rfl, rfl⟩

theorem restoreTransaction_ok {settings : Settings} {contentDigest : JournalDatabase → String}
    {faults : Faults} {call : RestoreCall} {db restored : JournalDatabase} {result : RestorationResult} :
    restoreTransaction settings contentDigest faults call db = .ok (restored, result) ↔
      ∃ contents, call.newGeneration ≠ call.manifest.generation ∧
        prepareRestoreImport settings call = .ok contents ∧ faults .read = false ∧
        (call.expectedJournal = call.identity ∨ call.expectedJournal = db.identity) ∧
        ((∃ previous, db.findRestoration call.restorationId = some previous ∧
            recordedRestorationResult previous call db.identity = .ok result ∧ restored = db) ∨
          (db.findRestoration call.restorationId = none ∧
            applyRestoration settings contentDigest faults contents call db = .ok (restored, result))) := by
  simp only [restoreTransaction, restoreJournalRecords, bind_ok, rejectIf_ok, interrupt_ok, exists_const]
  cases hf : db.findRestoration call.restorationId with
  | none =>
    simp only [ne_eq, reduceCtorEq, false_and, exists_false, false_or, true_and]
    constructor
    · intro h'
      obtain ⟨hg, contents, hp, hr, he, ha⟩ := h'
      exact ⟨contents, hg, hp, hr, by tauto, ha⟩
    · intro h'
      obtain ⟨contents, hg, hp, hr, he, ha⟩ := h'
      exact ⟨hg, contents, hp, hr, by tauto, ha⟩
  | some previous =>
    simp only [ne_eq, reduceCtorEq, false_and, or_false, bind_ok, pure_eq_ok, Except.ok.injEq,
      Prod.mk.injEq, Option.some.injEq]
    constructor
    · intro h'
      obtain ⟨hg, contents, hp, hr, he, r, ha, hdb, hresult⟩ := h'
      subst hresult
      exact ⟨contents, hg, hp, hr, by tauto, previous, rfl, ha, hdb.symm⟩
    · intro h'
      obtain ⟨contents, hg, hp, hr, he, p, hprevious, ha, hdb⟩ := h'
      subst hprevious
      exact ⟨hg, contents, hp, hr, by tauto, result, ha, hdb.symm, rfl⟩

theorem completeRestore_ok {settings : Settings} {contentDigest : JournalDatabase → String}
    {faults : Faults} {call : RestoreCall} {db restored : JournalDatabase} {result : RestorationResult} :
    completeRestore settings contentDigest faults call db = (restored, .ok result) ↔
      restoreTransaction settings contentDigest faults call db = .ok (restored, result) := by
  unfold completeRestore
  cases ht : restoreTransaction settings contentDigest faults call db with
  | error e => simp
  | ok r =>
    obtain ⟨restored', result'⟩ := r
    simp

theorem completeRestore_error {settings : Settings} {contentDigest : JournalDatabase → String}
    {faults : Faults} {call : RestoreCall} {db : JournalDatabase} {e : JournalError}
    (h : (completeRestore settings contentDigest faults call db).2 = .error e) :
    (completeRestore settings contentDigest faults call db).1 = db := by
  unfold completeRestore at h ⊢
  split
  · next restored result ht =>
    rw [ht] at h
    cases h
  · rfl

theorem validateSnapshotSource_changes {settings : Settings} {j : EventStore} {c : ChangeRow}
    (h : validateSnapshotSource settings j = .ok ()) (hc : c ∈ j.changes) :
    ∃ entry, decodeChange settings j c = .ok entry := by
  simp only [validateSnapshotSource, bind_ok] at h
  obtain ⟨entries, -, states, -, changes, hchanges, -⟩ := h
  exact mapM_ok_each hchanges c hc

theorem first_restoration {settings : Settings} {contentDigest : JournalDatabase → String}
    {faults : Faults} {call : RestoreCall} {snapshot restored : JournalDatabase}
    {result : RestorationResult} (hnew : snapshot.findRestoration call.restorationId = none)
    (h : completeRestore settings contentDigest faults call snapshot = (restored, .ok result)) :
    ∃ contents, Restored settings snapshot contents call restored result := by
  obtain ⟨contents, hg, hp, -, he, hcase⟩ := restoreTransaction_ok.mp (completeRestore_ok.mp h)
  rcases hcase with ⟨previous, hf, -⟩ | ⟨-, ha⟩
  · rw [hnew] at hf
    cases hf
  · simp only [applyRestoration, bind_ok, rejectIf_ok, interrupt_ok, exists_const, pure_eq_ok,
      Except.ok.injEq, Prod.exists, Prod.mk.injEq, ne_eq, not_not] at ha
    obtain ⟨hid, -, u, -, restored', result', himport, -, u', hvalid, -, rfl, rfl⟩ := ha
    obtain ⟨tables, inserted, himported, htables, hresult, hrows⟩ := importSnapshot_ok himport
    obtain ⟨hspec, hinserted⟩ := importDiagnostics_ok (prepareRestoreImport_distinct hp) himported
    have hexpected : call.expectedJournal = call.identity := by
      rcases he with he | he
      · exact he
      · exact he.trans hid
    exact ⟨contents, ⟨tables, hspec, htables⟩, validateSnapshotSource_indexed restored'.keyed hvalid,
      fun c hc => validateSnapshotSource_changes hvalid hc, hrows, hinserted ▸ hresult, hid, hexpected,
      hp, hg⟩

/-- A restoration call changes nothing, or is the first one of its ID. -/
theorem restore_step (settings : Settings) (contentDigest : JournalDatabase → String) (faults : Faults)
    (call : RestoreCall) (db : JournalDatabase) :
    (completeRestore settings contentDigest faults call db).1 = db ∨
      ∃ contents restored result, db.findRestoration call.restorationId = none ∧
        completeRestore settings contentDigest faults call db = (restored, .ok result) ∧
        Restored settings db contents call restored result := by
  cases hc : completeRestore settings contentDigest faults call db with
  | mk restored outcome =>
    cases outcome with
    | error e =>
      have herror := completeRestore_error (congrArg Prod.snd hc)
      rw [hc] at herror
      exact .inl herror
    | ok result =>
      cases hf : db.findRestoration call.restorationId with
      | none =>
        obtain ⟨contents, h⟩ := first_restoration hf hc
        exact .inr ⟨contents, restored, result, rfl, rfl, h⟩
      | some previous =>
        obtain ⟨contents, -, -, -, -, hcase⟩ := restoreTransaction_ok.mp (completeRestore_ok.mp hc)
        rcases hcase with ⟨-, -, -, h⟩ | ⟨hnone, -⟩
        · exact .inl h
        · rw [hf] at hnone
          cases hnone

/-- A journal some time after a restoration. -/
structure Since (call : RestoreCall) (result : RestorationResult) (restored db : JournalDatabase) :
    Prop where
  row : db.findRestoration call.restorationId =
    some ⟨call.restorationId, call.parameters, result.document.dumps⟩
  journalId : db.tables.journalId = restored.tables.journalId
  current : ∃ later, db.restorations = restored.restorations ++ later ∧
    (later = [] → db.tables.generation = restored.tables.generation)

theorem findRestoration_append {db db' : JournalDatabase} {rows : List RestorationRow} {restorationId : String}
    {row : RestorationRow} (h : db'.restorations = db.restorations ++ rows)
    (hf : db.findRestoration restorationId = some row) : db'.findRestoration restorationId = some row := by
  rw [JournalDatabase.findRestoration] at hf ⊢
  rw [h, List.find?_append, hf, Option.some_or]

theorem Restored.since {settings : Settings} {snapshot restored : JournalDatabase}
    {contents : DiagnosticContents} {call : RestoreCall} {result : RestorationResult}
    (h : Restored settings snapshot contents call restored result)
    (hnew : snapshot.findRestoration call.restorationId = none) : Since call result restored restored := by
  refine ⟨?_, rfl, [], (List.append_nil _).symm, fun _ => rfl⟩
  rw [JournalDatabase.findRestoration] at hnew ⊢
  rw [h.restorations, List.find?_append, hnew]
  simp

theorem Since.grow {call : RestoreCall} {result : RestorationResult} {restored db db' : JournalDatabase}
    (h : Since call result restored db) (hg : db.tables.Grows db'.tables)
    (hr : db'.restorations = db.restorations) : Since call result restored db' := by
  obtain ⟨later, hlater, hcurrent⟩ := h.current
  refine ⟨?_, hg.journalId.trans h.journalId, later, hr.trans hlater, fun he => hg.generation.trans (hcurrent he)⟩
  rw [JournalDatabase.findRestoration, hr]
  exact h.row

theorem JournalDatabase.append_grows (settings : Settings) (db : JournalDatabase) (event : JournalEvent) :
    db.tables.Grows (db.append settings event).tables ∧
      (db.append settings event).restorations = db.restorations := by
  unfold JournalDatabase.append
  split
  · next tables h => exact ⟨Journal.append_grows h, rfl⟩
  · exact ⟨EventStore.Grows.refl _, rfl⟩

theorem JournalDatabase.report_grows (settings : Settings) (db : JournalDatabase) (event : JournalEvent) :
    db.tables.Grows (db.report settings event).tables ∧
      (db.report settings event).restorations = db.restorations := by
  unfold JournalDatabase.report
  split
  · next tables eventId h => exact ⟨appendCommandResult_grows h, rfl⟩
  · exact ⟨EventStore.Grows.refl _, rfl⟩

theorem Restored.names {settings : Settings} {snapshot restored : JournalDatabase}
    {contents : DiagnosticContents} {call : RestoreCall} {result : RestorationResult}
    (h : Restored settings snapshot contents call restored result) :
    restored.tables.journalId = snapshot.tables.journalId ∧
      restored.tables.generation = call.newGeneration := by
  obtain ⟨tables, himported, htables⟩ := h.imported
  rw [htables]
  exact ⟨himported.journalId, rfl⟩

theorem Since.step {settings : Settings} {contentDigest : JournalDatabase → String} {call : RestoreCall}
    {result : RestorationResult} {restored db : JournalDatabase} (h : Since call result restored db)
    (action : JournalAction) : Since call result restored (db.step settings contentDigest action) := by
  cases action with
  | append event =>
    obtain ⟨hg, hr⟩ := db.append_grows settings event
    exact h.grow hg hr
  | report event =>
    obtain ⟨hg, hr⟩ := db.report_grows settings event
    exact h.grow hg hr
  | restore other faults =>
    simp only [JournalDatabase.step]
    rcases restore_step settings contentDigest faults other db with hsame | hfirst
    · rw [hsame]
      exact h
    · obtain ⟨contents, db', result', hnone, hc, hfirst⟩ := hfirst
      obtain ⟨later, hlater, -⟩ := h.current
      have hrows := hfirst.restorations
      rw [hlater, List.append_assoc] at hrows
      rw [hc]
      refine ⟨findRestoration_append hfirst.restorations h.row, hfirst.names.1.trans h.journalId, _, hrows, ?_⟩
      intro hempty
      exact absurd hempty (List.append_ne_nil_of_right_ne_nil _ (List.cons_ne_nil _ _))

theorem Since.run {settings : Settings} {contentDigest : JournalDatabase → String} {call : RestoreCall}
    {result : RestorationResult} {restored db : JournalDatabase} (h : Since call result restored db)
    (actions : List JournalAction) : Since call result restored (db.run settings contentDigest actions) := by
  induction actions generalizing db with
  | nil => exact h
  | cons action actions ih => exact ih (h.step action)

/-- Other restorations publish other generations, as their callers derive them. -/
def FreshGenerations (call : RestoreCall) (actions : List JournalAction) : Prop :=
  ∀ other faults, .restore other faults ∈ actions → other.restorationId ≠ call.restorationId →
    other.newGeneration ≠ call.newGeneration

/-- After a further restoration the journal has another generation for good. -/
structure Superseded (call : RestoreCall) (restored db : JournalDatabase) : Prop where
  longer : restored.restorations.length < db.restorations.length
  generation : db.tables.generation ≠ call.newGeneration

theorem Superseded.step {settings : Settings} {contentDigest : JournalDatabase → String}
    {call : RestoreCall} {result : RestorationResult} {restored db : JournalDatabase}
    {action : JournalAction} (hs : Since call result restored db)
    (h : Superseded call restored db ∨ db.restorations = restored.restorations)
    (hfresh : FreshGenerations call [action]) :
    Superseded call restored (db.step settings contentDigest action) ∨
      (db.step settings contentDigest action).restorations = restored.restorations := by
  cases action with
  | append event =>
    obtain ⟨hg, hr⟩ := db.append_grows settings event
    rcases h with h | h
    · exact .inl ⟨hr ▸ h.longer, hg.generation ▸ h.generation⟩
    · exact .inr (hr.trans h)
  | report event =>
    obtain ⟨hg, hr⟩ := db.report_grows settings event
    rcases h with h | h
    · exact .inl ⟨hr ▸ h.longer, hg.generation ▸ h.generation⟩
    · exact .inr (hr.trans h)
  | restore other faults =>
    simp only [JournalDatabase.step]
    rcases restore_step settings contentDigest faults other db with hsame | hfirst
    · rw [hsame]
      exact h
    · obtain ⟨contents, db', result', hnone, hc, hfirst⟩ := hfirst
      have hother : other.restorationId ≠ call.restorationId := by
        intro heq
        rw [heq, hs.row] at hnone
        cases hnone
      have hlength : restored.restorations.length ≤ db.restorations.length := by
        obtain ⟨later, hlater, -⟩ := hs.current
        rw [hlater, List.length_append]
        exact Nat.le_add_right _ _
      rw [hc]
      refine .inl ⟨?_, ?_⟩
      · rw [hfirst.restorations, List.length_append]
        exact Nat.lt_succ_of_le hlength
      · rw [hfirst.names.2]
        exact hfresh other faults List.mem_cons_self hother

theorem Superseded.run {settings : Settings} {contentDigest : JournalDatabase → String}
    {call : RestoreCall} {result : RestorationResult} {restored db : JournalDatabase}
    {actions : List JournalAction} (hs : Since call result restored db)
    (h : Superseded call restored db ∨ db.restorations = restored.restorations)
    (hfresh : FreshGenerations call actions) :
    Superseded call restored (db.run settings contentDigest actions) ∨
      (db.run settings contentDigest actions).restorations = restored.restorations := by
  induction actions generalizing db with
  | nil => exact h
  | cons action actions ih =>
    have hfirst : FreshGenerations call [action] := by
      intro other faults hmem
      exact hfresh other faults (List.mem_cons.mpr (.inl (List.mem_singleton.mp hmem)))
    have hrest : FreshGenerations call actions := by
      intro other faults hmem
      exact hfresh other faults (List.mem_cons_of_mem _ hmem)
    exact ih (hs.step action) (Superseded.step hs h hfirst) hrest

/-- A repeated call either answers with the first result, or is refused; it never writes. -/
theorem Since.repeated {settings : Settings} {contentDigest : JournalDatabase → String}
    {call other : RestoreCall} {result : RestorationResult} {restored db : JournalDatabase}
    (h : Since call result restored db) (hid : other.restorationId = call.restorationId) (faults : Faults) :
    (completeRestore settings contentDigest faults other db).1 = db ∧
      ∀ r, (completeRestore settings contentDigest faults other db).2 = .ok r →
        r = result ∧ other.parameters = call.parameters ∧
          db.tables.generation = result.boundary.generation := by
  cases hc : completeRestore settings contentDigest faults other db with
  | mk db' outcome =>
    cases outcome with
    | error e =>
      have herror := completeRestore_error (congrArg Prod.snd hc)
      rw [hc] at herror
      refine ⟨herror, ?_⟩
      intro r hr
      cases hr
    | ok r =>
      obtain ⟨contents, -, -, -, -, hcase⟩ := restoreTransaction_ok.mp (completeRestore_ok.mp hc)
      rw [hid, h.row] at hcase
      rcases hcase with ⟨previous, hf, hrecorded, hdb⟩ | ⟨hnone, -⟩
      · cases hf
        obtain ⟨hparameters, -, -, hactual, hr⟩ := recordedRestorationResult_ok.mp hrecorded
        refine ⟨hdb, ?_⟩
        intro r' hr'
        cases hr'
        exact ⟨hr, hparameters.symm, congrArg Prod.snd hactual⟩
      · cases hnone

theorem Since.replayed {settings : Settings} {contentDigest : JournalDatabase → String}
    {call : RestoreCall} {snapshot restored db : JournalDatabase} {contents : DiagnosticContents}
    {result : RestorationResult} {faults : Faults} {client : String × String}
    (h : Since call result restored db) (hr : Restored settings snapshot contents call restored result)
    (hsame : db.restorations = restored.restorations) (hread : faults .read = false)
    (hclient : client = call.identity ∨ client = db.identity) :
    completeRestore settings contentDigest faults { call with expectedJournal := client } db =
      (db, .ok result) := by
  obtain ⟨later, hlater, hcurrent⟩ := h.current
  have hempty : later = [] := by
    rw [hsame] at hlater
    exact List.append_right_eq_self.mp hlater.symm
  have hboundary : result.boundary = readBoundary restored.tables := by rw [hr.result]
  have hactual : db.identity = (result.boundary.journalId, result.boundary.generation) := by
    rw [hboundary, JournalDatabase.identity, h.journalId, hcurrent hempty]
    rfl
  have hgeneration : result.boundary.generation = call.newGeneration := by
    rw [hboundary]
    exact hr.names.2
  have hid : result.restorationId = call.restorationId := by rw [hr.result]
  apply completeRestore_ok.mpr
  apply restoreTransaction_ok.mpr
  refine ⟨contents, hr.generation, hr.prepared, hread, hclient, .inl ⟨_, h.row, ?_, rfl⟩⟩
  exact recordedRestorationResult_ok.mpr ⟨rfl, hid, hgeneration, hactual, rfl⟩

/-- How a journal answers calls that name a restoration it has recorded. -/
structure Replays (settings : Settings) (contentDigest : JournalDatabase → String) (call : RestoreCall)
    (result : RestorationResult) (restored db : JournalDatabase) : Prop where
  unchanged : ∀ other faults, other.restorationId = call.restorationId →
    (completeRestore settings contentDigest faults other db).1 = db
  answer : ∀ other faults r, other.restorationId = call.restorationId →
    (completeRestore settings contentDigest faults other db).2 = .ok r →
    r = result ∧ other.parameters = call.parameters ∧ db.tables.generation = call.newGeneration
  replayed : ∀ faults client, db.restorations = restored.restorations → faults .read = false →
    client = call.identity ∨ client = db.identity →
    completeRestore settings contentDigest faults { call with expectedJournal := client } db =
      (db, .ok result)

/-- Restoration happens once, completely or not at all, whatever else happens to the journal. -/
theorem complete_restore_idempotent (settings : Settings) (contentDigest : JournalDatabase → String)
    (call : RestoreCall) (snapshot : JournalDatabase) :
    (∀ faults e, (completeRestore settings contentDigest faults call snapshot).2 = .error e →
      (completeRestore settings contentDigest faults call snapshot).1 = snapshot) ∧
    ∀ faults restored result, snapshot.findRestoration call.restorationId = none →
      completeRestore settings contentDigest faults call snapshot = (restored, .ok result) →
      (∃ contents, Restored settings snapshot contents call restored result) ∧
      ∀ actions db, db = restored.run settings contentDigest actions →
        Replays settings contentDigest call result restored db ∧
        (FreshGenerations call actions → db.restorations ≠ restored.restorations →
          ∀ other faults, other.restorationId = call.restorationId →
            ∃ e, completeRestore settings contentDigest faults other db = (db, .error e)) := by
  refine ⟨fun faults e h => completeRestore_error h, ?_⟩
  intro faults restored result hnew hc
  obtain ⟨contents, hr⟩ := first_restoration hnew hc
  refine ⟨⟨contents, hr⟩, ?_⟩
  intro actions db hdb
  have hstart := hr.since hnew
  have hsince : Since call result restored db := hdb ▸ hstart.run actions
  have hboundary : result.boundary.generation = call.newGeneration := by
    rw [hr.result]
    exact hr.names.2
  have hanswer : ∀ other faults r, other.restorationId = call.restorationId →
      (completeRestore settings contentDigest faults other db).2 = .ok r →
      r = result ∧ other.parameters = call.parameters ∧ db.tables.generation = call.newGeneration := by
    intro other faults r hid hok
    obtain ⟨hresult, hparameters, hgeneration⟩ := (hsince.repeated hid faults).2 r hok
    exact ⟨hresult, hparameters, hgeneration.trans hboundary⟩
  refine ⟨⟨?_, hanswer, ?_⟩, ?_⟩
  · intro other faults hid
    exact (hsince.repeated hid faults).1
  · intro faults client hsame hread hclient
    exact hsince.replayed hr hsame hread hclient
  · intro hfresh hlater other faults hid
    rcases hdb ▸ Superseded.run hstart (.inr rfl) hfresh with hs | hs
    · cases hc : completeRestore settings contentDigest faults other db with
      | mk db' outcome =>
        have hsame : (completeRestore settings contentDigest faults other db).1 = db := (hsince.repeated hid faults).1
        cases outcome with
        | ok r =>
          exact absurd (hanswer other faults r hid (congrArg Prod.snd hc)).2.2 hs.generation
        | error e =>
          rw [hc] at hsame
          exact ⟨e, Prod.ext hsame rfl⟩
    · exact absurd hs hlater

def lenient : Settings := ⟨fun _ => true, none, "journal", "journal.sqlite"⟩

def noteOf (eventId : String) (sequenceNumber : Nat) : JournalEvent :=
  ⟨eventId, "runner-log", sequenceNumber, "t", "run.note", [], none, .obj []⟩

def noted : JournalDatabase :=
  (JournalDatabase.create "j" "g" 3).run lenient (fun _ => "digest") [.append (noteOf "note" 1)]

/-- A bundle with a note that was written after the snapshot. -/
def laterNote : DiagnosticBundle :=
  ⟨⟨"diagnostics", "j", "g", [], 2, 2, "t", "digest", 1, 0⟩, [.event (noteOf "later" 2)], "digest"⟩

def restoreNoted : RestoreCall :=
  ⟨⟨"snapshot", "j", "g", 3, 1, 1, 1, "digest", "t"⟩, "restoration", "fresh", some laterNote, ("j", "g")⟩

/-- A restoration that imports one event, and its replay after another append. -/
theorem complete_restore_idempotent_noted :
    ∃ restored result, completeRestore lenient (fun _ => "digest") (fun _ => false) restoreNoted noted =
        (restored, .ok result) ∧
      result.importedEvents = 1 ∧ result.boundary = ⟨"j", "fresh", 2, 2, 2⟩ ∧
      ∀ db, db = restored.run lenient (fun _ => "digest") [.append (noteOf "last" 3)] →
        completeRestore lenient (fun _ => "digest") (fun _ => false) restoreNoted db = (db, .ok result) := by
  have hdone : (completeRestore lenient (fun _ => "digest") (fun _ => false) restoreNoted noted).2.map
      (fun r => (r.importedEvents, r.boundary)) = .ok (1, ⟨"j", "fresh", 2, 2, 2⟩) := by decide +kernel
  obtain ⟨result, hresult, hfields⟩ := map_ok.mp hdone
  obtain ⟨himported, hboundary⟩ := Prod.mk.inj hfields
  have hrestored : completeRestore lenient (fun _ => "digest") (fun _ => false) restoreNoted noted = (_, .ok result) :=
    Prod.ext rfl hresult
  refine ⟨_, result, hrestored, himported, hboundary, ?_⟩
  intro db hdb
  obtain ⟨-, hfirst⟩ := complete_restore_idempotent lenient (fun _ => "digest") restoreNoted noted
  obtain ⟨-, hlater⟩ := hfirst (fun _ => false) _ result (by decide +kernel) hrestored
  refine (hlater _ db hdb).1.replayed (fun _ => false) ("j", "g") ?_ rfl (.inl rfl)
  rw [hdb]
  exact (JournalDatabase.append_grows lenient _ (noteOf "last" 3)).2

end ModularPipelines.Journal
