import ModularPipelines.Journal.Replay
import ModularPipelines.Journal.Restore

namespace ModularPipelines.Journal
open Library

/-- Events with the cursors that appending them one by one gives. -/
def numberEvents (last : Nat) : List JournalEvent → List EventRow
  | [] => []
  | event :: events => ⟨last + 1, event⟩ :: numberEvents (last + 1) events

/-- The tables after new events were appended, before any index row or change. -/
def EventStore.addEvents (j : EventStore) (events : List JournalEvent) : EventStore :=
  { j with eventSequence := j.eventSequence + events.length,
           events := j.events ++ numberEvents j.eventSequence events }

theorem addEvents_nil (j : EventStore) : j.addEvents [] = j := by
  rw [EventStore.addEvents, numberEvents, List.append_nil]
  rfl

theorem addEvents_cons (j : EventStore) (event : JournalEvent) (events : List JournalEvent) :
    j.addEvents (event :: events) = (j.addEvents [event]).addEvents events := by
  simp only [EventStore.addEvents, numberEvents, List.length_cons, List.append_assoc,
    List.singleton_append, List.length_nil, Nat.add_assoc, Nat.add_comm 1, Nat.zero_add]

theorem insertEvent_addEvents {j k : EventStore} {event : JournalEvent}
    (h : insertEvent j event = .ok k) : k = j.addEvents [event] := by
  obtain ⟨-, -, rfl⟩ := insertEvent_ok.mp h
  rfl

theorem findEvent_addEvents_ne {j : EventStore} {event : JournalEvent} {eventId : String}
    (h : event.eventId ≠ eventId) : (j.addEvents [event]).findEvent eventId = j.findEvent eventId := by
  simp [EventStore.addEvents, EventStore.findEvent, numberEvents, List.find?_append, h]

theorem EventStore.Keyed.insertEvent {j k : EventStore} {event : JournalEvent} (h : j.Keyed)
    (hi : insertEvent j event = .ok k) : k.Keyed := by
  obtain ⟨hid, hseq, rfl⟩ := insertEvent_ok.mp hi
  refine ⟨?_, ?_, ?_, ?_, h.changeOrder, h.changeBound, h.requestIds⟩
  · apply List.pairwise_append.mpr
    refine ⟨h.ordered, List.pairwise_singleton _ _, ?_⟩
    intro r hr r' hr'
    rw [List.mem_singleton.mp hr']
    exact Nat.lt_succ_of_le (h.bounded r hr)
  · intro r hr
    rcases List.mem_append.mp hr with hr | hr
    · exact (h.bounded r hr).trans (Nat.le_succ _)
    · rw [List.mem_singleton.mp hr]
  · apply List.pairwise_append.mpr
    refine ⟨h.eventIds, List.pairwise_singleton _ _, ?_⟩
    intro r hr r' hr'
    rw [List.mem_singleton.mp hr']
    exact hid r hr
  · apply List.pairwise_append.mpr
    refine ⟨h.producers, List.pairwise_singleton _ _, ?_⟩
    intro r hr r' hr'
    rw [List.mem_singleton.mp hr']
    exact hseq r hr

theorem EventStore.Keyed.insertChange {j : EventStore} (h : j.Keyed) (eventId : String)
    (change : JournalChangeData) : (insertChange j eventId change).Keyed := by
  refine ⟨h.ordered, h.bounded, h.eventIds, h.producers, ?_, ?_, h.requestIds⟩
  · apply List.pairwise_append.mpr
    refine ⟨h.changeOrder, List.pairwise_singleton _ _, ?_⟩
    intro c hc c' hc'
    rw [List.mem_singleton.mp hc']
    exact Nat.lt_succ_of_le (h.changeBound c hc)
  · intro c hc
    rcases List.mem_append.mp hc with hc | hc
    · exact (h.changeBound c hc).trans (Nat.le_succ _)
    · rw [List.mem_singleton.mp hc]
      exact Nat.le_refl _

theorem mem_upsertResult {row r : CommandRow} {rows : List CommandRow} (h : r ∈ upsertResult row rows) :
    r = row ∨ r ∈ rows := by
  induction rows with
  | nil => exact .inl (List.mem_singleton.mp h)
  | cons q rows ih =>
    unfold upsertResult at h
    split at h
    · rcases List.mem_cons.mp h with h | h
      · exact .inl h
      · exact .inr (List.mem_cons_of_mem _ h)
    · rcases List.mem_cons.mp h with h | h
      · exact .inr (h ▸ List.mem_cons_self)
      · rcases ih h with h | h
        · exact .inl h
        · exact .inr (List.mem_cons_of_mem _ h)

theorem upsertResult_distinct {row : CommandRow} {rows : List CommandRow}
    (h : rows.Pairwise (fun r r' => r.requestId ≠ r'.requestId)) :
    (upsertResult row rows).Pairwise (fun r r' => r.requestId ≠ r'.requestId) := by
  induction rows with
  | nil => exact List.pairwise_singleton _ _
  | cons q rows ih =>
    obtain ⟨hq, hrows⟩ := List.pairwise_cons.mp h
    unfold upsertResult
    split
    · next hid =>
      apply List.pairwise_cons.mpr
      refine ⟨?_, hrows⟩
      intro r hr
      rw [← hid]
      exact hq r hr
    · next hid =>
      apply List.pairwise_cons.mpr
      refine ⟨?_, ih hrows⟩
      intro r hr
      rcases mem_upsertResult hr with rfl | hr
      · exact hid
      · exact hq r hr

theorem EventStore.Keyed.saveCommandState {j k : EventStore} {requestId : String} {identity : Identity}
    {runner participant : Option AuthorColumns} (h : j.Keyed)
    (hs : saveCommandState j requestId identity runner participant = .ok k) : k.Keyed := by
  obtain ⟨effective, -, rfl⟩ := saveCommandState_ok.mp hs
  exact ⟨h.ordered, h.bounded, h.eventIds, h.producers, h.changeOrder, h.changeBound,
    upsertResult_distinct h.requestIds⟩

theorem EventStore.Keyed.setGeneration {j : EventStore} (h : j.Keyed) (generation : String) :
    ({ j with generation := generation } : EventStore).Keyed :=
  ⟨h.ordered, h.bounded, h.eventIds, h.producers, h.changeOrder, h.changeBound, h.requestIds⟩

@[simp] theorem interrupt_ok {faults : Faults} {point : RestorePoint} {u : Unit} :
    interrupt faults point = .ok u ↔ faults point = false := by
  simp [interrupt]

/-- The events of a bundle that a journal does not have yet. -/
def freshEvents (j : EventStore) (events : List JournalEvent) : List JournalEvent :=
  events.filter (fun e => (j.findEvent e.eventId).isNone)

theorem importEvents_cons {settings : Settings} {faults : Faults} {j l : EventStore}
    {event : JournalEvent} {events inserted : List JournalEvent} :
    importEvents settings faults j (event :: events) = .ok (l, inserted) ↔
      faults (.event events.length) = false ∧
      ((∃ row, j.findEvent event.eventId = some row ∧ row.event.valid settings = true ∧
          row.event.key = event.key ∧ importEvents settings faults j events = .ok (l, inserted)) ∨
       (∃ k rest, j.findEvent event.eventId = none ∧ insertEvent j event = .ok k ∧
          importEvents settings faults k events = .ok (l, rest) ∧ inserted = event :: rest)) := by
  simp only [importEvents, bind_ok, interrupt_ok, exists_const]
  cases hf : j.findEvent event.eventId with
  | some row =>
    simp only [bind_ok, decodeRow_ok, rejectIf_ok, exists_const, ne_eq, not_not, Option.some.injEq,
      reduceCtorEq, false_and, exists_false, or_false]
    constructor
    · intro h'
      obtain ⟨hp, entry, ⟨hv, he⟩, hk, hrest⟩ := h'
      subst he
      exact ⟨hp, _, rfl, hv, hk, hrest⟩
    · intro h'
      obtain ⟨hp, row', he, hv, hk, hrest⟩ := h'
      cases he
      exact ⟨hp, row, ⟨hv, rfl⟩, hk, hrest⟩
  | none =>
    simp only [bind_ok, rejectIf_ok, exists_const, pure_eq_ok, Except.ok.injEq, Prod.mk.injEq,
      reduceCtorEq, false_and, exists_false, false_or, Prod.exists, true_and]
    constructor
    · intro h'
      obtain ⟨hp, _, k, hk, l', rest, hrest, hl, hin⟩ := h'
      subst hl
      exact ⟨hp, k, rest, hk, hrest, hin.symm⟩
    · intro h'
      obtain ⟨hp, k, rest, hk, hrest, hin⟩ := h'
      refine ⟨hp, ?_, k, hk, l, rest, hrest, rfl, hin.symm⟩
      obtain ⟨-, hseq, -⟩ := insertEvent_ok.mp hk
      intro hany
      obtain ⟨r, hr, hsame⟩ := List.any_eq_true.mp hany
      simp only [Bool.and_eq_true, beq_iff_eq] at hsame
      exact hseq r hr hsame

/-- The import appends exactly the events that were missing, in the order of the bundle. -/
theorem importEvents_ok {settings : Settings} {faults : Faults} {j l : EventStore}
    {events inserted : List JournalEvent} (hd : (events.map JournalEvent.eventId).Nodup)
    (h : importEvents settings faults j events = .ok (l, inserted)) :
    inserted = freshEvents j events ∧ l = j.addEvents inserted := by
  induction events generalizing j inserted with
  | nil =>
    cases h
    exact ⟨rfl, (addEvents_nil _).symm⟩
  | cons event events ih =>
    obtain ⟨hnot, hd⟩ := List.nodup_cons.mp hd
    obtain ⟨-, hcase⟩ := importEvents_cons.mp h
    rcases hcase with ⟨row, hf, -, -, hrest⟩ | ⟨k, rest, hf, hk, hrest, rfl⟩
    · obtain ⟨hin, hl⟩ := ih hd hrest
      refine ⟨?_, hl⟩
      rw [hin, freshEvents, freshEvents, List.filter_cons, hf]
      rfl
    · obtain ⟨hin, hl⟩ := ih hd hrest
      obtain rfl := insertEvent_addEvents hk
      constructor
      · have hsame : freshEvents (j.addEvents [event]) events = freshEvents j events := by
          apply List.filter_congr
          intro e he
          have hne : event.eventId ≠ e.eventId := by
            intro heq
            exact hnot (heq ▸ List.mem_map_of_mem he)
          rw [findEvent_addEvents_ne hne]
        rw [hin, hsame, freshEvents, freshEvents, List.filter_cons, hf]
        rfl
      · rw [hl]
        exact (addEvents_cons j event rest).symm

theorem importEvents_keyed {settings : Settings} {faults : Faults} {j l : EventStore}
    {events inserted : List JournalEvent} (hj : j.Keyed)
    (h : importEvents settings faults j events = .ok (l, inserted)) : l.Keyed := by
  induction events generalizing j inserted with
  | nil =>
    cases h
    exact hj
  | cons event events ih =>
    obtain ⟨-, hcase⟩ := importEvents_cons.mp h
    rcases hcase with ⟨row, -, -, -, hrest⟩ | ⟨k, rest, -, hk, hrest, -⟩
    · exact ih hj hrest
    · exact ih (hj.insertEvent hk) hrest

def CommandRow.entry (row : CommandRow) : Author → Option AuthorColumns
  | .runner => row.runner
  | .participant => row.participant

/-- The observation of one author that the index holds for a request. -/
def EventStore.observed (j : EventStore) (requestId : String) (author : Author) : Option AuthorColumns :=
  (j.findResult requestId).bind (CommandRow.entry · author)

def recordOf (commands : List DiagnosticCommand) (requestId : String) : Option DiagnosticCommand :=
  commands.find? (fun c => c.requestId == requestId)

/-- The bundle knows an answer of this request that the journal does not. -/
def addsObservation (j : EventStore) (record : DiagnosticCommand) : Bool :=
  (record.runner.isSome && (j.observed record.requestId .runner).isNone) ||
    (record.participant.isSome && (j.observed record.requestId .participant).isNone)

theorem mergeObservation_ok {current incoming merged : Option AuthorColumns} {changed : Bool}
    (h : mergeObservation current incoming = .ok (merged, changed)) :
    merged = current.or incoming ∧ changed = (incoming.isSome && current.isNone) := by
  unfold mergeObservation at h
  split at h
  · cases h
    exact ⟨(Option.or_none).symm, rfl⟩
  · cases h
    exact ⟨rfl, rfl⟩
  · split at h
    · cases h
    · cases h
      exact ⟨rfl, rfl⟩

/-- The authors of a loaded state are those of its row. -/
theorem loadCommandResult_observed {settings : Settings} {j : EventStore} {requestId : String}
    {state : Option CommandState} (h : loadCommandResult settings j requestId = .ok state)
    (author : Author) :
    (state.bind (CommandState.entry · author)).map AuthorEntry.columns = j.observed requestId author := by
  cases state with
  | none =>
    rw [EventStore.observed, loadCommandResult_none.mp h]
    rfl
  | some st =>
    obtain ⟨row, hf, hl⟩ := loadCommandResult_some.mp h
    obtain ⟨-, hr, hp, -⟩ := loadRow_ok.mp hl
    rw [EventStore.observed, hf]
    cases author with
    | runner => exact loadAuthor_columns hr
    | participant => exact loadAuthor_columns hp

theorem mergeDiagnosticCommand_ok {state : Option CommandState} {record : DiagnosticCommand}
    {merged : MergedCommand} {current : Author → Option AuthorColumns}
    (hc : ∀ author, (state.bind (CommandState.entry · author)).map AuthorEntry.columns = current author)
    (h : mergeDiagnosticCommand state record = .ok merged) :
    merged.identity = record.identity ∧ merged.runner = (current .runner).or record.runner ∧
      merged.participant = (current .participant).or record.participant ∧
      merged.changed = ((record.runner.isSome && (current .runner).isNone) ||
        (record.participant.isSome && (current .participant).isNone)) := by
  simp only [mergeDiagnosticCommand, hc, bind_ok, rejectIf_ok, exists_const, pure_eq_ok,
    Except.ok.injEq, Prod.exists] at h
  obtain ⟨-, runner, runnerChanged, hr, participant, participantChanged, hp, rfl⟩ := h
  obtain ⟨rfl, rfl⟩ := mergeObservation_ok hr
  obtain ⟨rfl, rfl⟩ := mergeObservation_ok hp
  exact ⟨rfl, rfl, rfl, rfl⟩

theorem observed_upsert (j : EventStore) (row : CommandRow) (requestId : String) (author : Author) :
    ({ j with results := upsertResult row j.results } : EventStore).observed requestId author =
      if row.requestId = requestId then row.entry author else j.observed requestId author := by
  unfold EventStore.observed EventStore.findResult
  rw [find_upsertResult]
  split <;> rfl

/-- One record of the bundle: its request gets the missing observations, all else stays. -/
theorem importCommand_ok {settings : Settings} {j k : EventStore} {record : DiagnosticCommand}
    {changed : Option ChangedRequest} (h : importCommand settings j record = .ok (k, changed)) :
    k = { j with results := k.results } ∧
      (∀ requestId author, k.observed requestId author = (j.observed requestId author).or
        (if record.requestId = requestId then record.entry author else none)) ∧
      changed.toList.map ChangedRequest.requestId =
        if addsObservation j record then [record.requestId] else [] := by
  simp only [importCommand, bind_ok] at h
  obtain ⟨state, hl, merged, hm, k', hs, checked, -, h⟩ := h
  obtain ⟨-, hrunner, hparticipant, hchanged⟩ :=
    mergeDiagnosticCommand_ok (loadCommandResult_observed hl) hm
  cases checked with
  | none => cases h
  | some checked =>
    simp only [pure_eq_ok, Except.ok.injEq, Prod.mk.injEq] at h
    obtain ⟨hk, hout⟩ := h
    subst hk
    obtain ⟨effective, -, rfl⟩ := saveCommandState_ok.mp hs
    refine ⟨rfl, ?_, ?_⟩
    · intro requestId author
      rw [observed_upsert]
      by_cases hid : record.requestId = requestId
      · subst hid
        cases author with
        | runner => simpa [CommandRow.entry, DiagnosticCommand.entry] using hrunner
        | participant => simpa [CommandRow.entry, DiagnosticCommand.entry] using hparticipant
      · simp [hid]
    · have hadds : merged.changed = addsObservation j record := hchanged
      rw [← hout, hadds]
      cases addsObservation j record <;> rfl

theorem recordOf_cons (record : DiagnosticCommand) (records : List DiagnosticCommand) (requestId : String) :
    recordOf (record :: records) requestId =
      if record.requestId = requestId then some record else recordOf records requestId := by
  by_cases h : record.requestId = requestId <;> simp [recordOf, h]

theorem recordOf_none {records : List DiagnosticCommand} {requestId : String}
    (h : requestId ∉ records.map DiagnosticCommand.requestId) : recordOf records requestId = none := by
  apply List.find?_eq_none.mpr
  intro record hrecord heq
  exact h (beq_iff_eq.mp heq ▸ List.mem_map_of_mem hrecord)

/-- All records: every request ends with its old observations and the bundle's. -/
theorem importCommands_ok {settings : Settings} {faults : Faults} {j l : EventStore}
    {records : List DiagnosticCommand} {changed : List ChangedRequest}
    (hd : (records.map DiagnosticCommand.requestId).Nodup)
    (h : importCommands settings faults j records = .ok (l, changed)) :
    l = { j with results := l.results } ∧
      (∀ requestId author, l.observed requestId author = (j.observed requestId author).or
        ((recordOf records requestId).bind (DiagnosticCommand.entry · author))) ∧
      changed.map ChangedRequest.requestId =
        (records.filter (addsObservation j)).map DiagnosticCommand.requestId := by
  induction records generalizing j changed with
  | nil =>
    cases h
    refine ⟨rfl, ?_, rfl⟩
    intro requestId author
    exact Option.or_none.symm
  | cons record records ih =>
    obtain ⟨hnot, hd⟩ := List.nodup_cons.mp hd
    simp only [importCommands, bind_ok, interrupt_ok, exists_const, pure_eq_ok, Except.ok.injEq,
      Prod.exists, Prod.mk.injEq] at h
    obtain ⟨-, k, first, hfirst, l', rest, hrest, rfl, rfl⟩ := h
    obtain ⟨hk, hobs, hchanged⟩ := importCommand_ok hfirst
    obtain ⟨hl, hobs', hchanged'⟩ := ih hd hrest
    refine ⟨?_, ?_, ?_⟩
    · rw [hl, hk]
    · intro requestId author
      rw [hobs', hobs, recordOf_cons]
      by_cases hid : record.requestId = requestId
      · subst hid
        rw [recordOf_none hnot, if_pos rfl, if_pos rfl]
        exact Option.or_none
      · rw [if_neg hid, if_neg hid, Option.or_none]
    · have hsame : records.filter (addsObservation k) = records.filter (addsObservation j) := by
        apply List.filter_congr
        intro other hother
        have hne : record.requestId ≠ other.requestId := by
          intro heq
          exact hnot (heq ▸ List.mem_map_of_mem hother)
        simp only [addsObservation, hobs, if_neg hne, Option.or_none]
      rw [List.map_append, hchanged, hchanged', hsame, List.filter_cons]
      cases addsObservation j record <;> rfl

theorem importCommands_keyed {settings : Settings} {faults : Faults} {j l : EventStore}
    {records : List DiagnosticCommand} {changed : List ChangedRequest} (hj : j.Keyed)
    (h : importCommands settings faults j records = .ok (l, changed)) : l.Keyed := by
  induction records generalizing j changed with
  | nil =>
    cases h
    exact hj
  | cons record records ih =>
    simp only [importCommands, importCommand, bind_ok, interrupt_ok, exists_const, pure_eq_ok,
      Except.ok.injEq, Prod.exists, Prod.mk.injEq] at h
    obtain ⟨-, k, first, ⟨state, -, merged, -, k', hs, checked, -, hk⟩, l', rest, hrest, rfl, rfl⟩ := h
    cases checked with
    | none => cases hk
    | some checked =>
      cases hk
      exact ih (hj.saveCommandState hs) hrest

/-- What a change record is about: an ordinary event, or a request. -/
def ChangeRow.subject (c : ChangeRow) : ChangeKind × Option String :=
  match c.change.kind with
  | .event => (.event, some c.eventId)
  | .commandResult => (.commandResult, c.change.requestId)

/-- Only the change feed grew, by records about the given subjects. -/
structure EventStore.Records (j l : EventStore) (subjects : List (ChangeKind × Option String)) : Prop where
  tables : l = { j with changes := l.changes, changeSequence := l.changeSequence }
  keyed : j.Keyed → l.Keyed
  rows : ∃ rows, l.changes = j.changes ++ rows ∧ rows.map ChangeRow.subject = subjects

theorem EventStore.Records.refl (j : EventStore) : j.Records j [] :=
  ⟨rfl, id, [], (List.append_nil _).symm, rfl⟩

theorem EventStore.Records.trans {j k l : EventStore} {first rest : List (ChangeKind × Option String)}
    (h : j.Records k first) (h' : k.Records l rest) : j.Records l (first ++ rest) := by
  obtain ⟨rows, hrows, hfirst⟩ := h.rows
  obtain ⟨rows', hrows', hrest⟩ := h'.rows
  refine ⟨?_, fun hj => h'.keyed (h.keyed hj), rows ++ rows', ?_, ?_⟩
  · rw [h'.tables, h.tables]
  · rw [hrows', hrows, List.append_assoc]
  · rw [List.map_append, hfirst, hrest]

theorem insertChange_records (j : EventStore) (eventId : String) (change : JournalChangeData) :
    j.Records (insertChange j eventId change)
      [ChangeRow.subject ⟨j.changeSequence + 1, eventId, change⟩] :=
  ⟨rfl, fun hj => hj.insertChange eventId change, _, rfl, rfl⟩

def ordinary (event : JournalEvent) : Bool := decide (event.eventType ≠ "command.result")

theorem recordInserted_ok {settings : Settings} {faults : Faults} {j l : EventStore}
    {events : List JournalEvent} (h : recordInserted settings faults j events = .ok l) :
    j.Records l ((events.filter ordinary).map (fun e => (.event, some e.eventId))) := by
  induction events generalizing j with
  | nil =>
    cases h
    exact EventStore.Records.refl _
  | cons event events ih =>
    simp only [recordInserted, bind_ok, interrupt_ok, exists_const] at h
    obtain ⟨-, h⟩ := h
    rw [List.filter_cons]
    by_cases ht : event.eventType = "command.result"
    · simp only [ht, ne_eq, not_true_eq_false, if_false, bind_ok] at h
      obtain ⟨row, -, entry, -, hrest⟩ := h
      simpa [ordinary, ht] using ih hrest
    · rw [if_pos ht] at h
      simpa [ordinary, ht, ChangeRow.subject] using (insertChange_records j _ _).trans (ih h)

theorem recordRequests_ok {settings : Settings} {faults : Faults} {j l : EventStore}
    {changed : List ChangedRequest} (h : recordRequests settings faults j changed = .ok l) :
    j.Records l (changed.map (fun c => (.commandResult, some c.requestId))) := by
  induction changed generalizing j with
  | nil =>
    cases h
    exact EventStore.Records.refl _
  | cons request changed ih =>
    simp only [recordRequests, bind_ok, interrupt_ok, exists_const] at h
    obtain ⟨-, k, hk, hrest⟩ := h
    obtain ⟨st, -, rfl⟩ := recordResultChange_ok.mp hk
    exact (insertChange_records j _ _).trans (ih hrest)

theorem importDiagnostics_keyed {settings : Settings} {faults : Faults} {j l : EventStore}
    {contents : DiagnosticContents} {inserted : List JournalEvent} (hj : j.Keyed)
    (h : importDiagnostics settings faults j contents = .ok (l, inserted)) : l.Keyed := by
  simp only [importDiagnostics, recordRestoredChanges, bind_ok, pure_eq_ok, Except.ok.injEq,
    Prod.exists, Prod.mk.injEq] at h
  obtain ⟨k, fresh, hevents, k', changed, hcommands, m, ⟨m', hinserted, hrequests⟩, rfl, -⟩ := h
  have hk' := importCommands_keyed (importEvents_keyed hj hevents) hcommands
  exact (recordRequests_ok hrequests).keyed ((recordInserted_ok hinserted).keyed hk')

/-- The tables of a snapshot after a bundle was imported. -/
structure Imported (j : EventStore) (contents : DiagnosticContents) (l : EventStore) : Prop where
  journalId : l.journalId = j.journalId
  events : l.events = j.events ++ numberEvents j.eventSequence (freshEvents j contents.events)
  observed : ∀ requestId author, l.observed requestId author = (j.observed requestId author).or
    ((recordOf contents.commands requestId).bind (DiagnosticCommand.entry · author))
  changes : ∃ rows, l.changes = j.changes ++ rows ∧ rows.map ChangeRow.subject =
    ((freshEvents j contents.events).filter ordinary).map (fun e => (.event, some e.eventId)) ++
      (contents.commands.filter (addsObservation j)).map (fun c => (.commandResult, some c.requestId))

/-- A bundle that was read names every event and every request once. -/
structure DiagnosticContents.Distinct (contents : DiagnosticContents) : Prop where
  events : (contents.events.map JournalEvent.eventId).Nodup
  commands : (contents.commands.map DiagnosticCommand.requestId).Nodup

theorem importDiagnostics_ok {settings : Settings} {faults : Faults} {j l : EventStore}
    {contents : DiagnosticContents} {inserted : List JournalEvent} (hd : contents.Distinct)
    (h : importDiagnostics settings faults j contents = .ok (l, inserted)) :
    Imported j contents l ∧ inserted = freshEvents j contents.events := by
  simp only [importDiagnostics, recordRestoredChanges, bind_ok, pure_eq_ok, Except.ok.injEq,
    Prod.exists, Prod.mk.injEq] at h
  obtain ⟨k, fresh, hevents, k', changed, hcommands, m, ⟨m', hinserted, hrequests⟩, rfl, rfl⟩ := h
  obtain ⟨hfresh, hk⟩ := importEvents_ok hd.events hevents
  obtain ⟨hk', hobserved, hchanged⟩ := importCommands_ok hd.commands hcommands
  have hrecords := (recordInserted_ok hinserted).trans (recordRequests_ok hrequests)
  have hresults : m.results = k'.results := by rw [hrecords.tables]
  have hadds : addsObservation k = addsObservation j := by
    rw [hk]
    rfl
  have hevents' : m.events = j.events ++ numberEvents j.eventSequence fresh := by
    rw [hrecords.tables, hk', hk]
    rfl
  refine ⟨⟨?_, ?_, ?_, ?_⟩, hfresh⟩
  · rw [hrecords.tables, hk', hk]
    rfl
  · rw [hevents', hfresh]
  · intro requestId author
    rw [EventStore.observed, EventStore.findResult, hresults, ← EventStore.findResult,
      ← EventStore.observed, hobserved, hk]
    rfl
  · obtain ⟨rows, hrows, hsubjects⟩ := hrecords.rows
    refine ⟨rows, ?_, ?_⟩
    · rw [hrows, hk', hk]
      rfl
    · rw [hsubjects, hfresh, ← hadds]
      congr 1
      have hmap := congrArg (List.map (fun r => (ChangeKind.commandResult, some r))) hchanged
      simpa only [List.map_map, Function.comp_def] using hmap

theorem nodup_snoc {xs : List String} {x : String} (h : xs.Nodup) (hx : x ∉ xs) : (xs ++ [x]).Nodup := by
  apply List.nodup_append.mpr
  refine ⟨h, List.nodup_singleton x, ?_⟩
  intro y hy z hz heq
  rw [heq, List.mem_singleton.mp hz] at hy
  exact hx hy

theorem readRecord_distinct {settings : Settings} {read next : DiagnosticContents} {record : DiagnosticRecord}
    (hd : read.Distinct) (h : readRecord settings read record = .ok next) : next.Distinct := by
  cases record with
  | event event =>
    simp only [readRecord, bind_ok, rejectIf_ok, exists_const, pure_eq_ok, Except.ok.injEq] at h
    obtain ⟨text, -, hnew, rfl⟩ := h
    refine ⟨?_, hd.commands⟩
    rw [List.map_append]
    exact nodup_snoc hd.events hnew
  | command command =>
    simp only [readRecord, bind_ok, rejectIf_ok, exists_const, pure_eq_ok, Except.ok.injEq] at h
    obtain ⟨-, hnew, rfl⟩ := h
    refine ⟨hd.events, ?_⟩
    rw [List.map_append]
    exact nodup_snoc hd.commands hnew

theorem readRecords_distinct {settings : Settings} {read last : DiagnosticContents}
    {records : List DiagnosticRecord} (hd : read.Distinct)
    (h : records.foldlM (readRecord settings) read = .ok last) : last.Distinct := by
  induction records generalizing read with
  | nil =>
    cases h
    exact hd
  | cons record records ih =>
    rw [List.foldlM_cons] at h
    obtain ⟨next, hnext, hrest⟩ := bind_ok.mp h
    exact ih (readRecord_distinct hd hnext) hrest

theorem empty_distinct : (⟨[], []⟩ : DiagnosticContents).Distinct :=
  ⟨List.nodup_nil, List.nodup_nil⟩

theorem readDiagnosticRecords_distinct {settings : Settings} {bundle : DiagnosticBundle}
    {contents : DiagnosticContents} (h : readDiagnosticRecords settings bundle = .ok contents) :
    contents.Distinct := by
  simp only [readDiagnosticRecords, bind_ok, rejectIf_ok, exists_const, pure_eq_ok,
    Except.ok.injEq] at h
  obtain ⟨read, hread, -, -, -, rfl⟩ := h
  exact readRecords_distinct empty_distinct hread

theorem prepareRestoreImport_distinct {settings : Settings} {call : RestoreCall}
    {contents : DiagnosticContents} (h : prepareRestoreImport settings call = .ok contents) :
    contents.Distinct := by
  unfold prepareRestoreImport at h
  split at h
  · cases h
    exact empty_distinct
  · simp only [bind_ok, rejectIf_ok, exists_const, pure_eq_ok, Except.ok.injEq] at h
    obtain ⟨read, hread, -, rfl⟩ := h
    exact readDiagnosticRecords_distinct hread

theorem EventStore.Keyed.distinct {j : EventStore} (h : j.Keyed) {r r' : EventRow} (hr : r ∈ j.events)
    (hr' : r' ∈ j.events) (he : r.event.eventId = r'.event.eventId) : r = r' := by
  have hnodup : (j.events.map (fun r => r.event.eventId)).Nodup := List.pairwise_map.mpr h.eventIds
  exact List.inj_on_of_nodup_map hnodup hr hr' he

/-- A journal whose rows all read back is one that the append paths could have left. -/
theorem validateSnapshotSource_indexed {settings : Settings} {j : EventStore} (hk : j.Keyed)
    (h : validateSnapshotSource settings j = .ok ()) : j.Indexed settings := by
  simp only [validateSnapshotSource, bind_ok] at h
  obtain ⟨entries, hentries, states, hstates, changes, hchanges, -⟩ := h
  have hrow := mapM_ok_each hentries
  refine ⟨?_, hk.ordered, hk.bounded, ?_, ?_, ?_⟩
  · intro r hr
    obtain ⟨e, he⟩ := hrow r hr
    obtain ⟨row, hdecoded, -⟩ := bind_ok.mp he
    exact (decodeRow_ok.mp hdecoded).1
  · intro r hr r' hr' he
    exact hk.distinct hr hr' he
  · intro requestId
    cases hf : j.findResult requestId with
    | none => exact ⟨none, loadCommandResult_none.mpr hf⟩
    | some row =>
      obtain ⟨state, hstate⟩ := mapM_ok_each hstates row (List.mem_of_find?_eq_some hf)
      rw [findResult_requestId hf] at hstate
      exact ⟨state, hstate⟩
  · intro r hr ht
    obtain ⟨e, he⟩ := hrow r hr
    obtain ⟨row, hdecoded, hentry⟩ := bind_ok.mp he
    rw [(decodeRow_ok.mp hdecoded).2, effectiveEntry, if_neg (not_not.mpr ht)] at hentry
    obtain ⟨d, hd, hentry⟩ := bind_ok.mp hentry
    obtain ⟨state, hstate, hentry⟩ := bind_ok.mp hentry
    cases state with
    | none => cases hentry
    | some st =>
      obtain ⟨u, hrelated, -⟩ := bind_ok.mp hentry
      exact ⟨d, st, validatedCommandResult_ok.mp hd, hstate, not_not.mp (rejectIf_ok.mp hrelated)⟩

end ModularPipelines.Journal
