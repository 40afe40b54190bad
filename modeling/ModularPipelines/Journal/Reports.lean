import ModularPipelines.Journal.Index

namespace ModularPipelines.Journal
open Library

/-- What a report says: its outcome, and its response up to the order of members. -/
def CommandObservation.answer (d : CommandObservation) : Outcome × Json :=
  (d.outcome, d.response.sortKeys)

theorem Outcome.text_injective {a b : Outcome} (h : a.text = b.text) : a = b := by
  cases a <;> cases b <;> first | rfl | exact absurd h (by decide)

theorem responseKey_eq_iff {a b : CommandObservation} :
    responseKey a = responseKey b ↔ a.answer = b.answer := by
  simp only [responseKey, CommandObservation.answer, Prod.mk.injEq]
  constructor
  · intro h
    have := Json.dumps_injective h
    simp only [Json.sortKeys, Json.sortElems, Json.arr.injEq, List.cons.injEq, Json.str.injEq,
      and_true] at this
    exact ⟨Outcome.text_injective this.1, this.2⟩
  · rintro ⟨ho, hr⟩
    simp only [Json.sortKeys, Json.sortElems, ho, hr]

theorem encodeEvent_valid {settings : Settings} {e : JournalEvent} {t : String}
    (h : encodeEvent settings e = .ok t) : e.valid settings = true := by
  unfold encodeEvent at h
  cases hv : e.valid settings with
  | true => rfl
  | false => simp [hv] at h

theorem JournalEvent.valid_depth {settings : Settings} {e : JournalEvent}
    (h : e.valid settings = true) : e.data.depth ≤ maxDepth := by
  have hd : e.data.depth < e.document.depth :=
    Json.depth_lt_of_lookup (show List.lookup "data" _ = some e.data by simp [List.lookup_cons])
  exact (hd.trans_le (JournalEvent.valid_iff.mp h).1).le

theorem readCommandResult_some {data : Json} {d : CommandObservation} :
    readCommandResult data = some d ↔ data.depth ≤ maxDepth ∧
      data.keys.all (commandFields.contains ·) = true ∧
      (data.get? "request_id").bind readText = some d.requestId ∧
      (data.get? "author").bind Author.read = some d.author ∧
      (data.get? "outcome").bind Outcome.read = some d.outcome ∧
      (data.get? "response").bind readObject = some d.response ∧
      (data.get? "ignored").bind readOptionalText = some d.ignored ∧
      (data.get? "supersedes").bind readSupersededList = some d.supersedes := by
  obtain ⟨requestId, author, outcome, response, ignored, supersedes⟩ := d
  unfold readCommandResult
  split
  · next h =>
    simp only [Bool.or_eq_true, decide_eq_true_eq, Bool.not_eq_true'] at h
    constructor
    · rintro ⟨⟩
    · rintro ⟨hd, hk, -⟩
      rcases h with h | h
      · omega
      · rw [hk] at h
        cases h
  · next h =>
    simp only [Bool.or_eq_true, decide_eq_true_eq, Bool.not_eq_true', not_or, not_lt,
      Bool.not_eq_false] at h
    simp only [h.1, h.2, true_and, bind, Option.bind_eq_some_iff, Option.some.injEq,
      CommandObservation.mk.injEq]
    constructor
    · rintro ⟨_, h1, _, h2, _, h3, _, h4, _, h5, _, h6, rfl, rfl, rfl, rfl, rfl, rfl⟩
      exact ⟨h1, h2, h3, h4, h5, h6⟩
    · rintro ⟨h1, h2, h3, h4, h5, h6⟩
      exact ⟨_, h1, _, h2, _, h3, _, h4, _, h5, _, h6, rfl, rfl, rfl, rfl, rfl, rfl⟩

theorem isText_ignoredReason (d : CommandObservation) : isText (ignoredReason d) = true := by
  unfold ignoredReason
  cases d.outcome <;> decide

/-- Marking a participant's event as ignored changes nothing else that is read from it. -/
theorem readCommandResult_ignored {data : Json} {d : CommandObservation} {reason : String}
    (h : readCommandResult data = some d) (hr : isText reason = true)
    (hd : (data.set "ignored" (.str reason)).depth ≤ maxDepth) :
    readCommandResult (data.set "ignored" (.str reason)) = some { d with ignored := some reason } := by
  obtain ⟨-, hk, h1, h2, h3, h4, h5, h6⟩ := readCommandResult_some.mp h
  obtain ⟨v, hv, -⟩ := Option.bind_eq_some_iff.mp h5
  refine readCommandResult_some.mpr ⟨hd, ?_, ?_, ?_, ?_, ?_, ?_, ?_⟩
  · rwa [Json.keys_set_of_get hv]
  · rwa [Json.get_set_ne (by decide)]
  · rwa [Json.get_set_ne (by decide)]
  · rwa [Json.get_set_ne (by decide)]
  · rwa [Json.get_set_ne (by decide)]
  · simp [Json.get_set_self (Json.isObj_of_get hv), readOptionalText, readText, hr]
  · rwa [Json.get_set_ne (by decide)]

theorem readSupersededList_supersedes {eventId reason : String} (he : isText eventId = true)
    (hr : isText reason = true) :
    readSupersededList (supersedesJson eventId reason) = some [⟨eventId, reason⟩] := by
  simp [readSupersededList, supersedesJson, readSuperseded, Json.keys, Json.get?, List.lookup_cons,
    readText, he, hr]

theorem readCommandResult_supersedes {data : Json} {d : CommandObservation} {eventId reason : String}
    (h : readCommandResult data = some d) (he : isText eventId = true) (hr : isText reason = true)
    (hd : (data.set "supersedes" (supersedesJson eventId reason)).depth ≤ maxDepth) :
    readCommandResult (data.set "supersedes" (supersedesJson eventId reason)) =
      some { d with supersedes := [⟨eventId, reason⟩] } := by
  obtain ⟨-, hk, h1, h2, h3, h4, h5, h6⟩ := readCommandResult_some.mp h
  obtain ⟨v, hv, -⟩ := Option.bind_eq_some_iff.mp h6
  refine readCommandResult_some.mpr ⟨hd, ?_, ?_, ?_, ?_, ?_, ?_, ?_⟩
  · rwa [Json.keys_set_of_get hv]
  · rwa [Json.get_set_ne (by decide)]
  · rwa [Json.get_set_ne (by decide)]
  · rwa [Json.get_set_ne (by decide)]
  · rwa [Json.get_set_ne (by decide)]
  · rwa [Json.get_set_ne (by decide)]
  · simp [Json.get_set_self (Json.isObj_of_get hv), readSupersededList_supersedes he hr]

theorem validatedCommandResult_ok {data : Json} {d : CommandObservation} :
    validatedCommandResult data = .ok d ↔ readCommandResult data = some d := by
  unfold validatedCommandResult
  cases readCommandResult data <;> simp

/-- What the reader gets from a new event: the report, and the mark it was given. -/
def marked (other : Option AuthorEntry) (d : CommandObservation) : CommandObservation :=
  match other with
  | none => d
  | some entry =>
    match d.author with
    | .participant => { d with ignored := some (ignoredReason entry.result) }
    | .runner => { d with supersedes := [⟨entry.eventId, ignoredReason d⟩] }

theorem marked_answer (other : Option AuthorEntry) (d : CommandObservation) :
    (marked other d).answer = d.answer := by
  unfold marked
  split
  · rfl
  · split <;> rfl

/-- A new event differs from the report in its mark only, and reads as the marked report. -/
theorem prepared_read {settings : Settings} {other : Option AuthorEntry} {event snapshot : JournalEvent}
    {d : CommandObservation} (hd : readCommandResult event.data = some d)
    (ht : ∀ e ∈ other, isText e.eventId = true)
    (hp : prepareOtherAuthorResult other d.author event d = .inr snapshot)
    (hv : snapshot.valid settings = true) :
    readCommandResult snapshot.data = some (marked other d) ∧
      snapshot = { event with data := snapshot.data } := by
  have hdepth := JournalEvent.valid_depth hv
  unfold prepareOtherAuthorResult at hp
  cases other with
  | none =>
    cases hp
    exact ⟨hd, rfl⟩
  | some entry =>
    simp only at hp
    split at hp
    · cases hp
    · obtain ⟨requestId, author, outcome, response, ignored, supersedes⟩ := d
      cases author with
      | participant =>
        cases hp
        exact ⟨readCommandResult_ignored hd (isText_ignoredReason _) hdepth, rfl⟩
      | runner =>
        cases hp
        exact ⟨readCommandResult_supersedes hd (ht entry rfl) (isText_ignoredReason _) hdepth, rfl⟩

theorem prepared_reuse {other : Option AuthorEntry} {author : Author} {event : JournalEvent}
    {d : CommandObservation} {eventId : String} :
    prepareOtherAuthorResult other author event d = .inl eventId ↔
      ∃ entry ∈ other, entry.eventId = eventId ∧ entry.result.answer = d.answer := by
  cases other with
  | none => simp [prepareOtherAuthorResult]
  | some entry =>
    by_cases hk : responseKey entry.result = responseKey d
    · have ha := responseKey_eq_iff.mp hk
      simp [prepareOtherAuthorResult, hk, ha]
    · have ha : entry.result.answer ≠ d.answer := fun h => hk (responseKey_eq_iff.mpr h)
      cases author <;> simp [prepareOtherAuthorResult, hk, ha]

theorem insertEvent_ok {j j' : EventStore} {event : JournalEvent} :
    insertEvent j event = .ok j' ↔
      (∀ r ∈ j.events, r.event.eventId ≠ event.eventId) ∧
      (∀ r ∈ j.events, ¬ (r.event.producerInstanceId = event.producerInstanceId ∧
        r.event.sequenceNumber = event.sequenceNumber)) ∧
      j' = { j with eventSequence := j.eventSequence + 1,
                    events := j.events ++ [⟨j.eventSequence + 1, event⟩] } := by
  unfold insertEvent
  split
  · next h =>
    simp only [List.any_eq_true, beq_iff_eq, Bool.and_eq_true] at h
    constructor
    · rintro ⟨⟩
    · rintro ⟨h1, h2, -⟩
      rcases h with ⟨r, hr, he⟩ | ⟨r, hr, he⟩
      · exact absurd he (h1 r hr)
      · exact absurd he (h2 r hr)
  · next h =>
    simp only [List.any_eq_true, beq_iff_eq, Bool.and_eq_true, not_or, not_exists, not_and] at h
    constructor
    · rintro ⟨⟩
      exact ⟨h.1, fun r hr hb => h.2 r hr hb.1 hb.2, rfl⟩
    · rintro ⟨-, -, rfl⟩
      rfl

theorem findEvent_eq_none {j : EventStore} {eventId : String} :
    j.findEvent eventId = none ↔ ∀ r ∈ j.events, r.event.eventId ≠ eventId := by
  simp [EventStore.findEvent]

theorem findEvent_appended {j : EventStore} (row : EventRow)
    (h : ∀ r ∈ j.events, r.event.eventId ≠ row.event.eventId) (n : Nat) :
    { j with eventSequence := n, events := j.events ++ [row] }.findEvent row.event.eventId = some row := by
  have hnone := findEvent_eq_none.mpr h
  simp only [EventStore.findEvent] at hnone ⊢
  rw [List.find?_append, hnone]
  simp

theorem findResult_requestId {j : EventStore} {requestId : String} {row : CommandRow}
    (h : j.findResult requestId = some row) : row.requestId = requestId := by
  simpa using List.find?_some h

theorem findEvent_eventId {j : EventStore} {eventId : String} {row : EventRow}
    (h : j.findEvent eventId = some row) : row.event.eventId = eventId := by
  simpa using List.find?_some h

/-- Either author's entry of a readable request loads back from its own columns. -/
theorem loaded_author {settings : Settings} {j : EventStore} {requestId : String} {st : CommandState}
    (h : loadCommandResult settings j requestId = .ok (some st)) (a : Author) :
    loadAuthor settings j requestId st.identity ((st.entry a).map AuthorEntry.columns) =
      .ok (st.entry a) := by
  obtain ⟨row, hf, hl⟩ := loadCommandResult_some.mp h
  obtain ⟨-, hr, hp, hi, -⟩ := loadRow_ok.mp hl
  rw [findResult_requestId hf, ← hi] at hr hp
  cases a with
  | runner => rwa [CommandState.entry, loadAuthor_columns hr]
  | participant => rwa [CommandState.entry, loadAuthor_columns hp]

theorem loaded_entry {settings : Settings} {j : EventStore} {requestId : String} {st : CommandState}
    {a : Author} {e : AuthorEntry} (h : loadCommandResult settings j requestId = .ok (some st))
    (he : st.entry a = some e) :
    j.findEvent e.eventId = some e.entry ∧ e.entry.event.valid settings = true ∧
      decodeAuthorObservation settings e.entry.event e.observation requestId st.identity =
        .ok (e.observation, e.result) := by
  have hl := loaded_author h a
  rw [he] at hl
  obtain ⟨eventId, entry, observation, result⟩ := e
  obtain ⟨stored, d, hf, hv, hd, hr⟩ := loadAuthor_some.mp hl
  simp only [Option.some.injEq, AuthorEntry.mk.injEq] at hr
  obtain ⟨-, rfl, -, rfl⟩ := hr
  exact ⟨hf, hv, hd⟩

theorem JournalEvent.valid_eventId {settings : Settings} {e : JournalEvent}
    (h : e.valid settings = true) : isText e.eventId = true :=
  (JournalEvent.valid_iff.mp h).2.1

theorem loaded_eventId {settings : Settings} {j : EventStore} {requestId : String} {st : CommandState}
    {a : Author} {e : AuthorEntry} (h : loadCommandResult settings j requestId = .ok (some st))
    (he : st.entry a = some e) : isText e.eventId = true := by
  obtain ⟨hf, hv, -⟩ := loaded_entry h he
  rw [← findEvent_eventId hf]
  exact JournalEvent.valid_eventId hv

/-- What the first report of an author leaves behind. -/
structure Recorded (settings : Settings) (j j' : EventStore) (event : JournalEvent)
    (d : CommandObservation) (identity : Identity) (state : Option CommandState) (eventId : String)
    (st : CommandState) : Prop where
  events : (∃ e, state.bind (CommandState.entry · d.author.other) = some e ∧ e.eventId = eventId ∧
      e.result.answer = d.answer ∧ j'.events = j.events ∧ j'.eventSequence = j.eventSequence) ∨
    (∃ snapshot, (∀ r ∈ j.events, r.event.eventId ≠ snapshot.eventId) ∧ snapshot.eventId = eventId ∧
      snapshot.valid settings = true ∧ snapshot = { event with data := snapshot.data } ∧
      readCommandResult snapshot.data =
        some (marked (state.bind (CommandState.entry · d.author.other)) d) ∧
      (∀ e, state.bind (CommandState.entry · d.author.other) = some e → e.result.answer ≠ d.answer) ∧
      j'.events = j.events ++ [⟨j.eventSequence + 1, snapshot⟩] ∧
      j'.eventSequence = j.eventSequence + 1)
  results : ∃ row : CommandRow, row.requestId = d.requestId ∧ j'.results = upsertResult row j.results
  loaded : loadCommandResult settings j' d.requestId = .ok (some st)
  identity : st.identity = identity
  own : ∃ own, st.entry d.author = some own ∧ own.eventId = eventId ∧
    own.observation = observationOf event ∧ own.result.answer = d.answer
  other : st.entry d.author.other = state.bind (CommandState.entry · d.author.other)
  changes : j'.changes = j.changes ++ [⟨j.changeSequence + 1, eventId,
    ⟨.commandResult, some d.requestId, st.effectiveEventId, some st.effectiveAuthor,
      st.runner.isNone,
      state.map (fun s => (s.effectiveAuthor, s.effectiveEventId)) !=
        some (st.effectiveAuthor, st.effectiveEventId),
      st.relatedEventIds, some ⟨d.author, observationOf event⟩⟩⟩]
  changeSequence : j'.changeSequence = j.changeSequence + 1
  journal : j'.journalId = j.journalId ∧ j'.generation = j.generation

theorem recordResultChange_ok {settings : Settings} {j j' : EventStore} {eventId requestId : String}
    {resultChanged : Bool} {observation : Option ChangeObserver} :
    recordResultChange settings j eventId requestId resultChanged observation = .ok j' ↔
      ∃ st, loadCommandResult settings j requestId = .ok (some st) ∧
        j' = insertChange j eventId ⟨.commandResult, some requestId, st.effectiveEventId,
          some st.effectiveAuthor, st.runner.isNone, resultChanged, st.relatedEventIds, observation⟩ := by
  simp only [recordResultChange, bind_ok]
  constructor
  · rintro ⟨r, hl, hj⟩
    cases r with
    | none => cases hj
    | some st =>
      cases hj
      exact ⟨st, hl, rfl⟩
  · rintro ⟨st, hl, rfl⟩
    exact ⟨some st, hl, rfl⟩

theorem writeReport_ok {settings : Settings} {j k : EventStore} {other : Option AuthorEntry}
    {event : JournalEvent} {d : CommandObservation} {eventId : String} :
    writeReport settings j other event d = .ok (k, eventId) ↔
      (∃ e ∈ other, e.eventId = eventId ∧ e.result.answer = d.answer ∧ k = j) ∨
      (∃ snapshot t, prepareOtherAuthorResult other d.author event d = .inr snapshot ∧
        encodeEvent settings snapshot = .ok t ∧ insertEvent j snapshot = .ok k ∧
        snapshot.eventId = eventId) := by
  unfold writeReport
  cases hp : prepareOtherAuthorResult other d.author event d with
  | inl reused =>
    obtain ⟨e, he, rfl, ha⟩ := prepared_reuse.mp hp
    simp only [Except.ok.injEq, Prod.mk.injEq, reduceCtorEq, false_and, exists_false, or_false]
    constructor
    · rintro ⟨rfl, rfl⟩
      exact ⟨e, he, rfl, ha, rfl⟩
    · rintro ⟨e', he', rfl, -, rfl⟩
      rw [Option.mem_unique he he']
      exact ⟨rfl, rfl⟩
  | inr snapshot =>
    simp only [bind_ok, pure_eq_ok, Except.ok.injEq, Prod.mk.injEq, Sum.inr.injEq]
    constructor
    · rintro ⟨t, ht, k', hk, rfl, rfl⟩
      exact .inr ⟨snapshot, t, rfl, ht, hk, rfl⟩
    · rintro (⟨e, he, rfl, ha, -⟩ | ⟨snapshot', t, rfl, ht, hk, rfl⟩)
      · rw [prepared_reuse.mpr ⟨e, he, rfl, ha⟩] at hp
        cases hp
      · exact ⟨t, ht, k, hk, rfl, rfl⟩

theorem saveCommandState_ok {j k : EventStore} {requestId : String} {identity : Identity}
    {runner participant : Option AuthorColumns} :
    saveCommandState j requestId identity runner participant = .ok k ↔
      ∃ effective, runner.or participant = some effective ∧
        k = { j with results := upsertResult ⟨requestId, identity, runner, participant,
          effective.eventId, if runner.isSome then .runner else .participant⟩ j.results } := by
  unfold saveCommandState
  cases runner.or participant with
  | none => simp
  | some effective =>
    constructor
    · rintro ⟨⟩
      exact ⟨effective, rfl, rfl⟩
    · rintro ⟨_, ⟨⟩, rfl⟩
      rfl

/-- The events after a first report, before its row is written. -/
theorem writeReport_events {settings : Settings} {j k : EventStore} {other : Option AuthorEntry}
    {event : JournalEvent} {d : CommandObservation} {eventId : String}
    (hd : readCommandResult event.data = some d) (ht : ∀ e ∈ other, isText e.eventId = true)
    (h : writeReport settings j other event d = .ok (k, eventId)) :
    (∃ e ∈ other, e.eventId = eventId ∧ e.result.answer = d.answer ∧ k = j) ∨
    (∃ snapshot, (∀ r ∈ j.events, r.event.eventId ≠ snapshot.eventId) ∧ snapshot.eventId = eventId ∧
      snapshot.valid settings = true ∧ snapshot = { event with data := snapshot.data } ∧
      readCommandResult snapshot.data = some (marked other d) ∧
      (∀ e ∈ other, e.result.answer ≠ d.answer) ∧
      k = { j with eventSequence := j.eventSequence + 1,
                   events := j.events ++ [⟨j.eventSequence + 1, snapshot⟩] }) := by
  rcases writeReport_ok.mp h with hreuse | ⟨snapshot, t, hp, he, hi, hid⟩
  · exact .inl hreuse
  · have hv := encodeEvent_valid he
    obtain ⟨hread, hsnap⟩ := prepared_read hd ht hp hv
    obtain ⟨hfresh, -, rfl⟩ := insertEvent_ok.mp hi
    refine .inr ⟨snapshot, hfresh, hid, hv, hsnap, hread, ?_, rfl⟩
    intro e hmem ha
    rw [prepared_reuse.mpr ⟨e, hmem, rfl, ha⟩] at hp
    cases hp

theorem writeReport_extends {settings : Settings} {j k : EventStore} {other : Option AuthorEntry}
    {event : JournalEvent} {d : CommandObservation} {eventId : String}
    (h : writeReport settings j other event d = .ok (k, eventId)) :
    j.Extends k ∧ k.results = j.results ∧ k.changes = j.changes ∧ k.changeSequence = j.changeSequence ∧
      k.journalId = j.journalId ∧ k.generation = j.generation := by
  rcases writeReport_ok.mp h with ⟨e, -, -, -, rfl⟩ | ⟨snapshot, t, -, -, hi, -⟩
  · exact ⟨⟨[], by simp⟩, rfl, rfl, rfl, rfl, rfl⟩
  · obtain ⟨-, -, rfl⟩ := insertEvent_ok.mp hi
    exact ⟨⟨_, rfl⟩, rfl, rfl, rfl, rfl, rfl⟩

/-- The event that now carries the report reads as the report, up to its mark. -/
theorem writeReport_reads {settings : Settings} {j k : EventStore} {state : Option CommandState}
    {event : JournalEvent} {d read : CommandObservation} {eventId : String} {stored : EventRow}
    (hd : readCommandResult event.data = some d)
    (hstate : loadCommandResult settings j d.requestId = .ok state)
    (h : writeReport settings j (state.bind (CommandState.entry · d.author.other)) event d = .ok (k, eventId))
    (hf : k.findEvent eventId = some stored) (hr : readCommandResult stored.event.data = some read) :
    read.answer = d.answer := by
  have ht : ∀ e ∈ state.bind (CommandState.entry · d.author.other), isText e.eventId = true := by
    rintro e he
    obtain ⟨s, rfl, he⟩ := Option.bind_eq_some_iff.mp he
    exact loaded_eventId hstate he
  rcases writeReport_events hd ht h with ⟨e, he, rfl, ha, rfl⟩ | ⟨snapshot, hfresh, rfl, -, -, hread, -, rfl⟩
  · obtain ⟨s, rfl, he⟩ := Option.bind_eq_some_iff.mp he
    obtain ⟨hf', -, hdec⟩ := loaded_entry hstate he
    obtain ⟨-, -, hval, -⟩ := decodeAuthorObservation_ok.mp hdec
    rw [hf] at hf'
    cases hf'
    rw [validatedCommandResult_ok.mp hval] at hr
    cases hr
    exact ha
  · have hnew := findEvent_appended ⟨j.eventSequence + 1, snapshot⟩ hfresh (j.eventSequence + 1)
    rw [hnew] at hf
    cases hf
    rw [hread] at hr
    cases hr
    exact marked_answer _ d

theorem recordReport_recorded {settings : Settings} {j j' : EventStore} {event : JournalEvent}
    {d : CommandObservation} {identity : Identity} {state : Option CommandState} {eventId : String}
    (hd : readCommandResult event.data = some d)
    (hstate : loadCommandResult settings j d.requestId = .ok state)
    (hid : ∀ s ∈ state, s.identity = identity)
    (h : recordReport settings j event d identity state = .ok (j', eventId)) :
    ∃ st, Recorded settings j j' event d identity state eventId st := by
  simp only [recordReport, bind_ok, pure_eq_ok, Except.ok.injEq, Prod.mk.injEq] at h
  obtain ⟨⟨k, id'⟩, hw, k', hs, l, hc, rfl, rfl⟩ := h
  obtain ⟨effective, heff, rfl⟩ := saveCommandState_ok.mp hs
  obtain ⟨st, hload, rfl⟩ := recordResultChange_ok.mp hc
  obtain ⟨hext, hres, hch, hseq, hj⟩ := writeReport_extends hw
  obtain ⟨row, hf, hl⟩ := loadCommandResult_some.mp hload
  simp only [EventStore.findResult, find_upsertResult, if_true, Option.some.injEq] at hf
  subst hf
  obtain ⟨-, hr, hp, hi, heid, hea, -⟩ := loadRow_ok.mp hl
  have hauthor : ∀ a, loadAuthor settings k d.requestId identity
      (reportedColumns state d.author ⟨id', observationOf event⟩ a) = .ok (st.entry a) := by
    rintro (_ | _)
    · exact hr
    · exact hp
  have hother : st.entry d.author.other = state.bind (CommandState.entry · d.author.other) := by
    have hne : d.author ≠ d.author.other := by cases d.author <;> decide
    have hnew := hauthor d.author.other
    rw [reportedColumns, if_neg hne] at hnew
    cases state with
    | none => exact (Except.ok.inj hnew).symm
    | some s =>
      have hold := loadAuthor_mono hext (loaded_author hstate d.author.other)
      rw [hid s rfl] at hold
      rw [Option.bind_some, hold] at hnew
      exact (Except.ok.inj hnew).symm
  obtain ⟨stored, read, hfound, -, hdec, hown⟩ := loadAuthor_some.mp
    (show loadAuthor settings k d.requestId identity (some ⟨id', observationOf event⟩) =
      .ok (st.entry d.author) by rw [← hauthor d.author, reportedColumns, if_pos rfl])
  have hread := validatedCommandResult_ok.mp (decodeAuthorObservation_ok.mp hdec).2.2.1
  have ht : ∀ e ∈ state.bind (CommandState.entry · d.author.other), isText e.eventId = true := by
    intro e he
    obtain ⟨s, rfl, he⟩ := Option.bind_eq_some_iff.mp he
    exact loaded_eventId hstate he
  refine ⟨st, ?_, ⟨_, rfl, congrArg (upsertResult _) hres⟩, hload, hi, ?_, hother, ?_, ?_, hj⟩
  · rcases writeReport_events hd ht hw with ⟨e, he, h1, h2, rfl⟩ | ⟨snapshot, hs1, hs2, hs3, hs4, hs5, hs6, rfl⟩
    · exact .inl ⟨e, he, h1, h2, rfl, rfl⟩
    · exact .inr ⟨snapshot, hs1, hs2, hs3, hs4, hs5, hs6, rfl, rfl⟩
  · exact ⟨_, hown, rfl, rfl, writeReport_reads hd hstate hw hfound hread⟩
  · have hbefore : resultChanged state (reportedColumns state d.author ⟨id', observationOf event⟩ .runner)
        (reportedColumns state d.author ⟨id', observationOf event⟩ .participant) =
        (state.map (fun s => (s.effectiveAuthor, s.effectiveEventId)) !=
          some (st.effectiveAuthor, st.effectiveEventId)) := by
      rw [resultChanged, heff, heid, hea, Bool.eq_iff_iff]
      cases state <;> simp
    simp only [insertChange, hch, hseq, hbefore]
  · simp only [insertChange, hseq]

end ModularPipelines.Journal
