import ModularPipelines.Journal.Reconcile

namespace ModularPipelines.Journal
open Library

theorem contextText_isText {context : Context} {name s : String} (hc : validContext context = true)
    (h : contextText context name = some s) : isText s = true := by
  induction context with
  | nil => simp [contextText] at h
  | cons item context ih =>
    obtain ⟨key, value⟩ := item
    simp only [validContext, List.all_cons, Bool.and_eq_true] at hc
    by_cases hk : name = key
    · subst hk
      simp only [contextText, List.lookup_cons, beq_self_eq_true] at h
      cases value with
      | str t =>
        cases h
        have := hc.1
        simp only [validContextItem, Bool.and_eq_true] at this
        exact this.2
      | _ => cases h
    · have hne : (name == key) = false := beq_eq_false_iff_ne.mpr hk
      simp only [contextText, List.lookup_cons, hne] at h
      exact ih hc.2 h

theorem identityOf_valid {context : Context} {identity : Identity} (hc : validContext context = true)
    (h : identityOf context = .ok identity) : identity.valid = true := by
  unfold identityOf at h
  split at h
  · next experimentId participantId he hp =>
    split at h
    · next ht =>
      cases h
      simp only [Bool.and_eq_true] at ht
      cases hi : contextText context "participant_instance_id" with
      | none => simp [Identity.valid, ht.1, ht.2]
      | some i => simp [Identity.valid, ht.1, ht.2, contextText_isText hc hi]
    · cases h
  · cases h

theorem observationOf_valid {settings : Settings} {event : JournalEvent}
    (h : event.valid settings = true) : (observationOf event).valid settings = true := by
  obtain ⟨-, -, h1, -, -, h2, h3, -, h4, h5, -⟩ := JournalEvent.valid_iff.mp h
  simp [AuthorObservation.valid, observationOf, h1, h2, h3, h4, h5]

/-- The entry that a first report gets, once its event is written. -/
theorem own_loads {settings : Settings} {j k : EventStore} {event : JournalEvent} {d : CommandObservation}
    {identity : Identity} {state : Option CommandState} {eventId : String}
    (hv : validateReport settings event = .ok (d, identity))
    (hl : loadCommandResult settings j d.requestId = .ok state) (hi : ∀ s ∈ state, s.identity = identity)
    (hw : writeReport settings j (state.bind (CommandState.entry · d.author.other)) event d = .ok (k, eventId)) :
    ∃ own, loadAuthor settings k d.requestId identity (some ⟨eventId, observationOf event⟩) = .ok (some own) ∧
      own.eventId = eventId ∧
      ((∃ e, state.bind (CommandState.entry · d.author.other) = some e ∧ e.eventId = eventId ∧
          own.result = e.result) ∨
       ((∀ r ∈ j.events, r.event.eventId ≠ eventId) ∧
          own.result = marked (state.bind (CommandState.entry · d.author.other)) d ∧
          ∀ e, state.bind (CommandState.entry · d.author.other) = some e → e.result.answer ≠ d.answer)) := by
  obtain ⟨t, he, hty, hd, -, -, hid, hreq⟩ := validateReport_ok.mp hv
  have hvalid := encodeEvent_valid he
  have hobs := observationOf_valid hvalid
  have ht : ∀ e ∈ state.bind (CommandState.entry · d.author.other), isText e.eventId = true := by
    intro e he
    obtain ⟨s, rfl, he⟩ := Option.bind_eq_some_iff.mp he
    exact loaded_eventId hl he
  rcases writeReport_events hd ht hw with ⟨e, hmem, rfl, ha, rfl⟩ | ⟨snapshot, hf, rfl, hsv, hs, hread, hne, rfl⟩
  · obtain ⟨s, rfl, hent⟩ := Option.bind_eq_some_iff.mp hmem
    obtain ⟨hfound, hev, hdec⟩ := loaded_entry hl hent
    obtain ⟨-, h1, h2, h3, h4, h5, -⟩ := decodeAuthorObservation_ok.mp hdec
    rw [hi s rfl] at h5
    refine ⟨⟨e.eventId, e.entry, observationOf event, e.result⟩, ?_, rfl, .inl ⟨e, hmem, rfl, rfl⟩⟩
    exact loadAuthor_some.mpr ⟨e.entry, e.result, hfound, hev,
      decodeAuthorObservation_ok.mpr ⟨rfl, h1, h2, h3, h4, h5, hobs, hreq, hid⟩, rfl⟩
  · have hfound := findEvent_appended ⟨j.eventSequence + 1, snapshot⟩ hf (j.eventSequence + 1)
    have hmark : (marked (state.bind (CommandState.entry · d.author.other)) d).requestId = d.requestId := by
      unfold marked
      split
      · rfl
      · split <;> rfl
    refine ⟨⟨snapshot.eventId, _, observationOf event, _⟩,
      loadAuthor_some.mpr ⟨_, _, hfound, hsv, decodeAuthorObservation_ok.mpr ⟨rfl, ?_,
        validatedCommandResult_ok.mpr hread, hmark, ?_, ?_, hobs, hreq, hid⟩, rfl⟩, rfl, .inr ⟨hf, rfl, hne⟩⟩
    · rw [hs]
      exact hty
    · rw [hs]
      exact hreq
    · rw [hs]
      exact hid

/-- The entries of a request after an author's first report. -/
def reportedEntries (state : Option CommandState) (author : Author) (own : AuthorEntry) (a : Author) :
    Option AuthorEntry :=
  if author = a then some own else state.bind (CommandState.entry · a)

def reportedState (identity : Identity) (state : Option CommandState) (author : Author)
    (own : AuthorEntry) : CommandState :=
  let runner := reportedEntries state author own .runner
  let participant := reportedEntries state author own .participant
  ⟨identity, runner, participant, ((runner.or participant).map AuthorEntry.eventId).getD "",
    if runner.isSome then .runner else .participant⟩

theorem loaded_precedence {settings : Settings} {j : EventStore} {requestId : String} {st : CommandState}
    (h : loadCommandResult settings j requestId = .ok (some st)) : Precedence st := by
  obtain ⟨row, -, hl⟩ := loadCommandResult_some.mp h
  exact (loadRow_ok.mp hl).2.2.2.2.2.2

/-- The entry of the only author so far carries no mark. -/
theorem Precedence.alone {st : CommandState} {author : Author} {e : AuthorEntry} (h : Precedence st)
    (hnone : st.entry author = none) (he : st.entry author.other = some e) :
    e.result.author = author.other ∧ e.result.ignored = none ∧ e.result.supersedes = [] := by
  cases author with
  | runner =>
    simp only [CommandState.entry, Author.other] at hnone he
    simp only [Precedence, hnone, he] at h
    exact h.2.2
  | participant =>
    simp only [CommandState.entry, Author.other] at hnone he
    simp only [Precedence, hnone, he] at h
    exact h.2.2

/-- Whatever the other author said before, the new row is one the reader accepts. -/
theorem reported_precedence {settings : Settings} {j : EventStore} {d : CommandObservation}
    (identity : Identity) {state : Option CommandState} {own : AuthorEntry}
    (hl : loadCommandResult settings j d.requestId = .ok state)
    (hnew : state.bind (CommandState.entry · d.author) = none)
    (hig : d.ignored = none) (hsup : d.supersedes = [])
    (hown : (∃ e, state.bind (CommandState.entry · d.author.other) = some e ∧ e.eventId = own.eventId ∧
          own.result = e.result) ∨
       ((∀ r ∈ j.events, r.event.eventId ≠ own.eventId) ∧
          own.result = marked (state.bind (CommandState.entry · d.author.other)) d ∧
          ∀ e, state.bind (CommandState.entry · d.author.other) = some e → e.result.answer ≠ d.answer)) :
    Precedence (reportedState identity state d.author own) := by
  cases ho : state.bind (CommandState.entry · d.author.other) with
  | none =>
    rcases hown with ⟨e, he, -⟩ | ⟨-, hr, -⟩
    · rw [ho] at he
      cases he
    · rw [ho] at hr
      cases ha : d.author <;> simp only [ha, Author.other] at ho <;>
        simp [Precedence, reportedState, reportedEntries, ho, hr, marked, hig, hsup, ha]
  | some e =>
    obtain ⟨s, rfl, hs⟩ := Option.bind_eq_some_iff.mp ho
    obtain ⟨hea, hei, hes⟩ := (loaded_precedence hl).alone hnew hs
    rcases hown with ⟨e', he', hid, hr⟩ | ⟨hfresh, hr, hne⟩
    · obtain rfl := Option.some.inj (ho.symm.trans he')
      cases ha : d.author <;> simp only [ha, Author.other] at ho <;>
        simp [Precedence, reportedState, reportedEntries, ho, hr, hid, hei, hes]
    · have hkey : responseKey e.result ≠ responseKey own.result := by
        intro hk
        rw [responseKey_eq_iff, hr, marked_answer] at hk
        exact hne e ho hk
      have hids : e.eventId ≠ own.eventId := by
        obtain ⟨hfound, -, -⟩ := loaded_entry hl hs
        have hmem := List.mem_of_find?_eq_some hfound
        have := hfresh e.entry hmem
        rwa [findEvent_eventId hfound] at this
      rw [ho] at hr
      cases ha : d.author with
      | runner =>
        simp only [ha, Author.other] at ho hea
        simp only [marked, ha] at hr
        simp [Precedence, reportedState, reportedEntries, ho, hids.symm, hkey.symm, hea, hei, hes,
          show own.result.author = .runner by rw [hr], show own.result.ignored = none by rw [hr]; exact hig,
          show own.result.supersedes = [⟨e.eventId, ignoredReason own.result⟩] by rw [hr]; rfl]
      | participant =>
        simp only [ha, Author.other] at ho hea
        simp only [marked, ha] at hr
        simp [Precedence, reportedState, reportedEntries, ho, hids, hkey, hea, hei, hes,
          show own.result.author = .participant by rw [hr],
          show own.result.ignored = some (ignoredReason e.result) by rw [hr],
          show own.result.supersedes = [] by rw [hr]; exact hsup]

theorem effective_eventId {r p : Option AuthorEntry} {c : AuthorColumns}
    (h : (r.map AuthorEntry.columns).or (p.map AuthorEntry.columns) = some c) :
    ((r.or p).map AuthorEntry.eventId).getD "" = c.eventId := by
  cases r with
  | some r =>
    cases h
    rfl
  | none =>
    cases p with
    | some p =>
      cases h
      rfl
    | none => cases h

/-- Writing the event is the only step at which a first report can still be refused. -/
theorem recordReport_succeeds {settings : Settings} {j k : EventStore} {event : JournalEvent}
    {d : CommandObservation} {identity : Identity} {state : Option CommandState} {eventId : String}
    (hv : validateReport settings event = .ok (d, identity))
    (hl : loadCommandResult settings j d.requestId = .ok state) (hi : ∀ s ∈ state, s.identity = identity)
    (hnew : state.bind (CommandState.entry · d.author) = none)
    (hw : writeReport settings j (state.bind (CommandState.entry · d.author.other)) event d = .ok (k, eventId)) :
    ∃ j', recordReport settings j event d identity state = .ok (j', eventId) := by
  obtain ⟨t, he, -, -, hig, hsup, hid, -⟩ := validateReport_ok.mp hv
  obtain ⟨own, hown, rfl, hcase⟩ := own_loads hv hl hi hw
  have hprec := reported_precedence identity hl hnew hig hsup hcase
  have hload : ∀ a, loadAuthor settings k d.requestId identity
      (reportedColumns state d.author ⟨own.eventId, observationOf event⟩ a) =
        .ok (reportedEntries state d.author own a) := by
    intro a
    by_cases ha : d.author = a
    · simpa only [reportedColumns, reportedEntries, if_pos ha] using hown
    · simp only [reportedColumns, reportedEntries, if_neg ha]
      cases state with
      | none => rfl
      | some s =>
        have hold := loadAuthor_mono (writeReport_extends hw).1 (loaded_author hl a)
        rwa [hi s rfl] at hold
  have hcols : ∀ a, reportedColumns state d.author ⟨own.eventId, observationOf event⟩ a =
      (reportedEntries state d.author own a).map AuthorEntry.columns := fun a =>
    (loadAuthor_columns (hload a)).symm
  have heff : ∃ effective, (reportedColumns state d.author ⟨own.eventId, observationOf event⟩ .runner).or
      (reportedColumns state d.author ⟨own.eventId, observationOf event⟩ .participant) = some effective := by
    cases ha : d.author <;> simp [reportedColumns]
  obtain ⟨effective, heff⟩ := heff
  obtain ⟨row, hrow⟩ : ∃ row : CommandRow, row = ⟨d.requestId, identity,
      reportedColumns state d.author ⟨own.eventId, observationOf event⟩ .runner,
      reportedColumns state d.author ⟨own.eventId, observationOf event⟩ .participant, effective.eventId,
      if (reportedColumns state d.author ⟨own.eventId, observationOf event⟩ .runner).isSome
        then .runner else .participant⟩ := ⟨_, rfl⟩
  have hloaded : loadCommandResult settings { k with results := upsertResult row k.results } d.requestId =
      .ok (some (reportedState identity state d.author own)) := by
    have hvalid := (JournalEvent.valid_iff.mp (encodeEvent_valid he)).2.2.2.2.2.2.2.2.1
    refine loadCommandResult_some.mpr ⟨row, (find_upsertResult _ _ _).trans (if_pos (by rw [hrow])), ?_⟩
    subst hrow
    refine loadRow_ok.mpr ⟨identityOf_valid hvalid hid, hload .runner, hload .participant, rfl, ?_, ?_, hprec⟩
    · rw [hcols, hcols] at heff
      exact effective_eventId heff
    · simp only [reportedState, hcols, Option.isSome_map]
  have hsave : saveCommandState k d.requestId identity
      (reportedColumns state d.author ⟨own.eventId, observationOf event⟩ .runner)
      (reportedColumns state d.author ⟨own.eventId, observationOf event⟩ .participant) =
        .ok { k with results := upsertResult row k.results } :=
    saveCommandState_ok.mpr ⟨effective, heff, by rw [hrow]⟩
  simp only [recordReport, hw, ok_bind, hsave, bind_ok, pure_eq_ok, Except.ok.injEq, Prod.mk.injEq]
  exact ⟨_, _, recordResultChange_ok.mpr ⟨_, hloaded, rfl⟩, rfl, trivial⟩

/-- The journal takes every new report whose event it can write. -/
theorem first_report_accepted {settings : Settings} {h : History} {event : JournalEvent}
    {d : CommandObservation} {identity : Identity} {state : Option CommandState} {k : EventStore}
    {eventId : String} (hs : h.Sound settings)
    (hv : validateReport settings event = .ok (d, identity))
    (hfirst : ∀ a ∈ h.accepted, a.result.requestId = d.requestId →
      a.identity = identity ∧ a.result.author ≠ d.author)
    (hl : loadCommandResult settings h.store d.requestId = .ok state)
    (hw : writeReport settings h.store (state.bind (CommandState.entry · d.author.other)) event d =
      .ok (k, eventId)) :
    ∃ j', appendCommandResult settings h.store event = .ok (j', eventId) := by
  obtain ⟨_, hl', hr⟩ := hs d.requestId
  obtain rfl := Except.ok.inj (hl.symm.trans hl')
  have hnew : state.bind (CommandState.entry · d.author) = none := by
    by_contra hsome
    obtain ⟨e, he⟩ := Option.ne_none_iff_exists'.mp hsome
    obtain ⟨a, ha, ⟨hreq, hauthor⟩, -⟩ := hr.sourced d.author e he
    exact (hfirst a ha hreq).2 hauthor
  have hi : ∀ s ∈ state, s.identity = identity := by
    intro s hst
    have hsome : ∃ author e, s.entry author = some e := by
      rw [Option.mem_def.mp hst] at hl
      have hprec := loaded_precedence hl
      cases hrun : s.runner with
      | some e => exact ⟨.runner, e, hrun⟩
      | none =>
        cases hpart : s.participant with
        | some e => exact ⟨.participant, e, hpart⟩
        | none => simp [Precedence, hrun, hpart] at hprec
    obtain ⟨author, e, he⟩ := hsome
    obtain ⟨a, ha, ⟨hreq, -⟩, -⟩ := hr.sourced author e (Option.bind_eq_some_iff.mpr ⟨s, hst, he⟩)
    obtain ⟨s', hs', hsi⟩ := hr.owner a ha hreq
    obtain rfl := Option.mem_unique hst hs'
    exact hsi.trans (hfirst a ha hreq).1
  obtain ⟨j', hrec⟩ := recordReport_succeeds hv hl hi hnew hw
  exact ⟨j', appendCommandResult_ok.mpr ⟨d, identity, state, hv, hl, hi, .inr ⟨hnew, hrec⟩⟩⟩

end ModularPipelines.Journal
