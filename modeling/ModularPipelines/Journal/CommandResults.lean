import ModularPipelines.Journal.Admission

namespace ModularPipelines.Journal
open Library

structure CommandResultObserver where
  author : Author
  eventId : String
  entry : EventRow
  observation : AuthorObservation
  ignored : Option String

structure JournalCommandResult where
  requestId : String
  eventId : String
  author : Author
  result : CommandObservation
  entry : EventRow
  observations : List CommandResultObserver
  provisional : Bool

/-- A participant's observation is ignored once the runner has another event. -/
def ignoredBy (runner : Option AuthorEntry) (author : Author) (entry : AuthorEntry) : Option String :=
  match author, runner with
  | .participant, some r => if entry.eventId = r.eventId then none else some (ignoredReason r.result)
  | _, _ => none

def observer (state : CommandState) (author : Author) : Option CommandResultObserver :=
  (state.entry author).map fun entry =>
    ⟨author, entry.eventId, entry.entry, entry.observation, ignoredBy state.runner author entry⟩

def commandResultDocument (requestId : String) (state : CommandState) : Option JournalCommandResult :=
  (state.entry state.effectiveAuthor).map fun effective =>
    { requestId, eventId := effective.eventId, author := state.effectiveAuthor,
      result := effective.result, entry := effective.entry,
      observations := [Author.runner, .participant].filterMap (observer state),
      provisional := state.runner.isNone }

/-- `read_command_result` over one read view. -/
def readCommandResultOf (settings : Settings) (j : EventStore) (requestId : String) :
    Except JournalError (Option JournalCommandResult) := do
  match ← loadCommandResult settings j requestId with
  | none => return none
  | some state =>
    match commandResultDocument requestId state with
    | none => .error (.storage "TypeError")
    | some document => return some document

/-- What a request came to, leaving out which events carry it. -/
structure Verdict where
  author : Author
  answer : Outcome × Json
  provisional : Bool
  ignored : List (Author × Option String)
  deriving DecidableEq

def JournalCommandResult.verdict (r : JournalCommandResult) : Verdict :=
  ⟨r.author, r.result.answer, r.provisional, r.observations.map (fun o => (o.author, o.ignored))⟩

/-- The verdict that the answers of the two authors call for. -/
def verdictOf (runner participant : Option (Outcome × Json)) : Option Verdict :=
  match runner, participant with
  | none, none => none
  | some r, none => some ⟨.runner, r, false, [(.runner, none)]⟩
  | none, some p => some ⟨.participant, p, true, [(.participant, none)]⟩
  | some r, some p => some ⟨.runner, r, false, [(.runner, none),
      (.participant, if r = p then none else some r.1.ignoredReason)]⟩

/-- Two entries share their event exactly when they give the same answer. -/
theorem shared_iff_answer {settings : Settings} {j : EventStore} {requestId : String} {st : CommandState}
    {r p : AuthorEntry} (h : loadCommandResult settings j requestId = .ok (some st))
    (hr : st.runner = some r) (hp : st.participant = some p) :
    p.eventId = r.eventId ↔ r.result.answer = p.result.answer := by
  obtain ⟨hfr, -, hdr⟩ := loaded_entry h (show st.entry .runner = some r from hr)
  obtain ⟨hfp, -, hdp⟩ := loaded_entry h (show st.entry .participant = some p from hp)
  obtain ⟨row, -, hl⟩ := loadCommandResult_some.mp h
  have hprec := (loadRow_ok.mp hl).2.2.2.2.2.2
  simp only [Precedence, hr, hp] at hprec
  constructor
  · intro he
    rw [he, hfr] at hfp
    have hentry := Option.some.inj hfp
    obtain ⟨-, -, hvr, -⟩ := decodeAuthorObservation_ok.mp hdr
    obtain ⟨-, -, hvp, -⟩ := decodeAuthorObservation_ok.mp hdp
    rw [hentry, hvp] at hvr
    rw [Except.ok.inj hvr]
  · intro ha
    by_contra hne
    rw [if_neg (fun e => hne e.symm)] at hprec
    exact hprec.2.2.2.2.2.2.2.2 (responseKey_eq_iff.mpr ha)

theorem document_verdict {settings : Settings} {j : EventStore} {requestId : String} {st : CommandState}
    (h : loadCommandResult settings j requestId = .ok (some st)) :
    ∃ document, commandResultDocument requestId st = some document ∧
      verdictOf (st.runner.map (fun e => e.result.answer)) (st.participant.map (fun e => e.result.answer)) =
        some document.verdict := by
  obtain ⟨row, -, hl⟩ := loadCommandResult_some.mp h
  have hprec := (loadRow_ok.mp hl).2.2.2.2.2.2
  cases hr : st.runner with
  | none =>
    cases hp : st.participant with
    | none => simp [Precedence, hr, hp] at hprec
    | some p =>
      simp only [Precedence, hr, hp] at hprec
      simp [commandResultDocument, CommandState.entry, observer, ignoredBy, verdictOf, hr, hp, hprec.1,
        JournalCommandResult.verdict]
  | some r =>
    cases hp : st.participant with
    | none =>
      simp only [Precedence, hr, hp] at hprec
      simp [commandResultDocument, CommandState.entry, observer, ignoredBy, verdictOf, hr, hp, hprec.1,
        JournalCommandResult.verdict]
    | some p =>
      simp only [Precedence, hr, hp] at hprec
      simp [commandResultDocument, CommandState.entry, observer, ignoredBy, verdictOf, hr, hp, hprec.1,
        JournalCommandResult.verdict, shared_iff_answer h hr hp, ignoredReason, CommandObservation.answer]

def answerOf (state : Option CommandState) (author : Author) : Option (Outcome × Json) :=
  (state.bind (CommandState.entry · author)).map (fun e => e.result.answer)

/-- What an author was accepted to say about a request. -/
def Reported (accepted : List Accepted) (requestId : String) (author : Author)
    (answer : Outcome × Json) : Prop :=
  ∃ a ∈ accepted, a.by requestId author ∧ a.result.answer = answer

theorem Reflects.answerOf_iff {accepted : List Accepted} {requestId : String}
    {state : Option CommandState} (h : Reflects accepted requestId state) (author : Author)
    (answer : Outcome × Json) :
    answerOf state author = some answer ↔ Reported accepted requestId author answer := by
  simp only [answerOf, Option.map_eq_some_iff]
  constructor
  · rintro ⟨e, he, rfl⟩
    exact h.sourced author e he
  · rintro ⟨a, ha, hby, rfl⟩
    exact h.given a ha author hby

theorem read_verdict {settings : Settings} {j : EventStore} {requestId : String}
    {state : Option CommandState} (h : loadCommandResult settings j requestId = .ok state) :
    ∃ document, readCommandResultOf settings j requestId = .ok document ∧
      document.map JournalCommandResult.verdict =
        verdictOf (answerOf state .runner) (answerOf state .participant) := by
  cases state with
  | none => exact ⟨none, by simp [readCommandResultOf, h], rfl⟩
  | some st =>
    obtain ⟨document, hd, hv⟩ := document_verdict h
    exact ⟨some document, by simp [readCommandResultOf, h, hd], hv.symm⟩

/-- A report that contradicts an accepted one is refused. -/
theorem conflict_rejected {settings : Settings} {h : History} {event : JournalEvent}
    {d : CommandObservation} {identity : Identity} {a : Accepted} (hs : h.Sound settings)
    (hv : validateReport settings event = .ok (d, identity)) (ha : a ∈ h.accepted)
    (hreq : a.result.requestId = d.requestId)
    (hc : a.identity ≠ identity ∨ (a.result.author = d.author ∧ a.result.answer ≠ d.answer)) :
    ∃ e, appendCommandResult settings h.store event = .error e := by
  cases happ : appendCommandResult settings h.store event with
  | error e => exact ⟨e, rfl⟩
  | ok result =>
    obtain ⟨d', i', state, hv', hl, hi, hcase⟩ := appendCommandResult_ok.mp happ
    obtain ⟨rfl, rfl⟩ : d = d' ∧ identity = i' := by simpa [hv] using hv'
    obtain ⟨_, hl', hr⟩ := hs d.requestId
    obtain rfl := Except.ok.inj (hl.symm.trans hl')
    exfalso
    rcases hc with hne | ⟨hauthor, hne⟩
    · obtain ⟨st, hst, hsi⟩ := hr.owner a ha hreq
      exact hne (hsi.symm.trans (hi st hst))
    · obtain ⟨e, he, hea⟩ := hr.given a ha d.author ⟨hreq, hauthor⟩
      rcases hcase with ⟨own, ho, hoa, -⟩ | ⟨hnew, -⟩
      · obtain rfl := Option.mem_unique he ho
        exact hne (hea.symm.trans hoa)
      · rw [hnew] at he
        cases he

/-- The state of a journal whose command results have been reconciled. -/
structure Reconciled (settings : Settings) (h : History) : Prop where
  readable : ∀ requestId, ∃ state, loadCommandResult settings h.store requestId = .ok state
  oneAnswer : ∀ a ∈ h.accepted, ∀ b ∈ h.accepted, a.result.requestId = b.result.requestId →
    a.result.author = b.result.author → a.result.answer = b.result.answer
  effective : ∀ a ∈ h.accepted, ∃ document,
    readCommandResultOf settings h.store a.result.requestId = .ok (some document) ∧
    (a.result.author = .runner → document.author = .runner ∧ document.result.answer = a.result.answer) ∧
    ((∀ b ∈ h.accepted, b.result.requestId = a.result.requestId → b.result.author = .participant) →
      document.author = .participant ∧ document.result.answer = a.result.answer)
  orderFree : ∀ (settings' : Settings) (journalId' generation' : String) (ops' : List Operation)
    (requestId : String),
    let h' := (History.create journalId' generation').run settings' ops'
    (∀ author answer, Reported h.accepted requestId author answer ↔
      Reported h'.accepted requestId author answer) →
    ∃ document document', readCommandResultOf settings h.store requestId = .ok document ∧
      readCommandResultOf settings' h'.store requestId = .ok document' ∧
      document.map JournalCommandResult.verdict = document'.map JournalCommandResult.verdict
  admits : ∀ event d identity state k eventId, validateReport settings event = .ok (d, identity) →
    (∀ a ∈ h.accepted, a.result.requestId = d.requestId →
      a.identity = identity ∧ a.result.author ≠ d.author) →
    loadCommandResult settings h.store d.requestId = .ok state →
    writeReport settings h.store (state.bind (CommandState.entry · d.author.other)) event d =
      .ok (k, eventId) →
    ∃ j', appendCommandResult settings h.store event = .ok (j', eventId)
  rejects : ∀ event d identity, validateReport settings event = .ok (d, identity) →
    ∀ a ∈ h.accepted, a.result.requestId = d.requestId →
      (a.identity ≠ identity ∨ (a.result.author = d.author ∧ a.result.answer ≠ d.answer)) →
      ∃ e, appendCommandResult settings h.store event = .error e
  unchanged : ∀ event e, appendCommandResult settings h.store event = .error e →
    h.step settings (.report event) = h

theorem History.Sound.orderFree {settings settings' : Settings} {h h' : History} {requestId : String}
    (hs : h.Sound settings) (hs' : h'.Sound settings')
    (heq : ∀ author answer, Reported h.accepted requestId author answer ↔
      Reported h'.accepted requestId author answer) :
    ∃ document document', readCommandResultOf settings h.store requestId = .ok document ∧
      readCommandResultOf settings' h'.store requestId = .ok document' ∧
      document.map JournalCommandResult.verdict = document'.map JournalCommandResult.verdict := by
  obtain ⟨state, hl, hr⟩ := hs requestId
  obtain ⟨state', hl', hr'⟩ := hs' requestId
  obtain ⟨document, hd, hv⟩ := read_verdict hl
  obtain ⟨document', hd', hv'⟩ := read_verdict hl'
  have hsame : ∀ author, answerOf state author = answerOf state' author := by
    intro author
    ext answer
    rw [hr.answerOf_iff, hr'.answerOf_iff, heq]
  exact ⟨document, document', hd, hd', by rw [hv, hv', hsame, hsame]⟩

theorem History.Sound.effective {settings : Settings} {h : History} (hs : h.Sound settings) {a : Accepted}
    (ha : a ∈ h.accepted) : ∃ document,
    readCommandResultOf settings h.store a.result.requestId = .ok (some document) ∧
    (a.result.author = .runner → document.author = .runner ∧ document.result.answer = a.result.answer) ∧
    ((∀ b ∈ h.accepted, b.result.requestId = a.result.requestId → b.result.author = .participant) →
      document.author = .participant ∧ document.result.answer = a.result.answer) := by
  obtain ⟨state, hl, hr⟩ := hs a.result.requestId
  have hmine := (hr.answerOf_iff a.result.author a.result.answer).mpr ⟨a, ha, ⟨rfl, rfl⟩, rfl⟩
  obtain ⟨document, hd, hv⟩ := read_verdict hl
  have hnorunner : (∀ b ∈ h.accepted, b.result.requestId = a.result.requestId →
      b.result.author = .participant) → answerOf state .runner = none := by
    intro hall
    by_contra hsome
    obtain ⟨answer, hans⟩ := Option.ne_none_iff_exists'.mp hsome
    obtain ⟨b, hb, ⟨hreq, hauthor⟩, -⟩ := (hr.answerOf_iff .runner answer).mp hans
    rw [hall b hb hreq] at hauthor
    cases hauthor
  cases hauthor : a.result.author with
  | runner =>
    rw [hauthor] at hmine
    have hw : ∃ rest, verdictOf (answerOf state .runner) (answerOf state .participant) =
        some ⟨.runner, a.result.answer, false, rest⟩ := by
      rw [hmine]
      cases answerOf state .participant <;> exact ⟨_, rfl⟩
    obtain ⟨rest, hw⟩ := hw
    rw [hw] at hv
    obtain ⟨document, rfl, hdoc⟩ := Option.map_eq_some_iff.mp hv
    simp only [JournalCommandResult.verdict, Verdict.mk.injEq] at hdoc
    refine ⟨document, hd, fun _ => ⟨hdoc.1, hdoc.2.1⟩, fun hall => ?_⟩
    rw [hnorunner hall] at hmine
    cases hmine
  | participant =>
    rw [hauthor] at hmine
    rw [hmine] at hv
    cases hrun : answerOf state .runner with
    | none =>
      rw [hrun] at hv
      obtain ⟨document, rfl, hdoc⟩ := Option.map_eq_some_iff.mp hv
      simp only [JournalCommandResult.verdict, Verdict.mk.injEq] at hdoc
      exact ⟨document, hd, by rintro ⟨⟩, fun _ => ⟨hdoc.1, hdoc.2.1⟩⟩
    | some answer =>
      rw [hrun] at hv
      obtain ⟨document, rfl, -⟩ := Option.map_eq_some_iff.mp hv
      refine ⟨document, hd, by rintro ⟨⟩, fun hall => ?_⟩
      rw [hnorunner hall] at hrun
      cases hrun

theorem step_rejected {settings : Settings} {h : History} {event : JournalEvent} {e : JournalError}
    (he : appendCommandResult settings h.store event = .error e) :
    h.step settings (.report event) = h := by
  rcases step_report settings h event with hstep | ⟨d, i, j', eventId, -, ha, -⟩
  · exact hstep
  · rw [he] at ha
    cases ha

theorem command_results_reconcile (settings : Settings) (journalId generation : String)
    (ops : List Operation) :
    Reconciled settings ((History.create journalId generation).run settings ops) := by
  have hs := run_sound (create_sound settings journalId generation) ops
  refine ⟨?_, ?_, fun a ha => hs.effective ha, ?_, ?_, ?_, fun event e he => step_rejected he⟩
  · intro requestId
    obtain ⟨state, hl, -⟩ := hs requestId
    exact ⟨state, hl⟩
  · intro a ha b hb hreq hauthor
    obtain ⟨state, -, hr⟩ := hs a.result.requestId
    obtain ⟨e, he, hea⟩ := hr.given a ha a.result.author ⟨rfl, rfl⟩
    obtain ⟨f, hf, hfa⟩ := hr.given b hb a.result.author ⟨hreq.symm, hauthor.symm⟩
    obtain rfl := Option.mem_unique he hf
    exact hea.symm.trans hfa
  · intro settings' journalId' generation' ops' requestId h' heq
    exact hs.orderFree (run_sound (create_sound settings' journalId' generation') ops') heq
  · intro event d identity state k eventId hv hfirst hl hw
    exact first_report_accepted hs hv hfirst hl hw
  · intro event d identity hv a ha hreq hc
    exact conflict_rejected hs hv ha hreq hc

end ModularPipelines.Journal
