import ModularPipelines.Journal.Reports

namespace ModularPipelines.Journal
open Library

/-- A request to the writer of one journal. -/
inductive Operation where
  | append (event : JournalEvent)
  | report (event : JournalEvent)

/-- A report that the journal has taken, with the owner it named. -/
structure Accepted where
  result : CommandObservation
  identity : Identity
  deriving DecidableEq

/-- The tables, and every report that was ever accepted into them. -/
structure History where
  store : EventStore
  accepted : List Accepted

/-- One transaction each: an error rolls it back. -/
def History.step (settings : Settings) (h : History) : Operation → History
  | .append event =>
    match append settings h.store event with
    | .ok store => { h with store := store }
    | .error _ => h
  | .report event =>
    match validateReport settings event, appendCommandResult settings h.store event with
    | .ok (result, identity), .ok (store, _) => ⟨store, h.accepted ++ [⟨result, identity⟩]⟩
    | _, _ => h

def History.run (settings : Settings) (h : History) (ops : List Operation) : History :=
  ops.foldl (History.step settings) h

def History.create (journalId generation : String) : History :=
  ⟨EventStore.create journalId generation, []⟩

def Accepted.by (a : Accepted) (requestId : String) (author : Author) : Prop :=
  a.result.requestId = requestId ∧ a.result.author = author

/-- The index entries of a request are the answers its authors gave. -/
structure Reflects (accepted : List Accepted) (requestId : String) (state : Option CommandState) : Prop where
  owner : ∀ a ∈ accepted, a.result.requestId = requestId → ∃ st ∈ state, st.identity = a.identity
  given : ∀ a ∈ accepted, ∀ author, a.by requestId author →
    ∃ e ∈ state.bind (CommandState.entry · author), e.result.answer = a.result.answer
  sourced : ∀ author, ∀ e ∈ state.bind (CommandState.entry · author),
    ∃ a ∈ accepted, a.by requestId author ∧ a.result.answer = e.result.answer

def History.Sound (settings : Settings) (h : History) : Prop :=
  ∀ requestId, ∃ state, loadCommandResult settings h.store requestId = .ok state ∧
    Reflects h.accepted requestId state

theorem create_sound (settings : Settings) (journalId generation : String) :
    (History.create journalId generation).Sound settings := by
  intro requestId
  refine ⟨none, rfl, ?_, ?_, ?_⟩ <;> simp [History.create]

theorem append_ok {settings : Settings} {j j' : EventStore} {event : JournalEvent} :
    append settings j event = .ok j' ↔ ∃ t k, encodeEvent settings event = .ok t ∧
      event.eventType ≠ "command.result" ∧ insertEvent j event = .ok k ∧
      j' = recordEventChange k event.eventId := by
  simp only [append, bind_ok, rejectIf_ok, exists_const, pure_eq_ok, Except.ok.injEq]
  constructor
  · rintro ⟨t, ht, hn, k, hk, rfl⟩
    exact ⟨t, k, ht, hn, hk, rfl⟩
  · rintro ⟨t, k, ht, hn, hk, rfl⟩
    exact ⟨t, ht, hn, k, hk, rfl⟩

theorem append_sound {settings : Settings} {h : History} {event : JournalEvent} {j' : EventStore}
    (hs : h.Sound settings) (ha : append settings h.store event = .ok j') :
    ({ h with store := j' } : History).Sound settings := by
  obtain ⟨t, k, -, -, hi, rfl⟩ := append_ok.mp ha
  obtain ⟨-, -, rfl⟩ := insertEvent_ok.mp hi
  intro requestId
  obtain ⟨state, hl, hr⟩ := hs requestId
  exact ⟨state, loadCommandResult_mono ⟨_, rfl⟩ rfl hl, hr⟩

theorem validateReport_ok {settings : Settings} {event : JournalEvent} {d : CommandObservation}
    {identity : Identity} :
    validateReport settings event = .ok (d, identity) ↔ ∃ t, encodeEvent settings event = .ok t ∧
      event.eventType = "command.result" ∧ readCommandResult event.data = some d ∧
      d.ignored = none ∧ d.supersedes = [] ∧ identityOf event.context = .ok identity ∧
      contextText event.context "request_id" = some d.requestId := by
  simp only [validateReport, bind_ok, rejectIf_ok, exists_const, pure_eq_ok, Except.ok.injEq,
    Prod.mk.injEq, ne_eq, not_not, not_or, validatedCommandResult_ok]
  constructor
  · rintro ⟨t, ht, hty, d', hd, ⟨h1, h2⟩, i', hi, hc, rfl, rfl⟩
    exact ⟨t, ht, hty, hd, by simpa using h1, h2, hi, hc⟩
  · rintro ⟨t, ht, hty, hd, h1, h2, hi, hc⟩
    exact ⟨t, ht, hty, d, hd, ⟨by simp [h1], h2⟩, identity, hi, hc, rfl, rfl⟩

theorem sameOwner_iff {state : Option CommandState} {identity : Identity} :
    ¬ state.any (fun s => decide (s.identity ≠ identity)) = true ↔ ∀ s ∈ state, s.identity = identity := by
  cases state <;> simp

/-- An accepted report repeats its author's answer or is that author's first. -/
theorem appendCommandResult_ok {settings : Settings} {j j' : EventStore} {event : JournalEvent}
    {eventId : String} :
    appendCommandResult settings j event = .ok (j', eventId) ↔ ∃ d identity state,
      validateReport settings event = .ok (d, identity) ∧
      loadCommandResult settings j d.requestId = .ok state ∧ (∀ s ∈ state, s.identity = identity) ∧
      ((∃ own, state.bind (CommandState.entry · d.author) = some own ∧
          own.result.answer = d.answer ∧ j' = j ∧ eventId = own.eventId) ∨
       (state.bind (CommandState.entry · d.author) = none ∧
          recordReport settings j event d identity state = .ok (j', eventId))) := by
  simp only [appendCommandResult, bind_ok, rejectIf_ok, exists_const, Prod.exists,
    sameOwner_iff]
  constructor
  · rintro ⟨d, identity, hv, state, hl, hi, h⟩
    refine ⟨d, identity, state, hv, hl, hi, ?_⟩
    cases ho : state.bind (CommandState.entry · d.author) with
    | none =>
      rw [ho] at h
      exact .inr ⟨rfl, h⟩
    | some own =>
      simp only [ho, bind_ok, rejectIf_ok, exists_const, pure_eq_ok, Except.ok.injEq, Prod.mk.injEq,
        ne_eq, not_not, responseKey_eq_iff] at h
      exact .inl ⟨own, rfl, h.1.symm, h.2.1.symm, h.2.2.symm⟩
  · rintro ⟨d, identity, state, hv, hl, hi, h⟩
    refine ⟨d, identity, hv, state, hl, hi, ?_⟩
    rcases h with ⟨own, ho, ha, rfl, rfl⟩ | ⟨ho, h⟩
    · simp only [ho, bind_ok, rejectIf_ok, exists_const, pure_eq_ok, ne_eq, not_not, responseKey_eq_iff]
      exact ⟨ha.symm, trivial⟩
    · rw [ho]
      exact h

theorem Author.eq_or_other (a b : Author) : a = b ∨ a = b.other := by
  cases a <;> cases b <;> decide

theorem Recorded.extends {settings : Settings} {j j' : EventStore} {event : JournalEvent}
    {d : CommandObservation} {identity : Identity} {state : Option CommandState} {eventId : String}
    {st : CommandState} (h : Recorded settings j j' event d identity state eventId st) : j.Extends j' := by
  rcases h.events with ⟨e, -, -, -, he, -⟩ | ⟨snapshot, -, -, -, -, -, -, he, -⟩
  · exact ⟨[], by simp [he]⟩
  · exact ⟨_, he⟩

theorem Recorded.findResult_ne {settings : Settings} {j j' : EventStore} {event : JournalEvent}
    {d : CommandObservation} {identity : Identity} {state : Option CommandState} {eventId requestId : String}
    {st : CommandState} (h : Recorded settings j j' event d identity state eventId st)
    (hne : d.requestId ≠ requestId) : j'.findResult requestId = j.findResult requestId := by
  obtain ⟨row, hrow, hres⟩ := h.results
  rw [EventStore.findResult, hres, find_upsertResult, if_neg (hrow ▸ hne), EventStore.findResult]

/-- A report about another request does not concern this one. -/
theorem Reflects.skip {accepted : List Accepted} {requestId : String} {state : Option CommandState}
    {a : Accepted} (h : Reflects accepted requestId state) (hne : a.result.requestId ≠ requestId) :
    Reflects (accepted ++ [a]) requestId state := by
  refine ⟨?_, ?_, ?_⟩
  · intro b hb hreq
    rcases List.mem_append.mp hb with hb | hb
    · exact h.owner b hb hreq
    · exact absurd (List.mem_singleton.mp hb ▸ hreq) hne
  · intro b hb author hby
    rcases List.mem_append.mp hb with hb | hb
    · exact h.given b hb author hby
    · exact absurd (List.mem_singleton.mp hb ▸ hby.1) hne
  · intro author e he
    obtain ⟨b, hb, hby⟩ := h.sourced author e he
    exact ⟨b, List.mem_append_left _ hb, hby⟩

theorem Reflects.repeat {accepted : List Accepted} {d : CommandObservation} {st : CommandState}
    {own : AuthorEntry} (h : Reflects accepted d.requestId (some st))
    (ho : st.entry d.author = some own) (ha : own.result.answer = d.answer) :
    Reflects (accepted ++ [⟨d, st.identity⟩]) d.requestId (some st) := by
  refine ⟨?_, ?_, ?_⟩
  · intro b hb hreq
    rcases List.mem_append.mp hb with hb | hb
    · exact h.owner b hb hreq
    · rw [List.mem_singleton.mp hb]
      exact ⟨st, rfl, rfl⟩
  · intro b hb author hby
    rcases List.mem_append.mp hb with hb | hb
    · exact h.given b hb author hby
    · obtain rfl := List.mem_singleton.mp hb
      obtain ⟨-, rfl⟩ := hby
      exact ⟨own, ho, ha⟩
  · intro author e he
    obtain ⟨b, hb, hby⟩ := h.sourced author e he
    exact ⟨b, List.mem_append_left _ hb, hby⟩

theorem Reflects.first {settings : Settings} {accepted : List Accepted} {j j' : EventStore}
    {event : JournalEvent} {d : CommandObservation} {identity : Identity} {state : Option CommandState}
    {eventId : String} {st : CommandState} (h : Reflects accepted d.requestId state)
    (hi : ∀ s ∈ state, s.identity = identity) (hnew : state.bind (CommandState.entry · d.author) = none)
    (hrec : Recorded settings j j' event d identity state eventId st) :
    Reflects (accepted ++ [⟨d, identity⟩]) d.requestId (some st) := by
  obtain ⟨own, ho, -, -, ha⟩ := hrec.own
  refine ⟨?_, ?_, ?_⟩
  · intro b hb hreq
    rcases List.mem_append.mp hb with hb | hb
    · obtain ⟨s, hs, hsi⟩ := h.owner b hb hreq
      exact ⟨st, rfl, hrec.identity.trans ((hi s hs).symm.trans hsi)⟩
    · rw [List.mem_singleton.mp hb]
      exact ⟨st, rfl, hrec.identity⟩
  · intro b hb author hby
    rcases List.mem_append.mp hb with hb | hb
    · obtain ⟨e, he, hea⟩ := h.given b hb author hby
      rcases Author.eq_or_other author d.author with rfl | rfl
      · rw [hnew] at he
        cases he
      · exact ⟨e, hrec.other.trans he, hea⟩
    · obtain rfl := List.mem_singleton.mp hb
      obtain ⟨-, rfl⟩ := hby
      exact ⟨own, ho, ha⟩
  · intro author e he
    rcases Author.eq_or_other author d.author with rfl | rfl
    · rw [Option.bind_some, ho] at he
      cases he
      exact ⟨_, List.mem_append_right _ (List.mem_singleton.mpr rfl), ⟨rfl, rfl⟩, ha.symm⟩
    · rw [Option.bind_some, hrec.other] at he
      obtain ⟨b, hb, hby⟩ := h.sourced _ e he
      exact ⟨b, List.mem_append_left _ hb, hby⟩

theorem report_sound {settings : Settings} {h : History} {event : JournalEvent} {d : CommandObservation}
    {identity : Identity} {j' : EventStore} {eventId : String} (hs : h.Sound settings)
    (hv : validateReport settings event = .ok (d, identity))
    (ha : appendCommandResult settings h.store event = .ok (j', eventId)) :
    (⟨j', h.accepted ++ [⟨d, identity⟩]⟩ : History).Sound settings := by
  obtain ⟨d', i', state, hv', hl, hi, hcase⟩ := appendCommandResult_ok.mp ha
  obtain ⟨rfl, rfl⟩ : d = d' ∧ identity = i' := by simpa [hv] using hv'
  obtain ⟨_, hl', hr⟩ := hs d.requestId
  obtain rfl := Except.ok.inj (hl.symm.trans hl')
  intro requestId
  by_cases hreq : d.requestId = requestId
  · subst hreq
    rcases hcase with ⟨own, ho, hoa, rfl, -⟩ | ⟨hnew, hrec⟩
    · obtain ⟨st, rfl, ho⟩ := Option.bind_eq_some_iff.mp ho
      obtain rfl := hi st rfl
      exact ⟨some st, hl, hr.repeat ho hoa⟩
    · obtain ⟨-, -, -, hd, -⟩ := validateReport_ok.mp hv
      obtain ⟨st, hrec⟩ := recordReport_recorded hd hl hi hrec
      exact ⟨some st, hrec.loaded, hr.first hi hnew hrec⟩
  · obtain ⟨other, hol, hor⟩ := hs requestId
    refine ⟨other, ?_, hor.skip hreq⟩
    rcases hcase with ⟨own, -, -, rfl, -⟩ | ⟨-, hrec⟩
    · exact hol
    · obtain ⟨-, -, -, hd, -⟩ := validateReport_ok.mp hv
      obtain ⟨st, hrec⟩ := recordReport_recorded hd hl hi hrec
      exact loadCommandResult_mono hrec.extends (hrec.findResult_ne hreq) hol

theorem step_append (settings : Settings) (h : History) (event : JournalEvent) :
    h.step settings (.append event) = h ∨ ∃ j', append settings h.store event = .ok j' ∧
      h.step settings (.append event) = { h with store := j' } := by
  cases ha : append settings h.store event with
  | error e => simp only [History.step, ha, true_or]
  | ok j' => exact .inr ⟨j', rfl, by simp only [History.step, ha]⟩

theorem step_report (settings : Settings) (h : History) (event : JournalEvent) :
    h.step settings (.report event) = h ∨ ∃ d identity j' eventId,
      validateReport settings event = .ok (d, identity) ∧
      appendCommandResult settings h.store event = .ok (j', eventId) ∧
      h.step settings (.report event) = ⟨j', h.accepted ++ [⟨d, identity⟩]⟩ := by
  cases hv : validateReport settings event with
  | error e => simp only [History.step, hv, true_or]
  | ok report =>
    cases ha : appendCommandResult settings h.store event with
    | error e => simp only [History.step, hv, ha, true_or]
    | ok result => exact .inr ⟨_, _, _, _, rfl, rfl, by simp only [History.step, hv, ha]⟩

theorem step_sound {settings : Settings} {h : History} (hs : h.Sound settings) (op : Operation) :
    (h.step settings op).Sound settings := by
  cases op with
  | append event =>
    rcases step_append settings h event with hstep | ⟨j', ha, hstep⟩
    · rw [hstep]
      exact hs
    · rw [hstep]
      exact append_sound hs ha
  | report event =>
    rcases step_report settings h event with hstep | ⟨d, identity, j', eventId, hv, ha, hstep⟩
    · rw [hstep]
      exact hs
    · rw [hstep]
      exact report_sound hs hv ha

/-- Every request stays readable, and shows exactly the accepted reports. -/
theorem run_sound {settings : Settings} {h : History} (hs : h.Sound settings) (ops : List Operation) :
    (h.run settings ops).Sound settings := by
  induction ops generalizing h with
  | nil => exact hs
  | cons op ops ih => exact ih (step_sound hs op)

end ModularPipelines.Journal
