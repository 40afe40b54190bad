import ModularPipelines.Journal.Store

namespace ModularPipelines.Journal
open Library

/-- The combinations of reports that an index row may hold. -/
def Precedence (st : CommandState) : Prop :=
  match st.runner, st.participant with
  | none, none => False
  | some r, none => st.effectiveAuthor = .runner ∧ st.effectiveEventId = r.eventId ∧
      r.result.author = .runner ∧ r.result.ignored = none ∧ r.result.supersedes = []
  | none, some p => st.effectiveAuthor = .participant ∧ st.effectiveEventId = p.eventId ∧
      p.result.author = .participant ∧ p.result.ignored = none ∧ p.result.supersedes = []
  | some r, some p => st.effectiveAuthor = .runner ∧ st.effectiveEventId = r.eventId ∧
      if r.eventId = p.eventId then r.result.ignored = none ∧ r.result.supersedes = []
      else r.result.author = .runner ∧ p.result.author = .participant ∧
        p.result.supersedes = [] ∧ r.result.ignored = none ∧
        (r.result.supersedes = [] ∨ r.result.supersedes = [⟨p.eventId, ignoredReason r.result⟩]) ∧
        (p.result.ignored = none ∨ p.result.ignored = some (ignoredReason r.result)) ∧
        responseKey r.result ≠ responseKey p.result

theorem validateSupersedes_ok {r : AuthorEntry} {p : Option AuthorEntry} {u : Unit} :
    validateSupersedes r p = .ok u ↔ r.result.supersedes = [] ∨
      ∃ q ∈ p, r.result.supersedes = [⟨q.eventId, ignoredReason r.result⟩] := by
  unfold validateSupersedes
  rcases hs : r.result.supersedes with _ | ⟨⟨id, reason⟩, _ | ⟨t, ts⟩⟩
  · simp
  · cases p <;> simp
  · simp

theorem validateRunnerPrecedence_ok {r p : AuthorEntry} {u : Unit} :
    validateRunnerPrecedence r (some p) = .ok u ↔ r.result.ignored = none ∧
      (r.result.supersedes = [] ∨ r.result.supersedes = [⟨p.eventId, ignoredReason r.result⟩]) ∧
      (p.result.ignored = none ∨ p.result.ignored = some (ignoredReason r.result)) ∧
      responseKey r.result ≠ responseKey p.result := by
  cases hp : p.result.ignored <;>
    simp [validateRunnerPrecedence, bind_ok, validateSupersedes_ok, hp]

/-- The checks accept exactly the combinations listed by `Precedence`. -/
theorem precedence_iff {st : CommandState} {u : Unit} :
    validateResultPrecedence st = .ok u ↔ Precedence st := by
  obtain ⟨identity, runner, participant, eventId, author⟩ := st
  rcases runner with _ | r <;> rcases participant with _ | p
  · simp [validateResultPrecedence, Precedence, bind_ok]
  · simp [validateResultPrecedence, Precedence, bind_ok, sharedEvent, authorMatches]
    tauto
  · simp [validateResultPrecedence, Precedence, bind_ok, sharedEvent, authorMatches,
      validateRunnerPrecedence, validateSupersedes_ok]
    tauto
  · by_cases hs : r.eventId = p.eventId
    · simp [validateResultPrecedence, Precedence, bind_ok, sharedEvent, hs, validateSharedPrecedence]
      tauto
    · have hr := @validateRunnerPrecedence_ok r p u
      simp [validateResultPrecedence, Precedence, sharedEvent, hs, authorMatches, hr, and_assoc,
        and_left_comm]

/-- Events are only ever appended. -/
def EventStore.Extends (j j' : EventStore) : Prop := ∃ es, j'.events = j.events ++ es

theorem findEvent_mono {j j' : EventStore} {eventId : String} {r : EventRow}
    (he : j.Extends j') (h : j.findEvent eventId = some r) : j'.findEvent eventId = some r := by
  obtain ⟨es, hes⟩ := he
  simp only [EventStore.findEvent] at h ⊢
  rw [hes, List.find?_append, h]
  rfl

theorem decodeRow_ok {settings : Settings} {row r : EventRow} :
    decodeRow settings row = .ok r ↔ row.event.valid settings = true ∧ r = row := by
  unfold decodeRow
  split
  · next hv => simp only [hv, true_and, Except.ok.injEq, eq_comm]
  · next hv => simp only [hv, false_and, reduceCtorEq]

theorem decodeAuthorObservation_ok {settings : Settings} {event : JournalEvent}
    {observation o : AuthorObservation} {requestId : String} {identity : Identity} {d : CommandObservation} :
    decodeAuthorObservation settings event observation requestId identity = .ok (o, d) ↔
      o = observation ∧ event.eventType = "command.result" ∧
      validatedCommandResult event.data = .ok d ∧ d.requestId = requestId ∧
      contextText event.context "request_id" = some requestId ∧
      identityOf event.context = .ok identity ∧ observation.valid settings = true ∧
      contextText observation.context "request_id" = some requestId ∧
      identityOf observation.context = .ok identity := by
  simp only [decodeAuthorObservation, bind_ok, rejectIf_ok, exists_const, pure_eq_ok, Except.ok.injEq,
    Prod.mk.injEq, ne_eq, not_not, not_or, Bool.not_eq_false]
  constructor
  · rintro ⟨ht, data, hd, ⟨hr, hc⟩, owner, ho, rfl, hv, hoc, other, hother, rfl, rfl, rfl⟩
    exact ⟨rfl, ht, hd, hr, hc, ho, hv, hoc, hother⟩
  · rintro ⟨rfl, ht, hd, hr, hc, ho, hv, hoc, hother⟩
    exact ⟨ht, d, hd, ⟨hr, hc⟩, identity, ho, rfl, hv, hoc, identity, hother, rfl, rfl, rfl⟩

theorem loadAuthor_some {settings : Settings} {j : EventStore} {requestId : String}
    {identity : Identity} {c : AuthorColumns} {r : Option AuthorEntry} :
    loadAuthor settings j requestId identity (some c) = .ok r ↔
      ∃ stored d, j.findEvent c.eventId = some stored ∧ stored.event.valid settings = true ∧
        decodeAuthorObservation settings stored.event c.observation requestId identity =
          .ok (c.observation, d) ∧
        r = some ⟨c.eventId, stored, c.observation, d⟩ := by
  simp only [loadAuthor]
  cases hf : j.findEvent c.eventId with
  | none => simp
  | some stored =>
    simp only [bind_ok, decodeRow_ok, pure_eq_ok, Except.ok.injEq, Option.some.injEq]
    constructor
    · rintro ⟨entry, ⟨hv, rfl⟩, ⟨o, d⟩, hd, rfl⟩
      obtain rfl := (decodeAuthorObservation_ok.mp hd).1
      exact ⟨entry, d, rfl, hv, hd, rfl⟩
    · rintro ⟨stored', d, rfl, hv, hd, rfl⟩
      exact ⟨stored, ⟨hv, rfl⟩, (c.observation, d), hd, rfl⟩

theorem loadAuthor_mono {settings : Settings} {j j' : EventStore} {requestId : String}
    {identity : Identity} {c : Option AuthorColumns} {r : Option AuthorEntry} (he : j.Extends j')
    (h : loadAuthor settings j requestId identity c = .ok r) :
    loadAuthor settings j' requestId identity c = .ok r := by
  cases c with
  | none => exact h
  | some c =>
    obtain ⟨stored, d, hf, rest⟩ := loadAuthor_some.mp h
    exact loadAuthor_some.mpr ⟨stored, d, findEvent_mono he hf, rest⟩

/-- Loading keeps exactly the columns it was given. -/
theorem loadAuthor_columns {settings : Settings} {j : EventStore} {requestId : String}
    {identity : Identity} {c : Option AuthorColumns} {r : Option AuthorEntry}
    (h : loadAuthor settings j requestId identity c = .ok r) : r.map AuthorEntry.columns = c := by
  cases c with
  | none => cases h; rfl
  | some c =>
    obtain ⟨stored, d, _, _, _, rfl⟩ := loadAuthor_some.mp h
    rfl

theorem loadRow_ok {settings : Settings} {j : EventStore} {row : CommandRow} {st : CommandState} :
    loadRow settings j row = .ok st ↔ row.identity.valid = true ∧
      loadAuthor settings j row.requestId row.identity row.runner = .ok st.runner ∧
      loadAuthor settings j row.requestId row.identity row.participant = .ok st.participant ∧
      st.identity = row.identity ∧ st.effectiveEventId = row.effectiveEventId ∧
      st.effectiveAuthor = row.effectiveAuthor ∧ Precedence st := by
  simp only [loadRow, bind_ok, rejectIf_ok, exists_const, pure_eq_ok, Except.ok.injEq,
    Bool.not_eq_false, precedence_iff]
  constructor
  · rintro ⟨hi, runner, hr, participant, hp, hprec, rfl⟩
    exact ⟨hi, hr, hp, rfl, rfl, rfl, hprec⟩
  · rintro ⟨hi, hr, hp, h1, h2, h3, hprec⟩
    obtain ⟨identity, runner, participant, eventId, author⟩ := st
    simp only at h1 h2 h3
    subst h1 h2 h3
    exact ⟨hi, runner, hr, participant, hp, hprec, rfl⟩

theorem loadCommandResult_some {settings : Settings} {j : EventStore} {requestId : String}
    {st : CommandState} :
    loadCommandResult settings j requestId = .ok (some st) ↔
      ∃ row, j.findResult requestId = some row ∧ loadRow settings j row = .ok st := by
  unfold loadCommandResult
  cases hf : j.findResult requestId with
  | none => simp
  | some row =>
    cases hl : loadRow settings j row <;> simp [hl, Except.map, Except.mapError]

theorem loadCommandResult_none {settings : Settings} {j : EventStore} {requestId : String} :
    loadCommandResult settings j requestId = .ok none ↔ j.findResult requestId = none := by
  unfold loadCommandResult
  cases hf : j.findResult requestId with
  | none => simp
  | some row =>
    cases hl : loadRow settings j row <;> simp [hl, Except.map, Except.mapError]

/-- A request that reads well keeps doing so while its own row stays. -/
theorem loadCommandResult_mono {settings : Settings} {j j' : EventStore} {requestId : String}
    {r : Option CommandState} (he : j.Extends j')
    (hrow : j'.findResult requestId = j.findResult requestId)
    (h : loadCommandResult settings j requestId = .ok r) :
    loadCommandResult settings j' requestId = .ok r := by
  cases r with
  | none =>
    rw [loadCommandResult_none] at h ⊢
    rw [hrow, h]
  | some st =>
    rw [loadCommandResult_some] at h ⊢
    obtain ⟨row, hf, hl⟩ := h
    rw [loadRow_ok] at hl
    obtain ⟨hi, hr, hp, rest⟩ := hl
    exact ⟨row, hrow.trans hf, loadRow_ok.mpr ⟨hi, loadAuthor_mono he hr, loadAuthor_mono he hp, rest⟩⟩

theorem find_upsertResult (row : CommandRow) (rows : List CommandRow) (requestId : String) :
    (upsertResult row rows).find? (fun r => r.requestId == requestId) =
      if row.requestId = requestId then some row
      else rows.find? (fun r => r.requestId == requestId) := by
  induction rows with
  | nil => by_cases h : row.requestId = requestId <;> simp [upsertResult, h]
  | cons r rows ih =>
    by_cases hr : r.requestId = row.requestId
    · by_cases h : row.requestId = requestId <;> simp [upsertResult, hr, h]
    · by_cases h : row.requestId = requestId
      · have hne : ¬ r.requestId = requestId := fun e => hr (e.trans h.symm)
        simp [upsertResult, h, hne, ih]
      · simp [upsertResult, hr, h, ih, List.find?_cons]

end ModularPipelines.Journal
