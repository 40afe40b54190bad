import ModularPipelines.Results.Boundaries

namespace ModularPipelines.Results
open Library Library.Json Journal

/-- The most levels that any later document puts around a part. -/
def Part.overhead : Part → Nat
  | .result => 6
  | .data => 11
  | .error => 9
  | .execution => 9
  | .finishedStatus => 7

theorem StatePlace.length_le (place : StatePlace) : place.path.length + 5 ≤ place.part.overhead := by
  cases place with
  | lastStatus field => cases field <;> decide
  | _ => decide

theorem PublicPlace.length_le (place : PublicPlace) : place.path.length + 5 ≤ place.part.overhead := by
  cases place with
  | lastStatus field => cases field <;> decide
  | _ => decide

theorem Payload.length_le (content : Payload) : content.path.length + 5 ≤ content.part.overhead := by
  cases content with
  | checkpoint place => exact place.length_le
  | experimentState place => exact place.length_le
  | _ => decide

theorem Boundary.length_le (b : Boundary) : b.path.length ≤ b.part.overhead := by
  cases b with
  | payload content =>
    have h := content.length_le
    simp only [Boundary.path, Boundary.part]
    omega
  | event content =>
    have h := content.length_le
    simp only [Boundary.path, Boundary.part, journalEvent, List.length_cons]
    omega
  | readEvents content =>
    have h := content.length_le
    simp only [Boundary.path, Boundary.part, controllerOutcome, eventPage, journalEvent, List.length_cons]
    omega
  | savedState place =>
    have h := place.length_le
    simp only [Boundary.path, Boundary.part]
    omega
  | snapshot place =>
    have h := place.length_le
    simp only [Boundary.path, Boundary.part, List.length_cons]
    omega
  | stateOutcome place =>
    have h := place.length_le
    simp only [Boundary.path, Boundary.part, controllerOutcome, List.length_cons]
    omega
  | _ => decide

theorem depth_optionalMember (key : String) (v : Option Json) (limit : Nat) :
    depthMembers (optionalMember key v) ≤ limit + 1 ↔ ∀ x ∈ v, x.depth ≤ limit := by
  cases v with
  | none => simp [optionalMember, depthMembers]
  | some x => simp [optionalMember, depthMembers]

/-- A result is one level around each of its fields. -/
theorem ParticipantResult.depth_document (r : ParticipantResult) (limit : Nat) :
    r.document.depth ≤ limit + 1 ↔
      r.data.depth ≤ limit ∧ (∀ e ∈ r.error, e.depth ≤ limit) ∧ ∀ x ∈ r.execution, x.depth ≤ limit := by
  rw [← depth_optionalMember "error", ← depth_optionalMember "execution"]
  simp only [ParticipantResult.document, depth, depthMembers_append, depthMembers]
  omega

theorem depth_finishExecutorStatus (execution : Json) :
    (finishExecutorStatus execution).depth ≤ max execution.depth 1 := by
  have hfinished := depth_set_le (j := execution) "finished" (.bool true)
  have hcurrent := depth_set_le (j := execution.set "finished" (.bool true)) "current" .null
  have hpending := depth_set_le (j := (execution.set "finished" (.bool true)).set "current" .null) "pending" (.arr [])
  simp only [depth, depthElems] at hfinished hcurrent hpending
  unfold finishExecutorStatus
  omega

/-- The depths that the remaining levels leave to the fields of a result. -/
structure WithinBudget (r : ParticipantResult) : Prop where
  data : r.data.depth ≤ 21
  error : ∀ e ∈ r.error, e.depth ≤ 23
  execution : ∀ x ∈ r.execution, x.depth ≤ 23

theorem WithinBudget.part {r : ParticipantResult} (h : WithinBudget r) (part : Part) :
    ∀ v ∈ part.value r, v.depth + part.overhead ≤ maxDepth := by
  intro v hv
  cases part with
  | result =>
    cases hv
    have hdocument := (r.depth_document 23).mpr ⟨by have := h.data; omega, h.error, h.execution⟩
    simp only [Part.overhead, maxDepth]
    omega
  | data =>
    cases hv
    have hdata := h.data
    simp only [Part.overhead, maxDepth]
    omega
  | error =>
    have herror := h.error v hv
    simp only [Part.overhead, maxDepth]
    omega
  | execution =>
    have hexecution := h.execution v hv
    simp only [Part.overhead, maxDepth]
    omega
  | finishedStatus =>
    obtain ⟨x, hx, rfl⟩ := Option.map_eq_some_iff.mp hv
    have hexecution := h.execution x hx
    have hfinished := depth_finishExecutorStatus x
    simp only [Part.overhead, maxDepth]
    omega

/-- Where a document of nothing but its path takes a part, the part fits the remaining levels. -/
theorem Composes.depth_le {r : ParticipantResult} (h : Composes r) (b : Boundary) (hb : b.path.length ≤ maxDepth) :
    ∀ v ∈ b.part.value r, v.depth + b.path.length ≤ maxDepth := by
  intro v hv
  obtain ⟨frames, hfits, hdepth⟩ := Fits.exists_bare b.path
  have hpasses := h b frames hfits v hv (by omega)
  rw [depth_plug_le, hfits.length] at hpasses
  exact hpasses.2

/-- The results that pass every later check are those that leave room for the deepest document:
a checkpoint with a queued call, or with a service's last reply, in a page of events. -/
theorem depth_composes_iff (r : ParticipantResult) : Composes r ↔ WithinBudget r := by
  constructor
  · intro h
    refine ⟨?_, ?_, ?_⟩
    · have hdata := h.depth_le (.readEvents (.checkpoint .pendingRequest)) (by decide) r.data rfl
      simpa [maxDepth, Boundary.path, Payload.path, StatePlace.path, savedService, requestArgs,
        executionCall, controllerOutcome, eventPage, journalEvent] using hdata
    · intro e he
      have herror := h.depth_le (.readEvents (.checkpoint (.lastStatus .error))) (by decide) e he
      simpa [maxDepth, Boundary.path, Payload.path, StatePlace.path, savedService, controllerOutcome, eventPage,
        journalEvent] using herror
    · intro x hx
      have hexecution := h.depth_le (.readEvents (.checkpoint (.lastStatus .execution))) (by decide) x hx
      simpa [maxDepth, Boundary.path, Payload.path, StatePlace.path, savedService, controllerOutcome, eventPage,
        journalEvent] using hexecution
  · intro h b frames hfits v hv hsurrounding
    rw [depth_plug_le]
    refine ⟨hsurrounding, ?_⟩
    have hlength := b.length_le
    have hpart := h.part b.part v hv
    rw [hfits.length]
    omega

/-- An event that the journal takes leaves room for the part it holds. -/
theorem valid_event_depth {settings : Settings} {e : JournalEvent} {path : List Step} {frames : List Frame} {v : Json}
    (hvalid : e.valid settings = true) (hfits : Fits path frames) (hdata : e.data = plug frames v) :
    v.depth + (journalEvent path).length ≤ maxDepth := by
  obtain ⟨before, hdocument⟩ : ∃ before, e.document = plug (.members before "data" [] :: frames) v := by
    refine ⟨[("schema_version", .int 2), ("event_id", .str e.eventId),
      ("producer_instance_id", .str e.producerInstanceId), ("sequence_number", .int e.sequenceNumber),
      ("occurred_at", .str e.occurredAt), ("event_type", .str e.eventType), ("context", .obj e.context),
      ("operation_id", optionalText e.operationId)], ?_⟩
    simp [JournalEvent.document, plug, Frame.plug, hdata]
  have hdepth := (JournalEvent.valid_iff.mp hvalid).1
  rw [hdocument, depth_plug_le, (Fits.member before "data" [] hfits).length] at hdepth
  exact hdepth.2

def nested : Nat → Json
  | 0 => .null
  | n + 1 => .arr [nested n]

theorem depth_nested (n : Nat) : (nested n).depth = n := by
  induction n with
  | zero => rfl
  | succ n ih => simp [nested, depth, depthElems, ih]

def deepResult : ParticipantResult := ⟨true, nested 31, none, none⟩

/-- A result that a stage may print, and whose own journal entry is refused. -/
theorem deep_result_refused : deepResult.accepted = true ∧ deepResult.ofStage = true ∧ ¬ Composes deepResult ∧
    readCommandResult (.obj [("request_id", .str "request"), ("author", .str "participant"),
      ("outcome", .str "succeeded"), ("response", deepResult.document), ("ignored", .null),
      ("supersedes", .arr [])]) = none := by
  have hdata : deepResult.data.depth = 31 := depth_nested 31
  have hdocument : deepResult.document.depth ≤ 32 ∧ ¬ deepResult.document.depth ≤ 31 := by
    rw [deepResult.depth_document 31, deepResult.depth_document 30, hdata]
    simp [deepResult]
  refine ⟨?_, rfl, ?_, ?_⟩
  · exact decide_eq_true hdocument.1
  · intro h
    have hwithin := ((depth_composes_iff deepResult).mp h).data
    omega
  · unfold readCommandResult
    rw [if_pos]
    apply Bool.or_eq_true_iff.mpr
    left
    apply decide_eq_true
    simp only [depth, depthMembers, depthElems, maxDepth]
    omega

end ModularPipelines.Results
