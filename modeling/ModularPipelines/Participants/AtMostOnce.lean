import Mathlib.Data.List.Nodup
import ModularPipelines.Participants.Outcomes
import ModularPipelines.Participants.Progress

namespace ModularPipelines.Participants
open Library

namespace Server

variable {m m' : Server} {job : Job}

theorem recorded_start (journal : List CommandOutcome) (runnerResults : List String) :
    Recorded (start journal runnerResults) := by
  have hnone : ∀ id, ¬ (start journal runnerResults).Worked id := by
    rintro id ⟨reply, hreply, -⟩
    cases hreply
  refine ⟨.nil _, ?_, ?_, ?_, ?_, ?_, ?_, ?_⟩
  · intro write hwrite
    cases hwrite
  · intro job hjob
    cases hjob
  · intro reply hreply
    cases hreply
  · intro write hwrite
    cases hwrite
  · exact fun id hwork => (hnone id hwork).elim
  · intro id response hsent
    cases hsent
  · intro c request hget
    cases hget

def Single (m : Server) (action : Action) : Prop := m.Separate action ∧ m.Kept action

instance (m : Server) (action : Action) : Decidable (m.Single action) := inferInstanceAs (Decidable (_ ∧ _))

theorem Reachable.recorded (h : Reachable Single m) : Recorded m := by
  induction h with
  | start journal runnerResults => exact recorded_start journal runnerResults
  | step action before apart hstep ih =>
    exact ih.step (before.tracked (fun _ _ h => h.1)) apart.1 apart.2 hstep

/-- A thread still has an outcome of the request to write. -/
def Writing (m : Server) (id : String) : Prop :=
  ∃ write ∈ m.writes, write.id = id ∧ (write.phase = .queued ∨ write.phase = .running)

/-- What the journal has once nothing more is written for a request of work. -/
theorem Recorded.settled (h : Recorded m) (ht : Tracked m) (hjob : job ∈ m.jobs)
    (hwritten : ∃ write ∈ m.writes, write.id = job.id) (hquiet : ¬ m.Writing job.id) :
    m.journalFailed = true ∨ (outcomesOf m.journal job.id).length = 1 := by
  obtain ⟨write, hwrite, hid⟩ := hwritten
  have hlaw := h.written write hwrite (hid ▸ worked_job ht hjob)
  unfold WriteLaw at hlaw
  split at hlaw
  · next hphase => exact (hquiet ⟨write, hwrite, hid, .inl hphase⟩).elim
  · next hphase => exact (hquiet ⟨write, hwrite, hid, .inr hphase⟩).elim
  · right
    rw [← hid, hlaw]
    rfl
  · exact .inl hlaw.1
  · exact hlaw.elim

theorem Recorded.over (h : Recorded m) (ht : Tracked m) (hjob : job ∈ m.jobs) (hover : job.phase.over = true)
    (hquiet : ¬ m.Writing job.id) : m.journalFailed = true ∨ (outcomesOf m.journal job.id).length = 1 := by
  have hlaw := h.jobs job hjob
  unfold JobLaw at hlaw
  split at hlaw
  all_goals try (next hphase => rw [hphase] at hover; cases hover)
  · obtain ⟨w, hw⟩ := hlaw
    exact h.settled ht hjob ⟨_, List.mem_of_getElem? hw, rfl⟩ hquiet
  · obtain hfailed | ⟨-, hwritten⟩ := hlaw
    · exact .inl hfailed
    · exact h.settled ht hjob hwritten hquiet
  · exact h.settled ht hjob hlaw hquiet

theorem Recorded.stored (h : Recorded m) (ht : Tracked m) (hjob : job ∈ m.jobs) {response : ParticipantResult}
    (hstored : Stored m.writes job.id response) : outcomesOf m.journal job.id = [resultOutcome job.id response] := by
  obtain ⟨w, hw⟩ := hstored
  exact h.written _ (List.mem_of_getElem? hw) (worked_job ht hjob)

/-- A working request with a deadline, and what its handler returns. -/
def echo : ParticipantRequest := ⟨"request", .work "echo", true⟩

def echoed : ParticipantResult := ⟨true, .str "hello", none, none⟩

def Any (_ : Server) (_ : Action) : Prop := True

instance (m : Server) (action : Action) : Decidable (Any m action) := .isTrue trivial

end Server

end ModularPipelines.Participants
