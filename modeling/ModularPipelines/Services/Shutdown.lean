import ModularPipelines.Runner.State

namespace ModularPipelines.Services
open Library Runner

/-- What `stop_all` meets: the drawn request IDs and which processes are seen to exit. -/
structure Shutdown where
  requestId : String → String
  exits : String → Bool
  error : String → Option String

/-- `_stop_service` without its requests to the participant: a service whose exit is not
seen stays blocked, and its queue is cancelled. -/
def ServiceInstance.shutDown (o : Shutdown) (i : ServiceInstance) : ServiceInstance :=
  let stopped := i.stopped || o.exits i.serviceId
  { i with
    ready := false
    stopping := false
    stopped := stopped
    failure := if stopped then i.failure else some ((o.error i.serviceId).getD "Service termination is unconfirmed.")
    blockedAction := if stopped then i.blockedAction else some .stop
    pendingRequests := []
    activeRequest := none }

def stopAll (o : Shutdown) (s : RunnerState) : RunnerState :=
  { s with
    services := s.services.mapValues (·.shutDown o)
    usedRequestIds := s.usedRequestIds ++ s.services.keys.reverse.map o.requestId }

def allStopped (s : RunnerState) : Bool := s.services.values.all (·.stopped)

/-- A stopped service is not stopped again. -/
theorem ServiceInstance.shutDown_again {o : Shutdown} {i : ServiceInstance} (h : (i.shutDown o).stopped = true) :
    (i.shutDown o).shutDown o = i.shutDown o := by
  simp only [shutDown] at h ⊢
  simp [h]

theorem stopAll_again {o : Shutdown} {s : RunnerState} (h : allStopped (stopAll o s) = true) :
    (stopAll o (stopAll o s)).services = (stopAll o s).services := by
  unfold allStopped Dict.values at h
  simp only [stopAll, Dict.mapValues, List.map_map, List.all_map, List.all_eq_true] at h ⊢
  congr 1
  apply List.map_congr_left
  intro entry hmem
  have hstopped := h entry hmem
  simp only [Function.comp_apply, Prod.mk.injEq, true_and]
  exact ServiceInstance.shutDown_again hstopped

end ModularPipelines.Services
