import ModularPipelines.Runner.Template

namespace ModularPipelines.Services
open Runner

/-- Who accepts the result of a working request. -/
inductive RequestOwner where
  | caller
  | service
  deriving DecidableEq, Repr

structure WorkingServiceRequest where
  owner : RequestOwner
  requestId : String
  command : String
  snapshotId : Option String
  queuedMonotonic : Nat
  deadlineMonotonic : Option Nat
  sentMonotonic : Option Nat
  serviceInstanceId : Option String
  timedOut : Bool
  expectedInstance : Option String
  retryOf : Option String
  deriving DecidableEq, Repr

inductive BlockedAction where
  | pause
  | stop
  deriving DecidableEq, Repr

structure ProcessIdentity where
  pid : Nat
  createdAtOs : Nat
  hostId : String
  bootId : String
  deriving DecidableEq, Repr

structure ServiceInstance where
  serviceId : String
  serviceInstanceId : String
  definition : ServiceDefinition
  processIdentity : Option ProcessIdentity
  ready : Bool
  everReady : Bool
  restartCount : Nat
  pendingRequests : List WorkingServiceRequest
  activeRequest : Option WorkingServiceRequest
  stopping : Bool
  stopped : Bool
  manuallyStopped : Bool
  blockedAction : Option BlockedAction
  failure : Option String
  deriving DecidableEq

/-- `ServiceInstance(service_id, instance_id, definition)`. -/
def ServiceInstance.create (instanceId : String) (definition : ServiceDefinition) : ServiceInstance :=
  ⟨definition.serviceId, instanceId, definition, none, false, false, 0, [], none, false, false, false,
    none, none⟩

end ModularPipelines.Services
