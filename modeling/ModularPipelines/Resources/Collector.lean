import ModularPipelines.Library.JsonPatch

namespace ModularPipelines.Resources

open Library

structure ResourceTarget where
  seriesId : String
  identity : Json
  context : Json
  deriving DecidableEq

/-- What is to be monitored, and the journal that it is written to. -/
structure CollectorSnapshot where
  context : Json
  loggingConfigPath : Option String
  targets : List ResourceTarget
  extra : Json
  deriving DecidableEq

/-- The selection of a suspended experiment. -/
def CollectorSnapshot.empty : CollectorSnapshot where
  context := .obj []
  loggingConfigPath := none
  targets := []
  extra := .obj []

/-- The comparison of `_update`. -/
def CollectorSnapshot.unchanged (a b : CollectorSnapshot) : Bool :=
  decide (a.context.Same b.context) && decide (a.targets = b.targets) &&
    decide (a.loggingConfigPath = b.loggingConfigPath) && decide (a.extra.Same b.extra)

/-- A sample, and the revision of the selection that it was taken under. -/
structure ResourceSample where
  seriesId : String
  context : Json
  measured : Json
  taken : Option Nat
  deriving DecidableEq

structure CollectorUpdate where
  revision : Nat
  snapshot : CollectorSnapshot
  deriving DecidableEq

inductive CollectorCommand where
  | update (u : CollectorUpdate)
  | stop
  deriving DecidableEq

/-- A worker without an update has no revision. -/
structure CollectorPacket where
  revision : Option Nat
  journalClosed : Bool
  unconfirmedSamples : Nat
  samples : List ResourceSample
  deriving DecidableEq

/-- The journal client of a worker; `client` is the path of the journal that is open. -/
structure ResourceWriter where
  source : Option String
  client : Option String
  error : Option String
  unconfirmedSamples : Nat
  deriving DecidableEq

/-- What a worker does in a journal. -/
inductive JournalUse where
  | opened (path : String)
  | gap (path : String) (data : Json)
  | recorded (path : String) (sample : ResourceSample)
  deriving DecidableEq

/-- How a write ends: a failure may come after some of its parts were delivered. -/
inductive Delivery where
  | deferred
  | failed (error : String) (delivered : Nat)
  | done

namespace ResourceWriter

def new : ResourceWriter := ⟨none, none, none, 0⟩

def select (w : ResourceWriter) (path : Option String) : ResourceWriter :=
  if path = w.source then w else ⟨path, none, none, 0⟩

/-- `record`, with the gaps that `_record_gaps` reports before the sample. -/
def record (w : ResourceWriter) (gaps : List Json) (delivery : Delivery) (sample : ResourceSample) :
    ResourceWriter × List JournalUse :=
  match w.source with
  | none => (w, [])
  | some path =>
    let uses := (if w.client = none then [.opened path] else []) ++ gaps.map (.gap path) ++ [.recorded path sample]
    match delivery with
    | .deferred => ({ w with unconfirmedSamples := w.unconfirmedSamples + 1 }, [])
    | .failed error delivered =>
      ({ w with unconfirmedSamples := w.unconfirmedSamples + 1, error := some error, client := none },
        uses.take delivered)
    | .done => ({ w with client := some path, error := none }, uses)

end ResourceWriter

/-- A round of sampling: the samples still to be written, and all of them. -/
structure Round where
  unwritten : List ResourceSample
  samples : List ResourceSample
  deriving DecidableEq

/-- The process of `collect_resources` with both directions of its pipe. -/
structure CollectorWorker where
  alive : Bool
  revision : Option Nat
  snapshot : CollectorSnapshot
  writer : ResourceWriter
  round : Option Round
  commands : List CollectorCommand
  packets : List CollectorPacket
  deriving DecidableEq

namespace CollectorWorker

def new : CollectorWorker where
  alive := true
  revision := none
  snapshot := .empty
  writer := .new
  round := none
  commands := []
  packets := []

/-- `_apply_collector_update` -/
def applyUpdate (w : CollectorWorker) (u : CollectorUpdate) : CollectorWorker :=
  if some u.revision = w.revision then w
  else
    { w with
      revision := some u.revision
      snapshot := u.snapshot
      writer := w.writer.select u.snapshot.loggingConfigPath }

/-- The process is gone, and its client with it; what it has sent is still in the pipe. -/
def exit (w : CollectorWorker) : CollectorWorker :=
  { w with alive := false, writer := { w.writer with client := none }, round := none }

/-- `_sample_observations`: the host first, then each target. -/
def observe (w : CollectorWorker) (hostSeries : String) (measure : String → Json) : List ResourceSample :=
  ⟨hostSeries, w.snapshot.context, measure hostSeries, w.revision⟩ ::
    w.snapshot.targets.map fun t => ⟨t.seriesId, t.context, measure t.seriesId, w.revision⟩

def packet (w : CollectorWorker) (samples : List ResourceSample) : CollectorPacket where
  revision := w.revision
  journalClosed := w.writer.client.isNone
  unconfirmedSamples := w.writer.unconfirmedSamples
  samples := samples

def send (w : CollectorWorker) (samples : List ResourceSample) : CollectorWorker :=
  { w with round := none, packets := w.packets ++ [w.packet samples] }

end CollectorWorker

/-- The collector with its worker; `journal` is what all workers did in journals. -/
structure ResourceCollector where
  loaded : Bool
  snapshot : CollectorSnapshot
  revision : Nat
  suspended : Bool
  process : Option CollectorWorker
  packet : Option CollectorPacket
  latest : Dict ResourceSample
  history : List ResourceSample
  journal : List JournalUse
  deriving DecidableEq

/-- The calls on the collector, and the steps of its tasks and its worker. A message is delayed as
long as the step that takes it from its pipe. -/
inductive CollectorStep where
  | update (snapshot : CollectorSnapshot)
  | suspendExperiment
  | resumeExperiment
  | load
  | startWorker
  | sendUpdate
  | sendStop
  | receive
  | release
  | read
  | sample (hostSeries : String) (measure : String → Json)
  | record (gaps : List Json) (delivery : Delivery)
  | interrupt
  | report
  | exit

namespace ResourceCollector

def new : ResourceCollector where
  loaded := false
  snapshot := .empty
  revision := 0
  suspended := false
  process := none
  packet := none
  latest := .empty
  history := []
  journal := []

def update (c : ResourceCollector) (snapshot : CollectorSnapshot) : ResourceCollector :=
  if snapshot.unchanged c.snapshot then c
  else { c with snapshot := snapshot, revision := c.revision + 1, latest := .empty }

/-- The part of `suspend_experiment` before its wait. -/
def suspend (c : ResourceCollector) : ResourceCollector :=
  { c with suspended := true, revision := c.revision + 1, latest := .empty }

def resume (c : ResourceCollector) : ResourceCollector :=
  { c with suspended := false, revision := c.revision + 1 }

/-- Where the wait of `suspend_experiment` for a revision ends without an error. -/
def closureConfirmed (c : ResourceCollector) (revision : Nat) : Bool :=
  !c.loaded || c.process.isNone ||
    c.packet.any fun p => p.revision.any (fun r => decide (revision ≤ r)) && p.journalClosed

/-- The message of `_send_updates`. -/
def message (c : ResourceCollector) : CollectorUpdate :=
  ⟨c.revision, if c.suspended then .empty else c.snapshot⟩

/-- `_receive_samples` for one packet. -/
def receivePacket (c : ResourceCollector) (p : CollectorPacket) : ResourceCollector :=
  if p.revision = some c.revision then
    { c with
      packet := some p
      history := c.history ++ p.samples
      latest := p.samples.foldl (fun latest s => latest.set s.seriesId s) c.latest }
  else { c with packet := some p }

def setWorker (c : ResourceCollector) (w : CollectorWorker) : ResourceCollector := { c with process := some w }

/-- One step of a worker that is alive. -/
def workerStep (c : ResourceCollector) (w : CollectorWorker) : CollectorStep → Option ResourceCollector
  | .read =>
    match w.round, w.commands with
    | none, .update u :: rest => some (c.setWorker ({ w with commands := rest }.applyUpdate u))
    | none, .stop :: rest => some (c.setWorker { w with commands := rest }.exit)
    | _, _ => none
  | .sample hostSeries measure =>
    let samples := w.observe hostSeries measure
    if w.round.isNone then some (c.setWorker { w with round := some ⟨samples, samples⟩ }) else none
  | .record gaps delivery =>
    match w.round with
    | some ⟨sample :: rest, samples⟩ =>
      let (writer, uses) := w.writer.record gaps delivery sample
      some { c.setWorker { w with writer := writer, round := some ⟨rest, samples⟩ } with journal := c.journal ++ uses }
    | _ => none
  | .interrupt =>
    match w.round with
    | some ⟨unwritten, samples⟩ =>
      let lost := if w.snapshot.loggingConfigPath.isSome then unwritten.length else 0
      let writer := { w.writer with unconfirmedSamples := w.writer.unconfirmedSamples + lost }
      if w.commands = [] then none else some (c.setWorker { w with writer := writer, round := some ⟨[], samples⟩ })
    | none => none
  | .report =>
    match w.round with
    | none => some (c.setWorker (w.send []))
    | some ⟨[], samples⟩ => some (c.setWorker (w.send samples))
    | _ => none
  | .exit => some (c.setWorker w.exit)
  | _ => none

/-- One step, or nothing where it is not possible. -/
def step (c : ResourceCollector) : CollectorStep → Option ResourceCollector
  | .update snapshot => some (c.update snapshot)
  | .suspendExperiment => some c.suspend
  | .resumeExperiment => some c.resume
  | .load => some { c with loaded := true }
  | .startWorker =>
    if c.loaded && c.process.isNone then some { c with packet := none, process := some .new } else none
  | .sendUpdate => c.process.map fun w => c.setWorker { w with commands := w.commands ++ [.update c.message] }
  | .sendStop => c.process.map fun w => c.setWorker { w with commands := w.commands ++ [.stop] }
  | .receive =>
    match c.process with
    | some w =>
      match w.packets with
      | p :: rest => some ((c.setWorker { w with packets := rest }).receivePacket p)
      | [] => none
    | none => none
  -- the process is released only once it is confirmed gone
  | .release => c.process.bind fun w => if w.alive then none else some { c with process := none }
  | action => c.process.bind fun w => if w.alive then c.workerStep w action else none

def run (c : ResourceCollector) (steps : List CollectorStep) : Option ResourceCollector := steps.foldlM step c

end ResourceCollector

end ModularPipelines.Resources
