import ModularPipelines.Runner.State

namespace ModularPipelines.Runner
open Library

/-- The nodes that a run passes, and how many times it passes them. -/
structure Dag where
  nodes : List String
  cycles : Nat

/-- Where a run is, in terms of nodes and accepted data alone. -/
structure DagState where
  cycle : Nat
  position : Nat
  moved : Option Json
  results : String → Option Json
  retries : String → Nat
  finished : Bool

structure DagVisit where
  cycle : Nat
  stageId : String
  input : Json
  deriving DecidableEq

/-- How a visit ends. A conditional stage without a command has `passed`. -/
inductive Verdict where
  | succeeded (data : Json)
  | passed
  | decided (command : DagCommand) (output : Json)
  | skipped
  | paused
  | ended
  deriving DecidableEq

inductive DagEvent where
  | retried
  | settled (verdict : Verdict)
  deriving DecidableEq

namespace Dag

/-- The node at a one-based position. -/
def nodeAt (g : Dag) (position : Nat) : Option String := if position = 0 then none else g.nodes[position - 1]?

/-- The node at a position and all later nodes. -/
def onwards (g : Dag) (position : Nat) : List String := g.nodes.drop (position - 1)

def positionOf (g : Dag) (node : String) : Option Nat := (g.nodes.findIdx? (· == node)).map (· + 1)

end Dag

namespace DagState

variable (g : Dag)

def start : DagState := ⟨1, 1, none, fun _ => none, fun _ => 0, false⟩

def node (d : DagState) : Option String := g.nodeAt d.position

/-- What the preceding node of this cycle hands on. -/
def handed (d : DagState) : Json := ((g.nodeAt (d.position - 1)).bind d.results).getD .null

def input (d : DagState) : Json := d.moved.getD (d.handed g)

def visit (d : DagState) : Option DagVisit :=
  if d.finished then none else (d.node g).map (fun node => ⟨d.cycle, node, d.input g⟩)

/-- The current result of the node that is visited. -/
def record (d : DagState) (data : Option Json) : DagState :=
  { d with results := fun k => if d.node g = some k then data else d.results k }

def charge (d : DagState) : DagState :=
  { d with retries := fun k => if d.node g = some k then d.retries k + 1 else d.retries k }

def finish (d : DagState) : DagState := { d with finished := true }

/-- The next node, or the first one of the next cycle. -/
def advance (d : DagState) : DagState :=
  if d.position < g.nodes.length then { d with position := d.position + 1, moved := none }
  else if d.cycle < g.cycles then
    { d with cycle := d.cycle + 1, position := 1, moved := none, results := fun _ => none }
  else d.finish

/-- A transfer invalidates its target and all later nodes, and nothing before. -/
def jump (d : DagState) (target : String) (output : Json) : DagState :=
  match g.positionOf target with
  | none => d.finish
  | some position => { d with
      position := position
      moved := some output
      results := fun k => if k ∈ g.onwards position then none else d.results k
      retries := fun k => if k ∈ g.onwards position then 0 else d.retries k }

def follow (d : DagState) (output : Json) : Option DagCommand → DagState
  | none | some .pause => d.advance g
  | some .stop => d.finish
  | some (.move target) => d.jump g target output

def settle (d : DagState) : Verdict → DagState
  | .succeeded data => (d.record g (some data)).advance g
  | .passed => (d.record g (some (d.input g))).follow g (d.input g) none
  | .decided command output => (d.record g (some output)).follow g output (some command)
  | .skipped => (d.record g none).advance g
  | .paused => d.record g none
  | .ended => d.finish

def step (d : DagState) : DagEvent → DagState
  | .retried => d.charge g
  | .settled verdict => d.settle g verdict

def run (events : List DagEvent) : DagState := events.foldl (step g) start

/-- The visit that an event brings to its end. -/
def closed (d : DagState) : DagEvent → List DagVisit
  | .retried => []
  | .settled _ => (d.visit g).toList

/-- The visits that are over, each with the input that it had. -/
def history (d : DagState) : List DagEvent → List DagVisit
  | [] => []
  | event :: rest => d.closed g event ++ history (d.step g event) rest

theorem history_append (d : DagState) (events : List DagEvent) (event : DagEvent) :
    history g d (events ++ [event]) = history g d events ++ (events.foldl (step g) d).closed g event := by
  induction events generalizing d with
  | nil => simp [history]
  | cons first rest ih => simp [history, ih, List.append_assoc]

theorem run_append (events : List DagEvent) (event : DagEvent) :
    run g (events ++ [event]) = (run g events).step g event := by
  simp [run]

end DagState

end ModularPipelines.Runner
