import ModularPipelines.Library.JsonText
import Mathlib.Algebra.GroupWithZero.Nat

namespace ModularPipelines.Library.Json

/-- Bytes of a quoted text, when an unescaped character takes `width` bytes. -/
def textBytes (width : Char → Nat) (s : String) : Nat := ((quote s).map width).sum

mutual
/-- Length of the encoded document, with a blank after every comma and colon. -/
def bytes (width : Char → Nat) : Json → Nat
  | .null => 4
  | .bool true => 4
  | .bool false => 5
  | .int n => (intChars n).length
  | .float t => t.chars.length
  | .str s => textBytes width s
  | .arr [] => 2
  | .arr (x :: xs) => 2 + bytes width x + elemBytes width xs
  | .obj [] => 2
  | .obj ((k, x) :: ms) => 2 + (textBytes width k + 2 + bytes width x) + memberBytes width ms
def elemBytes (width : Char → Nat) : List Json → Nat
  | [] => 0
  | x :: xs => 2 + bytes width x + elemBytes width xs
def memberBytes (width : Char → Nat) : List (String × Json) → Nat
  | [] => 0
  | (k, x) :: ms => 2 + (textBytes width k + 2 + bytes width x) + memberBytes width ms
end

/-- An encoder that keeps to ASCII writes every other character as one or two escapes. -/
def asciiWidth (c : Char) : Nat := if c.toNat < 128 then 1 else if c.toNat < 65536 then 6 else 12

end ModularPipelines.Library.Json

namespace ModularPipelines.Server
open Library

def startsWith (text start : String) : Bool := start.toList.isPrefixOf text.toList

/-- What copying a document accepts. -/
def maxDepth : Nat := 32

inductive ServerMode where
  | run
  | maintenance
  deriving DecidableEq

def ServerMode.text : ServerMode → String
  | .run => "run"
  | .maintenance => "maintenance"

inductive PositionKind where
  | stage
  | service
  deriving DecidableEq

def PositionKind.text : PositionKind → String
  | .stage => "stage"
  | .service => "service"

structure CommandTarget where
  kind : PositionKind
  position : Nat
  positive : 0 < position

def CommandTarget.document (t : CommandTarget) : Json :=
  .obj [("kind", .str t.kind.text), ("position", .int t.position)]

/-- The mode that the arguments of a mode change name. -/
def modeArgument : List (String × Json) → Option ServerMode
  | [("mode", .str "run")] => some .run
  | [("mode", .str "maintenance")] => some .maintenance
  | _ => none

def validLifecycle (command : String) (args : List (String × Json)) (target : Option CommandTarget) : Bool :=
  !startsWith command "server." ||
    (target.isNone &&
      ((command == "server.restart" || command == "server.shutdown") && args.isEmpty ||
        command == "server.mode" && (modeArgument args).isSome))

/-- A command that admission has validated; its ID is a normalized UUID. -/
structure ServerCommand where
  commandId : String
  command : String
  args : List (String × Json)
  target : Option CommandTarget
  lifecycle : validLifecycle command args target = true

/-- A chain that admission has validated. -/
structure ServerChain where
  chainId : String
  commands : List ServerCommand
  nonempty : commands ≠ []
  plain : ∀ c ∈ commands, startsWith c.command "server." = false

inductive Submission where
  | single (command : ServerCommand)
  | chain (chain : ServerChain)

def commandDocument (c : ServerCommand) (chainId : Option String) : Json :=
  .obj ([("api_version", .int 1), ("command_id", .str c.commandId), ("command", .str c.command), ("args", .obj c.args)] ++
    (c.target.map (fun t => ("target", t.document))).toList ++ (chainId.map (fun i => ("chain_id", .str i))).toList)

namespace Submission

def chainId : Submission → Option String
  | .single _ => none
  | .chain b => some b.chainId

def commands : Submission → List ServerCommand
  | .single c => [c]
  | .chain b => b.commands

def identifiers (s : Submission) : List String := s.commands.map ServerCommand.commandId

def document : Submission → Json
  | .single c => commandDocument c none
  | .chain b =>
    .obj [("api_version", .int 1), ("chain_id", .str b.chainId),
      ("commands", .arr (b.commands.map (fun c => commandDocument c (some b.chainId))))]

/-- The HTTP owner runs these itself. -/
def lifecycle : Submission → Option ServerCommand
  | .single c => if c.command ∈ ["server.restart", "server.mode", "server.shutdown"] then some c else none
  | .chain _ => none

def priorityStop : Submission → Bool
  | .single c => c.command == "stop"
  | .chain _ => false

end Submission

inductive CommandState where
  | pending
  | unknown
  | unavailable
  | succeeded
  | failed
  | cancelled
  deriving DecidableEq

namespace CommandState

def text : CommandState → String
  | .pending => "pending"
  | .unknown => "unknown"
  | .unavailable => "unavailable"
  | .succeeded => "succeeded"
  | .failed => "failed"
  | .cancelled => "cancelled"

def result : CommandState → Json
  | .succeeded => .str "success"
  | .failed | .cancelled => .str "fail"
  | .pending | .unknown | .unavailable => .null

/-- What a controller may report. -/
def terminal : CommandState → Bool
  | .succeeded | .failed | .cancelled => true
  | .pending | .unknown | .unavailable => false

end CommandState

/-- A command outcome as it is kept; `extra` are the members besides state, result and ID. -/
structure Response where
  commandId : String
  state : CommandState
  chainId : Option String
  extra : List (String × Json)

def chainDocument (chainId : Option String) : Json := (chainId.map Json.str).getD .null

def Response.document (r : Response) : Json :=
  .obj ([("state", .str r.state.text), ("result", r.state.result), ("command_id", .str r.commandId),
    ("chain_id", chainDocument r.chainId)] ++ r.extra)

/-- An outcome that the owner has copied and validated. -/
structure ControllerOutcome where
  response : Response
  terminal : response.state.terminal = true
  shallow : response.document.depth ≤ maxDepth

def errorDocument (code message : String) (details : List (String × Json)) : Json :=
  .obj [("code", .str code), ("message", .str message), ("details", .obj details)]

end ModularPipelines.Server
