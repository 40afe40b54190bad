import ModularPipelines.Snapshots.Preflight

namespace ModularPipelines.Snapshots

/-- A directory: whole, or as an unfinished copy or deletion leaves it. -/
inductive Content (Tree : Type) where
  | whole (tree : Tree)
  | part
  deriving DecidableEq

abbrev Place (Tree : Type) := Option (Content Tree)

/-- `controller/restores/<restoration id>`. -/
structure Workspace (Tree : Type) where
  cached : Place Tree
  replacement : Place Tree
  previous : Place Tree

def Workspace.empty {Tree : Type} : Workspace Tree := ⟨none, none, none⟩

/-- A restoration that is asked for; its ID is drawn by `uuid4`. -/
structure Selection where
  restorationId : String
  sourceFolder : String
  snapshotId : String
  deriving DecidableEq

/-- A service process that a restoration started and that may be alive: whether
`state.json` names it and whether its endpoint and process records do. -/
structure Participant where
  instanceId : String
  saved : Bool
  announced : Bool
  deriving DecidableEq

/-- What a restoration after a crash can learn of a process. -/
def Participant.visible (p : Participant) : Bool := p.saved || p.announced

/-- Where the running `restore` stands; `idle` also after its process died. -/
inductive Position where
  | idle
  | settling (next : Option Selection)
  | retiring (next : Selection)
  | barrier (next : Selection)
  | recording (next : Selection)
  | entered
  | clearingCached
  | clearingReplacement
  | copyingCached
  | readingCached
  | copyingReplacement
  | preparing
  | checking
  | displacing
  | installing
  | installed
  | binding
  | bound
  | launching
  | starting
  | finishing
  | failing
  | cleaningPrevious
  | cleaningCached
  deriving DecidableEq

/-- One experiment folder, the workspaces of its restorations, the marker and the restored
service processes. `displaced` names the tree that the marked transaction replaces. -/
structure RestoreMachine (Tree : Type) where
  target : Place Tree
  work : String → Workspace Tree
  marker : Option RestoreTransaction
  participants : List Participant
  position : Position
  drawn : List String
  displaced : Option Tree

/-- What a step meets: it may leave a copy or deletion unfinished, a shutdown may be
confirmed, the installed files may be written, and processes may outlive a shutdown. -/
structure Progress (Tree : Type) where
  partly : Bool
  confirmed : Bool
  written : Option Tree
  preserve : Bool
  survives : String → Bool

inductive RestoreAction (Tree : Type) where
  | request (selection : Selection)
  | resume
  | proceed (o : Progress Tree)
  | raise
  | die
  | spawn (instanceId : String)
  | save (instanceId : String)
  | announce (instanceId : String)
  | exit (instanceId : String)
  | write (tree : Tree)

/-- The archived snapshots, and what staging makes of one for a restoration. -/
structure Archives (Tree : Type) where
  snapshot : String → String → Option Tree
  stage : String → Tree → Tree

namespace RestoreMachine
variable {Tree : Type}

def workspace (m : RestoreMachine Tree) (t : RestoreTransaction) : Workspace Tree := m.work t.restorationId

def setWork (m : RestoreMachine Tree) (t : RestoreTransaction) (w : Workspace Tree) : RestoreMachine Tree :=
  { m with work := fun id => if id = t.restorationId then w else m.work id }

def moveTo (m : RestoreMachine Tree) (p : Position) : RestoreMachine Tree := { m with position := p }

/-- `write_json(marker, ...)`, which publishes the whole document at once. -/
def mark (m : RestoreMachine Tree) (t : RestoreTransaction) (phase : RestorePhase) : RestoreMachine Tree :=
  { m with marker := some { t with phase := phase } }

def hidden (m : RestoreMachine Tree) : List Participant := m.participants.filter (fun p => !p.visible)

/-- `shutil.rmtree` of a directory that may be missing; the flag says whether it is gone. -/
def remove (o : Progress Tree) : Place Tree → Place Tree × Bool
  | none => (none, true)
  | some _ => if o.partly then (some .part, false) else (none, true)

/-- `shutil.copytree`, which refuses an existing destination. -/
def copy (o : Progress Tree) (source : Tree) : Place Tree → Option (Place Tree × Bool)
  | some (.whole _) => none
  | _ => if o.partly then some (some .part, false) else some (some (.whole source), true)

/-- `_stop_interrupted_restore`. -/
def settle (m : RestoreMachine Tree) (o : Progress Tree) (t : RestoreTransaction) (next : Option Selection) :
    Option (RestoreMachine Tree) :=
  match m.target with
  | some (.whole _) =>
    if o.confirmed then
      some { (m.mark t .failed).moveTo (next.elim .idle .retiring) with participants := m.hidden }
    else some ((m.mark t .failed).moveTo .idle)
  | _ => none

/-- The participant barrier of `restore`, and the marker that records it. -/
def stopBarrier (m : RestoreMachine Tree) (o : Progress Tree) (next : Selection) : RestoreMachine Tree :=
  if o.confirmed then { m.moveTo (.recording next) with participants := m.hidden } else m.moveTo .idle

def record (m : RestoreMachine Tree) (next : Selection) : Option (RestoreMachine Tree) :=
  match m.target with
  | some (.whole tree) =>
    if next.restorationId ∈ m.drawn then none
    else some { m.moveTo .entered with
      marker := some ⟨next.restorationId, "", "", next.sourceFolder, next.snapshotId, .staging⟩
      drawn := next.restorationId :: m.drawn
      displaced := some tree }
  | _ => none

/-- `_finish_restore` goes on where the marker says. -/
def enter (m : RestoreMachine Tree) (t : RestoreTransaction) : RestoreMachine Tree :=
  match t.phase with
  | .servicesStarting | .failed => m.moveTo (.settling none)
  | .staging => m.moveTo .clearingCached
  | .complete => m.moveTo .idle
  | _ => m.moveTo .checking

def clearCached (m : RestoreMachine Tree) (o : Progress Tree) (t : RestoreTransaction) : RestoreMachine Tree :=
  let w := m.workspace t
  let (place, gone) := remove o w.cached
  (m.setWork t { w with cached := place }).moveTo (if gone then .clearingReplacement else .clearingCached)

def clearReplacement (m : RestoreMachine Tree) (o : Progress Tree) (t : RestoreTransaction) : RestoreMachine Tree :=
  let w := m.workspace t
  let (place, gone) := remove o w.replacement
  (m.setWork t { w with replacement := place }).moveTo (if gone then .copyingCached else .clearingReplacement)

def copyCached (a : Archives Tree) (m : RestoreMachine Tree) (o : Progress Tree) (t : RestoreTransaction) :
    Option (RestoreMachine Tree) := do
  let source ← a.snapshot t.sourceFolder t.snapshotId
  let w := m.workspace t
  let (place, done) ← copy o source w.cached
  return (m.setWork t { w with cached := place }).moveTo (if done then .readingCached else .copyingCached)

/-- `_read_snapshot(cached)` accepts the copy of the archived snapshot only. -/
def readCached (m : RestoreMachine Tree) (t : RestoreTransaction) (next : Position) : Option (RestoreMachine Tree) :=
  match (m.workspace t).cached with
  | some (.whole _) => some (m.moveTo next)
  | _ => none

/-- The replacement gets the files of the cached snapshot, its journal and the rewritten
runner state. -/
def copyReplacement (a : Archives Tree) (m : RestoreMachine Tree) (o : Progress Tree) (t : RestoreTransaction) :
    Option (RestoreMachine Tree) :=
  match (m.workspace t).cached with
  | some (.whole source) => do
    let w := m.workspace t
    let (place, done) ← copy o (a.stage t.restorationId source) w.replacement
    return (m.setWork t { w with replacement := place }).moveTo (if done then .preparing else .copyingReplacement)
  | _ => none

/-- The first half of `_install_restore_files`. -/
def displace (m : RestoreMachine Tree) (t : RestoreTransaction) : Option (RestoreMachine Tree) :=
  let w := m.workspace t
  if w.previous.isSome then some (m.moveTo .installing)
  else
    match m.target, w.replacement with
    | some tree, some _ =>
      some { (m.setWork t { w with previous := some tree }).moveTo .installing with target := none }
    | _, _ => none

/-- The second half of `_install_restore_files`. -/
def install (m : RestoreMachine Tree) (t : RestoreTransaction) : Option (RestoreMachine Tree) :=
  let w := m.workspace t
  match m.target, w.replacement with
  | none, some tree =>
    some { (m.setWork t { w with replacement := none }).moveTo .installed with target := some tree }
  | none, none => none
  | some _, some _ => none
  | some _, none => some (m.moveTo .installed)

def written (m : RestoreMachine Tree) (tree : Option Tree) : RestoreMachine Tree :=
  match m.target, tree with
  | some (.whole _), some tree => { m with target := some (.whole tree) }
  | _, _ => m

/-- `_bind_restored_journal`: `complete_restore` writes the installed journal. -/
def bind (m : RestoreMachine Tree) (o : Progress Tree) (t : RestoreTransaction) : Option (RestoreMachine Tree) :=
  match m.target with
  | some (.whole _) =>
    if o.partly then some (m.written o.written)
    else some ((m.written o.written).moveTo (if t.phase = .filesInstalled then .bound else .launching))
  | _ => none

/-- The handler of `_start_restore_services`: what a shutdown leaves alive is saved. -/
def abandon (m : RestoreMachine Tree) (o : Progress Tree) (t : RestoreTransaction) : RestoreMachine Tree :=
  { (m.mark t .failed).moveTo .idle with
    participants := (m.participants.filter (fun p => o.survives p.instanceId)).map (fun p => { p with saved := true }) }

/-- The end of `_start_restore_services`: the state is saved, then the marker is complete. -/
def complete (m : RestoreMachine Tree) (t : RestoreTransaction) : RestoreMachine Tree :=
  { m.mark t .complete with participants := m.participants.map (fun p => { p with saved := true }) }

def cleanPrevious (m : RestoreMachine Tree) (o : Progress Tree) (t : RestoreTransaction) : RestoreMachine Tree :=
  let w := m.workspace t
  let (place, gone) := remove o w.previous
  (m.setWork t { w with previous := place }).moveTo (if gone then .cleaningCached else .cleaningPrevious)

def cleanCached (m : RestoreMachine Tree) (o : Progress Tree) (t : RestoreTransaction) : RestoreMachine Tree :=
  let w := m.workspace t
  let (place, gone) := remove o w.cached
  (m.setWork t { w with cached := place }).moveTo (if gone then .idle else .cleaningCached)

/-- The next step of `_finish_restore` on the marked transaction. -/
def advance (a : Archives Tree) (m : RestoreMachine Tree) (o : Progress Tree) (t : RestoreTransaction) :
    Option (RestoreMachine Tree) :=
  match m.position with
  | .settling next => m.settle o t next
  | .retiring next => some { m.moveTo (.barrier next) with marker := none }
  | .entered => some (m.enter t)
  | .clearingCached => some (m.clearCached o t)
  | .clearingReplacement => some (m.clearReplacement o t)
  | .copyingCached => copyCached a m o t
  | .readingCached => m.readCached t .copyingReplacement
  | .copyingReplacement => copyReplacement a m o t
  | .preparing => some ((m.mark t .prepared).moveTo .checking)
  | .checking => m.readCached t (if t.phase = .prepared then .displacing else .binding)
  | .displacing => m.displace t
  | .installing => m.install t
  | .installed => some ((m.mark t .filesInstalled).moveTo .binding)
  | .binding => m.bind o t
  | .bound => some ((m.mark t .journalRestored).moveTo .launching)
  | .launching => some ((m.mark t .servicesStarting).moveTo .starting)
  | .starting => some ((m.written o.written).moveTo (if o.confirmed then .finishing else .failing))
  | .finishing => some ((m.complete t).moveTo (if o.preserve then .idle else .cleaningPrevious))
  | .failing => some (m.abandon o t)
  | .cleaningPrevious => some (m.cleanPrevious o t)
  | .cleaningCached => some (m.cleanCached o t)
  | .idle | .barrier _ | .recording _ => none

def proceed (a : Archives Tree) (m : RestoreMachine Tree) (o : Progress Tree) : Option (RestoreMachine Tree) :=
  match m.position, m.marker with
  | .barrier next, _ => some (m.stopBarrier o next)
  | .recording next, _ => m.record next
  | _, some t => m.advance a o t
  | _, none => none

/-- `restore` of a selection, up to its participant barrier. -/
def request (m : RestoreMachine Tree) (selection : Selection) : Option (RestoreMachine Tree) :=
  match m.marker with
  | none => some (m.moveTo (.barrier selection))
  | some t =>
    if t.phase = .failed then some (m.moveTo (.settling (some selection)))
    else if t.phase = .complete then some (m.moveTo (.retiring selection))
    else if t.snapshotId = selection.snapshotId ∧ t.sourceFolder = selection.sourceFolder then
      some (m.moveTo .entered)
    else none

def step (a : Archives Tree) (m : RestoreMachine Tree) : RestoreAction Tree → Option (RestoreMachine Tree)
  | .request selection => if m.position = .idle then m.request selection else none
  | .resume =>
    if m.position = .idle ∧ m.marker.any (fun t => t.phase != .complete) = true then some (m.moveTo .entered)
    else none
  | .proceed o => m.proceed a o
  | .raise => some (m.moveTo (if m.position = .starting ∨ m.position = .finishing then .failing else .idle))
  | .die => some (m.moveTo .idle)
  | .spawn instanceId =>
    if m.position = .starting then
      some { m with participants := ⟨instanceId, false, false⟩ :: m.participants }
    else none
  | .save instanceId =>
    if m.position = .starting then
      some { m with participants := m.participants.map (fun p => if p.instanceId = instanceId then { p with saved := true } else p) }
    else none
  | .announce instanceId =>
    some { m with participants := m.participants.map (fun p => if p.instanceId = instanceId then { p with announced := true } else p) }
  | .exit instanceId => some { m with participants := m.participants.filter (·.instanceId ≠ instanceId) }
  | .write tree =>
    if m.position = .idle ∧ m.marker.all (fun t => t.phase == .complete || t.phase == .failed) = true then
      some (m.written (some tree))
    else none

def run (a : Archives Tree) (m : RestoreMachine Tree) : List (RestoreAction Tree) → Option (RestoreMachine Tree)
  | [] => some m
  | action :: rest => (m.step a action).bind (run a · rest)

/-- An experiment folder before its first restoration. -/
def start (tree : Tree) : RestoreMachine Tree := ⟨some (.whole tree), fun _ => .empty, none, [], .idle, [], none⟩

end RestoreMachine

end ModularPipelines.Snapshots
