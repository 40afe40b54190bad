import ModularPipelines.Server.Controller

namespace ModularPipelines.Server
open Library

/-- The places of a chain from one of them on. -/
def Numbered (request : Nat) : Nat → List Job → Prop
  | _, [] => True
  | place, job :: rest => job.request = request ∧ job.place = place ∧ Numbered request (place + 1) rest

def Job.tag (job : Job) : Nat × Nat := (job.request, job.place)

namespace Numbered

variable {request place : Nat} {jobs : List Job} {job : Job}

theorem request_eq (h : Numbered request place jobs) (hj : job ∈ jobs) : job.request = request ∧ place ≤ job.place := by
  induction jobs generalizing place with
  | nil => cases hj
  | cons first rest ih =>
    obtain ⟨hrequest, hplace, hrest⟩ := h
    rcases List.mem_cons.mp hj with rfl | hj
    · exact ⟨hrequest, Nat.le_of_eq hplace.symm⟩
    · obtain ⟨hsame, hlater⟩ := ih hrest hj
      exact ⟨hsame, Nat.le_of_succ_le hlater⟩

theorem nodup (h : Numbered request place jobs) : (jobs.map Job.tag).Nodup := by
  induction jobs generalizing place with
  | nil => exact List.nodup_nil
  | cons first rest ih =>
    obtain ⟨-, hplace, hrest⟩ := h
    refine List.nodup_cons.mpr ⟨fun hmem => ?_, ih hrest⟩
    obtain ⟨other, hother, hsame⟩ := List.mem_map.mp hmem
    have hlater := (request_eq hrest hother).2
    have hequal : other.place = first.place := congrArg Prod.snd hsame
    omega

theorem mapIdx (request place : Nat) (chainId : String) (commands : List ServerCommand) :
    Numbered request place
      (commands.mapIdx fun k c => ⟨controllerCommand (some chainId) c, request, place + k⟩) := by
  induction commands generalizing place with
  | nil => trivial
  | cons c rest ih =>
    rw [List.mapIdx_cons]
    refine ⟨rfl, rfl, ?_⟩
    have hrest := ih (place + 1)
    simp only [Nat.add_assoc, Nat.add_comm 1] at hrest
    exact hrest

end Numbered

namespace Controller

variable {m m' : Controller} {request : Request}

/-- Several jobs are answered in the same way. -/
theorem cancelAll_eq (message : String) (m : Controller) (jobs : List Job) :
    cancelAll message m jobs
      = { m with
          outbox := m.outbox ++ jobs.map (fun job => .outcome (m.jobFailure job "command_cancelled" message))
          answered := m.answered ++ jobs.map (fun job => (job, m.jobFailure job "command_cancelled" message)) } := by
  unfold cancelAll
  induction jobs generalizing m with
  | nil => simp
  | cons job rest ih =>
    rw [List.foldl_cons, ih]
    simp [publish, jobFailure]

/-- The controller after a standalone stop. -/
def preempted (m : Controller) (job : Job) : Controller :=
  { m with
    tail := []
    queue := [(job, [])]
    current := m.current.map (fun c => (c.1, c.2.cancel))
    controls := m.controls ++ [job]
    outbox := m.outbox ++ m.waiting.map (fun j => .outcome (m.jobFailure j "command_cancelled" "Cancelled by standalone stop."))
    answered := m.answered ++
      m.waiting.map (fun j => (j, m.jobFailure j "command_cancelled" "Cancelled by standalone stop.")) }

theorem cancelQueued_enqueue (m : Controller) (job : Job) : m.cancelQueuedCommands.enqueue [job] = m.preempted job := by
  rw [cancelQueuedCommands, cancelAll_eq]
  rfl

/-- The command IDs that a request brings. -/
def commandIds : Request → List String
  | .submission s => s.identifiers
  | .read commandId _ _ => [commandId]
  | .shutdown _ => []

/-- A single command is taken on with its ID, unless it is a shutdown that is flat enough. -/
def singleIds (request : Request) (commandId command : String) : List String :=
  if request.document.depth ≤ maxDepth ∧ command = "server.shutdown" then [] else [commandId]

/-- The IDs of the commands that the admission of a request takes on; a chain that is nested too deeply is refused. -/
def admittedIds (request : Request) : List String :=
  match request with
  | .submission (.single c) => singleIds request c.commandId c.command
  | .submission (.chain b) => if maxDepth < request.document.depth then [] else b.commands.map ServerCommand.commandId
  | .read commandId name _ => singleIds request commandId name
  | .shutdown commandId => singleIds request commandId "server.shutdown"

/-- All that the admission of a request does; `ids` are the commands that it takes on. -/
inductive Admits (m : Controller) : List String → Controller → Prop where
  | stopped : Admits m [] { m with receiving := false }
  | refused (message : String) : Admits m [] { m with outbox := m.outbox ++ [.rejection message] }
  | rejected (job : Job) (request : job.request = m.received) : Admits m [job.command.commandId] (m.reject job)
  | read (job : Job) (request : job.request = m.received) :
    Admits m [job.command.commandId] { m with reads := m.reads ++ [job], asked := m.asked ++ [job] }
  | preempted (job : Job) (request : job.request = m.received) (first : job.place = 0) :
    Admits m [job.command.commandId] (m.preempted job)
  | enqueued (first : Job) (rest : List Job) (numbered : Numbered m.received 0 (first :: rest)) :
    Admits m ((first :: rest).map fun job => job.command.commandId)
      { m with queue := m.queue ++ [(first, rest)], controls := m.controls ++ first :: rest }

theorem Admits.received {ids : List String} (h : Admits m ids m') : m'.received = m.received := by
  cases h <;> rfl

/-- A request that the owner may send: it is flat enough, and the owner keeps lifecycle commands to itself. -/
structure Proper (request : Request) : Prop where
  shallow : request.document.depth ≤ maxDepth
  plain : ∀ c, request = .submission (.single c) → c.command ≠ "server.shutdown"
  reads : ∀ i name args, request = .read i name args → name ≠ "server.shutdown"

theorem admitCommand_admits (m : Controller) (c : ControllerCommand) :
    Admits m (if c.command = "server.shutdown" then [] else [c.commandId]) (m.admitCommand ⟨c, m.received, 0⟩) := by
  unfold admitCommand
  split
  · exact .stopped
  · split
    · exact .read ⟨c, m.received, 0⟩ rfl
    · split
      · rw [cancelQueued_enqueue]
        exact .preempted ⟨c, m.received, 0⟩ rfl rfl
      · exact .enqueued ⟨c, m.received, 0⟩ [] ⟨rfl, rfl, trivial⟩

theorem chainJobs_numbered (request : Nat) (chainId : String) (commands : List ServerCommand) :
    Numbered request 0 (chainJobs request chainId commands) := by
  have h := Numbered.mapIdx request 0 chainId commands
  simp only [Nat.zero_add] at h
  exact h

theorem chainJobs_ids (request : Nat) (chainId : String) (commands : List ServerCommand) :
    (chainJobs request chainId commands).map (fun job => job.command.commandId) = commands.map ServerCommand.commandId := by
  unfold chainJobs
  apply List.ext_getElem
  · simp
  · intro k _ _
    simp [controllerCommand]

theorem admit_admits (m : Controller) (request : Request) : Admits m (admittedIds request) (m.admitRequest request) := by
  have hsingle : ∀ c : ControllerCommand, Admits m (singleIds request c.commandId c.command)
      (if maxDepth < request.document.depth then m.reject ⟨c, m.received, 0⟩ else m.admitCommand ⟨c, m.received, 0⟩) := by
    intro c
    unfold singleIds
    by_cases hdeep : maxDepth < request.document.depth
    · rw [if_pos hdeep, if_neg fun h => absurd h.1 (Nat.not_le.mpr hdeep)]
      exact .rejected ⟨c, m.received, 0⟩ rfl
    · simp only [if_neg hdeep, Nat.not_lt.mp hdeep, true_and]
      exact admitCommand_admits m c
  cases request with
  | submission s =>
    cases s with
    | single c => exact hsingle (controllerCommand none c)
    | chain b =>
      show Admits m (if maxDepth < _ then _ else _) (if maxDepth < _ then _ else _)
      split
      · exact .refused _
      · have hnumbered := chainJobs_numbered m.received b.chainId b.commands
        have hids := chainJobs_ids m.received b.chainId b.commands
        cases hjobs : chainJobs m.received b.chainId b.commands with
        | nil =>
          rw [hjobs] at hids
          exact (b.nonempty (List.map_eq_nil_iff.mp hids.symm)).elim
        | cons first rest =>
          rw [hjobs] at hnumbered hids
          rw [← hids]
          exact .enqueued first rest hnumbered
  | read i name args => exact hsingle (readCommand i name args)
  | shutdown i => exact hsingle (readCommand i "server.shutdown" [])

/-- Everything that a proper request names is taken on. -/
theorem proper_ids (h : Proper request) : admittedIds request = commandIds request := by
  have hsingle : ∀ {i name : String}, name ≠ "server.shutdown" → singleIds request i name = [i] :=
    fun hname => if_neg fun hshutdown => hname hshutdown.2
  cases request with
  | submission s =>
    cases s with
    | single c => exact hsingle (h.plain c rfl)
    | chain b => exact if_neg (Nat.not_lt.mpr h.shallow)
  | read i name args => exact hsingle (h.reads i name args rfl)
  | shutdown i =>
    show singleIds (.shutdown i) i "server.shutdown" = []
    exact if_pos ⟨h.shallow, rfl⟩

/-- The admission adds exactly these commands to what is known. -/
theorem Admits.named {ids : List String} (h : Admits m ids m') :
    m'.incoming = m.incoming ∧ ((m'.controls ++ m'.asked).map fun job => job.command.commandId).Perm
      ((m.controls ++ m.asked).map (fun job => job.command.commandId) ++ ids) := by
  have hlast : ∀ jobs : List Job, ((m.controls ++ jobs ++ m.asked).map fun job => job.command.commandId).Perm
      ((m.controls ++ m.asked).map (fun job => job.command.commandId) ++ jobs.map fun job => job.command.commandId) := by
    intro jobs
    rw [← List.map_append, List.append_assoc, List.append_assoc]
    exact (List.perm_append_comm.append_left _).map _
  have hasked : ∀ job : Job, ((m.controls ++ (m.asked ++ [job])).map fun job => job.command.commandId).Perm
      ((m.controls ++ m.asked).map (fun job => job.command.commandId) ++ [job.command.commandId]) := by
    intro job
    rw [← List.append_assoc, List.map_append]
    exact List.Perm.refl _
  have hnone : ((m.controls ++ m.asked).map fun job => job.command.commandId).Perm
      ((m.controls ++ m.asked).map (fun job => job.command.commandId) ++ []) := by rw [List.append_nil]
  cases h with
  | stopped => exact ⟨rfl, hnone⟩
  | refused message => exact ⟨rfl, hnone⟩
  | rejected job _ => exact ⟨rfl, hasked job⟩
  | read job _ => exact ⟨rfl, hasked job⟩
  | preempted job _ _ => exact ⟨rfl, hlast [job]⟩
  | enqueued first rest _ => exact ⟨rfl, hlast (first :: rest)⟩

end Controller

end ModularPipelines.Server
