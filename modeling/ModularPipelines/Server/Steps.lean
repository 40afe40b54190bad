import ModularPipelines.Server.Submitting

namespace ModularPipelines.Server
open Library

namespace ServerRuntime

variable {settings : ServerSettings} {fingerprint : Json → String} {m m' : ServerRuntime} {answered : String → Prop}
  {lost : Prop}

/-- The commands that an action may answer. -/
def Action.Answers (m : ServerRuntime) : Action → String → Prop
  | .reply (.outcome o) runtimeId _ _, i => m.stale (some runtimeId) = false ∧ i = o.response.commandId
  | .finishRestart _ _ _ _ _, i => m.restartId = some i
  | _, _ => False

/-- Whether the controller may be lost. -/
def Action.Loses (m : ServerRuntime) : Action → Prop
  | .reply (.stopped _) runtimeId _ _ | .reply (.error _) runtimeId _ _ | .reply (.invalid _) runtimeId _ _ =>
    m.stale (some runtimeId) = false
  | .lost _ runtimeId _ _ => m.stale (some runtimeId) = false
  | .settle none _ _ => m.state ≠ .closed
  | _ => False

/-- An answered read stays one of the reads. -/
theorem acceptRead_framed {response : Response} (h : m.acceptReadResponse response = some m') :
    m'.records = m.records ∧ m'.chains = m.chains ∧ m'.cacheBytes = m.cacheBytes ∧ m'.history = m.history ∧
      ∀ i, m'.reads.contains i = true → m.reads.contains i = true := by
  unfold acceptReadResponse at h
  split at h
  · rename_i hwaiting
    obtain rfl := Option.some.inj h
    refine ⟨rfl, rfl, rfl, rfl, fun i hi => ?_⟩
    rw [Dict.contains, Dict.get?_set] at hi
    split at hi
    · rename_i heq
      rw [Dict.contains, heq, hwaiting]
      rfl
    · exact hi
  · cases h

theorem acceptCommandResponse_progress (h : m.Kept settings) (response : Response) (finishedAt now : Nat)
    (hanswered : answered response.commandId) :
    Progress settings answered lost m (m.acceptCommandResponse settings response finishedAt now) := by
  unfold acceptCommandResponse
  dsimp only
  split
  · rename_i hread
    obtain ⟨hrecords, hchains, hcache, hhistory, hreads⟩ := acceptRead_framed hread
    exact .of h (.framed hrecords hchains hcache hhistory fun i hi => .inl (hreads i hi))
  · split
    · exact .refl h
    · rename_i r hget
      split
      · rename_i hopen
        have hfinished : Progress settings answered lost m (m.finishRecord response.commandId r
            ⟨(boundedResponse settings response).1, finishedAt, (boundedResponse settings response).2⟩) :=
          .of h (.finished _ hget hopen hanswered)
        exact hfinished.trans (.prune hfinished.kept now 0)
      · exact .refl h

theorem failWaiters_contains (reads : Dict Waiter) (message : String) (i : String) :
    (reads.mapValues (failWaiter message)).contains i = reads.contains i := by
  rw [Dict.contains, Dict.contains, Dict.get?_mapValues, Option.isSome_map]

theorem unavailable_progress (h : m.Kept settings) (message : String) (runtimeId : Option String) (stamps : String → Nat)
    (now : Nat) (hlost : m.stale runtimeId = false → lost) :
    Progress settings answered lost m (m.unavailable settings message runtimeId stamps now) := by
  unfold unavailable
  split
  · exact .refl h
  · rename_i hstale
    let failed : ServerRuntime := { m with
      state := .unavailable
      error := some message
      reads := m.reads.mapValues (failWaiter message) }
    have hfailed : Progress settings answered lost m failed := by
      refine .of h (.framed rfl rfl rfl rfl fun i hi => .inl ?_)
      exact failWaiters_contains m.reads message i ▸ hi
    have hloses := hfailed.trans (.of hfailed.kept (.lost message stamps (hlost (Bool.eq_false_iff.mpr hstale))))
    exact hloses.trans (.prune hloses.kept now 0)

theorem acceptResponse_progress (h : m.Kept settings) (message : ControllerMessage) (runtimeId : String)
    (stamps : String → Nat) (now : Nat) :
    Progress settings ((Action.reply message runtimeId stamps now).Answers m) ((Action.reply message runtimeId stamps now).Loses m)
      m (m.acceptResponse settings message (some runtimeId) stamps now) := by
  unfold acceptResponse
  split
  · exact .refl h
  · rename_i hstale
    have hcurrent : m.stale (some runtimeId) = false := Bool.eq_false_iff.mpr hstale
    cases message with
    | outcome o => exact acceptCommandResponse_progress h _ _ _ ⟨hcurrent, rfl⟩
    | ready =>
      show Progress settings _ _ m m.acceptReady
      unfold acceptReady
      split
      · exact .refl h
      · exact .framed h rfl rfl rfl rfl rfl
    | stopped text =>
      exact (unavailable_progress h text none stamps now fun _ => hcurrent).frame rfl rfl rfl rfl rfl
    | error text => exact unavailable_progress h text none stamps now fun _ => hcurrent
    | invalid text => exact unavailable_progress h _ none stamps now fun _ => hcurrent

theorem finishLifecycle_progress (h : m.Kept settings) (c : ServerCommand) (ending : LifecycleEnd) (stamps : String → Nat)
    (now : Nat) (hanswered : answered c.commandId) :
    Progress settings answered lost m (m.finishLifecycle settings c ending stamps now) := by
  let before : ServerRuntime := { m with
    httpClosing := m.httpClosing || (c.command == "server.shutdown" && ending.errorText.isNone)
    error := ending.errorText.or m.error
    state := if m.state = RuntimeState.closed then .unavailable else m.state }
  have hbefore : Progress settings answered lost m before := .framed h rfl rfl rfl rfl rfl
  have hid : (ending.response c).commandId = c.commandId := by cases ending <;> rfl
  have haccepted := hbefore.trans (acceptCommandResponse_progress hbefore.kept (ending.response c) (stamps c.commandId) now
    (hid.symm ▸ hanswered))
  exact haccepted.frame rfl rfl rfl rfl rfl

theorem read_progress (h : m.Kept settings) {i : String} (name : String) (args : List (String × Json))
    (hnew : m.records.contains i = false) : Progress settings answered lost m (m.read settings i name args).1 := by
  unfold read
  split
  · exact .refl h
  · split
    · exact .refl h
    · split
      · exact .refl h
      · split
        · exact .refl h
        · refine .of h (.framed rfl rfl rfl rfl fun j hj => ?_)
          rw [Dict.contains, Dict.get?_set] at hj
          split at hj
          · rename_i heq
            exact .inr (heq ▸ hnew)
          · exact .inl hj

theorem leaveRead_progress (h : m.Kept settings) (i : String) : Progress settings answered lost m (m.leaveRead i) := by
  refine .of h (.framed rfl rfl rfl rfl fun j hj => .inl ?_)
  rw [leaveRead, Dict.contains, Dict.get?_pop] at hj
  split at hj
  · cases hj
  · exact hj

/-- Every action changes the receipts in one of the five ways only. -/
theorem step_progress (h : m.Kept settings) {action : Action} (hs : m.step settings fingerprint action = some m') :
    Progress settings (action.Answers m) (action.Loses m) m m' := by
  cases action with
  | start =>
    obtain ⟨-, hs⟩ := Option.ite_none_right_eq_some.mp hs
    obtain rfl := Option.some.inj hs
    exact .framed h rfl rfl rfl rfl rfl
  | submit document clock stamps =>
    obtain rfl := Option.some.inj hs
    exact submit_progress h document clock stamps
  | result i now =>
    obtain rfl := Option.some.inj hs
    exact .evicted h (result_evicted h i now)
  | read i name args =>
    simp only [step] at hs
    split at hs
    · cases hs
    · rename_i hfree
      obtain rfl := Option.some.inj hs
      have hnew := (Bool.or_eq_false_iff.mp (Bool.eq_false_iff.mpr hfree)).1
      exact read_progress h name args hnew
  | leaveRead i =>
    obtain ⟨-, hs⟩ := Option.ite_none_right_eq_some.mp hs
    obtain rfl := Option.some.inj hs
    exact leaveRead_progress h i
  | take =>
    simp only [step] at hs
    split at hs
    · cases hs
    · obtain ⟨-, hs⟩ := Option.ite_none_right_eq_some.mp hs
      obtain rfl := Option.some.inj hs
      exact .framed h rfl rfl rfl rfl rfl
  | reply message runtimeId stamps now =>
    obtain rfl := Option.some.inj hs
    exact acceptResponse_progress h message runtimeId stamps now
  | lost message runtimeId stamps now =>
    obtain rfl := Option.some.inj hs
    exact unavailable_progress h message (some runtimeId) stamps now id
  | exit =>
    obtain rfl := Option.some.inj hs
    exact .framed h rfl rfl rfl rfl rfl
  | beginRestart shutdownId =>
    simp only [step] at hs
    split at hs
    · split at hs
      · cases hs
      · obtain rfl := Option.some.inj hs
        unfold beginRestart
        split <;> exact .framed h rfl rfl rfl rfl rfl
    · cases hs
  | finishRestart previousId controller notes stamps now =>
    simp only [step] at hs
    split at hs
    · rename_i c phase hrestart
      obtain ⟨ending, -, rfl⟩ := Option.map_eq_some_iff.mp hs
      have hanswered : m.restartId = some c.commandId := by rw [restartId, hrestart]; rfl
      exact finishLifecycle_progress h c ending stamps now hanswered
    · cases hs
  | replace runtimeId =>
    simp only [step] at hs
    split at hs
    · split at hs
      · cases hs
      · obtain rfl := Option.some.inj hs
        exact .framed h rfl rfl rfl rfl rfl
    · cases hs
  | startFails message shutdownId =>
    simp only [step] at hs
    split at hs
    · obtain rfl := Option.some.inj hs
      exact .framed h rfl rfl rfl rfl rfl
    · cases hs
  | closeHttp =>
    obtain rfl := Option.some.inj hs
    exact .framed h rfl rfl rfl rfl rfl
  | beginClose shutdownId =>
    simp only [step] at hs
    split at hs
    · obtain rfl := Option.some.inj hs
      exact .framed h rfl rfl rfl rfl rfl
    · cases hs
  | settle failed stamps now =>
    obtain ⟨-, hs⟩ := Option.ite_none_right_eq_some.mp hs
    obtain rfl := Option.some.inj hs
    cases failed with
    | none =>
      refine (unavailable_progress h closedMessage none stamps now fun hstale hclosed => ?_).frame rfl rfl rfl rfl rfl
      rw [stale, hclosed] at hstale
      cases hstale
    | some message => exact .framed h rfl rfl rfl rfl rfl
  | closeChannels blocked =>
    obtain ⟨-, hs⟩ := Option.ite_none_right_eq_some.mp hs
    obtain rfl := Option.some.inj hs
    exact .framed h rfl rfl rfl rfl rfl

/-- Actions one after another. -/
def run (settings : ServerSettings) (fingerprint : Json → String) (m : ServerRuntime) (actions : List Action) :
    Option ServerRuntime := actions.foldlM (fun m action => m.step settings fingerprint action) m

theorem Reachable.run {Allowed : ServerRuntime → Action → Prop} (hall : ∀ m action, Allowed m action)
    (h : Reachable settings fingerprint Allowed m) {actions : List Action}
    (hrun : m.run settings fingerprint actions = some m') : Reachable settings fingerprint Allowed m' := by
  induction actions generalizing m with
  | nil =>
    obtain rfl := Option.some.inj hrun
    exact h
  | cons action rest ih =>
    obtain ⟨next, hnext, hrest⟩ := Option.bind_eq_some_iff.mp hrun
    exact ih (h.step (hall m action) hnext) hrest

theorem Kept.init (settings : ServerSettings) (instanceId runtimeId : String) (mode : ServerMode) (stopHttp : Bool) :
    (ServerRuntime.init instanceId runtimeId mode stopHttp).Kept settings := by
  refine ⟨Dict.Unique.empty, rfl, Nat.zero_le _, fun c ids hget => ?_, fun i hi => ?_⟩
  · cases hget
  · cases hi

/-- The retained records are in order in every state of every run. -/
theorem Reachable.kept {Allowed : ServerRuntime → Action → Prop} (h : Reachable settings fingerprint Allowed m) :
    m.Kept settings := by
  induction h with
  | start instanceId runtimeId mode stopHttp => exact .init settings instanceId runtimeId mode stopHttp
  | step _ _ hnext ih => exact (step_progress ih hnext).kept

def smallSettings : ServerSettings where
  maxPending := 2
  maxReads := 1
  maxRecords := 4
  maxRequestBytes := 1000
  maxResponseBytes := 1000
  maxCacheBytes := 2000
  resultTtl := 60
  stopRoom := by omega
  responseRoom := by omega

def resumeCommand : ServerCommand := ⟨"resume-1", "resume", [], none, by decide⟩

/-- A controller is ready, and a command is given to it. -/
def resuming : List Action :=
  [.start, .reply .ready "runtime" (fun _ => 0) 0, .submit (.ok (.single resumeCommand)) (fun _ => 1) (fun _ => "now")]

def resumeAnswer : Action :=
  .reply (.outcome ⟨⟨"resume-1", .succeeded, none, []⟩, by decide, by decide⟩) "runtime" (fun _ => 2) 2

end ServerRuntime

end ModularPipelines.Server
