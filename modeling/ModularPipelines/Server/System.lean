import ModularPipelines.Server.Held
import ModularPipelines.Server.Moves

namespace ModularPipelines.Server
open Library

/-- What the owner reads from the channel of its controller. -/
def ControllerReply.message : ControllerReply → ControllerMessage
  | .outcome o => .outcome o
  | .rejection text => .invalid text

/-- What the owner does without its controller; only an earlier one may still report something. -/
def ServerRuntime.Action.own (m : ServerRuntime) : ServerRuntime.Action → Bool
  | .take | .replace _ => false
  | .submit (.ok s) _ _ => decide (s.document.depth ≤ maxDepth)
  | .reply (.outcome _) runtimeId _ _ | .reply .ready runtimeId _ _ => runtimeId != m.runtimeId
  | _ => true

/-- The owner and its controller. `announced` says that the controller has reported that it is ready; `drawn` and
`begun` are not in the source, they keep the IDs of the reads and what the replaced controllers have begun. -/
structure System where
  owner : ServerRuntime
  controller : Controller
  announced : Bool
  drawn : List String
  begun : List String

namespace System

variable (settings : ServerSettings) (fingerprint : Json → String)

def init (instanceId runtimeId : String) (mode : ServerMode) (stopHttp : Bool) : System :=
  ⟨ServerRuntime.init instanceId runtimeId mode stopHttp, .new, false, [], []⟩

inductive Event where
  | act (action : ServerRuntime.Action)
  | take
  | announce (stamps : String → Nat) (now : Nat)
  | work (action : Controller.Action)
  | collect (stamps : String → Nat) (now : Nat)
  | replace (runtimeId : String)

/-- The commands whose operation the controller has begun. -/
def began (m : Controller) : List String := m.started.map fun job => job.command.commandId

/-- A controller works while its process lives; what it has sent can still be read afterwards. A replaced controller
leaves with its queues. -/
def step (s : System) : Event → Option System
  | .act action =>
    if action.own s.owner then
      (s.owner.step settings fingerprint action).map fun m => { s with owner := m, drawn := s.drawn ++ action.drawn }
    else none
  | .take =>
    match s.owner.requests with
    | [] => none
    | request :: _ =>
      (s.owner.step settings fingerprint .take).map fun m =>
        { s with owner := m, controller := s.controller.deliver request }
  | .announce stamps now =>
    if s.announced || s.owner.process.isNone then none
    else
      (s.owner.step settings fingerprint (.reply .ready s.owner.runtimeId stamps now)).map fun m =>
        { s with owner := m, announced := true }
  | .work action => if s.owner.alive then (s.controller.step action).map fun c => { s with controller := c } else none
  | .collect stamps now =>
    match s.controller.collect with
    | none => none
    | some (reply, c) =>
      (s.owner.step settings fingerprint (.reply reply.message s.owner.runtimeId stamps now)).map fun m =>
        { s with owner := m, controller := c }
  | .replace runtimeId =>
    (s.owner.step settings fingerprint (.replace runtimeId)).map fun m =>
      { s with owner := m, controller := .new, announced := false, begun := s.begun ++ began s.controller }

/-- The runs of an owner and its controllers. -/
inductive Reachable : System → Prop where
  | start (instanceId runtimeId : String) (mode : ServerMode) (stopHttp : Bool) :
      Reachable (init instanceId runtimeId mode stopHttp)
  | step {s s' : System} {event : Event} (before : Reachable s) (next : s.step settings fingerprint event = some s') :
      Reachable s'

variable {settings fingerprint} {s s' : System} {m' : ServerRuntime} {action : ServerRuntime.Action} {event : Event}
  {request : Request} {ids : List String} {i : String}

/-- All that an event does. -/
inductive Steps (settings : ServerSettings) (fingerprint : Json → String) (s : System) : System → Prop where
  | act {action : ServerRuntime.Action} {m : ServerRuntime} (own : action.own s.owner = true)
    (stepped : s.owner.step settings fingerprint action = some m) :
    Steps settings fingerprint s { s with owner := m, drawn := s.drawn ++ action.drawn }
  | take {request : Request} {rest : List Request} (requests : s.owner.requests = request :: rest)
    (stepped : s.owner.step settings fingerprint .take = some { s.owner with requests := rest }) :
    Steps settings fingerprint s
      { s with owner := { s.owner with requests := rest }, controller := s.controller.deliver request }
  | announce (silent : s.announced = false) (stamps : String → Nat) (now : Nat) :
    Steps settings fingerprint s
      { s with
        owner := s.owner.acceptResponse settings .ready (some s.owner.runtimeId) stamps now
        announced := true }
  | work {action : Controller.Action} {c : Controller} (alive : s.owner.alive = true)
      (stepped : s.controller.step action = some c) :
    Steps settings fingerprint s { s with controller := c }
  | collect {reply : ControllerReply} {rest : List ControllerReply} (responses : s.controller.responses = reply :: rest)
    (stamps : String → Nat) (now : Nat) :
    Steps settings fingerprint s
      { s with
        owner := s.owner.acceptResponse settings reply.message (some s.owner.runtimeId) stamps now
        controller := { s.controller with responses := rest } }
  | replace {runtimeId : String} {m : ServerRuntime}
    (stepped : s.owner.step settings fingerprint (.replace runtimeId) = some m) (requests : m.requests = [])
    (state : m.state = .starting) (history : m.history = s.owner.history) :
    Steps settings fingerprint s
      { s with owner := m, controller := .new, announced := false, begun := s.begun ++ began s.controller }

theorem replace_cases {m m' : ServerRuntime} {runtimeId : String}
    (hs : m.step settings fingerprint (.replace runtimeId) = some m') :
    m'.requests = [] ∧ m'.state = .starting ∧ m'.history = m.history := by
  simp only [ServerRuntime.step] at hs
  split at hs
  · split at hs
    · cases hs
    · obtain rfl := Option.some.inj hs
      exact ⟨rfl, rfl, rfl⟩
  · cases hs

theorem step_steps (hs : s.step settings fingerprint event = some s') : Steps settings fingerprint s s' := by
  cases event with
  | act action =>
    obtain ⟨hown, hs⟩ := Option.ite_none_right_eq_some.mp hs
    obtain ⟨m, hm, rfl⟩ := Option.map_eq_some_iff.mp hs
    exact .act hown hm
  | take =>
    simp only [step] at hs
    split at hs
    · cases hs
    · rename_i request rest hrequests
      obtain ⟨m, hm, rfl⟩ := Option.map_eq_some_iff.mp hs
      have htaken := hm
      simp only [ServerRuntime.step, hrequests] at hm
      obtain ⟨-, hm⟩ := Option.ite_none_right_eq_some.mp hm
      obtain rfl := Option.some.inj hm
      exact .take hrequests htaken
  | announce stamps now =>
    obtain ⟨hsilent, hs⟩ := Option.ite_none_left_eq_some.mp hs
    obtain ⟨m, hm, rfl⟩ := Option.map_eq_some_iff.mp hs
    obtain rfl := Option.some.inj hm
    exact .announce (Bool.or_eq_false_iff.mp (Bool.eq_false_iff.mpr hsilent)).1 stamps now
  | work action =>
    obtain ⟨halive, hs⟩ := Option.ite_none_right_eq_some.mp hs
    obtain ⟨c, hc, rfl⟩ := Option.map_eq_some_iff.mp hs
    exact .work halive hc
  | collect stamps now =>
    simp only [step] at hs
    split at hs
    · cases hs
    · rename_i reply c htaken
      obtain ⟨m, hm, rfl⟩ := Option.map_eq_some_iff.mp hs
      obtain rfl := Option.some.inj hm
      unfold Controller.collect at htaken
      split at htaken
      · cases htaken
      · rename_i first rest hresponses
        obtain ⟨rfl, rfl⟩ := Prod.mk.inj (Option.some.inj htaken)
        exact .collect hresponses stamps now
  | replace runtimeId =>
    obtain ⟨m, hm, rfl⟩ := Option.map_eq_some_iff.mp hs
    obtain ⟨hrequests, hstate, hhistory⟩ := replace_cases hm
    exact .replace hm hrequests hstate hhistory

/-- In how many places between the owner's queue and its reading of the replies the command is. -/
def holds (s : System) (i : String) : Nat := (s.owner.requests.flatMap Controller.commandIds).count i + s.controller.holds i

/-- The command is in one place if the owner waits for its outcome, and else in none. -/
structure Tracked (s : System) (i : String) : Prop where
  once : s.holds i ≤ 1
  waits : 0 < s.holds i → s.owner.awaited i = true ∧ s.owner.restartId ≠ some i
  held : s.controller.closing = false → s.owner.awaited i = true → s.owner.restartId ≠ some i → s.holds i = 1

/-- What connects the owner with its controller. -/
structure Linked (s : System) : Prop where
  announced : s.owner.state = .ready → s.announced = true
  quiet : s.announced = false → ∀ i, i ∉ s.drawn → s.holds i = 0
  sound : ∀ i, i ∉ s.drawn → ∀ request ∈ s.owner.requests ++ s.controller.incoming, request.Sound i
  tracked : s.owner.restartBlocked = none → s.owner.state = .ready → ∀ i, i ∉ s.drawn → s.Tracked i

theorem unsubmitted_sound (h : request.Unsubmitted ids) (hi : i ∉ ids) :
    (Controller.commandIds request).count i = 0 ∧ request.Sound i := by
  cases request with
  | submission submission => exact h.elim
  | read j name args =>
    have hne : j ≠ i := fun heq => hi (heq ▸ h)
    exact ⟨List.count_eq_zero.mpr fun hin => hne (List.mem_singleton.mp hin).symm, hne⟩
  | shutdown commandId => exact ⟨rfl, trivial⟩

theorem unsubmitted_count {added : List Request} (h : ∀ request ∈ added, request.Unsubmitted ids) (hi : i ∉ ids) :
    (added.flatMap Controller.commandIds).count i = 0 := by
  induction added with
  | nil => rfl
  | cons request rest ih =>
    have hfirst := (unsubmitted_sound (h request (List.mem_cons_self ..)) hi).1
    have hrest := ih fun other hother => h other (List.mem_cons_of_mem _ hother)
    rw [List.flatMap_cons, List.count_append, hfirst, hrest]

/-- The commands only go on on their way. -/
theorem Linked.carried (h : s.Linked) (hstate : s'.owner.state = s.owner.state)
    (hblocked : s'.owner.restartBlocked = s.owner.restartBlocked) (hawaited : ∀ i, s'.owner.awaited i = s.owner.awaited i)
    (howner : s'.owner.restartId = s.owner.restartId) (hannounced : s'.announced = s.announced) (hdrawn : s'.drawn = s.drawn)
    (hless : ∀ i, i ∉ s.drawn → s'.holds i ≤ s.holds i)
    (hsame : s'.controller.closing = false → s.controller.closing = false ∧ ∀ i, i ∉ s.drawn → s'.holds i = s.holds i)
    (hsound : ∀ request ∈ s'.owner.requests ++ s'.controller.incoming, request ∈ s.owner.requests ++ s.controller.incoming) :
    s'.Linked := by
  refine ⟨fun hready => ?_, fun hsilent i hi => ?_, fun i hi request hin => ?_, fun hfree hready i hi => ?_⟩
  · rw [hannounced]
    exact h.announced (hstate ▸ hready)
  · rw [hdrawn] at hi
    have hzero := h.quiet (hannounced ▸ hsilent) i hi
    have hle := hless i hi
    omega
  · rw [hdrawn] at hi
    exact h.sound i hi request (hsound request hin)
  · rw [hdrawn] at hi
    have hold := h.tracked (hblocked ▸ hfree) (hstate ▸ hready) i hi
    have hle := hless i hi
    refine ⟨Nat.le_trans hle hold.once, fun hpositive => ?_, fun hopen hwaits hother => ?_⟩
    · rw [hawaited, howner]
      exact hold.waits (Nat.lt_of_lt_of_le hpositive hle)
    · obtain ⟨hopen', hequal⟩ := hsame hopen
      rw [hequal i hi]
      exact hold.held hopen' (hawaited i ▸ hwaits) (howner ▸ hother)

/-- The owner has let the submission through, so the controller can read it. -/
theorem submitted_proper {submission : Submission} (hshallow : submission.document.depth ≤ maxDepth)
    (hlifecycle : submission.lifecycle = none) : Controller.Proper (.submission submission) := by
  refine ⟨hshallow, fun c hc hshutdown => ?_, fun j name args hc => ?_⟩
  · cases hc
    have hmem : c.command ∈ ["server.restart", "server.mode", "server.shutdown"] := by
      rw [hshutdown]
      decide
    rw [Submission.lifecycle, if_pos hmem] at hlifecycle
    cases hlifecycle
  · cases hc

theorem Linked.accepted (h : s.Linked) {submission : Submission} (hproper : Controller.Proper (.submission submission))
    (hbefore : s.owner.state = .ready) (hrequests : m'.requests = s.owner.requests ++ [.submission submission])
    (hidle : s.owner.restartId = none) (howner : m'.restartId = none) (hdistinct : submission.identifiers.Nodup)
    (hnew : ∀ i ∈ submission.identifiers, s.owner.awaited i = false)
    (hawaited : ∀ i, m'.awaited i = (s.owner.awaited i || decide (i ∈ submission.identifiers)))
    (hblocked : m'.restartBlocked = none → s.owner.restartBlocked = none) : ({ s with owner := m' } : System).Linked := by
  have hannounced := h.announced hbefore
  have hholds : ∀ i, ({ s with owner := m' } : System).holds i = s.holds i + submission.identifiers.count i := by
    intro i
    show (m'.requests.flatMap Controller.commandIds).count i + s.controller.holds i = _
    rw [hrequests, List.flatMap_append, List.count_append]
    show (s.owner.requests.flatMap Controller.commandIds).count i + (submission.identifiers ++ []).count i + _ = _
    rw [List.append_nil, holds]
    omega
  refine ⟨fun _ => hannounced, fun hsilent => ?_, fun i hi request hin => ?_, fun hfree _ i hi => ?_⟩
  · rw [hannounced] at hsilent
    cases hsilent
  · rcases List.mem_append.mp hin with hqueued | harrived
    · rw [hrequests] at hqueued
      rcases List.mem_append.mp hqueued with hqueued | hlast
      · exact h.sound i hi request (List.mem_append_left _ hqueued)
      · obtain rfl := List.mem_singleton.mp hlast
        exact hproper
    · exact h.sound i hi request (List.mem_append_right _ harrived)
  · have hold := h.tracked (hblocked hfree) hbefore i hi
    by_cases hmem : i ∈ submission.identifiers
    · have hzero : s.holds i = 0 := by
        by_contra hpositive
        have hwaits := (hold.waits (Nat.pos_of_ne_zero hpositive)).1
        rw [hnew i hmem] at hwaits
        cases hwaits
      have hone : ({ s with owner := m' } : System).holds i = 1 := by
        rw [hholds, hzero, List.count_eq_one_of_mem hdistinct hmem]
      refine ⟨Nat.le_of_eq hone, fun _ => ⟨?_, ?_⟩, fun _ _ _ => hone⟩
      · rw [hawaited, decide_eq_true hmem, Bool.or_true]
      · rw [howner]
        exact fun heq => by cases heq
    · have hsame : ({ s with owner := m' } : System).holds i = s.holds i := by
        rw [hholds, List.count_eq_zero.mpr hmem, Nat.add_zero]
      have hwaiting : m'.awaited i = s.owner.awaited i := by
        rw [hawaited, decide_eq_false hmem, Bool.or_false]
      refine ⟨hsame ▸ hold.once, fun hpositive => ?_, fun hopen hwaits _ => ?_⟩
      · have hwaits := (hold.waits (hsame ▸ hpositive)).1
        refine ⟨hwaiting.trans hwaits, ?_⟩
        show m'.restartId ≠ some i
        rw [howner]
        exact fun heq => by cases heq
      · rw [hsame]
        refine hold.held hopen (hwaiting ▸ hwaits) ?_
        rw [hidle]
        exact fun heq => by cases heq

/-- The queue is as before, and what waits changes with the owner's own command only. -/
theorem Linked.reowned (h : s.Linked) (hrequests : m'.requests = s.owner.requests)
    (hready : m'.state = .ready → s.owner.state = .ready)
    (hblocked : m'.restartBlocked = none → s.owner.restartBlocked = none)
    (htracked : s.owner.restartBlocked = none → s.owner.state = .ready → m'.state = .ready → ∀ i, s.Tracked i →
      (0 < s.holds i → m'.awaited i = true ∧ m'.restartId ≠ some i) ∧
        (m'.awaited i = true → m'.restartId ≠ some i → s.owner.awaited i = true ∧ s.owner.restartId ≠ some i)) :
    ({ s with owner := m' } : System).Linked := by
  have hholds : ∀ i, ({ s with owner := m' } : System).holds i = s.holds i := by
    intro i
    show (m'.requests.flatMap Controller.commandIds).count i + _ = _
    rw [hrequests]
    rfl
  refine ⟨fun hlater => h.announced (hready hlater), fun hsilent i hi => ?_, fun i hi request hin => ?_,
    fun hfree hlater i hi => ?_⟩
  · rw [hholds]
    exact h.quiet hsilent i hi
  · refine h.sound i hi request ?_
    rw [← hrequests]
    exact hin
  · have hold := h.tracked (hblocked hfree) (hready hlater) i hi
    obtain ⟨hstays, hback⟩ := htracked (hblocked hfree) (hready hlater) hlater i hold
    refine ⟨hholds i ▸ hold.once, fun hpositive => hstays (hholds i ▸ hpositive), fun hopen hwaits hother => ?_⟩
    obtain ⟨hwaited, hnot⟩ := hback hwaits hother
    rw [hholds]
    exact hold.held hopen hwaited hnot

/-- More reads may have been drawn. -/
theorem Linked.drawn (h : s.Linked) (ids : List String) : ({ s with drawn := s.drawn ++ ids } : System).Linked :=
  ⟨h.announced, fun hsilent i hi => h.quiet hsilent i fun hin => hi (List.mem_append_left _ hin),
    fun i hi => h.sound i fun hin => hi (List.mem_append_left _ hin),
    fun hfree hready i hi =>
      have hold := h.tracked hfree hready i fun hin => hi (List.mem_append_left _ hin)
      ⟨hold.once, hold.waits, hold.held⟩⟩

theorem unsubmitted_mono {ids' : List String} (h : request.Unsubmitted ids) (hsub : ids ⊆ ids') :
    request.Unsubmitted ids' := by
  cases request with
  | submission submission => exact h
  | read j name args => exact hsub h
  | shutdown commandId => trivial

/-- Messages that no client has submitted do not matter. -/
theorem Linked.queued (h : s.Linked) {added : List Request} (hqueued : s.owner.Queued added m')
    (hunsubmitted : ∀ request ∈ added, request.Unsubmitted s.drawn) (hawaited : ∀ i, m'.awaited i = s.owner.awaited i)
    (hready : m'.state = .ready → s.owner.state = .ready) : ({ s with owner := m' } : System).Linked := by
  have hholds : ∀ i, i ∉ s.drawn → ({ s with owner := m' } : System).holds i = s.holds i := by
    intro i hi
    show (m'.requests.flatMap Controller.commandIds).count i + _ = _
    rw [hqueued.requests, List.flatMap_append, List.count_append, unsubmitted_count hunsubmitted hi]
    rfl
  refine ⟨fun hlater => h.announced (hready hlater), fun hsilent i hi => ?_, fun i hi request hin => ?_,
    fun hfree hlater i hi => ?_⟩
  · rw [hholds i hi]
    exact h.quiet hsilent i hi
  · rcases List.mem_append.mp hin with hin | harrived
    · rw [hqueued.requests] at hin
      rcases List.mem_append.mp hin with hold | hnew
      · exact h.sound i hi request (List.mem_append_left _ hold)
      · exact (unsubmitted_sound (hunsubmitted request hnew) hi).2
    · exact h.sound i hi request (List.mem_append_right _ harrived)
  · have hold := h.tracked (hqueued.blocked hfree) (hready hlater) i hi
    refine ⟨hholds i hi ▸ hold.once, fun hpositive => ?_, fun hopen hwaits hother => ?_⟩
    · show m'.awaited i = true ∧ m'.restartId ≠ some i
      rw [hawaited, hqueued.owner]
      exact hold.waits (hholds i hi ▸ hpositive)
    · rw [hholds i hi]
      exact hold.held hopen (hawaited i ▸ hwaits) (hqueued.owner ▸ hother)

/-- What the owner does by itself keeps it connected with its controller. -/
theorem Linked.act (h : s.Linked) (hm : s.owner.Moves action m') (hown : action.own s.owner = true) :
    ({ s with owner := m', drawn := s.drawn ++ action.drawn } : System).Linked := by
  have hmore := h.drawn action.drawn
  cases hm with
  | kept added queued unsubmitted awaited ready _ =>
    have hall : ∀ request ∈ added, request.Unsubmitted (s.drawn ++ action.drawn) :=
      fun request hin => unsubmitted_mono (unsubmitted request hin) (List.subset_append_right _ _)
    exact hmore.queued queued hall awaited ready
  | readied notice _ _ _ =>
    obtain ⟨stamps, now, rfl⟩ := notice
    exact absurd rfl (bne_iff_ne.mp hown)
  | accepted submission submitted lifecycle before after requests idle owner distinct new awaited _ blocked =>
    obtain ⟨clock, stamps, rfl⟩ := submitted
    have hproper := submitted_proper (of_decide_eq_true hown) lifecycle
    exact hmore.accepted hproper before requests idle owner distinct new awaited blocked
  | owned j requests idle owner new awaited state _ blocked =>
    refine hmore.reowned requests (fun hready => state ▸ hready) blocked fun _ _ _ i hi =>
      ⟨fun hpositive => ?_, fun hwaits hother => ?_⟩
    · have hwaits := (hi.waits hpositive).1
      refine ⟨by rw [awaited]; exact Bool.or_eq_true_iff.mpr (.inl hwaits), fun hsame => ?_⟩
      rw [owner] at hsame
      obtain rfl := Option.some.inj hsame
      exact Bool.false_ne_true (new.symm.trans hwaits)
    · have hne : i ≠ j := fun heq => hother (heq ▸ owner)
      rw [awaited, decide_eq_false hne, Bool.or_false] at hwaits
      refine ⟨hwaits, ?_⟩
      show s.owner.restartId ≠ some i
      rw [idle]
      exact fun heq => by cases heq
  | settled o reply _ _ _ =>
    obtain ⟨stamps, now, rfl⟩ := reply
    exact absurd rfl (bne_iff_ne.mp hown)
  | ended j requests owner idle awaited ready _ blocked =>
    refine hmore.reowned requests ready.mp blocked fun _ _ _ i hi => ⟨fun hpositive => ?_, fun hwaits _ => ?_⟩
    · obtain ⟨hwaits, hnot⟩ := hi.waits hpositive
      have hne : i ≠ j := fun heq => hnot (heq ▸ owner)
      refine ⟨by rw [awaited]; exact Bool.and_eq_true_iff.mpr ⟨hwaits, bne_iff_ne.mpr hne⟩, ?_⟩
      rw [idle]
      exact fun heq => by cases heq
    · rw [awaited] at hwaits
      obtain ⟨hold, hne⟩ := Bool.and_eq_true_iff.mp hwaits
      refine ⟨hold, fun hsame => ?_⟩
      exact bne_iff_ne.mp hne (Option.some.inj (hsame.symm.trans owner))
  | lost queued _ unready =>
    refine hmore.reowned (queued.requests.trans (List.append_nil _)) (fun hready => (unready hready).elim) queued.blocked
      fun _ _ hready => (unready hready).elim
  | started requests _ _ _ after _ _ =>
    have hholds : ∀ i, ({ s with owner := m', drawn := s.drawn ++ action.drawn } : System).holds i ≤ s.holds i := by
      intro i
      show (m'.requests.flatMap Controller.commandIds).count i + s.controller.holds i ≤ _
      rw [requests]
      exact Nat.add_le_add_right (Nat.zero_le _) _
    refine ⟨fun hready => (after hready).elim, fun hsilent i hi => ?_, fun i hi request hin => ?_,
      fun _ hready => (after hready).elim⟩
    · have hzero := hmore.quiet hsilent i hi
      have hless := hholds i
      exact Nat.le_zero.mp (Nat.le_trans hless (Nat.le_of_eq hzero))
    · refine hmore.sound i hi request (List.mem_append_right _ ?_)
      rw [show ({ s with owner := m', drawn := s.drawn ++ action.drawn } : System).owner.requests = [] from requests,
        List.nil_append] at hin
      exact hin

theorem ready_cases (settings : ServerSettings) (m : ServerRuntime) (runtimeId : String) (stamps : String → Nat) (now : Nat) :
    m.acceptResponse settings .ready (some runtimeId) stamps now = m ∨
      ∃ restart, m.acceptResponse settings .ready (some runtimeId) stamps now
        = { m with state := .ready, restart := restart } ∧ restart.map (fun r => r.1.commandId) = m.restartId := by
  unfold ServerRuntime.acceptResponse
  split
  · exact .inl rfl
  · show m.acceptReady = m ∨ ∃ restart, m.acceptReady = _ ∧ _
    unfold ServerRuntime.acceptReady
    split
    · exact .inl rfl
    · refine .inr ⟨_, rfl, ?_⟩
      rw [Option.map_map]
      rfl

/-- The report of a controller that it is ready comes before any command. -/
theorem Linked.announce (h : s.Linked) (hd : s.owner.Drained) (hsilent : s.announced = false) (stamps : String → Nat)
    (now : Nat) :
    ({ s with
        owner := s.owner.acceptResponse settings .ready (some s.owner.runtimeId) stamps now
        announced := true } : System).Linked := by
  have hunready : s.owner.state ≠ .ready := by
    intro hready
    have hannounced := h.announced hready
    rw [hsilent] at hannounced
    cases hannounced
  rcases ready_cases settings s.owner s.owner.runtimeId stamps now with hsame | ⟨restart, hready, howner⟩
  · rw [hsame]
    refine ⟨fun _ => rfl, fun hloud => ?_, h.sound, fun _ hready => (hunready hready).elim⟩
    cases hloud
  · rw [hready]
    refine ⟨fun _ => rfl, fun hloud => ?_, h.sound, fun hfree _ i hi => ?_⟩
    · cases hloud
    have hzero : s.holds i = 0 := h.quiet hsilent i hi
    refine ⟨?_, fun hpositive => ?_, fun _ hwaits hother => ?_⟩
    · exact Nat.le_trans (Nat.le_of_eq hzero) (Nat.zero_le _)
    · exact absurd hzero (Nat.ne_of_gt hpositive)
    · exact (hother (howner.trans (hd hfree hunready i hwaits))).elim

theorem outcome_cases (settings : ServerSettings) (m : ServerRuntime) (o : ControllerOutcome) (stamps : String → Nat)
    (now : Nat) :
    m.state = .closed ∧ m.acceptResponse settings (.outcome o) (some m.runtimeId) stamps now = m ∨
      m.acceptResponse settings (.outcome o) (some m.runtimeId) stamps now
        = m.acceptCommandResponse settings o.response (stamps o.response.commandId) now := by
  unfold ServerRuntime.acceptResponse
  split
  · rename_i hstale
    rw [ServerRuntime.stale, Option.any_some, bne_self_eq_false, Bool.or_false] at hstale
    exact .inl ⟨beq_iff_eq.mp hstale, rfl⟩
  · exact .inr rfl

/-- A reply settles its command as it leaves the channel. -/
theorem Linked.collectOutcome (h : s.Linked) (hk : s.owner.Kept settings) {o : ControllerOutcome} {rest : List ControllerReply}
    (hresponses : s.controller.responses = .outcome o :: rest) (stamps : String → Nat) (now : Nat) :
    ({ s with
        owner := s.owner.acceptResponse settings (.outcome o) (some s.owner.runtimeId) stamps now
        controller := { s.controller with responses := rest } } : System).Linked := by
  have hholds : ∀ i, s.holds i = ({ s with controller := { s.controller with responses := rest } } : System).holds i
      + [ControllerReply.outcome o].countP (ControllerReply.answers i) := by
    intro i
    have hfirst : (ControllerReply.outcome o :: rest).countP (ControllerReply.answers i)
        = [ControllerReply.outcome o].countP (ControllerReply.answers i) + rest.countP (ControllerReply.answers i) := by
      show ([ControllerReply.outcome o] ++ rest).countP _ = _
      exact List.countP_append
    unfold holds Controller.holds
    rw [hresponses, hfirst]
    show _ = _ + ((s.controller.incoming.flatMap Controller.commandIds).count i + s.controller.active.countP (Job.bears i)
      + s.controller.waiting.countP (Job.bears i) + _ + _ + _) + _
    dsimp only
    omega
  rcases outcome_cases settings s.owner o stamps now with ⟨hclosed, hsame⟩ | haccepted
  · have hunready : s.owner.state ≠ .ready := by
      rw [hclosed]
      decide
    rw [hsame]
    refine ⟨fun hready => (hunready hready).elim, fun hsilent i hi => ?_, h.sound, fun _ hready => (hunready hready).elim⟩
    have hzero := h.quiet hsilent i hi
    rw [hholds] at hzero
    exact (Nat.add_eq_zero_iff.mp hzero).1
  · rw [haccepted]
    have hsettles := ServerRuntime.acceptCommandResponse_settles hk o.response (stamps o.response.commandId) now
    generalize s.owner.acceptCommandResponse settings o.response (stamps o.response.commandId) now = last at hsettles
    have hqueued := hsettles.queued
    have hstate := hsettles.inner.state
    have hlater : ∀ i, ({ s with owner := last, controller := { s.controller with responses := rest } } : System).holds i
        = ({ s with controller := { s.controller with responses := rest } } : System).holds i := by
      intro i
      show (last.requests.flatMap _).count i + _ = _
      rw [hqueued.requests, List.append_nil]
      rfl
    refine ⟨fun hready => h.announced (hstate ▸ hready), fun hsilent i hi => ?_, fun i hi request hin => ?_,
      fun hfree hready i hi => ?_⟩
    · have hzero := h.quiet hsilent i hi
      rw [hholds] at hzero
      rw [hlater]
      exact (Nat.add_eq_zero_iff.mp hzero).1
    · refine h.sound i hi request ?_
      have hrequests : last.requests = s.owner.requests := hqueued.requests.trans (List.append_nil _)
      rw [← hrequests]
      exact hin
    · have hold := h.tracked (hqueued.blocked hfree) (hstate ▸ hready) i hi
      have hcount := hholds i
      have hsame := hlater i
      by_cases hi' : i = o.response.commandId
      · have hone : [ControllerReply.outcome o].countP (ControllerReply.answers i) = 1 := by
          rw [List.countP_singleton]
          exact if_pos (beq_iff_eq.mpr hi'.symm)
        have honce := hold.once
        have hgone : last.awaited i = false := by
          rw [hsettles.awaited, hi', bne_self_eq_false, Bool.and_false]
        refine ⟨by omega, fun hpositive => ?_, fun _ hwaits _ => ?_⟩
        · omega
        · exact (Bool.false_ne_true (hgone.symm.trans hwaits)).elim
      · have hnone : [ControllerReply.outcome o].countP (ControllerReply.answers i) = 0 := by
          rw [List.countP_singleton]
          exact if_neg fun heq => hi' (beq_iff_eq.mp heq).symm
        have hstays : last.awaited i = s.owner.awaited i := by
          rw [hsettles.awaited, bne_iff_ne.mpr hi', Bool.and_true]
        have hequal : ({ s with owner := last, controller := { s.controller with responses := rest } } : System).holds i
            = s.holds i := by omega
        refine ⟨hequal ▸ hold.once, fun hpositive => ?_, fun hcontroller hwaits hother => ?_⟩
        · show last.awaited i = true ∧ last.restartId ≠ some i
          rw [hstays, hqueued.owner]
          exact hold.waits (hequal ▸ hpositive)
        · rw [hequal]
          exact hold.held hcontroller (hstays ▸ hwaits) (hqueued.owner ▸ hother)

end System

end ModularPipelines.Server
