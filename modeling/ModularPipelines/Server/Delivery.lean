import ModularPipelines.Server.System

namespace ModularPipelines.Server
open Library

namespace System

variable {settings : ServerSettings} {fingerprint : Json → String} {s s' : System} {event : Event} {i : String}

/-- The owner of a run is one of a run of the owner alone. -/
theorem Reachable.owner (h : Reachable settings fingerprint s) :
    ServerRuntime.Reachable settings fingerprint (fun _ _ => True) s.owner := by
  induction h with
  | start instanceId runtimeId mode stopHttp => exact .start instanceId runtimeId mode stopHttp
  | @step s s' event _ hnext ih =>
    have hreplied : ∀ message stamps now, ServerRuntime.Reachable settings fingerprint (fun _ _ => True)
        (s.owner.acceptResponse settings message (some s.owner.runtimeId) stamps now) := by
      intro message stamps now
      have hs : s.owner.step settings fingerprint (.reply message s.owner.runtimeId stamps now) = some _ := rfl
      exact ih.step trivial hs
    cases step_steps hnext with
    | act _ stepped => exact ih.step trivial stepped
    | take _ stepped => exact ih.step trivial stepped
    | announce _ stamps now => exact hreplied .ready stamps now
    | work _ _ => exact ih
    | @collect reply _ _ stamps now => exact hreplied reply.message stamps now
    | replace stepped _ _ _ => exact ih.step trivial stepped

theorem Reachable.controller (h : Reachable settings fingerprint s) : s.controller.Reachable := by
  induction h with
  | start => exact .start
  | @step s s' event _ hnext ih =>
    cases step_steps hnext with
    | act _ _ => exact ih
    | take _ _ => exact ih.deliver _
    | announce _ _ _ => exact ih
    | work _ stepped => exact ih.step stepped
    | @collect reply rest responses _ _ =>
      have htaken : s.controller.collect = some (reply, { s.controller with responses := rest }) := by
        unfold Controller.collect
        rw [responses]
      exact ih.collect htaken
    | replace _ _ _ _ => exact .start

theorem Linked.init (instanceId runtimeId : String) (mode : ServerMode) (stopHttp : Bool) :
    (init instanceId runtimeId mode stopHttp).Linked := by
  refine ⟨fun hready => ?_, fun _ i _ => rfl, fun i _ request hin => ?_, fun _ hready => ?_⟩
  · cases hready
  · cases hin
  · cases hready

/-- The owner puts a request into the hands of the controller. -/
theorem Linked.take (h : s.Linked) {request : Request} {rest : List Request}
    (hrequests : s.owner.requests = request :: rest) :
    ({ s with
        owner := { s.owner with requests := rest }
        controller := s.controller.deliver request } : System).Linked := by
  have hsame : ∀ i, ({ s with
      owner := { s.owner with requests := rest }
      controller := s.controller.deliver request } : System).holds i = s.holds i := by
    intro i
    have harrived : (s.controller.deliver request).holds i
        = s.controller.holds i + (Controller.commandIds request).count i := by
      unfold Controller.holds Controller.deliver
      dsimp only
      rw [List.flatMap_append, List.count_append]
      show _ + (Controller.commandIds request ++ []).count i + s.controller.active.countP _
        + s.controller.waiting.countP _ + _ + _ + _ = _
      rw [List.append_nil]
      omega
    show (rest.flatMap Controller.commandIds).count i + (s.controller.deliver request).holds i = _
    rw [harrived, holds, hrequests, List.flatMap_cons, List.count_append]
    omega
  refine h.carried rfl rfl (fun _ => rfl) rfl rfl rfl (fun i _ => Nat.le_of_eq (hsame i))
    (fun hopen => ⟨hopen, fun i _ => hsame i⟩) fun other hin => ?_
  rw [hrequests]
  rcases List.mem_append.mp hin with hqueued | harrived
  · exact List.mem_append_left _ (List.mem_cons_of_mem _ hqueued)
  · rcases List.mem_append.mp harrived with hold | hnew
    · exact List.mem_append_right _ hold
    · obtain rfl := List.mem_singleton.mp hnew
      exact List.mem_append_left _ (List.mem_cons_self ..)

theorem Linked.work (h : s.Linked) (ht : s.controller.Truthful) {action : Controller.Action} {c : Controller}
    (hc : s.controller.step action = some c) : ({ s with controller := c } : System).Linked := by
  have hstep : ∀ i, i ∉ s.drawn → c.holds i ≤ s.controller.holds i ∧ (c.closing = false → c.holds i = s.controller.holds i) :=
    fun i hi => Controller.step_holds ht (fun request hin => h.sound i hi request (List.mem_append_right _ hin)) hc
  refine h.carried rfl rfl (fun _ => rfl) rfl rfl rfl (fun i hi => Nat.add_le_add_left (hstep i hi).1 _)
    (fun hopen => ⟨Controller.step_open hc, fun i hi => congrArg _ ((hstep i hi).2 hopen)⟩) fun request hin => ?_
  rcases List.mem_append.mp hin with hqueued | harrived
  · exact List.mem_append_left _ hqueued
  · refine List.mem_append_right _ ?_
    rcases Controller.step_controls hc with ⟨hincoming, -⟩ | ⟨first, rest, hbefore, hafter, -⟩
    · exact hincoming ▸ harrived
    · rw [hbefore]
      exact List.mem_cons_of_mem _ (hafter ▸ harrived)

/-- A rejection without an ID makes the owner give its controller up. -/
theorem Linked.collectRejection (h : s.Linked) (hk : s.owner.Kept settings) {text : String} {rest : List ControllerReply}
    (hresponses : s.controller.responses = .rejection text :: rest) (stamps : String → Nat) (now : Nat) :
    ({ s with
        owner := s.owner.acceptResponse settings (.invalid text) (some s.owner.runtimeId) stamps now
        controller := { s.controller with responses := rest } } : System).Linked := by
  have hsame : ∀ i, ({ s with controller := { s.controller with responses := rest } } : System).holds i = s.holds i := by
    intro i
    have hfirst : (ControllerReply.rejection text :: rest).countP (ControllerReply.answers i)
        = rest.countP (ControllerReply.answers i) := List.countP_cons_of_neg Bool.false_ne_true
    unfold holds Controller.holds
    rw [hresponses, hfirst]
    rfl
  have hcollected : ({ s with controller := { s.controller with responses := rest } } : System).Linked :=
    h.carried rfl rfl (fun _ => rfl) rfl rfl rfl (fun i _ => Nat.le_of_eq (hsame i))
      (fun hopen => ⟨hopen, fun i _ => hsame i⟩) fun request hin => hin
  have hact := hcollected.act (ServerRuntime.acceptResponse_moves hk (.invalid text) s.owner.runtimeId stamps now) rfl
  have hdrawn : s.drawn ++ ServerRuntime.Action.drawn (.reply (.invalid text) s.owner.runtimeId stamps now) = s.drawn :=
    List.append_nil _
  dsimp only at hact
  rw [hdrawn] at hact
  exact hact

/-- A new controller starts with nothing to do. -/
theorem Linked.replace {m : ServerRuntime} (hrequests : m.requests = []) (hstate : m.state = .starting)
    (begun : List String) :
    ({ s with owner := m, controller := .new, announced := false, begun := begun } : System).Linked := by
  have hunready : m.state ≠ .ready := by
    rw [hstate]
    decide
  refine ⟨fun hready => (hunready hready).elim, fun _ i _ => ?_, fun i _ request hin => ?_,
    fun _ hready => (hunready hready).elim⟩
  · show (m.requests.flatMap Controller.commandIds).count i + Controller.new.holds i = 0
    rw [hrequests]
    rfl
  · change request ∈ m.requests ++ [] at hin
    rw [hrequests] at hin
    cases hin

theorem own_takes {m : ServerRuntime} {action : ServerRuntime.Action} (hown : action.own m = true) : action ≠ .take := by
  rintro rfl
  cases hown

theorem step_linked (h : s.Linked) (hk : s.owner.Kept settings) (hp : s.owner.Phased) (hd : s.owner.Drained)
    (ht : s.controller.Truthful) (hs : s.step settings fingerprint event = some s') : s'.Linked := by
  cases step_steps hs with
  | act own stepped => exact h.act (ServerRuntime.step_moves hk hp (own_takes own) stepped) own
  | take requests _ => exact h.take requests
  | announce silent stamps now => exact h.announce hd silent stamps now
  | work _ stepped => exact h.work ht stepped
  | @collect reply rest responses stamps now =>
    cases reply with
    | outcome o => exact h.collectOutcome hk responses stamps now
    | rejection text => exact h.collectRejection hk responses stamps now
  | replace _ requests state _ => exact .replace requests state _

theorem Reachable.linked (h : Reachable settings fingerprint s) : s.Linked := by
  induction h with
  | start instanceId runtimeId mode stopHttp => exact .init instanceId runtimeId mode stopHttp
  | step hbefore hnext ih =>
    have howner := hbefore.owner
    exact step_linked ih howner.kept howner.phased howner.drained hbefore.controller.truthful hnext

/-- Unless the closing of a controller has failed, no command is lost or duplicated on its way: only a ready runtime
has commands without an outcome, besides the owner's own; as long as the controller lives and is not closing, such a command
is in exactly one place between the queue and the replies, and what is in one of these places still waits. -/
theorem delivered_once (h : Reachable settings fingerprint s) (hfree : s.owner.restartBlocked = none) (hi : i ∉ s.drawn) :
    (s.owner.state ≠ .ready → s.owner.awaited i = true → s.owner.restartId = some i) ∧
      (s.owner.state = .ready → s.holds i ≤ 1 ∧
        (0 < s.holds i → s.owner.awaited i = true ∧ s.owner.restartId ≠ some i)) ∧
      (s.owner.alive = true → s.controller.closing = false → s.owner.awaited i = true → s.owner.restartId ≠ some i →
        s.holds i = 1) := by
  have hdrained := h.owner.drained
  have hlinked := h.linked
  refine ⟨fun hunready => hdrained hfree hunready i, fun hready => ?_, fun _ hopen hwaits hother => ?_⟩
  · have htracked := hlinked.tracked hfree hready i hi
    exact ⟨htracked.once, htracked.waits⟩
  · by_cases hready : s.owner.state = .ready
    · exact (hlinked.tracked hfree hready i hi).held hopen hwaits hother
    · exact (hother (hdrained hfree hready i hwaits)).elim

/-- Events one after another. -/
def run (settings : ServerSettings) (fingerprint : Json → String) (s : System) (events : List Event) : Option System :=
  events.foldlM (fun s event => s.step settings fingerprint event) s

theorem Reachable.run (h : Reachable settings fingerprint s) {events : List Event}
    (hrun : s.run settings fingerprint events = some s') : Reachable settings fingerprint s' := by
  induction events generalizing s with
  | nil =>
    obtain rfl := Option.some.inj hrun
    exact h
  | cons event rest ih =>
    obtain ⟨next, hnext, hrest⟩ := Option.bind_eq_some_iff.mp hrun
    exact ih (h.step hnext) hrest

/-- A ready server gives a command to its controller, which begins it. -/
def resuming : List Event :=
  [.act .start, .announce (fun _ => 0) 0,
    .act (.submit (.ok (.single ServerRuntime.resumeCommand)) (fun _ => 1) (fun _ => "now")),
    .take, .work .receive, .work .wake, .work .begin]

theorem delivered_once_resume : ∃ s, (init "server" "runtime" .run false).run ServerRuntime.smallSettings Json.dumps resuming
    = some s ∧ s.owner.awaited "resume-1" = true ∧ s.holds "resume-1" = 1 := by
  have hrun : ((init "server" "runtime" .run false).run ServerRuntime.smallSettings Json.dumps resuming).map
      (fun s => (s.owner.restartBlocked.isNone, s.drawn, s.owner.alive, s.controller.closing, s.owner.awaited "resume-1",
        s.owner.restartId.isNone)) = some (true, [], true, false, true, true) := by decide +kernel
  obtain ⟨s, hs, hfacts⟩ := Option.map_eq_some_iff.mp hrun
  obtain ⟨hfree, hfacts⟩ := Prod.mk.inj hfacts
  obtain ⟨hdrawn, hfacts⟩ := Prod.mk.inj hfacts
  obtain ⟨halive, hfacts⟩ := Prod.mk.inj hfacts
  obtain ⟨hopen, hfacts⟩ := Prod.mk.inj hfacts
  obtain ⟨hwaits, hidle⟩ := Prod.mk.inj hfacts
  have hreached : Reachable ServerRuntime.smallSettings Json.dumps s :=
    (Reachable.start "server" "runtime" .run false).run hs
  have hundrawn : "resume-1" ∉ s.drawn := by
    rw [hdrawn]
    exact List.not_mem_nil
  have hother : s.owner.restartId ≠ some "resume-1" := by
    rw [Option.isNone_iff_eq_none.mp hidle]
    exact fun heq => by cases heq
  have hdelivered := delivered_once hreached (Option.isNone_iff_eq_none.mp hfree) hundrawn
  exact ⟨s, hs, hwaits, hdelivered.2.2 halive hopen hwaits hother⟩

end System

end ModularPipelines.Server
