import ModularPipelines.Server.Delivery
import ModularPipelines.Server.Enqueued
import Mathlib.Data.List.Induction

namespace ModularPipelines.Server
open Library

def ReceiptEvent.evicts (i : String) : ReceiptEvent → Bool
  | .enqueued _ _ => false
  | .evicted j => j == i

theorem EnqueuedOnce.before {history : List ReceiptEvent} {event : ReceiptEvent} (h : EnqueuedOnce (history ++ [event])) :
    EnqueuedOnce history := by
  intro before between after i runtimeId runtimeId' heq
  refine h before between (after ++ [event]) i runtimeId runtimeId' ?_
  rw [heq, List.append_assoc]
  rfl

theorem EnqueuedSince.append {history : List ReceiptEvent} {event : ReceiptEvent} {i : String}
    (h : EnqueuedSince history i) (hstays : event ≠ .evicted i) : EnqueuedSince (history ++ [event]) i := by
  obtain ⟨before, after, runtimeId, rfl, hafter⟩ := h
  refine ⟨before, after ++ [event], runtimeId, List.append_assoc .., fun hin => ?_⟩
  rcases List.mem_append.mp hin with hold | hnew
  · exact hafter hold
  · exact hstays (List.mem_singleton.mp hnew).symm

/-- Each time that a command is given to a controller again, its receipt has been evicted before. -/
theorem EnqueuedOnce.count {history : List ReceiptEvent} (h : EnqueuedOnce history) (i : String) :
    history.countP (ReceiptEvent.sends i) ≤ history.countP (ReceiptEvent.evicts i) + 1 ∧
      (¬ EnqueuedSince history i → history.countP (ReceiptEvent.sends i) ≤ history.countP (ReceiptEvent.evicts i)) := by
  induction history using List.reverseRecOn with
  | nil => exact ⟨Nat.zero_le _, fun _ => Nat.le_refl _⟩
  | append_singleton history event ih =>
    obtain ⟨hall, hfree⟩ := ih h.before
    simp only [List.countP_append, List.countP_singleton]
    cases event with
    | evicted j =>
      have hsends : (ReceiptEvent.evicted j).sends i = false := rfl
      rw [hsends, if_neg Bool.false_ne_true]
      refine ⟨by omega, fun hnot => ?_⟩
      by_cases hj : j = i
      · have hevicts : (ReceiptEvent.evicted j).evicts i = true := beq_iff_eq.mpr hj
        rw [hevicts, if_pos rfl]
        omega
      · have hstays : ReceiptEvent.evicted j ≠ .evicted i := fun heq => hj (ReceiptEvent.evicted.inj heq)
        have hless := hfree fun hsince => hnot (hsince.append hstays)
        omega
    | enqueued runtimeId j =>
      have hevicts : (ReceiptEvent.enqueued runtimeId j).evicts i = false := rfl
      rw [hevicts, if_neg Bool.false_ne_true]
      by_cases hj : j = i
      · subst hj
        have hbefore : ¬ EnqueuedSince history j := by
          intro hsince
          obtain ⟨before, after, other, rfl, hafter⟩ := hsince
          exact hafter (h before after [] j other runtimeId rfl)
        have hsends : (ReceiptEvent.enqueued runtimeId j).sends j = true := beq_self_eq_true j
        rw [hsends, if_pos rfl]
        have hless := hfree hbefore
        refine ⟨by omega, fun hnot => ?_⟩
        exact (hnot ⟨history, [], runtimeId, rfl, List.not_mem_nil⟩).elim
      · have hsends : (ReceiptEvent.enqueued runtimeId j).sends i = false := beq_eq_false_iff_ne.mpr hj
        rw [hsends, if_neg Bool.false_ne_true]
        refine ⟨by omega, fun hnot => ?_⟩
        have hless := hfree fun hsince => hnot (hsince.append fun heq => by cases heq)
        omega

namespace System

variable {settings : ServerSettings} {fingerprint : Json → String} {s s' : System} {event : Event} {i : String}

/-- A command has begun, is known, or is on its way to a controller no more often than the owner has sent it. -/
def Sent (s : System) : Prop :=
  ∀ i, i ∉ s.drawn → s.begun.count i + s.controller.controls.countP (Job.bears i)
    + (s.controller.incoming.flatMap Controller.commandIds).count i
    + (s.owner.requests.flatMap Controller.commandIds).count i ≤ s.owner.sent i

theorem moves_sends {m m' : ServerRuntime} {action : ServerRuntime.Action} (hm : m.Moves action m') (hi : i ∉ action.drawn) :
    (m'.requests.flatMap Controller.commandIds).count i + m.sent i
      ≤ (m.requests.flatMap Controller.commandIds).count i + m'.sent i := by
  cases hm with
  | kept added queued unsubmitted _ _ _ =>
    rw [queued.requests, queued.sent, List.flatMap_append, List.count_append, unsubmitted_count unsubmitted hi]
    exact Nat.le_refl _
  | readied _ queued _ _ =>
    rw [queued.requests, queued.sent, List.append_nil]
  | accepted submission _ _ _ _ requests _ _ _ _ _ sent _ =>
    rw [requests, sent, List.flatMap_append, List.count_append]
    show _ + (submission.identifiers ++ []).count i + _ ≤ _
    rw [List.append_nil]
    omega
  | owned j requests _ _ _ _ _ sent _ =>
    rw [requests, sent]
  | settled o _ queued _ _ =>
    rw [queued.requests, queued.sent, List.append_nil]
  | ended j requests _ _ _ _ sent _ =>
    rw [requests, sent]
  | lost queued _ _ =>
    rw [queued.requests, queued.sent, List.append_nil]
  | started requests _ _ _ _ sent _ =>
    rw [requests, sent]
    exact Nat.add_le_add_right (Nat.zero_le _) _

theorem Sent.act (h : s.Sent) {m' : ServerRuntime} {action : ServerRuntime.Action} (hm : s.owner.Moves action m') :
    ({ s with owner := m', drawn := s.drawn ++ action.drawn } : System).Sent := by
  intro i hi
  have hold := h i fun hin => hi (List.mem_append_left _ hin)
  have hsends := moves_sends hm fun hin => hi (List.mem_append_right _ hin)
  show _ + _ + _ + (m'.requests.flatMap Controller.commandIds).count i ≤ m'.sent i
  dsimp only
  omega

theorem Sent.reply (h : s.Sent) (hk : s.owner.Kept settings) (message : ControllerMessage) (stamps : String → Nat)
    (now : Nat) :
    ({ s with owner := s.owner.acceptResponse settings message (some s.owner.runtimeId) stamps now } : System).Sent := by
  have hact := h.act (ServerRuntime.acceptResponse_moves hk message s.owner.runtimeId stamps now)
  intro i hi
  refine hact i fun hin => ?_
  rcases List.mem_append.mp hin with hold | hnew
  · exact hi hold
  · cases hnew

theorem Sent.take (h : s.Sent) {request : Request} {rest : List Request} (hrequests : s.owner.requests = request :: rest) :
    ({ s with
        owner := { s.owner with requests := rest }
        controller := s.controller.deliver request } : System).Sent := by
  intro i hi
  have hold := h i hi
  rw [hrequests, List.flatMap_cons, List.count_append] at hold
  show s.begun.count i + s.controller.controls.countP (Job.bears i)
    + ((s.controller.incoming ++ [request]).flatMap Controller.commandIds).count i
    + (rest.flatMap Controller.commandIds).count i ≤ s.owner.sent i
  rw [List.flatMap_append, List.count_append]
  show _ + _ + (_ + (Controller.commandIds request ++ []).count i) + _ ≤ _
  rw [List.append_nil]
  omega

theorem Sent.work (h : s.Sent) (hl : s.Linked) {action : Controller.Action} {c : Controller}
    (hc : s.controller.step action = some c) : ({ s with controller := c } : System).Sent := by
  intro i hi
  have hold := h i hi
  show s.begun.count i + c.controls.countP (Job.bears i) + (c.incoming.flatMap Controller.commandIds).count i + _ ≤ _
  rcases Controller.step_controls hc with ⟨hincoming, hcontrols⟩ | ⟨request, rest, hbefore, hafter, hcontrols⟩
  · rw [hincoming, hcontrols]
    exact hold
  · have hsound : request.Sound i := by
      refine hl.sound i hi request (List.mem_append_right _ ?_)
      rw [hbefore]
      exact List.mem_cons_self ..
    have hmore := hcontrols i hsound
    rw [hbefore, List.flatMap_cons, List.count_append] at hold
    rw [hafter]
    dsimp only
    omega

theorem began_le (h : s.controller.Reachable) (i : String) :
    (began s.controller).count i ≤ s.controller.controls.countP (Job.bears i) := by
  have hstarted : s.controller.started.Sublist s.controller.controls :=
    ((List.sublist_append_left _ _).trans (List.sublist_append_left _ _)).trans h.ordered.order
  rw [began, Controller.jobs_count]
  exact hstarted.countP_le

theorem Sent.replace (h : s.Sent) (hc : s.controller.Reachable) {m : ServerRuntime} (hrequests : m.requests = [])
    (hhistory : m.history = s.owner.history) :
    ({ s with owner := m, controller := .new, announced := false, begun := s.begun ++ began s.controller } : System).Sent := by
  intro i hi
  have hold := h i hi
  have hbegan := began_le hc i
  have hsent : m.sent i = s.owner.sent i := by
    rw [ServerRuntime.sent, hhistory]
    rfl
  show (s.begun ++ began s.controller).count i + 0 + 0 + (m.requests.flatMap Controller.commandIds).count i ≤ m.sent i
  rw [List.count_append, hrequests, hsent]
  show _ + _ + 0 + 0 + 0 ≤ _
  omega

theorem Reachable.sent (h : Reachable settings fingerprint s) : s.Sent := by
  induction h with
  | start instanceId runtimeId mode stopHttp => exact fun i _ => Nat.le_refl 0
  | step hbefore hnext ih =>
    have howner := hbefore.owner
    cases step_steps hnext with
    | act own stepped => exact ih.act (ServerRuntime.step_moves howner.kept howner.phased (own_takes own) stepped)
    | take requests _ => exact ih.take requests
    | announce _ stamps now => exact ih.reply howner.kept .ready stamps now
    | work _ stepped => exact ih.work hbefore.linked stepped
    | @collect reply rest _ stamps now => exact ih.reply howner.kept reply.message stamps now
    | replace _ requests _ history => exact ih.replace hbefore.controller requests history

/-- Over all controllers of a run, the operation of a command begins no more often than the owner has sent the
command, and at most once more than its receipt has been evicted. -/
theorem begins_once (h : Reachable settings fingerprint s) (hi : i ∉ s.drawn) :
    (s.begun ++ began s.controller).count i ≤ s.owner.sent i ∧
      (s.begun ++ began s.controller).count i ≤ s.owner.history.countP (ReceiptEvent.evicts i) + 1 := by
  have hsent := h.sent i hi
  have hbegan := began_le h.controller i
  have hless : (s.begun ++ began s.controller).count i ≤ s.owner.sent i := by
    rw [List.count_append]
    omega
  exact ⟨hless, Nat.le_trans hless (h.owner.recounted.once.count i).1⟩

theorem begins_once_resume : ∃ s, (init "server" "runtime" .run false).run ServerRuntime.smallSettings Json.dumps resuming
    = some s ∧ began s.controller = ["resume-1"] ∧
      (s.begun ++ began s.controller).count "resume-1" ≤ s.owner.sent "resume-1" := by
  have hrun : ((init "server" "runtime" .run false).run ServerRuntime.smallSettings Json.dumps resuming).map
      (fun s => (s.drawn, began s.controller)) = some ([], ["resume-1"]) := by decide +kernel
  obtain ⟨s, hs, hfacts⟩ := Option.map_eq_some_iff.mp hrun
  obtain ⟨hdrawn, hbegan⟩ := Prod.mk.inj hfacts
  have hreached : Reachable ServerRuntime.smallSettings Json.dumps s :=
    (Reachable.start "server" "runtime" .run false).run hs
  have hundrawn : "resume-1" ∉ s.drawn := by
    rw [hdrawn]
    exact List.not_mem_nil
  exact ⟨s, hs, hbegan, (begins_once hreached hundrawn).1⟩

end System

end ModularPipelines.Server
