import Mathlib.Data.List.Basic

namespace ModularPipelines.Library

/-- A stream connection whose far end answers frames in the order they arrive.
A reply travels with the frame it answers; the near end reads only the reply. A
closed connection has no frame left to answer. -/
structure Link (Frame Reply : Type) where
  requests : List Frame
  replies : List (Frame × Reply)
  closed : Bool
  quiet : closed = true → requests = []
  deriving DecidableEq

namespace Link
variable {Frame Reply : Type}

def fresh : Link Frame Reply := ⟨[], [], false, nofun⟩

/-- A frame sent into a closed connection reaches nobody. -/
def send (l : Link Frame Reply) (frame : Frame) : Link Frame Reply :=
  if h : l.closed = true then l else ⟨l.requests ++ [frame], l.replies, l.closed, fun hc => (h hc).elim⟩

def answer (l : Link Frame Reply) (reply : Reply) : Option ((Frame × Reply) × Link Frame Reply) :=
  match h : l.requests with
  | [] => none
  | frame :: rest =>
    some ((frame, reply), ⟨rest, l.replies ++ [(frame, reply)], l.closed, fun hc => by simp [l.quiet hc] at h⟩)

def receive (l : Link Frame Reply) : Option ((Frame × Reply) × Link Frame Reply) :=
  match l.replies with
  | [] => none
  | answer :: rest => some (answer, { l with replies := rest })

/-- Replies that were written before the far end left can still be read. -/
def hangUp (l : Link Frame Reply) : Link Frame Reply := ⟨[], l.replies, true, fun _ => rfl⟩

/-- Frames whose reply the near end has not read, oldest first. -/
def outstanding (l : Link Frame Reply) : List Frame := l.replies.map Prod.fst ++ l.requests

@[simp] theorem outstanding_fresh : (fresh : Link Frame Reply).outstanding = [] := rfl

@[simp] theorem replies_send (l : Link Frame Reply) (frame : Frame) : (l.send frame).replies = l.replies := by
  unfold send
  split <;> rfl

theorem mem_outstanding_send {l : Link Frame Reply} {frame f : Frame} (h : f ∈ (l.send frame).outstanding) :
    f ∈ l.outstanding ∨ f = frame := by
  unfold send at h
  split at h
  · exact .inl h
  · simp only [outstanding, List.mem_append, List.mem_singleton] at h ⊢
    tauto

theorem mem_outstanding_hangUp {l : Link Frame Reply} {f : Frame} (h : f ∈ l.hangUp.outstanding) :
    f ∈ l.outstanding := by
  simp only [outstanding, hangUp, List.append_nil] at h
  exact List.mem_append_left _ h

theorem answer_eq {l l' : Link Frame Reply} {reply : Reply} {a : Frame × Reply}
    (h : l.answer reply = some (a, l')) :
    a.2 = reply ∧ l'.replies = l.replies ++ [a] ∧ l'.outstanding = l.outstanding := by
  unfold answer at h
  split at h
  · cases h
  · rename_i frame rest hr
    simp only [Option.some.injEq, Prod.mk.injEq] at h
    obtain ⟨rfl, rfl⟩ := h
    simp [outstanding, hr]

theorem receive_eq {l l' : Link Frame Reply} {a : Frame × Reply} (h : l.receive = some (a, l')) :
    a ∈ l.replies ∧ l.outstanding = a.1 :: l'.outstanding ∧ ∀ b ∈ l'.replies, b ∈ l.replies := by
  unfold receive at h
  split at h
  · cases h
  · rename_i b rest hr
    simp only [Option.some.injEq, Prod.mk.injEq] at h
    obtain ⟨rfl, rfl⟩ := h
    refine ⟨hr ▸ List.mem_cons_self, by simp [outstanding, hr], ?_⟩
    intro c hc
    exact hr ▸ List.mem_cons_of_mem _ hc

/-- A frame sent behind others leaves the oldest of them first in line. -/
theorem head_of_send {l : Link Frame Reply} (frame : Frame) (h : l.outstanding ≠ []) :
    (∃ a rest, (l.send frame).replies = a :: rest ∧ a ∈ l.replies) ∨
    (l.replies = [] ∧ ∃ f rest, (l.send frame).requests = f :: rest ∧ f ∈ l.outstanding) := by
  cases hr : l.replies with
  | cons a rest => exact .inl ⟨a, rest, by simp [hr], List.mem_cons_self⟩
  | nil =>
    cases hq : l.requests with
    | nil => simp [outstanding, hr, hq] at h
    | cons f rest =>
      have hopen : ¬ l.closed = true := fun hc => by simp [l.quiet hc] at hq
      exact .inr ⟨rfl, f, rest ++ [frame], by simp [send, hopen, hq], by simp [outstanding, hr, hq]⟩

theorem receive_of_replies {l : Link Frame Reply} {a : Frame × Reply} {rest : List (Frame × Reply)}
    (h : l.replies = a :: rest) : ∃ l', l.receive = some (a, l') := by
  unfold receive
  rw [h]
  exact ⟨_, rfl⟩

theorem answer_of_requests {l : Link Frame Reply} {f : Frame} {rest : List Frame} (reply : Reply)
    (h : l.requests = f :: rest) : ∃ l', l.answer reply = some ((f, reply), l') := by
  unfold answer
  split
  · simp_all
  · rename_i g more hq
    obtain ⟨rfl, -⟩ := List.cons.inj (h.symm.trans hq)
    exact ⟨_, rfl⟩

end Link

end ModularPipelines.Library
