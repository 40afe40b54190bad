namespace ModularPipelines.Library

/-- An operation succeeds, fails, or takes effect and still reports an error. -/
inductive Fault (ε : Type) where
  | works
  | fails (error : ε)
  | misreports (error : ε)

/-- A procedure over a state that keeps what was done before an error. -/
abbrev Faulty (σ ε α : Type) := σ → σ × Except ε α

variable {σ ε α β : Type}

def Fault.error : Fault ε → Option ε
  | .works => none
  | .fails e => some e
  | .misreports e => some e

def Fault.effective : Fault ε → Bool
  | .fails _ => false
  | .works => true
  | .misreports _ => true

namespace Faulty

/-- An operation without an effect on the state. -/
def reads (fault : Fault ε) : Faulty σ ε Unit := fun s =>
  match fault.error with
  | none => (s, .ok ())
  | some e => (s, .error e)

/-- An operation with an effect, which may come although an error is reported. -/
def writes (fault : Fault ε) (effect : σ → σ) : Faulty σ ε Unit := fun s =>
  let s := if fault.effective then effect s else s
  match fault.error with
  | none => (s, .ok ())
  | some e => (s, .error e)

def andThen (x : Faulty σ ε α) (f : α → Faulty σ ε β) : Faulty σ ε β := fun s =>
  match x s with
  | (s, .ok a) => f a s
  | (s, .error e) => (s, .error e)

def result (r : Except ε α) : Faulty σ ε α := fun s => (s, r)

/-- What comes last, after a success only; an earlier error stays the error. -/
def cleaned (fault : Fault ε) (x : Faulty σ ε α) : Faulty σ ε α :=
  x.andThen fun a => (reads fault).andThen fun _ => result (.ok a)

/-- What holds of the state and the result that a procedure leaves. -/
def Ends (x : Faulty σ ε α) (s : σ) (post : σ → Except ε α → Prop) : Prop := post (x s).1 (x s).2

variable {x : Faulty σ ε α} {f : α → Faulty σ ε β} {s : σ} {fault : Fault ε}

theorem Ends.mono {post post' : σ → Except ε α → Prop} (h : x.Ends s post) (hpost : ∀ s r, post s r → post' s r) :
    x.Ends s post' :=
  hpost _ _ h

theorem ends_result {r : Except ε α} {post : σ → Except ε α → Prop} (h : post s r) :
    (result r : Faulty σ ε α).Ends s post :=
  h

theorem ends_andThen {post : σ → Except ε β → Prop}
    (h : x.Ends s fun s r => (∀ e, r = .error e → post s (.error e)) ∧ ∀ a, r = .ok a → (f a).Ends s post) :
    (x.andThen f).Ends s post := by
  obtain ⟨herror, hok⟩ := h
  unfold Ends andThen at *
  cases hx : x s with
  | mk s' r =>
    rw [hx] at herror hok
    cases r with
    | error e => exact herror e rfl
    | ok a => exact hok a rfl

theorem ends_reads {g : Unit → Faulty σ ε β} {post : σ → Except ε β → Prop} (herror : ∀ e, post s (.error e))
    (h : (g ()).Ends s post) : ((reads fault).andThen g).Ends s post := by
  unfold Ends andThen reads at *
  cases fault.error with
  | none => exact h
  | some e => exact herror e

theorem ends_writes {effect : σ → σ} {g : Unit → Faulty σ ε β} {post : σ → Except ε β → Prop}
    (hfails : ∀ e, post s (.error e)) (hmisreports : ∀ e, post (effect s) (.error e))
    (h : (g ()).Ends (effect s) post) : ((writes fault effect).andThen g).Ends s post := by
  unfold Ends andThen writes at *
  cases fault with
  | works => exact h
  | fails e => exact hfails e
  | misreports e => exact hmisreports e

theorem ends_cleaned {post : σ → Except ε α → Prop}
    (h : x.Ends s fun s r => post s r ∧ ∀ a, r = .ok a → ∀ e, post s (.error e)) :
    (cleaned fault x).Ends s post := by
  apply ends_andThen
  refine h.mono fun s r hr => ⟨?_, ?_⟩
  · rintro e rfl
    exact hr.1
  · rintro a rfl
    exact ends_reads (hr.2 a rfl) hr.1

@[simp] theorem reads_works (s : σ) : (reads (.works : Fault ε) : Faulty σ ε Unit) s = (s, .ok ()) := rfl

@[simp] theorem writes_works (effect : σ → σ) (s : σ) :
    (writes (.works : Fault ε) effect : Faulty σ ε Unit) s = (effect s, .ok ()) := rfl

end Faulty

end ModularPipelines.Library
