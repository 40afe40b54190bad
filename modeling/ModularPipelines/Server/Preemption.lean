import ModularPipelines.Server.ControllerOutcomes
import ModularPipelines.Server.StopAdmitted

namespace ModularPipelines.Server
open Library

/-- The task has been cancelled, or it is over. -/
def TaskPhase.interrupted : TaskPhase → Bool
  | .created cancelled => cancelled
  | .working cancelled => cancelled
  | .ended _ => true

namespace Controller

variable {m m' : Controller} {n : Nat} {begun old : List Job}

/-- The requests before one of them have been preempted: of their commands none begins any more. -/
structure Preempted (n : Nat) (begun old : List Job) (m : Controller) : Prop where
  received : n ≤ m.received
  controls : old ⊆ m.controls
  started : ∀ a ∈ m.started, a.request < n → a ∈ begun
  waiting : ∀ a ∈ m.waiting, n ≤ a.request
  current : ∀ job phase, m.current = some (job, phase) → job.request < n → phase.interrupted = true

theorem Preempted.framed (h : m.Preempted n begun old) (hreceived : m.received ≤ m'.received)
    (hcontrols : m.controls ⊆ m'.controls) (hstarted : m'.started = m.started)
    (hwaiting : ∀ a ∈ m'.waiting, a ∈ m.waiting ∨ n ≤ a.request)
    (hcurrent : ∀ job phase, m'.current = some (job, phase) →
      m.current = some (job, phase) ∨ phase.interrupted = true ∨ n ≤ job.request) : m'.Preempted n begun old := by
  refine ⟨Nat.le_trans h.received hreceived, List.Subset.trans h.controls hcontrols, ?_, fun a ha => ?_,
    fun job phase hjob hrequest => ?_⟩
  · rw [hstarted]
    exact h.started
  · exact (hwaiting a ha).elim (h.waiting a) id
  · rcases hcurrent job phase hjob with hold | hinterrupted | hnew
    · exact h.current job phase hold hrequest
    · exact hinterrupted
    · exact absurd hrequest (Nat.not_lt.mpr hnew)

theorem interrupted_cancel (phase : TaskPhase) : phase.cancel.interrupted = true := by cases phase <;> rfl

theorem Preempted.admits (h : m.Preempted n begun old) {ids : List String} (hadmits : Admits m ids m') :
    ({ m' with received := m.received + 1 } : Controller).Preempted n begun old := by
  have hreceived := Nat.le_succ m.received
  cases hadmits with
  | stopped => exact h.framed hreceived (List.Subset.refl _) rfl (fun a ha => .inl ha) fun j p hj => .inl hj
  | refused message => exact h.framed hreceived (List.Subset.refl _) rfl (fun a ha => .inl ha) fun j p hj => .inl hj
  | rejected job _ => exact h.framed hreceived (List.Subset.refl _) rfl (fun a ha => .inl ha) fun j p hj => .inl hj
  | read job _ => exact h.framed hreceived (List.Subset.refl _) rfl (fun a ha => .inl ha) fun j p hj => .inl hj
  | preempted job hrequest _ =>
    refine h.framed hreceived (List.subset_append_left _ _) rfl (fun a ha => .inr ?_) fun j p hj => .inr (.inl ?_)
    · obtain rfl := List.mem_singleton.mp ha
      exact hrequest ▸ h.received
    · obtain ⟨c, -, heq⟩ := Option.map_eq_some_iff.mp hj
      obtain ⟨-, rfl⟩ := Prod.mk.inj heq
      exact interrupted_cancel c.2
  | enqueued first rest hnumbered =>
    refine h.framed hreceived (List.subset_append_left _ _) rfl (fun a ha => ?_) fun j p hj => .inl hj
    have hin : a ∈ m.waiting ++ first :: rest := by
      have hsame : m.tail ++ (m.queue ++ [(first, rest)]).flatMap (fun b => b.1 :: b.2) = m.waiting ++ first :: rest := by
        rw [List.flatMap_append, ← List.append_assoc]
        exact congrArg _ (List.append_nil _)
      exact hsame ▸ ha
    rcases List.mem_append.mp hin with hold | hnew
    · exact .inl hold
    · exact .inr ((hnumbered.request_eq hnew).1 ▸ h.received)

/-- The loop goes on with something that waits. -/
theorem Preempted.next (h : ({ m with current := none } : Controller).Preempted n begun old) :
    m.next.Preempted n begun old := by
  rcases next_cases m with ⟨-, hnext⟩ | ⟨job, tail, queue, hnext, hwaiting⟩
  · rw [hnext]
    exact h
  · have hall : ∀ a ∈ m.waiting, n ≤ a.request := h.waiting
    rw [hwaiting] at hall
    rw [hnext]
    refine h.framed (Nat.le_refl _) (List.Subset.refl _) rfl (fun a ha => .inr ?_) fun j p hj => .inr (.inr ?_)
    · exact hall a (List.mem_cons_of_mem _ ha)
    · obtain ⟨rfl, -⟩ := Prod.mk.inj (Option.some.inj hj)
      exact hall job (List.mem_cons_self ..)

theorem Preempted.resume (h : m.Preempted n begun old) (hresume : m.resume = some m') : m'.Preempted n begun old := by
  unfold Controller.resume at hresume
  split at hresume
  · dsimp only at hresume
    split at hresume
    · obtain rfl := Option.some.inj hresume
      refine .next ?_
      exact h.framed (Nat.le_refl _) (List.Subset.refl _) rfl (fun a ha => .inl ha) fun j p hj => by cases hj
    · obtain rfl := Option.some.inj hresume
      rw [cancelAll_eq]
      refine .next ?_
      refine h.framed (Nat.le_refl _) (List.Subset.refl _) rfl (fun a ha => .inl ?_) fun j p hj => by cases hj
      exact List.mem_append_right _ ha
  · cases hresume

theorem Preempted.step (h : m.Preempted n begun old) {action : Action} (hs : m.step action = some m') :
    m'.Preempted n begun old := by
  unfold Controller.step at hs
  split at hs
  · cases hs
  · cases action with
    | select experiment =>
      obtain rfl := Option.some.inj hs
      exact h.framed (Nat.le_refl _) (List.Subset.refl _) rfl (fun a ha => .inl ha) fun j p hj => .inl hj
    | receive =>
      simp only [receive] at hs
      split at hs
      · cases hs
      · rename_i request rest _
        obtain ⟨-, hs⟩ := Option.ite_none_right_eq_some.mp hs
        obtain rfl := Option.some.inj hs
        let taken : Controller := { m with incoming := rest }
        have htaken : taken.Preempted n begun old :=
          h.framed (Nat.le_refl _) (List.Subset.refl _) rfl (fun a ha => .inl ha) fun j p hj => .inl hj
        have hadmits := admit_admits taken request
        rw [hadmits.received]
        exact htaken.admits hadmits
    | wake =>
      simp only [wake] at hs
      split at hs
      · obtain rfl := Option.some.inj hs
        refine .next ?_
        exact h.framed (Nat.le_refl _) (List.Subset.refl _) rfl (fun a ha => .inl ha) fun j p hj => by cases hj
      · cases hs
    | begin =>
      simp only [begin] at hs
      split at hs
      · obtain rfl := Option.some.inj hs
        refine h.framed (Nat.le_refl _) (List.Subset.refl _) rfl (fun a ha => .inl ha) fun j p hj => .inr (.inl ?_)
        obtain ⟨-, rfl⟩ := Prod.mk.inj (Option.some.inj hj)
        rfl
      · rename_i job hcurrent
        obtain rfl := Option.some.inj hs
        have hnew : n ≤ job.request := by
          by_contra hold
          exact Bool.false_ne_true (h.current job _ hcurrent (Nat.not_le.mp hold))
        refine ⟨h.received, h.controls, fun a ha hrequest => ?_, h.waiting, fun j p hj hrequest => ?_⟩
        · rcases List.mem_append.mp ha with ha | ha
          · exact h.started a ha hrequest
          · obtain rfl := List.mem_singleton.mp ha
            exact absurd hrequest (Nat.not_lt.mpr hnew)
        · obtain ⟨rfl, -⟩ := Prod.mk.inj (Option.some.inj hj)
          exact absurd hrequest (Nat.not_lt.mpr hnew)
      · cases hs
    | finish result =>
      simp only [finish] at hs
      split at hs
      · obtain rfl := Option.some.inj hs
        refine h.framed (Nat.le_refl _) (List.Subset.refl _) rfl (fun a ha => .inl ha) fun j p hj => .inr (.inl ?_)
        obtain ⟨-, rfl⟩ := Prod.mk.inj (Option.some.inj hj)
        rfl
      · cases hs
    | resume => exact h.resume hs
    | answerRead place result =>
      simp only [answerRead] at hs
      split at hs
      · cases hs
      · obtain ⟨o, -, rfl⟩ := Option.map_eq_some_iff.mp hs
        exact h.framed (Nat.le_refl _) (List.Subset.refl _) rfl (fun a ha => .inl ha) fun j p hj => .inl hj
    | writeResponse =>
      simp only [writeResponse] at hs
      split at hs
      · cases hs
      · obtain rfl := Option.some.inj hs
        exact h.framed (Nat.le_refl _) (List.Subset.refl _) rfl (fun a ha => .inl ha) fun j p hj => .inl hj
    | close =>
      obtain rfl := Option.some.inj hs
      refine h.framed (Nat.le_refl _) (List.Subset.refl _) rfl (fun a ha => .inl ?_) fun j p hj => .inl hj
      exact List.mem_append_right _ ha

theorem Preempted.event (h : m.Preempted n begun old) {e : Event} (he : m.event e = some m') : m'.Preempted n begun old := by
  cases e with
  | act action => exact h.step he
  | deliver request =>
    obtain rfl := Option.some.inj he
    exact h.framed (Nat.le_refl _) (List.Subset.refl _) rfl (fun a ha => .inl ha) fun j p hj => .inl hj
  | collect =>
    obtain ⟨taken, htaken, rfl⟩ := Option.map_eq_some_iff.mp he
    unfold Controller.collect at htaken
    split at htaken
    · cases htaken
    · obtain rfl := Option.some.inj htaken
      exact h.framed (Nat.le_refl _) (List.Subset.refl _) rfl (fun a ha => .inl ha) fun j p hj => .inl hj

theorem Preempted.events (h : m.Preempted n begun old) {l : List Event} (hl : m.events l = some m') :
    m'.Preempted n begun old := by
  induction l generalizing m with
  | nil =>
    obtain rfl := Option.some.inj hl
    exact h
  | cons e rest ih =>
    obtain ⟨next, hnext, hrest⟩ := Option.bind_eq_some_iff.mp hl
    exact ih (h.event hnext) hrest

/-- What a standalone stop leaves. -/
theorem receive_stop {c : ServerCommand} {rest : List Request} (hstop : c.command = "stop")
    (hincoming : m.incoming = .submission (.single c) :: rest) (hshallow : (commandDocument c none).depth ≤ maxDepth)
    (hs : m.step .receive = some m') :
    m'.Preempted m.received m.started m.controls ∧ m'.waiting = [⟨controllerCommand none c, m.received, 0⟩] ∧
      m'.answered = m.answered ++
        m.waiting.map (fun j => (j, m.jobFailure j "command_cancelled" "Cancelled by standalone stop.")) := by
  have hadmission : ({ m with incoming := rest } : Controller).admitRequest (.submission (.single c))
      = ({ m with incoming := rest } : Controller).preempted ⟨controllerCommand none c, m.received, 0⟩ := by
    show (if maxDepth < (commandDocument c none).depth then _ else _) = _
    rw [if_neg (Nat.not_lt.mpr hshallow), admitCommand]
    have hname : (controllerCommand none c).command = "stop" := hstop
    dsimp only
    rw [hname, if_neg (by decide), if_neg (by decide), if_pos rfl, cancelQueued_enqueue]
  unfold step at hs
  split at hs
  · cases hs
  · simp only [receive, hincoming] at hs
    obtain ⟨-, hs⟩ := Option.ite_none_right_eq_some.mp hs
    rw [hadmission] at hs
    obtain rfl := Option.some.inj hs
    refine ⟨⟨Nat.le_succ _, List.subset_append_left _ _, fun a ha _ => ha, fun a ha => ?_, fun j p hj _ => ?_⟩,
      rfl, rfl⟩
    · obtain rfl := List.mem_singleton.mp ha
      exact Nat.le_refl _
    · obtain ⟨taken, -, heq⟩ := Option.map_eq_some_iff.mp hj
      obtain ⟨-, rfl⟩ := Prod.mk.inj heq
      exact interrupted_cancel taken.2

/-- Once preempted, a command has its outcome, or is the current one and interrupted. -/
theorem Preempted.settled (h : m.Preempted n begun old) (haccounted : m.Accounted) (htruthful : m.Truthful)
    (hopen : m.closing = false) (hold : ∀ a ∈ old, a.request < n) {a : Job} (ha : a ∈ old) :
    (∃ o, (a, o) ∈ m.answered) ∨ ∃ phase, m.current = some (a, phase) ∧ phase.interrupted = true := by
  have hcontrol : a ∈ m.controls := h.controls ha
  have hplace := ((haccounted.perm hopen).mem_iff).mp (List.mem_append_left _ hcontrol)
  simp only [List.mem_append] at hplace
  rcases hplace with ((hanswered | hactive) | hwaiting) | hread
  · obtain ⟨answer, hin, rfl⟩ := List.mem_map.mp hanswered
    exact .inl ⟨answer.2, hin⟩
  · obtain ⟨⟨job, phase⟩, hcurrent, rfl⟩ := Option.map_eq_some_iff.mp (Option.mem_toList.mp hactive)
    exact .inr ⟨phase, hcurrent, h.current job phase hcurrent (hold job ha)⟩
  · exact absurd (hold a ha) (Nat.not_lt.mpr (h.waiting a hwaiting))
  · exact absurd rfl (haccounted.apart a hcontrol a (htruthful.reads a hread))

/-- A standalone stop preempts what came before it: what waits is cancelled at once and leaves the stop alone in
line, none of the earlier commands begins in whatever follows, and each is answered but for the interrupted current one. -/
theorem stop_preempts (h : Reachable m) {c : ServerCommand} {rest : List Request} (hstop : c.command = "stop")
    (hincoming : m.incoming = .submission (.single c) :: rest) (hshallow : (commandDocument c none).depth ≤ maxDepth)
    (hs : m.step .receive = some m') {l : List Event} {later : Controller} (hl : m'.events l = some later) :
    m'.waiting = [⟨controllerCommand none c, m.received, 0⟩] ∧
      (∀ a ∈ m.waiting, ∃ o, (a, o) ∈ m'.answered ∧ o.response.state = .cancelled) ∧
      (∀ a ∈ later.started, a.request < m.received → a ∈ m.started) ∧
      (later.closing = false → ∀ a ∈ m.controls, (∃ o, (a, o) ∈ later.answered) ∨
        ∃ phase, later.current = some (a, phase) ∧ phase.interrupted = true) := by
  obtain ⟨hpreempted, hwaiting, hanswered⟩ := receive_stop hstop hincoming hshallow hs
  have hlater := hpreempted.events hl
  have hreached := (h.step hs).events hl
  refine ⟨hwaiting, fun a ha => ?_, hlater.started, fun hopen a ha => ?_⟩
  · refine ⟨m.jobFailure a "command_cancelled" "Cancelled by standalone stop.", ?_, rfl⟩
    rw [hanswered]
    exact List.mem_append_right _ (List.mem_map.mpr ⟨a, ha, rfl⟩)
  · refine hlater.settled hreached.accounted hreached.truthful hopen (fun b hb => ?_) ha
    exact h.accounted.numbered b (List.mem_append_left _ hb)

/-- A chain is at its first command. -/
def chainBegun : List Event :=
  [.deliver (.submission (.chain pairChain)), .act .receive, .act .wake, .act .begin]

theorem stop_preempts_chain : ∃ m m', new.events chainBegun = some m ∧ m.waiting.length = 1 ∧
    (m.deliver (.submission (.single ServerRuntime.stopCommand))).step .receive = some m' ∧
      ∀ a ∈ m.waiting, ∃ o, (a, o) ∈ m'.answered ∧ o.response.state = .cancelled := by
  have hrun : (new.events chainBegun).map (fun m => (m.incoming.isEmpty, m.waiting.length,
      ((m.deliver (.submission (.single ServerRuntime.stopCommand))).step .receive).isSome)) = some (true, 1, true) := by
    decide +kernel
  obtain ⟨m, hm, hfacts⟩ := Option.map_eq_some_iff.mp hrun
  obtain ⟨hempty, hfacts⟩ := Prod.mk.inj hfacts
  obtain ⟨hlength, hsome⟩ := Prod.mk.inj hfacts
  obtain ⟨m', hs⟩ := Option.isSome_iff_exists.mp hsome
  have hincoming : (m.deliver (.submission (.single ServerRuntime.stopCommand))).incoming
      = [.submission (.single ServerRuntime.stopCommand)] := by
    show m.incoming ++ [_] = _
    rw [List.isEmpty_iff.mp hempty]
    rfl
  have hreached : Reachable m := Reachable.start.events hm
  have hpreempts := stop_preempts (hreached.deliver _) rfl hincoming (by decide +kernel) hs (l := []) rfl
  exact ⟨m, m', hm, hlength, hs, hpreempts.2.1⟩

end Controller

end ModularPipelines.Server
