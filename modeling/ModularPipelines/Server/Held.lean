import ModularPipelines.Server.ControllerOutcomes

namespace ModularPipelines.Server
open Library

def Job.bears (i : String) (job : Job) : Bool := job.command.commandId == i

def ControllerReply.answers (i : String) : ControllerReply → Bool
  | .outcome o => o.response.commandId == i
  | .rejection _ => false

/-- The admission of the request takes on the command as often as the request names it. -/
def Request.Sound (i : String) : Request → Prop
  | .submission s => Controller.Proper (.submission s)
  | .read j _ _ => j ≠ i
  | .shutdown _ => True

namespace Controller

variable {m m' : Controller} {i : String} {request : Request} {job : Job} {o : ControllerOutcome}

/-- In how many places of the controller the command is. -/
def holds (m : Controller) (i : String) : Nat :=
  (m.incoming.flatMap commandIds).count i + m.active.countP (Job.bears i) + m.waiting.countP (Job.bears i)
    + m.reads.countP (Job.bears i) + m.outbox.countP (ControllerReply.answers i)
    + m.responses.countP (ControllerReply.answers i)

theorem Bears.answers (h : Bears o job) (i : String) : ControllerReply.answers i (.outcome o) = job.bears i := by
  show (o.response.commandId == i) = (job.command.commandId == i)
  rw [h.1]

theorem outcome_countP (h : Bears o job) (i : String) :
    [ControllerReply.outcome o].countP (ControllerReply.answers i) = [job].countP (Job.bears i) := by
  rw [List.countP_singleton, List.countP_singleton, h.answers]

theorem failures_countP (m : Controller) (message : String) (jobs : List Job) (i : String) :
    (jobs.map fun job => ControllerReply.outcome (m.jobFailure job "command_cancelled" message)).countP
      (ControllerReply.answers i) = jobs.countP (Job.bears i) := by
  rw [List.countP_map]
  rfl

theorem jobs_count (jobs : List Job) (i : String) :
    (jobs.map fun job => job.command.commandId).count i = jobs.countP (Job.bears i) := by
  rw [List.count, List.countP_map]
  rfl

theorem Admits.holds {ids : List String} (h : Admits m ids m') (i : String) :
    m'.holds i = m.holds i + ids.count i := by
  cases h with
  | stopped => rfl
  | refused message =>
    show _ + _ + _ + _ + (m.outbox ++ [ControllerReply.rejection message]).countP (ControllerReply.answers i) + _ = _
    rw [List.countP_append]
    rfl
  | rejected job _ =>
    have houtcome : Bears (m.jobFailure job "invalid_request" depthMessage) job := jobFailure_bears m job _ _
    have hone := outcome_countP houtcome i
    have hcount := jobs_count [job] i
    show (m.incoming.flatMap commandIds).count i + m.active.countP (Job.bears i) + m.waiting.countP (Job.bears i)
      + m.reads.countP (Job.bears i) + (m.outbox ++ [_]).countP (ControllerReply.answers i)
      + m.responses.countP (ControllerReply.answers i) = _
    rw [List.countP_append, hone, ← hcount]
    unfold Controller.holds
    show _ = _ + [job.command.commandId].count i
    simp only [List.map_cons, List.map_nil]
    omega
  | read job _ =>
    have hcount := jobs_count [job] i
    show (m.incoming.flatMap commandIds).count i + m.active.countP (Job.bears i) + m.waiting.countP (Job.bears i)
      + (m.reads ++ [job]).countP (Job.bears i) + m.outbox.countP (ControllerReply.answers i)
      + m.responses.countP (ControllerReply.answers i) = _
    rw [List.countP_append, ← hcount]
    unfold Controller.holds
    simp only [List.map_cons, List.map_nil]
    omega
  | preempted job _ _ =>
    have hcount := jobs_count [job] i
    have hactive := preempted_active m job
    have hfailures := failures_countP m "Cancelled by standalone stop." m.waiting i
    show (m.incoming.flatMap commandIds).count i + (m.preempted job).active.countP (Job.bears i) + [job].countP (Job.bears i)
      + m.reads.countP (Job.bears i) + (m.outbox ++ m.waiting.map _).countP (ControllerReply.answers i)
      + m.responses.countP (ControllerReply.answers i) = _
    rw [hactive, List.countP_append, hfailures, ← hcount]
    unfold Controller.holds
    simp only [List.map_cons, List.map_nil]
    omega
  | enqueued first rest _ =>
    have hcount := jobs_count (first :: rest) i
    have hwaiting : m.tail ++ (m.queue ++ [(first, rest)]).flatMap (fun b => b.1 :: b.2) = m.waiting ++ first :: rest := by
      rw [List.flatMap_append, ← List.append_assoc]
      exact congrArg _ (List.append_nil _)
    show (m.incoming.flatMap commandIds).count i + m.active.countP (Job.bears i)
      + (m.tail ++ (m.queue ++ [(first, rest)]).flatMap _).countP (Job.bears i)
      + m.reads.countP (Job.bears i) + m.outbox.countP (ControllerReply.answers i)
      + m.responses.countP (ControllerReply.answers i) = _
    rw [hwaiting, List.countP_append, hcount]
    unfold Controller.holds
    omega

/-- A shutdown request is flat, and no command. -/
theorem shutdown_proper (commandId : String) : Proper (.shutdown commandId) := by
  refine ⟨?_, fun c hc => ?_, fun j name args hc => ?_⟩
  · simp [Request.document, Json.depth, Json.depthMembers, maxDepth]
  · cases hc
  · cases hc

/-- A command whose request is sound is taken on as often as the request names it. -/
theorem sound_ids (hsound : request.Sound i) : (admittedIds request).count i = (commandIds request).count i := by
  cases request with
  | submission s => rw [proper_ids hsound]
  | shutdown commandId => rw [proper_ids (shutdown_proper commandId)]
  | read j name args =>
    have hother : [j].count i = 0 := List.count_eq_zero.mpr fun hin => hsound (List.mem_singleton.mp hin).symm
    show (if _ then [] else [j]).count i = [j].count i
    split
    · exact hother.symm
    · rfl

theorem next_holds (m : Controller) (i : String) :
    m.next.holds i = ({ m with current := none } : Controller).holds i := by
  rcases next_cases m with ⟨-, hnext⟩ | ⟨job, tail, queue, hnext, hwaiting⟩
  · rw [hnext]
  · have hfirst := countP_first (Job.bears i) job (tail ++ queue.flatMap fun b => b.1 :: b.2)
    rw [hnext]
    show _ + [job].countP (Job.bears i) + (tail ++ queue.flatMap _).countP (Job.bears i) + _ + _ + _
      = (m.incoming.flatMap commandIds).count i + 0 + m.waiting.countP (Job.bears i) + m.reads.countP (Job.bears i)
        + m.outbox.countP (ControllerReply.answers i) + m.responses.countP (ControllerReply.answers i)
    rw [hwaiting, hfirst]
    dsimp only
    omega

theorem resume_holds (h : m.Truthful) (hresume : m.resume = some m') (i : String) : m'.holds i = m.holds i := by
  unfold Controller.resume at hresume
  split at hresume
  · rename_i job result hcurrent
    have hactive : m.active = [job] := by rw [active, hcurrent]; rfl
    have htask := h.current _ _ hcurrent
    have hbears : Bears (result.getD (m.jobFailure job "command_cancelled" "Interrupted by standalone stop.")) job := by
      cases result with
      | none => exact jobFailure_bears m job _ _
      | some o => exact htask.2
    generalize result.getD (m.jobFailure job "command_cancelled" "Interrupted by standalone stop.") = o at hresume hbears
    have hone := outcome_countP hbears i
    dsimp only at hresume
    split at hresume
    · obtain rfl := Option.some.inj hresume
      rw [next_holds]
      show (m.incoming.flatMap commandIds).count i + 0 + m.waiting.countP (Job.bears i) + m.reads.countP (Job.bears i)
        + (m.outbox ++ [ControllerReply.outcome o]).countP (ControllerReply.answers i)
        + m.responses.countP (ControllerReply.answers i) = _
      rw [List.countP_append, hone]
      unfold Controller.holds
      rw [hactive]
      omega
    · obtain rfl := Option.some.inj hresume
      have hfailures := failures_countP { m.publish job o with tail := [] } "Previous command failed." m.tail i
      have hwaiting : m.waiting.countP (Job.bears i)
          = m.tail.countP (Job.bears i) + (m.queue.flatMap fun b => b.1 :: b.2).countP (Job.bears i) := List.countP_append
      rw [next_holds, cancelAll_eq]
      show (m.incoming.flatMap commandIds).count i + 0 + (m.queue.flatMap fun b => b.1 :: b.2).countP (Job.bears i)
        + m.reads.countP (Job.bears i)
        + (m.outbox ++ [ControllerReply.outcome o] ++ m.tail.map _).countP (ControllerReply.answers i)
        + m.responses.countP (ControllerReply.answers i) = _
      rw [List.countP_append, List.countP_append, hone, hfailures]
      unfold Controller.holds
      rw [hactive, hwaiting]
      omega
  · cases hresume

/-- A command stays in as many places, unless the controller closes. -/
theorem step_holds (h : m.Truthful) (hsound : ∀ request ∈ m.incoming, request.Sound i) {action : Action}
    (hs : m.step action = some m') : m'.holds i ≤ m.holds i ∧ (m'.closing = false → m'.holds i = m.holds i) := by
  suffices hsame : m'.holds i = m.holds i ∨ m'.holds i ≤ m.holds i ∧ m'.closing = true by
    rcases hsame with hsame | ⟨hless, hclosing⟩
    · exact ⟨Nat.le_of_eq hsame, fun _ => hsame⟩
    · refine ⟨hless, fun hopen => ?_⟩
      rw [hclosing] at hopen
      cases hopen
  unfold Controller.step at hs
  split at hs
  · cases hs
  · cases action with
    | select experiment =>
      obtain rfl := Option.some.inj hs
      exact .inl rfl
    | receive =>
      simp only [receive] at hs
      split at hs
      · cases hs
      · rename_i request rest hincoming
        obtain ⟨-, hs⟩ := Option.ite_none_right_eq_some.mp hs
        obtain rfl := Option.some.inj hs
        have hids := sound_ids (hsound request (hincoming ▸ List.mem_cons_self ..))
        have hholds := (admit_admits { m with incoming := rest } request).holds i
        left
        show Controller.holds (Controller.admitRequest _ request) i = _
        rw [hholds, hids]
        unfold Controller.holds
        rw [hincoming, List.flatMap_cons, List.count_append]
        show (rest.flatMap commandIds).count i + m.active.countP (Job.bears i) + m.waiting.countP (Job.bears i) + _ + _ + _ + _ = _
        dsimp only
        omega
    | wake =>
      simp only [wake] at hs
      split at hs
      · rename_i hidle _
        obtain rfl := Option.some.inj hs
        left
        rw [next_holds, ← hidle]
      · cases hs
    | begin =>
      simp only [begin] at hs
      split at hs
      · rename_i job hcurrent
        obtain rfl := Option.some.inj hs
        have hactive : m.active = [job] := by rw [active, hcurrent]; rfl
        left
        unfold Controller.holds
        rw [hactive]
        rfl
      · rename_i job hcurrent
        obtain rfl := Option.some.inj hs
        have hactive : m.active = [job] := by rw [active, hcurrent]; rfl
        left
        unfold Controller.holds
        rw [hactive]
        rfl
      · cases hs
    | finish result =>
      simp only [finish] at hs
      split at hs
      · rename_i job _ hcurrent
        obtain rfl := Option.some.inj hs
        have hactive : m.active = [job] := by rw [active, hcurrent]; rfl
        left
        unfold Controller.holds
        rw [hactive]
        rfl
      · cases hs
    | resume => exact .inl (resume_holds h hs i)
    | answerRead place result =>
      simp only [answerRead] at hs
      split at hs
      · cases hs
      · rename_i job hjob
        obtain ⟨o, ho, rfl⟩ := Option.map_eq_some_iff.mp hs
        have hone := outcome_countP (performed_bears ho) i
        have herased := countP_eraseIdx hjob (Job.bears i)
        left
        show (m.incoming.flatMap commandIds).count i + m.active.countP (Job.bears i) + m.waiting.countP (Job.bears i)
          + (m.reads.eraseIdx place).countP (Job.bears i)
          + (m.outbox ++ [ControllerReply.outcome o]).countP (ControllerReply.answers i)
          + m.responses.countP (ControllerReply.answers i) = _
        rw [List.countP_append, hone]
        unfold Controller.holds
        omega
    | writeResponse =>
      simp only [writeResponse] at hs
      split at hs
      · cases hs
      · rename_i reply rest houtbox
        obtain rfl := Option.some.inj hs
        have hfirst : (reply :: rest).countP (ControllerReply.answers i)
            = [reply].countP (ControllerReply.answers i) + rest.countP (ControllerReply.answers i) := by
          show ([reply] ++ rest).countP _ = _
          exact List.countP_append
        left
        show (m.incoming.flatMap commandIds).count i + m.active.countP (Job.bears i) + m.waiting.countP (Job.bears i)
          + m.reads.countP (Job.bears i) + rest.countP (ControllerReply.answers i)
          + (m.responses ++ [reply]).countP (ControllerReply.answers i) = _
        rw [List.countP_append]
        unfold Controller.holds
        rw [houtbox, hfirst]
        omega
    | close =>
      obtain rfl := Option.some.inj hs
      refine .inr ⟨?_, rfl⟩
      have hwaiting : m.waiting.countP (Job.bears i)
          = m.tail.countP (Job.bears i) + (m.queue.flatMap fun b => b.1 :: b.2).countP (Job.bears i) := List.countP_append
      show (m.incoming.flatMap commandIds).count i + m.active.countP (Job.bears i)
        + (m.queue.flatMap fun b => b.1 :: b.2).countP (Job.bears i) + m.reads.countP (Job.bears i)
        + m.outbox.countP (ControllerReply.answers i) + m.responses.countP (ControllerReply.answers i) ≤ _
      unfold Controller.holds
      omega

theorem Admits.controls {ids : List String} (h : Admits m ids m') (i : String) :
    m'.incoming = m.incoming ∧ m'.controls.countP (Job.bears i) ≤ m.controls.countP (Job.bears i) + ids.count i := by
  cases h with
  | stopped => exact ⟨rfl, Nat.le_refl _⟩
  | refused message => exact ⟨rfl, Nat.le_refl _⟩
  | rejected job _ => exact ⟨rfl, Nat.le_add_right _ _⟩
  | read job _ => exact ⟨rfl, Nat.le_add_right _ _⟩
  | preempted job _ _ =>
    have hcount := jobs_count [job] i
    refine ⟨rfl, Nat.le_of_eq ?_⟩
    show (m.controls ++ [job]).countP (Job.bears i) = _
    rw [List.countP_append, ← hcount]
    rfl
  | enqueued first rest _ =>
    have hcount := jobs_count (first :: rest) i
    refine ⟨rfl, Nat.le_of_eq ?_⟩
    show (m.controls ++ first :: rest).countP (Job.bears i) = _
    rw [List.countP_append, hcount]

/-- The commands that are known after the intake are named by its request. -/
theorem step_controls {action : Action} (hs : m.step action = some m') :
    m'.incoming = m.incoming ∧ m'.controls = m.controls ∨
      ∃ request rest, m.incoming = request :: rest ∧ m'.incoming = rest ∧ ∀ i, request.Sound i →
        m'.controls.countP (Job.bears i) ≤ m.controls.countP (Job.bears i) + (commandIds request).count i := by
  rcases step_inputs hs with ⟨hincoming, hcontrols, -⟩ | ⟨request, rest, hincoming, admitted, hadmits, rfl⟩
  · exact .inl ⟨hincoming, hcontrols⟩
  · refine .inr ⟨request, rest, hincoming, (hadmits.controls "").1, fun i hsound => ?_⟩
    have hcontrols := (hadmits.controls i).2
    rw [sound_ids hsound] at hcontrols
    exact hcontrols

end Controller

end ModularPipelines.Server
