import ModularPipelines.Server.ChainOrder

namespace ModularPipelines.Server
open Library

namespace Controller

variable {m m' : Controller} {job : Job} {o : ControllerOutcome}

/-- An outcome bears the IDs of its command. -/
def Bears (o : ControllerOutcome) (job : Job) : Prop :=
  o.response.commandId = job.command.commandId ∧ o.response.chainId = job.command.chainId

/-- What is known of a task. -/
def TaskSound (m : Controller) (job : Job) : TaskPhase → Prop
  | .created _ => True
  | .working _ => job ∈ m.started
  | .ended none => True
  | .ended (some o) => job ∈ m.started ∧ Bears o job

/-- A command that has not been cancelled has run, or it is a read. -/
structure Truthful (m : Controller) : Prop where
  answered : ∀ a ∈ m.answered, Bears a.2 a.1 ∧ (a.2.response.state = .cancelled ∨ a.1 ∈ m.started ∨ a.1 ∈ m.asked)
  current : ∀ job phase, m.current = some (job, phase) → m.TaskSound job phase
  reads : ∀ job ∈ m.reads, job ∈ m.asked

theorem Truthful.new : new.Truthful := by
  refine ⟨fun a ha => ?_, fun job phase h => ?_, fun job h => ?_⟩
  · cases ha
  · cases h
  · cases h

theorem jobFailure_bears (m : Controller) (job : Job) (code message : String) : Bears (m.jobFailure job code message) job :=
  ⟨rfl, rfl⟩

theorem performed_bears {p : Performed} (h : m.performed job.command p = some o) : Bears o job := by
  cases p with
  | succeeded data =>
    by_cases hdepth : (m.successResponse job.command data).document.depth ≤ maxDepth
    · rw [performed, dif_pos hdepth] at h
      obtain rfl := Option.some.inj h
      exact ⟨rfl, rfl⟩
    · rw [performed, dif_neg hdepth] at h
      obtain rfl := Option.some.inj h
      exact ⟨rfl, rfl⟩
  | raised error message notes =>
    obtain rfl := Option.some.inj h
    exact ⟨rfl, rfl⟩
  | cancelled => cases h

theorem TaskSound.mono {phase : TaskPhase} (h : m.TaskSound job phase) (hstarted : m.started ⊆ m'.started) :
    m'.TaskSound job phase := by
  cases phase with
  | created _ => trivial
  | working _ => exact hstarted h
  | ended result =>
    cases result with
    | none => trivial
    | some o => exact ⟨hstarted h.1, h.2⟩

theorem TaskSound.cancel {phase : TaskPhase} (h : m.TaskSound job phase) : m.TaskSound job phase.cancel := by
  cases phase with
  | created _ => trivial
  | working _ => exact h
  | ended _ => exact h

/-- Outcomes are added that are sound, and the other lists grow. -/
theorem Truthful.extended (h : m.Truthful) (outcomes : List (Job × ControllerOutcome))
    (hanswered : m'.answered = m.answered ++ outcomes)
    (hnew : ∀ a ∈ outcomes, Bears a.2 a.1 ∧ (a.2.response.state = .cancelled ∨ a.1 ∈ m'.started ∨ a.1 ∈ m'.asked))
    (hstarted : m.started ⊆ m'.started) (hasked : m.asked ⊆ m'.asked)
    (hcurrent : ∀ job phase, m'.current = some (job, phase) → m'.TaskSound job phase)
    (hreads : ∀ job ∈ m'.reads, job ∈ m.reads ∨ job ∈ m'.asked) : m'.Truthful := by
  refine ⟨fun a ha => ?_, hcurrent, fun job hjob => ?_⟩
  · rw [hanswered] at ha
    rcases List.mem_append.mp ha with ha | ha
    · obtain ⟨hbears, hran⟩ := h.answered a ha
      exact ⟨hbears, hran.imp_right fun hor => hor.imp (fun hin => hstarted hin) fun hin => hasked hin⟩
    · exact hnew a ha
  · rcases hreads job hjob with hold | hnew
    · exact hasked (h.reads job hold)
    · exact hnew

theorem Truthful.framed (h : m.Truthful) (hanswered : m'.answered = m.answered) (hstarted : m'.started = m.started)
    (hasked : m'.asked = m.asked) (hcurrent : m'.current = m.current) (hreads : m'.reads = m.reads) : m'.Truthful := by
  refine h.extended [] (by rw [hanswered, List.append_nil]) (fun a ha => by cases ha)
    (hstarted ▸ List.Subset.refl _) (hasked ▸ List.Subset.refl _) (fun job phase hjob => ?_) fun job hjob => .inl (hreads ▸ hjob)
  rw [hcurrent] at hjob
  exact (h.current job phase hjob).mono (hstarted ▸ List.Subset.refl _)

theorem cancelled_sound (m : Controller) (message : String) (jobs : List Job) :
    ∀ a ∈ jobs.map (fun j => (j, m.jobFailure j "command_cancelled" message)), Bears a.2 a.1 ∧
      a.2.response.state = .cancelled := by
  intro a ha
  obtain ⟨j, -, rfl⟩ := List.mem_map.mp ha
  exact ⟨jobFailure_bears m j _ _, rfl⟩

theorem Truthful.admits (h : m.Truthful) {ids : List String} (hadmits : Admits m ids m') :
    ({ m' with received := m.received + 1 } : Controller).Truthful := by
  cases hadmits with
  | stopped => exact h.framed rfl rfl rfl rfl rfl
  | refused message => exact h.framed rfl rfl rfl rfl rfl
  | rejected job _ =>
    refine h.extended _ rfl (fun a ha => ?_) (List.Subset.refl _) (List.subset_append_left _ _) h.current fun j hj => .inl hj
    obtain rfl := List.mem_singleton.mp ha
    exact ⟨jobFailure_bears _ job _ _, .inr (.inr (List.mem_append_right _ (List.mem_singleton_self _)))⟩
  | read job _ =>
    refine h.extended [] (List.append_nil _).symm (fun a ha => by cases ha) (List.Subset.refl _) (List.subset_append_left _ _)
      h.current fun j hj => ?_
    exact (List.mem_append.mp hj).imp_right fun hin => List.mem_append_right _ hin
  | preempted job _ _ =>
    refine h.extended _ rfl (fun a ha => ?_) (List.Subset.refl _) (List.Subset.refl _) (fun j phase hj => ?_) fun j hj => .inl hj
    · obtain ⟨hbears, hcancelled⟩ := cancelled_sound m _ m.waiting a ha
      exact ⟨hbears, .inl hcancelled⟩
    · obtain ⟨c, hc, heq⟩ := Option.map_eq_some_iff.mp hj
      obtain ⟨rfl, rfl⟩ := Prod.mk.inj heq
      exact (h.current c.1 c.2 hc).cancel
  | enqueued first rest _ => exact h.framed rfl rfl rfl rfl rfl

/-- The next job has only been given its task. -/
theorem Truthful.next (hanswered : ∀ a ∈ m.answered, Bears a.2 a.1 ∧
    (a.2.response.state = .cancelled ∨ a.1 ∈ m.started ∨ a.1 ∈ m.asked)) (hreads : ∀ job ∈ m.reads, job ∈ m.asked) :
    m.next.Truthful := by
  rcases next_cases m with ⟨-, hnext⟩ | ⟨job, tail, queue, hnext, -⟩
  · rw [hnext]
    exact ⟨hanswered, fun j phase hj => (by cases hj), hreads⟩
  · rw [hnext]
    refine ⟨hanswered, fun j phase hj => ?_, hreads⟩
    obtain ⟨rfl, rfl⟩ := Prod.mk.inj (Option.some.inj hj)
    trivial

theorem Truthful.resume (h : m.Truthful) (hresume : m.resume = some m') : m'.Truthful := by
  unfold Controller.resume at hresume
  split at hresume
  · rename_i job result hcurrent
    have htask := h.current _ _ hcurrent
    have hsound : Bears (result.getD (m.jobFailure job "command_cancelled" "Interrupted by standalone stop.")) job ∧
        ((result.getD (m.jobFailure job "command_cancelled" "Interrupted by standalone stop.")).response.state = .cancelled ∨
          job ∈ m.started ∨ job ∈ m.asked) := by
      cases result with
      | none => exact ⟨jobFailure_bears m job _ _, .inl rfl⟩
      | some o => exact ⟨htask.2, .inr (.inl htask.1)⟩
    generalize result.getD (m.jobFailure job "command_cancelled" "Interrupted by standalone stop.") = o at hresume hsound
    have hpublished : ∀ a ∈ m.answered ++ [(job, o)], Bears a.2 a.1 ∧
        (a.2.response.state = .cancelled ∨ a.1 ∈ m.started ∨ a.1 ∈ m.asked) := by
      intro a ha
      rcases List.mem_append.mp ha with ha | ha
      · exact h.answered a ha
      · obtain rfl := List.mem_singleton.mp ha
        exact hsound
    dsimp only at hresume
    split at hresume
    · obtain rfl := Option.some.inj hresume
      exact Truthful.next hpublished h.reads
    · obtain rfl := Option.some.inj hresume
      rw [cancelAll_eq]
      refine Truthful.next (fun a ha => ?_) h.reads
      rcases List.mem_append.mp ha with ha | ha
      · exact hpublished a ha
      · obtain ⟨hbears, hcancelled⟩ := cancelled_sound _ _ _ a ha
        exact ⟨hbears, .inl hcancelled⟩
  · cases hresume

theorem Truthful.step (h : m.Truthful) {action : Action} (hs : m.step action = some m') : m'.Truthful := by
  unfold Controller.step at hs
  split at hs
  · cases hs
  · cases action with
    | select experiment =>
      obtain rfl := Option.some.inj hs
      exact h.framed rfl rfl rfl rfl rfl
    | receive =>
      simp only [receive] at hs
      split at hs
      · cases hs
      · rename_i request rest _
        obtain ⟨-, hs⟩ := Option.ite_none_right_eq_some.mp hs
        obtain rfl := Option.some.inj hs
        let taken : Controller := { m with incoming := rest }
        have htaken : taken.Truthful := h.framed rfl rfl rfl rfl rfl
        have hadmits := admit_admits taken request
        rw [hadmits.received]
        exact htaken.admits hadmits
    | wake =>
      simp only [wake] at hs
      split at hs
      · obtain rfl := Option.some.inj hs
        exact .next h.answered h.reads
      · cases hs
    | begin =>
      simp only [begin] at hs
      split at hs
      · obtain rfl := Option.some.inj hs
        refine ⟨h.answered, fun j phase hj => ?_, h.reads⟩
        obtain ⟨rfl, rfl⟩ := Prod.mk.inj (Option.some.inj hj)
        trivial
      · rename_i job _
        obtain rfl := Option.some.inj hs
        have hsub : m.started ⊆ m.started ++ [job] := List.subset_append_left _ _
        refine h.extended [] (List.append_nil _).symm (fun a ha => by cases ha) hsub (List.Subset.refl _) (fun j phase hj => ?_)
          fun j hj => .inl hj
        obtain ⟨rfl, rfl⟩ := Prod.mk.inj (Option.some.inj hj)
        exact List.mem_append_right _ (List.mem_singleton_self _)
      · cases hs
    | finish result =>
      simp only [finish] at hs
      split at hs
      · rename_i job _ hcurrent
        obtain rfl := Option.some.inj hs
        have hworking : job ∈ m.started := h.current _ _ hcurrent
        refine ⟨h.answered, fun j phase hj => ?_, h.reads⟩
        obtain ⟨rfl, rfl⟩ := Prod.mk.inj (Option.some.inj hj)
        cases hperformed : m.performed job.command result with
        | none => trivial
        | some o => exact ⟨hworking, performed_bears hperformed⟩
      · cases hs
    | resume => exact h.resume hs
    | answerRead place result =>
      simp only [answerRead] at hs
      split at hs
      · cases hs
      · rename_i job hjob
        obtain ⟨o, ho, rfl⟩ := Option.map_eq_some_iff.mp hs
        refine h.extended _ rfl (fun a ha => ?_) (List.Subset.refl _) (List.Subset.refl _) h.current fun j hj => ?_
        · obtain rfl := List.mem_singleton.mp ha
          exact ⟨performed_bears ho, .inr (.inr (h.reads job (List.mem_of_getElem? hjob)))⟩
        · exact .inl (List.mem_of_mem_eraseIdx hj)
    | writeResponse =>
      simp only [writeResponse] at hs
      split at hs
      · cases hs
      · obtain rfl := Option.some.inj hs
        exact h.framed rfl rfl rfl rfl rfl
    | close =>
      obtain rfl := Option.some.inj hs
      exact h.framed rfl rfl rfl rfl rfl

theorem Reachable.truthful (h : Reachable m) : m.Truthful := by
  induction h with
  | start => exact .new
  | step _ hnext ih => exact ih.step hnext
  | deliver request _ ih => exact ih.framed rfl rfl rfl rfl rfl
  | collect _ htaken ih =>
    unfold Controller.collect at htaken
    split at htaken
    · cases htaken
    · obtain ⟨-, rfl⟩ := Prod.mk.inj (Option.some.inj htaken)
      exact ih.framed rfl rfl rfl rfl rfl

theorem Accounted.perm (h : m.Accounted) (hopen : m.closing = false) :
    (m.controls ++ m.asked).Perm (m.answered.map Prod.fst ++ m.active ++ m.waiting ++ m.reads) := by
  classical
  refine List.perm_iff_count.mpr fun j => ?_
  have hcount := h.conserved hopen fun other => decide (other = j)
  simp only [List.count_eq_countP, beq_eq_decide, List.countP_append]
  exact hcount

theorem Accounted.tags (h : m.Accounted) : ((m.controls ++ m.asked).map Job.tag).Nodup := by
  rw [List.map_append]
  refine List.Nodup.append h.controls h.asked fun t ht ht' => ?_
  obtain ⟨a, ha, rfl⟩ := List.mem_map.mp ht
  obtain ⟨b, hb, hsame⟩ := List.mem_map.mp ht'
  exact h.apart a ha b hb (congrArg Prod.fst hsame).symm

theorem Accounted.nodup (h : m.Accounted) (hopen : m.closing = false) :
    (m.answered.map Prod.fst ++ m.active ++ m.waiting ++ m.reads).Nodup :=
  (h.perm hopen).nodup_iff.mp (List.Nodup.of_map _ h.tags)

theorem step_open {action : Action} (hs : m.step action = some m') : m.closing = false := by
  unfold Controller.step at hs
  split at hs
  · cases hs
  · rename_i hopen
    exact Bool.eq_false_iff.mpr hopen

theorem next_inputs (m : Controller) :
    m.next.incoming = m.incoming ∧ m.next.controls = m.controls ∧ m.next.asked = m.asked := by
  rcases next_cases m with ⟨-, hnext⟩ | ⟨job, tail, queue, hnext, -⟩
  · rw [hnext]
    exact ⟨rfl, rfl, rfl⟩
  · rw [hnext]
    exact ⟨rfl, rfl, rfl⟩

/-- Only the intake takes a request, and adds its commands to what is known. -/
theorem step_inputs {action : Action} (hs : m.step action = some m') :
    m'.incoming = m.incoming ∧ m'.controls = m.controls ∧ m'.asked = m.asked ∨
      ∃ request rest, m.incoming = request :: rest ∧
        ∃ admitted, Admits { m with incoming := rest } (admittedIds request) admitted ∧
        m' = { admitted with received := admitted.received + 1 } := by
  unfold Controller.step at hs
  split at hs
  · cases hs
  · cases action with
    | select experiment =>
      obtain rfl := Option.some.inj hs
      exact .inl ⟨rfl, rfl, rfl⟩
    | receive =>
      simp only [receive] at hs
      split at hs
      · cases hs
      · rename_i request rest hincoming
        obtain ⟨-, hs⟩ := Option.ite_none_right_eq_some.mp hs
        obtain rfl := Option.some.inj hs
        exact .inr ⟨request, rest, hincoming, _, admit_admits { m with incoming := rest } request, rfl⟩
    | wake =>
      simp only [wake] at hs
      split at hs
      · obtain rfl := Option.some.inj hs
        exact .inl (next_inputs m)
      · cases hs
    | begin =>
      simp only [begin] at hs
      split at hs
      · obtain rfl := Option.some.inj hs
        exact .inl ⟨rfl, rfl, rfl⟩
      · obtain rfl := Option.some.inj hs
        exact .inl ⟨rfl, rfl, rfl⟩
      · cases hs
    | finish result =>
      simp only [finish] at hs
      split at hs
      · obtain rfl := Option.some.inj hs
        exact .inl ⟨rfl, rfl, rfl⟩
      · cases hs
    | resume =>
      simp only [resume] at hs
      split at hs
      · split at hs
        · obtain rfl := Option.some.inj hs
          exact .inl (next_inputs _)
        · obtain rfl := Option.some.inj hs
          rw [cancelAll_eq]
          exact .inl (next_inputs _)
      · cases hs
    | answerRead place result =>
      simp only [answerRead] at hs
      split at hs
      · cases hs
      · obtain ⟨o, -, rfl⟩ := Option.map_eq_some_iff.mp hs
        exact .inl ⟨rfl, rfl, rfl⟩
    | writeResponse =>
      simp only [writeResponse] at hs
      split at hs
      · cases hs
      · obtain rfl := Option.some.inj hs
        exact .inl ⟨rfl, rfl, rfl⟩
    | close =>
      obtain rfl := Option.some.inj hs
      exact .inl ⟨rfl, rfl, rfl⟩

theorem next_closing (m : Controller) : m.next.closing = m.closing := by
  rcases next_cases m with ⟨-, hnext⟩ | ⟨job, tail, queue, hnext, -⟩
  · rw [hnext]
  · rw [hnext]

theorem Admits.closing {ids : List String} (h : Admits m ids m') : m'.closing = m.closing := by
  cases h <;> rfl

/-- Closing publishes nothing. -/
theorem step_closing {action : Action} (hs : m.step action = some m') :
    m'.closing = false ∨ m'.answered = m.answered := by
  have hopen := step_open hs
  unfold Controller.step at hs
  split at hs
  · cases hs
  · cases action with
    | select experiment =>
      obtain rfl := Option.some.inj hs
      exact .inl hopen
    | receive =>
      simp only [receive] at hs
      split at hs
      · cases hs
      · rename_i request rest _
        obtain ⟨-, hs⟩ := Option.ite_none_right_eq_some.mp hs
        obtain rfl := Option.some.inj hs
        exact .inl ((admit_admits { m with incoming := rest } request).closing.trans hopen)
    | wake =>
      simp only [wake] at hs
      split at hs
      · obtain rfl := Option.some.inj hs
        exact .inl ((next_closing m).trans hopen)
      · cases hs
    | begin =>
      simp only [begin] at hs
      split at hs
      · obtain rfl := Option.some.inj hs
        exact .inl hopen
      · obtain rfl := Option.some.inj hs
        exact .inl hopen
      · cases hs
    | finish result =>
      simp only [finish] at hs
      split at hs
      · obtain rfl := Option.some.inj hs
        exact .inl hopen
      · cases hs
    | resume =>
      simp only [resume] at hs
      split at hs
      · split at hs
        · obtain rfl := Option.some.inj hs
          exact .inl ((next_closing _).trans hopen)
        · obtain rfl := Option.some.inj hs
          rw [cancelAll_eq]
          exact .inl ((next_closing _).trans hopen)
      · cases hs
    | answerRead place result =>
      simp only [answerRead] at hs
      split at hs
      · cases hs
      · obtain ⟨o, -, rfl⟩ := Option.map_eq_some_iff.mp hs
        exact .inl hopen
    | writeResponse =>
      simp only [writeResponse] at hs
      split at hs
      · cases hs
      · obtain rfl := Option.some.inj hs
        exact .inl hopen
    | close =>
      obtain rfl := Option.some.inj hs
      exact .inr rfl

/-- No command is answered twice, whether the controller closes or not. -/
theorem Reachable.answered_nodup (h : Reachable m) : (m.answered.map Prod.fst).Nodup := by
  induction h with
  | start => exact List.nodup_nil
  | step hbefore hnext ih =>
    rcases step_closing hnext with hopen | hsame
    · exact (hbefore.step hnext).accounted.nodup hopen |>.sublist (List.sublist_append_left _ _ |>.trans
        (List.sublist_append_left _ _) |>.trans (List.sublist_append_left _ _))
    · rw [hsame]
      exact ih
  | deliver request _ ih => exact ih
  | collect _ htaken ih =>
    unfold Controller.collect at htaken
    split at htaken
    · cases htaken
    · obtain ⟨-, rfl⟩ := Prod.mk.inj (Option.some.inj htaken)
      exact ih

/-- What happens to a controller. -/
inductive Event where
  | act (action : Action)
  | deliver (request : Request)
  | collect

def event (m : Controller) : Event → Option Controller
  | .act action => m.step action
  | .deliver request => some (m.deliver request)
  | .collect => m.collect.map Prod.snd

def events (m : Controller) (l : List Event) : Option Controller := l.foldlM event m

theorem Reachable.event (h : Reachable m) {e : Event} (he : m.event e = some m') : Reachable m' := by
  cases e with
  | act action => exact h.step he
  | deliver request =>
    obtain rfl := Option.some.inj he
    exact h.deliver request
  | collect =>
    obtain ⟨taken, htaken, rfl⟩ := Option.map_eq_some_iff.mp he
    exact h.collect htaken

theorem Reachable.events (h : Reachable m) {l : List Event} (hl : m.events l = some m') : Reachable m' := by
  induction l generalizing m with
  | nil =>
    obtain rfl := Option.some.inj hl
    exact h
  | cons e rest ih =>
    obtain ⟨next, hnext, hrest⟩ := Option.bind_eq_some_iff.mp hl
    exact ih (h.event hnext) hrest

/-- The requests that arrive. -/
def delivered (l : List Event) : List Request :=
  l.flatMap fun
    | .deliver request => [request]
    | .act _ | .collect => []

theorem event_named {e : Event} (he : m.event e = some m') : ∃ taken, m.incoming ++ delivered [e] = taken ++ m'.incoming ∧
    ((m'.controls ++ m'.asked).map fun job => job.command.commandId).Perm
      ((m.controls ++ m.asked).map (fun job => job.command.commandId) ++ taken.flatMap admittedIds) := by
  cases e with
  | act action =>
    rcases step_inputs he with ⟨hincoming, hcontrols, hasked⟩ | ⟨request, rest, hincoming, admitted, hadmits, rfl⟩
    · refine ⟨[], ?_, ?_⟩
      · rw [hincoming]
        exact List.append_nil _
      · rw [hcontrols, hasked]
        exact List.Perm.of_eq (List.append_nil _).symm
    · obtain ⟨hlater, hnamed⟩ := hadmits.named
      refine ⟨[request], ?_, ?_⟩
      · show m.incoming ++ [] = [request] ++ admitted.incoming
        rw [hlater, hincoming, List.append_nil]
        rfl
      · show List.Perm _ (_ ++ (admittedIds request ++ []))
        rw [List.append_nil]
        exact hnamed
  | deliver request =>
    obtain rfl := Option.some.inj he
    exact ⟨[], rfl, List.Perm.of_eq (List.append_nil _).symm⟩
  | collect =>
    obtain ⟨taken, htaken, rfl⟩ := Option.map_eq_some_iff.mp he
    unfold Controller.collect at htaken
    split at htaken
    · cases htaken
    · obtain rfl := Option.some.inj htaken
      exact ⟨[], List.append_nil _, List.Perm.of_eq (List.append_nil _).symm⟩

/-- What is known are the commands of the requests that have been taken, in the order of their arrival. -/
theorem events_named {l : List Event} (hl : m.events l = some m') :
    ∃ taken, m.incoming ++ delivered l = taken ++ m'.incoming ∧
      ((m'.controls ++ m'.asked).map fun job => job.command.commandId).Perm
        ((m.controls ++ m.asked).map (fun job => job.command.commandId) ++ taken.flatMap admittedIds) := by
  induction l generalizing m with
  | nil =>
    obtain rfl := Option.some.inj hl
    exact ⟨[], List.append_nil _, List.Perm.of_eq (List.append_nil _).symm⟩
  | cons e rest ih =>
    obtain ⟨next, hnext, hrest⟩ := Option.bind_eq_some_iff.mp hl
    obtain ⟨first, hfirst, hnamed⟩ := event_named hnext
    obtain ⟨others, hothers, hlater⟩ := ih hrest
    refine ⟨first ++ others, ?_, ?_⟩
    · have hsplit : delivered (e :: rest) = delivered [e] ++ delivered rest := by
        show delivered ([e] ++ rest) = _
        exact List.flatMap_append
      rw [hsplit, ← List.append_assoc, hfirst, List.append_assoc, hothers, List.append_assoc]
    · rw [List.flatMap_append, ← List.append_assoc]
      exact hlater.trans (hnamed.append_right _)

/-- Each command of a request that has been taken is in one place: answered once, current, waiting or being read. Its
outcome bears its IDs, and unless it is a cancellation or a read's, the operation has run. -/
theorem one_outcome {l : List Event} (hl : new.events l = some m) (hopen : m.closing = false) :
    (∃ taken, delivered l = taken ++ m.incoming ∧
        ((m.controls ++ m.asked).map fun job => job.command.commandId).Perm (taken.flatMap admittedIds)) ∧
      (m.controls ++ m.asked).Perm (m.answered.map Prod.fst ++ m.active ++ m.waiting ++ m.reads) ∧
      (m.answered.map Prod.fst ++ m.active ++ m.waiting ++ m.reads).Nodup ∧
      ∀ a ∈ m.answered, a.2.response.commandId = a.1.command.commandId ∧ a.2.response.chainId = a.1.command.chainId ∧
        (a.2.response.state = .cancelled ∨ a.1 ∈ m.started ∨ a.1 ∈ m.asked) := by
  have h : Reachable m := Reachable.start.events hl
  obtain ⟨taken, htaken, hnamed⟩ := events_named hl
  refine ⟨⟨taken, htaken, hnamed⟩, h.accounted.perm hopen, h.accounted.nodup hopen, fun a ha => ?_⟩
  obtain ⟨⟨hid, hchain⟩, hran⟩ := h.truthful.answered a ha
  exact ⟨hid, hchain, hran⟩

def pairChain : ServerChain where
  chainId := "chain-1"
  commands := [⟨"pause-1", "pause", [], none, by decide⟩, ⟨"snapshot-1", "snapshot", [], none, by decide⟩]
  nonempty := List.cons_ne_nil _ _
  plain := by decide

/-- The first command of a chain fails, with another command behind it. -/
def failingChain : List Event :=
  [.deliver (.submission (.chain pairChain)), .deliver (.submission (.single ⟨"step-1", "step", [], none, by decide⟩)),
    .act .receive, .act .receive, .act .wake, .act .begin, .act (.finish (.raised .runtime "No experiment is active." [])),
    .act .resume]

theorem one_outcome_failing : ∃ m, new.events failingChain = some m ∧ m.answered.length = 2 ∧
    (m.controls ++ m.asked).Perm (m.answered.map Prod.fst ++ m.active ++ m.waiting ++ m.reads) := by
  have hrun : (new.events failingChain).map (fun m => (m.closing, m.answered.length)) = some (false, 2) := by decide +kernel
  obtain ⟨m, hm, hfacts⟩ := Option.map_eq_some_iff.mp hrun
  obtain ⟨hopen, hanswered⟩ := Prod.mk.inj hfacts
  exact ⟨m, hm, hanswered, (one_outcome hm hopen).2.1⟩

/-- Operations begin in the order in which their commands came, each once and each after all earlier commands
of its chain have succeeded; once one of these has not, the rest of the chain never begins. -/
theorem chain_in_order (h : Reachable m) :
    (m.started ++ m.waiting).Sublist m.controls ∧ (m.controls.map Job.tag).Nodup ∧
      (∀ a ∈ m.started, ∀ b ∈ m.controls, b.request = a.request → b.place < a.place →
        ∃ o, (b, o) ∈ m.answered ∧ o.response.state = .succeeded) ∧
      (∀ b o, (b, o) ∈ m.answered → o.response.state ≠ .succeeded →
        ∀ a ∈ m.started, b ∈ m.controls → b.request = a.request → ¬ b.place < a.place) := by
  have hordered := h.ordered
  refine ⟨?_, h.accounted.controls, hordered.begun, fun b o hbo hstate a ha hb hrequest hplace => ?_⟩
  · refine List.Sublist.trans ?_ hordered.order
    exact (List.sublist_append_left _ _).append (List.Sublist.refl _)
  · obtain ⟨o', hbo', hsucceeded⟩ := hordered.begun a ha b hb hrequest hplace
    have hsame := List.inj_on_of_nodup_map h.answered_nodup hbo hbo' rfl
    obtain rfl := (Prod.mk.inj hsame).2
    exact hstate hsucceeded

theorem chain_in_order_failing : ∃ m, new.events failingChain = some m ∧ m.started.length = 1 ∧
    (m.started ++ m.waiting).Sublist m.controls := by
  have hrun : (new.events failingChain).map (fun m => m.started.length) = some 1 := by decide +kernel
  obtain ⟨m, hm, hstarted⟩ := Option.map_eq_some_iff.mp hrun
  exact ⟨m, hm, hstarted, (chain_in_order (Reachable.start.events hm)).1⟩

end Controller

end ModularPipelines.Server
