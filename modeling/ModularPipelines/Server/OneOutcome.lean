import ModularPipelines.Server.ControllerSteps
import Mathlib.Data.List.Nodup

namespace ModularPipelines.Server
open Library

namespace Controller

variable {m m' : Controller}

def active (m : Controller) : List Job := (m.current.map Prod.fst).toList

/-- Each job of a request is in exactly one place, and has its own tag. -/
structure Accounted (m : Controller) : Prop where
  conserved : m.closing = false → ∀ p : Job → Bool, m.controls.countP p + m.asked.countP p
    = (m.answered.map Prod.fst).countP p + m.active.countP p + m.waiting.countP p + m.reads.countP p
  numbered : ∀ j ∈ m.controls ++ m.asked, j.request < m.received
  controls : (m.controls.map Job.tag).Nodup
  asked : (m.asked.map Job.tag).Nodup
  apart : ∀ a ∈ m.controls, ∀ b ∈ m.asked, a.request ≠ b.request

theorem Accounted.new : new.Accounted := by
  refine ⟨fun _ p => rfl, fun j hj => ?_, List.nodup_nil, List.nodup_nil, fun a ha => ?_⟩
  · cases hj
  · cases ha

/-- The tags stay distinct, and only the places of the jobs change. -/
theorem Accounted.moved (h : m.Accounted) (hcontrols : m'.controls = m.controls) (hasked : m'.asked = m.asked)
    (hreceived : m'.received = m.received)
    (hplaces : m'.closing = false → ∀ p : Job → Bool,
      (m'.answered.map Prod.fst).countP p + m'.active.countP p + m'.waiting.countP p + m'.reads.countP p
        = (m.answered.map Prod.fst).countP p + m.active.countP p + m.waiting.countP p + m.reads.countP p)
    (hclosing : m'.closing = false → m.closing = false) : m'.Accounted := by
  refine ⟨fun hopen p => ?_, ?_, hcontrols ▸ h.controls, hasked ▸ h.asked, ?_⟩
  · rw [hcontrols, hasked, hplaces hopen p]
    exact h.conserved (hclosing hopen) p
  · rw [hcontrols, hasked, hreceived]
    exact h.numbered
  · rw [hcontrols, hasked]
    exact h.apart

theorem Accounted.framed (h : m.Accounted) (hcontrols : m'.controls = m.controls) (hasked : m'.asked = m.asked)
    (hreceived : m'.received = m.received) (hclosing : m'.closing = m.closing) (hanswered : m'.answered = m.answered)
    (hactive : m'.active = m.active) (hwaiting : m'.waiting = m.waiting) (hreads : m'.reads = m.reads) :
    m'.Accounted := by
  refine h.moved hcontrols hasked hreceived (fun _ p => ?_) fun hopen => hclosing ▸ hopen
  rw [hanswered, hactive, hwaiting, hreads]

/-- A request with its own number adds jobs to one of the two lists. -/
theorem Accounted.enlarged (h : m.Accounted) (controls asked : List Job) (hcontrols : m'.controls = m.controls ++ controls)
    (hasked : m'.asked = m.asked ++ asked) (hreceived : m'.received = m.received + 1)
    (hnew : ∀ j ∈ controls ++ asked, j.request = m.received) (hdistinct : (controls.map Job.tag).Nodup)
    (hdistinct' : (asked.map Job.tag).Nodup) (hone : controls = [] ∨ asked = [])
    (hplaces : m'.closing = false → ∀ p : Job → Bool,
      (m'.answered.map Prod.fst).countP p + m'.active.countP p + m'.waiting.countP p + m'.reads.countP p
        = (m.answered.map Prod.fst).countP p + m.active.countP p + m.waiting.countP p + m.reads.countP p
          + controls.countP p + asked.countP p)
    (hclosing : m'.closing = false → m.closing = false) : m'.Accounted := by
  have hold : ∀ j ∈ m.controls ++ m.asked, j.request ≠ m.received := fun j hj => Nat.ne_of_lt (h.numbered j hj)
  have htags : ∀ {old news : List Job}, (∀ j ∈ old, j.request ≠ m.received) → (∀ j ∈ news, j.request = m.received) →
      (old.map Job.tag).Nodup → (news.map Job.tag).Nodup → ((old ++ news).map Job.tag).Nodup := by
    intro old news holds hnews hfirst hsecond
    rw [List.map_append]
    refine List.Nodup.append hfirst hsecond fun t ht ht' => ?_
    obtain ⟨a, ha, rfl⟩ := List.mem_map.mp ht
    obtain ⟨b, hb, hsame⟩ := List.mem_map.mp ht'
    exact holds a ha ((congrArg Prod.fst hsame).symm.trans (hnews b hb))
  refine ⟨fun hopen p => ?_, fun j hj => ?_, ?_, ?_, fun a ha b hb => ?_⟩
  · have hbefore := h.conserved (hclosing hopen) p
    rw [hcontrols, hasked, List.countP_append, List.countP_append, hplaces hopen p]
    omega
  · rw [hreceived]
    rw [hcontrols, hasked] at hj
    have hcases : j ∈ m.controls ++ m.asked ∨ j ∈ controls ++ asked := by
      simp only [List.mem_append] at hj ⊢
      rcases hj with (hj | hj) | hj | hj
      · exact .inl (.inl hj)
      · exact .inr (.inl hj)
      · exact .inl (.inr hj)
      · exact .inr (.inr hj)
    rcases hcases with hj | hj
    · exact Nat.lt_succ_of_lt (h.numbered j hj)
    · exact Nat.lt_succ_of_le (Nat.le_of_eq (hnew j hj))
  · rw [hcontrols]
    exact htags (fun j hj => hold j (List.mem_append_left _ hj)) (fun j hj => hnew j (List.mem_append_left _ hj))
      h.controls hdistinct
  · rw [hasked]
    exact htags (fun j hj => hold j (List.mem_append_right _ hj)) (fun j hj => hnew j (List.mem_append_right _ hj))
      h.asked hdistinct'
  · rw [hcontrols] at ha
    rw [hasked] at hb
    rcases List.mem_append.mp ha with ha | ha
    · rcases List.mem_append.mp hb with hb | hb
      · exact h.apart a ha b hb
      · exact (hnew b (List.mem_append_right _ hb)).symm ▸ hold a (List.mem_append_left _ ha)
    · rcases List.mem_append.mp hb with hb | hb
      · exact (hnew a (List.mem_append_left _ ha)).symm ▸ (hold b (List.mem_append_right _ hb)).symm
      · rcases hone with rfl | rfl
        · cases ha
        · cases hb

theorem preempted_active (m : Controller) (job : Job) : (m.preempted job).active = m.active := by
  rw [active, active, preempted]
  cases m.current <;> rfl

theorem Accounted.admits (h : m.Accounted) {ids : List String} (ha : Admits m ids m') :
    ({ m' with received := m.received + 1 } : Controller).Accounted := by
  cases ha with
  | stopped =>
    exact h.enlarged [] [] (List.append_nil _).symm (List.append_nil _).symm rfl
      (fun j hj => by cases hj) List.nodup_nil List.nodup_nil (.inl rfl) (fun _ p => rfl) id
  | refused message =>
    exact h.enlarged [] [] (List.append_nil _).symm (List.append_nil _).symm rfl
      (fun j hj => by cases hj) List.nodup_nil List.nodup_nil (.inl rfl) (fun _ p => rfl) id
  | rejected job hrequest =>
    refine h.enlarged [] [job] (List.append_nil _).symm rfl rfl
      (fun j hj => List.mem_singleton.mp hj ▸ hrequest) List.nodup_nil (List.nodup_singleton _) (.inl rfl)
      (fun _ p => ?_) id
    show ((m.answered ++ [_]).map Prod.fst).countP p + m.active.countP p + m.waiting.countP p + m.reads.countP p = _
    rw [List.map_append, List.countP_append, List.countP_nil]
    show _ + [job].countP p + _ + _ + _ = _
    omega
  | read job hrequest =>
    refine h.enlarged [] [job] (List.append_nil _).symm rfl rfl
      (fun j hj => List.mem_singleton.mp hj ▸ hrequest) List.nodup_nil (List.nodup_singleton _) (.inl rfl)
      (fun _ p => ?_) id
    show (m.answered.map Prod.fst).countP p + m.active.countP p + m.waiting.countP p + (m.reads ++ [job]).countP p = _
    rw [List.countP_append, List.countP_nil]
    omega
  | preempted job hrequest _ =>
    refine h.enlarged [job] [] rfl (List.append_nil _).symm rfl
      (fun j hj => List.mem_singleton.mp hj ▸ hrequest) (List.nodup_singleton _) List.nodup_nil (.inr rfl)
      (fun _ p => ?_) id
    have hactive := preempted_active m job
    show ((m.answered ++ m.waiting.map _).map Prod.fst).countP p + (m.preempted job).active.countP p
      + [job].countP p + m.reads.countP p = _
    have hsame : (m.waiting.map fun j => (j, m.jobFailure j "command_cancelled" "Cancelled by standalone stop.")).map Prod.fst
        = m.waiting := by rw [List.map_map]; exact List.map_id _
    rw [hactive, List.map_append, hsame, List.countP_append, List.countP_nil]
    omega
  | enqueued first rest hnumbered =>
    refine h.enlarged (first :: rest) [] rfl (List.append_nil _).symm rfl
      (fun j hj => (hnumbered.request_eq ((List.append_nil (first :: rest)) ▸ hj)).1) hnumbered.nodup List.nodup_nil (.inr rfl)
      (fun _ p => ?_) id
    show _ + _ + (m.tail ++ (m.queue ++ [(first, rest)]).flatMap _).countP p + _ = _
    rw [List.flatMap_append, ← List.append_assoc, List.countP_append, List.countP_nil]
    show _ + _ + (m.waiting.countP p + ((first :: rest) ++ []).countP p) + _ = _
    rw [List.append_nil]
    show (m.answered.map Prod.fst).countP p + m.active.countP p + (m.waiting.countP p + _) + m.reads.countP p = _
    omega

/-- The next job is the first of those that wait. -/
theorem next_cases (m : Controller) :
    (m.waiting = [] ∧ m.next = { m with current := none }) ∨
      ∃ job tail queue, m.next = { m with tail := tail, queue := queue, current := some (job, .created false) } ∧
        m.waiting = job :: (tail ++ queue.flatMap fun b => b.1 :: b.2) := by
  unfold next waiting
  cases htail : m.tail with
  | cons job rest => exact .inr ⟨job, rest, m.queue, rfl, rfl⟩
  | nil =>
    cases hqueue : m.queue with
    | cons batch batches => exact .inr ⟨batch.1, batch.2, batches, rfl, rfl⟩
    | nil => exact .inl ⟨rfl, rfl⟩

theorem countP_first (p : Job → Bool) (job : Job) (rest : List Job) :
    (job :: rest).countP p = [job].countP p + rest.countP p := by
  show ([job] ++ rest).countP p = _
  exact List.countP_append

theorem Accounted.next (h : m'.Accounted)
    (hsame : m' = { m with current := m'.current }) (hnone : m'.current = none) : m.next.Accounted := by
  have hwaiting : m'.waiting = m.waiting := by rw [hsame]; rfl
  have hanswered : m'.answered = m.answered := by rw [hsame]
  have hreads : m'.reads = m.reads := by rw [hsame]
  have hclosing : m'.closing = m.closing := by rw [hsame]
  have hactive : m'.active = [] := by rw [active, hnone]; rfl
  rcases next_cases m with ⟨-, hnext⟩ | ⟨job, tail, queue, hnext, hfirst⟩
  · rw [hnext, ← hnone, ← hsame]
    exact h
  · rw [hnext]
    refine h.moved (by rw [hsame]) (by rw [hsame]) (by rw [hsame]) (fun _ p => ?_) fun hopen => hclosing.trans hopen
    show (m.answered.map Prod.fst).countP p + [job].countP p + (tail ++ queue.flatMap _).countP p + m.reads.countP p = _
    rw [hanswered, hactive, hwaiting, hreads, hfirst, countP_first p job (tail ++ _), List.countP_nil]
    omega

theorem publish_countP (m : Controller) (job : Job) (o : ControllerOutcome) (p : Job → Bool) :
    ((m.publish job o).answered.map Prod.fst).countP p = (m.answered.map Prod.fst).countP p + [job].countP p := by
  show ((m.answered ++ [(job, o)]).map Prod.fst).countP p = _
  rw [List.map_append, List.countP_append]
  rfl

theorem cancelled_countP (m : Controller) (message : String) (jobs : List Job) (p : Job → Bool) :
    ((jobs.map fun job => (job, m.jobFailure job "command_cancelled" message)).map Prod.fst).countP p = jobs.countP p := by
  rw [List.map_map]
  exact congrArg (List.countP p) (List.map_id _)

theorem Accounted.resume (h : m.Accounted) (hresume : m.resume = some m') : m'.Accounted := by
  unfold Controller.resume at hresume
  split at hresume
  · rename_i job result hcurrent
    have hactive : m.active = [job] := by rw [active, hcurrent]; rfl
    generalize result.getD (m.jobFailure job "command_cancelled" "Interrupted by standalone stop.") = o at hresume
    let answered : Controller := { m.publish job o with current := none }
    have hanswered : answered.Accounted := by
      refine h.moved rfl rfl rfl (fun _ p => ?_) id
      have hpublished := publish_countP m job o p
      show ((m.publish job o).answered.map Prod.fst).countP p + List.countP p [] + m.waiting.countP p + m.reads.countP p = _
      rw [hpublished, hactive, List.countP_nil]
      omega
    dsimp only at hresume
    split at hresume
    · obtain rfl := Option.some.inj hresume
      exact hanswered.next rfl rfl
    · obtain rfl := Option.some.inj hresume
      rw [cancelAll_eq]
      let cancelled : Controller := { answered with
        tail := []
        outbox := answered.outbox ++ m.tail.map (fun j =>
          .outcome (answered.jobFailure j "command_cancelled" "Previous command failed."))
        answered := answered.answered ++
          m.tail.map (fun j => (j, answered.jobFailure j "command_cancelled" "Previous command failed.")) }
      have hcancelled : cancelled.Accounted := by
        refine hanswered.moved rfl rfl rfl (fun _ p => ?_) id
        have htail := cancelled_countP answered "Previous command failed." m.tail p
        show ((answered.answered ++ m.tail.map _).map Prod.fst).countP p + answered.active.countP p
          + ([] ++ m.queue.flatMap _).countP p + m.reads.countP p
          = (answered.answered.map Prod.fst).countP p + answered.active.countP p
            + (m.tail ++ m.queue.flatMap _).countP p + m.reads.countP p
        rw [List.map_append, List.countP_append, htail, List.nil_append, List.countP_append]
        omega
      exact hcancelled.next rfl rfl
  · cases hresume

theorem countP_eraseIdx {jobs : List Job} {place : Nat} {job : Job} (h : jobs[place]? = some job) (p : Job → Bool) :
    (jobs.eraseIdx place).countP p + [job].countP p = jobs.countP p := by
  induction jobs generalizing place with
  | nil => cases h
  | cons first rest ih =>
    cases place with
    | zero =>
      obtain rfl := Option.some.inj h
      rw [List.eraseIdx_cons_zero, countP_first p first rest, Nat.add_comm]
    | succ k =>
      have hrest := ih (show rest[k]? = some job from h)
      rw [List.eraseIdx_cons_succ, countP_first p first, countP_first p first rest]
      omega

theorem Accounted.step (h : m.Accounted) {action : Action} (hs : m.step action = some m') : m'.Accounted := by
  unfold Controller.step at hs
  split at hs
  · cases hs
  · rename_i hopen
    cases action with
    | select experiment =>
      obtain rfl := Option.some.inj hs
      exact h.framed rfl rfl rfl rfl rfl rfl rfl rfl
    | receive =>
      simp only [receive] at hs
      split at hs
      · cases hs
      · rename_i request rest _
        obtain ⟨-, hs⟩ := Option.ite_none_right_eq_some.mp hs
        obtain rfl := Option.some.inj hs
        let taken : Controller := { m with incoming := rest }
        have htaken : taken.Accounted := h.framed rfl rfl rfl rfl rfl rfl rfl rfl
        have hadmits := admit_admits taken request
        rw [hadmits.received]
        exact htaken.admits hadmits
    | wake =>
      simp only [wake] at hs
      split at hs
      · rename_i hidle _
        obtain rfl := Option.some.inj hs
        exact h.next rfl hidle
      · cases hs
    | begin =>
      simp only [begin] at hs
      split at hs
      · rename_i job hcurrent
        obtain rfl := Option.some.inj hs
        exact h.framed rfl rfl rfl rfl rfl (by rw [active, active, hcurrent]; rfl) rfl rfl
      · rename_i job hcurrent
        obtain rfl := Option.some.inj hs
        exact h.framed rfl rfl rfl rfl rfl (by rw [active, active, hcurrent]; rfl) rfl rfl
      · cases hs
    | finish result =>
      simp only [finish] at hs
      split at hs
      · rename_i job _ hcurrent
        obtain rfl := Option.some.inj hs
        exact h.framed rfl rfl rfl rfl rfl (by rw [active, active, hcurrent]; rfl) rfl rfl
      · cases hs
    | resume => exact h.resume hs
    | answerRead place result =>
      simp only [answerRead] at hs
      split at hs
      · cases hs
      · rename_i job hjob
        obtain ⟨o, -, rfl⟩ := Option.map_eq_some_iff.mp hs
        refine h.moved rfl rfl rfl (fun _ p => ?_) id
        have hreads := countP_eraseIdx hjob p
        have hpublished := publish_countP m job o p
        show ((m.publish job o).answered.map Prod.fst).countP p + m.active.countP p + m.waiting.countP p
          + (m.reads.eraseIdx place).countP p = _
        rw [hpublished]
        omega
    | writeResponse =>
      simp only [writeResponse] at hs
      split at hs
      · cases hs
      · obtain rfl := Option.some.inj hs
        exact h.framed rfl rfl rfl rfl rfl rfl rfl rfl
    | close =>
      obtain rfl := Option.some.inj hs
      exact h.moved rfl rfl rfl (fun hclosed => by cases hclosed) fun hclosed => by cases hclosed

theorem Reachable.accounted (h : Reachable m) : m.Accounted := by
  induction h with
  | start => exact .new
  | step _ hnext ih => exact ih.step hnext
  | deliver request _ ih => exact ih.framed rfl rfl rfl rfl rfl rfl rfl rfl
  | collect _ htaken ih =>
    unfold Controller.collect at htaken
    split at htaken
    · cases htaken
    · obtain ⟨-, rfl⟩ := Prod.mk.inj (Option.some.inj htaken)
      exact ih.framed rfl rfl rfl rfl rfl rfl rfl rfl

end Controller

end ModularPipelines.Server
