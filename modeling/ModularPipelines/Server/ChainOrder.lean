import ModularPipelines.Server.OneOutcome

namespace ModularPipelines.Server
open Library

namespace Controller

variable {m m' : Controller} {job : Job} {phase : TaskPhase}

/-- The current job, as long as its operation has not begun. -/
def fresh (m : Controller) : List Job :=
  match m.current with
  | some (job, .created _) => [job]
  | _ => []

def Succeeded (m : Controller) (job : Job) : Prop := ∃ o, (job, o) ∈ m.answered ∧ o.response.state = .succeeded

/-- The earlier commands of its chain have succeeded. -/
def Led (m : Controller) (job : Job) : Prop :=
  ∀ b ∈ m.controls, b.request = job.request → b.place < job.place → m.Succeeded b

structure Ordered (m : Controller) : Prop where
  order : (m.started ++ m.fresh ++ m.waiting).Sublist m.controls
  idle : m.current = none → m.tail = []
  batches : ∀ b ∈ m.queue, Numbered b.1.request 0 (b.1 :: b.2)
  current : ∀ job phase, m.current = some (job, phase) →
    job ∈ m.controls ∧ m.Led job ∧ Numbered job.request (job.place + 1) m.tail
  begun : ∀ a ∈ m.started, m.Led a

theorem Ordered.new : new.Ordered := by
  refine ⟨List.Sublist.refl _, fun _ => rfl, fun b hb => ?_, fun job phase h => ?_, fun a ha => ?_⟩
  · cases hb
  · cases h
  · cases ha

theorem Succeeded.mono (h : m.Succeeded job) (hanswered : m.answered ⊆ m'.answered) : m'.Succeeded job := by
  obtain ⟨o, ho, hstate⟩ := h
  exact ⟨o, hanswered ho, hstate⟩

/-- New commands belong to other requests. -/
theorem Led.mono (h : m.Led job) (hanswered : m.answered ⊆ m'.answered) (news : List Job)
    (hcontrols : m'.controls = m.controls ++ news) (hnews : ∀ b ∈ news, b.request ≠ job.request) : m'.Led job := by
  intro b hb hrequest hplace
  rw [hcontrols] at hb
  rcases List.mem_append.mp hb with hb | hb
  · exact (h b hb hrequest hplace).mono hanswered
  · exact (hnews b hb hrequest).elim

theorem Led.same (h : m.Led job) (hanswered : m.answered ⊆ m'.answered) (hcontrols : m'.controls = m.controls) :
    m'.Led job := by
  refine h.mono hanswered [] ?_ fun b hb => ?_
  · rw [hcontrols, List.append_nil]
  · cases hb

theorem Ordered.framed (h : m.Ordered) (hcontrols : m'.controls = m.controls) (hanswered : m'.answered = m.answered)
    (hstarted : m'.started = m.started) (hcurrent : m'.current = m.current) (htail : m'.tail = m.tail)
    (hqueue : m'.queue = m.queue) : m'.Ordered := by
  have hfresh : m'.fresh = m.fresh := by rw [fresh, fresh, hcurrent]
  have hwaiting : m'.waiting = m.waiting := by rw [waiting, waiting, htail, hqueue]
  have hsub : m.answered ⊆ m'.answered := hanswered ▸ List.Subset.refl _
  refine ⟨?_, ?_, ?_, fun job phase hjob => ?_, fun a ha => ?_⟩
  · rw [hstarted, hfresh, hwaiting, hcontrols]
    exact h.order
  · rw [hcurrent, htail]
    exact h.idle
  · rw [hqueue]
    exact h.batches
  · rw [hcurrent] at hjob
    obtain ⟨hmem, hled, htailed⟩ := h.current job phase hjob
    rw [hcontrols, htail]
    exact ⟨hmem, hled.same hsub hcontrols, htailed⟩
  · rw [hstarted] at ha
    exact (h.begun a ha).same hsub hcontrols

theorem Ordered.started_subset (h : m.Ordered) : m.started ⊆ m.controls := by
  intro a ha
  exact h.order.subset (List.mem_append_left _ (List.mem_append_left _ ha))

/-- What waits is shortened, the current job may be cancelled, and new commands are added at the end. -/
theorem Ordered.extended (h : m.Ordered) (hnumbered : ∀ j ∈ m.controls, j.request < m.received)
    (hanswered : m.answered ⊆ m'.answered) (hstarted : m'.started = m.started) (kept news : List Job)
    (hcontrols : m'.controls = m.controls ++ news) (hnews : ∀ b ∈ news, b.request = m.received)
    (hwaiting : m'.waiting = kept ++ news) (hkept : kept.Sublist m.waiting)
    (hcurrent : ∀ job phase, m'.current = some (job, phase) → ∃ before, m.current = some (job, before))
    (hfresh : m'.fresh.Sublist m.fresh) (htail : m'.tail = m.tail ∨ m'.tail = []) (hidle : m'.current = none → m.current = none)
    (hqueue : ∀ b ∈ m'.queue, Numbered b.1.request 0 (b.1 :: b.2)) : m'.Ordered := by
  have hother : ∀ j ∈ m.controls, ∀ b ∈ news, b.request ≠ j.request := fun j hj b hb =>
    hnews b hb ▸ (Nat.ne_of_lt (hnumbered j hj)).symm
  refine ⟨?_, fun hnone => ?_, hqueue, fun job phase hjob => ?_, fun a ha => ?_⟩
  · rw [hstarted, hwaiting, hcontrols, ← List.append_assoc]
    refine List.Sublist.append ?_ (List.Sublist.refl news)
    exact List.Sublist.trans (((List.Sublist.refl _).append hfresh).append hkept) h.order
  · rcases htail with htail | htail
    · exact htail.trans (h.idle (hidle hnone))
    · exact htail
  · obtain ⟨before, hbefore⟩ := hcurrent job phase hjob
    obtain ⟨hmem, hled, htailed⟩ := h.current job before hbefore
    refine ⟨?_, hled.mono hanswered news hcontrols (hother job hmem), ?_⟩
    · rw [hcontrols]
      exact List.mem_append_left _ hmem
    · rcases htail with htail | htail
      · rw [htail]
        exact htailed
      · rw [htail]
        trivial
  · rw [hstarted] at ha
    exact (h.begun a ha).mono hanswered news hcontrols (hother a (h.started_subset ha))

theorem preempted_fresh (m : Controller) (job : Job) : (m.preempted job).fresh = m.fresh := by
  rw [fresh, fresh, preempted]
  cases m.current with
  | none => rfl
  | some c =>
    obtain ⟨j, phase⟩ := c
    cases phase <;> rfl

theorem Ordered.admits (h : m.Ordered) (ha : m.Accounted) {ids : List String} (hadmits : Admits m ids m') :
    ({ m' with received := m.received + 1 } : Controller).Ordered := by
  have hnumbered : ∀ j ∈ m.controls, j.request < m.received := fun j hj => ha.numbered j (List.mem_append_left _ hj)
  cases hadmits with
  | stopped => exact h.framed rfl rfl rfl rfl rfl rfl
  | refused message => exact h.framed rfl rfl rfl rfl rfl rfl
  | rejected job _ =>
    refine h.extended hnumbered (List.subset_append_left _ _) rfl m.waiting [] (List.append_nil _).symm
      (fun b hb => by cases hb) (List.append_nil _).symm (List.Sublist.refl _) (fun job phase hjob => ⟨phase, hjob⟩)
      (List.Sublist.refl _) (.inl rfl) id h.batches
  | read job _ => exact h.framed rfl rfl rfl rfl rfl rfl
  | preempted job hrequest hfirst =>
    refine h.extended hnumbered (List.subset_append_left _ _) rfl [] [job] rfl
      (fun b hb => List.mem_singleton.mp hb ▸ hrequest) rfl (List.nil_sublist _) (fun j phase hj => ?_) ?_ (.inr rfl) ?_ ?_
    · obtain ⟨c, hc, heq⟩ := Option.map_eq_some_iff.mp hj
      obtain ⟨rfl, -⟩ := Prod.mk.inj heq
      exact ⟨c.2, hc⟩
    · exact List.Sublist.trans (List.Sublist.refl _) (preempted_fresh m job ▸ List.Sublist.refl _)
    · exact fun hnone => Option.map_eq_none_iff.mp hnone
    · intro b hb
      obtain rfl := List.mem_singleton.mp hb
      exact ⟨rfl, hfirst, trivial⟩
  | enqueued first rest hchain =>
    refine h.extended hnumbered (List.Subset.refl _) rfl m.waiting (first :: rest) rfl
      (fun b hb => (hchain.request_eq hb).1) ?_ (List.Sublist.refl _) (fun job phase hjob => ⟨phase, hjob⟩)
      (List.Sublist.refl _) (.inl rfl) id fun b hb => ?_
    · show m.tail ++ (m.queue ++ [(first, rest)]).flatMap _ = _
      rw [List.flatMap_append, ← List.append_assoc]
      exact congrArg _ (List.append_nil _)
    · rcases List.mem_append.mp hb with hb | hb
      · exact h.batches b hb
      · obtain rfl := List.mem_singleton.mp hb
        obtain ⟨hrequest, hplace, hrest⟩ := hchain
        rw [← hrequest] at hrest
        exact ⟨rfl, hplace, hrest⟩

/-- The loop takes its next job: the earlier commands of that chain have succeeded. -/
theorem Ordered.next (hordered : (m.started ++ m.waiting).Sublist m.controls)
    (hbatches : ∀ b ∈ m.queue, Numbered b.1.request 0 (b.1 :: b.2)) (hbegun : ∀ a ∈ m.started, m.Led a)
    (htail : ∀ job rest, m.tail = job :: rest → m.Led job ∧ Numbered job.request (job.place + 1) rest) : m.next.Ordered := by
  have hwaiting : m.waiting ⊆ m.controls := fun a ha => hordered.subset (List.mem_append_right _ ha)
  unfold Controller.next
  cases hfirst : m.tail with
  | cons job rest =>
    obtain ⟨hled, hrest⟩ := htail job rest hfirst
    refine ⟨?_, fun hnone => (by cases hnone), hbatches, fun other phase hother => ?_, hbegun⟩
    · have hsame : m.waiting = [job] ++ (rest ++ m.queue.flatMap fun b => b.1 :: b.2) := by rw [waiting, hfirst]; rfl
      rw [hsame, ← List.append_assoc] at hordered
      exact hordered
    · obtain ⟨rfl, -⟩ := Prod.mk.inj (Option.some.inj hother)
      refine ⟨hwaiting ?_, hled, hrest⟩
      rw [waiting, hfirst]
      exact List.mem_append_left _ (List.mem_cons_self ..)
  | nil =>
    cases hqueue : m.queue with
    | nil =>
      refine ⟨?_, fun _ => rfl, fun b hb => (by cases hb), fun other phase hother => (by cases hother), hbegun⟩
      have hnone : m.waiting = [] := by rw [waiting, hfirst, hqueue]; rfl
      rw [hnone, List.append_nil] at hordered
      show (m.started ++ [] ++ []).Sublist m.controls
      rw [List.append_nil, List.append_nil]
      exact hordered
    | cons batch batches =>
      obtain ⟨job, rest⟩ := batch
      have hbatch := hbatches (job, rest) (hqueue ▸ List.mem_cons_self ..)
      obtain ⟨-, hplace, hrest⟩ := hbatch
      refine ⟨?_, fun hnone => (by cases hnone), fun b hb => ?_, fun other phase hother => ?_, hbegun⟩
      · have hsame : m.waiting = [job] ++ (rest ++ batches.flatMap fun b => b.1 :: b.2) := by
          rw [waiting, hfirst, hqueue]
          rfl
        rw [hsame, ← List.append_assoc] at hordered
        exact hordered
      · exact hbatches b (hqueue ▸ List.mem_cons_of_mem _ hb)
      · obtain ⟨rfl, -⟩ := Prod.mk.inj (Option.some.inj hother)
        refine ⟨hwaiting ?_, fun b _ _ hearlier => ?_, hplace ▸ hrest⟩
        · rw [waiting, hfirst, hqueue]
          exact List.mem_cons_self ..
        · rw [hplace] at hearlier
          exact (Nat.not_lt_zero _ hearlier).elim

theorem tag_unique (ha : m.Accounted) {a b : Job} (hain : a ∈ m.controls) (hbin : b ∈ m.controls)
    (hrequest : a.request = b.request) (hplace : a.place = b.place) : a = b :=
  List.inj_on_of_nodup_map ha.controls hain hbin (Prod.ext hrequest hplace)

/-- After a success the next command of the chain is led, after anything else the chain is over. -/
theorem Ordered.resume (h : m.Ordered) (ha : m.Accounted) (hresume : m.resume = some m') : m'.Ordered := by
  unfold Controller.resume at hresume
  split at hresume
  · rename_i job result hcurrent
    obtain ⟨hmem, hled, htailed⟩ := h.current _ _ hcurrent
    have hfresh : m.fresh = [] := by rw [fresh, hcurrent]
    have horder := h.order
    rw [hfresh, List.append_nil] at horder
    generalize result.getD (m.jobFailure job "command_cancelled" "Interrupted by standalone stop.") = o at hresume
    have hsub : m.answered ⊆ (m.publish job o).answered := List.subset_append_left _ _
    dsimp only at hresume
    split at hresume
    · rename_i hsucceeded
      obtain rfl := Option.some.inj hresume
      refine Ordered.next (m := m.publish job o) horder h.batches (fun a hain => (h.begun a hain).same hsub rfl)
        fun first rest htail => ?_
      have htailed' : Numbered job.request (job.place + 1) (first :: rest) := htail ▸ htailed
      obtain ⟨hrequest, hplace, hrest⟩ := htailed'
      refine ⟨fun b hb hbrequest hearlier => ?_, ?_⟩
      · rcases Nat.lt_or_ge b.place job.place with hless | hmore
        · exact (hled b hb (hbrequest.trans hrequest) hless).mono hsub
        · have hsame : b = job := tag_unique ha hb hmem (hbrequest.trans hrequest) (by omega)
          subst hsame
          exact ⟨o, List.mem_append_right _ (List.mem_singleton_self _), hsucceeded⟩
      · rw [hrequest, hplace]
        exact hrest
    · obtain rfl := Option.some.inj hresume
      rw [cancelAll_eq]
      refine Ordered.next ?_ h.batches (fun a hain => ?_) fun first rest htail => (by cases htail)
      · show (m.started ++ ([] ++ m.queue.flatMap _)).Sublist m.controls
        exact List.Sublist.trans ((List.Sublist.refl _).append (List.sublist_append_right m.tail _)) horder
      · exact (h.begun a hain).same (List.Subset.trans hsub (List.subset_append_left _ _)) rfl
  · cases hresume

theorem Ordered.begin (h : m.Ordered) (hbegin : m.begin = some m') : m'.Ordered := by
  unfold Controller.begin at hbegin
  split at hbegin
  · rename_i job hcurrent
    obtain rfl := Option.some.inj hbegin
    have horder := h.order
    have hfresh : m.fresh = [job] := by rw [fresh, hcurrent]
    refine ⟨?_, fun hnone => (by cases hnone), h.batches, fun other phase hother => ?_, h.begun⟩
    · rw [hfresh] at horder
      refine List.Sublist.trans ?_ horder
      exact ((List.Sublist.refl _).append (List.nil_sublist _)).append (List.Sublist.refl _)
    · obtain ⟨rfl, -⟩ := Prod.mk.inj (Option.some.inj hother)
      exact h.current _ _ hcurrent
  · rename_i job hcurrent
    obtain rfl := Option.some.inj hbegin
    have horder := h.order
    have hfresh : m.fresh = [job] := by rw [fresh, hcurrent]
    obtain ⟨hmem, hled, htailed⟩ := h.current _ _ hcurrent
    refine ⟨?_, fun hnone => (by cases hnone), h.batches, fun other phase hother => ?_, fun a hain => ?_⟩
    · rw [hfresh] at horder
      show (m.started ++ [job] ++ [] ++ m.waiting).Sublist m.controls
      rw [List.append_nil]
      exact horder
    · obtain ⟨rfl, -⟩ := Prod.mk.inj (Option.some.inj hother)
      exact ⟨hmem, hled, htailed⟩
    · rcases List.mem_append.mp hain with hain | hain
      · exact h.begun a hain
      · obtain rfl := List.mem_singleton.mp hain
        exact hled
  · cases hbegin

theorem Ordered.step (h : m.Ordered) (ha : m.Accounted) {action : Action} (hs : m.step action = some m') : m'.Ordered := by
  unfold Controller.step at hs
  split at hs
  · cases hs
  · cases action with
    | select experiment =>
      obtain rfl := Option.some.inj hs
      exact h.framed rfl rfl rfl rfl rfl rfl
    | receive =>
      simp only [receive] at hs
      split at hs
      · cases hs
      · rename_i request rest _
        obtain ⟨-, hs⟩ := Option.ite_none_right_eq_some.mp hs
        obtain rfl := Option.some.inj hs
        let taken : Controller := { m with incoming := rest }
        have htaken : taken.Ordered := h.framed rfl rfl rfl rfl rfl rfl
        have hcounted : taken.Accounted := ha.framed rfl rfl rfl rfl rfl rfl rfl rfl
        have hadmits := admit_admits taken request
        rw [hadmits.received]
        exact htaken.admits hcounted hadmits
    | wake =>
      simp only [wake] at hs
      split at hs
      · rename_i hidle _
        obtain rfl := Option.some.inj hs
        have hfresh : m.fresh = [] := by rw [fresh, hidle]
        have horder := h.order
        rw [hfresh, List.append_nil] at horder
        refine Ordered.next horder h.batches h.begun fun job rest htail => ?_
        rw [h.idle hidle] at htail
        cases htail
      · cases hs
    | begin => exact h.begin hs
    | finish result =>
      simp only [finish] at hs
      split at hs
      · rename_i job _ hcurrent
        obtain rfl := Option.some.inj hs
        have horder := h.order
        have hfresh : m.fresh = [] := by rw [fresh, hcurrent]
        rw [hfresh] at horder
        refine ⟨horder, fun hnone => (by cases hnone), h.batches, fun other phase hother => ?_, h.begun⟩
        obtain ⟨rfl, -⟩ := Prod.mk.inj (Option.some.inj hother)
        exact h.current _ _ hcurrent
      · cases hs
    | resume => exact h.resume ha hs
    | answerRead place result =>
      simp only [answerRead] at hs
      split at hs
      · cases hs
      · rename_i job _
        obtain ⟨o, -, rfl⟩ := Option.map_eq_some_iff.mp hs
        have hsub : m.answered ⊆ m.answered ++ [(job, o)] := List.subset_append_left _ _
        refine ⟨h.order, h.idle, h.batches, fun job phase hjob => ?_, fun a hain => (h.begun a hain).same hsub rfl⟩
        obtain ⟨hmem, hled, htailed⟩ := h.current job phase hjob
        exact ⟨hmem, hled.same hsub rfl, htailed⟩
    | writeResponse =>
      simp only [writeResponse] at hs
      split at hs
      · cases hs
      · obtain rfl := Option.some.inj hs
        exact h.framed rfl rfl rfl rfl rfl rfl
    | close =>
      obtain rfl := Option.some.inj hs
      refine ⟨?_, fun _ => rfl, h.batches, fun job phase hjob => ?_, h.begun⟩
      · refine List.Sublist.trans ?_ h.order
        exact (List.Sublist.refl _).append (List.sublist_append_right m.tail _)
      · obtain ⟨hmem, hled, -⟩ := h.current job phase hjob
        exact ⟨hmem, hled, trivial⟩

theorem Reachable.ordered (h : Reachable m) : m.Ordered := by
  induction h with
  | start => exact .new
  | step hbefore hnext ih => exact ih.step hbefore.accounted hnext
  | deliver request _ ih => exact ih.framed rfl rfl rfl rfl rfl rfl
  | collect _ htaken ih =>
    unfold Controller.collect at htaken
    split at htaken
    · cases htaken
    · obtain ⟨-, rfl⟩ := Prod.mk.inj (Option.some.inj htaken)
      exact ih.framed rfl rfl rfl rfl rfl rfl

end Controller

end ModularPipelines.Server
