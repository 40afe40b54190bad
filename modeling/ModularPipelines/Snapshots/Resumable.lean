import ModularPipelines.Snapshots.Protection

namespace ModularPipelines.Snapshots.RestoreMachine
variable {Tree : Type}

/-- An interrupted service start is settled only once each process that it left alive is
known from the disk. -/
def Accounted (m : RestoreMachine Tree) : RestoreAction Tree → Prop
  | .proceed o => o.confirmed = true → (∃ next, m.position = .settling next) → m.hidden = []
  | _ => True

def AllAccounted (a : Archives Tree) (m : RestoreMachine Tree) : List (RestoreAction Tree) → Prop
  | [] => True
  | action :: rest => m.Accounted action ∧ ∀ m', m.step a action = some m' → AllAccounted a m' rest

def settles : Position → Bool
  | .settling _ => true
  | _ => false

theorem settles_iff (p : Position) : settles p = true ↔ ∃ next, p = .settling next := by
  cases p <;> simp [settles]

instance decidableAccounted (m : RestoreMachine Tree) (action : RestoreAction Tree) : Decidable (m.Accounted action) :=
  match action with
  | .proceed o =>
    have : Decidable (∃ next, m.position = .settling next) := decidable_of_iff _ (settles_iff m.position)
    inferInstanceAs (Decidable (o.confirmed = true → (∃ next, m.position = .settling next) → m.hidden = []))
  | .request _ | .resume | .raise | .die | .spawn _ | .save _ | .announce _ | .exit _ | .write _ => isTrue trivial

instance decidableAllAccounted (a : Archives Tree) :
    (m : RestoreMachine Tree) → (actions : List (RestoreAction Tree)) → Decidable (AllAccounted a m actions)
  | _, [] => isTrue trivial
  | m, action :: rest =>
    have : Decidable (∀ m', m.step a action = some m' → AllAccounted a m' rest) :=
      match h : m.step a action with
      | none => isTrue (by simp)
      | some m' =>
        have : Decidable (AllAccounted a m' rest) := decidableAllAccounted a m' rest
        decidable_of_iff (AllAccounted a m' rest) (by simp)
    inferInstanceAs (Decidable (m.Accounted action ∧ ∀ m', m.step a action = some m' → AllAccounted a m' rest))

/-- Files are replaced only when no restored service process is alive. -/
def StoppedBefore (m m' : RestoreMachine Tree) : Prop :=
  m'.target ≠ m.target → m.position = .displacing ∨ m.position = .installing → m.participants = []

/-- Which restored processes can be alive: none before the services start again, and only
known ones once a transaction is over. -/
structure Quiet (m : RestoreMachine Tree) : Prop where
  unmarked : m.marker = none → m.hidden = []
  recording : ∀ next, m.position = .recording next → m.participants = []
  before : ∀ t, m.marker = some t → t.phase ≠ .servicesStarting → t.phase ≠ .failed → t.phase ≠ .complete →
    m.participants = []
  complete : ∀ t, m.marker = some t → t.phase = .complete → m.hidden = []
  retiring : ∀ next, m.position = .retiring next → m.hidden = []

section Step
variable {a : Archives Tree} {m m' : RestoreMachine Tree} {action : RestoreAction Tree}

theorem Quiet.kept (hq : Quiet m) (hmarker : m'.marker = m.marker) (hparticipants : m'.participants = m.participants)
    (hrecording : ∀ next, m'.position ≠ .recording next)
    (hretiring : ∀ next, m'.position = .retiring next → m.hidden = []) : Quiet m' where
  unmarked := by
    intro hnone
    rw [hidden, hparticipants]
    exact hq.unmarked (hmarker ▸ hnone)
  recording := by
    intro next hp
    exact (hrecording next hp).elim
  before := by
    intro t ht
    rw [hparticipants]
    exact hq.before t (hmarker ▸ ht)
  complete := by
    intro t ht
    rw [hidden, hparticipants]
    exact hq.complete t (hmarker ▸ ht)
  retiring := by
    intro next hp
    rw [hidden, hparticipants]
    exact hretiring next hp

/-- Each marker write: what is alive stays allowed in the phase that it records. -/
theorem Quiet.of_marked {t : RestoreTransaction} (ht : m.marker = some t)
    (hbefore : t.phase ≠ .servicesStarting → t.phase ≠ .failed → t.phase ≠ .complete → m.participants = [])
    (hcomplete : t.phase = .complete → m.hidden = []) (hrecording : ∀ next, m.position ≠ .recording next)
    (hretiring : ∀ next, m.position = .retiring next → m.hidden = []) : Quiet m where
  unmarked := by
    intro hnone
    rw [ht] at hnone
    cases hnone
  recording := by
    intro next hp
    exact (hrecording next hp).elim
  before := by
    intro t' ht'
    rw [ht] at ht'
    cases ht'
    exact hbefore
  complete := by
    intro t' ht'
    rw [ht] at ht'
    cases ht'
    exact hcomplete
  retiring := hretiring

theorem settle_quiet {t : RestoreTransaction} {o : Progress Tree} {next : Option Selection}
    (hconfirmed : o.confirmed = true → m.hidden = []) (hstep : m.settle o t next = some m') : Quiet m' := by
  unfold settle at hstep
  split at hstep
  · split at hstep
    · rename_i hstopped
      have hhidden := hconfirmed hstopped
      cases hstep
      apply Quiet.of_marked rfl <;> cases next <;> simp [hhidden, moveTo]
      simp [hidden]
    · cases hstep
      apply Quiet.of_marked rfl <;> simp [moveTo]
  · cases hstep

/-- What happens between two marker writes concerns no process. -/
structure Between (m m' : RestoreMachine Tree) : Prop where
  marker : m'.marker = m.marker
  participants : m'.participants = m.participants
  position : ∀ next, m'.position ≠ .recording next ∧ m'.position ≠ .retiring next

theorem Between.quiet (h : Between m m') (hq : Quiet m) : Quiet m' := by
  apply hq.kept h.marker h.participants
  · intro next
    exact (h.position next).1
  · intro next hp
    exact ((h.position next).2 hp).elim

theorem moveTo_between {p : Position} (hp : ∀ next, p ≠ .recording next ∧ p ≠ .retiring next) :
    Between m (m.moveTo p) := ⟨rfl, rfl, hp⟩

theorem enter_between (m : RestoreMachine Tree) (t : RestoreTransaction) : Between m (m.enter t) := by
  unfold enter
  split <;> exact ⟨rfl, rfl, by simp⟩

theorem clearCached_between (m : RestoreMachine Tree) (o : Progress Tree) (t : RestoreTransaction) :
    Between m (m.clearCached o t) := by
  refine ⟨rfl, rfl, ?_⟩
  intro next
  obtain hremove | hremove := remove_cases o (m.workspace t).cached <;> simp [clearCached, hremove]

theorem clearReplacement_between (m : RestoreMachine Tree) (o : Progress Tree) (t : RestoreTransaction) :
    Between m (m.clearReplacement o t) := by
  refine ⟨rfl, rfl, ?_⟩
  intro next
  obtain hremove | hremove := remove_cases o (m.workspace t).replacement <;> simp [clearReplacement, hremove]

theorem cleanPrevious_between (m : RestoreMachine Tree) (o : Progress Tree) (t : RestoreTransaction) :
    Between m (m.cleanPrevious o t) := by
  refine ⟨rfl, rfl, ?_⟩
  intro next
  obtain hremove | hremove := remove_cases o (m.workspace t).previous <;> simp [cleanPrevious, hremove]

theorem cleanCached_between (m : RestoreMachine Tree) (o : Progress Tree) (t : RestoreTransaction) :
    Between m (m.cleanCached o t) := by
  refine ⟨rfl, rfl, ?_⟩
  intro next
  obtain hremove | hremove := remove_cases o (m.workspace t).cached <;> simp [cleanCached, hremove]

theorem copyCached_between {o : Progress Tree} {t : RestoreTransaction} (hstep : copyCached a m o t = some m') :
    Between m m' := by
  obtain ⟨source, -, hstep⟩ := Option.bind_eq_some_iff.mp hstep
  obtain ⟨copied, hcopy, hstep⟩ := Option.bind_eq_some_iff.mp hstep
  cases hstep
  obtain hpart | hwhole := copy_cases hcopy
  · exact ⟨rfl, rfl, by simp [hpart]⟩
  · exact ⟨rfl, rfl, by simp [hwhole]⟩

theorem copyReplacement_between {o : Progress Tree} {t : RestoreTransaction}
    (hstep : copyReplacement a m o t = some m') : Between m m' := by
  unfold copyReplacement at hstep
  split at hstep
  · obtain ⟨copied, hcopy, hstep⟩ := Option.bind_eq_some_iff.mp hstep
    cases hstep
    obtain hpart | hwhole := copy_cases hcopy
    · exact ⟨rfl, rfl, by simp [hpart]⟩
    · exact ⟨rfl, rfl, by simp [hwhole]⟩
  · cases hstep

theorem readCached_between {t : RestoreTransaction} {next : Position} (hstep : m.readCached t next = some m')
    (hp : ∀ selection, next ≠ .recording selection ∧ next ≠ .retiring selection) : Between m m' := by
  rw [readCached_eq hstep]
  exact ⟨rfl, rfl, hp⟩

theorem displace_between {t : RestoreTransaction} (hstep : m.displace t = some m') : Between m m' := by
  unfold displace at hstep
  simp only at hstep
  split at hstep
  · cases hstep
    exact ⟨rfl, rfl, by simp⟩
  · split at hstep
    · cases hstep
      exact ⟨rfl, rfl, by simp⟩
    · cases hstep

theorem install_between {t : RestoreTransaction} (hstep : m.install t = some m') : Between m m' := by
  unfold install at hstep
  simp only at hstep
  split at hstep
  · cases hstep
    exact ⟨rfl, rfl, by simp⟩
  · cases hstep
  · cases hstep
  · cases hstep
    exact ⟨rfl, rfl, by simp⟩

theorem written_between {tree : Option Tree} {p : Position} (hp : ∀ next, p ≠ .recording next ∧ p ≠ .retiring next) :
    Between m ((m.written tree).moveTo p) := by
  obtain hsame | ⟨old, now, -, hnow⟩ := written_cases m tree
  · rw [hsame]
    exact ⟨rfl, rfl, hp⟩
  · rw [hnow]
    exact ⟨rfl, rfl, hp⟩

theorem bind_between {o : Progress Tree} {t : RestoreTransaction} (hp : m.position = .binding)
    (hstep : m.bind o t = some m') : Between m m' := by
  unfold bind at hstep
  split at hstep
  · split at hstep
    · cases hstep
      rw [written_moveTo hp]
      exact written_between (by simp)
    · cases hstep
      apply written_between
      split <;> simp
  · cases hstep

theorem advance_quiet {t : RestoreTransaction} {o : Progress Tree} (h : Sound a m) (hq : Quiet m)
    (ht : m.marker = some t) (hconfirmed : o.confirmed = true → (∃ next, m.position = .settling next) → m.hidden = [])
    (hstep : advance a m o t = some m') : Quiet m' := by
  have hat := h.position t ht
  have hnone : t.phase ≠ .servicesStarting ∧ t.phase ≠ .failed ∧ t.phase ≠ .complete → m.participants = [] := by
    rintro ⟨hstarting, hfailed, hcomplete⟩
    exact hq.before t ht hstarting hfailed hcomplete
  unfold advance at hstep
  cases hp : m.position <;> simp only [hp] at hstep <;> simp only [At, hp] at hat
  case settling next => exact settle_quiet (fun hstopped => hconfirmed hstopped ⟨next, hp⟩) hstep
  case retiring next =>
    cases hstep
    exact ⟨fun _ => hq.retiring next hp, by simp [moveTo], by simp, by simp, by simp [moveTo]⟩
  case preparing =>
    cases hstep
    apply Quiet.of_marked rfl <;> simp [mark, moveTo, hnone, hat.1]
  case installed =>
    cases hstep
    apply Quiet.of_marked rfl <;> simp [mark, moveTo, hnone, hat.1]
  case bound =>
    cases hstep
    apply Quiet.of_marked rfl <;> simp [mark, moveTo, hnone, hat]
  case launching =>
    cases hstep
    apply Quiet.of_marked rfl <;> simp [moveTo]
  case finishing =>
    cases hstep
    apply Quiet.of_marked rfl <;> cases o.preserve <;> simp [complete, mark, moveTo, hidden, Participant.visible]
  case failing =>
    cases hstep
    apply Quiet.of_marked rfl <;> simp [abandon, mark, moveTo]
  case entered =>
    cases hstep
    exact (enter_between m t).quiet hq
  case clearingCached =>
    cases hstep
    exact (clearCached_between m o t).quiet hq
  case clearingReplacement =>
    cases hstep
    exact (clearReplacement_between m o t).quiet hq
  case copyingCached => exact (copyCached_between hstep).quiet hq
  case copyingReplacement => exact (copyReplacement_between hstep).quiet hq
  case readingCached => exact (readCached_between hstep (by simp)).quiet hq
  case checking => exact (readCached_between hstep (by split <;> simp)).quiet hq
  case displacing => exact (displace_between hstep).quiet hq
  case installing => exact (install_between hstep).quiet hq
  case binding => exact (bind_between hp hstep).quiet hq
  case starting =>
    cases hstep
    refine Between.quiet (written_between ?_) hq
    split <;> simp
  case cleaningPrevious =>
    cases hstep
    exact (cleanPrevious_between m o t).quiet hq
  case cleaningCached =>
    cases hstep
    exact (cleanCached_between m o t).quiet hq
  all_goals cases hstep

/-- Nobody appears, and nobody known becomes unknown. -/
theorem Quiet.fewer (hq : Quiet m) (hmarker : m'.marker = m.marker) (hposition : m'.position = m.position)
    (hnobody : m.participants = [] → m'.participants = []) (hknown : m.hidden = [] → m'.hidden = []) : Quiet m' where
  unmarked := by
    intro hnone
    exact hknown (hq.unmarked (hmarker ▸ hnone))
  recording := by
    intro next hp
    exact hnobody (hq.recording next (hposition ▸ hp))
  before := by
    intro t ht hstarting hfailed hcomplete
    exact hnobody (hq.before t (hmarker ▸ ht) hstarting hfailed hcomplete)
  complete := by
    intro t ht hcomplete
    exact hknown (hq.complete t (hmarker ▸ ht) hcomplete)
  retiring := by
    intro next hp
    exact hknown (hq.retiring next (hposition ▸ hp))

/-- A process that gets a record, or that is left as it is, stays known. -/
theorem hidden_map {f : Participant → Participant} (hf : ∀ p, p.visible = true → (f p).visible = true)
    (hknown : m.hidden = []) : { m with participants := m.participants.map f }.hidden = [] := by
  simp only [hidden, List.filter_eq_nil_iff, List.mem_map] at hknown ⊢
  intro p' hp'
  obtain ⟨p, hp, rfl⟩ := hp'
  have hvisible := hknown p hp
  simp only [Bool.not_eq_true', Bool.not_eq_false] at hvisible
  simp [hf p hvisible]

theorem proceed_quiet {o : Progress Tree} (h : Sound a m) (hq : Quiet m) (hacc : m.Accounted (.proceed o))
    (hstep : m.proceed a o = some m') : Quiet m' := by
  unfold proceed at hstep
  split at hstep
  · rename_i next hp
    have hm := unmarked_of_free h ⟨next, .inl hp⟩
    have hnobody := hq.unmarked hm
    cases hstep
    unfold stopBarrier
    split
    · rw [hnobody]
      refine ⟨fun _ => rfl, fun _ _ => rfl, ?_, ?_, fun _ _ => rfl⟩ <;> simp [moveTo, hm]
    · exact (moveTo_between (by simp)).quiet hq
  · rename_i next hp
    have hnobody := hq.recording next hp
    unfold record at hstep
    split at hstep
    · split at hstep
      · cases hstep
      · cases hstep
        apply Quiet.of_marked rfl <;> simp [moveTo, hnobody]
    · cases hstep
  · rename_i t ht _ _
    exact advance_quiet h hq ht hacc hstep
  · cases hstep

theorem request_quiet {selection : Selection} (hq : Quiet m) (hstep : m.request selection = some m') : Quiet m' := by
  unfold request at hstep
  split at hstep
  · cases hstep
    exact (moveTo_between (by simp)).quiet hq
  · rename_i t ht
    split at hstep
    · cases hstep
      exact (moveTo_between (by simp)).quiet hq
    · split at hstep
      · rename_i hcomplete
        cases hstep
        refine Quiet.kept hq rfl rfl (by simp) ?_
        intro next _
        exact hq.complete t ht hcomplete
      · split at hstep
        · cases hstep
          exact (moveTo_between (by simp)).quiet hq
        · cases hstep

theorem step_quiet (h : Sound a m) (hq : Quiet m) (hacc : m.Accounted action) (hstep : m.step a action = some m') :
    Quiet m' := by
  cases action with
  | request selection =>
    simp only [step] at hstep
    split at hstep
    · exact request_quiet hq hstep
    · cases hstep
  | resume =>
    simp only [step] at hstep
    split at hstep
    · cases hstep
      exact (moveTo_between (by simp)).quiet hq
    · cases hstep
  | proceed o => exact proceed_quiet h hq hacc hstep
  | raise =>
    cases hstep
    exact (moveTo_between (by split <;> simp)).quiet hq
  | die =>
    cases hstep
    exact (moveTo_between (by simp)).quiet hq
  | spawn instanceId =>
    simp only [step] at hstep
    split at hstep
    · rename_i hp
      cases hstep
      cases hm : m.marker with
      | none =>
        obtain ⟨-, hidle | ⟨next, hbarrier | hrecording⟩⟩ := h.unmarked hm <;> simp_all
      | some t =>
        have hphase := h.position t hm
        simp only [At, hp] at hphase
        apply Quiet.of_marked rfl <;> simp [hphase, hp]
    · cases hstep
  | save instanceId =>
    simp only [step] at hstep
    split at hstep
    · cases hstep
      refine Quiet.fewer hq rfl rfl (fun hnobody => by simp [hnobody]) (hidden_map ?_)
      intro p hvisible
      split
      · rfl
      · exact hvisible
    · cases hstep
  | announce instanceId =>
    cases hstep
    refine Quiet.fewer hq rfl rfl (fun hnobody => by simp [hnobody]) (hidden_map ?_)
    intro p hvisible
    split
    · simp [Participant.visible]
    · exact hvisible
  | exit instanceId =>
    cases hstep
    refine Quiet.fewer hq rfl rfl (fun hnobody => by simp [hnobody]) ?_
    intro hknown
    simp only [hidden, List.filter_eq_nil_iff, List.mem_filter] at hknown ⊢
    intro p hp
    exact hknown p hp.1
  | write tree =>
    simp only [step] at hstep
    split at hstep
    · rename_i hwrite
      cases hstep
      rw [written_moveTo hwrite.1]
      exact (written_between (by simp)).quiet hq
    · cases hstep

end Step

section Run
variable {a : Archives Tree} {m m' : RestoreMachine Tree}

theorem start_sound (a : Archives Tree) (tree : Tree) : Sound a (start tree) where
  fresh := fun _ _ => rfl
  unmarked := fun _ => ⟨⟨tree, rfl⟩, .inl rfl⟩
  drawn := by simp [start]
  trees := by simp [start]
  position := by simp [start]

theorem start_quiet (tree : Tree) : Quiet (start tree) where
  unmarked := fun _ => rfl
  recording := fun _ _ => rfl
  before := fun _ _ _ _ _ => rfl
  complete := fun _ _ _ => rfl
  retiring := fun _ _ => rfl

theorem run_sound {actions : List (RestoreAction Tree)} (h : Sound a m) (hrun : run a m actions = some m') :
    Sound a m' := by
  induction actions generalizing m with
  | nil =>
    cases hrun
    exact h
  | cons action rest ih =>
    obtain ⟨next, hstep, hrest⟩ := Option.bind_eq_some_iff.mp hrun
    exact ih (step_protected h hstep).1 hrest

theorem run_quiet {actions : List (RestoreAction Tree)} (h : Sound a m) (hq : Quiet m)
    (hacc : AllAccounted a m actions) (hrun : run a m actions = some m') : Quiet m' := by
  induction actions generalizing m with
  | nil =>
    cases hrun
    exact hq
  | cons action rest ih =>
    obtain ⟨next, hstep, hrest⟩ := Option.bind_eq_some_iff.mp hrun
    exact ih (step_protected h hstep).1 (step_quiet h hq hacc.1 hstep) (hacc.2 next hstep) hrest

/-- Files move only in the phase `prepared`, before the services start again. -/
theorem stoppedBefore_of_quiet (h : Sound a m) (hq : Quiet m) : StoppedBefore m m' := by
  intro _ hp
  cases hm : m.marker with
  | none => obtain ⟨-, hidle | ⟨next, hbarrier | hrecording⟩⟩ := h.unmarked hm <;> simp_all
  | some t =>
    have hat := h.position t hm
    have hphase : t.phase = .prepared := by
      obtain hp | hp := hp <;> simp only [At, hp] at hat
      · exact hat
      · exact hat.1
    apply hq.before t hm <;> simp [hphase]

/-- Across any crashes and resumptions the experiment and the tree that it displaces stay
whole, and no restored process is alive when files are replaced, provided that each
interrupted start that is settled has its processes on record. -/
theorem restore_resumable (a : Archives Tree) (tree : Tree) (actions : List (RestoreAction Tree))
    (m : RestoreMachine Tree) (action : RestoreAction Tree) (m' : RestoreMachine Tree)
    (hrun : run a (start tree) actions = some m) (hstep : m.step a action = some m') :
    Protected a m action m' ∧ (AllAccounted a (start tree) actions → StoppedBefore m m') := by
  have hsound := run_sound (start_sound a tree) hrun
  refine ⟨(step_protected hsound hstep).2, ?_⟩
  intro hacc
  exact stoppedBefore_of_quiet hsound (run_quiet (start_sound a tree) (start_quiet tree) hacc hrun)

end Run

/-- One archived snapshot, whose staging only adds a mark. -/
def archivedSnapshot : Archives Nat := ⟨fun _ _ => some 7, fun _ tree => tree + 100⟩

def confirmed : Progress Nat := ⟨false, true, none, false, fun _ => false⟩

/-- A restoration that is asked for and carried out up to a position. -/
def restoring (restorationId : String) (steps : Nat) : List (RestoreAction Nat) :=
  .request ⟨restorationId, "experiment", "snapshot"⟩ :: List.replicate steps (.proceed confirmed)

/-- The service announces itself before the restoration is resumed, and a new one follows. -/
def announcedService : List (RestoreAction Nat) :=
  restoring "first" 16 ++ [.spawn "service", .die, .announce "service", .resume, .proceed confirmed, .proceed confirmed] ++
    restoring "second" 12

theorem restore_resumable_announced : ∃ m m', run archivedSnapshot (start 1) announcedService = some m ∧
    m.step archivedSnapshot (.proceed confirmed) = some m' ∧ m'.target ≠ m.target ∧
    Protected archivedSnapshot m (.proceed confirmed) m' ∧ StoppedBefore m m' := by
  have hrun : ((run archivedSnapshot (start 1) announcedService).map (fun m => (m.target,
      (m.step archivedSnapshot (.proceed confirmed)).map (·.target)))) = some (some (.whole 107), some none) := by
    decide +kernel
  have haccounted : AllAccounted archivedSnapshot (start 1) announcedService := by
    decide +kernel
  obtain ⟨m, hm, hsees⟩ := Option.map_eq_some_iff.mp hrun
  simp only [Prod.mk.injEq] at hsees
  obtain ⟨htarget, hstep⟩ := hsees
  obtain ⟨m', hm', hgone⟩ := Option.map_eq_some_iff.mp hstep
  obtain ⟨hprotected, hstopped⟩ := restore_resumable archivedSnapshot 1 announcedService m _ m' hm hm'
  exact ⟨m, m', hm, hm', by simp [hgone, htarget], hprotected, hstopped haccounted⟩

/-- The runner dies after spawning a service that announces itself late. -/
def lateService : List (RestoreAction Nat) :=
  restoring "first" 16 ++ [.spawn "service", .die, .resume, .proceed confirmed, .proceed confirmed] ++
    restoring "second" 12

theorem rollback_beside_live_service : ∃ m m', run archivedSnapshot (start 1) lateService = some m ∧
    m.step archivedSnapshot (.proceed confirmed) = some m' ∧ ¬ StoppedBefore m m' := by
  have hrun : ((run archivedSnapshot (start 1) lateService).map (fun m => (m.target, m.position, m.participants,
      (m.step archivedSnapshot (.proceed confirmed)).map (·.target)))) =
      some (some (.whole 107), .displacing, [⟨"service", false, false⟩], some none) := by
    decide +kernel
  obtain ⟨m, hm, hsees⟩ := Option.map_eq_some_iff.mp hrun
  simp only [Prod.mk.injEq] at hsees
  obtain ⟨htarget, hposition, halive, hstep⟩ := hsees
  obtain ⟨m', hm', hgone⟩ := Option.map_eq_some_iff.mp hstep
  refine ⟨m, m', hm, hm', ?_⟩
  intro h
  have hnobody := h (by simp [hgone, htarget]) (.inl hposition)
  simp [halive] at hnobody

end ModularPipelines.Snapshots.RestoreMachine
