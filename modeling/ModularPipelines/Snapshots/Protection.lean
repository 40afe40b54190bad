import ModularPipelines.Snapshots.Installation

namespace ModularPipelines.Snapshots

/-- Phases in the order in which a transaction passes them. -/
def RestorePhase.rank : RestorePhase → Nat
  | .staging => 0
  | .prepared => 1
  | .filesInstalled => 2
  | .journalRestored => 3
  | .servicesStarting => 4
  | .complete => 5
  | .failed => 6

/-- A later phase, or a failure before completion. -/
def RestorePhase.Forward (p q : RestorePhase) : Prop := p.rank ≤ q.rank ∧ (p = .complete → q = .complete)

theorem RestorePhase.forward_refl (p : RestorePhase) : p.Forward p := ⟨Nat.le_refl _, id⟩

namespace RestoreMachine
variable {Tree : Type}

/-- Steps that write the experiment's files in place. -/
def Writes (m : RestoreMachine Tree) (action : RestoreAction Tree) : Prop :=
  m.position = .binding ∨ m.position = .starting ∨ ∃ tree, action = .write tree

/-- What a step of any restoration leaves of the experiment and of its transaction. -/
structure Protected (a : Archives Tree) (m : RestoreMachine Tree) (action : RestoreAction Tree)
    (m' : RestoreMachine Tree) : Prop where
  present : ∀ t, m'.marker = some t → t.phase ≠ .complete → ∃ tree, m'.displaced = some tree ∧
    (m'.target = some (.whole tree) ∨ (m'.workspace t).previous = some (.whole tree))
  previous : ∀ id, (m'.work id).previous ≠ (m.work id).previous → (m.work id).previous = none ∨
    ∃ t, m.marker = some t ∧ t.restorationId = id ∧ t.phase = .complete
  target : m'.target ≠ m.target → m.target = none ∨ m'.target = none ∨ m.Writes action
  copied : ∀ t, m'.marker = some t → m'.position ≠ m.position →
    (m'.position = .copyingCached → (m'.workspace t).cached = none) ∧
    (m'.position = .copyingReplacement → (m'.workspace t).replacement = none)
  installed : ∀ t t', m.marker = some t → m'.marker = some t' → t.phase ≠ .filesInstalled → t'.phase = .filesInstalled →
    ∃ source, a.snapshot t'.sourceFolder t'.snapshotId = some source ∧
      m'.target = some (.whole (a.stage t'.restorationId source))
  displaced : m'.displaced = m.displaced ∨
    (m.marker = none ∧ ∃ tree, m.target = some (.whole tree) ∧ m'.displaced = some tree)
  forward : ∀ t, m.marker = some t →
    (m'.marker = none ∧ (t.phase = .complete ∨ t.phase = .failed)) ∨
      ∃ phase, m'.marker = some { t with phase := phase } ∧ t.phase.Forward phase

/-- Where the trees of a transaction are in each of its phases. -/
def Trees (a : Archives Tree) (m : RestoreMachine Tree) (t : RestoreTransaction) (tree : Tree) : Prop :=
  let w := m.workspace t
  match t.phase with
  | .staging => m.target = some (.whole tree) ∧ w.previous = none
  | .prepared => ∃ source, a.snapshot t.sourceFolder t.snapshotId = some source ∧ w.cached = some (.whole source) ∧
      ((m.target = some (.whole tree) ∧ w.previous = none ∧
          w.replacement = some (.whole (a.stage t.restorationId source))) ∨
       (m.target = none ∧ w.previous = some (.whole tree) ∧
          w.replacement = some (.whole (a.stage t.restorationId source))) ∨
       (m.target = some (.whole (a.stage t.restorationId source)) ∧ w.previous = some (.whole tree) ∧
          w.replacement = none))
  | .complete => ∃ now, m.target = some (.whole now)
  | _ => (∃ now, m.target = some (.whole now)) ∧ w.previous = some (.whole tree) ∧ w.replacement = none

def Cached (a : Archives Tree) (m : RestoreMachine Tree) (t : RestoreTransaction) (source : Tree) : Prop :=
  a.snapshot t.sourceFolder t.snapshotId = some source ∧ (m.workspace t).cached = some (.whole source)

/-- What the running restoration has done so far. -/
def At (a : Archives Tree) (m : RestoreMachine Tree) (t : RestoreTransaction) : Prop :=
  let w := m.workspace t
  match m.position with
  | .idle => True
  | .settling _ => t.phase = .servicesStarting ∨ t.phase = .failed
  | .retiring _ => t.phase = .failed ∨ t.phase = .complete
  | .barrier _ | .recording _ => False
  | .entered => t.phase ≠ .complete
  | .clearingCached => t.phase = .staging
  | .clearingReplacement => t.phase = .staging ∧ w.cached = none
  | .copyingCached => t.phase = .staging ∧ w.replacement = none
  | .readingCached => t.phase = .staging ∧ w.replacement = none ∧ ∃ source, Cached a m t source
  | .copyingReplacement => t.phase = .staging ∧ ∃ source, Cached a m t source
  | .preparing => t.phase = .staging ∧ ∃ source, Cached a m t source ∧
      w.replacement = some (.whole (a.stage t.restorationId source))
  | .checking => t.phase = .prepared ∨ t.phase = .filesInstalled ∨ t.phase = .journalRestored
  | .displacing => t.phase = .prepared
  | .installing => t.phase = .prepared ∧ w.previous ≠ none
  | .installed => t.phase = .prepared ∧ w.previous ≠ none ∧ m.target ≠ none
  | .binding => t.phase = .filesInstalled ∨ t.phase = .journalRestored
  | .bound => t.phase = .filesInstalled
  | .launching => t.phase = .journalRestored
  | .starting | .finishing | .failing => t.phase = .servicesStarting
  | .cleaningPrevious | .cleaningCached => t.phase = .complete

structure Sound (a : Archives Tree) (m : RestoreMachine Tree) : Prop where
  fresh : ∀ id, id ∉ m.drawn → m.work id = .empty
  unmarked : m.marker = none → (∃ tree, m.target = some (.whole tree)) ∧
    (m.position = .idle ∨ ∃ next, m.position = .barrier next ∨ m.position = .recording next)
  drawn : ∀ t, m.marker = some t → t.restorationId ∈ m.drawn
  trees : ∀ t, m.marker = some t → ∃ tree, m.displaced = some tree ∧ Trees a m t tree
  position : ∀ t, m.marker = some t → At a m t

@[simp] theorem workspace_setWork (m : RestoreMachine Tree) (t : RestoreTransaction) (w : Workspace Tree) :
    (m.setWork t w).workspace t = w := if_pos rfl

@[simp] theorem position_moveTo (m : RestoreMachine Tree) (p : Position) : (m.moveTo p).position = p := rfl

@[simp] theorem workspace_moveTo (m : RestoreMachine Tree) (p : Position) (t : RestoreTransaction) :
    (m.moveTo p).workspace t = m.workspace t := rfl

@[simp] theorem workspace_target (m : RestoreMachine Tree) (target : Place Tree) (t : RestoreTransaction) :
    { m with target := target }.workspace t = m.workspace t := rfl

@[simp] theorem target_moveTo (m : RestoreMachine Tree) (p : Position) : (m.moveTo p).target = m.target := rfl

@[simp] theorem target_setWork (m : RestoreMachine Tree) (t : RestoreTransaction) (w : Workspace Tree) :
    (m.setWork t w).target = m.target := rfl

theorem Sound.present {a : Archives Tree} {m : RestoreMachine Tree} (h : Sound a m) (t : RestoreTransaction)
    (ht : m.marker = some t) (hphase : t.phase ≠ .complete) : ∃ tree, m.displaced = some tree ∧
      (m.target = some (.whole tree) ∨ (m.workspace t).previous = some (.whole tree)) := by
  obtain ⟨tree, hdisplaced, htrees⟩ := h.trees t ht
  refine ⟨tree, hdisplaced, ?_⟩
  unfold Trees at htrees
  cases hp : t.phase <;> simp only [hp] at htrees
  case staging => exact .inl htrees.1
  case prepared =>
    obtain ⟨source, -, -, hcase⟩ := htrees
    obtain ⟨htarget, -⟩ | ⟨-, hprevious, -⟩ | ⟨-, hprevious, -⟩ := hcase
    · exact .inl htarget
    · exact .inr hprevious
    · exact .inr hprevious
  case complete => exact (hphase hp).elim
  all_goals exact .inr htrees.2.1

/-- A step inside one transaction is sound when it is for the folders of that transaction. -/
theorem Sound.within {a : Archives Tree} {m m' : RestoreMachine Tree} {t : RestoreTransaction} {phase : RestorePhase}
    (h : Sound a m) (ht : m.marker = some t) (ht' : m'.marker = some { t with phase := phase })
    (hwork : ∀ id, id ≠ t.restorationId → m'.work id = m.work id) (hdrawn : m'.drawn = m.drawn)
    (hdisplaced : m'.displaced = m.displaced)
    (htrees : ∀ tree, Trees a m t tree → Trees a m' { t with phase := phase } tree)
    (hat : At a m' { t with phase := phase }) : Sound a m' where
  fresh := by
    intro id hid
    rw [hdrawn] at hid
    rw [hwork id (fun heq => hid (heq ▸ h.drawn t ht)), h.fresh id hid]
  unmarked := by
    intro hnone
    rw [ht'] at hnone
    cases hnone
  drawn := by
    intro t' hm
    rw [ht'] at hm
    cases hm
    rw [hdrawn]
    exact h.drawn t ht
  trees := by
    intro t' hm
    rw [ht'] at hm
    cases hm
    obtain ⟨tree, htree, hplaces⟩ := h.trees t ht
    exact ⟨tree, hdisplaced.trans htree, htrees tree hplaces⟩
  position := by
    intro t' hm
    rw [ht'] at hm
    cases hm
    exact hat

/-- What protects the experiment and a displaced tree in a step inside one transaction. -/
theorem Sound.protected {a : Archives Tree} {m m' : RestoreMachine Tree} {action : RestoreAction Tree}
    {t : RestoreTransaction} {phase : RestorePhase} (h' : Sound a m') (ht : m.marker = some t)
    (ht' : m'.marker = some { t with phase := phase }) (hforward : t.phase.Forward phase)
    (hinstalled : t.phase ≠ .filesInstalled → phase = .filesInstalled →
      ∃ source, a.snapshot t.sourceFolder t.snapshotId = some source ∧
        m'.target = some (.whole (a.stage t.restorationId source)))
    (hprevious : ∀ id, (m'.work id).previous = (m.work id).previous ∨ (m.work id).previous = none ∨
      (t.restorationId = id ∧ t.phase = .complete))
    (htarget : m'.target = m.target ∨ m.target = none ∨ m'.target = none ∨ m.Writes action)
    (hdisplaced : m'.displaced = m.displaced)
    (hcopied : m'.position ≠ m.position →
      (m'.position = .copyingCached → (m'.workspace t).cached = none) ∧
      (m'.position = .copyingReplacement → (m'.workspace t).replacement = none)) : Protected a m action m' where
  present := h'.present
  previous := by
    intro id hne
    obtain heq | hnone | ⟨hid, hphase⟩ := hprevious id
    · exact (hne heq).elim
    · exact .inl hnone
    · exact .inr ⟨t, ht, hid, hphase⟩
  target := by
    intro hne
    obtain heq | hmoved := htarget
    · exact (hne heq).elim
    · exact hmoved
  copied := by
    intro t' hm hne
    rw [ht'] at hm
    cases hm
    exact hcopied hne
  installed := by
    intro t₀ t' hm hm' hbefore hafter
    rw [ht] at hm
    rw [ht'] at hm'
    cases hm
    cases hm'
    exact hinstalled hbefore hafter
  displaced := .inl hdisplaced
  forward := by
    intro t₀ hm
    rw [ht] at hm
    cases hm
    exact .inr ⟨phase, ht', hforward⟩

theorem Sound.moved {a : Archives Tree} {m : RestoreMachine Tree} {action : RestoreAction Tree} {p : Position}
    {t : RestoreTransaction} (h : Sound a m) (ht : m.marker = some t) (hat : At a (m.moveTo p) t)
    (hcopied : p ≠ m.position → (p = .copyingCached → (m.workspace t).cached = none) ∧
      (p = .copyingReplacement → (m.workspace t).replacement = none)) :
    Sound a (m.moveTo p) ∧ Protected a m action (m.moveTo p) := by
  have hsound : Sound a (m.moveTo p) :=
    h.within ht ht (fun _ _ => rfl) rfl rfl (fun _ htrees => htrees) hat
  refine ⟨hsound, hsound.protected ht ht t.phase.forward_refl ?_ (fun _ => .inl rfl) (.inl rfl) rfl hcopied⟩
  intro hbefore hafter
  exact (hbefore hafter).elim

/-- A copy or deletion beside the displaced tree. -/
theorem Sound.reworked {a : Archives Tree} {m : RestoreMachine Tree} {action : RestoreAction Tree} {p : Position}
    {t : RestoreTransaction} {w : Workspace Tree} (h : Sound a m) (ht : m.marker = some t)
    (hphase : t.phase = .staging ∨ t.phase = .complete) (hprevious : w.previous = (m.workspace t).previous)
    (hat : At a ((m.setWork t w).moveTo p) t)
    (hcopied : p ≠ m.position → (p = .copyingCached → w.cached = none) ∧
      (p = .copyingReplacement → w.replacement = none)) :
    Sound a ((m.setWork t w).moveTo p) ∧ Protected a m action ((m.setWork t w).moveTo p) := by
  have hwork : ((m.setWork t w).moveTo p).workspace t = w := workspace_setWork m t w
  have hsound : Sound a ((m.setWork t w).moveTo p) := by
    refine Sound.within h ht ht (fun id hid => if_neg hid) rfl rfl ?_ hat
    intro tree htrees
    change Trees a ((m.setWork t w).moveTo p) t tree
    obtain hp | hp := hphase
    · simp only [Trees, hp, hwork, hprevious] at htrees ⊢
      exact htrees
    · simp only [Trees, hp] at htrees ⊢
      exact htrees
  refine ⟨hsound, hsound.protected ht ht t.phase.forward_refl ?_ ?_ (.inl rfl) rfl ?_⟩
  · intro hbefore hafter
    exact (hbefore hafter).elim
  · intro id
    by_cases hid : id = t.restorationId
    · subst hid
      exact .inl ((congrArg Workspace.previous hwork).trans hprevious)
    · exact .inl (congrArg Workspace.previous (if_neg hid))
  · rw [hwork]
    exact hcopied

/-- A marker write that leaves the folders where they are. -/
theorem Sound.marked {a : Archives Tree} {m : RestoreMachine Tree} {action : RestoreAction Tree} {p : Position}
    {t : RestoreTransaction} {phase : RestorePhase} (h : Sound a m) (ht : m.marker = some t)
    (hforward : t.phase.Forward phase)
    (hinstalled : t.phase ≠ .filesInstalled → phase = .filesInstalled →
      ∃ source, a.snapshot t.sourceFolder t.snapshotId = some source ∧
        m.target = some (.whole (a.stage t.restorationId source)))
    (htrees : ∀ tree, Trees a m t tree → Trees a m { t with phase := phase } tree)
    (hat : At a (m.moveTo p) { t with phase := phase }) (hp : p ≠ .copyingCached ∧ p ≠ .copyingReplacement) :
    Sound a ((m.mark t phase).moveTo p) ∧ Protected a m action ((m.mark t phase).moveTo p) := by
  have hsound : Sound a ((m.mark t phase).moveTo p) :=
    h.within ht rfl (fun _ _ => rfl) rfl rfl htrees hat
  refine ⟨hsound, hsound.protected ht rfl hforward hinstalled (fun _ => .inl rfl) (.inl rfl) rfl ?_⟩
  intro _
  exact ⟨fun h => (hp.1 h).elim, fun h => (hp.2 h).elim⟩

/-- The folders and the marker do not depend on who is alive. -/
theorem Sound.participated {a : Archives Tree} {m m' : RestoreMachine Tree} {action : RestoreAction Tree}
    {ps : List Participant} (h : Sound a m' ∧ Protected a m action m') :
    Sound a { m' with participants := ps } ∧ Protected a m action { m' with participants := ps } := by
  obtain ⟨⟨hfresh, hunmarked, hdrawn, htrees, hposition⟩, hprotected⟩ := h
  obtain ⟨hpresent, hprevious, htarget, hcopied, hinstalled, hdisplaced, hforward⟩ := hprotected
  exact ⟨⟨hfresh, hunmarked, hdrawn, htrees, hposition⟩,
    ⟨hpresent, hprevious, htarget, hcopied, hinstalled, hdisplaced, hforward⟩⟩

section Advance
variable {a : Archives Tree} {m m' : RestoreMachine Tree} {t : RestoreTransaction} {o : Progress Tree}

theorem enter_protected (h : Sound a m) (ht : m.marker = some t) (hp : m.position = .entered) :
    Sound a (m.enter t) ∧ Protected a m (.proceed o) (m.enter t) := by
  have hat := h.position t ht
  simp only [At, hp] at hat
  unfold enter
  cases hphase : t.phase <;> apply h.moved ht <;> simp_all [At]

theorem remove_cases (o : Progress Tree) (place : Place Tree) :
    remove o place = (none, true) ∨ remove o place = (some .part, false) := by
  cases place with
  | none => exact .inl rfl
  | some content =>
    unfold remove
    cases o.partly with
    | true => exact .inr rfl
    | false => exact .inl rfl

theorem copy_cases {source : Tree} {place : Place Tree} {r : Place Tree × Bool} (h : copy o source place = some r) :
    r = (some .part, false) ∨ r = (some (.whole source), true) := by
  unfold copy at h
  cases hpart : o.partly <;> simp only [hpart] at h <;> split at h <;> simp_all

theorem clearCached_protected (h : Sound a m) (ht : m.marker = some t) (hp : m.position = .clearingCached) :
    Sound a (m.clearCached o t) ∧ Protected a m (.proceed o) (m.clearCached o t) := by
  have hat := h.position t ht
  simp only [At, hp] at hat
  obtain hremove | hremove := remove_cases o (m.workspace t).cached <;> simp only [clearCached, hremove]
  · apply h.reworked ht (.inl hat) <;> simp [At, hat]
  · apply h.reworked ht (.inl hat) <;> simp [At, hat]

theorem clearReplacement_protected (h : Sound a m) (ht : m.marker = some t) (hp : m.position = .clearingReplacement) :
    Sound a (m.clearReplacement o t) ∧ Protected a m (.proceed o) (m.clearReplacement o t) := by
  have hat := h.position t ht
  simp only [At, hp] at hat
  obtain ⟨hphase, hcached⟩ := hat
  obtain hremove | hremove := remove_cases o (m.workspace t).replacement <;> simp only [clearReplacement, hremove]
  · apply h.reworked ht (.inl hphase) <;> simp [At, hphase, hcached]
  · apply h.reworked ht (.inl hphase) <;> simp [At, hphase, hcached]

theorem copyCached_protected (h : Sound a m) (ht : m.marker = some t) (hp : m.position = .copyingCached)
    (hstep : copyCached a m o t = some m') : Sound a m' ∧ Protected a m (.proceed o) m' := by
  have hat := h.position t ht
  simp only [At, hp] at hat
  obtain ⟨hphase, hreplacement⟩ := hat
  obtain ⟨source, hsource, hstep⟩ := Option.bind_eq_some_iff.mp hstep
  obtain ⟨copied, hcopy, hstep⟩ := Option.bind_eq_some_iff.mp hstep
  cases hstep
  obtain hpart | hwhole := copy_cases hcopy
  · rw [hpart]
    apply h.reworked ht (.inl hphase) <;> simp [At, hp, hphase, hreplacement]
  · rw [hwhole]
    apply h.reworked ht (.inl hphase) <;> simp [At, hphase, hreplacement, Cached, hsource]

theorem copyReplacement_protected (h : Sound a m) (ht : m.marker = some t) (hp : m.position = .copyingReplacement)
    (hstep : copyReplacement a m o t = some m') : Sound a m' ∧ Protected a m (.proceed o) m' := by
  have hat := h.position t ht
  simp only [At, hp] at hat
  obtain ⟨hphase, source, hsource, hcached⟩ := hat
  simp only [copyReplacement, hcached] at hstep
  obtain ⟨copied, hcopy, hstep⟩ := Option.bind_eq_some_iff.mp hstep
  cases hstep
  obtain hpart | hwhole := copy_cases hcopy
  · rw [hpart]
    apply h.reworked ht (.inl hphase) <;> simp [At, hp, hphase, Cached, hsource]
  · rw [hwhole]
    apply h.reworked ht (.inl hphase) <;> simp [At, hphase, Cached, hsource]

theorem readCached_eq {next : Position} (hstep : m.readCached t next = some m') : m' = m.moveTo next := by
  unfold readCached at hstep
  split at hstep
  · exact (Option.some.inj hstep).symm
  · cases hstep

theorem readingCached_protected (h : Sound a m) (ht : m.marker = some t) (hp : m.position = .readingCached)
    (hstep : m.readCached t .copyingReplacement = some m') : Sound a m' ∧ Protected a m (.proceed o) m' := by
  have hat := h.position t ht
  simp only [At, hp] at hat
  obtain ⟨hphase, hreplacement, hcached⟩ := hat
  rw [readCached_eq hstep]
  apply h.moved ht
  · exact ⟨hphase, hcached⟩
  · intro _
    simp [hreplacement]

theorem preparing_protected (h : Sound a m) (ht : m.marker = some t) (hp : m.position = .preparing) :
    Sound a ((m.mark t .prepared).moveTo .checking) ∧
      Protected a m (.proceed o) ((m.mark t .prepared).moveTo .checking) := by
  have hat := h.position t ht
  simp only [At, hp] at hat
  obtain ⟨hphase, source, ⟨hsource, hcached⟩, hreplacement⟩ := hat
  apply h.marked ht
  · simp [hphase, RestorePhase.Forward, RestorePhase.rank]
  · simp
  · intro tree htrees
    simp only [Trees, hphase] at htrees
    exact ⟨source, hsource, hcached, .inl ⟨htrees.1, htrees.2, hreplacement⟩⟩
  · simp [At]
  · simp

theorem checking_protected (h : Sound a m) (ht : m.marker = some t) (hp : m.position = .checking)
    (hstep : m.readCached t (if t.phase = .prepared then .displacing else .binding) = some m') :
    Sound a m' ∧ Protected a m (.proceed o) m' := by
  have hat := h.position t ht
  simp only [At, hp] at hat
  rw [readCached_eq hstep]
  apply h.moved ht
  · obtain hphase | hphase | hphase := hat <;> simp [At, hphase]
  · intro _
    split <;> simp

theorem bound_protected (h : Sound a m) (ht : m.marker = some t) (hp : m.position = .bound) :
    Sound a ((m.mark t .journalRestored).moveTo .launching) ∧
      Protected a m (.proceed o) ((m.mark t .journalRestored).moveTo .launching) := by
  have hphase := h.position t ht
  simp only [At, hp] at hphase
  apply h.marked ht
  · simp [hphase, RestorePhase.Forward, RestorePhase.rank]
  · simp
  · intro tree htrees
    simp only [Trees, hphase] at htrees
    exact htrees
  · simp [At]
  · simp

theorem launching_protected (h : Sound a m) (ht : m.marker = some t) (hp : m.position = .launching) :
    Sound a ((m.mark t .servicesStarting).moveTo .starting) ∧
      Protected a m (.proceed o) ((m.mark t .servicesStarting).moveTo .starting) := by
  have hphase := h.position t ht
  simp only [At, hp] at hphase
  apply h.marked ht
  · simp [hphase, RestorePhase.Forward, RestorePhase.rank]
  · simp
  · intro tree htrees
    simp only [Trees, hphase] at htrees
    exact htrees
  · simp [At]
  · simp

theorem finishing_protected (h : Sound a m) (ht : m.marker = some t) (hp : m.position = .finishing) :
    Sound a ((m.complete t).moveTo (if o.preserve then .idle else .cleaningPrevious)) ∧
      Protected a m (.proceed o) ((m.complete t).moveTo (if o.preserve then .idle else .cleaningPrevious)) := by
  have hphase := h.position t ht
  simp only [At, hp] at hphase
  have hdone : Sound a ((m.mark t .complete).moveTo (if o.preserve then .idle else .cleaningPrevious)) ∧
      Protected a m (.proceed o) ((m.mark t .complete).moveTo (if o.preserve then .idle else .cleaningPrevious)) := by
    apply h.marked ht
    · simp [hphase, RestorePhase.Forward, RestorePhase.rank]
    · simp
    · intro tree htrees
      simp only [Trees, hphase] at htrees
      exact htrees.1
    · cases o.preserve <;> simp [At]
    · cases o.preserve <;> simp
  exact Sound.participated hdone

theorem failing_protected (h : Sound a m) (ht : m.marker = some t) (hp : m.position = .failing) :
    Sound a (m.abandon o t) ∧ Protected a m (.proceed o) (m.abandon o t) := by
  have hphase := h.position t ht
  simp only [At, hp] at hphase
  apply Sound.participated
  apply h.marked ht
  · simp [hphase, RestorePhase.Forward, RestorePhase.rank]
  · simp
  · intro tree htrees
    simp only [Trees, hphase] at htrees
    exact htrees
  · simp [At]
  · simp

theorem settle_protected {next : Option Selection} (h : Sound a m) (ht : m.marker = some t)
    (hp : m.position = .settling next) (hstep : m.settle o t next = some m') :
    Sound a m' ∧ Protected a m (.proceed o) m' := by
  have hphase := h.position t ht
  simp only [At, hp] at hphase
  have hfailed : ∀ p, (p = .idle ∨ ∃ next, p = .retiring next) →
      Sound a ((m.mark t .failed).moveTo p) ∧ Protected a m (.proceed o) ((m.mark t .failed).moveTo p) := by
    intro p hp
    apply h.marked ht
    · obtain hphase | hphase := hphase <;> simp [hphase, RestorePhase.Forward, RestorePhase.rank]
    · simp
    · intro tree htrees
      obtain hphase | hphase := hphase <;> simp only [Trees, hphase] at htrees <;> exact htrees
    · obtain rfl | ⟨next, rfl⟩ := hp <;> simp [At]
    · obtain rfl | ⟨next, rfl⟩ := hp <;> simp
  unfold settle at hstep
  split at hstep
  · split at hstep
    · cases hstep
      apply Sound.participated
      apply hfailed
      cases next with
      | none => exact .inl rfl
      | some next => exact .inr ⟨next, rfl⟩
    · cases hstep
      exact hfailed .idle (.inl rfl)
  · cases hstep

theorem written_cases (m : RestoreMachine Tree) (tree : Option Tree) : m.written tree = m ∨
    ∃ old now, m.target = some (.whole old) ∧ m.written tree = { m with target := some (.whole now) } := by
  cases tree with
  | none => exact .inl (by unfold written; split <;> simp_all)
  | some now =>
    unfold written
    split
    · rename_i old _ htarget heq
      cases heq
      exact .inr ⟨old, now, htarget, rfl⟩
    · exact .inl rfl

theorem written_moveTo {p : Position} {tree : Option Tree} (hp : m.position = p) :
    m.written tree = (m.written tree).moveTo p := by
  obtain hsame | ⟨old, now, -, hnow⟩ := written_cases m tree
  · rw [hsame, ← hp]
    rfl
  · rw [hnow, ← hp]
    rfl

theorem written_protected {p : Position} (h : Sound a m) (ht : m.marker = some t)
    (hphase : t.phase ≠ .staging ∧ t.phase ≠ .prepared) {action : RestoreAction Tree} (hwrites : m.Writes action)
    {tree : Option Tree} (hat : At a ((m.written tree).moveTo p) t) (hp : p ≠ .copyingCached ∧ p ≠ .copyingReplacement) :
    Sound a ((m.written tree).moveTo p) ∧ Protected a m action ((m.written tree).moveTo p) := by
  have hcopied : p ≠ m.position → (p = .copyingCached → (m.workspace t).cached = none) ∧
      (p = .copyingReplacement → (m.workspace t).replacement = none) := by
    intro _
    exact ⟨fun h => (hp.1 h).elim, fun h => (hp.2 h).elim⟩
  obtain hsame | ⟨old, now, -, hnow⟩ := written_cases m tree
  · rw [hsame] at hat ⊢
    exact h.moved ht hat hcopied
  · rw [hnow] at hat ⊢
    have hsound : Sound a ({ m with target := some (.whole now) }.moveTo p) := by
      refine Sound.within h ht ht (fun _ _ => rfl) rfl rfl ?_ hat
      intro tree htrees
      change Trees a ({ m with target := some (.whole now) }.moveTo p) t tree
      unfold Trees at htrees ⊢
      cases hcase : t.phase <;> simp only [hcase] at htrees hphase ⊢
      case staging => simp at hphase
      case prepared => simp at hphase
      case complete => exact ⟨now, rfl⟩
      all_goals exact ⟨⟨now, rfl⟩, htrees.2⟩
    refine ⟨hsound, hsound.protected ht ht t.phase.forward_refl ?_ (fun _ => .inl rfl) ?_ rfl hcopied⟩
    · intro hbefore hafter
      exact (hbefore hafter).elim
    · exact .inr (.inr (.inr hwrites))

theorem bind_protected (h : Sound a m) (ht : m.marker = some t) (hp : m.position = .binding)
    (hstep : m.bind o t = some m') : Sound a m' ∧ Protected a m (.proceed o) m' := by
  have hphase := h.position t ht
  simp only [At, hp] at hphase
  have hlater : t.phase ≠ .staging ∧ t.phase ≠ .prepared := by
    obtain hphase | hphase := hphase <;> simp [hphase]
  unfold bind at hstep
  split at hstep
  · split at hstep
    · cases hstep
      rw [written_moveTo hp]
      exact written_protected h ht hlater (.inl hp) hphase (by simp)
    · cases hstep
      apply written_protected h ht hlater (.inl hp)
      · obtain hphase | hphase := hphase <;> simp [At, hphase]
      · split <;> simp
  · cases hstep

theorem starting_protected (h : Sound a m) (ht : m.marker = some t) (hp : m.position = .starting) :
    Sound a ((m.written o.written).moveTo (if o.confirmed then .finishing else .failing)) ∧
      Protected a m (.proceed o) ((m.written o.written).moveTo (if o.confirmed then .finishing else .failing)) := by
  have hphase := h.position t ht
  simp only [At, hp] at hphase
  apply written_protected h ht (by simp [hphase]) (.inr (.inl hp))
  · cases o.confirmed <;> exact hphase
  · cases o.confirmed <;> simp

/-- A rename or deletion of whole trees inside one transaction. -/
theorem Sound.renamed {p : Position} {w : Workspace Tree} {target : Place Tree} {action : RestoreAction Tree}
    (h : Sound a m) (ht : m.marker = some t)
    (hprevious : w.previous = (m.workspace t).previous ∨ (m.workspace t).previous = none ∨ t.phase = .complete)
    (htarget : target = m.target ∨ m.target = none ∨ target = none)
    (htrees : ∀ tree, Trees a m t tree → Trees a { m.setWork t w with target := target } t tree)
    (hat : At a ({ m.setWork t w with target := target }.moveTo p) t)
    (hp : p ≠ .copyingCached ∧ p ≠ .copyingReplacement) :
    Sound a ({ m.setWork t w with target := target }.moveTo p) ∧
      Protected a m action ({ m.setWork t w with target := target }.moveTo p) := by
  have hsound : Sound a ({ m.setWork t w with target := target }.moveTo p) :=
    Sound.within h ht ht (fun id hid => if_neg hid) rfl rfl htrees hat
  refine ⟨hsound, hsound.protected ht ht t.phase.forward_refl ?_ ?_ ?_ rfl ?_⟩
  · intro hbefore hafter
    exact (hbefore hafter).elim
  · intro id
    by_cases hid : id = t.restorationId
    · subst hid
      have hwork : ({ m.setWork t w with target := target }.moveTo p).workspace t = w := workspace_setWork m t w
      obtain hkept | hnone | hcomplete := hprevious
      · exact .inl ((congrArg Workspace.previous hwork).trans hkept)
      · exact .inr (.inl hnone)
      · exact .inr (.inr ⟨rfl, hcomplete⟩)
    · exact .inl (congrArg Workspace.previous (if_neg hid))
  · obtain hkept | hnone | hgone := htarget
    · exact .inl hkept
    · exact .inr (.inl hnone)
    · exact .inr (.inr (.inl hgone))
  · intro _
    exact ⟨fun h => (hp.1 h).elim, fun h => (hp.2 h).elim⟩

theorem displace_protected (h : Sound a m) (ht : m.marker = some t) (hp : m.position = .displacing)
    (hstep : m.displace t = some m') : Sound a m' ∧ Protected a m (.proceed o) m' := by
  have hphase := h.position t ht
  simp only [At, hp] at hphase
  unfold displace at hstep
  simp only at hstep
  split at hstep
  · rename_i hprevious
    cases hstep
    apply h.moved ht
    · exact ⟨hphase, Option.isSome_iff_ne_none.mp hprevious⟩
    · simp
  · split at hstep
    · rename_i hprevious _ _ place staged htarget hstaged
      cases hstep
      have hnone : (m.workspace t).previous = none := Option.not_isSome_iff_eq_none.mp hprevious
      refine h.renamed ht (.inr (.inl hnone)) (.inr (.inr rfl)) ?_ ?_ (by simp)
      · intro tree htrees
        simp only [Trees, hphase] at htrees
        obtain ⟨source, hsource, hcached, hcase⟩ := htrees
        obtain ⟨hwhole, -, hstage⟩ | ⟨-, hprev, -⟩ | ⟨-, hprev, -⟩ := hcase
        · simp [Trees, hphase, hsource, hcached, hstage, ← htarget, hwhole]
        · simp [hnone] at hprev
        · simp [hnone] at hprev
      · exact ⟨hphase, by simp⟩
    · cases hstep

theorem install_protected (h : Sound a m) (ht : m.marker = some t) (hp : m.position = .installing)
    (hstep : m.install t = some m') : Sound a m' ∧ Protected a m (.proceed o) m' := by
  have hat := h.position t ht
  simp only [At, hp] at hat
  obtain ⟨hphase, hprevious⟩ := hat
  unfold install at hstep
  simp only at hstep
  split at hstep
  · rename_i staged htarget hstaged
    cases hstep
    refine h.renamed ht (.inl rfl) (.inr (.inl htarget)) ?_ ?_ (by simp)
    · intro tree htrees
      simp only [Trees, hphase] at htrees
      obtain ⟨source, hsource, hcached, hcase⟩ := htrees
      obtain ⟨hwhole, -⟩ | ⟨-, hprev, hstage⟩ | ⟨hwhole, -⟩ := hcase
      · simp [htarget] at hwhole
      · simp [Trees, hphase, hsource, hcached, hprev, ← hstaged, hstage]
      · simp [htarget] at hwhole
    · simp [At, hphase, hprevious]
  · cases hstep
  · cases hstep
  · rename_i tree htarget _
    cases hstep
    apply h.moved ht
    · exact ⟨hphase, hprevious, by simp [htarget]⟩
    · simp

theorem installed_protected (h : Sound a m) (ht : m.marker = some t) (hp : m.position = .installed) :
    Sound a ((m.mark t .filesInstalled).moveTo .binding) ∧
      Protected a m (.proceed o) ((m.mark t .filesInstalled).moveTo .binding) := by
  have hat := h.position t ht
  simp only [At, hp] at hat
  obtain ⟨hphase, hprevious, htarget⟩ := hat
  have hplaced : ∀ tree, Trees a m t tree → (m.workspace t).previous = some (.whole tree) ∧
      (m.workspace t).replacement = none ∧ ∃ source, a.snapshot t.sourceFolder t.snapshotId = some source ∧
        m.target = some (.whole (a.stage t.restorationId source)) := by
    intro tree htrees
    simp only [Trees, hphase] at htrees
    obtain ⟨source, hsource, -, hcase⟩ := htrees
    obtain ⟨-, hnone, -⟩ | ⟨hnone, -⟩ | ⟨hwhole, hprev, hreplacement⟩ := hcase
    · exact (hprevious hnone).elim
    · exact (htarget hnone).elim
    · exact ⟨hprev, hreplacement, source, hsource, hwhole⟩
  apply h.marked ht
  · simp [hphase, RestorePhase.Forward, RestorePhase.rank]
  · intro _ _
    obtain ⟨tree, -, htrees⟩ := h.trees t ht
    exact (hplaced tree htrees).2.2
  · intro tree htrees
    obtain ⟨hprev, hreplacement, source, -, hwhole⟩ := hplaced tree htrees
    exact ⟨⟨_, hwhole⟩, hprev, hreplacement⟩
  · exact .inl rfl
  · simp

theorem cleanPrevious_protected (h : Sound a m) (ht : m.marker = some t) (hp : m.position = .cleaningPrevious) :
    Sound a (m.cleanPrevious o t) ∧ Protected a m (.proceed o) (m.cleanPrevious o t) := by
  have hphase := h.position t ht
  simp only [At, hp] at hphase
  obtain hremove | hremove := remove_cases o (m.workspace t).previous <;> simp only [cleanPrevious, hremove]
  · refine h.renamed ht (.inr (.inr hphase)) (.inl rfl) ?_ ?_ ?_ <;> simp [At, Trees, hphase]
  · refine h.renamed ht (.inr (.inr hphase)) (.inl rfl) ?_ ?_ ?_ <;> simp [At, Trees, hphase]

theorem cleanCached_protected (h : Sound a m) (ht : m.marker = some t) (hp : m.position = .cleaningCached) :
    Sound a (m.cleanCached o t) ∧ Protected a m (.proceed o) (m.cleanCached o t) := by
  have hphase := h.position t ht
  simp only [At, hp] at hphase
  obtain hremove | hremove := remove_cases o (m.workspace t).cached <;> simp only [cleanCached, hremove]
  · apply h.reworked ht (.inr hphase) <;> simp [At]
  · apply h.reworked ht (.inr hphase) <;> simp [At, hphase]

theorem retiring_protected {next : Selection} (h : Sound a m) (ht : m.marker = some t) (hp : m.position = .retiring next) :
    Sound a { m.moveTo (.barrier next) with marker := none } ∧
      Protected a m (.proceed o) { m.moveTo (.barrier next) with marker := none } := by
  have hphase := h.position t ht
  simp only [At, hp] at hphase
  have hwhole : ∃ tree, m.target = some (.whole tree) := by
    obtain ⟨tree, -, htrees⟩ := h.trees t ht
    obtain hphase | hphase := hphase <;> simp only [Trees, hphase] at htrees
    · exact htrees.1
    · exact htrees
  have hforward : ∀ t₀, m.marker = some t₀ → t₀.phase = .complete ∨ t₀.phase = .failed := by
    intro t₀ hm
    rw [ht] at hm
    cases hm
    exact hphase.symm
  refine ⟨⟨h.fresh, ?_, ?_, ?_, ?_⟩, ⟨?_, ?_, ?_, ?_, ?_, .inl rfl, ?_⟩⟩
  · intro _
    exact ⟨hwhole, .inr ⟨next, .inl rfl⟩⟩
  · intro _ hm
    cases hm
  · intro _ hm
    cases hm
  · intro _ hm
    cases hm
  · intro _ hm
    cases hm
  · intro _ hne
    exact (hne rfl).elim
  · intro hne
    exact (hne rfl).elim
  · intro _ hm
    cases hm
  · intro _ _ _ hm
    cases hm
  · intro t₀ hm
    exact .inl ⟨rfl, hforward t₀ hm⟩

theorem advance_protected (h : Sound a m) (ht : m.marker = some t) (hstep : advance a m o t = some m') :
    Sound a m' ∧ Protected a m (.proceed o) m' := by
  unfold advance at hstep
  cases hp : m.position <;> simp only [hp] at hstep
  case settling next => exact settle_protected h ht hp hstep
  case retiring next =>
    cases hstep
    exact retiring_protected h ht hp
  case entered =>
    cases hstep
    exact enter_protected h ht hp
  case clearingCached =>
    cases hstep
    exact clearCached_protected h ht hp
  case clearingReplacement =>
    cases hstep
    exact clearReplacement_protected h ht hp
  case copyingCached => exact copyCached_protected h ht hp hstep
  case readingCached => exact readingCached_protected h ht hp hstep
  case copyingReplacement => exact copyReplacement_protected h ht hp hstep
  case preparing =>
    cases hstep
    exact preparing_protected h ht hp
  case checking => exact checking_protected h ht hp hstep
  case displacing => exact displace_protected h ht hp hstep
  case installing => exact install_protected h ht hp hstep
  case installed =>
    cases hstep
    exact installed_protected h ht hp
  case binding => exact bind_protected h ht hp hstep
  case bound =>
    cases hstep
    exact bound_protected h ht hp
  case launching =>
    cases hstep
    exact launching_protected h ht hp
  case starting =>
    cases hstep
    exact starting_protected h ht hp
  case finishing =>
    cases hstep
    exact finishing_protected h ht hp
  case failing =>
    cases hstep
    exact failing_protected h ht hp
  case cleaningPrevious =>
    cases hstep
    exact cleanPrevious_protected h ht hp
  case cleaningCached =>
    cases hstep
    exact cleanCached_protected h ht hp
  all_goals cases hstep

end Advance

section Step
variable {a : Archives Tree} {m m' : RestoreMachine Tree} {action : RestoreAction Tree}

/-- A step outside every transaction. -/
theorem protected_unmarked (hm : m.marker = none) (hm' : m'.marker = none) (hwork : m'.work = m.work)
    (htarget : m'.target = m.target ∨ m.Writes action) (hdisplaced : m'.displaced = m.displaced) :
    Protected a m action m' := by
  refine ⟨?_, ?_, ?_, ?_, ?_, .inl hdisplaced, ?_⟩
  · intro t ht
    simp [hm'] at ht
  · intro id hne
    exact (hne (by rw [hwork])).elim
  · intro hne
    obtain heq | hwrites := htarget
    · exact (hne heq).elim
    · exact .inr (.inr hwrites)
  · intro t ht
    simp [hm'] at ht
  · intro t _ ht
    simp [hm] at ht
  · intro t ht
    simp [hm] at ht

theorem unmarked_of_free (h : Sound a m) (hp : ∃ next, m.position = .barrier next ∨ m.position = .recording next) :
    m.marker = none := by
  cases hm : m.marker with
  | none => rfl
  | some t =>
    have hat := h.position t hm
    obtain ⟨next, hp | hp⟩ := hp <;> simp [At, hp] at hat

theorem Sound.idle (h : Sound a m) : Sound a (m.moveTo .idle) ∧ Protected a m action (m.moveTo .idle) := by
  cases hm : m.marker with
  | some t => exact h.moved hm trivial (by simp)
  | none =>
    refine ⟨⟨h.fresh, ?_, h.drawn, h.trees, fun _ _ => trivial⟩, protected_unmarked hm hm rfl (.inl rfl) rfl⟩
    intro _
    exact ⟨(h.unmarked hm).1, .inl rfl⟩

theorem Sound.same (h : Sound a m) : Sound a m ∧ Protected a m action m := by
  refine ⟨h, ?_⟩
  cases hm : m.marker with
  | none => exact protected_unmarked hm hm rfl (.inl rfl) rfl
  | some t => exact (h.moved hm (h.position t hm) (fun hne => (hne rfl).elim)).2

theorem stopBarrier_protected {o : Progress Tree} {next : Selection} (h : Sound a m) (hm : m.marker = none) :
    Sound a (m.stopBarrier o next) ∧ Protected a m (.proceed o) (m.stopBarrier o next) := by
  unfold stopBarrier
  split
  · apply Sound.participated
    have hsound : Sound a (m.moveTo (.recording next)) := by
      refine ⟨h.fresh, ?_, h.drawn, h.trees, ?_⟩
      · intro _
        exact ⟨(h.unmarked hm).1, .inr ⟨next, .inr rfl⟩⟩
      · intro t ht
        simp [moveTo, hm] at ht
    exact ⟨hsound, protected_unmarked hm hm rfl (.inl rfl) rfl⟩
  · exact h.idle

theorem record_protected {o : Progress Tree} {next : Selection} (h : Sound a m) (hm : m.marker = none)
    (hstep : m.record next = some m') : Sound a m' ∧ Protected a m (.proceed o) m' := by
  unfold record at hstep
  split at hstep
  · rename_i tree htarget
    split at hstep
    · cases hstep
    · rename_i hdrawn
      cases hstep
      have hprevious : (m.work next.restorationId).previous = none := by
        rw [h.fresh _ hdrawn, Workspace.empty]
      refine ⟨⟨?_, ?_, ?_, ?_, ?_⟩, ⟨?_, ?_, ?_, ?_, ?_, .inr ⟨hm, tree, htarget, rfl⟩, ?_⟩⟩
      · intro id hid
        exact h.fresh id (fun hmem => hid (List.mem_cons_of_mem _ hmem))
      · intro hnone
        cases hnone
      · intro t ht
        cases ht
        exact List.mem_cons_self
      · intro t ht
        cases ht
        exact ⟨tree, rfl, htarget, hprevious⟩
      · intro t ht
        cases ht
        simp [At]
      · intro t ht _
        cases ht
        exact ⟨tree, rfl, .inl htarget⟩
      · intro _ hne
        exact (hne rfl).elim
      · intro hne
        exact (hne rfl).elim
      · intro t _ _
        simp
      · intro t _ ht
        simp [hm] at ht
      · intro t ht
        simp [hm] at ht
  · cases hstep

theorem proceed_protected {o : Progress Tree} (h : Sound a m) (hstep : m.proceed a o = some m') :
    Sound a m' ∧ Protected a m (.proceed o) m' := by
  unfold proceed at hstep
  split at hstep
  · rename_i next hp
    cases hstep
    exact stopBarrier_protected h (unmarked_of_free h ⟨next, .inl hp⟩)
  · rename_i next hp
    exact record_protected h (unmarked_of_free h ⟨next, .inr hp⟩) hstep
  · rename_i t ht _ _
    exact advance_protected h ht hstep
  · cases hstep

theorem request_protected {selection : Selection} (h : Sound a m) (hstep : m.request selection = some m') : Sound a m' ∧ Protected a m action m' := by
  unfold request at hstep
  split at hstep
  · rename_i hm
    cases hstep
    refine ⟨⟨h.fresh, ?_, h.drawn, h.trees, ?_⟩, protected_unmarked hm hm rfl (.inl rfl) rfl⟩
    · intro _
      exact ⟨(h.unmarked hm).1, .inr ⟨selection, .inl rfl⟩⟩
    · intro t ht
      simp [moveTo, hm] at ht
  · rename_i t ht
    split at hstep
    · rename_i hphase
      cases hstep
      apply h.moved ht <;> simp [At, hphase]
    · split at hstep
      · rename_i hphase
        cases hstep
        apply h.moved ht <;> simp [At, hphase]
      · rename_i hfailed hcomplete
        split at hstep
        · cases hstep
          apply h.moved ht <;> simp [At, hcomplete]
        · cases hstep

/-- A run of the experiment changes its files in place. -/
theorem write_protected {tree : Tree} (h : Sound a m) (hp : m.position = .idle)
    (hmarker : m.marker.all (fun t => t.phase == .complete || t.phase == .failed) = true) :
    Sound a (m.written (some tree)) ∧ Protected a m (.write tree) (m.written (some tree)) := by
  have hwrites : m.Writes (.write tree) := .inr (.inr ⟨tree, rfl⟩)
  cases hm : m.marker with
  | none =>
    obtain hsame | ⟨old, now, -, hnow⟩ := written_cases m (some tree)
    · rw [hsame]
      exact h.same
    · rw [hnow]
      refine ⟨⟨h.fresh, ?_, h.drawn, ?_, ?_⟩, protected_unmarked hm hm rfl (.inr hwrites) rfl⟩
      · intro _
        exact ⟨⟨now, rfl⟩, .inl hp⟩
      · intro t ht
        simp [hm] at ht
      · intro t ht
        simp [hm] at ht
  | some t =>
    have hphase : t.phase ≠ .staging ∧ t.phase ≠ .prepared := by
      simp only [hm, Option.all_some, Bool.or_eq_true, beq_iff_eq] at hmarker
      obtain hphase | hphase := hmarker <;> simp [hphase]
    rw [written_moveTo hp]
    exact written_protected h hm hphase hwrites trivial (by simp)

theorem step_protected (h : Sound a m) (hstep : m.step a action = some m') :
    Sound a m' ∧ Protected a m action m' := by
  cases action with
  | request selection =>
    simp only [step] at hstep
    split at hstep
    · exact request_protected h hstep
    · cases hstep
  | resume =>
    simp only [step] at hstep
    split at hstep
    · rename_i hresume
      cases hstep
      cases hm : m.marker with
      | none => simp [hm] at hresume
      | some t => apply h.moved hm <;> simp_all [At]
    · cases hstep
  | proceed o => exact proceed_protected h hstep
  | raise =>
    cases hstep
    split
    · rename_i hp
      cases hm : m.marker with
      | none =>
        obtain ⟨-, hidle | ⟨next, hbarrier | hrecording⟩⟩ := h.unmarked hm <;> simp_all
      | some t =>
        have hat := h.position t hm
        apply h.moved hm
        · obtain hp | hp := hp <;> simp only [At, hp] at hat <;> exact hat
        · simp
    · exact h.idle
  | die =>
    cases hstep
    exact h.idle
  | spawn instanceId =>
    simp only [step] at hstep
    split at hstep
    · cases hstep
      exact Sound.participated h.same
    · cases hstep
  | save instanceId =>
    simp only [step] at hstep
    split at hstep
    · cases hstep
      exact Sound.participated h.same
    · cases hstep
  | announce instanceId =>
    cases hstep
    exact Sound.participated h.same
  | exit instanceId =>
    cases hstep
    exact Sound.participated h.same
  | write tree =>
    simp only [step] at hstep
    split at hstep
    · rename_i hwrite
      cases hstep
      exact write_protected h hwrite.1 hwrite.2
    · cases hstep

end Step

end RestoreMachine

end ModularPipelines.Snapshots
