import ModularPipelines.Modules.Agreement
import ModularPipelines.Modules.Retrievable

namespace ModularPipelines.Modules
open Library Library.Faulty

variable {Content Digest : Type} {p : Packaging Content Digest} {s s' : Stores Content Digest}
  {k : ModuleKey} {a : Package Content} {c : Content} {faults : StoreFaults}

/-- Nothing stored is replaced by something else, and no tree is removed. -/
structure Keeps (s s' : Stores Content Digest) : Prop where
  hash : ∀ k d, s.hash k = some d → s'.hash k = some d ∨ s'.hash k = none
  archive : ∀ k a, s.archive k = some a → s'.archive k = some a ∨ s'.archive k = none
  tree : ∀ k c, s.tree k = some c → s'.tree k = some c

/-- Archives and trees are stored under their identity, and a hash is that of its archive. -/
structure Consistent (p : Packaging Content Digest) (s : Stores Content Digest) : Prop where
  archive : ∀ k a, s.archive k = some a → p.identity a.content = k
  hash : ∀ k a d, s.archive k = some a → s.hash k = some d → d = p.digest a.content
  tree : ∀ k c, s.tree k = some c → p.identity c = k

/-- A complete registration of a content. -/
def Registered (p : Packaging Content Digest) (s : Stores Content Digest) (k : ModuleKey) (c : Content) : Prop :=
  s.hash k = some (p.digest c) ∧ ∃ a, s.archive k = some a ∧ a.content = c

theorem Keeps.refl (s : Stores Content Digest) : Keeps s s :=
  ⟨fun _ _ h => .inl h, fun _ _ h => .inl h, fun _ _ h => h⟩

theorem Consistent.empty (p : Packaging Content Digest) : Consistent p (.empty Content Digest) := by
  refine ⟨?_, ?_, ?_⟩
  · intro k a ha
    cases ha
  · intro k a d ha
    cases ha
  · intro k c hc
    cases hc

theorem Consistent.registered (h : Consistent p s) (hhash : s.hash k = some (p.digest c))
    (harchive : (s.archive k).isSome = true) : Registered p s k c := by
  obtain ⟨a, ha⟩ := Option.isSome_iff_exists.mp harchive
  exact ⟨hhash, a, ha, p.collisionFree _ _ (h.hash k a _ ha hhash).symm⟩

theorem Touches.keeps (h : Touches p k a s s') : Keeps s s' := by
  refine ⟨?_, ?_, ?_⟩
  · intro k' d hd
    by_cases hk : k' = k
    · subst hk
      rcases h.here with ⟨hhash, -⟩ | ⟨-, hnone, -⟩
      · exact .inl (hhash.trans hd)
      · rw [hnone] at hd
        cases hd
    · exact .inl ((h.others k' hk).1.trans hd)
  · intro k' b hb
    by_cases hk : k' = k
    · subst hk
      rcases h.here with ⟨-, harchive⟩ | ⟨-, -, hnone, -⟩
      · exact .inl (harchive.trans hb)
      · rw [hnone] at hb
        cases hb
    · exact .inl ((h.others k' hk).2.trans hb)
  · intro k' c hc
    rw [h.tree]
    exact hc

theorem Touches.consistent (h : Touches p k a s s') (hs : Consistent p s) : Consistent p s' := by
  refine ⟨?_, ?_, ?_⟩
  · intro k' b hb
    by_cases hk : k' = k
    · subst hk
      rcases h.here with ⟨-, harchive⟩ | ⟨hid, -, -, -, hnone | hown⟩
      · exact hs.archive k' b (harchive ▸ hb)
      · rw [hnone] at hb
        cases hb
      · rw [hown] at hb
        cases hb
        exact hid
    · exact hs.archive k' b ((h.others k' hk).2 ▸ hb)
  · intro k' b d hb hd
    by_cases hk : k' = k
    · subst hk
      rcases h.here with ⟨hhash, harchive⟩ | ⟨-, -, -, hhash, harchive⟩
      · exact hs.hash k' b d (harchive ▸ hb) (hhash ▸ hd)
      · rcases hhash with hnone | hown
        · rw [hnone] at hd
          cases hd
        · rcases harchive with hnone' | hown'
          · rw [hnone'] at hb
            cases hb
          · rw [hown] at hd
            rw [hown'] at hb
            cases hd
            cases hb
            rfl
    · exact hs.hash k' b d ((h.others k' hk).2 ▸ hb) ((h.others k' hk).1 ▸ hd)
  · intro k' c hc
    exact hs.tree k' c (h.tree ▸ hc)

theorem Touches.kept {k' : ModuleKey} (h : Touches p k a s s') (hr : Registered p s k' c) :
    Registered p s' k' c := by
  obtain ⟨hhash, b, hb, hc⟩ := hr
  by_cases hk : k' = k
  · subst hk
    rcases h.here with ⟨hhash', harchive⟩ | ⟨-, hnone, -⟩
    · exact ⟨hhash'.trans hhash, b, harchive.trans hb, hc⟩
    · rw [hnone] at hhash
      cases hhash
  · exact ⟨(h.others k' hk).1.trans hhash, b, (h.others k' hk).2.trans hb, hc⟩

theorem Keeps.setTree {m : Stores Content Digest} (h : Keeps s m) (hm : m.tree = s.tree) (htree : s.tree k = none) :
    Keeps s (m.setTree k (some c)) := by
  refine ⟨h.hash, h.archive, ?_⟩
  intro k' t ht
  by_cases hk : k' = k
  · subst hk
    rw [htree] at ht
    cases ht
  · rw [setTree_other _ _ hk, hm]
    exact ht

theorem Consistent.setTree {m : Stores Content Digest} (h : Consistent p m) :
    Consistent p (m.setTree (p.identity c) (some c)) := by
  refine ⟨h.archive, h.hash, ?_⟩
  intro k' t ht
  by_cases hk : k' = p.identity c
  · subst hk
    rw [setTree_tree] at ht
    cases ht
    rfl
  · rw [setTree_other _ _ hk] at ht
    exact h.tree k' t ht

theorem UnregisterEnds.keeps {r : Except RegistrationError Bool} (h : UnregisterEnds k s s' r) : Keeps s s' := by
  refine ⟨?_, ?_, ?_⟩
  · intro k' d hd
    by_cases hk : k' = k
    · subst hk
      exact h.hash.imp (fun he => he.trans hd) id
    · exact .inl ((h.others k' hk).1.trans hd)
  · intro k' b hb
    by_cases hk : k' = k
    · subst hk
      exact h.archive.imp (fun he => he.trans hb) id
    · exact .inl ((h.others k' hk).2.trans hb)
  · intro k' c hc
    rw [h.tree]
    exact hc

theorem UnregisterEnds.consistent {r : Except RegistrationError Bool} (h : UnregisterEnds k s s' r)
    (hs : Consistent p s) : Consistent p s' := by
  have hk := h.keeps
  have harchive : ∀ k' b, s'.archive k' = some b → s.archive k' = some b := by
    intro k' b hb
    by_cases hne : k' = k
    · subst hne
      rcases h.archive with he | he
      · exact he ▸ hb
      · rw [he] at hb
        cases hb
    · exact (h.others k' hne).2 ▸ hb
  have hhash : ∀ k' d, s'.hash k' = some d → s.hash k' = some d := by
    intro k' d hd
    by_cases hne : k' = k
    · subst hne
      rcases h.hash with he | he
      · exact he ▸ hd
      · rw [he] at hd
        cases hd
    · exact (h.others k' hne).1 ▸ hd
  refine ⟨?_, ?_, ?_⟩
  · intro k' b hb
    exact hs.archive k' b (harchive k' b hb)
  · intro k' b d hb hd
    exact hs.hash k' b d (harchive k' b hb) (hhash k' d hd)
  · intro k' c hc
    exact hs.tree k' c (h.tree ▸ hc)

theorem AddEnds.keeps {r : Except RegistrationError (Installation Digest)} (h : AddEnds p c s s' r) : Keeps s s' := by
  obtain ⟨m, htouches, rfl | ⟨htree, rfl⟩⟩ := h.leaves
  · exact htouches.keeps
  · exact htouches.keeps.setTree htouches.tree htree

theorem AddEnds.consistent {r : Except RegistrationError (Installation Digest)} (h : AddEnds p c s s' r)
    (hs : Consistent p s) : Consistent p s' := by
  obtain ⟨m, htouches, rfl | ⟨htree, rfl⟩⟩ := h.leaves
  · exact htouches.consistent hs
  · exact (htouches.consistent hs).setTree

theorem AddEnds.kept {r : Except RegistrationError (Installation Digest)} {c' : Content} (h : AddEnds p c s s' r)
    (hr : Registered p s k c') : Registered p s' k c' := by
  obtain ⟨m, htouches, rfl | ⟨htree, rfl⟩⟩ := h.leaves
  · exact htouches.kept hr
  · exact htouches.kept hr

/-- What a call leaves and returns. -/
def CallEnds (p : Packaging Content Digest) (s s' : Stores Content Digest) :
    ModuleCall Content → Except RegistrationError (Answer Digest) → Prop
  | .register k a, r => ∃ r', RegisterEnds p k a s s' r' ∧ r = r'.map .registered
  | .add c, r => ∃ r', AddEnds p c s s' r' ∧ r = r'.map .added
  | .validate _, _ => s' = s
  | .unregister k _, r => ∃ r', UnregisterEnds k s s' r' ∧ r = r'.map .unregistered

variable {call : ModuleCall Content} {r : Except RegistrationError (Answer Digest)} {r' : Except RegistrationError Bool}

theorem CallEnds.keeps (h : CallEnds p s s' call r) : Keeps s s' := by
  cases call with
  | register k a =>
    obtain ⟨r', hends, -⟩ := h
    exact hends.1.keeps
  | add c =>
    obtain ⟨r', hends, -⟩ := h
    exact hends.keeps
  | validate k =>
    obtain rfl : s' = s := h
    exact .refl s'
  | unregister k inWorker =>
    obtain ⟨r', hends, -⟩ := h
    exact hends.keeps

theorem CallEnds.consistent (h : CallEnds p s s' call r) (hs : Consistent p s) : Consistent p s' := by
  cases call with
  | register k a =>
    obtain ⟨r', hends, -⟩ := h
    exact hends.1.consistent hs
  | add c =>
    obtain ⟨r', hends, -⟩ := h
    exact hends.consistent hs
  | validate k =>
    obtain rfl : s' = s := h
    exact hs
  | unregister k inWorker =>
    obtain ⟨r', hends, -⟩ := h
    exact hends.consistent hs

/-- A registration stays until it is removed. -/
theorem CallEnds.kept (h : CallEnds p s s' call r) (hcall : ∀ inWorker, call ≠ .unregister k inWorker)
    (hr : Registered p s k c) : Registered p s' k c := by
  cases call with
  | register k' a =>
    obtain ⟨r', hends, -⟩ := h
    exact hends.1.kept hr
  | add c' =>
    obtain ⟨r', hends, -⟩ := h
    exact hends.kept hr
  | validate k' =>
    obtain rfl : s' = s := h
    exact hr
  | unregister k' inWorker =>
    obtain ⟨r', hends, -⟩ := h
    have hk : k ≠ k' := fun he => hcall inWorker (by rw [he])
    obtain ⟨hhash, a, ha, hc⟩ := hr
    exact ⟨(hends.others k hk).1.trans hhash, a, (hends.others k hk).2.trans ha, hc⟩

theorem answer_eq {α : Type} (f : α → Answer Digest) (x : Registering Content Digest α) (s : Stores Content Digest) :
    x.answer f s = ((x s).1, (x s).2.map f) := by
  unfold Registering.answer andThen
  cases hx : x s with
  | mk s' r =>
    cases r with
    | ok b => rfl
    | error e => rfl

theorem answer_ends {α : Type} {f : α → Answer Digest} {x : Registering Content Digest α}
    {post : Stores Content Digest → Except RegistrationError α → Prop} (h : x.Ends s post) :
    (Registering.answer f x).Ends s fun s' r => ∃ r', post s' r' ∧ r = r'.map f := by
  unfold Ends
  rw [answer_eq]
  exact ⟨(x s).2, h, rfl⟩

/-- Registering a registered content again changes nothing, whatever fails. -/
theorem registerModule_again (hr : Registered p s k a.content) (hends : RegisterEnds p k a s s' r') :
    s' = s ∧ ∀ fresh, r' = .ok fresh → fresh = false := by
  obtain ⟨hhash, -⟩ := hr
  have hnone : s.hash k ≠ none := by
    rw [hhash]
    intro he
    cases he
  obtain ⟨htouches, hnew, -⟩ := hends
  constructor
  · have hhere : s'.hash k = s.hash k ∧ s'.archive k = s.archive k := by
      rcases htouches.here with hsame | ⟨-, hfree, -⟩
      · exact hsame
      · exact absurd hfree hnone
    have heverywhere : ∀ k', s'.hash k' = s.hash k' ∧ s'.archive k' = s.archive k' := by
      intro k'
      by_cases hk : k' = k
      · exact hk ▸ hhere
      · exact htouches.others k' hk
    cases s
    cases s'
    simp only [Stores.mk.injEq]
    exact ⟨funext fun k' => (heverywhere k').1, funext fun k' => (heverywhere k').2, htouches.tree⟩
  · rintro (_ | _) hfresh
    · rfl
    · exact absurd (hnew hfresh).2.1 hnone

variable [DecidableEq Digest]

theorem perform_ends (p : Packaging Content Digest) (faults : StoreFaults) (call : ModuleCall Content)
    (s : Stores Content Digest) : (perform p faults call).Ends s fun s' r => CallEnds p s s' call r := by
  cases call with
  | register k a => exact answer_ends (registerModule_ends p faults k a s)
  | add c => exact answer_ends (registerAndInstall_ends p faults c s)
  | validate k =>
    refine (answer_ends (validateStoredModule_ends p faults k s)).mono ?_
    rintro s' r ⟨r', ⟨rfl, -⟩, -⟩
    rfl
  | unregister k inWorker =>
    cases inWorker with
    | true => exact answer_ends (unregisterModuleAsync_ends faults k s)
    | false => exact answer_ends (unregisterModule_ends faults k s)

theorem runCalls_consistent (p : Packaging Content Digest) (calls : List (ModuleCall Content × StoreFaults))
    (hs : Consistent p s) : Consistent p (runCalls p s calls) := by
  induction calls generalizing s with
  | nil => exact hs
  | cons call calls ih => exact ih ((perform_ends p call.2 call.1 s).consistent hs)

@[simp] theorem healthy_works (point : Point) : healthy point = .works := rfl

theorem registerModule_healthy (p : Packaging Content Digest) (s : Stores Content Digest)
    (hid : p.identity a.content = k) :
    registerModule p healthy k a s =
      match registrationExists (s.hash k) (p.digest a.content) (s.archive k).isSome with
      | .ok true => (s, .ok false)
      | .ok false => ((s.setHash k (some (p.digest a.content))).setArchive k (some a), .ok true)
      | .error e => (s, .error e) := by
  cases hexists : registrationExists (s.hash k) (p.digest a.content) (s.archive k).isSome with
  | error e => simp [registerModule, andThen, hid, hexists, result]
  | ok same =>
    rcases registrationExists_ok.mp hexists with ⟨rfl, hhash, harchive⟩ | ⟨rfl, hhash, harchive⟩
    · have hfresh : registrationExists (none : Option Digest) (p.digest a.content) false = .ok false := rfl
      simp [registerModule, andThen, hid, hfresh, result, cleaned, addModuleHash, hhash, saveOrRollback, saveModule,
        harchive]
    · simp [registerModule, andThen, hid, hexists, result]

theorem validateStoredModule_healthy (hhash : s.hash k = some (p.digest c)) (harchive : s.archive k = some a)
    (hcontent : a.content = c) (hid : p.identity c = k) :
    validateStoredModule p healthy k s =
      match p.refusal a with
      | some e => (s, .error (.ofModule e))
      | none => (s, .ok (p.digest c)) := by
  subst hcontent
  cases hr : p.refusal a <;> simp [validateStoredModule, andThen, hhash, harchive, hid, hr]

/-- A call made again without faults returns, or reports a conflict and changes nothing. -/
def Settles (p : Packaging Content Digest) (call : ModuleCall Content) (s : Stores Content Digest) : Prop :=
  let again := perform p healthy call s
  (∃ answer, again.2 = .ok answer) ∨ (again.2 = .error .conflict ∧ again.1 = s)

theorem register_settles (s : Stores Content Digest) (hid : p.identity a.content = k) :
    Settles p (.register k a) s := by
  unfold Settles perform Registering.answer
  simp only [andThen, registerModule_healthy p s hid]
  cases hexists : registrationExists (s.hash k) (p.digest a.content) (s.archive k).isSome with
  | error e =>
    obtain rfl := registrationExists_error hexists
    exact .inr ⟨rfl, rfl⟩
  | ok same =>
    cases same with
    | true => exact .inl ⟨_, rfl⟩
    | false => exact .inl ⟨_, rfl⟩

theorem unregister_settles (p : Packaging Content Digest) (s : Stores Content Digest) (k : ModuleKey) (inWorker : Bool) :
    ∃ answer, (perform p healthy (.unregister k inWorker) s).2 = .ok answer := by
  cases inWorker with
  | false => exact ⟨_, rfl⟩
  | true =>
    unfold perform Registering.answer unregisterModuleAsync
    simp only [if_true, andThen, reads_works, healthy_works, writes_works]
    cases (s.archive k).isSome with
    | true => exact ⟨_, rfl⟩
    | false => exact ⟨_, rfl⟩

/-- Other code is installed, or the registration differs or is incomplete. -/
def Conflicting (p : Packaging Content Digest) (s : Stores Content Digest) (c : Content) : Prop :=
  (∃ t, s.tree (p.identity c) = some t ∧ t ≠ c) ∨
    registrationExists (s.hash (p.identity c)) (p.digest c) (s.archive (p.identity c)).isSome = .error .conflict

/-- The archive that an installation downloads: the stored one, else its own. -/
def archiveFor (p : Packaging Content Digest) (s : Stores Content Digest) (c : Content) : Package Content :=
  (s.archive (p.identity c)).getD (staged c)

theorem registerModule_completes (hs : Consistent p s) (hconflict : ¬ Conflicting p s c) :
    ∃ m registered, registerModule p healthy (p.identity c) (staged c) s = (m, .ok registered) ∧
      m.tree = s.tree ∧ m.hash (p.identity c) = some (p.digest c) ∧
      m.archive (p.identity c) = some (archiveFor p s c) ∧ (archiveFor p s c).content = c := by
  have hid : p.identity (staged c).content = p.identity c := rfl
  rw [registerModule_healthy p s hid]
  cases hexists : registrationExists (s.hash (p.identity c)) (p.digest (staged c).content)
      (s.archive (p.identity c)).isSome with
  | error e =>
    obtain rfl := registrationExists_error hexists
    exact absurd (.inr hexists) hconflict
  | ok same =>
    rcases registrationExists_ok.mp hexists with ⟨rfl, hhash, harchive⟩ | ⟨rfl, hhash, harchive⟩
    · have hnone : s.archive (p.identity c) = none := by simpa using harchive
      refine ⟨_, _, rfl, rfl, ?_, ?_, ?_⟩
      · simp [staged]
      · simp [archiveFor, hnone]
      · simp [archiveFor, hnone, staged]
    · obtain ⟨a, ha⟩ := Option.isSome_iff_exists.mp harchive
      refine ⟨_, _, rfl, rfl, hhash, ?_, ?_⟩
      · simp [archiveFor, ha]
      · simp only [archiveFor, ha, Option.getD_some]
        exact p.collisionFree _ _ (hs.hash _ a _ ha hhash).symm

theorem different_iff {installed : Option Content} :
    installed.any (fun t => p.digest t ≠ p.digest c) = true ↔ ∃ t, installed = some t ∧ t ≠ c := by
  cases installed with
  | none => simp
  | some t =>
    have hdigest : p.digest t = p.digest c ↔ t = c := ⟨p.collisionFree t c, fun he => by rw [he]⟩
    simp [hdigest]

/-- An installation made again without faults, where no conflict is in its way. -/
theorem registerAndInstall_healthy (hs : Consistent p s) (hconflict : ¬ Conflicting p s c) :
    match p.refusal (archiveFor p s c) with
    | none => ∃ i, (registerAndInstall p healthy c s).2 = .ok i
    | some e => ∃ m, registerAndInstall p healthy c s = (m, .error (.ofModule e)) ∧
      Registered p m (p.identity c) c ∧ m.tree = s.tree := by
  obtain ⟨m, registered, hregister, htree, hhash, harchive, hcontent⟩ := registerModule_completes hs hconflict
  have hsame : ¬ (s.tree (p.identity c)).any (fun t => p.digest t ≠ p.digest c) = true := by
    intro hany
    exact hconflict (.inl (different_iff.mp hany))
  have hvalid := validateStoredModule_healthy hhash harchive hcontent rfl
  unfold registerAndInstall
  simp only [cleaned, andThen, reads_works, healthy_works, if_neg hsame, hregister, hvalid]
  cases p.refusal (archiveFor p s c) with
  | some e => exact ⟨m, rfl, ⟨hhash, archiveFor p s c, harchive, hcontent⟩, htree⟩
  | none =>
    dsimp only
    rw [if_neg (not_not.mpr rfl)]
    cases hinstalled : s.tree (p.identity c) with
    | some t => exact ⟨_, rfl⟩
    | none => 
      refine ⟨⟨p.digest c, registered, true⟩, ?_⟩
      simp [installModule, andThen, htree, hinstalled, result]

theorem add_conflicts (hconflict : Conflicting p s c) :
    perform p healthy (.add c) s = (s, .error .conflict) := by
  unfold perform Registering.answer registerAndInstall
  by_cases hany : (s.tree (p.identity c)).any (fun t => p.digest t ≠ p.digest c) = true
  · simp only [cleaned, andThen, reads_works, healthy_works, if_pos hany]
  · rcases hconflict with hdifferent | hexists
    · exact absurd (different_iff.mpr hdifferent) hany
    · have hregister := registerModule_healthy p s (a := staged c) rfl
      rw [show (staged c).content = c from rfl, hexists] at hregister
      simp only [cleaned, andThen, reads_works, healthy_works, if_neg hany, hregister]

/-- When an installation made again comes to an end. -/
theorem add_settles (hs : Consistent p s) :
    Settles p (.add c) s ↔ Conflicting p s c ∨ p.refusal (archiveFor p s c) = none := by
  by_cases hconflict : Conflicting p s c
  · simp only [hconflict, true_or, iff_true]
    have hagain := add_conflicts hconflict
    exact .inr ⟨by rw [hagain], by rw [hagain]⟩
  · simp only [hconflict, false_or]
    have hagain := registerAndInstall_healthy hs hconflict
    unfold Settles perform
    simp only [answer_eq]
    cases hrefusal : p.refusal (archiveFor p s c) with
    | none =>
      rw [hrefusal] at hagain
      obtain ⟨i, hi⟩ := hagain
      simp [hi, Except.map]
    | some e =>
      rw [hrefusal] at hagain
      obtain ⟨m, hrefused, -⟩ := hagain
      cases e with
      | value message => simp [hrefused, Except.map, RegistrationError.ofModule]
      | hashMismatch message => simp [hrefused, Except.map, RegistrationError.ofModule]

theorem registerModule_again_healthy (hs : Consistent p s) (hr : Registered p s k a.content) :
    registerModule p healthy k a s = (s, .ok false) := by
  obtain ⟨hhash, b, hb, hc⟩ := hr
  have hid : p.identity a.content = k := hc ▸ hs.archive k b hb
  have hexists : registrationExists (s.hash k) (p.digest a.content) (s.archive k).isSome = .ok true :=
    registrationExists_ok.mpr (.inr ⟨rfl, hhash, by simp [hb]⟩)
  rw [registerModule_healthy p s hid, hexists]

/-- What the stores and the folder agree on, and what any next call keeps of it. -/
structure Agreement (p : Packaging Content Digest) (s : Stores Content Digest) : Prop where
  consistent : Consistent p s
  keeps : ∀ faults call, Keeps s (perform p faults call s).1
  registers : ∀ faults k a s' answer, perform p faults (.register k a) s = (s', .ok answer) →
    p.identity a.content = k ∧ Registered p s' k a.content
  installs : ∀ faults c s' answer, perform p faults (.add c) s = (s', .ok answer) →
    (∃ i, answer = .added i ∧ i.reference = p.digest c) ∧
      Registered p s' (p.identity c) c ∧ s'.tree (p.identity c) = some c
  stays : ∀ faults call k c, (∀ inWorker, call ≠ .unregister k inWorker) → Registered p s k c →
    Registered p (perform p faults call s).1 k c
  again : ∀ faults k a, Registered p s k a.content →
    (perform p faults (.register k a) s).1 = s ∧
      (∀ answer, (perform p faults (.register k a) s).2 = .ok answer → answer = .registered false) ∧
      perform p healthy (.register k a) s = (s, .ok (.registered false))
  misnamed : ∀ faults k a, p.identity a.content ≠ k → (perform p faults (.register k a) s).1 = s
  checked : ∀ faults k, (perform p faults (.validate k) s).1 = s
  retried : ∀ k a, p.identity a.content = k → Settles p (.register k a) s
  removed : ∀ faults k inWorker s' answer, perform p faults (.unregister k inWorker) s = (s', .ok answer) →
    s'.hash k = none ∧ s'.archive k = none
  removable : ∀ k inWorker, ∃ answer, (perform p healthy (.unregister k inWorker) s).2 = .ok answer

/-- After any calls, with any faults, the stores agree, and an installation made again without
faults completes or conflicts exactly when a conflict is there or the download accepts the archive. -/
theorem registration_agrees (p : Packaging Content Digest) (calls : List (ModuleCall Content × StoreFaults)) :
    Agreement p (runCalls p (.empty Content Digest) calls) ∧
      ∀ c, Settles p (.add c) (runCalls p (.empty Content Digest) calls) ↔
        Conflicting p (runCalls p (.empty Content Digest) calls) c ∨
          p.refusal (archiveFor p (runCalls p (.empty Content Digest) calls) c) = none := by
  have hs := runCalls_consistent p calls (.empty p)
  generalize runCalls p (.empty Content Digest) calls = s at hs
  refine ⟨?_, fun c => add_settles hs⟩
  have hmoves : ∀ {faults call s' r}, perform p faults call s = (s', r) → CallEnds p s s' call r := by
    intro faults call s' r hcall
    have hends := perform_ends p faults call s
    unfold Ends at hends
    rwa [hcall] at hends
  refine ⟨hs, ?_, ?_, ?_, ?_, ?_, ?_, ?_, fun k a => register_settles s, ?_, unregister_settles p s⟩
  · intro faults call
    exact (perform_ends p faults call s).keeps
  · intro faults k a s' answer hcall
    obtain ⟨r', ⟨htouches, hnew, hold⟩, hr⟩ := hmoves hcall
    cases r' with
    | error e => cases hr
    | ok fresh =>
      have hs' := htouches.consistent hs
      cases fresh with
      | true =>
        obtain ⟨hid, -, hhash, harchive⟩ := hnew rfl
        exact ⟨hid, hhash, a, harchive, rfl⟩
      | false =>
        obtain ⟨hid, rfl, hhash, harchive⟩ := hold rfl
        exact ⟨hid, hs.registered hhash harchive⟩
  · intro faults c s' answer hcall
    obtain ⟨r', hends, hr⟩ := hmoves hcall
    cases r' with
    | error e => cases hr
    | ok i =>
      cases hr
      obtain ⟨hreference, hhash, harchive, htree⟩ := hends.agrees i rfl
      exact ⟨⟨i, rfl, hreference⟩, ⟨hhash, harchive⟩, htree⟩
  · intro faults call k c hcall hr
    exact (perform_ends p faults call s).kept hcall hr
  · intro faults k a hr
    refine ⟨?_, ?_, ?_⟩
    · obtain ⟨r', hends, -⟩ := perform_ends p faults (.register k a) s
      exact (registerModule_again hr hends).1
    · intro answer hanswer
      obtain ⟨r', hends, hr'⟩ := perform_ends p faults (.register k a) s
      rw [hanswer] at hr'
      cases r' with
      | error e => cases hr'
      | ok fresh =>
        cases hr'
        rw [(registerModule_again hr hends).2 fresh rfl]
    · simp only [perform]
      rw [answer_eq, registerModule_again_healthy hs hr]
      rfl
  · intro faults k a hid
    simp only [perform]
    rw [answer_eq]
    unfold registerModule andThen reads
    cases (faults .source).error with
    | some e => rfl
    | none => simp [hid]
  · intro faults k
    exact perform_ends p faults (.validate k) s
  · intro faults k inWorker s' answer hcall
    obtain ⟨r', hends, hr⟩ := hmoves hcall
    cases r' with
    | error e => cases hr
    | ok b => exact hends.gone b rfl

/-- What the checks of a download say of a packed folder. -/
def packageRefusal (sha : Sha256) (ignore : List IgnoredFolder) (code : List String)
    (a : Package (List SourceFile)) : Option ModuleError :=
  match downloadVerifiedModule sha ignore code
      (registrationPackage a.folder a.content (contentDigest sha a.content)) (contentDigest sha a.content) with
  | .ok _ => none
  | .error e => some e

theorem packageRefusal_none {sha : Sha256} {ignore : List IgnoredFolder} {code : List String}
    {a : Package (List SourceFile)} (h : packageRefusal sha ignore code a = none) :
    validateArchiveMembers (compressFiles a.content) false = .ok () := by
  unfold packageRefusal at h
  split at h
  · rename_i entries hdownload
    obtain ⟨htext, harchive⟩ := package_contents a.folder a.content (contentDigest sha a.content)
    simp only [downloadVerifiedModule, htext, harchive, bind_ok] at hdownload
    obtain ⟨u, -, hdownload⟩ := hdownload
    split at hdownload
    · cases hdownload
    · obtain ⟨u', hmembers, -⟩ := bind_ok.mp hdownload
      exact hmembers
  · cases h

/-- Source folders with one identity, and digests that are the files themselves. -/
def sourcePackaging : Packaging (List SourceFile) (List SourceFile) where
  digest := id
  identity _ := ("m", "1.0")
  refusal := packageRefusal zeroHash [] ["work", "code"]
  collisionFree _ _ h := h

def colonFiles : List SourceFile := [⟨["a:b"], [1]⟩, ⟨["module.yaml"], [2]⟩]

/-- An installation of a file with a colon in its name leaves a complete registration without
code, and is refused again however often it is repeated. -/
theorem colon_module_stuck :
    let s := runCalls sourcePackaging (.empty _ _) [(.add colonFiles, healthy)]
    Registered sourcePackaging s ("m", "1.0") colonFiles ∧ s.tree ("m", "1.0") = none ∧
      ¬ Settles sourcePackaging (.add colonFiles) s := by
  have hrefused : ∀ folder, sourcePackaging.refusal ⟨folder, colonFiles⟩ ≠ none := by
    intro folder hnone
    have hmembers : validateArchiveMembers (compressFiles colonFiles) false = .ok () := packageRefusal_none hnone
    exact absurd hmembers (by decide +kernel)
  have hconflict : ¬ Conflicting sourcePackaging (.empty _ _) colonFiles := by
    rintro (⟨t, ht, -⟩ | hexists)
    · cases ht
    · cases hexists
  have hadd := registerAndInstall_healthy (.empty sourcePackaging) hconflict
  cases hrefusal : sourcePackaging.refusal (archiveFor sourcePackaging (.empty _ _) colonFiles) with
  | none => exact absurd hrefusal (hrefused _)
  | some e =>
    rw [hrefusal] at hadd
    obtain ⟨m, hm, hregistered, htree⟩ := hadd
    have hrun : runCalls sourcePackaging (.empty _ _) [(.add colonFiles, healthy)] = m := by
      simp only [runCalls, List.foldl_cons, List.foldl_nil, perform]
      rw [answer_eq, hm]
    have hconsistent := runCalls_consistent sourcePackaging [(.add colonFiles, healthy)] (.empty _)
    rw [hrun] at hconsistent ⊢
    refine ⟨hregistered, htree ▸ rfl, ?_⟩
    rw [add_settles hconsistent]
    obtain ⟨hhash, a, ha, hcontent⟩ := hregistered
    rintro ((⟨t, ht, -⟩ | hexists) | hnone)
    · rw [htree] at ht
      cases ht
    · rw [registrationExists_ok.mpr (.inr ⟨rfl, hhash, by simp [ha]⟩)] at hexists
      cases hexists
    · have hstored : archiveFor sourcePackaging m colonFiles = a := by simp [archiveFor, ha]
      obtain ⟨folder, content⟩ := a
      obtain rfl : content = colonFiles := hcontent
      exact hrefused folder (hstored ▸ hnone)

end ModularPipelines.Modules
