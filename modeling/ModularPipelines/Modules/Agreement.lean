import ModularPipelines.Modules.Packing
import ModularPipelines.Modules.Registration

namespace ModularPipelines.Modules
open Library Library.Faulty

variable {Content Digest : Type} {p : Packaging Content Digest}
  {s s' : Stores Content Digest} {k k' : ModuleKey} {a : Package Content} {c : Content} {faults : StoreFaults}

@[simp] theorem setHash_hash (s : Stores Content Digest) (k : ModuleKey) (d : Option Digest) :
    (s.setHash k d).hash k = d := by
  simp [Stores.setHash]

@[simp] theorem setHash_other (s : Stores Content Digest) (d : Option Digest) (h : k' ≠ k) :
    (s.setHash k d).hash k' = s.hash k' := by
  simp [Stores.setHash, h]

@[simp] theorem setHash_archive (s : Stores Content Digest) (k : ModuleKey) (d : Option Digest) :
    (s.setHash k d).archive = s.archive := rfl

@[simp] theorem setHash_tree (s : Stores Content Digest) (k : ModuleKey) (d : Option Digest) :
    (s.setHash k d).tree = s.tree := rfl

@[simp] theorem setArchive_archive (s : Stores Content Digest) (k : ModuleKey) (a : Option (Package Content)) :
    (s.setArchive k a).archive k = a := by
  simp [Stores.setArchive]

@[simp] theorem setArchive_other (s : Stores Content Digest) (a : Option (Package Content)) (h : k' ≠ k) :
    (s.setArchive k a).archive k' = s.archive k' := by
  simp [Stores.setArchive, h]

@[simp] theorem setArchive_hash (s : Stores Content Digest) (k : ModuleKey) (a : Option (Package Content)) :
    (s.setArchive k a).hash = s.hash := rfl

@[simp] theorem setArchive_tree (s : Stores Content Digest) (k : ModuleKey) (a : Option (Package Content)) :
    (s.setArchive k a).tree = s.tree := rfl

@[simp] theorem setTree_tree (s : Stores Content Digest) (k : ModuleKey) (c : Option Content) :
    (s.setTree k c).tree k = c := by
  simp [Stores.setTree]

@[simp] theorem setTree_other (s : Stores Content Digest) (c : Option Content) (h : k' ≠ k) :
    (s.setTree k c).tree k' = s.tree k' := by
  simp [Stores.setTree, h]

@[simp] theorem setTree_hash (s : Stores Content Digest) (k : ModuleKey) (c : Option Content) :
    (s.setTree k c).hash = s.hash := rfl

@[simp] theorem setTree_archive (s : Stores Content Digest) (k : ModuleKey) (c : Option Content) :
    (s.setTree k c).archive = s.archive := rfl

/-- The states that a registration may leave: the one it found, or, where neither hash nor
archive was there, either or both of its own. -/
structure Touches (p : Packaging Content Digest) (k : ModuleKey) (a : Package Content) (s s' : Stores Content Digest) :
    Prop where
  tree : s'.tree = s.tree
  others : ∀ k' ≠ k, s'.hash k' = s.hash k' ∧ s'.archive k' = s.archive k'
  here : (s'.hash k = s.hash k ∧ s'.archive k = s.archive k) ∨
    (p.identity a.content = k ∧ s.hash k = none ∧ s.archive k = none ∧
      (s'.hash k = none ∨ s'.hash k = some (p.digest a.content)) ∧ (s'.archive k = none ∨ s'.archive k = some a))

theorem Touches.refl (s : Stores Content Digest) : Touches p k a s s :=
  ⟨rfl, fun _ _ => ⟨rfl, rfl⟩, .inl ⟨rfl, rfl⟩⟩

/-- What a registration leaves and returns. -/
def RegisterEnds (p : Packaging Content Digest) (k : ModuleKey) (a : Package Content) (s s' : Stores Content Digest)
    (r : Except RegistrationError Bool) : Prop :=
  Touches p k a s s' ∧
    (r = .ok true → p.identity a.content = k ∧ s.hash k = none ∧ s'.hash k = some (p.digest a.content) ∧ s'.archive k = some a) ∧
    (r = .ok false → p.identity a.content = k ∧ s' = s ∧ s.hash k = some (p.digest a.content) ∧ (s.archive k).isSome = true)

theorem RegisterEnds.error {e : RegistrationError} (h : Touches p k a s s') : RegisterEnds p k a s s' (.error e) := by
  refine ⟨h, ?_, ?_⟩
  · intro he
    cases he
  · intro he
    cases he

theorem rollbackRegistrationHash_ends (fault : Fault RegistrationError) (k : ModuleKey) (e : RegistrationError)
    (s : Stores Content Digest) : (rollbackRegistrationHash fault k e).Ends s fun s' r =>
      (∃ e', r = .error e') ∧ (s' = s ∨ s' = s.setHash k none) := by
  unfold Ends rollbackRegistrationHash writes
  cases fault with
  | works => exact ⟨⟨_, rfl⟩, .inr rfl⟩
  | fails e' => exact ⟨⟨_, rfl⟩, .inl rfl⟩
  | misreports e' => exact ⟨⟨_, rfl⟩, .inr rfl⟩

theorem saveOrRollback_ends (faults : StoreFaults) (k : ModuleKey) (a : Package Content)
    (harchive : s.archive k = none) : (saveOrRollback faults k a).Ends s fun s' r =>
      (r = .ok () ∧ s' = s.setArchive k (some a)) ∨
        ((∃ e, r = .error e) ∧ ∃ t, (t = s ∨ t = s.setArchive k (some a)) ∧ (s' = t ∨ s' = t.setHash k none)) := by
  have hnone : ¬ (s.archive k).isSome = true := by simp [harchive]
  have hback : ∀ t e, (t = s ∨ t = s.setArchive k (some a)) →
      Ends (fun t => if e.isStorage then rollbackRegistrationHash (faults .rollback) k e t else (t, .error e)) t
        fun s' r => (∃ e, r = .error e) ∧
          ∃ t, (t = s ∨ t = s.setArchive k (some a)) ∧ (s' = t ∨ s' = t.setHash k none) := by
    intro t e ht
    unfold Ends
    split
    · obtain ⟨herror, hleft⟩ := rollbackRegistrationHash_ends (faults .rollback) k e t
      exact ⟨herror, t, ht, hleft⟩
    · exact ⟨⟨e, rfl⟩, t, ht, .inl rfl⟩
  unfold Ends saveOrRollback saveModule writes
  simp only [if_neg hnone]
  cases faults .save with
  | works => exact .inl ⟨rfl, rfl⟩
  | fails e => exact .inr (hback s e (.inl rfl))
  | misreports e => exact .inr (hback _ e (.inr rfl))

/-- The upload after the new hash, with the hash taken back when the upload reports a storage error. -/
theorem upload_ends (hid : p.identity a.content = k) (hhash : s.hash k = none) (harchive : s.archive k = none) :
    (andThen (saveOrRollback faults k a) fun _ => result (.ok true)).Ends (s.setHash k (some (p.digest a.content)))
      (RegisterEnds p k a s) := by
  apply ends_andThen
  refine (saveOrRollback_ends faults k a ?_).mono ?_
  · simpa using harchive
  · intro s' r hr
    constructor
    · rintro e rfl
      apply RegisterEnds.error
      rcases hr with ⟨he, -⟩ | ⟨-, t, rfl | rfl, rfl | rfl⟩
      · cases he
      all_goals
        refine ⟨rfl, ?_, .inr ⟨hid, hhash, harchive, ?_, ?_⟩⟩
        · intro k' hne
          simp [hne]
        · simp
        · simp [harchive]
    · rintro u rfl
      rcases hr with ⟨-, rfl⟩ | ⟨⟨e, he⟩, -⟩
      · apply ends_result
        refine ⟨⟨rfl, ?_, .inr ⟨hid, hhash, harchive, ?_, ?_⟩⟩, ?_, ?_⟩
        · intro k' hne
          simp [hne]
        · simp
        · simp
        · intro _
          simp [hid, hhash]
        · intro he
          cases he
      · cases he

theorem addModuleHash_ends {f : Bool → Registering Content Digest Bool} (fault : Fault RegistrationError)
    (hid : p.identity a.content = k) (hhash : s.hash k = none) (harchive : s.archive k = none)
    (h : (f true).Ends (s.setHash k (some (p.digest a.content))) (RegisterEnds p k a s)) :
    (andThen (addModuleHash fault k (p.digest a.content)) f).Ends s (RegisterEnds p k a s) := by
  have hhashed : Touches p k a s (s.setHash k (some (p.digest a.content))) := by
    refine ⟨rfl, ?_, .inr ⟨hid, hhash, harchive, .inr (by simp), .inl (by simpa using harchive)⟩⟩
    intro k' hne
    simp [hne]
  unfold Ends andThen addModuleHash at *
  simp only [hhash, Option.isNone_none, if_true, andThen]
  cases fault with
  | works => exact h
  | fails e => exact .error (.refl s)
  | misreports e => exact .error hhashed

theorem installModule_ends (faults : StoreFaults) (k : ModuleKey) (c : Content) (s : Stores Content Digest) :
    (installModule faults k c).Ends s fun s' r =>
      (s' = s ∧ ∃ e, r = .error e) ∨ (s.tree k = none ∧ s' = s.setTree k (some c)) := by
  unfold installModule
  apply ends_reads
  · intro e
    exact .inl ⟨rfl, e, rfl⟩
  · unfold Ends
    dsimp only
    cases htree : s.tree k with
    | some t => exact .inl ⟨rfl, _, rfl⟩
    | none =>
      simp only [Option.isSome_none, Bool.false_eq_true, if_false, writes]
      cases faults .publish with
      | works => exact .inr ⟨trivial, rfl⟩
      | fails e => exact .inl ⟨rfl, e, rfl⟩
      | misreports e => exact .inr ⟨trivial, rfl⟩

/-- What `module add` leaves and returns. -/
structure AddEnds (p : Packaging Content Digest) (c : Content) (s s' : Stores Content Digest)
    (r : Except RegistrationError (Installation Digest)) : Prop where
  leaves : ∃ m, Touches p (p.identity c) (staged c) s m ∧
    (s' = m ∨ (s.tree (p.identity c) = none ∧ s' = m.setTree (p.identity c) (some c)))
  agrees : ∀ i, r = .ok i → i.reference = p.digest c ∧ s'.hash (p.identity c) = some (p.digest c) ∧
    (∃ a, s'.archive (p.identity c) = some a ∧ a.content = c) ∧ s'.tree (p.identity c) = some c

theorem AddEnds.error {e : RegistrationError}
    (h : ∃ m, Touches p (p.identity c) (staged c) s m ∧
      (s' = m ∨ (s.tree (p.identity c) = none ∧ s' = m.setTree (p.identity c) (some c)))) :
    AddEnds p c s s' (.error e) := by
  refine ⟨h, ?_⟩
  intro i hi
  cases hi

theorem installation_ends {m : Stores Content Digest} {a : Package Content} {registered : Bool}
    (htouches : Touches p (p.identity c) (staged c) s m)
    (htree : ∀ t, s.tree (p.identity c) = some t → t = c) (hhash : m.hash (p.identity c) = some (p.digest c))
    (harchive : m.archive (p.identity c) = some a) (hcontent : a.content = c) :
    Ends (if (s.tree (p.identity c)).isSome then result (.ok ⟨p.digest c, registered, false⟩)
      else andThen (installModule faults (p.identity c) c) fun _ => result (.ok ⟨p.digest c, registered, true⟩)) m
      (AddEnds p c s) := by
  cases hinstalled : s.tree (p.identity c) with
  | some t =>
    apply ends_result
    refine ⟨⟨m, htouches, .inl rfl⟩, ?_⟩
    intro i hi
    cases hi
    refine ⟨rfl, hhash, ⟨a, harchive, hcontent⟩, ?_⟩
    rw [htouches.tree, hinstalled, htree t hinstalled]
  | none =>
    apply ends_andThen
    refine (installModule_ends faults (p.identity c) c m).mono ?_
    intro s' r hr
    constructor
    · rintro e rfl
      apply AddEnds.error
      rcases hr with ⟨rfl, -⟩ | ⟨-, rfl⟩
      · exact ⟨s', htouches, .inl rfl⟩
      · exact ⟨m, htouches, .inr ⟨hinstalled, rfl⟩⟩
    · rintro u rfl
      rcases hr with ⟨-, e, he⟩ | ⟨-, rfl⟩
      · cases he
      · apply ends_result
        refine ⟨⟨m, htouches, .inr ⟨hinstalled, rfl⟩⟩, ?_⟩
        intro i hi
        cases hi
        exact ⟨rfl, by simpa using hhash, ⟨a, by simpa using harchive, hcontent⟩, by simp⟩

/-- What the removal of a registration leaves and returns. -/
structure UnregisterEnds (k : ModuleKey) (s s' : Stores Content Digest) (r : Except RegistrationError Bool) :
    Prop where
  tree : s'.tree = s.tree
  others : ∀ k' ≠ k, s'.hash k' = s.hash k' ∧ s'.archive k' = s.archive k'
  hash : s'.hash k = s.hash k ∨ s'.hash k = none
  archive : s'.archive k = s.archive k ∨ s'.archive k = none
  gone : ∀ b, r = .ok b → s'.hash k = none ∧ s'.archive k = none

/-- The second half of a removal, once the archive is gone or kept by an error. -/
theorem removeHash_ends {fault : Fault RegistrationError} {m : Stores Content Digest} {b : Bool}
    (htree : m.tree = s.tree) (hothers : ∀ k' ≠ k, m.hash k' = s.hash k' ∧ m.archive k' = s.archive k')
    (hhash : m.hash k = s.hash k) (harchive : m.archive k = none) :
    Ends (andThen (writes fault fun s => s.setHash k none) fun _ => result (.ok b)) m (UnregisterEnds k s) := by
  have hremoved : ∀ r, UnregisterEnds k s (m.setHash k none) r := by
    intro r
    refine ⟨htree, ?_, .inr (by simp), .inr harchive, ?_⟩
    · intro k' hne
      simpa [hne] using hothers k' hne
    · intro _ _
      exact ⟨by simp, harchive⟩
  apply ends_writes
  · intro e
    refine ⟨htree, hothers, .inl hhash, .inr harchive, ?_⟩
    intro b hb
    cases hb
  · intro e
    exact hremoved _
  · exact hremoved _

theorem unregisterModule_ends (faults : StoreFaults) (k : ModuleKey) (s : Stores Content Digest) :
    (unregisterModule faults k).Ends s (UnregisterEnds k s) := by
  have hother : ∀ k' ≠ k, (s.setArchive k none).hash k' = s.hash k' ∧
      (s.setArchive k none).archive k' = s.archive k' := by
    intro k' hne
    simp [hne]
  unfold unregisterModule
  change Ends (andThen (writes (faults .delete) _) _) s _
  apply ends_writes
  · intro e
    refine ⟨rfl, fun _ _ => ⟨rfl, rfl⟩, .inl rfl, .inl rfl, ?_⟩
    intro b hb
    cases hb
  · intro e
    refine ⟨rfl, hother, .inl rfl, .inr (by simp), ?_⟩
    intro b hb
    cases hb
  · exact removeHash_ends rfl hother rfl (by simp)

theorem unregisterModuleAsync_ends (faults : StoreFaults) (k : ModuleKey) (s : Stores Content Digest) :
    (unregisterModuleAsync faults k).Ends s (UnregisterEnds k s) := by
  have hunchanged : ∀ e, UnregisterEnds k s s (.error e) := by
    intro e
    refine ⟨rfl, fun _ _ => ⟨rfl, rfl⟩, .inl rfl, .inl rfl, ?_⟩
    intro b hb
    cases hb
  unfold unregisterModuleAsync
  apply ends_reads hunchanged
  apply ends_reads hunchanged
  unfold Ends
  dsimp only
  cases harchive : s.archive k with
  | some a => exact unregisterModule_ends faults k s
  | none => exact removeHash_ends rfl (fun _ _ => ⟨rfl, rfl⟩) rfl harchive

variable [DecidableEq Digest]

theorem registrationExists_ok {stored : Option Digest} {digest : Digest} {archived same : Bool} :
    registrationExists stored digest archived = .ok same ↔
      (same = false ∧ stored = none ∧ archived = false) ∨
        (same = true ∧ stored = some digest ∧ archived = true) := by
  unfold registrationExists
  cases stored with
  | none => cases archived <;> cases same <;> simp
  | some d =>
    by_cases hd : d = digest
    · cases archived <;> cases same <;> simp [hd]
    · cases archived <;> cases same <;> simp [hd]

theorem registrationExists_error {stored : Option Digest} {digest : Digest} {archived : Bool}
    {e : RegistrationError} (h : registrationExists stored digest archived = .error e) : e = .conflict := by
  unfold registrationExists at h
  split at h
  · cases h
  · split at h
    · cases h
    · cases h
      rfl

theorem registerModule_ends (p : Packaging Content Digest) (faults : StoreFaults) (k : ModuleKey)
    (a : Package Content) (s : Stores Content Digest) : (registerModule p faults k a).Ends s (RegisterEnds p k a s) := by
  have hunchanged : ∀ e, RegisterEnds p k a s s (.error e) := fun e => .error (.refl s)
  unfold registerModule
  apply ends_reads hunchanged
  by_cases hid : p.identity a.content = k
  · unfold Ends
    simp only [hid, ne_eq, not_true_eq_false, if_false]
    apply ends_reads hunchanged
    apply ends_reads hunchanged
    apply ends_andThen
    apply ends_result
    refine ⟨fun e _ => hunchanged e, ?_⟩
    intro same hsame
    rcases registrationExists_ok.mp hsame with ⟨rfl, hhash, harchive⟩ | ⟨rfl, hhash, harchive⟩
    · have hnone : s.archive k = none := by simpa using harchive
      have hpackaged : ((reads (faults .package)).andThen fun _ =>
          andThen (addModuleHash (faults .addHash) k (p.digest a.content)) fun added =>
            if added then andThen (saveOrRollback faults k a) fun _ => result (.ok true)
            else recheck p k a.content).Ends s (RegisterEnds p k a s) := by
        apply ends_reads hunchanged
        apply addModuleHash_ends _ hid hhash hnone
        exact upload_ends hid hhash hnone
      apply ends_cleaned
      exact hpackaged.mono fun s' r hr => ⟨hr, fun _ _ _ => .error hr.1⟩
    · apply ends_result
      refine ⟨.refl s, ?_, ?_⟩
      · intro he
        cases he
      · intro _
        exact ⟨hid, rfl, hhash, harchive⟩
  · unfold Ends
    simp only [ne_eq, hid, not_false_eq_true, if_true]
    exact hunchanged _

/-- What a validation leaves and returns. -/
def ValidEnds (p : Packaging Content Digest) (k : ModuleKey) (s s' : Stores Content Digest)
    (r : Except RegistrationError Digest) : Prop :=
  s' = s ∧ ∀ d, r = .ok d → s.hash k = some d ∧
    ∃ a, s.archive k = some a ∧ p.digest a.content = d ∧ p.identity a.content = k

theorem validateStoredModule_ends (p : Packaging Content Digest) (faults : StoreFaults) (k : ModuleKey)
    (s : Stores Content Digest) : (validateStoredModule p faults k).Ends s (ValidEnds p k s) := by
  have hfails : ∀ e, ValidEnds p k s s (.error e) := by
    intro e
    refine ⟨rfl, ?_⟩
    intro d hd
    cases hd
  unfold validateStoredModule
  apply ends_reads hfails
  unfold Ends
  dsimp only
  cases hhash : s.hash k with
  | none => exact hfails _
  | some d =>
    change Ends (andThen (reads _) _) s (ValidEnds p k s)
    apply ends_reads hfails
    unfold Ends
    dsimp only
    cases harchive : s.archive k with
    | none => exact hfails _
    | some a =>
      dsimp only
      cases p.refusal a with
      | some e => exact hfails _
      | none =>
        by_cases hdigest : p.digest a.content = d
        · by_cases hid : p.identity a.content = k
          · simp only [hdigest, hid, ne_eq, not_true_eq_false, if_false]
            refine ⟨rfl, ?_⟩
            intro d' hd
            cases hd
            exact ⟨hhash, a, harchive, hdigest, hid⟩
          · simp only [hdigest, hid, ne_eq, not_true_eq_false, not_false_eq_true, if_false, if_true]
            exact hfails _
        · simp only [hdigest, ne_eq, not_false_eq_true, if_true]
          exact hfails _

theorem registerAndInstall_ends (p : Packaging Content Digest) (faults : StoreFaults) (c : Content)
    (s : Stores Content Digest) : (registerAndInstall p faults c).Ends s (AddEnds p c s) := by
  have hunchanged : ∀ e, AddEnds p c s s (.error e) := fun e => .error ⟨s, .refl s, .inl rfl⟩
  unfold registerAndInstall
  apply ends_cleaned
  refine Ends.mono (?_ : Ends _ s (AddEnds p c s)) fun s' r hr => ⟨hr, fun _ _ _ => .error hr.leaves⟩
  apply ends_reads hunchanged
  apply ends_reads hunchanged
  unfold Ends
  dsimp only
  by_cases hdifferent : (s.tree (p.identity c)).any (fun t => p.digest t ≠ p.digest c) = true
  · rw [if_pos hdifferent]
    exact hunchanged _
  · rw [if_neg hdifferent]
    have htree : ∀ t, s.tree (p.identity c) = some t → t = c := by
      intro t ht
      apply p.collisionFree
      simpa [ht] using hdifferent
    apply ends_andThen
    refine (registerModule_ends p faults (p.identity c) (staged c) s).mono ?_
    intro m r hr
    constructor
    · rintro e rfl
      exact .error ⟨m, hr.1, .inl rfl⟩
    · rintro registered rfl
      apply ends_andThen
      refine (validateStoredModule_ends p faults (p.identity c) m).mono ?_
      rintro m' r' ⟨rfl, hvalid⟩
      constructor
      · rintro e rfl
        exact .error ⟨m', hr.1, .inl rfl⟩
      · rintro d rfl
        obtain ⟨hhash, a, harchive, hdigest, -⟩ := hvalid d rfl
        by_cases hsame : d = p.digest c
        · subst hsame
          simp only [ne_eq, not_true_eq_false, if_false]
          exact installation_ends hr.1 htree hhash harchive (p.collisionFree _ _ hdigest)
        · simp only [ne_eq, hsame, not_false_eq_true, if_true]
          exact ends_result (.error ⟨m', hr.1, .inl rfl⟩)

end ModularPipelines.Modules
