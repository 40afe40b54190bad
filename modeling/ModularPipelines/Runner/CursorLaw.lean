import ModularPipelines.Runner.ReloadSound

namespace ModularPipelines.Runner
open Library Services ExperimentTemplate

/-- Both DAGs have the same node at an index, and it does not call a changed service. -/
def Unchanged (previous candidate : ExperimentTemplate) (i : Nat) : Prop :=
  ∃ before after, previous.stages[i]? = some before ∧ candidate.stages[i]? = some after ∧
    before.fingerprint = after.fingerprint ∧ before.serviceId.any (serviceChanged previous candidate) = false

/-- A cursor after a reload, for the index of the next node before it. -/
structure LawfulCursor (previous candidate : ExperimentTemplate) (oldNext : Nat) (cursor : ReloadCursor) : Prop where
  next : cursor.nextPosition =
    min (sharedPrefix (serviceChanged previous candidate) previous.stages candidate.stages) oldNext
  settled : ∀ i < cursor.nextPosition, Unchanged previous candidate i ∧ i < oldNext
  kept : ∀ stage ∈ candidate.stages.take cursor.nextPosition, stage.stageId ∈ cursor.preserved
  position : 1 ≤ cursor.stagePosition ∧ cursor.stagePosition ≤ candidate.stages.length
  encoded : cursor.stagePosition + cursor.pendingAdvance.toNat - 1 = cursor.nextPosition
  done : cursor.pendingAdvance = true ↔ ∀ i < candidate.stages.length, Unchanged previous candidate i ∧ i < oldNext

variable {changed : String → Bool} {old new : List StageDefinition}

theorem sharedPrefix_shared {i : Nat} (h : i < sharedPrefix changed old new) :
    ∃ before after, old[i]? = some before ∧ new[i]? = some after ∧ before.fingerprint = after.fingerprint ∧
      before.serviceId.any changed = false := by
  induction old generalizing new i with
  | nil => simp [sharedPrefix] at h
  | cons before old ih =>
    cases new with
    | nil => simp [sharedPrefix] at h
    | cons after new =>
      simp only [sharedPrefix] at h
      split at h
      · omega
      · rename_i hsame
        obtain ⟨hf, hs⟩ := not_or.mp hsame
        cases i with
        | zero => exact ⟨before, after, rfl, rfl, not_not.mp hf, by simpa using hs⟩
        | succ i => simpa using ih (Nat.lt_of_succ_lt_succ h)

theorem sharedPrefix_ends {before after : StageDefinition}
    (hb : old[sharedPrefix changed old new]? = some before)
    (ha : new[sharedPrefix changed old new]? = some after) (hf : before.fingerprint = after.fingerprint) :
    before.serviceId.any changed = true := by
  induction old generalizing new with
  | nil => simp at hb
  | cons b old ih =>
    cases new with
    | nil => simp at ha
    | cons a new =>
      by_cases h : b.fingerprint ≠ a.fingerprint ∨ b.serviceId.any changed = true
      · simp only [sharedPrefix, if_pos h, List.getElem?_cons_zero, Option.some.injEq] at hb ha
        subst hb ha
        exact h.resolve_left (not_not.mpr hf)
      · simp only [sharedPrefix, if_neg h, List.getElem?_cons_succ] at hb ha
        exact ih hb ha

theorem sharedPrefix_le : sharedPrefix changed old new ≤ old.length ∧ sharedPrefix changed old new ≤ new.length := by
  induction old generalizing new with
  | nil => simp [sharedPrefix]
  | cons b old ih =>
    cases new with
    | nil => simp [sharedPrefix]
    | cons a new =>
      obtain ⟨ho, hn⟩ := @ih new
      simp only [sharedPrefix, List.length_cons]
      split <;> omega

variable {previous candidate : ExperimentTemplate}

/-- The shared nodes are the longest run of unchanged ones from the front. -/
theorem lt_sharedPrefix_iff {i : Nat} :
    i < sharedPrefix (serviceChanged previous candidate) previous.stages candidate.stages ↔
      ∀ j ≤ i, Unchanged previous candidate j := by
  constructor
  · intro h j hj
    exact sharedPrefix_shared (Nat.lt_of_le_of_lt hj h)
  · intro h
    by_contra hn
    obtain ⟨before, after, hb, ha, hf, hs⟩ := h _ (Nat.le_of_not_lt hn)
    simp [sharedPrefix_ends hb ha hf] at hs

theorem stageId_of_fingerprint {before after : StageDefinition} (h : before.fingerprint = after.fingerprint) :
    before.stageId = after.stageId := by
  have hid : before.fingerprint.stageId = after.fingerprint.stageId := congrArg StageDefinition.stageId h
  exact hid

/-- Distinct nodes stand at distinct indices. -/
theorem index_unique {t : ExperimentTemplate} {i j : Nat} {s r : StageDefinition} (hs : t.stages[i]? = some s)
    (hr : t.stages[j]? = some r) (h : s.stageId = r.stageId) : i = j := by
  have hi : t.stageAt (i + 1) = some s := stageAt_eq_some.mpr ⟨Nat.succ_pos i, hs⟩
  have hj : t.stageAt (j + 1) = some r := stageAt_eq_some.mpr ⟨Nat.succ_pos j, hr⟩
  exact Nat.succ.inj (stageAt_injective hi hj h)

theorem positionOf_index {t : ExperimentTemplate} {i : Nat} {s : StageDefinition} (hs : t.stages[i]? = some s) :
    t.positionOf s.stageId = some (i + 1) := by
  have hm : s.stageId ∈ t.stageIds := List.mem_map_of_mem (List.mem_of_getElem? hs)
  obtain ⟨position, hp⟩ := positionOf_exists hm
  obtain ⟨r, hr, hid⟩ := positionOf_stageAt hp
  obtain ⟨hpos, hr⟩ := stageAt_eq_some.mp hr
  have := index_unique hr hs hid
  rw [hp]
  congr
  omega

/-- Where the candidate has the first of some nodes, if it has one of them. -/
theorem firstKept_cases (candidate : ExperimentTemplate) (stages : List StageDefinition) :
    firstKept candidate stages = candidate.stages.length ∨
      ∃ d ∈ stages, ∃ s, candidate.stages[firstKept candidate stages]? = some s ∧ s.stageId = d.stageId := by
  unfold firstKept
  cases hf : stages.findSome? fun d => (candidate.positionOf d.stageId).map (· - 1) with
  | none => exact .inl rfl
  | some q =>
    obtain ⟨d, hd, hq⟩ := List.exists_of_findSome?_eq_some hf
    obtain ⟨position, hp, rfl⟩ := Option.map_eq_some_iff.mp hq
    obtain ⟨s, hs, hid⟩ := positionOf_stageAt hp
    exact .inr ⟨d, hd, s, (stageAt_eq_some.mp hs).2, hid⟩

theorem firstKept_head {candidate : ExperimentTemplate} {stages : List StageDefinition} {d s : StageDefinition}
    {i : Nat} (hd : stages.head? = some d) (hs : candidate.stages[i]? = some s) (h : s.stageId = d.stageId) :
    firstKept candidate stages = i := by
  cases stages with
  | nil => simp at hd
  | cons e stages =>
    obtain rfl := Option.some.inj hd
    simp [firstKept, ← h, positionOf_index hs]

/-- Before the rewind, the cursor is the old one among shared nodes and not in front of their end else. -/
theorem layout_next {oldNext sharedLength next : Nat}
    (hshared : sharedLength = sharedPrefix (serviceChanged previous candidate) previous.stages candidate.stages)
    (hn : next = if oldNext = sharedLength then sharedLength else firstKept candidate (previous.stages.drop oldNext)) :
    (oldNext ≤ sharedLength → next = oldNext) ∧
      (sharedLength < oldNext → sharedLength ≤ next ∧ next ≤ candidate.stages.length) := by
  obtain ⟨hle, hle'⟩ := @sharedPrefix_le (serviceChanged previous candidate) previous.stages candidate.stages
  constructor
  · intro hlt
    rcases Nat.eq_or_lt_of_le hlt with he | hlt
    · simpa [he] using hn
    · rw [if_neg (by omega)] at hn
      obtain ⟨before, after, hb, ha, hf, -⟩ := sharedPrefix_shared (hshared ▸ hlt)
      rw [hn]
      exact firstKept_head (by rw [List.head?_drop]; exact hb) ha (stageId_of_fingerprint hf).symm
  · intro hlt
    rw [if_neg (by omega)] at hn
    rcases firstKept_cases candidate (previous.stages.drop oldNext) with h | ⟨d, hd, s, hs, hid⟩
    · omega
    · rw [← hn] at hs
      refine ⟨?_, Nat.le_of_lt (List.getElem?_eq_some_iff.mp hs).1⟩
      by_contra hc
      obtain ⟨before, after, hb, ha, hf, -⟩ := sharedPrefix_shared (hshared ▸ Nat.lt_of_not_le hc)
      obtain ⟨k, hk⟩ := List.getElem?_of_mem hd
      rw [List.getElem?_drop] at hk
      have hsame : after = s := Option.some.inj (ha.symm.trans hs)
      have := index_unique hb hk ((stageId_of_fingerprint hf).trans (hsame ▸ hid))
      omega

theorem reloadCursor_next {layout : ReloadLayout} {completed : List String} {oldNext : Nat}
    (hshared : layout.sharedLength = sharedPrefix (serviceChanged layout.previous layout.candidate)
      layout.previous.stages layout.candidate.stages)
    (hbefore : oldNext ≤ layout.sharedLength → layout.nextPosition = oldNext)
    (hafter : layout.sharedLength < oldNext →
      layout.sharedLength ≤ layout.nextPosition ∧ layout.nextPosition ≤ layout.candidate.stages.length)
    (hdone : ∀ stage ∈ layout.previous.stages.take oldNext, stage.stageId ∈ completed)
    (hhigh : oldNext ≤ layout.previous.stages.length) :
    (reloadCursor layout completed).nextPosition = min layout.sharedLength oldNext := by
  obtain ⟨-, hnew⟩ := @sharedPrefix_le (serviceChanged layout.previous layout.candidate) layout.previous.stages
    layout.candidate.stages
  rw [← hshared] at hnew
  have hnext : (reloadCursor layout completed).nextPosition =
      min (if ((layout.previous.stages.drop layout.sharedLength).map StageDefinition.stageId).any
            (completed.contains ·) && decide (layout.sharedLength < layout.nextPosition) then layout.sharedLength
          else layout.nextPosition) layout.candidate.stages.length := rfl
  rw [hnext]
  rcases Nat.lt_or_ge layout.sharedLength oldNext with hlt | hge
  · obtain ⟨hlow, hhi⟩ := hafter hlt
    -- the first node that is not shared lies before the old cursor, so its work is completed
    have hany : ((layout.previous.stages.drop layout.sharedLength).map StageDefinition.stageId).any
        (completed.contains ·) = true := by
      have hb := List.getElem?_eq_getElem (Nat.lt_of_lt_of_le hlt hhigh)
      have hd : layout.previous.stages[layout.sharedLength] ∈ layout.previous.stages.drop layout.sharedLength :=
        List.mem_of_getElem? (i := 0) (by simp)
      have ht : layout.previous.stages[layout.sharedLength] ∈ layout.previous.stages.take oldNext :=
        List.mem_of_getElem? (i := layout.sharedLength) (by simp [hlt])
      exact List.any_eq_true.mpr ⟨_, List.mem_map_of_mem hd, List.contains_iff_mem.mpr (hdone _ ht)⟩
    rw [hany, Bool.true_and]
    split
    · omega
    · rename_i hn
      have := of_decide_eq_false (Bool.eq_false_iff.mpr hn)
      omega
  · have := hbefore hge
    rw [if_neg]
    · omega
    · simp only [Bool.and_eq_true, decide_eq_true_eq, not_and]
      omega

/-- What follows from the position of the cursor alone. -/
theorem lawful_of_next {layout : ReloadLayout} {completed : List String} {oldNext : Nat}
    (hshared : layout.sharedLength = sharedPrefix (serviceChanged layout.previous layout.candidate)
      layout.previous.stages layout.candidate.stages)
    (hnext : (reloadCursor layout completed).nextPosition = min layout.sharedLength oldNext) :
    LawfulCursor layout.previous layout.candidate oldNext (reloadCursor layout completed) := by
  obtain ⟨-, hnew⟩ := @sharedPrefix_le (serviceChanged layout.previous layout.candidate) layout.previous.stages
    layout.candidate.stages
  rw [← hshared] at hnew
  have hpos := reloadCursor_position layout completed
  have hposition : (reloadCursor layout completed).stagePosition =
      if (reloadCursor layout completed).pendingAdvance then layout.candidate.stages.length
      else (reloadCursor layout completed).nextPosition + 1 := rfl
  have hpending : (reloadCursor layout completed).pendingAdvance =
      ((reloadCursor layout completed).nextPosition == layout.candidate.stages.length) := rfl
  rw [hnext] at hposition hpending
  constructor
  case next => rw [hnext, hshared]
  case settled =>
    intro i hi
    rw [hnext, hshared] at hi
    exact ⟨lt_sharedPrefix_iff.mp (by omega) i (Nat.le_refl i), by omega⟩
  case kept =>
    intro stage hs
    rw [hnext] at hs
    have htake : stage ∈ layout.candidate.stages.take layout.sharedLength :=
      (List.take_subset_take_left _ (Nat.min_le_left _ _)) hs
    exact List.mem_map_of_mem htake
  case position => exact hpos
  case encoded =>
    rw [hnext, hposition, hpending]
    cases hend : min layout.sharedLength oldNext == layout.candidate.stages.length with
    | true =>
      have := beq_iff_eq.mp hend
      simp only [if_true, Bool.toNat_true]
      omega
    | false => simp
  case done =>
    rw [hpending, beq_iff_eq]
    constructor
    · intro hend i hi
      have hlt : i < layout.sharedLength := by omega
      exact ⟨lt_sharedPrefix_iff.mp (hshared ▸ hlt) i (Nat.le_refl i), by omega⟩
    · intro hall
      obtain ⟨last, hlast⟩ := Nat.exists_eq_succ_of_ne_zero (Nat.pos_iff_ne_zero.mp layout.candidate.stages_length_pos)
      have hunchanged : ∀ j ≤ last, Unchanged layout.previous layout.candidate j :=
        fun j hj => (hall j (by omega)).1
      have hshare := lt_sharedPrefix_iff.mpr hunchanged
      have hlt := (hall last (by omega)).2
      omega

/-- The cursor after a reload stands at the end of the shared nodes or where it was, whichever
comes first. -/
theorem reload_cursor_law (previous candidate : ExperimentTemplate) (position : Nat) (pendingAdvance : Bool)
    (completed : List String) (hlow : 1 ≤ position + pendingAdvance.toNat)
    (hhigh : position + pendingAdvance.toNat - 1 ≤ previous.stages.length)
    (hdone : ∀ stage ∈ previous.stages.take (position + pendingAdvance.toNat - 1), stage.stageId ∈ completed) :
    (∀ i, i < sharedPrefix (serviceChanged previous candidate) previous.stages candidate.stages ↔
      ∀ j ≤ i, Unchanged previous candidate j) ∧
    ∃ layout, reloadLayout previous candidate position pendingAdvance = .ok layout ∧
      LawfulCursor previous candidate (position + pendingAdvance.toNat - 1) (reloadCursor layout completed) := by
  refine ⟨fun i => lt_sharedPrefix_iff, ?_⟩
  generalize hold : position + pendingAdvance.toNat - 1 = oldNext at hhigh hdone ⊢
  let shared := sharedPrefix (serviceChanged previous candidate) previous.stages candidate.stages
  let layout : ReloadLayout := ⟨previous, candidate, shared,
    if oldNext = shared then shared else firstKept candidate (previous.stages.drop oldNext)⟩
  have hlayout : reloadLayout previous candidate position pendingAdvance = .ok layout := by
    simp only [reloadLayout, hold]
    exact rejectIf_then.mpr ⟨by omega, rfl⟩
  obtain ⟨hbefore, hafter⟩ := @layout_next previous candidate oldNext shared layout.nextPosition rfl rfl
  have hnext : (reloadCursor layout completed).nextPosition = min layout.sharedLength oldNext :=
    reloadCursor_next rfl hbefore hafter hdone hhigh
  exact ⟨layout, hlayout, lawful_of_next rfl hnext⟩

def plainStage (stageId : String) : StageDefinition := ⟨stageId, none, ⟨0, .stop⟩, none, false, .null⟩

def plainDag (ids : List String) (hne : ids ≠ []) (hd : ids.Nodup) : ExperimentTemplate :=
  ⟨1, ids.map plainStage, [], .off, Nat.one_pos, by simpa using hne, by simpa [Function.comp_def, plainStage] using hd⟩

/-- Two of three nodes are done, and a new one comes between them. -/
theorem reload_cursor_law_inserted :
    let previous := plainDag ["a", "b", "c"] (by decide) (by decide)
    let candidate := plainDag ["a", "x", "b", "c"] (by decide) (by decide)
    ∃ layout, reloadLayout previous candidate 3 false = .ok layout ∧
      LawfulCursor previous candidate 2 (reloadCursor layout ["a", "b"]) :=
  (reload_cursor_law _ _ 3 false ["a", "b"] (by decide) (by decide) (by decide)).2

end ModularPipelines.Runner
