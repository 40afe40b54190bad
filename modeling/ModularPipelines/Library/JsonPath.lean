import ModularPipelines.Library.Json

namespace ModularPipelines.Library.Json

/-- A way from a container to one of its children. -/
inductive Step where
  | member (key : String)
  | anyMember
  | item

/-- A container without the child that a step leads to. -/
inductive Frame where
  | members (before : List (String × Json)) (key : String) (after : List (String × Json))
  | items (before after : List Json)

def Frame.plug : Frame → Json → Json
  | .members before key after, v => .obj (before ++ (key, v) :: after)
  | .items before after, v => .arr (before ++ v :: after)

/-- Outermost frame first. -/
def plug : List Frame → Json → Json
  | [], v => v
  | f :: fs, v => f.plug (plug fs v)

inductive Fits : List Step → List Frame → Prop where
  | nil : Fits [] []
  | member (before : List (String × Json)) (key : String) (after : List (String × Json)) {path : List Step}
      {frames : List Frame} (rest : Fits path frames) :
      Fits (.member key :: path) (.members before key after :: frames)
  | anyMember (before : List (String × Json)) (key : String) (after : List (String × Json)) {path : List Step}
      {frames : List Frame} (rest : Fits path frames) :
      Fits (.anyMember :: path) (.members before key after :: frames)
  | item (before after : List Json) {path : List Step} {frames : List Frame} (rest : Fits path frames) :
      Fits (.item :: path) (.items before after :: frames)

theorem depthMembers_append (xs ys : List (String × Json)) :
    depthMembers (xs ++ ys) = max (depthMembers xs) (depthMembers ys) := by
  induction xs with
  | nil => simp [depthMembers]
  | cons x xs ih =>
    obtain ⟨key, v⟩ := x
    simp only [List.cons_append, depthMembers, ih]
    omega

theorem depthElems_append (xs ys : List Json) : depthElems (xs ++ ys) = max (depthElems xs) (depthElems ys) := by
  induction xs with
  | nil => simp [depthElems]
  | cons x xs ih =>
    simp only [List.cons_append, depthElems, ih]
    omega

/-- The siblings of a place do not depend on what stands there. -/
theorem Frame.depth_plug (f : Frame) : ∃ siblings, ∀ v, (f.plug v).depth = max siblings (v.depth + 1) := by
  cases f with
  | members before key after =>
    refine ⟨max (depthMembers before) (depthMembers after), fun v => ?_⟩
    simp only [Frame.plug, depth, depthMembers_append, depthMembers]
    omega
  | items before after =>
    refine ⟨max (depthElems before) (depthElems after), fun v => ?_⟩
    simp only [Frame.plug, depth, depthElems_append, depthElems]
    omega

theorem depth_plug_le (frames : List Frame) (v : Json) (limit : Nat) :
    (plug frames v).depth ≤ limit ↔ (plug frames .null).depth ≤ limit ∧ v.depth + frames.length ≤ limit := by
  induction frames generalizing limit with
  | nil => simp [plug, depth]
  | cons f fs ih =>
    obtain ⟨siblings, hf⟩ := f.depth_plug
    simp only [plug, hf, List.length_cons]
    have hfs := ih (limit - 1)
    have hnull : (plug fs .null).depth ≤ (plug fs v).depth := ((ih (plug fs v).depth).mp (Nat.le_refl _)).1
    omega

theorem Fits.length {path : List Step} {frames : List Frame} (h : Fits path frames) :
    frames.length = path.length := by
  induction h with
  | nil => rfl
  | member before key after rest ih => simp [ih]
  | anyMember before key after rest ih => simp [ih]
  | item before after rest ih => simp [ih]

/-- A document with nothing beside the path. -/
theorem Fits.exists_bare (path : List Step) :
    ∃ frames, Fits path frames ∧ (plug frames .null).depth = path.length := by
  induction path with
  | nil => exact ⟨[], .nil, rfl⟩
  | cons step path ih =>
    obtain ⟨frames, hfits, hdepth⟩ := ih
    cases step with
    | member key =>
      refine ⟨_, .member [] key [] hfits, ?_⟩
      simp [plug, Frame.plug, depth, depthMembers, hdepth]
    | anyMember =>
      refine ⟨_, .anyMember [] "" [] hfits, ?_⟩
      simp [plug, Frame.plug, depth, depthMembers, hdepth]
    | item =>
      refine ⟨_, .item [] [] hfits, ?_⟩
      simp [plug, Frame.plug, depth, depthElems, hdepth]

theorem depth_set_le {j : Json} (key : String) (v : Json) : (j.set key v).depth ≤ max j.depth (v.depth + 1) := by
  have hmembers : ∀ ms : List (String × Json), depthMembers (setMember key v ms) ≤ max (depthMembers ms) (v.depth + 1) := by
    intro ms
    induction ms with
    | nil => simp [setMember, depthMembers]
    | cons m ms ih =>
      obtain ⟨k, w⟩ := m
      simp only [setMember]
      split
      · simp only [depthMembers]
        omega
      · simp only [depthMembers]
        omega
  cases j with
  | obj ms => exact hmembers ms
  | _ => exact Nat.le_max_left _ _

end ModularPipelines.Library.Json
