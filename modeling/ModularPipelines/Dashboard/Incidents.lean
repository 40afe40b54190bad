import ModularPipelines.Dashboard.Alerts
import Mathlib.Data.List.Nodup
import Mathlib.Data.List.Forall2
import Mathlib.Data.List.Perm.Subperm

namespace ModularPipelines.Dashboard
open Library

variable {Clock : Type}

/-- An incident after an update: it keeps what identifies it, and no update opens one of the rules. -/
structure Tracks (i i' : AlertIncident) : Prop where
  id : i'.id = i.id
  source : i'.source = i.source
  ruleId : i'.ruleId = i.ruleId
  active : i.source = "system" → i'.isActive = true → i.isActive = true

theorem Tracks.refl (i : AlertIncident) : Tracks i i := ⟨rfl, rfl, rfl, fun _ h => h⟩

/-- An incident of a rule has an issued ID, and its opening was noted. -/
structure OwnIncident (issued : List String) (notes : List (Note Clock)) (i : AlertIncident) : Prop where
  source : i.source = "system"
  issued : i.id ∈ issued
  opened : ∃ ruleId duration time, i.ruleId = some ruleId ∧ .opened ruleId i.id duration time ∈ notes

def isIcmpId (id : String) : Bool := "icmp:".toList.isPrefixOf id.toList

structure MergedIncident (i : AlertIncident) : Prop where
  source : i.source = "dashboard_icmp"
  ruleId : i.ruleId = none
  id : isIcmpId i.id = true

/-- The incidents of a monitor: no ID is used twice, and no rule has two active ones. -/
structure LawfulIncidents (issued : List String) (notes : List (Note Clock)) (incidents : List AlertIncident) : Prop where
  ids : (incidents.map AlertIncident.id).Nodup
  kinds : ∀ i ∈ incidents, OwnIncident issued notes i ∨ MergedIncident i
  single : ∀ i ∈ incidents, ∀ j ∈ incidents, i.isActive = true → j.isActive = true → i.ruleId ≠ none →
    i.ruleId = j.ruleId → i = j

section lists

variable {issued : List String} {notes : List (Note Clock)} {incidents incidents' : List AlertIncident}

theorem mem_forall₂ {α β : Type} {R : α → β → Prop} {xs : List α} {ys : List β} (h : List.Forall₂ R xs ys) {y : β}
    (hy : y ∈ ys) : ∃ x ∈ xs, R x y := by
  induction h with
  | nil => cases hy
  | cons hr _ ih =>
    rcases List.mem_cons.mp hy with rfl | hy
    · exact ⟨_, List.mem_cons_self .., hr⟩
    · obtain ⟨x, hx, hxy⟩ := ih hy
      exact ⟨x, List.mem_cons_of_mem _ hx, hxy⟩

theorem forall₂_mem {α β : Type} {R : α → β → Prop} {xs : List α} {ys : List β} (h : List.Forall₂ R xs ys) {x : α}
    (hx : x ∈ xs) : ∃ y ∈ ys, R x y := by
  obtain ⟨y, hy, hr⟩ := mem_forall₂ h.flip hx
  exact ⟨y, hy, hr⟩

theorem updateFirst_forall₂ {α : Type} {R : α → α → Prop} (hrefl : ∀ a, R a a) {p : α → Bool} {f : α → α} {xs : List α}
    (h : ∀ a ∈ xs, p a = true → R a (f a)) : List.Forall₂ R xs (updateFirst p f xs) := by
  induction xs with
  | nil => exact .nil
  | cons a xs ih =>
    rw [updateFirst]
    split
    · rename_i hp
      exact .cons (h a (List.mem_cons_self ..) hp) (List.forall₂_same.mpr fun b _ => hrefl b)
    · exact .cons (hrefl a) (ih fun b hb => h b (List.mem_cons_of_mem _ hb))

theorem map_forall₂ {α : Type} {R : α → α → Prop} {f : α → α} {xs : List α} (h : ∀ a ∈ xs, R a (f a)) :
    List.Forall₂ R xs (xs.map f) := by
  rw [List.forall₂_map_right_iff]
  exact List.forall₂_same.mpr h

theorem mem_ids (hi : (incidents.map AlertIncident.id).Nodup) {i j : AlertIncident} (h : i ∈ incidents)
    (g : j ∈ incidents) (hid : i.id = j.id) : i = j := List.inj_on_of_nodup_map hi h g hid

theorem tracks_ids (h : List.Forall₂ Tracks incidents incidents') :
    incidents'.map AlertIncident.id = incidents.map AlertIncident.id := by
  induction h with
  | nil => rfl
  | cons ht _ ih => rw [List.map_cons, List.map_cons, ht.id, ih]

theorem OwnIncident.mono {issued' : List String} {notes' : List (Note Clock)} {i : AlertIncident}
    (h : OwnIncident issued notes i) (hissued : issued ⊆ issued') (hnotes : notes ⊆ notes') :
    OwnIncident issued' notes' i := by
  obtain ⟨ruleId, duration, time, hrule, hopened⟩ := h.opened
  exact ⟨h.source, hissued h.issued, ruleId, duration, time, hrule, hnotes hopened⟩

theorem LawfulIncidents.mono {issued' : List String} {notes' : List (Note Clock)}
    (h : LawfulIncidents issued notes incidents) (hissued : issued ⊆ issued') (hnotes : notes ⊆ notes') :
    LawfulIncidents issued' notes' incidents :=
  ⟨h.ids, fun i hi => (h.kinds i hi).imp_left fun ho => ho.mono hissued hnotes, h.single⟩

theorem LawfulIncidents.nil : LawfulIncidents issued notes [] := by
  refine ⟨List.nodup_nil, fun i hi => ?_, fun i hi => ?_⟩
  · cases hi
  · cases hi

/-- Only an incident of a rule names one. -/
theorem LawfulIncidents.own (h : LawfulIncidents issued notes incidents) {i : AlertIncident} (hi : i ∈ incidents)
    (hrule : i.ruleId ≠ none) : OwnIncident issued notes i :=
  (h.kinds i hi).resolve_right fun hm => hrule hm.ruleId

theorem LawfulIncidents.tracks (h : LawfulIncidents issued notes incidents)
    (ht : List.Forall₂ Tracks incidents incidents') : LawfulIncidents issued notes incidents' := by
  refine ⟨(tracks_ids ht).symm ▸ h.ids, fun i' hi' => ?_, fun i' hi' j' hj' hia hja hrule hsame => ?_⟩
  · obtain ⟨i, hi, htr⟩ := mem_forall₂ ht hi'
    rcases h.kinds i hi with ho | hm
    · left
      obtain ⟨ruleId, duration, time, hr, hopened⟩ := ho.opened
      exact ⟨htr.source.trans ho.source, htr.id.symm ▸ ho.issued, ruleId, duration, time, htr.ruleId.trans hr,
        htr.id.symm ▸ hopened⟩
    · exact .inr ⟨htr.source.trans hm.source, htr.ruleId.trans hm.ruleId, htr.id.symm ▸ hm.id⟩
  · obtain ⟨i, hi, hti⟩ := mem_forall₂ ht hi'
    obtain ⟨j, hj, htj⟩ := mem_forall₂ ht hj'
    have hri : i.ruleId ≠ none := hti.ruleId ▸ hrule
    have hij : i.ruleId = j.ruleId := hti.ruleId.symm.trans (hsame.trans htj.ruleId)
    have hrj : j.ruleId ≠ none := hij ▸ hri
    have heq := h.single i hi j hj (hti.active (h.own hi hri).source hia) (htj.active (h.own hj hrj).source hja) hri hij
    have hids : (incidents'.map AlertIncident.id).Nodup := (tracks_ids ht).symm ▸ h.ids
    exact mem_ids hids hi' hj' (hti.id.trans (heq ▸ htj.id.symm))

theorem LawfulIncidents.subperm (h : LawfulIncidents issued notes incidents) (hsub : incidents'.Subperm incidents) :
    LawfulIncidents issued notes incidents' := by
  have hmem := hsub.subset
  refine ⟨?_, fun i hi => h.kinds i (hmem hi), fun i hi j hj => h.single i (hmem hi) j (hmem hj)⟩
  obtain ⟨l, hperm, hl⟩ := hsub
  exact (hperm.map _).nodup_iff.mp ((hl.map _).nodup h.ids)

/-- One more incident, which is not active or the first active one of its rule. -/
theorem LawfulIncidents.append (h : LawfulIncidents issued notes incidents) {i : AlertIncident}
    (hid : ∀ j ∈ incidents, j.id ≠ i.id) (hkind : OwnIncident issued notes i ∨ MergedIncident i)
    (hfirst : i.ruleId ≠ none → ∀ j ∈ incidents, j.isActive = true → j.ruleId ≠ i.ruleId) :
    LawfulIncidents issued notes (incidents ++ [i]) := by
  refine ⟨?_, fun j hj => ?_, fun j hj k hk hja hka hrule hsame => ?_⟩
  · rw [List.map_append]
    apply List.nodup_append.mpr
    refine ⟨h.ids, List.nodup_singleton _, fun a ha b hb => ?_⟩
    obtain ⟨j, hj, rfl⟩ := List.mem_map.mp ha
    obtain rfl := List.mem_singleton.mp hb
    exact hid j hj
  · rcases List.mem_append.mp hj with hj | hj
    · exact h.kinds j hj
    · obtain rfl := List.mem_singleton.mp hj
      exact hkind
  · rcases List.mem_append.mp hj with hold | hj
    · rcases List.mem_append.mp hk with hk | hk
      · exact h.single j hold k hk hja hka hrule hsame
      · obtain rfl := List.mem_singleton.mp hk
        exact (hfirst (hsame ▸ hrule) j hold hja hsame).elim
    · obtain rfl := List.mem_singleton.mp hj
      rcases List.mem_append.mp hk with hk | hk
      · exact (hfirst hrule k hk hka hsame.symm).elim
      · exact (List.mem_singleton.mp hk).symm

end lists

end ModularPipelines.Dashboard
