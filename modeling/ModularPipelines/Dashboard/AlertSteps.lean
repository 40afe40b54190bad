import ModularPipelines.Dashboard.Incidents

namespace ModularPipelines.Dashboard
open Library

variable {Clock : Type}

structure LawfulMonitor (m : AlertMonitor Clock) : Prop where
  incidents : LawfulIncidents m.issued m.notes m.incidents
  file : ∀ d, m.file = some d → LawfulIncidents m.issued m.notes d.incidents
  issued : ∀ id ∈ m.issued, isIcmpId id = false

/-- Every active incident of a rule has an enabled rule. -/
def EnabledOnly (m : AlertMonitor Clock) : Prop :=
  ∀ i ∈ m.incidents, i.isActive = true → ∀ ruleId, i.ruleId = some ruleId → ruleId ∈ m.enabledIds

/-- What a process may do to its incidents: an active one stays unless its end is noted, and an ID
that was issued before is still that of the same incident, which is not opened again. -/
structure Evolves (m m' : AlertMonitor Clock) : Prop where
  issued : m.issued ⊆ m'.issued
  active : ∃ new, m'.notes = m.notes ++ new ∧ ∀ i ∈ m.incidents, i.isActive = true →
    (∃ i' ∈ m'.incidents, i'.id = i.id ∧ i'.isActive = true) ∨ .left i.id ∈ new
  settled : ∀ i' ∈ m'.incidents, i'.id ∈ m.issued →
    ∃ i ∈ m.incidents, i.id = i'.id ∧ (i'.isActive = true → i.isActive = true)

theorem Evolves.refl (m : AlertMonitor Clock) : Evolves m m := by
  refine ⟨List.Subset.refl _, ⟨[], (List.append_nil _).symm, fun i hi ha => .inl ⟨i, hi, rfl, ha⟩⟩, fun i hi _ => ?_⟩
  exact ⟨i, hi, rfl, id⟩

theorem Evolves.trans {m m' m'' : AlertMonitor Clock} (h : Evolves m m') (g : Evolves m' m'') : Evolves m m'' := by
  obtain ⟨new, hnew, hactive⟩ := h.active
  obtain ⟨new', hnew', hactive'⟩ := g.active
  refine ⟨List.Subset.trans h.issued g.issued, ⟨new ++ new', by rw [hnew', hnew, List.append_assoc], fun i hi ha => ?_⟩, ?_⟩
  · rcases hactive i hi ha with ⟨i', hi', hid, ha'⟩ | hleft
    · rcases hactive' i' hi' ha' with ⟨i'', hi'', hid', ha''⟩ | hleft
      · exact .inl ⟨i'', hi'', hid'.trans hid, ha''⟩
      · exact .inr (List.mem_append_right _ (hid ▸ hleft))
    · exact .inr (List.mem_append_left _ hleft)
  · intro i'' hi'' hold
    obtain ⟨i', hi', hid', hback'⟩ := g.settled i'' hi'' (h.issued hold)
    obtain ⟨i, hi, hid, hback⟩ := h.settled i' hi' (hid' ▸ hold)
    exact ⟨i, hi, hid.trans hid', fun ha => hback (hback' ha)⟩

/-- A part of a step that keeps the invariant. -/
structure Sound (m m' : AlertMonitor Clock) : Prop where
  lawful : LawfulMonitor m'
  evolves : Evolves m m'
  rules : m'.rules = m.rules
  enabled : EnabledOnly m → EnabledOnly m'

theorem Sound.trans {m m' m'' : AlertMonitor Clock} (h : Sound m m') (g : Sound m' m'') : Sound m m'' :=
  ⟨g.lawful, h.evolves.trans g.evolves, g.rules.trans h.rules, fun he => g.enabled (h.enabled he)⟩

theorem Sound.refl {m : AlertMonitor Clock} (h : LawfulMonitor m) : Sound m m := ⟨h, .refl m, rfl, id⟩

theorem enabledIds_eq {m m' : AlertMonitor Clock} (h : m'.rules = m.rules) : m'.enabledIds = m.enabledIds := by
  rw [AlertMonitor.enabledIds, AlertMonitor.enabledIds, h]

theorem LawfulMonitor.own {m : AlertMonitor Clock} (h : LawfulMonitor m) {i : AlertIncident} (hi : i ∈ m.incidents)
    (hid : i.id ∈ m.issued) : OwnIncident m.issued m.notes i :=
  (h.incidents.kinds i hi).resolve_right fun hm => Bool.false_ne_true ((h.issued _ hid).symm.trans hm.id)

/-- An incident after an update that notes its end. -/
def Noted (new : List (Note Clock)) (i i' : AlertIncident) : Prop :=
  Tracks i i' ∧ (i.isActive = true → i'.isActive = true ∨ .left i.id ∈ new)

theorem Noted.refl (new : List (Note Clock)) (i : AlertIncident) : Noted new i i := ⟨.refl i, .inl⟩

/-- An update of the incidents one by one. -/
theorem LawfulMonitor.update {m m' : AlertMonitor Clock} {new : List (Note Clock)} (h : LawfulMonitor m)
    (hnoted : List.Forall₂ (Noted new) m.incidents m'.incidents) (hnew : m'.notes = m.notes ++ new)
    (hissued : m'.issued = m.issued) (hfile : m'.file = m.file) (hrules : m'.rules = m.rules) : Sound m m' := by
  have hsub : m.notes ⊆ m'.notes := hnew ▸ List.subset_append_left _ _
  have htracks : List.Forall₂ Tracks m.incidents m'.incidents := hnoted.imp fun _ _ h => h.1
  refine ⟨⟨?_, fun d hd => ?_, ?_⟩, ⟨?_, ⟨new, hnew, fun i hi ha => ?_⟩, fun i' hi' hold => ?_⟩, hrules,
    fun he i' hi' ha ruleId hrule => ?_⟩
  · exact (h.incidents.tracks htracks).mono (hissued ▸ List.Subset.refl _) hsub
  · exact (h.file d (hfile ▸ hd)).mono (hissued ▸ List.Subset.refl _) hsub
  · exact hissued ▸ h.issued
  · exact hissued ▸ List.Subset.refl _
  · obtain ⟨i', hi', htr, hactive⟩ := forall₂_mem hnoted hi
    rcases hactive ha with ha' | hleft
    · exact .inl ⟨i', hi', htr.id, ha'⟩
    · exact .inr hleft
  · obtain ⟨i, hi, htr⟩ := mem_forall₂ htracks hi'
    exact ⟨i, hi, htr.id.symm, htr.active (h.own hi (htr.id ▸ hold)).source⟩
  · obtain ⟨i, hi, htr⟩ := mem_forall₂ htracks hi'
    have hrule' : i.ruleId = some ruleId := htr.ruleId.symm.trans hrule
    have hown := h.incidents.own hi (by rw [hrule']; exact Option.some_ne_none _)
    rw [enabledIds_eq hrules]
    exact he i hi (htr.active hown.source ha) ruleId hrule'

/-- A change of other fields. -/
theorem LawfulMonitor.frame {m m' : AlertMonitor Clock} (h : LawfulMonitor m) (hincidents : m'.incidents = m.incidents)
    {new : List (Note Clock)} (hnew : m'.notes = m.notes ++ new) (hissued : m'.issued = m.issued)
    (hfile : m'.file = m.file) (hrules : m'.rules = m.rules) : Sound m m' := by
  apply h.update _ hnew hissued hfile hrules
  rw [hincidents]
  exact List.forall₂_same.mpr fun i _ => .refl new i

theorem LawfulMonitor.save {m : AlertMonitor Clock} (h : LawfulMonitor m) (outcome : SaveOutcome) :
    Sound m (m.save outcome).1 := by
  have hwritten : Sound m { m with file := some m.saved } := by
    refine ⟨⟨h.incidents, fun d hd => ?_, h.issued⟩, ?_, rfl, id⟩
    · obtain rfl := Option.some.inj hd
      exact h.incidents
    · exact ⟨List.Subset.refl _, (Evolves.refl m).active, (Evolves.refl m).settled⟩
  cases outcome with
  | saved => exact hwritten
  | failed replaced =>
    cases replaced with
    | true => exact hwritten
    | false => exact .refl h

theorem leave_tracks {status : IncidentStatus} (hstatus : status ≠ .active) (now resolution : String) (i : AlertIncident) :
    Tracks i (i.leave status now resolution) :=
  ⟨rfl, rfl, rfl, fun _ ha => (hstatus (beq_iff_eq.mp ha)).elim⟩

theorem LawfulMonitor.closeWhere {m : AlertMonitor Clock} (h : LawfulMonitor m) (p : AlertIncident → Bool) (now : String) :
    Sound m (m.closeWhere p now) := by
  let new : List (Note Clock) := (m.incidents.filter fun i => i.isActive && p i).map fun i => .left i.id
  have hnoted : List.Forall₂ (Noted new) m.incidents (m.closeWhere p now).incidents := by
    apply map_forall₂
    intro i hi
    split
    · rename_i hcloses
      refine ⟨leave_tracks (by decide) now _ i, fun _ => .inr ?_⟩
      exact List.mem_map.mpr ⟨i, List.mem_filter.mpr ⟨hi, hcloses⟩, rfl⟩
    · exact .refl _ i
  exact h.update hnoted rfl rfl rfl rfl

/-- Of the incidents of removed and disabled rules none is left active. -/
theorem LawfulMonitor.closeRemovedRules {m : AlertMonitor Clock} (h : LawfulMonitor m) (now : String) :
    Sound m (m.closeRemovedRules now).1 ∧ EnabledOnly (m.closeRemovedRules now).1 := by
  have hs : Sound m (m.closeRemovedRules now).1 := h.closeWhere _ now
  refine ⟨hs, fun i hi ha ruleId hrule => ?_⟩
  have hown := hs.lawful.incidents.own hi (by rw [hrule]; exact Option.some_ne_none _)
  obtain ⟨j, hj, rfl⟩ := List.mem_map.mp hi
  rw [enabledIds_eq hs.rules]
  split at ha
  · cases ha
  · rename_i hkept
    rw [if_neg hkept] at hrule hown
    by_contra habsent
    apply hkept
    have hany : (m.enabledIds.any fun id => j.ruleId == some id) = false := by
      rw [List.any_eq_false]
      intro id hid
      rw [hrule]
      simp only [beq_iff_eq, Option.some.injEq]
      rintro rfl
      exact habsent hid
    simp [ha, hown.source, hany]

theorem find_none {p : AlertIncident → Bool} {incidents : List AlertIncident} (h : incidents.find? p = none) :
    ∀ i ∈ incidents, p i = false := fun i hi => Bool.eq_false_iff.mpr (List.find?_eq_none.mp h i hi)

theorem alerts_iff {ruleId : String} {i : AlertIncident} :
    i.alerts ruleId = true ↔ i.isActive = true ∧ i.ruleId = some ruleId := by
  rw [AlertIncident.alerts, Bool.and_eq_true, beq_iff_eq]

/-- No incident has an ID that is yet to be given. -/
theorem LawfulMonitor.unused {m : AlertMonitor Clock} (h : LawfulMonitor m) {id : String} (hnew : id ∉ m.issued)
    (hicmp : isIcmpId id = false) : ∀ i ∈ m.incidents, i.id ≠ id := by
  rintro i hi rfl
  rcases h.incidents.kinds i hi with ho | hm
  · exact hnew ho.issued
  · exact Bool.false_ne_true (hicmp.symm.trans hm.id)

/-- A new incident at the end. -/
theorem LawfulMonitor.append {m m' : AlertMonitor Clock} (h : LawfulMonitor m) (i : AlertIncident)
    (new : List (Note Clock)) (hid : ∀ j ∈ m.incidents, j.id ≠ i.id) (hnotes : m'.notes = m.notes ++ new)
    (hissued : m.issued ⊆ m'.issued) (hplain : ∀ id ∈ m'.issued, isIcmpId id = false) (hfile : m'.file = m.file)
    (hrules : m'.rules = m.rules) (hincidents : m'.incidents = m.incidents ++ [i])
    (hkind : OwnIncident m'.issued m'.notes i ∨ MergedIncident i) (hunissued : i.id ∉ m.issued)
    (hfirst : i.ruleId ≠ none → ∀ j ∈ m.incidents, j.isActive = true → j.ruleId ≠ i.ruleId)
    (henabled : ∀ ruleId, i.ruleId = some ruleId → ruleId ∈ m.enabledIds) : Sound m m' := by
  have hsub : m.notes ⊆ m'.notes := hnotes ▸ List.subset_append_left _ _
  refine ⟨⟨?_, fun d hd => ?_, hplain⟩, ⟨hissued, ⟨new, hnotes, fun j hj ha => ?_⟩, fun j hj hold => ?_⟩, hrules,
    fun he j hj ha ruleId hrule => ?_⟩
  · rw [hincidents]
    exact (h.incidents.mono hissued hsub).append hid hkind hfirst
  · exact (h.file d (hfile ▸ hd)).mono hissued hsub
  · exact .inl ⟨j, hincidents ▸ List.mem_append_left _ hj, rfl, ha⟩
  · rw [hincidents] at hj
    rcases List.mem_append.mp hj with hj | hj
    · exact ⟨j, hj, rfl, id⟩
    · obtain rfl := List.mem_singleton.mp hj
      exact (hunissued hold).elim
  · rw [enabledIds_eq hrules]
    rw [hincidents] at hj
    rcases List.mem_append.mp hj with hj | hj
    · exact he j hj ha ruleId hrule
    · obtain rfl := List.mem_singleton.mp hj
      exact henabled ruleId hrule

/-- One rule of a round. -/
theorem LawfulMonitor.applyRuleObservation {m : AlertMonitor Clock} (h : LawfulMonitor m)
    (lasted : Clock → Clock → Clock → Bool) {rule : AlertRule Clock} (o : Observation Clock) {newId : String}
    (now : String) (henabled : rule.id ∈ m.enabledIds) (hnew : newId ∉ m.issued) (hicmp : isIcmpId newId = false) :
    Sound m (m.applyRuleObservation lasted rule o newId now).1 ∧
      ∀ id ∈ (m.applyRuleObservation lasted rule o newId now).1.issued, id ∈ m.issued ∨ id = newId := by
  have hkeep : ∀ m' : AlertMonitor Clock, m'.issued = m.issued → ∀ id ∈ m'.issued, id ∈ m.issued ∨ id = newId :=
    fun m' hm' id hid => .inl (hm' ▸ hid)
  unfold AlertMonitor.applyRuleObservation
  dsimp only
  split
  · rename_i value hvalue hknown hbreach
    split
    · split
      · rename_i hfind
        refine ⟨h.append (AlertMonitor.newIncident rule newId now value)
          [.breaching rule.id o.first, .opened rule.id newId rule.durationSeconds o.second] (h.unused hnew hicmp)
          (List.append_assoc ..) (List.subset_append_left _ _) ?_ rfl rfl rfl (.inl ⟨rfl, ?_, ?_⟩) hnew ?_ ?_, ?_⟩
        · intro id hid
          rcases List.mem_append.mp hid with hid | hid
          · exact h.issued id hid
          · exact (List.mem_singleton.mp hid) ▸ hicmp
        · exact List.mem_append_right _ (List.mem_singleton.mpr rfl)
        · exact ⟨rule.id, rule.durationSeconds, o.second, rfl, List.mem_append_right _ (List.mem_singleton.mpr rfl)⟩
        · intro _ j hj ha hsame
          exact Bool.false_ne_true ((find_none hfind j hj).symm.trans (alerts_iff.mpr ⟨ha, hsame⟩))
        · intro ruleId hrule
          obtain rfl := Option.some.inj hrule
          exact henabled
        · intro id hid
          exact (List.mem_append.mp hid).imp_right List.mem_singleton.mp
      · have hnoted : List.Forall₂ (Noted [Note.breaching rule.id o.first]) m.incidents
            (updateFirst (AlertIncident.alerts rule.id) (fun i => { i with value := value, fresh := true })
              m.incidents) :=
          updateFirst_forall₂ (Noted.refl _) fun i _ _ => ⟨⟨rfl, rfl, rfl, fun _ ha => ha⟩, .inl⟩
        exact ⟨h.update hnoted rfl rfl rfl rfl, hkeep _ rfl⟩
    · exact ⟨h.frame rfl rfl rfl rfl rfl, hkeep _ rfl⟩
  · split
    · exact ⟨h.frame rfl rfl rfl rfl rfl, hkeep _ rfl⟩
    · rename_i incident hfind
      obtain ⟨hactive, hrule⟩ := alerts_iff.mp (List.find?_some hfind)
      let clear := fun i : AlertIncident => { i.leave .resolved now "condition_cleared" with fresh := true }
      let new : List (Note Clock) := [.cleared rule.id, .left incident.id]
      have hnoted : List.Forall₂ (Noted new) m.incidents
          (updateFirst (AlertIncident.alerts rule.id) clear m.incidents) := by
        apply updateFirst_forall₂ (Noted.refl _)
        intro i hi hmine
        obtain ⟨ha, hr⟩ := alerts_iff.mp hmine
        obtain rfl := h.incidents.single i hi incident (List.mem_of_find?_eq_some hfind) ha hactive
          (by rw [hr]; exact Option.some_ne_none _) (hr.trans hrule.symm)
        have hleft : Note.left i.id ∈ new := List.mem_cons_of_mem _ (List.mem_singleton.mpr rfl)
        exact ⟨⟨rfl, rfl, rfl, fun _ _ => ha⟩, fun _ => .inr hleft⟩
      exact ⟨h.update hnoted (List.append_assoc ..) rfl rfl rfl, hkeep _ rfl⟩
  · let new : List (Note Clock) := [.unknown rule.id]
    have hnoted : List.Forall₂ (Noted new) m.incidents
        (updateFirst (AlertIncident.alerts rule.id) (fun i => { i with fresh := false }) m.incidents) :=
      updateFirst_forall₂ (Noted.refl _) fun i _ _ => ⟨⟨rfl, rfl, rfl, fun _ ha => ha⟩, .inl⟩
    exact ⟨h.update hnoted rfl rfl rfl rfl, hkeep _ rfl⟩

theorem isIcmpId_icmpId (o : IcmpIncident) : isIcmpId (AlertMonitor.icmpId o) = true := by
  rw [isIcmpId, AlertMonitor.icmpId, String.toList_append]
  exact List.isPrefixOf_iff_prefix.mpr (List.prefix_append _ _)

theorem LawfulMonitor.merged {m : AlertMonitor Clock} (h : LawfulMonitor m) {i : AlertIncident} (hi : i ∈ m.incidents)
    (hid : isIcmpId i.id = true) : MergedIncident i :=
  (h.incidents.kinds i hi).resolve_left fun ho => Bool.false_ne_true ((h.issued _ ho.issued).symm.trans hid)

theorem icmpUpdate_tracks (o : IcmpIncident) {i : AlertIncident} (h : MergedIncident i) :
    Tracks i (AlertMonitor.icmpUpdate o i) := by
  refine ⟨rfl, rfl, rfl, fun hsystem => ?_⟩
  exact absurd (h.source.symm.trans hsystem) (by decide)

theorem LawfulMonitor.mergeIcmpIncident {m : AlertMonitor Clock} (h : LawfulMonitor m) (o : IcmpIncident) :
    Sound m (m.mergeIcmpIncident o).1 := by
  unfold AlertMonitor.mergeIcmpIncident
  dsimp only
  split
  · rename_i hfind
    have hnone : ∀ i ∈ m.incidents, i.id ≠ AlertMonitor.icmpId o :=
      fun i hi hid => Bool.false_ne_true ((find_none hfind i hi).symm.trans (beq_iff_eq.mpr hid))
    refine h.append (AlertMonitor.icmpIncident o) [] hnone (List.append_nil _).symm (List.Subset.refl _) h.issued rfl rfl
      rfl (.inr ⟨rfl, rfl, isIcmpId_icmpId o⟩) (fun hissued => ?_) (fun hrule => (hrule rfl).elim) fun ruleId hrule => ?_
    · exact Bool.false_ne_true ((h.issued _ hissued).symm.trans (isIcmpId_icmpId o))
    · cases hrule
  · rename_i incident hfind
    have hid : incident.id = AlertMonitor.icmpId o  := by
      simpa using List.find?_some hfind
    have hmerged : ∀ i ∈ m.incidents, (i.id == AlertMonitor.icmpId o) = true → MergedIncident i ∧ i = incident := by
      intro i hi hsame
      have hi' : i.id = AlertMonitor.icmpId o := beq_iff_eq.mp hsame
      exact ⟨h.merged hi (hi' ▸ isIcmpId_icmpId o),
        mem_ids h.incidents.ids hi (List.mem_of_find?_eq_some hfind) (hi'.trans hid.symm)⟩
    split
    · let new : List (Note Clock) := [.left incident.id]
      have hnoted : List.Forall₂ (Noted new) m.incidents
          (updateFirst (fun i => i.id == AlertMonitor.icmpId o) (AlertMonitor.icmpUpdate o) m.incidents) := by
        apply updateFirst_forall₂ (Noted.refl _)
        intro i hi hsame
        obtain ⟨hm, rfl⟩ := hmerged i hi hsame
        exact ⟨icmpUpdate_tracks o hm, fun _ => .inr (List.mem_singleton.mpr rfl)⟩
      exact h.update hnoted rfl rfl rfl rfl
    · rename_i hstays
      let new : List (Note Clock) := []
      have hnoted : List.Forall₂ (Noted new) m.incidents
          (updateFirst (fun i => i.id == AlertMonitor.icmpId o) (AlertMonitor.icmpUpdate o) m.incidents) := by
        apply updateFirst_forall₂ (Noted.refl _)
        intro i hi hsame
        obtain ⟨hm, rfl⟩ := hmerged i hi hsame
        refine ⟨icmpUpdate_tracks o hm, fun ha => .inl ?_⟩
        have hstatus : o.status = .active := by simpa [ha] using hstays
        exact beq_iff_eq.mpr hstatus
      exact h.update hnoted (List.append_nil _).symm rfl rfl rfl

theorem LawfulMonitor.mergeIcmpIncidents {m : AlertMonitor Clock} (h : LawfulMonitor m) (observed : List IcmpIncident) :
    Sound m (m.mergeIcmpIncidents observed).1 := by
  suffices hall : ∀ (m : AlertMonitor Clock) (changed : Bool), LawfulMonitor m →
      Sound m (observed.foldl (fun r o =>
        ((r.1.mergeIcmpIncident o).1, r.2 || (r.1.mergeIcmpIncident o).2)) (m, changed)).1 from hall m false h
  clear h m
  induction observed with
  | nil => exact fun m changed h => .refl h
  | cons o rest ih =>
    intro m changed h
    have hfirst := h.mergeIcmpIncident o
    exact hfirst.trans (ih _ _ hfirst.lawful)

theorem retainClosed_suffix (active : Nat) (closed : List AlertIncident) :
    AlertMonitor.retainClosed active closed <:+ closed := by
  unfold AlertMonitor.retainClosed
  split <;> exact List.drop_suffix _ _

/-- The retained incidents are all active ones and the last closed ones. -/
theorem retain_perm (incidents : List AlertIncident) :
    (AlertMonitor.retain incidents).Perm (AlertMonitor.retainClosed (incidents.filter AlertIncident.isActive).length
      (incidents.filter fun i => !i.isActive) ++ incidents.filter AlertIncident.isActive) :=
  List.mergeSort_perm _ _

theorem retain_subperm (incidents : List AlertIncident) : (AlertMonitor.retain incidents).Subperm incidents := by
  have hclosed := (retainClosed_suffix (incidents.filter AlertIncident.isActive).length
    (incidents.filter fun i => !i.isActive)).sublist
  have hparts := (List.Sublist.append hclosed (List.Sublist.refl (incidents.filter AlertIncident.isActive))).subperm
  have hall : ((incidents.filter fun i => !i.isActive) ++ incidents.filter AlertIncident.isActive).Perm incidents :=
    List.perm_append_comm.trans (List.filter_append_perm _ _)
  exact ((retain_perm incidents).subperm.trans hparts).trans hall.subperm

theorem mem_retain_active {incidents : List AlertIncident} {i : AlertIncident} (hi : i ∈ incidents)
    (ha : i.isActive = true) : i ∈ AlertMonitor.retain incidents :=
  (retain_perm incidents).mem_iff.mpr (List.mem_append_right _ (List.mem_filter.mpr ⟨hi, ha⟩))

/-- Retaining drops closed incidents only. -/
theorem retain_countP (incidents : List AlertIncident) {p : AlertIncident → Bool}
    (hp : ∀ i, p i = true → i.isActive = true) : (AlertMonitor.retain incidents).countP p = incidents.countP p := by
  have hnone : ∀ i ∈ AlertMonitor.retainClosed (incidents.filter AlertIncident.isActive).length
      (incidents.filter fun i => !i.isActive), ¬ p i = true := by
    intro i hi ha
    have hclosed := (List.mem_filter.mp ((retainClosed_suffix _ _).subset hi)).2
    rw [hp i ha] at hclosed
    cases hclosed
  rw [(retain_perm incidents).countP_eq, List.countP_append, List.countP_eq_zero.mpr hnone, Nat.zero_add,
    List.countP_filter]
  apply List.countP_congr
  intro i _
  rw [Bool.and_eq_true]
  exact ⟨fun h => h.1, fun h => ⟨h, hp i h⟩⟩

theorem LawfulMonitor.retainIncidents {m : AlertMonitor Clock} (h : LawfulMonitor m) (changed : Bool) :
    Sound m (m.retainIncidents changed) := by
  have hsub := (retain_subperm m.incidents).subset
  refine ⟨⟨h.incidents.subperm (retain_subperm _), h.file, h.issued⟩, ⟨List.Subset.refl _, ⟨[], (List.append_nil _).symm,
    fun i hi ha => .inl ⟨i, mem_retain_active hi ha, rfl, ha⟩⟩, fun i hi _ => ⟨i, hsub hi, rfl, id⟩⟩, rfl, ?_⟩
  exact fun he i hi => he i (hsub hi)

/-- The IDs of a round were never given before. -/
structure FreshIds (m : AlertMonitor Clock) (e : Evaluation Clock) : Prop where
  distinct : (m.rules.map e.newId).Nodup
  unissued : ∀ rule ∈ m.rules, e.newId rule ∉ m.issued ∧ isIcmpId (e.newId rule) = false

theorem mem_enabledIds {m : AlertMonitor Clock} {rule : AlertRule Clock} (hrule : rule ∈ m.rules)
    (henabled : rule.enabled = true) : rule.id ∈ m.enabledIds :=
  List.mem_map.mpr ⟨rule, List.mem_filter.mpr ⟨hrule, henabled⟩, rfl⟩

theorem LawfulMonitor.observeRules {m : AlertMonitor Clock} (h : LawfulMonitor m) (lasted : Clock → Clock → Clock → Bool)
    (e : Evaluation Clock) (changed : Bool) {rules : List (AlertRule Clock)} (hrules : ∀ rule ∈ rules, rule ∈ m.rules)
    (hdistinct : (rules.map e.newId).Nodup)
    (hunissued : ∀ rule ∈ rules, e.newId rule ∉ m.issued ∧ isIcmpId (e.newId rule) = false) :
    Sound m (AlertMonitor.observeRules lasted e m changed rules).1 := by
  induction rules generalizing m changed with
  | nil => exact .refl h
  | cons rule rest ih =>
    obtain ⟨hother, hdistinct⟩ := List.nodup_cons.mp hdistinct
    have hrest : ∀ r ∈ rest, r ∈ m.rules := fun r hr => hrules r (List.mem_cons_of_mem _ hr)
    rw [AlertMonitor.observeRules, List.foldl_cons]
    split
    · exact ih h changed hrest hdistinct fun r hr => hunissued r (List.mem_cons_of_mem _ hr)
    · rename_i hskips
      have henabled : rule.enabled = true := by
        cases hon : rule.enabled with
        | true => rfl
        | false => exact (hskips (by rw [AlertMonitor.skips, hon]; rfl)).elim
      have hrule := hrules rule (List.mem_cons_self ..)
      obtain ⟨hnew, hicmp⟩ := hunissued rule (List.mem_cons_self ..)
      obtain ⟨hs, hissued⟩ :=
        h.applyRuleObservation lasted (e.observe rule) e.now (mem_enabledIds hrule henabled) hnew hicmp
      refine hs.trans (ih hs.lawful _ (fun r hr => hs.rules ▸ hrest r hr) hdistinct fun r hr => ⟨fun hid => ?_, ?_⟩)
      · rcases hissued _ hid with hold | hsame
        · exact (hunissued r (List.mem_cons_of_mem _ hr)).1 hold
        · exact hother (hsame ▸ List.mem_map_of_mem hr)
      · exact (hunissued r (List.mem_cons_of_mem _ hr)).2

theorem LawfulMonitor.saveDirty {m : AlertMonitor Clock} (h : LawfulMonitor m) (outcome : SaveOutcome) :
    Sound m (m.saveDirty outcome) := by
  unfold AlertMonitor.saveDirty
  split
  · have hsaved := h.save outcome
    exact hsaved.trans (hsaved.lawful.frame rfl (List.append_nil _).symm rfl rfl rfl)
  · exact .refl h

/-- The round once all rules were observed. -/
theorem LawfulMonitor.conclude {m : AlertMonitor Clock} (h : LawfulMonitor m) (e : Evaluation Clock) (changed : Bool) :
    Sound m (AlertMonitor.conclude e m changed) := by
  have hmerged := h.mergeIcmpIncidents e.icmp
  have hretained := hmerged.lawful.retainIncidents ((m.mergeIcmpIncidents e.icmp).2 || changed)
  exact hmerged.trans (hretained.trans (hretained.lawful.saveDirty e.save))

/-- A round closes the incidents of removed rules and keeps everything else in order. -/
theorem LawfulMonitor.evaluate {m : AlertMonitor Clock} (h : LawfulMonitor m) (lasted : Clock → Clock → Clock → Bool)
    (e : Evaluation Clock) (hfresh : FreshIds m e) : Sound m (m.evaluate lasted e) ∧ EnabledOnly (m.evaluate lasted e) := by
  obtain ⟨hclosed, hnone⟩ := h.closeRemovedRules e.now
  have hissued : (m.closeRemovedRules e.now).1.issued = m.issued := rfl
  have hobserve : ∀ rules, rules.Sublist m.rules → Sound (m.closeRemovedRules e.now).1
      (AlertMonitor.observeRules lasted e (m.closeRemovedRules e.now).1 (m.closeRemovedRules e.now).2 rules).1 := by
    intro rules hsub
    exact hclosed.lawful.observeRules lasted e _ (fun rule hr => hsub.subset hr)
      ((hsub.map e.newId).nodup hfresh.distinct) fun rule hr => hfresh.unissued rule (hsub.subset hr)
  unfold AlertMonitor.evaluate
  dsimp only
  split
  · rename_i n hfails
    have hs := hobserve _ (List.take_sublist n m.rules)
    exact ⟨hclosed.trans hs, hs.enabled hnone⟩
  · have hs := hobserve _ (List.Sublist.refl m.rules)
    have hend := hs.lawful.conclude e
      (AlertMonitor.observeRules lasted e (m.closeRemovedRules e.now).1 (m.closeRemovedRules e.now).2 m.rules).2
    exact ⟨hclosed.trans (hs.trans hend), hend.enabled (hs.enabled hnone)⟩

/-- What keeps the invariant, though not the rules. -/
structure Kept (m m' : AlertMonitor Clock) : Prop where
  lawful : LawfulMonitor m'
  evolves : Evolves m m'

theorem Sound.kept {m m' : AlertMonitor Clock} (h : Sound m m') : Kept m m' := ⟨h.lawful, h.evolves⟩

theorem Kept.trans {m m' m'' : AlertMonitor Clock} (h : Kept m m') (g : Kept m' m'') : Kept m m'' :=
  ⟨g.lawful, h.evolves.trans g.evolves⟩

/-- A change of what no incident refers to. -/
theorem LawfulMonitor.other {m m' : AlertMonitor Clock} (h : LawfulMonitor m) (hincidents : m'.incidents = m.incidents)
    {new : List (Note Clock)} (hnew : m'.notes = m.notes ++ new) (hissued : m'.issued = m.issued)
    (hfile : m'.file = m.file) : Kept m m' := by
  have hs : Sound m { m' with rules := m.rules } := h.frame hincidents hnew hissued hfile rfl
  exact ⟨⟨hs.lawful.incidents, hs.lawful.file, hs.lawful.issued⟩,
    ⟨hs.evolves.issued, hs.evolves.active, hs.evolves.settled⟩⟩

theorem LawfulMonitor.elim {α : Type} {m : AlertMonitor Clock} (h : LawfulMonitor m) (o : Option α)
    {f : α → AlertMonitor Clock} (hf : ∀ a, Kept m (f a)) : Kept m (o.elim m f) := by
  cases o with
  | none => exact (Sound.refl h).kept
  | some a => exact hf a

theorem LawfulMonitor.replaceRule {m : AlertMonitor Clock} (h : LawfulMonitor m) (value : AlertRule Clock) :
    Kept m (m.replaceRule value) := h.other rfl rfl rfl rfl

theorem LawfulMonitor.removeRule {m : AlertMonitor Clock} (h : LawfulMonitor m) (id : String) :
    Kept m (m.removeRule id) := h.other rfl rfl rfl rfl

theorem LawfulMonitor.setChannels {m : AlertMonitor Clock} (h : LawfulMonitor m) (channels : NotificationChannels) :
    Kept m (m.setChannels channels) := h.other rfl (List.append_nil _).symm rfl rfl

theorem LawfulMonitor.applyConfiguration {m : AlertMonitor Clock} (h : LawfulMonitor m) (r : AlertConfiguration Clock)
    (now : String) : Kept m (m.applyConfiguration r now) := by
  have hrule := h.elim r.rule h.replaceRule
  have hdelete := hrule.trans (hrule.lawful.elim (r.delete.filter fun id => id != "") hrule.lawful.removeRule)
  have hchannels := hdelete.trans (hdelete.lawful.elim r.channels hdelete.lawful.setChannels)
  unfold AlertMonitor.applyConfiguration
  dsimp only
  split
  · exact hchannels
  · exact hchannels.trans (hchannels.lawful.closeWhere _ now).kept

theorem applyConfiguration_tracks (m : AlertMonitor Clock) (r : AlertConfiguration Clock) (now : String) :
    List.Forall₂ Tracks m.incidents (m.applyConfiguration r now).incidents := by
  obtain ⟨rule, channels, delete⟩ := r
  have hsame : List.Forall₂ Tracks m.incidents m.incidents := List.forall₂_same.mpr fun i _ => .refl i
  have hclosed : ∀ p : AlertIncident → Bool, List.Forall₂ Tracks m.incidents (m.closeWhere p now).incidents := by
    intro p
    apply map_forall₂
    intro i _
    split
    · exact leave_tracks (by decide) now _ i
    · exact .refl i
  cases hdelete : delete.filter fun id => id != "" with
  | none =>
    cases rule <;> cases channels <;> simp only [AlertMonitor.applyConfiguration, hdelete] <;>
      first | exact hsame | exact hclosed _
  | some id =>
    cases rule <;> cases channels <;> simp only [AlertMonitor.applyConfiguration, hdelete] <;>
      first | exact hsame | exact hclosed _

theorem applyConfiguration_file (m : AlertMonitor Clock) (r : AlertConfiguration Clock) (now : String) :
    (m.applyConfiguration r now).file = m.file := by
  obtain ⟨rule, channels, delete⟩ := r
  cases hdelete : delete.filter fun id => id != "" <;> cases rule <;> cases channels <;>
    simp only [AlertMonitor.applyConfiguration, hdelete] <;> rfl

/-- A configuration call, also one that raises. -/
theorem LawfulMonitor.configure {m : AlertMonitor Clock} (h : LawfulMonitor m) (r : AlertConfiguration Clock)
    (now : String) (outcome : SaveOutcome) (cancelled : Bool) : Kept m (m.configure r now outcome cancelled).1 := by
  unfold AlertMonitor.configure
  split
  · exact (Sound.refl h).kept
  · have happlied := h.applyConfiguration r now
    have hfile : LawfulIncidents m.issued m.notes (m.applyConfiguration r now).incidents :=
      h.incidents.tracks (applyConfiguration_tracks m r now)
    cases outcome with
    | saved => exact happlied.trans (happlied.lawful.save .saved).kept
    | failed replaced =>
      -- the memory is as before, but the file may have the change
      have hback : Kept m { m with file := ((m.applyConfiguration r now).save (.failed replaced)).1.file } := by
        refine ⟨⟨h.incidents, fun d hd => ?_, h.issued⟩, ?_⟩
        · cases replaced with
          | true =>
            obtain rfl := Option.some.inj hd
            exact hfile
          | false => exact h.file d ((applyConfiguration_file m r now) ▸ hd)
        · exact ⟨List.Subset.refl _, (Evolves.refl m).active, (Evolves.refl m).settled⟩
      cases replaced <;> exact hback

theorem LawfulMonitor.delivered {m : AlertMonitor Clock} (h : LawfulMonitor m) (id now : String) (result : Json)
    (outcome : SaveOutcome) : Kept m (m.delivered id now result outcome) := by
  let record := fun i : AlertIncident => { i with lastNotification := some now, delivery := result }
  let new : List (Note Clock) := []
  have hnoted : List.Forall₂ (Noted new) m.incidents (updateFirst (fun i => i.id == id) record m.incidents) :=
    updateFirst_forall₂ (Noted.refl _) fun i _ _ => ⟨⟨rfl, rfl, rfl, fun _ ha => ha⟩, .inl⟩
  have hrecorded : Sound m { m with incidents := updateFirst (fun i => i.id == id) record m.incidents } :=
    h.update hnoted (List.append_nil _).symm rfl rfl rfl
  have hsaved := hrecorded.trans (hrecorded.lawful.save outcome)
  exact hsaved.kept.trans (hsaved.lawful.other rfl (List.append_nil _).symm rfl rfl)

/-- A new process starts from what was saved. -/
theorem LawfulMonitor.restart {m : AlertMonitor Clock} (h : LawfulMonitor m) : LawfulMonitor m.restart := by
  have hsub : m.notes ⊆ m.restart.notes := by
    unfold AlertMonitor.restart
    cases m.file <;> exact List.subset_append_left _ _
  have hissued : m.restart.issued = m.issued := by
    unfold AlertMonitor.restart
    cases m.file <;> rfl
  have hfile : m.restart.file = m.file := by
    unfold AlertMonitor.restart
    cases m.file <;> rfl
  have hstill : m.issued ⊆ m.restart.issued := hissued ▸ List.Subset.refl _
  refine ⟨?_, fun d hd => (h.file d (hfile ▸ hd)).mono hstill hsub, hissued ▸ h.issued⟩
  cases hd : m.file with
  | none =>
    have hnone : m.restart.incidents = [] := by simp [AlertMonitor.restart, AlertMonitor.note, hd]
    rw [hnone]
    exact .nil
  | some d =>
    let stale := fun i : AlertIncident => { i with fresh := false }
    have hsome : m.restart.incidents = (d.incidents.drop (d.incidents.length - 1000)).map stale := by
      simp [AlertMonitor.restart, AlertMonitor.note, hd, stale]
    rw [hsome]
    have hstale : ∀ i : AlertIncident, Tracks i (stale i) := fun i => ⟨rfl, rfl, rfl, fun _ ha => ha⟩
    have hkept := (h.file d hd).subperm (List.drop_sublist (d.incidents.length - 1000) d.incidents).subperm
    exact ((hkept.tracks (map_forall₂ fun i _ => hstale i)).mono hstill hsub)

end ModularPipelines.Dashboard
