import ModularPipelines.Dashboard.AlertSteps
import Mathlib.Data.List.Count

namespace ModularPipelines.Dashboard
open Library

variable {Clock : Type}

def AlertIncident.isActiveAs (id : String) (i : AlertIncident) : Bool := i.isActive && i.id == id

def Note.leaves (id : String) : Note Clock → Bool
  | .left other => other == id
  | _ => false

def AlertMonitor.actives (m : AlertMonitor Clock) (id : String) : Nat := m.incidents.countP (AlertIncident.isActiveAs id)

def AlertMonitor.leavings (m : AlertMonitor Clock) (id : String) : Nat := m.notes.countP (Note.leaves id)

/-- A step gives some of the IDs. An incident of a rule that has an ID is active or has left: no step
does one of these without the other. -/
def Balanced (ids : List String) (m m' : AlertMonitor Clock) : Prop :=
  ∃ fresh, fresh.Sublist ids ∧ m'.issued = m.issued ++ fresh ∧ ∀ id, isIcmpId id = false →
    m'.actives id + m'.leavings id = m.actives id + m.leavings id + fresh.count id

theorem Balanced.refl (ids : List String) (m : AlertMonitor Clock) : Balanced ids m m :=
  ⟨[], List.nil_sublist ids, (List.append_nil _).symm, fun _ _ => rfl⟩

theorem Balanced.trans {ids ids' : List String} {m m' m'' : AlertMonitor Clock} (h : Balanced ids m m')
    (g : Balanced ids' m' m'') : Balanced (ids ++ ids') m m'' := by
  obtain ⟨fresh, hsub, hissued, hcount⟩ := h
  obtain ⟨fresh', hsub', hissued', hcount'⟩ := g
  refine ⟨fresh ++ fresh', hsub.append hsub', by rw [hissued', hissued, List.append_assoc], fun id hid => ?_⟩
  have hh := hcount id hid
  have hg := hcount' id hid
  rw [List.count_append]
  omega

theorem Balanced.weaken {ids ids' : List String} {m m' : AlertMonitor Clock} (h : Balanced ids m m')
    (hsub : ids.Sublist ids') : Balanced ids' m m' := by
  obtain ⟨fresh, hfresh, hrest⟩ := h
  exact ⟨fresh, hfresh.trans hsub, hrest⟩

/-- A further step that gives no ID. -/
theorem Balanced.further {ids : List String} {m m' m'' : AlertMonitor Clock} (h : Balanced ids m m')
    (g : Balanced [] m' m'') : Balanced ids m m'' := List.append_nil ids ▸ h.trans g

/-- The notes and the incidents of one step. -/
theorem Balanced.of {ids fresh : List String} {m m' : AlertMonitor Clock} {new : List (Note Clock)}
    (hfresh : fresh.Sublist ids) (hnotes : m'.notes = m.notes ++ new) (hissued : m'.issued = m.issued ++ fresh)
    (h : ∀ id, isIcmpId id = false →
      m'.incidents.countP (AlertIncident.isActiveAs id) + new.countP (Note.leaves id)
        = m.incidents.countP (AlertIncident.isActiveAs id) + fresh.count id) : Balanced ids m m' := by
  refine ⟨fresh, hfresh, hissued, fun id hid => ?_⟩
  have hcount := h id hid
  simp only [AlertMonitor.actives, AlertMonitor.leavings, hnotes, List.countP_append]
  omega

/-- Notes of no end, and incidents that are active as before. -/
theorem Balanced.quiet {ids : List String} {m m' : AlertMonitor Clock} {new : List (Note Clock)}
    (hnotes : m'.notes = m.notes ++ new) (hissued : m'.issued = m.issued) (hnew : ∀ n ∈ new, ∀ id, n.leaves id = false)
    (h : ∀ id, isIcmpId id = false →
      m'.incidents.countP (AlertIncident.isActiveAs id) = m.incidents.countP (AlertIncident.isActiveAs id)) :
    Balanced ids m m' := by
  refine Balanced.of (List.nil_sublist ids) hnotes (hissued.trans (List.append_nil _).symm) fun id hid => ?_
  have hnone : new.countP (Note.leaves id) = 0 := List.countP_eq_zero.mpr fun n hn => by simp [hnew n hn id]
  rw [h id hid, hnone]
  rfl

theorem Balanced.same {ids : List String} {m m' : AlertMonitor Clock} (hincidents : m'.incidents = m.incidents)
    (hnotes : m'.notes = m.notes) (hissued : m'.issued = m.issued) : Balanced ids m m' := by
  refine Balanced.quiet (hnotes.trans (List.append_nil _).symm) hissued (fun n hn => ?_) fun id _ => ?_
  · cases hn
  · rw [hincidents]

section counts

variable {α : Type} {p q : α → Bool} {f : α → α}

theorem updateFirst_countP (h : ∀ a, p a = true → q (f a) = q a) (xs : List α) :
    (updateFirst p f xs).countP q = xs.countP q := by
  induction xs with
  | nil => rfl
  | cons a xs ih =>
    rw [updateFirst]
    split
    · rename_i hp
      rw [List.countP_cons, List.countP_cons, h a hp]
    · rw [List.countP_cons, List.countP_cons, ih]

/-- The first element that satisfies `p` no longer counts. -/
theorem updateFirst_countP_drop (h : ∀ a, p a = true → q (f a) = false) {xs : List α} {a : α}
    (hfind : xs.find? p = some a) : (updateFirst p f xs).countP q + (if q a then 1 else 0) = xs.countP q := by
  induction xs with
  | nil => cases hfind
  | cons b xs ih =>
    rw [updateFirst]
    cases hp : p b with
    | true =>
      rw [List.find?_cons_of_pos hp] at hfind
      obtain rfl := Option.some.inj hfind
      rw [if_pos rfl, List.countP_cons, List.countP_cons, h _ hp]
      simp
    | false =>
      rw [List.find?_cons_of_neg (Bool.not_eq_true _ ▸ hp)] at hfind
      have hrest := ih hfind
      rw [if_neg Bool.false_ne_true, List.countP_cons, List.countP_cons]
      omega

/-- The elements that a map stops counting. -/
theorem map_countP_drop {c : α → Bool} (h : ∀ a, c a = true → q (f a) = false) (xs : List α) :
    (xs.map fun a => if c a then f a else a).countP q + (xs.filter c).countP q = xs.countP q := by
  induction xs with
  | nil => rfl
  | cons a xs ih =>
    cases hc : c a with
    | true =>
      rw [List.map_cons, if_pos hc, List.filter_cons_of_pos hc, List.countP_cons, List.countP_cons, List.countP_cons,
        h a hc, ← ih, if_neg Bool.false_ne_true]
      omega
    | false =>
      have hneg : ¬ c a = true := by simp [hc]
      simp only [List.map_cons, if_neg hneg, List.filter_cons_of_neg hneg, List.countP_cons]
      omega

end counts

theorem leaves_map (id : String) (incidents : List AlertIncident) :
    (incidents.map fun i => (Note.left i.id : Note Clock)).countP (Note.leaves id)
      = incidents.countP fun i => i.id == id := List.countP_map

theorem leave_isActiveAs {status : IncidentStatus} (hstatus : status ≠ .active) (id now resolution : String)
    (i : AlertIncident) : (i.leave status now resolution).isActiveAs id = false := by
  have hactive : (i.leave status now resolution).isActive = false := beq_eq_false_iff_ne.mpr hstatus
  rw [AlertIncident.isActiveAs, hactive, Bool.false_and]

theorem closeWhere_balanced (m : AlertMonitor Clock) (p : AlertIncident → Bool) (now : String) :
    Balanced [] m (m.closeWhere p now) := by
  refine Balanced.of (List.nil_sublist _) rfl (List.append_nil _).symm fun id _ => ?_
  let closes := fun i : AlertIncident => i.isActive && p i
  have hcloses : ∀ i : AlertIncident, closes i = true →
      (i.leave .closed now "configuration_changed").isActiveAs id = false :=
    fun i _ => leave_isActiveAs (by decide) id now _ i
  have hsame : (m.incidents.filter closes).countP (AlertIncident.isActiveAs id)
      = (m.incidents.filter closes).countP fun i => i.id == id := by
    apply List.countP_congr
    intro i hi
    have hactive := (Bool.and_eq_true_iff.mp (List.mem_filter.mp hi).2).1
    rw [AlertIncident.isActiveAs, hactive, Bool.true_and]
  rw [leaves_map, ← hsame]
  exact map_countP_drop hcloses m.incidents

theorem applyRuleObservation_balanced (lasted : Clock → Clock → Clock → Bool) (m : AlertMonitor Clock)
    (rule : AlertRule Clock) (o : Observation Clock) (newId now : String) :
    Balanced [newId] m (m.applyRuleObservation lasted rule o newId now).1 := by
  unfold AlertMonitor.applyRuleObservation
  dsimp only
  split
  · rename_i value _ _ _
    have hbreaching : ∀ n ∈ [Note.breaching rule.id o.first], ∀ id, n.leaves id = false := by
      intro n hn id
      obtain rfl := List.mem_singleton.mp hn
      rfl
    split
    · split
      · refine Balanced.of (List.Sublist.refl _) (List.append_assoc ..) rfl fun id _ => ?_
        show (m.incidents ++ [AlertMonitor.newIncident rule newId now _]).countP _ + 0 = _
        rw [List.countP_append]
        rfl
      · let update := fun i : AlertIncident => { i with value := value, fresh := true }
        refine Balanced.quiet rfl rfl hbreaching fun id _ => ?_
        have hupdate : ∀ i : AlertIncident, i.alerts rule.id = true → (update i).isActiveAs id = i.isActiveAs id :=
          fun i _ => rfl
        exact updateFirst_countP hupdate m.incidents
    · exact Balanced.quiet rfl rfl hbreaching fun id _ => rfl
  · split
    · refine Balanced.quiet rfl rfl (fun n hn id => ?_) fun id _ => rfl
      obtain rfl := List.mem_singleton.mp hn
      rfl
    · rename_i incident hfind
      refine Balanced.of (List.nil_sublist _) (List.append_assoc ..) (List.append_nil _).symm fun id _ => ?_
      let clear := fun i : AlertIncident => { i.leave .resolved now "condition_cleared" with fresh := true }
      have hclear : ∀ i : AlertIncident, i.alerts rule.id = true → (clear i).isActiveAs id = false := fun i _ => rfl
      have hactive := (alerts_iff.mp (List.find?_some hfind)).1
      have hleft : ([.cleared rule.id, .left incident.id] : List (Note Clock)).countP (Note.leaves id)
          = if incident.isActiveAs id then 1 else 0 := by
        rw [AlertIncident.isActiveAs, hactive, Bool.true_and]
        simp [List.countP_cons, Note.leaves]
      exact hleft ▸ updateFirst_countP_drop hclear hfind
  · let update := fun i : AlertIncident => { i with fresh := false }
    refine Balanced.quiet rfl rfl (fun n hn id => ?_) fun id _ => ?_
    · obtain rfl := List.mem_singleton.mp hn
      rfl
    · have hupdate : ∀ i : AlertIncident, i.alerts rule.id = true → (update i).isActiveAs id = i.isActiveAs id :=
        fun i _ => rfl
      exact updateFirst_countP hupdate m.incidents

theorem observeRules_balanced (lasted : Clock → Clock → Clock → Bool) (e : Evaluation Clock) (m : AlertMonitor Clock)
    (changed : Bool) (rules : List (AlertRule Clock)) :
    Balanced (rules.map e.newId) m (AlertMonitor.observeRules lasted e m changed rules).1 := by
  induction rules generalizing m changed with
  | nil => exact .refl _ m
  | cons rule rest ih =>
    rw [AlertMonitor.observeRules, List.foldl_cons]
    split
    · exact (ih m changed).weaken (List.sublist_cons_self ..)
    · exact (applyRuleObservation_balanced lasted m rule _ _ _).trans (ih _ _)

/-- The IDs of the ICMP monitor are no IDs of rules. -/
theorem mergeIcmpIncident_balanced (m : AlertMonitor Clock) (o : IcmpIncident) : Balanced [] m (m.mergeIcmpIncident o).1 := by
  have hother : ∀ id, isIcmpId id = false → ∀ i : AlertIncident, (i.id == AlertMonitor.icmpId o) = true →
      i.isActiveAs id = false := by
    intro id hid i hi
    have hne : AlertMonitor.icmpId o ≠ id :=
      fun heq => Bool.false_ne_true (hid.symm.trans (heq ▸ isIcmpId_icmpId o))
    rw [AlertIncident.isActiveAs, beq_iff_eq.mp hi, beq_eq_false_iff_ne.mpr hne, Bool.and_false]
  have hupdate : ∀ id, isIcmpId id = false →
      (updateFirst (fun i => i.id == AlertMonitor.icmpId o) (AlertMonitor.icmpUpdate o) m.incidents).countP
        (AlertIncident.isActiveAs id) = m.incidents.countP (AlertIncident.isActiveAs id) := by
    intro id hid
    apply updateFirst_countP
    intro i hi
    rw [hother id hid i hi]
    exact hother id hid _ hi
  unfold AlertMonitor.mergeIcmpIncident
  dsimp only
  split
  · refine Balanced.quiet (List.append_nil _).symm rfl (fun n hn => ?_) fun id hid => ?_
    · cases hn
    · have hnew : (AlertMonitor.icmpIncident o).isActiveAs id = false := hother id hid _ (beq_iff_eq.mpr rfl)
      rw [List.countP_append, List.countP_cons, hnew]
      rfl
  · rename_i incident hfind
    split
    · refine Balanced.of (List.nil_sublist _) rfl (List.append_nil _).symm fun id hid => ?_
      have hne : incident.id ≠ id := by
        have hincident : incident.id = AlertMonitor.icmpId o := by
          simpa using List.find?_some hfind
        exact fun heq => Bool.false_ne_true (hid.symm.trans (heq ▸ hincident ▸ isIcmpId_icmpId o))
      have hnone : ([.left incident.id] : List (Note Clock)).countP (Note.leaves id) = 0 := by
        simp [Note.leaves, hne]
      rw [hnone]
      exact hupdate id hid
    · refine Balanced.quiet (List.append_nil _).symm rfl (fun n hn => ?_) hupdate
      cases hn

theorem mergeIcmpIncidents_balanced (m : AlertMonitor Clock) (observed : List IcmpIncident) :
    Balanced [] m (m.mergeIcmpIncidents observed).1 := by
  suffices hall : ∀ (m : AlertMonitor Clock) (changed : Bool), Balanced [] m (observed.foldl (fun r o =>
      ((r.1.mergeIcmpIncident o).1, r.2 || (r.1.mergeIcmpIncident o).2)) (m, changed)).1 from hall m false
  induction observed with
  | nil => exact fun m changed => .refl _ m
  | cons o rest ih => exact fun m changed => (mergeIcmpIncident_balanced m o).trans (ih _ _)

theorem retain_isActiveAs (incidents : List AlertIncident) (id : String) :
    (AlertMonitor.retain incidents).countP (AlertIncident.isActiveAs id)
      = incidents.countP (AlertIncident.isActiveAs id) :=
  retain_countP incidents fun _ hi => (Bool.and_eq_true_iff.mp hi).1

theorem save_balanced (m : AlertMonitor Clock) (outcome : SaveOutcome) : Balanced [] m (m.save outcome).1 := by
  cases outcome with
  | saved => exact .same rfl rfl rfl
  | failed replaced => cases replaced <;> exact .same rfl rfl rfl

theorem saveDirty_balanced (m : AlertMonitor Clock) (outcome : SaveOutcome) : Balanced [] m (m.saveDirty outcome) := by
  unfold AlertMonitor.saveDirty
  split
  · exact (save_balanced m outcome).trans (.same rfl rfl rfl)
  · exact .refl _ m

theorem conclude_balanced (e : Evaluation Clock) (m : AlertMonitor Clock) (changed : Bool) :
    Balanced [] m (AlertMonitor.conclude e m changed) := by
  apply (mergeIcmpIncidents_balanced m e.icmp).trans
  refine Balanced.further ?_ (saveDirty_balanced _ e.save)
  refine Balanced.quiet (List.append_nil _).symm rfl (fun n hn => ?_) fun id _ => retain_isActiveAs _ id
  cases hn

theorem evaluate_balanced (lasted : Clock → Clock → Clock → Bool) (m : AlertMonitor Clock) (e : Evaluation Clock) :
    Balanced (m.rules.map e.newId) m (m.evaluate lasted e) := by
  have hclosed : Balanced [] m (m.closeRemovedRules e.now).1 := closeWhere_balanced m _ e.now
  unfold AlertMonitor.evaluate
  dsimp only
  split
  · exact hclosed.trans ((observeRules_balanced lasted e _ _ _).weaken ((List.take_sublist _ m.rules).map e.newId))
  · exact (hclosed.trans (observeRules_balanced lasted e _ _ m.rules)).further (conclude_balanced e _ _)

theorem changed_balanced {m m' : AlertMonitor Clock} {id : String} (hincidents : m'.incidents = m.incidents)
    (hnotes : m'.notes = m.notes ++ [.changed id]) (hissued : m'.issued = m.issued) : Balanced [] m m' := by
  refine Balanced.quiet hnotes hissued (fun n hn other => ?_) fun other _ => ?_
  · obtain rfl := List.mem_singleton.mp hn
    rfl
  · rw [hincidents]

theorem elim_balanced {α : Type} {m : AlertMonitor Clock} (o : Option α) {f : α → AlertMonitor Clock}
    (hf : ∀ a, Balanced [] m (f a)) : Balanced [] m (o.elim m f) := by
  cases o with
  | none => exact .refl _ m
  | some a => exact hf a

theorem applyConfiguration_balanced (m : AlertMonitor Clock) (r : AlertConfiguration Clock) (now : String) :
    Balanced [] m (m.applyConfiguration r now) := by
  have hrule : ∀ m : AlertMonitor Clock, Balanced [] m (r.rule.elim m m.replaceRule) :=
    fun m => elim_balanced r.rule fun value => changed_balanced rfl rfl rfl
  have hdelete : ∀ m : AlertMonitor Clock, Balanced [] m ((r.delete.filter fun id => id != "").elim m m.removeRule) :=
    fun m => elim_balanced _ fun id => changed_balanced rfl rfl rfl
  have hchannels : ∀ m : AlertMonitor Clock, Balanced [] m (r.channels.elim m m.setChannels) :=
    fun m => elim_balanced r.channels fun channels => .same rfl rfl rfl
  have hall := ((hrule m).trans (hdelete _)).trans (hchannels _)
  unfold AlertMonitor.applyConfiguration
  dsimp only
  split
  · exact hall
  · exact hall.trans (closeWhere_balanced _ _ now)

theorem configure_balanced (m : AlertMonitor Clock) (r : AlertConfiguration Clock) (now : String) (outcome : SaveOutcome)
    (cancelled : Bool) : Balanced [] m (m.configure r now outcome cancelled).1 := by
  unfold AlertMonitor.configure
  split
  · exact .refl _ m
  · cases outcome with
    | saved => exact (applyConfiguration_balanced m r now).trans (save_balanced _ .saved)
    | failed replaced => cases replaced <;> exact .same rfl rfl rfl

theorem delivered_balanced (m : AlertMonitor Clock) (id now : String) (result : Json) (outcome : SaveOutcome) :
    Balanced [] m (m.delivered id now result outcome) := by
  let record := fun i : AlertIncident => { i with lastNotification := some now, delivery := result }
  have hrecorded : Balanced [] m { m with incidents := updateFirst (fun i => i.id == id) record m.incidents } := by
    refine Balanced.quiet (List.append_nil _).symm rfl (fun n hn => ?_) fun other _ => ?_
    · cases hn
    · have hrecord : ∀ i : AlertIncident, (i.id == id) = true → (record i).isActiveAs other = i.isActiveAs other :=
        fun i _ => rfl
      exact updateFirst_countP hrecord m.incidents
  exact (hrecorded.trans (save_balanced _ outcome)).trans (.same rfl rfl rfl)

end ModularPipelines.Dashboard
