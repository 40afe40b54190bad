import ModularPipelines.Dashboard.AlertLedger
import ModularPipelines.Dashboard.AlertRetention
import ModularPipelines.Dashboard.AlertStreaks
import Mathlib.Logic.Relation

namespace ModularPipelines.Dashboard
open Library

variable {Clock : Type}

/-- A step of one process. -/
inductive AlertStep (lasted : Clock → Clock → Clock → Bool) : AlertMonitor Clock → AlertMonitor Clock → Prop where
  | evaluate {m : AlertMonitor Clock} (e : Evaluation Clock) (hfresh : FreshIds m e) :
    AlertStep lasted m (m.evaluate lasted e)
  | configure {m : AlertMonitor Clock} (r : AlertConfiguration Clock) (now : String) (outcome : SaveOutcome)
    (cancelled : Bool) : AlertStep lasted m (m.configure r now outcome cancelled).1
  | delivered {m : AlertMonitor Clock} (id now : String) (result : Json) (outcome : SaveOutcome) :
    AlertStep lasted m (m.delivered id now result outcome)

def AlertSession (lasted : Clock → Clock → Clock → Bool) : AlertMonitor Clock → AlertMonitor Clock → Prop :=
  Relation.ReflTransGen (AlertStep lasted)

/-- The states of the monitor over any number of processes. -/
inductive AlertRun (lasted : Clock → Clock → Clock → Bool) : AlertMonitor Clock → Prop where
  | new : AlertRun lasted .new
  | step {m m' : AlertMonitor Clock} (h : AlertRun lasted m) (hs : AlertStep lasted m m') : AlertRun lasted m'
  | restart {m : AlertMonitor Clock} (h : AlertRun lasted m) : AlertRun lasted m.restart

structure AlertInvariant (lasted : Clock → Clock → Clock → Bool) (m : AlertMonitor Clock) : Prop where
  lawful : LawfulMonitor m
  streaks : Streaks lasted m
  once : m.issued.Nodup

/-- What a step of a process keeps, and what it does to the incidents. -/
structure AlertProgress (lasted : Clock → Clock → Clock → Bool) (m m' : AlertMonitor Clock) : Prop where
  invariant : AlertInvariant lasted m'
  evolves : Evolves m m'
  balanced : ∃ ids, Balanced ids m m'

theorem Balanced.once {m m' : AlertMonitor Clock} {ids : List String} (h : Balanced ids m m') (hm : m.issued.Nodup)
    (hids : ids.Nodup) (hnew : ∀ id ∈ ids, id ∉ m.issued) : m'.issued.Nodup := by
  obtain ⟨fresh, hsub, hissued, -⟩ := h
  rw [hissued]
  apply List.Nodup.append hm (hsub.nodup hids)
  exact fun id hold hid => hnew id (hsub.subset hid) hold

section steps

variable {lasted : Clock → Clock → Clock → Bool} {m m' : AlertMonitor Clock}

theorem AlertInvariant.step (h : AlertInvariant lasted m) (hs : AlertStep lasted m m') : AlertProgress lasted m m' := by
  cases hs with
  | evaluate e hfresh =>
    have hsound := (h.lawful.evaluate lasted e hfresh).1
    have hbalanced := evaluate_balanced lasted m e
    refine ⟨⟨hsound.lawful, h.streaks.evaluate e, hbalanced.once h.once hfresh.distinct fun id hid => ?_⟩,
      hsound.evolves, _, hbalanced⟩
    obtain ⟨rule, hrule, rfl⟩ := List.mem_map.mp hid
    exact (hfresh.unissued rule hrule).1
  | configure r now outcome cancelled =>
    have hkept := h.lawful.configure r now outcome cancelled
    have hbalanced := configure_balanced m r now outcome cancelled
    exact ⟨⟨hkept.lawful, h.streaks.configure r now outcome cancelled,
      hbalanced.once h.once List.nodup_nil fun id hid => by cases hid⟩, hkept.evolves, _, hbalanced⟩
  | delivered id now result outcome =>
    have hkept := h.lawful.delivered id now result outcome
    have hbalanced := delivered_balanced m id now result outcome
    exact ⟨⟨hkept.lawful, h.streaks.delivered id now result outcome,
      hbalanced.once h.once List.nodup_nil fun id hid => by cases hid⟩, hkept.evolves, _, hbalanced⟩

theorem AlertInvariant.new : AlertInvariant lasted (AlertMonitor.new : AlertMonitor Clock) := by
  refine ⟨⟨.nil, fun d hd => ?_, fun id hid => ?_⟩, .new, List.nodup_nil⟩
  · cases hd
  · cases hid

theorem restart_issued (m : AlertMonitor Clock) : m.restart.issued = m.issued := by
  unfold AlertMonitor.restart
  cases m.file <;> rfl

theorem AlertRun.invariant (h : AlertRun lasted m) : AlertInvariant lasted m := by
  induction h with
  | new => exact .new
  | step _ hs ih => exact (ih.step hs).invariant
  | restart _ ih => exact ⟨ih.lawful.restart, ih.streaks.restart, (restart_issued _).symm ▸ ih.once⟩

theorem AlertInvariant.session (h : AlertInvariant lasted m) (hs : AlertSession lasted m m') :
    AlertProgress lasted m m' := by
  induction hs with
  | refl => exact ⟨h, .refl m, [], .refl [] m⟩
  | tail _ hstep ih =>
    have hnext := ih.invariant.step hstep
    obtain ⟨ids, hbefore⟩ := ih.balanced
    obtain ⟨ids', hafter⟩ := hnext.balanced
    exact ⟨hnext.invariant, ih.evolves.trans hnext.evolves, ids ++ ids', hbefore.trans hafter⟩

theorem AlertInvariant.countP_le_one (h : AlertInvariant lasted m) (p : AlertIncident → Bool)
    (hsame : ∀ i ∈ m.incidents, ∀ j ∈ m.incidents, p i = true → p j = true → i = j) : m.incidents.countP p ≤ 1 := by
  have hnodup : (m.incidents.filter p).Nodup := (List.Nodup.of_map _ h.lawful.incidents.ids).filter p
  rw [List.countP_eq_length_filter]
  by_contra hmany
  have hzero : 0 < (m.incidents.filter p).length := by omega
  have hone : 1 < (m.incidents.filter p).length := by omega
  have hmem : ∀ k (hk : k < (m.incidents.filter p).length),
      (m.incidents.filter p)[k] ∈ m.incidents ∧ p (m.incidents.filter p)[k] = true :=
    fun k hk => List.mem_filter.mp (List.getElem_mem hk)
  have heq := hsame _ (hmem 0 hzero).1 _ (hmem 1 hone).1 (hmem 0 hzero).2 (hmem 1 hone).2
  exact absurd ((hnodup.getElem_inj_iff).mp heq) (by decide)

/-- No rule has two active incidents. -/
theorem AlertInvariant.single (h : AlertInvariant lasted m) (ruleId : String) :
    m.incidents.countP (AlertIncident.alerts ruleId) ≤ 1 := by
  apply h.countP_le_one
  intro i hi j hj hia hja
  obtain ⟨ha, hrule⟩ := alerts_iff.mp hia
  obtain ⟨hb, hother⟩ := alerts_iff.mp hja
  apply h.lawful.incidents.single i hi j hj ha hb
  · rw [hrule]
    exact Option.some_ne_none _
  · rw [hrule, hother]

end steps

def elapsed (started now duration : Nat) : Bool := !decide (now - started < duration)

def errorsRule : AlertRule Nat := ⟨"errors", "Errors", true, .errors, 60, .null⟩

def AlertMonitor.withRule : AlertMonitor Nat := (AlertMonitor.new.configure ⟨some errorsRule, none, none⟩ "0" .saved false).1

/-- A round in which the rule is observed. -/
def observedRound (breach : Bool) (time : Nat) (id : String) (save : SaveOutcome) : Evaluation Nat where
  now := toString time
  computed := false
  observe := fun _ => ⟨some .null, true, breach, time, time⟩
  newId := fun _ => id
  failsAfter := none
  icmp := []
  save := save

def AlertMonitor.breaching : AlertMonitor Nat := AlertMonitor.withRule.evaluate elapsed (observedRound true 0 "a" .saved)

def AlertMonitor.opened : AlertMonitor Nat := AlertMonitor.breaching.evaluate elapsed (observedRound true 60 "a" .saved)

end ModularPipelines.Dashboard
