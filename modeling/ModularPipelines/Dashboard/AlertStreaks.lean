import ModularPipelines.Dashboard.Alerts

namespace ModularPipelines.Dashboard
open Library

variable {Clock : Type}

/-- What ends a breach of a rule. -/
def Note.Interrupts (ruleId : String) : Note Clock → Prop
  | .unknown id | .cleared id | .changed id => id = ruleId
  | .restarted => True
  | _ => False

/-- A rule was observed breaching at a time, and nothing has ended that since. -/
def BreachedSince (notes : List (Note Clock)) (ruleId : String) (time : Clock) : Prop :=
  ∃ before since, notes = before ++ .breaching ruleId time :: since ∧ ∀ n ∈ since, ¬ n.Interrupts ruleId

/-- Each incident was opened after a breach of at least the duration of its rule. -/
def OpenedLawfully (lasted : Clock → Clock → Clock → Bool) (notes : List (Note Clock)) : Prop :=
  ∀ before after ruleId id duration now, notes = before ++ .opened ruleId id duration now :: after →
    ∃ time, BreachedSince before ruleId time ∧ lasted time now duration = true

/-- Every streak is a breach that has not ended. -/
structure Streaks (lasted : Clock → Clock → Clock → Bool) (m : AlertMonitor Clock) : Prop where
  breached : ∀ ruleId time, m.streaks.get? ruleId = some time → BreachedSince m.notes ruleId time
  opened : OpenedLawfully lasted m.notes

theorem BreachedSince.append {notes : List (Note Clock)} {ruleId : String} {time : Clock}
    (h : BreachedSince notes ruleId time) {new : List (Note Clock)} (hnew : ∀ n ∈ new, ¬ n.Interrupts ruleId) :
    BreachedSince (notes ++ new) ruleId time := by
  obtain ⟨before, since, rfl, hsince⟩ := h
  refine ⟨before, since ++ new, by simp, fun n hn => ?_⟩
  rcases List.mem_append.mp hn with hn | hn
  · exact hsince n hn
  · exact hnew n hn

theorem OpenedLawfully.concat {lasted : Clock → Clock → Clock → Bool} {notes : List (Note Clock)}
    (h : OpenedLawfully lasted notes) {n : Note Clock}
    (hn : ∀ ruleId id duration now, n = .opened ruleId id duration now →
      ∃ time, BreachedSince notes ruleId time ∧ lasted time now duration = true) :
    OpenedLawfully lasted (notes ++ [n]) := by
  intro before after ruleId id duration now heq
  rcases List.eq_nil_or_concat after with rfl | ⟨rest, last, rfl⟩
  · obtain ⟨rfl, hlast⟩ := List.append_inj' heq rfl
    exact hn ruleId id duration now (List.singleton_inj.mp hlast)
  · rw [List.concat_eq_append, ← List.cons_append, ← List.append_assoc] at heq
    obtain ⟨rfl, -⟩ := List.append_inj' heq rfl
    exact h before rest ruleId id duration now rfl

/-- Notes of no opening. -/
theorem OpenedLawfully.append {lasted : Clock → Clock → Clock → Bool} {notes new : List (Note Clock)}
    (h : OpenedLawfully lasted notes) (hnew : ∀ n ∈ new, ∀ ruleId id duration now, n ≠ .opened ruleId id duration now) :
    OpenedLawfully lasted (notes ++ new) := by
  induction new generalizing notes with
  | nil => rwa [List.append_nil]
  | cons n rest ih =>
    rw [List.append_cons]
    apply ih
    · exact h.concat fun ruleId id duration now heq => (hnew n (List.mem_cons_self ..) _ _ _ _ heq).elim
    · exact fun k hk => hnew k (List.mem_cons_of_mem _ hk)

namespace Streaks

variable {lasted : Clock → Clock → Clock → Bool} {m m' : AlertMonitor Clock}

/-- Notes that neither end a breach nor open an incident. -/
theorem quiet (h : Streaks lasted m) (hstreaks : m'.streaks = m.streaks) {new : List (Note Clock)}
    (hnotes : m'.notes = m.notes ++ new) (hleft : ∀ n ∈ new, ∃ id, n = .left id) : Streaks lasted m' := by
  refine ⟨fun ruleId time ht => ?_, ?_⟩
  · rw [hnotes]
    apply (h.breached ruleId time (hstreaks ▸ ht)).append
    intro n hn
    obtain ⟨id, rfl⟩ := hleft n hn
    exact not_false
  · rw [hnotes]
    apply h.opened.append
    intro n hn ruleId id duration now heq
    obtain ⟨id', rfl⟩ := hleft n hn
    cases heq

/-- A note that ends the breach of one rule, whose streak is dropped. -/
theorem pop (h : Streaks lasted m) {ruleId : String} {n : Note Clock}
    (hn : n = .unknown ruleId ∨ n = .cleared ruleId ∨ n = .changed ruleId) (hstreaks : m'.streaks = m.streaks.pop ruleId)
    (hnotes : m'.notes = m.notes ++ [n]) : Streaks lasted m' := by
  refine ⟨fun other time ht => ?_, ?_⟩
  · rw [hstreaks, Dict.get?_pop] at ht
    split at ht
    · cases ht
    · rename_i hne
      rw [hnotes]
      apply (h.breached other time ht).append
      intro k hk
      obtain rfl := List.mem_singleton.mp hk
      rcases hn with rfl | rfl | rfl
      · exact fun heq => hne heq.symm
      · exact fun heq => hne heq.symm
      · exact fun heq => hne heq.symm
  · rw [hnotes]
    apply h.opened.append
    intro k hk _ _ _ _ heq
    obtain rfl := List.mem_singleton.mp hk
    subst heq
    rcases hn with hn | hn | hn <;> cases hn

/-- A breach starts a streak, or goes on with the one there is. -/
theorem breaching (h : Streaks lasted m) {ruleId : String} {time : Clock}
    (hstreaks : m'.streaks = m.streaks.set ruleId ((m.streaks.get? ruleId).getD time))
    (hnotes : m'.notes = m.notes ++ [.breaching ruleId time]) : Streaks lasted m' := by
  have hquiet : ∀ other, ∀ n ∈ [Note.breaching ruleId time], ¬ n.Interrupts other := by
    intro other n hn
    obtain rfl := List.mem_singleton.mp hn
    exact not_false
  refine ⟨fun other started ht => ?_, ?_⟩
  · rw [hnotes]
    rw [hstreaks, Dict.get?_set] at ht
    split at ht
    · rename_i heq
      subst heq
      cases hold : m.streaks.get? other with
      | none =>
        rw [hold] at ht
        obtain rfl := Option.some.inj ht
        exact ⟨m.notes, [], rfl, fun n hn => by cases hn⟩
      | some earlier =>
        rw [hold] at ht
        obtain rfl := Option.some.inj ht
        exact (h.breached other earlier hold).append (hquiet other)
    · exact (h.breached other started ht).append (hquiet other)
  · rw [hnotes]
    apply h.opened.append
    intro n hn _ _ _ _ heq
    obtain rfl := List.mem_singleton.mp hn
    cases heq

/-- An incident is opened while its streak has lasted. -/
theorem opening (h : Streaks lasted m) {ruleId id : String} {started duration now : Clock}
    (hstarted : m.streaks.get? ruleId = some started) (hlasted : lasted started now duration = true)
    (hstreaks : m'.streaks = m.streaks) (hnotes : m'.notes = m.notes ++ [.opened ruleId id duration now]) :
    Streaks lasted m' := by
  refine ⟨fun other time ht => ?_, ?_⟩
  · rw [hnotes]
    apply (h.breached other time (hstreaks ▸ ht)).append
    intro n hn
    obtain rfl := List.mem_singleton.mp hn
    exact not_false
  · rw [hnotes]
    apply h.opened.concat
    intro ruleId' id' duration' now' heq
    cases heq
    exact ⟨started, h.breached ruleId started hstarted, hlasted⟩

theorem same (h : Streaks lasted m) (hstreaks : m'.streaks = m.streaks) (hnotes : m'.notes = m.notes) :
    Streaks lasted m' := by
  refine h.quiet hstreaks (hnotes.trans (List.append_nil _).symm) fun n hn => ?_
  cases hn

theorem closeWhere (h : Streaks lasted m) (p : AlertIncident → Bool) (now : String) :
    Streaks lasted (m.closeWhere p now) := by
  refine h.quiet rfl rfl fun n hn => ?_
  obtain ⟨i, -, rfl⟩ := List.mem_map.mp hn
  exact ⟨i.id, rfl⟩

theorem applyRuleObservation (h : Streaks lasted m) (rule : AlertRule Clock) (o : Observation Clock)
    (newId now : String) : Streaks lasted (m.applyRuleObservation lasted rule o newId now).1 := by
  unfold AlertMonitor.applyRuleObservation
  dsimp only
  split
  · let started := (m.streaks.get? rule.id).getD o.first
    let breached : AlertMonitor Clock :=
      { m with streaks := m.streaks.set rule.id started }.note [.breaching rule.id o.first]
    have hbreached : Streaks lasted breached := h.breaching rfl rfl
    split
    · rename_i hlasted
      split
      · have hstarted : breached.streaks.get? rule.id = some started := by
          show (m.streaks.set rule.id started).get? rule.id = some started
          rw [Dict.get?_set, if_pos rfl]
        exact hbreached.opening hstarted hlasted rfl rfl
      · exact hbreached.same rfl rfl
    · exact hbreached
  · let cleared : AlertMonitor Clock :=
      { m with streaks := m.streaks.pop rule.id }.note [.cleared rule.id]
    have hcleared : Streaks lasted cleared := h.pop (.inr (.inl rfl)) rfl rfl
    split
    · exact hcleared
    · rename_i incident _
      exact hcleared.quiet rfl rfl fun n hn => ⟨incident.id, List.mem_singleton.mp hn⟩
  · exact h.pop (.inl rfl) rfl rfl

theorem observeRules (h : Streaks lasted m) (e : Evaluation Clock) (changed : Bool) (rules : List (AlertRule Clock)) :
    Streaks lasted (AlertMonitor.observeRules lasted e m changed rules).1 := by
  induction rules generalizing m changed with
  | nil => exact h
  | cons rule rest ih =>
    rw [AlertMonitor.observeRules, List.foldl_cons]
    split
    · exact ih h changed
    · exact ih (h.applyRuleObservation rule _ _ _) _

theorem mergeIcmpIncident (h : Streaks lasted m) (o : IcmpIncident) : Streaks lasted (m.mergeIcmpIncident o).1 := by
  unfold AlertMonitor.mergeIcmpIncident
  dsimp only
  split
  · exact h.same rfl rfl
  · rename_i incident _
    split
    · exact h.quiet rfl rfl fun n hn => ⟨incident.id, List.mem_singleton.mp hn⟩
    · exact h.same rfl rfl

theorem mergeIcmpIncidents (h : Streaks lasted m) (observed : List IcmpIncident) :
    Streaks lasted (m.mergeIcmpIncidents observed).1 := by
  suffices hall : ∀ (m : AlertMonitor Clock) (changed : Bool), Streaks lasted m →
      Streaks lasted (observed.foldl (fun r o =>
        ((r.1.mergeIcmpIncident o).1, r.2 || (r.1.mergeIcmpIncident o).2)) (m, changed)).1 from hall m false h
  induction observed with
  | nil => exact fun m changed h => h
  | cons o rest ih => exact fun m changed h => ih _ _ (h.mergeIcmpIncident o)

theorem save (h : Streaks lasted m) (outcome : SaveOutcome) : Streaks lasted (m.save outcome).1 := by
  cases outcome with
  | saved => exact h.same rfl rfl
  | failed replaced =>
    cases replaced with
    | true => exact h.same rfl rfl
    | false => exact h

theorem saveDirty (h : Streaks lasted m) (outcome : SaveOutcome) : Streaks lasted (m.saveDirty outcome) := by
  unfold AlertMonitor.saveDirty
  split
  · exact (h.save outcome).same rfl rfl
  · exact h

theorem conclude (h : Streaks lasted m) (e : Evaluation Clock) (changed : Bool) :
    Streaks lasted (AlertMonitor.conclude e m changed) := by
  have hmerged := h.mergeIcmpIncidents e.icmp
  have hretained : Streaks lasted
      ((m.mergeIcmpIncidents e.icmp).1.retainIncidents ((m.mergeIcmpIncidents e.icmp).2 || changed)) :=
    hmerged.same rfl rfl
  exact hretained.saveDirty e.save

theorem evaluate (h : Streaks lasted m) (e : Evaluation Clock) : Streaks lasted (m.evaluate lasted e) := by
  have hclosed : Streaks lasted (m.closeRemovedRules e.now).1 := h.closeWhere _ e.now
  unfold AlertMonitor.evaluate
  dsimp only
  split
  · exact hclosed.observeRules e _ _
  · exact (hclosed.observeRules e _ _).conclude e _

theorem replaceRule (h : Streaks lasted m) (value : AlertRule Clock) : Streaks lasted (m.replaceRule value) :=
  h.pop (.inr (.inr rfl)) rfl rfl

theorem removeRule (h : Streaks lasted m) (id : String) : Streaks lasted (m.removeRule id) :=
  h.pop (.inr (.inr rfl)) rfl rfl

theorem setChannels (h : Streaks lasted m) (channels : NotificationChannels) : Streaks lasted (m.setChannels channels) :=
  h.same rfl rfl

theorem elim {α : Type} (h : Streaks lasted m) (o : Option α) {f : α → AlertMonitor Clock}
    (hf : ∀ a, Streaks lasted (f a)) : Streaks lasted (o.elim m f) := by
  cases o with
  | none => exact h
  | some a => exact hf a

theorem applyConfiguration (h : Streaks lasted m) (r : AlertConfiguration Clock) (now : String) :
    Streaks lasted (m.applyConfiguration r now) := by
  have hrule := h.elim r.rule h.replaceRule
  have hdelete := hrule.elim (r.delete.filter fun id => id != "") hrule.removeRule
  have hchannels := hdelete.elim r.channels hdelete.setChannels
  unfold AlertMonitor.applyConfiguration
  dsimp only
  split
  · exact hchannels
  · exact hchannels.closeWhere _ now

theorem configure (h : Streaks lasted m) (r : AlertConfiguration Clock) (now : String) (outcome : SaveOutcome)
    (cancelled : Bool) : Streaks lasted (m.configure r now outcome cancelled).1 := by
  unfold AlertMonitor.configure
  split
  · exact h
  · cases outcome with
    | saved => exact (h.applyConfiguration r now).save .saved
    | failed replaced => cases replaced <;> exact h.same rfl rfl

theorem delivered (h : Streaks lasted m) (id now : String) (result : Json) (outcome : SaveOutcome) :
    Streaks lasted (m.delivered id now result outcome) := by
  let record := fun i : AlertIncident => { i with lastNotification := some now, delivery := result }
  have hrecorded : Streaks lasted { m with incidents := updateFirst (fun i => i.id == id) record m.incidents } :=
    h.same rfl rfl
  exact (hrecorded.save outcome).same rfl rfl

/-- A new process has no streak. -/
theorem restart (h : Streaks lasted m) : Streaks lasted m.restart := by
  have hstreaks : m.restart.streaks = .empty := by
    unfold AlertMonitor.restart
    cases m.file <;> rfl
  have hnotes : m.restart.notes = m.notes ++ [.restarted] := by
    unfold AlertMonitor.restart
    cases m.file <;> rfl
  refine ⟨fun ruleId time ht => ?_, ?_⟩
  · rw [hstreaks, Dict.get?_empty] at ht
    cases ht
  · rw [hnotes]
    apply h.opened.append
    intro n hn _ _ _ _ heq
    obtain rfl := List.mem_singleton.mp hn
    cases heq

theorem new : Streaks lasted (AlertMonitor.new : AlertMonitor Clock) := by
  refine ⟨fun ruleId time ht => ?_, fun before after ruleId id duration now heq => ?_⟩
  · cases ht
  · exact (List.append_ne_nil_of_right_ne_nil before (List.cons_ne_nil _ _) heq.symm).elim

end Streaks

end ModularPipelines.Dashboard
