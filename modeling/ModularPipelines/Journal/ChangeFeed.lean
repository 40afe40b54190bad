import ModularPipelines.Journal.Replay

namespace ModularPipelines.Journal
open Library

theorem maxCursor_append (xs : List Nat) (x : Nat) : maxCursor (xs ++ [x]) = max (maxCursor xs) x := by
  induction xs with
  | nil => simp [maxCursor]
  | cons y xs ih =>
    simp only [maxCursor, List.cons_append, List.foldr_cons] at ih ⊢
    rw [ih, max_assoc]

theorem le_maxCursor {xs : List Nat} {x : Nat} (h : x ∈ xs) : x ≤ maxCursor xs :=
  List.le_max_of_le' 0 h (le_refl x)

/-- An indexed journal whose change feed replays to its effective view. -/
structure EventStore.Fed (settings : Settings) (j : EventStore) : Prop extends j.Indexed settings where
  top : maxCursor (j.changes.map ChangeRow.changeCursor) = j.changeSequence
  decodes : ∀ c ∈ j.changes, ∃ ce, decodeChange settings j c = .ok ce
  replayed : viewOf settings j = replay j [] j.changes

/-- A later state of the same journal: events and changes were only appended. -/
structure EventStore.Follows (j j' : EventStore) : Prop where
  events : j.Extends j'
  changes : ∃ cs, j'.changes = j.changes ++ cs ∧ ∀ c ∈ cs, j.changeSequence < c.changeCursor
  sequence : j.changeSequence ≤ j'.changeSequence
  journal : j'.journalId = j.journalId ∧ j'.generation = j.generation

theorem EventStore.Extends.refl (j : EventStore) : j.Extends j := ⟨[], by simp⟩

theorem EventStore.Extends.trans {j k l : EventStore} (h : j.Extends k) (h' : k.Extends l) :
    j.Extends l := by
  obtain ⟨es, he⟩ := h
  obtain ⟨es', he'⟩ := h'
  exact ⟨es ++ es', by rw [he', he, List.append_assoc]⟩

theorem EventStore.Follows.refl (j : EventStore) : j.Follows j := by
  refine ⟨.refl j, ⟨[], by simp, ?_⟩, le_refl _, rfl, rfl⟩
  intro c hc
  cases hc

theorem EventStore.Follows.trans {j k l : EventStore} (h : j.Follows k) (h' : k.Follows l) :
    j.Follows l := by
  obtain ⟨cs, hcs, hlt⟩ := h.changes
  obtain ⟨cs', hcs', hlt'⟩ := h'.changes
  refine ⟨h.events.trans h'.events, ⟨cs ++ cs', by rw [hcs', hcs, List.append_assoc], ?_⟩,
    h.sequence.trans h'.sequence, h'.journal.1.trans h.journal.1, h'.journal.2.trans h.journal.2⟩
  intro c hc
  rcases List.mem_append.mp hc with hc | hc
  · exact hlt c hc
  · exact h.sequence.trans_lt (hlt' c hc)

theorem create_fed {settings : Settings} (journalId generation : String) :
    (EventStore.create journalId generation).Fed settings := by
  refine ⟨create_indexed journalId generation, rfl, ?_, rfl⟩
  intro c hc
  cases hc

theorem replay_append (j : EventStore) (rows : List JournalEntry) (cs cs' : List ChangeRow) :
    replay j rows (cs ++ cs') = replay j (replay j rows cs) cs' :=
  List.foldl_append

/-- Changes whose events are known do the same to a view in every later state. -/
theorem replay_mono {j j' : EventStore} (he : j.Extends j') (rows : List JournalEntry)
    {changes : List ChangeRow}
    (h : ∀ c ∈ changes, ∃ row, j.findEvent c.change.effectiveEventId = some row) :
    replay j' rows changes = replay j rows changes := by
  induction changes generalizing rows with
  | nil => rfl
  | cons c changes ih =>
    obtain ⟨row, hf⟩ := h c List.mem_cons_self
    have hentry : changeEntry j' c = changeEntry j c := by
      rw [changeEntry, changeEntry, hf, findEvent_mono he hf]
    have hstep : applied j' rows c = applied j rows c := by
      rw [applied, applied, hentry]
    simp only [replay, List.foldl_cons] at ih ⊢
    rw [hstep]
    exact ih (applied j rows c) (fun d hd => h d (List.mem_cons_of_mem _ hd))

theorem EventStore.Fed.resolved {settings : Settings} {j : EventStore} (h : j.Fed settings) :
    ∀ c ∈ j.changes, ∃ row, j.findEvent c.change.effectiveEventId = some row := by
  intro c hc
  obtain ⟨ce, hce⟩ := h.decodes c hc
  obtain ⟨entry, observed, hentry, -⟩ := decodeChange_ok.mp hce
  exact ⟨entry, (eventEntry_ok.mp hentry).1⟩

/-- One change takes a fed journal to a fed journal that follows it. -/
theorem EventStore.Fed.advance {settings : Settings} {j j' : EventStore} (h : j.Fed settings)
    (hi : j'.Indexed settings) (he : j.Extends j') (hseq : j'.changeSequence = j.changeSequence + 1)
    (hj : j'.journalId = j.journalId ∧ j'.generation = j.generation)
    (hc : ∃ c, c.changeCursor = j.changeSequence + 1 ∧ j'.changes = j.changes ++ [c] ∧
      (∃ ce, decodeChange settings j' c = .ok ce) ∧
      viewOf settings j' = applied j' (viewOf settings j) c) :
    j'.Fed settings ∧ j.Follows j' := by
  obtain ⟨c, hcur, hch, hf, hv⟩ := hc
  constructor
  · refine ⟨hi, ?_, ?_, ?_⟩
    · rw [hch, List.map_append, List.map_singleton, maxCursor_append, h.top, hcur, hseq]
      exact max_eq_right (Nat.le_succ _)
    · rw [hch]
      intro d hd
      rcases List.mem_append.mp hd with hd | hd
      · obtain ⟨ce, hce⟩ := h.decodes d hd
        exact ⟨ce, decodeChange_mono he hce⟩
      · rw [List.mem_singleton.mp hd]
        exact hf
    · rw [hch, replay_append, replay_mono he [] h.resolved, ← h.replayed]
      exact hv
  · refine ⟨he, ⟨[c], hch, ?_⟩, hseq ▸ Nat.le_succ _, hj⟩
    intro d hd
    rw [List.mem_singleton.mp hd, hcur]
    exact Nat.lt_succ_self _

theorem append_fed {settings : Settings} {j j' : EventStore} {event : JournalEvent}
    (h : j.Fed settings) (ha : append settings j event = .ok j') : j'.Fed settings ∧ j.Follows j' := by
  have hi := append_indexed h.toIndexed ha
  have hv := append_view h.toIndexed ha
  obtain ⟨-, -, -, rfl⟩ := append_change ha
  exact h.advance hi ⟨_, rfl⟩ rfl ⟨rfl, rfl⟩ hv

theorem report_fed {settings : Settings} {j j' : EventStore} {event : JournalEvent} {eventId : String}
    (h : j.Fed settings) (ha : appendCommandResult settings j event = .ok (j', eventId)) :
    j'.Fed settings ∧ j.Follows j' := by
  obtain ⟨d, identity, state, hv, hl, hid, hcase⟩ := appendCommandResult_ok.mp ha
  rcases hcase with ⟨own, -, -, rfl, -⟩ | ⟨hnew, hrec⟩
  · exact ⟨h, .refl _⟩
  · obtain ⟨-, -, -, hd, -⟩ := validateReport_ok.mp hv
    obtain ⟨st, hrec⟩ := recordReport_recorded hd hl hid hrec
    have hi := recorded_indexed h.toIndexed hl hnew hrec
    exact h.advance hi hrec.extends hrec.changeSequence hrec.journal
      (recorded_view h.toIndexed hv hl hnew hrec)

/-- Replaying what a later state has added brings an earlier view up to date. -/
theorem EventStore.Follows.replay_view {settings : Settings} {j j' : EventStore} (h : j.Follows j')
    (hj : j.Fed settings) (hj' : j'.Fed settings) :
    viewOf settings j' = replay j' (viewOf settings j)
      (j'.changes.filter (fun c => decide (j.changeSequence < c.changeCursor))) := by
  obtain ⟨cs, hcs, hlt⟩ := h.changes
  have hnew : cs.filter (fun c => decide (j.changeSequence < c.changeCursor)) = cs := by
    apply List.filter_eq_self.mpr
    intro c hc
    exact decide_eq_true (hlt c hc)
  have hold : j.changes.filter (fun c => decide (j.changeSequence < c.changeCursor)) = [] := by
    apply List.filter_eq_nil_iff.mpr
    intro c hc hgt
    have hle : c.changeCursor ≤ maxCursor (j.changes.map ChangeRow.changeCursor) :=
      le_maxCursor (List.mem_map_of_mem hc)
    rw [hj.top] at hle
    exact absurd (of_decide_eq_true hgt) (not_lt.mpr hle)
  rw [hj'.replayed, hcs, List.filter_append, hold, hnew, List.nil_append, hj.replayed,
    ← replay_mono h.events [] hj.resolved, replay_append]

end ModularPipelines.Journal
