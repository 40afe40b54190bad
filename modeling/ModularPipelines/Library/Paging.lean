import ModularPipelines.Library.OrderedTable

namespace ModularPipelines.Library

variable {α β : Type} {key : α → Nat}

/-- The rows between two positions, the first excluded. -/
def window (key : α → Nat) (after upto : Nat) (rows : List α) : List α :=
  rows.filter (fun r => decide (after < key r ∧ key r ≤ upto))

def beyond (key : α → Nat) (after : Nat) (rows : List α) : List α :=
  rows.filter (fun r => decide (after < key r))

/-- The position behind the rows that a page has gone through. -/
def reached (key : α → Nat) (after : Nat) (rows : List α) : Nat := rows.foldl (fun _ r => key r) after

/-- A page of a table: what its rows emit from one position to a later one. -/
structure Page (key : α → Nat) (emit : α → Option β) (rows : List α) (after : Nat) (items : List β)
    (upto : Nat) : Prop where
  items : items = (window key after upto rows).filterMap emit
  forward : after ≤ upto
  progress : ∀ r ∈ rows, after < key r → after < upto
  within : upto = after ∨ ∃ r ∈ rows, key r = upto

theorem mem_window {after upto : Nat} {rows : List α} {r : α} :
    r ∈ window key after upto rows ↔ r ∈ rows ∧ after < key r ∧ key r ≤ upto := by
  simp [window]

theorem mem_beyond {after : Nat} {rows : List α} {r : α} :
    r ∈ beyond key after rows ↔ r ∈ rows ∧ after < key r := by
  simp [beyond]

theorem window_empty (after : Nat) (rows : List α) : window key after after rows = [] := by
  apply List.filter_eq_nil_iff.mpr
  intro r _
  simp only [decide_eq_true_eq]
  omega

/-- Adjacent windows of a table in key order make one window. -/
theorem window_append {a b c : Nat} {rows : List α} (h : Ordered key rows) (hab : a ≤ b) (hbc : b ≤ c) :
    window key a b rows ++ window key b c rows = window key a c rows := by
  induction rows with
  | nil => rfl
  | cons r rows ih =>
    obtain ⟨hr, hrows⟩ := List.pairwise_cons.mp h
    have ih := ih hrows
    simp only [window] at ih ⊢
    simp only [List.filter_cons, decide_eq_true_eq]
    by_cases h1 : a < key r ∧ key r ≤ b
    · rw [if_pos h1, if_neg (by omega), if_pos (by omega), List.cons_append, ih]
    · rw [if_neg h1]
      by_cases h2 : b < key r ∧ key r ≤ c
      · have hnone : rows.filter (fun r => decide (a < key r ∧ key r ≤ b)) = [] := by
          apply List.filter_eq_nil_iff.mpr
          intro x hx
          have hlt := hr x hx
          simp only [decide_eq_true_eq]
          omega
        rw [hnone] at ih ⊢
        rw [if_pos h2, if_pos (by omega), List.nil_append, ← ih, List.nil_append]
      · rw [if_neg h2, if_neg (by omega), ih]

/-- A page that has gone through the first rows beyond its position. -/
theorem Page.of_front {emit : α → Option β} {rows front back : List α} {after : Nat}
    (h : Ordered key rows) (hsplit : beyond key after rows = front ++ back)
    (hprogress : beyond key after rows ≠ [] → front ≠ []) :
    Page key emit rows after (front.filterMap emit) (reached key after front) := by
  have hord : Ordered key (front ++ back) := hsplit ▸ h.filter _
  have hmem : ∀ r ∈ front ++ back, r ∈ rows ∧ after < key r := fun r hr => mem_beyond.mp (hsplit ▸ hr)
  rcases List.eq_nil_or_concat front with rfl | ⟨first, last, rfl⟩
  · have hnone : beyond key after rows = [] := by
      by_contra hne
      exact hprogress hne rfl
    refine ⟨?_, Nat.le_refl _, ?_, .inl rfl⟩
    · rw [reached, List.foldl_nil, window_empty]
    · intro r hr hlt
      have hin : r ∈ beyond key after rows := mem_beyond.mpr ⟨hr, hlt⟩
      rw [hnone] at hin
      cases hin
  · rw [List.concat_eq_append] at hsplit hord hmem ⊢
    have hlast := hmem last (by simp)
    have hreached : reached key after (first ++ [last]) = key last := by
      rw [reached, List.foldl_append, List.foldl_cons, List.foldl_nil]
    rw [hreached]
    refine ⟨?_, Nat.le_of_lt hlast.2, fun _ _ _ => hlast.2, .inr ⟨last, hlast.1, rfl⟩⟩
    congr 1
    have hcut : window key after (key last) rows =
        (beyond key after rows).filter (fun r => decide (key r ≤ key last)) := by
      rw [window, beyond, List.filter_filter]
      congr 1
      funext r
      rw [Bool.and_comm, ← Bool.decide_and]
    obtain ⟨hfront, -, hcross⟩ := List.pairwise_append.mp hord
    obtain ⟨-, -, hbefore⟩ := List.pairwise_append.mp hfront
    rw [hcut, hsplit, List.filter_append]
    have hkeep : (first ++ [last]).filter (fun r => decide (key r ≤ key last)) = first ++ [last] := by
      apply List.filter_eq_self.mpr
      intro r hr
      apply decide_eq_true
      rcases List.mem_append.mp hr with hr | hr
      · exact Nat.le_of_lt (hbefore r hr last (List.mem_singleton.mpr rfl))
      · rw [List.mem_singleton.mp hr]
    have hdrop : back.filter (fun r => decide (key r ≤ key last)) = [] := by
      apply List.filter_eq_nil_iff.mpr
      intro r hr hle
      have hlt := hcross last (by simp) r hr
      have hle := of_decide_eq_true hle
      omega
    rw [hkeep, hdrop, List.append_nil]

/-- Rows only appended, behind all others. -/
def Appended (key : α → Nat) (rows rows' : List α) : Prop :=
  ∃ new, rows' = rows ++ new ∧ ∀ r ∈ rows, ∀ x ∈ new, key r < key x

theorem Appended.refl (rows : List α) : Appended key rows rows := by
  refine ⟨[], (List.append_nil rows).symm, ?_⟩
  intro r _ x hx
  cases hx

theorem Appended.trans {rows rows' rows'' : List α} (h : Appended key rows rows')
    (h' : Appended key rows' rows'') : Appended key rows rows'' := by
  obtain ⟨new, rfl, hnew⟩ := h
  obtain ⟨new', rfl, hnew'⟩ := h'
  refine ⟨new ++ new', List.append_assoc _ _ _, ?_⟩
  intro r hr x hx
  rcases List.mem_append.mp hx with hx | hx
  · exact hnew r hr x hx
  · exact hnew' r (List.mem_append_left _ hr) x hx

theorem Appended.mem {rows rows' : List α} (h : Appended key rows rows') {r : α} (hr : r ∈ rows) :
    r ∈ rows' := by
  obtain ⟨new, rfl, -⟩ := h
  exact List.mem_append_left _ hr

/-- A window that ends inside a table is the same in every later state of the table. -/
theorem Appended.window {rows rows' : List α} (h : Appended key rows rows') {after upto : Nat}
    (hw : upto = after ∨ ∃ r ∈ rows, key r = upto) :
    window key after upto rows' = Library.window key after upto rows := by
  obtain ⟨new, rfl, hnew⟩ := h
  rcases hw with rfl | ⟨r, hr, rfl⟩
  · rw [window_empty, window_empty]
  · have hnone : Library.window key after (key r) new = [] := by
      apply List.filter_eq_nil_iff.mpr
      intro x hx
      have hlt := hnew r hr x hx
      simp only [decide_eq_true_eq]
      omega
    simp only [Library.window, List.filter_append] at hnone ⊢
    rw [hnone, List.append_nil]

/-- Pages read one after another, each from the table as it then stands. -/
structure Pages (key : α → Nat) (tables : Nat → List α) (emit : Nat → α → Option β)
    (items : Nat → List β) (cut : Nat → Nat) : Prop where
  start : cut 0 = 0
  page : ∀ n, Page key (emit n) (tables n) (cut n) (items n) (cut (n + 1))
  ordered : ∀ n, Ordered key (tables n)
  positive : ∀ n, ∀ r ∈ tables n, 0 < key r
  grown : ∀ n, Appended key (tables n) (tables (n + 1))

variable {tables : Nat → List α} {emit : Nat → α → Option β} {items : Nat → List β} {cut : Nat → Nat}

/-- A position is the start or the place of a row that was there when it was read. -/
theorem Pages.cut_mem (h : Pages key tables emit items cut) (n : Nat) :
    cut (n + 1) = 0 ∨ ∃ r ∈ tables n, key r = cut (n + 1) := by
  induction n with
  | zero =>
    rcases (h.page 0).within with he | hr
    · exact .inl (he.trans h.start)
    · exact .inr hr
  | succ n ih =>
    rcases (h.page (n + 1)).within with he | hr
    · rcases ih with hz | ⟨r, hr, hk⟩
      · exact .inl (he.trans hz)
      · exact .inr ⟨r, (h.grown n).mem hr, hk.trans he.symm⟩
    · exact .inr hr

/-- Pages that emit the same for a row at all times give every row up to their end once. -/
theorem Pages.collected (h : Pages key tables emit items cut) {f : α → Option β} {n : Nat}
    (hf : ∀ m ≤ n, ∀ r ∈ tables m, emit m r = f r) :
    (List.range (n + 1)).flatMap items = (window key 0 (cut (n + 1)) (tables n)).filterMap f := by
  have hitems : ∀ m ≤ n, items m = (window key (cut m) (cut (m + 1)) (tables m)).filterMap f := by
    intro m hm
    rw [(h.page m).items]
    exact List.filterMap_congr fun r hr => hf m hm r (mem_window.mp hr).1
  induction n with
  | zero =>
    have h0 := hitems 0 (Nat.le_refl _)
    rw [h.start] at h0
    simpa using h0
  | succ n ih =>
    have hold : window key 0 (cut (n + 1)) (tables (n + 1)) = window key 0 (cut (n + 1)) (tables n) :=
      (h.grown n).window (h.cut_mem n)
    have ih := ih (fun m hm => hf m (Nat.le_succ_of_le hm)) (fun m hm => hitems m (Nat.le_succ_of_le hm))
    rw [List.range_succ, List.flatMap_append, ih, List.flatMap_singleton, hitems (n + 1) (Nat.le_refl _),
      ← List.filterMap_append, ← hold]
    congr 1
    exact window_append (h.ordered (n + 1)) (Nat.zero_le _) (h.page (n + 1)).forward

/-- At the end of a table its window holds all of it. -/
theorem Pages.complete (h : Pages key tables emit items cut) {n : Nat}
    (hend : ∀ r ∈ tables n, key r ≤ cut (n + 1)) :
    window key 0 (cut (n + 1)) (tables n) = tables n := by
  apply List.filter_eq_self.mpr
  intro r hr
  exact decide_eq_true ⟨h.positive n r hr, hend r hr⟩

/-- A row that is there when its page is read lies in the window of exactly that page. -/
theorem Pages.covered (h : Pages key tables emit items cut) (n : Nat) {r : α} (hr : r ∈ tables n)
    (hle : key r ≤ cut (n + 1)) : ∃ m ≤ n, r ∈ window key (cut m) (cut (m + 1)) (tables m) := by
  induction n with
  | zero =>
    refine ⟨0, Nat.le_refl _, mem_window.mpr ⟨hr, ?_, hle⟩⟩
    rw [h.start]
    exact h.positive 0 r hr
  | succ n ih =>
    by_cases hk : key r ≤ cut (n + 1)
    · have hold : window key 0 (cut (n + 1)) (tables (n + 1)) = window key 0 (cut (n + 1)) (tables n) :=
        (h.grown n).window (h.cut_mem n)
      have hin : r ∈ window key 0 (cut (n + 1)) (tables (n + 1)) :=
        mem_window.mpr ⟨hr, h.positive _ r hr, hk⟩
      rw [hold] at hin
      obtain ⟨m, hm, hw⟩ := ih (mem_window.mp hin).1 hk
      exact ⟨m, Nat.le_succ_of_le hm, hw⟩
    · exact ⟨n + 1, Nat.le_refl _, mem_window.mpr ⟨hr, by omega, hle⟩⟩

/-- The items of all pages stand in the order of their positions, each position once. -/
theorem Pages.sorted (h : Pages key tables emit items cut) {position : β → Nat}
    (hpos : ∀ n r b, emit n r = some b → position b = key r) (n : Nat) :
    Ordered position ((List.range n).flatMap items) ∧
      ∀ b ∈ (List.range n).flatMap items, 0 < position b ∧ position b ≤ cut n := by
  have hbounds : ∀ k, ∀ b ∈ items k, cut k < position b ∧ position b ≤ cut (k + 1) := by
    intro k b hb
    rw [(h.page k).items] at hb
    obtain ⟨r, hr, he⟩ := List.mem_filterMap.mp hb
    rw [hpos k r b he]
    exact (mem_window.mp hr).2
  induction n with
  | zero => exact ⟨List.Pairwise.nil, by simp⟩
  | succ n ih =>
    rw [List.range_succ, List.flatMap_append, List.flatMap_singleton]
    constructor
    · apply List.pairwise_append.mpr
      refine ⟨ih.1, ?_, ?_⟩
      · rw [(h.page n).items]
        apply List.Pairwise.filterMap (emit n) _ ((h.ordered n).filter _)
        intro r r' hlt b hb b' hb'
        rw [hpos n r b hb, hpos n r' b' hb']
        exact hlt
      · intro b hb b' hb'
        have h1 := (ih.2 b hb).2
        have h2 := (hbounds n b' hb').1
        omega
    · intro b hb
      rcases List.mem_append.mp hb with hb | hb
      · obtain ⟨h1, h2⟩ := ih.2 b hb
        exact ⟨h1, Nat.le_trans h2 (h.page n).forward⟩
      · obtain ⟨h1, h2⟩ := hbounds n b hb
        exact ⟨by omega, h2⟩

/-- While rows remain every page moves on, so a table that no longer grows is read to its end. -/
theorem Pages.ends (h : Pages key tables emit items cut) {rows : List α} (hfixed : ∀ n, tables n = rows) :
    ∃ n, ∀ r ∈ rows, key r ≤ cut (n + 1) := by
  by_contra hnever
  have hgrows : ∀ n, n ≤ cut n := by
    intro n
    induction n with
    | zero => exact Nat.zero_le _
    | succ n ih =>
      by_contra hlt
      have hforward := (h.page n).forward
      apply hnever
      refine ⟨n, fun r hr => ?_⟩
      by_contra hgt
      have hmove := (h.page n).progress r (hfixed n ▸ hr) (by omega)
      omega
  have hbound : ∀ n, cut (n + 1) ≤ reached key 0 rows := by
    intro n
    rcases h.cut_mem n with hz | ⟨r, hr, hk⟩
    · rw [hz]
      exact Nat.zero_le _
    · rw [hfixed n] at hr
      rw [← hk]
      have hord := hfixed n ▸ h.ordered n
      obtain ⟨first, rest, rfl⟩ := List.append_of_mem hr
      rcases List.eq_nil_or_concat rest with rfl | ⟨middle, last, rfl⟩
      · simp [reached]
      · have hcross := (List.pairwise_append.mp hord).2.1
        have hlt := (List.pairwise_cons.mp hcross).1 last (by simp)
        simp only [reached, List.concat_eq_append, List.foldl_append, List.foldl_cons, List.foldl_nil]
        exact Nat.le_of_lt hlt
  have h1 := hgrows (reached key 0 rows + 1)
  have h2 := hbound (reached key 0 rows)
  omega

end ModularPipelines.Library
