import ModularPipelines.Journal.Pages
import ModularPipelines.Journal.Refresh
import ModularPipelines.Journal.Restoration
import ModularPipelines.Library.Paging

namespace ModularPipelines.Journal
open Library

def viewShown (settings : Settings) (j : EventStore) (view : EventView) (row : EventRow) : Option JournalEntry :=
  match view with
  | .raw => some (row.withResult none false)
  | .effective => shown settings j row

def changeShown (settings : Settings) (j : EventStore) (row : ChangeRow) : Option JournalChangeEntry :=
  match decodeChange settings j row with
  | .ok item => some item
  | .error _ => none

def EventStore.Positive (j : EventStore) : Prop :=
  (∀ r ∈ j.events, 0 < r.cursor) ∧ ∀ c ∈ j.changes, 0 < c.changeCursor

/-- A journal every row of which can be read. -/
structure EventStore.Readable (settings : Settings) (j : EventStore) : Prop extends j.Indexed settings where
  keyed : j.Keyed
  positive : j.Positive
  decodes : ∀ c ∈ j.changes, ∃ item, decodeChange settings j c = .ok item

theorem EventStore.Readable.viewEntry {settings : Settings} {j : EventStore} (h : j.Readable settings)
    (view : EventView) {row : EventRow} (hr : row ∈ j.events) :
    viewEntry settings j view row = .ok (viewShown settings j view row) := by
  rw [Journal.viewEntry, decodeRow_ok.mpr ⟨h.valid row hr, rfl⟩, ok_bind]
  cases view with
  | raw => rfl
  | effective => exact h.effectiveEntry_ok hr

theorem EventStore.Readable.decodeChange {settings : Settings} {j : EventStore} (h : j.Readable settings)
    {row : ChangeRow} (hr : row ∈ j.changes) :
    ∃ item, decodeChange settings j row = .ok item ∧ changeShown settings j row = some item := by
  obtain ⟨item, hitem⟩ := h.decodes row hr
  refine ⟨item, hitem, ?_⟩
  rw [changeShown, hitem]

/-- The loop over a page's rows stops somewhere, and never before its first row. -/
theorem readEventPage_front {settings : Settings} (sizes : PageSizes) {j : EventStore}
    (h : j.Readable settings) (view : EventView) (limit : Nat) {rows : List EventRow}
    (hrows : ∀ r ∈ rows, r ∈ j.events) (after : Nat) (result : List JournalEntry) (pageBytes : Nat) :
    ∃ front back, rows = front ++ back ∧ (result = [] → rows ≠ [] → front ≠ []) ∧
      readEventPage settings sizes j view limit rows after result pageBytes =
        .ok (result ++ front.filterMap (viewShown settings j view), reached EventRow.cursor after front) := by
  induction rows generalizing after result pageBytes with
  | nil =>
    refine ⟨[], [], rfl, fun _ hne => absurd rfl hne, ?_⟩
    simp [readEventPage, reached]
  | cons row rows ih =>
    have hrest : ∀ r ∈ rows, r ∈ j.events := fun r hr => hrows r (List.mem_cons_of_mem _ hr)
    rw [readEventPage, h.viewEntry view (hrows row List.mem_cons_self), ok_bind]
    cases hs : viewShown settings j view row with
    | none =>
      obtain ⟨front, back, hsplit, -, hread⟩ := ih hrest row.cursor result pageBytes
      refine ⟨row :: front, back, by rw [hsplit, List.cons_append], fun _ _ => List.cons_ne_nil _ _, ?_⟩
      simp only [hread, List.filterMap_cons, hs]
      rfl
    | some entry =>
      simp only
      split
      · next hfull =>
        refine ⟨[], row :: rows, rfl, fun hempty => absurd hempty hfull.1, ?_⟩
        simp [reached, pure_eq_ok]
      · split
        · refine ⟨[row], rows, rfl, fun _ _ => List.cons_ne_nil _ _, ?_⟩
          simp [reached, pure_eq_ok, hs]
        · obtain ⟨front, back, hsplit, -, hread⟩ :=
            ih hrest row.cursor (result ++ [entry]) (pageBytes + sizes.eventBytes entry.event)
          refine ⟨row :: front, back, by rw [hsplit, List.cons_append], fun _ _ => List.cons_ne_nil _ _, ?_⟩
          rw [hread, List.filterMap_cons, hs, List.append_assoc]
          rfl

theorem readChangePage_front {settings : Settings} (sizes : PageSizes) {j : EventStore}
    (h : j.Readable settings) {rows : List ChangeRow} (hrows : ∀ r ∈ rows, r ∈ j.changes) (after : Nat)
    (result : List JournalChangeEntry) (size : Nat) :
    ∃ front back, rows = front ++ back ∧ (result = [] → rows ≠ [] → front ≠ []) ∧
      readChangePage settings sizes j rows after result size =
        .ok (result ++ front.filterMap (changeShown settings j), reached ChangeRow.changeCursor after front) := by
  induction rows generalizing after result size with
  | nil =>
    refine ⟨[], [], rfl, fun _ hne => absurd rfl hne, ?_⟩
    simp [readChangePage, reached]
  | cons row rows ih =>
    have hrest : ∀ r ∈ rows, r ∈ j.changes := fun r hr => hrows r (List.mem_cons_of_mem _ hr)
    obtain ⟨item, hitem, hs⟩ := h.decodeChange (hrows row List.mem_cons_self)
    rw [readChangePage, hitem, ok_bind]
    simp only
    split
    · next hfull =>
      refine ⟨[], row :: rows, rfl, fun hempty => absurd hempty hfull.1, ?_⟩
      simp [reached, pure_eq_ok]
    · obtain ⟨front, back, hsplit, -, hread⟩ :=
        ih hrest row.changeCursor (result ++ [item]) (size + sizes.changeBytes item)
      refine ⟨row :: front, back, by rw [hsplit, List.cons_append], fun _ _ => List.cons_ne_nil _ _, ?_⟩
      rw [hread, List.filterMap_cons, hs, List.append_assoc]
      rfl

/-- Derived rows as a refresh has checked them. -/
def DerivedRows (settings : Settings) (rows : List JournalEntry) : Prop :=
  ∀ e ∈ rows, e.event.valid settings = true ∧ e.provisional = (e.effectiveAuthor == some .participant)

theorem readDerivedRows_front {settings : Settings} (sizes : PageSizes) {limit : Nat} (hlimit : 1 ≤ limit)
    {rows : List JournalEntry} (h : DerivedRows settings rows) (after : Nat) (entries : List JournalEntry)
    (size : Nat) (hentries : entries.length ≤ limit) :
    ∃ front back, rows = front ++ back ∧ (entries = [] → rows ≠ [] → front ≠ []) ∧
      front.length + entries.length ≤ limit ∧
      readDerivedRows settings sizes limit rows after entries size =
        .ok (entries ++ front, reached JournalEntry.cursor after front, !back.isEmpty) := by
  induction rows generalizing after entries size with
  | nil =>
    refine ⟨[], [], rfl, fun _ hne => absurd rfl hne, by simpa using hentries, ?_⟩
    simp [readDerivedRows, reached]
  | cons row rows ih =>
    have hrest : DerivedRows settings rows := fun e he => h e (List.mem_cons_of_mem _ he)
    obtain ⟨hvalid, hprovisional⟩ := h row List.mem_cons_self
    rw [readDerivedRows]
    split
    · next hfull =>
      refine ⟨[], row :: rows, rfl, ?_, by simpa using hentries, ?_⟩
      · intro hempty
        subst hempty
        simp only [List.length_nil, ne_eq, not_true_eq_false, false_and, or_false] at hfull
        omega
      · simp [reached, pure_eq_ok]
    · next hroom =>
      have hlt : entries.length < limit := Nat.lt_of_le_of_ne hentries (fun he => hroom (.inl he))
      obtain ⟨front, back, hsplit, -, hlength, hread⟩ :=
        ih hrest row.cursor (entries ++ [row]) (size + sizes.eventBytes row.event) (by simp only [List.length_append, List.length_cons, List.length_nil]; omega)
      refine ⟨row :: front, back, by rw [hsplit, List.cons_append], fun _ _ => List.cons_ne_nil _ _, ?_, ?_⟩
      · simp only [List.length_append, List.length_cons, List.length_nil] at hlength ⊢
        omega
      · rw [rejectIf_of_not (by simp [hvalid]), ok_bind, rejectIf_of_not (by simp [hprovisional]), ok_bind, hread,
          List.append_assoc]
        rfl

/-- Every row beyond a position is among the ones a page goes through, or is left for the next. -/
theorem beyond_front {α : Type} {key : α → Nat} {after limit : Nat} {rows front back : List α}
    (h : (beyond key after rows).take limit = front ++ back) :
    beyond key after rows = front ++ (back ++ (beyond key after rows).drop limit) := by
  rw [← List.append_assoc, ← h, List.take_append_drop]

theorem take_ne_nil {α : Type} {limit : Nat} (hlimit : 1 ≤ limit) {rows : List α} (h : rows ≠ []) :
    rows.take limit ≠ [] := by
  cases rows with
  | nil => exact absurd rfl h
  | cons r rows =>
    obtain ⟨n, rfl⟩ : ∃ n, limit = n + 1 := ⟨limit - 1, by omega⟩
    exact List.cons_ne_nil _ _

theorem checkpointPosition_ok {checkpoint : Option JournalCheckpoint} (boundary : JournalReadBoundary)
    {last : Nat} (h : ∀ c ∈ checkpoint, (c.journalId, c.generation) = (boundary.journalId, boundary.generation) ∧
      c.position ≤ last) :
    checkpointPosition checkpoint boundary last = .ok ((checkpoint.map JournalCheckpoint.position).getD 0) := by
  cases checkpoint with
  | none => rfl
  | some c =>
    obtain ⟨hid, hle⟩ := h c rfl
    simp [checkpointPosition, hid, Nat.not_lt.mpr hle, pure_eq_ok, rejectIf, bind, Except.bind]

theorem readEvents_page {settings : Settings} (sizes : PageSizes) {j : EventStore} (h : j.Readable settings)
    (view : EventView) {checkpoint : Option JournalCheckpoint} {limit : Nat} (hlimit : 1 ≤ limit ∧ limit ≤ 1000)
    (hc : ∀ c ∈ checkpoint, (c.journalId, c.generation) = (j.journalId, j.generation) ∧
      c.position ≤ (readBoundary j).cursor) :
    ∃ page, readEvents settings sizes j view checkpoint limit = .ok page ∧ page.boundary = readBoundary j ∧
      Page EventRow.cursor (viewShown settings j view) j.events
        ((checkpoint.map JournalCheckpoint.position).getD 0) page.events page.after := by
  have hafter := checkpointPosition_ok (readBoundary j) hc
  generalize (checkpoint.map JournalCheckpoint.position).getD 0 = after at hafter ⊢
  have hrows : ∀ r ∈ (beyond EventRow.cursor after j.events).take 1000, r ∈ j.events :=
    fun r hr => (mem_beyond.mp (List.mem_of_mem_take hr)).1
  obtain ⟨front, back, hsplit, hprogress, hread⟩ :=
    readEventPage_front sizes h view limit hrows after [] 0
  refine ⟨⟨front.filterMap (viewShown settings j view), readBoundary j, reached EventRow.cursor after front⟩,
    ?_, rfl, ?_⟩
  · rw [beyond] at hread
    simp only [readEvents, validateLimit, rejectIf_of_not (not_not.mpr hlimit), ok_bind, hafter, hread,
      List.nil_append, pure_eq_ok]
  · apply Page.of_front h.ordered (beyond_front hsplit)
    exact fun hne => hprogress rfl (take_ne_nil (by omega) hne)

theorem readChanges_page {settings : Settings} (sizes : PageSizes) {j : EventStore} (h : j.Readable settings)
    {checkpoint : Option JournalCheckpoint} {limit : Nat} (hlimit : 1 ≤ limit ∧ limit ≤ 1000)
    (hc : ∀ c ∈ checkpoint, (c.journalId, c.generation) = (j.journalId, j.generation) ∧
      c.position ≤ (readBoundary j).changeCursor) :
    ∃ page, readChanges settings sizes j checkpoint limit = .ok page ∧ page.boundary = readBoundary j ∧
      Page ChangeRow.changeCursor (changeShown settings j) j.changes
        ((checkpoint.map JournalCheckpoint.position).getD 0) page.changes page.after := by
  have hafter := checkpointPosition_ok (readBoundary j) hc
  generalize (checkpoint.map JournalCheckpoint.position).getD 0 = after at hafter ⊢
  have hrows : ∀ r ∈ (beyond ChangeRow.changeCursor after j.changes).take limit, r ∈ j.changes :=
    fun r hr => (mem_beyond.mp (List.mem_of_mem_take hr)).1
  obtain ⟨front, back, hsplit, hprogress, hread⟩ :=
    readChangePage_front sizes h hrows after [] 0
  refine ⟨⟨front.filterMap (changeShown settings j), readBoundary j, reached ChangeRow.changeCursor after front⟩,
    ?_, rfl, ?_⟩
  · rw [beyond] at hread
    simp only [readChanges, validateLimit, rejectIf_of_not (not_not.mpr hlimit), ok_bind, hafter, hread,
      List.nil_append, pure_eq_ok]
  · apply Page.of_front h.keyed.changeOrder (beyond_front hsplit)
    exact fun hne => hprogress rfl (take_ne_nil hlimit.1 hne)

end ModularPipelines.Journal
