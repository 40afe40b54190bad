import ModularPipelines.Journal.FilteredPages

namespace ModularPipelines.Journal
open Library

/-- The pages of a reader that asks for each with the checkpoint of the one before. -/
def follow {π : Type} (checkpoint : π → JournalCheckpoint)
    (read : Nat → Option JournalCheckpoint → Except JournalError π) : Nat → Except JournalError π
  | 0 => read 0 none
  | n + 1 => do
    let previous ← follow checkpoint read n
    read (n + 1) (some (checkpoint previous))

def followEvents (settings : Settings) (sizes : PageSizes) (view : EventView) (journals : Nat → EventStore)
    (limits : Nat → Nat) : Nat → Except JournalError JournalEventPage :=
  follow JournalEventPage.checkpoint fun n c => readEvents settings sizes (journals n) view c (limits n)

def followChanges (settings : Settings) (sizes : PageSizes) (journals : Nat → EventStore)
    (limits : Nat → Nat) : Nat → Except JournalError JournalChangePage :=
  follow JournalChangePage.checkpoint fun n c => readChanges settings sizes (journals n) c (limits n)

/-- The journal at each page: between two pages events and reports are appended. -/
def databases (settings : Settings) (contentDigest : JournalDatabase → String) (start : JournalDatabase)
    (between : Nat → List JournalAction) : Nat → JournalDatabase
  | 0 => start
  | n + 1 => (databases settings contentDigest start between n).run settings contentDigest (between n)

/-- Where each page begins. -/
def cutAt {π : Type} (checkpoint : π → JournalCheckpoint) (page : Nat → π) : Nat → Nat
  | 0 => 0
  | n + 1 => (checkpoint (page n)).position

/-- What the pages of one reader need of it: pages of a growing table of one journal. -/
structure Reads {α β π : Type} (key : α → Nat) (tables : Nat → List α) (emit : Nat → α → Option β)
    (items : π → List β) (checkpoint : π → JournalCheckpoint) (owner : String × String)
    (read : Nat → Option JournalCheckpoint → Except JournalError π) : Prop where
  read : ∀ n c, (∀ x ∈ c, (x.journalId, x.generation) = owner ∧ x.position ≤ maxCursor ((tables n).map key)) →
    ∃ p, read n c = .ok p ∧ ((checkpoint p).journalId, (checkpoint p).generation) = owner ∧
      Page key (emit n) (tables n) ((c.map JournalCheckpoint.position).getD 0) (items p) (checkpoint p).position
  ordered : ∀ n, Ordered key (tables n)
  positive : ∀ n, ∀ r ∈ tables n, 0 < key r
  grown : ∀ n, Appended key (tables n) (tables (n + 1))

variable {α β π : Type} {key : α → Nat} {tables : Nat → List α} {emit : Nat → α → Option β}
  {items : π → List β} {checkpoint : π → JournalCheckpoint} {owner : String × String}
  {read : Nat → Option JournalCheckpoint → Except JournalError π}

theorem page_within {rows : List α} {e : α → Option β} {after upto : Nat} {page : List β}
    (h : Page key e rows after page upto) (hafter : after ≤ maxCursor (rows.map key)) :
    upto ≤ maxCursor (rows.map key) := by
  rcases h.within with rfl | ⟨r, hr, rfl⟩
  · exact hafter
  · exact le_maxCursor (List.mem_map_of_mem hr)

theorem maxCursor_grown {rows rows' : List α} (h : Appended key rows rows') :
    maxCursor (rows.map key) ≤ maxCursor (rows'.map key) := by
  obtain ⟨new, rfl, -⟩ := h
  rw [List.map_append]
  generalize new.map key = last
  induction rows.map key with
  | nil => exact Nat.zero_le _
  | cons x xs ih =>
    simp only [maxCursor, List.cons_append, List.foldr_cons] at ih ⊢
    omega

theorem Reads.next (h : Reads key tables emit items checkpoint owner read) {n : Nat}
    {c : Option JournalCheckpoint}
    (hc : ∀ x ∈ c, (x.journalId, x.generation) = owner ∧ x.position ≤ maxCursor ((tables n).map key)) :
    ∃ p, read n c = .ok p ∧ ((checkpoint p).journalId, (checkpoint p).generation) = owner ∧
      (checkpoint p).position ≤ maxCursor ((tables n).map key) ∧
      Page key (emit n) (tables n) ((c.map JournalCheckpoint.position).getD 0) (items p) (checkpoint p).position := by
  obtain ⟨p, hp, hid, hpage⟩ := h.read n c hc
  refine ⟨p, hp, hid, page_within hpage ?_, hpage⟩
  cases c with
  | none => exact Nat.zero_le _
  | some x => exact (hc x rfl).2

/-- No page is refused, and together they page through the table. -/
theorem Reads.pages (h : Reads key tables emit items checkpoint owner read) :
    ∃ page : Nat → π, (∀ n, follow checkpoint read n = .ok (page n)) ∧
      Pages key tables emit (fun n => items (page n)) (cutAt checkpoint page) := by
  have hstep : ∀ n, ∃ p, follow checkpoint read n = .ok p ∧
      ((checkpoint p).journalId, (checkpoint p).generation) = owner ∧
      (checkpoint p).position ≤ maxCursor ((tables n).map key) := by
    intro n
    induction n with
    | zero =>
      obtain ⟨p, hp, hid, hle, -⟩ := h.next (n := 0) (c := none) (by simp)
      exact ⟨p, hp, hid, hle⟩
    | succ n ih =>
      obtain ⟨q, hq, hqid, hqle⟩ := ih
      have hc : ∀ x ∈ some (checkpoint q), (x.journalId, x.generation) = owner ∧
          x.position ≤ maxCursor ((tables (n + 1)).map key) := by
        intro x hx
        obtain rfl := Option.some.inj hx
        exact ⟨hqid, Nat.le_trans hqle (maxCursor_grown (h.grown n))⟩
      obtain ⟨p, hp, hid, hle, -⟩ := h.next hc
      refine ⟨p, ?_, hid, hle⟩
      rw [follow, hq, ok_bind]
      exact hp
  choose page hfollow hid hle using hstep
  refine ⟨page, hfollow, rfl, ?_, h.ordered, h.positive, h.grown⟩
  intro n
  cases n with
  | zero =>
    obtain ⟨p, hp, -, -, hpage⟩ := h.next (n := 0) (c := none) (by simp)
    have hsame : p = page 0 := Except.ok.inj (hp.symm.trans (hfollow 0))
    subst hsame
    exact hpage
  | succ n =>
    have hc : ∀ x ∈ some (checkpoint (page n)), (x.journalId, x.generation) = owner ∧
        x.position ≤ maxCursor ((tables (n + 1)).map key) := by
      intro x hx
      obtain rfl := Option.some.inj hx
      exact ⟨hid n, Nat.le_trans (hle n) (maxCursor_grown (h.grown n))⟩
    obtain ⟨p, hp, -, -, hpage⟩ := h.next hc
    have hnext := hfollow (n + 1)
    rw [follow, hfollow n, ok_bind, hp] at hnext
    have hsame : p = page (n + 1) := Except.ok.inj hnext
    subst hsame
    exact hpage

theorem follow_read {n : Nat} {p : π} (h : follow checkpoint read n = .ok p) : ∃ c, read n c = .ok p := by
  cases n with
  | zero => exact ⟨none, h⟩
  | succ n =>
    obtain ⟨previous, -, hp⟩ := bind_ok.mp h
    exact ⟨_, hp⟩

theorem readEvents_boundary {settings : Settings} {sizes : PageSizes} {j : EventStore} {view : EventView}
    {c : Option JournalCheckpoint} {limit : Nat} {page : JournalEventPage}
    (h : readEvents settings sizes j view c limit = .ok page) : page.boundary = readBoundary j := by
  simp only [readEvents, bind_ok, pure_eq_ok, Except.ok.injEq] at h
  obtain ⟨-, -, after, -, ⟨result, upto⟩, -, rfl⟩ := h
  rfl

theorem readChanges_boundary {settings : Settings} {sizes : PageSizes} {j : EventStore}
    {c : Option JournalCheckpoint} {limit : Nat} {page : JournalChangePage}
    (h : readChanges settings sizes j c limit = .ok page) : page.boundary = readBoundary j := by
  simp only [readChanges, bind_ok, pure_eq_ok, Except.ok.injEq] at h
  obtain ⟨-, -, after, -, ⟨result, upto⟩, -, rfl⟩ := h
  rfl

/-- States of one readable journal, one after another. -/
structure Growing (settings : Settings) (journals : Nat → EventStore) : Prop where
  readable : ∀ n, (journals n).Readable settings
  continues : ∀ n, (journals n).Continues settings (journals (n + 1))

theorem Growing.later {settings : Settings} {journals : Nat → EventStore} (h : Growing settings journals)
    {m n : Nat} (hle : m ≤ n) : (journals m).Continues settings (journals n) := by
  induction hle with
  | refl => exact .refl _ _
  | step _ ih => exact ih.trans (h.continues _)

theorem Growing.identity {settings : Settings} {journals : Nat → EventStore} (h : Growing settings journals)
    (n : Nat) : ((journals n).journalId, (journals n).generation) =
      ((journals 0).journalId, (journals 0).generation) := by
  obtain ⟨h1, h2⟩ := (h.later (Nat.zero_le n)).journal
  rw [h1, h2]

variable {settings : Settings} {sizes : PageSizes} {journals : Nat → EventStore} {limits : Nat → Nat}

theorem Growing.readsEvents (h : Growing settings journals) (sizes : PageSizes) (view : EventView)
    (hlimits : ∀ n, 1 ≤ limits n ∧ limits n ≤ 1000) :
    Reads EventRow.cursor (fun n => (journals n).events) (fun n => viewShown settings (journals n) view)
      JournalEventPage.events JournalEventPage.checkpoint ((journals 0).journalId, (journals 0).generation)
      (fun n c => readEvents settings sizes (journals n) view c (limits n)) := by
  refine ⟨?_, fun n => (h.readable n).ordered, fun n => (h.readable n).positive.1,
    fun n => (h.continues n).events⟩
  intro n c hc
  rw [← h.identity n] at hc ⊢
  obtain ⟨page, hread, hb, hpage⟩ := readEvents_page sizes (h.readable n) view (hlimits n) hc
  refine ⟨page, hread, ?_, hpage⟩
  simp only [JournalEventPage.checkpoint, hb]
  rfl

theorem Growing.readsChanges (h : Growing settings journals) (sizes : PageSizes)
    (hlimits : ∀ n, 1 ≤ limits n ∧ limits n ≤ 1000) :
    Reads ChangeRow.changeCursor (fun n => (journals n).changes) (fun n => changeShown settings (journals n))
      JournalChangePage.changes JournalChangePage.checkpoint ((journals 0).journalId, (journals 0).generation)
      (fun n c => readChanges settings sizes (journals n) c (limits n)) := by
  refine ⟨?_, fun n => (h.readable n).keyed.changeOrder, fun n => (h.readable n).positive.2,
    fun n => (h.continues n).changes⟩
  intro n c hc
  rw [← h.identity n] at hc ⊢
  obtain ⟨page, hread, hb, hpage⟩ := readChanges_page sizes (h.readable n) (hlimits n) hc
  refine ⟨page, hread, ?_, hpage⟩
  simp only [JournalChangePage.checkpoint, hb]
  rfl

/-- All entries of a view, as they are at one state of the journal. -/
def viewEntries (settings : Settings) (j : EventStore) : EventView → Except JournalError (List JournalEntry)
  | .raw => .ok (j.events.map (fun r => r.withResult none false))
  | .effective => effectiveView settings j

theorem viewEntries_ok {j : EventStore} (h : j.Readable settings) (view : EventView) :
    viewEntries settings j view = .ok (j.events.filterMap (viewShown settings j view)) := by
  cases view with
  | raw =>
    rw [viewEntries, ← List.filterMap_eq_map]
    rfl
  | effective => exact h.effectiveView_ok

theorem viewShown_row {j : EventStore} {view : EventView} {row : EventRow} {e : JournalEntry}
    (h : viewShown settings j view row = some e) : e.cursor = row.cursor ∧ e.event = row.event := by
  cases view with
  | raw =>
    obtain rfl := Option.some.inj h
    exact ⟨rfl, rfl⟩
  | effective => exact shown_row h

/-- The entries of a view between two positions come from the rows between them. -/
theorem viewEntries_window {j : EventStore} (view : EventView) (after upto : Nat) :
    (j.events.filterMap (viewShown settings j view)).filter
        (fun e => decide (after < e.cursor ∧ e.cursor ≤ upto)) =
      (window EventRow.cursor after upto j.events).filterMap (viewShown settings j view) := by
  rw [List.filter_filterMap, window, List.filterMap_filter]
  apply List.filterMap_congr
  intro r _
  cases hs : viewShown settings j view r with
  | none => simp
  | some e =>
    rw [← (viewShown_row hs).1]
    by_cases hw : after < e.cursor ∧ e.cursor ≤ upto <;> simp [Option.filter, hw]

/-- What the pages of a view give, each of the journal as it stands when the page is read. -/
structure EventPaging (settings : Settings) (view : EventView) (journals : Nat → EventStore)
    (page : Nat → JournalEventPage) : Prop where
  boundary : ∀ n, (page n).boundary = readBoundary (journals n)
  entries : ∀ n, ∃ entries, viewEntries settings (journals n) view = .ok entries ∧
    (page n).events = entries.filter (fun e => decide
      (cutAt JournalEventPage.checkpoint page n < e.cursor ∧ e.cursor ≤ (page n).after))
  ordered : ∀ n, Ordered JournalEntry.cursor ((List.range n).flatMap fun k => (page k).events)
  complete : ∀ n, (page n).hasMore = false → ∀ entries, viewEntries settings (journals n) view = .ok entries →
    ∀ e ∈ entries, ∃ e' ∈ (List.range (n + 1)).flatMap fun k => (page k).events,
      e'.cursor = e.cursor ∧ e'.event = e.event

theorem maxCursor_le {rows : List α} {upto : Nat} (h : ∀ r ∈ rows, key r ≤ upto) :
    maxCursor (rows.map key) ≤ upto := by
  induction rows with
  | nil => exact Nat.zero_le _
  | cons r rows ih =>
    have hr := h r List.mem_cons_self
    have hrest := ih fun x hx => h x (List.mem_cons_of_mem _ hx)
    simp only [maxCursor, List.map_cons, List.foldr_cons] at hrest ⊢
    omega

theorem page_end {n : Nat} {page : Nat → JournalEventPage} (hb : (page n).boundary = readBoundary (journals n))
    (hmore : (page n).hasMore = false) :
    ∀ r ∈ (journals n).events, r.cursor ≤ cutAt JournalEventPage.checkpoint page (n + 1) := by
  intro r hr
  have hend := of_decide_eq_false hmore
  rw [hb] at hend
  exact Nat.le_trans (le_maxCursor (List.mem_map_of_mem hr)) (Nat.le_of_not_lt hend)

theorem Growing.viewShown_before (h : Growing settings journals) {m n : Nat} (hle : m ≤ n) {view : EventView}
    {r : EventRow} (hr : r ∈ (journals m).events) (hshown : viewShown settings (journals n) view r ≠ none) :
    viewShown settings (journals m) view r ≠ none := by
  cases view with
  | raw => exact hshown
  | effective => exact (h.later hle).effective r hr hshown

theorem Growing.eventPaging (h : Growing settings journals) {view : EventView} {page : Nat → JournalEventPage}
    (hb : ∀ n, (page n).boundary = readBoundary (journals n))
    (hp : Pages EventRow.cursor (fun n => (journals n).events) (fun n => viewShown settings (journals n) view)
      (fun n => (page n).events) (cutAt JournalEventPage.checkpoint page)) :
    EventPaging settings view journals page := by
  refine ⟨hb, ?_, ?_, ?_⟩
  · intro n
    refine ⟨_, viewEntries_ok (h.readable n) view, ?_⟩
    rw [viewEntries_window]
    exact (hp.page n).items
  · intro n
    exact (hp.sorted (fun n r e he => (viewShown_row he).1) n).1
  · intro n hmore entries hentries e he
    rw [viewEntries_ok (h.readable n)] at hentries
    obtain rfl := Except.ok.inj hentries
    obtain ⟨r, hr, hs⟩ := List.mem_filterMap.mp he
    obtain ⟨m, hm, hw⟩ := hp.covered n hr (page_end (hb n) hmore r hr)
    have hbefore := h.viewShown_before hm (mem_window.mp hw).1 (by rw [hs]; exact Option.some_ne_none e)
    obtain ⟨e', he'⟩ := Option.ne_none_iff_exists'.mp hbefore
    refine ⟨e', List.mem_flatMap.mpr ⟨m, List.mem_range.mpr (Nat.lt_succ_of_le hm), ?_⟩, ?_⟩
    · rw [(hp.page m).items]
      exact List.mem_filterMap.mpr ⟨r, hw, he'⟩
    · obtain ⟨h1, h2⟩ := viewShown_row hs
      obtain ⟨h3, h4⟩ := viewShown_row he'
      exact ⟨h3.trans h1.symm, h4.trans h2.symm⟩

/-- Raw entries are the same in every state, so the last page completes the raw history. -/
theorem raw_complete {page : Nat → JournalEventPage}
    (hb : ∀ n, (page n).boundary = readBoundary (journals n))
    (hp : Pages EventRow.cursor (fun n => (journals n).events) (fun n => viewShown settings (journals n) .raw)
      (fun n => (page n).events) (cutAt JournalEventPage.checkpoint page)) {n : Nat}
    (hmore : (page n).hasMore = false) :
    viewEntries settings (journals n) .raw = .ok ((List.range (n + 1)).flatMap fun k => (page k).events) := by
  have hall := hp.collected (f := fun r => some (r.withResult none false)) (n := n) (fun m _ r _ => rfl)
  rw [hp.complete (page_end (hb n) hmore)] at hall
  rw [hall, viewEntries, ← List.filterMap_eq_map]
  rfl

/-- The pages of a journal that stays as it is give its view, whichever it is. -/
theorem fixed_complete {view : EventView} {page : Nat → JournalEventPage} {j : EventStore}
    (h : j.Readable settings) (hfixed : ∀ n, journals n = j)
    (hb : ∀ n, (page n).boundary = readBoundary (journals n))
    (hp : Pages EventRow.cursor (fun n => (journals n).events) (fun n => viewShown settings (journals n) view)
      (fun n => (page n).events) (cutAt JournalEventPage.checkpoint page)) :
    (∃ n, (page n).hasMore = false) ∧ ∀ n, (page n).hasMore = false →
      viewEntries settings j view = .ok ((List.range (n + 1)).flatMap fun k => (page k).events) := by
  constructor
  · have hends : ∃ n, ∀ r ∈ j.events, r.cursor ≤ cutAt JournalEventPage.checkpoint page (n + 1) :=
      hp.ends fun n => by rw [hfixed n]
    obtain ⟨n, hn⟩ := hends
    refine ⟨n, decide_eq_false ?_⟩
    rw [hb, hfixed]
    exact Nat.not_lt.mpr (maxCursor_le hn)
  · intro n hmore
    have hall := hp.collected (f := viewShown settings j view) (n := n) (fun m _ r _ => by rw [hfixed m])
    rw [hp.complete (page_end (hb n) hmore), hfixed n] at hall
    rw [hall]
    exact viewEntries_ok h view

theorem changeShown_mono {j k : EventStore} (h : j.Readable settings) (he : j.Extends k) {c : ChangeRow}
    (hc : c ∈ j.changes) : changeShown settings j c = changeShown settings k c := by
  obtain ⟨item, hitem, hs⟩ := h.decodeChange hc
  rw [hs, changeShown, decodeChange_mono he hitem]

theorem changes_decoded {j : EventStore} (h : j.Readable settings) :
    j.changes.mapM (decodeChange settings j) = .ok (j.changes.filterMap (changeShown settings j)) := by
  have hrows := h.decodes
  generalize j.changes = rows at hrows ⊢
  induction rows with
  | nil => rfl
  | cons c changes ih =>
    obtain ⟨item, hitem⟩ := hrows c List.mem_cons_self
    have hs : changeShown settings j c = some item := by rw [changeShown, hitem]
    rw [List.mapM_cons, hitem, ok_bind, ih fun d hd => hrows d (List.mem_cons_of_mem _ hd), ok_bind,
      List.filterMap_cons, hs]
    rfl

/-- What the pages of the change feed give: every change up to the last boundary, once and in order. -/
structure ChangePaging (settings : Settings) (journals : Nat → EventStore) (page : Nat → JournalChangePage) :
    Prop where
  boundary : ∀ n, (page n).boundary = readBoundary (journals n)
  complete : ∀ n, (page n).hasMore = false →
    (journals n).changes.mapM (decodeChange settings (journals n)) =
      .ok ((List.range (n + 1)).flatMap fun k => (page k).changes)

theorem changes_end {n : Nat} {page : Nat → JournalChangePage}
    (hb : (page n).boundary = readBoundary (journals n)) (hmore : (page n).hasMore = false) :
    ∀ c ∈ (journals n).changes, c.changeCursor ≤ cutAt JournalChangePage.checkpoint page (n + 1) := by
  intro c hc
  have hend := of_decide_eq_false hmore
  rw [hb] at hend
  exact Nat.le_trans (le_maxCursor (List.mem_map_of_mem hc)) (Nat.le_of_not_lt hend)

theorem Growing.changePaging (h : Growing settings journals) {page : Nat → JournalChangePage}
    (hb : ∀ n, (page n).boundary = readBoundary (journals n))
    (hp : Pages ChangeRow.changeCursor (fun n => (journals n).changes)
      (fun n => changeShown settings (journals n)) (fun n => (page n).changes)
      (cutAt JournalChangePage.checkpoint page)) :
    ChangePaging settings journals page := by
  refine ⟨hb, ?_⟩
  intro n hmore
  have hall := hp.collected (f := changeShown settings (journals n)) (n := n)
    (fun m hm c hc => changeShown_mono (h.readable m) (h.later hm).extends hc)
  rw [hp.complete (changes_end (hb n) hmore)] at hall
  rw [hall]
  exact changes_decoded (h.readable n)

theorem fixed_changes_end {page : Nat → JournalChangePage} {j : EventStore} (hfixed : ∀ n, journals n = j)
    (hb : ∀ n, (page n).boundary = readBoundary (journals n))
    (hp : Pages ChangeRow.changeCursor (fun n => (journals n).changes)
      (fun n => changeShown settings (journals n)) (fun n => (page n).changes)
      (cutAt JournalChangePage.checkpoint page)) :
    ∃ n, (page n).hasMore = false := by
  have hends : ∃ n, ∀ c ∈ j.changes, c.changeCursor ≤ cutAt JournalChangePage.checkpoint page (n + 1) :=
    hp.ends fun n => by rw [hfixed n]
  obtain ⟨n, hn⟩ := hends
  refine ⟨n, decide_eq_false ?_⟩
  rw [hb, hfixed]
  exact Nat.not_lt.mpr (maxCursor_le hn)

theorem databases_growing {contentDigest : JournalDatabase → String} {start : JournalDatabase}
    (h : start.tables.Readable settings) {between : Nat → List JournalAction} (hb : ∀ n, Appends (between n)) :
    Growing settings (fun n => (databases settings contentDigest start between n).tables) := by
  have hreadable : ∀ n, (databases settings contentDigest start between n).tables.Readable settings := by
    intro n
    induction n with
    | zero => exact h
    | succ n ih => exact JournalDatabase.run_readable ih (between n)
  exact ⟨hreadable, fun n => JournalDatabase.run_continues (hreadable n) (hb n)⟩

theorem databases_fixed {contentDigest : JournalDatabase → String} {start : JournalDatabase}
    {between : Nat → List JournalAction} (h : ∀ n, between n = []) (n : Nat) :
    (databases settings contentDigest start between n).tables = start.tables := by
  induction n with
  | zero => rfl
  | succ n ih => rw [databases, h n, ← ih]; rfl

/-- Reading page by page, with appends between the pages. Every page shows its view as it is
at that page, and an event that is effective at the last boundary is never missed; the raw
history, the change feed, every view of a resting journal and every publication come out
exactly, and a resting journal and a publication are read to their end. -/
theorem paging_complete (settings : Settings) (sizes : PageSizes) (contentDigest : JournalDatabase → String)
    (journalId generation : String) (schemaVersion : Nat) (past : List JournalAction)
    (between : Nat → List JournalAction) (hb : ∀ n, Appends (between n)) (limits : Nat → Nat)
    (hlimits : ∀ n, 1 ≤ limits n ∧ limits n ≤ 1000) :
    let start := (JournalDatabase.create journalId generation schemaVersion).run settings contentDigest past
    let journals := fun n => (databases settings contentDigest start between n).tables
    (∀ view, ∃ page : Nat → JournalEventPage,
      (∀ n, followEvents settings sizes view journals limits n = .ok (page n)) ∧
      EventPaging settings view journals page ∧
      (view = .raw → ∀ n, (page n).hasMore = false →
        viewEntries settings (journals n) .raw = .ok ((List.range (n + 1)).flatMap fun k => (page k).events)) ∧
      ((∀ n, between n = []) → (∃ n, (page n).hasMore = false) ∧ ∀ n, (page n).hasMore = false →
        viewEntries settings start.tables view = .ok ((List.range (n + 1)).flatMap fun k => (page k).events))) ∧
    (∃ page : Nat → JournalChangePage,
      (∀ n, followChanges settings sizes journals limits n = .ok (page n)) ∧
      ChangePaging settings journals page ∧ ((∀ n, between n = []) → ∃ n, (page n).hasMore = false)) ∧
    ∀ viewPath steps metadata, let p := (Publisher.create viewPath journalId generation).run settings steps
      p.view.publication = some metadata → p.lastError = none →
      ∀ added : Nat → List PublisherStep, (∀ n, SourceSteps (added n)) → ∀ envelope,
      ∃ page : Nat → FilteredPage,
        (∀ n, followFiltered settings sizes p added envelope limits n =
          .ok (page n, publishers settings p added n) ∧ (page n).source = .filtered) ∧
        (∃ n, (page n).hasMore = false) ∧
        ∃ j : EventStore, j.Follows p.source ∧ metadata.boundary = readBoundary j ∧
          ∀ n, (page n).hasMore = false →
            effectiveView settings j = .ok ((List.range (n + 1)).flatMap fun k => (page k).events) := by
  intro start journals
  have hstart : start.tables.Readable settings :=
    JournalDatabase.run_readable (create_readable settings journalId generation) past
  have hgrowing : Growing settings journals := databases_growing hstart hb
  refine ⟨?_, ?_, ?_⟩
  · intro view
    have hreads := hgrowing.readsEvents sizes view hlimits
    obtain ⟨page, hfollow, hpages⟩ := hreads.pages
    have hboundary : ∀ n, (page n).boundary = readBoundary (journals n) := by
      intro n
      obtain ⟨c, hc⟩ := follow_read (hfollow n)
      exact readEvents_boundary hc
    refine ⟨page, hfollow, hgrowing.eventPaging hboundary hpages, ?_, ?_⟩
    · intro hview n hmore
      subst hview
      exact raw_complete hboundary hpages hmore
    · intro hfixed
      exact fixed_complete hstart (databases_fixed hfixed) hboundary hpages
  · obtain ⟨page, hfollow, hpages⟩ := (hgrowing.readsChanges sizes hlimits).pages
    have hboundary : ∀ n, (page n).boundary = readBoundary (journals n) := by
      intro n
      obtain ⟨c, hc⟩ := follow_read (hfollow n)
      exact readChanges_boundary hc
    refine ⟨page, hfollow, hgrowing.changePaging hboundary hpages, ?_⟩
    intro hfixed
    exact fixed_changes_end (databases_fixed hfixed) hboundary hpages
  · intro viewPath steps metadata p hpub hhealthy added hs envelope
    have hpublishing : Publishing settings p.view metadata p := by
      refine ⟨?_, ?_, rfl, hpub, hhealthy⟩
      · exact Publisher.run_sound (create_publisher_sound settings viewPath journalId generation) steps
      · exact Publisher.run_readable (create_readable settings journalId generation) steps
    obtain ⟨page, hpage⟩ := hpublishing.follow sizes hs envelope hlimits
    obtain ⟨j, hj, hboundary, hview⟩ := hpublishing.published.view
    refine ⟨page, fun n => ⟨(hpage n).1, (hpage n).2.source⟩, filtered_ends fun n => (hpage n).2,
      j, hj, hboundary, ?_⟩
    intro n hmore
    rw [hview, hpublishing.published.complete (fun n => (hpage n).2) hmore]

def reportOf (author : String) (outcome : Outcome) (sequenceNumber : Nat) : JournalEvent :=
  ⟨author ++ "-answer", author ++ "-log", sequenceNumber, "t", "command.result",
    [("experiment_id", .str "e"), ("participant_id", .str "p"), ("request_id", .str "r")], none,
    .obj [("request_id", .str "r"), ("author", .str author), ("outcome", .str outcome.text), ("response", .obj []),
      ("ignored", .null), ("supersedes", .arr [])]⟩

def pagedSizes : PageSizes := ⟨16777216, fun _ => 100, fun _ => 100⟩

def pagedLimits (n : Nat) : Nat := n + 1

/-- A participant's answer and a note; the runner's other answer comes after the first page. -/
def answeredLate : Nat → EventStore := fun n =>
  (databases lenient (fun _ => "")
    ((JournalDatabase.create "j" "g" 3).run lenient (fun _ => "")
      [.report (reportOf "participant" .succeeded 1), .append (noteOf "note" 1)])
    (fun k => if k = 0 then [.report (reportOf "runner" .timedOut 2)] else []) n).tables

/-- The pages of an effective view keep an answer that was superseded after its page. -/
theorem superseded_answer_kept : ∃ first second : JournalEventPage,
    followEvents lenient pagedSizes .effective answeredLate pagedLimits 0 = .ok first ∧ first.hasMore = true ∧
    followEvents lenient pagedSizes .effective answeredLate pagedLimits 1 = .ok second ∧ second.hasMore = false ∧
    viewEntries lenient (answeredLate 1) .effective ≠ .ok (first.events ++ second.events) := by
  have hfirst : (followEvents lenient pagedSizes .effective answeredLate pagedLimits 0).map
      (fun p => (p.events.map JournalEntry.cursor, p.hasMore)) = .ok ([1], true) := by decide +kernel
  have hsecond : (followEvents lenient pagedSizes .effective answeredLate pagedLimits 1).map
      (fun p => (p.events.map JournalEntry.cursor, p.hasMore)) = .ok ([2, 3], false) := by decide +kernel
  have hview : (viewEntries lenient (answeredLate 1) .effective).map
      (fun es => es.map JournalEntry.cursor) = .ok [2, 3] := by decide +kernel
  obtain ⟨first, hfirst, h1⟩ := map_ok.mp hfirst
  obtain ⟨second, hsecond, h2⟩ := map_ok.mp hsecond
  simp only [Prod.mk.injEq] at h1 h2
  refine ⟨first, second, hfirst, h1.2, hsecond, h2.2, ?_⟩
  intro hentries
  rw [hentries, Except.map, List.map_append, h1.1, h2.1] at hview
  cases hview

theorem paging_complete_late :
    (∀ n, Appends ((fun k => if k = 0 then [.report (reportOf "runner" .timedOut 2)] else []) n)) ∧
    ∃ page : Nat → JournalChangePage,
      ∀ n, followChanges lenient pagedSizes answeredLate (fun _ => 2) n = .ok (page n) := by
  have happends : ∀ n, Appends ((fun k => if k = 0 then [.report (reportOf "runner" .timedOut 2)] else []) n) := by
    intro n call faults hmem
    by_cases hn : n = 0 <;> simp [hn] at hmem
  refine ⟨happends, ?_⟩
  obtain ⟨-, ⟨page, hpage, -⟩, -⟩ := paging_complete lenient pagedSizes (fun _ => "") "j" "g" 3
    [.report (reportOf "participant" .succeeded 1), .append (noteOf "note" 1)] _ happends (fun _ => 2)
    (fun _ => ⟨by decide, by decide⟩)
  exact ⟨page, hpage⟩

end ModularPipelines.Journal
