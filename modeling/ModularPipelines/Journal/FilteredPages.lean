import ModularPipelines.Journal.Paging

namespace ModularPipelines.Journal
open Library

/-- Pages of one publisher, with steps of the publisher between them. -/
def followFiltered (settings : Settings) (sizes : PageSizes) (start : Publisher)
    (between : Nat → List PublisherStep) (envelope : JournalEvent) (limits : Nat → Nat) :
    Nat → Except JournalError (FilteredPage × Publisher)
  | 0 => start.readEvents settings sizes true envelope none (limits 0)
  | n + 1 => do
    let (previous, p) ← followFiltered settings sizes start between envelope limits n
    (p.run settings (between n)).readEvents settings sizes true envelope (some previous.checkpoint) (limits (n + 1))

/-- Steps that add to the journal and leave the derived view alone. -/
def SourceSteps (steps : List PublisherStep) : Prop :=
  ∀ s ∈ steps, (∃ event, s = .append event) ∨ ∃ event, s = .report event

/-- The journal of a publisher grows by one event or report at most. -/
theorem Publisher.step_source {settings : Settings} {p q : Publisher} {s : PublisherStep}
    (hs : p.step settings s = .ok q) :
    q.source = p.source ∨ (∃ event, append settings p.source event = .ok q.source) ∨
      ∃ event eventId, appendCommandResult settings p.source event = .ok (q.source, eventId) := by
  have hrecord : ∀ {p q : Publisher} {eventType data envelope},
      p.record settings eventType data envelope = .ok q → ∃ event, Journal.append settings p.source event = .ok q.source := by
    intro p q eventType data envelope h
    obtain ⟨source, ha, rfl⟩ := map_ok.mp h
    exact ⟨_, ha⟩
  cases s with
  | append event =>
    obtain ⟨source, ha, rfl⟩ := map_ok.mp hs
    exact .inr (.inl ⟨event, ha⟩)
  | report event =>
    obtain ⟨⟨source, eventId⟩, ha, rfl⟩ := map_ok.mp hs
    exact .inr (.inr ⟨event, eventId, ha⟩)
  | «open» =>
    cases hs
    exact .inl rfl
  | «export» =>
    cases hs
    exact .inl rfl
  | publish publicationId publishedAt envelope =>
    simp only [Publisher.step] at hs
    cases hr : p.refresh with
    | none =>
      rw [hr] at hs
      cases hs
    | some r =>
      simp only [hr, bind_ok, pure_eq_ok] at hs
      obtain ⟨view, hp, hs⟩ := hs
      cases he : p.lastError with
      | none =>
        rw [he] at hs
        cases hs
        exact .inl rfl
      | some e =>
        simp only [he] at hs
        split at hs
        · cases hs
          exact .inl rfl
        · next q' hrec =>
          cases hs
          obtain ⟨event, ha⟩ := hrecord hrec
          exact .inr (.inl ⟨event, ha⟩)
  | publishUnchecked publicationId publishedAt =>
    simp only [Publisher.step] at hs
    cases hr : p.refresh with
    | none =>
      rw [hr] at hs
      cases hs
    | some r =>
      simp only [hr, bind_ok, pure_eq_ok] at hs
      obtain ⟨view, hp, hs⟩ := hs
      cases hs
      exact .inl rfl
  | rollback =>
    cases hs
    exact .inl rfl
  | reportFailure errorType message envelope =>
    simp only [Publisher.step, Publisher.reportRefreshFailure] at hs
    split at hs
    · cases hs
      exact .inl rfl
    · obtain ⟨q', hrec, rfl⟩ := map_ok.mp hs
      obtain ⟨event, ha⟩ := hrecord hrec
      exact .inr (.inl ⟨event, ha⟩)

theorem Publisher.next_readable {settings : Settings} {p : Publisher} (h : p.source.Readable settings)
    (s : PublisherStep) : (p.next settings s).source.Readable settings := by
  unfold Publisher.next
  split
  · next q hs =>
    rcases Publisher.step_source hs with he | ⟨event, ha⟩ | ⟨event, eventId, ha⟩
    · rw [he]
      exact h
    · exact (append_readable h ha).1
    · exact (report_readable h ha).1
  · exact h

theorem Publisher.run_readable {settings : Settings} {p : Publisher} (h : p.source.Readable settings)
    (steps : List PublisherStep) : (p.run settings steps).source.Readable settings := by
  induction steps generalizing p with
  | nil => exact h
  | cons s steps ih => exact ih (Publisher.next_readable h s)

/-- A publisher whose publication is current. -/
structure Publishing (settings : Settings) (published : FilteredView) (metadata : FilteredPublication)
    (p : Publisher) : Prop where
  sound : p.Sound settings
  readable : p.source.Readable settings
  view : p.view = published
  publication : published.publication = some metadata
  healthy : p.lastError = none

theorem Publishing.run {settings : Settings} {published : FilteredView} {metadata : FilteredPublication}
    {p : Publisher} (h : Publishing settings published metadata p) {steps : List PublisherStep}
    (hs : SourceSteps steps) : Publishing settings published metadata (p.run settings steps) := by
  induction steps generalizing p with
  | nil => exact h
  | cons s steps ih =>
    refine ih ?_ (fun t ht => hs t (List.mem_cons_of_mem _ ht))
    have hkeep : (p.next settings s).view = p.view ∧ (p.next settings s).lastError = p.lastError := by
      unfold Publisher.next
      split
      · next q hq =>
        rcases hs s List.mem_cons_self with ⟨event, rfl⟩ | ⟨event, rfl⟩
        · obtain ⟨source, -, rfl⟩ := map_ok.mp hq
          exact ⟨rfl, rfl⟩
        · obtain ⟨source, -, rfl⟩ := map_ok.mp hq
          exact ⟨rfl, rfl⟩
      · exact ⟨rfl, rfl⟩
    exact ⟨p.next_sound h.sound s, p.next_readable h.readable s, hkeep.1.trans h.view, h.publication,
      hkeep.2.trans h.healthy⟩

/-- The rows of a publication are a whole effective view, in order and below its boundary. -/
structure Published (settings : Settings) (published : FilteredView) (metadata : FilteredPublication)
    (source : EventStore) : Prop where
  identity : (metadata.boundary.journalId, metadata.boundary.generation) = (source.journalId, source.generation)
  view : ∃ j : EventStore, j.Follows source ∧ metadata.boundary = readBoundary j ∧
    effectiveView settings j = .ok published.rows
  ordered : Ordered JournalEntry.cursor published.rows
  derived : DerivedRows settings published.rows
  bounds : ∀ e ∈ published.rows, 0 < e.cursor ∧ e.cursor ≤ metadata.boundary.cursor

theorem derived_author {settings : Settings} {j : EventStore} (h : j.Indexed settings) {r : EventRow}
    (hr : r ∈ j.events) {e : JournalEntry} (hs : shown settings j r = some e) :
    e.provisional = (e.effectiveAuthor == some .participant) := by
  by_cases ht : r.event.eventType = "command.result"
  · obtain ⟨d, st, hd, hl, hrel⟩ := h.owned r hr ht
    rw [shown, effectiveEntry_result ht hd hl hrel] at hs
    simp only at hs
    split at hs
    · obtain rfl := Option.some.inj hs
      have hprec := loaded_precedence hl
      unfold Precedence at hprec
      cases hrunner : st.runner with
      | none =>
        cases hp : st.participant with
        | none => simp [hrunner, hp] at hprec
        | some p =>
          simp only [hrunner, hp] at hprec
          simp [EventRow.withResult, hprec.1]
      | some runner =>
        cases hp : st.participant with
        | none =>
          simp only [hrunner, hp] at hprec
          simp [EventRow.withResult, hprec.1]
        | some p =>
          simp only [hrunner, hp] at hprec
          simp [EventRow.withResult, hprec.1]
    · cases hs
  · rw [shown, effectiveEntry_ordinary ht] at hs
    obtain rfl := Option.some.inj hs
    rfl

theorem Publishing.published {settings : Settings} {view : FilteredView} {metadata : FilteredPublication}
    {p : Publisher} (h : Publishing settings view metadata p) : Published settings view metadata p.source := by
  obtain ⟨j, hj, hf, hb, hrows⟩ := h.sound.published metadata (by rw [h.view, h.publication]; rfl)
  rw [h.view] at hrows
  have hmem : ∀ e ∈ view.rows, ∃ r ∈ j.events, shown settings j r = some e := by
    intro e he
    rw [hrows] at he
    exact mem_viewOf.mp he
  refine ⟨?_, ⟨j, hf, hb, ?_⟩, ?_, ?_, ?_⟩
  · rw [hb, hf.journal.1, hf.journal.2]
    rfl
  · rw [hj.effectiveView_ok, hrows]
  · rw [hrows]
    exact hj.viewOrdered
  · intro e he
    obtain ⟨r, hr, hs⟩ := hmem e he
    refine ⟨?_, derived_author hj.toIndexed hr hs⟩
    rw [(shown_row hs).2]
    exact hj.valid r hr
  · intro e he
    obtain ⟨r, hr, hs⟩ := hmem e he
    obtain ⟨es, hes⟩ := hf.events
    rw [(shown_row hs).1, hb]
    refine ⟨h.readable.positive.1 r (hes ▸ List.mem_append_left _ hr), ?_⟩
    exact le_maxCursor (List.mem_map_of_mem hr)

/-- A page of derived rows: the rows from its position to the next, which moves on while rows are left. -/
theorem readDerivedPage_window {settings : Settings} (sizes : PageSizes) {published : FilteredView}
    {metadata : FilteredPublication} {source : EventStore} (h : Published settings published metadata source)
    {after limit : Nat} (hlimit : 1 ≤ limit) (hafter : after ≤ metadata.boundary.cursor) :
    ∃ upto more, readDerivedPage settings sizes published.rows after limit metadata =
        .ok (window JournalEntry.cursor after upto published.rows, upto, more) ∧
      after ≤ upto ∧ upto ≤ metadata.boundary.cursor ∧ (more = true → after < upto) ∧
      (more = false → upto = metadata.boundary.cursor) := by
  have hrows : DerivedRows settings ((beyond JournalEntry.cursor after published.rows).take (limit + 1)) :=
    fun e he => h.derived e (mem_beyond.mp (List.mem_of_mem_take he)).1
  obtain ⟨front, back, hsplit, hprogress, hlength, hread⟩ :=
    readDerivedRows_front sizes hlimit hrows after [] 0 (Nat.zero_le _)
  have hpage : Page JournalEntry.cursor some published.rows after (front.filterMap some)
      (reached JournalEntry.cursor after front) :=
    Page.of_front h.ordered (beyond_front hsplit) fun hne => hprogress rfl (take_ne_nil (by omega) hne)
  have hfront : front = window JournalEntry.cursor after (reached JournalEntry.cursor after front) published.rows := by
    have hitems := hpage.items
    simpa using hitems
  have htop : reached JournalEntry.cursor after front ≤ metadata.boundary.cursor := by
    rcases hpage.within with he | ⟨e, he, hk⟩
    · rw [he]
      exact hafter
    · rw [← hk]
      exact (h.bounds e he).2
  cases hback : back with
  | nil =>
    -- nothing is left, so the page reaches up to the boundary of the publication
    have hall : beyond JournalEntry.cursor after published.rows = front := by
      rw [hback, List.append_nil] at hsplit
      have hshort : ((beyond JournalEntry.cursor after published.rows).take (limit + 1)).length ≤ limit := by
        rw [hsplit]
        simpa using hlength
      rw [List.length_take] at hshort
      rw [← hsplit]
      exact (List.take_of_length_le (by omega)).symm
    refine ⟨metadata.boundary.cursor, false, ?_, hafter, Nat.le_refl _, by simp, fun _ => rfl⟩
    have hwindow : window JournalEntry.cursor after metadata.boundary.cursor published.rows = front := by
      rw [← hall]
      apply List.filter_congr
      intro e he
      have hle := (h.bounds e he).2
      simp [hle]
    rw [beyond] at hread
    simp only [readDerivedPage, hread, ok_bind, hback, List.isEmpty_nil, Bool.not_true, pure_eq_ok, List.nil_append,
      hwindow]
    rfl
  | cons e rest =>
    have hne : front ≠ [] := by
      apply hprogress rfl
      rw [hsplit, hback]
      exact List.append_ne_nil_of_right_ne_nil _ (List.cons_ne_nil _ _)
    have hmove : after < reached JournalEntry.cursor after front := by
      obtain ⟨x, xs, hx⟩ := List.exists_cons_of_ne_nil hne
      have hin : x ∈ beyond JournalEntry.cursor after published.rows := by
        apply List.mem_of_mem_take
        rw [hsplit, hx]
        exact List.mem_append_left _ List.mem_cons_self
      obtain ⟨hx1, hx2⟩ := mem_beyond.mp hin
      exact hpage.progress x hx1 hx2
    refine ⟨reached JournalEntry.cursor after front, true, ?_, hpage.forward, htop, fun _ => hmove, by simp⟩
    rw [beyond] at hread
    simp only [readDerivedPage, hread, ok_bind, hback, List.isEmpty_cons, Bool.not_false, pure_eq_ok,
      List.nil_append, if_true, ← hfront]

theorem Publishing.current {settings : Settings} {published : FilteredView} {metadata : FilteredPublication}
    {p : Publisher} (h : Publishing settings published metadata p) : p.current true = some metadata := by
  have hid := h.published.identity
  simp only [Prod.mk.injEq] at hid
  simp [Publisher.current, h.healthy, h.view, h.publication, hid.1, hid.2]

/-- A page of a publication that begins at a position. -/
structure FilteredPage.Answers (published : FilteredView) (metadata : FilteredPublication) (after : Nat)
    (page : FilteredPage) : Prop where
  source : page.source = .filtered
  boundary : page.boundary = metadata.boundary
  publicationId : page.publicationId = metadata.publicationId
  events : page.events = window JournalEntry.cursor after page.after published.rows
  forward : after ≤ page.after
  within : page.after ≤ metadata.boundary.cursor
  moves : page.hasMore = true → after < page.after
  last : page.hasMore = false → page.after = metadata.boundary.cursor

/-- A page is answered from the publication, and the publisher is left as it was. -/
theorem Publishing.readEvents {settings : Settings} (sizes : PageSizes) {published : FilteredView}
    {metadata : FilteredPublication} {p : Publisher} (h : Publishing settings published metadata p)
    (envelope : JournalEvent) {checkpoint : Option FilteredCheckpoint} {limit : Nat}
    (hlimit : 1 ≤ limit ∧ limit ≤ 1000)
    (hc : ∀ c ∈ checkpoint, (c.journalId, c.generation) = (metadata.boundary.journalId, metadata.boundary.generation) ∧
      c.publicationId = metadata.publicationId ∧ c.cursor ≤ metadata.boundary.cursor) :
    ∃ page, p.readEvents settings sizes true envelope checkpoint limit = .ok (page, p) ∧
      page.Answers published metadata ((checkpoint.map FilteredCheckpoint.cursor).getD 0) := by
  have hafter : (checkpoint.map FilteredCheckpoint.cursor).getD 0 ≤ metadata.boundary.cursor := by
    cases checkpoint with
    | none => exact Nat.zero_le _
    | some c => exact (hc c rfl).2.2
  have howner : ¬ checkpoint.any (fun c => (c.journalId, c.generation) != (p.source.journalId, p.source.generation))
      = true := by
    cases checkpoint with
    | none => simp
    | some c =>
      have hid := (hc c rfl).1.trans h.published.identity
      simp only [Prod.mk.injEq] at hid
      simp [hid.1, hid.2]
  have hpublication : ¬ checkpoint.any (fun c => c.publicationId != metadata.publicationId) = true := by
    cases checkpoint with
    | none => simp
    | some c => simp [(hc c rfl).2.1]
  obtain ⟨upto, more, hread, hle, htop, hmore, hlast⟩ := readDerivedPage_window sizes h.published hlimit.1 hafter
  refine ⟨⟨window JournalEntry.cursor ((checkpoint.map FilteredCheckpoint.cursor).getD 0) upto published.rows,
    metadata.boundary, upto, more, .filtered, metadata.publicationId⟩, ?_, rfl, rfl, rfl, rfl, hle, htop, hmore, hlast⟩
  have hpage : publicationPage settings sizes published metadata checkpoint limit =
      .ok ⟨window JournalEntry.cursor ((checkpoint.map FilteredCheckpoint.cursor).getD 0) upto published.rows,
        metadata.boundary, upto, more, .filtered, metadata.publicationId⟩ := by
    rw [publicationPage, rejectIf_of_not hpublication, ok_bind]
    simp only [rejectIf_of_not (Nat.not_lt.mpr hafter), ok_bind, hread, pure_eq_ok]
  simp only [Publisher.readEvents, validateLimit, rejectIf_of_not (not_not.mpr hlimit), ok_bind,
    rejectIf_of_not howner, h.current, h.view, hpage, pure_eq_ok]

/-- The publisher when the pages are read, the steps before each of them included. -/
def publishers (settings : Settings) (start : Publisher) (between : Nat → List PublisherStep) : Nat → Publisher
  | 0 => start
  | n + 1 => (publishers settings start between n).run settings (between n)

def filteredCut (page : Nat → FilteredPage) : Nat → Nat
  | 0 => 0
  | n + 1 => (page n).after

/-- No page of a publication is refused while only the journal grows. -/
theorem Publishing.follow {settings : Settings} (sizes : PageSizes) {published : FilteredView}
    {metadata : FilteredPublication} {start : Publisher} (h : Publishing settings published metadata start)
    {between : Nat → List PublisherStep} (hs : ∀ n, SourceSteps (between n)) (envelope : JournalEvent)
    {limits : Nat → Nat} (hlimits : ∀ n, 1 ≤ limits n ∧ limits n ≤ 1000) :
    ∃ page : Nat → FilteredPage, ∀ n, followFiltered settings sizes start between envelope limits n =
        .ok (page n, publishers settings start between n) ∧
      (page n).Answers published metadata (filteredCut page n) := by
  have hpublishing : ∀ n, Publishing settings published metadata (publishers settings start between n) := by
    intro n
    induction n with
    | zero => exact h
    | succ n ih => exact ih.run (hs n)
  have hnext : ∀ n after (page : FilteredPage), page.Answers published metadata after →
      ∃ q, (publishers settings start between (n + 1)).readEvents settings sizes true envelope
          (some page.checkpoint) (limits (n + 1)) = .ok (q, publishers settings start between (n + 1)) ∧
        q.Answers published metadata page.after := by
    intro n after page hpage
    apply (hpublishing (n + 1)).readEvents sizes envelope (hlimits (n + 1))
    intro c hc
    obtain rfl := Option.some.inj hc
    refine ⟨?_, hpage.publicationId, hpage.within⟩
    simp only [FilteredPage.checkpoint, hpage.boundary]
  obtain ⟨first, hfirst, hanswers⟩ : ∃ page, start.readEvents settings sizes true envelope none (limits 0) =
      .ok (page, start) ∧ page.Answers published metadata 0 := by
    apply h.readEvents sizes envelope (hlimits 0)
    intro c hc
    cases hc
  have hstep : ∀ n, ∃ page after, followFiltered settings sizes start between envelope limits n =
      .ok (page, publishers settings start between n) ∧ page.Answers published metadata after := by
    intro n
    induction n with
    | zero => exact ⟨first, 0, hfirst, hanswers⟩
    | succ n ih =>
      obtain ⟨page, after, hread, hpage⟩ := ih
      obtain ⟨q, hq, hqa⟩ := hnext n after page hpage
      refine ⟨q, page.after, ?_, hqa⟩
      rw [followFiltered, hread, ok_bind]
      exact hq
  choose page after hread hpage using hstep
  refine ⟨page, fun n => ⟨hread n, ?_⟩⟩
  cases n with
  | zero =>
    have hsame := (hread 0).symm.trans hfirst
    simp only [Except.ok.injEq, Prod.mk.injEq] at hsame
    rw [hsame.1]
    exact hanswers
  | succ n =>
    obtain ⟨q, hq, hqa⟩ := hnext n (after n) (page n) (hpage n)
    have hsame := hread (n + 1)
    rw [followFiltered, hread n, ok_bind] at hsame
    have hsame := hsame.symm.trans hq
    simp only [Except.ok.injEq, Prod.mk.injEq] at hsame
    rw [hsame.1]
    exact hqa

theorem filtered_collected {published : FilteredView} {metadata : FilteredPublication}
    (hord : Ordered JournalEntry.cursor published.rows) {page : Nat → FilteredPage}
    (h : ∀ n, (page n).Answers published metadata (filteredCut page n)) (n : Nat) :
    ((List.range n).flatMap fun k => (page k).events) =
      window JournalEntry.cursor 0 (filteredCut page n) published.rows := by
  induction n with
  | zero => exact (window_empty _ _).symm
  | succ n ih =>
    rw [List.range_succ, List.flatMap_append, ih, List.flatMap_singleton, (h n).events]
    exact window_append hord (Nat.zero_le _) (h n).forward

theorem filtered_ends {published : FilteredView} {metadata : FilteredPublication} {page : Nat → FilteredPage}
    (h : ∀ n, (page n).Answers published metadata (filteredCut page n)) : ∃ n, (page n).hasMore = false := by
  by_contra hnever
  have hmore : ∀ n, (page n).hasMore = true := by
    intro n
    by_contra hno
    exact hnever ⟨n, eq_false_of_ne_true hno⟩
  have hgrows : ∀ n, n ≤ filteredCut page n := by
    intro n
    induction n with
    | zero => exact Nat.zero_le _
    | succ n ih =>
      have hlt := (h n).moves (hmore n)
      simp only [filteredCut]
      omega
  have h1 := hgrows (metadata.boundary.cursor + 1)
  have h2 := (h metadata.boundary.cursor).within
  simp only [filteredCut] at h1
  omega

/-- The pages of a publication end, and give the effective view that it was made from. -/
theorem Published.complete {settings : Settings} {published : FilteredView} {metadata : FilteredPublication}
    {source : EventStore} (h : Published settings published metadata source) {page : Nat → FilteredPage}
    (hp : ∀ n, (page n).Answers published metadata (filteredCut page n)) {n : Nat}
    (hmore : (page n).hasMore = false) :
    ((List.range (n + 1)).flatMap fun k => (page k).events) = published.rows := by
  rw [filtered_collected h.ordered hp]
  apply List.filter_eq_self.mpr
  intro e he
  have hlast := (hp n).last hmore
  simp only [filteredCut, hlast]
  exact decide_eq_true (h.bounds e he)

end ModularPipelines.Journal
