import ModularPipelines.Journal.ChangeFeed

namespace ModularPipelines.Journal
open Library

theorem writeEntry_succeeds {settings : Settings} {rows : List JournalEntry} {entry : JournalEntry}
    (hv : entry.event.valid settings = true)
    (hc : ∀ e ∈ rows, e.event.eventId ≠ entry.event.eventId → e.cursor ≠ entry.cursor) :
    writeEntry settings rows entry = .ok (insertRow JournalEntry.cursor entry
      (rows.filter (fun e => decide (e.event.eventId ≠ entry.event.eventId)))) := by
  have hfree : ¬ (rows.filter (fun e => decide (e.event.eventId ≠ entry.event.eventId))).any
      (fun e => e.cursor == entry.cursor) = true := by
    intro hany
    obtain ⟨e, he, hcur⟩ := List.any_eq_true.mp hany
    obtain ⟨hmem, hid⟩ := List.mem_filter.mp he
    exact hc e hmem (of_decide_eq_true hid) (beq_iff_eq.mp hcur)
  simp only [writeEntry]
  rw [rejectIf_of_not (by simp [hv]), ok_bind, rejectIf_of_not hfree, ok_bind, pure_eq_ok]

/-- Rows drawn from the events of a journal. -/
def Drawn (j : EventStore) (rows : List JournalEntry) : Prop :=
  ∀ e ∈ rows, ∃ r ∈ j.events, e.cursor = r.cursor ∧ e.event = r.event

theorem viewOf_drawn {settings : Settings} (j : EventStore) : Drawn j (viewOf settings j) := by
  intro e he
  obtain ⟨r, hr, hs⟩ := mem_viewOf.mp he
  exact ⟨r, hr, shown_row hs⟩

theorem Drawn.mono {j j' : EventStore} {rows : List JournalEntry} (he : j.Extends j')
    (h : Drawn j rows) : Drawn j' rows := by
  intro e hmem
  obtain ⟨es, hes⟩ := he
  obtain ⟨r, hr, hrow⟩ := h e hmem
  exact ⟨r, hes ▸ List.mem_append_left _ hr, hrow⟩

/-- Two drawn rows at one cursor are rows of one event. -/
theorem Drawn.cursor_ne {settings : Settings} {j : EventStore} {rows : List JournalEntry}
    {entry : JournalEntry} {r : EventRow} (hj : j.Indexed settings) (h : Drawn j rows) (hr : r ∈ j.events)
    (hcur : entry.cursor = r.cursor) (hev : entry.event = r.event) :
    ∀ e ∈ rows, e.event.eventId ≠ entry.event.eventId → e.cursor ≠ entry.cursor := by
  intro e he hid hc
  obtain ⟨r', hr', hcur', hev'⟩ := h e he
  rw [hcur, hcur'] at hc
  rw [hj.ordered.key_injective hr' hr hc] at hev'
  exact hid (by rw [hev', hev])

theorem applyViewChange_succeeds {settings : Settings} {j : EventStore} {rows : List JournalEntry}
    {c : ChangeRow} {ce : JournalChangeEntry} (hj : j.Indexed settings) (hd : Drawn j rows)
    (hc : decodeChange settings j c = .ok ce) :
    applyViewChange settings rows ce = .ok (applied j rows c) ∧ Drawn j (applied j rows c) := by
  obtain ⟨entry, observed, he, -, hch, rfl⟩ := decodeChange_ok.mp hc
  obtain ⟨hf, hv⟩ := eventEntry_ok.mp he
  have hr := List.mem_of_find?_eq_some hf
  have hid := findEvent_eventId hf
  have happ : applied j rows c = insertRow JournalEntry.cursor
      (entry.withResult c.change.effectiveAuthor c.change.provisional)
      (rows.filter (fun e => decide (e.event.eventId ∉ c.change.relatedEventIds))) := by
    simp only [applied, changeEntry, hf, Option.map_some]
  constructor
  · rw [applyViewChange, writeEntry_succeeds hv, List.filter_filter, happ]
    · congr 2
      apply List.filter_congr
      intro e _
      rw [← Bool.decide_and, decide_eq_decide]
      simp only [EventRow.withResult, hid]
      constructor
      · intro h'
        obtain ⟨hne, hor⟩ := h'
        exact hor.resolve_right hne
      · intro hnot
        refine ⟨?_, .inl hnot⟩
        intro heq
        exact hnot (heq ▸ hch.effectiveRelated)
    · apply Drawn.cursor_ne hj _ hr rfl rfl
      intro e he
      exact hd e (List.mem_filter.mp he).1
  · rw [happ]
    intro e he
    rcases mem_insertRow.mp he with rfl | he
    · exact ⟨entry, hr, rfl, rfl⟩
    · exact hd e (List.mem_filter.mp he).1

/-- Applying a delta line by line is replaying its changes. -/
theorem applyChanges_succeeds {settings : Settings} {j : EventStore} {changes : List ChangeRow}
    {rows : List JournalEntry} {ces : List JournalChangeEntry} (hj : j.Indexed settings)
    (hd : Drawn j rows)
    (hc : List.Forall₂ (fun c ce => decodeChange settings j c = .ok ce) changes ces) :
    ces.foldlM (applyViewChange settings) rows = .ok (replay j rows changes) := by
  induction hc generalizing rows with
  | nil => rfl
  | cons hce _ ih =>
    obtain ⟨hok, hdrawn⟩ := applyViewChange_succeeds hj hd hce
    rw [List.foldlM_cons, hok, ok_bind, ih hdrawn]
    rfl

/-- Writing a whole view in cursor order gives that view. -/
theorem writeEntries_succeed {settings : Settings} {j : EventStore} (rows entries : List JournalEntry)
    (hj : j.Indexed settings) (hd : Drawn j (rows ++ entries))
    (ho : Ordered JournalEntry.cursor (rows ++ entries)) :
    entries.foldlM (writeEntry settings) rows = .ok (rows ++ entries) := by
  induction entries generalizing rows with
  | nil => rw [List.append_nil]; rfl
  | cons entry entries ih =>
    obtain ⟨-, -, hlt⟩ := List.pairwise_append.mp ho
    have hbelow : ∀ e ∈ rows, e.cursor < entry.cursor := fun e he => hlt e he entry List.mem_cons_self
    obtain ⟨r, hr, hcur, hev⟩ := hd entry (List.mem_append_right _ List.mem_cons_self)
    have hids : ∀ e ∈ rows, e.event.eventId ≠ entry.event.eventId := by
      intro e he hid
      obtain ⟨r', hr', hcur', hev'⟩ := hd e (List.mem_append_left _ he)
      rw [hev', hev] at hid
      have hlt := hbelow e he
      rw [hcur', hcur, hj.distinct r' hr' r hr hid] at hlt
      exact lt_irrefl _ hlt
    have hself : rows.filter (fun e => decide (e.event.eventId ≠ entry.event.eventId)) = rows := by
      apply List.filter_eq_self.mpr
      intro e he
      exact decide_eq_true (hids e he)
    rw [List.foldlM_cons, writeEntry_succeeds (hev ▸ hj.valid r hr)
      (fun e he _ => (hbelow e he).ne), hself, insertRow_last hbelow, ok_bind, ih (rows ++ [entry])]
    · rw [List.append_assoc]
      rfl
    · rwa [List.append_assoc]
    · rwa [List.append_assoc]

/-- The derived rows are the view of an earlier state of the journal being read. -/
def BasedOn (settings : Settings) (rows : List JournalEntry) (boundary : JournalReadBoundary)
    (readView : EventStore) : Prop :=
  ∃ j, j.Fed settings ∧ j.Follows readView ∧ boundary = readBoundary j ∧ rows = viewOf settings j

theorem BasedOn.follow {settings : Settings} {rows : List JournalEntry} {boundary : JournalReadBoundary}
    {j j' : EventStore} (h : BasedOn settings rows boundary j) (hf : j.Follows j') :
    BasedOn settings rows boundary j' := by
  obtain ⟨k, hk, hkj, hb, hr⟩ := h
  exact ⟨k, hk, hkj.trans hf, hb, hr⟩

/-- The exported lines turn rows of an earlier view into the exported view. -/
theorem export_applies {settings : Settings} {readView : EventStore} {rows : List JournalEntry}
    {previous : Option FilteredPublication} (hr : readView.Fed settings)
    (hp : ∀ q ∈ previous, BasedOn settings rows q.boundary readView) :
    ∃ source, exportSourceView settings readView previous = .ok source ∧
      source.boundary = readBoundary readView ∧
      applyLines settings rows source.lines = .ok (viewOf settings readView) := by
  cases hneed : needsRebuild previous (readBoundary readView) with
  | true =>
    refine ⟨⟨readBoundary readView, .entries (viewOf settings readView)⟩, ?_, rfl, ?_⟩
    · simp only [exportSourceView, hneed, if_true, hr.effectiveView_ok, ok_bind, pure_eq_ok]
    · rw [applyLines]
      exact writeEntries_succeed [] (viewOf settings readView) hr.toIndexed (viewOf_drawn readView)
        hr.viewOrdered
  | false =>
    cases previous with
    | none => simp [needsRebuild] at hneed
    | some q =>
      obtain ⟨j, hj, hf, hb, rfl⟩ := hp q rfl
      have hafter : q.boundary.changeCursor = j.changeSequence := by
        rw [hb]
        exact hj.top
      have hdecodes : ∀ c ∈ readView.changes.filter (fun c => decide (j.changeSequence < c.changeCursor)),
          ∃ ce, decodeChange settings readView c = .ok ce := by
        intro c hc
        exact hr.decodes c (List.mem_filter.mp hc).1
      obtain ⟨ces, hmap, hall⟩ := mapM_exists hdecodes
      refine ⟨⟨readBoundary readView, .changes ces⟩, ?_, rfl, ?_⟩
      · simp only [exportSourceView, hneed, Option.map_some, Option.getD_some, hafter, hmap, ok_bind,
          pure_eq_ok, Bool.false_eq_true, if_false]
      · rw [applyLines, hf.replay_view hj hr]
        exact applyChanges_succeeds hr.toIndexed ((viewOf_drawn j).mono hf.events) hall

theorem publish_view {settings : Settings} {r : Refresh} {view : FilteredView}
    (hr : r.readView.Fed settings)
    (hp : ∀ q ∈ r.previous, BasedOn settings view.rows q.boundary r.readView)
    (publicationId publishedAt : String) :
    ∃ q : FilteredPublication, r.publish settings view publicationId publishedAt =
        .ok ⟨viewOf settings r.readView, some q⟩ ∧ q.boundary = readBoundary r.readView := by
  obtain ⟨source, hexp, hb, happ⟩ := export_applies hr hp
  simp only [Refresh.publish, hexp, happ, ok_bind, pure_eq_ok]
  exact ⟨_, rfl, hb⟩

/-- What holds of a publisher between two of its steps. -/
structure Publisher.Sound (settings : Settings) (p : Publisher) : Prop where
  fed : p.source.Fed settings
  published : ∀ q ∈ p.view.publication, BasedOn settings p.view.rows q.boundary p.source
  reading : ∀ r ∈ p.refresh, r.readView.Fed settings ∧ r.readView.Follows p.source ∧
    ∀ q ∈ r.previous, BasedOn settings p.view.rows q.boundary r.readView

/-- A step that fails leaves everything as it was. -/
def Publisher.next (settings : Settings) (p : Publisher) (s : PublisherStep) : Publisher :=
  match p.step settings s with
  | .ok q => q
  | .error _ => p

def Publisher.run (settings : Settings) (p : Publisher) (steps : List PublisherStep) : Publisher :=
  steps.foldl (Publisher.next settings) p

theorem create_publisher_sound (settings : Settings) (viewPath journalId generation : String) :
    (Publisher.create viewPath journalId generation).Sound settings := by
  refine ⟨create_fed journalId generation, ?_, ?_⟩
  · intro q hq
    cases hq
  · intro r hr
    cases hr

/-- The journal may grow under a publisher. -/
theorem Publisher.Sound.grow {settings : Settings} {p : Publisher} {source : EventStore}
    (h : p.Sound settings) (hs : source.Fed settings) (hf : p.source.Follows source) :
    ({ p with source := source } : Publisher).Sound settings := by
  refine ⟨hs, ?_, ?_⟩
  · intro q hq
    exact (h.published q hq).follow hf
  · intro r hr
    obtain ⟨h1, h2, h3⟩ := h.reading r hr
    exact ⟨h1, h2.trans hf, h3⟩

theorem Publisher.Sound.setLastError {settings : Settings} {p : Publisher} (h : p.Sound settings)
    (e : Option Json) : ({ p with lastError := e } : Publisher).Sound settings :=
  ⟨h.fed, h.published, h.reading⟩

theorem Publisher.Sound.endRefresh {settings : Settings} {p : Publisher} (h : p.Sound settings) :
    ({ p with refresh := none } : Publisher).Sound settings := by
  refine ⟨h.fed, h.published, ?_⟩
  intro r hr
  cases hr

theorem Publisher.Sound.record {settings : Settings} {p q : Publisher} {eventType : String} {data : Json}
    {envelope : JournalEvent} (h : p.Sound settings)
    (hr : p.record settings eventType data envelope = .ok q) : q.Sound settings ∧ q.view = p.view := by
  obtain ⟨source, ha, rfl⟩ := map_ok.mp hr
  obtain ⟨hfed, hf⟩ := append_fed h.fed ha
  exact ⟨h.grow hfed hf, rfl⟩

/-- The transaction of a refresh leaves the view that its read view calls for. -/
theorem Publisher.Sound.publish {settings : Settings} {p : Publisher} {r : Refresh} {view : FilteredView}
    {publicationId publishedAt : String} (h : p.Sound settings) (hr : p.refresh = some r)
    (hp : r.publish settings p.view publicationId publishedAt = .ok view) :
    ({ p with view := view, refresh := none } : Publisher).Sound settings ∧
      view.rows = viewOf settings r.readView ∧
      ∃ q, view.publication = some q ∧ q.boundary = readBoundary r.readView := by
  obtain ⟨h1, h2, h3⟩ := h.reading r hr
  obtain ⟨q, hq, hb⟩ := publish_view h1 h3 publicationId publishedAt
  rw [hp] at hq
  cases hq
  refine ⟨⟨h.fed, ?_, ?_⟩, rfl, q, rfl, hb⟩
  · intro q' hq'
    obtain rfl := Option.some.inj hq'
    exact ⟨r.readView, h1, h2, hb, rfl⟩
  · intro r' hr'
    cases hr'

theorem Publisher.step_sound {settings : Settings} {p q : Publisher} {s : PublisherStep}
    (h : p.Sound settings) (hs : p.step settings s = .ok q) : q.Sound settings := by
  cases s with
  | append event =>
    obtain ⟨source, ha, rfl⟩ := map_ok.mp hs
    obtain ⟨hfed, hf⟩ := append_fed h.fed ha
    exact h.grow hfed hf
  | report event =>
    obtain ⟨⟨source, eventId⟩, ha, rfl⟩ := map_ok.mp hs
    obtain ⟨hfed, hf⟩ := report_fed h.fed ha
    exact h.grow hfed hf
  | «open» =>
    cases hs
    exact h.endRefresh.setLastError none
  | «export» =>
    cases hs
    refine ⟨h.fed, h.published, ?_⟩
    intro r hr
    obtain rfl := Option.some.inj hr
    refine ⟨h.fed, .refl _, ?_⟩
    intro q hq
    simp only at hq
    split at hq
    · cases hq
    · exact h.published q hq
  | publish publicationId publishedAt envelope =>
    simp only [Publisher.step] at hs
    cases hr : p.refresh with
    | none =>
      rw [hr] at hs
      cases hs
    | some r =>
      simp only [hr, bind_ok, pure_eq_ok] at hs
      obtain ⟨view, hp, hs⟩ := hs
      obtain ⟨hsound, -⟩ := h.publish hr hp
      cases he : p.lastError with
      | none =>
        rw [he] at hs hsound
        cases hs
        exact hsound
      | some e =>
        rw [he] at hsound
        simp only [he] at hs
        split at hs
        · cases hs
          exact hsound
        · next q' hrec =>
          cases hs
          exact (hsound.record hrec).1.setLastError none
  | publishUnchecked publicationId publishedAt =>
    simp only [Publisher.step] at hs
    cases hr : p.refresh with
    | none =>
      rw [hr] at hs
      cases hs
    | some r =>
      simp only [hr, bind_ok, pure_eq_ok] at hs
      obtain ⟨view, hp, hs⟩ := hs
      cases hs
      exact (h.publish hr hp).1
  | rollback =>
    cases hs
    exact h.endRefresh
  | reportFailure errorType message envelope =>
    simp only [Publisher.step, Publisher.reportRefreshFailure] at hs
    split at hs
    · cases hs
      exact h
    · obtain ⟨q', hrec, rfl⟩ := map_ok.mp hs
      exact (h.record hrec).1.setLastError _

theorem Publisher.next_sound {settings : Settings} {p : Publisher} (h : p.Sound settings)
    (s : PublisherStep) : (p.next settings s).Sound settings := by
  unfold Publisher.next
  split
  · next q hs => exact Publisher.step_sound h hs
  · exact h

theorem Publisher.run_sound {settings : Settings} {p : Publisher} (h : p.Sound settings)
    (steps : List PublisherStep) : (p.run settings steps).Sound settings := by
  induction steps generalizing p with
  | nil => exact h
  | cons s steps ih => exact ih (Publisher.next_sound h s)

theorem Publisher.run_snoc (settings : Settings) (p : Publisher) (steps : List PublisherStep)
    (s : PublisherStep) : p.run settings (steps ++ [s]) = (p.run settings steps).next settings s :=
  List.foldl_append

theorem Publisher.record_refresh {settings : Settings} {p q : Publisher} {eventType : String} {data : Json}
    {envelope : JournalEvent} (h : p.record settings eventType data envelope = .ok q) :
    q.refresh = p.refresh := by
  obtain ⟨source, -, rfl⟩ := map_ok.mp h
  rfl

/-- A refresh begins with an export; every other step keeps it or ends it. -/
theorem Publisher.step_refresh {settings : Settings} {p q : Publisher} {s : PublisherStep}
    (hs : p.step settings s = .ok q) :
    q.refresh = none ∨ q.refresh = p.refresh ∨
      (s = .export ∧ ∃ r, q.refresh = some r ∧ r.readView = p.source) := by
  cases s with
  | append event =>
    obtain ⟨source, -, rfl⟩ := map_ok.mp hs
    exact .inr (.inl rfl)
  | report event =>
    obtain ⟨result, -, rfl⟩ := map_ok.mp hs
    exact .inr (.inl rfl)
  | «open» =>
    cases hs
    exact .inl rfl
  | «export» =>
    cases hs
    exact .inr (.inr ⟨rfl, _, rfl, rfl⟩)
  | publish publicationId publishedAt envelope =>
    simp only [Publisher.step] at hs
    cases hr : p.refresh with
    | none =>
      rw [hr] at hs
      cases hs
    | some r =>
      simp only [hr, bind_ok, pure_eq_ok] at hs
      obtain ⟨view, -, hs⟩ := hs
      split at hs
      · cases hs
        exact .inl rfl
      · split at hs
        · cases hs
          exact .inl rfl
        · next q' hrec =>
          cases hs
          exact .inl (Publisher.record_refresh hrec)
  | publishUnchecked publicationId publishedAt =>
    simp only [Publisher.step] at hs
    cases hr : p.refresh with
    | none =>
      rw [hr] at hs
      cases hs
    | some r =>
      simp only [hr, bind_ok, pure_eq_ok] at hs
      obtain ⟨view, -, hs⟩ := hs
      cases hs
      exact .inl rfl
  | rollback =>
    cases hs
    exact .inl rfl
  | reportFailure errorType message envelope =>
    simp only [Publisher.step, Publisher.reportRefreshFailure] at hs
    split at hs
    · cases hs
      exact .inr (.inl rfl)
    · obtain ⟨q', hrec, rfl⟩ := map_ok.mp hs
      have hkept : q'.refresh = p.refresh := Publisher.record_refresh hrec
      exact .inr (.inl hkept)

theorem Publisher.next_refresh (settings : Settings) (p : Publisher) (s : PublisherStep) :
    (p.next settings s).refresh = none ∨ (p.next settings s).refresh = p.refresh ∨
      (s = .export ∧ ∃ r, (p.next settings s).refresh = some r ∧ r.readView = p.source) := by
  unfold Publisher.next
  cases hs : p.step settings s with
  | error e => exact .inr (.inl rfl)
  | ok q => exact Publisher.step_refresh hs

/-- The read view of a refresh is the journal as it was when its export began. -/
theorem Publisher.readView_exported {settings : Settings} {p : Publisher} (hp : p.refresh = none)
    {steps : List PublisherStep} {r : Refresh} (hr : (p.run settings steps).refresh = some r) :
    ∃ before after, steps = before ++ .export :: after ∧ r.readView = (p.run settings before).source := by
  induction steps using List.reverseRecOn with
  | nil =>
    rw [Publisher.run, List.foldl_nil, hp] at hr
    cases hr
  | append_singleton steps s ih =>
    rw [Publisher.run_snoc] at hr
    rcases Publisher.next_refresh settings (p.run settings steps) s with hn | hn | ⟨rfl, r', hn, hv⟩
    · rw [hn] at hr
      cases hr
    · rw [hn] at hr
      obtain ⟨before, after, rfl, hv⟩ := ih hr
      exact ⟨before, after ++ [s], by simp, hv⟩
    · rw [hn] at hr
      cases hr
      exact ⟨steps, [], rfl, hv⟩

/-- A step that publishes leaves the view it published. -/
theorem Publisher.publish_rows {settings : Settings} {p q : Publisher} (h : p.Sound settings)
    {publicationId publishedAt : String} {envelope : JournalEvent}
    (hs : p.step settings (.publish publicationId publishedAt envelope) = .ok q) :
    ∃ r, p.refresh = some r ∧ effectiveView settings r.readView = .ok q.view.rows ∧
      ∃ published, q.view.publication = some published ∧ published.boundary = readBoundary r.readView := by
  simp only [Publisher.step] at hs
  cases hr : p.refresh with
  | none =>
    rw [hr] at hs
    cases hs
  | some r =>
    simp only [hr, bind_ok, pure_eq_ok] at hs
    obtain ⟨view, hp, hs⟩ := hs
    obtain ⟨hsound, hrows, hpub⟩ := h.publish hr hp
    have hq : q.view = view := by
      cases he : p.lastError with
      | none =>
        rw [he] at hs
        cases hs
        rfl
      | some e =>
        rw [he] at hsound
        simp only [he] at hs
        split at hs
        · cases hs
          rfl
        · next q' hrec =>
          cases hs
          exact (hsound.record hrec).2
    refine ⟨r, rfl, ?_, ?_⟩
    · rw [(h.reading r hr).1.effectiveView_ok, hq, hrows]
    · rw [hq]
      exact hpub

theorem Publisher.publish_succeeds {settings : Settings} {p : Publisher} {r : Refresh}
    (h : p.Sound settings) (hr : p.refresh = some r) (publicationId publishedAt : String)
    (envelope : JournalEvent) :
    ∃ q, p.step settings (.publish publicationId publishedAt envelope) = .ok q := by
  obtain ⟨h1, -, h3⟩ := h.reading r hr
  obtain ⟨published, hp, -⟩ := publish_view h1 h3 publicationId publishedAt
  simp only [Publisher.step, hr, hp, ok_bind]
  split
  · exact ⟨_, rfl⟩
  · split
    · exact ⟨_, rfl⟩
    · exact ⟨_, rfl⟩

/-- After every run of appends, reports, failed and successful refreshes: the derived
rows are the effective view of the journal at the published boundary, each publication
shows the journal its export has read, and no publication is refused for its content. -/
theorem filtered_view_complete (settings : Settings) (viewPath journalId generation : String)
    (steps : List PublisherStep) :
    let start := Publisher.create viewPath journalId generation
    let p := start.run settings steps
    (∀ published ∈ p.view.publication, ∃ j : EventStore, j.Follows p.source ∧
      published.boundary = readBoundary j ∧ effectiveView settings j = .ok p.view.rows) ∧
    (∀ publicationId publishedAt envelope q,
      p.step settings (.publish publicationId publishedAt envelope) = .ok q →
      ∃ r, p.refresh = some r ∧
        (∃ before after, steps = before ++ .export :: after ∧
          r.readView = (start.run settings before).source) ∧
        effectiveView settings r.readView = .ok q.view.rows ∧
        ∃ published, q.view.publication = some published ∧
          published.boundary = readBoundary r.readView) ∧
    (∀ r, p.refresh = some r → ∀ publicationId publishedAt envelope,
      ∃ q, p.step settings (.publish publicationId publishedAt envelope) = .ok q) := by
  intro start p
  have hp : p.Sound settings :=
    Publisher.run_sound (create_publisher_sound settings viewPath journalId generation) steps
  refine ⟨?_, ?_, ?_⟩
  · intro published hpub
    obtain ⟨j, hj, hf, hb, hr⟩ := hp.published published hpub
    exact ⟨j, hf, hb, by rw [hj.effectiveView_ok, hr]⟩
  · intro publicationId publishedAt envelope q hs
    obtain ⟨r, hr, hview, hpub⟩ := Publisher.publish_rows hp hs
    exact ⟨r, hr, Publisher.readView_exported rfl hr, hview, hpub⟩
  · intro r hr publicationId publishedAt envelope
    exact Publisher.publish_succeeds hp hr publicationId publishedAt envelope

end ModularPipelines.Journal
