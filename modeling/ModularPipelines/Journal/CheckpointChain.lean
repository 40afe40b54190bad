import ModularPipelines.Journal.CheckpointIds
import ModularPipelines.Library.Outcome

namespace ModularPipelines.Journal.CheckpointIds
open Library

theorem asStrings_ofStrings (ids : List String) : asStrings (ofStrings ids) = some ids := by
  simp only [asStrings, ofStrings]
  induction ids with
  | nil => rfl
  | cons s ids ih => simp [List.mapM_cons, asString, ih]

theorem eq_ofStrings {j : Json} {ids : List String} (h : asStrings j = some ids) :
    j = ofStrings ids := by
  cases j with
  | arr xs =>
    simp only [asStrings] at h
    simp only [ofStrings, Json.arr.injEq]
    induction xs generalizing ids with
    | nil => simp at h; simp [← h]
    | cons x xs ih =>
      simp only [List.mapM_cons, Option.bind_eq_bind, Option.bind_eq_some_iff, Option.pure_def,
        Option.some.injEq] at h
      obtain ⟨s, hs, rest, hrest, rfl⟩ := h
      cases x <;> simp [asString] at hs
      simp [hs, ih hrest]
  | _ => simp [asStrings] at h

theorem sortedUnique_pairwise {ids : List String} (h : sortedUnique ids = true) :
    ids.Pairwise (· < ·) := by
  induction ids with
  | nil => exact List.Pairwise.nil
  | cons a ids ih =>
    cases ids with
    | nil => simp
    | cons b ids =>
      simp only [sortedUnique, List.tail_cons, List.zip_cons_cons, List.all_cons,
        Bool.and_eq_true, decide_eq_true_eq] at h
      have ht : (b :: ids).Pairwise (· < ·) := ih (by simpa [sortedUnique] using h.2)
      refine List.pairwise_cons.mpr ⟨?_, ht⟩
      intro c hc
      rcases List.mem_cons.mp hc with rfl | hc
      · exact h.1
      · exact h.1.trans (List.rel_of_pairwise_cons ht hc)

/-- An ordered array without repetitions is the sorted listing of its set. -/
theorem sort_toFinset_of_sorted {ids : List String} (h : sortedUnique ids = true) :
    ids.toFinset.sort (· ≤ ·) = ids := by
  have hp := sortedUnique_pairwise h
  have hn : ids.Nodup := hp.imp (fun hlt => ne_of_lt hlt)
  exact (List.toFinset_sort (· ≤ ·) hn).mpr (hp.imp (fun hlt => le_of_lt hlt))

theorem card_of_sorted {ids : List String} (h : sortedUnique ids = true) :
    ids.toFinset.card = ids.length :=
  List.toFinset_card_of_nodup ((sortedUnique_pairwise h).imp (fun hlt => ne_of_lt hlt))

/-- Later rows are appended; rows already stored keep their place. -/
structure Extends (db db' : Database) : Prop where
  events : ∃ e, db'.events = db.events ++ e
  histories : ∃ h, db'.histories = db.histories ++ h

theorem find_of_extends {α : Type} {p : α → Bool} {xs ys : List α} {x : α}
    (h : xs.find? p = some x) : (xs ++ ys).find? p = some x := by
  simp [List.find?_append, h]

theorem readHistory_mono (he : Extends db db') (h : readHistory db eid = .ok r) :
    readHistory db' eid = .ok r := by
  obtain ⟨e, hev⟩ := he.events
  obtain ⟨hs, hhi⟩ := he.histories
  unfold readHistory at h ⊢
  rw [hhi, hev]
  cases hf : db.histories.find? (fun h => h.fields.eventId == eid) with
  | none => simp [hf] at h
  | some row =>
    simp only [hf, find_of_extends hf, bind_ok] at h ⊢
    obtain ⟨history, hrow, h⟩ := h
    refine ⟨history, hrow, ?_⟩
    cases hg : db.events.find? (fun e => e.eventId == eid) with
    | none => simp [hg] at h
    | some event => simpa only [hg, find_of_extends hg] using h

theorem ancestors_mono (he : Extends db db') (h : ancestors db n history cursor = .ok chain) :
    ancestors db' n history cursor = .ok chain := by
  induction n generalizing history cursor chain with
  | zero =>
    unfold ancestors at h ⊢
    split <;> simp_all
  | succ n ih =>
    unfold ancestors at h ⊢
    cases hb : history.baseEventId with
    | none => simpa [hb] using h
    | some base =>
      simp only [hb, bind_ok] at h ⊢
      obtain ⟨⟨parent, row⟩, hread, h⟩ := h
      refine ⟨(parent, row), readHistory_mono he hread, ?_⟩
      split at h
      · cases h
      · rename_i hok
        simp only [bind_ok] at h
        obtain ⟨rest, hrest, h⟩ := h
        simp only [hok, if_false, bind_ok]
        exact ⟨rest, ih hrest, h⟩

theorem reconstructIds_mono (he : Extends db db')
    (h : reconstructIds db history cursor = .ok ids) :
    reconstructIds db' history cursor = .ok ids := by
  simp only [reconstructIds, bind_ok] at h ⊢
  obtain ⟨chain, hc, h⟩ := h
  exact ⟨chain, ancestors_mono he hc, h⟩

/-- Everything a successful reading of a compact row establishes. -/
theorem reconstructEvent_compact {sha256 : String → String}
    (hp : row.payloadEncoding = .checkpointIds) :
    reconstructEvent sha256 db row = .ok encoded ↔
      ∃ history ids event data, readHistory db row.eventId = .ok (history, row) ∧
        reconstructIds db history row.cursor = .ok ids ∧
        Json.loads row.eventJson = some event ∧ event.get? "data" = some data ∧
        encoded = Json.dumps (event.set "data" (data.set "used_request_ids" (ofStrings ids))) ∧
        sha256 encoded = history.eventSha256 := by
  simp only [reconstructEvent, hp, mapError_ok, bind_ok]
  constructor
  · rintro ⟨⟨history, stored⟩, hread, h⟩
    simp only at h
    split at h
    · cases h
    · rename_i hstored
      have hstored : stored = row := by simpa using hstored
      subst hstored
      simp only [bind_ok] at h
      obtain ⟨ids, hids, h⟩ := h
      cases hl : Json.loads stored.eventJson with
      | none => simp [hl] at h
      | some event =>
        cases hd : event.get? "data" with
        | none => simp [hl, hd] at h
        | some data =>
          simp only [hl, hd] at h
          split at h
          · cases h
          · rename_i hsha
            cases h
            exact ⟨history, ids, event, data, hread, hids, rfl, hd, rfl, by simpa using hsha⟩
  · rintro ⟨history, ids, event, data, hread, hids, hl, hd, rfl, hsha⟩
    refine ⟨(history, row), hread, ?_⟩
    simp [hids, hl, hd, hsha]

theorem reconstructEvent_mono {sha256 : String → String} (he : Extends db db')
    (h : reconstructEvent sha256 db row = .ok encoded) :
    reconstructEvent sha256 db' row = .ok encoded := by
  cases hp : row.payloadEncoding with
  | json => simpa [reconstructEvent, hp] using h
  | checkpointIds =>
    rw [reconstructEvent_compact hp] at h ⊢
    obtain ⟨history, ids, event, data, hread, hids, rest⟩ := h
    exact ⟨history, ids, event, data, readHistory_mono he hread, reconstructIds_mono he hids, rest⟩

theorem make_ok {f : HistoryFields} {history : CheckpointIdHistory}
    (h : CheckpointIdHistory.make f = .ok history) : history.toHistoryFields = f := by
  unfold CheckpointIdHistory.make at h
  split at h
  · cases h; rfl
  · cases h

theorem historyFromRow_fields (h : historyFromRow row = .ok history) :
    ∃ ids, history.toHistoryFields = { row.fields with ids := ids } := by
  unfold historyFromRow at h
  split at h
  · exact ⟨_, make_ok h⟩
  · cases h

/-- What a successful read of one history entry establishes. -/
theorem readHistory_ok (h : readHistory db eid = .ok (history, event)) :
    ∃ row, db.histories.find? (fun h => h.fields.eventId == eid) = some row ∧
      historyFromRow row = .ok history ∧
      db.events.find? (fun e => e.eventId == eid) = some event ∧
      event.cursor = row.eventCursor ∧ event.payloadEncoding = .checkpointIds := by
  unfold readHistory at h
  cases hf : db.histories.find? (fun h => h.fields.eventId == eid) with
  | none => simp [hf] at h
  | some row =>
    simp only [hf, bind_ok] at h
    obtain ⟨found, hrow, h⟩ := h
    cases hg : db.events.find? (fun e => e.eventId == eid) with
    | none => simp [hg] at h
    | some stored =>
      simp only [hg] at h
      split at h
      · cases h
      · rename_i hc
        simp only [not_or, not_not] at hc
        cases hl : Json.loads stored.eventJson with
        | none => simp [hl] at h
        | some document =>
          simp only [hl, bind_ok] at h
          obtain ⟨_, _, h⟩ := h
          cases h
          exact ⟨row, rfl, hrow, rfl, hc.1, hc.2⟩

theorem find_eventId {id : String} {e : StoredEvent} {es : List StoredEvent}
    (h : es.find? (fun e => e.eventId == id) = some e) : e ∈ es ∧ e.eventId = id :=
  ⟨List.mem_of_find?_eq_some h, by simpa using List.find?_some h⟩

theorem find_historyId {id : String} {r : HistoryRow} {rs : List HistoryRow}
    (h : rs.find? (fun h => h.fields.eventId == id) = some r) : r ∈ rs ∧ r.fields.eventId = id :=
  ⟨List.mem_of_find?_eq_some h, by simpa using List.find?_some h⟩

theorem newest_mem (h : newest rows = some row) : row ∈ rows := by
  induction rows generalizing row with
  | nil => simp [newest] at h
  | cons r rows ih =>
    unfold newest at h
    cases hn : newest rows with
    | none => simp [hn] at h; simp [h]
    | some best =>
      simp only [hn] at h
      split at h <;> cases h
      · simp
      · exact List.mem_cons_of_mem _ (ih hn)

/-- The earlier entry that a chosen delta extends. -/
structure DeltaBase (sha256 : String → String) (db : Database) (payload : CheckpointIdsInput)
    (eventType : CheckpointType) (base : CheckpointIdHistory) (added : List String) : Prop where
  inScope : ∃ row ∈ db.histories, row.fields.eventId = base.eventId ∧
    row.fields.scope = ⟨payload.experimentId, payload.runId, eventType, db.generation⟩
  bounded : base.depth ≠ 31
  additions : ∃ baseRow original previous, readHistory db base.eventId = .ok (base, baseRow) ∧
    reconstructEvent sha256 db baseRow = .ok original ∧
    usedRequestIds original = .ok previous ∧
    previous.toFinset ⊆ payload.usedRequestIds.toFinset ∧
    added = (payload.usedRequestIds.toFinset \ previous.toFinset).sort (· ≤ ·)

theorem selectRequestIdDelta_ok {sha256 : String → String} {choice : List String × Option String × Nat}
    (h : selectRequestIdDelta sha256 db payload eventType = .ok choice) :
    choice = (payload.usedRequestIds, none, 0) ∨
    ∃ base added, choice = (added, some base.eventId, base.depth + 1) ∧
      DeltaBase sha256 db payload eventType base added := by
  unfold selectRequestIdDelta at h
  simp only at h
  split at h
  · left; cases h; rfl
  · rename_i row hn
    have hm := newest_mem hn
    obtain ⟨hmem, hscope⟩ := List.mem_filter.mp hm
    simp only [bind_ok] at h
    obtain ⟨⟨base, baseRow⟩, hread, h⟩ := h
    simp only at h
    split at h
    · left; cases h; rfl
    · rename_i hdepth
      simp only [bind_ok] at h
      obtain ⟨original, horig, previous, hprev, h⟩ := h
      split at h
      · left; cases h; rfl
      · rename_i hsub
        split at h
        · left; cases h; rfl
        · cases h
          right
          obtain ⟨found, hfind, hfrom, _⟩ := readHistory_ok hread
          obtain ⟨ids, hfields⟩ := historyFromRow_fields hfrom
          have hid : base.eventId = row.fields.eventId := by
            rw [hfields]
            exact (find_historyId hfind).2
          refine ⟨base, _, rfl, ⟨row, hmem, hid.symm, by simpa using hscope⟩, hdepth,
            baseRow, original, previous, hid ▸ hread, horig, hprev, ?_, rfl⟩
          simpa using hsub

end ModularPipelines.Journal.CheckpointIds
