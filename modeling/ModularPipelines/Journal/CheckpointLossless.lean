import ModularPipelines.Journal.CheckpointChain

namespace ModularPipelines.Journal.CheckpointIds
open Library

/-- A packed checkpoint: its history holds the full array or a chosen delta, and
only the array is missing from the stored text. -/
structure PackedAs (sha256 : String → String) (db : Database) (event : Json) (encoded stored : String)
    (history : CheckpointIdHistory) : Prop where
  source : ∃ data payload choice, event.get? "data" = some data ∧
    CheckpointIdsInput.validate data = some payload ∧
    textField "event_type" event = .ok history.eventType.text ∧
    textField "event_id" event = .ok history.eventId ∧
    selectRequestIdDelta sha256 db payload history.eventType = .ok choice ∧
    stored = Json.dumps (event.set "data" (data.set "used_request_ids" (.arr []))) ∧
    history.experimentId = payload.experimentId ∧ history.runId = payload.runId ∧
    history.generation = db.generation ∧
    choice = (history.ids, history.baseEventId, history.depth) ∧
    history.itemCount = payload.usedRequestIds.length
  canonical : Json.dumps event = encoded
  checksum : history.eventSha256 = sha256 encoded

theorem CheckpointType.read_text {s : String} {t : CheckpointType}
    (h : CheckpointType.read s = some t) : s = t.text := by
  unfold CheckpointType.read at h
  split at h
  · cases h; assumption
  · split at h
    · cases h; assumption
    · cases h

theorem CheckpointType.text_read (t : CheckpointType) : CheckpointType.read t.text = some t := by
  cases t <;> rfl

theorem prepareCheckpoint_ok {sha256 : String → String}
    (h : prepareCheckpoint sha256 db event encoded = .ok (stored, history)) :
    (history = none ∧ stored = encoded) ∨
    ∃ packed, history = some packed ∧ PackedAs sha256 db event encoded stored packed := by
  unfold prepareCheckpoint at h
  simp only [bind_ok] at h
  obtain ⟨kind, hkind, h⟩ := h
  cases hr : CheckpointType.read kind with
  | none => simp only [hr] at h; cases h; exact .inl ⟨rfl, rfl⟩
  | some eventType =>
    cases hd : event.get? "data" with
    | none => simp [hr, hd] at h
    | some data =>
      simp only [hr, hd] at h
      cases hv : CheckpointIdsInput.validate data with
      | none => simp only [hv] at h; cases h; exact .inl ⟨rfl, rfl⟩
      | some payload =>
        simp only [hv] at h
        split at h
        · cases h; exact .inl ⟨rfl, rfl⟩
        · rename_i hcanon
          simp only [bind_ok] at h
          obtain ⟨⟨ids, base, depth⟩, hselect, eventId, hid, packed, hmake, h⟩ := h
          cases h
          have hf := make_ok hmake
          have hk := CheckpointType.read_text hr
          refine .inr ⟨packed, rfl, ⟨data, payload, (ids, base, depth), hd, hv, ?_, ?_, ?_, rfl, ?_⟩,
            by simpa using hcanon, by rw [hf]⟩
          · rw [hf, hkind, hk]
          · rw [hf, hid]
          · rw [hf, hselect]
          · rw [hf]
            exact ⟨rfl, rfl, rfl, rfl, rfl⟩

/-- The row appended by a successful insertion. -/
theorem insertStoredEvent_ok {sha256 : String → String}
    (h : insertStoredEvent sha256 db event encoded = .ok db') :
    ∃ row stored history, prepareCheckpoint sha256 db event encoded = .ok (stored, history) ∧
      textField "event_id" event = .ok row.eventId ∧
      row.eventJson = stored ∧ row.cursor = db.eventSequence + 1 ∧
      row.payloadEncoding = (if history.isNone then .json else .checkpointIds) ∧
      (∀ e ∈ db.events, e.eventId ≠ row.eventId) ∧
      db'.generation = db.generation ∧ db'.eventSequence = db.eventSequence + 1 ∧
      db'.events = db.events ++ [row] ∧
      match history with
      | none => db'.histories = db.histories
      | some packed => (∀ h ∈ db.histories, h.fields.eventId ≠ packed.eventId) ∧
        db'.histories = db.histories ++
          [⟨packed.toHistoryFields, Json.dumps (ofStrings packed.ids), row.cursor⟩] := by
  unfold insertStoredEvent at h
  simp only [bind_ok] at h
  obtain ⟨⟨stored, history⟩, hprep, eventId, hid, producer, _, h⟩ := h
  simp only at h
  split at h
  · rename_i n _
    simp only [bind_ok] at h
    obtain ⟨⟨mid, cursor⟩, hins, h⟩ := h
    unfold insertEvent at hins
    split at hins
    · cases hins
    · rename_i hfree
      cases hins
      simp only [not_or, List.any_eq_true, beq_iff_eq, not_exists, not_and] at hfree
      refine ⟨⟨db.eventSequence + 1, eventId, producer, n.toNat, stored, _⟩, stored, history, hprep,
        hid, rfl, rfl, rfl, hfree.2.1, ?_⟩
      cases history with
      | none =>
        simp only at h
        cases h
        exact ⟨rfl, rfl, rfl, rfl⟩
      | some packed =>
        simp only [insertHistory] at h
        split at h
        · cases h
        · rename_i hnew
          cases h
          simp only [not_or, List.any_eq_true, Bool.or_eq_true, beq_iff_eq, not_exists, not_and] at hnew
          exact ⟨rfl, rfl, rfl, fun r hr he => (hnew.1 r hr).1 he, rfl⟩
  · cases h

theorem validate_ids {data : Json} {payload : CheckpointIdsInput}
    (h : CheckpointIdsInput.validate data = some payload) :
    data.get? "used_request_ids" = some (ofStrings payload.usedRequestIds) ∧
      sortedRequestIds payload.usedRequestIds = true := by
  simp only [CheckpointIdsInput.validate, Option.bind_eq_bind, Option.bind_eq_some_iff] at h
  obtain ⟨version, _, experimentId, _, runId, _, ids, ⟨used, hused, hids⟩, h⟩ := h
  split at h
  · rename_i hc
    cases h
    exact ⟨by rw [hused, eq_ofStrings hids], hc.2.2.2⟩
  · cases h

/-- Emptying the array keeps checkpoint data eligible, under the same identity. -/
theorem validate_emptied {data : Json} {payload : CheckpointIdsInput}
    (h : CheckpointIdsInput.validate data = some payload) :
    CheckpointIdsInput.validate (data.set "used_request_ids" (.arr [])) =
      some { payload with usedRequestIds := [] } := by
  have hobj := Json.isObj_of_get (validate_ids h).1
  simp only [CheckpointIdsInput.validate, Option.bind_eq_bind, Option.bind_eq_some_iff] at h ⊢
  obtain ⟨version, hversion, experimentId, hexp, runId, hrun, ids, _, h⟩ := h
  have hne (key : String) (hk : key ≠ "used_request_ids") :
      (data.set "used_request_ids" (.arr [])).get? key = data.get? key :=
    Json.get_set_ne hk _ _
  refine ⟨version, by rw [hne _ (by decide)]; exact hversion, experimentId,
    by rw [hne _ (by decide)]; exact hexp, runId, by rw [hne _ (by decide)]; exact hrun, [],
    ⟨.arr [], Json.get_set_self hobj, rfl⟩, ?_⟩
  split at h
  · rename_i hc
    cases h
    simp [hc.1, hc.2.1, hc.2.2.1, sortedRequestIds, sortedUnique]
  · cases h

theorem historyFromRow_stored (history : CheckpointIdHistory) (cursor : Nat) :
    historyFromRow ⟨history.toHistoryFields, Json.dumps (ofStrings history.ids), cursor⟩ =
      .ok history := by
  simp [historyFromRow, asStrings_ofStrings, CheckpointIdHistory.make, history.ok]

theorem find_append_new {α : Type} {p : α → Bool} {xs : List α} {x : α}
    (hx : ∀ y ∈ xs, p y = false) (hp : p x = true) : (xs ++ [x]).find? p = some x := by
  have hnone : xs.find? p = none := List.find?_eq_none.mpr (fun y hy => by simp [hx y hy])
  simp [List.find?_append, hnone, hp]

/-- The envelope just stored for a history is the one its reader requires. -/
theorem readHistory_inserted {sha256 : String → String}
    (hp : PackedAs sha256 db event encoded row.eventJson history)
    (hrow : row.eventId = history.eventId) (henc : row.payloadEncoding = .checkpointIds)
    (hev : db'.events = db.events ++ [row]) (hfree : ∀ e ∈ db.events, e.eventId ≠ row.eventId)
    (hhi : db'.histories = db.histories ++
      [⟨history.toHistoryFields, Json.dumps (ofStrings history.ids), row.cursor⟩])
    (hnew : ∀ h ∈ db.histories, h.fields.eventId ≠ history.eventId) :
    readHistory db' row.eventId = .ok (history, row) := by
  obtain ⟨data, payload, choice, hdata, hvalid, htype, hid, _, hstored, hexp, hrun, _⟩ := hp.source
  have hfh : db'.histories.find? (fun h => h.fields.eventId == row.eventId) =
      some ⟨history.toHistoryFields, Json.dumps (ofStrings history.ids), row.cursor⟩ := by
    rw [hhi]
    exact find_append_new (fun h hh => by simpa [hrow] using hnew h hh) (by simp [hrow])
  have hfe : db'.events.find? (fun e => e.eventId == row.eventId) = some row := by
    rw [hev]
    exact find_append_new (fun e he => by simpa using hfree e he) (by simp)
  have hsep (key : String) (hk : key ≠ "data") (d : Json) :
      textField key (event.set "data" d) = textField key event := by
    simp [textField, Json.get_set_ne hk]
  have henv : history.validateEnvelope
      (event.set "data" (data.set "used_request_ids" (.arr []))) = .ok () := by
    unfold CheckpointIdHistory.validateEnvelope
    rw [hsep _ (by decide), hsep _ (by decide), hid, htype,
      Json.get_set_self (Json.isObj_of_get hdata)]
    simp [validate_emptied hvalid, CheckpointType.text_read, hexp, hrun]
  simp [readHistory, hfh, historyFromRow_stored, hfe, henc, hstored, henv]

theorem addIdentifiers_ok {s t : Finset String} {item : CheckpointIdHistory}
    (hd : Disjoint s item.ids.toFinset) (ht : s ∪ item.ids.toFinset = t)
    (hc : t.card = item.itemCount) : addIdentifiers s item = .ok t := by
  have hempty : ¬ (s ∩ item.ids.toFinset).Nonempty := by
    rw [Finset.not_nonempty_iff_eq_empty]
    exact Finset.disjoint_iff_inter_eq_empty.mp hd
  simp [addIdentifiers, hempty, ht, hc]

theorem ancestors_link (hb : history.baseEventId = some base)
    (hread : readHistory db base = .ok (parent, row)) (hs : parent.scope = history.scope)
    (hd : parent.depth + 1 = history.depth) (hc : row.cursor < cursor)
    (hrest : ancestors db parent.depth parent row.cursor = .ok rest) :
    ancestors db history.depth history cursor = .ok (parent :: rest) := by
  cases hn : history.depth with
  | zero => omega
  | succ n =>
    have he : parent.depth = n := by omega
    subst he
    unfold ancestors
    simp [hb, hread, hs, hn, Nat.not_le.mpr hc, hrest]

theorem fold_link {links : List CheckpointIdHistory} {s t : Finset String}
    (hfold : links.reverse.foldlM addIdentifiers ∅ = .ok s) (hadd : addIdentifiers s item = .ok t) :
    (item :: links).reverse.foldlM addIdentifiers ∅ = .ok t := by
  rw [List.reverse_cons, List.foldlM_append, hfold, ok_bind]
  simp [hadd]

/-- The array written into an event is the one read from its text. -/
theorem usedRequestIds_written {event data : Json} {ids previous : List String}
    (hd : event.get? "data" = some data)
    (h : usedRequestIds (Json.dumps (event.set "data"
      (data.set "used_request_ids" (ofStrings ids)))) = .ok previous) : ids = previous := by
  simp only [usedRequestIds, Json.loads_dumps, Option.bind_some,
    Json.get_set_self (Json.isObj_of_get hd)] at h
  cases hg : (data.set "used_request_ids" (ofStrings ids)).get? "used_request_ids" with
  | none => simp [hg] at h
  | some found =>
    have hobj : data.isObj = true := by
      rw [← Json.isObj_set "used_request_ids" (ofStrings ids)]
      exact Json.isObj_of_get hg
    rw [Json.get_set_self hobj, Option.bind_some, asStrings_ofStrings] at h
    simpa using h

/-- Whichever form was chosen, following the links gives the appended array. -/
theorem reconstructIds_inserted {sha256 : String → String} (he : Extends db db')
    (hp : PackedAs sha256 db event encoded stored history)
    (hunique : (db.histories.map (fun h => h.fields.eventId)).Nodup)
    (hcursor : ∀ e ∈ db.events, e.cursor < cursor) :
    ∃ data, event.get? "data" = some data ∧
      ∃ ids, data.get? "used_request_ids" = some (ofStrings ids) ∧
        reconstructIds db' history cursor = .ok ids := by
  obtain ⟨data, payload, choice, hdata, hvalid, _, _, hselect, _, hexp, hrun, hgen, hchoice, hcount⟩ :=
    hp.source
  obtain ⟨hused, hsorted⟩ := validate_ids hvalid
  simp only [sortedRequestIds, Bool.and_eq_true] at hsorted
  refine ⟨data, hdata, payload.usedRequestIds, hused, ?_⟩
  rcases selectRequestIdDelta_ok hselect with hanchor | ⟨base, added, hdelta, hbase⟩
  · rw [hanchor] at hchoice
    simp only [Prod.mk.injEq] at hchoice
    obtain ⟨hids, hnone, _⟩ := hchoice
    have hadd : addIdentifiers ∅ history = .ok payload.usedRequestIds.toFinset :=
      addIdentifiers_ok (by simp) (by simp [← hids])
        (by rw [card_of_sorted hsorted.2, hcount])
    have hchain : ancestors db' history.depth history cursor = .ok [] := by
      unfold ancestors
      simp [← hnone]
    simp [reconstructIds, hchain, hadd, sort_toFinset_of_sorted hsorted.2]
  · rw [hdelta] at hchoice
    simp only [Prod.mk.injEq] at hchoice
    obtain ⟨hids, hparent, hdepth⟩ := hchoice
    obtain ⟨baseRow, original, previous, hread, horig, hprev, hsub, hadded⟩ := hbase.additions
    obtain ⟨hrow, hfind, hfrom, hfev, _, hpacked⟩ := readHistory_ok hread
    obtain ⟨hmem, hid⟩ := find_eventId hfev
    obtain ⟨base', known, document, payload', hread', hknown, _, hd', hor, _⟩ :=
      (reconstructEvent_compact hpacked).mp horig
    have hsame : base' = base := by
      rw [hid, hread] at hread'
      cases hread'; rfl
    subst hsame
    -- The array decoded from the base event is the one its links collect.
    have hlist : known = previous := usedRequestIds_written hd' (hor ▸ hprev)
    subst hlist
    simp only [reconstructIds, bind_ok, pure_eq_ok, Except.ok.injEq] at hknown
    obtain ⟨links, hlinks, collected, hfold, hsort⟩ := hknown
    have hcollected : known.toFinset = collected := by
      rw [← hsort, Finset.sort_toFinset]
    have hscope : base'.scope = history.scope := by
      obtain ⟨row, hrow', hid', hs⟩ := hbase.inScope
      have heq : row = hrow := List.inj_on_of_nodup_map hunique hrow' (find_historyId hfind).1
        (hid'.trans (find_historyId hfind).2.symm)
      obtain ⟨ids', hfields⟩ := historyFromRow_fields hfrom
      have hb : base'.scope = hrow.fields.scope := by
        simp only [HistoryFields.scope, hfields]
      rw [hb, ← heq, hs]
      simp only [HistoryFields.scope, hexp, hrun, hgen]
    have hchain : ancestors db' history.depth history cursor = .ok (base' :: links) := by
      exact ancestors_link hparent.symm (readHistory_mono he hread) hscope hdepth
        (hcursor baseRow hmem) (ancestors_mono he hlinks)
    have hadd : addIdentifiers collected history = .ok payload.usedRequestIds.toFinset := by
      have hset : history.ids.toFinset = payload.usedRequestIds.toFinset \ collected := by
        rw [← hids, hadded, Finset.sort_toFinset, hcollected]
      rw [hcollected] at hsub
      refine addIdentifiers_ok (by rw [hset]; exact Finset.disjoint_sdiff) ?_
        (by rw [card_of_sorted hsorted.2, hcount])
      rw [hset, Finset.union_sdiff_of_subset hsub]
    rw [reconstructIds, hchain, ok_bind, fold_link hfold hadd, ok_bind, pure_eq_ok,
      sort_toFinset_of_sorted hsorted.2]

/-- A delta extends the newest earlier entry of its own scope by one link. -/
def Links (child parent : HistoryRow) : Prop :=
  child.fields.baseEventId = some parent.fields.eventId ∧
    parent.fields.scope = child.fields.scope ∧ parent.eventCursor < child.eventCursor ∧
    parent.fields.depth + 1 = child.fields.depth

def Linked (db : Database) (h : HistoryRow) : Prop :=
  h.fields.depth < 32 ∧
    (h.fields.baseEventId = none ∧ h.fields.depth = 0 ∨ ∃ p ∈ db.histories, Links h p)

/-- The state of a journal after some appends, next to the texts they were given. -/
structure Packed (sha256 : String → String) (db : Database) (log : List (String × String)) : Prop where
  decoded : List.Forall₂ (fun row appended => row.eventId = appended.1 ∧
    reconstructEvent sha256 db row = .ok appended.2) db.events log
  cursors : ∀ e ∈ db.events, e.cursor ≤ db.eventSequence
  unique : (db.histories.map (fun h => h.fields.eventId)).Nodup
  linked : ∀ h ∈ db.histories, Linked db h

theorem Linked.mono (he : Extends db db') (h : Linked db row) : Linked db' row := by
  obtain ⟨hd, hnone | ⟨p, hp, hlink⟩⟩ := h
  · exact ⟨hd, .inl hnone⟩
  · obtain ⟨hs, hhi⟩ := he.histories
    exact ⟨hd, .inr ⟨p, by rw [hhi]; exact List.mem_append_left _ hp, hlink⟩⟩

theorem CheckpointIdHistory.depth_lt (h : CheckpointIdHistory) : h.depth < 32 := by
  have hv := h.ok
  simp only [HistoryFields.valid, Bool.and_eq_true, decide_eq_true_eq] at hv
  exact hv.1.1.1.1.1.2

theorem linked_inserted {sha256 : String → String} (hs : Packed sha256 db log)
    (hp : PackedAs sha256 db event encoded stored history)
    (hcursor : ∀ e ∈ db.events, e.cursor < cursor) :
    Linked db ⟨history.toHistoryFields, text, cursor⟩ := by
  refine ⟨history.depth_lt, ?_⟩
  obtain ⟨data, payload, choice, _, _, _, _, hselect, _, hexp, hrun, hgen, hchoice, _⟩ := hp.source
  rcases selectRequestIdDelta_ok hselect with hanchor | ⟨base, added, hdelta, hbase⟩
  · rw [hanchor] at hchoice
    simp only [Prod.mk.injEq] at hchoice
    exact .inl ⟨hchoice.2.1.symm, hchoice.2.2.symm⟩
  · rw [hdelta] at hchoice
    simp only [Prod.mk.injEq] at hchoice
    obtain ⟨_, hparent, hdepth⟩ := hchoice
    obtain ⟨baseRow, _, _, hread, _⟩ := hbase.additions
    obtain ⟨row, hfind, hfrom, hfev, hat, _⟩ := readHistory_ok hread
    obtain ⟨hmem, hid⟩ := find_historyId hfind
    obtain ⟨row', hmem', hid', hscope⟩ := hbase.inScope
    have heq : row' = row := List.inj_on_of_nodup_map hs.unique hmem' hmem (hid'.trans hid.symm)
    subst heq
    obtain ⟨ids, hfields⟩ := historyFromRow_fields hfrom
    refine .inr ⟨row', hmem, ?_, ?_, ?_, ?_⟩
    · simp [← hparent, hid]
    · rw [hscope, HistoryFields.scope, hexp, hrun, hgen]
    · rw [← hat]
      exact hcursor baseRow (find_eventId hfev).1
    · rw [← hdepth, hfields]

theorem Packed.append {sha256 : String → String} (hs : Packed sha256 db log)
    (h : insertStoredEvent sha256 db event encoded = .ok db')
    (hid : textField "event_id" event = .ok eventId) :
    Packed sha256 db' (log ++ [(eventId, encoded)]) := by
  obtain ⟨row, stored, history, hprep, hrowid, hjson, hcur, henc, hfree, _, hseq, hev, hhi⟩ :=
    insertStoredEvent_ok h
  have hbefore : ∀ e ∈ db.events, e.cursor < row.cursor := by
    intro e he
    have := hs.cursors e he
    omega
  have hsame : row.eventId = eventId := by
    rw [hid] at hrowid
    cases hrowid; rfl
  have hcursors : ∀ e ∈ db'.events, e.cursor ≤ db'.eventSequence := by
    intro e he
    rw [hev] at he
    rcases List.mem_append.mp he with he | he
    · have := hs.cursors e he; omega
    · rw [List.mem_singleton.mp he]; omega
  have hfinish (he : Extends db db') (hnew : reconstructEvent sha256 db' row = .ok encoded) :
      List.Forall₂ (fun row appended => row.eventId = appended.1 ∧
        reconstructEvent sha256 db' row = .ok appended.2) db'.events (log ++ [(eventId, encoded)]) := by
    rw [hev]
    exact List.rel_append (hs.decoded.imp (fun _ _ hr => ⟨hr.1, reconstructEvent_mono he hr.2⟩))
      (.cons ⟨hsame, hnew⟩ .nil)
  rcases prepareCheckpoint_ok hprep with ⟨rfl, hstored⟩ | ⟨packed, rfl, hpacked⟩
  · simp only at hhi
    have he : Extends db db' := ⟨⟨[row], hev⟩, ⟨[], by simp [hhi]⟩⟩
    refine ⟨hfinish he ?_, hcursors, by rw [hhi]; exact hs.unique,
      fun r hr => (hs.linked r (hhi ▸ hr)).mono he⟩
    simp [reconstructEvent, henc, hjson, hstored]
  · obtain ⟨hnew, hhi⟩ := hhi
    have he : Extends db db' := ⟨⟨[row], hev⟩, ⟨_, hhi⟩⟩
    subst hjson
    have hpid : row.eventId = packed.eventId := by
      obtain ⟨_, _, _, _, _, _, hp, _⟩ := hpacked.source
      exact Except.ok.inj (hrowid.symm.trans hp)
    have hcompact : row.payloadEncoding = .checkpointIds := by simpa using henc
    refine ⟨hfinish he ?_, hcursors, ?_, ?_⟩
    · obtain ⟨data, hdata, ids, hids, hrec⟩ :=
        reconstructIds_inserted he hpacked hs.unique hbefore
      obtain ⟨data', _, _, hdata', _, _, _, _, hstored, _⟩ := hpacked.source
      rw [hdata] at hdata'
      cases hdata'
      have hobj := Json.isObj_of_get hdata
      rw [reconstructEvent_compact hcompact]
      refine ⟨packed, ids, _, _,
        readHistory_inserted hpacked hpid hcompact hev hfree hhi hnew, hrec,
        by rw [hstored]; exact Json.loads_dumps _, Json.get_set_self hobj, ?_,
        hpacked.checksum.symm⟩
      rw [Json.set_restore hids, Json.set_restore hdata, hpacked.canonical]
    · rw [hhi, List.map_append, List.map_singleton]
      refine List.Nodup.append hs.unique (List.nodup_singleton _) ?_
      intro id hin hone
      obtain ⟨r, hr, rfl⟩ := List.mem_map.mp hin
      exact hnew r hr (List.mem_singleton.mp hone)
    · intro r hr
      rw [hhi] at hr
      rcases List.mem_append.mp hr with hr | hr
      · exact (hs.linked r hr).mono he
      · rw [List.mem_singleton.mp hr]
        exact (linked_inserted hs hpacked hbefore).mono he

inductive Op where
  | append (event : Json) (encoded : String)
  | setGeneration (generation : String)

/-- A rejected append leaves the journal as it was. -/
def Op.run (sha256 : String → String) (s : Database × List (String × String)) :
    Op → Database × List (String × String)
  | .append event encoded =>
    match insertStoredEvent sha256 s.1 event encoded, textField "event_id" event with
    | .ok db, .ok eventId => (db, s.2 ++ [(eventId, encoded)])
    | _, _ => s
  | .setGeneration generation => ({ s.1 with generation := generation }, s.2)

/-- A journal created empty, and the texts of all events appended to it since. -/
def runOps (sha256 : String → String) (generation : String) (ops : List Op) :
    Database × List (String × String) :=
  ops.foldl (Op.run sha256) (⟨generation, 0, [], []⟩, [])

theorem reconstructEvent_generation (sha256 : String → String) (db : Database) (generation : String)
    (h : reconstructEvent sha256 db row = .ok encoded) :
    reconstructEvent sha256 { db with generation := generation } row = .ok encoded :=
  reconstructEvent_mono ⟨⟨[], by simp⟩, ⟨[], by simp⟩⟩ h

theorem Packed.run {sha256 : String → String} (op : Op) (hs : Packed sha256 s.1 s.2) :
    Packed sha256 (op.run sha256 s).1 (op.run sha256 s).2 := by
  cases op with
  | append event encoded =>
    simp only [Op.run]
    split
    · rename_i hins hid
      exact hs.append hins hid
    · exact hs
  | setGeneration generation =>
    exact ⟨hs.decoded.imp (fun _ _ hr => ⟨hr.1, reconstructEvent_generation sha256 s.1 generation hr.2⟩),
      hs.cursors, hs.unique, hs.linked⟩

/-- Packing keeps its invariant through every history of appends. -/
theorem packed_runOps (sha256 : String → String) (generation : String) (ops : List Op) :
    Packed sha256 (runOps sha256 generation ops).1 (runOps sha256 generation ops).2 :=
  List.foldlRecOn (motive := fun s => Packed sha256 s.1 s.2) ops (Op.run sha256)
    ⟨.nil, by simp, by simp, by simp⟩ (fun _ hs op _ => hs.run op)

/-- A chain of deltas down to the full array it starts from. -/
inductive DeltaChain (db : Database) : HistoryRow → List HistoryRow → Prop
  | anchor (hm : h ∈ db.histories) (hb : h.fields.baseEventId = none) : DeltaChain db h [h]
  | delta (hm : h ∈ db.histories) (hl : Links h p) (ht : DeltaChain db p rest) :
      DeltaChain db h (h :: rest)

/-- Links lower the depth, so every entry reaches a full array. -/
theorem exists_chain {db : Database} (hl : ∀ h ∈ db.histories, Linked db h) :
    ∀ (n : Nat) (h : HistoryRow), h ∈ db.histories → h.fields.depth = n →
      ∃ chain, DeltaChain db h chain ∧ chain.length = n + 1 ∧
        ∀ r ∈ chain, r.fields.scope = h.fields.scope := by
  intro n
  induction n with
  | zero =>
    intro h hm hd
    obtain ⟨_, ⟨hb, _⟩ | ⟨p, _, hlink⟩⟩ := hl h hm
    · exact ⟨[h], .anchor hm hb, rfl, by simp⟩
    · have := hlink.2.2.2
      omega
  | succ n ih =>
    intro h hm hd
    obtain ⟨_, ⟨_, h0⟩ | ⟨p, hp, hlink⟩⟩ := hl h hm
    · omega
    · have hpd : p.fields.depth = n := by
        have := hlink.2.2.2
        omega
      obtain ⟨rest, hchain, hlen, hrest⟩ := ih p hp hpd
      refine ⟨h :: rest, .delta hm hlink hchain, by simp [hlen], ?_⟩
      intro r hr
      rcases List.mem_cons.mp hr with rfl | hr
      · rfl
      · exact (hrest r hr).trans hlink.2.1

theorem DeltaChain.descending {db : Database} (hc : DeltaChain db h chain) : chain.Pairwise (fun a b => b.eventCursor < a.eventCursor) ∧
      ∀ r ∈ chain, r.eventCursor ≤ h.eventCursor := by
  induction hc with
  | anchor => simp
  | @delta h p rest hm hlink ht ih =>
    obtain ⟨hp, hle⟩ := ih
    have hlt : ∀ r ∈ rest, r.eventCursor < h.eventCursor :=
      fun r hr => Nat.lt_of_le_of_lt (hle r hr) hlink.2.2.1
    refine ⟨List.pairwise_cons.mpr ⟨hlt, hp⟩, ?_⟩
    intro r hr
    rcases List.mem_cons.mp hr with rfl | hr
    · exact Nat.le_refl _
    · exact Nat.le_of_lt (hlt r hr)

/-- Every stored event decodes to the text it was appended with, and every chain of
deltas stays in one scope, ascends in cursor order and has depth at most 31. -/
theorem compression_lossless (sha256 : String → String) (generation : String) (ops : List Op) :
    List.Forall₂ (fun row appended => row.eventId = appended.1 ∧
        reconstructEvent sha256 (runOps sha256 generation ops).1 row = .ok appended.2)
      (runOps sha256 generation ops).1.events (runOps sha256 generation ops).2 ∧
    ∀ h ∈ (runOps sha256 generation ops).1.histories, h.fields.depth ≤ 31 ∧
      ∃ chain, DeltaChain (runOps sha256 generation ops).1 h chain ∧
        chain.length = h.fields.depth + 1 ∧
        (∀ r ∈ chain, r.fields.scope = h.fields.scope) ∧
        chain.Pairwise (fun later earlier => earlier.eventCursor < later.eventCursor) := by
  have hp := packed_runOps sha256 generation ops
  refine ⟨hp.decoded, ?_⟩
  intro h hm
  obtain ⟨chain, hchain, hlen, hscope⟩ := exists_chain hp.linked _ h hm rfl
  have hd := (hp.linked h hm).1
  exact ⟨by omega, chain, hchain, hlen, hscope, (hchain.descending).1⟩

end ModularPipelines.Journal.CheckpointIds
