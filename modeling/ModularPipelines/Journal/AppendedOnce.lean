import ModularPipelines.Journal.DeliveryRuns

namespace ModularPipelines.Journal
open Library JournalClient

/-- Exactly one stored event has this ID. -/
def StoredOnce (j : EventStore) (eventId : String) : Prop := (j.events.map (·.event.eventId)).count eventId = 1

/-- What the journal holds for an append that is over. A report may be confirmed with the
equal answer of the other author instead of a row of its own. -/
def AppendEnd.Exact (settings : Settings) (j : EventStore) : JournalCall → AppendEnd → Prop
  | .append event, .confirmed eventId => eventId = event.eventId ∧ StoredOnce j eventId ∧
      (∃ row ∈ j.events, row.event = event) ∧ j.changes.countP (·.about eventId) = 1
  | .appendCommandResult event, .confirmed eventId => StoredOnce j eventId ∧
      (∃ d identity own, validateReport settings event = .ok (d, identity) ∧
        Claimed settings j d.requestId d.author own ∧ own.eventId = eventId ∧ own.result.answer = d.answer ∧
        j.changes.countP (·.observes d.requestId d.author) = 1) ∧
      ∀ row ∈ j.events, row.event.eventId = event.eventId →
        eventId = event.eventId ∧ SentAs (.appendCommandResult event) row.event
  | .other _ _, .confirmed _ => False
  | call, .raised error => error.refusesInput = true →
      (∀ row ∈ j.events, call.eventId ≠ some row.event.eventId) ∧
      ∀ eventId, call.eventId = some eventId → j.changes.countP (·.about eventId) = 0

/-- Exactly-once append, for a session and the journal it writes to. -/
structure Delivery.ExactlyOnce (settings : Settings) (s : Delivery) : Prop where
  finished : ∀ x ∈ s.session.finished, x.2.Exact settings s.writer.store x.1
  replayed : ∀ request o event row, request.call = .append event → row ∈ s.writer.store.events →
    row.event.eventId = event.eventId → row.event.document.sortKeys ≠ event.document.sortKeys →
    (s.writer.apply settings request o).1.store = s.writer.store ∧ (s.writer.apply settings request o).2.ok = false
  reported : ∀ request o event d identity own, request.call = .appendCommandResult event →
    validateReport settings event = .ok (d, identity) →
    Claimed settings s.writer.store d.requestId d.author own → own.result.answer ≠ d.answer →
    (s.writer.apply settings request o).1.store = s.writer.store ∧ (s.writer.apply settings request o).2.ok = false
  ordered : s.writer.store.events.Pairwise (·.cursor < ·.cursor)
  numbered : s.session.failed = false →
    ∃ n, producedNumbers s.writer.store s.session.producerInstanceId = List.range' 1 n

theorem Regular.storedOnce {settings : Settings} {j : EventStore} (h : Regular settings j) {row : EventRow}
    (hrow : row ∈ j.events) : StoredOnce j row.event.eventId :=
  List.count_eq_one_of_mem h.unique (List.mem_map_of_mem hrow)

theorem Books.exact {settings : Settings} {j : EventStore} {s : LoggerSession} (hb : Books settings j s)
    {x : JournalCall × AppendEnd} (hx : x ∈ s.finished) : x.2.Exact settings j x.1 := by
  obtain ⟨call, result⟩ := x
  have hshown := hb.shown _ hx
  have hmem : call ∈ s.calls := List.mem_append_left _ (List.mem_map_of_mem hx)
  obtain ⟨event, he, -⟩ := hb.owned call hmem
  have hname : call.eventId = some event.eventId := by rw [JournalCall.eventId, he, Option.map_some]
  cases result with
  | raised error =>
    have habsent : error.refusesInput = true → (∀ row ∈ j.events, call.eventId ≠ some row.event.eventId) ∧
        ∀ eventId, call.eventId = some eventId → j.changes.countP (·.about eventId) = 0 := by
      intro href
      obtain ⟨hnone, -⟩ := hshown href
      have hrows : ∀ row ∈ j.events, call.eventId ≠ some row.event.eventId :=
        fun row hrow hid => hnone ⟨row, hrow, hid⟩
      refine ⟨hrows, ?_⟩
      intro eventId hid
      apply hb.regular.unchanged
      intro row hrow heq
      exact hrows row hrow (heq ▸ hid)
    cases call <;> exact habsent
  | confirmed eventId =>
    obtain ⟨hconf, hsame⟩ := hshown
    cases call with
    | append sent =>
      obtain ⟨-, hn, row, hrow, hid⟩ := hconf
      obtain rfl := hsame sent rfl
      obtain rfl : row.event = sent := (hb.traced _ hmem row hrow (congrArg some hid.symm)).1
      exact ⟨rfl, hb.regular.storedOnce hrow, ⟨row, hrow, rfl⟩, hb.regular.ordinary row hrow hn⟩
    | appendCommandResult sent =>
      obtain ⟨d, identity, own, hv, -, hclaim, ha, hvalue⟩ := hconf
      have hid : own.eventId = eventId := (Json.str.inj hvalue).symm
      have hrow := hclaim.row
      refine ⟨?_, ⟨d, identity, own, hv, hclaim, hid, ha, hb.regular.reported _ _ own hclaim⟩, ?_⟩
      · rw [← hid, ← hrow.2.1]
        exact hb.regular.storedOnce hrow.1
      · intro row hmem' hown
        obtain ⟨hsent, d', identity', own', hv', -, hclaim', -, hvalue'⟩ :=
          hb.traced _ hmem row hmem' (congrArg some hown.symm)
        obtain ⟨rfl, rfl⟩ := Prod.mk.inj (Except.ok.inj (hv.symm.trans hv'))
        obtain rfl := hclaim.unique hclaim'
        refine ⟨?_, hsent⟩
        rw [← hid, ← hown]
        exact (Json.str.inj hvalue').symm
    | other command arguments => cases he

theorem settleBody_refuses (settings : Settings) (action : String) (j : EventStore) (interruption : Option Interruption)
    (fail : JournalError → Failure) {body : Except JournalError (EventStore × String)}
    (h : ∀ k eventId, body ≠ .ok (k, eventId)) :
    ∃ failure, settleBody settings action j interruption fail body = (j, .error failure) := by
  cases hs : settleBody settings action j interruption fail body with
  | mk k result =>
    obtain ⟨eventId, hok, -⟩ | ⟨rfl, ⟨cause, rfl⟩ | ⟨error, -, rfl⟩⟩ := settleBody_cases hs
    · exact (h k eventId hok).elim
    · exact ⟨_, rfl⟩
    · exact ⟨_, rfl⟩

theorem JournalWriter.apply_refuses {settings : Settings} {w : JournalWriter} {r : JournalRequest} {o : Conditions}
    {failure : Failure} (h : w.dispatch settings o r.call = (w.store, .error failure)) :
    (w.apply settings r o).1.store = w.store ∧ (w.apply settings r o).2.ok = false := by
  have hperform : ∃ w' failure, w.perform settings r o = (w', .error failure) ∧ w'.store = w.store := by
    unfold perform
    split
    · exact ⟨_, _, rfl, rfl⟩
    · split
      · exact ⟨_, _, rfl, rfl⟩
      · split
        · exact ⟨_, _, rfl, rfl⟩
        · split
          · exact ⟨_, _, rfl, rfl⟩
          · rw [h]
            exact ⟨_, _, rfl, rfl⟩
  obtain ⟨w', f, hp, hstore⟩ := hperform
  unfold apply
  rw [hp]
  exact ⟨(w'.recover_store f o).trans hstore, (w'.recover_reply f o).1⟩

/-- A replay is compared with the stored event before anything is written. -/
theorem Regular.replayed {settings : Settings} {w : JournalWriter} (h : Regular settings w.store)
    {request : JournalRequest} (o : Conditions) {event : JournalEvent} {row : EventRow}
    (hcall : request.call = .append event) (hrow : row ∈ w.store.events)
    (hid : row.event.eventId = event.eventId)
    (hne : row.event.document.sortKeys ≠ event.document.sortKeys) :
    (w.apply settings request o).1.store = w.store ∧ (w.apply settings request o).2.ok = false := by
  have hbody : ∀ k eventId, appendBody settings w.store event ≠ .ok (k, eventId) := by
    intro k eventId hok
    unfold appendBody at hok
    split at hok
    · rename_i existing hf
      have hsame : existing = row := by
        apply h.row_unique (List.mem_of_find?_eq_some hf) hrow
        rw [findEvent_eventId hf, hid]
      obtain ⟨stored, hd, hguard⟩ := bind_ok.mp hok
      obtain ⟨htext, -⟩ := rejectIf_then.mp hguard
      obtain ⟨-, rfl⟩ := decodeRow_ok.mp hd
      apply hne
      rw [← hsame]
      exact (Json.dumps_injective (not_not.mp htext)).symm
    · rename_i hf
      exact findEvent_eq_none.mp hf row hrow hid
  have hdispatch : ∃ failure, w.dispatch settings o (.append event) = (w.store, .error failure) := by
    simp only [JournalWriter.dispatch, appendReplayed]
    split
    · exact ⟨_, rfl⟩
    · split
      · exact ⟨_, rfl⟩
      · obtain ⟨failure, hs⟩ := settleBody_refuses settings "append event" w.store o.interruption (appendFailure settings) hbody
        rw [hs]
        exact ⟨_, rfl⟩
  obtain ⟨failure, hd⟩ := hdispatch
  exact JournalWriter.apply_refuses (hcall ▸ hd)

/-- The first answer of an author stands. -/
theorem Claimed.answered {settings : Settings} {w : JournalWriter} {request : JournalRequest} (o : Conditions)
    {event : JournalEvent} {d : CommandObservation} {identity : Identity} {own : AuthorEntry}
    (hc : Claimed settings w.store d.requestId d.author own) (hcall : request.call = .appendCommandResult event)
    (hv : validateReport settings event = .ok (d, identity)) (hne : own.result.answer ≠ d.answer) :
    (w.apply settings request o).1.store = w.store ∧ (w.apply settings request o).2.ok = false := by
  have hbody : ∀ k eventId, appendCommandResult settings w.store event ≠ .ok (k, eventId) := by
    intro k eventId hok
    obtain ⟨d', identity', state, hv', hl, -, ⟨own', hown, ha, -⟩ | ⟨hnew, -⟩⟩ := appendCommandResult_ok.mp hok
    · obtain ⟨rfl, rfl⟩ := Prod.mk.inj (Except.ok.inj (hv.symm.trans hv'))
      obtain rfl := Option.some.inj ((hc.bind hl).symm.trans hown)
      exact hne ha
    · obtain ⟨rfl, rfl⟩ := Prod.mk.inj (Except.ok.inj (hv.symm.trans hv'))
      cases (hc.bind hl).symm.trans hnew
  have hdispatch : ∃ failure, w.dispatch settings o (.appendCommandResult event) = (w.store, .error failure) := by
    obtain ⟨failure, hs⟩ :=
      settleBody_refuses settings "reconcile command" w.store o.interruption (reportFailure settings) hbody
    simp only [JournalWriter.dispatch, reportReplayed, hv, hs]
    exact ⟨_, rfl⟩
  obtain ⟨failure, hd⟩ := hdispatch
  exact JournalWriter.apply_refuses (hcall ▸ hd)

theorem Ledger.exactlyOnce {settings : Settings} {s : Delivery} (h : Ledger settings s) : s.ExactlyOnce settings where
  finished := fun _ hx => h.books.exact hx
  replayed := fun _ o _ _ hcall hrow hid hne => h.books.regular.replayed o hcall hrow hid hne
  reported := fun _ o _ _ _ _ hcall hv hc hne => hc.answered o hcall hv hne
  ordered := h.books.regular.ordered
  numbered := by
    intro hf
    by_cases hahead : ∃ c, s.session.pending = some c ∧ Stored s.writer.store c
    · obtain ⟨c, hp, hs⟩ := hahead
      exact ⟨_, h.books.ahead hf c hp hs⟩
    · refine ⟨_, h.books.level hf ?_⟩
      intro c hp hs
      exact hahead ⟨c, hp, hs⟩

/-- A session opened on a new journal. Other producers may write to it at any time. -/
theorem start_ledger (settings : Settings) (producerInstanceId : String) (client : JournalClient)
    (journalId generation : String) (managed : Bool) :
    Ledger settings (.start producerInstanceId client ⟨managed, .create journalId generation, false⟩) := by
  constructor
  · refine ⟨create_regular settings journalId generation, nofun, .nil, nofun, nofun, nofun, nofun, fun _ => rfl,
      nofun, nofun, fun _ _ => rfl⟩
  · refine ⟨⟨rfl, rfl⟩, nofun, nofun, nofun, fun _ => rfl, nofun, nofun, fun _ _ => nofun, nofun⟩

theorem appended_exactly_once {settings : Settings} {producerInstanceId : String} {client : JournalClient}
    {journalId generation : String} {managed : Bool} {actions : List DeliveryAction} {s : Delivery}
    (ha : ∀ a ∈ actions, a.WellFormed)
    (h : Delivery.run settings (.start producerInstanceId client ⟨managed, .create journalId generation, false⟩) actions = some s) :
    s.ExactlyOnce settings := by
  have hstart := start_ledger settings producerInstanceId client journalId generation managed
  exact (hstart.run ha h).exactlyOnce

def anySettings : Settings := ⟨fun _ => true, none, "journal", "journal.sqlite"⟩

def readyWriter : Publication :=
  ⟨.ok ⟨"writer", "127.0.0.1", 4000, "token", true⟩, some (.ok ⟨.ready, some true⟩)⟩

def noRecovery : Recovery := ⟨0, fun _ => .error .generationChanged, true, .error .generationChanged⟩

def undisturbed : Conditions := ⟨none, true, none, true, .error (rejection .generationChanged)⟩

/-- A frame is sent, answered and its reply is read. -/
def answeredOnce (o : Conditions) : List DeliveryAction :=
  [.attempt ⟨0, readyWriter, true, .ok "token", true, true⟩ noRecovery, .serve o,
    .poll ⟨0, true, false, readyWriter, ⟨.ok (false, 0), false, .error .os, .ok ()⟩⟩ noRecovery]

theorem answeredOnce_wellFormed (o : Conditions) : ∀ a ∈ answeredOnce o, a.WellFormed := by
  have hw : readyWriter.WellFormed := ⟨nofun, nofun⟩
  have hr : noRecovery.Uncertain := by
    intro error he
    obtain rfl := Except.error.inj he
    exact ⟨rfl, rfl⟩
  intro a ha
  simp only [answeredOnce, List.mem_cons, List.not_mem_nil, or_false] at ha
  obtain rfl | rfl | rfl := ha
  · exact ⟨⟨hw, nofun, rfl⟩, hr⟩
  · trivial
  · exact ⟨⟨hw, nofun, nofun, nofun⟩, hr⟩

def managedClient : JournalClient :=
  ⟨false, none, 60000, 10000, 0, some "endpoint.json", true, false, none, 0, none, none, .idle⟩

def openedSession : Delivery := .start "producer" managedClient ⟨true, .create "journal" "generation", false⟩

/-- The first COMMIT fails; the envelope is sent again. -/
def replayedAppend : List DeliveryAction :=
  .append ⟨"event", "2024-01-01T00:00:00Z", "stage.started", [], none, .obj [], false⟩ 0 ::
    (answeredOnce { undisturbed with interruption := some (.commit .sqlite) } ++ answeredOnce undisturbed)

theorem appended_exactly_once_replayed : ∃ s, openedSession.run anySettings replayedAppend = some s ∧
    s.session.finished.map Prod.snd = [.confirmed "event"] ∧ s.ExactlyOnce anySettings := by
  have hrun : (openedSession.run anySettings replayedAppend).map (·.session.finished.map Prod.snd) =
      some [.confirmed "event"] := by decide +kernel
  obtain ⟨s, hs, hfinished⟩ := Option.map_eq_some_iff.mp hrun
  refine ⟨s, hs, hfinished, ?_⟩
  refine appended_exactly_once ?_ hs
  intro a ha
  obtain rfl | ha := List.mem_cons.mp ha
  · trivial
  · obtain ha | ha := List.mem_append.mp ha
    · exact answeredOnce_wellFormed _ a ha
    · exact answeredOnce_wellFormed _ a ha

def reportDraft (eventId author outcome : String) : Draft :=
  ⟨eventId, "2024-01-01T00:00:00Z", "command.result",
    [("experiment_id", .str "experiment"), ("participant_id", .str "service"), ("request_id", .str "request")], none,
    .obj [("request_id", .str "request"), ("author", .str author), ("outcome", .str outcome), ("response", .obj []),
      ("ignored", .null), ("supersedes", .arr [])], true⟩

/-- The participant answers a request that the runner then times out. -/
def conflictingReports : List DeliveryAction :=
  .append (reportDraft "participant-event" "participant" "succeeded") 0 :: (answeredOnce undisturbed ++
    .append (reportDraft "runner-event" "runner" "timed_out") 0 :: answeredOnce undisturbed)

/-- The runner's report is confirmed, but the journal adds the mark of the answer it
supersedes. -/
theorem confirmed_contents_marked : ¬ ∀ actions s, (∀ a ∈ actions, DeliveryAction.WellFormed a) →
    openedSession.run anySettings actions = some s →
    ∀ call eventId event, (call, AppendEnd.confirmed eventId) ∈ s.session.finished → call.event = some event →
      StoredOnce s.writer.store event.eventId ∧ (∃ row ∈ s.writer.store.events, row.event = event) ∧
      s.writer.store.changes.countP (·.about event.eventId) = 1 := by
  intro h
  have hrun : (openedSession.run anySettings conflictingReports).map (fun s => (s.session.finished.map (fun x => (x.1.event.map (fun e => s.writer.store.events.all (·.event ≠ e)), x.2)))) =
      some [(some false, .confirmed "participant-event"), (some true, .confirmed "runner-event")] := by decide +kernel
  obtain ⟨s, hs, hfinished⟩ := Option.map_eq_some_iff.mp hrun
  have hlast : (some true, AppendEnd.confirmed "runner-event") ∈
      s.session.finished.map (fun x => (x.1.event.map (fun e => s.writer.store.events.all (·.event ≠ e)), x.2)) := by
    rw [hfinished]
    exact List.mem_cons_of_mem _ List.mem_cons_self
  obtain ⟨⟨call, result⟩, hmem, heq⟩ := List.mem_map.mp hlast
  obtain ⟨hrows, rfl⟩ := Prod.mk.inj heq
  obtain ⟨event, he, hall⟩ := Option.map_eq_some_iff.mp hrows
  have hwell : ∀ a ∈ conflictingReports, a.WellFormed := by
    intro a ha
    obtain rfl | ha := List.mem_cons.mp ha
    · trivial
    · obtain ha | ha := List.mem_append.mp ha
      · exact answeredOnce_wellFormed _ a ha
      · obtain rfl | ha := List.mem_cons.mp ha
        · trivial
        · exact answeredOnce_wellFormed _ a ha
  obtain ⟨-, ⟨row, hrow, hsame⟩, -⟩ := h conflictingReports s hwell hs call "runner-event" event hmem he
  rw [List.all_eq_true] at hall
  have hne := hall row hrow
  rw [hsame] at hne
  simp at hne

end ModularPipelines.Journal
