import ModularPipelines.Server.Stops

namespace ModularPipelines.Server
open Library

def ReceiptEvent.sends (i : String) : ReceiptEvent → Bool
  | .enqueued _ j => j == i
  | .evicted _ => false

namespace ServerRuntime

variable {settings : ServerSettings} {fingerprint : Json → String} {m m' m'' : ServerRuntime} {s : Submission}
  {clock : Nat → Nat} {stamps : Nat → String} {i j : String} {r : CommandRecord}

/-- The command has no outcome yet. -/
def awaited (m : ServerRuntime) (i : String) : Bool := (m.records.get? i).any CommandRecord.pending

/-- Only what is kept for clients changes. -/
def Inner (m m' : ServerRuntime) : Prop :=
  m' = { m with
    records := m'.records
    chains := m'.chains
    cacheBytes := m'.cacheBytes
    reads := m'.reads
    history := m'.history }

theorem Inner.refl (m : ServerRuntime) : Inner m m := rfl

theorem Inner.trans (h : Inner m m') (g : Inner m' m'') : Inner m m'' := by
  unfold Inner at h g ⊢
  rw [g, h]

theorem Evicted.inner (h : Evicted m m') : Inner m m' := by
  unfold Inner
  rw [h.dropped.frame]

theorem Evicted.awaited (h : Evicted m m') (i : String) : m'.awaited i = m.awaited i := by
  unfold ServerRuntime.awaited
  cases hold : m.records.get? i with
  | none =>
    cases hnew : m'.records.get? i with
    | none => rfl
    | some r =>
      have hkept : m.records.get? i = some r := h.dropped.get? hnew
      rw [hold] at hkept
      cases hkept
  | some r =>
    cases hnew : m'.records.get? i with
    | none => exact (h.dropped.finished i r hold hnew).symm
    | some r' =>
      have hkept : m.records.get? i = some r' := h.dropped.get? hnew
      rw [Option.some.inj (hkept.symm.trans hold)]

/-- How often the command has been given to a controller. -/
def sent (m : ServerRuntime) (i : String) : Nat := m.history.countP (ReceiptEvent.sends i)

theorem Evicted.sent (h : Evicted m m') (i : String) : m'.sent i = m.sent i := by
  obtain ⟨news, hnews, hevents⟩ := h.dropped.history
  have hzero : news.countP (ReceiptEvent.sends i) = 0 := by
    refine List.countP_eq_zero.mpr fun event hevent => ?_
    obtain ⟨j, rfl, -⟩ := (hevents event).mp hevent
    exact Bool.false_ne_true
  rw [ServerRuntime.sent, ServerRuntime.sent, hnews, List.countP_append, hzero, Nat.add_zero]

/-- Only those commands that stay are still without an outcome, and nothing is given to the controller. -/
structure Settles (m m' : ServerRuntime) (stays : String → Bool) : Prop where
  inner : Inner m m'
  awaited : ∀ j, m'.awaited j = (m.awaited j && stays j)
  sent : ∀ j, m'.sent j = m.sent j

theorem Settles.evicted {stays : String → Bool} (h : Settles m m' stays) (g : Evicted m' m'') : Settles m m'' stays :=
  ⟨h.inner.trans g.inner, fun j => (g.awaited j).trans (h.awaited j), fun j => (g.sent j).trans (h.sent j)⟩

/-- A command that has its outcome already does not matter. -/
theorem Settles.of_settled {i : String} (hinner : Inner m m') (hrecords : m'.records = m.records)
    (hhistory : m'.history = m.history) (hsettled : m.awaited i = false) : Settles m m' fun j => j != i := by
  refine ⟨hinner, fun j => ?_, fun j => by rw [ServerRuntime.sent, hhistory]; rfl⟩
  have hsame : m'.awaited j = m.awaited j := by rw [ServerRuntime.awaited, hrecords]; rfl
  rw [hsame]
  by_cases hj : j = i
  · rw [hj, hsettled, Bool.false_and]
  · rw [bne_iff_ne.mpr hj, Bool.and_true]

theorem finishRecord_settles (m : ServerRuntime) (i : String) (r : CommandRecord) (f : Finished) :
    Settles m (m.finishRecord i r f) fun j => j != i := by
  refine ⟨rfl, fun j => ?_, fun j => rfl⟩
  unfold awaited
  rw [finishRecord_get?]
  by_cases hj : j = i
  · rw [if_pos hj, hj, bne_self_eq_false, Bool.and_false]
    rfl
  · rw [if_neg hj, bne_iff_ne.mpr hj, Bool.and_true]

theorem loseRecords_settles (m : ServerRuntime) (message : String) (stamps : String → Nat) :
    Settles m (m.loseRecords message stamps) fun j => m.restartId == some j := by
  refine ⟨rfl, fun j => ?_, fun j => rfl⟩
  unfold awaited
  rw [loseRecords_get?]
  cases m.records.get? j with
  | none => rfl
  | some r =>
    show (m.loseRecord message stamps j r).pending = (r.pending && _)
    unfold loseRecord loses
    cases hpending : r.pending with
    | false => rw [Bool.and_false]; exact hpending
    | true =>
      cases howner : m.restartId == some j with
      | true =>
        rw [bne, howner]
        exact hpending
      | false =>
        rw [bne, howner]
        rfl

theorem acceptRead_inner {response : Response} (h : m.acceptReadResponse response = some m') :
    Inner m m' ∧ m.reads.contains response.commandId = true := by
  unfold acceptReadResponse at h
  split at h
  · rename_i hwaiting
    obtain rfl := Option.some.inj h
    exact ⟨rfl, Option.isSome_iff_exists.mpr ⟨_, hwaiting⟩⟩
  · cases h

theorem boundedResponse_id (settings : ServerSettings) (response : Response) :
    (boundedResponse settings response).1.commandId = response.commandId := by
  unfold boundedResponse
  split <;> rfl

/-- A response settles its own command and no other one. -/
theorem acceptCommandResponse_settles (hk : m.Kept settings) (response : Response) (finishedAt now : Nat) :
    Settles m (m.acceptCommandResponse settings response finishedAt now) fun j => j != response.commandId := by
  unfold acceptCommandResponse
  dsimp only
  split
  · rename_i hread
    obtain ⟨hinner, hwaits⟩ := acceptRead_inner hread
    obtain ⟨hrecords, -, -, hhistory, -⟩ := acceptRead_framed hread
    rw [boundedResponse_id] at hwaits
    refine .of_settled hinner hrecords hhistory ?_
    rw [awaited, contains_false.mp (hk.reads _ hwaits)]
    rfl
  · split
    · rename_i hnone
      refine .of_settled (.refl m) rfl rfl ?_
      rw [awaited, hnone]
      rfl
    · rename_i r hget
      split
      · exact (finishRecord_settles m response.commandId r _).evicted
          (prune_evicted (hk.finishRecord hget _).unique settings now 0)
      · rename_i hanswered
        refine .of_settled (.refl m) rfl rfl ?_
        rw [awaited, hget]
        exact Bool.eq_false_iff.mpr fun hpending => hanswered (open_of_pending hpending)

/-- A lost controller leaves only the command of the owner without an outcome. -/
theorem unavailable_settles (hk : m.Kept settings) (message : String) (runtimeId : Option String) (stamps : String → Nat)
    (now : Nat) (hstale : m.stale runtimeId = false) :
    Settles { m with state := .unavailable, error := some message }
      (m.unavailable settings message runtimeId stamps now) fun j => m.restartId == some j := by
  let failed : ServerRuntime := { m with
    state := .unavailable
    error := some message
    reads := m.reads.mapValues (failWaiter message) }
  have hfailed : failed.Kept settings := by
    refine hk.frame rfl rfl rfl fun i hi => .inl ?_
    exact failWaiters_contains m.reads message i ▸ hi
  have hlost : Settles { m with state := .unavailable, error := some message } (failed.loseRecords message stamps)
      fun j => m.restartId == some j :=
    ⟨rfl, (loseRecords_settles failed message stamps).awaited, fun j => rfl⟩
  have hunavailable : m.unavailable settings message runtimeId stamps now
      = (failed.loseRecords message stamps).prune settings now 0 := by
    rw [unavailable, hstale]
    rfl
  rw [hunavailable]
  exact hlost.evicted (prune_evicted (hfailed.loseRecords message stamps).unique settings now 0)

theorem unavailable_stale (message : String) {runtimeId : Option String} (stamps : String → Nat) (now : Nat)
    (hstale : m.stale runtimeId = true) : m.unavailable settings message runtimeId stamps now = m := by
  rw [unavailable, hstale]
  rfl

/-- A submission only evicts receipts, or it has passed and is inserted. -/
theorem submit_cases (fingerprint : Json → String) (hk : m.Kept settings) (document : Except String Submission)
    (clock : Nat → Nat) (stamps : Nat → String) :
    Evicted m (m.submit settings fingerprint document clock stamps).1 ∨
      ∃ s before, document = .ok s ∧ Evicted m before ∧ before.Passed s ∧
        Insertable settings before s (newRecords fingerprint s stamps) ∧
        Evicted (before.insertSubmission s (newRecords fingerprint s stamps))
          (m.submit settings fingerprint document clock stamps).1 := by
  have hpruned := prune_evicted hk.unique settings (clock 0) 0
  have hkept := hpruned.kept hk
  unfold submit
  dsimp only
  split
  · exact .inl hpruned
  · rename_i s
    split
    · exact .inl hpruned
    · split
      · exact .inl hpruned
      · exact .inl (hpruned.trans (receipt_evicted hkept _ _ _))
      · rename_i hchecked
        have hagain := prune_evicted hkept.unique settings (clock 1) s.commands.length
        split
        · exact .inl (hpruned.trans hagain)
        · exact .inl (hpruned.trans hagain)
        · rename_i hroom _
          have hinsertable := (checkSubmission_false hchecked).insertable hagain hroom
          refine .inr ⟨s, _, rfl, hpruned.trans hagain, (checkSubmission_false hchecked).passed.evicted hagain,
             hinsertable, ?_⟩
          exact receipt_evicted (hinsertable.kept (hagain.kept hkept)) _ _ _

theorem Insertable.awaited {records : List CommandRecord} (h : Insertable settings m s records) (j : String) :
    (m.insertSubmission s records).awaited j = (m.awaited j || decide (j ∈ s.identifiers)) := by
  unfold ServerRuntime.awaited
  by_cases hj : j ∈ s.identifiers
  · rw [decide_eq_true hj, Bool.or_true]
    rw [← h.ids] at hj
    obtain ⟨r, hr, rfl⟩ := List.mem_map.mp hj
    rw [h.get?_new hr]
    exact Option.isNone_iff_eq_none.mpr (h.new r hr)
  · rw [decide_eq_false hj, Bool.or_false, insert_records, insertRecords_other (h.ids ▸ hj)]

theorem admitLifecycle_ok {c : ServerCommand} (h : m.admitLifecycleCommand c = .ok ()) :
    m.restart = none ∧ m.httpClosing = false := by
  unfold admitLifecycleCommand at h
  split at h
  · cases h
  · rename_i hrestart
    refine ⟨hrestart, Bool.eq_false_iff.mpr fun hclosing => ?_⟩
    split at h
    · cases h
    · rw [if_pos (.inl hclosing)] at h
      cases h

theorem requireReady_ok (h : m.requireReady = .ok ()) : m.closing = false ∧ m.restart = none ∧ m.state = .ready := by
  unfold requireReady at h
  split at h
  · cases h
  · rename_i hbusy
    refine ⟨Bool.eq_false_iff.mpr fun hc => hbusy (.inl hc), ?_, ?_⟩
    · exact Option.not_isSome_iff_eq_none.mp fun hsome => hbusy (.inr (.inl hsome))
    · by_contra hstate
      exact hbusy (.inr (.inr (.inl hstate)))

theorem insert_lifecycle {c : ServerCommand} (hl : s.lifecycle = some c) (records : List CommandRecord) :
    Inner { m with restart := some (c, .admitted) } (m.insertSubmission s records) := by
  unfold insertSubmission
  dsimp only
  rw [hl]
  rfl

theorem insert_enqueued (hl : s.lifecycle = none) (records : List CommandRecord) :
    Inner { m with requests := m.requests ++ [.submission s] } (m.insertSubmission s records) := by
  unfold insertSubmission
  dsimp only
  rw [hl]
  rfl

/-- How the closing of a runtime and the task of the owner stand to each other. -/
structure Phased (m : ServerRuntime) : Prop where
  closing : m.closePhase ≠ .idle → m.closing = true
  owner : m.closePhase ≠ .idle →
    (∃ c startError, m.restart = some (c, .closing startError)) ∨ m.restart = none ∧ m.httpClosing = true
  closed : ∀ c, m.restart = some (c, .closed) → m.closing = true ∧ m.closePhase = .idle
  gone : m.closing = true → m.closePhase = .idle → m.state ≠ .ready
  settled : m.closePhase = .settled → m.restartBlocked = none → m.state ≠ .ready
  starting : ∀ c ready, m.restart = some (c, .starting ready) → c.command ≠ "server.shutdown"

/-- The fields are as before, but the runtime may no longer be ready. -/
theorem Phased.framed (h : m.Phased) (hclosing : m'.closing = m.closing) (hphase : m'.closePhase = m.closePhase)
    (hrestart : m'.restart = m.restart) (hhttp : m.httpClosing = true → m'.httpClosing = true)
    (hblocked : m'.restartBlocked = m.restartBlocked) (hstate : m'.state = .ready → m.state = .ready) : m'.Phased := by
  refine ⟨?_, fun hbusy => ?_, ?_, fun hc hidle hready => ?_, fun hsettled hfree hready => ?_, ?_⟩
  · rw [hclosing, hphase]
    exact h.closing
  · rw [hphase] at hbusy
    rw [hrestart]
    exact (h.owner hbusy).imp_right fun hnone => ⟨hnone.1, hhttp hnone.2⟩
  · rw [hrestart, hclosing, hphase]
    exact h.closed
  · exact h.gone (hclosing ▸ hc) (hphase ▸ hidle) (hstate hready)
  · exact h.settled (hphase ▸ hsettled) (hblocked ▸ hfree) (hstate hready)
  · rw [hrestart]
    exact h.starting

theorem Phased.inner (h : m.Phased) (hinner : Inner m m') : m'.Phased := by
  rw [hinner]
  exact h.framed rfl rfl rfl id rfl id

theorem Phased.init (instanceId runtimeId : String) (mode : ServerMode) (stopHttp : Bool) :
    (init instanceId runtimeId mode stopHttp).Phased := by
  refine ⟨fun hbusy => (hbusy rfl).elim, fun hbusy => (hbusy rfl).elim, fun c hc => ?_, fun hc => ?_, fun hs => ?_,
    fun c ready hc => ?_⟩
  · cases hc
  · cases hc
  · cases hs
  · cases hc

theorem Phased.joining (h : m.Phased) (hjoining : m.closePhase = .joining) : m.closing = true ∧
    ((∃ c startError, m.restart = some (c, .closing startError)) ∨ m.restart = none ∧ m.httpClosing = true) := by
  have hbusy : m.closePhase ≠ .idle := by
    rw [hjoining]
    decide
  exact ⟨h.closing hbusy, h.owner hbusy⟩

/-- The task of the owner waits for the closing only in its own phase for that. -/
theorem Phased.idle (h : m.Phased) {c : ServerCommand} {phase : RestartPhase} (hrestart : m.restart = some (c, phase))
    (hphase : ∀ startError, phase ≠ .closing startError) : m.closePhase = .idle := by
  by_contra hbusy
  rcases h.owner hbusy with ⟨other, startError, hother⟩ | ⟨hnone, -⟩
  · rw [hrestart] at hother
    exact hphase startError (Prod.mk.inj (Option.some.inj hother)).2
  · rw [hrestart] at hnone
    cases hnone

theorem Phased.unavailable (h : m.Phased) (hk : m.Kept settings) (message : String) (runtimeId : Option String)
    (stamps : String → Nat) (now : Nat) : (m.unavailable settings message runtimeId stamps now).Phased := by
  cases hstale : m.stale runtimeId with
  | true =>
    rw [unavailable_stale message stamps now hstale]
    exact h
  | false =>
    have hunready : ({ m with state := .unavailable, error := some message } : ServerRuntime).Phased :=
      h.framed rfl rfl rfl id rfl fun hready => by cases hready
    exact hunready.inner (unavailable_settles hk message runtimeId stamps now hstale).inner

theorem Phased.acceptResponse (h : m.Phased) (hk : m.Kept settings) (message : ControllerMessage)
    (runtimeId : Option String) (stamps : String → Nat) (now : Nat) :
    (m.acceptResponse settings message runtimeId stamps now).Phased := by
  unfold ServerRuntime.acceptResponse
  split
  · exact h
  · cases message with
    | outcome o => exact h.inner (acceptCommandResponse_settles hk o.response _ now).inner
    | ready =>
      show m.acceptReady.Phased
      unfold acceptReady
      split
      · exact h
      · rename_i hopen
        have hclosing : m.closing = false := Bool.eq_false_iff.mpr fun hc => hopen (.inl hc)
        have hidle : m.closePhase = .idle := by
          by_contra hbusy
          rw [h.closing hbusy] at hclosing
          cases hclosing
        refine ⟨h.closing, fun hbusy => (hbusy hidle).elim, fun c hc => ?_, fun hc => ?_, fun hsettled => ?_,
          fun c ready hc => ?_⟩
        · obtain ⟨⟨other, phase⟩, hother, heq⟩ := Option.map_eq_some_iff.mp hc
          obtain ⟨rfl, hphase⟩ := Prod.mk.inj heq
          have hsame : phase = .closed := by
            cases phase with
            | starting _ => cases hphase
            | admitted => cases hphase
            | closing _ => cases hphase
            | closed => rfl
            | raised _ => cases hphase
          rw [(h.closed other (hsame ▸ hother)).1] at hclosing
          cases hclosing
        · exact (Bool.false_ne_true (hclosing.symm.trans hc)).elim
        · rw [hidle] at hsettled
          cases hsettled
        · obtain ⟨⟨other, phase⟩, hother, heq⟩ := Option.map_eq_some_iff.mp hc
          obtain ⟨rfl, hphase⟩ := Prod.mk.inj heq
          cases phase with
          | starting before => exact h.starting other before hother
          | admitted => cases hphase
          | closing _ => cases hphase
          | closed => cases hphase
          | raised _ => cases hphase
    | stopped text =>
      exact (h.unavailable hk text none stamps now).framed rfl rfl rfl id rfl fun hready => by cases hready
    | error text => exact h.unavailable hk text none stamps now
    | invalid text => exact h.unavailable hk _ none stamps now

theorem Phased.submit (h : m.Phased) (hk : m.Kept settings) (document : Except String Submission) (clock : Nat → Nat)
    (stamps : Nat → String) : (m.submit settings fingerprint document clock stamps).1.Phased := by
  rcases submit_cases fingerprint hk document clock stamps with
    hevicted | ⟨s, before, -, hbefore, hpassed, -, hafter⟩
  · exact h.inner hevicted.inner
  · have hphased := h.inner hbefore.inner
    refine Phased.inner ?_ hafter.inner
    cases hl : s.lifecycle with
    | none =>
      have henqueued : ({ before with requests := before.requests ++ [.submission s] } : ServerRuntime).Phased :=
        hphased.framed rfl rfl rfl id rfl id
      exact henqueued.inner (insert_enqueued hl _)
    | some c =>
      obtain ⟨hidle, hhttp⟩ := admitLifecycle_ok (hpassed.lifecycle c hl)
      refine Phased.inner (m := { before with restart := some (c, .admitted) }) ?_ (insert_lifecycle hl _)
      refine ⟨hphased.closing, fun hbusy => ?_, fun other hother => ?_, hphased.gone, hphased.settled,
        fun other ready hother => ?_⟩
      · rcases hphased.owner hbusy with ⟨other, startError, hother⟩ | ⟨-, hclosing⟩
        · rw [hidle] at hother
          cases hother
        · rw [hhttp] at hclosing
          cases hclosing
      · cases (Prod.mk.inj (Option.some.inj hother)).2
      · cases (Prod.mk.inj (Option.some.inj hother)).2

theorem beginClose_phased (shutdownId : String) {c : ServerCommand} {phase : RestartPhase}
    (hrestart : m.restart = some (c, phase)) (startError : Option String) :
    ((m.beginClose settings shutdownId).setRestartPhase (.closing startError)).Phased := by
  have hnew : ((m.beginClose settings shutdownId).setRestartPhase (.closing startError)).restart
      = some (c, .closing startError) := by
    show m.restart.map _ = _
    rw [hrestart]
    rfl
  refine ⟨fun _ => rfl, fun _ => .inl ⟨c, startError, hnew⟩, fun other hother => ?_, fun _ hidle => ?_, fun hs => ?_,
    fun other ready hother => ?_⟩
  · rw [hnew] at hother
    cases (Prod.mk.inj (Option.some.inj hother)).2
  · cases hidle
  · cases hs
  · rw [hnew] at hother
    cases (Prod.mk.inj (Option.some.inj hother)).2

theorem Phased.settleClose (h : m.Phased) (hk : m.Kept settings) (hjoining : m.closePhase = .joining)
    (failed : Option String) (stamps : String → Nat) (now : Nat) : (m.settleClose settings failed stamps now).Phased := by
  obtain ⟨hclosing, howner⟩ := h.joining hjoining
  have hnotclosed : ∀ c, m.restart ≠ some (c, .closed) := by
    intro c hc
    have hidle := (h.closed c hc).2
    rw [hjoining] at hidle
    cases hidle
  cases failed with
  | some message =>
    refine ⟨fun _ => hclosing, fun _ => howner, fun c hc => (hnotclosed c hc).elim, fun _ hidle => ?_, fun _ hfree => ?_,
      h.starting⟩
    · cases hidle
    · cases hfree
  | none =>
    have hsame : ∃ state error, Inner { m with state := state, error := error }
        (m.unavailable settings closedMessage none stamps now) ∧ state ≠ .ready := by
      cases hstale : m.stale none with
      | true =>
        rw [unavailable_stale closedMessage stamps now hstale]
        have hclosed : m.state = .closed := by simpa [stale] using hstale
        exact ⟨m.state, m.error, .refl m, by rw [hclosed]; decide⟩
      | false => exact ⟨_, _, (unavailable_settles hk closedMessage none stamps now hstale).inner, by decide⟩
    obtain ⟨state, error, hinner, hstate⟩ := hsame
    unfold ServerRuntime.settleClose
    dsimp only
    rw [hinner]
    refine ⟨fun _ => hclosing, fun _ => howner, fun c hc => (hnotclosed c hc).elim, fun _ hidle => ?_, fun _ _ => hstate,
      h.starting⟩
    cases hidle

theorem Phased.finishLifecycle (h : m.Phased) (hk : m.Kept settings) {c : ServerCommand} {phase : RestartPhase}
    (hrestart : m.restart = some (c, phase)) (hphase : ∀ startError, phase ≠ .closing startError) (ending : LifecycleEnd)
    (stamps : String → Nat) (now : Nat) : (m.finishLifecycle settings c ending stamps now).Phased := by
  have hidle := h.idle hrestart hphase
  let before : ServerRuntime := { m with
    httpClosing := m.httpClosing || (c.command == "server.shutdown" && ending.errorText.isNone)
    error := ending.errorText.or m.error
    state := if m.state = RuntimeState.closed then .unavailable else m.state }
  have hkept : before.Kept settings := hk.frame rfl rfl rfl fun _ hi => .inl hi
  have hinner := (acceptCommandResponse_settles hkept (ending.response c) (stamps c.commandId) now).inner
  have hbefore : before.state = .ready → m.state = .ready := by
    show (if m.state = RuntimeState.closed then RuntimeState.unavailable else m.state) = _ → _
    split
    · intro hready
      cases hready
    · exact id
  unfold ServerRuntime.finishLifecycle
  dsimp only
  rw [hinner]
  refine ⟨fun hbusy => (hbusy hidle).elim, fun hbusy => (hbusy hidle).elim, fun other hother => ?_, fun hc _ hready => ?_,
    fun hs => ?_, fun other ready hother => ?_⟩
  · cases hother
  · refine h.gone hc hidle (hbefore ?_)
    change (if _ then RuntimeState.closed else before.state) = _ at hready
    split at hready
    · cases hready
    · exact hready
  · exact absurd (hidle.symm.trans hs) (by decide)
  · cases hother

theorem lifecycleEnd_phase {c : ServerCommand} {phase : RestartPhase} {previousId : String} {controller : Json}
    {notes : List String} {ending : LifecycleEnd} (h : m.lifecycleEnd c phase previousId controller notes = some ending)
    (startError : Option String) :
    phase ≠ .closing startError := by
  rintro rfl
  cases h

theorem step_phased (hk : m.Kept settings) (h : m.Phased) {action : Action}
    (hstep : m.step settings fingerprint action = some m') : m'.Phased := by
  cases action with
  | start =>
    obtain ⟨-, hstep⟩ := Option.ite_none_right_eq_some.mp hstep
    obtain rfl := Option.some.inj hstep
    exact h.framed rfl rfl rfl id rfl fun hready => by cases hready
  | submit document clock stamps =>
    obtain rfl := Option.some.inj hstep
    exact h.submit hk document clock stamps
  | result i now =>
    obtain rfl := Option.some.inj hstep
    exact h.inner (result_evicted hk i now).inner
  | read i name args =>
    simp only [step] at hstep
    split at hstep
    · cases hstep
    · obtain rfl := Option.some.inj hstep
      unfold read
      split
      · exact h
      · split
        · exact h
        · split
          · exact h
          · split
            · exact h
            · exact h.framed rfl rfl rfl id rfl id
  | leaveRead i =>
    obtain ⟨-, hstep⟩ := Option.ite_none_right_eq_some.mp hstep
    obtain rfl := Option.some.inj hstep
    exact h.framed rfl rfl rfl id rfl id
  | take =>
    simp only [step] at hstep
    split at hstep
    · cases hstep
    · obtain ⟨-, hstep⟩ := Option.ite_none_right_eq_some.mp hstep
      obtain rfl := Option.some.inj hstep
      exact h.framed rfl rfl rfl id rfl id
  | reply message runtimeId stamps now =>
    obtain rfl := Option.some.inj hstep
    exact h.acceptResponse hk message _ stamps now
  | lost message runtimeId stamps now =>
    obtain rfl := Option.some.inj hstep
    exact h.unavailable hk message _ stamps now
  | exit =>
    obtain rfl := Option.some.inj hstep
    exact h.framed rfl rfl rfl id rfl id
  | beginRestart shutdownId =>
    simp only [step] at hstep
    split at hstep
    · rename_i c hrestart
      split at hstep
      · cases hstep
      · obtain rfl := Option.some.inj hstep
        unfold beginRestart
        split
        · rename_i hclosing
          have hidle := h.idle hrestart fun startError => by simp
          refine ⟨fun hbusy => (hbusy hidle).elim, fun hbusy => (hbusy hidle).elim, fun _ _ => ⟨hclosing, hidle⟩,
            h.gone, h.settled, fun other ready hother => ?_⟩
          obtain ⟨entry, -, heq⟩ := Option.map_eq_some_iff.mp hother
          cases (Prod.mk.inj heq).2
        · exact beginClose_phased shutdownId hrestart none
    · cases hstep
  | finishRestart previousId controller notes stamps now =>
    simp only [step] at hstep
    split at hstep
    · rename_i c phase hrestart
      obtain ⟨ending, hending, rfl⟩ := Option.map_eq_some_iff.mp hstep
      exact h.finishLifecycle hk hrestart (lifecycleEnd_phase hending) ending stamps now
    · cases hstep
  | replace runtimeId =>
    simp only [step] at hstep
    split at hstep
    · rename_i c hrestart
      split at hstep
      · cases hstep
      · rename_i hreplaces
        obtain rfl := Option.some.inj hstep
        have hidle := (h.closed c hrestart).2
        refine ⟨fun hbusy => (hbusy hidle).elim, fun hbusy => (hbusy hidle).elim, fun other hother => ?_, fun hc => ?_,
          fun hs => ?_, fun other ready hother => ?_⟩
        · cases (Prod.mk.inj (Option.some.inj hother)).2
        · cases hc
        · exact absurd (hidle.symm.trans hs) (by decide)
        · obtain ⟨rfl, -⟩ := Prod.mk.inj (Option.some.inj hother)
          exact fun hshutdown => hreplaces (Bool.or_eq_true_iff.mpr (.inr (beq_iff_eq.mpr hshutdown)))
    · cases hstep
  | startFails message shutdownId =>
    simp only [step] at hstep
    split at hstep
    · rename_i c hrestart
      obtain rfl := Option.some.inj hstep
      exact beginClose_phased shutdownId hrestart (some message)
    · cases hstep
  | closeHttp =>
    obtain rfl := Option.some.inj hstep
    exact h.framed rfl rfl rfl (fun _ => rfl) rfl id
  | beginClose shutdownId =>
    simp only [step] at hstep
    split at hstep
    · rename_i hfree
      obtain rfl := Option.some.inj hstep
      obtain ⟨hboth, -⟩ := Bool.and_eq_true_iff.mp hfree
      obtain ⟨hhttp, hnone⟩ := Bool.and_eq_true_iff.mp hboth
      have hrestart : m.restart = none := Option.isNone_iff_eq_none.mp hnone
      refine ⟨fun _ => rfl, fun _ => .inr ⟨hrestart, hhttp⟩, fun c hc => ?_, fun _ hidle => ?_, fun hs => ?_, h.starting⟩
      · exact absurd (hrestart.symm.trans hc) (by simp)
      · cases hidle
      · cases hs
    · cases hstep
  | settle failed stamps now =>
    obtain ⟨hjoining, hstep⟩ := Option.ite_none_right_eq_some.mp hstep
    obtain rfl := Option.some.inj hstep
    exact h.settleClose hk hjoining failed stamps now
  | closeChannels blocked =>
    obtain ⟨hsettled, hstep⟩ := Option.ite_none_right_eq_some.mp hstep
    obtain rfl := Option.some.inj hstep
    have hclosing : m.closing = true := by
      refine h.closing ?_
      rw [hsettled]
      decide
    refine ⟨fun _ => hclosing, fun hbusy => (hbusy rfl).elim, fun _ _ => ⟨hclosing, rfl⟩, fun _ _ hready => ?_, fun hs => ?_,
      fun c ready hc => ?_⟩
    · cases hready
    · cases hs
    · obtain ⟨⟨other, phase⟩, hother, heq⟩ := Option.map_eq_some_iff.mp hc
      obtain ⟨rfl, hphase⟩ := Prod.mk.inj heq
      cases phase with
      | starting before => exact h.starting other before hother
      | admitted => cases hphase
      | closing startError =>
        simp only [closedPhase] at hphase
        split at hphase <;> cases hphase
      | closed => cases hphase
      | raised _ => cases hphase

theorem Reachable.phased {Allowed : ServerRuntime → Action → Prop} (h : Reachable settings fingerprint Allowed m) :
    m.Phased := by
  induction h with
  | start instanceId runtimeId mode stopHttp => exact .init instanceId runtimeId mode stopHttp
  | step hbefore _ hnext ih => exact step_phased hbefore.kept ih hnext

end ServerRuntime

end ModularPipelines.Server
