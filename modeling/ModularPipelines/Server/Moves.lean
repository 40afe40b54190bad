import ModularPipelines.Server.Phases

namespace ModularPipelines.Server
open Library

/-- A message that no client has submitted; the IDs of reads are drawn by the owner. -/
def Request.Unsubmitted (drawn : List String) : Request → Prop
  | .submission _ => False
  | .read i _ _ => i ∈ drawn
  | .shutdown _ => True

namespace ServerRuntime

variable {settings : ServerSettings} {fingerprint : Json → String} {m m' m'' : ServerRuntime} {s : Submission}
  {action : Action} {added : List Request} {stays : String → Bool}

def Action.drawn : Action → List String
  | .read i _ _ => [i]
  | _ => []

/-- Only messages of the owner have been put into the queue. -/
structure Queued (added : List Request) (m m' : ServerRuntime) : Prop where
  requests : m'.requests = m.requests ++ added
  owner : m'.restartId = m.restartId
  sent : ∀ i, m'.sent i = m.sent i
  blocked : m'.restartBlocked = none → m.restartBlocked = none

theorem Inner.queued (h : Inner m m') (hsent : ∀ i, m'.sent i = m.sent i) : Queued [] m m' := by
  refine ⟨?_, ?_, hsent, fun hfree => ?_⟩
  · rw [List.append_nil, h]
  · rw [h]
    rfl
  · rw [h] at hfree
    exact hfree

theorem Settles.queued (h : Settles m m' stays) : Queued [] m m' := h.inner.queued h.sent

theorem Inner.state (h : Inner m m') : m'.state = m.state := by rw [h]

/-- All that an action does to the commands without an outcome, to the command of the owner, and to the queue. -/
inductive Moves (action : Action) (m m' : ServerRuntime) : Prop where
  | kept (added : List Request) (queued : Queued added m m') (unsubmitted : ∀ request ∈ added, request.Unsubmitted action.drawn)
    (awaited : ∀ i, m'.awaited i = m.awaited i) (ready : m'.state = .ready → m.state = .ready)
    (unready : m.state = .ready → m'.state = .ready ∨ m'.restartBlocked ≠ none)
  | readied (notice : ∃ stamps now, action = .reply .ready m.runtimeId stamps now) (queued : Queued [] m m')
    (awaited : ∀ i, m'.awaited i = m.awaited i) (after : m'.state = .ready)
  | accepted (s : Submission) (submitted : ∃ clock stamps, action = .submit (.ok s) clock stamps)
    (lifecycle : s.lifecycle = none) (before : m.state = .ready) (after : m'.state = .ready)
    (requests : m'.requests = m.requests ++ [.submission s]) (idle : m.restartId = none) (owner : m'.restartId = none)
    (distinct : s.identifiers.Nodup) (new : ∀ i ∈ s.identifiers, m.awaited i = false)
    (awaited : ∀ i, m'.awaited i = (m.awaited i || decide (i ∈ s.identifiers)))
    (sent : ∀ i, m'.sent i = m.sent i + s.identifiers.count i) (blocked : m'.restartBlocked = none → m.restartBlocked = none)
  | owned (i : String) (requests : m'.requests = m.requests) (idle : m.restartId = none) (owner : m'.restartId = some i)
    (new : m.awaited i = false) (awaited : ∀ j, m'.awaited j = (m.awaited j || decide (j = i))) (state : m'.state = m.state)
    (sent : ∀ j, m'.sent j = m.sent j) (blocked : m'.restartBlocked = none → m.restartBlocked = none)
  | settled (o : ControllerOutcome) (reply : ∃ stamps now, action = .reply (.outcome o) m.runtimeId stamps now)
    (queued : Queued [] m m') (awaited : ∀ j, m'.awaited j = (m.awaited j && j != o.response.commandId))
    (state : m'.state = m.state)
  | ended (i : String) (requests : m'.requests = m.requests) (owner : m.restartId = some i) (idle : m'.restartId = none)
    (awaited : ∀ j, m'.awaited j = (m.awaited j && j != i)) (ready : m'.state = .ready ↔ m.state = .ready)
    (sent : ∀ j, m'.sent j = m.sent j) (blocked : m'.restartBlocked = none → m.restartBlocked = none)
  | lost (queued : Queued [] m m') (awaited : ∀ j, m'.awaited j = (m.awaited j && m.restartId == some j))
    (unready : m'.state ≠ .ready)
  | started (requests : m'.requests = []) (owner : m'.restartId = m.restartId) (awaited : ∀ i, m'.awaited i = m.awaited i)
    (before : m.state ≠ .ready) (after : m'.state ≠ .ready) (sent : ∀ i, m'.sent i = m.sent i)
    (blocked : m'.restartBlocked = none → m.restartBlocked = none)

/-- The receipts and the queue are as before. -/
theorem Moves.framed (hrequests : m'.requests = m.requests) (howner : m'.restartId = m.restartId)
    (hrecords : m'.records = m.records) (hhistory : m'.history = m.history)
    (hblocked : m'.restartBlocked = none → m.restartBlocked = none) (hready : m'.state = .ready → m.state = .ready)
    (hunready : m.state = .ready → m'.state = .ready ∨ m'.restartBlocked ≠ none) : Moves action m m' := by
  refine .kept [] ⟨?_, howner, fun i => ?_, hblocked⟩ (fun request hin => by cases hin) (fun i => ?_) hready hunready
  · rw [hrequests, List.append_nil]
  · rw [sent, hhistory]
    rfl
  · rw [awaited, hrecords]
    rfl

theorem Moves.refl (m : ServerRuntime) : Moves action m m := .framed rfl rfl rfl rfl id id .inl

theorem Moves.evicted (h : Evicted m m') : Moves action m m' := by
  refine .kept [] (h.inner.queued h.sent) (fun request hin => by cases hin) h.awaited (fun hready => ?_) fun hready => .inl ?_
  · exact h.inner.state ▸ hready
  · rw [h.inner.state]
    exact hready

theorem insert_sent (records : List CommandRecord) (i : String) :
    (m.insertSubmission s records).sent i = m.sent i + if s.lifecycle.isNone then s.identifiers.count i else 0 := by
  rw [sent, insert_history, List.countP_append]
  refine congrArg (m.sent i + ·) ?_
  split
  · rw [List.countP_map]
    rfl
  · rfl

theorem submit_moves (hk : m.Kept settings) (document : Except String Submission) (clock : Nat → Nat)
    (stamps : Nat → String) :
    Moves (.submit document clock stamps) m (m.submit settings fingerprint document clock stamps).1 := by
  rcases submit_cases fingerprint hk document clock stamps with
    hevicted | ⟨s, before, hdocument, hbefore, hpassed, hinsertable, hafter⟩
  · exact .evicted hevicted
  · have hnew : ∀ i ∈ s.identifiers, m.awaited i = false := by
      intro i hi
      rw [← hbefore.awaited, awaited, contains_false.mp (hinsertable.absent i hi)]
      rfl
    have hawaited : ∀ i, (m.submit settings fingerprint document clock stamps).1.awaited i
        = (m.awaited i || decide (i ∈ s.identifiers)) := by
      intro i
      rw [hafter.awaited, hinsertable.awaited, hbefore.awaited]
    have hsent : ∀ i, (m.submit settings fingerprint document clock stamps).1.sent i
        = m.sent i + if s.lifecycle.isNone then s.identifiers.count i else 0 := by
      intro i
      rw [hafter.sent, insert_sent, hbefore.sent]
    have hstart := hbefore.inner
    have hend := hafter.inner
    generalize (m.submit settings fingerprint document clock stamps).1 = last at hawaited hsent hend ⊢
    cases hl : s.lifecycle with
    | none =>
      obtain ⟨-, hidle, hready⟩ := requireReady_ok (hpassed.ready hl)
      have hinner := (insert_enqueued hl (newRecords fingerprint s stamps)).trans hend
      rw [hl] at hsent
      rw [hstart] at hready hidle hinner
      rw [hinner] at hawaited hsent ⊢
      refine .accepted s ⟨clock, stamps, hdocument ▸ rfl⟩ hl hready hready rfl ?_ ?_ hinsertable.distinct hnew hawaited hsent id
      · rw [restartId]
        exact congrArg (Option.map _) hidle
      · rw [restartId]
        exact congrArg (Option.map _) hidle
    | some c =>
      obtain ⟨hidle, -⟩ := admitLifecycle_ok (hpassed.lifecycle c hl)
      have hinner := (insert_lifecycle hl (newRecords fingerprint s stamps)).trans hend
      have hids : s.identifiers = [c.commandId] := by
        rw [lifecycle_single hl]
        rfl
      rw [hl] at hsent
      rw [hstart] at hidle hinner
      rw [hinner] at hawaited hsent ⊢
      refine .owned c.commandId rfl ?_ rfl (hnew _ (hids ▸ List.mem_singleton_self _)) (fun j => ?_) rfl hsent id
      · rw [restartId]
        exact congrArg (Option.map _) hidle
      · rw [hawaited, hids]
        simp

theorem unavailable_moves (hk : m.Kept settings) (message : String) (runtimeId : Option String) (stamps : String → Nat)
    (now : Nat) : Moves action m (m.unavailable settings message runtimeId stamps now) := by
  cases hstale : m.stale runtimeId with
  | true =>
    rw [unavailable_stale message stamps now hstale]
    exact .refl m
  | false =>
    have hsettles := unavailable_settles hk message runtimeId stamps now hstale
    have hqueued := hsettles.queued
    refine .lost ⟨hqueued.requests, hqueued.owner, hqueued.sent, hqueued.blocked⟩ hsettles.awaited ?_
    rw [hsettles.inner.state]
    exact fun hready => by cases hready

theorem acceptReady_moves (m : ServerRuntime) (stamps : String → Nat) (now : Nat) :
    Moves (.reply .ready m.runtimeId stamps now) m m.acceptReady := by
  unfold acceptReady
  split
  · exact .refl m
  · refine .readied ⟨stamps, now, rfl⟩ ⟨(List.append_nil _).symm, ?_, fun _ => rfl, id⟩ (fun _ => rfl) rfl
    unfold restartId
    rw [Option.map_map]
    rfl

theorem acceptResponse_moves (hk : m.Kept settings) (message : ControllerMessage) (runtimeId : String)
    (stamps : String → Nat) (now : Nat) :
    Moves (.reply message runtimeId stamps now) m (m.acceptResponse settings message (some runtimeId) stamps now) := by
  unfold acceptResponse
  split
  · exact .refl m
  · rename_i hstale
    have hboth := Bool.or_eq_false_iff.mp (Bool.eq_false_iff.mpr hstale)
    have hopen : m.stale none = false := by
      rw [stale, hboth.1]
      rfl
    have hcurrent : runtimeId = m.runtimeId := by simpa using hboth.2
    subst hcurrent
    cases message with
    | outcome o =>
      have hsettles := acceptCommandResponse_settles hk o.response (stamps o.response.commandId) now
      exact .settled o ⟨stamps, now, rfl⟩ hsettles.queued hsettles.awaited hsettles.inner.state
    | ready => exact acceptReady_moves m stamps now
    | stopped text =>
      have hsettles := unavailable_settles hk text none stamps now hopen
      have hqueued := hsettles.queued
      exact .lost ⟨hqueued.requests, hqueued.owner, hqueued.sent, hqueued.blocked⟩ hsettles.awaited (by simp)
    | error text => exact unavailable_moves hk text none stamps now
    | invalid text => exact unavailable_moves hk _ none stamps now

/-- The task of a shutdown does not end with a ready runtime. -/
theorem lifecycleEnd_shutdown (hp : m.Phased) {c : ServerCommand} {phase : RestartPhase} {previousId : String}
    {controller : Json} {notes : List String} {ending : LifecycleEnd} (hrestart : m.restart = some (c, phase))
    (hending : m.lifecycleEnd c phase previousId controller notes = some ending) (hshutdown : c.command = "server.shutdown")
    (hsucceeded : ending.errorText = none) : m.state ≠ .ready := by
  unfold lifecycleEnd at hending
  split at hending
  · obtain ⟨hunchanged, -⟩ := Option.ite_none_right_eq_some.mp hending
    unfold unchanged at hunchanged
    rw [hshutdown] at hunchanged
    exact (Bool.false_ne_true hunchanged).elim
  · obtain ⟨hclosing, hidle⟩ := hp.closed c hrestart
    exact hp.gone hclosing hidle
  · obtain rfl := Option.some.inj hending
    cases hsucceeded
  · exact absurd hshutdown (hp.starting c true hrestart)
  · cases hending
  · cases hending

theorem finishLifecycle_moves (hk : m.Kept settings) (hp : m.Phased) {c : ServerCommand} {phase : RestartPhase}
    {previousId : String} {controller : Json} {notes : List String} {ending : LifecycleEnd}
    (hrestart : m.restart = some (c, phase))
    (hending : m.lifecycleEnd c phase previousId controller notes = some ending) (stamps : String → Nat) (now : Nat) :
    Moves action m (m.finishLifecycle settings c ending stamps now) := by
  let before : ServerRuntime := { m with
    httpClosing := m.httpClosing || (c.command == "server.shutdown" && ending.errorText.isNone)
    error := ending.errorText.or m.error
    state := if m.state = RuntimeState.closed then .unavailable else m.state }
  have hkept : before.Kept settings := hk.frame rfl rfl rfl fun _ hi => .inl hi
  have hsettles := acceptCommandResponse_settles hkept (ending.response c) (stamps c.commandId) now
  have hid : (ending.response c).commandId = c.commandId := by cases ending <;> rfl
  have hinner := hsettles.inner
  have hbefore : before.state = .ready ↔ m.state = .ready := by
    show (if m.state = RuntimeState.closed then RuntimeState.unavailable else m.state) = _ ↔ _
    split
    · rename_i hclosed
      rw [hclosed]
      refine Iff.intro (fun hready => ?_) fun hready => ?_
      · cases hready
      · cases hready
    · exact Iff.rfl
  rw [hid] at hsettles
  unfold finishLifecycle
  dsimp only
  refine .ended c.commandId ?_ ?_ rfl hsettles.awaited ?_ hsettles.sent fun hfree => ?_
  · rw [hinner]
  · rw [restartId, hrestart]
    rfl
  · change (if _ then RuntimeState.closed else (before.acceptCommandResponse settings _ _ now).state) = _ ↔ _
    split
    · rename_i hboth
      obtain ⟨hcommand, hnone⟩ := Bool.and_eq_true_iff.mp hboth
      have hunready := lifecycleEnd_shutdown hp hrestart hending (beq_iff_eq.mp hcommand) (Option.isNone_iff_eq_none.mp hnone)
      refine Iff.intro (fun hready => ?_) fun hready => (hunready hready).elim
      cases hready
    · rw [hinner.state]
      exact hbefore
  · rw [hinner] at hfree
    exact hfree

theorem read_moves (m : ServerRuntime) (i name : String) (args : List (String × Json)) :
    Moves (.read i name args) m (m.read settings i name args).1 := by
  unfold read
  split
  · exact .refl m
  · split
    · exact .refl m
    · split
      · exact .refl m
      · split
        · exact .refl m
        · refine .kept [.read i name args] ⟨rfl, rfl, fun _ => rfl, id⟩ (fun request hin => ?_) (fun _ => rfl) id .inl
          obtain rfl := List.mem_singleton.mp hin
          exact List.mem_singleton_self _

/-- The controller may be asked to stop. -/
theorem Moves.closing (shutdownId : String) (hrequests : m'.requests = (m.beginClose settings shutdownId).requests)
    (howner : m'.restartId = m.restartId) (hrecords : m'.records = m.records) (hhistory : m'.history = m.history)
    (hblocked : m'.restartBlocked = m.restartBlocked) (hstate : m'.state = m.state) : Moves action m m' := by
  have hsent : ∀ i, m'.sent i = m.sent i := fun i => by rw [sent, hhistory]; rfl
  have hawaited : ∀ i, m'.awaited i = m.awaited i := fun i => by rw [awaited, hrecords]; rfl
  unfold beginClose at hrequests
  by_cases hroom : (m.alive && decide (m.requests.length < settings.queueCapacity)) = true
  · refine .kept [.shutdown shutdownId] ⟨hrequests.trans (if_pos hroom), howner, hsent, hblocked ▸ id⟩ (fun request hin => ?_)
      hawaited (hstate ▸ id) fun hready => .inl (hstate.trans hready)
    obtain rfl := List.mem_singleton.mp hin
    trivial
  · refine .kept [] ⟨(hrequests.trans (if_neg hroom)).trans (List.append_nil _).symm, howner, hsent, hblocked ▸ id⟩
      (fun request hin => ?_) hawaited (hstate ▸ id) fun hready => .inl (hstate.trans hready)
    cases hin

/-- Every action of the owner moves the commands in one of the ways, apart from the taking of a message. -/
theorem step_moves (hk : m.Kept settings) (hp : m.Phased) {action : Action} (htake : action ≠ .take)
    (hstep : m.step settings fingerprint action = some m') : Moves action m m' := by
  cases action with
  | start =>
    obtain ⟨hnew, hstep⟩ := Option.ite_none_right_eq_some.mp hstep
    obtain rfl := Option.some.inj hstep
    refine .started rfl rfl (fun _ => rfl) (fun hready => ?_) (fun hready => ?_) (fun _ => rfl) id
    · rw [hnew] at hready
      cases hready
    · cases hready
  | submit document clock stamps =>
    obtain rfl := Option.some.inj hstep
    exact submit_moves hk document clock stamps
  | result i now =>
    obtain rfl := Option.some.inj hstep
    exact .evicted (result_evicted hk i now)
  | read i name args =>
    simp only [step] at hstep
    split at hstep
    · cases hstep
    · obtain rfl := Option.some.inj hstep
      exact read_moves m i name args
  | leaveRead i =>
    obtain ⟨-, hstep⟩ := Option.ite_none_right_eq_some.mp hstep
    obtain rfl := Option.some.inj hstep
    exact .framed rfl rfl rfl rfl id id .inl
  | take => exact (htake rfl).elim
  | reply message runtimeId stamps now =>
    obtain rfl := Option.some.inj hstep
    exact acceptResponse_moves hk message _ stamps now
  | lost message runtimeId stamps now =>
    obtain rfl := Option.some.inj hstep
    exact unavailable_moves hk message _ stamps now
  | exit =>
    obtain rfl := Option.some.inj hstep
    exact .framed rfl rfl rfl rfl id id .inl
  | beginRestart shutdownId =>
    simp only [step] at hstep
    split at hstep
    · split at hstep
      · cases hstep
      · obtain rfl := Option.some.inj hstep
        unfold beginRestart
        split
        · exact .framed rfl (setRestartPhase_restartId m _) rfl rfl id id .inl
        · exact .closing shutdownId rfl (setRestartPhase_restartId _ _) rfl rfl rfl rfl
    · cases hstep
  | finishRestart previousId controller notes stamps now =>
    simp only [step] at hstep
    split at hstep
    · rename_i c phase hrestart
      obtain ⟨ending, hending, rfl⟩ := Option.map_eq_some_iff.mp hstep
      exact finishLifecycle_moves hk hp hrestart hending stamps now
    · cases hstep
  | replace runtimeId =>
    simp only [step] at hstep
    split at hstep
    · rename_i c hrestart
      split at hstep
      · cases hstep
      · obtain rfl := Option.some.inj hstep
        obtain ⟨hclosing, hidle⟩ := hp.closed c hrestart
        refine .started rfl ?_ (fun _ => rfl) (hp.gone hclosing hidle) (fun hready => ?_) (fun _ => rfl) id
        · rw [restartId, restartId, hrestart]
          rfl
        · cases hready
    · cases hstep
  | startFails message shutdownId =>
    simp only [step] at hstep
    split at hstep
    · obtain rfl := Option.some.inj hstep
      exact .closing shutdownId rfl (setRestartPhase_restartId _ _) rfl rfl rfl rfl
    · cases hstep
  | closeHttp =>
    obtain rfl := Option.some.inj hstep
    exact .framed rfl rfl rfl rfl id id .inl
  | beginClose shutdownId =>
    simp only [step] at hstep
    split at hstep
    · obtain rfl := Option.some.inj hstep
      exact .closing shutdownId rfl rfl rfl rfl rfl rfl
    · cases hstep
  | settle failed stamps now =>
    obtain ⟨-, hstep⟩ := Option.ite_none_right_eq_some.mp hstep
    obtain rfl := Option.some.inj hstep
    cases failed with
    | some message =>
      refine .framed rfl rfl rfl rfl (fun hfree => ?_) id .inl
      cases hfree
    | none =>
      unfold settleClose
      dsimp only
      cases hstale : m.stale none with
      | true =>
        rw [unavailable_stale closedMessage stamps now hstale]
        exact .framed rfl rfl rfl rfl id id .inl
      | false =>
        have hsettles := unavailable_settles hk closedMessage none stamps now hstale
        have hqueued := hsettles.queued
        refine .lost ⟨hqueued.requests, hqueued.owner, hqueued.sent, hqueued.blocked⟩ hsettles.awaited fun hready => ?_
        have hstate := hsettles.inner.state.symm.trans hready
        cases hstate
  | closeChannels blocked =>
    obtain ⟨hsettled, hstep⟩ := Option.ite_none_right_eq_some.mp hstep
    obtain rfl := Option.some.inj hstep
    refine .framed rfl (closeChannels_restartId m blocked) rfl rfl (fun hfree => ?_) (fun hready => ?_)
      fun hready => .inr fun hfree => ?_
    · exact (Option.or_eq_none_iff.mp hfree).2
    · cases hready
    · exact hp.settled hsettled (Option.or_eq_none_iff.mp hfree).2 hready

/-- Only a ready runtime has commands without an outcome, apart from the owner's own. -/
def Drained (m : ServerRuntime) : Prop :=
  m.restartBlocked = none → m.state ≠ .ready → ∀ i, m.awaited i = true → m.restartId = some i

theorem Moves.drained (h : Moves action m m') (hd : m.Drained) : m'.Drained := by
  intro hfree hunready i hi
  cases h with
  | kept added queued _ awaited _ unready =>
    have hbefore : m.state ≠ .ready := fun hready => (unready hready).elim hunready fun hblocked => hblocked hfree
    exact queued.owner.trans (hd (queued.blocked hfree) hbefore i (awaited i ▸ hi))
  | readied _ _ _ after => exact (hunready after).elim
  | accepted s _ _ _ after => exact (hunready after).elim
  | owned j _ idle owner _ awaited state _ blocked =>
    rw [awaited] at hi
    rcases Bool.or_eq_true_iff.mp hi with hold | hnew
    · have howner := hd (blocked hfree) (state ▸ hunready) i hold
      rw [idle] at howner
      cases howner
    · rw [owner, of_decide_eq_true hnew]
  | settled _ _ queued awaited state =>
    rw [awaited] at hi
    exact queued.owner.trans (hd (queued.blocked hfree) (state ▸ hunready) i (Bool.and_eq_true_iff.mp hi).1)
  | ended j _ owner idle awaited ready _ blocked =>
    rw [awaited] at hi
    obtain ⟨hold, hne⟩ := Bool.and_eq_true_iff.mp hi
    have howner := hd (blocked hfree) (fun hready => hunready (ready.mpr hready)) i hold
    rw [owner] at howner
    exact (bne_iff_ne.mp hne (Option.some.inj howner).symm).elim
  | lost queued awaited _ =>
    rw [awaited] at hi
    exact queued.owner.trans (beq_iff_eq.mp (Bool.and_eq_true_iff.mp hi).2)
  | started _ owner awaited before _ _ blocked =>
    exact owner.trans (hd (blocked hfree) before i (awaited i ▸ hi))

theorem Drained.init (instanceId runtimeId : String) (mode : ServerMode) (stopHttp : Bool) :
    (init instanceId runtimeId mode stopHttp).Drained := by
  intro _ _ i hi
  cases hi

theorem step_drained (hk : m.Kept settings) (hp : m.Phased) (hd : m.Drained) {action : Action}
    (hstep : m.step settings fingerprint action = some m') : m'.Drained := by
  by_cases htake : action = .take
  · subst htake
    simp only [step] at hstep
    split at hstep
    · cases hstep
    · obtain ⟨-, hstep⟩ := Option.ite_none_right_eq_some.mp hstep
      obtain rfl := Option.some.inj hstep
      exact hd
  · exact (step_moves hk hp htake hstep).drained hd

theorem Reachable.drained {Allowed : ServerRuntime → Action → Prop} (h : Reachable settings fingerprint Allowed m) :
    m.Drained := by
  induction h with
  | start instanceId runtimeId mode stopHttp => exact .init instanceId runtimeId mode stopHttp
  | step hbefore _ hnext ih => exact step_drained hbefore.kept hbefore.phased ih hnext

end ServerRuntime

end ModularPipelines.Server
