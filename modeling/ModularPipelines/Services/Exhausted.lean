import ModularPipelines.Services.Budget

namespace ModularPipelines.Services
open Runner

variable {d : ServiceDefinition} {s s' : Supervision}

attribute [local grind] Supervision.stopped Supervision.flagged Supervision.launcher Supervision.blocked
  Supervision.monitored Supervision.registered Supervision.update Supervision.finishAutomatic
  Supervision.restartLoop Supervision.beginRestart Supervision.detach Supervision.beginStop
  Supervision.startRaises Supervision.phase Supervision.publish Supervision.spawn Supervision.leave
  Supervision.launchFails Supervision.launchRaises Supervision.launchCompletes Supervision.shutDown
  Supervision.userStop Supervision.finishStop Supervision.beginCycle Automatic.retired Automatic.counted
  Automatic.underway Automatic.replaced Control.replaced confirmedStop unconfirmedStop
  ServiceInstance.retire prepareServiceStart ServiceInstance.create

section
variable {who : Starter} {instanceId : String}

/-- What a stop leaves behind until the user starts the service. -/
structure Ended (d : ServiceDefinition) (s : Supervision) : Prop where
  flagged : s.control = .saving true ∨ s.control = .stopping true → s.flagged = true
  policy : ∀ held, s.automatic = .stopping true held → d.errors.onExhausted ≠ .skip
  exhausted : s.exhausted = true → s.automatic = .idle ∧ s.watch = none ∧ s.booting = false ∧
    s.stopped = true ∧ s.blocked d = true ∧ d.errors.onExhausted ≠ .skip
  userStopped : s.userStopped = true → s.automatic.underway = false ∧ s.launch = none ∧
    s.booting = false ∧ s.flagged = true

theorem leave_blocked (who : Starter) (d : ServiceDefinition) (s : Supervision) : (s.leave who).blocked d = s.blocked d ∧
    (s.leave who).exhausted = s.exhausted ∧ (s.leave who).userStopped = s.userStopped := by
  cases who with
  | restart =>
    cases hc : s.current <;> cases ha : s.automatic <;>
      simp [Supervision.leave, Supervision.update, Supervision.blocked, ha, hc]
  | direct =>
    rcases hl : s.launch with - | ⟨launcher, phase, held⟩
    · simp [Supervision.leave, Supervision.blocked, hl]
    · cases hc : s.current <;> cases phase <;> cases held <;>
        simp [Supervision.leave, Supervision.update, Supervision.blocked, hc, hl]

theorem beginStop_blocked (spawned : Bool) (d : ServiceDefinition) (s : Supervision) :
    (s.beginStop spawned).blocked d = s.blocked d ∧ (s.stopped = true → (s.beginStop spawned).stopped = true) ∧
    (s.beginStop spawned).exhausted = s.exhausted ∧ (s.beginStop spawned).userStopped = s.userStopped := by
  cases hc : s.current <;> cases ha : s.automatic <;> cases spawned <;>
    simp [Supervision.beginStop, Supervision.detach, Supervision.update, Supervision.blocked,
      Supervision.stopped, ha, hc]

theorem Control.replaced_held (c : Control) : c.replaced ≠ .saving true ∧ c.replaced ≠ .stopping true := by
  cases c <;> simp [Control.replaced]

theorem Automatic.replaced_stopping {a : Automatic} {exhausted held : Bool}
    (h : a.replaced = .stopping exhausted held) : ∃ held, a = .stopping exhausted held := by
  cases a <;> simp [Automatic.replaced] at h ⊢
  exact h.1

theorem publish_control : (s.publish d instanceId who).control = s.control.replaced := by
  cases who <;> rfl

theorem Ended.publish (h : Ended d s) (hp : s.phase who = some .preparing) :
    Ended d (s.publish d instanceId who) := by
  have hk := Control.replaced_held s.control
  obtain ⟨h1, h2, h3, h4⟩ := h
  cases who with
  | restart =>
    obtain ⟨held, ha⟩ := phase_preparing hp
    constructor
    case flagged =>
      rw [publish_control]
      intro hc
      rcases hc with hc | hc
      · exact absurd hc hk.1
      · exact absurd hc hk.2
    all_goals grind
  | direct =>
    obtain ⟨launcher, held, hl⟩ := phase_direct hp
    constructor
    case flagged =>
      rw [publish_control]
      intro hc
      rcases hc with hc | hc
      · exact absurd hc hk.1
      · exact absurd hc hk.2
    case policy =>
      intro held ha
      obtain ⟨held, ha⟩ := Automatic.replaced_stopping ha
      exact h2 held ha
    case exhausted => simp [Supervision.publish]
    case userStopped =>
      intro hu
      have := (h4 hu).2.1
      simp [hl] at this

theorem Ended.spawn (h : Ended d s) (hp : s.phase who = some .spawning) : Ended d (s.spawn who) := by
  obtain ⟨h1, h2, h3, h4⟩ := h
  cases who with
  | restart =>
    have ha := phase_spawning hp
    constructor <;> grind
  | direct =>
    obtain ⟨launcher, held, hl⟩ := phase_direct hp
    constructor <;> grind

theorem Ended.leave (h : Ended d s) : Ended d (s.leave who) := by
  obtain ⟨-, ha, hw, hb, hk, hf, -, hl⟩ := leave_frame who s
  obtain ⟨hd, hx, hu⟩ := leave_blocked who d s
  obtain ⟨-, -, hs⟩ := leave_kept who s
  obtain ⟨h1, h2, h3, h4⟩ := h
  constructor
  case flagged => rw [hk, hf]; exact h1
  case policy => rw [ha]; exact h2
  case exhausted =>
    rw [hx, ha, hw, hb, hd]
    intro he
    obtain ⟨h5, h6, h7, h8, h9, h10⟩ := h3 he
    exact ⟨h5, h6, h7, hs h8, h9, h10⟩
  case userStopped =>
    rw [hu, ha, hb, hf, hl]
    intro he
    obtain ⟨h5, h6, h7, h8⟩ := h4 he
    exact ⟨h5, by simp [h6], h7, h8⟩

theorem Ended.stop (h : Ended d s) {spawned : Bool} {control : Control}
    (hk : control = .saving true ∨ control = .stopping true → s.flagged = true) :
    Ended d { s.beginStop spawned with control := control } := by
  obtain ⟨-, ha, hw, hb, hl, hf, -⟩ := beginStop_frame spawned s
  obtain ⟨hd, hs, hx, hu⟩ := beginStop_blocked spawned d s
  obtain ⟨h1, h2, h3, h4⟩ := h
  constructor
  case flagged => exact fun hc => hf.trans (hk hc)
  case policy => simp [ha]
  case exhausted =>
    intro he
    obtain ⟨-, h6, h7, h8, h9, h10⟩ := h3 (hx ▸ he)
    exact ⟨ha, hw.trans h6, hb.trans h7, hs h8, hd.trans h9, h10⟩
  case userStopped =>
    intro he
    obtain ⟨-, h6, h7, h8⟩ := h4 (hu ▸ he)
    exact ⟨by simp [ha, Automatic.underway], hl.trans h6, hb.trans h7, hf.trans h8⟩

theorem Ended.update (h : Ended d s) {change : ServiceInstance → ServiceInstance}
    (hs : ∀ i, (change i).stopped = i.stopped) (hf : ∀ i, i.manuallyStopped = true → (change i).manuallyStopped = true)
    (hb : ∀ i, (change i).blockedAction = i.blockedAction) : Ended d (s.update change) := by
  obtain ⟨h1, h2, h3, h4⟩ := h
  cases hi : s.current with
  | none => constructor <;> simp_all [Supervision.update, Supervision.flagged, Supervision.stopped]
  | some i =>
    have hff : s.flagged = true → (s.update change).flagged = true := by
      simpa [Supervision.flagged, Supervision.update, hi] using hf i
    have hbb : s.blocked d = true → (s.update change).blocked d = true := by
      simp only [Supervision.blocked, Supervision.update, hi, Option.any_some, Option.map_some, hb, Bool.or_eq_true]
      exact Or.imp_right (hf i)
    have hss : (s.update change).stopped = s.stopped := by
      simp [Supervision.stopped, Supervision.update, hi, hs]
    constructor
    case flagged => exact fun hk => hff (h1 hk)
    case policy => exact h2
    case exhausted =>
      intro he
      obtain ⟨h5, h6, h7, h8, h9, h10⟩ := h3 he
      exact ⟨h5, h6, h7, hss.trans h8, hbb h9, h10⟩
    case userStopped =>
      intro he
      obtain ⟨h5, h6, h7, h8⟩ := h4 he
      exact ⟨h5, h6, h7, hff h8⟩

theorem Ended.startRaises (h : Ended d s) {spawned : Bool} : Ended d (s.startRaises spawned) := by
  cases hi : s.current with
  | none =>
    obtain ⟨h1, h2, h3, h4⟩ := h
    simp only [Supervision.startRaises, hi]
    constructor <;> grind
  | some i =>
    simp only [Supervision.startRaises, hi]
    apply Ended.stop
    · exact h.update (fun _ => rfl) (fun _ _ => rfl) (fun _ => rfl)
    · simp

theorem Ended.finish (h : Ended d s) : Ended d s.finishAutomatic := by
  obtain ⟨h1, h2, h3, h4⟩ := h
  constructor <;> grind

theorem Ended.restartLoop (h : Ended d s) {i : ServiceInstance} (hf : s.flagged = i.manuallyStopped)
    (hx : s.exhausted = false) : Ended d (s.restartLoop d i) := by
  obtain ⟨h1, h2, h3, h4⟩ := h
  constructor <;> grind

theorem Ended.beginRestart (h : Ended d s) {i : ServiceInstance} (hf : s.flagged = i.manuallyStopped)
    (hx : s.exhausted = false) : Ended d (s.beginRestart d i) := by
  unfold Supervision.beginRestart
  split
  · exact h.finish
  · exact h.restartLoop hf hx

/-- Neither an active restart nor the first launch leaves room for an exhausted budget. -/
theorem Ended.unexhausted (h : Ended d s) (he : Exclusive s)
    (hs : s.automatic ≠ .idle ∨ s.launcher = some .first) : s.exhausted = false := by
  have hf := he.first
  obtain ⟨h1, h2, h3, h4⟩ := h
  cases hx : s.exhausted with
  | false => rfl
  | true =>
    obtain ⟨ha, -, hb, -⟩ := h3 hx
    rcases hs with hs | hs
    · exact absurd ha hs
    · simp [hf hs] at hb

theorem Ended.launchRaises (h : Ended d s) {at' : LaunchPhase} {spawned : Bool} (hp : s.phase who = some at') :
    Ended d (s.launchRaises spawned who) := by
  cases who with
  | restart => exact h.leave.finish
  | direct =>
    obtain ⟨launcher, held, hl⟩ := phase_direct hp
    cases launcher with
    | first =>
      simp only [Supervision.launchRaises, hl]
      exact h.leave.finish
    | start =>
      simp only [Supervision.launchRaises, hl]
      exact h.leave.startRaises

theorem phase_active (hp : s.phase .restart ≠ none) : s.automatic ≠ .idle := by
  intro ha
  simp [Supervision.phase, ha] at hp

theorem Ended.launchFails (h : Ended d s) (he : Exclusive s) {at' : LaunchPhase} {message : String}
    {spawned : Bool} (hp : s.phase who = some at') : Ended d (s.launchFails d message spawned who) := by
  obtain ⟨-, hx, -⟩ := leave_blocked who d s
  cases who with
  | restart =>
    have hn := h.unexhausted he (.inl (phase_active (by simp [hp])))
    cases hc : (s.leave .restart).current with
    | none =>
      simp only [Supervision.launchFails, hc]
      exact h.leave.finish
    | some i =>
      simp only [Supervision.launchFails, hc]
      exact h.leave.restartLoop (by simp [Supervision.flagged, hc]) (hx.trans hn)
  | direct =>
    obtain ⟨launcher, held, hl⟩ := phase_direct hp
    cases launcher with
    | first =>
      have hn := h.unexhausted he (.inr (by simp [Supervision.launcher, hl]))
      cases hc : (s.leave .direct).current with
      | none =>
        simp only [Supervision.launchFails, hl, hc]
        exact h.leave.finish
      | some i =>
        simp only [Supervision.launchFails, hl, hc]
        exact h.leave.beginRestart (by simp [Supervision.flagged, hc]) (hx.trans hn)
    | start =>
      simp only [Supervision.launchFails, hl]
      exact h.leave.startRaises

theorem Ended.launchCompletes (h : Ended d s) (hp : s.phase who = some .confirming) :
    Ended d (s.launchCompletes who) := by
  obtain ⟨h1, h2, h3, h4⟩ := h
  cases who with
  | restart => constructor <;> grind
  | direct =>
    obtain ⟨launcher, held, hl⟩ := phase_direct hp
    simp only [Supervision.launchCompletes, hl]
    cases launcher with
    | first => constructor <;> grind
    | start => constructor <;> grind

theorem Ended.unwatched (h : Ended d s) (hw : s.watch ≠ none) : s.exhausted = false := by
  by_contra hx
  exact hw (h.exhausted (by simpa using hx)).2.1

theorem Ended.observe (h : Ended d s) (hw : s.watch ≠ none) {i i' : ServiceInstance} (hi : s.current = some i)
    (hf : i'.manuallyStopped = i.manuallyStopped) : Ended d { s with current := some i', watch := none } := by
  have hx := h.unwatched hw
  obtain ⟨h1, h2, h3, h4⟩ := h
  constructor
  case flagged => simpa [Supervision.flagged, hi, hf] using h1
  case policy => exact h2
  case exhausted => simp [hx]
  case userStopped => simpa [Supervision.flagged, hi, hf] using h4

theorem Ended.schedule (h : Ended d s) (hw : s.watch ≠ none) :
    Ended d { s with automatic := .scheduled, watch := none } := by
  have hx := h.unwatched hw
  obtain ⟨h1, h2, h3, h4⟩ := h
  exact ⟨h1, by simp, by simp [hx], fun hu => ⟨rfl, (h4 hu).2⟩⟩

theorem Ended.reschedule (h : Ended d s) (hw : s.watch ≠ none) {i i' : ServiceInstance} (hi : s.current = some i)
    (hf : i'.manuallyStopped = i.manuallyStopped) :
    Ended d { s with current := some i', automatic := .scheduled, watch := none } := by
  obtain ⟨h1, h2, h3, h4⟩ := h.observe hw hi hf
  have hx : s.exhausted = false := h.unwatched hw
  exact ⟨h1, by simp, by simp [hx], fun hu => ⟨rfl, (h4 hu).2⟩⟩

/-- The end of a restart that confirmed the stop of the current instance. -/
theorem Ended.shutDown (h : Ended d s) (he : Exclusive s) {i : ServiceInstance} {exhausted : Bool}
    (ha : s.automatic = .stopping exhausted true) (hi : s.current = some i) :
    Ended d (s.shutDown d i exhausted) := by
  have hw := he.watched
  have hx := h.unexhausted he (.inl (by simp [ha]))
  obtain ⟨h1, h2, h3, h4⟩ := h
  cases exhausted with
  | true => constructor <;> grind
  | false => constructor <;> grind

/-- The end of the user's stop, or of the cleanup of a failed start. -/
theorem Ended.conclude (h : Ended d s) {i i' : ServiceInstance} (hi : s.current = some i)
    (hf : i'.manuallyStopped = i.manuallyStopped) (hs : i.stopped = true → i'.stopped = true)
    (hb : i.stopped = true → i'.blockedAction = i.blockedAction ∨ i'.manuallyStopped = true) :
    Ended d { s with current := some i', control := .idle } := by
  obtain ⟨h1, h2, h3, h4⟩ := h
  constructor
  case flagged => simp
  case policy => exact h2
  case exhausted => grind
  case userStopped => simpa [Supervision.flagged, hi, hf] using h4

theorem Ended.step (h : Ended d s) (he : Exclusive s) (hs : Step d s s') : Ended d s' := by
  obtain ⟨h1, h2, h3, h4⟩ := id h
  cases hs with
  | boot hc hk =>
    refine ⟨fun hn => by simp [hk] at hn, h2, fun hx => ?_, fun hu => ?_⟩
    · have := (h3 hx).2.2.2.1
      simp [Supervision.stopped, hc] at this
    · have := (h4 hu).2.2.2
      simp [Supervision.flagged, hc] at this
  | look hi _ hm =>
    refine ⟨h1, h2, fun hx => ?_, h4⟩
    have := (h3 hx).2.2.2.1
    simp_all [Supervision.stopped, Supervision.monitored]
  | collect hi _ _ _ hs =>
    refine ⟨h1, h2, fun hx => ?_, h4⟩
    have := (h3 hx).2.2.2.1
    simp_all [Supervision.stopped]
  | pass => exact ⟨h1, h2, fun hx => ⟨(h3 hx).1, rfl, (h3 hx).2.2⟩, h4⟩
  | react hw hi => exact h.reschedule (by simp [hw]) hi rfl
  | reactLate hw => exact h.schedule (by simp [hw])
  | timeoutRestart hw hi => exact h.reschedule (by simp [hw]) hi rfl
  | timeoutBlocks hw hi => exact h.observe (by simp [hw]) hi rfl
  | lateReply hw hi => exact h.reschedule (by simp [hw]) hi rfl
  | lateRelease hw hi => exact h.observe (by simp [hw]) hi rfl
  | reply hw hi => exact h.observe (by simp [hw]) hi rfl
  | send hw hi => exact h.observe (by simp [hw]) hi rfl
  | heartbeat => exact h.update (fun _ => rfl) (fun _ h => h) (fun _ => rfl)
  | failure => exact h.update (fun _ => rfl) (fun _ h => h) (fun _ => rfl)
  | queue => exact h.update (fun _ => rfl) (fun _ h => h) (fun _ => rfl)
  | begin ha hc =>
    have hn := h.unexhausted he (.inl (by simp [ha]))
    exact h.beginRestart (by simp [Supervision.flagged, hc]) hn
  | stopped ha hi => exact h.shutDown he ha hi
  | unstopped ha hi =>
    have hx := h.unexhausted he (.inl (by simp [ha]))
    constructor <;> grind
  | stoppedRetired ha => constructor <;> grind
  | endedRetired => exact h.finish
  | wakeFlagged => exact h.finish
  | wake ha hi hm => constructor <;> grind
  | publish hp => exact h.publish hp
  | refuse hp => exact h.launchRaises hp
  | spawn hp => exact h.spawn hp
  | fails hp => exact h.launchFails he hp
  | raises hp => exact h.launchRaises hp
  | started hp => exact h.launchCompletes hp
  | userStop hk hb =>
    have hl := he.unlaunched hb (by simp [hk])
    have hp := he.present
    cases hc : s.current with
    | none => constructor <;> grind
    | some i => constructor <;> grind
  | stopBegins hk => exact h.stop (by grind)
  | @userStopped i held hk hi =>
    apply h.conclude hi
    · cases held <;> rfl
    · cases held <;> exact fun _ => rfl
    · cases held with
      | true =>
        have hm := h1 (.inr hk)
        simp only [Supervision.flagged, hi, Option.any_some] at hm
        exact fun _ => .inr hm
      | false => exact fun _ => .inl rfl
  | userStoppedReported _ hi => exact h.conclude hi rfl (fun _ => rfl) (fun _ => .inl rfl)
  | userUnstopped _ hi hs => exact h.conclude hi rfl (by simp [hs]) (by simp [hs])
  | userStart hk hb ha => exact ⟨by simp, h2, h3, by simp⟩
  | cleaned _ hi => exact h.conclude hi rfl (fun _ => rfl) (fun _ => .inl rfl)
  | uncleaned _ hi hs => exact h.conclude hi rfl (by simp [hs]) (by simp [hs])
  | grant => exact ⟨h1, h2, h3, h4⟩
  | advance =>
    have hc : Ended d (s.update fun i => { i with restartCount := 0 }) :=
      h.update (fun _ => rfl) (fun _ h => h) (fun _ => rfl)
    obtain ⟨g1, g2, g3, g4⟩ := hc
    exact ⟨g1, g2, g3, g4⟩
  | progress => exact ⟨h1, h2, h3, h4⟩

end

theorem not_ready {before after : List ServiceInstance} {missing : Bool} {i : ServiceInstance}
    (h : i.blockedAction.isSome = true ∨ i.manuallyStopped = true) :
    readinessAction (before ++ i :: after) missing ≠ some .ready := by
  unfold readinessAction
  cases hf : (before ++ i :: after).findSome? fun i => if i.manuallyStopped then none else i.blockedAction with
  | some action => cases action <;> simp [ServiceAction.ofBlocked]
  | none =>
    have hm : i.manuallyStopped = true := by
      rcases h with h | h
      · have hi := List.findSome?_eq_none_iff.mp hf i (by simp)
        by_contra hn
        simp [hn] at hi
        simp [hi] at h
      · exact h
    have ha : (before ++ i :: after).any (·.manuallyStopped) = true := by simp [hm]
    simp only [ha, if_true]
    split
    · simp
    · split <;> simp

/-- The moves of `restart`. -/
inductive Moves (s s' : Supervision) : Prop
  | stays : s'.automatic = s.automatic → Moves s s'
  | ends : s'.automatic = .idle → Moves s s'
  | scheduled : s.watch ≠ none → s'.automatic = .scheduled → Moves s s'
  | stops (exhausted : Bool) : s.automatic ≠ .idle ∨ s.launcher = some .first →
    s'.automatic = .stopping exhausted true → Moves s s'
  | delays (exhausted held : Bool) : s.automatic = .stopping exhausted held → s'.automatic = .delaying held →
    Moves s s'
  | prepares (held : Bool) : s.automatic = .delaying held → s.flagged = false → s'.automatic = .preparing held →
    Moves s s'
  | publishes (held : Bool) : s.automatic = .preparing held → (∀ i ∈ s.current, i.stopped = true) →
    s'.automatic = .spawning → Moves s s'
  | spawns : s.automatic = .spawning → s'.automatic = .confirming → Moves s s'
  | retires : s'.automatic = s.automatic.replaced → Moves s s'

theorem startRaises_moves (spawned : Bool) (s : Supervision) :
    (s.startRaises spawned).automatic = s.automatic ∨ (s.startRaises spawned).automatic = .idle := by
  cases hi : s.current with
  | none =>
    left
    simp [Supervision.startRaises, hi]
  | some i =>
    right
    simp only [Supervision.startRaises, hi]
    exact (beginStop_frame _ _).2.1

theorem launchRaises_moves {who : Starter} {at' : LaunchPhase} (spawned : Bool) (hp : s.phase who = some at') :
    (s.launchRaises spawned who).automatic = s.automatic ∨ (s.launchRaises spawned who).automatic = .idle := by
  have hf := (leave_frame .direct s).2.1
  cases who with
  | restart => exact .inr rfl
  | direct =>
    obtain ⟨launcher, held, hl⟩ := phase_direct hp
    simp only [Supervision.launchRaises, hl]
    cases launcher with
    | first => exact .inr rfl
    | start => simpa only [hf] using startRaises_moves spawned (s.leave .direct)

theorem launchFails_moves {who : Starter} {at' : LaunchPhase} {message : String} {spawned : Bool}
    (hp : s.phase who = some at') : Moves s (s.launchFails d message spawned who) := by
  have hf := (leave_frame .direct s).2.1
  cases who with
  | restart =>
    have hn := phase_active (s := s) (by simp [hp])
    simp only [Supervision.launchFails]
    split
    · exact .ends rfl
    · exact .stops _ (.inl hn) rfl
  | direct =>
    obtain ⟨launcher, held, hl⟩ := phase_direct hp
    simp only [Supervision.launchFails, hl]
    cases launcher with
    | first =>
      dsimp only
      split
      · exact .ends rfl
      · unfold Supervision.beginRestart
        split
        · exact .ends rfl
        · exact .stops _ (.inr (by simp [Supervision.launcher, hl])) rfl
    | start =>
      rcases startRaises_moves spawned (s.leave .direct) with h | h
      · exact .stays (h.trans hf)
      · exact .ends h

theorem launchCompletes_moves {who : Starter} {at' : LaunchPhase} (hp : s.phase who = some at') :
    (s.launchCompletes who).automatic = s.automatic ∨ (s.launchCompletes who).automatic = .idle := by
  cases who with
  | restart => exact .inr rfl
  | direct =>
    obtain ⟨launcher, held, hl⟩ := phase_direct hp
    simp only [Supervision.launchCompletes, hl]
    cases launcher with
    | first => exact .inr rfl
    | start => exact .inl rfl

theorem Step.moves (hs : Step d s s') : Moves s s' := by
  cases hs with
  | react hw => exact .scheduled (by simp [hw]) rfl
  | reactLate hw => exact .scheduled (by simp [hw]) rfl
  | timeoutRestart hw => exact .scheduled (by simp [hw]) rfl
  | lateReply hw => exact .scheduled (by simp [hw]) rfl
  | begin ha =>
    unfold Supervision.beginRestart
    split
    · exact .ends rfl
    · exact .stops _ (.inl (by simp [ha])) rfl
  | @stopped i exhausted ha =>
    unfold Supervision.shutDown
    split
    · exact .ends rfl
    · exact .delays _ _ ha rfl
  | unstopped => exact .ends rfl
  | stoppedRetired ha => exact .delays _ _ ha rfl
  | endedRetired => exact .ends rfl
  | wakeFlagged => exact .ends rfl
  | wake ha hi hm => exact .prepares _ ha (by simp [Supervision.flagged, hi, hm]) rfl
  | @publish who _ hp ho =>
    cases who with
    | restart =>
      obtain ⟨held, ha⟩ := phase_preparing hp
      exact .publishes held ha ho rfl
    | direct => exact .retires rfl
  | @refuse _ _ spawned hp =>
    rcases launchRaises_moves spawned hp with h | h
    · exact .stays h
    · exact .ends h
  | @spawn who hp =>
    cases who with
    | restart => exact .spawns (phase_spawning hp) rfl
    | direct => exact .stays rfl
  | fails hp => exact launchFails_moves hp
  | @raises _ _ spawned hp =>
    rcases launchRaises_moves spawned hp with h | h
    · exact .stays h
    · exact .ends h
  | started hp =>
    rcases launchCompletes_moves hp with h | h
    · exact .stays h
    · exact .ends h
  | stopBegins => exact .ends (beginStop_frame _ s).2.1
  | _ => exact .stays rfl

theorem Step.published {held : Bool} (hs : Step d s s') (ha : s.automatic = .preparing held)
    (hb : s'.automatic = .spawning) : ∀ i ∈ s.current, i.stopped = true := by
  cases hs.moves <;> grind

theorem exhaustedAction_isSome {action : ExhaustedAction} (h : action ≠ .skip) :
    (exhaustedAction action).isSome = true := by
  cases action <;> simp [exhaustedAction] at h ⊢

theorem Ended.step_idle (h : Ended d s) (he : Exclusive s) (hx : s.exhausted = true) (hs : Step d s s') :
    s'.automatic = .idle := by
  have hf := he.first
  obtain ⟨ha, hw, hb, -, -, -⟩ := h.exhausted hx
  cases hs.moves <;> grind

@[grind =]
theorem Automatic.replaced_underway {a : Automatic} : a.replaced.underway = a.underway := by
  cases a <;> rfl

theorem Step.underway (hs : Step d s s') (hf : s.flagged = true) (hu : s.automatic.underway = false) :
    s'.automatic.underway = false := by
  cases hs.moves <;> grind

theorem startRaises_launches {spawned : Bool} (hu : s.automatic.underway = false) :
    (s.startRaises spawned).launches ≤ s.launches := by
  cases hi : s.current with
  | none => simp [Supervision.startRaises, hi]
  | some i =>
    simp only [Supervision.startRaises, hi]
    cases ha : s.automatic <;> cases spawned <;> grind

theorem leave_startRaises_launches (spawned : Bool) (hu : s.automatic.underway = false) :
    ((s.leave .direct).startRaises spawned).launches ≤ s.launches := by
  obtain ⟨-, ha, -⟩ := leave_frame .direct s
  obtain ⟨hl, -⟩ := leave_kept .direct s
  exact hl ▸ startRaises_launches (ha ▸ hu)

theorem Step.launches (hs : Step d s s') (hu : s.automatic.underway = false) : s'.launches ≤ s.launches := by
  have hk := fun who => (leave_kept who s).1
  have hr := fun spawned => leave_startRaises_launches spawned hu
  cases hs with
  | publish => exact Nat.le_of_eq publish_launches
  | @refuse who _ spawned hp => cases who <;> grind
  | @spawn who hp => cases who <;> grind
  | @fails who _ _ spawned hp => cases who <;> grind
  | @raises who _ spawned hp => cases who <;> grind
  | @started who hp => cases who <;> grind
  | stopBegins => cases ha : s.automatic <;> grind
  | _ => grind

theorem Supervised.sound (h : Supervised d s) : Exclusive s ∧ Counted d s ∧ Ended d s := by
  induction h with
  | start =>
    refine ⟨?_, ?_, ?_⟩
    · constructor <;> simp [Supervision.start, Supervision.launcher, Automatic.retired]
    · constructor <;> simp [Supervision.start, Automatic.counted, Supervision.count]
    · constructor <;> simp [Supervision.start]
  | step _ hs ih =>
    obtain ⟨he, hc, hd⟩ := ih
    exact ⟨he.step hs, hc.step he hs, hd.step he hs⟩

/-- In every run. `overtaken` leaves out the cycles that begin between the count of a restart and
its launch, and `userStopped` the manual stops that find a launch under way. -/
theorem restarts_within_budget (h : Supervised d s) :
    (d.errors.onExhausted ≠ .skip → s.overtaken = false → s.launches ≤ d.errors.retries) ∧
    (∀ s' held, Step d s s' → s.automatic = .preparing held → s'.automatic = .spawning →
      held = true ∧ s.stopped = true) ∧
    (s.exhausted = true →
      (∃ i, s.current = some i ∧ i.stopped = true ∧
        (i.blockedAction.isSome = true ∧ i.blockedAction = exhaustedAction d.errors.onExhausted ∨
          i.manuallyStopped = true) ∧
        ∀ before after missing, readinessAction (before ++ i :: after) missing ≠ some .ready) ∧
      s.automatic = .idle ∧ ∀ s', Step d s s' → s'.automatic = .idle) ∧
    (∀ s', Step d s s' → s.flagged = true → s.automatic.underway = false → s'.automatic.underway = false) ∧
    (s.userStopped = true → s.flagged = true ∧ s.automatic.underway = false ∧
      ∀ s', Step d s s' → s'.launches ≤ s.launches) := by
  obtain ⟨he, hc, hd⟩ := h.sound
  refine ⟨?_, ?_, ?_, fun s' hs hf hu => hs.underway hf hu, ?_⟩
  · intro hn ho
    have hl := hc.counted
    have hb := hc.bounded hn
    simp only [ho, Bool.toNat_false] at hl
    omega
  · intro s' held hs ha hb
    have ho := hs.published ha hb
    have hst : s.stopped = true := by
      cases hi : s.current with
      | none => simp [(he.present hi).2] at ha
      | some i =>
        rw [Supervision.stopped, hi]
        exact ho i hi
    refine ⟨?_, hst⟩
    by_contra hh
    have hr := (he.retired (by simpa [ha, Automatic.retired] using hh)).2.1
    simp [hst] at hr
  · intro hx
    obtain ⟨ha, -, -, hst, hb, hn⟩ := hd.exhausted hx
    obtain ⟨i, hi, hbi⟩ := Option.any_eq_true _ _ |>.mp hb
    rw [Supervision.stopped, hi] at hst
    refine ⟨⟨i, hi, hst, ?_, ?_⟩, ha, fun s' hs => hd.step_idle he hx hs⟩
    · rcases (Bool.or_eq_true _ _).mp hbi with hbi | hbi
      · have hbi := of_decide_eq_true hbi
        exact .inl ⟨by rw [hbi]; exact exhaustedAction_isSome hn, hbi⟩
      · exact .inr hbi
    · intro before after missing
      apply not_ready
      rcases (Bool.or_eq_true _ _).mp hbi with hbi | hbi
      · exact .inl (by rw [of_decide_eq_true hbi]; exact exhaustedAction_isSome hn)
      · exact .inr hbi
  · intro hu
    obtain ⟨ha, -, -, hf⟩ := hd.userStopped hu
    exact ⟨hf, ha, fun s' hs => hs.launches ha⟩

def lantern : ServiceDefinition := ⟨"lantern", ⟨1, .pause⟩, .restart, .null⟩

/-- The first launch fails, and so does the one restart that the budget allows. -/
theorem lantern_relaunched : ∃ s, Supervised lantern s ∧ s.launches = 1 ∧ s.overtaken = false ∧ s.exhausted = true := by
  have boot : Supervised lantern _ := .step .start (.boot rfl rfl rfl rfl rfl)
  have publish : Supervised lantern _ := .step boot
    (@Step.publish _ _ .direct "a" rfl (by simp [Supervision.start]))
  have fails : Supervised lantern _ := .step publish (@Step.fails _ _ .direct _ "refused" false rfl)
  have stopped : Supervised lantern _ := .step fails (.stopped rfl rfl)
  have wakes : Supervised lantern _ := .step stopped (.wake rfl rfl rfl)
  have republish : Supervised lantern _ := .step wakes
    (@Step.publish _ _ .restart "b" rfl fun _ hi => by cases hi; rfl)
  have spawn : Supervised lantern _ := .step republish (@Step.spawn _ _ .restart rfl)
  have failsAgain : Supervised lantern _ := .step spawn (@Step.fails _ _ .restart _ "refused" false rfl)
  exact ⟨_, .step failsAgain (.stopped rfl rfl), rfl, rfl, rfl⟩

theorem lantern_within_budget : ∃ s, Supervised lantern s ∧ s.launches = 1 ∧ s.launches ≤ lantern.errors.retries ∧
    (∃ i, s.current = some i ∧ i.stopped = true) ∧ ∀ s', Step lantern s s' → s'.automatic = .idle := by
  obtain ⟨s, hs, hlaunches, hovertaken, hexhausted⟩ := lantern_relaunched
  obtain ⟨hbudget, -, hstays, -⟩ := restarts_within_budget hs
  obtain ⟨⟨i, hcurrent, hstopped, -⟩, -, hidle⟩ := hstays hexhausted
  exact ⟨s, hs, hlaunches, hbudget (by decide) hovertaken, ⟨i, hcurrent, hstopped⟩, hidle⟩

def lamp : ServiceDefinition := ⟨"lamp", ⟨0, .pause⟩, .restart, .null⟩

/-- The first launch of a service without restarts fails; then the user stops it. -/
theorem lamp_stopped : ∃ s s', Supervised lamp s ∧ s.exhausted = true ∧ s.overtaken = false ∧
    Supervised lamp s' ∧ s'.exhausted = true ∧ ∀ i ∈ s'.current, i.blockedAction = none := by
  have boot : Supervised lamp _ := .step .start (.boot rfl rfl rfl rfl rfl)
  have publish : Supervised lamp _ := .step boot
    (@Step.publish _ _ .direct "a" rfl (by simp [Supervision.start]))
  have fails : Supervised lamp _ := .step publish
    (@Step.fails _ _ .direct _ "refused" false rfl)
  have stopped : Supervised lamp _ := .step fails (.stopped rfl rfl)
  have stop : Supervised lamp _ := .step stopped (@Step.userStop _ _ "b" rfl rfl)
  have begins : Supervised lamp _ := .step stop (@Step.stopBegins _ _ _ false rfl)
  refine ⟨_, _, stopped, rfl, rfl, .step begins (.userStopped rfl rfl), rfl, ?_⟩
  intro i hi
  cases hi
  rfl

/-- A manual stop takes the block of the exhausted budget away. -/
theorem exhausted_block_cleared : ¬ ∀ d s, Supervised d s → s.exhausted = true →
    ∃ i, s.current = some i ∧ i.blockedAction = exhaustedAction d.errors.onExhausted := by
  intro h
  obtain ⟨-, s, -, -, -, hs, hx, hn⟩ := lamp_stopped
  obtain ⟨i, hi, hb⟩ := h lamp s hs hx
  simp [hn i hi, lamp, exhaustedAction] at hb

end ModularPipelines.Services
