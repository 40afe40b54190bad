import ModularPipelines.Services.Exclusive

namespace ModularPipelines.Services
open Runner

/-- The budget with the restarts that are counted and have not launched. -/
structure Counted (definition : ServiceDefinition) (s : Supervision) : Prop where
  counted : s.launches + s.automatic.counted.toNat ≤ s.count + s.overtaken.toNat
  bounded : definition.errors.onExhausted ≠ .skip → s.count ≤ definition.errors.retries
  undecided : s.automatic = .stopping false true → definition.errors.onExhausted ≠ .skip →
    s.count < definition.errors.retries
  halted : s.automatic = .delaying true ∨ s.automatic = .preparing true → s.stopped = true

variable {d : ServiceDefinition} {s s' : Supervision}

attribute [local grind] Supervision.stopped Supervision.flagged Supervision.launcher Supervision.blocked
  Supervision.monitored Supervision.registered Supervision.update Supervision.finishAutomatic
  Supervision.restartLoop Supervision.beginRestart Supervision.detach Supervision.beginStop
  Supervision.startRaises Supervision.phase Supervision.publish Supervision.spawn Supervision.leave
  Supervision.launchFails Supervision.launchRaises Supervision.launchCompletes Supervision.shutDown
  Supervision.userStop Supervision.finishStop Supervision.beginCycle Automatic.retired Automatic.counted
  Automatic.underway Automatic.replaced Control.replaced confirmedStop unconfirmedStop
  ServiceInstance.retire prepareServiceStart ServiceInstance.create

section
variable {who : Starter} {instanceId : String}

@[grind =]
theorem publish_launches : (s.publish d instanceId who).launches = s.launches := by
  cases who <;> rfl

@[grind =]
theorem publish_overtaken : (s.publish d instanceId who).overtaken = s.overtaken := by
  cases who <;> rfl

theorem replaced_counted (a : Automatic) : a.replaced.counted.toNat ≤ a.counted.toNat := by
  cases a <;> simp [Automatic.replaced, Automatic.counted]

/-- A task that gives up its restart, or has not counted it yet, leaves the budget as it is. -/
theorem Counted.settle (h : Counted d s) (hc : s'.count = s.count) (ho : s'.overtaken = s.overtaken)
    (hl : s'.launches + s'.automatic.counted.toNat ≤ s.launches + s.automatic.counted.toNat)
    (hu : s'.automatic ≠ .stopping false true) (hd : s'.automatic ≠ .delaying true)
    (hp : s'.automatic ≠ .preparing true) : Counted d s' := by
  obtain ⟨h1, h2, h3, h4⟩ := h
  constructor
  case counted =>
    rw [hc, ho]
    omega
  case bounded => simpa [hc] using h2
  case undecided => intro ha; exact absurd ha hu
  case halted => intro ha; rcases ha with ha | ha <;> contradiction

theorem Counted.publish (h : Counted d s) (he : Exclusive s) (hp : s.phase who = some .preparing)
    (ho : ∀ i ∈ s.current, i.stopped = true) : Counted d (s.publish d instanceId who) := by
  obtain ⟨h1, h2, h3, h4⟩ := h
  cases who with
  | restart =>
    obtain ⟨held, ha⟩ := phase_preparing hp
    have hr := he.retired
    have hh : held = true := by
      cases hi : s.current with
      | none => grind
      | some i => grind
    constructor <;> grind
  | direct =>
    apply Counted.settle ⟨h1, h2, h3, h4⟩
    · exact publish_count
    · exact publish_overtaken
    · have hr := replaced_counted s.automatic
      simp only [Supervision.publish]
      omega
    all_goals
      cases ha : s.automatic <;> simp [Supervision.publish, Automatic.replaced, ha]

theorem Counted.spawn (h : Counted d s) (hp : s.phase who = some .spawning) : Counted d (s.spawn who) := by
  cases who with
  | restart =>
    have ha := phase_spawning hp
    apply Counted.settle h <;> simp [Supervision.spawn, Supervision.count, Automatic.counted, ha]
  | direct =>
    obtain ⟨h1, h2, h3, h4⟩ := h
    exact ⟨h1, h2, h3, h4⟩

theorem Counted.restartLoop (h : Counted d s) {i : ServiceInstance} (hi : s.count = i.restartCount) :
    Counted d (s.restartLoop d i) := by
  obtain ⟨h1, h2, h3, h4⟩ := h
  constructor <;> grind [Supervision.count]

theorem Counted.finish (h : Counted d s) : Counted d s.finishAutomatic := by
  apply Counted.settle h <;> simp [Supervision.finishAutomatic, Supervision.count, Automatic.counted]

theorem beginStop_launches (spawned : Bool) (s : Supervision) :
    (s.beginStop spawned).launches ≤ s.launches + s.automatic.counted.toNat ∧
    (s.beginStop spawned).overtaken = s.overtaken := by
  cases ha : s.automatic <;> cases spawned <;>
    simp [Supervision.beginStop, Supervision.detach, Supervision.update, ha, Automatic.counted]

theorem Counted.stop (h : Counted d s) {spawned : Bool} {control : Control} :
    Counted d { s.beginStop spawned with control := control } := by
  obtain ⟨hl, ho⟩ := beginStop_launches spawned s
  obtain ⟨-, ha, -, -, -, -, hc⟩ := beginStop_frame spawned s
  apply Counted.settle h
  · exact hc
  · exact ho
  · simpa [ha, Automatic.counted] using hl
  all_goals simp [ha]

theorem Counted.startRaises (h : Counted d s) {spawned : Bool} : Counted d (s.startRaises spawned) := by
  obtain ⟨h1, h2, h3, h4⟩ := h
  cases hi : s.current with
  | none =>
    simp only [Supervision.startRaises, hi]
    constructor <;> grind [Supervision.count]
  | some i =>
    simp only [Supervision.startRaises, hi]
    apply Counted.stop
    constructor <;> grind [Supervision.count]

theorem leave_kept (who : Starter) (s : Supervision) :
    (s.leave who).launches = s.launches ∧ (s.leave who).overtaken = s.overtaken ∧
    (s.stopped = true → (s.leave who).stopped = true) := by
  cases who with
  | restart =>
    cases hc : s.current <;> cases ha : s.automatic <;>
      simp [Supervision.leave, Supervision.update, Supervision.stopped, ha, hc]
  | direct =>
    rcases hl : s.launch with - | ⟨launcher, phase, held⟩
    · simp [Supervision.leave, Supervision.stopped, hl]
    · cases hc : s.current <;> cases phase <;> cases held <;>
        simp [Supervision.leave, Supervision.update, Supervision.stopped, hc, hl]

theorem Counted.leave (h : Counted d s) : Counted d (s.leave who) := by
  obtain ⟨-, ha, -, -, -, -, hc, -⟩ := leave_frame who s
  obtain ⟨hl, ho, hs⟩ := leave_kept who s
  obtain ⟨h1, h2, h3, h4⟩ := h
  constructor
  · rw [ha, hl, hc, ho]; exact h1
  · rw [hc]; exact h2
  · rw [ha, hc]; exact h3
  · rw [ha]; exact fun hd => hs (h4 hd)

theorem Counted.frame (h : Counted d s) (hc : s'.count = s.count) (ho : s'.overtaken = s.overtaken)
    (hl : s'.launches = s.launches) (ha : s'.automatic = s.automatic)
    (hs : s.stopped = true → s'.stopped = true) : Counted d s' := by
  obtain ⟨h1, h2, h3, h4⟩ := h
  constructor
  · rw [ha, hl, hc, ho]; exact h1
  · rw [hc]; exact h2
  · rw [ha, hc]; exact h3
  · rw [ha]; exact fun hd => hs (h4 hd)

theorem Counted.launchRaises (h : Counted d s) {at' : LaunchPhase} {spawned : Bool}
    (hp : s.phase who = some at') : Counted d (s.launchRaises spawned who) := by
  cases who with
  | restart => exact h.leave.finish
  | direct =>
    obtain ⟨launcher, held, hl⟩ := phase_direct hp
    cases launcher with
    | first =>
      simp only [Supervision.launchRaises, hl]
      exact h.leave.finish
    | start =>
      simp only [Supervision.launchRaises, hl]
      exact h.leave.startRaises

theorem Counted.beginRestart (h : Counted d s) {i : ServiceInstance} (hi : s.count = i.restartCount) :
    Counted d (s.beginRestart d i) := by
  unfold Supervision.beginRestart
  split
  · exact h.finish
  · exact h.restartLoop hi

theorem Counted.launchFails (h : Counted d s) {at' : LaunchPhase} {message : String} {spawned : Bool}
    (hp : s.phase who = some at') : Counted d (s.launchFails d message spawned who) := by
  cases who with
  | restart =>
    cases hc : (s.leave .restart).current with
    | none =>
      simp only [Supervision.launchFails, hc]
      exact h.leave.finish
    | some i =>
      simp only [Supervision.launchFails, hc]
      exact h.leave.restartLoop (by simp [Supervision.count, hc])
  | direct =>
    obtain ⟨launcher, held, hl⟩ := phase_direct hp
    cases launcher with
    | first =>
      cases hc : (s.leave .direct).current with
      | none =>
        simp only [Supervision.launchFails, hl, hc]
        exact h.leave.finish
      | some i =>
        simp only [Supervision.launchFails, hl, hc]
        exact h.leave.beginRestart (by simp [Supervision.count, hc])
    | start =>
      simp only [Supervision.launchFails, hl]
      exact h.leave.startRaises

theorem Counted.launchCompletes (h : Counted d s) (hp : s.phase who = some .confirming) :
    Counted d (s.launchCompletes who) := by
  cases who with
  | restart => apply Counted.settle h <;> simp [Supervision.launchCompletes, Supervision.finishAutomatic,
      Supervision.count, Automatic.counted]
  | direct =>
    obtain ⟨launcher, held, hl⟩ := phase_direct hp
    cases launcher with
    | first => apply Counted.settle h <;> simp [Supervision.launchCompletes, Supervision.finishAutomatic,
        Supervision.count, Automatic.counted, hl]
    | start => apply Counted.frame h <;> simp [Supervision.launchCompletes, Supervision.count,
        Supervision.stopped, hl]

theorem Counted.update (h : Counted d s) {change : ServiceInstance → ServiceInstance}
    (hc : ∀ i, (change i).restartCount = i.restartCount) (hs : ∀ i, (change i).stopped = i.stopped) :
    Counted d (s.update change) := by
  apply Counted.frame h
  · cases hi : s.current <;> simp [Supervision.update, Supervision.count, hi, hc]
  · rfl
  · rfl
  · rfl
  · cases hi : s.current <;> simp [Supervision.update, Supervision.stopped, hi, hs]

theorem Counted.beginCycle (h : Counted d s) : Counted d s.beginCycle := by
  obtain ⟨h1, h2, h3, h4⟩ := h
  have hc : s.beginCycle.count = 0 := by
    cases hi : s.current <;> simp [Supervision.beginCycle, Supervision.update, Supervision.count, hi]
  constructor
  case counted =>
    change 0 + s.automatic.counted.toNat ≤ s.beginCycle.count + s.automatic.counted.toNat
    omega
  case bounded => simp [hc]
  case undecided =>
    intro ha hn
    have := h3 ha hn
    omega
  case halted =>
    intro ha
    have hs := h4 ha
    cases hi : s.current <;>
      simp_all [Supervision.beginCycle, Supervision.update, Supervision.stopped]

theorem Counted.step (h : Counted d s) (he : Exclusive s) (hs : Step d s s') : Counted d s' := by
  have hx := h
  have hw := he.watched
  obtain ⟨h1, h2, h3, h4⟩ := h
  cases hs with
  | publish hp ho => exact hx.publish he hp ho
  | refuse hp => exact hx.launchRaises hp
  | spawn hp => exact hx.spawn hp
  | fails hp => exact hx.launchFails hp
  | raises hp => exact hx.launchRaises hp
  | started hp => exact hx.launchCompletes hp
  | stopBegins hk => exact hx.stop
  | begin ha hc => exact hx.beginRestart (by simp [Supervision.count, hc])
  | boot => constructor <;> grind [Supervision.count]
  | look => constructor <;> grind [Supervision.count]
  | collect => constructor <;> grind [Supervision.count]
  | pass => constructor <;> grind [Supervision.count]
  | react => constructor <;> grind [Supervision.count]
  | reactLate => constructor <;> grind [Supervision.count]
  | timeoutRestart => constructor <;> grind [Supervision.count]
  | timeoutBlocks => constructor <;> grind [Supervision.count]
  | lateReply => constructor <;> grind [Supervision.count]
  | lateRelease => constructor <;> grind [Supervision.count]
  | reply => constructor <;> grind [Supervision.count]
  | send => constructor <;> grind [Supervision.count]
  | heartbeat hi => exact hx.update (fun _ => rfl) (fun _ => rfl)
  | failure => exact hx.update (fun _ => rfl) (fun _ => rfl)
  | queue => exact hx.update (fun _ => rfl) (fun _ => rfl)
  | stopped => constructor <;> grind [Supervision.count]
  | unstopped => constructor <;> grind [Supervision.count]
  | stoppedRetired => constructor <;> grind [Supervision.count]
  | endedRetired => exact hx.finish
  | wakeFlagged => exact hx.finish
  | wake => constructor <;> grind [Supervision.count]
  | userStop => cases hc : s.current <;> constructor <;> grind [Supervision.count]
  | userStopped => constructor <;> grind [Supervision.count]
  | userStoppedReported => constructor <;> grind [Supervision.count]
  | userUnstopped => constructor <;> grind [Supervision.count]
  | userStart => constructor <;> grind [Supervision.count]
  | cleaned => constructor <;> grind [Supervision.count]
  | uncleaned => constructor <;> grind [Supervision.count]
  | grant => constructor <;> grind [Supervision.count]
  | advance => exact hx.beginCycle
  | progress => constructor <;> grind [Supervision.count]

end

end ModularPipelines.Services
