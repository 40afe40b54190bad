import ModularPipelines.Services.Supervision

namespace ModularPipelines.Services
open Runner

namespace Supervision

def count (s : Supervision) : Nat := s.current.elim 0 (·.restartCount)

def stopped (s : Supervision) : Bool := s.current.any (·.stopped)

def flagged (s : Supervision) : Bool := s.current.any (·.manuallyStopped)

/-- The block that the policy asks for, or the manual flag. -/
def blocked (definition : ServiceDefinition) (s : Supervision) : Bool :=
  s.current.any fun i =>
    decide (i.blockedAction = exhaustedAction definition.errors.onExhausted) || i.manuallyStopped

def launcher (s : Supervision) : Option Launcher := s.launch.map (·.launcher)

end Supervision

/-- The restart acts for an instance that a user's start has replaced. -/
def Automatic.retired : Automatic → Bool
  | .stopping _ held => !held
  | .delaying held => !held
  | .preparing held => !held
  | _ => false

/-- Which tasks can be active together. -/
structure Exclusive (s : Supervision) : Prop where
  present : s.current = none → s.watch = none ∧ s.automatic = .idle
  watched : s.watch ≠ none → s.automatic = .idle ∧ s.booting = false
  quiet : s.booting = true → s.control = .idle
  booted : s.booting = true → s.current = none ∨ s.starting = true ∨ s.stopped = true ∨
    s.current.any (·.stopping) = true
  alone : s.booting = true → s.automatic ≠ .idle → s.launch = none
  first : s.launcher = some .first → s.booting = true
  direct : s.launcher = some .start → s.control = .starting
  retired : s.automatic.retired = true →
    s.current ≠ none ∧ s.stopped = false ∧ s.control ≠ .cleaning ∧ ∀ held, s.control ≠ .stopping held

variable {d : ServiceDefinition} {s s' : Supervision}

@[grind =]
theorem Control.replaced_idle {c : Control} : c.replaced = .idle ↔ c = .idle := by
  cases c <;> simp [Control.replaced]

@[grind =]
theorem Control.replaced_starting {c : Control} : c.replaced = .starting ↔ c = .starting := by
  cases c <;> simp [Control.replaced]

@[grind =]
theorem Control.replaced_cleaning {c : Control} : c.replaced = .cleaning ↔ c = .cleaning := by
  cases c <;> simp [Control.replaced]

attribute [local grind] Supervision.stopped Supervision.flagged Supervision.launcher Supervision.blocked
  Supervision.monitored Supervision.registered Supervision.update Supervision.finishAutomatic
  Supervision.restartLoop Supervision.beginRestart Supervision.detach Supervision.beginStop
  Supervision.startRaises Supervision.phase Supervision.publish Supervision.spawn Supervision.leave
  Supervision.launchFails Supervision.launchRaises Supervision.launchCompletes Supervision.shutDown
  Supervision.userStop Supervision.finishStop Supervision.beginCycle Automatic.retired Automatic.counted
  Automatic.underway Automatic.replaced Control.replaced confirmedStop unconfirmedStop
  ServiceInstance.retire prepareServiceStart ServiceInstance.create

theorem phase_preparing (h : s.phase .restart = some .preparing) : ∃ held, s.automatic = .preparing held := by
  cases ha : s.automatic <;> simp [Supervision.phase, ha] at h ⊢

theorem phase_spawning (h : s.phase .restart = some .spawning) : s.automatic = .spawning := by
  cases ha : s.automatic <;> simp [Supervision.phase, ha] at h ⊢

theorem phase_confirming (h : s.phase .restart = some .confirming) : s.automatic = .confirming := by
  cases ha : s.automatic <;> simp [Supervision.phase, ha] at h ⊢

theorem phase_direct {p : LaunchPhase} (h : s.phase .direct = some p) :
    ∃ launcher held, s.launch = some ⟨launcher, p, held⟩ := by
  obtain ⟨⟨launcher, p', held⟩, hl, hp⟩ := Option.map_eq_some_iff.mp h
  exact ⟨launcher, held, hp ▸ hl⟩

section
variable {who : Starter} {instanceId : String}

@[grind =]
theorem publish_launcher : (s.publish d instanceId who).launcher = s.launcher := by
  cases who <;> simp [Supervision.publish, Supervision.launcher, Function.comp_def]

@[grind =]
theorem publish_stopped : (s.publish d instanceId who).stopped = false := by
  cases hc : s.current <;> cases who <;>
    simp [Supervision.publish, Supervision.stopped, prepareServiceStart, ServiceInstance.create, hc]

@[grind =]
theorem publish_count : (s.publish d instanceId who).count = s.count := by
  cases hc : s.current <;> cases who <;>
    simp [Supervision.publish, Supervision.count, prepareServiceStart, ServiceInstance.create, hc]

@[grind =]
theorem publish_watch : (s.publish d instanceId who).watch = none ↔ s.watch = none := by
  cases who <;> simp [Supervision.publish]

theorem Exclusive.publish (h : Exclusive s) (hp : s.phase who = some .preparing) :
    Exclusive (s.publish d instanceId who) := by
  obtain ⟨h1, h2, h3, h4, h5, h6, h7, h8⟩ := h
  cases who with
  | restart =>
    obtain ⟨held, ha⟩ := phase_preparing hp
    have hw : s.watch = none := by grind
    constructor <;> grind
  | direct =>
    obtain ⟨launcher, held, hl⟩ := phase_direct hp
    have hk : s.control = .idle ∨ s.control = .starting := by cases launcher <;> grind
    constructor <;> grind

theorem Exclusive.spawn (h : Exclusive s) (hp : s.phase who = some .spawning) : Exclusive (s.spawn who) := by
  obtain ⟨h1, h2, h3, h4, h5, h6, h7, h8⟩ := h
  cases who with
  | restart =>
    have ha := phase_spawning hp
    constructor <;> grind
  | direct =>
    obtain ⟨launcher, held, hl⟩ := phase_direct hp
    constructor <;> grind

theorem beginStop_frame (spawned : Bool) (s : Supervision) :
    ((s.beginStop spawned).current = none ↔ s.current = none) ∧ (s.beginStop spawned).automatic = .idle ∧
    (s.beginStop spawned).watch = s.watch ∧ (s.beginStop spawned).booting = s.booting ∧
    (s.beginStop spawned).launch = s.launch ∧ (s.beginStop spawned).flagged = s.flagged ∧
    (s.beginStop spawned).count = s.count := by
  cases hc : s.current <;> cases ha : s.automatic <;> cases spawned <;>
    simp [Supervision.beginStop, Supervision.detach, Supervision.update, Supervision.flagged, Supervision.count, ha, hc]

theorem leave_frame (who : Starter) (s : Supervision) :
    ((s.leave who).current = none ↔ s.current = none) ∧ (s.leave who).automatic = s.automatic ∧
    (s.leave who).watch = s.watch ∧ (s.leave who).booting = s.booting ∧ (s.leave who).control = s.control ∧
    (s.leave who).flagged = s.flagged ∧ (s.leave who).count = s.count ∧
    (s.leave who).launch = if who = .direct then none else s.launch := by
  cases who with
  | restart =>
    cases hc : s.current <;> cases ha : s.automatic <;>
      simp [Supervision.leave, Supervision.update, Supervision.flagged, Supervision.count, ha, hc]
  | direct =>
    rcases hl : s.launch with - | ⟨launcher, phase, held⟩
    · simp [Supervision.leave, Supervision.flagged, Supervision.count, hl]
    · cases hc : s.current <;> cases phase <;> cases held <;>
        simp [Supervision.leave, Supervision.update, Supervision.flagged, Supervision.count, hc, hl]

/-- Once the user's stop of the current instance has begun, no restart is registered. -/
theorem exclusive_stop {spawned : Bool} {control : Control} (hc : s.current = none → s.watch = none) (hb : s.booting = false)
    (hl : s.launch = none) : Exclusive { s.beginStop spawned with control := control } := by
  have hf := beginStop_frame spawned s
  constructor <;> grind

theorem exclusive_startRaises {spawned : Bool} (hc : s.current = none → s.watch = none ∧ s.automatic = .idle)
    (hb : s.booting = false) (hl : s.launch = none) : Exclusive (s.startRaises spawned) := by
  cases hi : s.current with
  | none =>
    obtain ⟨hw, ha⟩ := hc hi
    simp only [Supervision.startRaises, hi]
    constructor <;> grind
  | some i =>
    simp only [Supervision.startRaises, hi]
    apply exclusive_stop
    · simp [Supervision.update, hi]
    · exact hb
    · exact hl

theorem exclusive_finish (hc : s.current = none → s.watch = none) (hl : s.launch = none) :
    Exclusive s.finishAutomatic := by
  constructor <;> grind

theorem exclusive_restartLoop {i : ServiceInstance} (hw : s.watch = none) (hk : s.booting = true → s.control = .idle)
    (hl : s.booting = true → s.launch = none) (hd : s.launcher ≠ some .first)
    (hs : s.launcher = some .start → s.control = .starting) : Exclusive (s.restartLoop d i) := by
  constructor <;> grind

theorem Exclusive.launchRaises (h : Exclusive s) {at' : LaunchPhase} {spawned : Bool}
    (hp : s.phase who = some at') : Exclusive (s.launchRaises spawned who) := by
  have hf := leave_frame who s
  obtain ⟨h1, h2, h3, h4, h5, h6, h7, h8⟩ := h
  cases who with
  | restart =>
    simp only [Supervision.launchRaises]
    constructor <;> grind
  | direct =>
    obtain ⟨launcher, held, hl⟩ := phase_direct hp
    cases launcher with
    | first =>
      simp only [Supervision.launchRaises, hl]
      apply exclusive_finish <;> grind
    | start =>
      simp only [Supervision.launchRaises, hl]
      apply exclusive_startRaises <;> grind

theorem Exclusive.launchFails (h : Exclusive s) {at' : LaunchPhase} {message : String} {spawned : Bool}
    (hp : s.phase who = some at') : Exclusive (s.launchFails d message spawned who) := by
  have hf := leave_frame who s
  obtain ⟨h1, h2, h3, h4, h5, h6, h7, h8⟩ := h
  cases who with
  | restart =>
    cases hc : (s.leave .restart).current with
    | none => grind
    | some i =>
      simp only [Supervision.launchFails, hc]
      apply exclusive_restartLoop <;> grind
  | direct =>
    obtain ⟨launcher, held, hl⟩ := phase_direct hp
    cases launcher with
    | first =>
      cases hc : (s.leave .direct).current with
      | none =>
        simp only [Supervision.launchFails, hl, hc]
        apply exclusive_finish <;> grind
      | some i =>
        simp only [Supervision.launchFails, hl, hc, Supervision.beginRestart]
        split
        · apply exclusive_finish <;> grind
        · apply exclusive_restartLoop <;> grind
    | start =>
      simp only [Supervision.launchFails, hl]
      apply exclusive_startRaises <;> grind

theorem Exclusive.launchCompletes (h : Exclusive s) (hp : s.phase who = some .confirming) :
    Exclusive (s.launchCompletes who) := by
  obtain ⟨h1, h2, h3, h4, h5, h6, h7, h8⟩ := h
  cases who with
  | restart =>
    have ha := phase_confirming hp
    constructor <;> grind
  | direct =>
    obtain ⟨launcher, held, hl⟩ := phase_direct hp
    cases launcher with
    | first =>
      simp only [Supervision.launchCompletes, hl]
      apply exclusive_finish <;> grind
    | start =>
      simp only [Supervision.launchCompletes, hl]
      constructor <;> grind

theorem Exclusive.unlaunched (h : Exclusive s) (hb : s.booting = false) (hk : s.control ≠ .starting) :
    s.launch = none := by
  rcases hl : s.launch with - | ⟨launcher, phase, held⟩
  · rfl
  · cases launcher with
    | first => simpa [hb] using h.first (by simp [Supervision.launcher, hl])
    | start => exact absurd (h.direct (by simp [Supervision.launcher, hl])) hk

theorem Exclusive.current (h : Exclusive s) {i i' : ServiceInstance} (hi : s.current = some i)
    (hs : i'.stopped = i.stopped) (hg : i'.stopping = i.stopping) : Exclusive { s with current := some i' } := by
  obtain ⟨h1, h2, h3, h4, h5, h6, h7, h8⟩ := h
  constructor
  case present => simp
  case watched => exact h2
  case quiet => exact h3
  case booted => simpa [Supervision.stopped, hi, hs, hg] using h4
  case alone => exact h5
  case first => exact h6
  case direct => exact h7
  case retired => simpa [Supervision.stopped, hi, hs] using h8

theorem Exclusive.update (h : Exclusive s) {change : ServiceInstance → ServiceInstance}
    (hs : ∀ i, (change i).stopped = i.stopped) (hg : ∀ i, (change i).stopping = i.stopping) :
    Exclusive (s.update change) := by
  cases hi : s.current with
  | none =>
    have hu : s.update change = s := by
      rw [Supervision.update, hi, Option.map_none, ← hi]
    rw [hu]
    exact h
  | some i =>
    have hu : s.update change = { s with current := some (change i) } := by
      rw [Supervision.update, hi, Option.map_some]
    rw [hu]
    exact h.current hi (hs i) (hg i)

theorem Exclusive.unwatch (h : Exclusive s) : Exclusive { s with watch := none } := by
  obtain ⟨h1, h2, h3, h4, h5, h6, h7, h8⟩ := h
  exact ⟨fun hc => ⟨rfl, (h1 hc).2⟩, fun hw => absurd rfl hw, h3, h4, h5, h6, h7, h8⟩

/-- A round of `monitor` passes its guards outside of a startup only. -/
theorem Exclusive.watch (h : Exclusive s) {i : ServiceInstance} (hi : s.current = some i)
    (hr : s.registered = false) (ht : s.starting = false) (hs : i.stopped = false) (hg : i.stopping = false) :
    Exclusive { s with watch := some true } := by
  obtain ⟨h1, h2, h3, h4, h5, h6, h7, h8⟩ := h
  have hb : s.booting = false := by
    by_contra hb
    simpa [Supervision.stopped, hi, ht, hs, hg] using h4 (by simpa using hb)
  have ha : s.automatic = .idle := by simpa [Supervision.registered, hb] using hr
  exact ⟨by simp [hi], fun _ => ⟨ha, hb⟩, h3, h4, h5, h6, h7, h8⟩

theorem Exclusive.schedule (h : Exclusive s) (hw : s.watch ≠ none) :
    Exclusive { s with automatic := .scheduled, watch := none } := by
  obtain ⟨h1, h2, h3, h4, h5, h6, h7, h8⟩ := h
  have hb := (h2 hw).2
  exact ⟨fun hc => absurd (h1 hc).1 hw, fun hn => absurd rfl hn, h3, h4, by simp [hb], h6, h7,
    by simp [Automatic.retired]⟩

theorem Exclusive.reschedule (h : Exclusive s) (hw : s.watch ≠ none) {i i' : ServiceInstance}
    (hi : s.current = some i) (hs : i'.stopped = i.stopped) (hg : i'.stopping = i.stopping) :
    Exclusive { s with current := some i', automatic := .scheduled, watch := none } := by
  have hc : Exclusive { s with current := some i' } := h.current hi hs hg
  exact hc.schedule hw

theorem Exclusive.observe (h : Exclusive s) {i i' : ServiceInstance}
    (hi : s.current = some i) (hs : i'.stopped = i.stopped) (hg : i'.stopping = i.stopping) :
    Exclusive { s with current := some i', watch := none } := by
  have hc : Exclusive { s with current := some i' } := h.current hi hs hg
  exact hc.unwatch

/-- The end of the user's stop, or of the cleanup of a failed start. -/
theorem Exclusive.conclude (h : Exclusive s) {i : ServiceInstance}
    (hk : s.control = .cleaning ∨ ∃ held, s.control = .stopping held) :
    Exclusive { s with current := some i, control := .idle } := by
  obtain ⟨h1, h2, h3, h4, h5, h6, h7, h8⟩ := h
  have hb : s.booting = false := by
    by_contra hb
    have := h3 (by simpa using hb)
    simp [this] at hk
  have hr : s.automatic.retired = false := by
    by_contra hr
    obtain ⟨-, -, hc, hs⟩ := h8 (by simpa using hr)
    rcases hk with hk | ⟨held, hk⟩
    · exact hc hk
    · exact hs held hk
  have hl : s.launcher ≠ some .start := by
    intro hl
    simp [h7 hl] at hk
  exact ⟨by simp, h2, fun _ => rfl, by simp [hb], h5, h6, fun hn => absurd hn hl, by simp [hr]⟩

theorem Exclusive.unlaunching (h : Exclusive s) (hb : s.booting = true) (ha : s.automatic ≠ .idle) :
    s.launcher = none := by
  simp [Supervision.launcher, h.alone hb ha]

/-- An active restart comes to its end. -/
theorem Exclusive.finish (h : Exclusive s) (current : Option ServiceInstance) (ha : s.automatic ≠ .idle) :
    Exclusive { s with current := current }.finishAutomatic := by
  have hl := h.unlaunching
  obtain ⟨h1, h2, h3, h4, h5, h6, h7, h8⟩ := h
  have hw : s.watch = none := by
    by_contra hw
    exact ha (h2 hw).1
  refine ⟨fun hn => ⟨hw, rfl⟩, fun hn => absurd hw hn, by simp [Supervision.finishAutomatic],
    by simp [Supervision.finishAutomatic], by simp [Supervision.finishAutomatic], ?_, h7,
    by simp [Supervision.finishAutomatic, Automatic.retired]⟩
  intro hf
  have hf' : s.launcher = some .first := hf
  rw [hl (h6 hf') ha] at hf'
  exact absurd hf' (by simp)

theorem Exclusive.beginRestart (h : Exclusive s) {i : ServiceInstance} (ha : s.automatic ≠ .idle) :
    Exclusive (s.beginRestart d i) := by
  have hl := h.unlaunching
  obtain ⟨h1, h2, h3, h4, h5, h6, h7, h8⟩ := h
  unfold Supervision.beginRestart
  split
  · exact Exclusive.finish ⟨h1, h2, h3, h4, h5, h6, h7, h8⟩ s.current ha
  · apply exclusive_restartLoop
    · by_contra hw
      exact ha (h2 hw).1
    · exact h3
    · exact fun hb => h5 hb ha
    · intro hf
      rw [hl (h6 hf) ha] at hf
      exact absurd hf (by simp)
    · exact h7

theorem Exclusive.step (h : Exclusive s) (hs : Step d s s') : Exclusive s' := by
  obtain ⟨h1, h2, h3, h4, h5, h6, h7, h8⟩ := id h
  cases hs with
  | boot hc hk ha =>
    exact ⟨fun _ => h1 hc, fun hw => absurd (h1 hc).1 hw, fun _ => hk, fun _ => .inl hc,
      fun _ hn => absurd ha hn, fun _ => rfl, fun hn => by simp [Supervision.launcher] at hn, h8⟩
  | look hi _ hm =>
    simp only [Supervision.monitored, Bool.and_eq_true, Bool.not_eq_true', Bool.or_eq_false_iff] at hm
    obtain ⟨hr, ⟨⟨-, hst⟩, hsg⟩, ht⟩ := hm
    exact h.watch hi hr ht hst hsg
  | collect hi _ hr ht hst hsg => exact h.watch hi hr ht hst hsg
  | pass => exact h.unwatch
  | react hw hi => exact h.reschedule (by simp [hw]) hi rfl rfl
  | reactLate hw => exact h.schedule (by simp [hw])
  | timeoutRestart hw hi => exact h.reschedule (by simp [hw]) hi rfl rfl
  | timeoutBlocks _ hi => exact h.observe hi rfl rfl
  | lateReply hw hi => exact h.reschedule (by simp [hw]) hi rfl rfl
  | lateRelease _ hi => exact h.observe hi rfl rfl
  | reply _ hi => exact h.observe hi rfl rfl
  | send _ hi => exact h.observe hi rfl rfl
  | heartbeat => exact h.update (fun _ => rfl) (fun _ => rfl)
  | failure => exact h.update (fun _ => rfl) (fun _ => rfl)
  | queue => exact h.update (fun _ => rfl) (fun _ => rfl)
  | begin ha => exact h.beginRestart (by simp [ha])
  | @stopped i exhausted ha hi =>
    cases exhausted with
    | true =>
      obtain ⟨g1, g2, g3, g4, g5, g6, g7, g8⟩ := h.finish (s.shutDown d i true).current (by simp [ha])
      exact ⟨g1, g2, g3, g4, g5, g6, g7, g8⟩
    | false =>
      have hw : s.watch = none := by
        by_contra hw
        simp [ha] at h2
        exact hw h2
      exact ⟨by simp [Supervision.shutDown], fun hn => absurd hw hn, h3,
        fun _ => .inr (.inr (.inl rfl)), fun hb _ => h5 hb (by simp [ha]), h6, h7,
        by simp [Supervision.shutDown, Automatic.retired]⟩
  | unstopped ha hi => exact h.finish _ (by simp [ha])
  | stoppedRetired ha =>
    exact ⟨fun hc => by simp [(h1 hc).2] at ha, fun hw => by simp [(h2 hw).1] at ha, h3, h4,
      fun hb _ => h5 hb (by simp [ha]), h6, h7, fun _ => h8 (by simp [ha, Automatic.retired])⟩
  | endedRetired ha => exact h.finish _ (by simp [ha])
  | wakeFlagged ha => exact h.finish _ (by simp [ha])
  | @wake i held ha hi =>
    exact ⟨by simp [hi], fun hw => by simp [(h2 hw).1] at ha, h3, h4, fun hb _ => h5 hb (by simp [ha]), h6, h7,
      fun hr => h8 (by simpa [ha, Automatic.retired] using hr)⟩
  | publish hp => exact h.publish hp
  | refuse hp => exact h.launchRaises hp
  | spawn hp => exact h.spawn hp
  | fails hp => exact h.launchFails hp
  | raises hp => exact h.launchRaises hp
  | started hp => exact h.launchCompletes hp
  | userStop hk hb =>
    have hl := h.unlaunched hb (by simp [hk])
    refine ⟨by simp [Supervision.userStop], h2, fun hn => by simp [Supervision.userStop, hb] at hn,
      fun hn => by simp [Supervision.userStop, hb] at hn, h5, h6,
      fun hn => by simp [Supervision.launcher, Supervision.userStop, hl] at hn, ?_⟩
    intro hr
    obtain ⟨hc, hst, -⟩ := h8 hr
    obtain ⟨i, hi⟩ := Option.ne_none_iff_exists'.mp hc
    simp_all [Supervision.userStop, Supervision.stopped]
  | stopBegins hk =>
    have hb : s.booting = false := by
      by_contra hb
      simp [h3 (by simpa using hb)] at hk
    exact exclusive_stop (fun hc => (h1 hc).1) hb (h.unlaunched hb (by simp [hk]))
  | userStopped hk => exact h.conclude (.inr ⟨_, hk⟩)
  | userStoppedReported hk => exact h.conclude (.inr ⟨_, hk⟩)
  | userUnstopped hk => exact h.conclude (.inr ⟨_, hk⟩)
  | userStart hk hb ha =>
    exact ⟨h1, h2, fun hn => by simp [hb] at hn, h4, fun hn => by simp [hb] at hn,
      fun hn => by simp [Supervision.launcher] at hn, fun _ => rfl, fun hr => by simp [ha, Automatic.retired] at hr⟩
  | cleaned hk => exact h.conclude (.inl hk)
  | uncleaned hk => exact h.conclude (.inl hk)
  | grant => exact ⟨h1, h2, h3, h4, h5, h6, h7, h8⟩
  | advance =>
    have hu : Exclusive (s.update fun i => { i with restartCount := 0 }) := h.update (fun _ => rfl) (fun _ => rfl)
    exact ⟨hu.present, hu.watched, hu.quiet, hu.booted, hu.alone, hu.first, hu.direct, hu.retired⟩
  | progress => exact ⟨h1, h2, h3, h4, h5, h6, h7, h8⟩

end

end ModularPipelines.Services
