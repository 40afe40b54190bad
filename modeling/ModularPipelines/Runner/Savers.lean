import ModularPipelines.Runner.Runs

namespace ModularPipelines.Runner
open Library

/-- A saver commits a checkpoint and publishes the file, or publishes the file alone. -/
inductive SaveKind where
  | checkpoint (checkpointId : String)
  | fileOnly
  deriving DecidableEq, Repr

def SaveKind.commits : SaveKind → Bool
  | .checkpoint _ => true
  | .fileOnly => false

inductive SavePhase where
  | committing
  | publishing
  | reporting
  | completed
  | raised
  deriving DecidableEq, Repr

/-- A save has a write ahead of it. -/
def SavePhase.writes : SavePhase → Bool
  | .committing | .publishing => true
  | .reporting | .completed | .raised => false

/-- One call of a saver, with the state that it has frozen. -/
structure Save where
  kind : SaveKind
  state : RunnerState
  phase : SavePhase

/-- A frozen state where it has been written; `order` counts the freezes before it. -/
structure Frozen where
  order : Nat
  state : RunnerState

inductive Evidence where
  | checkpoint (c : Frozen)
  | launch (attemptId : String)

/-- `_read_recovery_evidence`: the newest checkpoint, and the launches after it. -/
def readRecoveryEvidence (journal : List Evidence) : Option Frozen × List String :=
  journal.foldl (fun found entry =>
    match entry with
    | .checkpoint c => (some c, [])
    | .launch attemptId => (found.1, found.2 ++ [attemptId])) (none, [])

/-- One runner with all calls of its savers, in the order of their freezes. -/
structure Savers where
  state : RunnerState
  saves : List Save
  journal : List Evidence
  file : Option Frozen

inductive SaveAction where
  | change (s : RunnerState)
  | launch (attemptId : String)
  | freeze (kind : SaveKind)
  | commit (order : Nat)
  | publish (order : Nat) (written : Bool)
  | complete (order : Nat)
  | raise (order : Nat)

namespace Savers

/-- The save that is frozen next; only a checkpoint has a new ID. -/
def frozenSave (m : Savers) : SaveKind → Save
  | .checkpoint checkpointId => ⟨.checkpoint checkpointId, { m.state with checkpointId := some checkpointId }, .committing⟩
  | .fileOnly => ⟨.fileOnly, m.state, .publishing⟩

/-- The event loop freezes the state. -/
def freeze (m : Savers) (kind : SaveKind) : Savers :=
  { m with state := (m.frozenSave kind).state, saves := m.saves ++ [m.frozenSave kind] }

def setPhase (m : Savers) (order : Nat) (save : Save) (phase : SavePhase) : Savers :=
  { m with saves := m.saves.set order { save with phase := phase } }

/-- The save of this order, if it is in this phase. -/
def inPhase (m : Savers) (order : Nat) (phase : SavePhase) : Option Save :=
  m.saves[order]?.filter (fun s => s.phase == phase)

/-- The writes of the savers run in threads, so any save may take its next step. A file that
cannot be written is reported and nothing more. -/
def step (m : Savers) : SaveAction → Option Savers
  | .change s => some { m with state := s }
  | .launch attemptId => some { m with journal := m.journal ++ [.launch attemptId] }
  | .freeze kind => some (m.freeze kind)
  | .commit order => (m.inPhase order .committing).map (fun save =>
      { m.setPhase order save .publishing with journal := m.journal ++ [.checkpoint ⟨order, save.state⟩] })
  | .publish order written => (m.inPhase order .publishing).map (fun save =>
      { m.setPhase order save .reporting with file := if written then some ⟨order, save.state⟩ else m.file })
  | .complete order => (m.inPhase order .reporting).map (fun save => m.setPhase order save .completed)
  | .raise order =>
    (m.saves[order]?.filter (fun s => s.phase != .completed)).map (fun save => m.setPhase order save .raised)

def run (m : Savers) (actions : List SaveAction) : Option Savers := actions.foldlM step m

def start (s : RunnerState) : Savers := ⟨s, [], [], none⟩

def newest (m : Savers) : Option Frozen := (readRecoveryEvidence m.journal).1

/-- Some earlier save still has a write ahead of it. -/
def writing (m : Savers) : Prop := ∃ s ∈ m.saves, s.phase.writes = true

/-- What recovery reads was frozen no earlier than any save that has completed, and is what was frozen then. -/
structure UpToDate (m : Savers) : Prop where
  checkpoint : ∀ n s, m.saves[n]? = some s → s.phase = .completed → s.kind.commits = true →
    ∃ c, m.newest = some c ∧ n ≤ c.order
  file : ∀ n s, m.saves[n]? = some s → s.phase = .completed → ∃ f, m.file = some f ∧ n ≤ f.order
  written : ∀ c, m.newest = some c ∨ m.file = some c → ∃ s, m.saves[c.order]? = some s ∧ s.state = c.state ∧
    s.phase ≠ .committing

/-- A save is frozen only when no earlier one still has to write, and every file can be written. -/
def Apart (m : Savers) : SaveAction → Prop
  | .freeze _ => ¬ m.writing
  | .publish _ written => written = true
  | _ => True

/-- The runs of the savers; in separate runs every step is apart. -/
inductive Reachable (separate : Prop) : Savers → Prop where
  | start (s : RunnerState) : Reachable separate (start s)
  | step {m m' : Savers} (action : SaveAction) (before : Reachable separate m) (apart : separate → m.Apart action)
      (step : m.step action = some m') : Reachable separate m'

variable {m m' : Savers} {n order : Nat} {save s : Save} {phase : SavePhase}

theorem readRecoveryEvidence_append (journal : List Evidence) (entry : Evidence) :
    (readRecoveryEvidence (journal ++ [entry])).1 =
      match entry with
      | .checkpoint c => some c
      | .launch _ => (readRecoveryEvidence journal).1 := by
  unfold readRecoveryEvidence
  rw [List.foldl_append]
  cases entry <;> rfl

theorem inPhase_some (h : m.inPhase order phase = some save) : m.saves[order]? = some save ∧ save.phase = phase := by
  obtain ⟨hget, hphase⟩ := Option.filter_eq_some_iff.mp h
  exact ⟨hget, by simpa using hphase⟩

/-- The saves after one of them has moved on. -/
theorem setPhase_get (h : m.saves[order]? = some save) (hs : (m.setPhase order save phase).saves[n]? = some s) :
    (n = order ∧ s = { save with phase := phase }) ∨ (n ≠ order ∧ m.saves[n]? = some s) := by
  have hlen : order < m.saves.length := (List.getElem?_eq_some_iff.mp h).1
  by_cases hn : n = order
  · subst hn
    rw [setPhase, List.getElem?_set_self hlen] at hs
    exact .inl ⟨rfl, (Option.some.inj hs).symm⟩
  · rw [setPhase, List.getElem?_set_ne (Ne.symm hn)] at hs
    exact .inr ⟨hn, hs⟩

theorem setPhase_self (h : m.saves[order]? = some save) :
    (m.setPhase order save phase).saves[order]? = some { save with phase := phase } := by
  have hlen : order < m.saves.length := (List.getElem?_eq_some_iff.mp h).1
  rw [setPhase, List.getElem?_set_self hlen]

theorem setPhase_other (hn : n ≠ order) : (m.setPhase order save phase).saves[n]? = m.saves[n]? := by
  rw [setPhase, List.getElem?_set_ne (Ne.symm hn)]

theorem get_bound (h : m.saves[n]? = some s) : n < m.saves.length := (List.getElem?_eq_some_iff.mp h).1

/-- What has been written is one of the frozen states. -/
def Recorded (m : Savers) (c : Frozen) : Prop :=
  ∃ s, m.saves[c.order]? = some s ∧ s.state = c.state ∧ s.phase ≠ .committing

/-- In separate runs a save that still has to write is the last one that was frozen. -/
structure Settled (m : Savers) : Prop where
  committed : ∀ n s, m.saves[n]? = some s → s.kind.commits = true → s.phase ≠ .committing → s.phase ≠ .raised →
    ∃ c, m.newest = some c ∧ n ≤ c.order
  published : ∀ n s, m.saves[n]? = some s → s.phase = .reporting ∨ s.phase = .completed →
    ∃ f, m.file = some f ∧ n ≤ f.order
  last : ∀ n s, m.saves[n]? = some s → s.phase.writes = true → n + 1 = m.saves.length
  recorded : ∀ c, m.newest = some c ∨ m.file = some c → m.Recorded c
  behind : ∀ f s, m.file = some f → m.saves[f.order]? = some s → s.phase.writes = false

theorem Recorded.setPhase {c : Frozen} (h : m.Recorded c) (hget : m.saves[order]? = some save)
    (hphase : phase ≠ .committing) : (m.setPhase order save phase).Recorded c := by
  obtain ⟨s, hs, hstate, hcommitting⟩ := h
  by_cases hn : c.order = order
  · rw [hn] at hs
    obtain rfl := Option.some.inj (hget.symm.trans hs)
    exact ⟨{ save with phase := phase }, by rw [hn]; exact setPhase_self hget, hstate, hphase⟩
  · exact ⟨s, by rw [setPhase_other hn]; exact hs, hstate, hcommitting⟩

/-- A save that ends or goes on without a write. -/
theorem Settled.quiet (h : m.Settled) (hget : m.saves[order]? = some save)
    (hphase : save.phase = .reporting ∧ phase = .completed ∨ phase = .raised) :
    (m.setPhase order save phase).Settled := by
  have hnew : phase ≠ .committing ∧ phase.writes = false := by
    obtain ⟨-, rfl⟩ | rfl := hphase <;> exact ⟨nofun, rfl⟩
  refine ⟨?_, ?_, ?_, ?_, ?_⟩
  · intro n s hs hcommits hcommitting hraised
    obtain ⟨rfl, rfl⟩ | ⟨-, hs⟩ := setPhase_get hget hs
    · obtain ⟨hold, -⟩ | rfl := hphase
      · exact h.committed n save hget hcommits (by simp [hold]) (by simp [hold])
      · exact (hraised rfl).elim
    · exact h.committed n s hs hcommits hcommitting hraised
  · intro n s hs hdone
    obtain ⟨rfl, rfl⟩ | ⟨-, hs⟩ := setPhase_get hget hs
    · obtain ⟨hold, -⟩ | rfl := hphase
      · exact h.published n save hget (.inl hold)
      · obtain hdone | hdone := hdone <;> cases hdone
    · exact h.published n s hs hdone
  · intro n s hs hwrites
    obtain ⟨rfl, rfl⟩ | ⟨-, hs⟩ := setPhase_get hget hs
    · exact (Bool.eq_false_iff.mp hnew.2 hwrites).elim
    · exact (h.last n s hs hwrites).trans (List.length_set).symm
  · intro c hc
    exact (h.recorded c hc).setPhase hget hnew.1
  · intro f s hf hs
    obtain ⟨-, rfl⟩ | ⟨-, hs⟩ := setPhase_get hget hs
    · exact hnew.2
    · exact h.behind f s hf hs

theorem Settled.commit (h : m.Settled) (hget : m.saves[order]? = some save) (hphase : save.phase = .committing) :
    Settled { m.setPhase order save .publishing with journal := m.journal ++ [.checkpoint ⟨order, save.state⟩] } := by
  have hlast := h.last order save hget (by rw [hphase]; rfl)
  have hnewest : newest { m.setPhase order save .publishing with
      journal := m.journal ++ [.checkpoint ⟨order, save.state⟩] } = some ⟨order, save.state⟩ :=
    readRecoveryEvidence_append _ _
  refine ⟨?_, ?_, ?_, ?_, ?_⟩
  · intro n s hs _ _ _
    have hbound := get_bound (m := m.setPhase order save .publishing) hs
    rw [setPhase, List.length_set] at hbound
    exact ⟨_, hnewest, by show n ≤ order; omega⟩
  · intro n s hs hdone
    obtain ⟨rfl, rfl⟩ | ⟨-, hs⟩ := setPhase_get (m := m) hget hs
    · obtain hdone | hdone := hdone <;> cases hdone
    · exact h.published n s hs hdone
  · intro n s hs hwrites
    have hlength : (m.setPhase order save .publishing).saves.length = m.saves.length := List.length_set
    obtain ⟨rfl, rfl⟩ | ⟨-, hs⟩ := setPhase_get (m := m) hget hs
    · exact hlast.trans hlength.symm
    · exact (h.last n s hs hwrites).trans hlength.symm
  · intro c hc
    obtain hc | hc := hc
    · obtain rfl := Option.some.inj (hnewest.symm.trans hc)
      exact ⟨_, setPhase_self hget, rfl, nofun⟩
    · exact (h.recorded c (.inr hc)).setPhase hget nofun
  · intro f s hf hs
    obtain ⟨hn, -⟩ | ⟨-, hs⟩ := setPhase_get (m := m) hget hs
    · have hsaved : save.phase.writes = false := h.behind f save hf (by rw [hn]; exact hget)
      rw [hphase] at hsaved
      cases hsaved
    · exact h.behind f s hf hs

theorem Settled.publish (h : m.Settled) (hget : m.saves[order]? = some save) (hphase : save.phase = .publishing) :
    Settled { m.setPhase order save .reporting with file := some ⟨order, save.state⟩ } := by
  have hlast := h.last order save hget (by rw [hphase]; rfl)
  refine ⟨?_, ?_, ?_, ?_, ?_⟩
  · intro n s hs hcommits hcommitting hraised
    obtain ⟨rfl, rfl⟩ | ⟨-, hs⟩ := setPhase_get (m := m) hget hs
    · exact h.committed n save hget hcommits (by simp [hphase]) (by simp [hphase])
    · exact h.committed n s hs hcommits hcommitting hraised
  · intro n s hs _
    have hbound := get_bound (m := m.setPhase order save .reporting) hs
    rw [setPhase, List.length_set] at hbound
    exact ⟨_, rfl, by show n ≤ order; omega⟩
  · intro n s hs hwrites
    have hlength : (m.setPhase order save .reporting).saves.length = m.saves.length := List.length_set
    obtain ⟨rfl, rfl⟩ | ⟨-, hs⟩ := setPhase_get (m := m) hget hs
    · cases hwrites
    · exact (h.last n s hs hwrites).trans hlength.symm
  · intro c hc
    obtain hc | hc := hc
    · exact (h.recorded c (.inl hc)).setPhase hget nofun
    · obtain rfl := Option.some.inj hc
      exact ⟨_, setPhase_self hget, rfl, nofun⟩
  · intro f s hf hs
    obtain rfl := Option.some.inj hf
    obtain ⟨-, rfl⟩ | ⟨hn, -⟩ := setPhase_get (m := m) hget hs
    · rfl
    · exact (hn rfl).elim

theorem freeze_get {kind : SaveKind} (hs : (m.freeze kind).saves[n]? = some s) :
    m.saves[n]? = some s ∨ n = m.saves.length ∧ s = m.frozenSave kind := by
  have hbound : n < (m.saves ++ [m.frozenSave kind]).length := (List.getElem?_eq_some_iff.mp hs).1
  rw [List.length_append, List.length_singleton] at hbound
  by_cases hn : n = m.saves.length
  · subst hn
    rw [freeze, List.getElem?_concat_length] at hs
    exact .inr ⟨rfl, (Option.some.inj hs).symm⟩
  · rw [freeze, List.getElem?_append_left (by omega)] at hs
    exact .inl hs

theorem Settled.freeze (h : m.Settled) (hapart : ¬ m.writing) (kind : SaveKind) : (m.freeze kind).Settled := by
  refine ⟨?_, ?_, ?_, ?_, ?_⟩
  · intro n s hs hcommits hcommitting hraised
    obtain hs | ⟨-, rfl⟩ := freeze_get hs
    · exact h.committed n s hs hcommits hcommitting hraised
    · cases kind with
      | checkpoint => exact (hcommitting rfl).elim
      | fileOnly => cases hcommits
  · intro n s hs hdone
    obtain hs | ⟨-, rfl⟩ := freeze_get hs
    · exact h.published n s hs hdone
    · cases kind <;> obtain hdone | hdone := hdone <;> cases hdone
  · intro n s hs hwrites
    rw [Savers.freeze, List.length_append, List.length_singleton]
    obtain hs | ⟨rfl, -⟩ := freeze_get hs
    · exact (hapart ⟨s, List.mem_of_getElem? hs, hwrites⟩).elim
    · rfl
  · intro c hc
    obtain ⟨s, hs, hstate, hphase⟩ := h.recorded c hc
    refine ⟨s, ?_, hstate, hphase⟩
    rw [Savers.freeze, List.getElem?_append_left (get_bound hs)]
    exact hs
  · intro f s hf hs
    obtain hs | ⟨hn, -⟩ := freeze_get hs
    · exact h.behind f s hf hs
    · obtain ⟨saved, hsaved, -⟩ := h.recorded f (.inr hf)
      exact absurd (get_bound hsaved) (by omega)

theorem Settled.launch (h : m.Settled) (attemptId : String) :
    Settled { m with journal := m.journal ++ [.launch attemptId] } := by
  have hnewest : newest { m with journal := m.journal ++ [.launch attemptId] } = m.newest :=
    readRecoveryEvidence_append _ _
  refine ⟨?_, h.published, h.last, ?_, h.behind⟩
  · rw [hnewest]
    exact h.committed
  · rw [hnewest]
    exact h.recorded

theorem Settled.step {action : SaveAction} (h : m.Settled) (hapart : m.Apart action)
    (hstep : m.step action = some m') : m'.Settled := by
  cases action with
  | change s =>
    obtain rfl := Option.some.inj hstep
    exact ⟨h.committed, h.published, h.last, h.recorded, h.behind⟩
  | launch attemptId =>
    obtain rfl := Option.some.inj hstep
    exact h.launch attemptId
  | freeze kind =>
    obtain rfl := Option.some.inj hstep
    exact h.freeze hapart kind
  | commit order =>
    obtain ⟨save, hphase, rfl⟩ := Option.map_eq_some_iff.mp hstep
    obtain ⟨hget, hphase⟩ := inPhase_some hphase
    exact h.commit hget hphase
  | publish order written =>
    obtain ⟨save, hphase, rfl⟩ := Option.map_eq_some_iff.mp hstep
    obtain ⟨hget, hphase⟩ := inPhase_some hphase
    obtain rfl : written = true := hapart
    exact h.publish hget hphase
  | complete order =>
    obtain ⟨save, hphase, rfl⟩ := Option.map_eq_some_iff.mp hstep
    obtain ⟨hget, hphase⟩ := inPhase_some hphase
    exact h.quiet hget (.inl ⟨hphase, rfl⟩)
  | raise order =>
    obtain ⟨save, hphase, rfl⟩ := Option.map_eq_some_iff.mp hstep
    exact h.quiet (Option.filter_eq_some_iff.mp hphase).1 (.inr rfl)

theorem Reachable.settled (h : Reachable True m) : m.Settled := by
  induction h with
  | start s =>
    refine ⟨fun _ _ hs => ?_, fun _ _ hs => ?_, fun _ _ hs => ?_, fun c hc => ?_, fun _ _ hf => ?_⟩
    · cases hs
    · cases hs
    · cases hs
    · obtain hc | hc := hc <;> cases hc
    · cases hf
  | step action _ apart hstep ih => exact ih.step (apart trivial) hstep

theorem Settled.upToDate (h : m.Settled) : m.UpToDate := by
  refine ⟨?_, ?_, h.recorded⟩
  · intro n s hs hphase hcommits
    exact h.committed n s hs hcommits (by simp [hphase]) (by simp [hphase])
  · intro n s hs hphase
    exact h.published n s hs (.inr hphase)

/-- The writes that a save still makes. -/
def writes (order : Nat) : SavePhase → List SaveAction
  | .committing => [.commit order, .publish order true]
  | .publishing => [.publish order true]
  | .reporting | .completed | .raised => []

theorem inPhase_of (h : m.saves[order]? = some save) (hphase : save.phase = phase) :
    m.inPhase order phase = some save := by
  unfold inPhase
  rw [h, Option.filter_some, hphase, beq_self_eq_true, if_pos rfl]

theorem step_publish (h : m.saves[order]? = some save) (hphase : save.phase = .publishing) :
    ∃ m', m.step (.publish order true) = some m' ∧ m'.file = some ⟨order, save.state⟩ ∧
      m'.saves = m.saves.set order { save with phase := .reporting } := by
  refine ⟨{ m.setPhase order save .reporting with file := some ⟨order, save.state⟩ }, ?_, rfl, rfl⟩
  simp only [step, inPhase_of h hphase, Option.map_some, if_true]

/-- A save that still writes leaves its own state in the file, whenever it comes to that. -/
theorem run_writes (h : m.saves[order]? = some save) (hphase : save.phase.writes = true) :
    ∃ m', m.run (writes order save.phase) = some m' ∧ m'.file = some ⟨order, save.state⟩ ∧
      m'.saves = m.saves.set order { save with phase := .reporting } := by
  rcases hcase : save.phase with _ | _ | _ | _ | _
  · have hself : (m.setPhase order save .publishing).saves[order]? = some { save with phase := .publishing } :=
      setPhase_self h
    obtain ⟨m', hstep, hfile, hsaves⟩ := step_publish
      (m := { m.setPhase order save .publishing with journal := m.journal ++ [.checkpoint ⟨order, save.state⟩] })
      hself rfl
    refine ⟨m', ?_, hfile, ?_⟩
    · simp only [writes, run, List.foldlM_cons, List.foldlM_nil, step, inPhase_of h hcase, Option.map_some,
        Option.bind_eq_bind, Option.bind_some] at hstep ⊢
      rw [hstep]
      rfl
    · rw [hsaves]
      exact List.set_set ..
  · obtain ⟨m', hstep, hfile, hsaves⟩ := step_publish h hcase
    refine ⟨m', ?_, hfile, hsaves⟩
    simp only [writes, run, List.foldlM_cons, List.foldlM_nil, hstep, Option.bind_eq_bind, Option.bind_some]
    rfl
  · rw [hcase] at hphase; cases hphase
  · rw [hcase] at hphase; cases hphase
  · rw [hcase] at hphase; cases hphase

theorem run_append {first second : List SaveAction} {m₁ m₂ : Savers} (h₁ : m.run first = some m₁)
    (h₂ : m₁.run second = some m₂) : m.run (first ++ second) = some m₂ := by
  unfold run at h₁ h₂ ⊢
  rw [List.foldlM_append, h₁]
  exact h₂

theorem run_complete (h : m.saves[order]? = some save) (hphase : save.phase = .reporting) :
    m.run [.complete order] = some (m.setPhase order save .completed) := by
  simp only [run, List.foldlM_cons, List.foldlM_nil, step, inPhase_of h hphase, Option.map_some,
    Option.bind_eq_bind, Option.bind_some]
  rfl

/-- A save that was frozen before a newer one can write its file after that one has completed. -/
theorem freeze_overtaken (h : m.writing) (kind : SaveKind) :
    ∃ actions m', (m.freeze kind).run actions = some m' ∧ ¬ m'.UpToDate := by
  obtain ⟨older, hmem, hwrites⟩ := h
  obtain ⟨k, hk⟩ := List.mem_iff_getElem?.mp hmem
  have hbound : k < m.saves.length := get_bound hk
  have hnewer : (m.freeze kind).saves[m.saves.length]? = some (m.frozenSave kind) := List.getElem?_concat_length
  have hkeeps : (m.freeze kind).saves[k]? = some older := by
    rw [freeze, List.getElem?_append_left hbound]
    exact hk
  obtain ⟨m₁, hrun₁, -, hsaves₁⟩ := run_writes hnewer (by cases kind <;> rfl)
  have hdone : m₁.saves[m.saves.length]? = some { m.frozenSave kind with phase := .reporting } := by
    rw [hsaves₁]
    exact List.getElem?_set_self (get_bound hnewer)
  have hrun₂ := run_complete hdone rfl
  have hold : (m₁.setPhase m.saves.length { m.frozenSave kind with phase := .reporting } .completed).saves[k]? =
      some older := by
    rw [setPhase_other (Nat.ne_of_lt hbound), hsaves₁, List.getElem?_set_ne (Nat.ne_of_gt hbound)]
    exact hkeeps
  obtain ⟨m₂, hrun₃, hfile, hsaves₂⟩ := run_writes hold hwrites
  refine ⟨_, m₂, run_append (run_append hrun₁ hrun₂) hrun₃, fun hup => ?_⟩
  have hcompleted : m₂.saves[m.saves.length]? = some { m.frozenSave kind with phase := .completed } := by
    rw [hsaves₂, List.getElem?_set_ne (Nat.ne_of_lt hbound), setPhase_self hdone]
  obtain ⟨f, hf, horder⟩ := hup.file _ _ hcompleted rfl
  rw [hfile] at hf
  obtain rfl := Option.some.inj hf
  exact absurd hbound (Nat.not_lt.mpr horder)

/-- A file that cannot be written leaves the one of an earlier save, or none. -/
theorem Settled.unwritten (h : m.Settled) (hstep : m.step (.publish order false) = some m') :
    ∃ actions m'', m'.run actions = some m'' ∧ ¬ m''.UpToDate := by
  obtain ⟨save, hphase, rfl⟩ := Option.map_eq_some_iff.mp hstep
  obtain ⟨hget, hphase⟩ := inPhase_some hphase
  have hself : (m.setPhase order save .reporting).saves[order]? = some { save with phase := .reporting } :=
    setPhase_self hget
  refine ⟨_, _, run_complete hself rfl, fun hup => ?_⟩
  have hlast : order + 1 = m.saves.length := h.last order save hget (by rw [hphase]; rfl)
  obtain ⟨f, hf, horder⟩ := hup.file order _ (setPhase_self hself) rfl
  have hfile : m.file = some f := hf
  obtain ⟨saved, hsaved, -⟩ := h.recorded f (.inr hfile)
  have heq : f.order = order := by
    have hbound := get_bound hsaved
    omega
  rw [heq] at hsaved
  obtain rfl := Option.some.inj (hget.symm.trans hsaved)
  have hquiet := h.behind f save hfile (by rw [heq]; exact hget)
  rw [hphase] at hquiet
  cases hquiet

/-- In separate runs recovery finds what was frozen last, and after the first step that is not
apart a run can go on to where it does not. -/
theorem newest_save_found (m : Savers) (h : Reachable True m) :
    m.UpToDate ∧
    ∀ action m', m.step action = some m' → ¬ m.Apart action →
      ∃ actions m'', m'.run actions = some m'' ∧ ¬ m''.UpToDate := by
  refine ⟨h.settled.upToDate, ?_⟩
  intro action m' hstep hapart
  cases action with
  | freeze kind =>
    obtain rfl := Option.some.inj hstep
    exact freeze_overtaken (not_not.mp hapart) kind
  | publish order written =>
    cases written with
    | false => exact h.settled.unwritten hstep
    | true => exact (hapart rfl).elim
  | change | launch | commit | complete | raise => exact (hapart trivial).elim

theorem Reachable.run {actions : List SaveAction} (h : Reachable False m) (hrun : m.run actions = some m') :
    Reachable False m' := by
  induction actions generalizing m with
  | nil =>
    obtain rfl := Option.some.inj hrun
    exact h
  | cons action actions ih =>
    obtain ⟨m₁, hstep, hrun⟩ := Option.bind_eq_some_iff.mp hrun
    exact ih (h.step action False.elim hstep) hrun

theorem not_writing (h : m.saves.any (·.phase.writes) = false) : ¬ m.writing := by
  intro hwriting
  rw [List.any_eq_true.mpr hwriting] at h
  cases h

theorem Reachable.saved {checkpointId : String} {m₁ : Savers} (h : Reachable True m)
    (hwritten : m.saves.any (·.phase.writes) = false)
    (hrun : m.run [.freeze (.checkpoint checkpointId), .commit order, .publish order true, .complete order] = some m₁) :
    Reachable True m₁ := by
  simp only [Savers.run, List.foldlM_cons, List.foldlM_nil, Option.bind_eq_bind, Option.bind_eq_some_iff] at hrun
  obtain ⟨_, hfreeze, _, hcommit, _, hpublish, _, hcomplete, hlast⟩ := hrun
  obtain rfl := Option.some.inj hlast
  have hfrozen := h.step (.freeze (.checkpoint checkpointId)) (fun _ => not_writing hwritten) hfreeze
  have hcommitted := hfrozen.step (.commit order) (fun _ => trivial) hcommit
  have hpublished := hcommitted.step (.publish order true) (fun _ => rfl) hpublish
  exact hpublished.step (.complete order) (fun _ => trivial) hcomplete

/-- Two completed saves and a third one that still has to commit. -/
theorem newest_save_found_pair : ∃ m, Reachable True m ∧ m.UpToDate ∧
    m.saves.map Save.phase = [.completed, .completed, .committing] ∧ m.newest.map Frozen.order = some 1 ∧
    m.file.map Frozen.order = some 1 ∧
    ∃ actions m', (m.freeze .fileOnly).run actions = some m' ∧ ¬ m'.UpToDate := by
  have hstart : Reachable True (start Machine.pairStart.runner.state) := .start _
  have hfirst : Reachable True _ := @Reachable.saved _ 0 "first" _ hstart rfl rfl
  have hchanged : Reachable True _ := hfirst.step
    (.change { Machine.pairStart.runner.state with stageRetryCounts := Dict.empty.set "prepare" 1 }) (fun _ => trivial) rfl
  have hsecond : Reachable True _ := @Reachable.saved _ 1 "second" _ hchanged rfl rfl
  have hthird : Reachable True _ := hsecond.step (.freeze (.checkpoint "third")) (fun _ => not_writing rfl) rfl
  refine ⟨_, hthird, (newest_save_found _ hthird).1, rfl, rfl, rfl, ?_⟩
  apply (newest_save_found _ hthird).2 (.freeze .fileOnly) _ rfl
  exact fun hapart => hapart ⟨_, List.mem_append_right _ (List.mem_singleton_self _), rfl⟩

/-- Two checkpoints of one state; the second one is written first. -/
def overtaken : List SaveAction :=
  [.freeze (.checkpoint "first"), .change { Machine.pairStart.runner.state with stageRetryCounts := Dict.empty.set "prepare" 1 },
    .freeze (.checkpoint "second"), .commit 1, .publish 1 true, .complete 1, .commit 0]

/-- The retry count of the second save has been reported, and recovery finds the one before it. -/
theorem overtaken_save_lost : ¬ ∀ m, Reachable False m → m.UpToDate := by
  intro hclaim
  have hstart : Reachable False (start Machine.pairStart.runner.state) := .start _
  have hrun : Reachable False _ := @Reachable.run _ _ overtaken hstart rfl
  obtain ⟨c, hc, horder⟩ := (hclaim _ hrun).checkpoint 1 _ rfl rfl rfl
  obtain rfl := Option.some.inj hc
  cases horder

end Savers

end ModularPipelines.Runner
