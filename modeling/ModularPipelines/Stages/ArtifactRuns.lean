import ModularPipelines.Runner.RecordedRuns
import ModularPipelines.Stages.Artifacts

namespace ModularPipelines.Stages
open Library Runner

variable {F : Type} (fs : FileSystem F) (directory : Path)

/-- The data of a conditional result that the runner accepts as a success. -/
def acceptedData (s : RunnerState) (o : StageOutcome) : Option Json :=
  if ¬ (o.attempt.outcome = some .unknown ∨ o.action = .stop) ∧ (s.current.bind StageDefinition.returnsData).isSome then
    o.accepted.map StageResult.data
  else none

/-- The artifacts of an outcome are looked up when it is accepted. -/
def lookUp (f : F) (m : Machine) : Action → Option Machine
  | .consume =>
    match m.point with
    | .finished o =>
      match acceptedData m.runner.state o with
      | none => some m
      | some data => (artifactsIn fs f directory data).map fun found =>
          { m with point := .finished { o with artifacts := found } }
    | _ => some m
  | _ => some m

/-- One step of a run, at some state of its files. -/
def artifactStep (f : F) (m : Machine) (action : Action) : Option Machine :=
  (lookUp fs directory f m action).bind fun looked => looked.transition action

/-- A step accepts conditional data with a string that names an entry. -/
def Carries (f : F) (m : Machine) (action : Action) (entry : Path) : Prop :=
  ∃ o data text, action = .consume ∧ m.point = .finished o ∧ acceptedData m.runner.state o = some data ∧
    Json.Occurs text data ∧ NamesEntry fs f directory text entry

/-- A run among files that change freely, and the entries that its accepted data has named. -/
inductive ArtifactRun : Machine → (Path → Prop) → Prop where
  | fresh (experimentId runId revision : String) (template : ExperimentTemplate)
      (services : Dict Services.ServiceInstance) (desired : Mode) :
      ArtifactRun (Machine.fresh experimentId runId revision template services desired) fun _ => False
  | step {m m' : Machine} {named : Path → Prop} (action : Action) (f : F) (h : ArtifactRun m named)
      (hstep : artifactStep fs directory f m action = some m') :
      ArtifactRun m' fun entry => named entry ∨ Carries fs directory f m action entry

def relativeEntry (entry : Path) : String := String.ofList (Path.asPosix (entry.drop directory.length))

variable {fs directory}

theorem retainedBy_none {s : RunnerState} {o : StageOutcome} (h : acceptedData s o = none) :
    Machine.retainedBy s o = [] := by
  unfold acceptedData at h
  rw [Machine.retainedBy, if_neg]
  rintro ⟨hmoves, haccepted, hreturns⟩
  rw [if_pos ⟨hmoves, hreturns⟩, Option.map_eq_none_iff] at h
  rw [h] at haccepted
  cases haccepted

theorem retainedBy_found {s : RunnerState} {o : StageOutcome} {data : Json} (h : acceptedData s o = some data)
    (found : List String) : Machine.retainedBy s { o with artifacts := found } = found := by
  obtain ⟨⟨hmoves, hreturns⟩, hdata⟩ := Option.ite_none_right_eq_some.mp h
  obtain ⟨response, hresponse, -⟩ := Option.map_eq_some_iff.mp hdata
  have haccepted : (StageOutcome.accepted { o with artifacts := found }).isSome = true :=
    Option.isSome_of_eq_some hresponse
  rw [Machine.retainedBy, if_pos ⟨hmoves, haccepted, hreturns⟩]

theorem lookUp_other {f : F} {m looked : Machine} {action : Action} (h : lookUp fs directory f m action = some looked)
    (hconsume : action ≠ .consume ∨ ∀ o, m.point ≠ .finished o) : looked = m := by
  unfold lookUp at h
  split at h
  · split at h
    · rename_i o hpoint
      exact (hconsume.resolve_left (fun hne => hne rfl) o hpoint).elim
    · exact (Option.some.inj h).symm
  · exact (Option.some.inj h).symm

/-- Looking up the artifacts of an outcome changes neither the runner nor its place. -/
theorem lookUp_keeps {f : F} {m looked : Machine} {action : Action} {paths : List String} (hs : Sound m)
    (hg : Grounded m paths) (hdir : fs.resolve f directory = some directory)
    (h : lookUp fs directory f m action = some looked) :
    looked.runner = m.runner ∧ Sound looked ∧ Grounded looked paths ∧ ∀ path, path ∈ Machine.retaining looked action ↔
      ∃ entry, Carries fs directory f m action entry ∧ path = relativeEntry directory entry := by
  by_cases hconsume : action ≠ .consume ∨ ∀ o, m.point ≠ .finished o
  · obtain rfl := lookUp_other h hconsume
    refine ⟨rfl, hs, hg, fun path => iff_of_false ?_ ?_⟩
    · have hnone : Machine.retaining looked action = [] := by
        unfold Machine.retaining
        split
        · split
          · rename_i o hpoint
            exact (hconsume.resolve_left (fun hne => hne rfl) o hpoint).elim
          · rfl
        · rfl
      rw [hnone]
      exact List.not_mem_nil
    · rintro ⟨entry, ⟨o, data, text, rfl, hpoint, -⟩, -⟩
      exact hconsume.resolve_left (fun hne => hne rfl) o hpoint
  · obtain ⟨hcons, hfin⟩ := not_or.mp hconsume
    obtain rfl := not_not.mp hcons
    obtain ⟨o, hpoint⟩ := not_forall_not.mp hfin
    obtain ⟨runner, point, journal, snapshotting⟩ := m
    subst hpoint
    simp only [lookUp] at h
    cases hdata : acceptedData runner.state o with
    | none =>
      simp only [hdata] at h
      obtain rfl := Option.some.inj h
      refine ⟨rfl, hs, hg, fun path => iff_of_false ?_ ?_⟩
      · show path ∉ Machine.retainedBy runner.state o
        rw [retainedBy_none hdata]
        exact List.not_mem_nil
      · rintro ⟨entry, ⟨o', data, text, -, hpoint, hdata', -⟩, -⟩
        cases hpoint
        cases hdata.symm.trans hdata'
    | some data =>
      simp only [hdata] at h
      obtain ⟨found, hfound, rfl⟩ := Option.map_eq_some_iff.mp h
      have hpoint : OutcomeSound runner.state { o with artifacts := found } :=
        ⟨hs.point.2.current, hs.point.2.target⟩
      refine ⟨rfl, ⟨hs.saveable, fun _ => hs.pause (by simp), hs.snapshot, (by simp), hs.point.1, hpoint⟩,
        ⟨hg.recorded, hg.stored, hg.retained, hg.advancing, hg.checkpointed, hg.point⟩, fun path => ?_⟩
      show path ∈ Machine.retainedBy runner.state { o with artifacts := found } ↔ _
      rw [retainedBy_found hdata, mem_artifactsIn hdir hfound]
      constructor
      · rintro ⟨text, entry, htext, hentry, rfl⟩
        exact ⟨entry, ⟨o, data, text, rfl, rfl, hdata, htext, hentry⟩, rfl⟩
      · rintro ⟨entry, ⟨o', data', text, -, hpoint, hdata', htext, hentry⟩, rfl⟩
        cases hpoint
        obtain rfl := Option.some.inj (hdata.symm.trans hdata')
        exact ⟨text, entry, htext, hentry, rfl⟩

/-- The entries that a run has named are what its runner retains. -/
structure Retaining (fs : FileSystem F) (directory : Path) (m : Machine) (named : Path → Prop) : Prop where
  sound : Sound m
  grounded : ∃ paths, Grounded m paths
  retained : ∀ path, path ∈ m.runner.state.retainedArtifacts ↔
    ∃ entry, named entry ∧ path = relativeEntry directory entry
  resolved : ∀ entry, named entry → directory <+: entry ∧ ∃ f p, fs.resolve f p = some entry

theorem ArtifactRun.retaining (hdir : ∀ f, fs.resolve f directory = some directory) {m : Machine} {named : Path → Prop}
    (h : ArtifactRun fs directory m named) : Retaining fs directory m named := by
  induction h with
  | fresh experimentId runId revision template services desired =>
    refine ⟨Machine.fresh_sound _ _ _ _ _ _, ⟨[], Machine.fresh_grounded _ _ _ _ _ _⟩, fun path => ?_,
      fun _ hno => hno.elim⟩
    exact iff_of_false List.not_mem_nil fun ⟨_, hno, _⟩ => hno
  | @step m m' named action f h hstep ih =>
    obtain ⟨looked, hlooked, hstep⟩ := Option.bind_eq_some_iff.mp hstep
    obtain ⟨paths, hg⟩ := ih.grounded
    obtain ⟨hrunner, hs, hg, hcarries⟩ := lookUp_keeps ih.sound hg (hdir f) hlooked
    have hg' := hg.transition hs hstep
    refine ⟨Machine.transition_sound hs hstep, ⟨_, hg'⟩, fun path => ?_, ?_⟩
    · rw [hg'.retained, List.mem_append, hcarries, ← hg.retained, hrunner, ih.retained]
      constructor
      · rintro (⟨entry, hn, rfl⟩ | ⟨entry, hc, rfl⟩)
        · exact ⟨entry, .inl hn, rfl⟩
        · exact ⟨entry, .inr hc, rfl⟩
      · rintro ⟨entry, hn | hc, rfl⟩
        · exact .inl ⟨entry, hn, rfl⟩
        · exact .inr ⟨entry, hc, rfl⟩
    · rintro entry (hn | ⟨o, data, text, -, -, -, -, -, hresolved, hinside, -⟩)
      · exact ih.resolved entry hn
      · exact ⟨(List.prefix_append _ _).trans hinside, f, _, hresolved⟩

/-- The retained path of an entry leads back to it at any time. -/
theorem Retaining.join_relative {m : Machine} {named : Path → Prop} (h : Retaining fs directory m named)
    (hfs : fs.Settled) {entry : Path} (hentry : named entry) :
    Path.join directory (relativeEntry directory entry).toList = entry ∧ ∀ f, fs.resolve f entry = some entry := by
  obtain ⟨⟨rest, rfl⟩, g, p, hresolved⟩ := h.resolved entry hentry
  have hnames : ∀ c ∈ rest, Path.isName c = true :=
    fun c hc => hfs.names g p _ hresolved c (List.mem_append_right _ hc)
  refine ⟨?_, fun f => hfs.fixed g f p _ hresolved⟩
  rw [relativeEntry, String.toList_ofList, List.drop_left, Path.join_asPosix directory hnames]

theorem Retaining.join_retained {m : Machine} {named : Path → Prop} (h : Retaining fs directory m named)
    (hfs : fs.Settled) {path : String} (hpath : path ∈ m.runner.state.retainedArtifacts) :
    ∃ entry, named entry ∧ Path.join directory path.toList = entry ∧ ∀ f, fs.resolve f entry = some entry := by
  obtain ⟨entry, hentry, rfl⟩ := (h.retained path).mp hpath
  exact ⟨entry, hentry, h.join_relative hfs hentry⟩

/-- The removal of an attempt does not change how another one is seen. -/
theorem Retaining.expires_frame {m : Machine} {named : Path → Prop} (h : Retaining fs directory m named)
    (hfs : fs.Settled) (hdir : ∀ f, fs.resolve f directory = some directory) {p : PruneScope} {digits : Digits}
    (hp : p.directory = directory) (hretained : p.retained = m.runner.state.retainedArtifacts) (f : F)
    (n name : List Char) (hne : n ≠ name) :
    p.expires fs digits (fs.rmtree f (p.parent ++ [n])).1 name = p.expires fs digits f name := by
  have hapart : ¬ p.parent ++ [n] <+: p.parent ++ [name] := by
    intro hpre
    have hsame : [n] = [name] := List.append_cancel_left (hpre.eq_of_length (by simp))
    exact hne (List.singleton_inj.mp hsame)
  obtain ⟨hd, hr⟩ := hfs.frame f _ _ hapart
  refine PruneScope.expires_frame hd hr (by rw [hp, hdir, hdir]) fun path hpath => ?_
  obtain ⟨entry, -, hjoin, hfixed⟩ := h.join_retained hfs (hretained ▸ hpath)
  rw [hp, hjoin, hfixed, hfixed]

/-- A location that is unrelated to the retained paths is so to the entries that they stand for. -/
theorem Retaining.unrelated {m : Machine} {named : Path → Prop} (h : Retaining fs directory m named) (hfs : fs.Settled)
    {f : F} {location : Path} (hfree : ∀ path ∈ m.runner.state.retainedArtifacts, ∀ kept,
      fs.resolve f (Path.join directory path.toList) = some kept → ¬ Path.Related location kept) :
    ∀ entry, named entry → ¬ Path.Related location entry := by
  intro entry hentry
  obtain ⟨hjoin, hresolved⟩ := h.join_relative hfs hentry
  apply hfree _ ((h.retained _).mpr ⟨entry, hentry, rfl⟩)
  rw [hjoin]
  exact hresolved f

/-- Whenever the directories of old attempts are pruned, none that is removed is, contains or lies in
an entry that accepted conditional data has named. Of the others exactly those up to the limit are
removed, and the current one is not. -/
theorem retained_artifacts_never_pruned (hfs : fs.Settled) (hdir : ∃ f p, fs.resolve f p = some directory) {m : Machine}
    {named : Path → Prop} (h : ArtifactRun fs directory m named) (attempt : StageAttempt) (digits : Digits)
    (moduleName : String) (keep : Nat) (f : F) :
    let parent := attemptsFolder directory moduleName attempt
    let pruned := pruneArtifacts fs digits f
      (pruneScope directory moduleName keep m.runner.state.retainedArtifacts attempt)
    (∀ path ∈ pruned.removed, ∃ location, fs.resolve f path = some location ∧
      ∀ entry, named entry → ¬ Path.Related location entry) ∧
    (∀ path ∈ pruned.removed, ∃ name number, path = parent ++ [name] ∧ name ≠ attemptName attempt ∧
      AttemptDirectory fs digits f name path number ∧ (number : Int) ≤ attempt.attemptNumber - keep) ∧
    parent ++ [attemptName attempt] ∉ pruned.removed ∧
    (pruned.completed = true → ∀ names, fs.iterdir f parent = some names → ∀ name ∈ names, ∀ number,
      name ≠ attemptName attempt → AttemptDirectory fs digits f name (parent ++ [name]) number →
      (∀ location, fs.resolve f (parent ++ [name]) = some location → ∀ entry, named entry →
        ¬ Path.Related location entry) →
      (parent ++ [name] ∈ pruned.removed ↔ (number : Int) ≤ attempt.attemptNumber - keep)) := by
  intro parent pruned
  have hfixed : ∀ g, fs.resolve g directory = some directory := by
    obtain ⟨g, p, hp⟩ := hdir
    exact fun g' => hfs.fixed g g' p directory hp
  have hr := h.retaining hfixed
  let scope := pruneScope directory moduleName keep m.runner.state.retainedArtifacts attempt
  have hremoved : ∀ path ∈ pruned.removed, ∃ name, path = parent ++ [name] ∧
      scope.expires fs digits f name = some true :=
    fun path hpath => pruneArtifacts_removed hfs (hr.expires_frame hfs hfixed rfl rfl) hpath
  refine ⟨?_, ?_, ?_, ?_⟩
  · intro path hpath
    obtain ⟨name, rfl, hexpires⟩ := hremoved path hpath
    obtain ⟨-, number, -, -, location, hlocation, hfree⟩ := (PruneScope.expires_eq_some hexpires).mp rfl
    exact ⟨location, hlocation, hr.unrelated hfs hfree⟩
  · intro path hpath
    obtain ⟨name, rfl, hexpires⟩ := hremoved path hpath
    obtain ⟨hcurrent, number, hdirectory, hlimit, -⟩ := (PruneScope.expires_eq_some hexpires).mp rfl
    exact ⟨name, number, rfl, hcurrent, hdirectory, hlimit⟩
  · intro hpath
    obtain ⟨name, hname, hexpires⟩ := hremoved _ hpath
    obtain ⟨hcurrent, -⟩ := (PruneScope.expires_eq_some hexpires).mp rfl
    exact hcurrent (List.singleton_inj.mp (List.append_cancel_left hname)).symm
  · intro hdone names hlist name hname number hcurrent hdirectory hfree
    constructor
    · intro hpath
      obtain ⟨other, hother, hexpires⟩ := hremoved _ hpath
      obtain rfl := List.singleton_inj.mp (List.append_cancel_left hother)
      obtain ⟨-, number', ⟨-, -, -, hnumber'⟩, hlimit, -⟩ := (PruneScope.expires_eq_some hexpires).mp rfl
      obtain rfl := Option.some.inj (hnumber'.symm.trans hdirectory.2.2.2)
      exact hlimit
    · intro hlimit
      obtain ⟨b, hb, hin⟩ := pruneArtifacts_complete hfs (hr.expires_frame hfs hfixed rfl rfl) hdone hlist name hname
      obtain ⟨location, hlocation⟩ := PruneScope.expires_resolved hb hcurrent hdirectory hlimit
      apply hin
      apply (PruneScope.expires_eq_some hb).mpr
      refine ⟨hcurrent, number, hdirectory, hlimit, location, hlocation, fun path hpath kept hkept hrel => ?_⟩
      obtain ⟨entry, hentry, hjoin, hresolved⟩ := hr.join_retained hfs hpath
      have hsame : kept = entry := Option.some.inj (hkept.symm.trans ((congrArg _ hjoin).trans (hresolved f)))
      exact hfree location hlocation entry hentry (hsame ▸ hrel)

/-- One component of a path without links. -/
def walkComponent (p : Path) (c : List Char) : Path :=
  if Path.isName c = false then p else if c = "..".toList then p.dropLast else p ++ [c]

def plainPath (p : Path) : Path := p.foldl walkComponent []

/-- Files and folders without links; a folder has the flag. -/
def plainFiles : FileSystem (List (Path × Bool)) where
  resolve _ p := some (plainPath p)
  isPresent f p := p ∈ f.map Prod.fst
  isDir f p := (p, true) ∈ f
  iterdir f p := some (f.filterMap fun e => if e.1.dropLast = p then e.1.getLast? else none).dedup
  rmtree f p := (f.filter fun e => !p.isPrefixOf e.1, true)

def Plain (p : Path) : Prop := ∀ c ∈ p, Path.isName c = true ∧ c ≠ "..".toList

theorem walkComponent_plain {p : Path} (h : Plain p) (c : List Char) : Plain (walkComponent p c) := by
  unfold walkComponent
  split
  · exact h
  rename_i hname
  split
  · exact fun d hd => h d (List.mem_of_mem_dropLast hd)
  · rename_i hup
    intro d hd
    rcases List.mem_append.mp hd with hd | hd
    · exact h d hd
    · obtain rfl := List.mem_singleton.mp hd
      exact ⟨Bool.not_eq_false _ ▸ hname, hup⟩

theorem foldl_walk_plain (q : Path) {p : Path} (h : Plain p) : Plain (q.foldl walkComponent p) := by
  induction q generalizing p with
  | nil => exact h
  | cons c q ih => exact ih (walkComponent_plain h c)

theorem foldl_walk_eq {q : Path} (h : Plain q) (p : Path) : q.foldl walkComponent p = p ++ q := by
  induction q generalizing p with
  | nil => exact (List.append_nil p).symm
  | cons c q ih =>
    obtain ⟨hname, hup⟩ := h c (List.mem_cons_self ..)
    have hc : walkComponent p c = p ++ [c] := by
      rw [walkComponent, if_neg (by simp [hname]), if_neg hup]
    rw [List.foldl_cons, hc, ih fun d hd => h d (List.mem_cons_of_mem _ hd), List.append_assoc]
    rfl

theorem plainFiles_settled : plainFiles.Settled := by
  have hplain : ∀ p, Plain (plainPath p) := by
    intro p
    apply foldl_walk_plain
    intro c hc
    cases hc
  refine ⟨?_, ?_, ?_, ?_⟩
  · rintro f p q h c hc
    obtain rfl := Option.some.inj h
    exact (hplain p c hc).1
  · rintro f g p q h
    obtain rfl := Option.some.inj h
    exact congrArg some (foldl_walk_eq (hplain p) [])
  · rintro f p names h
    obtain rfl := Option.some.inj h
    exact List.nodup_dedup _
  · intro f p q hapart
    have hkept : p.isPrefixOf q = false := Bool.eq_false_iff.mpr fun h => hapart (List.isPrefixOf_iff_prefix.mp h)
    refine ⟨?_, rfl⟩
    simp [plainFiles, hkept]

/-- Whether the artifacts of an outcome were already those of its data, a string or null. -/
def looksUpScalar (fs : FileSystem F) (directory : Path) (f : F) (m : Machine) (action : Action) : Bool :=
  match action, m.point with
  | .consume, .finished o =>
    match acceptedData m.runner.state o with
    | none => true
    | some (.str text) => (artifactPath fs f directory text).toList == o.artifacts
    | some .null => o.artifacts.isEmpty
    | _ => false
  | _, _ => true

theorem lookUp_scalar {f : F} {m : Machine} {action : Action} (hdir : fs.resolve f directory = some directory)
    (h : looksUpScalar fs directory f m action = true) : lookUp fs directory f m action = some m := by
  obtain ⟨runner, point, journal, snapshotting⟩ := m
  unfold looksUpScalar at h
  split at h
  · rename_i o hpoint
    obtain rfl : point = .finished o := hpoint
    simp only [lookUp]
    split at h
    · rename_i hdata
      rw [hdata]
    · rename_i text hdata
      have hfound : artifactsIn fs f directory (.str text) = some o.artifacts := by
        rw [artifactsIn, hdir, Option.map_some, Expansion.explore_single, ← beq_iff_eq.mp h]
        cases hpath : artifactPath fs f directory text <;> simp [Json.strings, Json.ownString, Json.stacked, hpath]
      simp only [hdata, hfound, Option.map_some]
    · rename_i hdata
      have hfound : artifactsIn fs f directory .null = some o.artifacts := by
        rw [artifactsIn, hdir, Option.map_some, Expansion.explore_single, List.isEmpty_iff.mp h]
        rfl
      simp only [hdata, hfound, Option.map_some]
    · cases h
  · unfold lookUp
    split
    · split
      · rename_i hother _ o hpoint
        exact (hother o rfl hpoint).elim
      · rfl
    · rfl

def scalarRun (fs : FileSystem F) (directory : Path) (f : F) (m : Machine) (actions : List Action) : Option Machine :=
  actions.foldlM (fun m action => if looksUpScalar fs directory f m action then m.transition action else none) m

theorem ArtifactRun.scalarRun {f : F} {m m' : Machine} {named : Path → Prop} {actions : List Action}
    (hdir : fs.resolve f directory = some directory) (h : ArtifactRun fs directory m named)
    (hrun : Stages.scalarRun fs directory f m actions = some m') :
    ∃ named', ArtifactRun fs directory m' named' ∧ ∀ entry, named entry → named' entry := by
  induction actions generalizing m named with
  | nil =>
    obtain rfl := Option.some.inj hrun
    exact ⟨named, h, fun _ hn => hn⟩
  | cons action rest ih =>
    obtain ⟨next, hnext, hrest⟩ := Option.bind_eq_some_iff.mp hrun
    obtain ⟨hscalar, hnext⟩ := Option.ite_none_right_eq_some.mp hnext
    have hstep : artifactStep fs directory f m action = some next := by
      rw [artifactStep, lookUp_scalar hdir hscalar, Option.bind_some, hnext]
    obtain ⟨named', hrun', hgrows⟩ := ih (h.step action f hstep) hrest
    exact ⟨named', hrun', fun entry hn => hgrows entry (.inl hn)⟩

/-- One conditional stage that always goes back to itself. -/
def looping : ExperimentTemplate where
  cycles := 2
  stages := [⟨"check", none, ⟨0, .pause⟩, some true, false, .null⟩]
  services := []
  snapshots := .off
  cycles_pos := Nat.two_pos
  stages_ne := by simp
  distinct := by decide

def loopingVisit (n : String) (data : Json) (artifacts : List String) : List Action :=
  [.launch, .beginAttempt ⟨"attempt" ++ n, "execution" ++ n, "request" ++ n⟩,
    .acceptReport ⟨⟨true, .null, .ok ⟨some (.move "check"), some data⟩, none⟩, .succeeded, by simp⟩ false,
    .conclude artifacts, .consume, .decide "", .settle]

def loopingReport : String := "shared_artifacts/epoch_1/probe/check/attempt_1/report.txt"

def loopingDirectory : Path := ["experiments".toList, "demo".toList]

/-- Three attempts in the first cycle; the first has left a report. -/
def loopingFiles : List (Path × Bool) :=
  let folder := loopingDirectory ++ Path.parse "shared_artifacts/epoch_1/probe/check".toList
  [(folder ++ ["attempt_1".toList], true), (folder ++ ["attempt_1".toList, "report.txt".toList], false),
    (folder ++ ["attempt_2".toList], true), (folder ++ ["attempt_3".toList], true)]

def asciiDigits : Digits where
  isDigit := Char.isDigit
  decimal c := if c.isDigit then some (c.toNat - 48) else none

def loopingActions : List Action :=
  loopingVisit "1" (.str loopingReport) [loopingReport] ++ loopingVisit "2" .null [] ++
    [.launch, .beginAttempt ⟨"attempt3", "execution3", "request3"⟩]

def loopingRun : Option Machine :=
  scalarRun plainFiles loopingDirectory loopingFiles (Machine.fresh "demo" "run" "revision" looping .empty .running)
    loopingActions

/-- What the third visit prunes, with one attempt kept: the first attempt has a named report. -/
def loopingPruned (m : Machine) (attempt : StageAttempt) : Pruned (List (Path × Bool)) :=
  pruneArtifacts plainFiles asciiDigits loopingFiles
    (pruneScope loopingDirectory "probe" 1 m.runner.state.retainedArtifacts attempt)

theorem retained_artifacts_never_pruned_looping : ∃ m named attempt, ArtifactRun plainFiles loopingDirectory m named ∧
    m.runner.state.activeAttempt = some attempt ∧ (∃ entry, named entry) ∧
    (loopingPruned m attempt).removed = [attemptsFolder loopingDirectory "probe" attempt ++ ["attempt_2".toList]] ∧
    ∀ path ∈ (loopingPruned m attempt).removed, ∃ location, plainFiles.resolve loopingFiles path = some location ∧
      ∀ entry, named entry → ¬ Path.Related location entry := by
  have hfacts : loopingRun.map (fun m => (m.runner.state.retainedArtifacts,
      m.runner.state.activeAttempt.map fun attempt => decide ((loopingPruned m attempt).removed =
        [attemptsFolder loopingDirectory "probe" attempt ++ ["attempt_2".toList]]))) =
      some ([loopingReport], some true) := by decide +kernel
  obtain ⟨m, hrun, hm⟩ := Option.map_eq_some_iff.mp hfacts
  obtain ⟨hretained, hpruned⟩ := Prod.mk.inj hm
  obtain ⟨attempt, hattempt, hpruned⟩ := Option.map_eq_some_iff.mp hpruned
  have hplain : plainPath loopingDirectory = loopingDirectory := by decide
  have hdir : ∀ f, plainFiles.resolve f loopingDirectory = some loopingDirectory := fun _ => congrArg some hplain
  obtain ⟨named, h, -⟩ := (ArtifactRun.fresh _ _ _ _ _ _).scalarRun (hdir loopingFiles) hrun
  have hnamed : loopingReport ∈ m.runner.state.retainedArtifacts := hretained ▸ List.mem_singleton.mpr rfl
  obtain ⟨entry, hentry, -⟩ := ((h.retaining hdir).retained loopingReport).mp hnamed
  exact ⟨m, named, attempt, h, hattempt, ⟨entry, hentry⟩, of_decide_eq_true hpruned,
    (retained_artifacts_never_pruned plainFiles_settled ⟨loopingFiles, loopingDirectory, hdir _⟩ h attempt asciiDigits
      "probe" 1 loopingFiles).1⟩

end ModularPipelines.Stages
