import ModularPipelines.Library.Occurrences
import ModularPipelines.Library.PosixPath
import ModularPipelines.Runner.State

namespace ModularPipelines.Stages
open Library Runner

/-- The operations on files that the runner uses. One that raises gives nothing, or is not complete. -/
structure FileSystem (F : Type) where
  resolve : F → Path → Option Path
  isPresent : F → Path → Bool
  isDir : F → Path → Bool
  iterdir : F → Path → Option (List (List Char))
  rmtree : F → Path → F × Bool

/-- A resolved path has plain names and is not redirected later, as no link is made in an
experiment. A folder lists each name once, and its removal changes nothing outside of it. -/
structure FileSystem.Settled {F : Type} (fs : FileSystem F) : Prop where
  names : ∀ f p q, fs.resolve f p = some q → ∀ c ∈ q, Path.isName c = true
  fixed : ∀ f g p q, fs.resolve f p = some q → fs.resolve g q = some q
  listed : ∀ f p names, fs.iterdir f p = some names → names.Nodup
  frame : ∀ f p q, ¬ p <+: q →
    fs.isDir (fs.rmtree f p).1 q = fs.isDir f q ∧ fs.resolve (fs.rmtree f p).1 q = fs.resolve f q

/-- What `str.isdigit` and `int` know of characters: some digits have no decimal value. -/
structure Digits where
  isDigit : Char → Bool
  decimal : Char → Option Nat

def Digits.isdigit (digits : Digits) (text : List Char) : Bool := !text.isEmpty && text.all digits.isDigit

def Digits.int (digits : Digits) (text : List Char) : Option Nat :=
  text.foldlM (fun n c => (digits.decimal c).map (10 * n + ·)) 0

def sharedArtifacts : List Char := "shared_artifacts".toList

def attemptPrefix : List Char := "attempt_".toList

variable {F : Type} (fs : FileSystem F)

/-- The entry of the shared artifacts that a string names, relative to the experiment. -/
def artifactPath (f : F) (root : Path) (text : String) : Option String :=
  if Path.anchored text.toList then none
  else
    match fs.resolve f (root ++ Path.parse text.toList) with
    | none => none
    | some resolved =>
      if (root ++ [sharedArtifacts]) <+: resolved ∧ fs.isPresent f resolved then
        some (String.ofList (Path.asPosix (resolved.drop root.length)))
      else none

/-- What `_retain_input_artifacts` adds for the data of a result. -/
def artifactsIn (f : F) (directory : Path) (data : Json) : Option (List String) :=
  (fs.resolve f directory).map fun root => (Json.strings.explore [data]).filterMap (artifactPath fs f root)

/-- Whether a retained path is a folder, lies in it or contains it. -/
def protects (f : F) (directory resolved : Path) : List String → Option Bool
  | [] => some false
  | path :: rest => do
    let retained ← fs.resolve f (Path.join directory path.toList)
    if Path.Related resolved retained then some true else protects f directory resolved rest

/-- What `_prune_artifacts` looks at for each entry of the folder of all attempts. -/
structure PruneScope where
  directory : Path
  parent : Path
  current : List Char
  limit : Int
  retained : List String

/-- Whether an entry is to be removed. -/
def PruneScope.expires (p : PruneScope) (digits : Digits) (f : F) (name : List Char) : Option Bool :=
  let path := p.parent ++ [name]
  if name = p.current ∨ fs.isDir f path = false ∨ ¬ attemptPrefix <+: name then some false
  else
    let suffix := name.drop attemptPrefix.length
    if digits.isdigit suffix then do
      let number ← digits.int suffix
      if (number : Int) ≤ p.limit then do
        let resolved ← fs.resolve f path
        if ← protects fs f p.directory resolved p.retained then some false
        else do
          let root ← fs.resolve f p.directory
          -- an attempt directory that escapes the experiment is an error
          if root <+: resolved then some true else none
      else some false
    else some false

/-- `removed` has every directory whose removal was begun. -/
structure Pruned (F : Type) where
  files : F
  removed : List Path
  completed : Bool

def pruneEntries (parent : Path) (expires : F → List Char → Option Bool) : List (List Char) → F → Pruned F
  | [], f => ⟨f, [], true⟩
  | name :: rest, f =>
    match expires f name with
    | none => ⟨f, [], false⟩
    | some false => pruneEntries parent expires rest f
    | some true =>
      let path := parent ++ [name]
      match fs.rmtree f path with
      | (g, false) => ⟨g, [path], false⟩
      | (g, true) =>
        let others := pruneEntries parent expires rest g
        { others with removed := path :: others.removed }

/-- The folder of the attempts of a stage in a cycle. -/
def attemptsFolder (directory : Path) (moduleName : String) (attempt : StageAttempt) : Path :=
  directory ++ [sharedArtifacts, s!"epoch_{attempt.cycleNumber}".toList, moduleName.toList, attempt.stageId.toList]

def attemptName (attempt : StageAttempt) : List Char := attemptPrefix ++ (toString attempt.attemptNumber).toList

def pruneScope (directory : Path) (moduleName : String) (keep : Nat) (retained : List String)
    (attempt : StageAttempt) : PruneScope where
  directory := directory
  parent := attemptsFolder directory moduleName attempt
  current := attemptName attempt
  limit := attempt.attemptNumber - keep
  retained := retained

/-- `_prune_artifacts` -/
def pruneArtifacts (digits : Digits) (f : F) (p : PruneScope) : Pruned F :=
  match fs.iterdir f p.parent with
  | none => ⟨f, [], false⟩
  | some names => pruneEntries fs p.parent (p.expires fs digits) names f

/-- The entry under the shared artifacts that a relative path string names at some time. -/
def NamesEntry (f : F) (directory : Path) (text : String) (entry : Path) : Prop :=
  Path.anchored text.toList = false ∧ fs.resolve f (directory ++ Path.parse text.toList) = some entry ∧
    (directory ++ [sharedArtifacts]) <+: entry ∧ fs.isPresent f entry = true

/-- A directory with the number of an attempt. -/
def AttemptDirectory (digits : Digits) (f : F) (name : List Char) (path : Path) (number : Nat) : Prop :=
  fs.isDir f path = true ∧ attemptPrefix <+: name ∧ digits.isdigit (name.drop attemptPrefix.length) = true ∧
    digits.int (name.drop attemptPrefix.length) = some number

variable {fs}

theorem artifactPath_eq_some {f : F} {directory : Path} {text found : String} :
    artifactPath fs f directory text = some found ↔ ∃ entry, NamesEntry fs f directory text entry ∧
      found = String.ofList (Path.asPosix (entry.drop directory.length)) := by
  unfold artifactPath NamesEntry
  constructor
  · intro h
    obtain ⟨hanchor, h⟩ := Option.ite_none_left_eq_some.mp h
    split at h
    · cases h
    · rename_i resolved hresolved
      obtain ⟨⟨hinside, hexists⟩, h⟩ := Option.ite_none_right_eq_some.mp h
      exact ⟨resolved, ⟨Bool.eq_false_iff.mpr hanchor, hresolved, hinside, hexists⟩, (Option.some.inj h).symm⟩
  · rintro ⟨entry, ⟨hanchor, hresolved, hinside, hexists⟩, rfl⟩
    simp only [hanchor, hresolved]
    rw [if_neg Bool.false_ne_true, if_pos ⟨hinside, hexists⟩]

/-- The walk over the data finds exactly the entries that its strings name. -/
theorem mem_artifactsIn {f : F} {directory : Path} {data : Json} {found : List String}
    (hdir : fs.resolve f directory = some directory) (h : artifactsIn fs f directory data = some found)
    (path : String) :
    path ∈ found ↔ ∃ text entry, Json.Occurs text data ∧ NamesEntry fs f directory text entry ∧
      path = String.ofList (Path.asPosix (entry.drop directory.length)) := by
  rw [artifactsIn, hdir, Option.map_some] at h
  obtain rfl := Option.some.inj h
  rw [List.mem_filterMap]
  constructor
  · rintro ⟨text, htext, hpath⟩
    obtain ⟨entry, hentry, rfl⟩ := artifactPath_eq_some.mp hpath
    exact ⟨text, entry, (Json.mem_strings data).mp htext, hentry, rfl⟩
  · rintro ⟨text, entry, htext, hentry, rfl⟩
    exact ⟨text, (Json.mem_strings data).mpr htext, artifactPath_eq_some.mpr ⟨entry, hentry, rfl⟩⟩

theorem protects_eq_some {f : F} {directory resolved : Path} {retained : List String} {b : Bool}
    (h : protects fs f directory resolved retained = some b) :
    b = true ↔ ∃ path ∈ retained, ∃ kept, fs.resolve f (Path.join directory path.toList) = some kept ∧
      Path.Related resolved kept := by
  induction retained with
  | nil =>
    obtain rfl := Option.some.inj h
    simp
  | cons path rest ih =>
    obtain ⟨kept, hkept, h⟩ := Option.bind_eq_some_iff.mp h
    simp only [List.mem_cons, exists_eq_or_imp, hkept, Option.some.injEq, exists_eq_left']
    split at h
    · rename_i hrel
      obtain rfl := Option.some.inj h
      simp [hrel]
    · rename_i hrel
      rw [ih h]
      simp [hrel]

/-- An entry that is looked at without an error is removed exactly when it is another attempt with
a number up to the limit, and no retained path is related to it. -/
theorem PruneScope.expires_eq_some {p : PruneScope} {digits : Digits} {f : F} {name : List Char} {b : Bool}
    (h : p.expires fs digits f name = some b) :
    b = true ↔ name ≠ p.current ∧ ∃ number, AttemptDirectory fs digits f name (p.parent ++ [name]) number ∧
      (number : Int) ≤ p.limit ∧ ∃ location, fs.resolve f (p.parent ++ [name]) = some location ∧
        ∀ path ∈ p.retained, ∀ kept, fs.resolve f (Path.join p.directory path.toList) = some kept →
          ¬ Path.Related location kept := by
  unfold PruneScope.expires at h
  dsimp only at h
  split at h
  · rename_i hskip
    obtain rfl := Option.some.inj h
    simp only [Bool.false_eq_true, false_iff]
    rintro ⟨hcurrent, number, ⟨hdir, hname, -, -⟩, -⟩
    rcases hskip with heq | hno | hno
    · exact hcurrent heq
    · exact Bool.false_ne_true (hno.symm.trans hdir)
    · exact hno hname
  rename_i hskip
  obtain ⟨hcurrent, hdir, hname⟩ := by simpa only [not_or, not_not, Bool.not_eq_false] using hskip
  split at h
  · rename_i hdigits
    obtain ⟨number, hnumber, h⟩ := Option.bind_eq_some_iff.mp h
    split at h
    · rename_i hlimit
      obtain ⟨location, hlocation, h⟩ := Option.bind_eq_some_iff.mp h
      obtain ⟨kept, hkept, h⟩ := Option.bind_eq_some_iff.mp h
      have hspec := protects_eq_some hkept
      cases kept with
      | true =>
        obtain rfl := Option.some.inj h
        obtain ⟨path, hpath, retained, hretained, hrel⟩ := hspec.mp rfl
        simp only [Bool.false_eq_true, false_iff]
        rintro ⟨-, other, -, -, place, hplace, hfree⟩
        obtain rfl := Option.some.inj (hplace.symm.trans hlocation)
        exact hfree path hpath retained hretained hrel
      | false =>
        obtain ⟨root, -, h⟩ := Option.bind_eq_some_iff.mp h
        obtain ⟨-, h⟩ := Option.ite_none_right_eq_some.mp h
        obtain rfl := Option.some.inj h
        refine iff_of_true rfl ⟨hcurrent, number, ⟨hdir, hname, hdigits, hnumber⟩, hlimit, location, hlocation, ?_⟩
        intro path hpath retained hretained hrel
        exact Bool.false_ne_true (hspec.mpr ⟨path, hpath, retained, hretained, hrel⟩)
    · rename_i hlimit
      obtain rfl := Option.some.inj h
      simp only [Bool.false_eq_true, false_iff]
      rintro ⟨-, other, ⟨-, -, -, hother⟩, hle, -⟩
      obtain rfl := Option.some.inj (hother.symm.trans hnumber)
      exact hlimit hle
  · rename_i hdigits
    obtain rfl := Option.some.inj h
    simp only [Bool.false_eq_true, false_iff]
    rintro ⟨-, number, ⟨-, -, hyes, -⟩, -⟩
    exact hdigits hyes

theorem PruneScope.expires_resolved {p : PruneScope} {digits : Digits} {f : F} {name : List Char} {b : Bool}
    {number : Nat} (h : p.expires fs digits f name = some b) (hcurrent : name ≠ p.current)
    (hattempt : AttemptDirectory fs digits f name (p.parent ++ [name]) number) (hlimit : (number : Int) ≤ p.limit) :
    ∃ location, fs.resolve f (p.parent ++ [name]) = some location := by
  obtain ⟨hdir, hname, hdigits, hnumber⟩ := hattempt
  have hskip : ¬ (name = p.current ∨ fs.isDir f (p.parent ++ [name]) = false ∨ ¬ attemptPrefix <+: name) := by
    simp [hcurrent, hdir, hname]
  rw [PruneScope.expires, if_neg hskip, if_pos hdigits, hnumber] at h
  simp only [Option.bind_eq_bind, Option.bind_some, if_pos hlimit] at h
  obtain ⟨location, hlocation, -⟩ := Option.bind_eq_some_iff.mp h
  exact ⟨location, hlocation⟩

theorem protects_frame {f g : F} {directory resolved : Path} {retained : List String}
    (h : ∀ path ∈ retained,
      fs.resolve g (Path.join directory path.toList) = fs.resolve f (Path.join directory path.toList)) :
    protects fs g directory resolved retained = protects fs f directory resolved retained := by
  induction retained with
  | nil => rfl
  | cons path rest ih =>
    rw [protects, protects, h path (List.mem_cons_self ..), ih fun r hr => h r (List.mem_cons_of_mem _ hr)]

/-- An entry is seen the same after changes elsewhere. -/
theorem PruneScope.expires_frame {p : PruneScope} {digits : Digits} {f g : F} {name : List Char}
    (hdir : fs.isDir g (p.parent ++ [name]) = fs.isDir f (p.parent ++ [name]))
    (hpath : fs.resolve g (p.parent ++ [name]) = fs.resolve f (p.parent ++ [name]))
    (hroot : fs.resolve g p.directory = fs.resolve f p.directory)
    (hretained : ∀ path ∈ p.retained,
      fs.resolve g (Path.join p.directory path.toList) = fs.resolve f (Path.join p.directory path.toList)) :
    p.expires fs digits g name = p.expires fs digits f name := by
  unfold PruneScope.expires
  simp only [hdir, hpath, hroot, protects_frame hretained]

/-- Each removed directory was to be removed, and after a complete pass none is left. -/
theorem pruneEntries_spec {parent : Path} {expires : F → List Char → Option Bool} {names : List (List Char)}
    (hframe : ∀ f n m, n ≠ m → expires (fs.rmtree f (parent ++ [n])).1 m = expires f m) (hnames : names.Nodup) (f : F) :
    (∀ path ∈ (pruneEntries fs parent expires names f).removed,
      ∃ name ∈ names, path = parent ++ [name] ∧ expires f name = some true) ∧
    ((pruneEntries fs parent expires names f).completed = true → ∀ name ∈ names, ∃ b, expires f name = some b ∧
      (b = true → parent ++ [name] ∈ (pruneEntries fs parent expires names f).removed)) := by
  induction names generalizing f with
  | nil =>
    refine ⟨fun path hpath => ?_, fun _ name hname => ?_⟩
    · cases hpath
    · cases hname
  | cons name rest ih =>
    obtain ⟨hnew, hrest⟩ := List.nodup_cons.mp hnames
    cases hexpires : expires f name with
    | none =>
      simp only [pruneEntries, hexpires]
      refine ⟨fun path hpath => ?_, fun hfalse => ?_⟩
      · cases hpath
      · cases hfalse
    | some b =>
      cases b with
      | false =>
        simp only [pruneEntries, hexpires]
        obtain ⟨hremoved, hall⟩ := ih hrest f
        constructor
        · intro path hpath
          obtain ⟨other, hother, hp⟩ := hremoved path hpath
          exact ⟨other, List.mem_cons_of_mem _ hother, hp⟩
        · intro hdone other hother
          rcases List.mem_cons.mp hother with rfl | hother
          · exact ⟨false, hexpires, fun hf => (Bool.false_ne_true hf).elim⟩
          · exact hall hdone other hother
      | true =>
        have hself : ∀ path ∈ [parent ++ [name]], ∃ other ∈ name :: rest, path = parent ++ [other] ∧
            expires f other = some true := by
          intro path hpath
          exact ⟨name, List.mem_cons_self .., List.mem_singleton.mp hpath, hexpires⟩
        have hother : ∀ other ∈ rest, expires (fs.rmtree f (parent ++ [name])).1 other = expires f other :=
          fun other h => hframe f name other fun e => hnew (e ▸ h)
        obtain ⟨hremoved, hall⟩ := ih hrest (fs.rmtree f (parent ++ [name])).1
        simp only [pruneEntries, hexpires]
        rcases hrm : fs.rmtree f (parent ++ [name]) with ⟨g, ok⟩
        rw [hrm] at hother hremoved hall
        cases ok with
        | false => exact ⟨hself, fun hfalse => (Bool.false_ne_true hfalse).elim⟩
        | true =>
          constructor
          · intro path hpath
            rcases List.mem_cons.mp hpath with rfl | hpath
            · exact hself _ (List.mem_singleton.mpr rfl)
            · obtain ⟨other, hmem, hp, he⟩ := hremoved path hpath
              exact ⟨other, List.mem_cons_of_mem _ hmem, hp, (hother other hmem).symm.trans he⟩
          · intro hdone other hmem
            rcases List.mem_cons.mp hmem with rfl | hmem
            · exact ⟨true, hexpires, fun _ => List.mem_cons_self ..⟩
            · obtain ⟨b, hb, hin⟩ := hall hdone other hmem
              exact ⟨b, (hother other hmem).symm.trans hb, fun h => List.mem_cons_of_mem _ (hin h)⟩

theorem pruneArtifacts_removed {p : PruneScope} {digits : Digits} {f : F} {path : Path} (hfs : fs.Settled)
    (hframe : ∀ f n name, n ≠ name →
      p.expires fs digits (fs.rmtree f (p.parent ++ [n])).1 name = p.expires fs digits f name)
    (h : path ∈ (pruneArtifacts fs digits f p).removed) :
    ∃ name, path = p.parent ++ [name] ∧ p.expires fs digits f name = some true := by
  unfold pruneArtifacts at h
  split at h
  · cases h
  · rename_i names hlist
    obtain ⟨name, -, hp⟩ := (pruneEntries_spec hframe (hfs.listed f _ names hlist) f).1 path h
    exact ⟨name, hp⟩

theorem pruneArtifacts_complete {p : PruneScope} {digits : Digits} {f : F} {names : List (List Char)} (hfs : fs.Settled)
    (hframe : ∀ f n name, n ≠ name →
      p.expires fs digits (fs.rmtree f (p.parent ++ [n])).1 name = p.expires fs digits f name)
    (h : (pruneArtifacts fs digits f p).completed = true) (hlist : fs.iterdir f p.parent = some names) :
    ∀ name ∈ names, ∃ b, p.expires fs digits f name = some b ∧
      (b = true → p.parent ++ [name] ∈ (pruneArtifacts fs digits f p).removed) := by
  unfold pruneArtifacts at h ⊢
  simp only [hlist] at h ⊢
  exact (pruneEntries_spec hframe (hfs.listed f _ names hlist) f).2 h

end ModularPipelines.Stages
