import Mathlib.Logic.Relation
import ModularPipelines.Library.Framing

namespace ModularPipelines.Modules
open Library

/-- `hashlib.sha256`: any function to 32 bytes. -/
structure Sha256 where
  digest : List UInt8 → List UInt8
  size : ∀ bytes, (digest bytes).length = 32

structure ModuleHashingSettings where
  smallFileThreshold : Nat
  chunkSize : Nat
  maxWorkers : Nat
  chunkPositive : 0 < chunkSize
  workersPositive : 0 < maxWorkers

structure SourceFile where
  path : List String
  content : List UInt8
  deriving DecidableEq

/-- `Path.as_posix` of a relative path. -/
def posix (path : List String) : String := "/".intercalate path

/-- The loop over the blocks of a large file; nothing when the file ends early. -/
def hashBlocks (chunkSize : Nat) (stream : List UInt8) (remaining : Nat) (hashed : List UInt8) :
    Option (List UInt8 × List UInt8) :=
  if _more : remaining = 0 then some (hashed, stream)
  else
    let block := stream.take (min chunkSize remaining)
    if _read : block = [] then none
    else hashBlocks chunkSize (stream.drop block.length) (remaining - block.length) (hashed ++ block)
termination_by remaining
decreasing_by
  have hpos : 0 < (stream.take (min chunkSize remaining)).length := List.length_pos_iff.mpr _read
  omega

def hashFile (sha : Sha256) (settings : ModuleHashingSettings) (content : List UInt8) : Option (List UInt8) :=
  let size := content.length
  if size ≤ settings.smallFileThreshold then
    let read := content.take (size + 1)
    if read.length ≠ size then none else some (sha.digest read)
  else
    match hashBlocks settings.chunkSize content size [] with
    | none => none
    | some (hashed, rest) => if rest.take 1 ≠ [] then none else some (sha.digest hashed)

/-- The name of a file, its length before it in eight bytes, then the digest of the file. -/
def addFileDigest (aggregate : List UInt8) (relative : String) (digest : List UInt8) : Option (List UInt8) :=
  let encodedPath := relative.toUTF8.data.toList
  if encodedPath.length < 256 ^ 8 then some (aggregate ++ frame 8 (encodedPath, digest)) else none

/-- One file after the other, as a single worker reads them. -/
def hashSequential (sha : Sha256) (settings : ModuleHashingSettings) (aggregate : List UInt8) :
    List SourceFile → Option (List UInt8)
  | [] => some aggregate
  | file :: files => do
    let digest ← hashFile sha settings file.content
    let aggregate ← addFileDigest aggregate (posix file.path) digest
    hashSequential sha settings aggregate files

/-- The parallel readers: the queued files with the digests that are ready, and those not yet queued. -/
structure HashRun where
  aggregate : List UInt8
  pending : List (SourceFile × Option (List UInt8))
  waiting : List SourceFile

def HashRun.start (settings : ModuleHashingSettings) (files : List SourceFile) : HashRun :=
  ⟨[], (files.take (settings.maxWorkers * 2)).map (fun f => (f, none)), files.drop (settings.maxWorkers * 2)⟩

inductive HashStep (sha : Sha256) (settings : ModuleHashingSettings) : HashRun → HashRun → Prop where
  /-- Any worker finishes its file. -/
  | finish (aggregate) (front back) (file : SourceFile) (digest) (waiting)
      (done : hashFile sha settings file.content = some digest) :
      HashStep sha settings ⟨aggregate, front ++ (file, none) :: back, waiting⟩
        ⟨aggregate, front ++ (file, some digest) :: back, waiting⟩
  /-- The oldest file is ready: it is added, and the next file is queued. -/
  | collect (aggregate next) (file : SourceFile) (digest) (pending) (waiting)
      (added : addFileDigest aggregate (posix file.path) digest = some next) :
      HashStep sha settings ⟨aggregate, (file, some digest) :: pending, waiting⟩
        ⟨next, pending ++ (waiting.head?.map (fun f => (f, none))).toList, waiting.tail⟩

/-- What `_hash_files` may feed to the aggregate hash. -/
inductive HashedFiles (sha : Sha256) (settings : ModuleHashingSettings) (files : List SourceFile) :
    List UInt8 → Prop where
  | sequential {aggregate} (few : settings.maxWorkers = 1 ∨ files.length < 2)
      (done : hashSequential sha settings [] files = some aggregate) : HashedFiles sha settings files aggregate
  | parallel {aggregate waiting} (many : settings.maxWorkers ≠ 1 ∧ 2 ≤ files.length)
      (run : Relation.ReflTransGen (HashStep sha settings) (HashRun.start settings files) ⟨aggregate, [], waiting⟩) :
      HashedFiles sha settings files aggregate

theorem hashBlocks_all (chunkSize : Nat) (hchunk : 0 < chunkSize) (stream hashed : List UInt8) :
    hashBlocks chunkSize stream stream.length hashed = some (hashed ++ stream, []) := by
  induction hlength : stream.length using Nat.strongRecOn generalizing stream hashed with
  | ind n ih =>
    subst hlength
    rw [hashBlocks]
    cases stream with
    | nil => simp
    | cons byte stream =>
      rw [dif_neg (by simp)]
      have hblock : (byte :: stream).take (min chunkSize (byte :: stream).length) ≠ [] := by
        intro hempty
        have hlen := congrArg List.length hempty
        simp only [List.length_take, List.length_cons, List.length_nil] at hlen
        omega
      simp only [dif_neg hblock]
      generalize hcut : min chunkSize (byte :: stream).length = cut at hblock ⊢
      have hle : cut ≤ (byte :: stream).length := by omega
      have hpos : 0 < cut := by simp only [List.length_cons] at hcut; omega
      have hrest := ih ((byte :: stream).drop cut).length (by rw [List.length_drop, List.length_cons]; omega)
        ((byte :: stream).drop cut) (hashed ++ (byte :: stream).take cut) rfl
      rw [List.length_take, Nat.min_eq_left hle, ← List.length_drop, hrest, List.append_assoc,
        List.take_append_drop]

/-- Neither the threshold nor the size of the blocks changes the digest of a file. -/
theorem hashFile_digest (sha : Sha256) (settings : ModuleHashingSettings) (content : List UInt8) :
    hashFile sha settings content = some (sha.digest content) := by
  unfold hashFile
  simp only
  split
  · rw [List.take_of_length_le (Nat.le_succ _), if_neg (by simp)]
  · rw [hashBlocks_all settings.chunkSize settings.chunkPositive]
    simp

/-- What the aggregate hash reads: every path and digest as a framed record. -/
def preimage (sha : Sha256) (files : List SourceFile) : List UInt8 :=
  files.flatMap fun f => frame 8 ((posix f.path).toUTF8.data.toList, sha.digest f.content)

def Encodable (files : List SourceFile) : Prop :=
  ∀ f ∈ files, (posix f.path).toUTF8.data.toList.length < 256 ^ 8

theorem hashSequential_preimage {sha : Sha256} {settings : ModuleHashingSettings} {files : List SourceFile}
    (h : Encodable files) (aggregate : List UInt8) :
    hashSequential sha settings aggregate files = some (aggregate ++ preimage sha files) := by
  induction files generalizing aggregate with
  | nil => simp [hashSequential, preimage]
  | cons file files ih =>
    have hadded : addFileDigest aggregate (posix file.path) (sha.digest file.content) =
        some (aggregate ++ frame 8 ((posix file.path).toUTF8.data.toList, sha.digest file.content)) := by
      rw [addFileDigest, if_pos (h file List.mem_cons_self)]
    simp only [hashSequential, hashFile_digest, Option.bind_eq_bind, Option.bind_some, hadded]
    rw [ih fun f hf => h f (List.mem_cons_of_mem _ hf), preimage, preimage, List.flatMap_cons, List.append_assoc]

theorem hashSequential_append {sha : Sha256} {settings : ModuleHashingSettings} {first rest : List SourceFile}
    {aggregate : List UInt8} :
    hashSequential sha settings aggregate (first ++ rest) =
      (hashSequential sha settings aggregate first).bind fun a => hashSequential sha settings a rest := by
  induction first generalizing aggregate with
  | nil => rfl
  | cons file first ih =>
    simp only [List.cons_append, hashSequential, hashFile_digest, Option.bind_eq_bind, Option.bind_some]
    cases addFileDigest aggregate (posix file.path) (sha.digest file.content) with
    | none => rfl
    | some next => exact ih

/-- A parallel run between two of its steps. -/
structure HashRun.Sound (sha : Sha256) (settings : ModuleHashingSettings) (files : List SourceFile)
    (run : HashRun) : Prop where
  split : ∃ done, files = done ++ run.pending.map Prod.fst ++ run.waiting ∧
    hashSequential sha settings [] done = some run.aggregate
  ready : ∀ file digest, (file, some digest) ∈ run.pending → hashFile sha settings file.content = some digest
  window : run.pending.length ≤ settings.maxWorkers * 2
  full : run.waiting ≠ [] → run.pending.length = settings.maxWorkers * 2

theorem HashRun.start_sound (sha : Sha256) (settings : ModuleHashingSettings) (files : List SourceFile) :
    (HashRun.start settings files).Sound sha settings files := by
  refine ⟨⟨[], ?_, rfl⟩, ?_, ?_, ?_⟩
  · simp [HashRun.start, List.map_map, Function.comp_def]
  · intro file digest hmem
    obtain ⟨f, -, heq⟩ := List.mem_map.mp hmem
    simp at heq
  · simp only [HashRun.start, List.length_map, List.length_take]
    omega
  · intro hwaiting
    simp only [HashRun.start, ne_eq, List.drop_eq_nil_iff, Nat.not_le] at hwaiting
    simp only [HashRun.start, List.length_map, List.length_take]
    omega

theorem HashStep.sound {sha : Sha256} {settings : ModuleHashingSettings} {files : List SourceFile}
    {run next : HashRun} (hstep : HashStep sha settings run next) (h : run.Sound sha settings files) :
    next.Sound sha settings files := by
  cases hstep with
  | finish aggregate front back file digest waiting done =>
    obtain ⟨⟨prior, hsplit, hprior⟩, hready, hwindow, hfull⟩ := h
    refine ⟨⟨prior, ?_, hprior⟩, ?_, ?_, ?_⟩
    · simpa using hsplit
    · intro f d hmem
      rcases List.mem_append.mp hmem with hmem | hmem
      · exact hready f d (List.mem_append_left _ hmem)
      · rcases List.mem_cons.mp hmem with heq | hmem
        · simp only [Prod.mk.injEq, Option.some.injEq] at heq
          rw [heq.1, heq.2]
          exact done
        · exact hready f d (List.mem_append_right _ (List.mem_cons_of_mem _ hmem))
    · simpa using hwindow
    · simpa using hfull
  | collect aggregate after file digest pending waiting added =>
    obtain ⟨⟨prior, hsplit, hprior⟩, hready, hwindow, hfull⟩ := h
    have hdigest := hready file digest List.mem_cons_self
    refine ⟨⟨prior ++ [file], ?_, ?_⟩, ?_, ?_, ?_⟩
    · cases waiting <;> simpa using hsplit
    · rw [hashSequential_append, hprior]
      simp only [Option.bind_some, hashSequential, hdigest, Option.bind_eq_bind, added]
    · intro f d hmem
      rcases List.mem_append.mp hmem with hmem | hmem
      · exact hready f d (List.mem_cons_of_mem _ hmem)
      · cases waiting <;> simp at hmem
    · cases waiting with
      | nil =>
        simp only [List.length_cons] at hwindow
        simp
        omega
      | cons f rest =>
        have hlen := hfull (List.cons_ne_nil _ _)
        simp only [List.length_cons] at hlen
        simp
        omega
    · intro hrest
      cases waiting with
      | nil => exact absurd rfl hrest
      | cons f rest =>
        have hlen := hfull (List.cons_ne_nil _ _)
        simp only [List.length_cons] at hlen
        simp
        omega

theorem HashRun.Sound.reached {sha : Sha256} {settings : ModuleHashingSettings} {files : List SourceFile}
    {run next : HashRun} (h : run.Sound sha settings files)
    (hrun : Relation.ReflTransGen (HashStep sha settings) run next) : next.Sound sha settings files := by
  induction hrun with
  | refl => exact h
  | tail _ hstep ih => exact hstep.sound ih

/-- However the workers finish, the aggregate is the one of the sequential fold. -/
theorem HashedFiles.sequential_fold {sha : Sha256} {settings : ModuleHashingSettings} {files : List SourceFile}
    {aggregate : List UInt8} (h : HashedFiles sha settings files aggregate) :
    hashSequential sha settings [] files = some aggregate := by
  cases h with
  | sequential few done => exact done
  | @parallel waiting many run =>
    obtain ⟨⟨prior, hsplit, hprior⟩, -, -, hfull⟩ := (HashRun.start_sound sha settings files).reached run
    have hwaiting : waiting = [] := by
      by_contra hne
      have hlen := hfull hne
      have hpos := settings.workersPositive
      simp only [List.length_nil] at hlen
      omega
    rw [hwaiting, List.map_nil, List.append_nil, List.append_nil] at hsplit
    rw [hsplit]
    exact hprior

/-- The work that a parallel run still has before it. -/
def HashRun.remaining (run : HashRun) : Nat :=
  2 * run.waiting.length + run.pending.length + run.pending.countP (fun p => p.2.isNone)

theorem HashStep.remaining_lt {sha : Sha256} {settings : ModuleHashingSettings} {run next : HashRun}
    (h : HashStep sha settings run next) : next.remaining < run.remaining := by
  cases h with
  | finish aggregate front back file digest waiting done =>
    simp only [HashRun.remaining, List.length_append, List.length_cons, List.countP_append, List.countP_cons]
    simp
  | collect aggregate after file digest pending waiting added =>
    cases waiting with
    | nil => simp [HashRun.remaining]
    | cons f rest =>
      simp [HashRun.remaining, List.countP_append]
      omega

/-- A parallel run goes on until everything is added. -/
theorem HashRun.progress {sha : Sha256} {settings : ModuleHashingSettings} {files : List SourceFile}
    (hfiles : Encodable files) {run : HashRun} (h : run.Sound sha settings files) (hpending : run.pending ≠ []) :
    ∃ next, HashStep sha settings run next := by
  obtain ⟨aggregate, pending, waiting⟩ := run
  cases pending with
  | nil => exact absurd rfl hpending
  | cons first rest =>
    obtain ⟨file, state⟩ := first
    cases state with
    | none => exact ⟨_, .finish aggregate [] rest file _ waiting (hashFile_digest sha settings file.content)⟩
    | some digest =>
      obtain ⟨⟨prior, hsplit, -⟩, -⟩ := h
      have hmem : file ∈ files := by
        rw [hsplit]
        simp
      have hadded : addFileDigest aggregate (posix file.path) digest =
          some (aggregate ++ frame 8 ((posix file.path).toUTF8.data.toList, digest)) := by
        rw [addFileDigest, if_pos (hfiles file hmem)]
      exact ⟨_, .collect aggregate _ file digest rest waiting hadded⟩

theorem HashRun.completes {sha : Sha256} {settings : ModuleHashingSettings} {files : List SourceFile}
    (hfiles : Encodable files) {run : HashRun} (h : run.Sound sha settings files) :
    ∃ aggregate waiting, Relation.ReflTransGen (HashStep sha settings) run ⟨aggregate, [], waiting⟩ := by
  induction hsize : run.remaining using Nat.strongRecOn generalizing run with
  | ind n ih =>
    by_cases hpending : run.pending = []
    · obtain ⟨aggregate, pending, waiting⟩ := run
      subst hpending
      exact ⟨aggregate, waiting, .refl⟩
    · obtain ⟨next, hstep⟩ := HashRun.progress hfiles h hpending
      obtain ⟨aggregate, waiting, hrest⟩ := ih next.remaining (hsize ▸ hstep.remaining_lt) (hstep.sound h) rfl
      exact ⟨aggregate, waiting, .head hstep hrest⟩

theorem HashedFiles.exists {files : List SourceFile} (sha : Sha256) (settings : ModuleHashingSettings)
    (h : Encodable files) : ∃ aggregate, HashedFiles sha settings files aggregate := by
  by_cases few : settings.maxWorkers = 1 ∨ files.length < 2
  · exact ⟨_, .sequential few (hashSequential_preimage h [])⟩
  · obtain ⟨aggregate, waiting, hrun⟩ := HashRun.completes h (HashRun.start_sound sha settings files)
    rw [not_or, Nat.not_lt] at few
    exact ⟨aggregate, .parallel few hrun⟩

/-- Every parallel hashing ends with the bytes of the records in order. -/
theorem HashedFiles.iff_preimage {sha : Sha256} {settings : ModuleHashingSettings} {files : List SourceFile}
    (h : Encodable files) {aggregate : List UInt8} :
    HashedFiles sha settings files aggregate ↔ aggregate = preimage sha files := by
  have hfold : hashSequential sha settings [] files = some ([] ++ preimage sha files) :=
    hashSequential_preimage h []
  rw [List.nil_append] at hfold
  constructor
  · intro hashed
    have hsame := hashed.sequential_fold
    rw [hfold] at hsame
    exact (Option.some.inj hsame).symm
  · rintro rfl
    obtain ⟨aggregate, hashed⟩ := HashedFiles.exists sha settings h
    have hsame := hashed.sequential_fold
    rw [hfold] at hsame
    rw [Option.some.inj hsame]
    exact hashed

theorem toUTF8_injective {a b : String} (h : a.toUTF8.data.toList = b.toUTF8.data.toList) : a = b := by
  have hbytes : a.toUTF8 = b.toUTF8 := ByteArray.ext (Array.toList_inj.mp h)
  cases a
  cases b
  cases hbytes
  rfl

def namedRecord (r : String × List UInt8) : List UInt8 × List UInt8 := (r.1.toUTF8.data.toList, r.2)

/-- The aggregate hash reads different bytes for different lists of names and file digests. -/
theorem records_injective {records records' : List (String × List UInt8)}
    (h : Framed 8 32 (records.map namedRecord)) (h' : Framed 8 32 (records'.map namedRecord))
    (hsame : (records.map namedRecord).flatMap (frame 8) = (records'.map namedRecord).flatMap (frame 8)) :
    records = records' := by
  have hrecords := frames_injective (by decide) h h' hsame
  apply List.map_injective_iff.mpr _ hrecords
  intro r r' heq
  simp only [namedRecord, Prod.mk.injEq] at heq
  exact Prod.ext (toUTF8_injective heq.1) heq.2

end ModularPipelines.Modules
