import Mathlib.Logic.Function.Basic
import ModularPipelines.Library.Faulty
import ModularPipelines.Modules.Packing

namespace ModularPipelines.Modules
open Library Library.Faulty

/-- A module's registered name and version. -/
abbrev ModuleKey := String × String

/-- A stored archive: the content, under the name of the folder it was packed from. -/
structure Package (Content : Type) where
  folder : String
  content : Content

/-- What the stores need to know of module contents: the digest, the identity in the
manifest, and the error with which the checks of a download refuse an archive. -/
structure Packaging (Content Digest : Type) where
  digest : Content → Digest
  identity : Content → ModuleKey
  refusal : Package Content → Option ModuleError
  collisionFree : ∀ a b, digest a = digest b → a = b

/-- The hash store, the archive store and the installation folder. -/
structure Stores (Content Digest : Type) where
  hash : ModuleKey → Option Digest
  archive : ModuleKey → Option (Package Content)
  tree : ModuleKey → Option Content

def Stores.empty (Content Digest : Type) : Stores Content Digest := ⟨fun _ => none, fun _ => none, fun _ => none⟩

inductive RegistrationError where
  | value
  | conflict
  | notFound
  | mismatch
  | storage
  | interrupted
  deriving DecidableEq, Repr

/-- The subclasses of `StorageError`. -/
def RegistrationError.isStorage : RegistrationError → Bool
  | .conflict => true
  | .notFound => true
  | .storage => true
  | .value => false
  | .mismatch => false
  | .interrupted => false

def RegistrationError.ofModule : ModuleError → RegistrationError
  | .value _ => .value
  | .hashMismatch _ => .mismatch

inductive Point where
  | source
  | check
  | get
  | package
  | addHash
  | save
  | rollback
  | cleanup
  | staging
  | installed
  | reference
  | download
  | copy
  | publish
  | delete
  | remove
  deriving DecidableEq

abbrev StoreFaults := Point → Fault RegistrationError

def healthy : StoreFaults := fun _ => .works

variable {Content Digest : Type} [DecidableEq Digest]

abbrev Registering (Content Digest α : Type) := Faulty (Stores Content Digest) RegistrationError α

def Stores.setHash (s : Stores Content Digest) (k : ModuleKey) (d : Option Digest) : Stores Content Digest :=
  { s with hash := Function.update s.hash k d }

def Stores.setArchive (s : Stores Content Digest) (k : ModuleKey) (a : Option (Package Content)) :
    Stores Content Digest :=
  { s with archive := Function.update s.archive k a }

def Stores.setTree (s : Stores Content Digest) (k : ModuleKey) (c : Option Content) : Stores Content Digest :=
  { s with tree := Function.update s.tree k c }

/-- `_registration_exists`. -/
def registrationExists (stored : Option Digest) (digest : Digest) (archiveExists : Bool) :
    Except RegistrationError Bool :=
  if stored.isNone && !archiveExists then .ok false
  else if stored == some digest && archiveExists then .ok true
  else .error .conflict

/-- The insert of a hash; an existing row is left alone. -/
def addModuleHash (fault : Fault RegistrationError) (k : ModuleKey) (d : Digest) : Registering Content Digest Bool := fun s =>
  let added := (s.hash k).isNone
  andThen (writes fault fun s => if added then s.setHash k (some d) else s)
    (fun _ => result (.ok added)) s

/-- The upload of an archive; an archive that is already there is a conflict. -/
def saveModule (fault : Fault RegistrationError) (k : ModuleKey) (a : Package Content) :
    Registering Content Digest Unit := fun s =>
  if (s.archive k).isSome then (s, .error .conflict)
  else writes fault (fun s => s.setArchive k (some a)) s

/-- `_rollback_registration_hash`: a storage error of it is only noted on the first error. -/
def rollbackRegistrationHash (fault : Fault RegistrationError) (k : ModuleKey) (e : RegistrationError) :
    Registering Content Digest Unit := fun s =>
  match writes fault (fun s => s.setHash k none) s with
  | (s, .ok ()) => (s, .error e)
  | (s, .error e') => (s, .error (if e'.isStorage then e else e'))

/-- The upload, which takes the new hash back after a storage error only. -/
def saveOrRollback (faults : StoreFaults) (k : ModuleKey) (a : Package Content) :
    Registering Content Digest Unit := fun s =>
  match saveModule (faults .save) k a s with
  | (s, .ok ()) => (s, .ok ())
  | (s, .error e) => if e.isStorage then rollbackRegistrationHash (faults .rollback) k e s else (s, .error e)

/-- `_validate_registration_result` of an insert that found a row. -/
def recheck (p : Packaging Content Digest) (k : ModuleKey) (c : Content) : Registering Content Digest Bool := fun s =>
  match registrationExists (s.hash k) (p.digest c) (s.archive k).isSome with
  | .ok true => (s, .ok false)
  | .ok false => (s, .error .conflict)
  | .error e => (s, .error e)

/-- `register_module` and `_register_module_async` of a source folder. -/
def registerModule (p : Packaging Content Digest) (faults : StoreFaults) (k : ModuleKey) (a : Package Content) :
    Registering Content Digest Bool :=
  andThen (reads (faults .source)) fun _ => fun s =>
    if p.identity a.content ≠ k then (s, .error .value)
    else
      andThen (reads (faults .check)) (fun _ =>
      andThen (reads (faults .get)) fun _ =>
      andThen (result (registrationExists (s.hash k) (p.digest a.content) (s.archive k).isSome)) fun existing =>
        if existing then result (.ok false)
        else cleaned (faults .cleanup)
          (andThen (reads (faults .package)) fun _ =>
            andThen (addModuleHash (faults .addHash) k (p.digest a.content)) fun added =>
              if added then andThen (saveOrRollback faults k a) fun _ => result (.ok true)
              else recheck p k a.content)) s

/-- `validate_stored_module`: the package is downloaded and checked against the stored hash. -/
def validateStoredModule (p : Packaging Content Digest) (faults : StoreFaults) (k : ModuleKey) :
    Registering Content Digest Digest :=
  andThen (reads (faults .reference)) fun _ => fun s =>
    match s.hash k with
    | none => (s, .error .notFound)
    | some d =>
      andThen (reads (faults .download)) (fun _ => fun s =>
        match s.archive k with
        | none => (s, .error .notFound)
        | some a =>
          match p.refusal a with
          | some e => (s, .error (.ofModule e))
          | none =>
            if p.digest a.content ≠ d then (s, .error .mismatch)
            else if p.identity a.content ≠ k then (s, .error .value)
            else (s, .ok d)) s

/-- The part of `module add` that publishes the code: a copy, then one rename. -/
def installModule (faults : StoreFaults) (k : ModuleKey) (c : Content) :
    Registering Content Digest Unit :=
  andThen (reads (faults .copy)) fun _ => fun s =>
    if (s.tree k).isSome then (s, .error .conflict)
    else writes (faults .publish) (fun s => s.setTree k (some c)) s

structure Installation (Digest : Type) where
  reference : Digest
  registered : Bool
  installed : Bool

/-- The folder that `module add` copies a source to. -/
def staged (c : Content) : Package Content := ⟨"source", c⟩

/-- `_register_and_install_module` of a source with the given content. -/
def registerAndInstall (p : Packaging Content Digest) (faults : StoreFaults) (c : Content) :
    Registering Content Digest (Installation Digest) :=
  let k := p.identity c
  cleaned (faults .cleanup)
    (andThen (reads (faults .staging)) fun _ =>
      andThen (reads (faults .installed)) fun _ => fun s =>
        let target := s.tree k
        if target.any (fun t => p.digest t ≠ p.digest c) then (s, .error .conflict)
        else
          andThen (registerModule p faults k (staged c)) (fun registered =>
          andThen (validateStoredModule p faults k) fun reference =>
            if reference ≠ p.digest c then result (.error .mismatch)
            else if target.isSome then result (.ok ⟨reference, registered, false⟩)
            else andThen (installModule faults k c) fun _ =>
              result (.ok ⟨reference, registered, true⟩)) s)

/-- `unregister_module`: the archive first, then the hash. -/
def unregisterModule (faults : StoreFaults) (k : ModuleKey) : Registering Content Digest Bool := fun s =>
  let removed := (s.archive k).isSome
  andThen (writes (faults .delete) fun s => s.setArchive k none) (fun _ => fun s =>
    let hashRemoved := (s.hash k).isSome
    andThen (writes (faults .remove) fun s => s.setHash k none)
      (fun _ => result (.ok (removed || hashRemoved))) s) s

/-- `unregister_module_async`, which deletes an archive only after it has seen it. -/
def unregisterModuleAsync (faults : StoreFaults) (k : ModuleKey) : Registering Content Digest Bool :=
  andThen (reads (faults .get)) fun _ =>
  andThen (reads (faults .check)) fun _ => fun s =>
    if (s.archive k).isSome then unregisterModule faults k s
    else
      let hashRemoved := (s.hash k).isSome
      andThen (writes (faults .remove) fun s => s.setHash k none)
        (fun _ => result (.ok hashRemoved)) s

inductive ModuleCall (Content : Type) where
  | register (k : ModuleKey) (a : Package Content)
  | add (c : Content)
  | validate (k : ModuleKey)
  | unregister (k : ModuleKey) (inWorker : Bool)

/-- What a call returns, apart from the parts that no later call depends on. -/
inductive Answer (Digest : Type) where
  | registered (fresh : Bool)
  | added (installation : Installation Digest)
  | valid (digest : Digest)
  | unregistered (removed : Bool)

def Registering.answer {α : Type} (f : α → Answer Digest) (x : Registering Content Digest α) :
    Registering Content Digest (Answer Digest) :=
  andThen x fun a => result (.ok (f a))

def perform (p : Packaging Content Digest) (faults : StoreFaults) :
    ModuleCall Content → Registering Content Digest (Answer Digest)
  | .register k a => (registerModule p faults k a).answer .registered
  | .add c => (registerAndInstall p faults c).answer .added
  | .validate k => (validateStoredModule p faults k).answer .valid
  | .unregister k inWorker =>
    (if inWorker then unregisterModuleAsync faults k else unregisterModule faults k).answer .unregistered

def runCalls (p : Packaging Content Digest) (s : Stores Content Digest)
    (calls : List (ModuleCall Content × StoreFaults)) : Stores Content Digest :=
  calls.foldl (fun s call => (perform p call.2 call.1 s).1) s

end ModularPipelines.Modules
