import Mathlib.Data.String.Basic
import ModularPipelines.Modules.Hashing

namespace ModularPipelines.Modules
open Library

inductive ModuleError where
  | value (message : String)
  | hashMismatch (message : String)
  deriving DecidableEq, Repr

/-- What a walk finds under a name, apart from folders. -/
inductive Entry where
  | file (content : List UInt8)
  | link
  | special
  deriving DecidableEq

/-- A name that a folder may hold. -/
def isFileName (name : String) : Bool :=
  name != "" && name != "." && name != ".." && !name.toList.contains '/' && !name.toList.contains '\x00'

/-- The walk of a folder: its entries by their path in it. -/
structure Folder where
  entries : List (List String × Entry)
  named : ∀ e ∈ entries, e.1 ≠ [] ∧ ∀ name ∈ e.1, isFileName name = true
  distinct : (entries.map Prod.fst).Nodup

inductive IgnoredFolder where
  | absolute (path : List String)
  | relative (path : List String)

/-- `Path.resolve` where no link is involved. -/
def resolve (path : List String) : List String :=
  path.foldl (fun found name => if name = ".." then found.dropLast else found ++ [name]) []

def ignoredPath (location : List String) : IgnoredFolder → List String
  | .absolute path => resolve path
  | .relative path => resolve (location ++ path)

def insideIgnored (ignore : List IgnoredFolder) (location folder : List String) : Bool :=
  ignore.any fun i => (ignoredPath location i).isPrefixOf (location ++ folder)

def collected (ignore : List IgnoredFolder) (location : List String) (applyIgnores : Bool)
    (e : List String × Entry) : Option SourceFile :=
  match e.2 with
  | .file content =>
    if applyIgnores && (insideIgnored ignore location e.1.dropLast || e.1.dropLast.contains "__pycache__") then none
    else some ⟨e.1, content⟩
  | .link => none
  | .special => none

def posixOrder (a b : SourceFile) : Bool := decide (posix a.path ≤ posix b.path)

/-- `_collect_module_files` over the walk of a folder at its resolved location. -/
def collectModuleFiles (ignore : List IgnoredFolder) (location : List String) (applyIgnores : Bool)
    (entries : List (List String × Entry)) : List SourceFile :=
  (entries.filterMap (collected ignore location applyIgnores)).mergeSort posixOrder

structure TarMember (α : Type) where
  name : String
  payload : α
  deriving DecidableEq

/-- `_compress_folder`: one member for each file, under its name in the folder. -/
def compressFiles (files : List SourceFile) : List (TarMember (List UInt8)) :=
  files.map fun f => ⟨posix f.path, f.content⟩

/-- `PurePosixPath(name).parts` of a relative name. -/
def pureParts (name : String) : List String :=
  ((name.toList.splitOn '/').map String.ofList).filter fun part => part != "" && part != "."

def isAbsolute (name : String) : Bool := name.toList.head? == some '/'

def unsupportedName (name : String) : Bool :=
  name == "" || isAbsolute name || (pureParts name).contains ".." ||
    name.toList.contains '\\' || name.toList.contains ':'

def isTarXz (name : String) : Bool := ".tar.xz".toList.isSuffixOf name.toList

def hexDigit (n : Nat) : Char := ("0123456789abcdef".toList)[n]?.getD '0'

def escapeChar (quote c : Char) : List Char :=
  if c == quote || c == '\\' then ['\\', c]
  else if c == '\n' then ['\\', 'n']
  else if c == '\r' then ['\\', 'r']
  else if c == '\t' then ['\\', 't']
  else if decide (c.toNat < 32) || c.toNat == 127 then ['\\', 'x', hexDigit (c.toNat / 16), hexDigit (c.toNat % 16)]
  else [c]

/-- `repr` of a name, which prints every character beyond ASCII as it is. -/
def quoted (name : String) : String :=
  let single := Char.ofNat 39
  let double := Char.ofNat 34
  let quote := if name.toList.contains single && !name.toList.contains double then double else single
  String.ofList ([quote] ++ name.toList.flatMap (escapeChar quote) ++ [quote])

def validateMembers {α : Type} (package : Bool) (seen : List (List String)) :
    List (TarMember α) → Except ModuleError Unit
  | [] => .ok ()
  | member :: members =>
    if unsupportedName member.name then .error (.value ("Unsupported archive entry: " ++ quoted member.name))
    else if seen.contains (pureParts member.name) then
      .error (.value ("Duplicate archive path: " ++ quoted member.name))
    else if package && ((pureParts member.name).length != 1 || (pureParts member.name).getLast? != some member.name) then
      .error (.value "Package entries must be files at its root.")
    else validateMembers package (pureParts member.name :: seen) members

/-- `_validate_archive_members`; every member here is a regular file. -/
def validateArchiveMembers {α : Type} (members : List (TarMember α)) (package : Bool) : Except ModuleError Unit :=
  match validateMembers package [] members with
  | .error e => .error e
  | .ok () =>
    let names := members.map TarMember.name
    if package && (names.length != 2 || !names.contains "hash.txt" || names.countP isTarXz != 1) then
      .error (.value "Package must contain only hash.txt and one tar.xz archive.")
    else .ok ()

/-- The files of a package: the archive of the code, and the text of its hash. -/
inductive PackageFile where
  | archive (members : List (TarMember (List UInt8)))
  | text (content : String)
  deriving DecidableEq

def hexDigest (bytes : List UInt8) : String :=
  String.ofList (bytes.flatMap fun b => [hexDigit (b.toNat / 16), hexDigit (b.toNat % 16)])

/-- The digest of a list of files, as the sequential fold gives it. -/
def contentDigest (sha : Sha256) (files : List SourceFile) : String := hexDigest (sha.digest (preimage sha files))

def isSpace (c : Char) : Bool := [' ', '\t', '\n', '\r', '\x0b', '\x0c'].contains c

def strip (text : String) : String :=
  String.ofList ((text.toList.dropWhile isSpace).reverse.dropWhile isSpace).reverse

def lower (text : String) : String := String.ofList (text.toList.map Char.toLower)

def packageOrder (a b : TarMember PackageFile) : Bool := decide (a.name ≤ b.name)

/-- `_registration_package` of a source folder of the given name. -/
def registrationPackage (folderName : String) (files : List SourceFile) (digest : String) :
    List (TarMember PackageFile) :=
  [⟨folderName ++ ".tar.xz", .archive (compressFiles files)⟩, ⟨"hash.txt", .text (lower digest ++ "\n")⟩].mergeSort
    packageOrder

def packageText (package : List (TarMember PackageFile)) : Option String :=
  (package.find? fun m => m.name == "hash.txt").bind fun m =>
    match m.payload with
    | .text content => some content
    | .archive _ => none

def packageArchive (package : List (TarMember PackageFile)) : Option (List (TarMember (List UInt8))) :=
  (package.find? fun m => isTarXz m.name).bind fun m =>
    match m.payload with
    | .archive members => some members
    | .text _ => none

/-- The folder that an extraction leaves. -/
def extracted (members : List (TarMember (List UInt8))) : List (List String × Entry) :=
  members.map fun m => (pureParts m.name, .file m.payload)

/-- `_download_verified_module` of a stored package, extracted at `code`. -/
def downloadVerifiedModule (sha : Sha256) (ignore : List IgnoredFolder) (code : List String)
    (package : List (TarMember PackageFile)) (digest : String) : Except ModuleError (List (List String × Entry)) := do
  validateArchiveMembers package true
  match packageText package, packageArchive package with
  | some text, some members =>
    if lower (strip text) ≠ digest then .error (.hashMismatch "The package hash does not match the database hash.")
    else
      validateArchiveMembers members false
      if contentDigest sha (collectModuleFiles ignore code true (extracted members)) ≠ digest then
        .error (.hashMismatch "The extracted module does not match the database hash.")
      else return extracted members
  | _, _ => .error (.value "Package entries must be files at its root.")

/-- A module's source folder at its resolved location. -/
structure SourceFolder extends Folder where
  parent : List String
  name : String
  nameValid : isFileName name = true

def SourceFolder.location (source : SourceFolder) : List String := source.parent ++ [source.name]

def SourceFolder.files (source : SourceFolder) (ignore : List IgnoredFolder) : List SourceFile :=
  collectModuleFiles ignore source.location true source.entries

end ModularPipelines.Modules
