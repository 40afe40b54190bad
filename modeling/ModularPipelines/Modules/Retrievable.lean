import Mathlib.Data.List.Permutation
import ModularPipelines.Library.Outcome
import ModularPipelines.Modules.Packing

namespace ModularPipelines.Modules
open Library

theorem isFileName_iff {name : String} : isFileName name = true ↔
    name ≠ "" ∧ name ≠ "." ∧ name ≠ ".." ∧ '/' ∉ name.toList ∧ '\x00' ∉ name.toList := by
  simp [isFileName, and_assoc]

/-- A path of proper names. -/
def ProperPath (path : List String) : Prop := path ≠ [] ∧ ∀ name ∈ path, isFileName name = true

theorem intercalate_front {α : Type} (sep : List α) (x : List α) (xs : List (List α)) :
    ∃ rest, sep.intercalate (x :: xs) = x ++ rest := by
  cases xs with
  | nil => exact ⟨[], by simp⟩
  | cons y ys => exact ⟨_, by rw [List.intercalate_cons_of_ne_nil (List.cons_ne_nil _ _), List.append_assoc]⟩

theorem mem_intercalate {α : Type} {sep c : α} (hc : c ≠ sep) (xs : List (List α)) :
    c ∈ [sep].intercalate xs ↔ ∃ x ∈ xs, c ∈ x := by
  induction xs with
  | nil => simp
  | cons x xs ih =>
    cases xs with
    | nil => simp
    | cons y ys =>
      rw [List.intercalate_cons_of_ne_nil (List.cons_ne_nil _ _)]
      simp only [List.mem_append, ih, hc, List.mem_cons]
      simp

theorem posix_toList (path : List String) : (posix path).toList = ['/'].intercalate (path.map String.toList) := by
  rw [posix, String.toList_intercalate]
  rfl

/-- The parts of a member's name are the path that it was written from. -/
theorem pureParts_posix {path : List String} (h : ProperPath path) : pureParts (posix path) = path := by
  have hslash : ∀ l ∈ path.map String.toList, '/' ∉ l := by
    intro l hl
    obtain ⟨name, hname, rfl⟩ := List.mem_map.mp hl
    exact (isFileName_iff.mp (h.2 name hname)).2.2.2.1
  rw [pureParts, posix_toList, List.splitOn_intercalate _ hslash (by simpa using h.1), List.map_map]
  have hid : (String.ofList ∘ String.toList) = id := by
    funext s
    simp
  rw [hid, List.map_id]
  apply List.filter_eq_self.mpr
  intro name hname
  obtain ⟨h1, h2, -⟩ := isFileName_iff.mp (h.2 name hname)
  simp [h1, h2]

def PlainName (name : String) : Prop := '\\' ∉ name.toList ∧ ':' ∉ name.toList

instance (name : String) : Decidable (PlainName name) :=
  inferInstanceAs (Decidable ('\\' ∉ name.toList ∧ ':' ∉ name.toList))

theorem contains_posix {c : Char} (hc : c ≠ '/') (path : List String) :
    c ∈ (posix path).toList ↔ ∃ name ∈ path, c ∈ name.toList := by
  rw [posix_toList, mem_intercalate hc]
  simp

theorem posix_relative {path : List String} (h : ProperPath path) :
    posix path ≠ "" ∧ isAbsolute (posix path) = false := by
  obtain ⟨name, rest, rfl⟩ := List.exists_cons_of_ne_nil h.1
  obtain ⟨hempty, -, -, hslash, -⟩ := isFileName_iff.mp (h.2 name List.mem_cons_self)
  obtain ⟨tail, htail⟩ := intercalate_front ['/'] name.toList (rest.map String.toList)
  have hlist : (posix (name :: rest)).toList = name.toList ++ tail := by
    rw [posix_toList, List.map_cons, htail]
  cases hname : name.toList with
  | nil => exact absurd (String.toList_eq_nil_iff.mp hname) hempty
  | cons c cs =>
    rw [hname] at hlist hslash
    constructor
    · intro hnone
      rw [hnone] at hlist
      simp at hlist
    · have hne : c ≠ '/' := fun he => hslash (he ▸ List.mem_cons_self)
      simp [isAbsolute, hlist, hne]

/-- A member's name is accepted exactly when no name on its path holds a backslash or a colon. -/
theorem unsupportedName_posix {path : List String} (h : ProperPath path) :
    unsupportedName (posix path) = false ↔ ∀ name ∈ path, PlainName name := by
  obtain ⟨hempty, habsolute⟩ := posix_relative h
  have hdots : ".." ∉ path := fun hmem => (isFileName_iff.mp (h.2 ".." hmem)).2.2.1 rfl
  simp only [unsupportedName, pureParts_posix h, habsolute, Bool.or_eq_false_iff, beq_eq_false_iff_ne,
    List.contains_eq_mem, decide_eq_false_iff_not, ne_eq, hempty, not_false_eq_true, hdots, true_and,
    contains_posix (show ('\\' : Char) ≠ '/' by decide), contains_posix (show (':' : Char) ≠ '/' by decide)]
  constructor
  · intro ⟨hback, hcolon⟩ name hname
    exact ⟨fun hc => hback ⟨name, hname, hc⟩, fun hc => hcolon ⟨name, hname, hc⟩⟩
  · intro hplain
    exact ⟨fun ⟨name, hname, hc⟩ => (hplain name hname).1 hc, fun ⟨name, hname, hc⟩ => (hplain name hname).2 hc⟩

/-- Code members with different paths are refused for a name only. -/
theorem validateMembers_code {α : Type} {members : List (TarMember α)} {seen : List (List String)}
    (hdistinct : (members.map fun m => pureParts m.name).Nodup)
    (hseen : ∀ m ∈ members, pureParts m.name ∉ seen) :
    validateMembers false seen members = .ok () ↔ ∀ m ∈ members, unsupportedName m.name = false := by
  induction members generalizing seen with
  | nil => simp [validateMembers]
  | cons member members ih =>
    obtain ⟨hnew, hrest⟩ := List.nodup_cons.mp hdistinct
    have hfresh := hseen member List.mem_cons_self
    have htail : ∀ m ∈ members, pureParts m.name ∉ pureParts member.name :: seen := by
      intro m hm hmem
      rcases List.mem_cons.mp hmem with heq | hmem
      · exact hnew (List.mem_map.mpr ⟨m, hm, heq⟩)
      · exact hseen m (List.mem_cons_of_mem _ hm) hmem
    have ih := ih hrest htail
    cases hname : unsupportedName member.name with
    | true => simp [validateMembers, hname]
    | false => simp [validateMembers, hname, hfresh, ih]

theorem posix_single (name : String) : posix [name] = name := by
  simp [posix]

theorem pureParts_single {name : String} (h : isFileName name = true) : pureParts name = [name] := by
  have hproper : ProperPath [name] := ⟨List.cons_ne_nil _ _, fun n hn => List.mem_singleton.mp hn ▸ h⟩
  have hparts := pureParts_posix hproper
  rwa [posix_single] at hparts

theorem unsupportedName_single {name : String} (h : isFileName name = true) :
    unsupportedName name = false ↔ PlainName name := by
  have hproper : ProperPath [name] := ⟨List.cons_ne_nil _ _, fun n hn => List.mem_singleton.mp hn ▸ h⟩
  have hname := unsupportedName_posix hproper
  rw [posix_single] at hname
  simpa using hname

theorem archiveName_valid {name : String} (h : isFileName name = true) : isFileName (name ++ ".tar.xz") = true := by
  obtain ⟨-, -, -, hslash, hnull⟩ := isFileName_iff.mp h
  apply isFileName_iff.mpr
  have hlong : 7 ≤ (name ++ ".tar.xz").toList.length := by
    rw [String.toList_append, List.length_append]
    exact Nat.le_add_left 7 _
  have hne : ∀ short : String, short.toList.length < 7 → name ++ ".tar.xz" ≠ short := by
    intro short hshort heq
    rw [heq] at hlong
    omega
  refine ⟨hne "" (by decide), hne "." (by decide), hne ".." (by decide), ?_, ?_⟩
  · rw [String.toList_append, List.mem_append]
    exact fun hmem => hmem.elim hslash (by decide)
  · rw [String.toList_append, List.mem_append]
    exact fun hmem => hmem.elim hnull (by decide)

theorem archiveName_plain {name : String} : PlainName (name ++ ".tar.xz") ↔ PlainName name := by
  simp only [PlainName, String.toList_append, List.mem_append, not_or]
  constructor
  · intro ⟨h1, h2⟩
    exact ⟨h1.1, h2.1⟩
  · intro ⟨h1, h2⟩
    exact ⟨⟨h1, by decide⟩, ⟨h2, by decide⟩⟩

theorem archiveName_isTarXz (name : String) : isTarXz (name ++ ".tar.xz") = true := by
  rw [isTarXz, String.toList_append, List.isSuffixOf_iff_suffix]
  exact List.suffix_append _ _

theorem archiveName_ne (name : String) : name ++ ".tar.xz" ≠ "hash.txt" := by
  intro heq
  have htar := archiveName_isTarXz name
  rw [heq] at htar
  revert htar
  decide

/-- The two files of a package, in whichever order their names put them. -/
theorem registrationPackage_cases (folderName : String) (files : List SourceFile) (digest : String) :
    registrationPackage folderName files digest =
        [⟨folderName ++ ".tar.xz", .archive (compressFiles files)⟩, ⟨"hash.txt", .text (lower digest ++ "\n")⟩] ∨
      registrationPackage folderName files digest =
        [⟨"hash.txt", .text (lower digest ++ "\n")⟩, ⟨folderName ++ ".tar.xz", .archive (compressFiles files)⟩] := by
  have hperm := List.mergeSort_perm
    [(⟨folderName ++ ".tar.xz", .archive (compressFiles files)⟩ : TarMember PackageFile),
      ⟨"hash.txt", .text (lower digest ++ "\n")⟩] packageOrder
  exact List.perm_pair.mp hperm

/-- The outer archive is accepted unless the name of the source folder spoils its member's name. -/
theorem validate_package {folderName : String} (h : isFileName folderName = true) (files : List SourceFile)
    (digest : String) :
    validateArchiveMembers (registrationPackage folderName files digest) true = .ok () ↔ PlainName folderName := by
  have hname := archiveName_valid h
  have hparts := pureParts_single hname
  have htext : pureParts "hash.txt" = ["hash.txt"] := pureParts_single (by decide)
  have hplain : unsupportedName "hash.txt" = false := (unsupportedName_single (by decide)).mpr (by decide)
  have hne := archiveName_ne folderName
  have htar := archiveName_isTarXz folderName
  have hnot : isTarXz "hash.txt" = false := by decide
  rw [← archiveName_plain, ← unsupportedName_single hname]
  rcases registrationPackage_cases folderName files digest with hcase | hcase
  · rw [hcase]
    cases hbad : unsupportedName (folderName ++ ".tar.xz") with
    | true => simp [validateArchiveMembers, validateMembers, hbad]
    | false =>
      simp [validateArchiveMembers, validateMembers, hbad, hparts, htext, hplain, hne.symm, htar, hnot]
  · rw [hcase]
    cases hbad : unsupportedName (folderName ++ ".tar.xz") with
    | true => simp [validateArchiveMembers, validateMembers, hbad, hplain, htext]
    | false =>
      simp [validateArchiveMembers, validateMembers, hbad, hparts, htext, hplain, hne, htar, hnot]

theorem package_contents (folderName : String) (files : List SourceFile) (digest : String) :
    packageText (registrationPackage folderName files digest) = some (lower digest ++ "\n") ∧
      packageArchive (registrationPackage folderName files digest) = some (compressFiles files) := by
  have hne := archiveName_ne folderName
  have htar := archiveName_isTarXz folderName
  have hnot : isTarXz "hash.txt" = false := by decide
  rcases registrationPackage_cases folderName files digest with hcase | hcase
  · rw [hcase]
    simp [packageText, packageArchive, hne, htar]
  · rw [hcase]
    simp [packageText, packageArchive, htar, hnot]

theorem hexDigit_lower {n : Nat} (h : n < 16) :
    (hexDigit n).toLower = hexDigit n ∧ isSpace (hexDigit n) = false := by
  have hall : ∀ n < 16, (hexDigit n).toLower = hexDigit n ∧ isSpace (hexDigit n) = false := by decide
  exact hall n h

theorem hexDigest_chars {bytes : List UInt8} {c : Char} (h : c ∈ (hexDigest bytes).toList) :
    c.toLower = c ∧ isSpace c = false := by
  simp only [hexDigest, String.toList_ofList, List.mem_flatMap, List.mem_cons, List.not_mem_nil, or_false] at h
  obtain ⟨b, -, rfl | rfl⟩ := h
  · exact hexDigit_lower (by have hb := b.toNat_lt; omega)
  · exact hexDigit_lower (Nat.mod_lt _ (by omega))

theorem lower_hexDigest (bytes : List UInt8) : lower (hexDigest bytes) = hexDigest bytes := by
  have hmap : (hexDigest bytes).toList.map Char.toLower = (hexDigest bytes).toList := by
    have hsame := List.map_congr_left (g := id) fun c (hc : c ∈ (hexDigest bytes).toList) => (hexDigest_chars hc).1
    rw [hsame, List.map_id]
  rw [lower, hmap, String.ofList_toList]

theorem dropWhile_none {l : List Char} (h : ∀ c ∈ l, isSpace c = false) (rest : List Char) :
    l.dropWhile isSpace = l ∧ (l ≠ [] → (l ++ rest).dropWhile isSpace = l ++ rest) := by
  cases l with
  | nil => exact ⟨rfl, fun hne => absurd rfl hne⟩
  | cons c l =>
    have hc := h c List.mem_cons_self
    simp [List.dropWhile, hc]

/-- The hash file reads back as the digest that was written. -/
theorem strip_line {text : String} (h : ∀ c ∈ text.toList, isSpace c = false) : strip (text ++ "\n") = text := by
  have hreverse : ∀ c ∈ text.toList.reverse, isSpace c = false := fun c hc => h c (List.mem_reverse.mp hc)
  by_cases hempty : text.toList = []
  · rw [String.toList_eq_nil_iff.mp hempty]
    decide
  · rw [strip, String.toList_append, (dropWhile_none h _).2 hempty, List.reverse_append]
    have hline : "\n".toList.reverse = ['\n'] := by decide
    rw [hline, List.singleton_append, List.dropWhile_cons_of_pos (by decide), (dropWhile_none hreverse []).1,
      List.reverse_reverse, String.ofList_toList]

theorem lower_strip_line (bytes : List UInt8) :
    lower (strip (lower (hexDigest bytes) ++ "\n")) = hexDigest bytes := by
  rw [lower_hexDigest, strip_line (fun c hc => (hexDigest_chars hc).2), lower_hexDigest]

variable {ignore : List IgnoredFolder} {code : List String}

theorem collected_some {location : List String} {e : List String × Entry} {f : SourceFile}
    (h : collected ignore location true e = some f) :
    e = (f.path, .file f.content) ∧ insideIgnored ignore location f.path.dropLast = false ∧
      "__pycache__" ∉ f.path.dropLast := by
  obtain ⟨path, entry⟩ := e
  cases entry with
  | link => cases h
  | special => cases h
  | file content =>
    simp only [collected] at h
    split at h
    · cases h
    · next hkeep =>
      obtain rfl := Option.some.inj h
      simpa using hkeep

theorem SourceFolder.mem_files {source : SourceFolder} {f : SourceFile} (h : f ∈ source.files ignore) :
    (f.path, .file f.content) ∈ source.entries ∧ ProperPath f.path ∧ "__pycache__" ∉ f.path.dropLast := by
  have hmem := (List.mergeSort_perm _ _).mem_iff.mp h
  obtain ⟨e, he, hcollected⟩ := List.mem_filterMap.mp hmem
  obtain ⟨rfl, -, hcache⟩ := collected_some hcollected
  exact ⟨he, source.named _ he, hcache⟩

theorem SourceFolder.files_distinct (source : SourceFolder) (ignore : List IgnoredFolder) :
    ((source.files ignore).map SourceFile.path).Nodup := by
  apply ((List.mergeSort_perm _ _).map SourceFile.path).nodup_iff.mpr
  rw [List.map_filterMap]
  have hsub : (source.entries.filterMap fun e =>
      (collected ignore source.location true e).map SourceFile.path).Sublist (source.entries.map Prod.fst) := by
    induction source.entries with
    | nil => exact .slnil
    | cons e entries ih =>
      rw [List.map_cons]
      cases hc : collected ignore source.location true e with
      | none =>
        rw [List.filterMap_cons_none (by rw [hc]; rfl)]
        exact ih.cons _
      | some f =>
        obtain ⟨rfl, -⟩ := collected_some hc
        rw [List.filterMap_cons_some (by rw [hc]; rfl)]
        exact ih.cons_cons _
  exact hsub.nodup source.distinct

theorem posixOrder_sorted (files : List SourceFile) : (files.mergeSort posixOrder).Pairwise (posixOrder · ·) := by
  apply List.pairwise_mergeSort
  · intro a b c hab hbc
    exact decide_eq_true (le_trans (of_decide_eq_true hab) (of_decide_eq_true hbc))
  · intro a b
    simp only [posixOrder, Bool.or_eq_true, decide_eq_true_eq]
    exact le_total _ _

/-- The extracted folder holds the packed files under their own paths. -/
theorem extracted_compress {files : List SourceFile} (h : ∀ f ∈ files, ProperPath f.path) :
    extracted (compressFiles files) = files.map fun f => (f.path, .file f.content) := by
  rw [extracted, compressFiles, List.map_map]
  apply List.map_congr_left
  intro f hf
  simp only [Function.comp_apply, pureParts_posix (h f hf)]

/-- Nothing is lost on the way back unless the new place of the code is itself ignored. -/
theorem recollected {files : List SourceFile} (hsorted : files.Pairwise (posixOrder · ·))
    (hproper : ∀ f ∈ files, ProperPath f.path) (hcache : ∀ f ∈ files, "__pycache__" ∉ f.path.dropLast) :
    collectModuleFiles ignore code true (extracted (compressFiles files)) = files ↔
      ∀ f ∈ files, insideIgnored ignore code f.path.dropLast = false := by
  rw [extracted_compress hproper, collectModuleFiles]
  constructor
  · intro hsame f hf
    rw [← hsame] at hf
    obtain ⟨e, -, hcollected⟩ := List.mem_filterMap.mp ((List.mergeSort_perm _ _).mem_iff.mp hf)
    exact (collected_some hcollected).2.1
  · intro houtside
    have hall : (files.map fun f => (f.path, Entry.file f.content)).filterMap (collected ignore code true) = files := by
      rw [List.filterMap_map]
      have hsome : ∀ f ∈ files, (collected ignore code true ∘ fun f => (f.path, Entry.file f.content)) f = some f := by
        intro f hf
        simp [collected, houtside f hf, hcache f hf]
      rw [List.filterMap_congr hsome, List.filterMap_some]
    rw [hall, List.mergeSort_of_pairwise hsorted]

/-- When the names of a module come through the checks of a download. -/
def Retrievable (ignore : List IgnoredFolder) (code : List String) (source : SourceFolder) : Prop :=
  PlainName source.name ∧ (∀ f ∈ source.files ignore, ∀ name ∈ f.path, PlainName name) ∧
    ∀ f ∈ source.files ignore, insideIgnored ignore code f.path.dropLast = false

theorem validate_code {files : List SourceFile} (hproper : ∀ f ∈ files, ProperPath f.path)
    (hdistinct : (files.map SourceFile.path).Nodup) :
    validateArchiveMembers (compressFiles files) false = .ok () ↔
      ∀ f ∈ files, ∀ name ∈ f.path, PlainName name := by
  have hparts : (compressFiles files).map (fun m => pureParts m.name) = files.map SourceFile.path := by
    rw [compressFiles, List.map_map]
    apply List.map_congr_left
    intro f hf
    exact pureParts_posix (hproper f hf)
  have hmembers : validateMembers false [] (compressFiles files) = .ok () ↔
      ∀ m ∈ compressFiles files, unsupportedName m.name = false := by
    apply validateMembers_code
    · rw [hparts]
      exact hdistinct
    · intro m _ hmem
      cases hmem
  have hvalid : validateArchiveMembers (compressFiles files) false = .ok () ↔
      validateMembers false [] (compressFiles files) = .ok () := by
    unfold validateArchiveMembers
    cases validateMembers false [] (compressFiles files) <;> simp
  rw [hvalid, hmembers]
  simp only [compressFiles, List.forall_mem_map]
  constructor
  · intro h f hf
    exact (unsupportedName_posix (hproper f hf)).mp (h f hf)
  · intro h f hf
    exact (unsupportedName_posix (hproper f hf)).mpr (h f hf)

theorem download_iff (sha : Sha256) (ignore : List IgnoredFolder) (code : List String) (source : SourceFolder) :
    (∃ entries, downloadVerifiedModule sha ignore code
        (registrationPackage source.name (source.files ignore) (contentDigest sha (source.files ignore)))
        (contentDigest sha (source.files ignore)) = .ok entries ∧
      collectModuleFiles ignore code true entries = source.files ignore) ↔ Retrievable ignore code source := by
  have hproper : ∀ f ∈ source.files ignore, ProperPath f.path := fun f hf => (SourceFolder.mem_files hf).2.1
  have hcache : ∀ f ∈ source.files ignore, "__pycache__" ∉ f.path.dropLast :=
    fun f hf => (SourceFolder.mem_files hf).2.2
  have hsorted : (source.files ignore).Pairwise (posixOrder · ·) := posixOrder_sorted _
  have hback : collectModuleFiles ignore code true (extracted (compressFiles (source.files ignore))) =
      source.files ignore ↔ ∀ f ∈ source.files ignore, insideIgnored ignore code f.path.dropLast = false :=
    recollected hsorted hproper hcache
  have hdistinct := source.files_distinct ignore
  have hpackage := validate_package source.nameValid (source.files ignore) (contentDigest sha (source.files ignore))
  have hcode := validate_code hproper hdistinct
  obtain ⟨htext, harchive⟩ :=
    package_contents source.name (source.files ignore) (contentDigest sha (source.files ignore))
  have hline : lower (strip (lower (contentDigest sha (source.files ignore)) ++ "\n")) =
      contentDigest sha (source.files ignore) := lower_strip_line _
  rw [Retrievable, ← hpackage, ← hcode, ← hback]
  simp only [downloadVerifiedModule, htext, harchive, hline, ne_eq, not_true_eq_false, if_false, bind_ok]
  constructor
  · rintro ⟨entries, ⟨u, houter, u', hinner, hrest⟩, hsame⟩
    split at hrest
    · cases hrest
    · cases hrest
      exact ⟨houter, hinner, hsame⟩
  · intro ⟨houter, hinner, hsame⟩
    refine ⟨extracted (compressFiles (source.files ignore)), ⟨(), houter, (), hinner, ?_⟩, hsame⟩
    rw [if_neg (by rw [hsame]; exact not_not.mpr rfl)]
    rfl

/-- Hashing is the sequential fold whatever the settings and however the workers finish, its
records can be told apart, and a registered module comes back from its package exactly when no
name of it is one that the archive checks refuse and its new place is not an ignored one. -/
theorem registered_module_retrievable (sha : Sha256) (settings : ModuleHashingSettings)
    (ignore : List IgnoredFolder) (code : List String) (source : SourceFolder) :
    (Encodable (source.files ignore) → ∃ aggregate,
      hashSequential sha settings [] (source.files ignore) = some aggregate ∧
      hexDigest (sha.digest aggregate) = contentDigest sha (source.files ignore) ∧
      ∀ hashed, HashedFiles sha settings (source.files ignore) hashed ↔ hashed = aggregate) ∧
    (∀ records records' : List (String × List UInt8), Framed 8 32 (records.map namedRecord) →
      Framed 8 32 (records'.map namedRecord) →
      (records.map namedRecord).flatMap (frame 8) = (records'.map namedRecord).flatMap (frame 8) →
      records = records') ∧
    ((∃ entries, downloadVerifiedModule sha ignore code
        (registrationPackage source.name (source.files ignore) (contentDigest sha (source.files ignore)))
        (contentDigest sha (source.files ignore)) = .ok entries ∧
      collectModuleFiles ignore code true entries = source.files ignore) ↔ Retrievable ignore code source) := by
  refine ⟨?_, fun _ _ => records_injective, download_iff sha ignore code source⟩
  intro hencodable
  refine ⟨preimage sha (source.files ignore), hashSequential_preimage hencodable [], rfl, ?_⟩
  intro hashed
  exact HashedFiles.iff_preimage hencodable

/-- A hash for tests: 32 zero bytes. -/
def zeroHash : Sha256 := ⟨fun _ => List.replicate 32 0, fun _ => List.length_replicate⟩

def colonModule : SourceFolder where
  entries := [(["a:b"], .file [1]), (["module.yaml"], .file [2])]
  named := by decide
  distinct := by decide
  parent := ["modules"]
  name := "m"
  nameValid := by decide

/-- A module with a colon in a file name is registered, and its package is refused. -/
theorem colon_module_lost : ⟨["a:b"], [1]⟩ ∈ colonModule.files [] ∧ ⟨["module.yaml"], [2]⟩ ∈ colonModule.files [] ∧
    ¬ ∃ entries, downloadVerifiedModule zeroHash [] ["work", "code"]
        (registrationPackage colonModule.name (colonModule.files []) (contentDigest zeroHash (colonModule.files [])))
        (contentDigest zeroHash (colonModule.files [])) = .ok entries ∧
      collectModuleFiles [] ["work", "code"] true entries = colonModule.files [] := by
  have hfiles : ∀ f ∈ [(⟨["a:b"], [1]⟩ : SourceFile), ⟨["module.yaml"], [2]⟩], f ∈ colonModule.files [] := by
    intro f hf
    rw [SourceFolder.files, collectModuleFiles, List.mem_mergeSort]
    exact hf
  refine ⟨hfiles _ List.mem_cons_self, hfiles _ (List.mem_cons_of_mem _ List.mem_cons_self), ?_⟩
  rw [download_iff]
  rintro ⟨-, hplain, -⟩
  exact (hplain _ (hfiles _ List.mem_cons_self) "a:b" List.mem_cons_self).2 (by decide)

end ModularPipelines.Modules
