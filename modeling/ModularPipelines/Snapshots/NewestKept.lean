import Mathlib.Data.List.Perm.Subperm
import Mathlib.Data.String.Basic
import ModularPipelines.Snapshots.Retention
import ModularPipelines.Snapshots.Rollback

namespace ModularPipelines.Snapshots
open Library

variable {store out : SnapshotStore} {b : Build store} {keep : Nat} {e : StoreEntry} {experimentId experimentFolder : String}
  {candidates : List Candidate} {retained names : List String} {n : Int}

/-- A payload that validates was read from a folder and a manifest that are no links. -/
theorem load_entry {p : SnapshotPayload} (h : e.folder.load = .ok p) :
    e.kind = .directory ∧ e.linkedManifest = false ∧ e.folder.manifest = .ok p := by
  unfold SnapshotFolder.load at h
  obtain ⟨hconfined, h⟩ := rejectIf_then.mp h
  obtain ⟨hmanifest, h⟩ := rejectIf_then.mp h
  obtain ⟨payload, hpayload, h⟩ := bind_ok.mp h
  obtain ⟨-, -, h⟩ := bind_ok.mp h
  obtain ⟨state, -, h⟩ := bind_ok.mp h
  obtain ⟨-, h⟩ := rejectIf_then.mp h
  obtain ⟨template, -, h⟩ := bind_ok.mp h
  obtain ⟨-, h⟩ := rejectIf_then.mp h
  obtain ⟨-, -, h⟩ := bind_ok.mp h
  obtain ⟨-, h⟩ := rejectIf_then.mp h
  obtain ⟨-, h⟩ := rejectIf_then.mp h
  obtain ⟨journal, -, h⟩ := bind_ok.mp h
  obtain ⟨-, h⟩ := rejectIf_then.mp h
  obtain ⟨-, -, h⟩ := bind_ok.mp h
  obtain rfl := Except.ok.inj h
  exact ⟨e.direct (Bool.not_eq_false _ ▸ hconfined), e.own (Bool.not_eq_false _ ▸ hmanifest), hpayload⟩

theorem matches_iff {p : SnapshotPayload} : matches? experimentId experimentFolder e p = true ↔
    p.snapshotId = e.name ∧ p.experimentId = experimentId ∧ p.experimentFolder = experimentFolder := by
  unfold matches?
  rw [Bool.and_eq_true, Bool.and_eq_true, beq_iff_eq, beq_iff_eq, beq_iff_eq, and_assoc]

/-- The candidate that an entry gives, if any. -/
def headed (experimentId experimentFolder : String) (e : StoreEntry) : Option Candidate :=
  (e.candidate experimentId experimentFolder).toOption.join

/-- A valid snapshot in a folder of its own is a candidate, under the number in its header. -/
theorem valid_candidate {p : SnapshotPayload} (hload : e.folder.load = .ok p)
    (hmatch : matches? experimentId experimentFolder e p = true) (howned : e.owned = true) :
    ∃ n, e.number = some n ∧ headed experimentId experimentFolder e = some (n, e) := by
  obtain ⟨-, hlinked, hmanifest⟩ := load_entry hload
  obtain ⟨-, h, n, hheader, hnumber, hid, hexperiment, hfolder⟩ := e.sameManifest p hmanifest
  obtain ⟨hname, hexperiment', hfolder'⟩ := matches_iff.mp hmatch
  refine ⟨n, ?_, ?_⟩
  · unfold StoreEntry.number
    rw [hheader]
    exact hnumber
  · unfold headed StoreEntry.candidate
    rw [howned, hlinked, hheader]
    show (if h.snapshotId = e.name ∧ h.experimentId = experimentId ∧ h.experimentFolder = experimentFolder then
      h.number.map (fun n => (n, e)) else none) = some (n, e)
    rw [if_pos ⟨hid.symm.trans hname, hexperiment.symm.trans hexperiment', hfolder.symm.trans hfolder'⟩, hnumber]
    rfl

theorem candidate_eq {c : Candidate} (h : headed experimentId experimentFolder e = some c) :
    c.2 = e ∧ e.owned = true ∧ e.number = some c.1 := by
  unfold headed StoreEntry.candidate at h
  split at h
  · next hguard =>
    cases hheader : e.header with
    | error raised =>
      rw [hheader] at h
      dsimp only at h
      split at h <;> cases h
    | ok header =>
      rw [hheader] at h
      change (if _ then _ else _) = some c at h
      split at h
      · obtain ⟨n, hn, rfl⟩ := Option.map_eq_some_iff.mp h
        refine ⟨rfl, (Bool.and_eq_true_iff.mp hguard).1, ?_⟩
        unfold StoreEntry.number
        rw [hheader]
        exact hn
      · cases h
  · cases h

/-- The candidates that retention reads, in their order. -/
def headers (store : SnapshotStore) (experimentId experimentFolder : String) : List Candidate :=
  ranked (store.entries.filterMap (headed experimentId experimentFolder))

theorem retentionCandidates_eq
    (h : ∀ e ∈ store.entries, ∃ read, e.candidate experimentId experimentFolder = .ok read) :
    retentionCandidates store experimentId experimentFolder = .ok (headers store experimentId experimentFolder) := by
  have hread : store.entries.mapM (StoreEntry.candidate experimentId experimentFolder) =
      .ok (store.entries.map (headed experimentId experimentFolder)) := by
    apply mapM_ok_of_forall
    intro e he
    obtain ⟨read, hread⟩ := h e he
    unfold headed
    rw [hread]
    rfl
  unfold retentionCandidates headers
  rw [hread, ok_bind]
  unfold List.reduceOption
  rw [List.filterMap_map]
  rfl

theorem retentionCandidates_ok (h : retentionCandidates store experimentId experimentFolder = .ok candidates) :
    candidates = headers store experimentId experimentFolder := by
  obtain ⟨read, hread, -⟩ := bind_ok.mp h
  exact Except.ok.inj (h.symm.trans (retentionCandidates_eq (mapM_ok_each hread)))

theorem newerFirst_total (a b : Candidate) : (newerFirst a b || newerFirst b a) = true := by
  unfold newerFirst
  rw [Bool.or_eq_true, Bool.or_eq_true, Bool.or_eq_true, Bool.and_eq_true, Bool.and_eq_true]
  simp only [decide_eq_true_eq, beq_iff_eq]
  obtain hlt | heq | hgt := lt_trichotomy a.1 b.1
  · exact .inr (.inl hlt)
  · obtain hle | hle := le_total a.2.name b.2.name
    · exact .inr (.inr ⟨heq.symm, hle⟩)
    · exact .inl (.inr ⟨heq, hle⟩)
  · exact .inl (.inl hgt)

theorem newerFirst_trans (a b c : Candidate) (hab : newerFirst a b = true) (hbc : newerFirst b c = true) :
    newerFirst a c = true := by
  unfold newerFirst at hab hbc ⊢
  rw [Bool.or_eq_true, Bool.and_eq_true, decide_eq_true_eq, beq_iff_eq, decide_eq_true_eq] at hab hbc ⊢
  obtain hab | ⟨hab, hab'⟩ := hab
  · obtain hbc | ⟨hbc, -⟩ := hbc
    · exact .inl (hbc.trans hab)
    · exact .inl (hbc ▸ hab)
  · obtain hbc | ⟨hbc, hbc'⟩ := hbc
    · exact .inl (hab ▸ hbc)
    · exact .inr ⟨hab.trans hbc, hbc'.trans hab'⟩

theorem ranked_pairwise (candidates : List Candidate) :
    (ranked candidates).Pairwise (fun a b => newerFirst a b = true) :=
  List.pairwise_mergeSort newerFirst_trans newerFirst_total candidates

/-- A candidate that ranks before another one in a different folder is the newer of the two. -/
theorem newerFirst_iff {a b : Candidate} : newerFirst a b = true ↔ b.1 < a.1 ∨ (a.1 = b.1 ∧ b.2.name ≤ a.2.name) := by
  unfold newerFirst
  rw [Bool.or_eq_true, Bool.and_eq_true, decide_eq_true_eq, beq_iff_eq, decide_eq_true_eq]

theorem newer_of_before {a b : Candidate} (h : newerFirst a b = true) (hne : a.2.name ≠ b.2.name)
    (ha : a.2.number = some a.1) (hb : b.2.number = some b.1) : a.2.Newer b.2 := by
  refine ⟨a.1, b.1, ha, hb, ?_⟩
  obtain hlt | ⟨heq, hle⟩ := newerFirst_iff.mp h
  · exact .inl hlt
  · exact .inr ⟨heq, lt_of_le_of_ne hle (Ne.symm hne)⟩

/-- What is older is not read first. -/
theorem not_before_of_newer {a b : Candidate} (h : a.2.Newer b.2) (ha : a.2.number = some a.1)
    (hb : b.2.number = some b.1) : ¬ newerFirst b a = true := by
  obtain ⟨m, n, hm, hn, hnewer⟩ := h
  obtain rfl := Option.some.inj (hm.symm.trans ha)
  obtain rfl := Option.some.inj (hn.symm.trans hb)
  rw [newerFirst_iff]
  rintro (hlt | ⟨heq, hle⟩)
  · omega
  · obtain hlt | ⟨-, hname⟩ := hnewer
    · omega
    · exact absurd hle (not_le_of_gt hname)

/-- The candidates that validation may retain besides the published snapshot. -/
def retainable (experimentId experimentFolder published : String) (c : Candidate) : Bool :=
  c.2.name != published &&
    match c.2.folder.load with
    | .ok p => matches? experimentId experimentFolder c.2 p
    | .error _ => false

theorem retainedSnapshot_ok {valid : Bool} (h : retainedSnapshot experimentId experimentFolder e = .ok valid) :
    valid = match e.folder.load with
      | .ok p => matches? experimentId experimentFolder e p
      | .error _ => false := by
  unfold retainedSnapshot at h
  cases hload : e.folder.load with
  | ok p =>
    rw [hload] at h
    exact (Except.ok.inj h).symm
  | error raised =>
    rw [hload] at h
    dsimp only at h
    split at h
    · exact (Except.ok.inj h).symm
    · cases h

theorem retainedSnapshot_total (h : e.Handled) : ∃ valid, retainedSnapshot experimentId experimentFolder e = .ok valid := by
  unfold retainedSnapshot
  cases hload : e.folder.load with
  | ok p => exact ⟨_, rfl⟩
  | error raised => exact ⟨false, if_pos (h raised hload)⟩

/-- Retention takes the first valid candidates until there are enough. -/
theorem selectRetained_ok {experimentId experimentFolder published : String} {out : List String}
    (candidates : List Candidate) :
    ∀ {retained}, selectRetained experimentId experimentFolder published keep retained candidates = .ok out →
      out = retained ++ ((candidates.filter (retainable experimentId experimentFolder published)).take
        (keep - retained.length)).map (·.2.name) := by
  induction candidates with
  | nil =>
    intro retained h
    obtain rfl := Except.ok.inj h
    simp
  | cons c rest ih =>
    intro retained h
    obtain ⟨n, e⟩ := c
    unfold selectRetained at h
    by_cases hfull : keep ≤ retained.length
    · rw [if_pos hfull] at h
      rw [Nat.sub_eq_zero_of_le hfull, List.take_zero, List.map_nil, List.append_nil, Except.ok.inj h]
    · rw [if_neg hfull] at h
      by_cases hname : e.name = published
      · rw [if_pos hname] at h
        rw [ih h, List.filter_cons_of_neg]
        simp [retainable, hname]
      · rw [if_neg hname] at h
        obtain ⟨valid, hvalid, h⟩ := bind_ok.mp h
        have hvalid := retainedSnapshot_ok hvalid
        have hroom : keep - retained.length = keep - (retained.length + 1) + 1 := by omega
        cases valid with
        | true =>
          have hkeep : retainable experimentId experimentFolder published (n, e) = true := by
            unfold retainable
            rw [← hvalid, Bool.and_true]
            exact bne_iff_ne.mpr hname
          rw [if_pos rfl] at h
          rw [ih h, List.filter_cons_of_pos hkeep, List.length_append, List.length_singleton, hroom,
            List.take_succ_cons, List.map_cons, List.append_assoc, List.singleton_append]
        | false =>
          have hdrop : ¬ retainable experimentId experimentFolder published (n, e) = true := by
            unfold retainable
            rw [← hvalid, Bool.and_false]
            exact Bool.false_ne_true
          rw [if_neg Bool.false_ne_true] at h
          rw [ih h, List.filter_cons_of_neg hdrop]

theorem selectRetained_total (experimentId experimentFolder published : String) (keep : Nat) (candidates : List Candidate)
    (h : ∀ c ∈ candidates, c.2.Handled) :
    ∀ retained, ∃ out, selectRetained experimentId experimentFolder published keep retained candidates = .ok out := by
  induction candidates with
  | nil => exact fun retained => ⟨retained, rfl⟩
  | cons c rest ih =>
    intro retained
    obtain ⟨n, e⟩ := c
    have ih := ih (fun c hc => h c (List.mem_cons_of_mem _ hc))
    unfold selectRetained
    by_cases hfull : keep ≤ retained.length
    · exact ⟨retained, if_pos hfull⟩
    · rw [if_neg hfull]
      by_cases hname : e.name = published
      · rw [if_pos hname]
        exact ih retained
      · obtain ⟨valid, hvalid⟩ := retainedSnapshot_total (h _ List.mem_cons_self)
        rw [if_neg hname, hvalid, ok_bind]
        exact ih _

theorem foldl_max_ge (ns : List Int) : ∀ m : Int, m ≤ ns.foldl max m ∧ ∀ n ∈ ns, n ≤ ns.foldl max m := by
  induction ns with
  | nil => exact fun m => ⟨le_refl m, fun n hn => (List.not_mem_nil hn).elim⟩
  | cons first rest ih =>
    intro m
    obtain ⟨hstart, hrest⟩ := ih (max m first)
    refine ⟨(le_max_left m first).trans hstart, ?_⟩
    intro n hn
    obtain rfl | hn := List.mem_cons.mp hn
    · exact (le_max_right m n).trans hstart
    · exact hrest n hn

/-- The next sequence number is larger than every one that was read, but for the last one there is. -/
theorem lt_nextSequence {read : List (Option Int × StoreEntry)} (hread : (some n, e) ∈ read) (hpos : 0 < n)
    (hlast : n < lastSequence) : n < nextSequence read := by
  have hmem : n ∈ (read.filterMap Prod.fst).filter (fun n => decide (0 < n ∧ n < lastSequence)) := by
    apply List.mem_filter.mpr
    exact ⟨List.mem_filterMap.mpr ⟨_, hread, rfl⟩, decide_eq_true ⟨hpos, hlast⟩⟩
  have hle := (foldl_max_ge _ 0).2 n hmem
  unfold nextSequence
  omega

theorem number_bounds (h : e.number = some n) : 0 < n ∧ n ≤ lastSequence := by
  unfold StoreEntry.number at h
  obtain ⟨header, -, h⟩ := Option.bind_eq_some_iff.mp h
  unfold ManifestHeader.number at h
  split at h
  · exact of_decide_eq_true (Option.filter_eq_some_iff.mp h).2
  · cases h

theorem readSequence_of_number (h : e.number = some n) : e.readSequence = .ok (some n) := by
  unfold StoreEntry.number at h
  unfold StoreEntry.readSequence
  cases hheader : e.header with
  | error raised =>
    rw [hheader] at h
    cases h
  | ok header =>
    rw [hheader] at h
    change header.number = some n at h
    unfold ManifestHeader.number at h
    split at h
    · exact congrArg Except.ok (Option.filter_eq_some_iff.mp h).1
    · cases h

/-- The sequence number that reading an entry gives, if any. -/
def foundSequence (e : StoreEntry) : Option Int × StoreEntry :=
  (match e.readSequence with
    | .ok n => n
    | .error _ => none, e)

theorem readSequences_eq {store : SnapshotStore} (h : ∀ e ∈ store.found, ∃ n, e.readSequence = .ok n) :
    store.readSequences = .ok (store.found.map foundSequence) := by
  apply mapM_ok_of_forall
  intro e he
  obtain ⟨n, hn⟩ := h e he
  unfold foundSequence
  rw [hn]
  rfl

theorem readSequences_each {read : List (Option Int × StoreEntry)} (h : store.readSequences = .ok read) :
    ∀ e ∈ store.found, ∃ n, e.readSequence = .ok n := by
  intro e he
  obtain ⟨y, hy⟩ := mapM_ok_each h e he
  obtain ⟨n, hn, -⟩ := map_ok.mp hy
  exact ⟨n, hn⟩

theorem mem_read {read : List (Option Int × StoreEntry)} (h : store.readSequences = .ok read) (he : e ∈ store.found)
    (hnumber : e.number = some n) : (some n, e) ∈ read := by
  have hread := Except.ok.inj (h.symm.trans (readSequences_eq (readSequences_each h)))
  rw [hread]
  apply List.mem_map.mpr
  refine ⟨e, he, ?_⟩
  unfold foundSequence
  rw [readSequence_of_number hnumber]

theorem number_of_load {p : SnapshotPayload} (h : e.folder.load = .ok p) : ∃ n, e.number = some n := by
  obtain ⟨-, -, hmanifest⟩ := load_entry h
  obtain ⟨-, header, n, hheader, hnumber, -⟩ := e.sameManifest p hmanifest
  refine ⟨n, ?_⟩
  unfold StoreEntry.number
  rw [hheader]
  exact hnumber

/-- The scan finds every entry that can be loaded. -/
theorem found_of_load {p : SnapshotPayload} (he : e ∈ store.entries) (h : e.folder.load = .ok p) : e ∈ store.found := by
  obtain ⟨hkind, -, hmanifest⟩ := load_entry h
  obtain ⟨hexists, -⟩ := e.sameManifest p hmanifest
  apply List.mem_filter.mpr
  refine ⟨he, ?_⟩
  rw [hkind, hexists]
  rfl

/-- A candidate of the scan is an entry with the number that was read from it. -/
theorem mem_scan {c : Candidate}
    (h : c ∈ ranked ((store.found.map foundSequence).filterMap (fun r => r.1.map (fun n => (n, r.2))))) :
    c.2 ∈ store.found ∧ (foundSequence c.2).1 = some c.1 := by
  obtain ⟨r, hr, hc⟩ := List.mem_filterMap.mp (List.mem_mergeSort.mp h)
  obtain ⟨e, he, rfl⟩ := List.mem_map.mp hr
  obtain ⟨m, hm, rfl⟩ := Option.map_eq_some_iff.mp hc
  exact ⟨he, hm⟩

/-- What `_latest_valid` returns a candidate for. -/
def accepted (experimentFolder : String) (c : Candidate) : Bool :=
  match c.2.folder.load with
  | .ok p => decide (p.experimentFolder = experimentFolder ∧ p.snapshotId = c.2.name)
  | .error _ => false

theorem accepted_iff {experimentFolder : String} {c : Candidate} : accepted experimentFolder c = true ↔
    ∃ p, c.2.folder.load = .ok p ∧ p.experimentFolder = experimentFolder ∧ p.snapshotId = c.2.name := by
  unfold accepted
  split
  · rename_i p hload
    rw [decide_eq_true_eq, hload]
    simp
  · rename_i raised hload
    rw [hload]
    simp

/-- The first candidate that is accepted is returned, when everything before it can be passed over. -/
theorem readCandidates_eq (experimentFolder : String) (candidates : List Candidate) {c : Candidate}
    (h : candidates.find? (accepted experimentFolder) = some c)
    (hordered : candidates.Pairwise (fun x y => newerFirst x y = true))
    (hhandled : ∀ x ∈ candidates, newerFirst x c = true → x.2.Handled) :
    latestValid.readCandidates experimentFolder candidates = .ok c.2 := by
  induction candidates with
  | nil => cases h
  | cons first rest ih =>
    obtain ⟨hfirst, hrest⟩ := List.pairwise_cons.mp hordered
    have ih := fun hfind => ih hfind hrest (fun x hx => hhandled x (List.mem_cons_of_mem _ hx))
    obtain ⟨m, e⟩ := first
    unfold latestValid.readCandidates
    rw [List.find?_cons] at h
    unfold accepted at h ih
    dsimp only at h
    cases hload : e.folder.load with
    | error raised =>
      rw [hload] at h
      have hbefore := hfirst c (List.mem_of_find?_eq_some h)
      exact (if_pos (hhandled (m, e) List.mem_cons_self hbefore raised hload)).trans (ih h)
    | ok p =>
      rw [hload] at h
      dsimp only at h ⊢
      by_cases haccept : p.experimentFolder = experimentFolder ∧ p.snapshotId = e.name
      · rw [decide_eq_true haccept] at h
        rw [if_pos haccept, ← Option.some.inj h]
      · rw [decide_eq_false haccept] at h
        rw [if_neg haccept]
        exact ih h

/-- The names that retention keeps besides the published one. -/
def Build.others (b : Build store) (keep : Nat) : List Candidate :=
  ((headers b.published b.payload.experimentId b.payload.experimentFolder).filter
    (retainable b.payload.experimentId b.payload.experimentFolder b.entry.name)).take (keep - 1)

theorem retain_entries (hok : b.retain keep = .ok out) : out.entries = b.published.entries.filter
    (fun e => !e.owned || (b.entry.name :: (b.others keep).map (·.2.name)).contains e.name) := by
  unfold Build.retain retainSnapshots at hok
  obtain ⟨candidates, hcandidates, hok⟩ := bind_ok.mp hok
  obtain rfl := retentionCandidates_ok hcandidates
  obtain ⟨retained, hretained, hok⟩ := bind_ok.mp hok
  obtain rfl := selectRetained_ok _ hretained
  obtain rfl := Except.ok.inj hok
  rfl

theorem Build.mem_published : e ∈ b.published.entries ↔ e ∈ store.entries ∨ e = b.entry := by
  unfold Build.published
  rw [List.mem_append, List.mem_singleton]

theorem Build.valid_entry (b : Build store) : b.Valid b.entry := ⟨b.payload, b.valid, matches_iff.mpr ⟨b.named, rfl, rfl⟩⟩

theorem mem_headers {c : Candidate} (h : c ∈ headers store experimentId experimentFolder) :
    c.2 ∈ store.entries ∧ c.2.owned = true ∧ c.2.number = some c.1 := by
  obtain ⟨e, he, hc⟩ := List.mem_filterMap.mp (List.mem_mergeSort.mp h)
  obtain ⟨rfl, howned, hnumber⟩ := candidate_eq hc
  exact ⟨he, howned, hnumber⟩

theorem headers_nodup (store : SnapshotStore) (experimentId experimentFolder : String) :
    ((headers store experimentId experimentFolder).map (·.2.name)).Nodup := by
  have hperm : ((headers store experimentId experimentFolder).map (·.2.name)).Perm
      ((store.entries.filterMap (headed experimentId experimentFolder)).map (·.2.name)) :=
    (List.mergeSort_perm _ _).map _
  rw [hperm.nodup_iff]
  have hsub : ∀ entries : List StoreEntry, List.Sublist
      ((entries.filterMap (headed experimentId experimentFolder)).map (·.2.name)) (entries.map StoreEntry.name) := by
    intro entries
    induction entries with
    | nil => exact List.Sublist.slnil
    | cons e rest ih =>
      cases hc : headed experimentId experimentFolder e with
      | none =>
        rw [List.filterMap_cons_none hc]
        exact ih.cons _
      | some c =>
        obtain ⟨rfl, -, -⟩ := candidate_eq hc
        rw [List.filterMap_cons_some hc]
        exact ih.cons_cons _
  exact (hsub store.entries).nodup store.distinct

/-- What retention keeps besides the published snapshot: valid snapshots, in order. -/
theorem mem_others {c : Candidate} (h : c ∈ b.others keep) : c.2 ∈ b.published.entries ∧ c.2.number = some c.1 ∧
    b.Valid c.2 ∧ c.2.name ≠ b.entry.name := by
  obtain ⟨hmem, hretainable⟩ := List.mem_filter.mp (List.mem_of_mem_take h)
  obtain ⟨hentry, -, hnumber⟩ := mem_headers hmem
  unfold retainable at hretainable
  obtain ⟨hname, hvalid⟩ := Bool.and_eq_true_iff.mp hretainable
  refine ⟨hentry, hnumber, ?_, bne_iff_ne.mp hname⟩
  cases hload : c.2.folder.load with
  | error raised =>
    rw [hload] at hvalid
    cases hvalid
  | ok p =>
    rw [hload] at hvalid
    exact ⟨p, hload, hvalid⟩

theorem others_nodup (b : Build store) (keep : Nat) : ((b.others keep).map (·.2.name)).Nodup := by
  have hsub : (b.others keep).Sublist (headers b.published b.payload.experimentId b.payload.experimentFolder) :=
    (List.take_sublist _ _).trans List.filter_sublist
  exact (hsub.map (fun c => c.2.name)).nodup (headers_nodup _ _ _)

theorem others_length (b : Build store) (keep : Nat) : (b.others keep).length ≤ keep - 1 := by
  unfold Build.others
  rw [List.length_take]
  exact Nat.min_le_left _ _

/-- The candidates besides the published snapshot that are not kept rank behind as many as may be kept. -/
theorem left_candidate {c : Candidate}
    (hmem : c ∈ headers b.published b.payload.experimentId b.payload.experimentFolder)
    (hretainable : retainable b.payload.experimentId b.payload.experimentFolder b.entry.name c = true)
    (hout : c ∉ b.others keep) :
    (b.others keep).length = keep - 1 ∧ ∀ x ∈ b.others keep, newerFirst x c = true := by
  have hranked : (headers b.published b.payload.experimentId b.payload.experimentFolder).Pairwise
      (fun x y => newerFirst x y = true) := ranked_pairwise _
  exact left_out (hranked.filter _) (List.mem_filter.mpr ⟨hmem, hretainable⟩) hout

theorem mem_out (hok : b.retain keep = .ok out) : e ∈ out.entries ↔ e ∈ b.published.entries ∧
    (e.owned = false ∨ e.name = b.entry.name ∨ ∃ c ∈ b.others keep, c.2.name = e.name) := by
  rw [retain_entries hok, List.mem_filter, Bool.or_eq_true, Bool.not_eq_true', List.contains_cons, Bool.or_eq_true,
    beq_iff_eq, List.contains_iff_mem, List.mem_map]

/-- The published snapshot is newer than every other valid one, unless that one has the last number. -/
theorem published_newer {p : SnapshotPayload} (he : e ∈ store.entries) (hload : e.folder.load = .ok p)
    (hlast : e.number ≠ some lastSequence) : b.entry.Newer e := by
  obtain ⟨n, hn⟩ := number_of_load hload
  have hfound : e ∈ store.found := found_of_load he hload
  obtain ⟨hpos, hle⟩ := number_bounds hn
  have hne : n ≠ lastSequence := fun h => hlast (h ▸ hn)
  exact ⟨_, n, b.number, hn, .inl (lt_nextSequence (mem_read b.sequences hfound hn) hpos (lt_of_le_of_ne hle hne))⟩

/-- A store whose sequence numbers could be read has headers that can be ranked. -/
theorem candidate_total (b : Build store) (he : e ∈ b.published.entries) :
    ∃ read, e.candidate experimentId experimentFolder = .ok read := by
  unfold StoreEntry.candidate
  by_cases howned : (e.owned && !e.linkedManifest) = true
  · rw [if_pos howned]
    cases hheader : e.header with
    | ok h => exact ⟨_, rfl⟩
    | error raised =>
      have hkind : e.kind ≠ .file := by
        intro hfile
        unfold StoreEntry.owned at howned
        rw [hfile] at howned
        cases howned
      have hpassed : raised.kind = .os ∨ raised.kind = .fileNotFound ∨ raised.kind = .value ∨ raised.kind = .type := by
        by_cases hexists : e.manifestExists = true
        · obtain hold | rfl := Build.mem_published.mp he
          · have hfound : e ∈ store.found := by
              apply List.mem_filter.mpr
              rw [hexists, bne_iff_ne.mpr hkind]
              exact ⟨hold, rfl⟩
            obtain ⟨n, hn⟩ := readSequences_each b.sequences e hfound
            unfold StoreEntry.readSequence at hn
            rw [hheader] at hn
            dsimp only at hn
            split at hn
            · next h => tauto
            · cases hn
          · have hnumber := b.number
            unfold StoreEntry.number at hnumber
            rw [hheader] at hnumber
            cases hnumber
        · obtain ⟨raised', hraised, hclass⟩ := e.missing (Bool.eq_false_of_not_eq_true hexists)
          obtain rfl := Except.error.inj (hheader.symm.trans hraised)
          tauto
      exact ⟨none, if_pos hpassed⟩
  · exact ⟨none, if_neg howned⟩

theorem retain_total (b : Build store) (keep : Nat) (h : ∀ e ∈ store.entries, e.owned = true → e.Handled) :
    ∃ out, b.retain keep = .ok out := by
  have hheaders : retentionCandidates b.published b.payload.experimentId b.payload.experimentFolder = .ok _ :=
    retentionCandidates_eq (fun _ he => candidate_total b he)
  obtain ⟨retained, hretained⟩ := selectRetained_total b.payload.experimentId b.payload.experimentFolder b.entry.name keep
    (headers b.published b.payload.experimentId b.payload.experimentFolder) (by
      intro c hc
      obtain ⟨he, howned, -⟩ := mem_headers hc
      obtain hold | hnew := Build.mem_published.mp he
      · exact h _ hold howned
      · intro raised hload
        rw [hnew, b.valid] at hload
        cases hload) [b.entry.name]
  unfold Build.retain retainSnapshots
  rw [hheaders, ok_bind, hretained]
  exact ⟨_, rfl⟩

theorem few_owned (hkeep : 1 ≤ keep) (hok : b.retain keep = .ok out) :
    (out.entries.filter StoreEntry.owned).length ≤ keep := by
  have hnodup : ((out.entries.filter StoreEntry.owned).map StoreEntry.name).Nodup :=
    (List.filter_sublist.map StoreEntry.name).nodup out.distinct
  have hsubset : (out.entries.filter StoreEntry.owned).map StoreEntry.name ⊆
      b.entry.name :: (b.others keep).map (·.2.name) := by
    intro name hname
    obtain ⟨e, he, rfl⟩ := List.mem_map.mp hname
    obtain ⟨hout, howned⟩ := List.mem_filter.mp he
    obtain ⟨-, hnot | hsame | ⟨c, hc, hsame⟩⟩ := (mem_out hok).mp hout
    · rw [howned] at hnot
      cases hnot
    · exact hsame ▸ List.mem_cons_self
    · exact List.mem_cons_of_mem _ (List.mem_map.mpr ⟨c, hc, hsame⟩)
  have hle := (List.subperm_of_subset hnodup hsubset).length_le
  rw [List.length_map, List.length_cons, List.length_map] at hle
  have := others_length b keep
  omega

/-- A valid snapshot that is deleted ranks behind the published one and all others that are kept. -/
theorem deleted_behind (hkeep : 1 ≤ keep) (hlast : b.NotExhausted) (hok : b.retain keep = .ok out)
    (he : e ∈ b.published.entries) (hgone : e ∉ out.entries) (hvalid : b.Valid e) :
    ∃ kept : List StoreEntry, kept.Nodup ∧ kept.length = keep ∧ ∀ x ∈ kept, x ∈ out.entries ∧ b.Valid x ∧ x.Newer e := by
  have hnot := fun h => hgone ((mem_out hok).mpr ⟨he, h⟩)
  have howned : e.owned = true := by
    by_contra h
    exact hnot (.inl (Bool.not_eq_true _ ▸ h))
  have hname : e.name ≠ b.entry.name := fun h => hnot (.inr (.inl h))
  have hold : e ∈ store.entries := by
    obtain hold | rfl := Build.mem_published.mp he
    · exact hold
    · exact (hname rfl).elim
  obtain ⟨p, hload, hmatch⟩ := hvalid
  obtain ⟨hid, -, hfolder⟩ := matches_iff.mp hmatch
  obtain ⟨n, hnumber, hcandidate⟩ := valid_candidate hload hmatch howned
  have hmem : (n, e) ∈ headers b.published b.payload.experimentId b.payload.experimentFolder :=
    List.mem_mergeSort.mpr (List.mem_filterMap.mpr ⟨e, he, hcandidate⟩)
  have hretainable : retainable b.payload.experimentId b.payload.experimentFolder b.entry.name (n, e) = true := by
    unfold retainable
    dsimp only
    rw [hload, bne_iff_ne.mpr hname]
    exact hmatch
  have hout : (n, e) ∉ b.others keep := fun h => hnot (.inr (.inr ⟨_, h, rfl⟩))
  obtain ⟨hlength, hbefore⟩ := left_candidate hmem hretainable hout
  refine ⟨b.entry :: (b.others keep).map Prod.snd, ?_, ?_, ?_⟩
  · apply List.nodup_cons.mpr
    constructor
    · intro h
      obtain ⟨c, hc, hsame⟩ := List.mem_map.mp h
      exact (mem_others hc).2.2.2 (congrArg StoreEntry.name hsame)
    · apply List.Nodup.of_map StoreEntry.name
      rw [List.map_map]
      exact others_nodup b keep
  · rw [List.length_cons, List.length_map, hlength]
    omega
  · intro x hx
    obtain rfl | hx := List.mem_cons.mp hx
    · refine ⟨(mem_out hok).mpr ⟨Build.mem_published.mpr (.inr rfl), .inr (.inl rfl)⟩, b.valid_entry, ?_⟩
      exact published_newer hold hload (hlast e hold p hload hfolder hid)
    · obtain ⟨c, hc, rfl⟩ := List.mem_map.mp hx
      obtain ⟨hentry, hnumber', hvalid', -⟩ := mem_others hc
      refine ⟨(mem_out hok).mpr ⟨hentry, .inr (.inr ⟨c, hc, rfl⟩)⟩, hvalid', ?_⟩
      apply newer_of_before (hbefore c hc) _ hnumber' hnumber
      intro hsame
      exact hnot (.inr (.inr ⟨c, hc, hsame⟩))

/-- The newest snapshot that a scan accepts is the published one. -/
theorem latest_published (hlast : b.NotExhausted) (hok : b.retain keep = .ok out)
    (hahead : ∀ e ∈ out.entries, b.Ahead e → e.Handled) : latestValid out b.payload.experimentFolder = .ok b.entry := by
  have hstays : b.entry ∈ out.entries := (mem_out hok).mpr ⟨Build.mem_published.mpr (.inr rfl), .inr (.inl rfl)⟩
  have hwithin : ∀ e ∈ out.entries, e ∈ store.entries ∨ e = b.entry := fun e he => Build.mem_published.mp ((mem_out hok).mp he).1
  have hreads : ∀ e ∈ out.found, ∃ n, e.readSequence = .ok n := by
    intro e he
    obtain ⟨hout, hfound⟩ := List.mem_filter.mp he
    obtain hold | rfl := hwithin e hout
    · exact readSequences_each b.sequences e (List.mem_filter.mpr ⟨hold, hfound⟩)
    · exact ⟨_, readSequence_of_number b.number⟩
  have hread : foundSequence b.entry = (some (nextSequence b.read), b.entry) := by
    unfold foundSequence
    rw [readSequence_of_number b.number]
  unfold latestValid
  rw [readSequences_eq hreads, ok_bind]
  refine readCandidates_eq (c := (nextSequence b.read, b.entry)) _ _
    (find_first (ranked_pairwise _) ?_ ?_ ?_) (ranked_pairwise _) ?_
  · apply List.mem_mergeSort.mpr
    apply List.mem_filterMap.mpr
    refine ⟨foundSequence b.entry, List.mem_map.mpr ⟨_, found_of_load hstays b.valid, rfl⟩, ?_⟩
    rw [hread]
    rfl
  · exact accepted_iff.mpr ⟨b.payload, b.valid, rfl, b.named⟩
  · intro ⟨m, e⟩ hc haccepted hbefore
    obtain ⟨hfound, hm⟩ := mem_scan hc
    obtain hold | rfl := hwithin e (List.mem_filter.mp hfound).1
    · obtain ⟨p, hload, hfolder, hid⟩ := accepted_iff.mp haccepted
      have hnewer : b.entry.Newer e := published_newer hold hload (hlast e hold p hload hfolder hid)
      obtain ⟨n, hn⟩ := number_of_load hload
      have hsame : (foundSequence e).1 = some n := by
        unfold foundSequence
        rw [readSequence_of_number hn]
      obtain rfl := Option.some.inj (hm.symm.trans hsame)
      exact absurd hbefore (not_before_of_newer (a := (nextSequence b.read, b.entry)) hnewer b.number hn)
    · rw [hread] at hm
      rw [Option.some.inj hm]
  · intro ⟨m, e⟩ hc hbefore
    obtain ⟨hfound, hm⟩ := mem_scan hc
    obtain ⟨n, hn⟩ := hreads e hfound
    unfold foundSequence at hm
    rw [hn] at hm
    obtain rfl : n = some m := hm
    exact hahead e (List.mem_filter.mp hfound).1 ⟨m, hn, hbefore⟩

theorem retention_keeps_newest (b : Build store) (keep : Nat) (hkeep : 1 ≤ keep) (hlast : b.NotExhausted) :
    ((∀ e ∈ store.entries, e.owned = true → e.Handled) → ∃ out, b.retain keep = .ok out) ∧
    ∀ out, b.retain keep = .ok out → KeepsNewest b keep out ∧
      ((∀ e ∈ out.entries, b.Ahead e → e.Handled) → latestValid out b.payload.experimentFolder = .ok b.entry) := by
  refine ⟨retain_total b keep, ?_⟩
  intro out hok
  refine ⟨⟨?_, few_owned hkeep hok, ?_, ?_⟩, latest_published hlast hok⟩
  · exact (mem_out hok).mpr ⟨Build.mem_published.mpr (.inr rfl), .inr (.inl rfl)⟩
  · exact fun e he hgone hvalid => deleted_behind hkeep hlast hok he hgone hvalid
  · intro e he hgone
    by_contra howned
    exact hgone ((mem_out hok).mpr ⟨he, .inl (Bool.not_eq_true _ ▸ howned)⟩)

def pairPayload (name : String) : SnapshotPayload := ⟨name, "experiment", "folder", [], [], Dict.empty⟩

/-- A folder whose every file is as it should be. -/
def pairFolder (name : String) : SnapshotFolder where
  confined := true
  manifestConfined := true
  manifest := .ok (pairPayload name)
  membersConfined := true
  filesTop := ⟨true, []⟩
  journalTop := ⟨true, []⟩
  state := .ok pausedRunner.runner.state
  templatePath := true
  template := .ok true
  modules := [.ok true]
  present := fun _ => true
  exportConfined := fun _ _ => true
  journalManifest := .ok true
  journal := .ok ()

theorem pairFolder_load (name : String) : (pairFolder name).load = .ok (pairPayload name) := rfl

def pairEntry (name : String) (sequence : Int) (hpos : 0 < sequence) (hle : sequence ≤ lastSequence) : StoreEntry where
  name := name
  kind := .directory
  linkedManifest := false
  manifestExists := true
  header := .ok ⟨some sequence, name, "experiment", "folder", true⟩
  folder := pairFolder name
  direct := fun _ => rfl
  own := fun _ => rfl
  sameManifest := by
    intro p hp
    obtain rfl := Except.ok.inj hp
    refine ⟨rfl, _, sequence, rfl, ?_, rfl, rfl, rfl⟩
    show (some sequence).filter (fun n => decide (0 < n ∧ n ≤ lastSequence)) = some sequence
    exact Option.filter_some_pos (decide_eq_true ⟨hpos, hle⟩)
  missing := by
    intro h
    cases h

theorem pairEntry_handled (name : String) {sequence : Int} (hpos : 0 < sequence) (hle : sequence ≤ lastSequence) :
    (pairEntry name sequence hpos hle).Handled := by
  intro raised h
  rw [show (pairEntry name sequence hpos hle).folder.load = _ from pairFolder_load name] at h
  cases h

def firstName : String := "00000000-0000-0000-0000-000000000001"

def secondName : String := "00000000-0000-0000-0000-000000000002"

theorem secondName_uuid : uuidText secondName = true := by decide +kernel

/-- A store with one snapshot. -/
def pairStore (sequence : Int) (hpos : 0 < sequence) (hle : sequence ≤ lastSequence) : SnapshotStore where
  entries := [pairEntry firstName sequence hpos hle]
  distinct := List.nodup_singleton _

/-- The snapshot that comes after the one of the store. -/
def pairBuild (sequence : Int) (hpos : 0 < sequence) (hle : sequence ≤ lastSequence) (next : Int) (hpos' : 0 < next)
    (hle' : next ≤ lastSequence) (hnext : nextSequence [(some sequence, pairEntry firstName sequence hpos hle)] = next) :
    Build (pairStore sequence hpos hle) where
  entry := pairEntry secondName next hpos' hle'
  payload := pairPayload secondName
  uuid := secondName_uuid
  fresh := by
    show secondName ∉ [firstName]
    decide
  valid := pairFolder_load secondName
  named := rfl
  read := [(some sequence, pairEntry firstName sequence hpos hle)]
  sequences := rfl
  number := by
    show (some next).filter (fun n => decide (0 < n ∧ n ≤ lastSequence)) = _
    rw [hnext]
    exact Option.filter_some_pos (decide_eq_true ⟨hpos', hle'⟩)

theorem pairEntry_number (name : String) {sequence : Int} (hpos : 0 < sequence) (hle : sequence ≤ lastSequence) :
    (pairEntry name sequence hpos hle).number = some sequence := by
  show (some sequence).filter (fun n => decide (0 < n ∧ n ≤ lastSequence)) = some sequence
  exact Option.filter_some_pos (decide_eq_true ⟨hpos, hle⟩)

theorem pairBuild_retains {sequence next : Int} {hpos : 0 < sequence} {hle : sequence ≤ lastSequence} {hpos' : 0 < next}
    {hle' : next ≤ lastSequence} {hnext} (keep : Nat) :
    ∃ out, (pairBuild sequence hpos hle next hpos' hle' hnext).retain keep = .ok out := by
  apply retain_total
  intro e he _
  obtain rfl := List.mem_singleton.mp he
  exact pairEntry_handled firstName hpos hle

theorem retention_keeps_newest_pair : ∃ (store : SnapshotStore) (b : Build store) (out : SnapshotStore),
    b.retain 1 = .ok out ∧ b.entry.number = some 5 ∧ KeepsNewest b 1 out ∧
      latestValid out b.payload.experimentFolder = .ok b.entry := by
  have hle : (4 : Int) ≤ lastSequence := by decide
  have hle' : (5 : Int) ≤ lastSequence := by decide
  let b := pairBuild 4 (by decide) hle 5 (by decide) hle' rfl
  have hlast : b.NotExhausted := by
    intro e he p _ _ _ hnumber
    obtain rfl := List.mem_singleton.mp he
    rw [pairEntry_number] at hnumber
    cases hnumber
  obtain ⟨hreturns, hkeeps⟩ := retention_keeps_newest b 1 (Nat.le_refl 1) hlast
  obtain ⟨out, hok⟩ := hreturns (by
    intro e he _
    obtain rfl := List.mem_singleton.mp he
    exact pairEntry_handled firstName _ _)
  obtain ⟨hnewest, hlatest⟩ := hkeeps out hok
  refine ⟨_, b, out, hok, pairEntry_number secondName (by decide) hle', hnewest, hlatest ?_⟩
  intro e he _
  obtain hfirst | rfl := Build.mem_published.mp ((mem_out hok).mp he).1
  · obtain rfl := List.mem_singleton.mp hfirst
    exact pairEntry_handled firstName _ _
  · exact pairEntry_handled secondName (by decide) hle'

/-- The old snapshot has the last sequence number, so the new one gets the first and the old one is deleted. -/
theorem exhausted_sequence_deleted : ¬ ∀ (store : SnapshotStore) (b : Build store) (keep : Nat) (out : SnapshotStore),
    1 ≤ keep → b.retain keep = .ok out →
      KeepsNewest b keep out ∧ latestValid out b.payload.experimentFolder = .ok b.entry := by
  intro hclaim
  have hpos : (0 : Int) < lastSequence := by decide
  have hle : (1 : Int) ≤ lastSequence := by decide
  let b := pairBuild lastSequence hpos (Int.le_refl _) 1 (by decide) hle rfl
  obtain ⟨out, hok⟩ : ∃ out, b.retain 1 = .ok out := pairBuild_retains 1
  have hold : pairEntry firstName lastSequence hpos (Int.le_refl _) ∈ b.published.entries := List.mem_cons_self
  have hgone : pairEntry firstName lastSequence hpos (Int.le_refl _) ∉ out.entries := by
    intro hstays
    obtain ⟨-, hnot | hname | ⟨c, hc, -⟩⟩ := (mem_out hok).mp hstays
    · have howned : uuidText firstName = true := by decide +kernel
      change (true && uuidText firstName) = false at hnot
      rw [howned] at hnot
      cases hnot
    · have hne : firstName ≠ secondName := by decide
      exact hne hname
    · exact List.not_mem_nil hc
  obtain ⟨kept, -, hlength, hkept⟩ := (hclaim _ b 1 out (Nat.le_refl 1) hok).1.newest _ hold hgone
    ⟨_, pairFolder_load firstName, matches_iff.mpr ⟨rfl, rfl, rfl⟩⟩
  obtain ⟨x, rfl⟩ := List.length_eq_one_iff.mp hlength
  obtain ⟨hx, -, m, n, hm, hn, hnewer⟩ := hkept x List.mem_cons_self
  rw [pairEntry_number] at hn
  obtain rfl := Option.some.inj hn
  obtain hfirst | rfl := Build.mem_published.mp ((mem_out hok).mp hx).1
  · obtain rfl := List.mem_singleton.mp hfirst
    exact hgone hx
  · have hnumber : b.entry.number = some 1 := pairEntry_number secondName (by decide) hle
    obtain rfl := Option.some.inj (hm.symm.trans hnumber)
    unfold lastSequence at hnewer
    omega

end ModularPipelines.Snapshots
