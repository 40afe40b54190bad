import ModularPipelines.Library.Totals
import ModularPipelines.Server.Lifecycle

namespace ModularPipelines.Server
open Library

namespace ServerRuntime

variable {settings : ServerSettings} {m m' m'' : ServerRuntime} {now required : Nat} {i c : String} {r : CommandRecord}
  {f : Finished} {event : ReceiptEvent}

def recordSize (_ : String) (r : CommandRecord) : Nat := r.size

/-- Some finished records have been dropped, and nothing else has changed. -/
structure Dropped (m m' : ServerRuntime) : Prop where
  frame : m' = { m with records := m'.records, cacheBytes := m'.cacheBytes, history := m'.history }
  keeps : ∃ p, m'.records = m.records.keep p
  finished : ∀ i r, m.records.get? i = some r → m'.records.get? i = none → r.pending = false
  ledger : m.records.Unique →
    m'.cacheBytes + (m.records.total recordSize : Nat) = m.cacheBytes + (m'.records.total recordSize : Nat)
  history : ∃ news, m'.history = m.history ++ news ∧
    ∀ event, event ∈ news ↔ ∃ i, event = .evicted i ∧ m.records.contains i = true ∧ m'.records.contains i = false

theorem Dropped.refl (m : ServerRuntime) : Dropped m m := by
  refine ⟨rfl, ⟨_, (Dict.keep_true _).symm⟩, ?_, fun _ => rfl, ⟨[], (List.append_nil _).symm, ?_⟩⟩
  · intro i r hsome hnone
    rw [hsome] at hnone
    cases hnone
  · intro event
    constructor
    · exact fun h => (List.not_mem_nil h).elim
    · rintro ⟨i, -, hin, hout⟩
      rw [hin] at hout
      cases hout

theorem Dropped.get? (h : Dropped m m') (hget : m'.records.get? i = some r) : m.records.get? i = some r := by
  obtain ⟨p, hp⟩ := h.keeps
  rw [hp, Dict.get?_keep] at hget
  cases hpi : p i with
  | true => rwa [hpi, if_pos rfl] at hget
  | false => rw [hpi] at hget; cases hget

theorem Dropped.contains (h : Dropped m m') (hin : m'.records.contains i = true) : m.records.contains i = true := by
  obtain ⟨r, hr⟩ := Option.isSome_iff_exists.mp hin
  exact Option.isSome_iff_exists.mpr ⟨r, h.get? hr⟩

theorem Dropped.get?_of_contains (h : Dropped m m') (hin : m'.records.contains i = true) :
    m'.records.get? i = m.records.get? i := by
  obtain ⟨r, hr⟩ := Option.isSome_iff_exists.mp hin
  rw [hr, h.get? hr]

theorem Dropped.pending (h : Dropped m m') (hget : m.records.get? i = some r) (hpending : r.pending = true) :
    m'.records.get? i = some r := by
  cases hnew : m'.records.get? i with
  | none =>
    rw [h.finished i r hget hnew] at hpending
    cases hpending
  | some r' => rw [← hget, h.get? hnew]

theorem Dropped.unique (h : Dropped m m') (hunique : m.records.Unique) : m'.records.Unique := by
  obtain ⟨p, hp⟩ := h.keeps
  rw [hp]
  exact hunique.keep p

theorem Dropped.total_le (h : Dropped m m') (w : String → CommandRecord → Nat) :
    m'.records.total w ≤ m.records.total w := by
  obtain ⟨p, hp⟩ := h.keeps
  rw [hp]
  exact Dict.total_keep_le _ _

theorem Dropped.trans (h : Dropped m m') (h' : Dropped m' m'') : Dropped m m'' := by
  refine ⟨?_, ?_, ?_, ?_, ?_⟩
  · rw [h'.frame, h.frame]
  · obtain ⟨p, hp⟩ := h.keeps
    obtain ⟨q, hq⟩ := h'.keeps
    exact ⟨_, by rw [hq, hp, Dict.keep_keep]⟩
  · intro i r hget hnone
    cases hmid : m'.records.get? i with
    | none => exact h.finished i r hget hmid
    | some r' =>
      have hsame : r' = r := Option.some.inj ((h.get? hmid).symm.trans hget)
      exact h'.finished i r (hsame ▸ hmid) hnone
  · intro hunique
    have := h.ledger hunique
    have := h'.ledger (h.unique hunique)
    omega
  · obtain ⟨news, hnews, hmem⟩ := h.history
    obtain ⟨news', hnews', hmem'⟩ := h'.history
    refine ⟨news ++ news', by rw [hnews', hnews, List.append_assoc], ?_⟩
    intro event
    rw [List.mem_append, hmem, hmem']
    constructor
    · rintro (⟨i, rfl, hin, hout⟩ | ⟨i, rfl, hin, hout⟩)
      · refine ⟨i, rfl, hin, ?_⟩
        cases hlast : m''.records.contains i with
        | false => rfl
        | true => rw [h'.contains hlast] at hout; cases hout
      · exact ⟨i, rfl, h.contains hin, hout⟩
    · rintro ⟨i, rfl, hin, hout⟩
      cases hmid : m'.records.contains i with
      | false => exact .inl ⟨i, rfl, hin, hmid⟩
      | true => exact .inr ⟨i, rfl, hmid, hout⟩

/-- The record of an entry that pruning looks at is there, with this outcome. -/
def Listed (m : ServerRuntime) (entry : String × Finished) : Prop :=
  ∃ r, m.records.get? entry.1 = some r ∧ r.finished = some entry.2

theorem evict_dropped (settings : ServerSettings) (now required : Nat) {entry : String × Finished} (h : m.Listed entry) :
    Dropped m (evict settings now required m entry) := by
  obtain ⟨r, hget, hfinished⟩ := h
  unfold evict
  split
  · refine ⟨rfl, ⟨fun k => k != entry.1, rfl⟩, ?_, ?_, ⟨[.evicted entry.1], rfl, ?_⟩⟩
    · intro i r' hget' hnone
      rw [Dict.get?_pop] at hnone
      by_cases hi : i = entry.1
      · subst hi
        obtain rfl := Option.some.inj (hget.symm.trans hget')
        unfold CommandRecord.pending
        rw [hfinished]
        rfl
      · rw [if_neg hi, hget'] at hnone
        cases hnone
    · intro hunique
      have htotal := Dict.total_pop (w := recordSize) hunique hget
      have hsize : recordSize entry.1 r = entry.2.size := by
        unfold recordSize CommandRecord.size
        rw [hfinished]
        rfl
      show m.cacheBytes - entry.2.size + _ = m.cacheBytes + ((m.records.pop entry.1).total recordSize : Nat)
      omega
    · intro event
      rw [List.mem_singleton]
      unfold Dict.contains
      constructor
      · rintro rfl
        exact ⟨_, rfl, by rw [hget]; rfl, by simp⟩
      · rintro ⟨i, rfl, hin, hout⟩
        by_cases hi : i = entry.1
        · rw [hi]
        · rw [Dict.get?_pop, if_neg hi, hin] at hout
          cases hout
  · exact Dropped.refl m

theorem evict_listed {entry other : String × Finished} (h : m.Listed other) (hne : other.1 ≠ entry.1) :
    (evict settings now required m entry).Listed other := by
  unfold evict
  split
  · obtain ⟨r, hget, hfinished⟩ := h
    refine ⟨r, ?_, hfinished⟩
    show (m.records.pop entry.1).get? other.1 = some r
    rw [Dict.get?_pop, if_neg hne]
    exact hget
  · exact h

theorem foldl_evict_dropped (settings : ServerSettings) (now required : Nat) (entries : List (String × Finished)) :
    ∀ m : ServerRuntime, (∀ e ∈ entries, m.Listed e) → (entries.map Prod.fst).Nodup →
      Dropped m (entries.foldl (evict settings now required) m) := by
  induction entries with
  | nil => exact fun m _ _ => Dropped.refl m
  | cons entry rest ih =>
    intro m hlisted hnodup
    obtain ⟨hnot, hrest⟩ := List.nodup_cons.mp hnodup
    refine (evict_dropped settings now required (hlisted entry List.mem_cons_self)).trans (ih _ ?_ hrest)
    intro other hother
    refine evict_listed (hlisted other (List.mem_cons_of_mem _ hother)) ?_
    intro hsame
    exact hnot (hsame ▸ List.mem_map_of_mem hother)

theorem mem_finishedRecords {entry : String × Finished} :
    entry ∈ m.finishedRecords ↔ ∃ r, (entry.1, r) ∈ m.records.entries ∧ r.finished = some entry.2 := by
  unfold finishedRecords
  rw [List.mem_mergeSort, List.mem_filterMap]
  constructor
  · rintro ⟨⟨i, r⟩, hmem, hsome⟩
    obtain ⟨f, hf, rfl⟩ := Option.map_eq_some_iff.mp hsome
    exact ⟨r, hmem, hf⟩
  · rintro ⟨r, hmem, hf⟩
    refine ⟨(entry.1, r), hmem, ?_⟩
    rw [hf]
    rfl

theorem finishedRecords_keys (h : m.records.Unique) : (m.finishedRecords.map Prod.fst).Nodup := by
  have hperm : (m.finishedRecords.map Prod.fst).Perm
      ((m.records.entries.filterMap (fun e => e.2.finished.map (fun f => (e.1, f)))).map Prod.fst) :=
    (List.mergeSort_perm _ _).map _
  rw [hperm.nodup_iff, List.map_filterMap]
  have hsub : List.Sublist (m.records.entries.filterMap
      (fun e => (e.2.finished.map (fun f => (e.1, f))).map Prod.fst)) (m.records.entries.map Prod.fst) := by
    generalize m.records.entries = entries
    induction entries with
    | nil => exact List.Sublist.slnil
    | cons entry rest ih =>
      cases hf : entry.2.finished with
      | none => rw [List.filterMap_cons_none (by rw [hf]; rfl)]; exact ih.cons _
      | some f => rw [List.filterMap_cons_some (b := entry.1) (by rw [hf]; rfl)]; exact ih.cons_cons _
  exact hsub.nodup h

theorem finishedRecords_listed (h : m.records.Unique) : ∀ e ∈ m.finishedRecords, m.Listed e := by
  intro e he
  obtain ⟨r, hmem, hf⟩ := mem_finishedRecords.mp he
  exact ⟨r, h.get? hmem, hf⟩

theorem evict_smaller (settings : ServerSettings) (now required : Nat) (m : ServerRuntime) (entry : String × Finished) :
    (evict settings now required m entry).cacheBytes ≤ m.cacheBytes ∧
      (evict settings now required m entry).records.entries.length ≤ m.records.entries.length := by
  unfold evict
  split
  · refine ⟨?_, List.length_filter_le _ _⟩
    show m.cacheBytes - entry.2.size ≤ m.cacheBytes
    omega
  · exact ⟨Int.le_refl _, Nat.le_refl _⟩

theorem foldl_evict_smaller (entries : List (String × Finished)) : ∀ m : ServerRuntime,
    (entries.foldl (evict settings now required) m).cacheBytes ≤ m.cacheBytes ∧
      (entries.foldl (evict settings now required) m).records.entries.length ≤ m.records.entries.length := by
  induction entries with
  | nil => exact fun m => ⟨Int.le_refl _, Nat.le_refl _⟩
  | cons entry rest ih =>
    intro m
    obtain ⟨hbytes, hlength⟩ := evict_smaller settings now required m entry
    obtain ⟨hbytes', hlength'⟩ := ih (evict settings now required m entry)
    exact ⟨Int.le_trans hbytes' hbytes, Nat.le_trans hlength' hlength⟩

/-- There is too much to keep all finished records. -/
def Crowded (settings : ServerSettings) (required : Nat) (m : ServerRuntime) : Prop :=
  settings.maxRecords < m.records.entries.length + required ∨ (settings.maxCacheBytes : Int) < m.cacheBytes

theorem evicts_iff : m.evicts settings now required f = true ↔
    f.finishedAt + settings.resultTtl ≤ now ∨ m.Crowded settings required := by
  unfold evicts Crowded
  rw [Bool.or_eq_true, Bool.or_eq_true, decide_eq_true_iff, decide_eq_true_iff, decide_eq_true_iff, or_assoc]

/-- Where there is still too much, every finished record has gone. -/
theorem foldl_evict_exhausted (entries : List (String × Finished)) : ∀ m : ServerRuntime, (∀ e ∈ entries, m.Listed e) →
    (entries.map Prod.fst).Nodup → (entries.foldl (evict settings now required) m).Crowded settings required →
      ∀ e ∈ entries, (entries.foldl (evict settings now required) m).records.get? e.1 = none := by
  induction entries with
  | nil => exact fun m _ _ _ e he => (List.not_mem_nil he).elim
  | cons entry rest ih =>
    intro m hlisted hnodup hcrowded e he
    obtain ⟨hnot, hrest⟩ := List.nodup_cons.mp hnodup
    have hlisted' : ∀ e ∈ rest, (evict settings now required m entry).Listed e := by
      intro other hother
      refine evict_listed (hlisted other (List.mem_cons_of_mem _ hother)) ?_
      intro hsame
      exact hnot (hsame ▸ List.mem_map_of_mem hother)
    obtain rfl | he := List.mem_cons.mp he
    · have hcrowded' : m.Crowded settings required := by
        obtain ⟨hbytes, hlength⟩ := @foldl_evict_smaller settings now required (e :: rest) m
        unfold Crowded at hcrowded ⊢
        omega
      have hgone : (evict settings now required m e).records.get? e.1 = none := by
        unfold evict
        rw [if_pos (evicts_iff.mpr (.inr hcrowded')), Dict.get?_pop, if_pos rfl]
      cases hlast : ((e :: rest).foldl (evict settings now required) m).records.get? e.1 with
      | none => rfl
      | some r =>
        rw [(foldl_evict_dropped settings now required rest _ hlisted' hrest).get? hlast] at hgone
        cases hgone
    · exact ih _ hlisted' hrest hcrowded e he

end ServerRuntime

end ModularPipelines.Server
