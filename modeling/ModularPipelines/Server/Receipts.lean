import ModularPipelines.Server.Pruning

namespace ModularPipelines.Server
open Library

namespace ServerRuntime

variable {settings : ServerSettings} {m m' m'' : ServerRuntime} {now required : Nat} {i c : String} {r : CommandRecord}
  {f : Finished} {ids : List String}

/-- Receipts have been evicted, and with them the chains without a retained member. -/
structure Evicted (m m' : ServerRuntime) : Prop where
  dropped : Dropped { m with chains := m'.chains } m'
  chains : ∀ c, m'.chains.get? c = (m.chains.get? c).filter (fun ids => ids.any m'.records.contains)

theorem Dropped.setChains (h : Dropped m m') (chains : Dict (List String)) :
    Dropped { m with chains := chains } { m' with chains := chains } := by
  refine ⟨?_, h.keeps, h.finished, h.ledger, h.history⟩
  have hframe := h.frame
  rw [hframe]

theorem Evicted.trans (h : Evicted m m') (h' : Evicted m' m'') : Evicted m m'' := by
  refine ⟨(h.dropped.setChains m''.chains).trans h'.dropped, ?_⟩
  intro c
  rw [h'.chains, h.chains, Option.filter_filter]
  congr 1
  funext ids
  cases hlast : ids.any m''.records.contains with
  | false => rw [Bool.and_false]
  | true =>
    obtain ⟨i, hi, hin⟩ := List.any_eq_true.mp hlast
    rw [Bool.and_true]
    exact List.any_eq_true.mpr ⟨i, hi, h'.dropped.contains hin⟩

theorem prune_dropped (hunique : m.records.Unique) (settings : ServerSettings) (now required : Nat) :
    Dropped m (m.finishedRecords.foldl (evict settings now required) m) :=
  foldl_evict_dropped settings now required _ m (finishedRecords_listed hunique) (finishedRecords_keys hunique)

theorem prune_evicted (hunique : m.records.Unique) (settings : ServerSettings) (now required : Nat) :
    Evicted m (m.prune settings now required) := by
  have hdropped := prune_dropped hunique settings now required
  have hchains : (m.finishedRecords.foldl (evict settings now required) m).chains = m.chains := by
    rw [hdropped.frame]
  unfold prune
  constructor
  · exact hdropped.setChains _
  · intro c
    show (Dict.keep _ _).get? c = _
    rw [Dict.get?_keep, hchains]
    show _ = (m.chains.get? c).filter
      (fun ids => ids.any (m.finishedRecords.foldl (evict settings now required) m).records.contains)
    cases m.chains.get? c with
    | none => exact ite_self none
    | some ids => rfl

/-- What pruning leaves fits, or no finished record is left. -/
theorem prune_fits (hunique : m.records.Unique) (hcrowded : (m.prune settings now required).Crowded settings required) :
    ∀ i r, (m.prune settings now required).records.get? i = some r → r.pending = true := by
  intro i r hget
  have hdropped := prune_dropped hunique settings now required
  have hold : m.records.get? i = some r := hdropped.get? hget
  unfold CommandRecord.pending
  cases hf : r.finished with
  | none => rfl
  | some f =>
    have hmem : (i, f) ∈ m.finishedRecords := mem_finishedRecords.mpr ⟨r, Dict.mem_of_get? hold, hf⟩
    have hgone := foldl_evict_exhausted _ m (finishedRecords_listed hunique) (finishedRecords_keys hunique) hcrowded _ hmem
    change (m.finishedRecords.foldl (evict settings now required) m).records.get? i = some r at hget
    rw [hgone] at hget
    cases hget

/-- What holds of the retained records in every reachable state. -/
structure Kept (settings : ServerSettings) (m : ServerRuntime) : Prop where
  unique : m.records.Unique
  cache : m.cacheBytes = (m.records.total recordSize : Nat)
  room : m.records.entries.length ≤ settings.maxRecords
  chains : ∀ c ids, m.chains.get? c = some ids → ids.any m.records.contains = true
  reads : ∀ i, m.reads.contains i = true → m.records.contains i = false

theorem Kept.frame (h : m.Kept settings) (hrecords : m'.records = m.records) (hchains : m'.chains = m.chains)
    (hcache : m'.cacheBytes = m.cacheBytes)
    (hreads : ∀ i, m'.reads.contains i = true → m.reads.contains i = true ∨ m.records.contains i = false) :
    m'.Kept settings := by
  refine ⟨hrecords ▸ h.unique, ?_, hrecords ▸ h.room, ?_, ?_⟩
  · rw [hcache, hrecords]
    exact h.cache
  · rw [hchains, hrecords]
    exact h.chains
  · intro i hread
    rw [hrecords]
    obtain hold | hnot := hreads i hread
    · exact h.reads i hold
    · exact hnot

theorem Evicted.kept (h : Evicted m m') (hk : m.Kept settings) : m'.Kept settings := by
  have hdropped := h.dropped
  have hlength := hdropped.total_le (fun _ _ => 1)
  rw [Dict.total_one, Dict.total_one] at hlength
  have hreads : m'.reads = m.reads := by rw [hdropped.frame]
  refine ⟨hdropped.unique hk.unique, ?_, Nat.le_trans hlength hk.room, ?_, ?_⟩
  · have hledger := hdropped.ledger hk.unique
    have hcache := hk.cache
    change m'.cacheBytes + (m.records.total recordSize : Nat) = m.cacheBytes + (m'.records.total recordSize : Nat) at hledger
    omega
  · intro c ids hget
    rw [h.chains] at hget
    exact (Option.filter_eq_some_iff.mp hget).2
  · intro i hread
    rw [hreads] at hread
    by_contra hin
    have hold : m.records.contains i = true := hdropped.contains (Bool.not_eq_false _ ▸ hin)
    rw [hk.reads i hread] at hold
    cases hold

theorem Kept.prune (h : m.Kept settings) (now required : Nat) : (m.prune settings now required).Kept settings :=
  (prune_evicted h.unique settings now required).kept h

/-- After a pruning the cache fits, whatever it was before. -/
theorem Kept.prune_cache (h : m.Kept settings) (now required : Nat) :
    (m.prune settings now required).cacheBytes ≤ settings.maxCacheBytes := by
  have hk := h.prune now required
  by_contra hcrowded
  have hfull : (m.prune settings now required).Crowded settings required := .inr (Int.not_le.mp hcrowded)
  have hzero : (m.prune settings now required).records.total recordSize =
      (m.prune settings now required).records.total (fun _ _ => 0) := by
    apply Dict.total_congr
    intro e he
    have hp := prune_fits h.unique hfull e.1 e.2 (hk.unique.get? he)
    unfold CommandRecord.pending at hp
    unfold recordSize CommandRecord.size
    rw [Option.isNone_iff_eq_none.mp hp]
    rfl
  have hnone : (m.prune settings now required).records.total (fun _ _ => 0) = 0 := by simp [Dict.total]
  have hcache := hk.cache
  omega

end ServerRuntime

end ModularPipelines.Server
