import ModularPipelines.Library.Outcome
import ModularPipelines.Server.Receipts
import Mathlib.Logic.Relation

namespace ModularPipelines.Server
open Library

/-- The place that is kept for a standalone stop and for a lifecycle command. -/
def Submission.extraPlace (s : Submission) : Nat := if s.priorityStop ∨ s.lifecycle.isSome then 1 else 0

namespace ServerRuntime

variable {settings : ServerSettings} {m m' m'' : ServerRuntime} {i : String} {r : CommandRecord} {s : Submission}
  {records : List CommandRecord}

def recordId (r : CommandRecord) : String := r.request.commandId

/-- What a submission needs before its records are inserted. -/
structure Insertable (settings : ServerSettings) (m : ServerRuntime) (s : Submission) (records : List CommandRecord) : Prop where
  ids : records.map recordId = s.identifiers
  new : ∀ r ∈ records, r.finished = none
  distinct : s.identifiers.Nodup
  absent : ∀ i ∈ s.identifiers, m.records.contains i = false
  unread : ∀ i ∈ s.identifiers, m.reads.contains i = false
  room : m.records.entries.length + records.length ≤ settings.maxRecords
  pending : m.pendingRecords.length + records.length ≤ settings.maxPending + s.extraPlace
  chain : ∀ c, s.chainId = some c → m.chains.contains c = false

/-- All that happens to the receipts. `answered` are the commands that a reply may be for, and `lost` says
whether the controller may have been lost. -/
inductive Change (settings : ServerSettings) (answered : String → Prop) (lost : Prop) (m : ServerRuntime) :
    ServerRuntime → Prop where
  | framed {m' : ServerRuntime} (records : m'.records = m.records) (chains : m'.chains = m.chains)
    (cache : m'.cacheBytes = m.cacheBytes) (history : m'.history = m.history)
    (reads : ∀ i, m'.reads.contains i = true → m.reads.contains i = true ∨ m.records.contains i = false) :
    Change settings answered lost m m'
  | evicted {m' : ServerRuntime} (evicted : Evicted m m') : Change settings answered lost m m'
  | finished {i : String} {r : CommandRecord} (f : Finished) (kept : m.records.get? i = some r) (unanswered : r.open? = true)
    (allowed : answered i) : Change settings answered lost m (m.finishRecord i r f)
  | lost (message : String) (stamps : String → Nat) (allowed : lost) :
    Change settings answered lost m (m.loseRecords message stamps)
  | inserted {s : Submission} {records : List CommandRecord} (insertable : Insertable settings m s records) :
    Change settings answered lost m (m.insertSubmission s records)

/-- Changes one after another. -/
def Changes (settings : ServerSettings) (answered : String → Prop) (lost : Prop) : ServerRuntime → ServerRuntime → Prop :=
  Relation.ReflTransGen (Change settings answered lost)

def waits (_ : String) (r : CommandRecord) : Nat := if r.pending then 1 else 0

theorem pendingRecords_length (m : ServerRuntime) : m.pendingRecords.length = m.records.total waits := by
  show ((m.records.entries.map Prod.snd).filter CommandRecord.pending).length
    = (m.records.entries.map fun e => waits e.1 e.2).sum
  induction m.records.entries with
  | nil => rfl
  | cons e rest ih =>
    rw [List.map_cons, List.filter_cons, List.map_cons, List.sum_cons, ← ih, waits]
    split
    · exact Nat.add_comm _ _
    · exact (Nat.zero_add _).symm

theorem insertRecords_other (h : i ∉ records.map recordId) (d : Dict CommandRecord) :
    (insertRecords d records).get? i = d.get? i := by
  induction records generalizing d with
  | nil => rfl
  | cons r rest ih =>
    have hne : i ≠ r.request.commandId := fun heq => h (heq ▸ List.mem_cons_self ..)
    show (insertRecords (d.set r.request.commandId r) rest).get? i = d.get? i
    rw [ih fun hi => h (List.mem_cons_of_mem _ hi), Dict.get?_set, if_neg hne]

theorem insertRecords_mem (hdistinct : (records.map recordId).Nodup) (hr : r ∈ records) (d : Dict CommandRecord) :
    (insertRecords d records).get? (recordId r) = some r := by
  induction records generalizing d with
  | nil => cases hr
  | cons first rest ih =>
    obtain ⟨hnot, hrest⟩ := List.nodup_cons.mp hdistinct
    rcases List.mem_cons.mp hr with rfl | hr
    · show (insertRecords (d.set r.request.commandId r) rest).get? (recordId r) = some r
      rw [insertRecords_other hnot, Dict.get?_set]
      exact if_pos rfl
    · exact ih hrest hr _

theorem insertRecords_unique {d : Dict CommandRecord} (h : d.Unique) (records : List CommandRecord) :
    (insertRecords d records).Unique := by
  induction records generalizing d with
  | nil => exact h
  | cons r rest ih => exact ih (h.set _ _)

theorem insertRecords_total (w : String → CommandRecord → Nat) (hdistinct : (records.map recordId).Nodup)
    {d : Dict CommandRecord} (habsent : ∀ r ∈ records, d.get? (recordId r) = none) :
    (insertRecords d records).total w = d.total w + (records.map fun r => w (recordId r) r).sum := by
  induction records generalizing d with
  | nil => rfl
  | cons r rest ih =>
    obtain ⟨hnot, hrest⟩ := List.nodup_cons.mp hdistinct
    have hset : (d.set (recordId r) r).total w = d.total w + w (recordId r) r :=
      Dict.total_set_new (habsent r (List.mem_cons_self ..))
    have htail : (insertRecords (d.set (recordId r) r) rest).total w
        = (d.set (recordId r) r).total w + (rest.map fun r => w (recordId r) r).sum := by
      apply ih hrest
      intro other hother
      have hne : recordId other ≠ recordId r := fun hsame => hnot (hsame ▸ List.mem_map_of_mem hother)
      rw [Dict.get?_set, if_neg hne]
      exact habsent other (List.mem_cons_of_mem _ hother)
    show (insertRecords (d.set (recordId r) r) rest).total w = _
    rw [htail, hset, List.map_cons, List.sum_cons]
    omega

theorem contains_false {α : Type} {d : Dict α} : d.contains i = false ↔ d.get? i = none := by
  rw [Dict.contains]
  cases d.get? i <;> simp

theorem insert_records (m : ServerRuntime) (s : Submission) (records : List CommandRecord) :
    (m.insertSubmission s records).records = insertRecords m.records records := by
  unfold insertSubmission
  cases s.lifecycle <;> rfl

theorem insert_reads (m : ServerRuntime) (s : Submission) (records : List CommandRecord) :
    (m.insertSubmission s records).reads = m.reads := by
  unfold insertSubmission
  cases s.lifecycle <;> rfl

theorem insert_cache (m : ServerRuntime) (s : Submission) (records : List CommandRecord) :
    (m.insertSubmission s records).cacheBytes = m.cacheBytes := by
  unfold insertSubmission
  cases s.lifecycle <;> rfl

theorem insert_chains (m : ServerRuntime) (s : Submission) (records : List CommandRecord) (c : String) :
    (m.insertSubmission s records).chains.get? c
      = if s.chainId = some c then some s.identifiers else m.chains.get? c := by
  unfold insertSubmission
  cases s.chainId with
  | none => cases s.lifecycle <;> rfl
  | some chainId =>
    have hset : (m.chains.set chainId s.identifiers).get? c
        = if some chainId = some c then some s.identifiers else m.chains.get? c := by
      rw [Dict.get?_set]
      by_cases hc : c = chainId
      · rw [if_pos hc, if_pos (congrArg some hc.symm)]
      · rw [if_neg hc, if_neg fun heq => hc (Option.some.inj heq).symm]
    cases s.lifecycle <;> exact hset

theorem insert_history (m : ServerRuntime) (s : Submission) (records : List CommandRecord) :
    (m.insertSubmission s records).history
      = m.history ++ if s.lifecycle.isNone then s.identifiers.map (.enqueued m.runtimeId) else [] := by
  unfold insertSubmission
  cases s.lifecycle with
  | none => rfl
  | some c => exact (List.append_nil _).symm

namespace Insertable

theorem nodup (h : Insertable settings m s records) : (records.map recordId).Nodup := h.ids ▸ h.distinct

theorem none (h : Insertable settings m s records) (hr : r ∈ records) : m.records.get? (recordId r) = none :=
  contains_false.mp (h.absent _ (h.ids ▸ List.mem_map_of_mem hr))

/-- Records that were there stay. -/
theorem get?_old (h : Insertable settings m s records) (hget : m.records.get? i = some r) :
    (m.insertSubmission s records).records.get? i = some r := by
  rw [insert_records, insertRecords_other _ _, hget]
  rw [h.ids]
  intro hi
  rw [contains_false.mp (h.absent i hi)] at hget
  cases hget

theorem get?_new (h : Insertable settings m s records) (hr : r ∈ records) :
    (m.insertSubmission s records).records.get? (recordId r) = some r := by
  rw [insert_records, insertRecords_mem h.nodup hr]

theorem contains_new (h : Insertable settings m s records) (hi : i ∈ s.identifiers) :
    (m.insertSubmission s records).records.contains i = true := by
  rw [← h.ids] at hi
  obtain ⟨r, hr, rfl⟩ := List.mem_map.mp hi
  exact Option.isSome_iff_exists.mpr ⟨r, h.get?_new hr⟩

theorem contains_old (h : Insertable settings m s records) (hi : m.records.contains i = true) :
    (m.insertSubmission s records).records.contains i = true := by
  obtain ⟨r, hr⟩ := Option.isSome_iff_exists.mp hi
  exact Option.isSome_iff_exists.mpr ⟨r, h.get?_old hr⟩

theorem nonempty (s : Submission) : s.commands ≠ [] := by
  cases s with
  | single c => exact List.cons_ne_nil _ _
  | chain b => exact b.nonempty

theorem kept (h : Insertable settings m s records) (hk : m.Kept settings) : (m.insertSubmission s records).Kept settings := by
  have hnew : ∀ r ∈ records, m.records.get? (recordId r) = Option.none := fun r hr => h.none hr
  refine ⟨?_, ?_, ?_, fun c ids hget => ?_, fun i hi => ?_⟩
  · rw [insert_records]
    exact insertRecords_unique hk.unique records
  · have hzero : (records.map fun r => recordSize (recordId r) r).sum = 0 := by
      apply List.sum_eq_zero
      intro n hn
      obtain ⟨r, hr, rfl⟩ := List.mem_map.mp hn
      rw [recordSize, CommandRecord.size, h.new r hr]
      rfl
    rw [insert_cache, insert_records, insertRecords_total recordSize h.nodup hnew, hzero, Nat.add_zero]
    exact hk.cache
  · have hlength := insertRecords_total (fun _ _ => 1) h.nodup hnew
    rw [Dict.total_one, Dict.total_one] at hlength
    have hones : (records.map fun _ => 1).sum = records.length := by simp
    rw [insert_records, hlength, hones]
    exact h.room
  · rw [insert_chains] at hget
    split at hget
    · obtain rfl := Option.some.inj hget
      obtain ⟨c, rest, hcommands⟩ := List.exists_cons_of_ne_nil (nonempty s)
      have hmem : c.commandId ∈ s.identifiers := by
        rw [Submission.identifiers, hcommands]
        exact List.mem_cons_self ..
      exact List.any_eq_true.mpr ⟨c.commandId, hmem, h.contains_new hmem⟩
    · obtain ⟨i, hi, hin⟩ := List.any_eq_true.mp (hk.chains c ids hget)
      exact List.any_eq_true.mpr ⟨i, hi, h.contains_old hin⟩
  · rw [insert_reads] at hi
    rw [insert_records, contains_false, insertRecords_other _ _, ← contains_false]
    · exact hk.reads i hi
    · rw [h.ids]
      intro hmem
      rw [h.unread i hmem] at hi
      cases hi

end Insertable

theorem finishRecord_get? (m : ServerRuntime) (i : String) (r : CommandRecord) (f : Finished) (j : String) :
    (m.finishRecord i r f).records.get? j
      = if j = i then some { r with finished := some f } else m.records.get? j := by
  rw [finishRecord, Dict.get?_set]

theorem finishRecord_contains {f : Finished} (hget : m.records.get? i = some r) (j : String) :
    (m.finishRecord i r f).records.contains j = m.records.contains j := by
  rw [Dict.contains, Dict.contains, finishRecord_get?]
  split
  · rename_i hj
    rw [hj, hget]
    rfl
  · rfl

/-- The chains and the reads see only which records there are. -/
theorem Kept.of_contains (h : m.Kept settings) (hunique : m'.records.Unique)
    (hcache : m'.cacheBytes = (m'.records.total recordSize : Nat))
    (hroom : m'.records.entries.length ≤ settings.maxRecords) (hchains : m'.chains = m.chains) (hreads : m'.reads = m.reads)
    (hcontains : ∀ j, m'.records.contains j = m.records.contains j) : m'.Kept settings := by
  refine ⟨hunique, hcache, hroom, fun c ids hget => ?_, fun j hj => ?_⟩
  · have hany := h.chains c ids (hchains ▸ hget)
    rwa [funext hcontains]
  · rw [hcontains]
    exact h.reads j (hreads ▸ hj)

theorem Kept.finishRecord (h : m.Kept settings) (hget : m.records.get? i = some r) (f : Finished) :
    (m.finishRecord i r f).Kept settings := by
  have htotal : ∀ w : String → CommandRecord → Nat, (m.finishRecord i r f).records.total w + w i r
      = m.records.total w + w i { r with finished := some f } := fun w => Dict.total_set_old hget
  refine h.of_contains (h.unique.set _ _) ?_ ?_ rfl rfl (finishRecord_contains hget)
  · have hsizes := htotal recordSize
    have hcache := h.cache
    show m.cacheBytes - r.size + f.size = _
    have hnew : recordSize i { r with finished := some f } = f.size := rfl
    have hold : recordSize i r = r.size := rfl
    omega
  · have hcount := htotal fun _ _ => 1
    rw [Dict.total_one, Dict.total_one] at hcount
    have hroom := h.room
    omega

theorem loseRecords_get? (m : ServerRuntime) (message : String) (stamps : String → Nat) (j : String) :
    (m.loseRecords message stamps).records.get? j = (m.records.get? j).map (m.loseRecord message stamps j) := by
  show List.lookup j (m.records.entries.map _) = (m.records.entries.lookup j).map _
  induction m.records.entries with
  | nil => rfl
  | cons e rest ih =>
    rw [List.map_cons, List.lookup_cons, List.lookup_cons, ih]
    by_cases hj : j = e.1
    · subst hj
      simp
    · have hne : (j == e.1) = false := beq_eq_false_iff_ne.mpr hj
      rw [hne]

theorem loseRecords_contains (m : ServerRuntime) (message : String) (stamps : String → Nat) (j : String) :
    (m.loseRecords message stamps).records.contains j = m.records.contains j := by
  rw [Dict.contains, Dict.contains, loseRecords_get?, Option.isSome_map]

theorem loseRecords_keys (m : ServerRuntime) (message : String) (stamps : String → Nat) :
    (m.loseRecords message stamps).records.keys = m.records.keys := by
  show (m.records.entries.map fun e => (e.1, m.loseRecord message stamps e.1 e.2)).map Prod.fst = m.records.entries.map Prod.fst
  rw [List.map_map]
  rfl

theorem loseRecord_size (m : ServerRuntime) (message : String) (stamps : String → Nat) (j : String) (r : CommandRecord) :
    ((m.loseRecord message stamps j r).size : Int) = r.size + m.lostBytes message stamps j r := by
  unfold loseRecord lostBytes
  split
  · rename_i hloses
    have hpending : r.finished = none := by
      simpa [loses, CommandRecord.pending] using (Bool.and_eq_true_iff.mp hloses).2
    simp [CommandRecord.size, hpending]
  · omega

theorem Kept.loseRecords (h : m.Kept settings) (message : String) (stamps : String → Nat) :
    (m.loseRecords message stamps).Kept settings := by
  refine h.of_contains ?_ ?_ ?_ rfl rfl (loseRecords_contains m message stamps)
  · rw [Dict.Unique, loseRecords_keys]
    exact h.unique
  · have hsum : ∀ entries : List (String × CommandRecord),
        (((entries.map fun e => (e.1, m.loseRecord message stamps e.1 e.2)).map fun e => recordSize e.1 e.2).sum : Int)
          = ((entries.map fun e => recordSize e.1 e.2).sum : Nat)
            + (entries.map fun e => m.lostBytes message stamps e.1 e.2).sum := by
      intro entries
      induction entries with
      | nil => rfl
      | cons e rest ih =>
        have hsize := loseRecord_size m message stamps e.1 e.2
        simp only [List.map_cons, List.sum_cons, Nat.cast_add, recordSize] at ih ⊢
        omega
    have hcache := h.cache
    have hall := hsum m.records.entries
    show m.cacheBytes + _ = _
    rw [hcache]
    exact hall.symm
  · show (m.records.entries.map _).length ≤ settings.maxRecords
    rw [List.length_map]
    exact h.room

section changes

variable {answered : String → Prop} {lost : Prop}

theorem Kept.change (h : m.Kept settings) (hc : Change settings answered lost m m') : m'.Kept settings := by
  cases hc with
  | framed hrecords hchains hcache _ hreads => exact h.frame hrecords hchains hcache hreads
  | evicted hevicted => exact hevicted.kept h
  | finished f hget _ _ => exact h.finishRecord hget f
  | lost message stamps _ => exact h.loseRecords message stamps
  | inserted hinsertable => exact hinsertable.kept h

/-- A step as changes one after another, which keep the receipts in order. -/
structure Progress (settings : ServerSettings) (answered : String → Prop) (lost : Prop) (m m' : ServerRuntime) : Prop where
  changes : Changes settings answered lost m m'
  kept : m'.Kept settings

theorem Progress.refl (h : m.Kept settings) : Progress settings answered lost m m := ⟨.refl, h⟩

theorem Progress.trans (h : Progress settings answered lost m m') (g : Progress settings answered lost m' m'') :
    Progress settings answered lost m m'' := ⟨Relation.ReflTransGen.trans h.changes g.changes, g.kept⟩

theorem Progress.of (h : m.Kept settings) (hc : Change settings answered lost m m') :
    Progress settings answered lost m m' := ⟨.single hc, h.change hc⟩

theorem Progress.evicted (h : m.Kept settings) (he : Evicted m m') : Progress settings answered lost m m' :=
  .of h (.evicted he)

theorem Progress.prune (h : m.Kept settings) (now required : Nat) :
    Progress settings answered lost m (m.prune settings now required) :=
  .evicted h (prune_evicted h.unique settings now required)

/-- Other fields may change. -/
theorem Progress.framed (h : m.Kept settings) (hrecords : m'.records = m.records) (hchains : m'.chains = m.chains)
    (hcache : m'.cacheBytes = m.cacheBytes) (hhistory : m'.history = m.history) (hreads : m'.reads = m.reads) :
    Progress settings answered lost m m' :=
  .of h (.framed hrecords hchains hcache hhistory fun _ hread => .inl (hreads ▸ hread))

theorem Progress.frame (h : Progress settings answered lost m m') (hrecords : m''.records = m'.records)
    (hchains : m''.chains = m'.chains) (hcache : m''.cacheBytes = m'.cacheBytes) (hhistory : m''.history = m'.history)
    (hreads : m''.reads = m'.reads) : Progress settings answered lost m m'' :=
  h.trans (.framed h.kept hrecords hchains hcache hhistory hreads)

end changes

end ServerRuntime

end ModularPipelines.Server
