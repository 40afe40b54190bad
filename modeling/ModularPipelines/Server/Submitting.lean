import ModularPipelines.Server.Changes

namespace ModularPipelines.Server
open Library

namespace ServerRuntime

variable {settings : ServerSettings} {fingerprint : Json → String} {m m' : ServerRuntime} {s : Submission}
  {records : List CommandRecord} {clock : Nat → Nat} {stamps : Nat → String} {answered : String → Prop} {lost : Prop}

theorem newRecords_ids (fingerprint : Json → String) (s : Submission) (stamps : Nat → String) :
    (newRecords fingerprint s stamps).map recordId = s.identifiers := by
  unfold newRecords Submission.identifiers
  apply List.ext_getElem
  · simp
  · intro k _ _
    simp [newRecord, recordId]

theorem newRecords_length (fingerprint : Json → String) (s : Submission) (stamps : Nat → String) :
    (newRecords fingerprint s stamps).length = s.commands.length := List.length_mapIdx

/-- A new record is a pending one of one of the commands. -/
theorem mem_newRecords {r : CommandRecord} (h : r ∈ newRecords fingerprint s stamps) :
    r.finished = none ∧ r.chainId = s.chainId ∧ r.fingerprint = fingerprint (commandDocument r.request s.chainId) := by
  obtain ⟨k, hk, rfl⟩ := List.mem_mapIdx.mp h
  exact ⟨rfl, rfl, rfl⟩

theorem result_evicted (h : m.Kept settings) (i : String) (now : Nat) : Evicted m (m.result settings i now).1 := by
  have he := prune_evicted h.unique settings now 0
  unfold result
  dsimp only
  split <;> exact he

theorem Kept.evicted_refl (h : m.Kept settings) : Evicted m m := by
  refine ⟨.refl m, fun c => ?_⟩
  cases hget : m.chains.get? c with
  | none => rfl
  | some ids =>
    rw [Option.filter_some, if_pos (h.chains c ids hget)]

theorem results_evicted (h : m.Kept settings) (clock : Nat → Nat) (ids : List String) :
    Evicted m (m.results settings clock ids).1 := by
  induction ids generalizing m clock with
  | nil => exact h.evicted_refl
  | cons i rest ih =>
    have hfirst := result_evicted h i (clock 0)
    unfold results
    split
    · rename_i heq
      rw [heq] at hfirst
      exact hfirst
    · rename_i first heq
      have hrest := hfirst.trans (ih (hfirst.kept h) fun i => clock (i + 1))
      rw [heq] at hrest
      split
      · rename_i herr
        rw [herr] at hrest
        exact hrest
      · rename_i hok
        rw [hok] at hrest
        exact hrest

theorem receipt_evicted (h : m.Kept settings) (ids : List String) (chainId : Option String) (clock : Nat → Nat) :
    Evicted m (m.receipt settings ids chainId clock).1 := by
  unfold receipt
  split
  · split
    · exact h.evicted_refl
    · rename_i i _
      have hresult := result_evicted h i (clock 0)
      split
      · rename_i heq
        rw [heq] at hresult
        exact hresult
      · rename_i heq
        rw [heq] at hresult
        exact hresult
  · have hresults := results_evicted h clock ids
    split
    · rename_i heq
      rw [heq] at hresults
      exact hresults
    · rename_i heq
      rw [heq] at hresults
      split
      · exact hresults
      · split <;> exact hresults

/-- The owner has let a submission through: a lifecycle command to its own task, another one to the controller. -/
structure Passed (m : ServerRuntime) (s : Submission) : Prop where
  mode : m.checkSubmissionMode s.commands = .ok ()
  lifecycle : ∀ c, s.lifecycle = some c → m.admitLifecycleCommand c = .ok ()
  ready : s.lifecycle = none → m.requireReady = .ok ()

theorem mode_congr (hmode : m'.mode = m.mode) (commands : List ServerCommand) :
    m'.checkSubmissionMode commands = m.checkSubmissionMode commands := by
  induction commands with
  | nil => rfl
  | cons c rest ih => simp only [checkSubmissionMode, hmode, ih]

theorem Passed.evicted (h : m.Passed s) (he : Evicted m m') : m'.Passed s := by
  rw [he.dropped.frame]
  exact ⟨(mode_congr (by rfl) _).trans h.mode, h.lifecycle, h.ready⟩

theorem Evicted.pendingRecords (he : Evicted m m') : m'.pendingRecords ⊆ m.pendingRecords := by
  obtain ⟨p, hp⟩ := he.dropped.keeps
  intro r hr
  obtain ⟨hvalue, hpending⟩ := List.mem_filter.mp hr
  refine List.mem_filter.mpr ⟨?_, hpending⟩
  rw [hp] at hvalue
  obtain ⟨e, he, rfl⟩ := List.mem_map.mp hvalue
  exact List.mem_map.mpr ⟨e, (List.mem_filter.mp he).1, rfl⟩

/-- No other standalone stop is pending beside one. -/
def Alone (m : ServerRuntime) (s : Submission) : Prop :=
  s.priorityStop = true → m.pendingRecords.any CommandRecord.isStop = false

theorem Alone.evicted (h : m.Alone s) (he : Evicted m m') : m'.Alone s := by
  intro hstop
  refine Bool.eq_false_iff.mpr fun hany => ?_
  obtain ⟨r, hr, hisStop⟩ := List.any_eq_true.mp hany
  exact Bool.eq_false_iff.mp (h hstop) (List.any_eq_true.mpr ⟨r, he.pendingRecords hr, hisStop⟩)

/-- What the checks of a new submission have found. -/
structure Checked (settings : ServerSettings) (m : ServerRuntime) (s : Submission) (records : List CommandRecord) : Prop where
  passed : m.Passed s
  alone : m.Alone s
  distinct : s.identifiers.Nodup
  unread : ∀ i ∈ s.identifiers, m.reads.contains i = false
  absent : ∀ r ∈ records, m.records.contains (recordId r) = false
  pending : m.pendingRecords.length + s.commands.length ≤ settings.maxPending + s.extraPlace
  chain : ∀ c, s.chainId = some c → m.chains.contains c = false

theorem checkPending_ok {u : Unit} (h : m.checkPending settings s = .ok u) :
    (∀ c, s.chainId = some c → m.chains.contains c = false) ∧ m.Alone s ∧
      m.pendingRecords.length + s.commands.length ≤ settings.maxPending + s.extraPlace := by
  unfold checkPending at h
  change (if _ then _ else if _ then _ else if settings.maxPending + s.extraPlace < _ then _ else _) = _ at h
  split at h
  · cases h
  · rename_i hchain
    split at h
    · cases h
    · rename_i hstop
      split at h
      · cases h
      · refine ⟨fun c hc => ?_, fun hpriority => ?_, by omega⟩
        · rw [hc] at hchain
          exact Bool.eq_false_iff.mpr hchain
        · exact Bool.eq_false_iff.mpr fun hany => hstop ⟨hpriority, hany⟩

theorem checkSubmission_false (h : m.checkSubmission settings s records = .ok false) : Checked settings m s records := by
  unfold checkSubmission at h
  obtain ⟨u, hids, h⟩ := bind_ok.mp h
  obtain ⟨retained, hretained, h⟩ := bind_ok.mp h
  have hfalse : retained = false := by
    cases retained with
    | false => rfl
    | true => cases h
  subst hfalse
  obtain ⟨u', hmode, h⟩ := bind_ok.mp h
  obtain ⟨hpassed, hpending⟩ : m.Passed s ∧ ∃ u, m.checkPending settings s = .ok u := by
    cases hl : s.lifecycle with
    | none =>
      rw [hl] at h
      obtain ⟨v, hready, h⟩ := bind_ok.mp h
      obtain ⟨w, hw, -⟩ := bind_ok.mp h
      refine ⟨⟨hmode, fun c hc => ?_, fun _ => hready⟩, w, hw⟩
      rw [hl] at hc
      cases hc
    | some c =>
      rw [hl] at h
      obtain ⟨v, hadmitted, h⟩ := bind_ok.mp h
      obtain ⟨w, hw, -⟩ := bind_ok.mp h
      refine ⟨⟨hmode, fun other hother => ?_, fun hnone => ?_⟩, w, hw⟩
      · rw [hl] at hother
        obtain rfl := Option.some.inj hother
        exact hadmitted
      · rw [hl] at hnone
        cases hnone
  unfold checkSubmissionIdentifiers at hids
  split at hids
  · cases hids
  rename_i hnodup
  split at hids
  · cases hids
  rename_i hreads
  obtain ⟨u, hu⟩ := hpending
  obtain ⟨hchain, halone, hcount⟩ := checkPending_ok hu
  refine ⟨hpassed, halone, not_not.mp hnodup, fun i hi => ?_, fun r hr => ?_, hcount, hchain⟩
  · exact Bool.eq_false_iff.mpr fun hread => hreads (List.any_eq_true.mpr ⟨i, hi, hread⟩)
  · unfold isRetainedSubmission at hretained
    split at hretained
    · split at hretained <;> cases hretained
    · rename_i hnone
      exact Bool.eq_false_iff.mpr fun hin => hnone (List.any_eq_true.mpr ⟨r, hr, hin⟩)

/-- Pruning leaves what the checks have found. -/
theorem Checked.insertable (h : Checked settings m s (newRecords fingerprint s stamps)) (he : Evicted m m')
    (hroom : m'.checkRecords settings s.commands.length = .ok ()) :
    Insertable settings m' s (newRecords fingerprint s stamps) := by
  have hreads : m'.reads = m.reads := by rw [he.dropped.frame]
  have hnotin : ∀ i, m.records.contains i = false → m'.records.contains i = false := by
    intro i hi
    exact Bool.eq_false_iff.mpr fun hin => Bool.false_ne_true (hi.symm.trans (he.dropped.contains hin))
  have hpending : m'.pendingRecords.length ≤ m.pendingRecords.length := by
    rw [pendingRecords_length, pendingRecords_length]
    exact he.dropped.total_le waits
  refine ⟨newRecords_ids _ _ _, fun r hr => (mem_newRecords hr).1, h.distinct, fun i hi => ?_, fun i hi => ?_, ?_, ?_,
    fun c hc => ?_⟩
  · rw [← newRecords_ids fingerprint s stamps] at hi
    obtain ⟨r, hr, rfl⟩ := List.mem_map.mp hi
    exact hnotin _ (h.absent r hr)
  · exact hreads ▸ h.unread i hi
  · unfold checkRecords at hroom
    split at hroom
    · cases hroom
    · rename_i hfits
      rw [newRecords_length]
      omega
  · have hcount := h.pending
    rw [newRecords_length]
    omega
  · have hnone := contains_false.mp (h.chain c hc)
    rw [contains_false, he.chains, hnone]
    rfl

/-- All that a submission does to the receipts. -/
theorem submit_progress (h : m.Kept settings) (document : Except String Submission) (clock : Nat → Nat)
    (stamps : Nat → String) : Progress settings answered lost m (m.submit settings fingerprint document clock stamps).1 := by
  have hpruned : Progress settings answered lost m (m.prune settings (clock 0) 0) := .prune h _ _
  unfold submit
  dsimp only
  split
  · exact hpruned
  · rename_i s
    split
    · exact hpruned
    · split
      · exact hpruned
      · exact hpruned.trans (.evicted hpruned.kept (receipt_evicted hpruned.kept _ _ _))
      · rename_i hchecked
        have hagain := hpruned.trans (.prune hpruned.kept (clock 1) s.commands.length)
        split
        · exact hagain
        · exact hagain
        · rename_i hroom _
          have hinsertable := (checkSubmission_false hchecked).insertable
            (prune_evicted hpruned.kept.unique settings (clock 1) s.commands.length) hroom
          have hinserted := hagain.trans (.of hagain.kept (.inserted hinsertable))
          exact hinserted.trans (.evicted hinserted.kept (receipt_evicted hinserted.kept _ _ _))

end ServerRuntime

end ModularPipelines.Server
