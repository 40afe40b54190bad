import ModularPipelines.Server.Stops

namespace ModularPipelines.Server
open Library

namespace ServerRuntime

variable {settings : ServerSettings} {fingerprint : Json → String} {m m' : ServerRuntime}

theorem Spare.pending_le (h : m.Spare settings) : m.pendingRecords.length ≤ settings.maxPending + 1 := by
  rw [pendingRecords_length]
  rcases h with hless | ⟨hone, -⟩
  · exact Nat.le_succ_of_le hless
  · exact hone

/-- The retained responses, the live reads and the queue to the controller have room. -/
structure Fits (settings : ServerSettings) (m : ServerRuntime) : Prop where
  cache : m.cacheBytes ≤ settings.maxCacheBytes
  reads : m.reads.entries.length ≤ settings.maxReads
  requests : m.requests.length ≤ settings.queueCapacity

theorem Fits.frame (h : m.Fits settings) (hcache : m'.cacheBytes = m.cacheBytes) (hreads : m'.reads = m.reads)
    (hrequests : m'.requests = m.requests) : m'.Fits settings := by
  refine ⟨hcache ▸ h.cache, hreads ▸ h.reads, hrequests ▸ h.requests⟩

theorem Evicted.fits (he : Evicted m m') (hk : m.Kept settings) (h : m.Fits settings) : m'.Fits settings := by
  have hreads : m'.reads = m.reads := by rw [he.dropped.frame]
  have hrequests : m'.requests = m.requests := by rw [he.dropped.frame]
  refine ⟨?_, hreads ▸ h.reads, hrequests ▸ h.requests⟩
  have hbefore := hk.cache
  have hafter := (he.kept hk).cache
  have hless : m'.records.total recordSize ≤ m.records.total recordSize := he.dropped.total_le recordSize
  have hcache := h.cache
  omega

/-- A pruning makes the cache fit again. -/
theorem Kept.prune_cached (hk : m.Kept settings) (now : Nat) (hreads : m.reads.entries.length ≤ settings.maxReads)
    (hrequests : m.requests.length ≤ settings.queueCapacity) : (m.prune settings now 0).Fits settings := by
  have hframe := (prune_evicted hk.unique settings now 0).dropped.frame
  refine ⟨hk.prune_cache now 0, ?_, ?_⟩
  · rw [hframe]
    exact hreads
  · rw [hframe]
    exact hrequests

theorem setEntries_length {α : Type} (key : String) (value : α) (entries : List (String × α)) :
    (Dict.setEntries key value entries).length ≤ entries.length + 1 := by
  induction entries with
  | nil => exact Nat.le_refl _
  | cons e rest ih =>
    unfold Dict.setEntries
    split
    · exact Nat.le_succ _
    · exact Nat.succ_le_succ ih

theorem acceptRead_fits {response : Response} (h : m.Fits settings) (hread : m.acceptReadResponse response = some m') :
    m'.Fits settings := by
  unfold acceptReadResponse at hread
  split at hread
  · rename_i hwaiting
    obtain rfl := Option.some.inj hread
    have hkeys : (m.reads.set response.commandId (.answered response)).keys = m.reads.keys :=
      Dict.keys_setEntries_present hwaiting
    refine ⟨h.cache, ?_, h.requests⟩
    have hlength := congrArg List.length hkeys
    rw [Dict.keys, Dict.keys, List.length_map, List.length_map] at hlength
    exact hlength ▸ h.reads
  · cases hread

theorem acceptCommandResponse_fits (hk : m.Kept settings) (h : m.Fits settings) (response : Response)
    (finishedAt now : Nat) : (m.acceptCommandResponse settings response finishedAt now).Fits settings := by
  unfold acceptCommandResponse
  dsimp only
  split
  · rename_i hread
    exact acceptRead_fits h hread
  · split
    · exact h
    · rename_i r hget
      split
      · exact (hk.finishRecord hget _).prune_cached now h.reads h.requests
      · exact h

theorem failWaiters_length (reads : Dict Waiter) (message : String) :
    (reads.mapValues (failWaiter message)).entries.length = reads.entries.length := List.length_map ..

theorem unavailable_fits (hk : m.Kept settings) (h : m.Fits settings) (message : String) (runtimeId : Option String)
    (stamps : String → Nat) (now : Nat) : (m.unavailable settings message runtimeId stamps now).Fits settings := by
  unfold unavailable
  split
  · exact h
  · let failed : ServerRuntime := { m with
      state := .unavailable
      error := some message
      reads := m.reads.mapValues (failWaiter message) }
    have hfailed : failed.Kept settings := by
      refine hk.frame rfl rfl rfl fun i hi => .inl ?_
      exact failWaiters_contains m.reads message i ▸ hi
    exact (hfailed.loseRecords message stamps).prune_cached now
      (Nat.le_trans (Nat.le_of_eq (failWaiters_length m.reads message)) h.reads) h.requests

theorem acceptResponse_fits (hk : m.Kept settings) (h : m.Fits settings) (message : ControllerMessage)
    (runtimeId : Option String) (stamps : String → Nat) (now : Nat) :
    (m.acceptResponse settings message runtimeId stamps now).Fits settings := by
  unfold acceptResponse
  split
  · exact h
  · cases message with
    | outcome o => exact acceptCommandResponse_fits hk h _ _ _
    | ready =>
      show m.acceptReady.Fits settings
      unfold acceptReady
      split
      · exact h
      · exact h.frame rfl rfl rfl
    | stopped text => exact (unavailable_fits hk h text none stamps now).frame rfl rfl rfl
    | error text => exact unavailable_fits hk h text none stamps now
    | invalid text => exact unavailable_fits hk h _ none stamps now

theorem finishLifecycle_fits (hk : m.Kept settings) (h : m.Fits settings) (c : ServerCommand) (ending : LifecycleEnd)
    (stamps : String → Nat) (now : Nat) : (m.finishLifecycle settings c ending stamps now).Fits settings := by
  let before : ServerRuntime := { m with
    httpClosing := m.httpClosing || (c.command == "server.shutdown" && ending.errorText.isNone)
    error := ending.errorText.or m.error
    state := if m.state = RuntimeState.closed then .unavailable else m.state }
  have hbefore : before.Kept settings := hk.frame rfl rfl rfl fun _ hi => .inl hi
  exact (acceptCommandResponse_fits hbefore (h.frame rfl rfl rfl) (ending.response c) _ now).frame rfl rfl rfl

theorem read_fits (h : m.Fits settings) (i name : String) (args : List (String × Json)) :
    (m.read settings i name args).1.Fits settings := by
  unfold read
  split
  · exact h
  · split
    · exact h
    · split
      · exact h
      · rename_i hreads
        split
        · exact h
        · rename_i hqueue
          refine ⟨h.cache, ?_, ?_⟩
          · exact Nat.le_trans (setEntries_length i _ m.reads.entries) (Nat.not_le.mp hreads)
          · show (m.requests ++ [_]).length ≤ _
            rw [List.length_append]
            exact Nat.not_le.mp hqueue

theorem insert_fits (h : m.Fits settings) {s : Submission} (hqueue : m.checkQueue settings s = .ok ())
    (records : List CommandRecord) : (m.insertSubmission s records).Fits settings := by
  refine ⟨insert_cache m s records ▸ h.cache, insert_reads m s records ▸ h.reads, ?_⟩
  unfold checkQueue at hqueue
  unfold insertSubmission
  cases hl : s.lifecycle with
  | some c => exact h.requests
  | none =>
    rw [hl] at hqueue
    split at hqueue
    · cases hqueue
    · rename_i hfull
      show (m.requests ++ [_]).length ≤ _
      rw [List.length_append]
      exact Nat.not_le.mp fun hle => hfull ⟨rfl, hle⟩

theorem submit_fits (hk : m.Kept settings) (h : m.Fits settings) (document : Except String Submission) (clock : Nat → Nat)
    (stamps : Nat → String) : (m.submit settings fingerprint document clock stamps).1.Fits settings := by
  have hpruned := (prune_evicted hk.unique settings (clock 0) 0).fits hk h
  have hkept := hk.prune (clock 0) 0
  unfold submit
  dsimp only
  split
  · exact hpruned
  · rename_i s
    split
    · exact hpruned
    · split
      · exact hpruned
      · exact (receipt_evicted hkept _ _ _).fits hkept hpruned
      · rename_i hchecked
        have hevicted := prune_evicted hkept.unique settings (clock 1) s.commands.length
        have hagain := hevicted.fits hkept hpruned
        split
        · exact hagain
        · exact hagain
        · rename_i hroom hqueue
          have hinsertable := (checkSubmission_false hchecked).insertable hevicted hroom
          have hinserted := hinsertable.kept (hkept.prune _ _)
          exact (receipt_evicted hinserted _ _ _).fits hinserted (insert_fits hagain hqueue _)

theorem beginClose_fits (h : m.Fits settings) (shutdownId : String) : (m.beginClose settings shutdownId).Fits settings := by
  refine ⟨h.cache, h.reads, ?_⟩
  show (if m.alive && decide (m.requests.length < settings.queueCapacity) then m.requests ++ [_] else m.requests).length ≤ _
  split
  · rename_i hroom
    rw [List.length_append]
    exact of_decide_eq_true (Bool.and_eq_true_iff.mp hroom).2
  · exact h.requests

theorem step_fits (hk : m.Kept settings) (h : m.Fits settings) {action : Action}
    (hs : m.step settings fingerprint action = some m') : m'.Fits settings := by
  cases action with
  | start =>
    obtain ⟨-, hs⟩ := Option.ite_none_right_eq_some.mp hs
    obtain rfl := Option.some.inj hs
    exact ⟨h.cache, h.reads, Nat.zero_le _⟩
  | submit document clock stamps =>
    obtain rfl := Option.some.inj hs
    exact submit_fits hk h document clock stamps
  | result i now =>
    obtain rfl := Option.some.inj hs
    exact (result_evicted hk i now).fits hk h
  | read i name args =>
    simp only [step] at hs
    split at hs
    · cases hs
    · obtain rfl := Option.some.inj hs
      exact read_fits h i name args
  | leaveRead i =>
    obtain ⟨-, hs⟩ := Option.ite_none_right_eq_some.mp hs
    obtain rfl := Option.some.inj hs
    exact ⟨h.cache, Nat.le_trans (List.length_filter_le ..) h.reads, h.requests⟩
  | take =>
    simp only [step] at hs
    split at hs
    · cases hs
    · rename_i first rest hrequests
      obtain ⟨-, hs⟩ := Option.ite_none_right_eq_some.mp hs
      obtain rfl := Option.some.inj hs
      have hall := h.requests
      rw [hrequests] at hall
      exact ⟨h.cache, h.reads, Nat.le_of_succ_le hall⟩
  | reply message runtimeId stamps now =>
    obtain rfl := Option.some.inj hs
    exact acceptResponse_fits hk h message _ stamps now
  | lost message runtimeId stamps now =>
    obtain rfl := Option.some.inj hs
    exact unavailable_fits hk h message _ stamps now
  | exit =>
    obtain rfl := Option.some.inj hs
    exact h.frame rfl rfl rfl
  | beginRestart shutdownId =>
    simp only [step] at hs
    split at hs
    · split at hs
      · cases hs
      · obtain rfl := Option.some.inj hs
        unfold beginRestart
        split
        · exact h.frame rfl rfl rfl
        · exact (beginClose_fits h shutdownId).frame rfl rfl rfl
    · cases hs
  | finishRestart previousId controller notes stamps now =>
    simp only [step] at hs
    split at hs
    · obtain ⟨ending, -, rfl⟩ := Option.map_eq_some_iff.mp hs
      exact finishLifecycle_fits hk h _ ending stamps now
    · cases hs
  | replace runtimeId =>
    simp only [step] at hs
    split at hs
    · split at hs
      · cases hs
      · obtain rfl := Option.some.inj hs
        exact ⟨h.cache, h.reads, Nat.zero_le _⟩
    · cases hs
  | startFails message shutdownId =>
    simp only [step] at hs
    split at hs
    · obtain rfl := Option.some.inj hs
      exact (beginClose_fits h shutdownId).frame rfl rfl rfl
    · cases hs
  | closeHttp =>
    obtain rfl := Option.some.inj hs
    exact h.frame rfl rfl rfl
  | beginClose shutdownId =>
    simp only [step] at hs
    split at hs
    · obtain rfl := Option.some.inj hs
      exact beginClose_fits h shutdownId
    · cases hs
  | settle failed stamps now =>
    obtain ⟨-, hs⟩ := Option.ite_none_right_eq_some.mp hs
    obtain rfl := Option.some.inj hs
    cases failed with
    | none => exact (unavailable_fits hk h closedMessage none stamps now).frame rfl rfl rfl
    | some message => exact h.frame rfl rfl rfl
  | closeChannels blocked =>
    obtain ⟨-, hs⟩ := Option.ite_none_right_eq_some.mp hs
    obtain rfl := Option.some.inj hs
    exact h.frame rfl rfl rfl

/-- What the server keeps is bounded by its settings in every state of every run, whatever its clients and
controllers do, and its accounts of it are right. -/
theorem receipts_bounded {Allowed : ServerRuntime → Action → Prop} (h : Reachable settings fingerprint Allowed m) :
    m.records.entries.length ≤ settings.maxRecords ∧ m.pendingRecords.length ≤ settings.maxPending + 1 ∧
      m.reads.entries.length ≤ settings.maxReads ∧ m.requests.length ≤ settings.queueCapacity ∧
      m.cacheBytes = (m.records.total recordSize : Nat) ∧ m.cacheBytes ≤ settings.maxCacheBytes ∧
      m.records.Unique ∧ (∀ c ids, m.chains.get? c = some ids → ids.any m.records.contains = true) ∧
      ∀ i, m.reads.contains i = true → m.records.contains i = false := by
  have hk := h.kept
  have hfits : m.Fits settings := by
    induction h with
    | start instanceId runtimeId mode stopHttp => exact ⟨Int.natCast_nonneg _, Nat.zero_le _, Nat.zero_le _⟩
    | step hbefore _ hnext ih => exact step_fits hbefore.kept (ih hbefore.kept) hnext
  exact ⟨hk.room, h.spare.pending_le, hfits.reads, hfits.requests, hk.cache, hfits.cache, hk.unique, hk.chains, hk.reads⟩

theorem receipts_bounded_resume : ∃ m, (init "server" "runtime" .run false).run smallSettings Json.dumps resuming = some m ∧
    m.pendingRecords.length = 1 ∧ m.pendingRecords.length ≤ smallSettings.maxPending + 1 := by
  have hrun : ((init "server" "runtime" .run false).run smallSettings Json.dumps resuming).map
      (fun m => m.pendingRecords.length) = some 1 := by decide +kernel
  obtain ⟨m, hm, hpending⟩ := Option.map_eq_some_iff.mp hrun
  have hreachable : Reachable smallSettings Json.dumps (fun _ _ => True) m :=
    (Reachable.start "server" "runtime" .run false).run (fun _ _ => trivial) hm
  exact ⟨m, hm, hpending, (receipts_bounded hreachable).2.1⟩

end ServerRuntime

end ModularPipelines.Server
