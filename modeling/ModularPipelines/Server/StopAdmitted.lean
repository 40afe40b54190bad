import ModularPipelines.Server.Resubmitted
import ModularPipelines.Server.Stops

namespace ModularPipelines.Server
open Library

namespace ServerRuntime

variable {settings : ServerSettings} {fingerprint : Json → String} {m m' : ServerRuntime} {c : ServerCommand}
  {clock : Nat → Nat} {stamps : Nat → String}

theorem requireReady_idle (h : m.requireReady = .ok ()) : m.restart = none := by
  unfold requireReady at h
  split at h
  · cases h
  · rename_i hbusy
    exact Option.not_isSome_iff_eq_none.mp fun hsome => hbusy (.inr (.inl hsome))

/-- Without a pending stop and a task of the owner the extra place is free. -/
theorem Spare.free (hs : m.Spare settings) (hidle : m.restart = none)
    (hfirst : m.pendingRecords.any CommandRecord.isStop = false) : m.records.total waits ≤ settings.maxPending := by
  rcases hs with hless | ⟨-, i, r, hget, hpending, hstop | hrestarts⟩
  · exact hless
  · have hmem : r ∈ m.pendingRecords :=
      List.mem_filter.mpr ⟨List.mem_map.mpr ⟨(i, r), Dict.mem_of_get? hget, rfl⟩, hpending⟩
    exact (Bool.eq_false_iff.mp hfirst (List.any_eq_true.mpr ⟨r, hmem, hstop⟩)).elim
  · rw [restartId, hidle] at hrestarts
    cases hrestarts

theorem Evicted.requireReady (he : Evicted m m') : m'.requireReady = m.requireReady := by
  rw [he.dropped.frame]
  rfl

theorem Evicted.requests (he : Evicted m m') : m'.requests = m.requests := by
  rw [he.dropped.frame]

/-- The checks let a new standalone stop through. -/
theorem checkSubmission_stop (hs : m.Spare settings) (hstop : c.command = "stop") (hready : m.requireReady = .ok ())
    (hfirst : m.pendingRecords.any CommandRecord.isStop = false) (hfresh : m.records.contains c.commandId = false)
    (hunread : m.reads.contains c.commandId = false) :
    m.checkSubmission settings (.single c) (newRecords fingerprint (.single c) stamps) = .ok false := by
  have hidentifiers : m.checkSubmissionIdentifiers (Submission.single c).identifiers none = .ok () := by
    have hids : (Submission.single c).identifiers = [c.commandId] := rfl
    have hreads : [c.commandId].any m.reads.contains = false := by
      rw [List.any_cons, hunread, List.any_nil]
      rfl
    rw [checkSubmissionIdentifiers, hids, if_neg (not_not.mpr (List.nodup_singleton _)), hreads]
    rfl
  have hretained : m.isRetainedSubmission (newRecords fingerprint (.single c) stamps) = .ok false := by
    have hnone : (newRecords fingerprint (.single c) stamps).any (fun r => m.records.contains r.request.commandId) = false := by
      show [newRecord fingerprint stamps none 0 c].any _ = false
      rw [List.any_cons, List.any_nil, Bool.or_false]
      exact hfresh
    rw [isRetainedSubmission, hnone]
    rfl
  have hmode : m.checkSubmissionMode [c] = .ok () := by
    have hrun : ¬ (runOnly c.command ∧ m.mode ≠ .run) := by
      rw [hstop]
      exact fun h => Bool.false_ne_true h.1
    have hmodule : ¬ (startsWith c.command "module." ∧ m.mode ≠ .maintenance) := by
      rw [hstop]
      exact fun h => Bool.false_ne_true h.1
    rw [checkSubmissionMode, if_neg hrun, if_neg hmodule]
    rfl
  have hlifecycle : (Submission.single c).lifecycle = none := by
    have hother : c.command ∉ ["server.restart", "server.mode", "server.shutdown"] := by
      rw [hstop]
      decide
    exact if_neg hother
  have hpriority : (Submission.single c).priorityStop = true := beq_iff_eq.mpr hstop
  have hpending : m.checkPending settings (.single c) = .ok () := by
    have hfree := hs.free (requireReady_idle hready) hfirst
    have hcount : ¬ settings.maxPending + 1 < m.pendingRecords.length + 1 := by
      rw [pendingRecords_length]
      omega
    unfold checkPending
    rw [if_neg (by exact Bool.false_ne_true), hfirst, if_neg (fun h => Bool.false_ne_true h.2), if_pos (Or.inl hpriority)]
    exact if_neg hcount
  unfold checkSubmission
  show (m.checkSubmissionIdentifiers _ none >>= _) = _
  rw [hidentifiers]
  show (m.isRetainedSubmission _ >>= _) = _
  rw [hretained]
  show (m.checkSubmissionMode [c] >>= _) = _
  rw [hmode, hlifecycle]
  show (m.requireReady >>= _) = _
  rw [hready]
  show (m.checkPending settings (.single c) >>= _) = _
  rw [hpending]
  rfl

/-- Pruning makes room for one more record, as not all of them can be pending. -/
theorem checkRecords_stop (hk : m.Kept settings) (hwaits : m.records.total waits ≤ settings.maxPending) (now : Nat) :
    (m.prune settings now 1).checkRecords settings 1 = .ok () := by
  refine if_neg fun hfull => ?_
  have hevicted := prune_evicted hk.unique settings now 1
  have hpending := prune_fits hk.unique (.inl hfull)
  have hones : (m.prune settings now 1).records.total waits = (m.prune settings now 1).records.entries.length := by
    rw [← Dict.total_one]
    refine Dict.total_congr fun e he => ?_
    exact if_pos (hpending e.1 e.2 ((hevicted.dropped.unique hk.unique).get? he))
  have hfewer : (m.prune settings now 1).records.total waits ≤ m.records.total waits := hevicted.dropped.total_le waits
  have hroom := settings.stopRoom
  omega

theorem checkQueue_stop (hlifecycle : (Submission.single c).lifecycle = none) :
    m.checkQueue settings (.single c)
      = if settings.queueCapacity ≤ m.requests.length then
          .error (.server "queue_full" "Controller request queue is full." 429)
        else .ok () := by
  unfold checkQueue
  rw [hlifecycle]
  by_cases hfull : settings.queueCapacity ≤ m.requests.length
  · rw [if_pos ⟨rfl, hfull⟩, if_pos hfull]
  · rw [if_neg fun h => hfull h.2, if_neg hfull]

section submitted

variable {s : Submission}

theorem submit_full {e : Failure} (hsize : ¬ settings.maxRequestBytes < s.document.bytes Char.utf8Size)
    (hchecked : (m.prune settings (clock 0) 0).checkSubmission settings s (newRecords fingerprint s stamps) = .ok false)
    (hroom : ((m.prune settings (clock 0) 0).prune settings (clock 1) s.commands.length).checkRecords settings
      s.commands.length = .ok ())
    (hqueue : ((m.prune settings (clock 0) 0).prune settings (clock 1) s.commands.length).checkQueue settings s = .error e) :
    m.submit settings fingerprint (.ok s) clock stamps
      = ((m.prune settings (clock 0) 0).prune settings (clock 1) s.commands.length, .error e) := by
  simp only [submit, if_neg hsize, hchecked, hroom, hqueue]

theorem submit_inserted (hsize : ¬ settings.maxRequestBytes < s.document.bytes Char.utf8Size)
    (hchecked : (m.prune settings (clock 0) 0).checkSubmission settings s (newRecords fingerprint s stamps) = .ok false)
    (hroom : ((m.prune settings (clock 0) 0).prune settings (clock 1) s.commands.length).checkRecords settings
      s.commands.length = .ok ())
    (hqueue : ((m.prune settings (clock 0) 0).prune settings (clock 1) s.commands.length).checkQueue settings s = .ok ()) :
    m.submit settings fingerprint (.ok s) clock stamps
      = (((m.prune settings (clock 0) 0).prune settings (clock 1) s.commands.length).insertSubmission s
          (newRecords fingerprint s stamps)).receipt settings s.identifiers s.chainId fun i => clock (i + 2) := by
  simp only [submit, if_neg hsize, hchecked, hroom, hqueue]

end submitted

/-- However many commands are pending or retained, a ready server takes a standalone stop if no other one is
pending and its queue has room. -/
theorem stop_admitted {Allowed : ServerRuntime → Action → Prop} (h : Reachable settings fingerprint Allowed m)
    (hstop : c.command = "stop") (hsize : (commandDocument c none).bytes Char.utf8Size ≤ settings.maxRequestBytes)
    (hready : m.requireReady = .ok ()) (hfirst : m.pendingRecords.any CommandRecord.isStop = false)
    (hfresh : m.records.contains c.commandId = false) (hunread : m.reads.contains c.commandId = false)
    (clock : Nat → Nat) (stamps : Nat → String) :
    (m.requests.length < settings.queueCapacity →
        (∃ receipt, (m.submit settings fingerprint (.ok (.single c)) clock stamps).2 = .ok receipt) ∧
          (m.submit settings fingerprint (.ok (.single c)) clock stamps).1.requests
            = m.requests ++ [.submission (.single c)] ∧
          (m.submit settings fingerprint (.ok (.single c)) clock stamps).1.records.get? c.commandId
            = some (newRecord fingerprint stamps none 0 c)) ∧
      (settings.queueCapacity ≤ m.requests.length →
        (m.submit settings fingerprint (.ok (.single c)) clock stamps).2
          = .error (.server "queue_full" "Controller request queue is full." 429)) := by
  have hk := h.kept
  have hpruned := prune_evicted hk.unique settings (clock 0) 0
  have hkept := hpruned.kept hk
  have hspare := hpruned.eases.spare h.spare
  have hready' := hpruned.requireReady.trans hready
  have hfirst' : (m.prune settings (clock 0) 0).pendingRecords.any CommandRecord.isStop = false := by
    refine Bool.eq_false_iff.mpr fun hany => ?_
    obtain ⟨r, hr, hisStop⟩ := List.any_eq_true.mp hany
    exact Bool.eq_false_iff.mp hfirst (List.any_eq_true.mpr ⟨r, hpruned.pendingRecords hr, hisStop⟩)
  have hfresh' : (m.prune settings (clock 0) 0).records.contains c.commandId = false :=
    Bool.eq_false_iff.mpr fun hin => Bool.false_ne_true (hfresh.symm.trans (hpruned.dropped.contains hin))
  have hunread' : (m.prune settings (clock 0) 0).reads.contains c.commandId = false := by
    rw [hpruned.dropped.frame]
    exact hunread
  have hchecked : (m.prune settings (clock 0) 0).checkSubmission settings (.single c)
      (newRecords fingerprint (.single c) stamps) = .ok false :=
    checkSubmission_stop hspare hstop hready' hfirst' hfresh' hunread'
  have hagain := prune_evicted hkept.unique settings (clock 1) 1
  have hroom := checkRecords_stop hkept (hspare.free (requireReady_idle hready') hfirst') (clock 1)
  have hinsertable := (checkSubmission_false hchecked).insertable hagain hroom
  have hrequests := hagain.requests.trans hpruned.requests
  have hlifecycle : (Submission.single c).lifecycle = none := by
    have hother : c.command ∉ ["server.restart", "server.mode", "server.shutdown"] := by
      rw [hstop]
      decide
    exact if_neg hother
  have hqueue := @checkQueue_stop settings ((m.prune settings (clock 0) 0).prune settings (clock 1) 1) c hlifecycle
  rw [hrequests] at hqueue
  have hfits : ¬ settings.maxRequestBytes < (Submission.single c).document.bytes Char.utf8Size := Nat.not_lt.mpr hsize
  refine ⟨fun hless => ?_, fun hfull => ?_⟩
  · rw [if_neg (Nat.not_le.mpr hless)] at hqueue
    rw [submit_inserted hfits hchecked hroom hqueue]
    obtain ⟨hok, hrecords⟩ := hinsertable.answered (hagain.kept hkept) fun i => clock (i + 2)
    refine ⟨hok, ?_, hrecords _ (List.mem_singleton_self _)⟩
    refine (receipt_evicted (hinsertable.kept (hagain.kept hkept)) _ _ _).requests.trans ?_
    unfold insertSubmission
    rw [hlifecycle]
    exact congrArg (· ++ [Request.submission (.single c)]) hrequests
  · rw [if_pos hfull] at hqueue
    rw [submit_full hfits hchecked hroom hqueue]

def stopCommand : ServerCommand := ⟨"stop-1", "stop", [], none, by decide⟩

/-- As many commands are pending as may be, and the stop takes the place that is kept for it. -/
theorem stop_admitted_full : ∃ m, (init "server" "runtime" .run false).run smallSettings Json.dumps chaining = some m ∧
    m.pendingRecords.length = smallSettings.maxPending ∧
    ∃ receipt, (m.submit smallSettings Json.dumps (.ok (.single stopCommand)) (fun _ => 2) (fun _ => "now")).2
      = .ok receipt := by
  have hrun : ((init "server" "runtime" .run false).run smallSettings Json.dumps chaining).map
      (fun m => (m.pendingRecords.length, m.requireReady.toBool, m.pendingRecords.any CommandRecord.isStop,
        m.records.contains "stop-1", m.reads.contains "stop-1", decide (m.requests.length < smallSettings.queueCapacity)))
        = some (2, true, false, false, false, true) := by decide +kernel
  obtain ⟨m, hm, hfacts⟩ := Option.map_eq_some_iff.mp hrun
  obtain ⟨hpending, hfacts⟩ := Prod.mk.inj hfacts
  obtain ⟨hready, hfacts⟩ := Prod.mk.inj hfacts
  obtain ⟨hfirst, hfacts⟩ := Prod.mk.inj hfacts
  obtain ⟨hfresh, hfacts⟩ := Prod.mk.inj hfacts
  obtain ⟨hunread, hroom⟩ := Prod.mk.inj hfacts
  have hok : m.requireReady = .ok () := by
    cases hr : m.requireReady with
    | ok u => rfl
    | error e =>
      rw [hr] at hready
      cases hready
  have hreachable : Reachable smallSettings Json.dumps (fun _ _ => True) m :=
    (Reachable.start "server" "runtime" .run false).run (fun _ _ => trivial) hm
  exact ⟨m, hm, hpending, ((stop_admitted hreachable (c := stopCommand) rfl (by decide +kernel) hok hfirst hfresh hunread
    _ _).1 (of_decide_eq_true hroom)).1⟩

end ServerRuntime

end ModularPipelines.Server
