import ModularPipelines.Server.Outcomes

namespace ModularPipelines.Server
open Library

namespace ServerRuntime

variable {settings : ServerSettings} {fingerprint : Json → String} {m m' m'' : ServerRuntime} {s : Submission}
  {clock : Nat → Nat} {stamps : Nat → String} {i : String} {r : CommandRecord}

/-- The owner is unchanged, nothing new waits, and what no longer waits has left its place. -/
structure Eases (m m' : ServerRuntime) : Prop where
  owner : m'.restartId = m.restartId
  fewer : m'.records.total waits ≤ m.records.total waits
  waiting : ∀ i r, m.records.get? i = some r → r.pending = true →
    m'.records.get? i = some r ∨ m'.records.total waits + 1 ≤ m.records.total waits

theorem Eases.frame (howner : m'.restartId = m.restartId) (hrecords : m'.records = m.records) : Eases m m' := by
  refine ⟨howner, Nat.le_of_eq (by rw [hrecords]), fun i r hget _ => .inl ?_⟩
  rw [hrecords]
  exact hget

theorem Eases.refl (m : ServerRuntime) : Eases m m := .frame rfl rfl

theorem Eases.trans (h : Eases m m') (g : Eases m' m'') : Eases m m'' := by
  refine ⟨g.owner.trans h.owner, Nat.le_trans g.fewer h.fewer, fun i r hget hpending => ?_⟩
  have hlater := g.fewer
  have hsooner := h.fewer
  rcases h.waiting i r hget hpending with hstays | hleaves
  · rcases g.waiting i r hstays hpending with hstays' | hleaves'
    · exact .inl hstays'
    · exact .inr (by omega)
  · exact .inr (by omega)

theorem Evicted.eases (h : Evicted m m') : Eases m m' := by
  refine ⟨?_, h.dropped.total_le waits, fun i r hget hpending => .inl (h.dropped.pending hget hpending)⟩
  rw [h.dropped.frame]
  rfl

theorem finishRecord_eases (hget : m.records.get? i = some r) (f : Finished) : Eases m (m.finishRecord i r f) := by
  have htotal : (m.finishRecord i r f).records.total waits + waits i r
      = m.records.total waits + waits i { r with finished := some f } := Dict.total_set_old hget
  have hzero : waits i { r with finished := some f } = 0 := rfl
  refine ⟨rfl, by omega, fun j other hother hpending => ?_⟩
  by_cases hj : j = i
  · subst hj
    obtain rfl := Option.some.inj (hget.symm.trans hother)
    have hone : waits j r = 1 := if_pos hpending
    exact .inr (by omega)
  · left
    rw [finishRecord_get?, if_neg hj]
    exact hother

theorem loseRecord_waits (m : ServerRuntime) (message : String) (stamps : String → Nat) (i : String) (r : CommandRecord) :
    waits i (m.loseRecord message stamps i r) ≤ waits i r := by
  unfold loseRecord
  split
  · exact Nat.zero_le _
  · exact Nat.le_refl _

theorem loseRecords_fewer (m : ServerRuntime) (message : String) (stamps : String → Nat)
    (entries : List (String × CommandRecord)) :
    (entries.map fun e => waits e.1 (m.loseRecord message stamps e.1 e.2)).sum ≤ (entries.map fun e => waits e.1 e.2).sum := by
  induction entries with
  | nil => exact Nat.le_refl 0
  | cons e rest ih => exact Nat.add_le_add (loseRecord_waits m message stamps e.1 e.2) ih

theorem loseRecords_leaves (m : ServerRuntime) (message : String) (stamps : String → Nat)
    {entries : List (String × CommandRecord)} (hmem : (i, r) ∈ entries) (hpending : r.pending = true)
    (hloses : m.loses i r = true) :
    (entries.map fun e => waits e.1 (m.loseRecord message stamps e.1 e.2)).sum + 1
      ≤ (entries.map fun e => waits e.1 e.2).sum := by
  induction entries with
  | nil => cases hmem
  | cons e rest ih =>
    rw [List.map_cons, List.sum_cons, List.map_cons, List.sum_cons]
    rcases List.mem_cons.mp hmem with rfl | hrest
    · have hone : waits i r = 1 := if_pos hpending
      have hzero : waits i (m.loseRecord message stamps i r) = 0 := by
        rw [loseRecord, if_pos hloses]
        rfl
      have htail := loseRecords_fewer m message stamps rest
      dsimp only
      omega
    · have hfirst := loseRecord_waits m message stamps e.1 e.2
      have htail := ih hrest
      omega

theorem loseRecords_eases (m : ServerRuntime) (message : String) (stamps : String → Nat) :
    Eases m (m.loseRecords message stamps) := by
  have htotal : (m.loseRecords message stamps).records.total waits
      = (m.records.entries.map fun e => waits e.1 (m.loseRecord message stamps e.1 e.2)).sum := by
    show ((m.records.entries.map _).map _).sum = _
    rw [List.map_map]
    rfl
  refine ⟨rfl, htotal ▸ loseRecords_fewer m message stamps _, fun i r hget hpending => ?_⟩
  cases hloses : m.loses i r with
  | true =>
    right
    rw [htotal]
    exact loseRecords_leaves m message stamps (Dict.mem_of_get? hget) hpending hloses
  | false =>
    left
    rw [loseRecords_get?, hget, Option.map_some, loseRecord, hloses]
    rfl

theorem acceptRead_eases {response : Response} (h : m.acceptReadResponse response = some m') : Eases m m' := by
  obtain ⟨hrecords, -⟩ := acceptRead_framed h
  unfold acceptReadResponse at h
  split at h
  · obtain rfl := Option.some.inj h
    exact .frame rfl rfl
  · cases h

theorem acceptCommandResponse_eases (hk : m.Kept settings) (response : Response) (finishedAt now : Nat) :
    Eases m (m.acceptCommandResponse settings response finishedAt now) := by
  unfold acceptCommandResponse
  dsimp only
  split
  · rename_i hread
    exact acceptRead_eases hread
  · split
    · exact .refl m
    · rename_i r hget
      split
      · exact (finishRecord_eases hget _).trans (prune_evicted (hk.finishRecord hget _).unique settings now 0).eases
      · exact .refl m

/-- Once a response has come, its command does not wait. -/
theorem acceptCommandResponse_settled (hk : m.Kept settings) (response : Response) (finishedAt now : Nat)
    (hget : (m.acceptCommandResponse settings response finishedAt now).records.get? response.commandId = some r) :
    r.pending = false := by
  unfold acceptCommandResponse at hget
  dsimp only at hget
  have hid : (boundedResponse settings response).1.commandId = response.commandId := by
    unfold boundedResponse
    split <;> rfl
  split at hget
  · rename_i hread
    obtain ⟨hrecords, -⟩ := acceptRead_framed hread
    have hwaits : m.reads.contains response.commandId = true := by
      unfold acceptReadResponse at hread
      rw [hid] at hread
      split at hread
      · rename_i hwaiting
        exact Option.isSome_iff_exists.mpr ⟨_, hwaiting⟩
      · cases hread
    have habsent := contains_false.mp (hk.reads _ hwaits)
    rw [hrecords, habsent] at hget
    cases hget
  · split at hget
    · rename_i hnone
      rw [hnone] at hget
      cases hget
    · rename_i old hold
      split at hget
      · have hfinished := (prune_evicted (hk.finishRecord hold _).unique settings now 0).dropped.get? hget
        rw [finishRecord_get?, if_pos rfl] at hfinished
        obtain rfl := Option.some.inj hfinished
        rfl
      · rename_i hclosed
        obtain rfl := Option.some.inj (hold.symm.trans hget)
        exact Bool.eq_false_iff.mpr fun hpending => hclosed (open_of_pending hpending)

theorem unavailable_eases (hk : m.Kept settings) (message : String) (runtimeId : Option String) (stamps : String → Nat)
    (now : Nat) : Eases m (m.unavailable settings message runtimeId stamps now) := by
  unfold unavailable
  split
  · exact .refl m
  · let failed : ServerRuntime := { m with
      state := .unavailable
      error := some message
      reads := m.reads.mapValues (failWaiter message) }
    have hfailed : failed.Kept settings := by
      refine hk.frame rfl rfl rfl fun i hi => .inl ?_
      exact failWaiters_contains m.reads message i ▸ hi
    have hframe : Eases m failed := .frame rfl rfl
    have hlost := hframe.trans (loseRecords_eases failed message stamps)
    exact hlost.trans (prune_evicted (hfailed.loseRecords message stamps).unique settings now 0).eases

theorem acceptReady_eases (m : ServerRuntime) : Eases m m.acceptReady := by
  unfold acceptReady
  split
  · exact .refl m
  · refine .frame ?_ rfl
    unfold restartId
    rw [Option.map_map]
    rfl

theorem acceptResponse_eases (hk : m.Kept settings) (message : ControllerMessage) (runtimeId : Option String)
    (stamps : String → Nat) (now : Nat) : Eases m (m.acceptResponse settings message runtimeId stamps now) := by
  unfold acceptResponse
  split
  · exact .refl m
  · cases message with
    | outcome o => exact acceptCommandResponse_eases hk _ _ _
    | ready => exact acceptReady_eases m
    | stopped text => exact (unavailable_eases hk text none stamps now).trans (.frame rfl rfl)
    | error text => exact unavailable_eases hk text none stamps now
    | invalid text => exact unavailable_eases hk _ none stamps now

/-- More than the limit wait only with a standalone stop or the command of the owner's task among them. -/
def Spare (settings : ServerSettings) (m : ServerRuntime) : Prop :=
  m.records.total waits ≤ settings.maxPending ∨ m.records.total waits ≤ settings.maxPending + 1 ∧
    ∃ i r, m.records.get? i = some r ∧ r.pending = true ∧ (r.isStop = true ∨ m.restartId = some i)

theorem Eases.spare (h : Eases m m') (hs : m.Spare settings) : m'.Spare settings := by
  have hfewer := h.fewer
  rcases hs with hless | ⟨hone, i, r, hget, hpending, hextra⟩
  · exact .inl (Nat.le_trans hfewer hless)
  · rcases h.waiting i r hget hpending with hstays | hleaves
    · exact .inr ⟨Nat.le_trans hfewer hone, i, r, hstays, hpending, h.owner ▸ hextra⟩
    · exact .inl (by omega)

theorem Spare.frame (hs : m.Spare settings) (howner : m'.restartId = m.restartId) (hrecords : m'.records = m.records) :
    m'.Spare settings := (Eases.frame howner hrecords).spare hs

/-- The owner's task leaves with its command answered. -/
theorem finishLifecycle_spare (hk : m.Kept settings) (hs : m.Spare settings) {c : ServerCommand} {phase : RestartPhase}
    (hrestart : m.restart = some (c, phase)) (ending : LifecycleEnd) (stamps : String → Nat) (now : Nat) :
    (m.finishLifecycle settings c ending stamps now).Spare settings := by
  let before : ServerRuntime := { m with
    httpClosing := m.httpClosing || (c.command == "server.shutdown" && ending.errorText.isNone)
    error := ending.errorText.or m.error
    state := if m.state = RuntimeState.closed then .unavailable else m.state }
  have hbefore : before.Kept settings := hk.frame rfl rfl rfl fun _ hi => .inl hi
  have hframe : Eases m before := .frame rfl rfl
  have heases := hframe.trans (acceptCommandResponse_eases hbefore (ending.response c) (stamps c.commandId) now)
  have hid : (ending.response c).commandId = c.commandId := by cases ending <;> rfl
  have howner : m.restartId = some c.commandId := by rw [restartId, hrestart]; rfl
  rcases heases.spare hs with hless | ⟨hone, i, r, hget, hpending, hstop | hrestarts⟩
  · exact .inl hless
  · exact .inr ⟨hone, i, r, hget, hpending, .inl hstop⟩
  · obtain rfl := Option.some.inj ((heases.owner.trans howner).symm.trans hrestarts)
    rw [← hid] at hget
    have hsettled := acceptCommandResponse_settled hbefore (ending.response c) (stamps (ending.response c).commandId) now hget
    rw [hpending] at hsettled
    cases hsettled

theorem setRestartPhase_restartId (m : ServerRuntime) (phase : RestartPhase) :
    (m.setRestartPhase phase).restartId = m.restartId := by
  unfold setRestartPhase restartId
  rw [Option.map_map]
  rfl

theorem closeChannels_restartId (m : ServerRuntime) (blocked : Option String) :
    (m.closeChannels blocked).restartId = m.restartId := by
  unfold closeChannels restartId
  dsimp only
  rw [Option.map_map]
  rfl

theorem priorityStop_single (h : s.priorityStop = true) : ∃ c, s = .single c ∧ c.command = "stop" := by
  cases s with
  | single c => exact ⟨c, rfl, beq_iff_eq.mp h⟩
  | chain b => cases h

theorem lifecycle_single {c : ServerCommand} (h : s.lifecycle = some c) : s = .single c := by
  cases s with
  | single other =>
    obtain ⟨-, h⟩ := Option.ite_none_right_eq_some.mp h
    rw [Option.some.inj h]
  | chain b => cases h

theorem Insertable.spare (h : Insertable settings m s (newRecords fingerprint s stamps)) :
    (m.insertSubmission s (newRecords fingerprint s stamps)).Spare settings := by
  have hall := insertRecords_total waits h.nodup fun r hr => h.none hr
  have hones : ((newRecords fingerprint s stamps).map fun r => waits (recordId r) r)
      = (newRecords fingerprint s stamps).map fun _ => 1 := by
    refine List.map_congr_left fun r hr => ?_
    rw [waits, CommandRecord.pending, h.new r hr]
    rfl
  have hcount : ((newRecords fingerprint s stamps).map fun _ => 1).sum = (newRecords fingerprint s stamps).length := by simp
  have hpending := h.pending
  rw [pendingRecords_length] at hpending
  unfold Spare
  rw [insert_records, hall, hones, hcount]
  by_cases hextra : s.priorityStop = true ∨ s.lifecycle.isSome = true
  · right
    have hplace : s.extraPlace = 1 := if_pos hextra
    refine ⟨by omega, ?_⟩
    obtain ⟨c, rfl⟩ : ∃ c, s = .single c := by
      rcases hextra with hstop | hlifecycle
      · obtain ⟨c, hc, -⟩ := priorityStop_single hstop
        exact ⟨c, hc⟩
      · obtain ⟨c, hc⟩ := Option.isSome_iff_exists.mp hlifecycle
        exact ⟨c, lifecycle_single hc⟩
    have hnew : newRecord fingerprint stamps Option.none 0 c ∈ newRecords fingerprint (.single c) stamps := List.mem_singleton_self _
    have hget := h.get?_new hnew
    rw [insert_records] at hget
    refine ⟨c.commandId, _, hget, rfl, ?_⟩
    rcases hextra with hstop | hlifecycle
    · left
      exact Bool.and_eq_true_iff.mpr ⟨hstop, rfl⟩
    · right
      obtain ⟨other, hother⟩ := Option.isSome_iff_exists.mp hlifecycle
      obtain rfl := Submission.single.inj (lifecycle_single hother)
      unfold insertSubmission
      dsimp only
      rw [hother]
      rfl
  · left
    have hplace : s.extraPlace = 0 := if_neg hextra
    omega

theorem submit_spare (hk : m.Kept settings) (hs : m.Spare settings) (document : Except String Submission)
    (clock : Nat → Nat) (stamps : Nat → String) : (m.submit settings fingerprint document clock stamps).1.Spare settings := by
  have hpruned := (prune_evicted hk.unique settings (clock 0) 0).eases.spare hs
  have hkept := hk.prune (clock 0) 0
  unfold submit
  dsimp only
  split
  · exact hpruned
  · rename_i s
    split
    · exact hpruned
    · split
      · exact hpruned
      · exact (receipt_evicted hkept _ _ _).eases.spare hpruned
      · rename_i hchecked
        have hevicted := prune_evicted hkept.unique settings (clock 1) s.commands.length
        have hagain := hevicted.eases.spare hpruned
        split
        · exact hagain
        · exact hagain
        · rename_i hroom hqueue
          have hinsertable := (checkSubmission_false hchecked).insertable hevicted hroom
          have hinserted := hinsertable.kept (hkept.prune _ _)
          exact (receipt_evicted hinserted _ _ _).eases.spare hinsertable.spare

theorem step_spare (hk : m.Kept settings) (hs : m.Spare settings) {action : Action}
    (hstep : m.step settings fingerprint action = some m') : m'.Spare settings := by
  cases action with
  | start =>
    obtain ⟨-, hstep⟩ := Option.ite_none_right_eq_some.mp hstep
    obtain rfl := Option.some.inj hstep
    exact hs.frame rfl rfl
  | submit document clock stamps =>
    obtain rfl := Option.some.inj hstep
    exact submit_spare hk hs document clock stamps
  | result i now =>
    obtain rfl := Option.some.inj hstep
    exact (result_evicted hk i now).eases.spare hs
  | read i name args =>
    simp only [step] at hstep
    split at hstep
    · cases hstep
    · obtain rfl := Option.some.inj hstep
      unfold read
      split
      · exact hs
      · split
        · exact hs
        · split
          · exact hs
          · split
            · exact hs
            · exact hs.frame rfl rfl
  | leaveRead i =>
    obtain ⟨-, hstep⟩ := Option.ite_none_right_eq_some.mp hstep
    obtain rfl := Option.some.inj hstep
    exact hs.frame rfl rfl
  | take =>
    simp only [step] at hstep
    split at hstep
    · cases hstep
    · obtain ⟨-, hstep⟩ := Option.ite_none_right_eq_some.mp hstep
      obtain rfl := Option.some.inj hstep
      exact hs.frame rfl rfl
  | reply message runtimeId stamps now =>
    obtain rfl := Option.some.inj hstep
    exact (acceptResponse_eases hk message _ stamps now).spare hs
  | lost message runtimeId stamps now =>
    obtain rfl := Option.some.inj hstep
    exact (unavailable_eases hk message _ stamps now).spare hs
  | exit =>
    obtain rfl := Option.some.inj hstep
    exact hs.frame rfl rfl
  | beginRestart shutdownId =>
    simp only [step] at hstep
    split at hstep
    · split at hstep
      · cases hstep
      · obtain rfl := Option.some.inj hstep
        unfold beginRestart
        split
        · exact hs.frame (setRestartPhase_restartId m _) rfl
        · exact hs.frame (setRestartPhase_restartId _ _) rfl
    · cases hstep
  | finishRestart previousId controller notes stamps now =>
    simp only [step] at hstep
    split at hstep
    · rename_i c phase hrestart
      obtain ⟨ending, -, rfl⟩ := Option.map_eq_some_iff.mp hstep
      exact finishLifecycle_spare hk hs hrestart ending stamps now
    · cases hstep
  | replace runtimeId =>
    simp only [step] at hstep
    split at hstep
    · rename_i c hrestart
      split at hstep
      · cases hstep
      · obtain rfl := Option.some.inj hstep
        refine hs.frame ?_ rfl
        rw [restartId, restartId, hrestart]
        rfl
    · cases hstep
  | startFails message shutdownId =>
    simp only [step] at hstep
    split at hstep
    · obtain rfl := Option.some.inj hstep
      exact hs.frame (setRestartPhase_restartId _ _) rfl
    · cases hstep
  | closeHttp =>
    obtain rfl := Option.some.inj hstep
    exact hs.frame rfl rfl
  | beginClose shutdownId =>
    simp only [step] at hstep
    split at hstep
    · obtain rfl := Option.some.inj hstep
      exact hs.frame rfl rfl
    · cases hstep
  | settle failed stamps now =>
    obtain ⟨-, hstep⟩ := Option.ite_none_right_eq_some.mp hstep
    obtain rfl := Option.some.inj hstep
    cases failed with
    | none => exact ((unavailable_eases hk closedMessage none stamps now).trans (.frame rfl rfl)).spare hs
    | some message => exact hs.frame rfl rfl
  | closeChannels blocked =>
    obtain ⟨-, hstep⟩ := Option.ite_none_right_eq_some.mp hstep
    obtain rfl := Option.some.inj hstep
    exact hs.frame (closeChannels_restartId m blocked) rfl

theorem Reachable.spare {Allowed : ServerRuntime → Action → Prop} (h : Reachable settings fingerprint Allowed m) :
    m.Spare settings := by
  induction h with
  | start instanceId runtimeId mode stopHttp => exact .inl (Nat.zero_le _)
  | step hbefore _ hnext ih => exact step_spare hbefore.kept ih hnext

end ServerRuntime

end ModularPipelines.Server
