import ModularPipelines.Server.Steps

namespace ModularPipelines.Server
open Library

namespace ServerRuntime

variable {settings : ServerSettings} {fingerprint : Json → String} {m m' : ServerRuntime} {s : Submission}
  {records : List CommandRecord} {chainId : Option String} {i : String} {r : CommandRecord}
  {stamps : Nat → String}

/-- A command that has no outcome yet, in its chain. -/
def Awaits (m : ServerRuntime) (chainId : Option String) (i : String) : Prop :=
  ∃ r, m.records.get? i = some r ∧ r.pending = true ∧ r.chainId = chainId

theorem Awaits.evicted (h : m.Awaits chainId i) (he : Evicted m m') : m'.Awaits chainId i := by
  obtain ⟨r, hget, hpending, hchain⟩ := h
  exact ⟨r, he.dropped.pending hget hpending, hpending, hchain⟩

theorem setMember_depth (key text : String) (ms : List (String × Json)) (h : Json.depthMembers ms ≤ 1) :
    Json.depthMembers (Json.setMember key (.str text) ms) ≤ 1 := by
  induction ms with
  | nil => simp [Json.setMember, Json.depthMembers, Json.depth]
  | cons m ms ih =>
    obtain ⟨k, x⟩ := m
    rw [Json.depthMembers, Nat.max_le] at h
    unfold Json.setMember
    split
    · rw [Json.depthMembers, Nat.max_le]
      exact ⟨Nat.le_refl _, h.2⟩
    · rw [Json.depthMembers, Nat.max_le]
      exact ⟨h.1, ih h.2⟩

theorem pendingResponse_depth (i : String) (r : CommandRecord) :
    ∃ ms, (pendingResponse i r).document = .obj ms ∧ Json.depthMembers ms ≤ 1 := by
  refine ⟨_, rfl, ?_⟩
  cases hc : r.chainId <;>
    simp [pendingResponse, Json.depthMembers, Json.depth, chainDocument, CommandState.result, hc]

theorem commandReceipt_depth (m : ServerRuntime) (i : String) (hpending : r.pending = true) :
    (m.commandReceipt i r).depth ≤ 1 := by
  have hnone : r.finished = none := Option.isNone_iff_eq_none.mp hpending
  obtain ⟨ms, hms, hdepth⟩ := pendingResponse_depth i r
  have hcurrent : currentResponse i r = pendingResponse i r := by rw [currentResponse, hnone]; rfl
  rw [commandReceipt, hcurrent, hms]
  exact setMember_depth _ _ _ (setMember_depth _ _ _ hdepth)

theorem result_ok (h : m.Kept settings) (hi : m.Awaits chainId i) (now : Nat) :
    ∃ f, (m.result settings i now).2 = .ok f ∧ f.1.chainId = chainId ∧ f.2.depth ≤ 1 := by
  obtain ⟨r, hget, hpending, hchain⟩ := hi.evicted (prune_evicted h.unique settings now 0)
  have hnone : r.finished = none := Option.isNone_iff_eq_none.mp hpending
  unfold result
  dsimp only
  rw [hget]
  refine ⟨_, rfl, ?_, commandReceipt_depth _ i hpending⟩
  rw [currentResponse, hnone]
  exact hchain

theorem results_ok (h : m.Kept settings) (clock : Nat → Nat) {ids : List String} (hids : ∀ i ∈ ids, m.Awaits chainId i) :
    ∃ found, (m.results settings clock ids).2 = .ok found ∧ ∀ f ∈ found, f.1.chainId = chainId ∧ f.2.depth ≤ 1 := by
  induction ids generalizing m clock with
  | nil => exact ⟨[], rfl, fun f hf => by cases hf⟩
  | cons i rest ih =>
    obtain ⟨f, hf, hfacts⟩ := result_ok h (hids i (List.mem_cons_self ..)) (clock 0)
    have hevicted := result_evicted h i (clock 0)
    obtain ⟨others, hothers, hall⟩ := ih (hevicted.kept h) (fun i => clock (i + 1)) fun j hj =>
      (hids j (List.mem_cons_of_mem _ hj)).evicted hevicted
    unfold results
    generalize hfirst : m.result settings i (clock 0) = first at hf hothers
    obtain ⟨next, outcome⟩ := first
    subst hf
    generalize hrest : next.results settings (fun i => clock (i + 1)) rest = last at hothers
    obtain ⟨final, outcomes⟩ := last
    subst hothers
    simp only [hrest]
    refine ⟨f :: others, rfl, fun g hg => ?_⟩
    rcases List.mem_cons.mp hg with rfl | hg
    · exact hfacts
    · exact hall g hg

theorem elems_depth {xs : List Json} {n : Nat} (h : ∀ x ∈ xs, x.depth ≤ n) : Json.depthElems xs ≤ n + 1 := by
  induction xs with
  | nil => exact Nat.zero_le _
  | cons x xs ih =>
    rw [Json.depthElems, Nat.max_le]
    exact ⟨Nat.succ_le_succ (h x (List.mem_cons_self ..)), ih fun y hy => h y (List.mem_cons_of_mem _ hy)⟩

/-- Commands that are pending always have a receipt. -/
theorem receipt_ok (h : m.Kept settings) (clock : Nat → Nat) {ids : List String} (hne : ids ≠ [])
    (hids : ∀ i ∈ ids, m.Awaits chainId i) : ∃ receipt, (m.receipt settings ids chainId clock).2 = .ok receipt := by
  unfold receipt
  cases chainId with
  | none =>
    cases ids with
    | nil => exact (hne rfl).elim
    | cons i rest =>
      obtain ⟨f, hf, -⟩ := result_ok h (hids i (List.mem_cons_self ..)) (clock 0)
      dsimp only
      generalize m.result settings i (clock 0) = first at hf ⊢
      obtain ⟨next, outcome⟩ := first
      subst hf
      exact ⟨f.2, rfl⟩
  | some c =>
    obtain ⟨found, hfound, hall⟩ := results_ok h clock hids
    dsimp only
    generalize m.results settings clock ids = last at hfound ⊢
    obtain ⟨next, outcome⟩ := last
    subst hfound
    have hsame : found.any (fun f => f.1.chainId.any fun c' => c' != c) = false := by
      rw [List.any_eq_false]
      intro f hf
      rw [(hall f hf).1]
      simp
    have hdepth : (next.chainReceipt c (found.map Prod.snd)).depth ≤ 3 := by
      have helems : Json.depthElems (found.map Prod.snd) ≤ 2 := by
        apply elems_depth
        intro x hx
        obtain ⟨f, hf, rfl⟩ := List.mem_map.mp hx
        exact (hall f hf).2
      simp only [chainReceipt, Json.depth, Json.depthMembers]
      omega
    have hshallow : ¬ maxDepth < (next.chainReceipt c (found.map Prod.snd)).depth := by
      unfold maxDepth
      omega
    refine ⟨next.chainReceipt c (found.map Prod.snd), ?_⟩
    simp only [hsame, Bool.false_eq_true, if_false, if_neg hshallow]

/-- Everything that a submission is checked for, in the state that it is inserted in. -/
structure Admitted (settings : ServerSettings) (m : ServerRuntime) (s : Submission) (records : List CommandRecord) :
    Prop where
  size : s.document.bytes Char.utf8Size ≤ settings.maxRequestBytes
  passed : m.Passed s
  alone : m.Alone s
  insertable : Insertable settings m s records
  queue : m.checkQueue settings s = .ok ()

/-- The submission has been accepted: its records are new and pending, and the controller or the owner
has them to do. -/
structure Accepted (settings : ServerSettings) (m m' : ServerRuntime) (s : Submission) (records : List CommandRecord) :
    Prop where
  room : ∃ before, Evicted m before ∧ Admitted settings before s records ∧
    Evicted (before.insertSubmission s records) m'
  pending : ∀ r ∈ records, m'.records.get? (recordId r) = some r

/-- Each command is retained with the same content. -/
def Repeated (m : ServerRuntime) (records : List CommandRecord) : Prop :=
  ∀ r ∈ records, ∃ kept, m.records.get? (recordId r) = some kept ∧ kept.fingerprint = r.fingerprint

theorem checkSubmission_true (h : m.checkSubmission settings s records = .ok true) : m.Repeated records := by
  unfold checkSubmission at h
  obtain ⟨u, -, h⟩ := bind_ok.mp h
  obtain ⟨retained, hretained, h⟩ := bind_ok.mp h
  have htrue : retained = true := by
    cases retained with
    | true => rfl
    | false =>
      obtain ⟨u', -, h⟩ := bind_ok.mp h
      cases hl : s.lifecycle with
      | none =>
        rw [hl] at h
        obtain ⟨v, -, h⟩ := bind_ok.mp h
        obtain ⟨w, -, h⟩ := bind_ok.mp h
        cases h
      | some c =>
        rw [hl] at h
        obtain ⟨v, -, h⟩ := bind_ok.mp h
        obtain ⟨w, -, h⟩ := bind_ok.mp h
        cases h
  subst htrue
  unfold isRetainedSubmission at hretained
  split at hretained
  · split at hretained
    · rename_i hall
      intro r hr
      have hsame := List.all_eq_true.mp hall r hr
      unfold sameRequest at hsame
      cases hget : m.records.get? r.request.commandId with
      | none =>
        rw [hget] at hsame
        cases hsame
      | some kept =>
        rw [hget] at hsame
        exact ⟨kept, hget, beq_iff_eq.mp hsame⟩
    · cases hretained
  · cases hretained

theorem Repeated.checked (h : m.Repeated records) (hne : records ≠ []) : m.checkSubmission settings s records ≠ .ok false := by
  intro hchecked
  obtain ⟨r, rest, rfl⟩ := List.exists_cons_of_ne_nil hne
  obtain ⟨kept, hget, -⟩ := h r (List.mem_cons_self ..)
  have habsent := (checkSubmission_false hchecked).absent r (List.mem_cons_self ..)
  rw [contains_false, hget] at habsent
  cases habsent

/-- After the insertion the answer is the receipt of the new records. -/
theorem Insertable.answered (h : Insertable settings m s (newRecords fingerprint s stamps)) (hk : m.Kept settings)
    (clock : Nat → Nat) :
    (∃ receipt, ((m.insertSubmission s (newRecords fingerprint s stamps)).receipt settings s.identifiers s.chainId clock).2
        = .ok receipt) ∧
      ∀ r ∈ newRecords fingerprint s stamps, ((m.insertSubmission s (newRecords fingerprint s stamps)).receipt settings
        s.identifiers s.chainId clock).1.records.get? (recordId r) = some r := by
  have hpending : ∀ r ∈ newRecords fingerprint s stamps, r.pending = true := by
    intro r hr
    rw [CommandRecord.pending, (mem_newRecords hr).1]
    rfl
  refine ⟨receipt_ok (h.kept hk) clock ?_ fun i hi => ?_, fun r hr => ?_⟩
  · intro hnil
    exact Insertable.nonempty s (List.map_eq_nil_iff.mp hnil)
  · rw [← newRecords_ids fingerprint s stamps] at hi
    obtain ⟨r, hr, rfl⟩ := List.mem_map.mp hi
    exact ⟨r, h.get?_new hr, hpending r hr, (mem_newRecords hr).2.1⟩
  · exact (receipt_evicted (h.kept hk) _ _ clock).dropped.pending (h.get?_new hr) (hpending r hr)

/-- A submission that is rejected or repeated only evicts finished receipts, and any other gives its commands
new pending records. -/
theorem submit_answered {Allowed : ServerRuntime → Action → Prop} (h : Reachable settings fingerprint Allowed m)
    (document : Except String Submission) (clock : Nat → Nat) (stamps : Nat → String) :
    (∀ e, (m.submit settings fingerprint document clock stamps).2 = .error e →
        Evicted m (m.submit settings fingerprint document clock stamps).1) ∧
      (∀ s, document = .ok s → (m.prune settings (clock 0) 0).Repeated (newRecords fingerprint s stamps) →
        Evicted m (m.submit settings fingerprint document clock stamps).1) ∧
      ∀ receipt, (m.submit settings fingerprint document clock stamps).2 = .ok receipt → ∃ s, document = .ok s ∧
        (Evicted m (m.submit settings fingerprint document clock stamps).1 ∧
            m.Repeated (newRecords fingerprint s stamps) ∨
          Accepted settings m (m.submit settings fingerprint document clock stamps).1 s
            (newRecords fingerprint s stamps)) := by
  have hk := h.kept
  have hpruned := prune_evicted hk.unique settings (clock 0) 0
  have hkept := hpruned.kept hk
  unfold submit
  dsimp only
  split
  · exact ⟨fun _ _ => hpruned, fun s hs => (by cases hs), fun _ hok => by cases hok⟩
  · rename_i s
    split
    · exact ⟨fun _ _ => hpruned, fun _ _ _ => hpruned, fun _ hok => by cases hok⟩
    · rename_i hsize
      split
      · exact ⟨fun _ _ => hpruned, fun _ _ _ => hpruned, fun _ hok => by cases hok⟩
      · rename_i hchecked
        have hreceipt := hpruned.trans (receipt_evicted hkept s.identifiers s.chainId fun i => clock (i + 2))
        refine ⟨fun _ _ => hreceipt, fun _ _ _ => hreceipt, fun _ _ => ⟨s, rfl, .inl ⟨hreceipt, fun r hr => ?_⟩⟩⟩
        obtain ⟨kept, hget, hsame⟩ := checkSubmission_true hchecked r hr
        exact ⟨kept, hpruned.dropped.get? hget, hsame⟩
      · rename_i hchecked
        have hagain := prune_evicted hkept.unique settings (clock 1) s.commands.length
        have hboth := hpruned.trans hagain
        have hne : newRecords fingerprint s stamps ≠ [] := by
          intro hnil
          have hlength := newRecords_length fingerprint s stamps
          rw [hnil] at hlength
          exact Insertable.nonempty s (List.length_eq_zero_iff.mp hlength.symm)
        split
        · exact ⟨fun _ _ => hboth, fun _ _ _ => hboth, fun _ hok => by cases hok⟩
        · exact ⟨fun _ _ => hboth, fun _ _ _ => hboth, fun _ hok => by cases hok⟩
        · rename_i hroom hqueue
          have hfound := checkSubmission_false hchecked
          have hinsertable := hfound.insertable hagain hroom
          obtain ⟨⟨receipt, hreceipt⟩, hnew⟩ :=
            hinsertable.answered (hagain.kept hkept) fun i => clock (i + 2)
          refine ⟨fun e he => ?_, fun s' hs' hrepeated => ?_, fun _ _ => ⟨s, rfl, .inr ⟨⟨_, hboth, ?_, ?_⟩, hnew⟩⟩⟩
          · cases hreceipt.symm.trans he
          · obtain rfl := Except.ok.inj hs'
            exact (hrepeated.checked hne hchecked).elim
          · exact ⟨Nat.not_lt.mp hsize, hfound.passed.evicted hagain, hfound.alone.evicted hagain, hinsertable, hqueue⟩
          · exact receipt_evicted (hinsertable.kept (hagain.kept hkept)) _ _ _

/-- An accepted submission is repeated by the same one. -/
theorem Accepted.repeated (h : Accepted settings m m' s (newRecords fingerprint s stamps)) (hk : m'.Kept settings)
    (now : Nat) (stamps' : Nat → String) : (m'.prune settings now 0).Repeated (newRecords fingerprint s stamps') := by
  intro r hr
  obtain ⟨k, hk', rfl⟩ := List.mem_mapIdx.mp hr
  have hmem : newRecord fingerprint stamps s.chainId k s.commands[k] ∈ newRecords fingerprint s stamps :=
    List.mem_mapIdx.mpr ⟨k, hk', rfl⟩
  exact ⟨newRecord fingerprint stamps s.chainId k s.commands[k],
    (prune_evicted hk.unique settings now 0).dropped.pending (h.pending _ hmem) rfl, rfl⟩

/-- A chain that fills the places for pending commands. -/
def resumeChain : ServerChain :=
  ⟨"chain-1", [resumeCommand, { resumeCommand with commandId := "resume-2" }], List.cons_ne_nil _ _, by decide⟩

/-- A controller is ready, and a chain is given to it. -/
def chaining : List Action :=
  [.start, .reply .ready "runtime" (fun _ => 0) 0, .submit (.ok (.chain resumeChain)) (fun _ => 1) (fun _ => "now")]

/-- The chain is accepted, and the same chain then changes nothing. -/
theorem submit_answered_resume : ∃ m m', (init "server" "runtime" .run false).run smallSettings Json.dumps
      [.start, .reply .ready "runtime" (fun _ => 0) 0] = some m ∧
    (m.submit smallSettings Json.dumps (.ok (.chain resumeChain)) (fun _ => 1) (fun _ => "now")).1 = m' ∧
    Accepted smallSettings m m' (.chain resumeChain) (newRecords Json.dumps (.chain resumeChain) (fun _ => "now")) ∧
    Evicted m' (m'.submit smallSettings Json.dumps (.ok (.chain resumeChain)) (fun _ => 3) (fun _ => "later")).1 := by
  have hrun : ((init "server" "runtime" .run false).run smallSettings Json.dumps
      [.start, .reply .ready "runtime" (fun _ => 0) 0]).map (fun m => (m.records.contains "resume-1",
        (m.submit smallSettings Json.dumps (.ok (.chain resumeChain)) (fun _ => 1) (fun _ => "now")).2.toBool))
        = some (false, true) := by decide +kernel
  obtain ⟨m, hm, hfacts⟩ := Option.map_eq_some_iff.mp hrun
  obtain ⟨hnew, hok⟩ := Prod.mk.inj hfacts
  have hreachable : Reachable smallSettings Json.dumps (fun _ _ => True) m :=
    (Reachable.start "server" "runtime" .run false).run (fun _ _ => trivial) hm
  have hnext : m.step smallSettings Json.dumps (.submit (.ok (.chain resumeChain)) (fun _ => 1) (fun _ => "now")) =
      some (m.submit smallSettings Json.dumps (.ok (.chain resumeChain)) (fun _ => 1) (fun _ => "now")).1 := rfl
  have hlater := hreachable.step trivial hnext
  have haccepted : Accepted smallSettings m
      (m.submit smallSettings Json.dumps (.ok (.chain resumeChain)) (fun _ => 1) (fun _ => "now")).1 (.chain resumeChain)
      (newRecords Json.dumps (.chain resumeChain) (fun _ => "now")) := by
    cases hanswer : (m.submit smallSettings Json.dumps (.ok (.chain resumeChain)) (fun _ => 1) (fun _ => "now")).2 with
    | error e =>
      rw [hanswer] at hok
      cases hok
    | ok receipt =>
      obtain ⟨s, hs, ⟨-, hrepeated⟩ | haccepted⟩ := (submit_answered hreachable _ _ _).2.2 receipt hanswer
      · obtain rfl := Except.ok.inj hs
        obtain ⟨kept, hget, -⟩ := hrepeated _ (List.mem_cons_self ..)
        change m.records.get? "resume-1" = some kept at hget
        rw [contains_false.mp hnew] at hget
        cases hget
      · obtain rfl := Except.ok.inj hs
        exact haccepted
  exact ⟨m, _, hm, rfl, haccepted, (submit_answered hlater _ _ _).2.1 _ rfl (haccepted.repeated hlater.kept _ _)⟩

end ServerRuntime

end ModularPipelines.Server
