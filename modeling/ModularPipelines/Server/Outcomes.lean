import ModularPipelines.Server.Steps

namespace ModularPipelines.Server
open Library

namespace ServerRuntime

variable {settings : ServerSettings} {fingerprint : Json → String} {m m' : ServerRuntime} {answered : String → Prop}
  {lost : Prop} {i : String} {r r' r'' : CommandRecord}

/-- A record is kept as it is, or gets an outcome that it may get. -/
def Survives (answered : String → Prop) (lost : Prop) (i : String) (r r' : CommandRecord) : Prop :=
  r' = r ∨ (∃ f, r' = { r with finished := some f }) ∧ (answered i ∧ r.open? = true ∨ lost ∧ r.pending = true)

theorem open_of_pending (h : r.pending = true) : r.open? = true := by
  rw [CommandRecord.open?, Option.isNone_iff_eq_none.mp h]
  rfl

theorem Survives.trans (h : Survives answered lost i r r') (g : Survives answered lost i r' r'') :
    Survives answered lost i r r'' := by
  rcases h with rfl | ⟨⟨f, rfl⟩, hmay⟩
  · exact g
  · rcases g with rfl | ⟨⟨f', rfl⟩, hagain⟩
    · exact .inr ⟨⟨f, rfl⟩, hmay⟩
    · refine .inr ⟨⟨f', rfl⟩, ?_⟩
      rcases hagain with ⟨hanswered, -⟩ | ⟨-, hpending⟩
      · rcases hmay with ⟨-, hopen⟩ | ⟨-, hpending⟩
        · exact .inl ⟨hanswered, hopen⟩
        · exact .inl ⟨hanswered, open_of_pending hpending⟩
      · cases hpending

/-- What becomes of each record; one that is evicted has been finished. -/
def Accounted (answered : String → Prop) (lost : Prop) (m m' : ServerRuntime) : Prop :=
  ∃ news, m'.history = m.history ++ news ∧ ∀ i r, m.records.get? i = some r →
    ∃ r', Survives answered lost i r r' ∧
      (m'.records.get? i = some r' ∨ ReceiptEvent.evicted i ∈ news ∧ r'.pending = false)

theorem Change.accounted (hc : Change settings answered lost m m') : Accounted answered lost m m' := by
  cases hc with
  | framed hrecords _ _ hhistory _ =>
    refine ⟨[], by rw [hhistory, List.append_nil], fun i r hget => ⟨r, .inl rfl, .inl ?_⟩⟩
    rw [hrecords]
    exact hget
  | evicted he =>
    obtain ⟨news, hnews, hevents⟩ := he.dropped.history
    refine ⟨news, hnews, fun i r hget => ⟨r, .inl rfl, ?_⟩⟩
    cases hnew : m'.records.contains i with
    | true =>
      left
      rw [he.dropped.get?_of_contains hnew]
      exact hget
    | false =>
      have hin : m.records.contains i = true := Option.isSome_iff_exists.mpr ⟨r, hget⟩
      exact .inr ⟨(hevents _).mpr ⟨i, rfl, hin, hnew⟩, he.dropped.finished i r hget (contains_false.mp hnew)⟩
  | finished f hget hopen hanswered =>
    rename_i j old
    refine ⟨[], (List.append_nil _).symm, fun i r hr => ?_⟩
    rw [finishRecord_get?]
    by_cases hi : i = j
    · subst hi
      obtain rfl := Option.some.inj (hget.symm.trans hr)
      rw [if_pos rfl]
      exact ⟨_, .inr ⟨⟨f, rfl⟩, .inl ⟨hanswered, hopen⟩⟩, .inl rfl⟩
    · rw [if_neg hi]
      exact ⟨r, .inl rfl, .inl hr⟩
  | lost message stamps hlost =>
    refine ⟨[], (List.append_nil _).symm, fun i r hr => ?_⟩
    rw [loseRecords_get?, hr]
    refine ⟨_, ?_, .inl rfl⟩
    unfold loseRecord
    split
    · rename_i hloses
      exact .inr ⟨⟨_, rfl⟩, .inr ⟨hlost, (Bool.and_eq_true_iff.mp hloses).2⟩⟩
    · exact .inl rfl
  | inserted hinsertable =>
    exact ⟨_, insert_history m _ _, fun i r hr => ⟨r, .inl rfl, .inl (hinsertable.get?_old hr)⟩⟩

theorem Changes.accounted (hc : Changes settings answered lost m m') : Accounted answered lost m m' := by
  induction hc with
  | refl => exact ⟨[], (List.append_nil _).symm, fun i r hr => ⟨r, .inl rfl, .inl hr⟩⟩
  | tail _ hlast ih =>
    obtain ⟨news, hnews, hbefore⟩ := ih
    obtain ⟨more, hmore, hafter⟩ := hlast.accounted
    refine ⟨news ++ more, by rw [hmore, hnews, List.append_assoc], fun i r hr => ?_⟩
    obtain ⟨r', hsurvives, hin | ⟨hevicted, hpending⟩⟩ := hbefore i r hr
    · obtain ⟨r'', hsurvives', hlater⟩ := hafter i r' hin
      exact ⟨r'', hsurvives.trans hsurvives', hlater.imp_right fun h => ⟨List.mem_append_right _ h.1, h.2⟩⟩
    · exact ⟨r', hsurvives, .inr ⟨List.mem_append_left _ hevicted, hpending⟩⟩

/-- A step never replaces a known outcome, replaces an unknown one only by an answer to the command, and
leaves an unfinished command until it is answered or its controller is lost. -/
theorem outcomes_settled {Allowed : ServerRuntime → Action → Prop} (h : Reachable settings fingerprint Allowed m)
    {action : Action} (hs : m.step settings fingerprint action = some m') :
    ∃ news, m'.history = m.history ++ news ∧
      (∀ i r, m.records.get? i = some r → r.open? = false →
        m'.records.get? i = some r ∨ ReceiptEvent.evicted i ∈ news) ∧
      (∀ i r, m.records.get? i = some r → r.open? = true → r.pending = false → ¬ action.Answers m i →
        m'.records.get? i = some r ∨ ReceiptEvent.evicted i ∈ news) ∧
      (∀ i r, m.records.get? i = some r → r.pending = true → ¬ action.Answers m i → ¬ action.Loses m →
        m'.records.get? i = some r) ∧
      ∀ i r r', m.records.get? i = some r → m'.records.get? i = some r' → ReceiptEvent.evicted i ∉ news →
        r'.request = r.request ∧ r'.chainId = r.chainId ∧ r'.fingerprint = r.fingerprint ∧ r'.submittedAt = r.submittedAt := by
  obtain ⟨news, hnews, haccounted⟩ := (step_progress h.kept hs).changes.accounted
  refine ⟨news, hnews, fun i r hr hopen => ?_, fun i r hr _ hpending hanswered => ?_,
    fun i r hr hpending hanswered hlost => ?_, fun i r r' hr hr' hstays => ?_⟩
  · obtain ⟨r', rfl | ⟨-, hmay⟩, hlater⟩ := haccounted i r hr
    · exact hlater.imp_right And.left
    · rcases hmay with ⟨-, hopen'⟩ | ⟨-, hpending⟩
      · cases hopen.symm.trans hopen'
      · cases hopen.symm.trans (open_of_pending hpending)
  · obtain ⟨r', rfl | ⟨-, hmay⟩, hlater⟩ := haccounted i r hr
    · exact hlater.imp_right And.left
    · rcases hmay with ⟨hyes, -⟩ | ⟨-, hpending'⟩
      · exact (hanswered hyes).elim
      · cases hpending.symm.trans hpending'
  · obtain ⟨r', rfl | ⟨-, hmay⟩, hlater⟩ := haccounted i r hr
    · exact hlater.resolve_right fun hgone => Bool.false_ne_true (hgone.2.symm.trans hpending)
    · rcases hmay with ⟨hyes, -⟩ | ⟨hyes, -⟩
      · exact (hanswered hyes).elim
      · exact (hlost hyes).elim
  · obtain ⟨found, hsurvives, hin | hgone⟩ := haccounted i r hr
    · obtain rfl := Option.some.inj (hin.symm.trans hr')
      rcases hsurvives with rfl | ⟨⟨f, rfl⟩, -⟩
      · exact ⟨rfl, rfl, rfl, rfl⟩
      · exact ⟨rfl, rfl, rfl, rfl⟩
    · exact (hstays hgone.1).elim

theorem outcomes_settled_resume : ∃ m m', (init "server" "runtime" .run false).run smallSettings Json.dumps resuming = some m ∧
    m.step smallSettings Json.dumps resumeAnswer = some m' ∧ m'.records.contains "resume-1" = true ∧
    ∃ news, m'.history = m.history ++ news := by
  have hrun : (((init "server" "runtime" .run false).run smallSettings Json.dumps resuming).bind fun m =>
      m.step smallSettings Json.dumps resumeAnswer).map (fun m => m.records.contains "resume-1") = some true := by decide +kernel
  obtain ⟨m', hm', hkept⟩ := Option.map_eq_some_iff.mp hrun
  obtain ⟨m, hm, hstep⟩ := Option.bind_eq_some_iff.mp hm'
  have hreachable : Reachable smallSettings Json.dumps (fun _ _ => True) m :=
    (Reachable.start "server" "runtime" .run false).run (fun _ _ => trivial) hm
  obtain ⟨news, hnews, -⟩ := outcomes_settled hreachable hstep
  exact ⟨m, m', hm, hstep, hkept, news, hnews⟩

end ServerRuntime

end ModularPipelines.Server
