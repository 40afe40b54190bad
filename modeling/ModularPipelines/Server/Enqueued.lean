import ModularPipelines.Server.Steps

namespace ModularPipelines.Server
open Library

/-- A command has been given to a runtime, and its receipt has not been evicted since. -/
def EnqueuedSince (history : List ReceiptEvent) (i : String) : Prop :=
  ∃ before after runtimeId, history = before ++ .enqueued runtimeId i :: after ∧ ReceiptEvent.evicted i ∉ after

/-- Between two times that a command is given to a runtime, its receipt has been evicted. -/
def EnqueuedOnce (history : List ReceiptEvent) : Prop :=
  ∀ before between after i runtimeId runtimeId',
    history = before ++ .enqueued runtimeId i :: between ++ .enqueued runtimeId' i :: after →
      ReceiptEvent.evicted i ∈ between

section history

variable {history : List ReceiptEvent} {event : ReceiptEvent} {i : String}

theorem enqueuedSince_concat (h : EnqueuedSince (history ++ [event]) i) :
    (∃ runtimeId, event = .enqueued runtimeId i) ∨ EnqueuedSince history i ∧ event ≠ .evicted i := by
  obtain ⟨before, after, runtimeId, heq, hstays⟩ := h
  rcases List.eq_nil_or_concat after with rfl | ⟨rest, last, rfl⟩
  · exact .inl ⟨runtimeId, List.singleton_inj.mp (List.append_inj' heq rfl).2⟩
  · rw [List.concat_eq_append, ← List.cons_append, ← List.append_assoc] at heq
    obtain ⟨rfl, hlast⟩ := List.append_inj' heq rfl
    obtain rfl := List.singleton_inj.mp hlast
    rw [List.concat_eq_append] at hstays
    refine .inr ⟨⟨before, rest, runtimeId, rfl, fun hin => hstays (List.mem_append_left _ hin)⟩, ?_⟩
    rintro rfl
    exact hstays (List.mem_append_right _ (List.mem_singleton_self _))

theorem EnqueuedOnce.concat (h : EnqueuedOnce history)
    (hnew : ∀ runtimeId i, event = .enqueued runtimeId i → ¬ EnqueuedSince history i) :
    EnqueuedOnce (history ++ [event]) := by
  intro before between after i runtimeId runtimeId' heq
  rcases List.eq_nil_or_concat after with rfl | ⟨rest, last, rfl⟩
  · obtain ⟨rfl, hlast⟩ := List.append_inj' heq rfl
    by_contra hstays
    exact hnew runtimeId' i (List.singleton_inj.mp hlast) ⟨before, between, runtimeId, rfl, hstays⟩
  · rw [List.concat_eq_append, ← List.cons_append, ← List.append_assoc] at heq
    obtain ⟨rfl, -⟩ := List.append_inj' heq rfl
    exact h before between rest i runtimeId runtimeId' rfl

/-- What the history says about the retained commands. -/
structure Told (history : List ReceiptEvent) (retained : String → Prop) : Prop where
  once : EnqueuedOnce history
  retained : ∀ i, EnqueuedSince history i → retained i

theorem Told.nil (retained : String → Prop) : Told [] retained := by
  refine ⟨fun before between after i runtimeId runtimeId' heq => ?_, fun i h => ?_⟩
  · exact (List.append_ne_nil_of_right_ne_nil _ (List.cons_ne_nil _ _) heq.symm).elim
  · obtain ⟨before, after, runtimeId, heq, -⟩ := h
    exact (List.append_ne_nil_of_right_ne_nil _ (List.cons_ne_nil _ _) heq.symm).elim

theorem Told.mono {retained retained' : String → Prop} (h : Told history retained) (hmono : ∀ i, retained i → retained' i) :
    Told history retained' := ⟨h.once, fun i hi => hmono i (h.retained i hi)⟩

theorem Told.enqueue {retained : String → Prop} (h : Told history retained) (runtimeId : String) (hnew : ¬ retained i) :
    Told (history ++ [.enqueued runtimeId i]) fun j => retained j ∨ j = i := by
  refine ⟨h.once.concat fun other j heq hsince => ?_, fun j hsince => ?_⟩
  · cases heq
    exact hnew (h.retained i hsince)
  · rcases enqueuedSince_concat hsince with ⟨other, heq⟩ | ⟨hold, -⟩
    · cases heq
      exact .inr rfl
    · exact .inl (h.retained j hold)

theorem Told.enqueueAll {retained : String → Prop} (h : Told history retained) (runtimeId : String) {ids : List String}
    (hdistinct : ids.Nodup) (hnew : ∀ i ∈ ids, ¬ retained i) :
    Told (history ++ ids.map (.enqueued runtimeId)) fun j => retained j ∨ j ∈ ids := by
  induction ids generalizing history retained with
  | nil =>
    rw [List.map_nil, List.append_nil]
    exact h.mono fun j hj => .inl hj
  | cons i rest ih =>
    obtain ⟨hnot, hrest⟩ := List.nodup_cons.mp hdistinct
    have hfirst := h.enqueue runtimeId (hnew i (List.mem_cons_self ..))
    have hall := ih hfirst hrest fun j hj hin => by
      rcases hin with hin | rfl
      · exact hnew j (List.mem_cons_of_mem _ hj) hin
      · exact hnot hj
    rw [List.map_cons, List.append_cons]
    refine hall.mono fun j hj => ?_
    rcases hj with (hj | rfl) | hj
    · exact .inl hj
    · exact .inr (List.mem_cons_self ..)
    · exact .inr (List.mem_cons_of_mem _ hj)

theorem Told.evict {retained : String → Prop} (h : Told history retained) {news : List ReceiptEvent}
    (hnews : ∀ event ∈ news, ∃ i, event = .evicted i) :
    Told (history ++ news) fun j => retained j ∧ ReceiptEvent.evicted j ∉ news := by
  induction news generalizing history retained with
  | nil =>
    rw [List.append_nil]
    exact h.mono fun j hj => ⟨hj, List.not_mem_nil⟩
  | cons event rest ih =>
    obtain ⟨i, rfl⟩ := hnews event (List.mem_cons_self ..)
    have hfirst : Told (history ++ [.evicted i]) fun j => retained j ∧ ReceiptEvent.evicted j ≠ .evicted i := by
      refine ⟨h.once.concat (fun runtimeId j heq => by cases heq), fun j hsince => ?_⟩
      rcases enqueuedSince_concat hsince with ⟨runtimeId, heq⟩ | ⟨hold, hne⟩
      · cases heq
      · exact ⟨h.retained j hold, hne.symm⟩
    rw [List.append_cons]
    refine (ih hfirst fun event hevent => hnews event (List.mem_cons_of_mem _ hevent)).mono fun j hj => ⟨hj.1.1, ?_⟩
    rw [List.mem_cons]
    exact fun hin => hin.elim hj.1.2 hj.2

end history

namespace ServerRuntime

variable {settings : ServerSettings} {fingerprint : Json → String} {m m' : ServerRuntime} {answered : String → Prop}
  {lost : Prop}

/-- The history agrees with the retained records. -/
def Recounted (m : ServerRuntime) : Prop := Told m.history fun i => m.records.contains i = true

theorem Change.recounted (hc : Change settings answered lost m m') (h : m.Recounted) : m'.Recounted := by
  cases hc with
  | framed hrecords _ _ hhistory _ =>
    rw [Recounted, hrecords, hhistory]
    exact h
  | evicted he =>
    obtain ⟨news, hnews, hevents⟩ := he.dropped.history
    have honly : ∀ event ∈ news, ∃ i, event = .evicted i := by
      intro event hevent
      obtain ⟨i, rfl, -⟩ := (hevents event).mp hevent
      exact ⟨i, rfl⟩
    rw [Recounted, hnews]
    refine (Told.evict h honly).mono fun i hi => ?_
    by_contra hgone
    exact hi.2 ((hevents _).mpr ⟨i, rfl, hi.1, Bool.eq_false_iff.mpr hgone⟩)
  | finished f hget _ _ => exact Told.mono h fun i hi => (finishRecord_contains hget i).symm ▸ hi
  | lost message stamps _ => exact Told.mono h fun i hi => (loseRecords_contains m message stamps i).symm ▸ hi
  | inserted hinsertable =>
    rw [Recounted, insert_history]
    split
    · have hnew : ∀ i, i ∈ _ → ¬ m.records.contains i = true := fun i hi hin =>
        Bool.false_ne_true ((hinsertable.absent i hi).symm.trans hin)
      refine (Told.enqueueAll h m.runtimeId hinsertable.distinct hnew).mono fun i hi => ?_
      rcases hi with hi | hi
      · exact hinsertable.contains_old hi
      · exact hinsertable.contains_new hi
    · rw [List.append_nil]
      exact Told.mono h fun i hi => hinsertable.contains_old hi

theorem Changes.recounted (hc : Changes settings answered lost m m') (h : m.Recounted) : m'.Recounted := by
  induction hc with
  | refl => exact h
  | tail _ hlast ih => exact hlast.recounted ih

theorem Reachable.recounted {Allowed : ServerRuntime → Action → Prop} (h : Reachable settings fingerprint Allowed m) :
    m.Recounted := by
  induction h with
  | start instanceId runtimeId mode stopHttp => exact .nil _
  | step hbefore _ hnext ih => exact (step_progress hbefore.kept hnext).changes.recounted ih

/-- While its receipt is retained, a command is given to a controller at most once. -/
theorem enqueued_once {Allowed : ServerRuntime → Action → Prop} (h : Reachable settings fingerprint Allowed m) :
    EnqueuedOnce m.history ∧ ∀ i, EnqueuedSince m.history i → m.records.contains i = true :=
  ⟨h.recounted.once, h.recounted.retained⟩

/-- The outcome of a command is dropped when it is too old, and the same command is given to the controller again. -/
def resumedTwice : List Action :=
  resuming ++ [resumeAnswer, .submit (.ok (.single resumeCommand)) (fun _ => 100) (fun _ => "later")]

theorem enqueued_once_resume : ∃ m, (init "server" "runtime" .run false).run smallSettings Json.dumps resumedTwice = some m ∧
    m.history = [.enqueued "runtime" "resume-1", .evicted "resume-1", .enqueued "runtime" "resume-1"] ∧
    EnqueuedOnce m.history := by
  have hrun : ((init "server" "runtime" .run false).run smallSettings Json.dumps resumedTwice).map history
      = some [.enqueued "runtime" "resume-1", .evicted "resume-1", .enqueued "runtime" "resume-1"] := by decide +kernel
  obtain ⟨m, hm, hhistory⟩ := Option.map_eq_some_iff.mp hrun
  have hreachable : Reachable smallSettings Json.dumps (fun _ _ => True) m :=
    (Reachable.start "server" "runtime" .run false).run (fun _ _ => trivial) hm
  exact ⟨m, hm, hhistory, (enqueued_once hreachable).1⟩

end ServerRuntime

end ModularPipelines.Server
