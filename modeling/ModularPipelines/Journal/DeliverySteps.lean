import ModularPipelines.Journal.ExactlyOnce

namespace ModularPipelines.Journal
open Library JournalClient

/-- Frames on a wire that answer for at most one call. -/
def Single (call : JournalCall) (w : Wire) : Prop :=
  w.outstanding = [] ∨ ∃ frame, w.outstanding = [frame] ∧ frame.call = call

/-- The client against the session: one append waits for one reply, every frame is an
event of the session and every reply that is under way tells the truth. -/
structure Lines (settings : Settings) (s : Delivery) : Prop where
  writes : s.exchange.client.readOnly = false ∧ s.exchange.client.requestTimeout = none
  sent : ∀ r ∈ s.sent, r.call ∈ s.session.calls
  wire : ∀ w, s.exchange.client.socket = some w → ∀ r ∈ w.outstanding, r.call ∈ s.session.calls
  replies : ∀ w, s.exchange.client.socket = some w → ∀ a ∈ w.replies, ReplyTrue settings s.writer.store a
  idle : s.exchange.client.phase = .idle → s.session.pending = none
  trying : ∀ p, s.exchange.client.phase = .trying p → s.session.pending = some p.call ∧ p.deadline = none
  receiving : ∀ p n, s.exchange.client.phase = .receiving p n →
    s.session.pending = some p.call ∧ p.deadline = none
  quiet : s.session.failed = false → (∀ p n, s.exchange.client.phase ≠ .receiving p n) →
    ∀ w, s.exchange.client.socket = some w → w.outstanding = []
  single : ∀ p n, s.exchange.client.phase = .receiving p n →
    ∀ w, s.exchange.client.socket = some w → Single p.call w

structure Ledger (settings : Settings) (s : Delivery) : Prop where
  books : Books settings s.writer.store s.session
  lines : Lines settings s

theorem Books.permitted {settings : Settings} {j k : EventStore} {s : LoggerSession} {c : JournalCall}
    (hb : Books settings j s) (hc : c ∈ s.calls) (h : Growth settings j k c) : Permitted s c := by
  refine .inl ⟨hc, ?_⟩
  obtain hfin | hpend := List.mem_append.mp hc
  · right
    obtain ⟨⟨c', e⟩, hmem, rfl⟩ := List.mem_map.mp hfin
    have hshown := hb.shown _ hmem
    cases e with
    | confirmed eventId => exact (hshown.1.spent.no_growth h).elim
    | raised error =>
      by_contra hf
      have href := hb.refused (by simpa using hf) c' error hmem
      exact (hshown href).2.no_growth h
  · exact .inl (Option.mem_toList.mp hpend)

/-- A frame of somebody else. -/
def Foreign (s : LoggerSession) (c : JournalCall) : Prop :=
  ∀ event, c.event = some event → event.producerInstanceId ≠ s.producerInstanceId ∧
    ∀ other ∈ s.calls, other.eventId ≠ some event.eventId

theorem apply_books {settings : Settings} {w : JournalWriter} {s : LoggerSession} {r : JournalRequest}
    (o : Conditions) (hb : Books settings w.store s) (hr : r.call ∈ s.calls ∨ Foreign s r.call) :
    Books settings (w.apply settings r o).1.store s := by
  obtain hsame | hgrown := w.apply_grown settings r o
  · rw [hsame]
    exact hb
  · apply hb.grow hgrown
    obtain hc | hforeign := hr
    · exact hb.permitted hc hgrown
    · exact .inr hforeign

theorem apply_replies {settings : Settings} {w : JournalWriter} {s : LoggerSession} {r : JournalRequest}
    (o : Conditions) {a : Answer} (hb : Books settings w.store s) (hr : r.call ∈ s.calls ∨ Foreign s r.call)
    (ha : a.1.call ∈ s.calls) (h : ReplyTrue settings w.store a) :
    ReplyTrue settings (w.apply settings r o).1.store a := by
  obtain hsame | hgrown := w.apply_grown settings r o
  · rw [hsame]
    exact h
  · have hp : Permitted s r.call := by
      obtain hc | hforeign := hr
      · exact hb.permitted hc hgrown
      · exact .inr hforeign
    exact h.grow hgrown (hb.same hp hgrown.event ha)

/-- The writer's own answer tells the truth when it is given. -/
theorem apply_answer {settings : Settings} {w : JournalWriter} {s : LoggerSession} {r : JournalRequest}
    (o : Conditions) (hb : Books settings w.store s) (hr : r.call ∈ s.calls) :
    ReplyTrue settings (w.apply settings r o).1.store (r, (w.apply settings r o).2) := by
  refine ⟨fun hok => w.apply_confirmed settings r o hok, ?_⟩
  intro hok ht
  obtain ⟨hsame, hspent⟩ := w.apply_refused settings r o hok ht
  rw [hsame]
  refine ⟨?_, hspent⟩
  intro hstored
  obtain ⟨row, hrow, hid⟩ := hstored
  obtain ⟨event, he, -⟩ := hb.owned r.call hr
  exact w.apply_not_refused (hb.traced r.call hr row hrow hid).2 (by rw [he]; rfl) hok ht

theorem Ledger.apply {settings : Settings} {s : Delivery} {r : JournalRequest} (o : Conditions)
    (h : Ledger settings s) (hr : r.call ∈ s.session.calls ∨ Foreign s.session r.call) :
    Ledger settings { s with writer := (s.writer.apply settings r o).1 } := by
  refine ⟨apply_books o h.books hr, { h.lines with replies := ?_ }⟩
  intro w hw a ha
  have hmem : a.1 ∈ w.outstanding := List.mem_append_left _ (List.mem_map_of_mem ha)
  exact apply_replies o h.books hr (h.lines.wire w hw a.1 hmem) (h.lines.replies w hw a ha)

theorem Single.hangUp {call : JournalCall} {w : Wire} (h : Single call w) : Single call w.hangUp := by
  have hout : w.hangUp.outstanding = w.replies.map Prod.fst := by simp [Link.outstanding, Link.hangUp]
  unfold Single
  rw [hout]
  obtain hnone | ⟨frame, hone, hcall⟩ := h
  · exact .inl (List.append_eq_nil_iff.mp hnone).1
  · obtain ⟨hr, -⟩ | ⟨hr, -⟩ := List.append_eq_singleton_iff.mp hone
    · exact .inl hr
    · exact .inr ⟨frame, hr, hcall⟩

/-- A connection that is lost or shut down keeps only the replies that arrived. -/
theorem Lines.hangUp {settings : Settings} {s t : Delivery} (h : Lines settings s)
    (hsocket : t.exchange.client.socket = s.exchange.client.socket.map Link.hangUp)
    (hphase : t.exchange.client.phase = s.exchange.client.phase)
    (hopt : SameOptions s.exchange.client t.exchange.client) (hsession : t.session = s.session)
    (hsent : t.sent = s.sent) (hstore : t.writer.store = s.writer.store) : Lines settings t := by
  have hw : ∀ w, t.exchange.client.socket = some w →
      ∃ before, s.exchange.client.socket = some before ∧ w = before.hangUp := by
    intro w hw
    rw [hsocket] at hw
    obtain ⟨before, hb, rfl⟩ := Option.map_eq_some_iff.mp hw
    exact ⟨before, hb, rfl⟩
  refine ⟨⟨hopt.readOnly.trans h.writes.1, hopt.requestTimeout.trans h.writes.2⟩, ?_, ?_, ?_, ?_, ?_, ?_, ?_, ?_⟩
  · rw [hsent, hsession]
    exact h.sent
  · intro w hws r hr
    obtain ⟨before, hb, rfl⟩ := hw w hws
    rw [hsession]
    exact h.wire before hb r (Link.mem_outstanding_hangUp hr)
  · intro w hws a ha
    obtain ⟨before, hb, rfl⟩ := hw w hws
    rw [hstore]
    exact h.replies before hb a ha
  · rw [hphase, hsession]
    exact h.idle
  · rw [hphase, hsession]
    exact h.trying
  · rw [hphase, hsession]
    exact h.receiving
  · rw [hphase, hsession]
    intro hf hne w hws
    obtain ⟨before, hb, rfl⟩ := hw w hws
    apply List.eq_nil_iff_forall_not_mem.mpr
    intro r hr
    have hr := Link.mem_outstanding_hangUp hr
    rw [h.quiet hf hne before hb] at hr
    cases hr
  · rw [hphase]
    intro p n hp w hws
    obtain ⟨before, hb, rfl⟩ := hw w hws
    exact (h.single p n hp before hb).hangUp

theorem serve_eq {settings : Settings} {s t : Delivery} {o : Conditions} (h : s.serve settings o = some t) :
    ∃ before after request, s.exchange.client.socket = some before ∧ request ∈ before.outstanding ∧
      before.answer (s.writer.apply settings request o).2 =
        some ((request, (s.writer.apply settings request o).2), after) ∧
      t = { s with exchange := { s.exchange with client := { s.exchange.client with socket := some after }, answered := s.exchange.answered ++ [(request, (s.writer.apply settings request o).2)] }, writer := (s.writer.apply settings request o).1 } := by
  obtain ⟨before, hb, h⟩ := Option.bind_eq_some_iff.mp h
  obtain ⟨request, hr, h⟩ := Option.bind_eq_some_iff.mp h
  obtain ⟨x, hx, h⟩ := Option.bind_eq_some_iff.mp h
  obtain ⟨before', after, answer, hb', ha, rfl⟩ := Exchange.answer_eq hx
  obtain rfl := Option.some.inj (hb.symm.trans hb')
  obtain ⟨rest, hq⟩ : ∃ rest, before.requests = request :: rest := by
    cases hreq : before.requests with
    | nil => simp [hreq] at hr
    | cons first rest =>
      obtain rfl : first = request := by simpa [hreq] using hr
      exact ⟨rest, rfl⟩
  obtain ⟨after', ha'⟩ := Link.answer_of_requests (s.writer.apply settings request o).2 hq
  obtain ⟨rfl, rfl⟩ := Prod.mk.inj (Option.some.inj (ha.symm.trans ha'))
  refine ⟨before, after, request, hb, ?_, ha', (Option.some.inj h).symm⟩
  exact List.mem_append_right _ (hq ▸ List.mem_cons_self)

end ModularPipelines.Journal
