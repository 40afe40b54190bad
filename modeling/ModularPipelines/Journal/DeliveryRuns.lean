import ModularPipelines.Journal.DeliverySteps

namespace ModularPipelines.Journal
open Library JournalClient

theorem raiseError_retryable (document : ErrorDocument) : (raiseError document).retryable = false := by
  unfold raiseError
  split <;> rfl

theorem raiseError_refuses {document : ErrorDocument} (h : (raiseError document).refusesInput = true) :
    document.type ∈ inputErrors := by
  unfold raiseError at h
  split at h
  · cases h
  · rename_i ht
    rw [ht]
    exact List.mem_cons_self
  · rename_i ht
    rw [ht]
    exact List.mem_cons_of_mem _ List.mem_cons_self
  · rename_i ht
    rw [ht]
    exact List.mem_cons_of_mem _ (List.mem_cons_of_mem _ List.mem_cons_self)
  · cases h
  · cases h
  · cases h

/-- What a wire may carry: events of the session, answered truly. -/
structure Carried (settings : Settings) (j : EventStore) (s : LoggerSession) (socket : Option Wire) : Prop where
  wire : ∀ w, socket = some w → ∀ r ∈ w.outstanding, r.call ∈ s.calls
  replies : ∀ w, socket = some w → ∀ a ∈ w.replies, ReplyTrue settings j a

theorem Carried.none (settings : Settings) (j : EventStore) (s : LoggerSession) : Carried settings j s none :=
  ⟨nofun, nofun⟩

theorem Carried.fresh (settings : Settings) (j : EventStore) (s : LoggerSession) :
    Carried settings j s (some Link.fresh) where
  wire := by
    intro w hw r hr
    obtain rfl := Option.some.inj hw
    cases hr
  replies := by
    intro w hw a ha
    obtain rfl := Option.some.inj hw
    cases ha

theorem Lines.carried {settings : Settings} {s : Delivery} (h : Lines settings s) :
    Carried settings s.writer.store s.session s.exchange.client.socket :=
  ⟨h.wire, h.replies⟩

theorem Carried.receive {settings : Settings} {j : EventStore} {s : LoggerSession} {before after : Wire}
    {answer : Answer} (h : Carried settings j s (some before)) (hr : before.receive = some (answer, after)) :
    Carried settings j s (some after) ∧ ReplyTrue settings j answer := by
  obtain ⟨hmem, hout, hrest⟩ := Link.receive_eq hr
  refine ⟨⟨?_, ?_⟩, h.replies before rfl answer hmem⟩
  · intro w hw r hr
    obtain rfl := Option.some.inj hw
    apply h.wire before rfl r
    rw [hout]
    exact List.mem_cons_of_mem _ hr
  · intro w hw a ha
    obtain rfl := Option.some.inj hw
    exact h.replies before rfl a (hrest a ha)

namespace Delivery

/-- A client that tries again has dropped its socket. -/
theorem retried_lines {settings : Settings} {s : Delivery} {x : Exchange} {p : PendingCall}
    {sent : List JournalRequest} (h : Lines settings s) (hsent : ∀ r ∈ sent, r.call ∈ s.session.calls)
    (hopt : SameOptions s.exchange.client x.client) (hphase : x.client.phase = .trying p)
    (hsocket : x.client.socket = none) (hp : s.session.pending = some p.call) (hd : p.deadline = none) :
    Lines settings { s with exchange := x, sent := sent } := by
  refine ⟨⟨hopt.readOnly.trans h.writes.1, hopt.requestTimeout.trans h.writes.2⟩, hsent, ?_, ?_, ?_, ?_, ?_, ?_, ?_⟩
  · intro w hw
    cases hsocket.symm.trans hw
  · intro w hw
    cases hsocket.symm.trans hw
  · intro hidle
    cases hphase.symm.trans hidle
  · intro q hq
    obtain rfl := ClientPhase.trying.inj (hphase.symm.trans hq)
    exact ⟨hp, hd⟩
  · intro q n hq
    cases hphase.symm.trans hq
  · intro _ _ w hw
    cases hsocket.symm.trans hw
  · intro q n hq
    cases hphase.symm.trans hq

theorem waiting_lines {settings : Settings} {s : Delivery} {x : Exchange} {p : PendingCall} {n : Nat}
    {sent : List JournalRequest} (h : Lines settings s) (hsent : ∀ r ∈ sent, r.call ∈ s.session.calls)
    (hopt : SameOptions s.exchange.client x.client) (hphase : x.client.phase = .receiving p n)
    (hsocket : Carried settings s.writer.store s.session x.client.socket)
    (hsingle : ∀ w, x.client.socket = some w → Single p.call w)
    (hp : s.session.pending = some p.call) (hd : p.deadline = none) :
    Lines settings { s with exchange := x, sent := sent } := by
  refine ⟨⟨hopt.readOnly.trans h.writes.1, hopt.requestTimeout.trans h.writes.2⟩, hsent, hsocket.wire,
    hsocket.replies, ?_, ?_, ?_, ?_, ?_⟩
  · intro hidle
    cases hphase.symm.trans hidle
  · intro q hq
    cases hphase.symm.trans hq
  · intro q m hq
    obtain ⟨rfl, -⟩ := ClientPhase.receiving.inj (hphase.symm.trans hq)
    exact ⟨hp, hd⟩
  · intro _ hne
    exact (hne p n hphase).elim
  · intro q m hq w hw
    obtain ⟨rfl, -⟩ := ClientPhase.receiving.inj (hphase.symm.trans hq)
    exact hsingle w hw

theorem ended_lines {settings : Settings} {s : Delivery} {x : Exchange} {t : LoggerSession}
    {sent : List JournalRequest} (h : Lines settings s) (hsent : ∀ r ∈ sent, r.call ∈ s.session.calls)
    (hopt : SameOptions s.exchange.client x.client) (hphase : x.client.phase = .idle)
    (hsocket : Carried settings s.writer.store s.session x.client.socket)
    (hquiet : t.failed = false → ∀ w, x.client.socket = some w → w.outstanding = [])
    (hcalls : t.calls = s.session.calls) (hnone : t.pending = none) :
    Lines settings { s with exchange := x, sent := sent, session := t } := by
  refine ⟨⟨hopt.readOnly.trans h.writes.1, hopt.requestTimeout.trans h.writes.2⟩, ?_, ?_, hsocket.replies,
    fun _ => hnone, ?_, ?_, fun hf _ => hquiet hf, ?_⟩
  · intro r hr
    exact hcalls ▸ hsent r hr
  · intro w hw r hr
    exact hcalls ▸ hsocket.wire w hw r hr
  · intro q hq
    cases hphase.symm.trans hq
  · intro q n hq
    cases hphase.symm.trans hq
  · intro q n hq
    cases hphase.symm.trans hq

/-- The `_append` that waits gets the end of its call. -/
theorem settle_ended {s : Delivery} {x : Exchange} {p : PendingCall} {c : JournalClient} {call : JournalCall}
    {event : JournalEvent} {result : CallEnd} (hp : s.session.pending = some call) (he : call.event = some event) :
    s.settle (x.follow p (c, .ended result)) =
      { s with exchange := x.follow p (c, .ended result), session := s.session.finish call event result } := by
  unfold settle
  simp only [Exchange.follow, hp, List.getLast?_append, List.getLast?_singleton, Option.some_or, he]

theorem settle_trying {s : Delivery} {x : Exchange} {p : PendingCall} (h : x.client.phase = .trying p) :
    s.settle x = { s with exchange := x } := by
  unfold settle
  rw [h]

theorem settle_receiving {s : Delivery} {x : Exchange} {p : PendingCall} {n : Nat}
    (h : x.client.phase = .receiving p n) : s.settle x = { s with exchange := x } := by
  unfold settle
  rw [h]

end Delivery

theorem calls_finished {s : LoggerSession} {c : JournalCall} (event : JournalEvent) (h : s.pending = some c)
    (result : CallEnd) : (s.finish c event result).calls = s.calls ∧ (s.finish c event result).pending = none := by
  cases result with
  | returned answer => simp [LoggerSession.finish, LoggerSession.confirm, LoggerSession.calls, h]
  | rejected answer error => simp [LoggerSession.finish, LoggerSession.raise, LoggerSession.calls, h]
  | offline result =>
    cases result <;> simp [LoggerSession.finish, LoggerSession.raise, LoggerSession.confirm, LoggerSession.calls, h]
  | failed error => simp [LoggerSession.finish, LoggerSession.raise, LoggerSession.calls, h]

namespace Ledger

theorem ended {settings : Settings} {s : Delivery} {p : PendingCall} {c : JournalClient} {event : JournalEvent}
    {result : CallEnd} {sent : List JournalRequest} (h : Ledger settings s)
    (hsent : ∀ r ∈ sent, r.call ∈ s.session.calls) (hp : s.session.pending = some p.call)
    (he : p.call.event = some event) (hopt : SameOptions s.exchange.client c)
    (hw : Carried settings s.writer.store s.session c.socket)
    (hbooks : Books settings s.writer.store (s.session.finish p.call event result))
    (hquiet : (s.session.finish p.call event result).failed = false → ∀ w, c.socket = some w → w.outstanding = []) :
    Ledger settings (({ s with sent := sent } : Delivery).settle (s.exchange.follow p (c, .ended result))) := by
  have hset : ({ s with sent := sent } : Delivery).settle (s.exchange.follow p (c, .ended result)) = _ :=
    Delivery.settle_ended hp he
  rw [hset]
  obtain ⟨hcalls, hnone⟩ := calls_finished event hp result
  exact ⟨hbooks, Delivery.ended_lines (s := s) h.lines hsent ⟨hopt.readOnly, hopt.requestTimeout⟩ rfl hw hquiet hcalls hnone⟩

/-- A call that its client gives up fails the session; its frame may still be on its way. -/
theorem handled {settings : Settings} {s : Delivery} {p : PendingCall} {c : JournalClient}
    {out : JournalClient × Progress} {sent : List JournalRequest} (h : Ledger settings s)
    (hsent : ∀ r ∈ sent, r.call ∈ s.session.calls) (hp : s.session.pending = some p.call)
    (hd : p.deadline = none) (hopt : SameOptions s.exchange.client c)
    (hw : Carried settings s.writer.store s.session c.socket) (hh : Handled c p out)
    (hend : ∀ result, out.2 = .ended result → ∃ e, result = .failed e ∧ e.Uncertain) :
    Ledger settings (({ s with sent := sent } : Delivery).settle (s.exchange.follow p out)) := by
  obtain ⟨d, progress⟩ := out
  have hod : SameOptions s.exchange.client d := hopt.trans hh.options
  cases progress with
  | retry p' =>
    obtain ⟨-, hnone, hcall, hdead⟩ := hh.retry p' rfl
    rw [Delivery.settle_trying (p := p') rfl]
    refine ⟨h.books, ?_⟩
    apply Delivery.retried_lines h.lines hsent ⟨hod.readOnly, hod.requestTimeout⟩ rfl hnone
    · rw [hcall]
      exact hp
    · rw [hdead]
      exact hd
  | ended result =>
    obtain ⟨event, he, -⟩ := h.books.owned p.call (Books.pending_mem hp)
    obtain ⟨e, rfl, href, hretry⟩ := hend result rfl
    have hsocket : d.socket = none ∨ d.socket = c.socket := (hh.ended _ rfl).2
    have hcarried : Carried settings s.writer.store s.session d.socket := by
      obtain hs | hs := hsocket
      · rw [hs]
        exact .none _ _ _
      · rw [hs]
        exact hw
    refine h.ended hsent hp he hod hcarried (h.books.raise hp ?_ hretry) ?_
    · intro hr
      rw [href] at hr
      cases hr
    · intro hf
      simp [LoggerSession.finish, LoggerSession.raise, href, hretry] at hf

theorem attempt {settings : Settings} {s : Delivery} {p : PendingCall} {a : Attempt} {r : Recovery}
    (h : Ledger settings s) (hphase : s.exchange.client.phase = .trying p) (ha : a.WellFormed)
    (hr : r.Uncertain) :
    Ledger settings (({ s with sent := s.sent ++ Delivery.transmitted s.exchange.client p a } : Delivery).settle
      (s.exchange.attempt p a r)) := by
  obtain ⟨hp, hd⟩ := h.lines.trying p hphase
  have hmem := Books.pending_mem hp
  have hsent : ∀ q ∈ s.sent ++ Delivery.transmitted s.exchange.client p a, q.call ∈ s.session.calls := by
    intro q hq
    obtain hq | hq := List.mem_append.mp hq
    · exact h.lines.sent q hq
    · unfold Delivery.transmitted at hq
      split at hq
      · obtain rfl := List.mem_singleton.mp hq
        exact hmem
      · cases hq
  unfold Exchange.attempt
  split
  · apply h.handled hsent hp hd (.refl _) h.lines.carried (.fail _)
    intro result he
    obtain rfl := Progress.ended.inj he
    exact ⟨_, rfl, rfl, rfl⟩
  · split
    · rename_i hexpired
      rw [hd] at hexpired
      cases hexpired
    · cases hx : s.exchange.client.exchange p a with
      | mk c result =>
        obtain ⟨⟨-, hopt⟩, hcases⟩ := exchange_cases hx
        cases result with
        | error error =>
          have hw : Carried settings s.writer.store s.session c.socket := by
            obtain hs | hs | hs := hcases
            · rw [hs]
              exact .none _ _ _
            · rw [hs]
              exact .fresh _ _ _
            · rw [hs]
              exact h.lines.carried
          apply h.handled hsent hp hd hopt hw (c.settleError_handled p r error)
          intro result he
          exact settleError_uncertain hr (hopt.readOnly.trans h.lines.writes.1) (exchange_contained ha hx) he
        | ok done =>
          rw [Delivery.settle_receiving (p := p) (n := a.now + probeInterval) rfl]
          -- Before it sends, the kept connection owes the session nothing.
          have hwire : ∀ w, c.socket = some w → (∀ q ∈ w.outstanding, q.call = p.call) ∧ Single p.call w ∧ w.replies = [] := by
            intro w hw
            obtain ⟨before, frame, ⟨-, hcall⟩, rfl, hbefore⟩ := hcases w hw
            have hempty : before.outstanding = [] := by
              obtain rfl | hkept := hbefore
              · rfl
              · apply h.lines.quiet (h.books.running hp)
                · intro q n hq
                  cases hphase.symm.trans hq
                · exact kept_socket hkept
            obtain ⟨hreplies, hrequests⟩ := List.append_eq_nil_iff.mp hempty
            have hnone : before.replies = [] := List.map_eq_nil_iff.mp hreplies
            refine ⟨?_, ?_, by rw [Link.replies_send, hnone]⟩
            · intro q hq
              obtain hq | rfl := Link.mem_outstanding_send hq
              · rw [hempty] at hq
                cases hq
              · exact hcall
            · unfold Single Link.outstanding Link.send
              split
              · exact .inl hempty
              · refine .inr ⟨frame, ?_, hcall⟩
                simp [hnone, hrequests]
          refine ⟨h.books, ?_⟩
          apply Delivery.waiting_lines h.lines hsent ⟨hopt.readOnly, hopt.requestTimeout⟩ rfl ?_ ?_ hp hd
          · constructor
            · intro w hw q hq
              rw [(hwire w hw).1 q hq]
              exact hmem
            · intro w hw answer ha
              rw [(hwire w hw).2.2] at ha
              cases ha
          · intro w hw
            exact (hwire w hw).2.1

/-- Without a deadline a reply either ends the call or sends it again on a new socket. -/
theorem settleReply_ended {c : JournalClient} {p : PendingCall} {answer : Answer} (hd : p.deadline = none)
    (result : CallEnd) (h : (c.settleReply p answer).2 = .ended result) (hn : result.Unanswered) : False := by
  unfold settleReply at h
  rw [hd] at h
  split at h
  · obtain rfl := Progress.ended.inj h
    exact hn
  · split at h
    · rename_i hdead
      cases hdead.2
    · split at h
      · obtain rfl := Progress.ended.inj h
        exact hn
      · cases h

theorem replied {settings : Settings} {s : Delivery} {c : JournalClient} {p : PendingCall} {n : Nat}
    {before after : Wire} {answer : Answer} (h : Ledger settings s)
    (hphase : s.exchange.client.phase = .receiving p n) (hb : s.exchange.client.socket = some before)
    (ha : before.receive = some (answer, after)) (hc : c.socket = some after)
    (hopt : SameOptions s.exchange.client c) :
    Ledger settings (s.settle (s.exchange.follow p (c.settleReply p answer))) := by
  obtain ⟨hp, hd⟩ := h.lines.receiving p n hphase
  obtain ⟨event, he, -⟩ := h.books.owned p.call (Books.pending_mem hp)
  have hcarried := h.lines.carried
  rw [hb] at hcarried
  obtain ⟨hw, htrue⟩ := hcarried.receive ha
  rw [← hc] at hw
  -- The one outstanding frame is the call's own, and it is read now.
  have hown : after.outstanding = [] ∧ answer.1.call = p.call := by
    have hout := (Link.receive_eq ha).2.1
    obtain hnone | ⟨frame, hone, hcall⟩ := h.lines.single p n hphase before hb
    · rw [hout] at hnone
      cases hnone
    · rw [hout] at hone
      obtain ⟨rfl, hrest⟩ := List.cons.inj hone
      exact ⟨hrest, hcall⟩
  have hquiet : ∀ w, c.socket = some w → w.outstanding = [] := by
    intro w hws
    obtain rfl := Option.some.inj (hc.symm.trans hws)
    exact hown.1
  unfold ReplyTrue at htrue
  rw [hown.2] at htrue
  obtain hh | ⟨heq, hok⟩ | ⟨heq, hok⟩ :=
    c.settleReply_cases p answer
  · apply h.handled h.lines.sent hp hd hopt hw hh
    intro result hresult
    exact (settleReply_ended hd result hresult (hh.ended result hresult).1).elim
  · rw [heq]
    exact h.ended h.lines.sent hp he hopt hw (h.books.confirm hp he (htrue.1 hok)) (fun _ => hquiet)
  · rw [heq]
    apply h.ended h.lines.sent hp he hopt hw ?_ (fun _ => hquiet)
    apply h.books.raise hp ?_ (raiseError_retryable _)
    intro href
    exact htrue.2 hok (raiseError_refuses href)

theorem poll {settings : Settings} {s : Delivery} {p : PendingCall} {n : Nat} {o : Poll} {r : Recovery}
    (h : Ledger settings s) (hphase : s.exchange.client.phase = .receiving p n) (ho : o.WellFormed)
    (hr : r.Uncertain) : Ledger settings (s.settle (s.exchange.poll p n o r)) := by
  obtain ⟨hp, hd⟩ := h.lines.receiving p n hphase
  unfold Exchange.poll
  cases hx : s.exchange.client.receiveReply p n o with
  | mk c received =>
    obtain ⟨⟨hsocket, -, -, -, hopt⟩, hnone⟩ | ⟨before, after, answer, hb, ha, rfl, rfl⟩ := receiveReply_cases hx
    · have hw : Carried settings s.writer.store s.session c.socket := hsocket ▸ h.lines.carried
      cases received with
      | reply answer => exact (hnone answer rfl).elim
      | again n' =>
        rw [Delivery.settle_receiving (p := p) (n := n') rfl]
        refine ⟨h.books, ?_⟩
        apply Delivery.waiting_lines h.lines h.lines.sent ⟨hopt.readOnly, hopt.requestTimeout⟩ rfl hw ?_ hp hd
        intro w hws
        exact h.lines.single p n hphase w (hsocket ▸ hws)
      | raised error =>
        apply h.handled h.lines.sent hp hd hopt hw (c.settleError_handled p r error)
        intro result he
        exact settleError_uncertain hr (hopt.readOnly.trans h.lines.writes.1) (receiveReply_contained ho hx) he
    · exact h.replied hphase hb ha rfl ⟨rfl, rfl⟩

theorem serve {settings : Settings} {s t : Delivery} {o : Conditions} (h : Ledger settings s)
    (hs : s.serve settings o = some t) : Ledger settings t := by
  obtain ⟨before, after, request, hb, hmem, ha, rfl⟩ := serve_eq hs
  have hcall := h.lines.wire before hb request hmem
  have happlied := h.apply o (.inl hcall)
  obtain ⟨-, hreplies, hout⟩ := Link.answer_eq ha
  have hlines := happlied.lines
  refine ⟨happlied.books, ?_⟩
  refine ⟨hlines.writes, hlines.sent, ?_, ?_, hlines.idle, hlines.trying, hlines.receiving, ?_, ?_⟩
  · intro w hw r hr
    obtain rfl := Option.some.inj hw
    exact hlines.wire before hb r (hout ▸ hr)
  · intro w hw a hmem'
    obtain rfl := Option.some.inj hw
    rw [hreplies] at hmem'
    obtain hold | hnew := List.mem_append.mp hmem'
    · exact hlines.replies before hb a hold
    · obtain rfl := List.mem_singleton.mp hnew
      exact apply_answer o h.books hcall
  · intro hf hne w hw
    obtain rfl := Option.some.inj hw
    rw [hout]
    exact hlines.quiet hf hne before hb
  · intro p n hp w hw
    obtain rfl := Option.some.inj hw
    unfold Single
    rw [hout]
    exact hlines.single p n hp before hb

theorem encode_refused {settings : Settings} {j : EventStore} {event : JournalEvent} {error : JournalError}
    {call : JournalCall} (h : encodeEvent settings event = .error error)
    (hcall : call = .append event ∨ call = .appendCommandResult event) : Spent settings j call := by
  obtain rfl | rfl := hcall
  · exact .inl ⟨error, h⟩
  · intro d identity hv
    obtain ⟨text, he, -⟩ := validateReport_ok.mp hv
    rw [h] at he
    cases he

theorem append {settings : Settings} {s : Delivery} {d : Draft} (now : Nat) (h : Ledger settings s)
    (hp : s.session.pending = none) (hf : s.session.failed = false) (hidle : s.exchange.client.phase = .idle)
    (hu : s.unused d.eventId = true) : Ledger settings (s.append settings d now) := by
  obtain ⟨hcalls, hrows⟩ := Bool.and_eq_true_iff.mp hu
  rw [List.all_eq_true] at hcalls hrows
  have hunused : ∀ other ∈ s.session.calls, other.eventId ≠ some d.eventId := by
    intro other ho heq
    obtain ⟨event, he, hid⟩ := Option.map_eq_some_iff.mp heq
    have hne := hcalls other ho
    rw [he] at hne
    simp [hid] at hne
  have hfresh : ∀ row ∈ s.writer.store.events, row.event.eventId ≠ d.eventId := by
    intro row hrow
    simpa using hrows row hrow
  have hquiet : ∀ w, s.exchange.client.socket = some w → w.outstanding = [] := by
    apply h.lines.quiet hf
    intro p n hq
    cases hidle.symm.trans hq
  unfold Delivery.append
  simp only
  generalize hc : (if d.report then JournalCall.appendCommandResult (s.session.envelope d) else .append (s.session.envelope d)) = call
  have hcases : call = .append (s.session.envelope d) ∨ call = .appendCommandResult (s.session.envelope d) := by
    split at hc
    · exact .inr hc.symm
    · exact .inl hc.symm
  have he : call.event = some (s.session.envelope d) := by
    obtain rfl | rfl := hcases <;> rfl
  have hbegun : Books settings s.writer.store { s.session with pending := some call } :=
    h.books.begin hp hf he rfl rfl hunused hfresh
  have hbefore : s.session.calls = s.session.finished.map Prod.fst := by
    rw [LoggerSession.calls, hp, Option.toList_none, List.append_nil]
  split
  · rename_i error henc
    have habsent : ¬ Stored s.writer.store call := by
      intro hs
      obtain ⟨row, hrow, hid⟩ := hs
      rw [JournalCall.eventId, he] at hid
      exact hfresh row hrow (Option.some.inj hid).symm
    have hraised : Books settings s.writer.store (s.session.raise call (.value (errorMessage error) false)) :=
      Books.raise (s := { s.session with pending := some call }) hbegun rfl (fun _ => ⟨habsent, encode_refused henc hcases⟩) rfl
    refine ⟨hraised, ?_⟩
    have hmore : ∀ c ∈ s.session.calls, c ∈ (s.session.raise call (.value (errorMessage error) false)).calls := by
      intro c hc
      rw [hbefore] at hc
      simp only [LoggerSession.calls, LoggerSession.raise, List.map_append, List.mem_append]
      exact .inl (.inl hc)
    refine ⟨h.lines.writes, fun r hr => hmore _ (h.lines.sent r hr), ?_, h.lines.replies, fun _ => rfl, ?_, ?_,
      fun _ _ => hquiet, h.lines.single⟩
    · intro w hw r hr
      exact hmore _ (h.lines.wire w hw r hr)
    · intro p hq
      cases hidle.symm.trans hq
    · intro p n hq
      cases hidle.symm.trans hq
  · refine ⟨hbegun, ?_⟩
    have hmore : ∀ c ∈ s.session.calls, c ∈ ({ s.session with pending := some call } : LoggerSession).calls := by
      intro c hc
      rw [hbefore] at hc
      exact List.mem_append_left _ hc
    refine ⟨h.lines.writes, fun r hr => hmore _ (h.lines.sent r hr), ?_, h.lines.replies, ?_, ?_, ?_,
      fun _ _ => hquiet, ?_⟩
    · intro w hw r hr
      exact hmore _ (h.lines.wire w hw r hr)
    · intro hnone
      cases hnone
    · intro p hq
      obtain rfl := ClientPhase.trying.inj hq
      refine ⟨rfl, ?_⟩
      simp only [h.lines.writes.2, Option.map_none]
    · intro p n hq
      cases hq
    · intro p n hq
      cases hq

theorem foreignTo_foreign {s : Delivery} {request : JournalRequest} (h : s.foreignTo request = true) :
    Foreign s.session request.call := by
  intro event he
  unfold Delivery.foreignTo at h
  rw [he] at h
  simp only [Option.all_some, Bool.and_eq_true, List.all_eq_true, bne_iff_ne] at h
  refine ⟨h.1, ?_⟩
  intro other ho heq
  obtain ⟨e, hother, hid⟩ := Option.map_eq_some_iff.mp heq
  have hne := h.2 other ho
  rw [hother] at hne
  simp [hid] at hne

theorem step {settings : Settings} {s t : Delivery} {action : DeliveryAction} (h : Ledger settings s)
    (ha : action.WellFormed) (hs : s.step settings action = some t) : Ledger settings t := by
  cases action with
  | append d now =>
    simp only [Delivery.step] at hs
    split at hs
    · rename_i hguard
      obtain ⟨hp, hf, hidle, hu⟩ := hguard
      obtain rfl := Option.some.inj hs
      exact h.append now hp hf hidle hu
    · cases hs
  | attempt a r =>
    simp only [Delivery.step] at hs
    split at hs
    · rename_i p hphase
      obtain rfl := Option.some.inj hs
      exact h.attempt hphase ha.1 ha.2
    · cases hs
  | poll o r =>
    simp only [Delivery.step] at hs
    split at hs
    · rename_i p n hphase
      obtain rfl := Option.some.inj hs
      exact h.poll hphase ha.1 ha.2
    · cases hs
  | serve o => exact h.serve hs
  | late request o =>
    simp only [Delivery.step] at hs
    split at hs
    · rename_i hsent
      obtain rfl := Option.some.inj hs
      exact h.apply o (.inl (h.lines.sent request hsent))
    · cases hs
  | «foreign» request o =>
    simp only [Delivery.step] at hs
    split at hs
    · rename_i hforeign
      obtain rfl := Option.some.inj hs
      exact h.apply o (.inr (foreignTo_foreign hforeign))
    · cases hs
  | restart managed =>
    obtain rfl := Option.some.inj hs
    exact ⟨h.books, h.lines.hangUp rfl rfl ⟨rfl, rfl⟩ rfl rfl rfl⟩
  | hangUp =>
    obtain rfl := Option.some.inj hs
    exact ⟨h.books, h.lines.hangUp rfl rfl ⟨rfl, rfl⟩ rfl rfl rfl⟩
  | requestClose =>
    obtain rfl := Option.some.inj hs
    exact ⟨h.books, h.lines.hangUp rfl rfl ⟨rfl, rfl⟩ rfl rfl rfl⟩

theorem run {settings : Settings} {s t : Delivery} {actions : List DeliveryAction} (h : Ledger settings s)
    (ha : ∀ a ∈ actions, a.WellFormed) (hs : s.run settings actions = some t) : Ledger settings t := by
  induction actions generalizing s with
  | nil =>
    obtain rfl := Option.some.inj hs
    exact h
  | cons action rest ih =>
    obtain ⟨mid, hmid, hrest⟩ := Option.bind_eq_some_iff.mp hs
    have hstep := h.step (ha action List.mem_cons_self) hmid
    exact ih hstep (fun a hmem => ha a (List.mem_cons_of_mem _ hmem)) hrest

end Ledger

end ModularPipelines.Journal
