import ModularPipelines.Journal.Exchange

namespace ModularPipelines.Journal
open Library JournalClient

/-- The end of a call, checked against what the writers answered: a value or a writer
error is the answer to a frame of that very call. -/
def CallEnd.Own (answered : List Answer) (diagnosticId : Nat) : CallEnd → Prop
  | .returned answer => answer ∈ answered ∧ answer.1.diagnosticId = diagnosticId ∧ answer.2.ok = true
  | .rejected answer error => answer ∈ answered ∧ answer.1.diagnosticId = diagnosticId ∧
      answer.2.ok = false ∧ error = raiseError answer.2.error
  | .offline _ => True
  | .failed _ => True

def Exchange.Matched (s : Exchange) : Prop := ∀ e ∈ s.ended, e.2.Own s.answered e.1

/-- Ends that no writer answered. -/
def CallEnd.Unanswered : CallEnd → Prop
  | .returned _ | .rejected _ _ => False
  | .offline _ | .failed _ => True

theorem CallEnd.Unanswered.own {result : CallEnd} (h : result.Unanswered) (answered : List Answer)
    (diagnosticId : Nat) : result.Own answered diagnosticId := by
  cases result with
  | returned answer => exact h.elim
  | rejected answer error => exact h.elim
  | offline result => trivial
  | failed error => trivial

theorem CallEnd.Own.mono {result : CallEnd} {answered more : List Answer} {diagnosticId : Nat}
    (h : result.Own answered diagnosticId) : result.Own (answered ++ more) diagnosticId := by
  cases result with
  | returned answer => exact ⟨List.mem_append_left _ h.1, h.2⟩
  | rejected answer error => exact ⟨List.mem_append_left _ h.1, h.2⟩
  | offline result => trivial
  | failed error => trivial

namespace JournalClient

/-- What a handler of `_call` does: it tries again on a dropped socket, or it ends the
call without an answer and leaves the socket as it is or drops it. -/
structure Handled (c : JournalClient) (p : PendingCall) (out : JournalClient × Progress) : Prop where
  diagnosticIds : out.1.diagnosticIds = c.diagnosticIds
  options : SameOptions c out.1
  retry : ∀ p', out.2 = .retry p' → p'.diagnosticId = p.diagnosticId ∧ out.1.socket = none ∧
    p'.call = p.call ∧ p'.deadline = p.deadline
  ended : ∀ result, out.2 = .ended result → result.Unanswered ∧
    (out.1.socket = none ∨ out.1.socket = c.socket)

theorem Handled.fail {c : JournalClient} {p : PendingCall} (error : ClientError) :
    Handled c p (c, .ended (.failed error)) where
  diagnosticIds := rfl
  options := .refl c
  retry := by simp
  ended := by
    intro result h
    cases h
    exact ⟨trivial, .inr rfl⟩

theorem Handled.drop {c d : JournalClient} {p : PendingCall} {result : CallEnd} (hs : d.socket = none)
    (hd : d.diagnosticIds = c.diagnosticIds) (ho : SameOptions c d) (hr : result.Unanswered) :
    Handled c p (d, .ended result) where
  diagnosticIds := hd
  options := ho
  retry := by simp
  ended := by
    intro other h
    cases h
    exact ⟨hr, .inl hs⟩

theorem Handled.again {c d : JournalClient} {p p' : PendingCall} (hs : d.socket = none)
    (hd : d.diagnosticIds = c.diagnosticIds) (ho : SameOptions c d) (hp : p'.diagnosticId = p.diagnosticId)
    (hc : p'.call = p.call) (ht : p'.deadline = p.deadline) : Handled c p (d, .retry p') where
  diagnosticIds := hd
  options := ho
  retry := by
    intro other h
    cases h
    exact ⟨hp, hs, hc, ht⟩
  ended := by simp

theorem awaitRecovery_handled {c d : JournalClient} {p : PendingCall} (r : Recovery) (hs : d.socket = none)
    (hd : d.diagnosticIds = c.diagnosticIds) (ho : SameOptions c d) : Handled c p (d.awaitRecovery p r) := by
  unfold awaitRecovery
  simp only
  split
  · exact .drop hs hd ho trivial
  · exact .again hs hd ho rfl rfl rfl

theorem recoverConnection_handled (c : JournalClient) (p : PendingCall) (r : Recovery) :
    Handled c p (c.recoverConnection p r) := by
  unfold recoverConnection
  simp only
  split
  · exact .drop rfl rfl ⟨rfl, rfl⟩ trivial
  · split
    · exact .drop rfl rfl ⟨rfl, rfl⟩ trivial
    · split
      · exact .drop rfl rfl ⟨rfl, rfl⟩ trivial
      · split
        · split
          · exact .drop rfl rfl ⟨rfl, rfl⟩ trivial
          · exact awaitRecovery_handled r rfl rfl ⟨rfl, rfl⟩
        · exact awaitRecovery_handled r rfl rfl ⟨rfl, rfl⟩

theorem settleError_handled (c : JournalClient) (p : PendingCall) (r : Recovery) (error : ClientError) :
    Handled c p (c.settleError p r error) := by
  cases error with
  | connection => exact c.recoverConnection_handled p r
  | storage message retryable journalFailed =>
    simp only [settleError]
    split
    · exact .fail _
    · exact .again rfl rfl ⟨rfl, rfl⟩ rfl rfl rfl
  | state message journalFailed => exact .fail _
  | configuration message journalFailed => exact .fail _
  | generationChanged => exact .fail _
  | value message journalFailed => exact .fail _
  | type message journalFailed => exact .fail _

/-- Frames of other calls are gone before the client tries again after a reply. -/
theorem settleReply_cases (c : JournalClient) (p : PendingCall) (answer : Answer) :
    Handled c p (c.settleReply p answer) ∨
    (c.settleReply p answer = (c, .ended (.returned answer)) ∧ answer.2.ok = true) ∨
    (c.settleReply p answer = (c, .ended (.rejected answer (raiseError answer.2.error))) ∧
      answer.2.ok = false) := by
  unfold settleReply
  split
  · rename_i hok
    exact .inr (.inl ⟨rfl, hok⟩)
  · rename_i hok
    split
    · exact .inl (.fail _)
    · split
      · exact .inr (.inr ⟨rfl, by simpa using hok⟩)
      · exact .inl (.again rfl rfl ⟨rfl, rfl⟩ rfl rfl rfl)

/-- The kept connection that an attempt sends its frame on. -/
def kept (c : JournalClient) (a : Attempt) : Option Wire :=
  match (c.endpoint a.publication).2 with
  | .error _ => none
  | .ok endpoint =>
    if c.socketInstanceId = some endpoint.writerInstanceId ∧ a.token.isOk ∧ a.accepted = true ∧ a.sent = true
    then c.socket else none

theorem kept_socket {c : JournalClient} {a : Attempt} {wire : Wire} (h : c.kept a = some wire) :
    c.socket = some wire := by
  unfold kept at h
  split at h
  · cases h
  · split at h
    · exact h
    · cases h

theorem connect_cases {c d : JournalClient} {endpoint : WriterEndpoint} {a : Attempt}
    {result : Except ClientError Unit} (h : c.connect endpoint a = (d, result)) :
    (d.diagnosticIds = c.diagnosticIds ∧ SameOptions c d) ∧
    match result with
    | .ok () => d.socket = some Link.fresh ∨
        (d.socket = c.socket ∧ c.socketInstanceId = some endpoint.writerInstanceId)
    | .error _ => d.socket = none ∨ d.socket = c.socket := by
  unfold connect at h
  simp only at h
  by_cases hi : c.socketInstanceId = some endpoint.writerInstanceId
  · rw [if_pos hi] at h
    split at h
    · obtain ⟨rfl, rfl⟩ := Prod.mk.inj h
      exact ⟨⟨rfl, rfl, rfl⟩, .inr ⟨rfl, hi⟩⟩
    · split at h
      · obtain ⟨rfl, rfl⟩ := Prod.mk.inj h
        exact ⟨⟨rfl, rfl, rfl⟩, .inl rfl⟩
      · obtain ⟨rfl, rfl⟩ := Prod.mk.inj h
        exact ⟨⟨rfl, rfl, rfl⟩, .inr rfl⟩
  · rw [if_neg hi] at h
    split at h
    · rename_i hs
      simp [disconnect] at hs
    · split at h
      · obtain ⟨rfl, rfl⟩ := Prod.mk.inj h
        exact ⟨⟨rfl, rfl, rfl⟩, .inl rfl⟩
      · obtain ⟨rfl, rfl⟩ := Prod.mk.inj h
        exact ⟨⟨rfl, rfl, rfl⟩, .inl rfl⟩

theorem transmit_cases {c d : JournalClient} {p : PendingCall} {a : Attempt}
    {result : Except ClientError Unit} (h : c.transmit p a = (d, result)) :
    (d.diagnosticIds = c.diagnosticIds ∧ SameOptions c d) ∧
    match result with
    | .ok () => a.token.isOk ∧ a.accepted = true ∧ a.sent = true ∧
        ∃ token, d.socket = c.socket.map (·.send (c.request p token))
    | .error _ => d.socket = c.socket := by
  unfold transmit at h
  split at h
  · obtain ⟨rfl, rfl⟩ := Prod.mk.inj h
    exact ⟨⟨rfl, rfl, rfl⟩, rfl⟩
  · rename_i token ht
    split at h
    · obtain ⟨rfl, rfl⟩ := Prod.mk.inj h
      exact ⟨⟨rfl, rfl, rfl⟩, rfl⟩
    · rename_i ha
      split at h
      · obtain ⟨rfl, rfl⟩ := Prod.mk.inj h
        exact ⟨⟨rfl, rfl, rfl⟩, rfl⟩
      · rename_i hsent
        obtain ⟨rfl, rfl⟩ := Prod.mk.inj h
        exact ⟨⟨rfl, rfl, rfl⟩, by simp [ht, Except.isOk, Except.toBool], by simpa using ha, by simpa using hsent, token, rfl⟩

/-- A frame goes on the kept connection or on a fresh one; a failed attempt adds none. -/
theorem exchange_cases {c d : JournalClient} {p : PendingCall} {a : Attempt}
    {result : Except ClientError Unit} (h : c.exchange p a = (d, result)) :
    (d.diagnosticIds = c.diagnosticIds ∧ SameOptions c d) ∧
    match result with
    | .ok () => ∀ wire, d.socket = some wire → ∃ before frame,
        (frame.diagnosticId = p.diagnosticId ∧ frame.call = p.call) ∧ wire = before.send frame ∧ (before = Link.fresh ∨ c.kept a = some before)
    | .error _ => d.socket = none ∨ d.socket = some Link.fresh ∨ d.socket = c.socket := by
  unfold exchange at h
  have hs := c.endpoint_sameWire a.publication
  cases he : c.endpoint a.publication with
  | mk c₁ found =>
    rw [he] at h hs
    obtain ⟨hsocket, hinstance, hids, -, hopt⟩ := hs
    cases found with
    | error error =>
      obtain ⟨rfl, rfl⟩ := Prod.mk.inj h
      exact ⟨⟨hids, hopt⟩, .inr (.inr hsocket)⟩
    | ok endpoint =>
      simp only at h hsocket hinstance hids
      cases hc : c₁.connect endpoint a with
      | mk c₂ connected =>
        rw [hc] at h
        obtain ⟨⟨hids₂, hopt₂⟩, hconn⟩ := connect_cases hc
        cases connected with
        | error error =>
          obtain ⟨rfl, rfl⟩ := Prod.mk.inj h
          rw [hsocket] at hconn
          exact ⟨⟨hids₂.trans hids, hopt.trans hopt₂⟩, hconn.imp_right .inr⟩
        | ok done =>
          obtain ⟨⟨hids₃, hopt₃⟩, hsent⟩ := transmit_cases h
          refine ⟨⟨hids₃.trans (hids₂.trans hids), (hopt.trans hopt₂).trans hopt₃⟩, ?_⟩
          rw [hsocket, hinstance] at hconn
          cases result with
          | error error =>
            rw [← hsent] at hconn
            exact .inr (hconn.imp_right And.left)
          | ok done =>
            obtain ⟨htoken, haccepted, hsend, token, hwire⟩ := hsent
            intro wire hw
            rw [hwire] at hw
            obtain ⟨before, hb, rfl⟩ := Option.map_eq_some_iff.mp hw
            refine ⟨before, c₂.request p token, ⟨rfl, rfl⟩, rfl, ?_⟩
            rw [hb] at hconn
            obtain hfresh | ⟨hkept, hsame⟩ := hconn
            · exact .inl (Option.some.inj hfresh)
            · right
              unfold kept
              rw [he]
              simp only [hsame, htoken, haccepted, hsend, and_self, if_true]
              exact hkept.symm

end JournalClient

/-- The wire of a client: its frames belong to the calls made so far and its unread
replies are answers that a writer gave. -/
structure WireSound (answered : List Answer) (wire : Option Wire) (calls : Nat) : Prop where
  frames : ∀ w, wire = some w → ∀ frame ∈ w.outstanding, frame.diagnosticId < calls
  replies : ∀ w, wire = some w → ∀ answer ∈ w.replies, answer ∈ answered

theorem WireSound.none (answered : List Answer) (calls : Nat) : WireSound answered none calls :=
  ⟨nofun, nofun⟩

theorem WireSound.fresh (answered : List Answer) (calls : Nat) :
    WireSound answered (some Link.fresh) calls where
  frames := by
    intro w hw frame hf
    obtain rfl := Option.some.inj hw
    cases hf
  replies := by
    intro w hw answer ha
    obtain rfl := Option.some.inj hw
    cases ha

theorem WireSound.weaken {answered : List Answer} {wire : Option Wire} {calls more : Nat}
    (h : WireSound answered wire calls) (hle : calls ≤ more) : WireSound answered wire more :=
  ⟨fun w hw frame hf => (h.frames w hw frame hf).trans_le hle, h.replies⟩

theorem WireSound.hangUp {answered : List Answer} {wire : Option Wire} {calls : Nat}
    (h : WireSound answered wire calls) : WireSound answered (wire.map Link.hangUp) calls where
  frames := by
    intro w hw frame hf
    obtain ⟨before, hb, rfl⟩ := Option.map_eq_some_iff.mp hw
    exact h.frames before hb frame (Link.mem_outstanding_hangUp hf)
  replies := by
    intro w hw answer ha
    obtain ⟨before, hb, rfl⟩ := Option.map_eq_some_iff.mp hw
    exact h.replies before hb answer ha

theorem WireSound.receive {answered : List Answer} {before after : Wire} {calls : Nat} {answer : Answer}
    (h : WireSound answered (some before) calls) (hr : before.receive = some (answer, after)) :
    WireSound answered (some after) calls ∧ answer ∈ answered ∧ answer.1.diagnosticId < calls := by
  obtain ⟨hmem, hout, hrest⟩ := Link.receive_eq hr
  have hframes := h.frames before rfl
  rw [hout] at hframes
  refine ⟨⟨?_, ?_⟩, h.replies before rfl answer hmem, hframes _ List.mem_cons_self⟩
  · intro w hw frame hf
    obtain rfl := Option.some.inj hw
    exact hframes frame (List.mem_cons_of_mem _ hf)
  · intro w hw other ho
    obtain rfl := Option.some.inj hw
    exact h.replies before rfl other (hrest other ho)

theorem WireSound.answer {answered : List Answer} {before after : Wire} {calls : Nat} {answer : Answer}
    {reply : JournalReply} (h : WireSound answered (some before) calls)
    (ha : before.answer reply = some (answer, after)) :
    WireSound (answered ++ [answer]) (some after) calls := by
  obtain ⟨-, hreplies, hout⟩ := Link.answer_eq ha
  constructor
  · intro w hw frame hf
    obtain rfl := Option.some.inj hw
    exact h.frames before rfl frame (hout ▸ hf)
  · intro w hw other ho
    obtain rfl := Option.some.inj hw
    rw [hreplies] at ho
    obtain ho | ho := List.mem_append.mp ho
    · exact List.mem_append_left _ (h.replies before rfl other ho)
    · exact List.mem_append_right _ ho

theorem WireSound.send {answered : List Answer} {before : Wire} {calls : Nat} {frame : JournalRequest}
    (h : WireSound answered (some before) calls) (hf : frame.diagnosticId < calls) :
    WireSound answered (some (before.send frame)) calls where
  frames := by
    intro w hw other ho
    obtain rfl := Option.some.inj hw
    obtain ho | rfl := Link.mem_outstanding_send ho
    · exact h.frames before rfl other ho
    · exact hf
  replies := by
    intro w hw answer ha
    obtain rfl := Option.some.inj hw
    exact h.replies before rfl answer (by simpa using ha)

/-- Holds in every run. Before it sends, a call has no frame of its own on the wire. -/
structure Exchange.Aware (s : Exchange) : Prop where
  wire : WireSound s.answered s.client.socket s.client.diagnosticIds
  trying : ∀ p, s.client.phase = .trying p →
    p.diagnosticId < s.client.diagnosticIds ∧ WireSound s.answered s.client.socket p.diagnosticId
  receiving : ∀ p nextProbe, s.client.phase = .receiving p nextProbe →
    p.diagnosticId < s.client.diagnosticIds

/-- Holds in a run whose every transmission starts on a clear wire. -/
structure Exchange.Paired (s : Exchange) : Prop where
  own : ∀ p nextProbe, s.client.phase = .receiving p nextProbe →
    ∀ w, s.client.socket = some w → ∀ frame ∈ w.outstanding, frame.diagnosticId = p.diagnosticId
  matched : s.Matched

/-- An attempt that is going to send its frame on a kept connection finds no
unanswered frame on it. -/
def Exchange.Clear (s : Exchange) : ClientAction → Prop
  | .attempt a _ => ∀ p, s.client.phase = .trying p → s.client.cancelled = false →
      expired p.deadline a.now = false → ∀ w, s.client.kept a = some w → w.outstanding = []
  | _ => True

namespace Exchange

theorem follow_aware {s : Exchange} {p : PendingCall} {c : JournalClient} {out : JournalClient × Progress}
    (hh : Handled c p out) (hw : WireSound s.answered c.socket c.diagnosticIds)
    (hp : p.diagnosticId < c.diagnosticIds) : (s.follow p out).Aware := by
  obtain ⟨d, progress⟩ := out
  have hids : d.diagnosticIds = c.diagnosticIds := hh.diagnosticIds
  cases progress with
  | retry p' =>
    obtain ⟨hid, hs, -, -⟩ := hh.retry p' rfl
    have hs : d.socket = none := hs
    constructor
    · simp only [follow, hs]
      exact .none _ _
    · intro q hq
      obtain rfl := ClientPhase.trying.inj hq
      simp only [follow, hs, hids, hid]
      exact ⟨hp, .none _ _⟩
    · intro q nextProbe hq
      cases hq
  | ended result =>
    have hs : d.socket = none ∨ d.socket = c.socket := (hh.ended result rfl).2
    constructor
    · simp only [follow, hids]
      obtain hs | hs := hs
      · rw [hs]
        exact .none _ _
      · rw [hs]
        exact hw
    · intro q hq
      cases hq
    · intro q nextProbe hq
      cases hq

theorem follow_paired {s : Exchange} {p : PendingCall} {c : JournalClient} {out : JournalClient × Progress}
    (hh : Handled c p out) (hm : s.Matched) : (s.follow p out).Paired := by
  obtain ⟨d, progress⟩ := out
  cases progress with
  | retry p' =>
    refine ⟨?_, hm⟩
    intro q nextProbe hq
    cases hq
  | ended result =>
    refine ⟨?_, ?_⟩
    · intro q nextProbe hq
      cases hq
    · intro e he
      obtain he | he := List.mem_append.mp he
      · exact hm e he
      · obtain rfl := List.mem_singleton.mp he
        exact (hh.ended result rfl).1.own _ _

theorem attempt_aware {s : Exchange} {p : PendingCall} {a : Attempt} {r : Recovery} (h : s.Aware)
    (hp : s.client.phase = .trying p) : (s.attempt p a r).Aware := by
  obtain ⟨hlt, hown⟩ := h.trying p hp
  unfold attempt
  split
  · exact follow_aware (.fail _) h.wire hlt
  · split
    · exact follow_aware (.fail _) h.wire hlt
    · cases hx : s.client.exchange p a with
      | mk d result =>
        obtain ⟨⟨hids, -⟩, hcases⟩ := exchange_cases hx
        have hd : WireSound s.answered d.socket p.diagnosticId → WireSound s.answered d.socket d.diagnosticIds :=
          fun hw => hw.weaken (hids ▸ hlt.le)
        cases result with
        | error error =>
          apply follow_aware (d.settleError_handled p r error)
          · apply hd
            obtain hs | hs | hs := hcases
            · rw [hs]
              exact .none _ _
            · rw [hs]
              exact .fresh _ _
            · rw [hs]
              exact hown
          · exact hids ▸ hlt
        | ok done =>
          constructor
          · simp only
            cases hs : d.socket with
            | none => exact .none _ _
            | some w =>
              obtain ⟨before, frame, ⟨hid, -⟩, rfl, hbefore⟩ := hcases w hs
              apply WireSound.send
              · obtain rfl | hkept := hbefore
                · exact .fresh _ _
                · rw [← kept_socket hkept, hids]
                  exact h.wire
              · exact hid ▸ hids ▸ hlt
          · intro q hq
            cases hq
          · intro q nextProbe hq
            obtain ⟨rfl, -⟩ := ClientPhase.receiving.inj hq
            exact hids ▸ hlt

/-- A value or a writer error that ends a call is the reply that was just read. -/
theorem settleReply_aware {s : Exchange} {p : PendingCall} {c : JournalClient} (answer : Answer)
    (hw : WireSound s.answered c.socket c.diagnosticIds) (hp : p.diagnosticId < c.diagnosticIds) :
    (s.follow p (c.settleReply p answer)).Aware := by
  obtain hh | ⟨he, -⟩ | ⟨he, -⟩ := c.settleReply_cases p answer
  · exact follow_aware hh hw hp
  · rw [he]
    exact ⟨hw, nofun, nofun⟩
  · rw [he]
    exact ⟨hw, nofun, nofun⟩

theorem settleReply_paired {s : Exchange} {p : PendingCall} {c : JournalClient} {answer : Answer}
    (hm : s.Matched) (ha : answer ∈ s.answered) (hid : answer.1.diagnosticId = p.diagnosticId) :
    (s.follow p (c.settleReply p answer)).Paired := by
  obtain hh | ⟨he, hok⟩ | ⟨he, hok⟩ := c.settleReply_cases p answer
  · exact follow_paired hh hm
  · rw [he]
    refine ⟨nofun, ?_⟩
    intro e hmem
    obtain hmem | hmem := List.mem_append.mp hmem
    · exact hm e hmem
    · obtain rfl := List.mem_singleton.mp hmem
      exact ⟨ha, hid, hok⟩
  · rw [he]
    refine ⟨nofun, ?_⟩
    intro e hmem
    obtain hmem | hmem := List.mem_append.mp hmem
    · exact hm e hmem
    · obtain rfl := List.mem_singleton.mp hmem
      exact ⟨ha, hid, hok, rfl⟩

theorem poll_aware {s : Exchange} {p : PendingCall} {nextProbe : Nat} {o : Poll} {r : Recovery} (h : s.Aware)
    (hp : s.client.phase = .receiving p nextProbe) : (s.poll p nextProbe o r).Aware := by
  have hlt := h.receiving p nextProbe hp
  unfold poll
  cases hx : s.client.receiveReply p nextProbe o with
  | mk d received =>
    obtain ⟨⟨hsocket, -, hids, -, -⟩, hnone⟩ | ⟨before, after, answer, hs, hr, rfl, rfl⟩ := receiveReply_cases hx
    · have hw : WireSound s.answered d.socket d.diagnosticIds := by
        rw [hsocket, hids]
        exact h.wire
      cases received with
      | reply answer => exact (hnone answer rfl).elim
      | again nextProbe =>
        refine ⟨hw, nofun, ?_⟩
        intro q n hq
        obtain ⟨rfl, -⟩ := ClientPhase.receiving.inj hq
        exact hids ▸ hlt
      | raised error => exact follow_aware (d.settleError_handled p r error) hw (hids ▸ hlt)
    · have hw := h.wire
      rw [hs] at hw
      exact settleReply_aware answer (hw.receive hr).1 hlt

theorem poll_paired {s : Exchange} {p : PendingCall} {nextProbe : Nat} {o : Poll} {r : Recovery} (h : s.Aware)
    (hpaired : s.Paired) (hp : s.client.phase = .receiving p nextProbe) : (s.poll p nextProbe o r).Paired := by
  unfold poll
  cases hx : s.client.receiveReply p nextProbe o with
  | mk d received =>
    obtain ⟨⟨hsocket, -, -, -, -⟩, hnone⟩ | ⟨before, after, answer, hs, hr, rfl, rfl⟩ := receiveReply_cases hx
    · cases received with
      | reply answer => exact (hnone answer rfl).elim
      | again nextProbe =>
        refine ⟨?_, hpaired.matched⟩
        intro q n hq w hw
        obtain ⟨rfl, -⟩ := ClientPhase.receiving.inj hq
        exact hpaired.own p _ hp w (hsocket ▸ hw)
      | raised error => exact follow_paired (d.settleError_handled p r error) hpaired.matched
    · have hw := h.wire
      rw [hs] at hw
      apply settleReply_paired hpaired.matched (hw.receive hr).2.1
      apply hpaired.own p nextProbe hp before hs
      rw [(Link.receive_eq hr).2.1]
      exact List.mem_cons_self

theorem attempt_paired {s : Exchange} {p : PendingCall} {a : Attempt} {r : Recovery} (hpaired : s.Paired)
    (hp : s.client.phase = .trying p) (hc : s.Clear (.attempt a r)) : (s.attempt p a r).Paired := by
  unfold attempt
  split
  · exact follow_paired (.fail _) hpaired.matched
  · rename_i hopen
    split
    · exact follow_paired (.fail _) hpaired.matched
    · rename_i htime
      cases hx : s.client.exchange p a with
      | mk d result =>
        obtain ⟨-, hcases⟩ := exchange_cases hx
        cases result with
        | error error => exact follow_paired (d.settleError_handled p r error) hpaired.matched
        | ok done =>
          refine ⟨?_, hpaired.matched⟩
          intro q nextProbe hq w hw other ho
          obtain ⟨rfl, -⟩ := ClientPhase.receiving.inj hq
          obtain ⟨before, frame, ⟨hid, -⟩, rfl, hbefore⟩ := hcases w hw
          have hempty : before.outstanding = [] := by
            obtain rfl | hkept := hbefore
            · rfl
            · exact hc p hp (by simpa using hopen) (by simpa using htime) before hkept
          obtain ho | rfl := Link.mem_outstanding_send ho
          · rw [hempty] at ho
            cases ho
          · exact hid

theorem answer_eq {s t : Exchange} {reply : JournalReply} (h : s.answer reply = some t) :
    ∃ before after answer, s.client.socket = some before ∧ before.answer reply = some (answer, after) ∧
      t = { s with client := { s.client with socket := some after }, answered := s.answered ++ [answer] } := by
  unfold answer at h
  obtain ⟨before, hs, h⟩ := Option.bind_eq_some_iff.mp h
  obtain ⟨⟨answer, after⟩, ha, h⟩ := Option.bind_eq_some_iff.mp h
  exact ⟨before, after, answer, hs, ha, (Option.some.inj h).symm⟩

theorem aware_idle {s : Exchange} (hidle : s.client.phase = .idle)
    (hw : WireSound s.answered s.client.socket s.client.diagnosticIds) : s.Aware := by
  refine ⟨hw, ?_, ?_⟩
  · intro p hp
    rw [hidle] at hp
    cases hp
  · intro p nextProbe hp
    rw [hidle] at hp
    cases hp

/-- Writers and the network act on the wire only. -/
structure OnWire (s t : Exchange) : Prop where
  phase : t.client.phase = s.client.phase
  diagnosticIds : t.client.diagnosticIds = s.client.diagnosticIds
  ended : t.ended = s.ended
  answered : ∃ more, t.answered = s.answered ++ more
  wire : ∀ calls, WireSound s.answered s.client.socket calls → WireSound t.answered t.client.socket calls
  frames : ∀ w, t.client.socket = some w → ∀ frame ∈ w.outstanding,
    ∃ w, s.client.socket = some w ∧ frame ∈ w.outstanding

theorem OnWire.aware {s t : Exchange} (h : OnWire s t) (hs : s.Aware) : t.Aware where
  wire := h.diagnosticIds ▸ h.wire _ hs.wire
  trying := by
    intro p hp
    obtain ⟨hlt, hw⟩ := hs.trying p (h.phase ▸ hp)
    exact ⟨h.diagnosticIds ▸ hlt, h.wire _ hw⟩
  receiving := by
    intro p nextProbe hp
    exact h.diagnosticIds ▸ hs.receiving p nextProbe (h.phase ▸ hp)

theorem OnWire.paired {s t : Exchange} (h : OnWire s t) (hs : s.Paired) : t.Paired where
  own := by
    intro p nextProbe hp w hw frame hf
    obtain ⟨before, hb, hf⟩ := h.frames w hw frame hf
    exact hs.own p nextProbe (h.phase ▸ hp) before hb frame hf
  matched := by
    intro e he
    obtain ⟨more, hmore⟩ := h.answered
    rw [hmore]
    exact (hs.matched e (h.ended ▸ he)).mono

theorem answer_onWire {s t : Exchange} {reply : JournalReply} (h : s.answer reply = some t) : OnWire s t := by
  obtain ⟨before, after, answer, hs, ha, rfl⟩ := answer_eq h
  refine ⟨rfl, rfl, rfl, ⟨_, rfl⟩, ?_, ?_⟩
  · intro calls hw
    rw [hs] at hw
    exact hw.answer ha
  · intro w hw frame hf
    obtain rfl := Option.some.inj hw
    exact ⟨before, hs, (Link.answer_eq ha).2.2 ▸ hf⟩

theorem hangUp_onWire {s t : Exchange} (hsocket : t.client.socket = s.client.socket.map Link.hangUp)
    (hphase : t.client.phase = s.client.phase) (hids : t.client.diagnosticIds = s.client.diagnosticIds)
    (hended : t.ended = s.ended) (hanswered : t.answered = s.answered) : OnWire s t := by
  refine ⟨hphase, hids, hended, ⟨[], by simpa using hanswered⟩, ?_, ?_⟩
  · intro calls hw
    rw [hsocket, hanswered]
    exact hw.hangUp
  · intro w hw frame hf
    rw [hsocket] at hw
    obtain ⟨before, hb, rfl⟩ := Option.map_eq_some_iff.mp hw
    exact ⟨before, hb, Link.mem_outstanding_hangUp hf⟩

/-- What a step is: a call that begins, a pass of the loop, a change outside of any
call, or an event on the wire. -/
theorem step_cases {s t : Exchange} {action : ClientAction} (h : s.step action = some t) :
    (∃ call now, s.client.phase = .idle ∧ t = { s with client := s.client.begin call now }) ∨
    (∃ a r p, action = .attempt a r ∧ s.client.phase = .trying p ∧ t = s.attempt p a r) ∨
    (∃ o r p nextProbe, action = .poll o r ∧ s.client.phase = .receiving p nextProbe ∧
      t = s.poll p nextProbe o r) ∨
    (s.client.phase = .idle ∧ t.client.phase = .idle ∧ t.ended = s.ended ∧ t.answered = s.answered ∧
      t.client.diagnosticIds = s.client.diagnosticIds ∧
      (t.client.socket = s.client.socket ∨ t.client.socket = none)) ∨
    OnWire s t := by
  cases action with
  | call call now =>
    simp only [step] at h
    split at h
    · rename_i hidle
      exact .inl ⟨call, now, hidle, (Option.some.inj h).symm⟩
    · cases h
  | attempt a r =>
    simp only [step] at h
    split at h
    · rename_i p hp
      exact .inr (.inl ⟨a, r, p, rfl, hp, (Option.some.inj h).symm⟩)
    · cases h
  | poll o r =>
    simp only [step] at h
    split at h
    · rename_i p nextProbe hp
      exact .inr (.inr (.inl ⟨o, r, p, nextProbe, rfl, hp, (Option.some.inj h).symm⟩))
    · cases h
  | reopen endpointPath managed =>
    simp only [step] at h
    split at h
    · rename_i hidle
      obtain rfl := Option.some.inj h
      exact .inr (.inr (.inr (.inl ⟨hidle, hidle, rfl, rfl, rfl, .inl rfl⟩)))
    · cases h
  | adopt identity =>
    simp only [step] at h
    split at h
    · rename_i hidle
      obtain rfl := Option.some.inj h
      exact .inr (.inr (.inr (.inl ⟨hidle, hidle, rfl, rfl, rfl, .inl rfl⟩)))
    · cases h
  | requestClose =>
    obtain rfl := Option.some.inj h
    exact .inr (.inr (.inr (.inr (hangUp_onWire rfl rfl rfl rfl rfl))))
  | close =>
    simp only [step] at h
    split at h
    · rename_i hidle
      obtain rfl := Option.some.inj h
      exact .inr (.inr (.inr (.inl ⟨hidle, hidle, rfl, rfl, rfl, .inr rfl⟩)))
    · cases h
  | answer reply => exact .inr (.inr (.inr (.inr (answer_onWire h))))
  | hangUp =>
    obtain rfl := Option.some.inj h
    exact .inr (.inr (.inr (.inr (hangUp_onWire rfl rfl rfl rfl rfl))))

theorem step_aware {s t : Exchange} {action : ClientAction} (h : s.Aware) (hstep : s.step action = some t) :
    t.Aware := by
  obtain ⟨call, now, -, rfl⟩ | ⟨a, r, p, -, hp, rfl⟩ | ⟨o, r, p, nextProbe, -, hp, rfl⟩ |
    ⟨-, hidle, -, hanswered, hids, hsocket⟩ | hon := step_cases hstep
  · refine ⟨h.wire.weaken (Nat.le_succ _), ?_, nofun⟩
    intro q hq
    obtain rfl := ClientPhase.trying.inj hq
    exact ⟨Nat.lt_succ_self _, h.wire⟩
  · exact attempt_aware h hp
  · exact poll_aware h hp
  · apply aware_idle hidle
    rw [hanswered, hids]
    obtain hs | hs := hsocket
    · rw [hs]
      exact h.wire
    · rw [hs]
      exact .none _ _
  · exact hon.aware h

theorem step_paired {s t : Exchange} {action : ClientAction} (h : s.Aware) (hpaired : s.Paired)
    (hc : s.Clear action) (hstep : s.step action = some t) : t.Paired := by
  obtain ⟨call, now, -, rfl⟩ | ⟨a, r, p, rfl, hp, rfl⟩ | ⟨o, r, p, nextProbe, -, hp, rfl⟩ |
    ⟨-, hidle, hended, hanswered, -, -⟩ | hon := step_cases hstep
  · exact ⟨nofun, hpaired.matched⟩
  · exact attempt_paired hpaired hp hc
  · exact poll_paired h hpaired hp
  · refine ⟨?_, ?_⟩
    · intro p nextProbe hp
      rw [hidle] at hp
      cases hp
    · intro e he
      rw [hanswered]
      exact hpaired.matched e (hended ▸ he)
  · exact hon.paired hpaired

theorem run_of_step {s t : Exchange} {action : ClientAction} {rest : List ClientAction}
    (h : s.step action = some t) : s.run (action :: rest) = t.run rest := by
  rw [run, h, Option.bind_some]

/-- The condition holds before every action of a run. -/
def AllClear (s : Exchange) : List ClientAction → Prop
  | [] => True
  | action :: rest => s.Clear action ∧ ∀ t, s.step action = some t → t.AllClear rest

theorem allClear_cons {s t : Exchange} {action : ClientAction} {rest : List ClientAction} (hc : s.Clear action)
    (hstep : s.step action = some t) (ht : t.AllClear rest) : s.AllClear (action :: rest) := by
  refine ⟨hc, ?_⟩
  intro u hu
  obtain rfl := Option.some.inj (hstep.symm.trans hu)
  exact ht

theorem run_aware {s t : Exchange} {actions : List ClientAction} (h : s.Aware) (hrun : s.run actions = some t) :
    t.Aware := by
  induction actions generalizing s with
  | nil =>
    obtain rfl := Option.some.inj hrun
    exact h
  | cons action rest ih =>
    obtain ⟨u, hstep, hrun⟩ := Option.bind_eq_some_iff.mp hrun
    exact ih (step_aware h hstep) hrun

theorem run_paired {s t : Exchange} {actions : List ClientAction} (h : s.Aware) (hpaired : s.Paired)
    (hclear : s.AllClear actions) (hrun : s.run actions = some t) : t.Paired := by
  induction actions generalizing s with
  | nil =>
    obtain rfl := Option.some.inj hrun
    exact hpaired
  | cons action rest ih =>
    obtain ⟨u, hstep, hrun⟩ := Option.bind_eq_some_iff.mp hrun
    exact ih (step_aware h hstep) (step_paired h hpaired hclear.1 hstep) (hclear.2 u hstep) hrun

theorem start_aware (readOnly managed : Bool) (requestTimeout : Option Nat)
    (recoveryTimeout stallTimeout minFreeBytes : Nat) (endpointPath : Option String)
    (expected : Option JournalIdentity) :
    (start readOnly managed requestTimeout recoveryTimeout stallTimeout minFreeBytes endpointPath expected).Aware :=
  aware_idle rfl (.none _ _)

theorem start_paired (readOnly managed : Bool) (requestTimeout : Option Nat)
    (recoveryTimeout stallTimeout minFreeBytes : Nat) (endpointPath : Option String)
    (expected : Option JournalIdentity) :
    (start readOnly managed requestTimeout recoveryTimeout stallTimeout minFreeBytes endpointPath expected).Paired :=
  ⟨nofun, by intro e he; cases he⟩

/-- An attempt on a kept connection sends its frame behind what is outstanding there. -/
theorem exchange_kept {c : JournalClient} (p : PendingCall) {a : Attempt} {w : Wire} (h : c.kept a = some w) :
    ∃ d frame, c.exchange p a = (d, .ok ()) ∧ d.socket = some (w.send frame) ∧ d.cancelled = c.cancelled := by
  have hsocket := kept_socket h
  have hs := c.endpoint_sameWire a.publication
  unfold kept at h
  unfold exchange
  cases he : c.endpoint a.publication with
  | mk c₁ found =>
    rw [he] at h hs
    cases found with
    | error error => cases h
    | ok endpoint =>
      simp only at h
      split at h
      · rename_i hall
        obtain ⟨hinstance, htoken, haccepted, hsent⟩ := hall
        cases ht : a.token with
        | error failure => simp [ht, Except.isOk, Except.toBool] at htoken
        | ok token =>
          have hs₁ : c₁.socket = some w := hs.socket.trans hsocket
          have hi₁ : c₁.socketInstanceId = some endpoint.writerInstanceId := hs.socketInstanceId.trans hinstance
          refine ⟨{ c₁ with socket := c₁.socket.map (·.send (c₁.request p token)) }, c₁.request p token, ?_, ?_, ?_⟩
          · simp [connect, transmit, hi₁, hs₁, ht, haccepted, hsent]
          · simp [hs₁]
          · exact hs.cancelled
      · cases h

/-- A poll that reads the head of the wire. -/
def readingPoll (now : Nat) : Poll :=
  ⟨now, true, false, ⟨.error .os, none⟩, ⟨.error .connection, false, .error .os, .ok ()⟩⟩

def deadEnd : Recovery := ⟨0, fun _ => .error .connection, false, .error .connection⟩

theorem poll_reads {s : Exchange} {p : PendingCall} {nextProbe now : Nat} {before after : Wire} {answer : Answer}
    (hopen : s.client.cancelled = false) (htime : expired p.deadline now = false)
    (hs : s.client.socket = some before) (hr : before.receive = some (answer, after)) :
    s.poll p nextProbe (readingPoll now) deadEnd =
      s.follow p (({ s.client with socket := some after } : JournalClient).settleReply p answer) := by
  simp [poll, receiveReply, arrived, readingPoll, hopen, htime, hs, hr]

/-- A final reply that answers another call ends this one with it. -/
theorem foreign_reply_mismatched {s : Exchange} {p : PendingCall} {c : JournalClient} {answer : Answer}
    (hid : answer.1.diagnosticId ≠ p.diagnosticId) (hfinal : answer.2.ok = true ∨ answer.2.retryable = false) :
    ¬ (s.follow p (c.settleReply p answer)).Matched := by
  intro hm
  unfold settleReply at hm
  split at hm
  · exact hid (hm _ (List.mem_append_right _ List.mem_cons_self)).2.1
  · rename_i hok
    obtain hok' | hretry := hfinal
    · exact hok hok'
    · rw [if_neg (by simp [hretry]), if_pos hretry] at hm
      exact hid (hm _ (List.mem_append_right _ List.mem_cons_self)).2.1

theorem attempt_kept {s : Exchange} {p : PendingCall} {a : Attempt} {r : Recovery} {w : Wire}
    (hopen : s.client.cancelled = false) (htime : expired p.deadline a.now = false)
    (hk : s.client.kept a = some w) :
    ∃ (d : JournalClient) (frame : JournalRequest) (nextProbe : Nat),
      s.attempt p a r = { s with client := { d with phase := .receiving p nextProbe } } ∧
      d.socket = some (w.send frame) ∧ d.cancelled = false := by
  obtain ⟨d, frame, hx, hs, hcancelled⟩ := exchange_kept p hk
  refine ⟨d, frame, a.now + probeInterval, ?_, hs, hcancelled.trans hopen⟩
  unfold attempt
  rw [if_neg (by simp [hopen]), if_neg (by simp [htime]), hx]

/-- An unclear transmission reaches the defect: the call can end with the reply to an
earlier one. A retryable refusal that already waits there is dropped instead. -/
theorem unclear_mismatches {s : Exchange} {a : Attempt} {r : Recovery} (h : s.Aware)
    (hc : ¬ s.Clear (.attempt a r))
    (hfinal : ∀ w, s.client.kept a = some w → ∀ answer ∈ w.replies,
      answer.2.ok = true ∨ answer.2.retryable = false) :
    ∃ actions t, s.run (.attempt a r :: actions) = some t ∧ ¬ t.Matched := by
  simp only [Clear, not_forall] at hc
  obtain ⟨p, hp, hopen, htime, w, hk, hout⟩ := hc
  obtain ⟨d, frame, nextProbe, hattempt, hs, hcancelled⟩ := attempt_kept (r := r) hopen htime hk
  have hearlier := ((h.trying p hp).2.frames w (kept_socket hk))
  let u : Exchange := { s with client := { d with phase := .receiving p nextProbe } }
  have hstep : s.step (.attempt a r) = some u := by
    simp only [step, hp]
    rw [hattempt]
  obtain ⟨answer, rest, hr, hmem⟩ | ⟨hnone, f, rest, hq, hmem⟩ := Link.head_of_send frame hout
  · obtain ⟨after, hreceive⟩ := Link.receive_of_replies hr
    refine ⟨[.poll (readingPoll a.now) deadEnd], u.poll p nextProbe (readingPoll a.now) deadEnd, ?_, ?_⟩
    · rw [run_of_step hstep, run_of_step rfl, run]
    · rw [poll_reads (s := u) hcancelled htime hs hreceive]
      have hlt := hearlier answer.1 (List.mem_append_left _ (List.mem_map_of_mem hmem))
      exact foreign_reply_mismatched hlt.ne (hfinal w hk answer hmem)
  · let reply : JournalReply := ⟨true, .null, ⟨"", "", false⟩, false⟩
    obtain ⟨answered, hanswer⟩ := Link.answer_of_requests reply hq
    obtain ⟨-, hreplies, -⟩ := Link.answer_eq hanswer
    rw [Link.replies_send, hnone, List.nil_append] at hreplies
    obtain ⟨after, hreceive⟩ := Link.receive_of_replies hreplies
    let v : Exchange :=
      { u with client := { u.client with socket := some answered }, answered := u.answered ++ [(f, reply)] }
    have hv : u.step (.answer reply) = some v := by
      simp [step, Exchange.answer, u, hs, hanswer, v]
    refine ⟨[.answer reply, .poll (readingPoll a.now) deadEnd], v.poll p nextProbe (readingPoll a.now) deadEnd, ?_, ?_⟩
    · rw [run_of_step hstep, run_of_step hv, run_of_step rfl, run]
    · rw [poll_reads (s := v) hcancelled htime rfl hreceive]
      exact foreign_reply_mismatched (hearlier f hmem).ne (.inl rfl)

/-- Every value and every writer error of a call answers a frame of that call as long
as no frame is sent behind an unanswered one; and where one is, the late reply can end
the wrong call. -/
theorem replies_matched (readOnly managed : Bool) (requestTimeout : Option Nat)
    (recoveryTimeout stallTimeout minFreeBytes : Nat) (endpointPath : Option String)
    (expected : Option JournalIdentity) (s : Exchange)
    (hs : s = start readOnly managed requestTimeout recoveryTimeout stallTimeout minFreeBytes endpointPath expected) :
    (∀ actions t, s.run actions = some t → s.AllClear actions → t.Matched) ∧
    ∀ actions t a r, s.run actions = some t → ¬ t.Clear (.attempt a r) →
      (∀ w, t.client.kept a = some w → ∀ answer ∈ w.replies, answer.2.ok = true ∨ answer.2.retryable = false) →
      ∃ more u, t.run (.attempt a r :: more) = some u ∧ ¬ u.Matched := by
  subst hs
  have haware := start_aware readOnly managed requestTimeout recoveryTimeout stallTimeout minFreeBytes
    endpointPath expected
  constructor
  · intro actions t hrun hclear
    exact (run_paired haware (start_paired ..) hclear hrun).matched
  · intro actions t a r hrun hc hfinal
    exact unclear_mismatches (run_aware haware hrun) hc hfinal

def readyEndpoint : Publication :=
  ⟨.ok ⟨"writer", "127.0.0.1", 4000, "token", true⟩, some (.ok ⟨.ready, some true⟩)⟩

def delivery (now : Nat) : ClientAction := .attempt ⟨now, readyEndpoint, true, .ok "token", true, true⟩ deadEnd

def infoCall (command : String) : ClientAction := .call (.other command .null) 0

/-- A telemetry client with a delivery budget of one second. -/
def budgeted : Exchange := start false true (some 1000) 60000 10000 0 (some "endpoint.json") none

def valueReply (n : Int) : JournalReply := ⟨true, .int n, ⟨"", "", false⟩, false⟩

/-- A call whose reply is read before the client waits for anything else. -/
def answeredCall (command : String) (n : Int) : List ClientAction :=
  [infoCall command, delivery 0, .answer (valueReply n), .poll (readingPoll 0) deadEnd]

/-- The second call goes out on the connection of the first. -/
theorem replies_matched_delivery :
    ∃ t, budgeted.run (answeredCall "read_events" 1 ++ answeredCall "get_journal_info" 2) = some t ∧
      t.ended.map Prod.fst = [0, 1] ∧ t.Matched := by
  refine ⟨_, rfl, rfl, ?_⟩
  apply (replies_matched false true (some 1000) 60000 10000 0 (some "endpoint.json") none budgeted rfl).1
    (answeredCall "read_events" 1 ++ answeredCall "get_journal_info" 2) _ rfl
  refine allClear_cons trivial rfl (allClear_cons ?_ rfl (allClear_cons trivial rfl (allClear_cons trivial rfl ?_)))
  · intro p _ _ _ w hk
    cases hk
  · refine allClear_cons trivial rfl (allClear_cons ?_ rfl (allClear_cons trivial rfl (allClear_cons trivial rfl trivial)))
    intro p _ _ _ w hk
    obtain rfl := Option.some.inj hk
    rfl

/-- The budget of the first call ends while its frame is unanswered; the second call
sends its frame behind it and returns the first call's value. -/
theorem late_reply_mismatched : ¬ ∀ actions t, budgeted.run actions = some t → t.Matched := by
  intro h
  have hm := h [infoCall "read_events", delivery 0, .poll (readingPoll 1000) deadEnd, infoCall "get_journal_info",
    delivery 0, .answer (valueReply 1), .poll (readingPoll 0) deadEnd] _ rfl
  have hown := (hm _ (List.mem_cons_of_mem _ List.mem_cons_self)).2.1
  exact absurd hown (by decide)

end Exchange

end ModularPipelines.Journal
