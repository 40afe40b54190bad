import ModularPipelines.Journal.Reconcile
import ModularPipelines.Journal.Writer

namespace ModularPipelines.Journal
open Library

/-- How a transaction changes a journal: it stores one ordinary event, or the first
report of an author. -/
inductive Growth (settings : Settings) (j : EventStore) : EventStore → JournalCall → Prop
  | ordinary {k : EventStore} {event : JournalEvent} {text : String} :
      encodeEvent settings event = .ok text → event.eventType ≠ "command.result" →
      insertEvent j event = .ok k → Growth settings j (recordEventChange k event.eventId) (.append event)
  | report {k : EventStore} {event : JournalEvent} {d : CommandObservation} {identity : Identity}
      {state : Option CommandState} {eventId : String} {st : CommandState} :
      validateReport settings event = .ok (d, identity) →
      loadCommandResult settings j d.requestId = .ok state → (∀ s ∈ state, s.identity = identity) →
      state.bind (CommandState.entry · d.author) = none →
      recordReport settings j event d identity state = .ok (k, eventId) →
      Recorded settings j k event d identity state eventId st → Growth settings j k (.appendCommandResult event)

theorem report_growth {settings : Settings} {j k : EventStore} {event : JournalEvent} {eventId : String}
    (h : appendCommandResult settings j event = .ok (k, eventId)) :
    k = j ∨ Growth settings j k (.appendCommandResult event) := by
  obtain ⟨d, identity, state, hv, hl, hi, ⟨own, -, -, rfl, -⟩ | ⟨hnew, hrec⟩⟩ := appendCommandResult_ok.mp h
  · exact .inl rfl
  · obtain ⟨-, -, -, hd, -⟩ := validateReport_ok.mp hv
    obtain ⟨st, hr⟩ := recordReport_recorded hd hl hi hrec
    exact .inr (.report hv hl hi hnew hrec hr)

theorem Growth.extends {settings : Settings} {j k : EventStore} {call : JournalCall}
    (h : Growth settings j k call) : j.Extends k := by
  cases h with
  | ordinary he hn hi =>
    obtain ⟨-, -, rfl⟩ := insertEvent_ok.mp hi
    exact ⟨_, rfl⟩
  | report hv hl hi hnew hrec hr => exact hr.extends

/-- An author's answer to a request, as the index has it. -/
def Claimed (settings : Settings) (j : EventStore) (requestId : String) (author : Author)
    (own : AuthorEntry) : Prop :=
  ∃ state, loadCommandResult settings j requestId = .ok (some state) ∧ state.entry author = some own

theorem Claimed.unique {settings : Settings} {j : EventStore} {requestId : String} {author : Author}
    {own own' : AuthorEntry} (h : Claimed settings j requestId author own)
    (h' : Claimed settings j requestId author own') : own = own' := by
  obtain ⟨state, hl, ho⟩ := h
  obtain ⟨state', hl', ho'⟩ := h'
  obtain rfl := Option.some.inj (Except.ok.inj (hl.symm.trans hl'))
  exact Option.some.inj (ho.symm.trans ho')

theorem Claimed.of_bind {settings : Settings} {j : EventStore} {requestId : String} {author : Author}
    {state : Option CommandState} {own : AuthorEntry}
    (hl : loadCommandResult settings j requestId = .ok state)
    (h : state.bind (CommandState.entry · author) = some own) : Claimed settings j requestId author own := by
  obtain ⟨st, rfl, he⟩ := Option.bind_eq_some_iff.mp h
  exact ⟨st, hl, he⟩

theorem Claimed.bind {settings : Settings} {j : EventStore} {requestId : String} {author : Author}
    {state : Option CommandState} {own : AuthorEntry} (h : Claimed settings j requestId author own)
    (hl : loadCommandResult settings j requestId = .ok state) :
    state.bind (CommandState.entry · author) = some own := by
  obtain ⟨st, hl', he⟩ := h
  obtain rfl := Except.ok.inj (hl'.symm.trans hl)
  exact he

/-- The owner of a request, as the index has it. -/
def OwnedBy (settings : Settings) (j : EventStore) (requestId : String) (identity : Identity) : Prop :=
  ∃ state, loadCommandResult settings j requestId = .ok (some state) ∧ state.identity = identity

/-- A request that a transaction does not concern reads as before. -/
theorem Growth.load {settings : Settings} {j k : EventStore} {call : JournalCall} {requestId : String}
    {state : Option CommandState} (h : Growth settings j k call)
    (hl : loadCommandResult settings j requestId = .ok state) :
    loadCommandResult settings k requestId = .ok state ∨
    ∃ event d identity eventId st, call = .appendCommandResult event ∧ d.requestId = requestId ∧
      state.bind (CommandState.entry · d.author) = none ∧ (∀ s ∈ state, s.identity = identity) ∧
      Recorded settings j k event d identity state eventId st := by
  cases h with
  | ordinary he hn hi =>
    obtain ⟨-, -, rfl⟩ := insertEvent_ok.mp hi
    exact .inl (loadCommandResult_mono ⟨_, rfl⟩ rfl hl)
  | @report _ event d identity before eventId st hv hload hi hnew hrec hr =>
    by_cases hreq : d.requestId = requestId
    · subst hreq
      obtain rfl := Except.ok.inj (hload.symm.trans hl)
      exact .inr ⟨event, d, identity, eventId, st, rfl, rfl, hnew, hi, hr⟩
    · exact .inl (loadCommandResult_mono hr.extends (hr.findResult_ne hreq) hl)

theorem Growth.claimed {settings : Settings} {j k : EventStore} {call : JournalCall} {requestId : String}
    {author : Author} {own : AuthorEntry} (h : Growth settings j k call)
    (hc : Claimed settings j requestId author own) : Claimed settings k requestId author own := by
  obtain ⟨state, hl, ho⟩ := hc
  obtain hl' | ⟨event, d, identity, eventId, st, -, rfl, hnew, -, hr⟩ := h.load hl
  · exact ⟨state, hl', ho⟩
  · obtain rfl | rfl := Author.eq_or_other author d.author
    · rw [Option.bind_some, ho] at hnew
      cases hnew
    · exact ⟨st, hr.loaded, hr.other.trans ho⟩

theorem Growth.ownedBy {settings : Settings} {j k : EventStore} {call : JournalCall} {requestId : String}
    {identity : Identity} (h : Growth settings j k call) (ho : OwnedBy settings j requestId identity) :
    OwnedBy settings k requestId identity := by
  obtain ⟨state, hl, hi⟩ := ho
  obtain hl' | ⟨event, d, owner, eventId, st, -, rfl, -, hsame, hr⟩ := h.load hl
  · exact ⟨state, hl', hi⟩
  · exact ⟨st, hr.loaded, hr.identity.trans ((hsame state rfl).symm.trans hi)⟩

/-- A report that its author's own answer, the owner of its request or the mark it
would get keeps out for good. -/
def ReportSpent (settings : Settings) (j : EventStore) (event : JournalEvent) (d : CommandObservation)
    (identity : Identity) : Prop :=
  (∃ owner, OwnedBy settings j d.requestId owner ∧ owner ≠ identity) ∨
  (∃ own, Claimed settings j d.requestId d.author own) ∨
  ∃ other snapshot error, Claimed settings j d.requestId d.author.other other ∧
    prepareOtherAuthorResult (some other) d.author event d = .inr snapshot ∧
    encodeEvent settings snapshot = .error error

/-- No transaction for this call changes the journal any more. -/
def Spent (settings : Settings) (j : EventStore) : JournalCall → Prop
  | .append event => (∃ error, encodeEvent settings event = .error error) ∨
      event.eventType = "command.result" ∨ ∃ row ∈ j.events, row.event.eventId = event.eventId
  | .appendCommandResult event => ∀ d identity, validateReport settings event = .ok (d, identity) →
      ReportSpent settings j event d identity
  | .other _ _ => True

theorem Growth.spent {settings : Settings} {j k : EventStore} {call other : JournalCall}
    (h : Growth settings j k call) (hs : Spent settings j other) : Spent settings k other := by
  cases other with
  | append event' =>
    obtain herr | htype | ⟨row, hrow, hid⟩ := hs
    · exact .inl herr
    · exact .inr (.inl htype)
    · obtain ⟨more, hmore⟩ := h.extends
      exact .inr (.inr ⟨row, hmore ▸ List.mem_append_left _ hrow, hid⟩)
  | appendCommandResult event' =>
    intro d identity hv
    obtain ⟨owner, ho, hne⟩ | ⟨own, hc⟩ | ⟨other, snapshot, error, hc, hp, he⟩ := hs d identity hv
    · exact .inl ⟨owner, h.ownedBy ho, hne⟩
    · exact .inr (.inl ⟨own, h.claimed hc⟩)
    · exact .inr (.inr ⟨other, snapshot, error, h.claimed hc, hp, he⟩)
  | other command arguments => trivial

theorem writeReport_encodes {settings : Settings} {j k : EventStore} {other : Option AuthorEntry}
    {event snapshot : JournalEvent} {d : CommandObservation} {eventId : String}
    (h : writeReport settings j other event d = .ok (k, eventId))
    (hp : prepareOtherAuthorResult other d.author event d = .inr snapshot) :
    ∃ text, encodeEvent settings snapshot = .ok text := by
  unfold writeReport at h
  rw [hp] at h
  obtain ⟨text, he, -⟩ := bind_ok.mp h
  exact ⟨text, he⟩

theorem Spent.no_growth {settings : Settings} {j k : EventStore} {call : JournalCall}
    (hs : Spent settings j call) : ¬ Growth settings j k call := by
  intro h
  cases h with
  | ordinary he hn hi =>
    obtain ⟨error, herr⟩ | htype | ⟨row, hrow, hid⟩ := hs
    · rw [he] at herr
      cases herr
    · exact hn htype
    · exact (insertEvent_ok.mp hi).1 row hrow hid
  | @report _ event d identity state eventId st hv hl hi hnew hrec hr =>
    obtain ⟨owner, ⟨s, hs, ho⟩, hne⟩ | ⟨own, hc⟩ | ⟨other, snapshot, error, hc, hp, he⟩ := hs d identity hv
    · obtain rfl := Except.ok.inj (hs.symm.trans hl)
      exact hne (ho.symm.trans (hi s rfl))
    · rw [hc.bind hl] at hnew
      cases hnew
    · simp only [recordReport, bind_ok] at hrec
      obtain ⟨⟨k', id'⟩, hw, -⟩ := hrec
      rw [hc.bind hl] at hw
      obtain ⟨text, htext⟩ := writeReport_encodes hw hp
      rw [he] at htext
      cases htext

/-- What an answer with a value promises about the journal. -/
def Confirmed (settings : Settings) (j : EventStore) (value : Json) : JournalCall → Prop
  | .append event => (∃ text, encodeEvent settings event = .ok text) ∧ event.eventType ≠ "command.result" ∧
      ∃ row ∈ j.events, row.event.eventId = event.eventId
  | .appendCommandResult event => ∃ d identity own, validateReport settings event = .ok (d, identity) ∧
      OwnedBy settings j d.requestId identity ∧ Claimed settings j d.requestId d.author own ∧
      own.result.answer = d.answer ∧ value = .str own.eventId
  | .other _ _ => True

theorem Confirmed.spent {settings : Settings} {j : EventStore} {value : Json} {call : JournalCall}
    (h : Confirmed settings j value call) : Spent settings j call := by
  cases call with
  | append event => exact .inr (.inr h.2.2)
  | appendCommandResult event =>
    intro d identity hv
    obtain ⟨d', identity', own, hv', -, hc, -, -⟩ := h
    obtain ⟨rfl, rfl⟩ := Prod.mk.inj (Except.ok.inj (hv.symm.trans hv'))
    exact .inr (.inl ⟨own, hc⟩)
  | other command arguments => trivial

theorem Growth.confirmed {settings : Settings} {j k : EventStore} {call other : JournalCall} {value : Json}
    (h : Growth settings j k call) (hc : Confirmed settings j value other) :
    Confirmed settings k value other := by
  cases other with
  | append event =>
    obtain ⟨he, hn, row, hrow, hid⟩ := hc
    obtain ⟨more, hmore⟩ := h.extends
    exact ⟨he, hn, row, hmore ▸ List.mem_append_left _ hrow, hid⟩
  | appendCommandResult event =>
    obtain ⟨d, identity, own, hv, ho, hc, ha, hvalue⟩ := hc
    exact ⟨d, identity, own, hv, h.ownedBy ho, h.claimed hc, ha, hvalue⟩
  | other command arguments => trivial

theorem settleBody_cases {settings : Settings} {action : String} {j k : EventStore} {interruption : Option Interruption}
    {fail : JournalError → Failure} {body : Except JournalError (EventStore × String)}
    {result : Except Failure String} (h : settleBody settings action j interruption fail body = (k, result)) :
    (∃ eventId, body = .ok (k, eventId) ∧
      (result = .ok eventId ∨ ∃ cause, result = .error (storageFailure settings action cause))) ∨
    (k = j ∧ ((∃ cause, result = .error (storageFailure settings action cause)) ∨
      ∃ error, body = .error error ∧ result = .error (fail error))) := by
  unfold settleBody at h
  split at h
  · obtain ⟨rfl, rfl⟩ := Prod.mk.inj h
    exact .inr ⟨rfl, .inl ⟨_, rfl⟩⟩
  · obtain ⟨rfl, rfl⟩ := Prod.mk.inj h
    exact .inr ⟨rfl, .inr ⟨_, rfl, rfl⟩⟩
  · obtain ⟨rfl, rfl⟩ := Prod.mk.inj h
    exact .inr ⟨rfl, .inl ⟨_, rfl⟩⟩
  · obtain ⟨rfl, rfl⟩ := Prod.mk.inj h
    exact .inl ⟨_, rfl, .inr ⟨_, rfl⟩⟩
  · obtain ⟨rfl, rfl⟩ := Prod.mk.inj h
    exact .inl ⟨_, rfl, .inl rfl⟩

/-- Error classes that a caller takes for a refused input. -/
def inputErrors : List String := ["ValueError", "ValidationError", "TypeError"]

theorem storageFailure_notInput (settings : Settings) (action : String) (cause : Cause) :
    (storageFailure settings action cause).type ∉ inputErrors := by
  simp only [storageFailure]
  decide

theorem appendFailure_notInput (settings : Settings) (error : JournalError) :
    (appendFailure settings error).type ∉ inputErrors := by
  cases error with
  | value message => exact storageFailure_notInput _ _ _
  | storage message =>
    simp only [appendFailure]
    split <;> first | exact storageFailure_notInput _ _ _ | (simp only [errorType]; decide)
  | key field =>
    simp only [appendFailure, errorType]
    decide
  | state message =>
    simp only [appendFailure, errorType]
    decide
  | generationChanged =>
    simp only [appendFailure, errorType]
    decide

theorem reportFailure_input {settings : Settings} {error : JournalError}
    (h : (reportFailure settings error).type ∈ inputErrors) :
    ∃ message, error = .value message := by
  cases error with
  | value message => exact ⟨message, rfl⟩
  | storage message =>
    simp only [reportFailure] at h
    split at h
    · rename_i heq
      cases heq
    · exact absurd h (storageFailure_notInput _ _ _)
    · simp only at h
      exact absurd h (by decide)
    · rename_i hne heq
      simp only [errorType] at h
      exact absurd h (by decide)
  | key field =>
    simp only [reportFailure, errorType] at h
    exact absurd h (by decide)
  | state message =>
    simp only [reportFailure, errorType] at h
    exact absurd h (by decide)
  | generationChanged =>
    simp only [reportFailure, errorType] at h
    exact absurd h (by decide)

/-- What applying a call does to the journal, and what its result says about it. -/
structure Effect (settings : Settings) (j k : EventStore) (call : JournalCall)
    (result : Except Failure Json) : Prop where
  grown : k = j ∨ Growth settings j k call
  confirmed : ∀ value, result = .ok value → Confirmed settings k value call
  refused : ∀ failure, result = .error failure → failure.type ∈ inputErrors → k = j ∧ Spent settings j call

theorem Effect.failed {settings : Settings} {j : EventStore} {call : JournalCall} {failure : Failure}
    (h : failure.type ∉ inputErrors) : Effect settings j j call (.error failure) where
  grown := .inl rfl
  confirmed := by
    intro value hv
    cases hv
  refused := by
    intro f hf ht
    obtain rfl := Except.error.inj hf
    exact (h ht).elim

theorem Effect.refusal {settings : Settings} {j : EventStore} {call : JournalCall} (failure : Failure)
    (h : Spent settings j call) : Effect settings j j call (.error failure) where
  grown := .inl rfl
  confirmed := by
    intro value hv
    cases hv
  refused := fun _ _ _ => ⟨rfl, h⟩

theorem Effect.storage {settings : Settings} {j k : EventStore} {call : JournalCall} (action : String) (cause : Cause)
    (h : k = j ∨ Growth settings j k call) : Effect settings j k call (.error (storageFailure settings action cause)) where
  grown := h
  confirmed := by
    intro value hv
    cases hv
  refused := by
    intro f hf ht
    obtain rfl := Except.error.inj hf
    exact (storageFailure_notInput settings action cause ht).elim

theorem Effect.done {settings : Settings} {j k : EventStore} {call : JournalCall} {value : Json}
    (h : k = j ∨ Growth settings j k call) (hc : Confirmed settings k value call) :
    Effect settings j k call (.ok value) where
  grown := h
  confirmed := by
    intro v hv
    obtain rfl := Except.ok.inj hv
    exact hc
  refused := by
    intro f hf
    cases hf

theorem appendBody_ok {settings : Settings} {j k : EventStore} {event : JournalEvent} {text eventId : String}
    (he : encodeEvent settings event = .ok text) (hn : event.eventType ≠ "command.result")
    (h : appendBody settings j event = .ok (k, eventId)) :
    (k = j ∨ Growth settings j k (.append event)) ∧ eventId = event.eventId ∧
      ∃ row ∈ k.events, row.event.eventId = event.eventId := by
  unfold appendBody at h
  split at h
  · rename_i existing hf
    obtain ⟨stored, -, h⟩ := bind_ok.mp h
    obtain ⟨-, h⟩ := rejectIf_then.mp h
    obtain ⟨rfl, rfl⟩ := Prod.mk.inj (Except.ok.inj h)
    exact ⟨.inl rfl, rfl, existing, List.mem_of_find?_eq_some hf, findEvent_eventId hf⟩
  · obtain ⟨k', hi, h⟩ := bind_ok.mp h
    obtain ⟨rfl, rfl⟩ := Prod.mk.inj (Except.ok.inj h)
    refine ⟨.inr (.ordinary he hn hi), rfl, ⟨j.eventSequence + 1, event⟩, ?_, rfl⟩
    obtain ⟨-, -, rfl⟩ := insertEvent_ok.mp hi
    exact List.mem_append_right _ List.mem_cons_self

theorem appendReplayed_effect (settings : Settings) (j : EventStore) (event : JournalEvent)
    (interruption : Option Interruption) :
    Effect settings j (appendReplayed settings j event interruption).1 (.append event)
      ((appendReplayed settings j event interruption).2.map .str) := by
  unfold appendReplayed
  split
  · rename_i error he
    exact .refusal _ (.inl ⟨error, he⟩)
  · rename_i text he
    split
    · rename_i htype
      exact .refusal _ (.inr (.inl htype))
    · rename_i hn
      cases hb : settleBody settings "append event" j interruption (appendFailure settings) (appendBody settings j event) with
      | mk k result =>
        obtain ⟨eventId, hbody, hres⟩ | ⟨rfl, hres⟩ := settleBody_cases hb
        · obtain ⟨hgrown, rfl, hrow⟩ := appendBody_ok he hn hbody
          obtain rfl | ⟨cause, rfl⟩ := hres
          · exact .done hgrown ⟨⟨text, he⟩, hn, hrow⟩
          · exact .storage _ cause hgrown
        · obtain ⟨cause, rfl⟩ | ⟨error, -, rfl⟩ := hres
          · exact .storage _ cause (.inl rfl)
          · exact .failed (appendFailure_notInput settings error)

theorem loadCommandResult_error {settings : Settings} {j : EventStore} {requestId : String} {error : JournalError}
    (h : loadCommandResult settings j requestId = .error error) : ∃ message, error = .storage message := by
  unfold loadCommandResult at h
  split at h
  · cases h
  · cases hl : (loadRow settings j _).map some with
    | ok state =>
      rw [hl] at h
      cases h
    | error e =>
      rw [hl] at h
      exact ⟨_, (Except.error.inj h).symm⟩

theorem insertEvent_error {j : EventStore} {event : JournalEvent} {error : JournalError}
    (h : insertEvent j event = .error error) : error = .storage "IntegrityError" := by
  unfold insertEvent at h
  split at h
  · exact (Except.error.inj h).symm
  · cases h

theorem saveCommandState_error {j : EventStore} {requestId : String} {identity : Identity}
    {runner participant : Option AuthorColumns} {error : JournalError}
    (h : saveCommandState j requestId identity runner participant = .error error) :
    error = .storage "IntegrityError" := by
  unfold saveCommandState at h
  split at h
  · exact (Except.error.inj h).symm
  · cases h

theorem recordResultChange_error {settings : Settings} {j : EventStore} {eventId requestId : String}
    {resultChanged : Bool} {observation : Option ChangeObserver} {error : JournalError}
    (h : recordResultChange settings j eventId requestId resultChanged observation = .error error) :
    ∃ message, error = .storage message := by
  obtain hl | ⟨state, -, h⟩ := bind_error.mp h
  · exact loadCommandResult_error hl
  · cases state with
    | none => exact ⟨_, (Except.error.inj h).symm⟩
    | some state => cases h

/-- A first report is refused for the size that its mark adds, and for nothing else. -/
theorem recordReport_refused {settings : Settings} {j : EventStore} {event : JournalEvent}
    {d : CommandObservation} {identity : Identity} {state : Option CommandState} {message : String}
    (hplain : ∃ text, encodeEvent settings event = .ok text)
    (h : recordReport settings j event d identity state = .error (.value message)) :
    ∃ other snapshot error, state.bind (CommandState.entry · d.author.other) = some other ∧
      prepareOtherAuthorResult (some other) d.author event d = .inr snapshot ∧
      encodeEvent settings snapshot = .error error := by
  obtain hw | ⟨⟨k, eventId⟩, -, h⟩ := bind_error.mp h
  · unfold writeReport at hw
    split at hw
    · cases hw
    · rename_i snapshot hp
      obtain he | ⟨text, -, hw⟩ := bind_error.mp hw
      · cases ho : state.bind (CommandState.entry · d.author.other) with
        | some other =>
          rw [ho] at hp
          exact ⟨other, snapshot, _, rfl, hp, he⟩
        | none =>
          rw [ho] at hp
          cases hp
          obtain ⟨text, htext⟩ := hplain
          rw [he] at htext
          cases htext
      · obtain hi | ⟨k, -, hw⟩ := bind_error.mp hw
        · cases insertEvent_error hi
        · cases hw
  · obtain hs | ⟨k', -, h⟩ := bind_error.mp h
    · cases saveCommandState_error hs
    · obtain hc | ⟨k'', -, h⟩ := bind_error.mp h
      · obtain ⟨message, hm⟩ := recordResultChange_error hc
        cases hm
      · cases h

theorem report_refused {settings : Settings} {j : EventStore} {event : JournalEvent} {d : CommandObservation}
    {identity : Identity} {message : String} (hv : validateReport settings event = .ok (d, identity))
    (h : appendCommandResult settings j event = .error (.value message)) :
    ReportSpent settings j event d identity := by
  unfold appendCommandResult at h
  rw [hv, ok_bind] at h
  obtain hl | ⟨state, hl, h⟩ := bind_error.mp h
  · obtain ⟨message, hm⟩ := loadCommandResult_error hl
    cases hm
  · obtain hi | ⟨-, hi, h⟩ := bind_error.mp h
    · cases state with
      | none => simp [rejectIf] at hi
      | some s =>
        by_cases hs : s.identity = identity
        · simp [rejectIf, hs] at hi
        · exact .inl ⟨s.identity, ⟨s, hl, rfl⟩, hs⟩
    · split at h
      · rename_i own ho
        exact .inr (.inl ⟨own, .of_bind hl ho⟩)
      · obtain ⟨text, he, -⟩ := validateReport_ok.mp hv
        obtain ⟨other, snapshot, error, ho, hp, he⟩ := recordReport_refused ⟨text, he⟩ h
        exact .inr (.inr ⟨other, snapshot, error, .of_bind hl ho, hp, he⟩)

theorem report_confirmed {settings : Settings} {j k : EventStore} {event : JournalEvent} {eventId : String}
    (h : appendCommandResult settings j event = .ok (k, eventId)) :
    Confirmed settings k (.str eventId) (.appendCommandResult event) := by
  obtain ⟨d, identity, state, hv, hl, hi, ⟨own, ho, ha, rfl, rfl⟩ | ⟨hnew, hrec⟩⟩ := appendCommandResult_ok.mp h
  · have hc := Claimed.of_bind hl ho
    obtain ⟨s, rfl, -⟩ := Option.bind_eq_some_iff.mp ho
    exact ⟨d, identity, own, hv, ⟨s, hl, hi s rfl⟩, hc, ha, rfl⟩
  · obtain ⟨-, -, -, hd, -⟩ := validateReport_ok.mp hv
    obtain ⟨st, hr⟩ := recordReport_recorded hd hl hi hrec
    obtain ⟨own, ho, rfl, -, ha⟩ := hr.own
    exact ⟨d, identity, own, hv, ⟨st, hr.loaded, hr.identity⟩, ⟨st, hr.loaded, ho⟩, ha, rfl⟩

theorem reportReplayed_effect (settings : Settings) (j : EventStore) (event : JournalEvent)
    (interruption : Option Interruption) :
    Effect settings j (reportReplayed settings j event interruption).1 (.appendCommandResult event)
      ((reportReplayed settings j event interruption).2.map .str) := by
  unfold reportReplayed
  split
  · rename_i error hv
    apply Effect.refusal
    intro d identity hv'
    rw [hv] at hv'
    cases hv'
  · rename_i report hv
    cases hb : settleBody settings "reconcile command" j interruption (reportFailure settings)
        (appendCommandResult settings j event) with
    | mk k result =>
      obtain ⟨eventId, hbody, hres⟩ | ⟨rfl, hres⟩ := settleBody_cases hb
      · obtain rfl | ⟨cause, rfl⟩ := hres
        · exact .done (report_growth hbody) (report_confirmed hbody)
        · exact .storage _ cause (report_growth hbody)
      · obtain ⟨cause, rfl⟩ | ⟨error, hbody, rfl⟩ := hres
        · exact .storage _ cause (.inl rfl)
        · refine ⟨.inl rfl, nofun, ?_⟩
          intro failure hf ht
          obtain rfl := Except.error.inj hf
          obtain ⟨message, rfl⟩ := reportFailure_input ht
          refine ⟨rfl, ?_⟩
          intro d identity hv'
          exact report_refused hv' hbody

theorem rejection_effect {settings : Settings} {j : EventStore} {call : JournalCall} {error : JournalError}
    (h : errorType error ∉ inputErrors) : Effect settings j j call (.error (rejection error)) :=
  .failed h

theorem OpenFailure.failure_notInput (settings : Settings) (failure : OpenFailure) :
    (failure.failure settings).type ∉ inputErrors := by
  cases failure <;> simp only [OpenFailure.failure, storageFailure] <;> decide

namespace JournalWriter

theorem dispatch_effect (settings : Settings) (w : JournalWriter) (o : Conditions) (call : JournalCall) :
    Effect settings w.store (w.dispatch settings o call).1 call (w.dispatch settings o call).2 := by
  cases call with
  | append event => exact appendReplayed_effect settings w.store event o.interruption
  | appendCommandResult event => exact reportReplayed_effect settings w.store event o.interruption
  | other command arguments => exact ⟨.inl rfl, fun _ _ => trivial, fun _ _ _ => ⟨rfl, trivial⟩⟩

theorem perform_effect (settings : Settings) (w : JournalWriter) (r : JournalRequest) (o : Conditions) :
    Effect settings w.store (w.perform settings r o).1.store r.call (w.perform settings r o).2 := by
  unfold perform
  split
  · exact rejection_effect (by decide)
  · split
    · exact rejection_effect (by simp only [errorType]; decide)
    · split
      · exact .failed (OpenFailure.failure_notInput _ _)
      · split
        · exact rejection_effect (by simp only [errorType]; decide)
        · exact w.dispatch_effect settings o r.call

theorem recover_store (w : JournalWriter) (failure : Failure) (o : Conditions) :
    (w.recover failure o).1.store = w.store := by
  unfold recover
  split
  · rfl
  · split <;> rfl

theorem recover_reply (w : JournalWriter) (failure : Failure) (o : Conditions) :
    (w.recover failure o).2.ok = false ∧ (w.recover failure o).2.error = writerError failure := by
  unfold recover
  split
  · exact ⟨rfl, rfl⟩
  · split <;> exact ⟨rfl, rfl⟩

theorem apply_grown (settings : Settings) (w : JournalWriter) (r : JournalRequest) (o : Conditions) :
    (w.apply settings r o).1.store = w.store ∨ Growth settings w.store (w.apply settings r o).1.store r.call := by
  have h := w.perform_effect settings r o
  unfold apply
  split
  · rename_i w' value hp
    rw [hp] at h
    exact h.grown
  · rename_i w' failure hp
    rw [hp] at h
    rw [recover_store]
    exact h.grown

theorem apply_confirmed (settings : Settings) (w : JournalWriter) (r : JournalRequest) (o : Conditions)
    (hok : (w.apply settings r o).2.ok = true) :
    Confirmed settings (w.apply settings r o).1.store (w.apply settings r o).2.value r.call := by
  have h := w.perform_effect settings r o
  unfold apply at hok ⊢
  split
  · rename_i w' value hp
    rw [hp] at h
    exact h.confirmed value rfl
  · rename_i w' failure hp
    rw [hp] at hok
    simp only [(w'.recover_reply failure o).1] at hok
    cases hok

theorem apply_refused (settings : Settings) (w : JournalWriter) (r : JournalRequest) (o : Conditions)
    (href : (w.apply settings r o).2.ok = false)
    (htype : (w.apply settings r o).2.error.type ∈ inputErrors) :
    (w.apply settings r o).1.store = w.store ∧ Spent settings w.store r.call := by
  have h := w.perform_effect settings r o
  unfold apply at href htype ⊢
  split
  · rename_i w' value hp
    rw [hp] at href
    cases href
  · rename_i w' failure hp
    rw [hp] at htype h
    simp only [(w'.recover_reply failure o).2] at htype
    obtain ⟨hstore, hspent⟩ := h.refused failure rfl htype
    exact ⟨(w'.recover_store failure o).trans hstore, hspent⟩

theorem perform_failure_type {settings : Settings} {w w' : JournalWriter} {r : JournalRequest} {o : Conditions}
    {failure : Failure} (h : w.perform settings r o = (w', .error failure)) (ht : failure.type ∈ inputErrors) :
    (w.dispatch settings o r.call).2 = .error failure := by
  unfold perform at h
  split at h
  · obtain rfl := Except.error.inj (Prod.mk.inj h).2
    exact absurd ht (by decide)
  · split at h
    · obtain rfl := Except.error.inj (Prod.mk.inj h).2
      simp only [rejection, errorType] at ht
      exact absurd ht (by decide)
    · split at h
      · obtain rfl := Except.error.inj (Prod.mk.inj h).2
        exact (OpenFailure.failure_notInput _ _ ht).elim
      · split at h
        · obtain rfl := Except.error.inj (Prod.mk.inj h).2
          simp only [rejection, errorType] at ht
          exact absurd ht (by decide)
        · exact (Prod.mk.inj h).2

/-- A call that the journal has already taken is never refused as an input. -/
theorem confirmed_not_refused {settings : Settings} {w : JournalWriter} {o : Conditions} {call : JournalCall}
    {value : Json} {failure : Failure} (hc : Confirmed settings w.store value call)
    (hcall : call.event.isSome) (h : (w.dispatch settings o call).2 = .error failure) :
    failure.type ∉ inputErrors := by
  cases call with
  | append event =>
    obtain ⟨⟨text, he⟩, hn, -⟩ := hc
    simp only [dispatch, appendReplayed, he, if_neg hn] at h
    cases hb : settleBody settings "append event" w.store o.interruption (appendFailure settings)
        (appendBody settings w.store event) with
    | mk k result =>
      rw [hb] at h
      obtain ⟨eventId, -, rfl | ⟨cause, rfl⟩⟩ | ⟨-, ⟨cause, rfl⟩ | ⟨error, -, rfl⟩⟩ := settleBody_cases hb
      · cases h
      · obtain rfl := Except.error.inj h
        exact storageFailure_notInput _ _ cause
      · obtain rfl := Except.error.inj h
        exact storageFailure_notInput _ _ cause
      · obtain rfl := Except.error.inj h
        exact appendFailure_notInput settings error
  | appendCommandResult event =>
    obtain ⟨d, identity, own, hv, ⟨s, hl, hi⟩, hclaim, ha, -⟩ := hc
    have hbody : appendCommandResult settings w.store event = .ok (w.store, own.eventId) :=
      appendCommandResult_ok.mpr ⟨d, identity, some s, hv, hl, fun t ht => Option.some.inj ht ▸ hi,
        .inl ⟨own, hclaim.bind hl, ha, rfl, rfl⟩⟩
    simp only [dispatch, reportReplayed, hv] at h
    cases hb : settleBody settings "reconcile command" w.store o.interruption (reportFailure settings)
        (appendCommandResult settings w.store event) with
    | mk k result =>
      rw [hb] at h
      obtain ⟨eventId, -, rfl | ⟨cause, rfl⟩⟩ | ⟨-, ⟨cause, rfl⟩ | ⟨error, herr, rfl⟩⟩ := settleBody_cases hb
      · cases h
      · obtain rfl := Except.error.inj h
        exact storageFailure_notInput _ _ cause
      · obtain rfl := Except.error.inj h
        exact storageFailure_notInput _ _ cause
      · rw [hbody] at herr
        cases herr
  | other command arguments => cases hcall

theorem apply_not_refused {settings : Settings} {w : JournalWriter} {r : JournalRequest} {o : Conditions}
    {value : Json} (hc : Confirmed settings w.store value r.call) (hcall : r.call.event.isSome)
    (hok : (w.apply settings r o).2.ok = false) : (w.apply settings r o).2.error.type ∉ inputErrors := by
  intro ht
  unfold apply at hok ht
  split at hok
  · cases hok
  · rename_i w' failure hp
    rw [hp] at ht
    simp only [(w'.recover_reply failure o).2] at ht
    exact confirmed_not_refused hc hcall (perform_failure_type hp ht) ht

end JournalWriter

end ModularPipelines.Journal
