import ModularPipelines.Journal.Regular
import ModularPipelines.Journal.SessionClient

namespace ModularPipelines.Journal
open Library JournalClient

def JournalCall.eventId (c : JournalCall) : Option String := c.event.map (·.eventId)

def Stored (j : EventStore) (c : JournalCall) : Prop := ∃ row ∈ j.events, c.eventId = some row.event.eventId

/-- A row with the event ID of a call holds what was sent, and confirms the call. -/
def Traced (settings : Settings) (j : EventStore) (c : JournalCall) : Prop :=
  ∀ row ∈ j.events, c.eventId = some row.event.eventId →
    SentAs c row.event ∧ Confirmed settings j (.str row.event.eventId) c

/-- How an append that is over shows in the journal. -/
def AppendEnd.Shown (settings : Settings) (j : EventStore) (c : JournalCall) : AppendEnd → Prop
  | .confirmed eventId => Confirmed settings j (.str eventId) c ∧ ∀ event, c = .append event → eventId = event.eventId
  | .raised error => error.refusesInput = true → ¬ Stored j c ∧ Spent settings j c

theorem Growth.event {settings : Settings} {j k : EventStore} {c : JournalCall} (h : Growth settings j k c) :
    ∃ event, c.event = some event := by
  cases h with
  | ordinary => exact ⟨_, rfl⟩
  | report => exact ⟨_, rfl⟩

theorem stored_growth {settings : Settings} {j k : EventStore} {c other : JournalCall}
    (h : Growth settings j k c) (hid : c.eventId = other.eventId → c = other) (hs : Stored k other) :
    Stored j other ∨ c = other := by
  obtain ⟨row, hrow, hname⟩ := hs
  obtain ⟨event, he⟩ := h.event
  obtain ⟨hevents, -⟩ | ⟨stored, hevents, -, hsid, -⟩ := h.stored he
  · exact .inl ⟨row, hevents ▸ hrow, hname⟩
  · rw [hevents] at hrow
    obtain hrow | hrow := List.mem_append.mp hrow
    · exact .inl ⟨row, hrow, hname⟩
    · obtain rfl := List.mem_singleton.mp hrow
      right
      apply hid
      rw [hname, JournalCall.eventId, he, Option.map_some, hsid]

theorem Traced.grow {settings : Settings} {j k : EventStore} {c other : JournalCall}
    (h : Growth settings j k c) (hid : c.eventId = other.eventId → c = other)
    (ht : Traced settings j other) : Traced settings k other := by
  intro row hrow hname
  obtain ⟨event, he⟩ := h.event
  obtain ⟨hevents, -⟩ | ⟨stored, hevents, -, hsid, hsent, -, hconf⟩ := h.stored he
  · obtain ⟨hs, hc⟩ := ht row (hevents ▸ hrow) hname
    exact ⟨hs, h.confirmed hc⟩
  · rw [hevents] at hrow
    obtain hrow | hrow := List.mem_append.mp hrow
    · obtain ⟨hs, hc⟩ := ht row hrow hname
      exact ⟨hs, h.confirmed hc⟩
    · obtain rfl := List.mem_singleton.mp hrow
      obtain rfl : c = other := hid (by rw [hname, JournalCall.eventId, he, Option.map_some, hsid])
      exact ⟨hsent, hsid ▸ hconf⟩

theorem AppendEnd.Shown.grow {settings : Settings} {j k : EventStore} {c other : JournalCall} {e : AppendEnd}
    (h : Growth settings j k c) (hid : c.eventId = other.eventId → c = other)
    (hs : Shown settings j other e) : Shown settings k other e := by
  cases e with
  | confirmed eventId => exact ⟨h.confirmed hs.1, hs.2⟩
  | raised error =>
    intro href
    obtain ⟨habsent, hspent⟩ := hs href
    refine ⟨?_, h.spent hspent⟩
    intro hstored
    obtain hold | rfl := stored_growth h hid hstored
    · exact habsent hold
    · exact hspent.no_growth h

/-- A reply that is under way tells the truth. -/
def ReplyTrue (settings : Settings) (j : EventStore) (a : Answer) : Prop :=
  (a.2.ok = true → Confirmed settings j a.2.value a.1.call) ∧
  (a.2.ok = false → a.2.error.type ∈ inputErrors → ¬ Stored j a.1.call ∧ Spent settings j a.1.call)

theorem ReplyTrue.grow {settings : Settings} {j k : EventStore} {c : JournalCall} {a : Answer}
    (h : Growth settings j k c) (hid : c.eventId = a.1.call.eventId → c = a.1.call)
    (hr : ReplyTrue settings j a) : ReplyTrue settings k a := by
  refine ⟨fun hok => h.confirmed (hr.1 hok), ?_⟩
  intro hok ht
  obtain ⟨habsent, hspent⟩ := hr.2 hok ht
  refine ⟨?_, h.spent hspent⟩
  intro hstored
  obtain hold | heq := stored_growth h hid hstored
  · exact habsent hold
  · exact Spent.no_growth (heq ▸ hspent : Spent settings j c) h

/-- The sequence numbers of a producer, in the order of the journal. -/
def producedNumbers (j : EventStore) (producer : String) : List Nat :=
  (j.events.filter (·.event.producerInstanceId == producer)).map (·.event.sequenceNumber)

/-- The session against the journal. While it has not failed, the stored events of the
session are numbered 1, 2, 3, .. and only the append that waits may be ahead of it. -/
structure Books (settings : Settings) (j : EventStore) (s : LoggerSession) : Prop where
  regular : Regular settings j
  owned : ∀ c ∈ s.calls, ∃ event, c.event = some event ∧ event.producerInstanceId = s.producerInstanceId
  distinct : (s.calls.map JournalCall.eventId).Nodup
  traced : ∀ c ∈ s.calls, Traced settings j c
  strangers : ∀ row ∈ j.events, row.event.producerInstanceId = s.producerInstanceId →
    ∃ c ∈ s.calls, c.eventId = some row.event.eventId
  shown : ∀ x ∈ s.finished, AppendEnd.Shown settings j x.1 x.2
  refused : s.failed = false → ∀ c error, (c, AppendEnd.raised error) ∈ s.finished → error.refusesInput = true
  active : s.failed = true → s.pending = none
  next : ∀ c event, s.pending = some c → c.event = some event → event.sequenceNumber = s.sequenceNumber + 1
  ahead : s.failed = false → ∀ c, s.pending = some c → Stored j c →
    producedNumbers j s.producerInstanceId = List.range' 1 (s.sequenceNumber + 1)
  level : s.failed = false → (∀ c, s.pending = some c → ¬ Stored j c) →
    producedNumbers j s.producerInstanceId = List.range' 1 s.sequenceNumber

theorem SentAs.fields {c : JournalCall} {event stored : JournalEvent} (h : SentAs c stored)
    (he : c.event = some event) : stored.producerInstanceId = event.producerInstanceId ∧
      stored.sequenceNumber = event.sequenceNumber := by
  cases c with
  | append sent =>
    obtain rfl := Option.some.inj he
    obtain rfl : stored = sent := h
    exact ⟨rfl, rfl⟩
  | appendCommandResult sent =>
    obtain rfl := Option.some.inj he
    obtain ⟨hs, -⟩ := h
    rw [hs]
    exact ⟨rfl, rfl⟩
  | other command arguments => cases he

theorem producedNumbers_snoc {j k : EventStore} {row : EventRow} (producer : String)
    (h : k.events = j.events ++ [row]) : producedNumbers k producer =
      producedNumbers j producer ++ if row.event.producerInstanceId = producer then [row.event.sequenceNumber] else [] := by
  unfold producedNumbers
  rw [h, List.filter_append, List.map_append]
  by_cases hp : row.event.producerInstanceId = producer <;> simp [hp]

theorem producedNumbers_same {j k : EventStore} (producer : String) (h : k.events = j.events) :
    producedNumbers k producer = producedNumbers j producer := by
  unfold producedNumbers
  rw [h]

theorem Stored.of_events {j k : EventStore} {c : JournalCall} (h : k.events = j.events) : Stored k c ↔ Stored j c := by
  unfold Stored
  rw [h]

/-- Whose frame a transaction belongs to: the append that waits, one that failed the
session, or another producer. -/
def Permitted (s : LoggerSession) (c : JournalCall) : Prop :=
  (c ∈ s.calls ∧ (s.pending = some c ∨ s.failed = true)) ∨
  ∀ event, c.event = some event → event.producerInstanceId ≠ s.producerInstanceId ∧
    ∀ other ∈ s.calls, other.eventId ≠ some event.eventId

theorem Books.same {settings : Settings} {j : EventStore} {s : LoggerSession} {c other : JournalCall}
    (hb : Books settings j s) (hp : Permitted s c) (hevent : ∃ event, c.event = some event)
    (ho : other ∈ s.calls) (hid : c.eventId = other.eventId) : c = other := by
  obtain ⟨hc, -⟩ | hforeign := hp
  · exact List.inj_on_of_nodup_map hb.distinct hc ho hid
  · obtain ⟨event, he⟩ := hevent
    refine ((hforeign event he).2 other ho ?_).elim
    rw [← hid, JournalCall.eventId, he, Option.map_some]

theorem Books.strangers_grow {settings : Settings} {j k : EventStore} {s : LoggerSession} {c : JournalCall}
    (hb : Books settings j s) (h : Growth settings j k c) (hp : Permitted s c) :
    ∀ row ∈ k.events, row.event.producerInstanceId = s.producerInstanceId →
      ∃ other ∈ s.calls, other.eventId = some row.event.eventId := by
  intro row hrow hprod
  obtain ⟨event, he⟩ := h.event
  obtain ⟨hevents, -⟩ | ⟨stored, hevents, -, hsid, hsent, -, -⟩ := h.stored he
  · exact hb.strangers row (hevents ▸ hrow) hprod
  · rw [hevents] at hrow
    obtain hrow | hrow := List.mem_append.mp hrow
    · exact hb.strangers row hrow hprod
    · obtain rfl := List.mem_singleton.mp hrow
      obtain ⟨hc, -⟩ | hforeign := hp
      · exact ⟨c, hc, by rw [JournalCall.eventId, he, Option.map_some, hsid]⟩
      · exact ((hforeign event he).1 ((hsent.fields he).1.symm.trans hprod)).elim

/-- The numbers of the session after a transaction, as long as it has not failed. -/
theorem Books.numbers_grow {settings : Settings} {j k : EventStore} {s : LoggerSession} {c : JournalCall}
    (hb : Books settings j s) (h : Growth settings j k c) (hp : Permitted s c) (hf : s.failed = false) :
    (∀ p, s.pending = some p → Stored k p →
      producedNumbers k s.producerInstanceId = List.range' 1 (s.sequenceNumber + 1)) ∧
    ((∀ p, s.pending = some p → ¬ Stored k p) →
      producedNumbers k s.producerInstanceId = List.range' 1 s.sequenceNumber) := by
  obtain ⟨event, he⟩ := h.event
  obtain ⟨hevents, -⟩ | ⟨stored, hevents, -, hsid, hsent, hfresh, -⟩ := h.stored he
  · rw [producedNumbers_same _ hevents]
    simp only [Stored.of_events hevents]
    exact ⟨hb.ahead hf, hb.level hf⟩
  · obtain ⟨hprod, hseq⟩ := hsent.fields he
    have hnumbers := producedNumbers_snoc s.producerInstanceId hevents
    have hstored : Stored k c := by
      refine ⟨_, hevents ▸ List.mem_append_right _ List.mem_cons_self, ?_⟩
      rw [JournalCall.eventId, he, Option.map_some, hsid]
    obtain ⟨hc, hpending | hfailed⟩ | hforeign := hp
    · have hbefore : ¬ Stored j c := by
        intro hold
        obtain ⟨row, hrow, hname⟩ := hold
        rw [JournalCall.eventId, he, Option.map_some] at hname
        exact hfresh row hrow (Option.some.inj hname).symm
      have hlevel := hb.level hf (by
        intro p hpp
        obtain rfl := Option.some.inj (hpp.symm.trans hpending)
        exact hbefore)
      obtain ⟨event', he', hown⟩ := hb.owned c hc
      obtain rfl := Option.some.inj (he'.symm.trans he)
      constructor
      · intro p hpp hs
        rw [hnumbers, if_pos (hprod.trans hown), hlevel, hseq, hb.next c event' hpending he, List.range'_1_concat]
        congr 2
        omega
      · intro hnone
        exact (hnone c hpending hstored).elim
    · rw [hf] at hfailed
      cases hfailed
    · have hne : ¬ stored.producerInstanceId = s.producerInstanceId := by
        rw [hprod]
        exact (hforeign event he).1
      rw [hnumbers, if_neg hne, List.append_nil]
      have hback : ∀ p, s.pending = some p → Stored k p → Stored j p := by
        intro p hpp hs
        have hmem : p ∈ s.calls := List.mem_append_right _ (by simp [hpp])
        obtain hold | rfl := stored_growth h (hb.same (.inr hforeign) h.event hmem) hs
        · exact hold
        · exact ((hforeign event he).2 c hmem (by rw [JournalCall.eventId, he, Option.map_some])).elim
      constructor
      · intro p hpp hs
        exact hb.ahead hf p hpp (hback p hpp hs)
      · intro hnone
        apply hb.level hf
        intro p hpp hs
        obtain ⟨row, hrow, hname⟩ := hs
        exact hnone p hpp ⟨row, hevents ▸ List.mem_append_left _ hrow, hname⟩

theorem Books.grow {settings : Settings} {j k : EventStore} {s : LoggerSession} {c : JournalCall}
    (hb : Books settings j s) (h : Growth settings j k c) (hp : Permitted s c) : Books settings k s where
  regular := h.regular hb.regular
  owned := hb.owned
  distinct := hb.distinct
  traced := fun other ho => (hb.traced other ho).grow h (hb.same hp h.event ho)
  strangers := hb.strangers_grow h hp
  shown := by
    intro x hx
    have hmem : x.1 ∈ s.calls := List.mem_append_left _ (List.mem_map_of_mem hx)
    exact (hb.shown x hx).grow h (hb.same hp h.event hmem)
  refused := hb.refused
  active := hb.active
  next := hb.next
  ahead := fun hf => (hb.numbers_grow h hp hf).1
  level := fun hf => (hb.numbers_grow h hp hf).2

theorem calls_pending {s : LoggerSession} {c : JournalCall} (h : s.pending = some c) :
    s.calls = s.finished.map Prod.fst ++ [c] := by
  rw [LoggerSession.calls, h, Option.toList_some]

/-- The append that waits is over: nothing changes for the others. -/
theorem Books.conclude {settings : Settings} {j : EventStore} {s t : LoggerSession} {c : JournalCall} {e : AppendEnd}
    (hb : Books settings j s) (hpending : s.pending = some c)
    (hproducer : t.producerInstanceId = s.producerInstanceId) (hnone : t.pending = none)
    (hfinished : t.finished = s.finished ++ [(c, e)]) (hshown : e.Shown settings j c)
    (hrefused : t.failed = false → s.failed = false ∧ ∀ error, e = .raised error → error.refusesInput = true)
    (hnumbers : t.failed = false → producedNumbers j s.producerInstanceId = List.range' 1 t.sequenceNumber) :
    Books settings j t := by
  have hcalls : t.calls = s.calls := by
    rw [calls_pending hpending, LoggerSession.calls, hnone, hfinished]
    simp
  refine ⟨hb.regular, ?_, ?_, ?_, ?_, ?_, ?_, fun _ => hnone, ?_, ?_, ?_⟩
  · rw [hcalls, hproducer]
    exact hb.owned
  · rw [hcalls]
    exact hb.distinct
  · rw [hcalls]
    exact hb.traced
  · rw [hcalls, hproducer]
    exact hb.strangers
  · intro x hx
    rw [hfinished] at hx
    obtain hx | hx := List.mem_append.mp hx
    · exact hb.shown x hx
    · obtain rfl := List.mem_singleton.mp hx
      exact hshown
  · intro hf c' error hmem
    obtain ⟨hsf, hlast⟩ := hrefused hf
    rw [hfinished] at hmem
    obtain hmem | hmem := List.mem_append.mp hmem
    · exact hb.refused hsf c' error hmem
    · exact hlast error (Prod.mk.inj (List.mem_singleton.mp hmem)).2.symm
  · intro c' event hp
    rw [hnone] at hp
    cases hp
  · intro hf c' hp
    rw [hnone] at hp
    cases hp
  · intro hf _
    rw [hproducer]
    exact hnumbers hf

theorem Books.pending_mem {s : LoggerSession} {c : JournalCall} (h : s.pending = some c) : c ∈ s.calls := by
  rw [calls_pending h]
  exact List.mem_append_right _ List.mem_cons_self

theorem Books.running {settings : Settings} {j : EventStore} {s : LoggerSession} {c : JournalCall}
    (hb : Books settings j s) (h : s.pending = some c) : s.failed = false := by
  cases hf : s.failed with
  | false => rfl
  | true =>
    rw [hb.active hf] at h
    cases h

/-- A confirmed append counts exactly when its own event is stored. -/
theorem Books.counted {settings : Settings} {j : EventStore} {s : LoggerSession} {c : JournalCall}
    {event : JournalEvent} {value : Json} (hb : Books settings j s) (hp : s.pending = some c)
    (he : c.event = some event) (hc : Confirmed settings j value c) :
    (confirmedId event c value = event.eventId ↔ Stored j c) ∧
      Confirmed settings j (.str (confirmedId event c value)) c := by
  have hname : c.eventId = some event.eventId := by rw [JournalCall.eventId, he, Option.map_some]
  cases c with
  | append sent =>
    obtain rfl := Option.some.inj he
    obtain ⟨htext, hn, row, hrow, hid⟩ := hc
    exact ⟨⟨fun _ => ⟨row, hrow, hid ▸ hname⟩, fun _ => rfl⟩, htext, hn, row, hrow, hid⟩
  | appendCommandResult sent =>
    obtain rfl := Option.some.inj he
    obtain ⟨d, identity, own, hv, ho, hclaim, ha, rfl⟩ := hc
    have hrow := hclaim.row
    refine ⟨⟨?_, ?_⟩, d, identity, own, hv, ho, hclaim, ha, rfl⟩
    · intro hid
      refine ⟨own.entry, hrow.1, ?_⟩
      rw [hname, hrow.2.1]
      exact congrArg some hid.symm
    · intro hstored
      obtain ⟨row, hmem, hrowname⟩ := hstored
      obtain ⟨-, d', identity', own', hv', -, hclaim', -, hvalue⟩ :=
        hb.traced _ (Books.pending_mem hp) row hmem hrowname
      obtain ⟨rfl, rfl⟩ := Prod.mk.inj (Except.ok.inj (hv.symm.trans hv'))
      obtain rfl := hclaim.unique hclaim'
      have hid : row.event.eventId = own.eventId := Json.str.inj hvalue
      rw [hname, hid] at hrowname
      exact (Option.some.inj hrowname).symm
  | other command arguments => cases he

theorem Books.confirm {settings : Settings} {j : EventStore} {s : LoggerSession} {c : JournalCall}
    {event : JournalEvent} {value : Json} (hb : Books settings j s) (hp : s.pending = some c)
    (he : c.event = some event) (hc : Confirmed settings j value c) :
    Books settings j (s.confirm c event value) := by
  obtain ⟨hcount, hconf⟩ := hb.counted hp he hc
  have hf := hb.running hp
  refine hb.conclude hp rfl rfl rfl ⟨hconf, ?_⟩ (fun _ => ⟨hf, nofun⟩) ?_
  · intro sent hsent
    subst hsent
    obtain rfl := Option.some.inj he
    rfl
  · intro _
    simp only [LoggerSession.confirm]
    split
    · rename_i hid
      rw [hb.next c event hp he]
      exact hb.ahead hf c hp (hcount.mp hid)
    · rename_i hid
      apply hb.level hf
      intro p hpp hs
      obtain rfl := Option.some.inj (hpp.symm.trans hp)
      exact hid (hcount.mpr hs)

/-- A refused input has left nothing; any other error fails the session. -/
theorem Books.raise {settings : Settings} {j : EventStore} {s : LoggerSession} {c : JournalCall}
    {error : ClientError} (hb : Books settings j s) (hp : s.pending = some c)
    (hr : error.refusesInput = true → ¬ Stored j c ∧ Spent settings j c) (hn : error.retryable = false) :
    Books settings j (s.raise c error) := by
  have hf := hb.running hp
  have hkept : (s.raise c error).failed = false → error.refusesInput = true := by
    intro h
    by_contra href
    simp [LoggerSession.raise, href, hn] at h
  refine hb.conclude hp rfl rfl rfl hr ?_ ?_
  · intro h
    refine ⟨hf, ?_⟩
    intro e heq
    obtain rfl := AppendEnd.raised.inj heq
    exact hkept h
  · intro h
    apply hb.level hf
    intro p hpp
    obtain rfl := Option.some.inj (hpp.symm.trans hp)
    exact (hr (hkept h)).1

theorem Books.begin {settings : Settings} {j : EventStore} {s : LoggerSession} {c : JournalCall}
    {event : JournalEvent} (hb : Books settings j s) (hp : s.pending = none) (hf : s.failed = false)
    (he : c.event = some event) (hown : event.producerInstanceId = s.producerInstanceId)
    (hseq : event.sequenceNumber = s.sequenceNumber + 1)
    (hunused : ∀ other ∈ s.calls, other.eventId ≠ some event.eventId)
    (hfresh : ∀ row ∈ j.events, row.event.eventId ≠ event.eventId) :
    Books settings j { s with pending := some c } := by
  have hname : c.eventId = some event.eventId := by rw [JournalCall.eventId, he, Option.map_some]
  have hbefore : s.calls = s.finished.map Prod.fst := by
    rw [LoggerSession.calls, hp, Option.toList_none, List.append_nil]
  have hcalls : ({ s with pending := some c } : LoggerSession).calls = s.calls ++ [c] := by
    rw [hbefore]
    rfl
  have habsent : ¬ Stored j c := by
    intro hs
    obtain ⟨row, hrow, hid⟩ := hs
    rw [hname] at hid
    exact hfresh row hrow (Option.some.inj hid).symm
  refine ⟨hb.regular, ?_, ?_, ?_, ?_, hb.shown, hb.refused, ?_, ?_, ?_, ?_⟩
  · intro other ho
    rw [hcalls] at ho
    obtain ho | ho := List.mem_append.mp ho
    · exact hb.owned other ho
    · obtain rfl := List.mem_singleton.mp ho
      exact ⟨event, he, hown⟩
  · rw [hcalls, List.map_append, List.nodup_append]
    refine ⟨hb.distinct, List.nodup_singleton _, ?_⟩
    intro id hid other ho
    obtain ⟨first, hfirst, rfl⟩ := List.mem_map.mp hid
    obtain rfl := List.mem_singleton.mp ho
    rw [hname]
    exact hunused first hfirst
  · intro other ho
    rw [hcalls] at ho
    obtain ho | ho := List.mem_append.mp ho
    · exact hb.traced other ho
    · obtain rfl := List.mem_singleton.mp ho
      intro row hrow hid
      exact (habsent ⟨row, hrow, hid⟩).elim
  · intro row hrow hprod
    obtain ⟨other, ho, hid⟩ := hb.strangers row hrow hprod
    exact ⟨other, hcalls ▸ List.mem_append_left _ ho, hid⟩
  · intro hfailed
    have hfailed : s.failed = true := hfailed
    rw [hf] at hfailed
    cases hfailed
  · intro c' event' hp' he'
    obtain rfl := Option.some.inj hp'
    obtain rfl := Option.some.inj (he.symm.trans he')
    exact hseq
  · intro _ c' hp' hs
    obtain rfl := Option.some.inj hp'
    exact (habsent hs).elim
  · intro _ _
    apply hb.level hf
    intro p hpp
    rw [hp] at hpp
    cases hpp

end ModularPipelines.Journal
