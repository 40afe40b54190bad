import ModularPipelines.Journal.Delivery

namespace ModularPipelines.Journal
open Library JournalClient

/-- An error that a writing client either raises without a retry mark or handles itself. -/
def ClientError.Contained (e : ClientError) (c : JournalClient) : Prop :=
  e.refusesInput = false ∧ (e.retryable = true → c.managed = true)

theorem ClientError.Uncertain.contained {e : ClientError} (h : e.Uncertain) (c : JournalClient) :
    e.Contained c := by
  refine ⟨h.1, ?_⟩
  intro hr
  rw [h.2] at hr
  cases hr

theorem ReadFailure.raised_uncertain {failure : ReadFailure} (h : ∀ message, failure ≠ .invalid message) :
    failure.raised.Uncertain := by
  cases failure with
  | os => exact ⟨rfl, rfl⟩
  | invalid message => exact (h message rfl).elim

theorem checkOwner_refuses {status : Option (Reading OwnerStatus)} {e : ClientError}
    (hw : ∀ message, status ≠ some (.error (.invalid message))) (h : checkOwner status = .error e) :
    e.refusesInput = false := by
  unfold checkOwner at h
  split at h
  · cases h
  · rename_i failure
    obtain rfl := Except.error.inj h
    exact (ReadFailure.raised_uncertain (fun message hm => hw message (by rw [hm]))).1
  · split at h
    · obtain rfl := Except.error.inj h
      rfl
    · split at h
      · obtain rfl := Except.error.inj h
        rfl
      · split at h
        · obtain rfl := Except.error.inj h
          rfl
        · split at h
          · obtain rfl := Except.error.inj h
            rfl
          · cases h

namespace JournalClient

theorem endpoint_contained {c d : JournalClient} {p : Publication} {e : ClientError} (hw : p.WellFormed)
    (h : c.endpoint p = (d, .error e)) : e.Contained d := by
  unfold endpoint at h
  split at h
  · obtain ⟨rfl, he⟩ := Prod.mk.inj h
    obtain rfl := Except.error.inj he
    exact ⟨rfl, nofun⟩
  · rename_i failure hp
    obtain ⟨rfl, he⟩ := Prod.mk.inj h
    obtain rfl := Except.error.inj he
    exact (ReadFailure.raised_uncertain (fun message hm => hw.1 message (by rw [hp, hm]))).contained _
  · rename_i endpoint hp
    obtain ⟨rfl, he⟩ := Prod.mk.inj h
    split at he
    · rename_i hm
      cases ho : checkOwner p.status with
      | ok u =>
        rw [ho] at he
        cases he
      | error error =>
        rw [ho] at he
        obtain rfl := Except.error.inj he
        exact ⟨checkOwner_refuses hw.2 ho, fun _ => hm⟩
    · cases he

theorem connect_contained {c d : JournalClient} {endpoint : WriterEndpoint} {a : Attempt} {e : ClientError}
    (h : c.connect endpoint a = (d, .error e)) : e.Uncertain := by
  unfold connect at h
  simp only at h
  generalize (if c.socketInstanceId = some endpoint.writerInstanceId then c else c.disconnect) = c' at h
  split at h
  · cases (Prod.mk.inj h).2
  · split at h
    · cases (Prod.mk.inj h).2
    · obtain rfl := Except.error.inj (Prod.mk.inj h).2
      exact ⟨rfl, rfl⟩

theorem transmit_contained {c d : JournalClient} {p : PendingCall} {a : Attempt} {e : ClientError}
    (hw : a.WellFormed) (h : c.transmit p a = (d, .error e)) : e.Uncertain := by
  unfold transmit at h
  split at h
  · rename_i failure ht
    obtain rfl := Except.error.inj (Prod.mk.inj h).2
    exact ReadFailure.raised_uncertain (fun message hm => hw.2.1 message (by rw [ht, hm]))
  · split at h
    · rename_i ha
      rw [hw.2.2] at ha
      cases ha
    · split at h
      · obtain rfl := Except.error.inj (Prod.mk.inj h).2
        exact ⟨rfl, rfl⟩
      · cases (Prod.mk.inj h).2

theorem exchange_contained {c d : JournalClient} {p : PendingCall} {a : Attempt} {e : ClientError}
    (hw : a.WellFormed) (h : c.exchange p a = (d, .error e)) : e.Contained d := by
  unfold exchange at h
  split at h
  · rename_i error he
    obtain ⟨rfl, herr⟩ := Prod.mk.inj h
    obtain rfl := Except.error.inj herr
    exact endpoint_contained hw.1 he
  · split at h
    · rename_i hc
      obtain ⟨rfl, herr⟩ := Prod.mk.inj h
      obtain rfl := Except.error.inj herr
      exact (connect_contained hc).contained _
    · exact (transmit_contained hw h).contained d

theorem seizeStandalone_contained {c d : JournalClient} {o : Poll} {e : ClientError} (hw : o.WellFormed)
    (h : c.seizeStandalone o.standalone = (d, .error e)) : e.Uncertain := by
  unfold seizeStandalone at h
  split at h
  · obtain rfl := Except.error.inj (Prod.mk.inj h).2
    exact ⟨rfl, rfl⟩
  · split at h
    · rename_i failure hf
      obtain rfl := Except.error.inj (Prod.mk.inj h).2
      exact ReadFailure.raised_uncertain (fun message hm => hw.2.1 message (by rw [hf, hm]))
    · split at h
      · obtain rfl := Except.error.inj (Prod.mk.inj h).2
        exact ⟨rfl, rfl⟩
      · split at h
        · rename_i error hs
          obtain rfl := Except.error.inj (Prod.mk.inj h).2
          exact hw.2.2.2 _ hs
        · obtain rfl := Except.error.inj (Prod.mk.inj h).2
          exact ⟨rfl, rfl⟩

theorem checkStandaloneProgress_contained {c d : JournalClient} {now : Nat} {o : Poll} {e : ClientError}
    (hw : o.WellFormed) (h : c.checkStandaloneProgress now o.standalone = (d, .error e)) : e.Uncertain := by
  unfold checkStandaloneProgress at h
  split at h
  · split at h
    · exact seizeStandalone_contained hw h
    · cases (Prod.mk.inj h).2
  · exact seizeStandalone_contained hw h
  · exact seizeStandalone_contained hw h
  · rename_i error hconn hvalue hs
    obtain rfl := Except.error.inj (Prod.mk.inj h).2
    obtain ⟨message, failed, rfl⟩ | hu := hw.2.2.1 _ hs
    · exact (hvalue message failed rfl).elim
    · exact hu

theorem probe_contained {c d : JournalClient} {nextProbe : Nat} {o : Poll} {e : ClientError} (hw : o.WellFormed)
    (h : c.probe nextProbe o = (d, .raised e)) : e.Contained d := by
  unfold probe at h
  split at h
  · split at h
    · cases (Prod.mk.inj h).2
    · rename_i error he
      obtain ⟨rfl, herr⟩ := Prod.mk.inj h
      obtain rfl := Received.raised.inj herr
      exact endpoint_contained hw.1 he
  · split at h
    · split at h
      · cases (Prod.mk.inj h).2
      · rename_i error he
        obtain ⟨rfl, herr⟩ := Prod.mk.inj h
        obtain rfl := Received.raised.inj herr
        exact (checkStandaloneProgress_contained hw he).contained _
    · cases (Prod.mk.inj h).2

theorem receiveReply_contained {c d : JournalClient} {p : PendingCall} {nextProbe : Nat} {o : Poll}
    {e : ClientError} (hw : o.WellFormed) (h : c.receiveReply p nextProbe o = (d, .raised e)) :
    e.Contained d := by
  unfold receiveReply at h
  split at h
  · obtain rfl := Received.raised.inj (Prod.mk.inj h).2
    exact ⟨rfl, nofun⟩
  · split at h
    · obtain rfl := Received.raised.inj (Prod.mk.inj h).2
      exact ⟨rfl, nofun⟩
    · split at h
      · obtain rfl := Received.raised.inj (Prod.mk.inj h).2
        exact ⟨rfl, nofun⟩
      · split at h
        · cases (Prod.mk.inj h).2
        · exact probe_contained hw h

theorem awaitRecovery_uncertain {c : JournalClient} {p : PendingCall} {r : Recovery} {result : CallEnd}
    (h : (c.awaitRecovery p r).2 = .ended result) : ∃ e, result = .failed e ∧ e.Uncertain := by
  unfold awaitRecovery at h
  simp only at h
  split at h
  · obtain rfl := Progress.ended.inj h
    exact ⟨_, rfl, rfl, rfl⟩
  · cases h

theorem recoverConnection_uncertain {c : JournalClient} {p : PendingCall} {r : Recovery} {result : CallEnd}
    (hr : r.Uncertain) (hwrites : c.readOnly = false) (h : (c.recoverConnection p r).2 = .ended result) :
    ∃ e, result = .failed e ∧ e.Uncertain := by
  have hd : c.disconnect.readOnly = false := hwrites
  unfold recoverConnection at h
  simp only [hd, Bool.false_eq_true, false_and, if_false] at h
  split at h
  · obtain rfl := Progress.ended.inj h
    exact ⟨_, rfl, rfl, rfl⟩
  · split at h
    · split at h
      · rename_i error hs
        obtain rfl := Progress.ended.inj h
        exact ⟨_, rfl, hr _ hs⟩
      · exact awaitRecovery_uncertain h
    · exact awaitRecovery_uncertain h

/-- A writing client that gives a call up leaves its outcome uncertain, and says so. -/
theorem settleError_uncertain {c : JournalClient} {p : PendingCall} {r : Recovery} {error : ClientError}
    {result : CallEnd} (hr : r.Uncertain) (hwrites : c.readOnly = false) (he : error.Contained c)
    (h : (c.settleError p r error).2 = .ended result) : ∃ e, result = .failed e ∧ e.Uncertain := by
  obtain ⟨hrefuses, hretry⟩ := he
  cases error with
  | connection => exact recoverConnection_uncertain hr hwrites h
  | storage message retryable journalFailed =>
    simp only [settleError] at h
    split at h
    · rename_i hcase
      obtain rfl := Progress.ended.inj h
      refine ⟨_, rfl, rfl, ?_⟩
      obtain hro | hm | hn := hcase
      · rw [hwrites] at hro
        cases hro
      · cases retryable with
        | true => exact absurd (hretry rfl) (by simp [hm])
        | false => rfl
      · exact hn
    · cases h
  | state message journalFailed =>
    obtain rfl := Progress.ended.inj h
    exact ⟨_, rfl, rfl, rfl⟩
  | configuration message journalFailed =>
    obtain rfl := Progress.ended.inj h
    exact ⟨_, rfl, rfl, rfl⟩
  | generationChanged =>
    obtain rfl := Progress.ended.inj h
    exact ⟨_, rfl, rfl, rfl⟩
  | value message journalFailed => cases hrefuses
  | type message journalFailed => cases hrefuses

end JournalClient

end ModularPipelines.Journal
