import ModularPipelines.Resources.Collector

namespace ModularPipelines.Resources

open Library

/-- What a worker does in one step, with its uses of the journal. -/
inductive Turn (w : CollectorWorker) : CollectorWorker → List JournalUse → Prop where
  | read (u : CollectorUpdate) (rest : List CollectorCommand) (hround : w.round = none)
      (hcommands : w.commands = .update u :: rest) : Turn w ({ w with commands := rest }.applyUpdate u) []
  | halt (rest : List CollectorCommand) (hcommands : w.commands = .stop :: rest) :
      Turn w { w with commands := rest }.exit []
  | exit : Turn w w.exit []
  | sample (hostSeries : String) (measure : String → Json) :
      Turn w { w with round := some ⟨w.observe hostSeries measure, w.observe hostSeries measure⟩ } []
  | record (gaps : List Json) (delivery : Delivery) (sample : ResourceSample) (rest samples : List ResourceSample)
      (hround : w.round = some ⟨sample :: rest, samples⟩) :
      Turn w { w with writer := (w.writer.record gaps delivery sample).1, round := some ⟨rest, samples⟩ }
        (w.writer.record gaps delivery sample).2
  | interrupt (lost : Nat) (unwritten samples : List ResourceSample) (hround : w.round = some ⟨unwritten, samples⟩) :
      Turn w { w with
        writer := { w.writer with unconfirmedSamples := w.writer.unconfirmedSamples + lost }
        round := some ⟨[], samples⟩ } []
  | report (samples : List ResourceSample)
      (hsamples : samples = [] ∨ ∃ unwritten, w.round = some ⟨unwritten, samples⟩) : Turn w (w.send samples) []

theorem workerStep_turn {c c' : ResourceCollector} {w : CollectorWorker} {action : CollectorStep}
    (h : c.workerStep w action = some c') :
    ∃ w' uses, Turn w w' uses ∧ c' = { c.setWorker w' with journal := c.journal ++ uses } := by
  have hnone : ∀ w' : CollectorWorker, c.setWorker w' = { c.setWorker w' with journal := c.journal ++ [] } := by
    intro w'
    rw [List.append_nil]
    rfl
  cases action with
  | read =>
    simp only [ResourceCollector.workerStep] at h
    split at h
    · rename_i u rest hround hcommands
      obtain rfl := Option.some.inj h
      exact ⟨_, [], .read u rest hround hcommands, hnone _⟩
    · rename_i rest hround hcommands
      obtain rfl := Option.some.inj h
      exact ⟨_, [], .halt rest hcommands, hnone _⟩
    · cases h
  | sample hostSeries measure =>
    obtain ⟨-, h⟩ := Option.ite_none_right_eq_some.mp h
    obtain rfl := Option.some.inj h
    exact ⟨_, [], .sample hostSeries measure, hnone _⟩
  | record gaps delivery =>
    simp only [ResourceCollector.workerStep] at h
    split at h
    · rename_i sample rest samples hround
      obtain rfl := Option.some.inj h
      exact ⟨_, _, .record gaps delivery sample rest samples hround, rfl⟩
    · cases h
  | interrupt =>
    simp only [ResourceCollector.workerStep] at h
    split at h
    · rename_i unwritten samples hround
      obtain ⟨-, h⟩ := Option.ite_none_left_eq_some.mp h
      obtain rfl := Option.some.inj h
      exact ⟨_, [], .interrupt _ unwritten samples hround, hnone _⟩
    · cases h
  | report =>
    simp only [ResourceCollector.workerStep] at h
    split at h
    · obtain rfl := Option.some.inj h
      exact ⟨_, [], .report [] (.inl rfl), hnone _⟩
    · rename_i samples hround
      obtain rfl := Option.some.inj h
      exact ⟨_, [], .report samples (.inr ⟨[], hround⟩), hnone _⟩
    · cases h
  | exit =>
    obtain rfl := Option.some.inj h
    exact ⟨_, [], .exit, hnone _⟩
  | _ => cases h

/-- Updates come in the order of their revisions. -/
def InOrder (a b : CollectorCommand) : Prop := ∀ u v, a = .update u → b = .update v → u.revision ≤ v.revision

/-- A worker has the newest revision that it has read, and its reports are of older ones or of this one. -/
structure LawfulWorker (w : CollectorWorker) : Prop where
  ordered : w.commands.Pairwise InOrder
  ahead : ∀ u, .update u ∈ w.commands → ∀ r, w.revision = some r → r ≤ u.revision
  packets : ∀ p ∈ w.packets, ∀ r, p.revision = some r → ∃ a, w.revision = some a ∧ r ≤ a
  client : w.writer.client = none ∨ w.writer.client = w.writer.source
  taken : ∀ p ∈ w.packets, ∀ s ∈ p.samples, s.taken = p.revision
  round : ∀ b, w.round = some b → ∀ s ∈ b.samples, s.taken = w.revision

/-- All revisions that a worker knows of are at most the given one. -/
structure Within (bound : Nat) (w : CollectorWorker) : Prop where
  commands : ∀ u, .update u ∈ w.commands → u.revision ≤ bound
  applied : ∀ r, w.revision = some r → r ≤ bound

/-- From some revision on a worker is to have no journal. -/
structure Draining (revision : Nat) (w : CollectorWorker) : Prop where
  commands : ∀ u, .update u ∈ w.commands → revision ≤ u.revision → u.snapshot = .empty
  applied : ∀ r, w.revision = some r → revision ≤ r → w.writer.source = none

/-- A worker without a journal that will not be told of one. -/
structure ShutOff (w : CollectorWorker) : Prop where
  source : w.writer.source = none
  client : w.writer.client = none
  commands : ∀ u, .update u ∈ w.commands → u.snapshot = .empty

theorem record_source (w : ResourceWriter) (gaps : List Json) (delivery : Delivery) (sample : ResourceSample) :
    (w.record gaps delivery sample).1.source = w.source := by
  obtain ⟨source, client, error, unconfirmed⟩ := w
  cases source with
  | none => rfl
  | some path => cases delivery <;> rfl

theorem record_client {w : ResourceWriter} (h : w.client = none ∨ w.client = w.source) (gaps : List Json)
    (delivery : Delivery) (sample : ResourceSample) :
    (w.record gaps delivery sample).1.client = none ∨ (w.record gaps delivery sample).1.client = w.source := by
  obtain ⟨source, client, error, unconfirmed⟩ := w
  cases source with
  | none => exact h
  | some path =>
    cases delivery with
    | deferred => exact h
    | failed error delivered => exact .inl rfl
    | done => exact .inr rfl

theorem record_unselected {w : ResourceWriter} (h : w.source = none) (gaps : List Json) (delivery : Delivery)
    (sample : ResourceSample) : w.record gaps delivery sample = (w, []) := by
  rw [ResourceWriter.record, h]

theorem select_client {w : ResourceWriter} (h : w.client = none ∨ w.client = w.source) (path : Option String) :
    (w.select path).client = none ∨ (w.select path).client = (w.select path).source := by
  unfold ResourceWriter.select
  split
  · exact h
  · exact .inl rfl

theorem select_source (w : ResourceWriter) (path : Option String) : (w.select path).source = path := by
  unfold ResourceWriter.select
  split
  · rename_i h
    exact h.symm
  · rfl

namespace Turn

variable {w w' : CollectorWorker} {uses : List JournalUse}

/-- A step reads a command or leaves all of them. -/
theorem commands_suffix (h : Turn w w' uses) : w'.commands <:+ w.commands := by
  cases h with
  | read u rest hround hcommands =>
    rw [hcommands, CollectorWorker.applyUpdate]
    split <;> exact List.suffix_cons _ _
  | halt rest hcommands =>
    rw [hcommands]
    exact List.suffix_cons _ _
  | _ => exact List.suffix_refl _

theorem update_mem (h : Turn w w' uses) {u : CollectorUpdate} (hu : .update u ∈ w'.commands) : .update u ∈ w.commands :=
  h.commands_suffix.subset hu

/-- A worker keeps its revision or takes that of an update. -/
theorem revision_cases (h : Turn w w' uses) : w'.revision = w.revision ∧ w'.writer.source = w.writer.source ∨
    ∃ u, .update u ∈ w.commands ∧ w'.revision = some u.revision ∧
      w'.writer.source = u.snapshot.loggingConfigPath := by
  cases h with
  | read u rest hround hcommands =>
    rw [CollectorWorker.applyUpdate]
    split
    · exact .inl ⟨rfl, rfl⟩
    · exact .inr ⟨u, hcommands ▸ List.mem_cons_self .., rfl, select_source _ _⟩
  | record gaps delivery sample rest samples hround => exact .inl ⟨rfl, record_source _ _ _ _⟩
  | _ => exact .inl ⟨rfl, rfl⟩

theorem revision_grows (h : Turn w w' uses) (hw : LawfulWorker w) {r : Nat} (hr : w.revision = some r) :
    ∃ a, w'.revision = some a ∧ r ≤ a := by
  obtain ⟨hsame, -⟩ | ⟨u, hu, hnew, -⟩ := h.revision_cases
  · exact ⟨r, hsame.trans hr, Nat.le_refl r⟩
  · exact ⟨u.revision, hnew, hw.ahead u hu r hr⟩

theorem within (h : Turn w w' uses) {bound : Nat} (hw : Within bound w) : Within bound w' := by
  refine ⟨fun u hu => hw.commands u (h.update_mem hu), fun r hr => ?_⟩
  obtain ⟨hsame, -⟩ | ⟨u, hu, hnew, -⟩ := h.revision_cases
  · exact hw.applied r (hsame ▸ hr)
  · obtain rfl := Option.some.inj (hnew.symm.trans hr)
    exact hw.commands u hu

theorem draining (h : Turn w w' uses) {revision : Nat} (hw : Draining revision w) : Draining revision w' := by
  refine ⟨fun u hu => hw.commands u (h.update_mem hu), fun r hr hle => ?_⟩
  obtain ⟨hsame, hsource⟩ | ⟨u, hu, hnew, hsource⟩ := h.revision_cases
  · exact hsource.trans (hw.applied r (hsame ▸ hr) hle)
  · obtain rfl := Option.some.inj (hnew.symm.trans hr)
    rw [hsource, hw.commands u hu hle]
    rfl

theorem shutOff (h : Turn w w' uses) (hw : ShutOff w) : ShutOff w' ∧ uses = [] := by
  have hsource : w'.writer.source = none := by
    obtain ⟨-, hsource⟩ | ⟨u, hu, -, hsource⟩ := h.revision_cases
    · exact hsource.trans hw.source
    · rw [hsource, hw.commands u hu]
      rfl
  have hrest : w'.writer.client = none ∧ uses = [] := by
    cases h with
    | read u rest hround hcommands =>
      have hu : u.snapshot = .empty := hw.commands u (hcommands ▸ List.mem_cons_self ..)
      refine ⟨?_, rfl⟩
      rw [CollectorWorker.applyUpdate]
      split
      · exact hw.client
      · rw [hu, ResourceWriter.select]
        split
        · exact hw.client
        · rfl
    | record gaps delivery sample rest samples hround =>
      rw [record_unselected hw.source]
      exact ⟨hw.client, rfl⟩
    | sample hostSeries measure => exact ⟨hw.client, rfl⟩
    | interrupt lost unwritten samples hround => exact ⟨hw.client, rfl⟩
    | report samples hsamples => exact ⟨hw.client, rfl⟩
    | halt rest hcommands => exact ⟨rfl, rfl⟩
    | exit => exact ⟨rfl, rfl⟩
  exact ⟨⟨hsource, hrest.1, fun u hu => hw.commands u (h.update_mem hu)⟩, hrest.2⟩

theorem ahead (h : Turn w w' uses) (hw : LawfulWorker w) :
    ∀ u, .update u ∈ w'.commands → ∀ r, w'.revision = some r → r ≤ u.revision := by
  intro u hu r hr
  cases h with
  | read v rest hround hcommands =>
    have hrest : (CollectorWorker.applyUpdate { w with commands := rest } v).commands = rest := by
      rw [CollectorWorker.applyUpdate]
      split <;> rfl
    rw [hrest] at hu
    have hle : v.revision ≤ u.revision := by
      have hordered := hw.ordered
      rw [hcommands] at hordered
      exact (List.pairwise_cons.mp hordered).1 _ hu v u rfl rfl
    rw [CollectorWorker.applyUpdate] at hr
    split at hr
    · rename_i hsame
      obtain rfl := Option.some.inj (hsame.trans hr)
      exact hle
    · obtain rfl := Option.some.inj hr
      exact hle
  | halt rest hcommands => exact hw.ahead u (hcommands ▸ List.mem_cons_of_mem _ hu) r hr
  | _ => exact hw.ahead u hu r hr

theorem packet_cases (h : Turn w w' uses) {p : CollectorPacket} (hp : p ∈ w'.packets) :
    p ∈ w.packets ∨ p.revision = w.revision ∧ w'.revision = w.revision ∧
      ∀ s ∈ p.samples, ∃ b, w.round = some b ∧ s ∈ b.samples := by
  cases h with
  | read u rest hround hcommands =>
    rw [CollectorWorker.applyUpdate] at hp
    split at hp <;> exact .inl hp
  | report samples hsamples =>
    rcases List.mem_append.mp hp with hp | hp
    · exact .inl hp
    · obtain rfl := List.mem_singleton.mp hp
      refine .inr ⟨rfl, rfl, fun s hs => ?_⟩
      rcases hsamples with rfl | ⟨unwritten, hround⟩
      · cases hs
      · exact ⟨_, hround, hs⟩
  | _ => exact .inl hp

theorem client (h : Turn w w' uses) (hw : LawfulWorker w) :
    w'.writer.client = none ∨ w'.writer.client = w'.writer.source := by
  cases h with
  | read u rest hround hcommands =>
    rw [CollectorWorker.applyUpdate]
    split
    · exact hw.client
    · exact select_client hw.client _
  | record gaps delivery sample rest samples hround =>
    have hclient := record_client hw.client gaps delivery sample
    rwa [← record_source w.writer gaps delivery sample] at hclient
  | halt rest hcommands => exact .inl rfl
  | exit => exact .inl rfl
  | _ => exact hw.client

/-- The samples of a round were taken under the revision of the worker, which changes between rounds only. -/
theorem round (h : Turn w w' uses) (hw : LawfulWorker w) :
    ∀ b, w'.round = some b → ∀ s ∈ b.samples, s.taken = w'.revision := by
  intro b hb s hs
  cases h with
  | read u rest hround hcommands =>
    rw [CollectorWorker.applyUpdate] at hb
    split at hb
    · cases hround.symm.trans hb
    · cases hround.symm.trans hb
  | sample hostSeries measure =>
    obtain rfl := Option.some.inj hb
    rcases List.mem_cons.mp hs with rfl | hs
    · rfl
    · obtain ⟨t, -, rfl⟩ := List.mem_map.mp hs
      rfl
  | record gaps delivery sample rest samples hround =>
    obtain rfl := Option.some.inj hb
    exact hw.round _ hround s hs
  | interrupt lost unwritten samples hround =>
    obtain rfl := Option.some.inj hb
    exact hw.round _ hround s hs
  | _ => cases hb

theorem lawful (h : Turn w w' uses) (hw : LawfulWorker w) : LawfulWorker w' := by
  refine ⟨hw.ordered.sublist h.commands_suffix.sublist, h.ahead hw, fun p hp r hr => ?_, h.client hw,
    fun p hp s hs => ?_, h.round hw⟩
  · obtain hold | ⟨hsame, hkept, -⟩ := h.packet_cases hp
    · obtain ⟨a, ha, hle⟩ := hw.packets p hold r hr
      obtain ⟨a', ha', hle'⟩ := h.revision_grows hw ha
      exact ⟨a', ha', Nat.le_trans hle hle'⟩
    · exact ⟨r, hkept.trans (hsame.symm.trans hr), Nat.le_refl r⟩
  · obtain hold | ⟨hsame, -, hround⟩ := h.packet_cases hp
    · exact hw.taken p hold s hs
    · obtain ⟨b, hb, hs⟩ := hround s hs
      exact (hw.round b hb s hs).trans hsame.symm

end Turn

/-- What is sure of a collector after any calls and steps. -/
structure Lawful (c : ResourceCollector) : Prop where
  loaded : ∀ w, c.process = some w → c.loaded = true
  worker : ∀ w, c.process = some w → LawfulWorker w
  within : ∀ w, c.process = some w → Within c.revision w
  received : ∀ w p, c.process = some w → c.packet = some p → ∀ r, p.revision = some r →
    ∃ a, w.revision = some a ∧ r ≤ a

theorem LawfulWorker.new : LawfulWorker .new := by
  refine ⟨.nil, ?_, ?_, .inl rfl, ?_, ?_⟩
  · intro u hu
    cases hu
  · intro p hp
    cases hp
  · intro p hp
    cases hp
  · intro b hb
    cases hb

theorem Within.new (bound : Nat) : Within bound .new := by
  constructor
  · intro u hu
    cases hu
  · intro r hr
    cases hr

theorem Lawful.new : Lawful .new := by
  refine ⟨?_, ?_, ?_, ?_⟩
  · intro w hw
    cases hw
  · intro w hw
    cases hw
  · intro w hw
    cases hw
  · intro w p hw
    cases hw

theorem Within.mono {a b : Nat} {w : CollectorWorker} (h : Within a w) (hle : a ≤ b) : Within b w :=
  ⟨fun u hu => Nat.le_trans (h.commands u hu) hle, fun r hr => Nat.le_trans (h.applied r hr) hle⟩

/-- A call that leaves the worker alone. -/
theorem Lawful.call {c c' : ResourceCollector} (h : Lawful c) (hprocess : c'.process = c.process)
    (hpacket : c'.packet = c.packet) (hrevision : c.revision ≤ c'.revision)
    (hloaded : c.loaded = true → c'.loaded = true) : Lawful c' := by
  refine ⟨fun w hw => hloaded (h.loaded w (hprocess ▸ hw)), fun w hw => h.worker w (hprocess ▸ hw),
    fun w hw => (h.within w (hprocess ▸ hw)).mono hrevision, ?_⟩
  intro w p hw hp
  exact h.received w p (hprocess ▸ hw) (hpacket ▸ hp)

/-- How a step changes the worker: a call does not, and otherwise the worker is new, is sent a
command, is heard of, is released, or makes a step of its own. -/
inductive Effect (c : ResourceCollector) : CollectorStep → ResourceCollector → Prop where
  | update (snapshot : CollectorSnapshot) : Effect c (.update snapshot) (c.update snapshot)
  | suspend : Effect c .suspendExperiment c.suspend
  | resume : Effect c .resumeExperiment c.resume
  | load : Effect c .load { c with loaded := true }
  | startWorker (hloaded : c.loaded = true) (hprocess : c.process = none) :
      Effect c .startWorker { c with packet := none, process := some .new }
  | sendUpdate (w : CollectorWorker) (hw : c.process = some w) :
      Effect c .sendUpdate (c.setWorker { w with commands := w.commands ++ [.update c.message] })
  | sendStop (w : CollectorWorker) (hw : c.process = some w) :
      Effect c .sendStop (c.setWorker { w with commands := w.commands ++ [.stop] })
  | receive (w : CollectorWorker) (p : CollectorPacket) (rest : List CollectorPacket) (hw : c.process = some w)
      (hp : w.packets = p :: rest) : Effect c .receive ((c.setWorker { w with packets := rest }).receivePacket p)
  | release : Effect c .release { c with process := none }
  | turn (action : CollectorStep) (w w' : CollectorWorker) (uses : List JournalUse) (hw : c.process = some w)
      (hturn : Turn w w' uses) (hother : action ≠ .resumeExperiment) :
      Effect c action { c.setWorker w' with journal := c.journal ++ uses }

theorem step_effect {c c' : ResourceCollector} {action : CollectorStep} (h : c.step action = some c') :
    Effect c action c' := by
  have hworker : action ≠ .resumeExperiment →
      (c.process.bind fun w => if w.alive then c.workerStep w action else none) = some c' → Effect c action c' := by
    intro hother h
    obtain ⟨w, hw, h⟩ := Option.bind_eq_some_iff.mp h
    obtain ⟨-, h⟩ := Option.ite_none_right_eq_some.mp h
    obtain ⟨w', uses, hturn, rfl⟩ := workerStep_turn h
    exact .turn action w w' uses hw hturn hother
  cases action with
  | update snapshot =>
    obtain rfl := Option.some.inj h
    exact .update snapshot
  | suspendExperiment =>
    obtain rfl := Option.some.inj h
    exact .suspend
  | resumeExperiment =>
    obtain rfl := Option.some.inj h
    exact .resume
  | load =>
    obtain rfl := Option.some.inj h
    exact .load
  | startWorker =>
    obtain ⟨hfree, h⟩ := Option.ite_none_right_eq_some.mp h
    obtain rfl := Option.some.inj h
    obtain ⟨hloaded, hprocess⟩ := Bool.and_eq_true_iff.mp hfree
    exact .startWorker hloaded (Option.isNone_iff_eq_none.mp hprocess)
  | sendUpdate =>
    obtain ⟨w, hw, rfl⟩ := Option.map_eq_some_iff.mp h
    exact .sendUpdate w hw
  | sendStop =>
    obtain ⟨w, hw, rfl⟩ := Option.map_eq_some_iff.mp h
    exact .sendStop w hw
  | receive =>
    simp only [ResourceCollector.step] at h
    split at h
    · rename_i w hw
      split at h
      · rename_i p rest hp
        obtain rfl := Option.some.inj h
        exact .receive w p rest hw hp
      · cases h
    · cases h
  | release =>
    obtain ⟨w, hw, h⟩ := Option.bind_eq_some_iff.mp h
    obtain ⟨-, h⟩ := Option.ite_none_left_eq_some.mp h
    obtain rfl := Option.some.inj h
    exact .release
  | _ => exact hworker (by simp) h

theorem receivePacket_cases (c : ResourceCollector) (p : CollectorPacket) :
    (c.receivePacket p).process = c.process ∧ (c.receivePacket p).packet = some p ∧
      (c.receivePacket p).revision = c.revision ∧ (c.receivePacket p).loaded = c.loaded ∧
      (c.receivePacket p).suspended = c.suspended ∧ (c.receivePacket p).journal = c.journal := by
  rw [ResourceCollector.receivePacket]
  split <;> exact ⟨rfl, rfl, rfl, rfl, rfl, rfl⟩

theorem message_mem {w : CollectorWorker} {c : ResourceCollector} {u : CollectorUpdate}
    (hu : .update u ∈ w.commands ++ [.update c.message]) : .update u ∈ w.commands ∨ u = c.message := by
  rcases List.mem_append.mp hu with hu | hu
  · exact .inl hu
  · exact .inr (CollectorCommand.update.inj (List.mem_singleton.mp hu))

theorem stop_mem {w : CollectorWorker} {u : CollectorUpdate}
    (hu : CollectorCommand.update u ∈ w.commands ++ [CollectorCommand.stop]) : .update u ∈ w.commands := by
  rcases List.mem_append.mp hu with hu | hu
  · exact hu
  · cases List.mem_singleton.mp hu

/-- A worker that is sent the current update or a stop. -/
theorem LawfulWorker.sent {w : CollectorWorker} {bound : Nat} (h : LawfulWorker w) (hw : Within bound w)
    (command : CollectorCommand) (hcommand : ∀ u, command = .update u → u.revision = bound) :
    LawfulWorker { w with commands := w.commands ++ [command] } := by
  refine ⟨?_, ?_, h.packets, h.client, h.taken, h.round⟩
  · apply List.pairwise_append.mpr
    refine ⟨h.ordered, List.pairwise_singleton _ _, ?_⟩
    rintro a ha b hb u v rfl rfl
    rw [hcommand v (List.mem_singleton.mp hb).symm]
    exact hw.commands u ha
  · intro u hu r hr
    rcases List.mem_append.mp hu with hu | hu
    · exact h.ahead u hu r hr
    · rw [hcommand u (List.mem_singleton.mp hu).symm]
      exact hw.applied r hr

/-- Every step keeps what is sure of a collector. -/
theorem Lawful.step {c c' : ResourceCollector} {action : CollectorStep} (h : Lawful c)
    (hstep : c.step action = some c') : Lawful c' := by
  cases step_effect hstep with
  | update snapshot =>
    rw [ResourceCollector.update]
    split
    · exact h
    · exact h.call rfl rfl (Nat.le_succ _) id
  | suspend => exact h.call rfl rfl (Nat.le_succ _) id
  | resume => exact h.call rfl rfl (Nat.le_succ _) id
  | load => exact h.call rfl rfl (Nat.le_refl _) fun _ => rfl
  | startWorker hloaded hprocess =>
    refine ⟨fun _ _ => hloaded, fun w hw => ?_, fun w hw => ?_, fun w p hw hp => ?_⟩
    · obtain rfl := Option.some.inj hw
      exact .new
    · obtain rfl := Option.some.inj hw
      exact .new _
    · cases hp
  | sendUpdate w hw =>
    have hworker := (h.worker w hw).sent (h.within w hw) (.update c.message)
      (fun u hu => by rw [← CollectorCommand.update.inj hu]; rfl)
    refine ⟨fun _ _ => h.loaded w hw, fun w' hw' => ?_, fun w' hw' => ?_, fun w' p hw' hp => ?_⟩
    · obtain rfl := Option.some.inj hw'
      exact hworker
    · obtain rfl := Option.some.inj hw'
      refine ⟨fun u hu => ?_, (h.within w hw).applied⟩
      obtain hold | rfl := message_mem hu
      · exact (h.within w hw).commands u hold
      · exact Nat.le_refl _
    · obtain rfl := Option.some.inj hw'
      exact h.received w p hw hp
  | sendStop w hw =>
    have hworker := (h.worker w hw).sent (h.within w hw) .stop (fun u hu => by cases hu)
    refine ⟨fun _ _ => h.loaded w hw, fun w' hw' => ?_, fun w' hw' => ?_, fun w' p hw' hp => ?_⟩
    · obtain rfl := Option.some.inj hw'
      exact hworker
    · obtain rfl := Option.some.inj hw'
      exact ⟨fun u hu => (h.within w hw).commands u (stop_mem hu), (h.within w hw).applied⟩
    · obtain rfl := Option.some.inj hw'
      exact h.received w p hw hp
  | receive w p rest hw hp =>
    obtain ⟨hprocess, hpacket, hrevision, hloaded, -, -⟩ :=
      receivePacket_cases (c.setWorker { w with packets := rest }) p
    have hworker := h.worker w hw
    have hrest : ∀ q ∈ rest, q ∈ w.packets := fun q hq => hp ▸ List.mem_cons_of_mem _ hq
    refine ⟨fun _ _ => hloaded.trans (h.loaded w hw), fun w' hw' => ?_, fun w' hw' => ?_, fun w' q hw' hq => ?_⟩
    · obtain rfl := Option.some.inj (hprocess.symm.trans hw')
      exact ⟨hworker.ordered, hworker.ahead, fun q hq => hworker.packets q (hrest q hq), hworker.client,
        fun q hq => hworker.taken q (hrest q hq), hworker.round⟩
    · obtain rfl := Option.some.inj (hprocess.symm.trans hw')
      rw [hrevision]
      exact ⟨(h.within w hw).commands, (h.within w hw).applied⟩
    · obtain rfl := Option.some.inj (hprocess.symm.trans hw')
      obtain rfl := Option.some.inj (hpacket.symm.trans hq)
      exact hworker.packets p (hp ▸ List.mem_cons_self ..)
  | release =>
    refine ⟨fun w hw => ?_, fun w hw => ?_, fun w hw => ?_, fun w p hw => ?_⟩
    · cases hw
    · cases hw
    · cases hw
    · cases hw
  | turn _ w w' uses hw hturn hother =>
    refine ⟨fun _ _ => h.loaded w hw, fun v hv => ?_, fun v hv => ?_, fun v p hv hp r hr => ?_⟩
    · obtain rfl := Option.some.inj hv
      exact hturn.lawful (h.worker w hw)
    · obtain rfl := Option.some.inj hv
      exact hturn.within (h.within w hw)
    · obtain rfl := Option.some.inj hv
      obtain ⟨a, ha, hle⟩ := h.received w p hw hp r hr
      obtain ⟨a', ha', hle'⟩ := hturn.revision_grows (h.worker w hw) ha
      exact ⟨a', ha', Nat.le_trans hle hle'⟩

/-- A collector that was suspended at a revision and has not been resumed. -/
structure Suspending (revision : Nat) (c : ResourceCollector) : Prop where
  suspended : c.suspended = true
  draining : ∀ w, c.process = some w → Draining revision w

/-- A collector whose worker, if there is one, is without a journal and stays so. -/
structure Closed (c : ResourceCollector) : Prop where
  suspended : c.suspended = true
  shutOff : ∀ w, c.process = some w → ShutOff w

theorem message_suspended {c : ResourceCollector} (h : c.suspended = true) : c.message.snapshot = .empty := by
  rw [ResourceCollector.message, h]
  rfl

theorem Lawful.suspend {c : ResourceCollector} (h : Lawful c) : Suspending (c.revision + 1) c.suspend := by
  refine ⟨rfl, fun w hw => ⟨fun u hu hle => ?_, fun r hr hle => ?_⟩⟩
  · exact (Nat.not_succ_le_self _ (Nat.le_trans hle ((h.within w hw).commands u hu))).elim
  · exact (Nat.not_succ_le_self _ (Nat.le_trans hle ((h.within w hw).applied r hr))).elim

theorem Suspending.step {revision : Nat} {c c' : ResourceCollector} {action : CollectorStep}
    (h : Suspending revision c) (hstep : c.step action = some c') (hresume : action ≠ .resumeExperiment) :
    Suspending revision c' := by
  cases step_effect hstep with
  | update snapshot =>
    rw [ResourceCollector.update]
    split
    · exact h
    · exact ⟨h.suspended, h.draining⟩
  | suspend => exact ⟨rfl, h.draining⟩
  | resume => exact (hresume rfl).elim
  | load => exact ⟨h.suspended, h.draining⟩
  | startWorker hloaded hprocess =>
    refine ⟨h.suspended, fun w hw => ?_⟩
    obtain rfl := Option.some.inj hw
    refine ⟨fun u hu => ?_, fun r hr => ?_⟩
    · cases hu
    · cases hr
  | sendUpdate w hw =>
    refine ⟨h.suspended, fun w' hw' => ?_⟩
    obtain rfl := Option.some.inj hw'
    refine ⟨fun u hu hle => ?_, (h.draining w hw).applied⟩
    obtain hold | rfl := message_mem hu
    · exact (h.draining w hw).commands u hold hle
    · exact message_suspended h.suspended
  | sendStop w hw =>
    refine ⟨h.suspended, fun w' hw' => ?_⟩
    obtain rfl := Option.some.inj hw'
    exact ⟨fun u hu => (h.draining w hw).commands u (stop_mem hu), (h.draining w hw).applied⟩
  | receive w p rest hw hp =>
    obtain ⟨hprocess, -, -, -, hsuspended, -⟩ := receivePacket_cases (c.setWorker { w with packets := rest }) p
    refine ⟨hsuspended.trans h.suspended, fun w' hw' => ?_⟩
    obtain rfl := Option.some.inj (hprocess.symm.trans hw')
    exact ⟨(h.draining w hw).commands, (h.draining w hw).applied⟩
  | release =>
    refine ⟨h.suspended, fun w hw => ?_⟩
    cases hw
  | turn _ w w' uses hw hturn hother =>
    refine ⟨h.suspended, fun v hv => ?_⟩
    obtain rfl := Option.some.inj hv
    exact hturn.draining (h.draining w hw)

theorem Lawful.confirmed {c : ResourceCollector} {w : CollectorWorker} {revision : Nat} (h : Lawful c)
    (hw : c.process = some w) (hconfirmed : c.closureConfirmed revision = true) :
    ∃ r, w.revision = some r ∧ revision ≤ r := by
  rw [ResourceCollector.closureConfirmed, h.loaded w hw, hw] at hconfirmed
  cases hp : c.packet with
  | none =>
    rw [hp] at hconfirmed
    cases hconfirmed
  | some p =>
    cases hr : p.revision with
    | none => simp [hp, hr] at hconfirmed
    | some r =>
      obtain ⟨a, ha, hle⟩ := h.received w p hw hp r hr
      have hreached : revision ≤ r := by
        simp only [hp, hr, Option.isNone_some, Bool.not_true, Bool.or_false, Bool.false_or, Option.any_some,
          Bool.and_eq_true, decide_eq_true_eq] at hconfirmed
        exact hconfirmed.1
      exact ⟨a, ha, Nat.le_trans hreached hle⟩

/-- When the wait of a suspension ends, the worker has read of it or is gone. -/
theorem Suspending.closed {revision : Nat} {c : ResourceCollector} (h : Suspending revision c) (hl : Lawful c)
    (hconfirmed : c.closureConfirmed revision = true) : Closed c := by
  refine ⟨h.suspended, fun w hw => ?_⟩
  obtain ⟨r, hr, hle⟩ := hl.confirmed hw hconfirmed
  have hsource := (h.draining w hw).applied r hr hle
  refine ⟨hsource, ?_, fun u hu => ?_⟩
  · rcases (hl.worker w hw).client with hnone | hsame
    · exact hnone
    · exact hsame.trans hsource
  · exact (h.draining w hw).commands u hu (Nat.le_trans hle ((hl.worker w hw).ahead u hu r hr))

theorem Closed.step {c c' : ResourceCollector} {action : CollectorStep} (h : Closed c) (hstep : c.step action = some c')
    (hresume : action ≠ .resumeExperiment) : Closed c' ∧ c'.journal = c.journal := by
  cases step_effect hstep with
  | update snapshot =>
    rw [ResourceCollector.update]
    split
    · exact ⟨h, rfl⟩
    · exact ⟨⟨h.suspended, h.shutOff⟩, rfl⟩
  | suspend => exact ⟨⟨rfl, h.shutOff⟩, rfl⟩
  | resume => exact (hresume rfl).elim
  | load => exact ⟨⟨h.suspended, h.shutOff⟩, rfl⟩
  | startWorker hloaded hprocess =>
    refine ⟨⟨h.suspended, fun w hw => ?_⟩, rfl⟩
    obtain rfl := Option.some.inj hw
    refine ⟨rfl, rfl, fun u hu => ?_⟩
    cases hu
  | sendUpdate w hw =>
    refine ⟨⟨h.suspended, fun w' hw' => ?_⟩, rfl⟩
    obtain rfl := Option.some.inj hw'
    refine ⟨(h.shutOff w hw).source, (h.shutOff w hw).client, fun u hu => ?_⟩
    obtain hold | rfl := message_mem hu
    · exact (h.shutOff w hw).commands u hold
    · exact message_suspended h.suspended
  | sendStop w hw =>
    refine ⟨⟨h.suspended, fun w' hw' => ?_⟩, rfl⟩
    obtain rfl := Option.some.inj hw'
    exact ⟨(h.shutOff w hw).source, (h.shutOff w hw).client, fun u hu => (h.shutOff w hw).commands u (stop_mem hu)⟩
  | receive w p rest hw hp =>
    obtain ⟨hprocess, -, -, -, hsuspended, hjournal⟩ := receivePacket_cases (c.setWorker { w with packets := rest }) p
    refine ⟨⟨hsuspended.trans h.suspended, fun w' hw' => ?_⟩, hjournal⟩
    obtain rfl := Option.some.inj (hprocess.symm.trans hw')
    exact ⟨(h.shutOff w hw).source, (h.shutOff w hw).client, (h.shutOff w hw).commands⟩
  | release =>
    refine ⟨⟨h.suspended, fun w hw => ?_⟩, rfl⟩
    cases hw
  | turn _ w w' uses hw hturn hother =>
    obtain ⟨hshut, rfl⟩ := hturn.shutOff (h.shutOff w hw)
    refine ⟨⟨h.suspended, fun v hv => ?_⟩, List.append_nil _⟩
    obtain rfl := Option.some.inj hv
    exact hshut

theorem Lawful.run {c c' : ResourceCollector} {steps : List CollectorStep} (h : Lawful c)
    (hrun : c.run steps = some c') : Lawful c' := by
  induction steps generalizing c with
  | nil =>
    obtain rfl := Option.some.inj hrun
    exact h
  | cons action rest ih =>
    obtain ⟨next, hnext, hrest⟩ := Option.bind_eq_some_iff.mp hrun
    exact ih (h.step hnext) hrest

theorem Suspending.run {revision : Nat} {c c' : ResourceCollector} {steps : List CollectorStep}
    (h : Suspending revision c) (hrun : c.run steps = some c') (hresume : .resumeExperiment ∉ steps) :
    Suspending revision c' := by
  induction steps generalizing c with
  | nil =>
    obtain rfl := Option.some.inj hrun
    exact h
  | cons action rest ih =>
    obtain ⟨next, hnext, hrest⟩ := Option.bind_eq_some_iff.mp hrun
    have hfirst := List.ne_of_not_mem_cons hresume
    exact ih (h.step hnext hfirst.symm) hrest (List.not_mem_of_not_mem_cons hresume)

theorem Closed.run {c c' : ResourceCollector} {steps : List CollectorStep} (h : Closed c)
    (hrun : c.run steps = some c') (hresume : .resumeExperiment ∉ steps) : Closed c' ∧ c'.journal = c.journal := by
  induction steps generalizing c with
  | nil =>
    obtain rfl := Option.some.inj hrun
    exact ⟨h, rfl⟩
  | cons action rest ih =>
    obtain ⟨next, hnext, hrest⟩ := Option.bind_eq_some_iff.mp hrun
    have hfirst := List.ne_of_not_mem_cons hresume
    obtain ⟨hclosed, hjournal⟩ := h.step hnext hfirst.symm
    obtain ⟨hlast, hsame⟩ := ih hclosed hrest (List.not_mem_of_not_mem_cons hresume)
    exact ⟨hlast, hsame.trans hjournal⟩

/-- The journal that the worker holds open. -/
def ResourceCollector.openClient (c : ResourceCollector) : Option String := c.process.bind fun w => w.writer.client

theorem Closed.openClient {c : ResourceCollector} (h : Closed c) : c.openClient = none := by
  rw [ResourceCollector.openClient]
  cases hw : c.process with
  | none => rfl
  | some w => exact (h.shutOff w hw).client

theorem foldl_set {samples : List ResourceSample} {latest : Dict ResourceSample} {series : String} {s : ResourceSample}
    (h : (samples.foldl (fun latest s => latest.set s.seriesId s) latest).get? series = some s) :
    latest.get? series = some s ∨ s ∈ samples := by
  induction samples generalizing latest with
  | nil => exact .inl h
  | cons first rest ih =>
    obtain hold | hlater := ih h
    · rw [Dict.get?_set] at hold
      split at hold
      · obtain rfl := Option.some.inj hold
        exact .inr (List.mem_cons_self ..)
      · exact .inl hold
    · exact .inr (List.mem_cons_of_mem _ hlater)

/-- Between two states of a collector, only samples of the later revision were taken over. -/
structure TakesCurrent (c c' : ResourceCollector) : Prop where
  history : ∃ new, c'.history = c.history ++ new ∧ ∀ s ∈ new, s.taken = some c'.revision
  latest : ∀ series s, c'.latest.get? series = some s → c.latest.get? series = some s ∨ s.taken = some c'.revision

theorem takesCurrent_of_eq {c c' : ResourceCollector} (hhistory : c'.history = c.history)
    (hlatest : c'.latest = c.latest ∨ c'.latest = .empty) : TakesCurrent c c' := by
  refine ⟨⟨[], by rw [hhistory, List.append_nil], fun s hs => by cases hs⟩, fun series s hs => ?_⟩
  rcases hlatest with hsame | hclear
  · exact .inl (hsame ▸ hs)
  · rw [hclear] at hs
    cases hs

theorem Lawful.takesCurrent {c c' : ResourceCollector} {action : CollectorStep} (h : Lawful c)
    (hstep : c.step action = some c') : TakesCurrent c c' := by
  cases step_effect hstep with
  | update snapshot =>
    rw [ResourceCollector.update]
    split
    · exact takesCurrent_of_eq rfl (.inl rfl)
    · exact takesCurrent_of_eq rfl (.inr rfl)
  | suspend => exact takesCurrent_of_eq rfl (.inr rfl)
  | receive w p rest hw hp =>
    rw [ResourceCollector.receivePacket]
    split
    · rename_i hcurrent
      have htaken : ∀ s ∈ p.samples, s.taken = some c.revision := by
        intro s hs
        exact ((h.worker w hw).taken p (hp ▸ List.mem_cons_self ..) s hs).trans hcurrent
      refine ⟨⟨p.samples, rfl, htaken⟩, fun series s hs => ?_⟩
      obtain hold | hnew := foldl_set hs
      · exact .inl hold
      · exact .inr (htaken s hnew)
    · exact takesCurrent_of_eq rfl (.inl rfl)
  | _ => exact takesCurrent_of_eq rfl (.inl rfl)

/-- A suspension whose wait ends without an error while nobody has resumed leaves no worker with an
open client, and none opens or writes a journal before the next resumption. History and latest
values only ever take samples of the revision that is then selected. -/
theorem monitoring_barrier {before : List CollectorStep} {c : ResourceCollector}
    (hrun : ResourceCollector.new.run before = some c) :
    (∀ waiting d after e, c.suspend.run waiting = some d → .resumeExperiment ∉ waiting →
      d.closureConfirmed (c.revision + 1) = true → d.run after = some e → .resumeExperiment ∉ after →
      d.openClient = none ∧ e.openClient = none ∧ e.journal = d.journal) ∧
    ∀ action c', c.step action = some c' → TakesCurrent c c' := by
  have hl := Lawful.new.run hrun
  refine ⟨fun waiting d after e hwait hkept hconfirmed hafter hsuspended => ?_, fun action c' => hl.takesCurrent⟩
  have hstep : c.step .suspendExperiment = some c.suspend := rfl
  have hclosed : Closed d :=
    (hl.suspend.run hwait hkept).closed ((hl.step hstep).run hwait) hconfirmed
  obtain ⟨hlast, hjournal⟩ := hclosed.run hafter hsuspended
  exact ⟨hclosed.openClient, hlast.openClient, hjournal⟩

def watchedJournal : CollectorSnapshot := { CollectorSnapshot.empty with loggingConfigPath := some "journal.json" }

/-- A worker that has written a sample of its host to a journal. -/
def writing : List CollectorStep :=
  [.load, .update watchedJournal, .startWorker, .sendUpdate, .read, .sample "host" fun _ => .null, .record [] .done,
    .report, .receive]

def acknowledged : List CollectorStep := [.sendUpdate, .read, .report, .receive]

theorem monitoring_barrier_writing : ∃ c d, ResourceCollector.new.run writing = some c ∧
    c.openClient = some "journal.json" ∧ c.suspend.run acknowledged = some d ∧
    d.closureConfirmed (c.revision + 1) = true ∧ d.openClient = none := by
  have hfacts : (ResourceCollector.new.run writing).map (fun c => (c.openClient,
      (c.suspend.run acknowledged).map fun d => d.closureConfirmed (c.revision + 1))) =
      some (some "journal.json", some true) := by decide +kernel
  obtain ⟨c, hc, hfacts⟩ := Option.map_eq_some_iff.mp hfacts
  obtain ⟨hopen, hd⟩ := Prod.mk.inj hfacts
  obtain ⟨d, hd, hconfirmed⟩ := Option.map_eq_some_iff.mp hd
  have hkept : CollectorStep.resumeExperiment ∉ acknowledged := by simp [acknowledged]
  have hbarrier := (monitoring_barrier hc).1 acknowledged d [] d hd hkept hconfirmed rfl List.not_mem_nil
  exact ⟨c, d, hc, hopen, hd, hconfirmed, hbarrier.1⟩

/-- The closure that a resumed worker reports before it opens its journal ends the wait of the suspension. -/
theorem resumed_barrier_open : ¬ ∀ (before : List CollectorStep) (c : ResourceCollector),
    ResourceCollector.new.run before = some c → ∀ waiting d, c.suspend.run waiting = some d →
      d.closureConfirmed (c.revision + 1) = true → d.openClient = none := by
  intro hclaim
  have hfacts : (ResourceCollector.new.run [.load, .update watchedJournal, .startWorker]).map (fun c =>
      (c.suspend.run ([.resumeExperiment] ++ acknowledged ++ [.sample "host" fun _ => .null, .record [] .done])).map
        fun d => (d.closureConfirmed (c.revision + 1), d.openClient)) =
      some (some (true, some "journal.json")) := by decide +kernel
  obtain ⟨c, hc, hfacts⟩ := Option.map_eq_some_iff.mp hfacts
  obtain ⟨d, hd, hfacts⟩ := Option.map_eq_some_iff.mp hfacts
  obtain ⟨hconfirmed, hopen⟩ := Prod.mk.inj hfacts
  cases (hclaim _ c hc _ d hd hconfirmed).symm.trans hopen

end ModularPipelines.Resources
