import DevOpsAssistant.Chat.Stream

/-!
# Which streams are metered

A stream is metered exactly if nothing interrupts it before its usage is recorded.

* `interrupts`: the moves at which the client is gone, the generator is closed, or the provider fails.
* `Flowing`, `Metered`, `CutOff`: the three phases of a stream.
* `Undisturbed`: no move interrupts the stream while its usage is not recorded.
* **`metered_iff_undisturbed`**; **`disconnected_stream_not_metered`**: a stream that is not.
-/

namespace DevOps

namespace StreamState

/-- The move cuts the stream off: a party learns that the client has disconnected, the generator is
closed, or the provider fails. -/
def interrupts (s : StreamState) : StreamMove → Bool
  | .provider .fail | .close => true
  | .consumer => s.consumer = .checking && s.disconnected
  | .producer =>
    match s.producer with
    | .checkingChunk _ _ | .checkingEnd _ => s.disconnected
    | _ => false
  | _ => false

/-- The generator is in its loop. -/
def looping (s : StreamState) : Bool :=
  match s.consumer with
  | .checking | .waiting | .yielding false => true
  | _ => false

/-- Tokens flow, and the usage is not recorded yet. -/
structure Flowing (ctx : StreamContext) (s : StreamState) : Prop where
  unrecorded : s.recorded = none
  going : s.stop = false ∧ s.cancelRequested = false
  tokens : ∀ item ∈ s.queue, ∃ content, item = .token content
  parties : (s.consumer = .opening ∧ s.producer = .absent) ∨
    (s.looping = true ∧ s.producerDone = false)
  written : s.producer = .markingFirstChat ∨ s.producer = .committing →
    ∃ accumulated, s.written = some (ctx.usageOf accumulated)

/-- The usage is recorded. -/
structure Metered (ctx : StreamContext) (s : StreamState) : Prop where
  recorded : ∃ accumulated, s.recorded = some (ctx.usageOf accumulated)
  producer : s.producer = .finished
  opened : s.consumer ≠ .opening

/-- The usage is not recorded, and will not be. -/
structure CutOff (s : StreamState) : Prop where
  unrecorded : s.recorded = none
  producer : s.producer = .finished ∨ s.cancelRequested = true ∨
    (s.producer = .absent ∧ s.consumer = .finished)
  opened : s.consumer ≠ .opening

variable {ctx : StreamContext} {s s' : StreamState} {m : StreamMove}

/-! ## Leaving the loop -/

@[simp] theorem leaveLoop_recorded : s.leaveLoop.recorded = s.recorded := by
  unfold leaveLoop
  split <;> rfl

@[simp] theorem leaveLoop_producer : s.leaveLoop.producer = s.producer := by
  unfold leaveLoop
  split <;> rfl

theorem leaveLoop_opened : s.leaveLoop.consumer ≠ .opening := by
  unfold leaveLoop
  split <;> simp

theorem leaveLoop_cancelRequested (h : s.cancelRequested = true) :
    s.leaveLoop.cancelRequested = true := by
  unfold leaveLoop
  split
  · exact h
  · rfl

/-- Leaving the loop while the producer is there asks for its cancellation. -/
theorem cutOff_leaveLoop (hr : s.recorded = none)
    (hp : s.producerDone = true → s.producer = .finished) : s.leaveLoop.CutOff := by
  refine ⟨by simpa using hr, ?_, leaveLoop_opened⟩
  by_cases hd : s.producerDone = true
  · exact .inl (by simpa using hp hd)
  · refine .inr (.inl ?_)
    unfold leaveLoop
    rw [if_neg hd]

/-! ## Moves of the generator -/

/-- The move leaves the producer and the database alone. -/
structure Beside (s s' : StreamState) : Prop where
  recorded : s'.recorded = s.recorded
  producer : s'.producer = s.producer
  cancelRequested : s.cancelRequested = true → s'.cancelRequested = true
  opened : s'.consumer ≠ .opening

theorem beside_leaveLoop (s : StreamState) : Beside s s.leaveLoop :=
  ⟨leaveLoop_recorded, leaveLoop_producer, leaveLoop_cancelRequested, leaveLoop_opened⟩

theorem beside_onItem (s : StreamState) (item : QueueItem) : Beside s (s.onItem item) := by
  cases item with
  | done | cancelled => exact beside_leaveLoop s
  | _ => exact ⟨rfl, rfl, id, by simp [onItem]⟩

theorem beside_onConsumer (hc : s.consumer ≠ .opening) (h : s.onConsumer = some s') :
    Beside s s' := by
  unfold onConsumer at h
  split at h
  · next ho => exact absurd ho hc
  · cases h
    split
    · exact beside_leaveLoop s
    · exact ⟨rfl, rfl, id, by simp⟩
  · split at h
    · cases h
    · next item rest _ =>
      cases h
      obtain ⟨hr, hp, hcan, ho⟩ := beside_onItem { s with queue := rest } item
      exact ⟨hr, hp, hcan, ho⟩
  · cases h
    split
    · exact beside_leaveLoop s
    · exact ⟨rfl, rfl, id, by simp⟩
  · split at h
    · cases h
      exact ⟨rfl, rfl, id, by simp⟩
    · cases h
  · cases h

theorem beside_onClose (h : s.onClose = some s') : Beside s s' := by
  unfold onClose at h
  split at h <;> cases h
  · exact ⟨rfl, rfl, id, by simp⟩
  · exact ⟨rfl, rfl, id, by simp⟩
  · exact beside_leaveLoop s
  · exact beside_leaveLoop s
  · exact beside_leaveLoop s

/-- A producer that is finished does not move, and the others leave it alone. -/
theorem beside_step (hp : s.producer = .finished ∨ s.producer = .absent)
    (hc : s.consumer ≠ .opening) (h : s.step ctx m = some s') : Beside s s' := by
  cases m with
  | disconnect => cases h; exact ⟨rfl, rfl, id, hc⟩
  | provider a => rcases hp with hp | hp <;> simp [step, hp] at h
  | producer => rcases hp with hp | hp <;> simp [step, onProducer, hp] at h
  | cancel => rcases hp with hp | hp <;> simp [step, onCancel, hp] at h
  | consumer => exact beside_onConsumer hc h
  | timeout =>
    simp only [step] at h
    split at h
    · cases h; exact ⟨rfl, rfl, id, by simp⟩
    · cases h
  | close => exact beside_onClose h

/-! ## The three phases -/

theorem Metered.step (hm : s.Metered ctx) (h : s.step ctx m = some s') : s'.Metered ctx := by
  have b := beside_step (.inl hm.producer) hm.opened h
  exact ⟨b.recorded ▸ hm.recorded, b.producer.trans hm.producer, b.opened⟩

/-- A producer that is to be cancelled does nothing else. -/
theorem step_of_cancelRequested (hcan : s.cancelRequested = true) (hc : s.consumer ≠ .opening)
    (h : s.step ctx m = some s') : Beside s s' ∨
      (s'.producer = .finished ∧ s'.recorded = s.recorded ∧ s'.consumer = s.consumer) := by
  cases m with
  | disconnect => cases h; exact .inl ⟨rfl, rfl, id, hc⟩
  | provider a =>
    simp only [StreamState.step, hcan, if_true] at h
    split at h <;> cases h
  | producer => simp [StreamState.step, hcan] at h
  | cancel =>
    simp only [StreamState.step, hcan, if_true, onCancel] at h
    split at h <;> cases h
    · exact .inr ⟨rfl, rfl, rfl⟩
    · exact .inr ⟨rfl, rfl, rfl⟩
  | consumer => exact .inl (beside_onConsumer hc h)
  | timeout =>
    simp only [StreamState.step] at h
    split at h
    · cases h; exact .inl ⟨rfl, rfl, id, by simp⟩
    · cases h
  | close => exact .inl (beside_onClose h)

theorem CutOff.step (hs : s.CutOff) (h : s.step ctx m = some s') : s'.CutOff := by
  obtain ⟨hr, hp | hp | ⟨hp, hf⟩, hc⟩ := hs
  · have b := beside_step (.inl hp) hc h
    exact ⟨b.recorded.trans hr, .inl (b.producer.trans hp), b.opened⟩
  · rcases step_of_cancelRequested hp hc h with b | ⟨hp', hr', hc'⟩
    · exact ⟨b.recorded.trans hr, .inr (.inl (b.cancelRequested hp)), b.opened⟩
    · exact ⟨hr'.trans hr, .inl hp', hc' ▸ hc⟩
  -- the generator was closed before there was a producer
  · cases m with
    | disconnect => cases h; exact ⟨hr, .inr (.inr ⟨hp, hf⟩), hc⟩
    | _ =>
      simp [StreamState.step, onProducer, onCancel, onConsumer, onClose, hp, hf] at h

/-- While tokens flow, a producer that is there finds the generator in its loop. -/
theorem Flowing.looping (hf : s.Flowing ctx) (hp : s.producer ≠ .absent) :
    s.looping = true ∧ s.producerDone = false :=
  hf.parties.resolve_left fun h => hp h.2

theorem opened_of_looping (hl : s.looping = true) : s.consumer ≠ .opening := by
  intro hc
  simp [StreamState.looping, hc] at hl

/-- The producer ends without a record of its usage. -/
theorem Flowing.cutOff_endProducer (hf : s.Flowing ctx) (hp : s.producer ≠ .absent)
    (item : QueueItem) : (s.endProducer item).CutOff :=
  ⟨hf.unrecorded, .inl rfl, opened_of_looping (hf.looping hp).1⟩

theorem Flowing.cutOff_leaveLoop (hf : s.Flowing ctx) (hc : s.consumer ≠ .opening) :
    s.leaveLoop.CutOff := by
  obtain ⟨-, hd⟩ := hf.parties.resolve_left fun h => hc h.1
  exact StreamState.cutOff_leaveLoop hf.unrecorded fun h => absurd h (by simp [hd])

/-- **An interruption** before the usage is recorded is final. -/
theorem Flowing.cut (hf : s.Flowing ctx) (hi : s.interrupts m = true)
    (h : s.step ctx m = some s') : s'.CutOff := by
  cases m with
  | disconnect | cancel | timeout => cases hi
  | provider a =>
    cases a with
    | chunk content => cases hi
    | finish => cases hi
    | fail =>
      simp only [StreamState.step, hf.going.2] at h
      split at h
      · next hp => cases h; exact hf.cutOff_endProducer (by simp [hp]) _
      · cases h
  | producer =>
    simp only [StreamState.step, hf.going.2, onProducer] at h
    simp only [interrupts] at hi
    split at hi
    · next hp =>
      simp only [hp, hi, if_true] at h
      cases h
      exact hf.cutOff_endProducer (by simp [hp]) _
    · next hp =>
      simp only [hp, hi, if_true] at h
      cases h
      exact hf.cutOff_endProducer (by simp [hp]) _
    · cases hi
  | consumer =>
    obtain ⟨hc, hd⟩ := by simpa [interrupts] using hi
    simp only [StreamState.step, onConsumer, hc, hd, if_true] at h
    cases h
    exact hf.cutOff_leaveLoop (by simp [hc])
  | close =>
    simp only [StreamState.step, onClose] at h
    split at h
    · next hc =>
      cases h
      rcases hf.parties with ⟨-, hp⟩ | ⟨hl, -⟩
      · exact ⟨hf.unrecorded, .inr (.inr ⟨hp, rfl⟩), by simp⟩
      · simp [StreamState.looping, hc] at hl
    · next hc => cases h; exact absurd hf.parties (by simp [StreamState.looping, hc])
    · next hc => cases h; exact hf.cutOff_leaveLoop (by simp [hc])
    · next hc => cases h; exact hf.cutOff_leaveLoop (by simp [hc])
    · next hc => cases h; exact hf.cutOff_leaveLoop (by simp [hc])
    · cases h

/-- The producer of a flowing stream moves on. -/
theorem Flowing.advance (hf : s.Flowing ctx) (hp : s.producer ≠ .absent)
    (hr : s'.recorded = s.recorded) (hg : s'.stop = s.stop ∧ s'.cancelRequested = s.cancelRequested)
    (hc : s'.consumer = s.consumer) (hd : s'.producerDone = false)
    (hq : ∀ item ∈ s'.queue, item ∈ s.queue ∨ ∃ content, item = .token content)
    (hw : s'.producer = .markingFirstChat ∨ s'.producer = .committing →
      ∃ accumulated, s'.written = some (ctx.usageOf accumulated)) : s'.Flowing ctx := by
  obtain ⟨hl, -⟩ := hf.looping hp
  refine ⟨hr.trans hf.unrecorded, ⟨hg.1.trans hf.going.1, hg.2.trans hf.going.2⟩, fun item hi => ?_,
    .inr ⟨?_, hd⟩, hw⟩
  · exact (hq item hi).elim (hf.tokens item) id
  · simpa [StreamState.looping, hc] using hl

/-- The generator of a flowing stream moves on. -/
theorem Flowing.pass (hf : s.Flowing ctx) (hp : s'.producer = s.producer)
    (hw : s'.written = s.written) (hr : s'.recorded = s.recorded)
    (hg : s'.stop = s.stop ∧ s'.cancelRequested = s.cancelRequested)
    (hc : s.consumer ≠ .opening) (hl : s'.looping = true) (hq : ∀ item ∈ s'.queue, item ∈ s.queue) :
    s'.Flowing ctx := by
  obtain ⟨-, hd⟩ := hf.parties.resolve_left fun h => hc h.1
  refine ⟨hr.trans hf.unrecorded, ⟨hg.1.trans hf.going.1, hg.2.trans hf.going.2⟩,
    fun item hi => hf.tokens item (hq item hi), .inr ⟨hl, ?_⟩, ?_⟩
  · simpa [producerDone, hp] using hd
  · rw [hp, hw]
    exact hf.written

theorem Flowing.onProducer (hf : s.Flowing ctx) (hi : s.interrupts .producer = false)
    (h : s.onProducer ctx = some s') : s'.Flowing ctx ∨ s'.Metered ctx := by
  have hold : ∀ item ∈ s.queue, item ∈ s.queue ∨ ∃ content, item = QueueItem.token content :=
    fun _ hm => .inl hm
  have hw : s.producer = .markingFirstChat ∨ s.producer = .committing →
      ∃ accumulated, s.written = some (ctx.usageOf accumulated) := hf.written
  unfold StreamState.onProducer at h
  simp only [interrupts] at hi
  split at h
  · cases h
  · cases h
  · cases h
  · next hp =>
    cases h
    exact .inl (hf.advance (by simp [hp]) rfl ⟨rfl, rfl⟩ rfl rfl hold (by simp))
  · next accumulated chunk hp =>
    simp only [hp] at hi
    rw [if_neg (by simp [hi])] at h
    cases h
    refine .inl (hf.advance (by simp [hp]) rfl ⟨rfl, rfl⟩ rfl rfl (fun item hm => ?_) (by simp))
    rcases List.mem_append.mp hm with hm | hm
    · exact .inl hm
    · exact .inr ⟨chunk, List.mem_singleton.mp hm⟩
  · next accumulated hp =>
    simp only [hp] at hi
    rw [if_neg (by simp [hi])] at h
    cases h
    exact .inl (hf.advance (by simp [hp]) rfl ⟨rfl, rfl⟩ rfl rfl hold (by simp))
  · next accumulated hp =>
    cases h
    exact .inl (hf.advance (by simp [hp]) rfl ⟨rfl, rfl⟩ rfl rfl hold (by simp))
  · next accumulated hp =>
    cases h
    exact .inl (hf.advance (by simp [hp]) rfl ⟨rfl, rfl⟩ rfl rfl hold
      fun _ => ⟨accumulated, rfl⟩)
  · next hp =>
    cases h
    exact .inl (hf.advance (by simp [hp]) rfl ⟨rfl, rfl⟩ rfl rfl hold fun _ => hw (.inl hp))
  -- the commit
  · next hp =>
    cases h
    exact .inr ⟨hw (.inr hp), rfl, opened_of_looping (hf.looping (by simp [hp])).1⟩

theorem Flowing.onConsumer (hf : s.Flowing ctx) (hi : s.interrupts .consumer = false)
    (h : s.onConsumer = some s') : s'.Flowing ctx := by
  have hq : ∀ item ∈ s.queue, item ∈ s.queue := fun _ hm => hm
  unfold StreamState.onConsumer at h
  split at h
  · cases h
    refine ⟨hf.unrecorded, hf.going, hf.tokens, .inr ⟨rfl, rfl⟩, by simp⟩
  · next hc =>
    simp only [interrupts, hc, decide_true, Bool.true_and] at hi
    rw [if_neg (by simp [hi])] at h
    cases h
    exact hf.pass rfl rfl rfl ⟨rfl, rfl⟩ (by simp [hc]) rfl hq
  · next hc =>
    split at h
    · cases h
    · next item rest hrest =>
      cases h
      obtain ⟨content, rfl⟩ := hf.tokens item (by rw [hrest]; exact List.mem_cons_self)
      exact hf.pass rfl rfl rfl ⟨rfl, rfl⟩ (by simp [hc]) rfl
        fun i hm => by rw [hrest]; exact List.mem_cons_of_mem _ hm
  · next last hc =>
    have hl : last = false := by
      have := (hf.parties.resolve_left (by simp [hc])).1
      cases last with
      | false => rfl
      | true => simp [StreamState.looping, hc] at this
    subst hl
    cases h
    exact hf.pass rfl rfl rfl ⟨rfl, rfl⟩ (by simp [hc]) rfl hq
  · next hc => exact absurd hf.parties (by simp [StreamState.looping, hc])
  · cases h

/-- **Any other move** keeps the tokens flowing, or records the usage. -/
theorem Flowing.step (hf : s.Flowing ctx) (hi : s.interrupts m = false)
    (h : s.step ctx m = some s') : s'.Flowing ctx ∨ s'.Metered ctx := by
  cases m with
  | disconnect => cases h; exact .inl ⟨hf.unrecorded, hf.going, hf.tokens, hf.parties, hf.written⟩
  | provider a =>
    simp only [StreamState.step, hf.going.2] at h
    split at h
    · next accumulated hp =>
      have hold : ∀ item ∈ s.queue, item ∈ s.queue ∨ ∃ content, item = QueueItem.token content :=
        fun _ hm => .inl hm
      cases h
      cases a with
      | fail => cases hi
      | chunk content =>
        rw [onProvider, if_neg (by simp [hf.going.1])]
        exact .inl (hf.advance (by simp [hp]) rfl ⟨rfl, rfl⟩ rfl rfl hold (by simp))
      | finish =>
        rw [onProvider, if_neg (by simp [hf.going.1])]
        exact .inl (hf.advance (by simp [hp]) rfl ⟨rfl, rfl⟩ rfl rfl hold (by simp))
    · cases h
  | producer =>
    simp only [StreamState.step, hf.going.2] at h
    exact hf.onProducer hi h
  | cancel => simp [StreamState.step, hf.going.2] at h
  | consumer => exact .inl (hf.onConsumer hi h)
  | timeout =>
    simp only [StreamState.step] at h
    split at h
    · next hc =>
      cases h
      exact .inl (hf.pass rfl rfl rfl ⟨rfl, rfl⟩ (by simp [hc]) rfl fun _ hm => hm)
    · cases h
  | close => cases hi

/-! ## Runs -/

/-- No move interrupts the stream while its usage is not recorded. -/
def Undisturbed (ctx : StreamContext) (s : StreamState) : List StreamMove → Prop
  | [] => True
  | m :: ms => (s.recorded = none → s.interrupts m = false) ∧
      ∀ s', s.step ctx m = some s' → Undisturbed ctx s' ms

theorem flowing_start (ctx : StreamContext) : (start ctx).Flowing ctx :=
  ⟨rfl, ⟨rfl, rfl⟩, fun _ hm => (nomatch hm), .inl ⟨rfl, rfl⟩, by simp [start]⟩

variable {w : StreamState}

theorem Metered.run : ∀ (ms : List StreamMove) {s : StreamState}, s.Metered ctx →
    s.run ctx ms = some w → w.Metered ctx
  | [], _, hm, h => by cases h; exact hm
  | _ :: ms, _, hm, h => by
    obtain ⟨s', hs, hr⟩ := Option.bind_eq_some_iff.mp h
    exact Metered.run ms (hm.step hs) hr

theorem CutOff.run : ∀ (ms : List StreamMove) {s : StreamState}, s.CutOff →
    s.run ctx ms = some w → w.CutOff
  | [], _, hc, h => by cases h; exact hc
  | _ :: ms, _, hc, h => by
    obtain ⟨s', hs, hr⟩ := Option.bind_eq_some_iff.mp h
    exact CutOff.run ms (hc.step hs) hr

/-- A stream whose usage is recorded stays undisturbed. -/
theorem Metered.undisturbed : ∀ (ms : List StreamMove) {s : StreamState}, s.Metered ctx →
    Undisturbed ctx s ms
  | [], _, _ => trivial
  | _ :: ms, _, hm => by
    refine ⟨fun hr => ?_, fun s' hs => Metered.undisturbed ms (hm.step hs)⟩
    obtain ⟨accumulated, hrec⟩ := hm.recorded
    rw [hr] at hrec
    cases hrec

/-- **The phase of a stream** after a run: an undisturbed one flows or is metered, any other one is cut
off. -/
theorem Flowing.run : ∀ (ms : List StreamMove) {s : StreamState}, s.Flowing ctx →
    s.run ctx ms = some w →
      (Undisturbed ctx s ms ∧ (w.Flowing ctx ∨ w.Metered ctx)) ∨ (¬ Undisturbed ctx s ms ∧ w.CutOff)
  | [], _, hf, h => by cases h; exact .inl ⟨trivial, .inl hf⟩
  | m :: ms, s, hf, h => by
    obtain ⟨s', hs, hr⟩ := Option.bind_eq_some_iff.mp h
    by_cases hi : s.interrupts m = true
    · refine .inr ⟨fun hu => ?_, CutOff.run ms (hf.cut hi hs) hr⟩
      rw [hu.1 hf.unrecorded] at hi
      cases hi
    have hi : s.interrupts m = false := by simpa using hi
    have hcons : Undisturbed ctx s (m :: ms) ↔ Undisturbed ctx s' ms :=
      ⟨fun hu => hu.2 s' hs, fun hu => ⟨fun _ => hi, fun s₁ h₁ => by cases hs.symm.trans h₁; exact hu⟩⟩
    rw [hcons]
    rcases hf.step hi hs with hf' | hm
    · exact Flowing.run ms hf' hr
    · exact .inl ⟨hm.undisturbed ms, .inr (hm.run ms hr)⟩

/-- **When a stream is metered**: a generator that has finished has recorded the usage of its stream
exactly if nothing has interrupted the stream before. -/
theorem metered_iff_undisturbed (ctx : StreamContext) (ms : List StreamMove) {w : StreamState}
    (h : (start ctx).run ctx ms = some w) (hfin : w.consumer = .finished) :
    (∃ accumulated, w.recorded = some (ctx.usageOf accumulated)) ↔
      Undisturbed ctx (start ctx) ms := by
  rcases (flowing_start ctx).run ms h with ⟨hu, hf | hm⟩ | ⟨hu, hc⟩
  · exact absurd hf.parties (by simp [StreamState.looping, hfin])
  · exact ⟨fun _ => hu, fun _ => hm.recorded⟩
  · refine ⟨fun ⟨accumulated, hr⟩ => ?_, fun h => absurd h hu⟩
    rw [hc.unrecorded] at hr
    cases hr

/-! ## Two streams -/

/-- A stream of one chunk: the client gets the token, the usage is recorded, and the generator ends. -/
def wholeStream : List StreamMove :=
  [.consumer, .producer, .provider (.chunk "kubectl"), .producer, .consumer, .consumer, .consumer,
    .consumer, .provider .finish, .producer, .producer, .producer, .producer, .producer, .consumer,
    .consumer]

/-- The client gets the token and disconnects; the generator cancels the producer. -/
def brokenStream : List StreamMove :=
  [.consumer, .producer, .provider (.chunk "kubectl"), .producer, .consumer, .consumer, .disconnect,
    .consumer, .consumer, .cancel, .consumer]

/-- A conversation of the user 1. -/
def trialContext : StreamContext := ⟨⟨2, 1, none, "t", "gemini"⟩, "prompt", "gemini", 3⟩

/-- The tokens of a stream are not metered if the client disconnects after them. -/
theorem disconnected_stream_not_metered : ¬ ∀ (ctx : StreamContext) (ms : List StreamMove)
    (w : StreamState), (start ctx).run ctx ms = some w → w.consumer = .finished →
      (∃ content, .token content ∈ w.sent) → w.recorded.isSome = true := by
  intro hall
  have hrun : ((start trialContext).run trialContext brokenStream).any (fun w =>
      w.consumer = .finished && w.sent.contains (.token "kubectl") && w.recorded.isNone) = true := by
    decide
  obtain ⟨w, hw, hp⟩ := (Option.any_eq_true _ _).mp hrun
  simp only [Bool.and_eq_true, decide_eq_true_eq, List.contains_iff_mem,
    Option.isNone_iff_eq_none] at hp
  have := hall trialContext brokenStream w hw hp.1.1 ⟨"kubectl", hp.1.2⟩
  rw [hp.2] at this
  cases this

theorem metered_iff_undisturbed_trial : ∃ w : StreamState,
    (start trialContext).run trialContext wholeStream = some w ∧ w.consumer = .finished ∧
      Undisturbed trialContext (start trialContext) wholeStream := by
  have hrun : ((start trialContext).run trialContext wholeStream).any (fun w =>
      w.consumer = .finished && w.recorded = some (trialContext.usageOf "kubectl")) = true := by
    decide
  obtain ⟨w, hw, hp⟩ := (Option.any_eq_true _ _).mp hrun
  simp only [Bool.and_eq_true, decide_eq_true_eq] at hp
  exact ⟨w, hw, hp.1, (metered_iff_undisturbed trialContext wholeStream hw hp.1).mp ⟨_, hp.2⟩⟩

end StreamState

end DevOps
