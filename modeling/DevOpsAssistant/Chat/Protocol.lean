import DevOpsAssistant.Chat.Metering

/-!
# The protocol of streamed answers

What the client is sent is one conversation event, then tokens and heartbeats, then at most one last
event; a `completed` event comes after the commit of the answer the tokens spell.

* `ChatStream`: a stream with the messages of its database session; `ChatStream.step`,
  `ChatStream.run`.
* `spelled`: the text of the tokens that are sent or queued; `Sequenced`, `Stored`: the invariants.
* `Follows`: what one move does to the queue, the events and the two parties.
* **`conforms_of_run`**: every run keeps to the protocol.
-/

namespace DevOps

/-! ## Streams with their messages -/

/-- A stream, with the answer its transaction has added and the answer it has committed. -/
structure ChatStream extends StreamState where
  added : Option Message
  stored : Option Message

/-- What happens next: a move at some time, or an error of the database. -/
inductive ChatMove where
  | stream (t : Time) (m : StreamMove)
  | databaseError

/-- The message of the answer `content`, created at `t`. -/
def StreamContext.answer (ctx : StreamContext) (content : String) (t : Time) : Message where
  id := ctx.messageId
  conversationId := ctx.conversation.id
  role := .assistant
  content := content
  createdAt := t

namespace ChatStream

/-- The generator has yielded its first event. -/
def start (ctx : StreamContext) : ChatStream where
  toStreamState := .start ctx
  added := none
  stored := none

/-- The messages after a move. -/
def store (ctx : StreamContext) (c : ChatStream) (t : Time) : StreamMove → ChatStream
  | .producer =>
    match c.producer with
    | .addingMessage accumulated => { c with added := some (ctx.answer accumulated t) }
    | .committing => { c with added := none, stored := c.added }
    | _ => c
  | _ => c

/-- The producer waits for the database. -/
def inDatabase (c : ChatStream) : Bool :=
  match c.producer with
  | .addingMessage _ | .recordingUsage _ | .markingFirstChat | .committing => true
  | _ => false

/-- The producer ends with an error. -/
def fail (c : ChatStream) : StreamState :=
  c.endProducer (.error "LLM_STREAM_ERROR" "The AI response could not be completed.")

/-- One move. -/
def step (ctx : StreamContext) (c : ChatStream) : ChatMove → Option ChatStream
  | .stream t m =>
    (c.toStreamState.step ctx m).map fun s => { c.store ctx t m with toStreamState := s }
  | .databaseError =>
    if c.inDatabase && !c.cancelRequested then some { c with toStreamState := c.fail } else none

/-- The state after some moves. -/
def run (ctx : StreamContext) (c : ChatStream) : List ChatMove → Option ChatStream
  | [] => some c
  | m :: ms => (c.step ctx m).bind fun c' => c'.run ctx ms

end ChatStream

/-! ## The protocol -/

/-- The text of a token. -/
def SseEvent.content? : SseEvent → Option String
  | .token content => some content
  | _ => none

/-- A token or a heartbeat. -/
def SseEvent.flowing : SseEvent → Bool
  | .token _ | .heartbeat => true
  | _ => false

/-- The last event of a stream. -/
def SseEvent.terminal : SseEvent → Bool
  | .completed _ _ | .error _ _ => true
  | _ => false

/-- The texts of tokens, one after another. -/
def spell (contents : List String) : String := contents.foldl (· ++ ·) ""

/-- One conversation event, then tokens and heartbeats, then at most one last event. -/
def InOrder (ctx : StreamContext) (events : List SseEvent) : Prop :=
  ∃ mid last, events = .conversation ctx.conversation.id :: (mid ++ last) ∧
    (∀ e ∈ mid, e.flowing = true) ∧ (last = [] ∨ ∃ e, last = [e] ∧ e.terminal = true)

/-- **The protocol**: the events are in order, and after a `completed` event the answer the tokens
spell is committed. -/
structure Conforms (ctx : StreamContext) (c : ChatStream) : Prop where
  order : InOrder ctx c.sent
  completed : ∀ i p, .completed i p ∈ c.sent → ∃ m, c.stored = some m ∧ m.id = i ∧
    m.conversationId = ctx.conversation.id ∧ m.role = .assistant ∧
      m.content = spell (c.sent.filterMap SseEvent.content?)

/-! ## What one move does -/

/-- The event a queued item is sent as. -/
def QueueItem.event? : QueueItem → Option SseEvent
  | .token content => some (.token content)
  | .completed messageId provider => some (.completed messageId provider)
  | .error code message => some (.error code message)
  | .cancelled | .done => none

def QueueItem.content? (item : QueueItem) : Option String := item.event?.bind SseEvent.content?

/-- What the producer has read, while it has it in hand. -/
def ProducerAt.accumulated : ProducerAt → Option String
  | .streaming accumulated | .checkingChunk accumulated _ | .checkingEnd accumulated
  | .addingMessage accumulated | .recordingUsage accumulated => some accumulated
  | .absent | .created => some ""
  | .markingFirstChat | .committing | .finished => none

namespace StreamState

/-- The generator takes no more items. -/
def left (s : StreamState) : Prop :=
  s.consumer = .yielding true ∨ s.consumer = .joining ∨ s.consumer = .finished

/-- What a move of the generator, or of no party, does: nothing, a heartbeat, or an item of the
queue is taken and sent. -/
inductive Pulls (s s' : StreamState) : Prop where
  | idle (sent : s'.sent = s.sent) (queue : s'.queue = s.queue) (left : s.left → s'.left)
  | heartbeat (sent : s'.sent = s.sent ++ [.heartbeat]) (queue : s'.queue = s.queue)
      (going : ¬ s.left)
  | item (item : QueueItem) (sent : s'.sent = s.sent ++ item.event?.toList)
      (queue : s.queue = item :: s'.queue) (going : ¬ s.left)
      (left : item.content? = none → s'.left)

/-- What a move of the producer does: where it stood, what it puts, and where it stands then. -/
inductive Advances (ctx : StreamContext) :
    StreamMove → ProducerAt → List QueueItem → ProducerAt → Prop
  | begin : Advances ctx .producer .created [] (.streaming "")
  | chunk (accumulated content : String) :
      Advances ctx (.provider (.chunk content)) (.streaming accumulated) []
        (.checkingChunk accumulated content)
  | token (accumulated content : String) :
      Advances ctx .producer (.checkingChunk accumulated content) [.token content]
        (.streaming (accumulated ++ content))
  | finish (accumulated : String) :
      Advances ctx (.provider .finish) (.streaming accumulated) [] (.checkingEnd accumulated)
  | answer (accumulated : String) :
      Advances ctx .producer (.checkingEnd accumulated) [] (.addingMessage accumulated)
  | add (accumulated : String) :
      Advances ctx .producer (.addingMessage accumulated) [] (.recordingUsage accumulated)
  | record (accumulated : String) :
      Advances ctx .producer (.recordingUsage accumulated) [] .markingFirstChat
  | mark : Advances ctx .producer .markingFirstChat [] .committing
  | commit : Advances ctx .producer .committing
      [.completed ctx.messageId ctx.providerName, .done] .finished
  | drop {m : StreamMove} : Advances ctx m .created [] .finished
  | fail {m : StreamMove} {p : ProducerAt} {item : QueueItem}
      (hm : m = .producer → p ≠ .committing ∧ ∀ accumulated, p ≠ .addingMessage accumulated)
      (hp : p ≠ .absent ∧ p ≠ .finished) (hi : item = .cancelled ∨ ∃ c msg, item = .error c msg) :
      Advances ctx m p [item, .done] .finished

variable {ctx : StreamContext} {s s' : StreamState} {m : StreamMove}

/-- The generator goes on, and the producer is left alone or created. -/
structure ConsumerMoves (s s' : StreamState) : Prop where
  pulls : Pulls s s'
  producer : s'.producer = s.producer ∨ (s.producer = .absent ∧ s'.producer = .created)
  opened : s'.consumer = .opening → s'.producer = .absent

/-- The producer goes on, and the generator is left alone. -/
structure ProducerMoves (ctx : StreamContext) (m : StreamMove) (s s' : StreamState) : Prop where
  sent : s'.sent = s.sent
  consumer : s'.consumer = s.consumer
  advances : ∃ items, s'.queue = s.queue ++ items ∧ Advances ctx m s.producer items s'.producer

/-! ### The generator -/

theorem leaveLoop_left (s : StreamState) : s.leaveLoop.left := by
  unfold leaveLoop
  split
  · exact .inr (.inr rfl)
  · exact .inr (.inl rfl)

theorem leaveLoop_sent (s : StreamState) : s.leaveLoop.sent = s.sent := by
  unfold leaveLoop
  split <;> rfl

theorem leaveLoop_queue (s : StreamState) : s.leaveLoop.queue = s.queue := by
  unfold leaveLoop
  split <;> rfl

theorem pulls_leaveLoop (s : StreamState) : Pulls s s.leaveLoop :=
  .idle s.leaveLoop_sent s.leaveLoop_queue fun _ => s.leaveLoop_left

/-- The item at the head of the queue is taken. -/
theorem pulls_onItem {item : QueueItem} {rest : List QueueItem} (hw : s.consumer = .waiting)
    (hq : s.queue = item :: rest) : Pulls s ({ s with queue := rest }.onItem item) := by
  have hgoing : ¬ s.left := by simp [left, hw]
  refine .item item ?_ ?_ hgoing ?_
  · cases item with
    | cancelled | done => exact (leaveLoop_sent _).trans (List.append_nil _).symm
    | _ => rfl
  · cases item with
    | cancelled | done =>
      rw [hq, onItem, leaveLoop_queue]
    | _ => exact hq
  · cases item with
    | token content => exact fun h => by cases h
    | cancelled | done => exact fun _ => leaveLoop_left _
    | _ => exact fun _ => .inl rfl

theorem pulls_onConsumer (h : s.onConsumer = some s') : Pulls s s' := by
  unfold onConsumer at h
  split at h
  · next hc =>
    cases h
    exact .idle rfl rfl fun hl => by simp [left, hc] at hl
  · next hc =>
    cases h
    split
    · exact pulls_leaveLoop s
    · exact .idle rfl rfl fun hl => by simp [left, hc] at hl
  · next hc =>
    split at h
    · cases h
    · next hq => cases h; exact pulls_onItem hc hq
  · next last hc =>
    cases h
    split
    · exact pulls_leaveLoop s
    · next hlast => exact .idle rfl rfl fun hl => by simp [left, hc, hlast] at hl
  · split at h <;> cases h
    exact .idle rfl rfl fun _ => .inr (.inr rfl)
  · cases h

theorem pulls_onClose (h : s.onClose = some s') : Pulls s s' := by
  unfold onClose at h
  split at h <;> cases h
  · exact .idle rfl rfl fun _ => .inr (.inr rfl)
  · exact .idle rfl rfl fun _ => .inr (.inr rfl)
  · exact pulls_leaveLoop s
  · exact pulls_leaveLoop s
  · exact pulls_leaveLoop s

theorem ConsumerMoves.of_beside (hp : Pulls s s') (hb : Beside s s') : ConsumerMoves s s' :=
  ⟨hp, .inl hb.producer, fun ho => absurd ho hb.opened⟩

theorem consumerMoves_onConsumer (ho : s.consumer = .opening → s.producer = .absent)
    (h : s.onConsumer = some s') : ConsumerMoves s s' := by
  by_cases hc : s.consumer = .opening
  · have hs' : s' = { s with producer := .created, consumer := .checking } := by
      simpa [onConsumer, hc] using h.symm
    subst hs'
    exact ⟨pulls_onConsumer h, .inr ⟨ho hc, rfl⟩, fun h => by cases h⟩
  · exact .of_beside (pulls_onConsumer h) (beside_onConsumer hc h)

/-! ### The producer -/

theorem producerMoves_onProducer (h : s.onProducer ctx = some s') :
    ProducerMoves ctx .producer s s' := by
  unfold onProducer at h
  split at h
  · cases h
  · cases h
  · cases h
  · next hp => cases h; exact ⟨rfl, rfl, [], (List.append_nil _).symm, hp ▸ .begin⟩
  · next hp =>
    split at h <;> cases h
    · exact ⟨rfl, rfl, _, rfl, .fail (by simp [hp]) (by simp [hp]) (.inl rfl)⟩
    · exact ⟨rfl, rfl, _, rfl, hp ▸ .token _ _⟩
  · next hp =>
    split at h <;> cases h
    · exact ⟨rfl, rfl, _, rfl, .fail (by simp [hp]) (by simp [hp]) (.inl rfl)⟩
    · exact ⟨rfl, rfl, [], (List.append_nil _).symm, hp ▸ .answer _⟩
  · next hp => cases h; exact ⟨rfl, rfl, [], (List.append_nil _).symm, hp ▸ .add _⟩
  · next hp => cases h; exact ⟨rfl, rfl, [], (List.append_nil _).symm, hp ▸ .record _⟩
  · next hp => cases h; exact ⟨rfl, rfl, [], (List.append_nil _).symm, hp ▸ .mark⟩
  · next hp => cases h; exact ⟨rfl, rfl, _, rfl, hp ▸ .commit⟩

theorem producerMoves_onProvider {accumulated : String} {a : ProviderAnswer}
    (hp : s.producer = .streaming accumulated) :
    ProducerMoves ctx (.provider a) s (s.onProvider accumulated a) := by
  have hactive : s.producer ≠ .absent ∧ s.producer ≠ .finished := by simp [hp]
  cases a with
  | chunk content =>
    simp only [onProvider]
    split
    · exact ⟨rfl, rfl, _, rfl, .fail (fun h => by cases h) hactive (.inl rfl)⟩
    · exact ⟨rfl, rfl, [], (List.append_nil _).symm, hp ▸ .chunk _ _⟩
  | finish =>
    simp only [onProvider]
    split
    · exact ⟨rfl, rfl, _, rfl, .fail (fun h => by cases h) hactive (.inl rfl)⟩
    · exact ⟨rfl, rfl, [], (List.append_nil _).symm, hp ▸ .finish _⟩
  | fail => exact ⟨rfl, rfl, _, rfl, .fail (fun h => by cases h) hactive (.inr ⟨_, _, rfl⟩)⟩

theorem producerMoves_onCancel (h : s.onCancel = some s') : ProducerMoves ctx .cancel s s' := by
  unfold onCancel at h
  split at h
  · cases h
  · cases h
  · next hp => cases h; exact ⟨rfl, rfl, [], (List.append_nil _).symm, hp ▸ .drop⟩
  · next ha hf _ => cases h; exact ⟨rfl, rfl, _, rfl, .fail (nomatch ·) ⟨ha, hf⟩ (.inl rfl)⟩

/-- **What one move does**: it moves the generator or the producer. -/
theorem step_cases (ho : s.consumer = .opening → s.producer = .absent)
    (h : s.step ctx m = some s') :
    (m ≠ .producer ∧ ConsumerMoves s s') ∨ ProducerMoves ctx m s s' := by
  cases m with
  | disconnect =>
    cases h
    exact .inl ⟨(fun h => by cases h), .idle rfl rfl id, .inl rfl, ho⟩
  | provider a =>
    simp only [step] at h
    split at h
    · next hp =>
      split at h <;> cases h
      exact .inr (producerMoves_onProvider hp)
    · cases h
  | producer =>
    simp only [step] at h
    split at h
    · cases h
    · exact .inr (producerMoves_onProducer h)
  | cancel =>
    simp only [step] at h
    split at h
    · exact .inr (producerMoves_onCancel h)
    · cases h
  | consumer => exact .inl ⟨(fun h => by cases h), consumerMoves_onConsumer ho h⟩
  | timeout =>
    simp only [step] at h
    split at h
    · next hc =>
      cases h
      exact .inl ⟨(fun h => by cases h), .heartbeat rfl rfl (by simp [left, hc]), .inl rfl,
        fun h => by cases h⟩
    · cases h
  | close => exact .inl ⟨(fun h => by cases h), .of_beside (pulls_onClose h) (beside_onClose h)⟩

/-! ### What is sent and queued -/

/-- The text of the tokens that are sent or queued. -/
def spelled (s : StreamState) : String :=
  spell (s.sent.filterMap SseEvent.content? ++ s.queue.filterMap QueueItem.content?)

/-- A `completed` event is sent or queued. -/
def completes (s : StreamState) (i : UUID) (p : String) : Prop :=
  .completed i p ∈ s.sent ∨ .completed i p ∈ s.queue

/-- What the generator takes, it sends. -/
theorem Pulls.spelled_eq (h : Pulls s s') : s'.spelled = s.spelled := by
  unfold spelled
  cases h with
  | idle sent queue left => rw [sent, queue]
  | heartbeat sent queue going =>
    rw [sent, queue, List.filterMap_append]
    simp [List.filterMap_cons, SseEvent.content?]
  | item item sent queue going left =>
    rw [sent, queue, List.filterMap_append, List.filterMap_cons]
    cases item <;>
      simp [List.filterMap_cons, QueueItem.content?, QueueItem.event?, SseEvent.content?]

theorem Pulls.completes (h : Pulls s s') {i : UUID} {p : String} (hc : s'.completes i p) :
    s.completes i p := by
  cases h with
  | idle sent queue left => rwa [StreamState.completes, ← sent, ← queue]
  | heartbeat sent queue going =>
    rw [StreamState.completes, sent, queue] at hc
    simpa [StreamState.completes] using hc
  | item item sent queue going left =>
    rw [StreamState.completes, sent] at hc
    rw [StreamState.completes, queue]
    cases item <;> simp_all [QueueItem.event?, or_assoc]

/-- An item without a text is sent as the last event, or as none. -/
theorem event_of_content {item : QueueItem} (h : item.content? = none) :
    item.event?.toList = [] ∨ ∃ e, item.event?.toList = [e] ∧ e.terminal = true := by
  cases item with
  | token content => cases h
  | completed messageId provider | error code message => exact .inr ⟨_, rfl, rfl⟩
  | cancelled | done => exact .inl rfl

theorem event_of_token {item : QueueItem} {content : String} (h : item.content? = some content) :
    item.event?.toList = [.token content] := by
  cases item with
  | token c => cases h; rfl
  | _ => cases h

/-- **The events are in order**, and the items that are no tokens are at the end of the queue. -/
structure Sequenced (ctx : StreamContext) (s : StreamState) : Prop where
  opened : s.consumer = .opening → s.producer = .absent
  sent : ∃ mid last, s.sent = .conversation ctx.conversation.id :: (mid ++ last) ∧
    (∀ e ∈ mid, e.flowing = true) ∧ (last = [] ∨ (∃ e, last = [e] ∧ e.terminal = true) ∧ s.left)
  queue : ∃ tokens rest, s.queue = tokens ++ rest ∧ (∀ item ∈ tokens, item.content?.isSome = true) ∧
    (∀ item ∈ rest, item.content? = none) ∧ (s.producer ≠ .finished → rest = [])

theorem sequenced_start (ctx : StreamContext) : (start ctx).Sequenced ctx :=
  ⟨fun _ => rfl, ⟨[], [], rfl, by simp, .inl rfl⟩, ⟨[], [], rfl, by simp, by simp, fun _ => rfl⟩⟩

theorem Sequenced.inOrder (h : s.Sequenced ctx) : InOrder ctx s.sent := by
  obtain ⟨mid, last, hs, hm, hl⟩ := h.sent
  exact ⟨mid, last, hs, hm, hl.imp_right And.left⟩

/-- A stream whose generator still takes items has sent no last event. -/
theorem Sequenced.going (h : s.Sequenced ctx) (hl : ¬ s.left) : ∃ mid,
    s.sent = .conversation ctx.conversation.id :: mid ∧ ∀ e ∈ mid, e.flowing = true := by
  obtain ⟨mid, last, hs, hm, rfl | ⟨-, hleft⟩⟩ := h.sent
  · exact ⟨mid, by simpa using hs, hm⟩
  · exact absurd hleft hl

/-- The head of the queue is a token, or there are no tokens. -/
theorem Sequenced.head (h : s.Sequenced ctx) {item : QueueItem} {rest : List QueueItem}
    (hq : s.queue = item :: rest) (hi : item.content? = none) : ∀ x ∈ rest, x.content? = none := by
  obtain ⟨tokens, tail, hq', ht, hr, -⟩ := h.queue
  rw [hq] at hq'
  cases tokens with
  | nil =>
    intro x hx
    exact hr x (by rw [← List.nil_append tail, ← hq']; exact List.mem_cons_of_mem _ hx)
  | cons t ts =>
    cases hq'
    exact absurd (ht item List.mem_cons_self) (by simp [hi])

theorem Sequenced.pulls_sent (h : s.Sequenced ctx) (hp : Pulls s s') :
    ∃ mid last, s'.sent = .conversation ctx.conversation.id :: (mid ++ last) ∧
      (∀ e ∈ mid, e.flowing = true) ∧
        (last = [] ∨ (∃ e, last = [e] ∧ e.terminal = true) ∧ s'.left) := by
  cases hp with
  | idle sent queue left =>
    obtain ⟨mid, last, hs, hm, hl⟩ := h.sent
    exact ⟨mid, last, sent.trans hs, hm, hl.imp_right fun ⟨he, hleft⟩ => ⟨he, left hleft⟩⟩
  | heartbeat sent queue going =>
    obtain ⟨mid, hs, hm⟩ := h.going going
    refine ⟨mid ++ [.heartbeat], [], by rw [sent, hs]; simp, fun e he => ?_, .inl rfl⟩
    rcases List.mem_append.mp he with he | he
    · exact hm e he
    · cases List.mem_singleton.mp he
      rfl
  | item item sent queue going left =>
    obtain ⟨mid, hs, hm⟩ := h.going going
    cases hi : item.content? with
    | none =>
      refine ⟨mid, item.event?.toList, by rw [sent, hs]; rfl, hm, ?_⟩
      exact (event_of_content hi).imp_right fun he => ⟨he, left hi⟩
    | some content =>
      refine ⟨mid ++ [.token content], [], ?_, fun e he => ?_, .inl rfl⟩
      · rw [sent, hs, event_of_token hi]
        simp
      rcases List.mem_append.mp he with he | he
      · exact hm e he
      · cases List.mem_singleton.mp he
        rfl

theorem Sequenced.pulls_queue (h : s.Sequenced ctx) (hp : Pulls s s') :
    ∃ tokens rest, s'.queue = tokens ++ rest ∧ (∀ item ∈ tokens, item.content?.isSome = true) ∧
      (∀ item ∈ rest, item.content? = none) ∧ (s.producer ≠ .finished → rest = []) := by
  cases hp with
  | idle sent queue left => exact queue ▸ h.queue
  | heartbeat sent queue going => exact queue ▸ h.queue
  | item item sent queue going left =>
    obtain ⟨tokens, rest, hq, ht, hr, hf⟩ := h.queue
    rw [queue] at hq
    cases tokens with
    | nil =>
      rw [List.nil_append] at hq
      subst hq
      exact ⟨[], s'.queue, rfl, by simp, fun y hy => hr y (List.mem_cons_of_mem _ hy),
        fun hne => nomatch hf hne⟩
    | cons t ts =>
      rw [List.cons_append, List.cons.injEq] at hq
      exact ⟨ts, rest, hq.2, fun y hy => ht y (List.mem_cons_of_mem _ hy), hr, hf⟩

/-- The items a move of the producer puts: tokens, or the last ones. -/
theorem Advances.items {p p' : ProducerAt} {items : List QueueItem}
    (h : Advances ctx m p items p') : (p' = .finished ∧ ∀ item ∈ items, item.content? = none) ∨
      (p' ≠ .finished ∧ ∀ item ∈ items, item.content?.isSome = true) := by
  cases h with
  | commit =>
    refine .inl ⟨rfl, fun item hi => ?_⟩
    rcases List.mem_cons.mp hi with rfl | hi
    · rfl
    · cases List.mem_singleton.mp hi
      rfl
  | drop => exact .inl ⟨rfl, by simp⟩
  | fail hm hp hi =>
    refine .inl ⟨rfl, fun item hitem => ?_⟩
    rcases List.mem_cons.mp hitem with rfl | hitem
    · rcases hi with rfl | ⟨_, _, rfl⟩ <;> rfl
    · cases List.mem_singleton.mp hitem
      rfl
  | token accumulated content =>
    refine .inr ⟨by simp, fun item hi => ?_⟩
    cases List.mem_singleton.mp hi
    rfl
  | _ => exact .inr ⟨by simp, by simp⟩

theorem Advances.active {p p' : ProducerAt} {items : List QueueItem}
    (h : Advances ctx m p items p') : p ≠ .absent ∧ p ≠ .finished := by
  cases h with
  | fail hm hp hi => exact hp
  | _ => exact ⟨by simp, by simp⟩

/-- **The order of events and items is kept** by every move. -/
theorem Sequenced.step (h : s.Sequenced ctx)
    (hmove : ConsumerMoves s s' ∨ ProducerMoves ctx m s s') : s'.Sequenced ctx := by
  rcases hmove with hmove | hmove
  · obtain ⟨tokens, rest, hq, ht, hr, hf⟩ := h.pulls_queue hmove.pulls
    refine ⟨hmove.opened, h.pulls_sent hmove.pulls, tokens, rest, hq, ht, hr, fun hne => hf ?_⟩
    rcases hmove.producer with hp | ⟨hp, -⟩
    · rwa [← hp]
    · simp [hp]
  · obtain ⟨items, hq, hadv⟩ := hmove.advances
    obtain ⟨mid, last, hs, hm, hl⟩ := h.sent
    obtain ⟨tokens, rest, hq', ht, hr, hf⟩ := h.queue
    obtain rfl := hf hadv.active.2
    have hleft : s.left → s'.left := fun hl => by rwa [left, hmove.consumer]
    refine ⟨fun ho => absurd (h.opened (hmove.consumer ▸ ho)) hadv.active.1, ⟨mid, last,
      hmove.sent.trans hs, hm, hl.imp_right fun ⟨he, hl⟩ => ⟨he, hleft hl⟩⟩, ?_⟩
    rw [hq', List.append_nil] at hq
    rcases hadv.items with ⟨hfin, hi⟩ | ⟨hfin, hi⟩
    · exact ⟨tokens, items, hq, ht, hi, fun hne => absurd hfin hne⟩
    · refine ⟨tokens ++ items, [], by simpa using hq, fun item hitem => ?_, by simp, fun _ => rfl⟩
      exact (List.mem_append.mp hitem).elim (ht item) (hi item)

/-- A stream whose generator still takes items has not completed. -/
theorem Sequenced.not_completed (h : s.Sequenced ctx) (hl : ¬ s.left) (i : UUID) (p : String) :
    SseEvent.completed i p ∉ s.sent := by
  obtain ⟨mid, hs, hm⟩ := h.going hl
  rw [hs]
  intro hc
  rcases List.mem_cons.mp hc with hc | hc
  · cases hc
  · exact absurd (hm _ hc) (by simp [SseEvent.flowing])

theorem spelled_put (hs : s'.sent = s.sent) {items : List QueueItem}
    (hq : s'.queue = s.queue ++ items) (hi : ∀ item ∈ items, item.content? = none) : s'.spelled = s.spelled := by
  have hnone : items.filterMap QueueItem.content? = [] := List.filterMap_eq_nil_iff.mpr hi
  rw [spelled, hs, hq, List.filterMap_append, hnone, List.append_nil, spelled]

theorem spelled_token (hs : s'.sent = s.sent) {content : String}
    (hq : s'.queue = s.queue ++ [.token content]) : s'.spelled = s.spelled ++ content := by
  rw [spelled, hs, hq, List.filterMap_append, ← List.append_assoc]
  exact List.foldl_append

end StreamState

/-! ## The answer -/

/-- The transaction of the producer has the answer. -/
def ProducerAt.answered : ProducerAt → Bool
  | .recordingUsage _ | .markingFirstChat | .committing => true
  | _ => false

/-- **The answer is what is sent and queued**: in the hands of the producer, in its transaction, and
in the database once it has completed. -/
structure Agrees (ctx : StreamContext) (c : ChatStream) : Prop where
  flow : ∀ a, c.producer.accumulated = some a → c.spelled = a
  added : c.producer.answered = true → ∃ t, c.added = some (ctx.answer c.spelled t)
  completes : ∀ i p, c.completes i p →
    c.producer = .finished ∧ i = ctx.messageId ∧ ∃ t, c.stored = some (ctx.answer c.spelled t)
  last : ∀ i p, .completed i p ∈ c.sent → ∀ item ∈ c.queue, item.content? = none

section Agreement

open StreamState

variable {ctx : StreamContext} {c : ChatStream} {s' : StreamState} {m : StreamMove}

theorem agrees_start (ctx : StreamContext) : Agrees ctx (.start ctx) where
  flow a h := by cases h; rfl
  added h := nomatch h
  completes i p h := by simp [StreamState.completes, ChatStream.start, StreamState.start] at h
  last i p h := by simp [ChatStream.start, StreamState.start] at h

theorem Agrees.consumer (h : Agrees ctx c) (hseq : c.Sequenced ctx)
    (hmove : ConsumerMoves c.toStreamState s') : Agrees ctx { c with toStreamState := s' } := by
  have hspelled := hmove.pulls.spelled_eq
  refine ⟨fun a ha => ?_, fun ha => ?_, fun i p hc => ?_, fun i p hc => ?_⟩
  · rw [hspelled]
    refine h.flow a (ha ▸ ?_)
    rcases hmove.producer with hp | ⟨hp, hp'⟩
    · exact congrArg _ hp.symm
    · rw [hp, hp']
      rfl
  · rcases hmove.producer with hp | ⟨-, hp'⟩
    · rw [hspelled]
      exact h.added (hp ▸ ha)
    · rw [hp'] at ha
      cases ha
  · obtain ⟨hfin, hi, hstored⟩ := h.completes i p (hmove.pulls.completes hc)
    refine ⟨?_, hi, hspelled ▸ hstored⟩
    rcases hmove.producer with hp | ⟨hp, -⟩
    · exact hp.trans hfin
    · rw [hp] at hfin
      cases hfin
  · cases hmove.pulls with
    | idle sent queue left => exact queue ▸ h.last i p (sent ▸ hc)
    | heartbeat sent queue going =>
      rw [sent] at hc
      simp only [List.mem_append, List.mem_singleton, reduceCtorEq, or_false] at hc
      exact queue ▸ h.last i p hc
    | item item sent queue going left =>
      rw [sent] at hc
      rcases List.mem_append.mp hc with hc | hc
      · exact absurd hc (hseq.not_completed going i p)
      · refine hseq.head queue ?_
        cases item <;> simp_all [QueueItem.event?, QueueItem.content?, SseEvent.content?]

/-- While the producer is there, nothing has completed. -/
theorem Agrees.not_completes (h : Agrees ctx c) (hp : c.producer ≠ .finished) (i : UUID)
    (p : String) : ¬ c.completes i p := fun hc => hp (h.completes i p hc).1

/-- A move of the producer that completes nothing. -/
theorem Agrees.put (h : Agrees ctx c) (hne : c.producer ≠ .finished) (hs : s'.sent = c.sent)
    {items : List QueueItem} (hq : s'.queue = c.queue ++ items)
    (hi : ∀ i p, QueueItem.completed i p ∉ items) {added stored : Option Message}
    (hflow : ∀ a, s'.producer.accumulated = some a → s'.spelled = a)
    (hadded : s'.producer.answered = true → ∃ t, added = some (ctx.answer s'.spelled t)) :
    Agrees ctx ⟨s', added, stored⟩ := by
  refine ⟨hflow, hadded, fun i p hc => ?_, fun i p hc => ?_⟩
  · rcases hc with hc | hc
    · exact absurd (.inl (hs ▸ hc)) (h.not_completes hne i p)
    · rcases List.mem_append.mp (hq ▸ hc) with hc | hc
      · exact absurd (.inr hc) (h.not_completes hne i p)
      · exact absurd hc (hi i p)
  · exact absurd (.inl (hs ▸ hc)) (h.not_completes hne i p)

theorem Agrees.producer (h : Agrees ctx c) (hmove : ProducerMoves ctx m c.toStreamState s')
    (t : Time) : Agrees ctx { c.store ctx t m with toStreamState := s' } := by
  obtain ⟨hs, -, items, hq, hadv⟩ := hmove
  have hne := hadv.active.2
  have hput : (∀ item ∈ items, item.content? = none) → s'.spelled = c.spelled :=
    fun hi => spelled_put hs hq hi
  generalize hp : c.producer = p at hadv
  generalize hp' : s'.producer = p' at hadv
  cases hadv with
  | begin =>
    refine h.put hne hs hq (by simp) (fun a ha => ?_) fun ha => by rw [hp'] at ha; cases ha
    rw [hput (by simp)]
    rw [hp'] at ha
    exact h.flow a (by rw [hp]; exact ha)
  | chunk accumulated content | finish accumulated | answer accumulated =>
    refine h.put hne hs hq (by simp) (fun a ha => ?_) fun ha => by rw [hp'] at ha; cases ha
    rw [hput (by simp)]
    rw [hp'] at ha
    exact h.flow a (by rw [hp]; exact ha)
  | token accumulated content =>
    refine h.put hne hs hq (by simp) (fun a ha => ?_) fun ha => by rw [hp'] at ha; cases ha
    rw [hp'] at ha
    cases ha
    rw [spelled_token hs hq, h.flow accumulated (by rw [hp]; rfl)]
  | add accumulated =>
    have hspelled := hput (by simp)
    have hflow := h.flow accumulated (by rw [hp]; rfl)
    refine h.put hne hs hq (by simp) (fun a ha => ?_) fun _ => ⟨t, ?_⟩
    · rw [hp'] at ha
      cases ha
      rw [hspelled, hflow]
    · simp only [ChatStream.store, hp, hspelled, hflow]
  | record accumulated | mark =>
    refine h.put hne hs hq (by simp) (fun a ha => by rw [hp'] at ha; cases ha) fun _ => ?_
    simp only [ChatStream.store, hp, hput (by simp)]
    exact h.added (by rw [hp]; rfl)
  | commit =>
    obtain ⟨t', hadded⟩ := h.added (by rw [hp]; rfl)
    have hspelled := hput fun item hi => by
      rcases List.mem_cons.mp hi with rfl | hi
      · rfl
      · cases List.mem_singleton.mp hi; rfl
    have hflow : s'.producer.accumulated = none ∧ s'.producer.answered = false := by
      rw [hp']
      exact ⟨rfl, rfl⟩
    refine ⟨fun a ha => by simp [hflow.1] at ha, fun ha => by simp [hflow.2] at ha,
      fun i p hc => ⟨hp', ?_, t', ?_⟩, fun i p hc => ?_⟩
    · rcases hc with hc | hc
      · exact absurd (.inl (hs ▸ hc)) (h.not_completes hne i p)
      · rcases List.mem_append.mp (hq ▸ hc) with hc | hc
        · exact absurd (.inr hc) (h.not_completes hne i p)
        · simp only [List.mem_cons, List.not_mem_nil, reduceCtorEq, or_false,
            QueueItem.completed.injEq] at hc
          exact hc.1
    · simp only [ChatStream.store, hp, hadded, hspelled]
    · exact absurd (.inl (hs ▸ hc)) (h.not_completes hne i p)
  | drop =>
    exact h.put hne hs hq (by simp) (fun a ha => by rw [hp'] at ha; cases ha)
      fun ha => by rw [hp'] at ha; cases ha
  | fail hm hactive hi =>
    refine h.put hne hs hq (fun i p hc => ?_) (fun a ha => by rw [hp'] at ha; cases ha)
      fun ha => by rw [hp'] at ha; cases ha
    rcases hi with rfl | ⟨_, _, rfl⟩ <;> simp at hc

/-! ## Runs -/

/-- The events are in order, and the answer is what is sent and queued. -/
structure StreamKept (ctx : StreamContext) (c : ChatStream) : Prop where
  sequenced : c.Sequenced ctx
  agrees : Agrees ctx c

theorem StreamKept.step (h : StreamKept ctx c) {m : ChatMove} {c' : ChatStream}
    (hc : c.step ctx m = some c') : StreamKept ctx c' := by
  cases m with
  | stream t m =>
    obtain ⟨s', hs, rfl⟩ := Option.map_eq_some_iff.mp hc
    rcases step_cases h.sequenced.opened hs with ⟨hm, hmove⟩ | hmove
    · have hstore : c.store ctx t m = c := by
        cases m with
        | producer => exact absurd rfl hm
        | _ => rfl
      exact ⟨h.sequenced.step (m := m) (.inl hmove),
        hstore.symm ▸ h.agrees.consumer h.sequenced hmove⟩
    · exact ⟨h.sequenced.step (.inr hmove), h.agrees.producer hmove t⟩
  | databaseError =>
    simp only [ChatStream.step] at hc
    split at hc
    · next hd =>
      cases hc
      have hactive : c.producer ≠ .absent ∧ c.producer ≠ .finished := by
        constructor <;> intro hp <;> simp [ChatStream.inDatabase, hp] at hd
      have hmove : ProducerMoves ctx .cancel c.toStreamState c.fail :=
        ⟨rfl, rfl, _, rfl, .fail nofun hactive (.inr ⟨_, _, rfl⟩)⟩
      exact ⟨h.sequenced.step (.inr hmove), h.agrees.producer hmove 0⟩
    · cases hc

theorem StreamKept.run (h : StreamKept ctx c) : ∀ (ms : List ChatMove) {c' : ChatStream},
    c.run ctx ms = some c' → StreamKept ctx c' := by
  intro ms
  induction ms generalizing c with
  | nil =>
    intro c' hr
    cases hr
    exact h
  | cons m ms ih =>
    intro c' hr
    obtain ⟨c₁, hstep, hr⟩ := Option.bind_eq_some_iff.mp hr
    exact ih (h.step hstep) hr

theorem StreamKept.conforms (h : StreamKept ctx c) : Conforms ctx c := by
  refine ⟨h.sequenced.inOrder, fun i p hc => ?_⟩
  obtain ⟨-, hi, t, hstored⟩ := h.agrees.completes i p (.inl hc)
  have hnone : c.queue.filterMap QueueItem.content? = [] :=
    List.filterMap_eq_nil_iff.mpr (h.agrees.last i p hc)
  refine ⟨_, hstored, hi.symm, rfl, rfl, ?_⟩
  rw [StreamContext.answer, spelled, hnone, List.append_nil]

/-- **Every run keeps to the protocol**: the events are one conversation event, then tokens and
heartbeats, then at most one last event, and if a `completed` event was sent, the answer the tokens
spell is committed. -/
theorem conforms_of_run (ctx : StreamContext) (ms : List ChatMove) {c : ChatStream}
    (h : (ChatStream.start ctx).run ctx ms = some c) : Conforms ctx c :=
  StreamKept.conforms (StreamKept.run ⟨sequenced_start ctx, agrees_start ctx⟩ ms h)

end Agreement

/-- A chat about nothing. -/
def StreamContext.trial : StreamContext := ⟨⟨1, 2, none, "t", "p"⟩, "q", "gemini", 5⟩

/-- Two tokens with a heartbeat between them, and the last event. -/
def ChatStream.trialMoves : List ChatMove :=
  [.consumer, .consumer, .producer, .provider (.chunk "a"), .producer, .consumer, .consumer,
    .consumer, .timeout, .consumer, .provider (.chunk "b"), .producer, .provider .finish, .producer,
    .producer, .producer, .producer, .producer, .consumer, .consumer, .consumer, .consumer,
    .consumer].map (.stream 7)

theorem conforms_of_run_trial : ∃ c, (ChatStream.start .trial).run .trial ChatStream.trialMoves =
    some c ∧ c.sent = [.conversation 1, .token "a", .heartbeat, .token "b", .completed 5 "gemini"] ∧
      Conforms .trial c :=
  ⟨_, rfl, rfl, conforms_of_run .trial ChatStream.trialMoves rfl⟩

end DevOps
