import DevOpsAssistant.Models.Organizations
import DevOpsAssistant.Models.Work

/-!
# Streamed answers

`ChatService.iter_stream_events`: a producer task reads the provider and puts events into a queue, the
generator takes them out and yields them to the client. Each is suspended at an `await` or a `yield`;
a move takes one of them to its next suspension.

* `StreamContext`: the arguments of the generator.
* `ProducerAt`, `ConsumerAt`, `StreamState`: where the two stand.
* `StreamState.step`, `StreamState.run`: the moves.
-/

namespace DevOps

/-- What `iter_stream_events` is given; `messageId` is the id the answer gets when it is stored. -/
structure StreamContext where
  conversation : Conversation
  prompt : String
  providerName : String
  messageId : UUID

/-- The usage of a stream whose answer is `accumulated`. -/
def StreamContext.usageOf (ctx : StreamContext) (accumulated : String) : LlmUsage where
  userId := ctx.conversation.userId
  organizationId := ctx.conversation.organizationId
  operation := LLMOperation.chat.value
  provider := ctx.providerName
  model := none
  inputTokens := max 1 (ctx.prompt.length / 4)
  outputTokens := max 1 (accumulated.length / 4)
  isEstimated := true

/-- What the client is sent. -/
inductive SseEvent where
  | conversation (conversationId : UUID)
  | heartbeat
  | token (content : String)
  | completed (messageId : UUID) (provider : String)
  | error (code message : String)
deriving DecidableEq

/-- What the producer puts into the queue. -/
inductive QueueItem where
  | token (content : String)
  | completed (messageId : UUID) (provider : String)
  | error (code message : String)
  | cancelled
  | done

/-- Where `produce_tokens` is suspended. -/
inductive ProducerAt where
  /-- There is no task yet. -/
  | absent
  /-- The task has not run yet. -/
  | created
  /-- It waits for the next chunk of the provider. -/
  | streaming (accumulated : String)
  /-- It asks whether the client has disconnected, with a chunk in hand. -/
  | checkingChunk (accumulated chunk : String)
  /-- It asks whether the client has disconnected, after the last chunk. -/
  | checkingEnd (accumulated : String)
  | addingMessage (accumulated : String)
  | recordingUsage (accumulated : String)
  | markingFirstChat
  | committing
  | finished

/-- Where the generator is suspended. -/
inductive ConsumerAt where
  /-- At its first `yield`, before there is a producer. -/
  | opening
  /-- It asks whether the client has disconnected. -/
  | checking
  /-- It waits for the queue. -/
  | waiting
  /-- At a `yield` of the loop; `last` if it leaves the loop afterwards. -/
  | yielding (last : Bool)
  /-- In the `finally` block, it waits for the cancelled producer. -/
  | joining
  | finished
deriving DecidableEq

/-- The state of a stream: `written` is the usage event of the open transaction, `recorded` the
committed one. -/
structure StreamState where
  disconnected : Bool
  stop : Bool
  cancelRequested : Bool
  queue : List QueueItem
  producer : ProducerAt
  consumer : ConsumerAt
  sent : List SseEvent
  written : Option LlmUsage
  recorded : Option LlmUsage

/-- What the provider's stream does next. -/
inductive ProviderAnswer where
  | chunk (content : String)
  | finish
  | fail

/-- The moves of a stream. -/
inductive StreamMove where
  /-- The client disconnects. -/
  | disconnect
  /-- The provider answers the producer. -/
  | provider (a : ProviderAnswer)
  /-- Another `await` of the producer completes. -/
  | producer
  /-- `CancelledError` is raised in the producer. -/
  | cancel
  /-- The `await` or `yield` of the generator completes. -/
  | consumer
  /-- `wait_for` times out. -/
  | timeout
  /-- The generator is closed or cancelled where it is suspended. -/
  | close

namespace StreamState

/-- The generator has yielded its first event. -/
def start (ctx : StreamContext) : StreamState where
  disconnected := false
  stop := false
  cancelRequested := false
  queue := []
  producer := .absent
  consumer := .opening
  sent := [.conversation ctx.conversation.id]
  written := none
  recorded := none

/-- The producer puts a last item, and `done`. -/
def endProducer (s : StreamState) (item : QueueItem) : StreamState :=
  { s with queue := s.queue ++ [item, .done], producer := .finished }

/-- The answer of the provider's stream. -/
def onProvider (s : StreamState) (accumulated : String) : ProviderAnswer → StreamState
  | .chunk content =>
    if s.stop then s.endProducer .cancelled
    else { s with producer := .checkingChunk accumulated content }
  | .finish =>
    if s.stop then s.endProducer .cancelled
    else { s with producer := .checkingEnd accumulated }
  | .fail => s.endProducer (.error "LLM_STREAM_ERROR" "The AI response could not be completed.")

/-- The producer goes on from an `await` other than that of the provider. -/
def onProducer (ctx : StreamContext) (s : StreamState) : Option StreamState :=
  match s.producer with
  | .absent | .streaming _ | .finished => none
  | .created => some { s with producer := .streaming "" }
  | .checkingChunk accumulated chunk =>
    if s.disconnected then some (s.endProducer .cancelled)
    else some { s with
      queue := s.queue ++ [.token chunk]
      producer := .streaming (accumulated ++ chunk) }
  | .checkingEnd accumulated =>
    if s.disconnected then some (s.endProducer .cancelled)
    else some { s with producer := .addingMessage accumulated }
  | .addingMessage accumulated => some { s with producer := .recordingUsage accumulated }
  | .recordingUsage accumulated =>
    some { s with written := some (ctx.usageOf accumulated), producer := .markingFirstChat }
  | .markingFirstChat => some { s with producer := .committing }
  | .committing =>
    some ({ s with recorded := s.written }.endProducer
      (.completed ctx.messageId ctx.providerName))

/-- `CancelledError` is raised where the producer is suspended. -/
def onCancel (s : StreamState) : Option StreamState :=
  match s.producer with
  | .absent | .finished => none
  -- a task that has not run yet never enters its `try` block
  | .created => some { s with producer := .finished }
  | _ => some (s.endProducer .cancelled)

/-- The producer is done, or was never created. -/
def producerDone (s : StreamState) : Bool :=
  match s.producer with
  | .absent | .finished => true
  | _ => false

/-- The generator leaves its loop and runs its `finally` block. -/
def leaveLoop (s : StreamState) : StreamState :=
  if s.producerDone then { s with stop := true, consumer := .finished }
  else { s with stop := true, cancelRequested := true, consumer := .joining }

/-- The generator has taken an item out of the queue. -/
def onItem (s : StreamState) : QueueItem → StreamState
  | .done | .cancelled => s.leaveLoop
  | .token content => { s with sent := s.sent ++ [.token content], consumer := .yielding false }
  | .completed messageId provider =>
    { s with sent := s.sent ++ [.completed messageId provider], consumer := .yielding true }
  | .error code message =>
    { s with sent := s.sent ++ [.error code message], consumer := .yielding true }

/-- The generator goes on. -/
def onConsumer (s : StreamState) : Option StreamState :=
  match s.consumer with
  | .opening => some { s with producer := .created, consumer := .checking }
  | .checking => some (if s.disconnected then s.leaveLoop else { s with consumer := .waiting })
  | .waiting =>
    match s.queue with
    | [] => none
    | item :: rest => some ({ s with queue := rest }.onItem item)
  | .yielding last => some (if last then s.leaveLoop else { s with consumer := .checking })
  | .joining => if s.producerDone then some { s with consumer := .finished } else none
  | .finished => none

/-- The generator is closed or cancelled. -/
def onClose (s : StreamState) : Option StreamState :=
  match s.consumer with
  | .opening | .joining => some { s with consumer := .finished }
  | .checking | .waiting | .yielding _ => some s.leaveLoop
  | .finished => none

/-- One move. A producer that is to be cancelled does nothing else. -/
def step (ctx : StreamContext) (s : StreamState) : StreamMove → Option StreamState
  | .disconnect => some { s with disconnected := true }
  | .provider a =>
    match s.producer with
    | .streaming accumulated => if s.cancelRequested then none else some (s.onProvider accumulated a)
    | _ => none
  | .producer => if s.cancelRequested then none else s.onProducer ctx
  | .cancel => if s.cancelRequested then s.onCancel else none
  | .consumer => s.onConsumer
  | .timeout =>
    match s.consumer with
    | .waiting => some { s with sent := s.sent ++ [.heartbeat], consumer := .yielding false }
    | _ => none
  | .close => s.onClose

/-- The state after some moves. -/
def run (ctx : StreamContext) (s : StreamState) : List StreamMove → Option StreamState
  | [] => some s
  | m :: ms => (s.step ctx m).bind fun s' => s'.run ctx ms

end StreamState

end DevOps
