import DevOpsAssistant.Frontend.RoundTrip
import DevOpsAssistant.Text.Utf8Decoder

/-!
# Reading the stream of an answer

The reader stops at the first event that ends the answer, and then flushes what the last chunk has left.

* `parseChatSseData`, `applyParsedStreamEvent`: an event of the stream, and what it does.
* `readChatSseBody`: the reader.
* `Reader`: the decoder and the parser together; **`feed_append`**: it does not matter how bytes are cut.
* `readChunks_eq`: where the reader stops.
* **`independent_iff`**: when what is read does not depend on the chunks.
-/

namespace DevOps

namespace ParseSse

/-! ## Events of the chat -/

/-- What `JSON.parse` returns. -/
inductive JsValue where
  | null
  | str (s : JsString)
  | object (entries : List (JsString × JsValue))
  | other

/-- `ParsedChatSseEvent`. -/
inductive ParsedChatSseEvent where
  | conversation (conversationId : JsString)
  | token (content : JsString)
  | heartbeat (status : JsString)
  | completed (messageId provider : JsString)
  | error (code message : JsString)
  | unknown (event : JsString) (data : JsValue)

/-- `asRecord`. -/
def asRecord : JsValue → Option (List (JsString × JsValue))
  | .object entries => some entries
  | _ => none

/-- The text under a key of a record, if there is one: `typeof record?.key === "string"`. Of entries with
one key, `JSON.parse` keeps the last. -/
def textOf (record : Option (List (JsString × JsValue))) (key : String) : Option JsString :=
  match (record.getD []).reverse.find? fun e => e.1 = js key with
  | some (_, .str s) => some s
  | _ => none

/-- `JSON.parse`; `none` throws. -/
abbrev JsonParse := JsString → Option JsValue

variable (parse : JsonParse)

def parseJsonData (raw : JsString) : JsValue :=
  if raw = [] then .null else (parse raw).getD (.str raw)

def parseChatSseData (event : SseEvent) : ParsedChatSseEvent :=
  let payload := parseJsonData parse event.data
  let record := asRecord payload
  let unknown := .unknown event.event payload
  if event.event = js "conversation" then
    match textOf record "conversation_id" with
    | some conversationId => .conversation conversationId
    | none => unknown
  else if event.event = js "token" then
    match textOf record "content" with
    | some content => .token content
    | none => unknown
  else if event.event = js "heartbeat" then .heartbeat ((textOf record "status").getD (js "active"))
  else if event.event = js "completed" then
    match textOf record "message_id", textOf record "provider" with
    | some messageId, some provider => .completed messageId provider
    | _, _ => unknown
  else if event.event = js "error" then
    .error ((textOf record "code").getD (js "LLM_STREAM_ERROR"))
      ((textOf record "message").getD (js "The AI response could not be completed."))
  else unknown

/-! ## The reader -/

/-- `StreamTerminal`, if it is not null. -/
inductive StreamTerminal where
  | completed (messageId provider : JsString)
  | error (status : ℕ) (code message : JsString)
deriving DecidableEq

/-- A call of a handler. -/
inductive StreamCall where
  | onConversation (conversationId : JsString)
  | onToken (content : JsString)
deriving DecidableEq

/-- What an event calls, and how it ends the answer. -/
def applyParsedStreamEvent : ParsedChatSseEvent → List StreamCall × Option StreamTerminal
  | .heartbeat _ | .unknown _ _ => ([], none)
  | .conversation conversationId => ([.onConversation conversationId], none)
  | .token content => ([.onToken content], none)
  | .completed messageId provider => ([], some (.completed messageId provider))
  | .error code message => ([], some (.error 0 code message))

/-- An event of the parser. -/
def applyEvent (event : SseEvent) : List StreamCall × Option StreamTerminal :=
  applyParsedStreamEvent (parseChatSseData parse event)

/-- The events of a chunk, up to the first that ends the answer. -/
def applyChunk : List SseEvent → List StreamCall × Option StreamTerminal
  | [] => ([], none)
  | event :: events =>
    match applyEvent parse event with
    | (calls, some next) => (calls, some next)
    | (calls, none) => (calls ++ (applyChunk events).1, (applyChunk events).2)

/-- The events that are flushed; each can end the answer anew. -/
def applyFlushed (terminal : Option StreamTerminal) :
    List SseEvent → List StreamCall × Option StreamTerminal
  | [] => ([], terminal)
  | event :: events =>
    let (calls, next) := applyEvent parse event
    let (more, terminal) := applyFlushed (next.or terminal) events
    (calls ++ more, terminal)

/-- The chunks of a body, up to the first that ends the answer; and the parser after them. -/
def readChunks (decoder : Utf8.TextDecoder) (parser : SseParser) :
    List (List UInt8) → List StreamCall × Option StreamTerminal × SseParser
  | [] => ([], none, parser)
  | value :: chunks =>
    let (text, decoder) := decoder.decode value
    let (events, parser) := parser.push (text.flatMap utf16)
    match applyChunk parse events with
    | (calls, some terminal) => (calls, some terminal, parser)
    | (calls, none) =>
      let (more, rest) := readChunks decoder parser chunks
      (calls ++ more, rest)

/-- What the handlers are called with, and the result. -/
def readChatSseBody (parser : SseParser) (chunks : List (List UInt8)) :
    List StreamCall × Option StreamTerminal :=
  let (calls, terminal, parser) := readChunks parse .new parser chunks
  let (more, terminal) := applyFlushed parse terminal parser.flush.1
  (calls ++ more, terminal)

/-! ## The decoder and the parser -/

/-- The decoder and the parser between two chunks. -/
structure Reader where
  decoder : Utf8.TextDecoder
  parser : SseParser

namespace Reader

def new : Reader := ⟨.new, createSseParser⟩

/-- The events that bytes complete. -/
def feed (r : Reader) (bytes : List UInt8) : List SseEvent × Reader :=
  let (text, decoder) := r.decoder.decode bytes
  let (events, parser) := r.parser.push (text.flatMap utf16)
  (events, ⟨decoder, parser⟩)

end Reader

/-- The events of a stream that are complete. -/
def eventsOf (bytes : List UInt8) : List SseEvent := (Reader.new.feed bytes).1

/-- What is flushed after the bytes of a stream. -/
def flushedAfter (bytes : List UInt8) : List SseEvent := (Reader.new.feed bytes).2.parser.flush.1

theorem feed_eq (r : Reader) (bytes : List UInt8) : r.feed bytes =
    ((r.parser.push ((r.decoder.decode bytes).1.flatMap utf16)).1,
      ⟨(r.decoder.decode bytes).2, (r.parser.push ((r.decoder.decode bytes).1.flatMap utf16)).2⟩) := rfl

theorem push_eq (p : SseParser) (text : JsString) : p.push text =
    ((Text.feedLines (unit '\n') consumeLine p.fields (p.buffer ++ text)).1,
      ⟨(Text.feedLines (unit '\n') consumeLine p.fields (p.buffer ++ text)).2.2,
        (Text.feedLines (unit '\n') consumeLine p.fields (p.buffer ++ text)).2.1⟩) := rfl

theorem push_append (p : SseParser) (text more : JsString) : p.push (text ++ more) =
    ((p.push text).1 ++ ((p.push text).2.push more).1, ((p.push text).2.push more).2) := by
  rw [push_eq, ← List.append_assoc, Text.feedLines_append]
  rfl

/-- **It does not matter how bytes are cut**, as long as they are read. -/
theorem feed_append (r : Reader) (bytes more : List UInt8) : r.feed (bytes ++ more) =
    ((r.feed bytes).1 ++ ((r.feed bytes).2.feed more).1, ((r.feed bytes).2.feed more).2) := by
  rw [feed_eq, Utf8.decode_append, List.flatMap_append, push_append]
  rfl

theorem newline_notMem_buffer (r : Reader) (bytes : List UInt8) :
    unit '\n' ∉ (r.feed bytes).2.parser.buffer := Text.not_mem_feedLines _

theorem feed_nil (r : Reader) (h : unit '\n' ∉ r.parser.buffer) : r.feed [] = ([], r) := by
  have htext : (r.decoder.decode []).1.flatMap utf16 = [] := rfl
  rw [feed_eq, htext, push_eq, List.append_nil, Text.feedLines_of_not_mem h]
  rfl

/-! ## What is flushed -/

theorem processLine_eq_resetFields {f : SseFields} {line : JsString} {e : SseEvent}
    (h : (processLine f line).1 = some e) : (processLine f line).2 = resetFields := by
  unfold processLine at h ⊢
  split at h
  · cases h
  · split at h
    · next hcomment hempty =>
      rw [if_neg hcomment, if_pos hempty]
      unfold emitCurrent at h ⊢
      split at h
      · cases h
      · next hfields => rw [if_neg hfields]
    · dsimp only at h
      split_ifs at h

/-- A line that completes an event leaves no fields. -/
theorem consumeLine_eq_resetFields {f : SseFields} {line : JsString}
    (h : (consumeLine f line).1 ≠ []) : (consumeLine f line).2 = resetFields := by
  unfold consumeLine at h ⊢
  dsimp only at h ⊢
  generalize (if line.getLast? = some (unit '\r') then line.dropLast else line) = line at h ⊢
  cases hline : (processLine f line).1 with
  | none =>
    rw [hline] at h
    exact absurd rfl h
  | some e => exact processLine_eq_resetFields hline

theorem length_consumeLine (f : SseFields) (line : JsString) : (consumeLine f line).1.length ≤ 1 := by
  unfold consumeLine
  dsimp only
  cases (processLine f (if line.getLast? = some (unit '\r') then line.dropLast else line)).1 with
  | none => exact Nat.zero_le 1
  | some e => exact Nat.le_refl 1

/-- At most one event is flushed. -/
theorem length_flush (p : SseParser) (h : unit '\n' ∉ p.buffer) : p.flush.1.length ≤ 1 := by
  have hemit : ∀ f : SseFields, (emitCurrent f).1.toList.length ≤ 1 := by
    intro f
    cases (emitCurrent f).1 with
    | none => exact Nat.zero_le 1
    | some e => exact Nat.le_refl 1
  unfold SseParser.flush
  by_cases hbuffer : p.buffer ≠ []
  · simp only [if_pos hbuffer, consumeCompleteLines]
    rw [Text.feedLines_line h, Text.feedLines_of_not_mem List.not_mem_nil]
    dsimp only
    by_cases hline : (consumeLine p.fields p.buffer).1 = []
    · rw [hline]
      exact hemit _
    · rw [consumeLine_eq_resetFields hline]
      have hreset : (emitCurrent resetFields).1.toList = [] := by decide
      have := length_consumeLine p.fields p.buffer
      simpa [hreset] using this
  · simp only [if_neg hbuffer]
    simp [hemit]

/-- What one byte adds to the text ends with its line break, if there is one. -/
theorem units_of_byte (d : Utf8.TextDecoder) (byte : UInt8) :
    unit '\n' ∉ (d.decode [byte]).1.flatMap utf16 ∨
      ∃ x, (d.decode [byte]).1.flatMap utf16 = x ++ [unit '\n'] ∧ unit '\n' ∉ x := by
  have hout : (d.decode [byte]).1 = (d.step byte).1 := List.append_nil _
  have hlast : ∀ c ∈ (d.step byte).1.dropLast, c = Utf8.replacement := fun c =>
    Utf8.eq_replacement_of_mem_dropLast
  rw [hout]
  generalize (d.step byte).1 = out at hlast
  rcases List.eq_nil_or_concat out with rfl | ⟨cs, c, rfl⟩
  · exact .inl List.not_mem_nil
  · rw [List.concat_eq_append, List.dropLast_concat] at hlast
    have hcs : unit '\n' ∉ cs.flatMap utf16 := by
      intro h
      obtain ⟨e, he, hmem⟩ := List.mem_flatMap.mp h
      rw [hlast e he] at hmem
      exact absurd hmem (by decide)
    rw [List.concat_eq_append, List.flatMap_append, List.flatMap_singleton]
    by_cases hc : c = '\n'
    · refine .inr ⟨cs.flatMap utf16, ?_, hcs⟩
      rw [hc]
      rfl
    · refine .inl fun h => (List.mem_append.mp h).elim hcs fun hmem => ?_
      exact hc (eq_of_unit_mem_utf16 (by decide) hmem)

/-- **After the byte that completes an event**, nothing is flushed. -/
theorem flush_of_byte {r : Reader} {byte : UInt8} (h : unit '\n' ∉ r.parser.buffer)
    (hevents : (r.feed [byte]).1 ≠ []) : (r.feed [byte]).2.parser.flush.1 = [] := by
  rw [feed_eq, push_eq] at hevents ⊢
  dsimp only at hevents ⊢
  rcases units_of_byte r.decoder byte with htext | ⟨x, hx, htext⟩
  · rw [Text.feedLines_of_not_mem (by simp [h, htext])] at hevents
    exact absurd rfl hevents
  · have hline : unit '\n' ∉ r.parser.buffer ++ x := by simp [h, htext]
    rw [hx, ← List.append_assoc, Text.feedLines_line hline,
      Text.feedLines_of_not_mem List.not_mem_nil, List.append_nil] at hevents
    rw [hx, ← List.append_assoc, Text.feedLines_line hline,
      Text.feedLines_of_not_mem List.not_mem_nil]
    dsimp only at hevents ⊢
    rw [consumeLine_eq_resetFields hevents]
    decide

/-! ## Where the reader stops -/

variable {parse}

theorem applyChunk_snd (events : List SseEvent) :
    (applyChunk parse events).2 = events.findSome? fun e => (applyEvent parse e).2 := by
  induction events with
  | nil => rfl
  | cons e events ih =>
    rw [applyChunk, List.findSome?_cons]
    split
    · next h => rw [h]
    · next h => rw [h, ih]

theorem applyChunk_append_of_none {events more : List SseEvent}
    (h : (applyChunk parse events).2 = none) : applyChunk parse (events ++ more) =
      ((applyChunk parse events).1 ++ (applyChunk parse more).1, (applyChunk parse more).2) := by
  induction events with
  | nil => rfl
  | cons e events ih =>
    rw [List.cons_append, applyChunk]
    rw [applyChunk] at h ⊢
    split at h
    · cases h
    · rw [ih h]
      simp

theorem applyChunk_append_of_some {events more : List SseEvent} {t : StreamTerminal}
    (h : (applyChunk parse events).2 = some t) :
    applyChunk parse (events ++ more) = applyChunk parse events := by
  induction events with
  | nil => cases h
  | cons e events ih =>
    rw [List.cons_append, applyChunk, applyChunk]
    rw [applyChunk] at h
    split at h
    · rfl
    · rw [ih h]

theorem readChunks_cons (r : Reader) (value : List UInt8) (chunks : List (List UInt8)) :
    readChunks parse r.decoder r.parser (value :: chunks) =
      match applyChunk parse (r.feed value).1 with
      | (calls, some terminal) => (calls, some terminal, (r.feed value).2.parser)
      | (calls, none) =>
        (calls ++ (readChunks parse (r.feed value).2.decoder (r.feed value).2.parser chunks).1,
          (readChunks parse (r.feed value).2.decoder (r.feed value).2.parser chunks).2) := rfl

/-- The chunk that ends the answer is the last that is read. -/
theorem readChunks_of_chunk {r : Reader} {value : List UInt8} {chunks : List (List UInt8)}
    {t : StreamTerminal} (h : (applyChunk parse (r.feed value).1).2 = some t) :
    readChunks parse r.decoder r.parser (value :: chunks) =
      ((applyChunk parse (r.feed value).1).1, some t, (r.feed value).2.parser) := by
  rw [readChunks_cons]
  generalize applyChunk parse (r.feed value).1 = result at h ⊢
  obtain ⟨calls, next⟩ := result
  cases h
  rfl

/-- After a chunk that does not end it, the reader goes on. -/
theorem readChunks_of_chunk_none {r : Reader} {value : List UInt8} {chunks : List (List UInt8)}
    (h : (applyChunk parse (r.feed value).1).2 = none) :
    readChunks parse r.decoder r.parser (value :: chunks) = ((applyChunk parse (r.feed value).1).1 ++
      (readChunks parse (r.feed value).2.decoder (r.feed value).2.parser chunks).1,
      (readChunks parse (r.feed value).2.decoder (r.feed value).2.parser chunks).2) := by
  rw [readChunks_cons]
  generalize applyChunk parse (r.feed value).1 = result at h ⊢
  obtain ⟨calls, next⟩ := result
  cases h
  rfl

/-- **The reader reads all chunks** if no event ends the answer. -/
theorem readChunks_of_none : ∀ {chunks : List (List UInt8)} {r : Reader},
    unit '\n' ∉ r.parser.buffer → (applyChunk parse (r.feed chunks.flatten).1).2 = none →
      readChunks parse r.decoder r.parser chunks =
        ((applyChunk parse (r.feed chunks.flatten).1).1, none, (r.feed chunks.flatten).2.parser)
  | [], r, hr, _ => by
    rw [List.flatten_nil, feed_nil r hr]
    rfl
  | value :: chunks, r, hr, h => by
    rw [List.flatten_cons, feed_append] at h ⊢
    dsimp only at h ⊢
    cases hvalue : (applyChunk parse (r.feed value).1).2 with
    | some t => rw [applyChunk_append_of_some hvalue, hvalue] at h; cases h
    | none =>
      rw [applyChunk_append_of_none hvalue] at h ⊢
      rw [readChunks_of_chunk_none hvalue, readChunks_of_none (newline_notMem_buffer r value) h]

/-- **Otherwise it stops after a part of the stream**: that of the chunks up to the one which ends the
answer. -/
theorem readChunks_of_some : ∀ {chunks : List (List UInt8)} {r : Reader} {t : StreamTerminal},
    unit '\n' ∉ r.parser.buffer → (applyChunk parse (r.feed chunks.flatten).1).2 = some t →
      ∃ p, p <+: chunks.flatten ∧ (applyChunk parse (r.feed p).1).2 = some t ∧
        readChunks parse r.decoder r.parser chunks =
          ((applyChunk parse (r.feed chunks.flatten).1).1, some t, (r.feed p).2.parser)
  | [], r, t, hr, h => by
    rw [List.flatten_nil, feed_nil r hr] at h
    cases h
  | value :: chunks, r, t, hr, h => by
    rw [List.flatten_cons, feed_append] at h ⊢
    dsimp only at h ⊢
    cases hvalue : (applyChunk parse (r.feed value).1).2 with
    | some t' =>
      rw [applyChunk_append_of_some hvalue] at h ⊢
      obtain rfl : t' = t := Option.some.inj (hvalue.symm.trans h)
      exact ⟨value, List.prefix_append _ _, hvalue, readChunks_of_chunk hvalue⟩
    | none =>
      rw [applyChunk_append_of_none hvalue] at h ⊢
      obtain ⟨p, hp, hterminal, hread⟩ := readChunks_of_some (newline_notMem_buffer r value) h
      refine ⟨value ++ p, List.prefix_append_right_inj value |>.mpr hp, ?_, ?_⟩
      · rw [feed_append, applyChunk_append_of_none hvalue]
        exact hterminal
      · rw [readChunks_of_chunk_none hvalue, hread, feed_append]

theorem flatten_bytes (bytes : List UInt8) : (bytes.map ([·])).flatten = bytes := by
  induction bytes with
  | nil => rfl
  | cons byte bytes ih => rw [List.map_cons, List.flatten_cons, ih, List.singleton_append]

/-- Chunks of one byte: when the reader stops, nothing is flushed. -/
theorem flush_of_bytes : ∀ {bytes : List UInt8} {r : Reader} {t : StreamTerminal},
    unit '\n' ∉ r.parser.buffer →
      (readChunks parse r.decoder r.parser (bytes.map ([·]))).2.1 = some t →
        (readChunks parse r.decoder r.parser (bytes.map ([·]))).2.2.flush.1 = []
  | [], r, t, _, h => by cases h
  | byte :: bytes, r, t, hr, h => by
    rw [List.map_cons] at h ⊢
    cases hbyte : (applyChunk parse (r.feed [byte]).1).2 with
    | some t' =>
      rw [readChunks_of_chunk hbyte]
      refine flush_of_byte hr fun hnil => ?_
      rw [hnil] at hbyte
      cases hbyte
    | none =>
      rw [readChunks_of_chunk_none hbyte] at h ⊢
      exact flush_of_bytes (newline_notMem_buffer r [byte]) h

/-! ## Independence of the chunks -/

variable (parse)

/-- The first event that ends the answer. -/
def firstTerminal (events : List SseEvent) : Option StreamTerminal :=
  events.findSome? fun event => (applyEvent parse event).2

/-- However a stream is cut, the handlers are called alike, and the first event that ends the answer is
returned. -/
def Independent (bytes : List UInt8) : Prop :=
  ∀ chunks, chunks.flatten = bytes →
    (readChatSseBody parse createSseParser chunks).2 =
        firstTerminal parse (eventsOf bytes ++ flushedAfter bytes) ∧
      ∀ chunks', chunks'.flatten = bytes →
        readChatSseBody parse createSseParser chunks' = readChatSseBody parse createSseParser chunks

/-- Wherever a stream is cut after the event that ends the answer, what is flushed calls no handler and
ends the answer in no other way. -/
def QuietAfterTerminal (bytes : List UInt8) : Prop :=
  ∀ p t, p <+: bytes → firstTerminal parse (eventsOf p) = some t →
    applyFlushed parse (some t) (flushedAfter p) = ([], some t)

variable {parse}

theorem applyChunk_snd_eq (events : List SseEvent) :
    (applyChunk parse events).2 = firstTerminal parse events := applyChunk_snd events

theorem readChatSseBody_eq {chunks : List (List UInt8)} {calls : List StreamCall}
    {terminal : Option StreamTerminal} {parser : SseParser}
    (h : readChunks parse Reader.new.decoder Reader.new.parser chunks = (calls, terminal, parser)) :
    readChatSseBody parse createSseParser chunks =
      (calls ++ (applyFlushed parse terminal parser.flush.1).1,
        (applyFlushed parse terminal parser.flush.1).2) := by
  unfold readChatSseBody
  change readChunks parse .new createSseParser chunks = _ at h
  rw [h]

theorem newline_notMem_new : unit '\n' ∉ Reader.new.parser.buffer := List.not_mem_nil

/-- What is flushed is one event at most. -/
theorem applyFlushed_none {events : List SseEvent} (h : events.length ≤ 1) :
    (applyFlushed parse none events).2 = firstTerminal parse events := by
  match events, h with
  | [], _ => rfl
  | [e], _ =>
    unfold applyFlushed applyFlushed firstTerminal
    cases hevent : (applyEvent parse e).2 <;> simp [hevent]

/-- The events of a part of a stream come first. -/
theorem eventsOf_of_prefix {p bytes : List UInt8} (h : p <+: bytes) : ∃ more,
    eventsOf bytes = eventsOf p ++ more := by
  obtain ⟨rest, rfl⟩ := h
  exact ⟨_, congrArg Prod.fst (feed_append Reader.new p rest)⟩

/-- A stream with no event that ends the answer. -/
theorem independent_of_none {bytes : List UInt8} (h : firstTerminal parse (eventsOf bytes) = none) :
    Independent parse bytes := by
  have hread : ∀ chunks : List (List UInt8), chunks.flatten = bytes →
      readChatSseBody parse createSseParser chunks = ((applyChunk parse (eventsOf bytes)).1 ++
        (applyFlushed parse none (flushedAfter bytes)).1,
        (applyFlushed parse none (flushedAfter bytes)).2) := by
    rintro chunks rfl
    exact readChatSseBody_eq (readChunks_of_none newline_notMem_new ((applyChunk_snd_eq _).trans h))
  intro chunks hchunks
  refine ⟨?_, fun chunks' hchunks' => (hread chunks' hchunks').trans (hread chunks hchunks).symm⟩
  have hflushed : (flushedAfter bytes).length ≤ 1 := length_flush _ (newline_notMem_buffer _ bytes)
  rw [hread chunks hchunks, applyFlushed_none hflushed, firstTerminal, firstTerminal,
    List.findSome?_append]
  rw [firstTerminal] at h
  rw [h, Option.none_or]

section Terminal

variable {bytes p : List UInt8} {t t' : StreamTerminal}

/-- The event that ends the answer is the first in each part of the stream that has it. -/
theorem applyChunk_of_prefix (h : firstTerminal parse (eventsOf bytes) = some t) (hp : p <+: bytes)
    (hterminal : firstTerminal parse (eventsOf p) = some t') :
    applyChunk parse (eventsOf bytes) = applyChunk parse (eventsOf p) ∧ t' = t := by
  obtain ⟨more, hmore⟩ := eventsOf_of_prefix hp
  have happ : applyChunk parse (eventsOf bytes) = applyChunk parse (eventsOf p) := by
    rw [hmore]
    exact applyChunk_append_of_some ((applyChunk_snd_eq _).trans hterminal)
  rw [← applyChunk_snd_eq, happ, applyChunk_snd_eq, hterminal] at h
  exact ⟨happ, Option.some.inj h⟩

/-- Chunks of one byte: nothing is read after the event that ends the answer. -/
theorem read_bytes (h : firstTerminal parse (eventsOf bytes) = some t) :
    readChatSseBody parse createSseParser (bytes.map ([·])) =
      ((applyChunk parse (eventsOf bytes)).1, some t) := by
  have hsome : (applyChunk parse (Reader.new.feed (bytes.map ([·])).flatten).1).2 = some t := by
    rw [flatten_bytes]
    exact (applyChunk_snd_eq _).trans h
  obtain ⟨q, -, -, hread⟩ := readChunks_of_some newline_notMem_new hsome
  have hflush := flush_of_bytes newline_notMem_new (congrArg (·.2.1) hread)
  rw [hread] at hflush
  have hflush : (Reader.new.feed q).2.parser.flush.1 = [] := hflush
  rw [readChatSseBody_eq hread, hflush, flatten_bytes]
  exact Prod.ext (List.append_nil _) rfl

end Terminal

/-- If what is read does not depend on the chunks, nothing is flushed that counts. -/
theorem quiet_of_independent {bytes : List UInt8} (h : Independent parse bytes) :
    QuietAfterTerminal parse bytes := by
  intro p t hp ht
  cases hterminal : firstTerminal parse (eventsOf bytes) with
  | none =>
    obtain ⟨more, hmore⟩ := eventsOf_of_prefix hp
    unfold firstTerminal at hterminal ht
    rw [hmore, List.findSome?_append, ht] at hterminal
    cases hterminal
  | some t' =>
    obtain ⟨happ, rfl⟩ := applyChunk_of_prefix hterminal hp ht
    obtain ⟨rest, rfl⟩ := hp
    -- the stream in two chunks, and in chunks of one byte
    have htwo : readChatSseBody parse createSseParser [p, rest] = _ := readChatSseBody_eq
      (readChunks_of_chunk ((applyChunk_snd_eq (eventsOf p)).trans ht))
    have hequal := (h _ (flatten_bytes (p ++ rest))).2 [p, rest] (by simp)
    rw [htwo, read_bytes hterminal, happ] at hequal
    have hcalls : (applyChunk parse (eventsOf p)).1 ++
        (applyFlushed parse (some t) (flushedAfter p)).1 = (applyChunk parse (eventsOf p)).1 ++ [] :=
      (congrArg Prod.fst hequal).trans (List.append_nil _).symm
    have hresult : (applyFlushed parse (some t) (flushedAfter p)).2 = some t :=
      congrArg Prod.snd hequal
    exact Prod.ext (List.append_cancel_left hcalls) hresult

/-- If nothing is flushed that counts, what is read does not depend on the chunks. -/
theorem independent_of_quiet {bytes : List UInt8} (h : QuietAfterTerminal parse bytes) :
    Independent parse bytes := by
  cases hterminal : firstTerminal parse (eventsOf bytes) with
  | none => exact independent_of_none hterminal
  | some t =>
    have hread : ∀ chunks : List (List UInt8), chunks.flatten = bytes →
        readChatSseBody parse createSseParser chunks =
          ((applyChunk parse (eventsOf bytes)).1, some t) := by
      rintro chunks rfl
      obtain ⟨p, hp, hsome, hchunks⟩ := readChunks_of_some newline_notMem_new
        ((applyChunk_snd_eq _).trans hterminal)
      have hquiet : applyFlushed parse (some t) ((Reader.new.feed p).2.parser.flush.1) =
          ([], some t) := h p t hp ((applyChunk_snd_eq _).symm.trans hsome)
      rw [readChatSseBody_eq hchunks, hquiet, List.append_nil]
      rfl
    intro chunks hchunks
    refine ⟨?_, fun chunks' hchunks' => (hread chunks' hchunks').trans (hread chunks hchunks).symm⟩
    unfold firstTerminal at hterminal ⊢
    rw [hread chunks hchunks, List.findSome?_append, hterminal, Option.some_or]

/-- **What is read does not depend on the chunks** exactly if, wherever the stream is cut after the event
that ends the answer, what is flushed changes nothing. -/
theorem independent_iff (parse : JsonParse) (bytes : List UInt8) :
    Independent parse bytes ↔ QuietAfterTerminal parse bytes :=
  ⟨quiet_of_independent, independent_of_quiet⟩

/-- An error, and the beginning of a token. -/
def tokenAfterError : String := "event:error\n\nevent:token\ndata:\x7b\"content\":\"a\"\x7d"

/-- The bytes of an ASCII text. -/
def asciiBytes (text : String) : List UInt8 := text.toList.map fun c => .ofNat c.toNat

/-- `JSON.parse`, of the data of a token. -/
def parseToken : JsonParse := fun raw =>
  if raw = js "\x7b\"content\":\"a\"\x7d" then some (.object [(js "content", .str (js "a"))]) else none

theorem feed_tokenAfterError : Reader.new.feed (asciiBytes tokenAfterError) =
    ([⟨js "error", [], none⟩], (⟨⟨Utf8.start, true⟩,
      ⟨js "data:\x7b\"content\":\"a\"\x7d", ⟨js "token", [], none⟩⟩⟩ : Reader)) := by
  have hdecode : Reader.new.decoder.decode (asciiBytes tokenAfterError) =
      (tokenAfterError.toList, ⟨Utf8.start, true⟩) := by
    decide +kernel
  have htext : tokenAfterError.toList.flatMap utf16 = js "event:error" ++ unit '\n' ::
      ([] ++ unit '\n' :: (js "event:token" ++ unit '\n' :: js "data:\x7b\"content\":\"a\"\x7d")) := by
    decide +kernel
  rw [feed_eq, hdecode]
  dsimp only
  rw [htext, push_eq, show Reader.new.parser.buffer = [] from rfl, List.nil_append,
    Text.feedLines_line (by decide), Text.feedLines_line List.not_mem_nil,
    Text.feedLines_line (by decide), Text.feedLines_of_not_mem (by decide)]
  rfl

/-- A token that has begun when the answer ends is put out, if it is in the same chunk. -/
theorem token_after_terminal :
    ¬ ∀ (parse : JsonParse) (bytes : List UInt8), Independent parse bytes := by
  intro h
  have hflushed : flushedAfter (asciiBytes tokenAfterError) =
      [⟨js "token", js "\x7b\"content\":\"a\"\x7d", none⟩] := by
    unfold flushedAfter SseParser.flush consumeCompleteLines
    rw [feed_tokenAfterError, Text.feedLines_line (by decide), Text.feedLines_of_not_mem (by decide)]
    decide +kernel
  have hterminal : firstTerminal parseToken (eventsOf (asciiBytes tokenAfterError)) =
      some (.error 0 (js "LLM_STREAM_ERROR") (js "The AI response could not be completed.")) := by
    unfold eventsOf
    rw [feed_tokenAfterError]
    decide +kernel
  have hquiet := quiet_of_independent (h parseToken _) _ _ (List.prefix_refl _) hterminal
  rw [hflushed] at hquiet
  have hcalls : (applyFlushed parseToken (some (.error 0 (js "LLM_STREAM_ERROR")
      (js "The AI response could not be completed.")))
        [⟨js "token", js "\x7b\"content\":\"a\"\x7d", none⟩]).1 ≠ [] := by
    decide +kernel
  exact hcalls (congrArg Prod.fst hquiet)

end ParseSse

end DevOps
