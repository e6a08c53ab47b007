import DevOpsAssistant.Frontend.Strings
import DevOpsAssistant.Text.Lines
import DevOpsAssistant.Utils.Sse

/-!
# The parser of the event stream

* `SseFields`: the fields of the event that is being read; `processLine`: one line.
* `SseParser`: the parser between two chunks; `push`, `flush`.
-/

namespace DevOps

namespace ParseSse

/-- An event that has been read. -/
structure SseEvent where
  event : JsString
  data : JsString
  id : Option JsString
deriving DecidableEq

/-- The fields of the event that is being read. -/
structure SseFields where
  eventName : JsString
  dataLines : List JsString
  eventId : Option JsString

/-- `resetFields`. -/
def resetFields : SseFields := ⟨[], [], none⟩

def emitCurrent (f : SseFields) : Option SseEvent × SseFields :=
  if f.eventName = [] ∧ f.dataLines = [] ∧ f.eventId = none then (none, f)
  else
    (some
      { event := if f.eventName = [] then js "message" else f.eventName
        data := [unit '\n'].intercalate f.dataLines
        id := f.eventId },
    resetFields)

/-- The field and the value of a line. -/
def fieldOf (line : JsString) : JsString × JsString :=
  match Text.splitFirst (unit ':') line with
  | none => (line, [])
  | some (field, value) => (field, if value.head? = some (unit ' ') then value.tail else value)

def processLine (f : SseFields) (line : JsString) : Option SseEvent × SseFields :=
  if line.head? = some (unit ':') then (none, f)
  else if line = [] then emitCurrent f
  else
    let (field, value) := fieldOf line
    if field = js "event" then (none, { f with eventName := value })
    else if field = js "data" then (none, { f with dataLines := f.dataLines ++ [value] })
    else if field = js "id" then
      (none, if 0 ∈ value then f else { f with eventId := some value })
    else (none, f)

/-- One line of `consumeCompleteLines`. -/
def consumeLine (f : SseFields) (line : JsString) : List SseEvent × SseFields :=
  let line := if line.getLast? = some (unit '\r') then line.dropLast else line
  ((processLine f line).1.toList, (processLine f line).2)

/-- The events of the complete lines, the fields after them, and the rest. -/
def consumeCompleteLines (f : SseFields) (start : JsString) : List SseEvent × SseFields × JsString :=
  Text.feedLines (unit '\n') consumeLine f start

/-- The parser between two chunks. -/
structure SseParser where
  buffer : JsString
  fields : SseFields

def createSseParser : SseParser := ⟨[], resetFields⟩

namespace SseParser

def push (p : SseParser) (chunk : JsString) : List SseEvent × SseParser :=
  let (events, fields, rest) := consumeCompleteLines p.fields (p.buffer ++ chunk)
  (events, ⟨rest, fields⟩)

/-- Chunks that are pushed one after another. -/
def pushAll (p : SseParser) : List JsString → List SseEvent × SseParser
  | [] => ([], p)
  | chunk :: chunks =>
    let (events, p) := p.push chunk
    let (rest, p) := p.pushAll chunks
    (events ++ rest, p)

def flush (p : SseParser) : List SseEvent × SseParser :=
  let (events, fields) :=
    if p.buffer ≠ [] then
      let (events, fields, _) := consumeCompleteLines p.fields (p.buffer ++ [unit '\n'])
      (events, fields)
    else ([], p.fields)
  let (trailing, fields) := emitCurrent fields
  (events ++ trailing.toList, ⟨[], fields⟩)

end SseParser

end ParseSse

end DevOps
