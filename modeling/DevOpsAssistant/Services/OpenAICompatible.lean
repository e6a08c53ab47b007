import DevOpsAssistant.Core.Exceptions
import DevOpsAssistant.Reviews.Findings
import DevOpsAssistant.Text.Strings

/-!
# The stream of a provider

* `Loaded`: what `json.loads` makes of a text.
* `extractDelta`: `_extract_delta`; `requestStream`: `_request_stream`, on the lines of a response.
* `payloads`: the texts of the data lines before the first `[DONE]`; `deltas`: the contents of those that
  are objects of the documented shape.
* **`requestStream_eq_iff`**: when the stream yields exactly these contents.
-/

namespace DevOps

/-- What `json.loads` makes of a text: a value, a `JSONDecodeError`, or another exception, which it raises
for texts that are nested too deeply or hold a number with too many digits. -/
inductive Loaded where
  | value (v : PyValue)
  | decodeError
  | raised (e : Exc)

namespace OpenAICompatibleProvider

def NON_RETRYABLE_STATUS : List ℕ := [400, 401, 403, 404]

/-! ## One payload -/

/-- The content of a delta or a message, if it is a text with characters. -/
def contentOf : PyValue → Option String
  | .dict entries =>
    match PyValue.get entries "content" with
    | .str s => if s = "" then none else some s
    | _ => none
  | _ => none

/-- The content of an object of the documented shape. -/
def deltaOf (data : List (PyValue × PyValue)) : Option String :=
  match PyValue.get data "choices" with
  | .list (.dict first :: _) =>
    contentOf (PyValue.get first "delta") <|> contentOf (PyValue.get first "message")
  | _ => none

/-- `_extract_delta`: only a `dict` has the method `get`. -/
def extractDelta : PyValue → Except Exc (Option String)
  | .dict data => .ok (deltaOf data)
  | _ => .error (.other "AttributeError")

/-! ## The lines -/

variable (loads : String → Loaded)

/-- The text after `data:` of a line that starts with it. -/
def dataOf (line : String) : Option String :=
  if "data:".toList <+: line.toList then
    some (Text.stripped (String.ofList (line.toList.drop 5)))
  else none

/-- The loop over `aiter_lines`: what it yields, and how it ends. -/
def readLines : List String → List String × Except Exc Unit
  | [] => ([], .ok ())
  | line :: lines =>
    if line = "" then readLines lines
    else
      match dataOf line with
      | none => readLines lines
      | some dataStr =>
        if dataStr = "[DONE]" then ([], .ok ())
        else
          match loads dataStr with
          | .decodeError => readLines lines
          | .raised e => ([], .error e)
          | .value payloadObj =>
            match extractDelta payloadObj with
            | .error e => ([], .error e)
            | .ok none => readLines lines
            | .ok (some content) => (content :: (readLines lines).1, (readLines lines).2)

/-- `_request_stream`, of a response with the status and the lines: what it yields, and how it ends. -/
def requestStream (statusCode : ℕ) (lines : List String) : List String × Except Exc Unit :=
  if statusCode ∈ NON_RETRYABLE_STATUS then
    ([], .error (LLMProviderError "LLM provider request was rejected."))
  else if 400 ≤ statusCode then ([], .error (LLMProviderError "LLM provider request failed."))
  else readLines loads lines

/-! ## What the lines say -/

/-- The texts of the data lines before the first `[DONE]`. -/
def payloads (lines : List String) : List String := (lines.filterMap dataOf).takeWhile (· ≠ "[DONE]")

/-- The content of a text that is an object of the documented shape. -/
def contentIn (payload : String) : Option String :=
  match loads payload with
  | .value (.dict data) => deltaOf data
  | _ => none

/-- The contents of the payloads, in order. -/
def deltas (lines : List String) : List String := (payloads lines).filterMap (contentIn loads)

/-- The text is an object, or no JSON. -/
def Readable (payload : String) : Prop :=
  loads payload = .decodeError ∨ ∃ data, loads payload = .value (.dict data)

theorem dataOf_empty : dataOf "" = none := by decide

variable {loads}

/-- A line that is no data line says nothing. -/
theorem payloads_skip {line : String} (h : dataOf line = none) (lines : List String) :
    payloads (line :: lines) = payloads lines := by
  rw [payloads, List.filterMap_cons_none h, payloads]

theorem payloads_done {line : String} (h : dataOf line = some "[DONE]") (lines : List String) :
    payloads (line :: lines) = [] := by
  rw [payloads, List.filterMap_cons_some h, List.takeWhile_cons_of_neg (by simp)]

theorem payloads_data {line payload : String} (h : dataOf line = some payload) (hne : payload ≠ "[DONE]")
    (lines : List String) : payloads (line :: lines) = payload :: payloads lines := by
  rw [payloads, List.filterMap_cons_some h, List.takeWhile_cons_of_pos (by simpa using hne), payloads]

theorem readLines_skip {line : String} (h : dataOf line = none) (lines : List String) :
    readLines loads (line :: lines) = readLines loads lines := by
  by_cases hempty : line = ""
  · rw [readLines, if_pos hempty]
  · rw [readLines, if_neg hempty, h]

theorem readLines_data {line payload : String} (h : dataOf line = some payload)
    (lines : List String) : readLines loads (line :: lines) =
      if payload = "[DONE]" then ([], .ok ())
      else
        match loads payload with
        | .decodeError => readLines loads lines
        | .raised e => ([], .error e)
        | .value payloadObj =>
          match extractDelta payloadObj with
          | .error e => ([], .error e)
          | .ok none => readLines loads lines
          | .ok (some content) => (content :: (readLines loads lines).1, (readLines loads lines).2) := by
  have hempty : line ≠ "" := by
    rintro rfl
    rw [dataOf_empty] at h
    cases h
  rw [readLines, if_neg hempty, h]

/-- A text that is no object, but JSON, ends the loop with an exception. -/
theorem readLines_raised {line payload : String} (h : dataOf line = some payload)
    (hne : payload ≠ "[DONE]") (hread : ¬ Readable loads payload) (lines : List String) :
    ∃ e, readLines loads (line :: lines) = ([], .error e) := by
  rw [readLines_data h, if_neg hne]
  cases hload : loads payload with
  | decodeError => exact absurd (.inl hload) hread
  | raised e => exact ⟨e, rfl⟩
  | value v =>
    cases v with
    | dict data => exact absurd (.inr ⟨data, hload⟩) hread
    | _ => exact ⟨_, rfl⟩

/-- A text that is an object or no JSON is yielded or skipped. -/
theorem readLines_readable {line payload : String} (h : dataOf line = some payload)
    (hne : payload ≠ "[DONE]") (hread : Readable loads payload) (lines : List String) :
    readLines loads (line :: lines) =
      ((contentIn loads payload).toList ++ (readLines loads lines).1, (readLines loads lines).2) := by
  rw [readLines_data h, if_neg hne, contentIn]
  rcases hread with hload | ⟨data, hload⟩
  · rw [hload]
    rfl
  · simp only [hload, extractDelta]
    cases deltaOf data with
    | none => rfl
    | some content => rfl

/-- **The loop over the lines.** -/
theorem readLines_eq_iff (lines : List String) :
    readLines loads lines = (deltas loads lines, .ok ()) ↔ ∀ p ∈ payloads lines, Readable loads p := by
  induction lines with
  | nil => simp [readLines, deltas, payloads]
  | cons line lines ih =>
    cases h : dataOf line with
    | none => rw [readLines_skip h, deltas, payloads_skip h, ← deltas, ih]
    | some payload =>
      by_cases hdone : payload = "[DONE]"
      · subst hdone
        rw [readLines_data h, if_pos rfl, deltas, payloads_done h]
        simp
      · rw [deltas, payloads_data h hdone, List.forall_mem_cons]
        by_cases hread : Readable loads payload
        · have hcontents : (payload :: payloads lines).filterMap (contentIn loads) =
              (contentIn loads payload).toList ++ deltas loads lines := by
            rw [List.filterMap_cons, deltas]
            cases contentIn loads payload <;> rfl
          rw [readLines_readable h hdone hread, hcontents, Prod.mk.injEq, List.append_cancel_left_eq,
            ← ih, Prod.ext_iff]
          exact ⟨fun heq => ⟨hread, heq⟩, fun heq => heq.2⟩
        · obtain ⟨e, hraised⟩ := readLines_raised h hdone hread lines
          rw [hraised]
          constructor
          · intro heq
            cases (Prod.mk.inj heq).2
          · exact fun hall => absurd hall.1 hread

/-- **The stream yields exactly the contents of the documented shape, and raises nothing**, if and only
if every payload before the first `[DONE]` is an object or no JSON. -/
theorem requestStream_eq_iff (loads : String → Loaded) (statusCode : ℕ) (lines : List String)
    (hsuccess : statusCode < 400) :
    requestStream loads statusCode lines = (deltas loads lines, .ok ()) ↔
      ∀ p ∈ payloads lines, Readable loads p := by
  have hstatus : statusCode ∉ NON_RETRYABLE_STATUS := by
    simp only [NON_RETRYABLE_STATUS, List.mem_cons, List.not_mem_nil, or_false]
    omega
  rw [requestStream, if_neg hstatus, if_neg (by omega)]
  exact readLines_eq_iff lines

/-- The payload of a chunk `Hi`. -/
def trialPayload : String := "\x7b\"choices\":[\x7b\"delta\":\x7b\"content\":\"Hi\"\x7d\x7d]\x7d"

/-- The payloads of the trials, as `json.loads` reads them. -/
def trialLoads (payload : String) : Loaded :=
  if payload = "null" then .value .none
  else if payload = trialPayload then
    .value (.dict [(.str "choices", .list [.dict [(.str "delta", .dict [(.str "content", .str "Hi")])]])])
  else .decodeError

/-- A stream of one chunk. -/
theorem requestStream_eq_iff_chunk :
    requestStream trialLoads 200 ["data: " ++ trialPayload, "", "data: [DONE]"] = (["Hi"], .ok ()) := by
  have hpayloads : payloads ["data: " ++ trialPayload, "", "data: [DONE]"] = [trialPayload] := by decide
  have hread : Readable trialLoads trialPayload := .inr ⟨_, rfl⟩
  have hdeltas : deltas trialLoads ["data: " ++ trialPayload, "", "data: [DONE]"] = ["Hi"] := by
    rw [deltas, hpayloads]
    rfl
  rw [← hdeltas]
  refine (requestStream_eq_iff trialLoads 200 _ (by decide)).mpr fun p hp => ?_
  rw [hpayloads, List.mem_singleton] at hp
  exact hp ▸ hread

/-- A payload that is no object ends the stream with an exception. -/
theorem requestStream_null : ¬ ∀ (loads : String → Loaded) (statusCode : ℕ) (lines : List String),
    statusCode < 400 → requestStream loads statusCode lines = (deltas loads lines, .ok ()) := by
  intro h
  obtain ⟨e, hraised⟩ := @readLines_raised trialLoads "data: null" "null" (by decide)
    (by decide) (fun hread => by rcases hread with h | ⟨d, h⟩ <;> cases h) ["data: [DONE]"]
  have heq : readLines trialLoads ["data: null", "data: [DONE]"] = _ :=
    h trialLoads 200 ["data: null", "data: [DONE]"] (by decide)
  rw [hraised] at heq
  cases (Prod.mk.inj heq).2

end OpenAICompatibleProvider

end DevOps
