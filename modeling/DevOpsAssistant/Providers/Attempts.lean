import DevOpsAssistant.Services.OpenAICompatible

/-!
# The attempts of a provider

A request is sent again while it fails in a way that may pass; its answer is read when it has one.

* `TransportOutcome`: how one request ends.
* `requestJson`: `_request_json`, the loop over the attempts; `generate`.
* `settled`: the first request that is not sent again.
* `attemptLoop_cases`: the loop sends each request once, and ends with the outcome of that one.
* **`generate_proper_iff`**: when `generate` returns a text or raises an error of the provider.
-/

namespace DevOps

namespace OpenAICompatibleProvider

/-! ## The client -/

def RETRYABLE_STATUS : List ℕ := [429, 500, 502, 503, 504]

/-- How one request ends; the body of a response is its bytes. -/
inductive TransportOutcome where
  | timeout
  | connectionError
  | response (statusCode : ℕ) (body : List UInt8)

/-- What one request leads to: the next attempt, or the end of the loop. `message` is that of the
error if there is no next attempt. -/
inductive AttemptResult where
  | retry (message : String)
  | stop (data : Except Exc (List (PyValue × PyValue)))

section Client

variable (loads : List UInt8 → Loaded)

/-- `response.json()`, of a response that is no failure. -/
def responseJson (body : List UInt8) : Except Exc (List (PyValue × PyValue)) :=
  match loads body with
  | .decodeError => .error (LLMProviderError "LLM provider returned malformed JSON.")
  | .raised e => .error e
  | .value (.dict data) => .ok data
  | .value _ => .error (LLMProviderError "LLM provider returned an invalid response schema.")

/-- The body of the loop. -/
def attemptResult : TransportOutcome → AttemptResult
  | .timeout => .retry "LLM request timed out."
  | .connectionError => .retry "LLM provider connection failed."
  | .response statusCode body =>
    if statusCode ∈ RETRYABLE_STATUS then .retry "LLM provider request failed."
    else if statusCode ∈ NON_RETRYABLE_STATUS then
      .stop (.error (LLMProviderError "LLM provider request was rejected."))
    else if 400 ≤ statusCode then .stop (.error (LLMProviderError "LLM provider request failed."))
    else .stop (responseJson loads body)

variable (outcomes : ℕ → TransportOutcome)

/-- `for attempt in range(attempts)`, from the rest of the range on: the number of requests that are
sent, and the data. -/
def attemptLoop (attempts : ℕ) : List ℕ → ℕ × Except Exc (List (PyValue × PyValue))
  | [] => (0, .error (LLMProviderError "LLM provider request failed."))
  | attempt :: rest =>
    match attemptResult loads (outcomes attempt) with
    | .stop data => (1, data)
    | .retry message =>
      if attempts ≤ attempt + 1 then (1, .error (LLMProviderError message))
      else
        let (sent, data) := attemptLoop attempts rest
        (sent + 1, data)

/-- `max(1, self.max_retries)`. -/
def attemptsOf (maxRetries : ℤ) : ℕ := (max 1 maxRetries).toNat

def requestJson (maxRetries : ℤ) : ℕ × Except Exc (List (PyValue × PyValue)) :=
  attemptLoop loads outcomes (attemptsOf maxRetries) (List.range (attemptsOf maxRetries))

/-- A text that is not blank, without the white space around it. -/
def textOf : PyValue → Option String
  | .str s => if Text.stripped s = "" then none else some (Text.stripped s)
  | _ => none

/-- The content of a message, if it is a mapping. -/
def messageText : PyValue → Option String
  | .dict message => textOf (PyValue.get message "content")
  | _ => none

def extractContent (data : List (PyValue × PyValue)) : Except Exc String :=
  match PyValue.get data "choices" with
  | .list (.dict first :: _) =>
    match messageText (PyValue.get first "message") <|> textOf (PyValue.get first "text") with
    | some content => .ok content
    | none => .error (LLMProviderError "LLM provider returned no assistant content.")
  | .list (_ :: _) => .error (LLMProviderError "LLM provider returned an invalid response schema.")
  | _ => .error (LLMProviderError "LLM provider returned no assistant content.")

/-- The number of requests `generate` sends, and what it returns or raises. -/
def generate (maxRetries : ℤ) : ℕ × Except Exc String :=
  let (sent, data) := requestJson loads outcomes maxRetries
  (sent, data >>= extractContent)

end Client

/-! ## What the loop ends with -/

/-- A text that is not blank, or an error of the provider. -/
def Proper (r : Except Exc String) : Prop :=
  (∃ s, r = .ok s ∧ Text.stripped s ≠ "") ∨ ∃ e, r = .error e ∧ e.isA .llmProvider = true

/-- Decoding the body raises nothing but a `JSONDecodeError`, if anything. -/
def Decodes (loads : List UInt8 → Loaded) (body : List UInt8) : Prop :=
  ∀ e, loads body = .raised e → e.isA .llmProvider = true

/-- The request is not sent again. -/
def TransportOutcome.settles : TransportOutcome → Bool
  | .timeout | .connectionError => false
  | .response statusCode _ => statusCode ∉ RETRYABLE_STATUS

/-- The first of the requests that is not sent again. -/
def settled (outcomes : ℕ → TransportOutcome) (attempts : List ℕ) : Option TransportOutcome :=
  (attempts.map outcomes).find? TransportOutcome.settles

theorem proper_providerError (message : String) : Proper (.error (LLMProviderError message)) :=
  .inr ⟨_, rfl, by simp [LLMProviderError, Exc.isA]⟩

theorem textOf_ne_blank {v : PyValue} {s : String} (h : textOf v = some s) :
    Text.stripped s ≠ "" := by
  unfold textOf at h
  split at h
  · split_ifs at h with hblank
    cases h
    rwa [Text.stripped_stripped]
  · cases h

/-- **What is read from an answer** is a text that is not blank, or an error of the provider. -/
theorem proper_extractContent (data : List (PyValue × PyValue)) : Proper (extractContent data) := by
  unfold extractContent
  split
  · next first _ _ =>
    cases hmessage : messageText (PyValue.get first "message") with
    | some content =>
      refine .inl ⟨content, rfl, ?_⟩
      unfold messageText at hmessage
      split at hmessage
      · exact textOf_ne_blank hmessage
      · cases hmessage
    | none =>
      cases htext : textOf (PyValue.get first "text") with
      | some content => exact .inl ⟨content, rfl, textOf_ne_blank htext⟩
      | none => exact proper_providerError _
  · exact proper_providerError _
  · exact proper_providerError _

/-- An attempt that is not the last to be sent. -/
theorem attemptResult_retry (loads : List UInt8 → Loaded) {o : TransportOutcome} (h : o.settles = false) :
    ∃ message, attemptResult loads o = .retry message := by
  cases o with
  | timeout | connectionError => exact ⟨_, rfl⟩
  | response statusCode body =>
    have hstatus : statusCode ∈ RETRYABLE_STATUS := by simpa [TransportOutcome.settles] using h
    exact ⟨_, if_pos hstatus⟩

/-- **An attempt that settles the request**: it is proper if its body can be decoded. -/
theorem attemptResult_stop (loads : List UInt8 → Loaded) {o : TransportOutcome}
    (h : o.settles = true) :
    ∃ data, attemptResult loads o = .stop data ∧ (Proper (data >>= extractContent) ↔
      ∀ statusCode body, o = .response statusCode body → statusCode < 400 →
        Decodes loads body) := by
  cases o with
  | timeout | connectionError => cases h
  | response statusCode body =>
    have hstatus : statusCode ∉ RETRYABLE_STATUS := by simpa [TransportOutcome.settles] using h
    rw [attemptResult, if_neg hstatus]
    by_cases hrejected : statusCode ∈ NON_RETRYABLE_STATUS
    · rw [if_pos hrejected]
      refine ⟨_, rfl, iff_of_true (proper_providerError _) fun s b heq hlt => ?_⟩
      cases heq
      have hle : 400 ≤ statusCode := by
        simp only [NON_RETRYABLE_STATUS, List.mem_cons, List.not_mem_nil, or_false] at hrejected
        omega
      omega
    · rw [if_neg hrejected]
      by_cases hfailed : 400 ≤ statusCode
      · rw [if_pos hfailed]
        refine ⟨_, rfl, iff_of_true (proper_providerError _) fun s b heq hlt => ?_⟩
        cases heq
        omega
      · rw [if_neg hfailed]
        refine ⟨_, rfl, ?_⟩
        have hdecodes : (∀ s b, TransportOutcome.response statusCode body = .response s b →
            s < 400 → Decodes loads b) ↔ Decodes loads body := by
          constructor
          · exact fun h => h _ _ rfl (by omega)
          · intro h s b heq _
            cases heq
            exact h
        rw [hdecodes]
        unfold responseJson Decodes
        cases hload : loads body with
        | decodeError => exact iff_of_true (proper_providerError _) fun e he => by cases he
        | raised e =>
          constructor
          · rintro (⟨s, hs, -⟩ | ⟨e', he', hclass⟩) e'' heq
            · cases hs
            · cases heq
              cases he'
              exact hclass
          · exact fun hall => .inr ⟨e, rfl, hall e rfl⟩
        | value v =>
          cases v with
          | dict data => exact iff_of_true (proper_extractContent data) fun e he => by cases he
          | _ => exact iff_of_true (proper_providerError _) fun e he => by cases he

/-- **The loop** sends at most as many requests as there are attempts. It ends with the first that
is not sent again, and with an error of the provider if there is none. -/
theorem attemptLoop_cases (loads : List UInt8 → Loaded) (outcomes : ℕ → TransportOutcome)
    {attempts : ℕ} : ∀ {n k : ℕ}, k + n = attempts →
    (attemptLoop loads outcomes attempts (List.range' k n)).1 ≤ n ∧
      ((settled outcomes (List.range' k n) = none ∧ ∃ message,
          (attemptLoop loads outcomes attempts (List.range' k n)).2 =
            .error (LLMProviderError message)) ∨
        ∃ o data, settled outcomes (List.range' k n) = some o ∧ attemptResult loads o = .stop data ∧
          (attemptLoop loads outcomes attempts (List.range' k n)).2 = data)
  | 0, k, _ => ⟨Nat.le_refl 0, .inl ⟨rfl, _, rfl⟩⟩
  | n + 1, k, hk => by
    rw [List.range'_succ, attemptLoop, settled, List.map_cons, List.find?_cons]
    cases hsettles : (outcomes k).settles with
    | true =>
      obtain ⟨data, hdata, -⟩ := attemptResult_stop loads hsettles
      rw [hdata]
      exact ⟨by simp, .inr ⟨_, data, rfl, hdata, rfl⟩⟩
    | false =>
      obtain ⟨message, hmessage⟩ := attemptResult_retry loads hsettles
      rw [hmessage]
      have hk' : k + 1 + n = attempts := by omega
      obtain ⟨hsent, hend⟩ := attemptLoop_cases loads outcomes hk'
      simp only
      by_cases hlast : attempts ≤ k + 1
      · rw [if_pos hlast]
        have hn : n = 0 := by omega
        subst hn
        exact ⟨Nat.le_refl 1, .inl ⟨rfl, message, rfl⟩⟩
      · rw [if_neg hlast]
        exact ⟨Nat.succ_le_succ hsent, hend⟩

/-! ## `generate` -/

/-- **When `generate` ends in a text or an error of the provider**: if and only if the first
response that is not asked for again can be decoded, or is a failure. It never sends more requests
than it may. -/
theorem generate_proper_iff (loads : List UInt8 → Loaded) (outcomes : ℕ → TransportOutcome)
    (maxRetries : ℤ) :
    (((generate loads outcomes maxRetries).1 : ℤ) ≤ max 1 maxRetries ∧
        Proper (generate loads outcomes maxRetries).2) ↔
      ∀ statusCode body, settled outcomes (List.range (attemptsOf maxRetries)) =
        some (.response statusCode body) → statusCode < 400 → Decodes loads body := by
  have hattempts : ((attemptsOf maxRetries : ℕ) : ℤ) = max 1 maxRetries := by
    unfold attemptsOf
    omega
  have hloop := attemptLoop_cases loads outcomes (Nat.zero_add (attemptsOf maxRetries))
  rw [← List.range_eq_range'] at hloop
  obtain ⟨hsent, hend⟩ := hloop
  have hbound : ((generate loads outcomes maxRetries).1 : ℤ) ≤ max 1 maxRetries := by
    rw [← hattempts]
    exact_mod_cast hsent
  rw [and_iff_right hbound]
  rcases hend with ⟨hnone, message, hdata⟩ | ⟨o, data, hsome, hstop, hdata⟩
  · have hgenerate :
        (generate loads outcomes maxRetries).2 = .error (LLMProviderError message) := by
      change (requestJson loads outcomes maxRetries).2 >>= extractContent = _
      rw [requestJson, hdata]
      rfl
    rw [hgenerate, hnone]
    exact iff_of_true (proper_providerError message) fun _ _ h => nomatch h
  · have hsettles : o.settles = true := List.find?_some hsome
    obtain ⟨data', hstop', hproper⟩ := attemptResult_stop loads hsettles
    rw [hstop] at hstop'
    cases hstop'
    have hgenerate : (generate loads outcomes maxRetries).2 = data >>= extractContent := by
      change (requestJson loads outcomes maxRetries).2 >>= extractContent = _
      rw [requestJson, hdata]
    rw [hgenerate, hproper, hsome]
    simp only [Option.some.injEq]

/-- A byte that starts no character in UTF-8. -/
def trialBytes (body : List UInt8) : Loaded :=
  if body = [0xff] then .raised (.other "UnicodeDecodeError") else .decodeError

/-- A response that cannot be decoded as text ends the request with another exception. -/
theorem generate_undecodable : ¬ ∀ (loads : List UInt8 → Loaded) (outcomes : ℕ → TransportOutcome)
    (maxRetries : ℤ), ((generate loads outcomes maxRetries).1 : ℤ) ≤ max 1 maxRetries ∧
      Proper (generate loads outcomes maxRetries).2 := by
  intro h
  obtain ⟨-, ⟨s, hs, -⟩ | ⟨e, he, hclass⟩⟩ := h trialBytes (fun _ => .response 200 [0xff]) 1
  · cases hs
  · cases he
    cases hclass

end OpenAICompatibleProvider

end DevOps
