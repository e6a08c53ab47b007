import DevOpsAssistant.Reviews.Common
import DevOpsAssistant.Text.Matching
import Mathlib.Tactic.IntervalCases

/-!
# Redaction of audit metadata

* `Metadata`: the values that events carry; `PyStr`: texts as long as they can get.
* `redactMetadata`: sensitive keys and values, long texts and deep values are replaced.
* `Spotless`: what a text needs for no sensitive word to be in it; the markers have it.
* `Metadata.Part`: the values in a value; `Metadata.Redacted`: a value with nothing sensitive left.
* **`redactMetadata_complete`**: redaction leaves nothing sensitive, and done twice it is done once.
-/

namespace DevOps

open Regex PolicyEngine
open ReviewChecks (charOf hyphenated isLetter)

/-- A text; no text is longer than `sys.maxsize`. -/
structure PyStr where
  text : String
  length_lt : text.length < 2 ^ 63

/-- A value in the metadata of an event. The keys of a dictionary differ. -/
inductive Metadata where
  | null
  | bool (b : Bool)
  | number (repr : String)
  | str (s : PyStr)
  | list (items : List Metadata)
  | tuple (items : List Metadata)
  | dict (entries : List (String × Metadata))

namespace AuditRedaction

/-! ## The model -/

def REDACT_KEY_PATTERN : Regex :=
  oneOf [ignoringCase "password", ignoringCase "secret", ignoringCase "token",
    hyphenated "api" "key", ignoringCase "authorization", ignoringCase "cookie",
    ignoringCase "credential", hyphenated "private" "key", ignoringCase "prompt",
    ignoringCase "content", ignoringCase "log", ignoringCase "file", ignoringCase "access_token",
    ignoringCase "refresh_token"]

variable (env : Env)

def REDACT_VALUE_PATTERN : Regex :=
  oneOf [ignoringCase "password", ignoringCase "secret", hyphenated "api" "key",
    ignoringCase "token", ignoringCase "authorization",
    concat [ignoringCase "bearer", plus (space env), plus (nonSpace env)],
    concat [ignoringCase "-----BEGIN", plus (space env),
      plus (char fun c => isLetter c || env.unicode.isSpace c), ignoringCase "PRIVATE KEY-----"]]

/-- `_should_redact_key`. -/
def shouldRedactKey (key : String) : Bool := found REDACT_KEY_PATTERN key

/-- What stands for a sensitive value. -/
def redactedMarker : PyStr := ⟨"[REDACTED]", by decide⟩

/-- What stands for a value that is too deep. -/
def truncatedMarker : PyStr := ⟨"[TRUNCATED]", by decide⟩

/-- The text that stands for one of `n` characters. -/
def lengthNote (n : ℕ) : String := "[TRUNCATED:" ++ toString n ++ " chars]"

theorem length_lengthNote {n : ℕ} (h : n < 2 ^ 63) : (lengthNote n).length ≤ 37 := by
  have hdigits : n.repr.length ≤ 19 := (Nat.length_repr_le_iff (by decide)).mpr (by omega)
  have hparts : "[TRUNCATED:".length = 11 ∧ " chars]".length = 7 := by decide
  change ("[TRUNCATED:" ++ n.repr ++ " chars]").length ≤ 37
  rw [String.length_append, String.length_append, hparts.1, hparts.2]
  omega

/-- What stands for a text that is too long. -/
def lengthMarker (s : PyStr) : PyStr :=
  ⟨lengthNote s.text.length, by have := length_lengthNote s.length_lt; omega⟩

/-- What is left of a text. -/
def redactText (s : PyStr) : PyStr :=
  if found (REDACT_VALUE_PATTERN env) s.text then redactedMarker
  else if 500 < s.text.length then lengthMarker s
  else s

mutual

/-- `redact_metadata(value, _depth=depth)`. -/
def redactMetadata (depth : ℕ) (value : Metadata) : Metadata :=
  if 20 < depth then .str truncatedMarker
  else
    match value with
    | .dict entries => .dict (redactEntries (depth + 1) entries)
    | .list items => .list (redactItems (depth + 1) items)
    | .tuple items => .list (redactItems (depth + 1) items)
    | .str s => .str (redactText env s)
    | value => value

def redactItems (depth : ℕ) : List Metadata → List Metadata
  | [] => []
  | item :: items => redactMetadata depth item :: redactItems depth items

def redactEntries (depth : ℕ) : List (String × Metadata) → List (String × Metadata)
  | [] => []
  | (key, item) :: entries =>
    (key, if shouldRedactKey key then .str redactedMarker else redactMetadata depth item) ::
      redactEntries depth entries

end

/-! ## Texts without sensitive words -/

/-- A text has none of the letters that the sensitive words need, an `s` near its end apart. -/
structure Spotless (cs : List Char) : Prop where
  letters : ∀ c ∈ cs, ∀ b ∈ ['p', 'o', 'b', '-'], sameLetter b c = false
  noS : ∀ c ∈ cs.take (cs.length - 5), sameLetter 's' c = false

/-- A word is found only where each of its letters is. -/
theorem exists_sameLetter {word t : List Char}
    (h : List.Forall₂ (fun c d => sameLetter c d = true) word t) {c : Char} (hc : c ∈ word) :
    ∃ d ∈ t, sameLetter c d = true := by
  induction h with
  | nil => cases hc
  | @cons c' d' word t hd _ ih =>
    cases hc with
    | head => exact ⟨d', List.mem_cons_self, hd⟩
    | tail _ hc =>
      obtain ⟨d, hmem, hsame⟩ := ih hc
      exact ⟨d, List.mem_cons_of_mem _ hmem, hsame⟩

section Spotless

variable {cs b t a : List Char}

/-- No word with one of those letters is in the text. -/
theorem Spotless.not_matches (h : Spotless cs) (hcs : cs = b.reverse ++ t ++ a) {word : String}
    {c : Char} (hword : c ∈ word.toList) (hc : c ∈ ['p', 'o', 'b', '-'])
    {u v w : List Char} (ht : t = u ++ v) : ¬ (ignoringCase word).Matches b u w := by
  intro hm
  obtain ⟨d, hd, hsame⟩ := exists_sameLetter (matches_ilit.mp hm) hword
  have hmem : d ∈ cs := by
    rw [hcs, ht]
    simp [hd]
  rw [h.letters d hmem c hc] at hsame
  cases hsame

/-- Nor is the word `secret`: its first letter would stand too near the end. -/
theorem Spotless.not_secret (h : Spotless cs) (hcs : cs = b.reverse ++ t ++ a) :
    ¬ (ignoringCase "secret").Matches b t a := by
  intro hm
  have hall := matches_ilit.mp hm
  have hlength : t.length = 6 := hall.length_eq.symm
  cases t with
  | nil => cases hlength
  | cons d t =>
    have hsame : sameLetter 's' d = true := by
      rw [show "secret".toList = ['s', 'e', 'c', 'r', 'e', 't'] from rfl] at hall
      cases hall with
      | cons hd _ => exact hd
    have hprefix : b.reverse ++ [d] <+: cs.take (cs.length - 5) := by
      refine List.prefix_of_prefix_length_le ⟨t ++ a, by simp [hcs]⟩ (List.take_prefix _ _) ?_
      rw [List.length_take, hcs]
      simp at hlength ⊢
      omega
    have hmem : d ∈ cs.take (cs.length - 5) := hprefix.subset (by simp)
    rw [h.noS d hmem] at hsame
    cases hsame

/-- **A spotless text** is not sensitive. -/
theorem Spotless.found_eq_false {text : String} (h : Spotless text.toList) :
    found (REDACT_VALUE_PATTERN env) text = false := by
  rw [Bool.eq_false_iff]
  intro hfound
  obtain ⟨b, t, a, hcs, hm⟩ := search_isSome_iff.mp hfound
  have hnone : ∀ (word : String) (c : Char), c ∈ word.toList → c ∈ ['p', 'o', 'b', '-'] →
      ∀ {u v w : List Char}, t = u ++ v → ¬ (ignoringCase word).Matches b u w := by
    intro word c hword hc u v w ht
    exact h.not_matches hcs hword hc ht
  rcases hm with hm | hm | hm | hm | hm | hm | hm
  · exact hnone "password" 'p' (by decide) (by decide) (List.append_nil t).symm hm
  · exact h.not_secret hcs hm
  · obtain ⟨u, v, ht, hm, -⟩ := hm
    exact hnone "api" 'p' (by decide) (by decide) ht hm
  · exact hnone "token" 'o' (by decide) (by decide) (List.append_nil t).symm hm
  · exact hnone "authorization" 'o' (by decide) (by decide) (List.append_nil t).symm hm
  · obtain ⟨u, v, ht, hm, -⟩ := hm
    exact hnone "bearer" 'b' (by decide) (by decide) ht hm
  · obtain ⟨u, v, ht, hm, -⟩ := hm
    exact hnone "-----BEGIN" '-' (by decide) (by decide) ht hm

end Spotless

theorem spotless_redactedMarker : Spotless redactedMarker.text.toList := ⟨by decide, by decide⟩

theorem spotless_truncatedMarker : Spotless truncatedMarker.text.toList := ⟨by decide, by decide⟩

/-- A digit is none of the letters. -/
theorem sameLetter_digit {d : Char} (hd : d.isDigit = true) :
    ∀ b ∈ ['p', 'o', 'b', '-', 's'], sameLetter b d = false := by
  have hmem : d ∈ ['0', '1', '2', '3', '4', '5', '6', '7', '8', '9'] := by
    simp only [Char.isDigit, Bool.and_eq_true, decide_eq_true_eq, ge_iff_le,
      UInt32.le_iff_toNat_le] at hd
    have hval : d = Char.ofNat d.val.toNat := (Char.ofNat_toNat d).symm
    have hlow : 48 ≤ d.val.toNat := hd.1
    have hhigh : d.val.toNat ≤ 57 := hd.2
    rw [hval]
    generalize d.val.toNat = n at hlow hhigh
    interval_cases n <;> decide
  have hall : ∀ d ∈ ['0', '1', '2', '3', '4', '5', '6', '7', '8', '9'],
      ∀ b ∈ ['p', 'o', 'b', '-', 's'], sameLetter b d = false := by decide
  exact hall d hmem

/-- **The note** of a length is not sensitive, whatever the length is. -/
theorem spotless_lengthNote (n : ℕ) : Spotless (lengthNote n).toList := by
  have hdigits : n.repr.toList = Nat.toDigits 10 n := String.toList_ofList
  have hdigit : ∀ c ∈ Nat.toDigits 10 n, c.isDigit = true := fun c hc =>
    Nat.isDigit_of_mem_toDigits (by decide) (by decide) hc
  have htext : (lengthNote n).toList =
      ("[TRUNCATED:".toList ++ Nat.toDigits 10 n ++ [' ', 'c']) ++ ['h', 'a', 'r', 's', ']'] := by
    change ("[TRUNCATED:" ++ n.repr ++ " chars]").toList = _
    rw [String.toList_append, String.toList_append, hdigits, List.append_assoc _ [' ', 'c']]
    rfl
  have hlow : ∀ c ∈ "[TRUNCATED:".toList ++ [' ', 'c'], sameLetter 's' c = false := by decide
  have hother : ∀ c ∈ "[TRUNCATED:".toList ++ [' ', 'c', 'h', 'a', 'r', 's', ']'],
      ∀ b ∈ ['p', 'o', 'b', '-'], sameLetter b c = false := by decide
  refine ⟨fun c hc b hb => ?_, fun c hc => ?_⟩
  · by_cases hmem : c ∈ Nat.toDigits 10 n
    · exact sameLetter_digit (hdigit c hmem) b (List.mem_append_left ['s'] hb)
    · refine hother c ?_ b hb
      rw [htext] at hc
      simp only [List.mem_append, hmem, or_false] at hc
      simpa [or_assoc] using hc
  · rw [htext, List.length_append, List.take_left' (by simp)] at hc
    by_cases hmem : c ∈ Nat.toDigits 10 n
    · exact sameLetter_digit (hdigit c hmem) 's' (by decide)
    · refine hlow c ?_
      simpa only [List.mem_append, hmem, or_false] using hc

/-! ## What is left of a text -/

/-- What is left of a text is not sensitive. -/
theorem found_redactText (s : PyStr) :
    found (REDACT_VALUE_PATTERN env) (redactText env s).text = false := by
  unfold redactText
  by_cases hfound : found (REDACT_VALUE_PATTERN env) s.text = true
  · rw [if_pos hfound]
    exact spotless_redactedMarker.found_eq_false env
  · rw [if_neg hfound]
    by_cases hlong : 500 < s.text.length
    · rw [if_pos hlong]
      exact (spotless_lengthNote s.text.length).found_eq_false env
    · rw [if_neg hlong]
      exact Bool.eq_false_iff.mpr hfound

theorem length_redactText_le (s : PyStr) : (redactText env s).text.length ≤ 500 := by
  unfold redactText
  by_cases hfound : found (REDACT_VALUE_PATTERN env) s.text = true
  · rw [if_pos hfound]
    decide
  · rw [if_neg hfound]
    by_cases hlong : 500 < s.text.length
    · rw [if_pos hlong]
      exact (length_lengthNote s.length_lt).trans (by decide)
    · rw [if_neg hlong]
      omega

/-- A short text that is not sensitive stays. -/
theorem redactText_eq_self {s : PyStr} (hfound : found (REDACT_VALUE_PATTERN env) s.text = false)
    (hshort : s.text.length ≤ 500) : redactText env s = s := by
  unfold redactText
  rw [if_neg (by simp [hfound]), if_neg (by omega)]

theorem redactText_redactText (s : PyStr) : redactText env (redactText env s) = redactText env s :=
  redactText_eq_self env (found_redactText env s) (length_redactText_le env s)

end AuditRedaction

/-! ## Values -/

/-- A value is in another: it is the value itself, or in an item or an entry of it. -/
inductive Metadata.Part (w : Metadata) : Metadata → Prop
  | self : Part w w
  | list {items : List Metadata} {item : Metadata} (h : item ∈ items) (hw : Part w item) :
      Part w (.list items)
  | tuple {items : List Metadata} {item : Metadata} (h : item ∈ items) (hw : Part w item) :
      Part w (.tuple items)
  | dict {entries : List (String × Metadata)} {key : String} {item : Metadata}
      (h : (key, item) ∈ entries) (hw : Part w item) : Part w (.dict entries)

/-- No text in the value is sensitive, and nothing but the marker is under a sensitive key. -/
structure Metadata.Redacted (env : Env) (v : Metadata) : Prop where
  text : ∀ s, (Metadata.str s).Part v →
    found (AuditRedaction.REDACT_VALUE_PATTERN env) s.text = false
  entry : ∀ entries, (Metadata.dict entries).Part v → ∀ key item, (key, item) ∈ entries →
    AuditRedaction.shouldRedactKey key = true → item = .str AuditRedaction.redactedMarker

namespace AuditRedaction

variable {env : Env}

theorem redacted_str {s : PyStr} (h : found (REDACT_VALUE_PATTERN env) s.text = false) :
    (Metadata.str s).Redacted env where
  text s' hs := by
    cases hs
    exact h
  entry _ hs := nomatch hs

theorem redacted_list {items : List Metadata} (h : ∀ item ∈ items, item.Redacted env) :
    (Metadata.list items).Redacted env where
  text s hs := by
    cases hs with
    | list hitem hs => exact (h _ hitem).text s hs
  entry entries hs := by
    cases hs with
    | list hitem hs => exact (h _ hitem).entry entries hs

theorem redacted_dict {entries : List (String × Metadata)}
    (h : ∀ key item, (key, item) ∈ entries → item.Redacted env)
    (hkey : ∀ key item, (key, item) ∈ entries → shouldRedactKey key = true →
      item = .str redactedMarker) : (Metadata.dict entries).Redacted env where
  text s hs := by
    cases hs with
    | dict hitem hs => exact (h _ _ hitem).text s hs
  entry entries' hs := by
    cases hs with
    | self => exact hkey
    | dict hitem hs => exact (h _ _ hitem).entry entries' hs

theorem redacted_redactedMarker : (Metadata.str redactedMarker).Redacted env :=
  redacted_str (spotless_redactedMarker.found_eq_false env)

variable (env)

/-- A value that is too deep is replaced by a marker. -/
theorem redactMetadata_deep {depth : ℕ} (h : 20 < depth) (v : Metadata) :
    redactMetadata env depth v = .str truncatedMarker := by
  unfold redactMetadata
  exact if_pos h

section Equations

variable {depth : ℕ} (h : ¬ 20 < depth)
include h

theorem redactMetadata_str (s : PyStr) :
    redactMetadata env depth (.str s) = .str (redactText env s) := by
  unfold redactMetadata
  exact if_neg h

theorem redactMetadata_list (items : List Metadata) :
    redactMetadata env depth (.list items) = .list (redactItems env (depth + 1) items) := by
  unfold redactMetadata
  exact if_neg h

theorem redactMetadata_tuple (items : List Metadata) :
    redactMetadata env depth (.tuple items) = .list (redactItems env (depth + 1) items) := by
  unfold redactMetadata
  exact if_neg h

theorem redactMetadata_dict (entries : List (String × Metadata)) :
    redactMetadata env depth (.dict entries) = .dict (redactEntries env (depth + 1) entries) := by
  unfold redactMetadata
  exact if_neg h

/-- Values that hold no text stay. -/
theorem redactMetadata_scalar {v : Metadata} (hv : v = .null ∨ (∃ b, v = .bool b) ∨
    ∃ r, v = .number r) : redactMetadata env depth v = v := by
  obtain rfl | ⟨b, rfl⟩ | ⟨r, rfl⟩ := hv <;> unfold redactMetadata <;> exact if_neg h

end Equations

mutual

/-- **Nothing sensitive** is left of a value. -/
theorem redacted_redactMetadata (depth : ℕ) (v : Metadata) :
    (redactMetadata env depth v).Redacted env := by
  by_cases hdeep : 20 < depth
  · rw [redactMetadata_deep env hdeep]
    exact redacted_str (spotless_truncatedMarker.found_eq_false env)
  cases v with
  | null | bool b | number r =>
    rw [redactMetadata_scalar env hdeep (by simp)]
    exact ⟨fun _ hs => (nomatch hs), fun _ hs => (nomatch hs)⟩
  | str s =>
    rw [redactMetadata_str env hdeep]
    exact redacted_str (found_redactText env s)
  | list items =>
    rw [redactMetadata_list env hdeep]
    exact redacted_list (redacted_redactItems (depth + 1) items)
  | tuple items =>
    rw [redactMetadata_tuple env hdeep]
    exact redacted_list (redacted_redactItems (depth + 1) items)
  | dict entries =>
    rw [redactMetadata_dict env hdeep]
    have h := redacted_redactEntries (depth + 1) entries
    exact redacted_dict (fun key item hmem => (h key item hmem).1)
      fun key item hmem => (h key item hmem).2

theorem redacted_redactItems (depth : ℕ) : ∀ (items : List Metadata),
    ∀ item ∈ redactItems env depth items, item.Redacted env
  | [], _, h => nomatch h
  | v :: items, item, h => by
    rw [redactItems, List.mem_cons] at h
    cases h with
    | inl h => exact h ▸ redacted_redactMetadata depth v
    | inr h => exact redacted_redactItems depth items item h

theorem redacted_redactEntries (depth : ℕ) : ∀ (entries : List (String × Metadata)),
    ∀ key item, (key, item) ∈ redactEntries env depth entries →
      item.Redacted env ∧ (shouldRedactKey key = true → item = .str redactedMarker)
  | [], _, _, h => nomatch h
  | (k, v) :: entries, key, item, h => by
    rw [redactEntries, List.mem_cons] at h
    cases h with
    | inr h => exact redacted_redactEntries depth entries key item h
    | inl h =>
      obtain ⟨rfl, rfl⟩ := Prod.mk.inj h
      by_cases hkey : shouldRedactKey key = true
      · rw [if_pos hkey]
        exact ⟨redacted_redactedMarker, fun _ => rfl⟩
      · rw [if_neg hkey]
        exact ⟨redacted_redactMetadata depth v, fun h => absurd h hkey⟩

end

mutual

/-- **Redaction** changes nothing the second time. -/
theorem redactMetadata_redactMetadata (depth : ℕ) (v : Metadata) :
    redactMetadata env depth (redactMetadata env depth v) = redactMetadata env depth v := by
  by_cases hdeep : 20 < depth
  · rw [redactMetadata_deep env hdeep, redactMetadata_deep env hdeep]
  cases v with
  | null | bool b | number r =>
    exact congrArg _ (redactMetadata_scalar env hdeep (by simp))
  | str s => rw [redactMetadata_str env hdeep, redactMetadata_str env hdeep, redactText_redactText]
  | list items =>
    rw [redactMetadata_list env hdeep, redactMetadata_list env hdeep,
      redactItems_redactItems (depth + 1) items]
  | tuple items =>
    rw [redactMetadata_tuple env hdeep, redactMetadata_list env hdeep,
      redactItems_redactItems (depth + 1) items]
  | dict entries =>
    rw [redactMetadata_dict env hdeep, redactMetadata_dict env hdeep,
      redactEntries_redactEntries (depth + 1) entries]

theorem redactItems_redactItems (depth : ℕ) : ∀ (items : List Metadata),
    redactItems env depth (redactItems env depth items) = redactItems env depth items
  | [] => rfl
  | v :: items => by
    simp only [redactItems, redactMetadata_redactMetadata depth v,
      redactItems_redactItems depth items]

theorem redactEntries_redactEntries (depth : ℕ) : ∀ (entries : List (String × Metadata)),
    redactEntries env depth (redactEntries env depth entries) = redactEntries env depth entries
  | [] => rfl
  | (key, v) :: entries => by
    simp only [redactEntries, redactEntries_redactEntries depth entries]
    by_cases hkey : shouldRedactKey key = true
    · simp only [if_pos hkey]
    · simp only [if_neg hkey, redactMetadata_redactMetadata depth v]

end

/-- **Redaction is complete and idempotent.** -/
theorem redactMetadata_complete (v : Metadata) :
    (redactMetadata env 0 v).Redacted env ∧
      redactMetadata env 0 (redactMetadata env 0 v) = redactMetadata env 0 v :=
  ⟨redacted_redactMetadata env 0 v, redactMetadata_redactMetadata env 0 v⟩

end AuditRedaction

end DevOps
