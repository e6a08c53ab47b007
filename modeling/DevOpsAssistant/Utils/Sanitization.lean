import DevOpsAssistant.Core.Config
import DevOpsAssistant.Text.Strings
import Mathlib.Data.List.Infix
import Mathlib.Tactic.Common

/-!
# Sanitized text

`sanitizeText` replaces line ends once, and truncates after it has stripped: what it leaves may hold
a line end again, or end in white space.

* `sanitizeText`: text without control characters, with plain line ends; `previewText`: its beginning.
* `replaceCrlf`: how line ends are replaced in a part of a text; **`crlf_infix_iff`**.
* `visible`, `upToWidth`: the text between its first and last visible character, and its beginning.
* **`sanitizeText_twice_iff`**: the texts that stay as they are when they are sanitized again.
-/

namespace DevOps

variable (env : Env)

/-- `CONTROL_CHARS`: every control character but tab, line feed and carriage return. -/
def isControlChar (c : Char) : Bool :=
  c.toNat ≤ 0x08 || c.toNat = 0x0b || c.toNat = 0x0c || (0x0e ≤ c.toNat && c.toNat ≤ 0x1f)
    || c.toNat = 0x7f

/-- `replace("\r\n", "\n")`. -/
def replaceCrlf : List Char → List Char
  | '\r' :: '\n' :: cs => '\n' :: replaceCrlf cs
  | c :: cs => c :: replaceCrlf cs
  | [] => []

/-- The first `n` characters. -/
def firstChars (n : ℕ) (s : String) : String := String.ofList (s.toList.take n)

/-- `s[:n]`; a negative `n` counts from the end. -/
def upTo (n : Int) (s : String) : String :=
  firstChars (if n < 0 then (s.length + n).toNat else n.toNat) s

def sanitizeText (value : String) (maxLength : Option Int) : String :=
  let cleaned := env.strip
    (String.ofList (replaceCrlf (value.toList.filter fun c => !isControlChar c)))
  match maxLength with
  | none => cleaned
  | some n => upTo n cleaned

/-- `preview_text`, with its default `limit`. -/
def previewText (value : String) : String :=
  let sanitized := sanitizeText env value none
  if sanitized.length ≤ 500 then sanitized else firstChars 500 sanitized ++ "..."

end DevOps

namespace DevOps

open Text

/-! ## Line ends -/

/-- A character that starts no line end stays, also when the text is cut after it. -/
theorem replaceCrlf_cons {c : Char} {cs ds : List Char}
    (h : ∀ es, c = '\r' → cs = '\n' :: es → False) (hp : ds <+: cs) :
    replaceCrlf (c :: ds) = c :: replaceCrlf ds := by
  rw [replaceCrlf]
  rintro es hc rfl
  obtain ⟨fs, rfl⟩ := hp
  exact h _ hc rfl

theorem length_replaceCrlf_le (cs : List Char) : (replaceCrlf cs).length ≤ cs.length := by
  fun_induction replaceCrlf cs with
  | case1 cs ih => simp; omega
  | case2 c cs _ ih => simpa using ih
  | case3 => simp

/-- Replacing line ends makes a text shorter, unless it has none. -/
theorem replaceCrlf_eq_self_iff (cs : List Char) :
    replaceCrlf cs = cs ↔ ¬ ['\r', '\n'] <:+: cs := by
  fun_induction replaceCrlf cs with
  | case1 cs ih =>
    constructor
    · intro h
      have hlength := congrArg List.length h
      have hle := length_replaceCrlf_le cs
      simp at hlength
      omega
    · exact fun h => absurd ⟨[], cs, rfl⟩ h
  | case2 c cs hne ih =>
    rw [List.cons.injEq, List.infix_cons_iff, not_or, ← ih]
    refine ⟨fun h => ⟨?_, h.2⟩, fun h => ⟨rfl, h.2⟩⟩
    rintro ⟨t, ht⟩
    obtain ⟨rfl, hcs⟩ := List.cons.inj ht
    exact hne t rfl hcs.symm
  | case3 => simp

/-- A line feed comes first if it was first, or followed a carriage return. -/
theorem singleton_prefix_replaceCrlf (cs : List Char) :
    ['\n'] <+: replaceCrlf cs ↔ ['\n'] <+: cs ∨ ['\r', '\n'] <+: cs := by
  fun_cases replaceCrlf cs with
  | case1 cs => simp
  | case2 c cs hne =>
    rw [List.cons_prefix_cons, List.cons_prefix_cons, List.cons_prefix_cons]
    simp only [List.nil_prefix, and_true]
    refine (or_iff_left ?_).symm
    rintro ⟨hc, t, ht⟩
    exact hne t hc.symm ht.symm
  | case3 => simp

/-- **A line end is left** where one stood after a carriage return. -/
theorem crlf_infix_iff (cs : List Char) :
    ['\r', '\n'] <:+: replaceCrlf cs ↔ ['\r', '\r', '\n'] <:+: cs := by
  fun_induction replaceCrlf cs with
  | case1 cs ih =>
    rw [List.infix_cons_iff, ih, List.infix_cons_iff, List.infix_cons_iff]
    simp
  | case2 c cs hne ih =>
    rw [List.infix_cons_iff, ih, List.infix_cons_iff]
    refine or_congr_left ?_
    rw [List.cons_prefix_cons, List.cons_prefix_cons, singleton_prefix_replaceCrlf]
    refine and_congr_right fun hc => or_iff_right ?_
    rintro ⟨t, ht⟩
    exact hne t hc.symm ht.symm
  | case3 => simp

/-- Replacing line ends keeps the last character. -/
theorem getLast?_replaceCrlf (cs : List Char) : (replaceCrlf cs).getLast? = cs.getLast? := by
  fun_induction replaceCrlf cs with
  | case1 cs ih =>
    cases cs with
    | nil => rfl
    | cons c cs => rw [List.getLast?_cons, ih]; simp [List.getLast?_cons]
  | case2 c cs hne ih => rw [List.getLast?_cons, List.getLast?_cons, ih]
  | case3 => rfl

/-- Replacing line ends brings in no other characters. -/
theorem mem_of_mem_replaceCrlf {cs : List Char} {c : Char} (h : c ∈ replaceCrlf cs) : c ∈ cs := by
  fun_induction replaceCrlf cs with
  | case1 cs ih =>
    rcases List.mem_cons.mp h with rfl | h
    · simp
    · exact List.mem_cons_of_mem _ (List.mem_cons_of_mem _ (ih h))
  | case2 d cs _ ih =>
    rcases List.mem_cons.mp h with rfl | h
    · exact List.mem_cons_self
    · exact List.mem_cons_of_mem _ (ih h)
  | case3 => cases h

/-- The white space at the start of a text, with and without line ends replaced. -/
theorem dropWhile_replaceCrlf (cs : List Char) :
    (replaceCrlf cs).dropWhile isSpace = replaceCrlf (cs.dropWhile isSpace) := by
  fun_induction replaceCrlf cs with
  | case1 cs ih =>
    rw [List.dropWhile_cons_of_pos (by decide), ih, List.dropWhile_cons_of_pos (by decide),
      List.dropWhile_cons_of_pos (by decide)]
  | case2 c cs hne ih =>
    by_cases hc : isSpace c = true
    · rw [List.dropWhile_cons_of_pos hc, ih, List.dropWhile_cons_of_pos hc]
    · rw [List.dropWhile_cons_of_neg hc, List.dropWhile_cons_of_neg hc,
        replaceCrlf_cons hne (List.prefix_refl cs)]
  | case3 => rfl

/-- White space at the end of a text is kept or dropped as a whole. -/
theorem rdropWhile_cons (p : Char → Bool) (c : Char) (cs : List Char) :
    (c :: cs).rdropWhile p =
      if cs.rdropWhile p = [] ∧ p c = true then [] else c :: cs.rdropWhile p := by
  unfold List.rdropWhile
  rw [List.reverse_cons, List.dropWhile_append]
  cases cs.reverse.dropWhile p with
  | nil => cases hc : p c <;> simp [hc]
  | cons d ds => simp

theorem rdropWhile_replaceCrlf (cs : List Char) :
    (replaceCrlf cs).rdropWhile isSpace = replaceCrlf (cs.rdropWhile isSpace) := by
  have hnil : ∀ cs : List Char,
      (replaceCrlf cs).rdropWhile isSpace = replaceCrlf (cs.rdropWhile isSpace) →
        ((replaceCrlf cs).rdropWhile isSpace = [] ↔ cs.rdropWhile isSpace = []) := by
    intro cs h
    rw [h]
    cases hcs : cs.rdropWhile isSpace with
    | nil => simp [replaceCrlf]
    | cons c ds =>
      fun_cases replaceCrlf (c :: ds) <;> simp
  fun_induction replaceCrlf cs with
  | case1 cs ih =>
    have hnil := hnil cs ih
    rw [rdropWhile_cons, rdropWhile_cons, rdropWhile_cons, ih]
    rw [ih] at hnil
    by_cases h : cs.rdropWhile isSpace = []
    · rw [if_pos ⟨hnil.mpr h, by decide⟩, if_pos ⟨if_pos ⟨h, by decide⟩, by decide⟩]
      rfl
    · rw [if_neg fun h' => h (hnil.mp h'.1), if_neg fun h' => ?_, if_neg fun h' => h h'.1]
      · rfl
      · rw [if_neg fun h' => h h'.1] at h'
        cases h'.1
  | case2 c cs hne ih =>
    have hnil := hnil cs ih
    rw [rdropWhile_cons, rdropWhile_cons, ih]
    rw [ih] at hnil
    by_cases h : cs.rdropWhile isSpace = [] ∧ isSpace c = true
    · rw [if_pos ⟨hnil.mpr h.1, h.2⟩, if_pos h]
      rfl
    · rw [if_neg fun h' => h ⟨hnil.mp h'.1, h'.2⟩, if_neg h,
        replaceCrlf_cons hne (List.rdropWhile_prefix isSpace cs)]
  | case3 => rfl

/-- **Stripping and replacing line ends** commute. -/
theorem strip_replaceCrlf (cs : List Char) :
    strip isSpace (replaceCrlf cs) = replaceCrlf (strip isSpace cs) := by
  change ((replaceCrlf cs).dropWhile isSpace).rdropWhile isSpace = _
  rw [dropWhile_replaceCrlf, rdropWhile_replaceCrlf]
  rfl

/-! ## Truncation -/

/-- The first `n` characters of a text, a line end `\r\n` counted as one. -/
def upToWidth : ℕ → List Char → List Char
  | 0, _ => []
  | _ + 1, [] => []
  | n + 1, '\r' :: '\n' :: cs => '\r' :: '\n' :: upToWidth n cs
  | n + 1, c :: cs => c :: upToWidth n cs

theorem upToWidth_begins (n : ℕ) (cs : List Char) : upToWidth n cs <+: cs := by
  fun_induction upToWidth n cs with
  | case1 cs => exact List.nil_prefix
  | case2 n => exact List.nil_prefix
  | case3 n cs ih => simpa [List.cons_prefix_cons] using ih
  | case4 n c cs _ ih => simpa [List.cons_prefix_cons] using ih

/-- **Truncation** of a text whose line ends have been replaced. -/
theorem take_replaceCrlf (n : ℕ) (cs : List Char) :
    (replaceCrlf cs).take n = replaceCrlf (upToWidth n cs) := by
  fun_induction upToWidth n cs with
  | case1 cs => rfl
  | case2 n => rfl
  | case3 n cs ih =>
    rw [replaceCrlf, List.take_succ_cons, ih]
    rfl
  | case4 n c cs hne ih =>
    rw [replaceCrlf_cons hne (List.prefix_refl cs), List.take_succ_cons, ih,
      replaceCrlf_cons hne (upToWidth_begins n cs)]

theorem upToWidth_eq_self_iff (n : ℕ) (cs : List Char) :
    upToWidth n cs = cs ↔ (replaceCrlf cs).length ≤ n := by
  fun_induction upToWidth n cs with
  | case1 cs =>
    cases cs with
    | nil => simp [replaceCrlf]
    | cons c cs => fun_cases replaceCrlf (c :: cs) <;> simp
  | case2 n => simp [replaceCrlf]
  | case3 n cs ih =>
    rw [replaceCrlf, List.length_cons, Nat.add_le_add_iff_right, ← ih]
    simp
  | case4 n c cs hne ih =>
    rw [replaceCrlf_cons hne (List.prefix_refl cs), List.length_cons, Nat.add_le_add_iff_right,
      ← ih]
    simp

/-! ## Sanitizing twice -/

/-- The text between its first and its last visible character, without control characters. -/
def visible (value : String) : List Char :=
  strip isSpace (value.toList.filter fun c => !isControlChar c)

/-- What sanitizing leaves is **settled**: no line end follows a carriage return, and truncation
cuts after a visible character. With a negative length, nothing is left. -/
def Settled (value : String) : Option ℤ → Prop
  | none => ¬ ['\r', '\r', '\n'] <:+: visible value
  | some n =>
    if n < 0 then upToWidth n.natAbs (visible value) = visible value
    else ¬ ['\r', '\r', '\n'] <:+: upToWidth n.toNat (visible value) ∧
      ∀ c ∈ (upToWidth n.toNat (visible value)).getLast?, isSpace c = false

variable {env : Env}

/-- `cleaned[:max_length]`, if there is a length. -/
def truncated (cs : List Char) : Option ℤ → List Char
  | none => cs
  | some n => cs.take (if n < 0 then (cs.length + n).toNat else n.toNat)

/-- What sanitizing leaves, as a list of characters. -/
theorem toList_sanitizeText (hstrip : ∀ s, env.strip s = Text.stripped s) (value : String)
    (n : Option ℤ) :
    (sanitizeText env value n).toList = truncated (replaceCrlf (visible value)) n := by
  have hcleaned : (env.strip (String.ofList (replaceCrlf
      (value.toList.filter fun c => !isControlChar c)))).toList = replaceCrlf (visible value) := by
    rw [hstrip, Text.stripped, String.toList_ofList, String.toList_ofList, strip_replaceCrlf, visible]
  unfold sanitizeText
  cases n with
  | none => exact hcleaned
  | some n =>
    simp only [upTo, firstChars, String.toList_ofList]
    rw [← String.length_toList, hcleaned]
    rfl

/-- Sanitized text has no control characters. -/
theorem visible_ofList {cs : List Char} {value : String} (h : cs <+: replaceCrlf (visible value)) :
    visible (String.ofList cs) = strip isSpace cs := by
  unfold visible
  rw [String.toList_ofList, List.filter_eq_self.mpr]
  intro c hc
  have hc := (strip_isInfix isSpace _).subset (mem_of_mem_replaceCrlf (h.subset hc))
  exact (List.mem_filter.mp hc).2

/-- A text stays as it is, when it is stripped and its line ends are replaced, exactly if it has no
line end and does not end in white space. -/
theorem replaceCrlf_strip_eq_self_iff {cs : List Char} (hhead : ∀ c ∈ cs.head?, isSpace c = false) :
    replaceCrlf (strip isSpace cs) = cs ↔
      ¬ ['\r', '\n'] <:+: cs ∧ ∀ c ∈ cs.getLast?, isSpace c = false := by
  have hdrop : cs.dropWhile isSpace = cs := by
    cases cs with
    | nil => rfl
    | cons c cs => rw [List.dropWhile_cons_of_neg (by simp [hhead c rfl])]
  have hstrip : strip isSpace cs = cs.rdropWhile isSpace := by
    change (cs.dropWhile isSpace).rdropWhile isSpace = _
    rw [hdrop]
  have hlast : cs.rdropWhile isSpace = cs ↔ ∀ c ∈ cs.getLast?, isSpace c = false := by
    rw [List.rdropWhile_eq_self_iff]
    constructor
    · intro h c hc
      obtain ⟨hne, rfl⟩ := List.mem_getLast?_eq_getLast hc
      simpa using h hne
    · intro h hne
      simp [h _ (List.getLast?_eq_getLast_of_ne_nil hne)]
  rw [hstrip, ← hlast, ← replaceCrlf_eq_self_iff]
  constructor
  · intro h
    -- both steps can only make the text shorter
    have hsame : cs.rdropWhile isSpace = cs := by
      refine (List.rdropWhile_prefix isSpace cs).eq_of_length_le ?_
      have hle := length_replaceCrlf_le (cs.rdropWhile isSpace)
      rwa [h] at hle
    rw [hsame] at h
    exact ⟨h, hsame⟩
  · rintro ⟨h, hsame⟩
    rw [hsame, h]

/-- Visible text starts with a visible character, with and without line ends replaced. -/
theorem isSpace_head_visible {value : String} {cs : List Char} (h : cs <+: visible value) :
    ∀ c ∈ (replaceCrlf cs).head?, isSpace c = false := by
  intro c hc
  cases cs with
  | nil => cases hc
  | cons d cs =>
    obtain ⟨ds, hds⟩ := h
    have hd : isSpace d = false := head_strip hds.symm
    rw [replaceCrlf_cons (fun es hr _ => ?_) (List.prefix_refl cs)] at hc
    · rwa [← Option.some.inj hc]
    · rw [hr] at hd
      exact absurd hd (by decide)

/-- Visible text ends with a visible character. -/
theorem isSpace_last_visible {value : String} :
    ∀ c ∈ (visible value).getLast?, isSpace c = false := by
  intro c hc
  obtain ⟨hne, rfl⟩ := List.mem_getLast?_eq_getLast hc
  exact Bool.eq_false_iff.mpr (List.rdropWhile_last_not isSpace _ hne)

/-- The second pass, on what the first has left. -/
theorem toList_sanitizeText_twice (hstrip : ∀ s, env.strip s = Text.stripped s) {value : String}
    {n : Option ℤ} {cs : List Char} (h : (sanitizeText env value n).toList = cs)
    (hcs : cs <+: replaceCrlf (visible value)) :
    (sanitizeText env (sanitizeText env value n) n).toList =
      truncated (replaceCrlf (strip isSpace cs)) n := by
  rw [toList_sanitizeText hstrip, ← visible_ofList hcs, ← h, String.ofList_toList]

theorem length_replaceCrlf_strip_le (cs : List Char) :
    (replaceCrlf (strip isSpace cs)).length ≤ cs.length :=
  (length_replaceCrlf_le _).trans (strip_isInfix isSpace cs).length_le

/-- Truncation to a number of characters. -/
theorem sanitizeText_twice_of_nonneg (hstrip : ∀ s, env.strip s = Text.stripped s) (value : String)
    {n : ℤ} (hn : ¬ n < 0) : sanitizeText env (sanitizeText env value (some n)) (some n) =
      sanitizeText env value (some n) ↔
    ¬ ['\r', '\r', '\n'] <:+: upToWidth n.toNat (visible value) ∧
      ∀ c ∈ (upToWidth n.toNat (visible value)).getLast?, isSpace c = false := by
  have honce : (sanitizeText env value (some n)).toList =
      (replaceCrlf (visible value)).take n.toNat := by
    rw [toList_sanitizeText hstrip, truncated, if_neg hn]
  have htwice := toList_sanitizeText_twice hstrip honce (List.take_prefix _ _)
  rw [truncated, if_neg hn] at htwice
  -- the second pass is too short to be truncated
  rw [List.take_of_length_le ((length_replaceCrlf_strip_le _).trans (List.length_take_le _ _))]
    at htwice
  rw [← String.toList_inj, htwice, honce, take_replaceCrlf,
    replaceCrlf_strip_eq_self_iff (isSpace_head_visible (upToWidth_begins _ _)), crlf_infix_iff,
    getLast?_replaceCrlf]

/-- Truncation by a number of characters at the end takes some away each time, until none is
left. -/
theorem sanitizeText_twice_of_neg (hstrip : ∀ s, env.strip s = Text.stripped s) (value : String)
    {n : ℤ} (hn : n < 0) : sanitizeText env (sanitizeText env value (some n)) (some n) =
      sanitizeText env value (some n) ↔
    upToWidth n.natAbs (visible value) = visible value := by
  have honce : (sanitizeText env value (some n)).toList = (replaceCrlf (visible value)).take
      ((replaceCrlf (visible value)).length + n).toNat := by
    rw [toList_sanitizeText hstrip, truncated, if_pos hn]
  have htwice := toList_sanitizeText_twice hstrip honce (List.take_prefix _ _)
  rw [truncated, if_pos hn] at htwice
  rw [← String.toList_inj, htwice, honce, upToWidth_eq_self_iff]
  generalize replaceCrlf (visible value) = cs
  have hle := length_replaceCrlf_strip_le (cs.take (cs.length + n).toNat)
  constructor
  · intro h
    have hlength := congrArg List.length h
    simp only [List.length_take] at hlength hle
    omega
  · intro h
    have hnil : cs.take (cs.length + n).toNat = [] := by
      rw [List.take_eq_nil_iff]
      omega
    rw [hnil]
    simp [strip, replaceCrlf]

/-- **Sanitizing twice** leaves what sanitizing once leaves, exactly for settled texts. -/
theorem sanitizeText_twice_iff (env : Env) (hstrip : ∀ s, env.strip s = Text.stripped s) (value : String)
    (n : Option ℤ) : sanitizeText env (sanitizeText env value n) n = sanitizeText env value n ↔
      Settled value n := by
  cases n with
  | none =>
    have honce : (sanitizeText env value none).toList = replaceCrlf (visible value) :=
      toList_sanitizeText hstrip value none
    have hlast : ∀ c ∈ (replaceCrlf (visible value)).getLast?, isSpace c = false := by
      intro c hc
      rw [getLast?_replaceCrlf] at hc
      exact isSpace_last_visible c hc
    rw [← String.toList_inj, toList_sanitizeText_twice hstrip honce (List.prefix_refl _), honce,
      truncated,
      replaceCrlf_strip_eq_self_iff (isSpace_head_visible (List.prefix_refl _)), crlf_infix_iff,
      and_iff_left hlast]
    rfl
  | some n =>
    by_cases hn : n < 0
    · rw [sanitizeText_twice_of_neg hstrip value hn, Settled, if_pos hn]
    · rw [sanitizeText_twice_of_nonneg hstrip value hn, Settled, if_neg hn]

/-- An environment with `str.strip`. -/
def stripEnv : Env := { Env.trial with strip := Text.stripped }

/-- Line ends are replaced once and for all. -/
theorem sanitizeText_twice_lines :
    sanitizeText stripEnv (sanitizeText stripEnv " a\r\nb " none) none =
      sanitizeText stripEnv " a\r\nb " none :=
  (sanitizeText_twice_iff stripEnv (fun _ => rfl) " a\r\nb " none).mpr (by unfold Settled; decide)

/-- A line end after a carriage return. -/
theorem sanitizeText_not_idempotent : ¬ ∀ (env : Env), (∀ s, env.strip s = Text.stripped s) →
    ∀ (value : String) (n : Option ℤ),
      sanitizeText env (sanitizeText env value n) n = sanitizeText env value n := by
  intro h
  have hne : sanitizeText stripEnv (sanitizeText stripEnv "a\r\r\nb" none) none ≠
      sanitizeText stripEnv "a\r\r\nb" none := by
    decide +kernel
  exact hne (h stripEnv (fun _ => rfl) "a\r\r\nb" none)

end DevOps
