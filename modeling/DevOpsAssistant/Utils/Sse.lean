import Mathlib.Data.List.Basic
import Mathlib.Data.Int.Notation
import Mathlib.Tactic.Common

/-!
# Server-sent events

* `JsonValue`, `jsonDumps`: what `json.dumps` writes, with the separators `,` and `:`.
* `encodeSse`: a named event.
* **`printable_jsonDumps`**: what is written is one line.
-/

namespace DevOps

/-! ## JSON -/

/-- What `float.__repr__` writes, or `NaN` and `Infinity`. -/
structure FloatRepr where
  text : String
  plain : ∀ c ∈ text.toList, c.isAlphanum = true ∨ c ∈ ['+', '-', '.']

/-- A value that `json.dumps` can be given; `other` is written as `str(value)`. -/
inductive JsonValue where
  | null
  | bool (b : Bool)
  | int (n : ℤ)
  | float (x : FloatRepr)
  | str (s : String)
  | other (s : String)
  | array (vs : List JsonValue)
  | object (fields : List (String × JsonValue))

/-- A digit of a `\u` escape. -/
def hexDigit (n : ℕ) : Char := Nat.digitChar (n % 16)

/-- A `\u` escape. -/
def unicodeEscape (n : ℕ) : List Char :=
  ['\\', 'u', hexDigit (n / 4096), hexDigit (n / 256), hexDigit (n / 16), hexDigit n]

/-- A character of a string, as `ensure_ascii` has it. -/
def escapeAscii (c : Char) : List Char :=
  if c = '"' then ['\\', '"']
  else if c = '\\' then ['\\', '\\']
  else if c = '\n' then ['\\', 'n']
  else if c = '\r' then ['\\', 'r']
  else if c = '\t' then ['\\', 't']
  else if c.toNat = 12 then ['\\', 'f']
  else if c.toNat = 8 then ['\\', 'b']
  else if 32 ≤ c.toNat ∧ c.toNat ≤ 126 then [c]
  else if c.toNat < 0x10000 then unicodeEscape c.toNat
  else
    unicodeEscape (0xD800 + (c.toNat - 0x10000) / 1024) ++
      unicodeEscape (0xDC00 + (c.toNat - 0x10000) % 1024)

/-- A string between quotation marks. -/
def jsonString (s : String) : List Char := '"' :: (s.toList.flatMap escapeAscii ++ ['"'])

mutual

def jsonChars : JsonValue → List Char
  | .null => "null".toList
  | .bool true => "true".toList
  | .bool false => "false".toList
  | .int n => (toString n).toList
  | .float x => x.text.toList
  | .str s => jsonString s
  | .other s => jsonString s
  | .array vs => '[' :: (jsonItems vs ++ [']'])
  | .object fields => '{' :: (jsonFields fields ++ ['}'])

/-- The items of an array. -/
def jsonItems : List JsonValue → List Char
  | [] => []
  | [v] => jsonChars v
  | v :: v' :: vs => jsonChars v ++ ',' :: jsonItems (v' :: vs)

/-- The fields of an object. -/
def jsonFields : List (String × JsonValue) → List Char
  | [] => []
  | [(k, v)] => jsonString k ++ ':' :: jsonChars v
  | (k, v) :: f :: fs => jsonString k ++ ':' :: (jsonChars v ++ ',' :: jsonFields (f :: fs))

end

/-- `json.dumps(value, separators=(",", ":"), default=str)`. -/
def jsonDumps (v : JsonValue) : String := String.ofList (jsonChars v)

def encodeSse (event : String) (data : List (String × JsonValue)) : String :=
  let payload := jsonDumps (.object data)
  "event: " ++ event ++ "\ndata: " ++ payload ++ "\n\n"

/-! ## One line -/

/-- Characters that are written as they are. -/
def Printable (cs : List Char) : Prop := ∀ c ∈ cs, 32 ≤ c.toNat ∧ c.toNat ≤ 126

section Printable

variable {cs ds : List Char} {c : Char}

instance : Decidable (Printable cs) := List.decidableBAll _ cs

theorem Printable.append (hc : Printable cs) (hd : Printable ds) : Printable (cs ++ ds) :=
  List.forall_mem_append.mpr ⟨hc, hd⟩

theorem Printable.cons (hc : 32 ≤ c.toNat ∧ c.toNat ≤ 126) (hd : Printable ds) : Printable (c :: ds) :=
  List.forall_mem_cons.mpr ⟨hc, hd⟩

theorem Printable.not_mem (h : Printable cs) (hc : c.toNat < 32) : c ∉ cs := fun hm => by
  have := h c hm
  omega

theorem printable_hexDigit (n : ℕ) : 32 ≤ (hexDigit n).toNat ∧ (hexDigit n).toNat ≤ 126 := by
  have h : ∀ d < 16, 32 ≤ (Nat.digitChar d).toNat ∧ (Nat.digitChar d).toNat ≤ 126 := by decide
  exact h _ (Nat.mod_lt n (by decide))

theorem printable_unicodeEscape (n : ℕ) : Printable (unicodeEscape n) := by
  have hhex := printable_hexDigit
  refine .cons (by decide) (.cons (by decide) (.cons (hhex _) (.cons (hhex _) (.cons (hhex _) ?_))))
  exact .cons (hhex _) fun _ h => nomatch h

theorem printable_escapeAscii (c : Char) : Printable (escapeAscii c) := by
  unfold escapeAscii
  split_ifs with h₁ h₂ h₃ h₄ h₅ h₆ h₇ h₈ h₉
  · decide
  · decide
  · decide
  · decide
  · decide
  · decide
  · decide
  · exact .cons h₈ fun _ h => nomatch h
  · exact printable_unicodeEscape _
  · exact (printable_unicodeEscape _).append (printable_unicodeEscape _)

theorem printable_jsonString (s : String) : Printable (jsonString s) := by
  refine .cons (by decide) (.append (fun c hc => ?_) (by decide))
  obtain ⟨c', -, hc'⟩ := List.mem_flatMap.mp hc
  exact printable_escapeAscii c' c hc'

theorem toNat_of_isAlphanum (h : c.isAlphanum = true) : 32 ≤ c.toNat ∧ c.toNat ≤ 126 := by
  unfold Char.isAlphanum Char.isAlpha Char.isUpper Char.isLower Char.isDigit at h
  simp only [Bool.or_eq_true, Bool.and_eq_true, decide_eq_true_eq, UInt32.le_iff_toNat_le] at h
  have hval : c.toNat = c.val.toNat := rfl
  simp at h
  omega

theorem printable_nat (n : ℕ) : Printable n.repr.toList := by
  intro c hc
  have hdigits : n.repr.toList = Nat.toDigits 10 n := String.toList_ofList
  rw [hdigits] at hc
  have hdigit := Nat.isDigit_of_mem_toDigits (by decide) (by decide) hc
  exact toNat_of_isAlphanum (by simp [Char.isAlphanum, hdigit])

theorem printable_int (n : ℤ) : Printable (toString n).toList := by
  cases n with
  | ofNat n => exact printable_nat n
  | negSucc n =>
    change Printable ("-" ++ (n + 1).repr).toList
    rw [String.toList_append]
    exact .append (by decide) (printable_nat _)

theorem printable_float (x : FloatRepr) : Printable x.text.toList := by
  intro c hc
  rcases x.plain c hc with h | h
  · exact toNat_of_isAlphanum h
  · have hsigns : Printable ['+', '-', '.'] := by decide
    exact hsigns c h

mutual

theorem printable_jsonChars : ∀ v : JsonValue, Printable (jsonChars v)
  | .null => by decide
  | .bool true => by decide
  | .bool false => by decide
  | .int n => printable_int n
  | .float x => printable_float x
  | .str s | .other s => printable_jsonString s
  | .array vs => .cons (by decide) (.append (printable_jsonItems vs) (by decide))
  | .object fields => .cons (by decide) (.append (printable_jsonFields fields) (by decide))

theorem printable_jsonItems : ∀ vs : List JsonValue, Printable (jsonItems vs)
  | [] => fun _ h => nomatch h
  | [v] => printable_jsonChars v
  | v :: v' :: vs => (printable_jsonChars v).append (.cons (by decide) (printable_jsonItems (v' :: vs)))

theorem printable_jsonFields : ∀ fields : List (String × JsonValue), Printable (jsonFields fields)
  | [] => fun _ h => nomatch h
  | [(k, v)] => (printable_jsonString k).append (.cons (by decide) (printable_jsonChars v))
  | (k, v) :: f :: fs => (printable_jsonString k).append (.cons (by decide)
      ((printable_jsonChars v).append (.cons (by decide) (printable_jsonFields (f :: fs)))))

end

end Printable

/-- **What is written is one line.** -/
theorem printable_jsonDumps (v : JsonValue) : Printable (jsonDumps v).toList := by
  rw [jsonDumps, String.toList_ofList]
  exact printable_jsonChars v

end DevOps
