import Mathlib.Data.List.DropRight
import Mathlib.Data.List.TakeWhile

/-!
# Texts

* `Text.strip`: a text without the white space at both ends; `Text.stripped`: `str.strip`.
* `Text.words`, `Text.lowerAscii`: the words of a text, and the text in lower case.
* `Text.unlines`: lines, each with its end.
* **`Text.strip_infix`**: what stands between two characters that stay, stays.
-/

namespace Text

/-- A text without the characters that satisfy `p` at both ends. -/
def strip (p : Char → Bool) (cs : List Char) : List Char :=
  ((cs.dropWhile p).reverse.dropWhile p).reverse

/-- White space, as `str.isspace` and `str.strip` have it. -/
def isSpace (c : Char) : Bool :=
  let n := c.toNat
  (0x09 ≤ n && n ≤ 0x0d) || (0x1c ≤ n && n ≤ 0x20) || n = 0x85 || n = 0xa0 || n = 0x1680 ||
    (0x2000 ≤ n && n ≤ 0x200a) || n = 0x2028 || n = 0x2029 || n = 0x202f || n = 0x205f || n = 0x3000

/-- A property of each character of a text is decided along the text, not over all characters. -/
instance decidableForallMem {text : List Char} {p : Char → Prop} [DecidablePred p] :
    Decidable (∀ c ∈ text, p c) := List.decidableBAll p text

/-- `text.strip()`. -/
def stripped (text : String) : String := String.ofList (strip isSpace text.toList)

/-- The words of a text, between white space: `text.split()`. -/
def words (text : String) : List String :=
  ((text.toList.splitOnP isSpace).filter (· ≠ [])).map String.ofList

/-- The text with its ASCII letters in lower case. -/
def lowerAscii (text : String) : String := String.ofList (text.toList.map Char.toLower)

/-- Lines, each with its end. -/
def unlines (lines : List String) : String := String.join (lines.map (· ++ "\n"))

theorem toList_unlines (lines : List String) :
    (unlines lines).toList = lines.flatMap fun l => l.toList ++ ['\n'] := by
  induction lines with
  | nil => rfl
  | cons l lines ih =>
    rw [unlines, List.map_cons, String.join_cons, String.toList_append, String.toList_append,
      List.flatMap_cons, ← ih]
    rfl

/-- Texts between the same texts. -/
theorem eq_of_between {a b s t : String} (h : a ++ s ++ b = a ++ t ++ b) : s = t := by
  have htoList := congrArg String.toList h
  simp only [String.toList_append] at htoList
  exact String.toList_inj.mp (List.append_cancel_left (List.append_cancel_right htoList))

variable {p : Char → Bool}

theorem dropWhile_append_of_mem {cs ds : List Char} (h : ∃ c ∈ cs, p c = false) :
    (cs ++ ds).dropWhile p = cs.dropWhile p ++ ds := by
  rw [List.dropWhile_append, if_neg]
  rw [List.isEmpty_iff, List.dropWhile_eq_nil_iff]
  obtain ⟨c, hc, hp⟩ := h
  exact fun hall => Bool.false_ne_true (hp ▸ hall c hc)

/-- **What stands between two characters that stay**, stays. -/
theorem strip_infix {cs ds es : List Char} (hcs : ∃ c ∈ cs, p c = false)
    (hes : ∃ c ∈ es, p c = false) :
    ∃ cs' es', strip p (cs ++ ds ++ es) = cs' ++ ds ++ es' ∧ cs' <:+ cs ∧ es' <+: es := by
  refine ⟨cs.dropWhile p, (es.reverse.dropWhile p).reverse, ?_, List.dropWhile_suffix p, ?_⟩
  · have hes' : ∃ c ∈ es.reverse, p c = false := by simpa using hes
    rw [strip, List.append_assoc, dropWhile_append_of_mem hcs, List.reverse_append,
      List.reverse_append, List.append_assoc, dropWhile_append_of_mem hes']
    simp
  · rw [← List.reverse_suffix, List.reverse_reverse]
    exact List.dropWhile_suffix p

/-- What is stripped at the end of a text that stays. -/
theorem strip_append {cs ds : List Char} (hne : cs ≠ []) (hhead : ∀ c ∈ cs.head?, p c = false)
    (hlast : ∀ c ∈ cs.getLast?, p c = false) (hds : ∀ d ∈ ds, p d = true) :
    strip p (cs ++ ds) = cs := by
  have hleft : (cs ++ ds).dropWhile p = cs ++ ds := by
    cases cs with
    | nil => exact absurd rfl hne
    | cons c cs => rw [List.cons_append, List.dropWhile_cons_of_neg (by simp [hhead c rfl])]
  have hright : cs.reverse.dropWhile p = cs.reverse := by
    cases hcs : cs.reverse with
    | nil => rfl
    | cons c es =>
      have hc : cs.getLast? = some c := by rw [← List.head?_reverse, hcs, List.head?_cons]
      rw [List.dropWhile_cons_of_neg (by simp [hlast c hc])]
  rw [strip, hleft, List.reverse_append, List.dropWhile_append_of_pos (by simpa using hds), hright,
    List.reverse_reverse]

/-- Stripping leaves a part of the text. -/
theorem strip_isInfix (p : Char → Bool) (cs : List Char) : strip p cs <:+: cs := by
  have hsuffix : ((cs.dropWhile p).reverse.dropWhile p).reverse <+: cs.dropWhile p := by
    rw [← List.reverse_suffix, List.reverse_reverse]
    exact List.dropWhile_suffix p
  exact hsuffix.isInfix.trans (List.dropWhile_suffix p).isInfix

/-- A text that has been stripped does not start with what is stripped. -/
theorem head_strip {cs ds : List Char} {c : Char} (h : strip p cs = c :: ds) :
    p c = false := by
  have hprefix : strip p cs <+: cs.dropWhile p := by
    rw [strip, ← List.reverse_suffix, List.reverse_reverse]
    exact List.dropWhile_suffix p
  obtain ⟨es, hes⟩ := hprefix
  rw [h, List.cons_append] at hes
  have := List.head?_dropWhile_not p cs
  rw [← hes] at this
  simpa using this

/-- A text that has been stripped stays as it is. -/
theorem dropWhile_strip (cs : List Char) :
    (strip p cs).dropWhile p = strip p cs := by
  cases h : strip p cs with
  | nil => rfl
  | cons c ds => rw [List.dropWhile_cons_of_neg (by simp [head_strip h])]

theorem strip_strip (cs : List Char) : strip p (strip p cs) = strip p cs := by
  rw [strip, dropWhile_strip, strip, List.reverse_reverse, List.dropWhile_idempotent]

theorem strip_map {f : Char → Char} (h : ∀ c, p (f c) = p c) (cs : List Char) :
    strip p (cs.map f) = (strip p cs).map f := by
  have hp : p ∘ f = p := funext h
  rw [strip, List.dropWhile_map, hp, ← List.map_reverse, List.dropWhile_map, hp, ← List.map_reverse]
  rfl
/-! ## Lower case -/

/-- The code point of a character that is given by it. -/
theorem toNat_ofNat {n : ℕ} (h : n < 0xd800) : (Char.ofNat n).toNat = n := by
  rw [Char.ofNat, dif_pos (.inl h)]
  rfl

/-- The lower case of a capital is 32 places further. -/
theorem toNat_toLower (c : Char) :
    c.toLower = c ∨ (65 ≤ c.toNat ∧ c.toNat ≤ 90 ∧ c.toLower.toNat = c.toNat + 32) := by
  by_cases h : c.val ≥ 'A'.val ∧ c.val ≤ 'Z'.val
  · right
    have h₁ : 65 ≤ c.val.toNat := by simpa using UInt32.le_iff_toNat_le.mp h.1
    have h₂ : c.val.toNat ≤ 90 := by simpa using UInt32.le_iff_toNat_le.mp h.2
    refine ⟨h₁, h₂, ?_⟩
    unfold Char.toLower
    rw [dif_pos h]
    change (c.val + ('a'.val - 'A'.val)).toNat = c.val.toNat + 32
    rw [UInt32.toNat_add]
    have : ('a'.val - 'A'.val).toNat = 32 := by decide
    omega
  · left
    unfold Char.toLower
    rw [dif_neg h]

/-- No letter is white space. -/
theorem isSpace_letter {c : Char} (h₁ : 65 ≤ c.toNat) (h₂ : c.toNat ≤ 122) : isSpace c = false := by
  unfold isSpace
  simp
  omega

theorem isSpace_toLower (c : Char) : isSpace c.toLower = isSpace c := by
  rcases toNat_toLower c with h | ⟨h₁, h₂, h⟩
  · rw [h]
  · rw [isSpace_letter h₁ (by omega), isSpace_letter (by omega) (by omega)]

theorem toLower_toLower (c : Char) : c.toLower.toLower = c.toLower := by
  rcases toNat_toLower c with h | ⟨h₁, h₂, h⟩
  · rw [h, h]
  · rcases toNat_toLower c.toLower with h' | ⟨h₁', h₂', -⟩
    · exact h'
    · omega

theorem lowerAscii_lowerAscii (text : String) : lowerAscii (lowerAscii text) = lowerAscii text := by
  rw [lowerAscii, lowerAscii, String.toList_ofList, List.map_map]
  congr 1
  exact List.map_congr_left fun c _ => toLower_toLower c

/-- White space has no case. -/
theorem stripped_lowerAscii (text : String) :
    stripped (lowerAscii text) = lowerAscii (stripped text) := by
  rw [stripped, lowerAscii, String.toList_ofList, strip_map isSpace_toLower, lowerAscii, stripped,
    String.toList_ofList]

theorem stripped_stripped (text : String) : stripped (stripped text) = stripped text := by
  rw [stripped, stripped, String.toList_ofList, strip_strip]

end Text
