import Mathlib.Data.List.DropRight
import Mathlib.Data.List.TakeWhile
import Mathlib.Tactic.Common

/-!
# Strings of JavaScript

* `JsString`: a string of JavaScript; `js`: the string of a text.
* `isJsSpace`, `trim`: white space, and a string without the white space at both ends.
-/

namespace DevOps

/-- A string of JavaScript: its code units. -/
abbrev JsString := List UInt16

/-- The code units of a character. -/
def utf16 (c : Char) : JsString :=
  if c.toNat < 0x10000 then [.ofNat c.toNat]
  else [.ofNat (0xD800 + (c.toNat - 0x10000) / 1024), .ofNat (0xDC00 + (c.toNat - 0x10000) % 1024)]

/-- The code units of a text. -/
def js (text : String) : JsString := text.toList.flatMap utf16

/-- The code unit of an ASCII character. -/
def unit (c : Char) : UInt16 := .ofNat c.toNat

/-- White space and line ends, as `string.trim` has them. -/
def isJsSpace (u : UInt16) : Bool :=
  let n := u.toNat
  (0x09 ≤ n && n ≤ 0x0d) || n = 0x20 || n = 0xa0 || n = 0x1680 || (0x2000 ≤ n && n ≤ 0x200a) ||
    n = 0x2028 || n = 0x2029 || n = 0x202f || n = 0x205f || n = 0x3000 || n = 0xfeff

/-- `string.trim()`. -/
def trim (s : JsString) : JsString := (s.dropWhile isJsSpace).rdropWhile isJsSpace

/-- A property of each code unit of a string is decided along the string, not over all code units. -/
instance decidableForallUnit {s : JsString} {p : UInt16 → Prop} [DecidablePred p] :
    Decidable (∀ u ∈ s, p u) := List.decidableBAll p s

/-! ## White space at the ends -/

section

variable {s : JsString}

theorem sublist_trim : (trim s).Sublist s := by
  have h₁ := (List.rdropWhile_prefix isJsSpace (s.dropWhile isJsSpace)).sublist
  have h₂ := (List.dropWhile_suffix isJsSpace (l := s)).sublist
  exact h₁.trans h₂

/-- What is not white space stays. -/
theorem mem_trim {u : UInt16} (h : u ∈ s) (hu : isJsSpace u = false) : u ∈ trim s := by
  have hdrop : u ∈ s.dropWhile isJsSpace := by
    rw [← List.takeWhile_append_dropWhile (p := isJsSpace) (l := s), List.mem_append] at h
    refine h.resolve_left fun hmem => ?_
    rw [List.mem_takeWhile_imp hmem] at hu
    cases hu
  rw [← List.rdropWhile_append_rtakeWhile (p := isJsSpace) (l := s.dropWhile isJsSpace),
    List.mem_append] at hdrop
  refine hdrop.resolve_right fun hmem => ?_
  rw [List.mem_rtakeWhile_imp hmem] at hu
  cases hu

/-- A trimmed string does not end with white space. -/
theorem isJsSpace_getLast_trim {u : UInt16} (h : u ∈ (trim s).getLast?) : isJsSpace u = false := by
  have hne : trim s ≠ [] := by
    intro hs
    rw [hs] at h
    cases h
  have hlast := List.rdropWhile_last_not isJsSpace (s.dropWhile isJsSpace) hne
  rw [List.getLast?_eq_getLast_of_ne_nil hne, Option.mem_some_iff] at h
  rw [← h]
  exact eq_false_of_ne_true hlast

/-- A trimmed string does not begin with white space. -/
theorem isJsSpace_head_trim {u : UInt16} (h : u ∈ (trim s).head?) : isJsSpace u = false := by
  obtain ⟨rest, hrest⟩ := List.rdropWhile_prefix isJsSpace (s.dropWhile isJsSpace)
  change u ∈ (List.rdropWhile isJsSpace (s.dropWhile isJsSpace)).head? at h
  have hu : u ∈ (s.dropWhile isJsSpace).head? := by
    rw [← hrest, List.head?_append, Option.mem_def.mp h]
    rfl
  have := List.head?_dropWhile_not isJsSpace s
  rw [Option.mem_def.mp hu] at this
  simpa using this

/-- A string with no white space at its ends is left alone. -/
theorem trim_eq_self (hhead : ∀ u ∈ s.head?, isJsSpace u = false)
    (hlast : ∀ u ∈ s.getLast?, isJsSpace u = false) : trim s = s := by
  have hdrop : s.dropWhile isJsSpace = s := by
    cases s with
    | nil => rfl
    | cons u us => rw [List.dropWhile_cons_of_neg (by simp [hhead u rfl])]
  rw [trim, hdrop, List.rdropWhile_eq_self_iff]
  intro hne
  simp [hlast _ (List.getLast?_eq_getLast_of_ne_nil hne)]

/-- Replacing units that are not white space does not change what is trimmed. -/
theorem trim_map {f : UInt16 → UInt16} (hf : ∀ u, isJsSpace (f u) = isJsSpace u) :
    trim (s.map f) = (trim s).map f := by
  have hcomp : isJsSpace ∘ f = isJsSpace := funext hf
  simp only [trim, List.rdropWhile, List.dropWhile_map, ← List.map_reverse, hcomp]

end

end DevOps
