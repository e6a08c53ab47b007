import Mathlib.Data.List.DropRight
import Mathlib.Data.List.TakeWhile
import Mathlib.Tactic.Common

/-!
# The input of a parser of URLs

Strings are lists of units of any kind, with the number of each.

* `cleaned`: the input without white space at its ends and without tabs and ends of lines.
* `splitAuthority`: the authority of a special URL, and what follows it.
* **`cleaned_cons`**, **`exists_cleaned_cons`**, **`cleaned_append_cons`**: the first units of the input.
-/

namespace Whatwg

variable {α : Type} (code : α → ℕ)

/-- A C0 control or a space. -/
def isC0OrSpace (a : α) : Bool := code a ≤ 0x20

/-- A tab, a line feed or a carriage return. -/
def isTabOrNewline (a : α) : Bool := code a = 0x09 || code a = 0x0a || code a = 0x0d

/-- The input that the parser reads. -/
def cleaned (s : List α) : List α :=
  ((s.dropWhile (isC0OrSpace code)).rdropWhile (isC0OrSpace code)).filter (!isTabOrNewline code ·)

/-- A slash; a backslash is one in special URLs. -/
def isSlash (a : α) : Bool := code a = 0x2f || code a = 0x5c

/-- A unit that ends the path: a question mark or a hash. -/
def endsPath (a : α) : Bool := code a = 0x3f || code a = 0x23

/-- The authority after slashes, and what follows it. -/
def splitAuthority (s : List α) : List α × List α :=
  let s := s.dropWhile (isSlash code)
  (s.takeWhile fun a => !isSlash code a && !endsPath code a,
    s.dropWhile fun a => !isSlash code a && !endsPath code a)

variable {code} {a : α} {s : List α}

theorem isTabOrNewline_of_not (h : isC0OrSpace code a = false) : isTabOrNewline code a = false := by
  unfold isC0OrSpace at h
  unfold isTabOrNewline
  simp only [decide_eq_false_iff_not, Bool.or_eq_false_iff] at h ⊢
  omega

/-- What stands in front of a unit that stays, stays. -/
theorem rdropWhile_append_cons {p : α → Bool} (ha : p a = false) (l s : List α) :
    (l ++ a :: s).rdropWhile p = l ++ a :: s.rdropWhile p := by
  unfold List.rdropWhile
  rw [List.reverse_append, List.reverse_cons, List.append_assoc, List.dropWhile_append]
  by_cases h : (s.reverse.dropWhile p).isEmpty = true
  · rw [if_pos h]
    simp [List.isEmpty_iff.mp h, ha]
  · rw [if_neg h]
    simp

/-- **The first unit** stays if it is neither a control nor a space. -/
theorem cleaned_cons (ha : isC0OrSpace code a = false) (s : List α) : cleaned code (a :: s) =
    a :: (s.rdropWhile (isC0OrSpace code)).filter (!isTabOrNewline code ·) := by
  have hdrop := rdropWhile_append_cons ha [] s
  rw [List.nil_append, List.nil_append] at hdrop
  rw [cleaned, List.dropWhile_cons_of_neg (by simp [ha]), hdrop,
    List.filter_cons_of_pos (by simp [isTabOrNewline_of_not ha])]

/-- **What is in front** of a unit that stays, stays, if it has neither controls nor spaces. -/
theorem cleaned_append_cons {l : List α} (hl : ∀ b ∈ l, isC0OrSpace code b = false)
    (ha : isC0OrSpace code a = false) (s : List α) : cleaned code (l ++ a :: s) =
    l ++ a :: (s.rdropWhile (isC0OrSpace code)).filter (!isTabOrNewline code ·) := by
  have hfilter : l.filter (!isTabOrNewline code ·) = l := by
    rw [List.filter_eq_self]
    intro b hb
    simp [isTabOrNewline_of_not (hl b hb)]
  have hdrop : (l ++ a :: s).dropWhile (isC0OrSpace code) = l ++ a :: s := by
    cases l with
    | nil => rw [List.nil_append, List.dropWhile_cons_of_neg (by simp [ha])]
    | cons b l =>
      rw [List.cons_append, List.dropWhile_cons_of_neg (by simp [hl b List.mem_cons_self])]
  rw [cleaned, hdrop, rdropWhile_append_cons ha, List.filter_append, hfilter,
    List.filter_cons_of_pos (by simp [isTabOrNewline_of_not ha])]

/-- **The second unit** is the first one behind tabs and ends of lines. -/
theorem exists_cleaned_cons (ha : isC0OrSpace code a = false) {t : List α} :
    (∃ rest, (t.rdropWhile (isC0OrSpace code)).filter (!isTabOrNewline code ·) = a :: rest) ↔
      ∃ space rest, t = space ++ a :: rest ∧ ∀ b ∈ space, isTabOrNewline code b = true := by
  constructor
  · rintro ⟨rest, h⟩
    obtain ⟨tail, htail⟩ := List.rdropWhile_prefix (isC0OrSpace code) t
    obtain ⟨space, rest', hsplit, hspace, -⟩ := List.filter_eq_cons_iff.mp h
    refine ⟨space, rest' ++ tail, ?_, fun b hb => by simpa using hspace b hb⟩
    rw [← htail, hsplit, List.append_assoc, List.cons_append]
  · rintro ⟨space, rest, rfl, hspace⟩
    have hnil : space.filter (!isTabOrNewline code ·) = [] := by
      rw [List.filter_eq_nil_iff]
      intro b hb
      simp [hspace b hb]
    refine ⟨(rest.rdropWhile (isC0OrSpace code)).filter (!isTabOrNewline code ·), ?_⟩
    rw [rdropWhile_append_cons ha, List.filter_append, hnil, List.nil_append,
      List.filter_cons_of_pos (by simp [isTabOrNewline_of_not ha])]

end Whatwg
