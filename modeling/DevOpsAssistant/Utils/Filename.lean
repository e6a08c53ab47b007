import DevOpsAssistant.Text.Strings
import Mathlib.Tactic.Common

/-!
# File names

* `PurePath.name`, `PurePath.suffix`, `PurePath.stem`: the parts of a path.
* `sanitizeFilename`: a file name without directories and unsafe characters.
* `isFilenameChar`: the characters that a name keeps at its ends.
* **`suffix_sanitizeFilename`**: a name keeps its extension if anything else is left of it.
-/

namespace DevOps

open Text

namespace PurePath

/-- `PurePath(path).name`: the last part that is not `.`. -/
def name (path : List Char) : List Char :=
  (((path.splitOn '/').filter fun part => part ≠ [] ∧ part ≠ ['.']).getLast?).getD []

/-- The stem and the suffix of a name. A dot at its beginning or its end starts no suffix. -/
def splitSuffix (name : List Char) : List Char × List Char :=
  let ext := (name.reverse.takeWhile (· ≠ '.')).reverse
  match name.reverse.dropWhile (· ≠ '.') with
  | [] => (name, [])
  | dot :: stem => if stem = [] ∨ ext = [] then (name, []) else (stem.reverse, dot :: ext)

/-- `PurePath(path).suffix`. -/
def suffix (path : List Char) : List Char := (splitSuffix (name path)).2

/-- `PurePath(path).stem`. -/
def stem (path : List Char) : List Char := (splitSuffix (name path)).1

end PurePath

/-- A character of `_UNSAFE_FILENAME_CHARS`. -/
def isUnsafe (c : Char) : Bool :=
  c.toNat < 0x20 || c.toNat = 0x7f || ['<', '>', ':', '"', '/', '\\', '|', '?', '*'].contains c

/-- `_WHITESPACE.sub("_", text)`; `inRun` says that the character before is white space. -/
def joinSpaces (inRun : Bool) : List Char → List Char
  | [] => []
  | c :: cs =>
    if isSpace c then (if inRun then joinSpaces true cs else '_' :: joinSpaces true cs)
    else c :: joinSpaces false cs

/-- A character that is stripped from the ends of a name. -/
def isMark (c : Char) : Bool := c = '.' || c = '_'

def sanitizeFilename (filename : List Char) (maxLength : ℕ) : List Char :=
  let basename := PurePath.name (if filename = [] then "upload".toList else filename)
  let basename := basename.map fun c => if isUnsafe c then '_' else c
  let basename := strip isMark (joinSpaces false basename)
  let basename :=
    if basename = [] ∨ basename = ['.'] ∨ basename = ['.', '.'] then "upload".toList else basename
  if basename.length ≤ maxLength then basename
  else
    let suffix := PurePath.suffix basename
    (PurePath.stem basename).take (max 1 (maxLength - suffix.length)) ++ suffix

/-! ## Parts of a path -/

namespace PurePath

/-- A part of a text is not longer than the text. -/
theorem length_le_of_mem_splitOn {part path : List Char} (h : part ∈ path.splitOn '/') :
    part.length ≤ path.length := by
  induction path generalizing part with
  | nil =>
    rw [List.splitOn_nil, List.mem_singleton] at h
    exact h ▸ Nat.le_refl _
  | cons c path ih =>
    rw [List.splitOn_cons_eq_if_modifyHead] at h
    by_cases hc : c = '/'
    · rw [if_pos (by simpa using hc), List.mem_cons] at h
      cases h with
      | inl h => exact h ▸ Nat.zero_le _
      | inr h => exact (ih h).trans (Nat.le_succ _)
    · rw [if_neg (by simpa using hc)] at h
      cases hparts : path.splitOn '/' with
      | nil => exact absurd hparts (List.splitOn_ne_nil '/' path)
      | cons first parts =>
        rw [hparts, List.modifyHead_cons, List.mem_cons] at h
        cases h with
        | inl h =>
          have hle := ih (hparts ▸ List.mem_cons_self)
          rw [h, List.length_cons, List.length_cons]
          omega
        | inr h => exact (ih (hparts ▸ List.mem_cons_of_mem _ h)).trans (Nat.le_succ _)

theorem length_name_le (path : List Char) : (name path).length ≤ path.length := by
  unfold name
  cases h : ((path.splitOn '/').filter fun part => part ≠ [] ∧ part ≠ ['.']).getLast? with
  | none => exact Nat.zero_le _
  | some part =>
    exact length_le_of_mem_splitOn (List.mem_filter.mp (List.mem_of_getLast? h)).1

/-- A text without slashes is its own name. -/
theorem name_eq_self {path : List Char} (hslash : '/' ∉ path) (hne : path ≠ [])
    (hdot : path ≠ ['.']) : name path = path := by
  unfold name
  rw [List.splitOn_eq_singleton hslash, List.filter_singleton]
  simp [hne, hdot]

/-- The last dot starts the suffix. -/
theorem splitSuffix_append {stem ext : List Char} (hstem : stem ≠ []) (hext : ext ≠ [])
    (hdot : '.' ∉ ext) : splitSuffix (stem ++ '.' :: ext) = (stem, '.' :: ext) := by
  have hall : ∀ c ∈ ext.reverse, (decide (c ≠ '.')) = true := by
    intro c hc
    rw [List.mem_reverse] at hc
    exact decide_eq_true fun e => hdot (e ▸ hc)
  have hrev : (stem ++ '.' :: ext).reverse = ext.reverse ++ '.' :: stem.reverse := by simp
  unfold splitSuffix
  rw [hrev, List.takeWhile_append_of_pos hall, List.dropWhile_append_of_pos hall]
  simp [hstem, hext]

/-- A name without a dot has no suffix. -/
theorem splitSuffix_of_notMem {name : List Char} (hdot : '.' ∉ name) :
    splitSuffix name = (name, []) := by
  have hnone : name.reverse.dropWhile (· ≠ '.') = [] := by
    rw [List.dropWhile_eq_nil_iff]
    intro c hc
    rw [List.mem_reverse] at hc
    exact decide_eq_true fun e => hdot (e ▸ hc)
  unfold splitSuffix
  rw [hnone]

end PurePath

/-! ## A name with an extension -/

/-- A character that is neither replaced nor stripped. -/
def isFilenameChar (c : Char) : Bool := !isUnsafe c && !isSpace c && !isMark c

/-- The character that stands for another in a name. -/
def safeChar (c : Char) : Char := if isUnsafe c then '_' else c

theorem joinSpaces_eq_self {cs : List Char} (h : ∀ c ∈ cs, isSpace c = false) (inRun : Bool) :
    joinSpaces inRun cs = cs := by
  induction cs generalizing inRun with
  | nil => rfl
  | cons c cs ih =>
    rw [List.forall_mem_cons] at h
    unfold joinSpaces
    rw [if_neg (by simp [h.1]), ih h.2]

theorem joinSpaces_append {rest : List Char} (h : ∀ c ∈ rest, isSpace c = false) (inRun : Bool)
    (cs : List Char) : joinSpaces inRun (cs ++ rest) = joinSpaces inRun cs ++ rest := by
  induction cs generalizing inRun with
  | nil => exact joinSpaces_eq_self h inRun
  | cons c cs ih =>
    rw [List.cons_append]
    unfold joinSpaces
    rw [ih, ih]
    split_ifs <;> rfl

theorem length_joinSpaces_le (inRun : Bool) (cs : List Char) :
    (joinSpaces inRun cs).length ≤ cs.length := by
  induction cs generalizing inRun with
  | nil => exact Nat.le_refl _
  | cons c cs ih =>
    have htrue := ih true
    have hfalse := ih false
    unfold joinSpaces
    split_ifs <;> simp only [List.length_cons] <;> omega

theorem mem_joinSpaces {c : Char} {inRun : Bool} {cs : List Char} (h : c ∈ joinSpaces inRun cs) :
    c = '_' ∨ c ∈ cs ∧ isSpace c = false := by
  induction cs generalizing inRun with
  | nil => cases h
  | cons d cs ih =>
    unfold joinSpaces at h
    split_ifs at h with hspace hrun
    · exact (ih h).imp_right fun h => ⟨List.mem_cons_of_mem _ h.1, h.2⟩
    · cases List.mem_cons.mp h with
      | inl h => exact .inl h
      | inr h => exact (ih h).imp_right fun h => ⟨List.mem_cons_of_mem _ h.1, h.2⟩
    · cases List.mem_cons.mp h with
      | inl h => exact .inr ⟨h ▸ List.mem_cons_self, by simpa [h] using hspace⟩
      | inr h => exact (ih h).imp_right fun h => ⟨List.mem_cons_of_mem _ h.1, h.2⟩

theorem mem_joinSpaces_of_mem {c : Char} {cs : List Char} (h : c ∈ cs) (hspace : isSpace c = false)
    (inRun : Bool) : c ∈ joinSpaces inRun cs := by
  induction cs generalizing inRun with
  | nil => cases h
  | cons d cs ih =>
    unfold joinSpaces
    cases List.mem_cons.mp h with
    | inl h =>
      subst h
      rw [if_neg (by simp [hspace])]
      exact List.mem_cons_self
    | inr h =>
      split_ifs
      · exact ih h true
      · exact List.mem_cons_of_mem _ (ih h true)
      · exact List.mem_cons_of_mem _ (ih h false)

/-- **Something is left** of a stem if and only if one of its characters stays. -/
theorem exists_unmarked (stem : List Char) :
    (∃ c ∈ joinSpaces false (stem.map safeChar), isMark c = false) ↔
      ∃ c ∈ stem, isFilenameChar c = true := by
  constructor
  · rintro ⟨c, hc, hmark⟩
    rcases mem_joinSpaces hc with rfl | ⟨hc, hspace⟩
    · cases hmark
    · obtain ⟨d, hd, rfl⟩ := List.mem_map.mp hc
      refine ⟨d, hd, ?_⟩
      by_cases hunsafe : isUnsafe d = true
      · rw [safeChar, if_pos hunsafe] at hmark
        cases hmark
      · rw [safeChar, if_neg hunsafe] at hmark hspace
        simp [isFilenameChar, hunsafe, hspace, hmark]
  · rintro ⟨c, hc, hname⟩
    simp only [isFilenameChar, Bool.and_eq_true, Bool.not_eq_true'] at hname
    have hsafe : safeChar c = c := by
      rw [safeChar, if_neg (by simp [hname.1.1])]
    exact ⟨c, mem_joinSpaces_of_mem (List.mem_map.mpr ⟨c, hc, hsafe⟩) hname.1.2 false, hname.2⟩

/-- A name that is short enough once it is clean. -/
theorem sanitizeFilename_of_clean {filename basename : List Char} {maxLength : ℕ}
    (hfilename : filename ≠ [])
    (hclean : strip isMark (joinSpaces false ((PurePath.name filename).map safeChar)) = basename)
    (hne : basename ≠ []) (hdot : basename ≠ ['.']) (hdots : basename ≠ ['.', '.'])
    (hlength : basename.length ≤ maxLength) : sanitizeFilename filename maxLength = basename := by
  unfold sanitizeFilename
  rw [if_neg hfilename]
  have hsafe : (fun c => if isUnsafe c = true then '_' else c) = safeChar := rfl
  simp only [hsafe, hclean, hne, hdot, hdots, or_self, if_false, if_pos hlength]

section Extension

variable {stem ext : List Char} (hext : ∀ c ∈ ext, isFilenameChar c = true)
include hext

/-- What is replaced in a name with an extension is in front of the extension. -/
theorem joinSpaces_extension : joinSpaces false ((stem ++ '.' :: ext).map safeChar) =
    joinSpaces false (stem.map safeChar) ++ '.' :: ext := by
  have hparts : ∀ c ∈ ext, isUnsafe c = false ∧ isSpace c = false := by
    intro c hc
    have := hext c hc
    simp only [isFilenameChar, Bool.and_eq_true, Bool.not_eq_true'] at this
    exact this.1
  have hsafe : ('.' :: ext).map safeChar = '.' :: ext := by
    rw [List.map_cons]
    refine congrArg ('.' :: ·) (List.map_congr_left fun c hc => ?_) |>.trans (by rw [List.map_id])
    rw [safeChar, if_neg (by simp [(hparts c hc).1])]
    rfl
  rw [List.map_append, hsafe]
  refine joinSpaces_append ?_ false _
  rw [List.forall_mem_cons]
  exact ⟨by decide, fun c hc => (hparts c hc).2⟩

/-- Decided by going through the list. -/
local instance decidableExistsMem (p : Char → Bool) (b : Bool) (cs : List Char) :
    Decidable (∃ c ∈ cs, p c = b) := List.decidableBEx _ _

variable (hne : ext ≠ [])
include hne

/-- Nothing is stripped behind an extension. -/
theorem strip_extension (cs : List Char) : strip isMark (cs ++ '.' :: ext) =
    (if ∃ c ∈ cs, isMark c = false then cs.dropWhile isMark ++ '.' :: ext else ext) := by
  have hmark : ∀ c ∈ ext, isMark c = false := by
    intro c hc
    have := hext c hc
    simp only [isFilenameChar, Bool.and_eq_true, Bool.not_eq_true'] at this
    exact this.2
  have hend : ∀ ds : List Char, ((ds ++ ext).reverse.dropWhile isMark).reverse = ds ++ ext := by
    intro ds
    have hlast : ext.reverse ≠ [] := by simpa using hne
    cases hrev : ext.reverse with
    | nil => exact absurd hrev hlast
    | cons c cs =>
      have hmem : c ∈ ext := by
        rw [← List.mem_reverse, hrev]
        exact List.mem_cons_self
      have hc := hmark c hmem
      rw [List.reverse_append, hrev, List.cons_append, List.dropWhile_cons_of_neg (by simp [hc]),
        ← List.cons_append, ← hrev, ← List.reverse_append, List.reverse_reverse]
  unfold strip
  by_cases h : ∃ c ∈ cs, isMark c = false
  · rw [if_pos h, dropWhile_append_of_mem h, List.append_cons, hend]
  · have hall : ∀ c ∈ cs, isMark c = true := by
      intro c hc
      by_contra hno
      exact h ⟨c, hc, Bool.eq_false_iff.mpr hno⟩
    have hdrop : ext.dropWhile isMark = ext := by
      cases hcs : ext with
      | nil => rfl
      | cons c cs =>
        rw [List.dropWhile_cons_of_neg (by simp [hmark c (hcs ▸ List.mem_cons_self)])]
    rw [if_neg h, List.dropWhile_append_of_pos hall, List.dropWhile_cons_of_pos (by decide), hdrop]
    exact hend []

/-- **A name keeps its extension** if one of the characters in front of it stays. -/
theorem suffix_sanitizeFilename {filename : List Char} {maxLength : ℕ}
    (hname : PurePath.name filename = stem ++ '.' :: ext) (hlength : filename.length ≤ maxLength) :
    PurePath.suffix (sanitizeFilename filename maxLength) =
      if ∃ c ∈ stem, isFilenameChar c = true then '.' :: ext else [] := by
  have hfilename : filename ≠ [] := by
    rintro rfl
    have hnil : PurePath.name [] = [] := by decide
    rw [hnil] at hname
    simp at hname
  have hle := (PurePath.length_name_le filename).trans hlength
  rw [hname, List.length_append, List.length_cons] at hle
  have hdot : '.' ∉ ext := fun h => by simpa [isFilenameChar, isMark] using hext _ h
  have hslash : '/' ∉ ext := fun h => by simpa [isFilenameChar, isUnsafe] using hext _ h
  have hclean : strip isMark (joinSpaces false ((PurePath.name filename).map safeChar)) =
      if ∃ c ∈ stem, isFilenameChar c = true then
        (joinSpaces false (stem.map safeChar)).dropWhile isMark ++ '.' :: ext else ext := by
    rw [hname, joinSpaces_extension hext, strip_extension hext hne]
    simp only [exists_unmarked]
  by_cases hstem : ∃ c ∈ stem, isFilenameChar c = true
  · rw [if_pos hstem] at hclean ⊢
    have hleft : (joinSpaces false (stem.map safeChar)).dropWhile isMark ≠ [] := by
      obtain ⟨c, hc, hmark⟩ := (exists_unmarked stem).mpr hstem
      rw [ne_eq, List.dropWhile_eq_nil_iff]
      exact fun hall => Bool.false_ne_true (hmark.symm.trans (hall c hc))
    have hlow : ((joinSpaces false (stem.map safeChar)).dropWhile isMark).length ≤ stem.length :=
      ((List.dropWhile_suffix _).length_le.trans (length_joinSpaces_le _ _)).trans
        (by rw [List.length_map])
    have hslash' : '/' ∉ (joinSpaces false (stem.map safeChar)).dropWhile isMark := by
      intro h
      rcases mem_joinSpaces ((List.dropWhile_suffix _).subset h) with h | ⟨h, -⟩
      · cases h
      · obtain ⟨c, -, hc⟩ := List.mem_map.mp h
        unfold safeChar at hc
        split_ifs at hc with hunsafe
        · cases hc
        · exact hunsafe (hc ▸ by decide)
    generalize (joinSpaces false (stem.map safeChar)).dropWhile isMark = left at *
    have hthree : 3 ≤ (left ++ '.' :: ext).length := by
      have h₁ := List.length_pos_iff.mpr hleft
      have h₂ := List.length_pos_iff.mpr hne
      rw [List.length_append, List.length_cons]
      omega
    rw [sanitizeFilename_of_clean hfilename hclean (by intro h; simp [h] at hthree)
      (by intro h; simp [h] at hthree) (by intro h; simp [h] at hthree)
      (by rw [List.length_append, List.length_cons]; omega)]
    unfold PurePath.suffix
    rw [PurePath.name_eq_self (by simp [hslash, hslash']) (by simp)
      (by intro h; simp [h] at hthree), PurePath.splitSuffix_append hleft hne hdot]
  · rw [if_neg hstem] at hclean ⊢
    rw [sanitizeFilename_of_clean hfilename hclean hne (by rintro rfl; simp at hdot)
      (by rintro rfl; simp at hdot) (by omega)]
    unfold PurePath.suffix
    rw [PurePath.name_eq_self hslash hne (by rintro rfl; simp at hdot),
      PurePath.splitSuffix_of_notMem hdot]

end Extension

end DevOps
