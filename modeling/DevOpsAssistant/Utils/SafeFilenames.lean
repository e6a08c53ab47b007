import DevOpsAssistant.Utils.Filename

/-!
# Names that are safe and bounded

* `cleaned`: a name without directories and unsafe characters, before it is cut.
* `SafeFilename`: a name that is safe and not too long.
* **`safeFilename_sanitizeFilename_iff`**: a name comes out so unless its extension leaves no room.
-/

namespace DevOps

open Text

/-- The last part of a path with underscores for unsafe characters and white space, and without dots
and underscores at its ends. -/
def cleaned (filename : List Char) : List Char :=
  strip isMark (joinSpaces false ((PurePath.name filename).map safeChar))

/-- A name that can be used as it is, of at most `maxLength` characters. -/
structure SafeFilename (maxLength : ℕ) (name : List Char) : Prop where
  nonempty : name ≠ []
  safe : ∀ c ∈ name, isUnsafe c = false
  notDot : name ≠ ['.']
  notDots : name ≠ ['.', '.']
  bounded : name.length ≤ maxLength

/-! ## The parts of a name -/

/-- The stem and the suffix make up a name. A suffix has a dot and more, behind a stem. -/
theorem PurePath.splitSuffix_spec (name : List Char) :
    (splitSuffix name).1 ++ (splitSuffix name).2 = name ∧ ((splitSuffix name).2 = [] ∨
      (splitSuffix name).1 ≠ [] ∧ ∃ ext, ext ≠ [] ∧ '.' ∉ ext ∧ (splitSuffix name).2 = '.' :: ext) := by
  have hparts : (name.reverse.takeWhile (· ≠ '.')) ++ (name.reverse.dropWhile (· ≠ '.')) =
    name.reverse := List.takeWhile_append_dropWhile
  have hext : '.' ∉ (name.reverse.takeWhile (· ≠ '.')).reverse := by
    intro h
    simpa using List.mem_takeWhile_imp (List.mem_reverse.mp h)
  unfold splitSuffix
  cases hdrop : name.reverse.dropWhile (· ≠ '.') with
  | nil => exact ⟨List.append_nil _, .inl rfl⟩
  | cons dot stem =>
    have hdot : dot = '.' := by
      have := List.head?_dropWhile_not (· ≠ '.') name.reverse
      rw [hdrop] at this
      simpa using this
    have hname : stem.reverse ++ '.' :: (name.reverse.takeWhile (· ≠ '.')).reverse = name := by
      rw [hdrop, hdot] at hparts
      have := congrArg List.reverse hparts
      simpa using this
    dsimp only
    split_ifs with h
    · exact ⟨List.append_nil _, .inl rfl⟩
    · rw [not_or] at h
      exact ⟨by rw [hdot, hname], .inr ⟨by simpa using h.1, _, h.2, hext, by rw [hdot]⟩⟩

/-- A name leaves room for its suffix if and only if it does after its last dot. -/
theorem PurePath.length_splitSuffix_lt_iff {name : List Char} {n : ℕ} (hn : 0 < n)
    (hhead : name.head? ≠ some '.') (hlast : name.getLast? ≠ some '.') :
    name.length ≤ n ∨ (splitSuffix name).2.length < n ↔
      ∀ stem ext, name = stem ++ '.' :: ext → '.' ∉ ext → ext.length + 1 < n := by
  constructor
  · rintro h stem ext rfl hdot
    have hstem : stem ≠ [] := by
      rintro rfl
      simp at hhead
    have hext : ext ≠ [] := by
      rintro rfl
      simp at hlast
    have hpos := List.length_pos_iff.mpr hstem
    rw [splitSuffix_append hstem hext hdot, List.length_append, List.length_cons] at h
    omega
  · intro h
    obtain ⟨happend, hnil | ⟨-, ext, -, hdot, hext⟩⟩ := splitSuffix_spec name
    · right
      rw [hnil]
      exact hn
    · right
      rw [hext] at happend ⊢
      exact h _ ext happend.symm hdot

/-! ## The name before the cut -/

/-- The name before it is cut. -/
def basenameOf (filename : List Char) : List Char :=
  if cleaned filename = [] then "upload".toList else cleaned filename

/-- The cut of a name that is too long. -/
def cutName (maxLength : ℕ) (basename : List Char) : List Char :=
  if basename.length ≤ maxLength then basename
  else
    (PurePath.splitSuffix basename).1.take
      (max 1 (maxLength - (PurePath.splitSuffix basename).2.length)) ++
        (PurePath.splitSuffix basename).2

/-- What stays of a stripped text ends with a character that stays. -/
theorem getLast?_strip {p : Char → Bool} {cs : List Char} {c : Char}
    (h : (strip p cs).getLast? = some c) : p c = false := by
  rw [strip, List.getLast?_reverse] at h
  have := List.head?_dropWhile_not p (cs.dropWhile p).reverse
  rw [h] at this
  simpa using this

theorem head?_strip {p : Char → Bool} {cs : List Char} {c : Char}
    (h : (strip p cs).head? = some c) : p c = false := by
  obtain ⟨ds, hds⟩ := List.head?_eq_some_iff.mp h
  exact head_strip hds

theorem isUnsafe_of_mem_cleaned {filename : List Char} {c : Char} (h : c ∈ cleaned filename) :
    isUnsafe c = false := by
  obtain rfl | ⟨h, -⟩ := mem_joinSpaces ((strip_isInfix _ _).subset h)
  · decide
  · obtain ⟨d, -, rfl⟩ := List.mem_map.mp h
    unfold safeChar
    split_ifs with hunsafe
    · decide
    · exact eq_false_of_ne_true hunsafe

/-- A name that can be cut: it is safe, and has no dot at its ends. -/
structure Cuttable (name : List Char) : Prop where
  nonempty : name ≠ []
  safe : ∀ c ∈ name, isUnsafe c = false
  head : name.head? ≠ some '.'
  last : name.getLast? ≠ some '.'

theorem cuttable_basenameOf (filename : List Char) : Cuttable (basenameOf filename) := by
  unfold basenameOf
  split_ifs with h
  · exact ⟨by decide, by decide, by decide, by decide⟩
  · exact ⟨h, fun c hc => isUnsafe_of_mem_cleaned hc,
      fun hdot => absurd (head?_strip hdot) (by decide),
      fun hdot => absurd (getLast?_strip hdot) (by decide)⟩

theorem sanitizeFilename_eq (filename : List Char) (maxLength : ℕ) :
    sanitizeFilename filename maxLength = cutName maxLength (basenameOf filename) := by
  have hname : ∀ name : List Char, Cuttable name → PurePath.name name = name := by
    intro name h
    refine PurePath.name_eq_self (fun hslash => ?_) h.nonempty ?_
    · exact absurd (h.safe _ hslash) (by decide)
    · rintro rfl
      exact h.head rfl
  have hdots : ∀ name : List Char, (cleaned name = [] ∨ cleaned name = ['.'] ∨
      cleaned name = ['.', '.']) ↔ cleaned name = [] := by
    intro name
    refine ⟨fun h => h.resolve_right fun hdot => ?_, .inl⟩
    have hhead : (cleaned name).head? = some '.' := by
      obtain h | h := hdot <;> rw [h] <;> rfl
    exact absurd (head?_strip hhead) (by decide)
  have hbase : (if cleaned (if filename = [] then "upload".toList else filename) = [] then
      "upload".toList else cleaned (if filename = [] then "upload".toList else filename)) =
      basenameOf filename := by
    by_cases h : filename = []
    · rw [h]
      decide
    · rw [if_neg h]
      rfl
  have hsafe : (fun c => if isUnsafe c = true then '_' else c) = safeChar := rfl
  have hclean : ∀ name : List Char,
      strip isMark (joinSpaces false ((PurePath.name name).map safeChar)) = cleaned name :=
    fun _ => rfl
  unfold sanitizeFilename
  simp only [hsafe, hclean, hdots, hbase, PurePath.suffix, PurePath.stem,
    hname _ (cuttable_basenameOf filename), cutName]

/-- **The cut.** What is left is safe, and it fits if and only if the name does or the suffix leaves
room for a character. -/
theorem safeFilename_cutName_iff {name : List Char} {maxLength : ℕ} (h : Cuttable name)
    (hmax : 16 ≤ maxLength) : SafeFilename maxLength (cutName maxLength name) ↔
      name.length ≤ maxLength ∨ (PurePath.splitSuffix name).2.length < maxLength := by
  obtain ⟨happend, hparts⟩ := PurePath.splitSuffix_spec name
  by_cases hfits : name.length ≤ maxLength
  · rw [cutName, if_pos hfits]
    refine iff_of_true ⟨h.nonempty, h.safe, ?_, ?_, hfits⟩ (.inl hfits)
    · rintro rfl
      exact h.head rfl
    · rintro rfl
      exact h.head rfl
  rw [cutName, if_neg hfits]
  generalize (PurePath.splitSuffix name).1 = stem at *
  generalize (PurePath.splitSuffix name).2 = suffix at *
  have hlen : stem.length + suffix.length = name.length := by
    rw [← happend, List.length_append]
  -- what is left has at least three characters
  have hlong : 3 ≤ (stem.take (max 1 (maxLength - suffix.length)) ++ suffix).length := by
    rw [List.length_append, List.length_take]
    obtain rfl | ⟨hstem, ext, hext, -, rfl⟩ := hparts
    · rw [List.length_nil] at hlen ⊢
      omega
    · have h₁ := List.length_pos_iff.mpr hstem
      have h₂ := List.length_pos_iff.mpr hext
      rw [List.length_cons]
      omega
  have hmem : ∀ c ∈ stem.take (max 1 (maxLength - suffix.length)) ++ suffix, c ∈ name := by
    intro c hc
    rw [← happend]
    rw [List.mem_append] at hc ⊢
    exact hc.imp_left List.mem_of_mem_take
  have hshort : (stem.take (max 1 (maxLength - suffix.length)) ++ suffix).length ≤ maxLength ↔
      suffix.length < maxLength := by
    have hstem : 1 ≤ stem.length := by
      obtain rfl | ⟨hstem, -⟩ := hparts
      · rw [List.length_nil] at hlen
        omega
      · exact List.length_pos_iff.mpr hstem
    rw [List.length_append, List.length_take]
    omega
  rw [or_iff_right hfits, ← hshort]
  refine ⟨fun hsafe => hsafe.bounded, fun hle => ⟨?_, fun c hc => h.safe c (hmem c hc), ?_, ?_, hle⟩⟩
  all_goals
    intro heq
    rw [heq] at hlong
    simp at hlong

/-- **Safe and bounded names.** A name comes out safe and with at most `maxLength` characters if and
only if its last dot leaves room for a character: fewer than `maxLength - 1` follow it. -/
theorem safeFilename_sanitizeFilename_iff {filename : List Char} {maxLength : ℕ}
    (hmax : 16 ≤ maxLength) : SafeFilename maxLength (sanitizeFilename filename maxLength) ↔
      ∀ stem ext, cleaned filename = stem ++ '.' :: ext → '.' ∉ ext → ext.length + 1 < maxLength := by
  have hcut := cuttable_basenameOf filename
  rw [sanitizeFilename_eq, safeFilename_cutName_iff hcut hmax,
    PurePath.length_splitSuffix_lt_iff (by omega) hcut.head hcut.last, basenameOf]
  split_ifs with hnil
  · have hdot : ∀ (name : List Char), '.' ∉ name → ∀ stem ext, name = stem ++ '.' :: ext →
        '.' ∉ ext → ext.length + 1 < maxLength := by
      rintro name hname stem ext rfl -
      exact absurd (by simp) hname
    rw [hnil]
    exact iff_of_true (hdot _ (by decide)) (hdot _ (by simp))
  · exact Iff.rfl

theorem safeFilename_passwd :
    SafeFilename 255 (sanitizeFilename "../../etc/passwd.log".toList 255) ↔
      ∀ stem ext, cleaned "../../etc/passwd.log".toList = stem ++ '.' :: ext → '.' ∉ ext →
        ext.length + 1 < 255 :=
  safeFilename_sanitizeFilename_iff (by decide)

/-- An extension is kept at any length. -/
theorem not_safeFilename_sanitizeFilename : ¬ ∀ (filename : List Char) (maxLength : ℕ),
    16 ≤ maxLength → SafeFilename maxLength (sanitizeFilename filename maxLength) := by
  intro h
  have := (h "log.aaaaaaaaaaaaaaaaaaaa".toList 16 (by decide)).bounded
  revert this
  decide

end DevOps
