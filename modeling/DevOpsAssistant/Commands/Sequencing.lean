import DevOpsAssistant.Core.Unicode
import DevOpsAssistant.Text.Matching
import DevOpsAssistant.Utils.CommandRisk

/-!
# The risk of commands in sequence

All patterns but that of `mkfs` go on matching when a separator and another command follow, or stand
before; `mkfs` at the end of a command is found by the anchor `$`, which a second command hides.

* `RiskLevel.rank`, `le_rank_iff`: the level of a command, by the patterns that are found.
* `found_left`, `found_right`: **a pattern without anchors** is found in a sequence.
* `crossing`: a match that reaches from the first command into the second.
* `Hidden`: the only danger is an `mkfs` that the second command hides.
* **`monotone_iff`**: the level of a sequence is at least those of its parts, unless it is hidden.
-/

namespace DevOps

/-- The levels, from the lowest on. -/
def RiskLevel.rank : RiskLevel → ℕ
  | low => 0
  | medium => 1
  | high => 2
  | critical => 3

namespace CommandRisk

open Regex PolicyEngine

variable {env : Env}

/-! ## Levels -/

variable (env) in
/-- The patterns of the levels from `n` on. -/
def patternsFrom : ℕ → List (Regex × String)
  | 1 => CRITICAL_PATTERNS env ++ HIGH_PATTERNS env ++ MEDIUM_PATTERNS env
  | 2 => CRITICAL_PATTERNS env ++ HIGH_PATTERNS env
  | _ => CRITICAL_PATTERNS env

theorem warningsOf_ne_nil (level : String) {patterns : List (Regex × String)} {command : String} :
    warningsOf level patterns command ≠ [] ↔ ∃ p ∈ patterns, found p.1 command = true := by
  unfold warningsOf
  rw [ne_eq, List.filterMap_eq_nil_iff]
  simp

/-- **The level of a command** is that of the most dangerous pattern that is found. -/
theorem le_rank_iff {n : ℕ} (hn : 1 ≤ n) (hn' : n ≤ 3) {command : String} :
    n ≤ (classifyCommandRisk env command).riskLevel.rank ↔
      ∃ p ∈ patternsFrom env n, found p.1 command = true := by
  have hexists : ∀ ps qs : List (Regex × String), (∃ p ∈ ps ++ qs, found p.1 command = true) ↔
      (∃ p ∈ ps, found p.1 command = true) ∨ ∃ p ∈ qs, found p.1 command = true := by
    intro ps qs
    simp only [List.mem_append, or_and_right, exists_or]
  have hpatterns : (∃ p ∈ patternsFrom env n, found p.1 command = true) ↔
      (∃ p ∈ CRITICAL_PATTERNS env, found p.1 command = true) ∨
        (n ≤ 2 ∧ ∃ p ∈ HIGH_PATTERNS env, found p.1 command = true) ∨
        (n ≤ 1 ∧ ∃ p ∈ MEDIUM_PATTERNS env, found p.1 command = true) := by
    obtain rfl | rfl | rfl : n = 1 ∨ n = 2 ∨ n = 3 := by omega
    · simp only [patternsFrom, hexists, or_assoc]
      simp
    · simp only [patternsFrom, hexists]
      simp
    · simp [patternsFrom]
  rw [hpatterns, ← warningsOf_ne_nil "Critical", ← warningsOf_ne_nil "High",
    ← warningsOf_ne_nil "Medium"]
  unfold classifyCommandRisk
  simp only
  by_cases hc : warningsOf "Critical" (CRITICAL_PATTERNS env) command ≠ []
  · rw [if_pos hc]
    exact ⟨fun _ => .inl hc, fun _ => hn'⟩
  by_cases hh : warningsOf "High" (HIGH_PATTERNS env) command ≠ []
  · rw [if_neg hc, if_pos hh]
    refine ⟨fun h => .inr (.inl ⟨h, hh⟩), ?_⟩
    rintro (h | h | h)
    · exact absurd h hc
    · exact h.1
    · exact Nat.le_succ_of_le h.1
  by_cases hm : warningsOf "Medium" (MEDIUM_PATTERNS env) command ≠ []
  · rw [if_neg hc, if_neg hh, if_pos hm]
    refine ⟨fun h => .inr (.inr ⟨h, hm⟩), ?_⟩
    rintro (h | h | h)
    · exact absurd h hc
    · exact absurd h.2 hh
    · exact h.1
  · rw [if_neg hc, if_neg hh, if_neg hm]
    refine ⟨fun h => absurd (Nat.le_trans hn h) (by decide), ?_⟩
    rintro (h | h | h)
    · exact absurd h hc
    · exact absurd h.2 hh
    · exact absurd h.2 hm

/-! ## Patterns without anchors -/

variable (env) in
/-- `\bmkfs(\.|$)`. -/
def diskFormatting : Regex := concat [boundary env, lit "mkfs".toList, alt (lit ['.']) textEnd]

variable (env) in
/-- The other patterns of the level critical. -/
def otherCritical : List Regex := ((CRITICAL_PATTERNS env).eraseIdx 1).map Prod.fst

theorem mem_critical {p : Regex × String} (hp : p ∈ CRITICAL_PATTERNS env) :
    p.1 = diskFormatting env ∨ p.1 ∈ otherCritical env := by
  simp only [CRITICAL_PATTERNS, List.mem_cons, List.not_mem_nil, or_false] at hp
  rcases hp with rfl | rfl | rfl | rfl | rfl | rfl | rfl | rfl <;>
    simp [otherCritical, CRITICAL_PATTERNS, diskFormatting]

theorem found_of_otherCritical {r : Regex} (hr : r ∈ otherCritical env) :
    ∃ p ∈ CRITICAL_PATTERNS env, p.1 = r := by
  obtain ⟨p, hp, rfl⟩ := List.mem_map.mp hr
  exact ⟨p, List.mem_of_mem_eraseIdx hp, rfl⟩

theorem local_otherCritical {r : Regex} (hr : r ∈ otherCritical env) :
    r.Local env.unicode.isWord := by
  simp only [otherCritical, CRITICAL_PATTERNS, List.eraseIdx_cons_succ, List.eraseIdx_cons_zero,
    List.map_cons, List.map_nil, List.mem_cons, List.not_mem_nil, or_false] at hr
  rcases hr with rfl | rfl | rfl | rfl | rfl | rfl | rfl <;>
    simp [concat, phrase, word, spaces, space, boundary, flags, letters, plus, dot, Local]

theorem local_high {p : Regex × String} (hp : p ∈ HIGH_PATTERNS env) :
    p.1.Local env.unicode.isWord := by
  simp only [HIGH_PATTERNS, List.mem_cons, List.not_mem_nil, or_false] at hp
  rcases hp with rfl | rfl | rfl | rfl | rfl | rfl | rfl <;>
    simp [concat, phrase, word, spaces, space, boundary, plus, opt, dot, Local]

theorem local_medium {p : Regex × String} (hp : p ∈ MEDIUM_PATTERNS env) :
    p.1.Local env.unicode.isWord := by
  simp only [MEDIUM_PATTERNS, List.mem_cons, List.not_mem_nil, or_false] at hp
  rcases hp with rfl | rfl | rfl | rfl <;>
    simp [concat, word, spaces, space, boundary, plus, Local]

/-- Every pattern but one has no anchor. -/
theorem local_patternsFrom {n : ℕ} {p : Regex × String} (hp : p ∈ patternsFrom env n) :
    p.1 = diskFormatting env ∨ p.1.Local env.unicode.isWord := by
  have hcritical : p ∈ CRITICAL_PATTERNS env →
      p.1 = diskFormatting env ∨ p.1.Local env.unicode.isWord :=
    fun h => (mem_critical h).imp_right local_otherCritical
  unfold patternsFrom at hp
  split at hp
  · rcases List.mem_append.mp hp with h | h
    · rcases List.mem_append.mp h with h | h
      · exact hcritical h
      · exact .inr (local_high h)
    · exact .inr (local_medium h)
  · rcases List.mem_append.mp hp with h | h
    · exact hcritical h
    · exact .inr (local_high h)
  · exact hcritical hp

theorem critical_subset (n : ℕ) {p : Regex × String} (hp : p ∈ CRITICAL_PATTERNS env) :
    p ∈ patternsFrom env n := by
  unfold patternsFrom
  split
  · exact List.mem_append_left _ (List.mem_append_left _ hp)
  · exact List.mem_append_left _ hp
  · exact hp

/-! ## Sequences -/

/-- What may stand between two commands. -/
def SEPARATORS : List String := ["\n", "; ", " && ", " | "]

/-- The characters of separators. -/
def separatorChars : List Char := ['\n', ';', ' ', '&', '|']

/-- What a separator starts and ends with. -/
theorem separator_sides (hu : env.unicode.Lawful) {sep : String} (h : sep ∈ SEPARATORS) :
    (∃ s ss, sep.toList = s :: ss ∧ s ∈ ['\n', ';', ' ']) ∧ (∀ c ∈ sep.toList, c ∈ separatorChars) ∧
      sep.toList.head?.any env.unicode.isWord = false ∧
      sep.toList.reverse.head?.any env.unicode.isWord = false := by
  have hword : ∀ c ∈ separatorChars, env.unicode.isWord c = false := by
    intro c hc
    simp only [separatorChars, List.mem_cons, List.not_mem_nil, or_false] at hc
    rcases hc with rfl | rfl | rfl | rfl | rfl <;> rw [hu.isWord _ (by decide)] <;> decide
  have hnewline := hword '\n' (by decide)
  have hsemicolon := hword ';' (by decide)
  have hspace := hword ' ' (by decide)
  simp only [SEPARATORS, List.mem_cons, List.not_mem_nil, or_false] at h
  rcases h with rfl | rfl | rfl | rfl
  · exact ⟨⟨'\n', [], rfl, by decide⟩, by decide, hnewline, hnewline⟩
  · exact ⟨⟨';', [' '], rfl, by decide⟩, by decide, hsemicolon, hspace⟩
  · exact ⟨⟨' ', "&& ".toList, rfl, by decide⟩, by decide, hspace, hspace⟩
  · exact ⟨⟨' ', "| ".toList, rfl, by decide⟩, by decide, hspace, hspace⟩

section Parts

variable {r : Regex} {a sep b : String}

theorem toList_sequence (a sep b : String) :
    (a ++ sep ++ b).toList = a.toList ++ (sep.toList ++ b.toList) := by
  simp

/-- **A pattern without anchors** in the first command is found in the sequence. -/
theorem found_left (hr : r.Local env.unicode.isWord)
    (hs : sep.toList.head?.any env.unicode.isWord = false) (hne : sep.toList ≠ [])
    (h : found r a = true) : found r (a ++ sep ++ b) = true := by
  obtain ⟨x, t, y, ha, hm⟩ := search_isSome_iff.mp h
  refine search_isSome_iff.mpr ⟨x, t, y ++ (sep.toList ++ b.toList), ?_, hm.congr hr rfl ?_⟩
  · rw [toList_sequence, ha]
    simp
  · cases y with
    | cons c y => rfl
    | nil =>
      cases hsep : sep.toList with
      | nil => exact absurd hsep hne
      | cons s ss =>
        rw [hsep] at hs
        exact hs.symm

/-- **A pattern that does not look behind** is found in the sequence when it is in the second command. -/
theorem found_right (hr : r.Forward env.unicode.isWord)
    (hs : sep.toList.reverse.head?.any env.unicode.isWord = false) (hne : sep.toList ≠ [])
    (h : found r b = true) : found r (a ++ sep ++ b) = true := by
  obtain ⟨x, t, y, hb, hm⟩ := search_isSome_iff.mp h
  refine search_isSome_iff.mpr
    ⟨x ++ (sep.toList.reverse ++ a.toList.reverse), t, y, ?_, hm.congr_before hr ?_⟩
  · rw [toList_sequence, hb]
    simp
  · cases x with
    | cons c x => rfl
    | nil =>
      cases hsep : sep.toList.reverse with
      | nil => exact absurd (List.reverse_eq_nil_iff.mp hsep) hne
      | cons s ss =>
        rw [hsep] at hs
        exact hs.symm

end Parts

/-! ## `mkfs` -/

variable (env) in
/-- `\bmkfs\.`. -/
def formatsDevice : Regex := concat [boundary env, lit "mkfs.".toList]

variable (env) in
/-- `\bmkfs$`. -/
def formatsAtEnd : Regex := concat [boundary env, lit "mkfs".toList, textEnd]

section Formatting

variable {b t a : List Char}

theorem isWord_letters (hu : env.unicode.Lawful) {c : Char} (hc : c ∈ ['m', 'k', 'f', 's']) :
    env.unicode.isWord c = true := by
  simp only [List.mem_cons, List.not_mem_nil, or_false] at hc
  rcases hc with rfl | rfl | rfl | rfl <;> rw [hu.isWord _ (by decide)] <;> decide

/-- A pattern that starts with a word boundary and a text. -/
theorem matches_boundary_lit (c : Char) (cs : List Char) (rs : List Regex) :
    (concat (boundary env :: lit (c :: cs) :: rs)).Matches b t a ↔
      b.head?.any env.unicode.isWord ≠ env.unicode.isWord c ∧
        ∃ v, t = c :: cs ++ v ∧ (concat rs).Matches ((c :: cs).reverse ++ b) v a := by
  rw [matches_concat_cons]
  constructor
  · rintro ⟨u, v, rfl, ⟨rfl, hb⟩, h⟩
    obtain ⟨u', v', rfl, hu', h'⟩ := matches_concat_cons.mp h
    rw [matches_lit] at hu'
    subst hu'
    exact ⟨hb, v', rfl, h'⟩
  · rintro ⟨hb, v, rfl, h⟩
    exact ⟨[], c :: cs ++ v, rfl, ⟨rfl, hb⟩, matches_concat_cons.mpr ⟨c :: cs, v, rfl, matches_lit.mpr rfl, h⟩⟩

theorem matches_formatsDevice : (formatsDevice env).Matches b t a ↔
    b.head?.any env.unicode.isWord ≠ env.unicode.isWord 'm' ∧ t = "mkfs.".toList := by
  refine (matches_boundary_lit 'm' "kfs.".toList []).trans (and_congr_right fun _ => ?_)
  simp

theorem matches_formatsAtEnd : (formatsAtEnd env).Matches b t a ↔
    b.head?.any env.unicode.isWord ≠ env.unicode.isWord 'm' ∧ t = "mkfs".toList ∧
      (a = [] ∨ a = ['\n']) := by
  refine (matches_boundary_lit 'm' "kfs".toList [textEnd]).trans
    (and_congr_right fun _ => ?_)
  constructor
  · rintro ⟨v, rfl, rfl, ha⟩
    exact ⟨rfl, ha⟩
  · rintro ⟨rfl, ha⟩
    exact ⟨[], rfl, rfl, ha⟩

theorem matches_diskFormatting : (diskFormatting env).Matches b t a ↔
    (formatsDevice env).Matches b t a ∨ (formatsAtEnd env).Matches b t a := by
  rw [matches_formatsDevice, matches_formatsAtEnd, ← and_or_left]
  refine (matches_boundary_lit 'm' "kfs".toList [alt (lit ['.']) textEnd]).trans
    (and_congr_right fun _ => ?_)
  constructor
  · rintro ⟨v, rfl, h | ⟨rfl, ha⟩⟩
    · rw [matches_lit] at h
      subst h
      exact .inl rfl
    · exact .inr ⟨rfl, ha⟩
  · rintro (rfl | ⟨rfl, ha⟩)
    · exact ⟨['.'], rfl, .inl (matches_lit.mpr rfl)⟩
    · exact ⟨[], rfl, .inr ⟨rfl, ha⟩⟩

theorem found_diskFormatting {command : String} : found (diskFormatting env) command = true ↔
    found (formatsDevice env) command = true ∨ found (formatsAtEnd env) command = true := by
  unfold found
  simp only [search_isSome_iff, matches_diskFormatting, and_or_left, exists_or]

theorem local_formatsDevice : (formatsDevice env).Local env.unicode.isWord :=
  ⟨rfl, local_lit _⟩

end Formatting

/-! ## Matches that reach from one command into the next -/

/-- **A crossing match** of a sequence whose first command ends in the word `mkfs` holds that word and
what follows. -/
theorem crossing (hu : env.unicode.Lawful) {as bs p n pre t post : List Char}
    (h : as ++ bs = pre ++ (t ++ post)) (has : as = p ++ ('m' :: 'k' :: 'f' :: 's' :: n))
    (hn : n = [] ∨ n = ['\n']) (hlt : pre.length < as.length) (hgt : as.length < (pre ++ t).length)
    (hb : pre.reverse.head?.any env.unicode.isWord ≠ t.head?.any env.unicode.isWord)
    (hc : ∀ c ∈ t.head?, c ∉ separatorChars) :
    ∃ q u, p = pre ++ q ∧ t = q ++ 'm' :: 'k' :: 'f' :: 's' :: (n ++ u) ∧ bs = u ++ post ∧ u ≠ [] := by
  -- the end of the first command, and the part of the match in the second
  obtain ⟨x, rfl, hx⟩ : ∃ x, as = pre ++ x ∧ t ++ post = x ++ bs := by
    rcases List.append_eq_append_iff.mp h with ⟨x, rfl, hx⟩ | ⟨x, rfl, hx⟩
    · rw [List.length_append] at hlt
      omega
    · exact ⟨x, rfl, hx⟩
  obtain ⟨u, rfl, hbs⟩ : ∃ u, t = x ++ u ∧ bs = u ++ post := by
    rcases List.append_eq_append_iff.mp hx with ⟨u, rfl, hu⟩ | ⟨u, rfl, hu⟩
    · simp only [List.length_append] at hgt
      omega
    · exact ⟨u, rfl, hu⟩
  have hune : u ≠ [] := by
    rintro rfl
    simp at hgt
  have hword : ∀ {c d : Char} {w w' : List Char}, c ∈ ['m', 'k', 'f', 's'] →
      d ∈ ['m', 'k', 'f', 's'] → pre = w ++ [c] → x = d :: w' → False := by
    rintro c d w w' hcm hdm rfl rfl
    simp [isWord_letters hu hcm, isWord_letters hu hdm] at hb
  rcases List.append_eq_append_iff.mp has with ⟨q, rfl, rfl⟩ | ⟨y, rfl, hy⟩
  · exact ⟨q, u, rfl, by simp, hbs, hune⟩
  -- a match that starts inside the word has no boundary there
  match y, hy with
  | [], hy => exact ⟨[], u, by simp, by rw [← show _ = x from hy]; simp, hbs, hune⟩
  | [_], hy =>
    obtain ⟨rfl, rfl⟩ := List.cons.inj hy
    exact (hword (c := 'm') (d := 'k') (w := p) (by decide) (by decide) (by simp) rfl).elim
  | [_, _], hy =>
    simp only [List.cons_append, List.nil_append, List.cons.injEq] at hy
    obtain ⟨rfl, rfl, rfl⟩ := hy
    exact (hword (c := 'k') (d := 'f') (w := p ++ ['m']) (by decide) (by decide) (by simp) rfl).elim
  | [_, _, _], hy =>
    simp only [List.cons_append, List.nil_append, List.cons.injEq] at hy
    obtain ⟨rfl, rfl, rfl, rfl⟩ := hy
    exact (hword (c := 'f') (d := 's') (w := p ++ ['m', 'k']) (by decide) (by decide) (by simp)
      rfl).elim
  | _ :: _ :: _ :: _ :: w, hy =>
    simp only [List.cons_append, List.cons.injEq] at hy
    obtain ⟨-, -, -, -, rfl⟩ := hy
    have hx : x = ['\n'] := by
      cases w with
      | nil =>
        rcases hn with rfl | hn
        · simp at hlt
        · exact hn
      | cons c w =>
        rcases hn with hn | hn
        · cases hn
        · obtain ⟨-, hx⟩ := List.append_eq_nil_iff.mp (List.cons.inj hn).2
          simp [hx] at hlt
    subst hx
    exact absurd (by decide) (hc '\n' rfl)

/-! ## Where patterns start -/

variable (env) in
/-- Every match starts after a word boundary, and not with a character of a separator. -/
def StartsWord (r : Regex) : Prop := ∀ b t a, r.Matches b t a →
  (∀ c ∈ t.head?, c ∉ separatorChars) ∧ t ≠ [] ∧
    b.head?.any env.unicode.isWord ≠ t.head?.any env.unicode.isWord

theorem startsWord_concat {s : Regex} {rs : List Regex} (hs : ∀ b t a, s.Matches b t a →
    ∃ c u, t = c :: u ∧ c ∉ separatorChars) : StartsWord env (concat (boundary env :: s :: rs)) := by
  intro b t a h
  obtain ⟨u, v, rfl, ⟨rfl, hb⟩, h⟩ := matches_concat_cons.mp h
  obtain ⟨u, w, rfl, hu, h⟩ := matches_concat_cons.mp h
  obtain ⟨c, u', rfl, hc⟩ := hs _ _ _ hu
  exact ⟨fun d hd => by cases hd; exact hc, List.cons_ne_nil _ _, hb⟩

theorem startsWord_lit {c : Char} {cs : List Char} {rs : List Regex} (hc : c ∉ separatorChars) :
    StartsWord env (concat (boundary env :: lit (c :: cs) :: rs)) :=
  startsWord_concat fun _ _ _ h => ⟨c, cs, matches_lit.mp h, hc⟩

theorem startsWord_ilit {c : Char} {cs : List Char} {rs : List Regex}
    (hc : ∀ d ∈ separatorChars, sameLetter c d = false) :
    StartsWord env (concat (boundary env :: ilit (c :: cs) :: rs)) :=
  startsWord_concat fun _ _ _ h => by
    cases matches_ilit.mp h with
    | @cons _ d _ u hd _ => exact ⟨d, u, rfl, fun hmem => by simp [hc d hmem] at hd⟩

theorem startsWord_alt {r s : Regex} (hr : StartsWord env r) (hs : StartsWord env s) :
    StartsWord env (alt r s) := fun b t a h => h.elim (hr b t a) (hs b t a)

/-- **Every critical pattern** starts at a word. -/
theorem startsWord_critical {p : Regex × String} (hp : p ∈ CRITICAL_PATTERNS env) :
    StartsWord env p.1 := by
  simp only [CRITICAL_PATTERNS, List.mem_cons, List.not_mem_nil, or_false] at hp
  rcases hp with rfl | rfl | rfl | rfl | rfl | rfl | rfl | rfl
  · exact startsWord_lit (c := 'r') (by decide)
  · exact startsWord_lit (c := 'm') (by decide)
  · exact startsWord_lit (c := 'd') (by decide)
  · exact startsWord_alt (startsWord_lit (c := 's') (by decide)) (startsWord_alt
      (startsWord_lit (c := 'r') (by decide)) (startsWord_lit (c := 'h') (by decide)))
  · exact startsWord_alt (startsWord_ilit (c := 'D') (by decide))
      (startsWord_ilit (c := 'D') (by decide))
  · exact startsWord_ilit (c := 't') (by decide)
  · exact startsWord_alt (startsWord_ilit (c := 'k') (by decide))
      (startsWord_ilit (c := 'k') (by decide))
  · exact startsWord_ilit (c := 'g') (by decide)

/-! ## What follows `mkfs` in a match -/

/-- No match holds `mkfs` with a line break, a semicolon or a space after it. -/
def Refuses (r : Regex) : Prop := ∀ b t a q z w, r.Matches b t a →
  t = q ++ 'm' :: 'k' :: 'f' :: 's' :: z :: w → z ∉ ['\n', ';', ' ']

/-- A pattern that cannot match one of the letters. -/
theorem refuses_of_within {r : Regex} {c : Char} (hc : c ∈ ['m', 'k', 'f', 's'])
    (hr : r.Within (· ≠ c)) : Refuses r := by
  rintro b t a q z w h rfl
  refine absurd rfl (h.within hr c ?_)
  simp only [List.mem_cons, List.not_mem_nil, or_false] at hc
  simp only [List.mem_append, List.mem_cons]
  tauto

theorem refuses_alt {r s : Regex} (hr : Refuses r) (hs : Refuses s) : Refuses (alt r s) :=
  fun b t a q z w h => h.elim (hr b t a q z w) (hs b t a q z w)

theorem within_chars {f : Char → Char → Bool} {c : Char} {cs : List Char}
    (h : ∀ d ∈ cs, f d c = false) : (concat (cs.map fun d => char (f d))).Within (· ≠ c) := by
  refine within_concat fun r hr => ?_
  obtain ⟨d, hd, rfl⟩ := List.mem_map.mp hr
  rintro e he rfl
  rw [h d hd] at he
  cases he

/-- Letters are not white space. -/
theorem within_spaces (hu : env.unicode.Lawful) {c : Char} (hc : c ∈ ['m', 'k', 'f', 's']) :
    (spaces env).Within (· ≠ c) := by
  have hspace : env.unicode.isSpace c = false := by
    simp only [List.mem_cons, List.not_mem_nil, or_false] at hc
    rcases hc with rfl | rfl | rfl | rfl <;> rw [hu.isSpace] <;> decide
  have hne : ∀ d, env.unicode.isSpace d = true → d ≠ c := by
    rintro d hd rfl
    rw [hspace] at hd
    cases hd
  exact ⟨hne, hne⟩

/-- Words with white space between them, none of which has the letter `c`. -/
theorem within_phrase (hu : env.unicode.Lawful) {c : Char} (hc : c ∈ ['m', 'k', 'f', 's'])
    {words : List String} (h : ∀ w ∈ words, ∀ d ∈ w.toList, sameLetter d c = false) :
    (phrase env words).Within (· ≠ c) := by
  have hwords : ∀ r ∈ (words.map fun w => ilit w.toList).intersperse (spaces env),
      r.Within (· ≠ c) := by
    induction words with
    | nil => exact fun _ h => nomatch h
    | cons w words ih =>
      have hw : (ilit w.toList).Within (· ≠ c) := within_chars (h w List.mem_cons_self)
      have ih := ih fun w' hw' => h w' (List.mem_cons_of_mem _ hw')
      cases words with
      | nil => simpa using hw
      | cons w' words =>
        simp only [List.map_cons, List.intersperse_cons_cons, List.mem_cons, forall_eq_or_imp]
        exact ⟨hw, within_spaces hu hc, by simpa using ih⟩
  refine within_concat fun r hr => ?_
  simp only [List.mem_append, List.mem_singleton] at hr
  rcases hr with (rfl | hr) | rfl
  · trivial
  · exact hwords r hr
  · trivial

/-- A character that is in the second of two lists only. -/
theorem exists_of_append_eq {u v p q : List Char} {c : Char} (h : u ++ v = p ++ c :: q)
    (hc : c ∉ u) : ∃ w, p = u ++ w ∧ v = w ++ c :: q := by
  rcases List.append_eq_append_iff.mp h with ⟨w, rfl, hw⟩ | ⟨w, rfl, hw⟩
  · exact ⟨w, rfl, hw⟩
  · cases w with
    | nil => exact ⟨[], by simp, hw.symm⟩
    | cons d w =>
      obtain rfl : c = d := (List.cons.inj hw).1
      exact absurd (by simp) hc

/-- A character that is in the first of two lists only. -/
theorem exists_of_append_eq' {u v p q : List Char} {c : Char} (h : u ++ v = p ++ c :: q)
    (hc : c ∉ v) : ∃ w, u = p ++ c :: w ∧ q = w ++ v := by
  rcases List.append_eq_append_iff.mp h with ⟨w, rfl, hw⟩ | ⟨w, rfl, hw⟩
  · exact absurd (hw ▸ by simp) hc
  · cases w with
    | nil => exact absurd (show c ∈ v from (show v = c :: q from hw.symm) ▸ List.mem_cons_self) hc
    | cons d w =>
      obtain ⟨rfl, rfl⟩ := List.cons.inj hw
      exact ⟨w, rfl, rfl⟩

/-- Options are letters after a hyphen. -/
theorem letters_of_flags {c d : Char} (hc : c.isAlpha = true) (hd : d.isAlpha = true)
    {b t a : List Char} (h : (flags c d).Matches b t a) :
    ∃ u, t = '-' :: u ∧ ∀ e ∈ u, e.isAlpha = true := by
  obtain ⟨u, v, rfl, hu, h⟩ := matches_concat_cons.mp h
  rw [matches_lit] at hu
  subst hu
  refine ⟨v, rfl, h.within (within_concat fun r hr => ?_)⟩
  have hone : ∀ {e : Char}, e.isAlpha = true → (lit [e]).Within (·.isAlpha = true) := by
    intro e he f hf
    rw [eq_of_beq hf]
    exact he
  simp only [List.mem_cons, List.not_mem_nil, or_false] at hr
  rcases hr with rfl | rfl | rfl | rfl
  · exact fun _ h => h
  · exact hone hc
  · exact fun _ h => h
  · exact hone hd

/-- After `rm` and white space, the options are letters. -/
theorem refuses_remove (hu : env.unicode.Lawful) :
    Refuses (concat [boundary env, lit "rm".toList, spaces env, alt (flags 'r' 'f') (flags 'f' 'r'),
      boundary env]) := by
  rintro b t a q z w h ht
  obtain ⟨-, v, rfl, h₁⟩ := (matches_boundary_lit 'r' ['m'] _).mp h
  obtain ⟨sp, v, rfl, hsp, h₂⟩ := matches_concat_cons.mp h₁
  obtain ⟨opts, v, rfl, hopts, rfl, -⟩ := matches_concat_cons.mp h₂
  obtain ⟨ls, rfl, hls⟩ : ∃ ls, opts = '-' :: ls ∧ ∀ e ∈ ls, e.isAlpha = true :=
    hopts.elim (letters_of_flags (by decide) (by decide)) (letters_of_flags (by decide) (by decide))
  have hk : 'k' ∉ 'r' :: 'm' :: sp ++ ['-'] := by
    simp only [List.cons_append, List.mem_cons, List.mem_append, List.not_mem_nil, or_false, not_or]
    exact ⟨by decide, by decide, fun h => hsp.within (within_spaces hu (by decide)) 'k' h rfl,
      by decide⟩
  have hsplit : ('r' :: 'm' :: sp ++ ['-']) ++ ls = (q ++ ['m']) ++ 'k' :: 'f' :: 's' :: z :: w := by
    simpa using ht
  obtain ⟨x, -, rfl⟩ := exists_of_append_eq hsplit hk
  have hz := hls z (by simp)
  rintro hmem
  simp only [List.mem_cons, List.not_mem_nil, or_false] at hmem
  rcases hmem with rfl | rfl | rfl <;> revert hz <;> decide

variable (env) in
/-- `(?i)\bgit\s+push\s+.*--force\b`. -/
def forcePush : Regex :=
  concat [boundary env, ilit "git".toList, spaces env, ilit "push".toList, spaces env, star dot,
    ilit "--force".toList, boundary env]

/-- **Only a force push** can go on after `mkfs` and a separator. -/
theorem refuses_otherCritical (hu : env.unicode.Lawful) {r : Regex} (hr : r ∈ otherCritical env)
    (hne : r ≠ forcePush env) : Refuses r := by
  simp only [otherCritical, CRITICAL_PATTERNS, List.eraseIdx_cons_succ, List.eraseIdx_cons_zero,
    List.map_cons, List.map_nil, List.mem_cons, List.not_mem_nil, or_false] at hr
  have hword : ∀ {text : String}, 'k' ∉ text.toList → Refuses (word env text) := fun ht =>
    refuses_of_within (c := 'k') (by decide) ⟨trivial, within_chars fun d hd => by
      simpa using fun h : 'k' = d => ht (h ▸ hd), trivial⟩
  rcases hr with rfl | rfl | rfl | rfl | rfl | rfl | rfl
  · exact refuses_remove hu
  · refine refuses_of_within (c := 'k') (by decide) ⟨trivial, within_chars ?_,
      within_spaces hu (by decide), within_chars ?_⟩ <;> decide
  · exact refuses_alt (hword (by decide)) (refuses_alt (hword (by decide)) (hword (by decide)))
  · exact refuses_alt (refuses_of_within (c := 'k') (by decide) (within_phrase hu (by decide) (by decide)))
      (refuses_of_within (c := 'k') (by decide) (within_phrase hu (by decide) (by decide)))
  · exact refuses_of_within (c := 'k') (by decide) (within_phrase hu (by decide) (by decide))
  · exact refuses_alt (refuses_of_within (c := 'm') (by decide) (within_phrase hu (by decide) (by decide)))
      (refuses_of_within (c := 'm') (by decide) (within_phrase hu (by decide) (by decide)))
  · exact absurd rfl hne

/-! ## A force push across a separator -/

variable (env) in
/-- `(?i)\bgit\s+push\s+`. -/
def pushStart : List Regex :=
  [boundary env, ilit "git".toList, spaces env, ilit "push".toList, spaces env]

variable (env) in
/-- `(?i)\bgit\s+push\s+.*$`. -/
def pushesToEnd : Regex := concat (pushStart env ++ [star dot, textEnd])

variable (env) in
/-- `(?i)^.*--force\b`. -/
def forcedAhead : Regex := concat [textStart, star dot, ilit "--force".toList, boundary env]

/-- The command ends with a line break. -/
def EndsLine (a : String) : Prop := ∃ cs, a.toList = cs ++ ['\n']

variable (env) in
/-- A force push that starts on the last line of `a` and goes on on the first line of `b`. -/
structure PushedAcross (a sep b : String) : Prop where
  sameLine : sep ≠ "\n" ∧ ¬ EndsLine a
  pushes : found (pushesToEnd env) a = true
  forced : found (forcedAhead env) b = true

section Pushes

variable {x t y : List Char}

/-- The option of a force push. -/
def Forces (f : List Char) : Prop :=
  List.Forall₂ (fun c d => sameLetter c d = true) "--force".toList f

theorem Forces.not_mem {f : List Char} (h : Forces f) {d : Char}
    (hd : ∀ c ∈ "--force".toList, sameLetter c d = false) : d ∉ f := fun hmem =>
  Matches.within (b := []) (a := []) (within_chars hd) (matches_ilit.mpr h) d hmem rfl

theorem Forces.exists_cons {f : List Char} (h : Forces f) :
    ∃ c u, f = c :: u ∧ c ∉ separatorChars := by
  cases h with
  | @cons _ c _ u hc _ =>
    have hfirst : sameLetter '-' c = true := hc
    refine ⟨c, u, rfl, fun hmem => ?_⟩
    have hseparators : ∀ d ∈ separatorChars, sameLetter '-' d = false := by decide
    rw [hseparators c hmem] at hfirst
    cases hfirst

theorem mem_dot {w : List Char} : (∀ c ∈ w, (c != '\n') = true) ↔ '\n' ∉ w := by
  constructor
  · exact fun h hmem => by simpa using h _ hmem
  · exact fun h c hc => by simpa using fun he : c = '\n' => h (he ▸ hc)

/-- A word boundary after a text that is not empty. -/
theorem matches_boundary_after {f b v : List Char} (hf : f ≠ []) :
    (boundary env).Matches (f.reverse ++ b) v y ↔
      v = [] ∧ f.reverse.head?.any env.unicode.isWord ≠ y.head?.any env.unicode.isWord := by
  have hhead : (f.reverse ++ b).head? = f.reverse.head? := by
    cases hr : f.reverse with
    | nil => exact absurd (List.reverse_eq_nil_iff.mp hr) hf
    | cons c u => rfl
  change v = [] ∧ _ ↔ _
  rw [hhead]

/-- The parts of what follows `git push`. -/
theorem matches_forced : (concat [star dot, ilit "--force".toList, boundary env]).Matches x t y ↔
    ∃ w f, t = w ++ f ∧ '\n' ∉ w ∧ Forces f ∧
      f.reverse.head?.any env.unicode.isWord ≠ y.head?.any env.unicode.isWord := by
  rw [matches_concat_cons]
  constructor
  · rintro ⟨w, v, rfl, hw, h⟩
    obtain ⟨f, v, rfl, hf, h⟩ := matches_concat_cons.mp h
    have hforces : Forces f := matches_ilit.mp hf
    obtain ⟨c, u, hcons, -⟩ := hforces.exists_cons
    obtain ⟨rfl, hb⟩ := (matches_boundary_after (hcons ▸ List.cons_ne_nil _ _)).mp h
    exact ⟨w, f, by simp, mem_dot.mp (matches_star_char.mp hw), hforces, hb⟩
  · rintro ⟨w, f, rfl, hw, hf, hb⟩
    obtain ⟨c, u, hcons, -⟩ := hf.exists_cons
    refine ⟨w, f, rfl, matches_star_char.mpr (mem_dot.mpr hw), matches_concat_cons.mpr
      ⟨f, [], by simp, matches_ilit.mpr hf, ?_⟩⟩
    exact (matches_boundary_after (hcons ▸ List.cons_ne_nil _ _)).mpr ⟨rfl, hb⟩

/-- The parts of a force push. -/
theorem matches_forcePush : (forcePush env).Matches x t y ↔ ∃ u w f, t = u ++ (w ++ f) ∧
    (concat (pushStart env)).Matches x u (w ++ f ++ y) ∧ '\n' ∉ w ∧ Forces f ∧
      f.reverse.head?.any env.unicode.isWord ≠ y.head?.any env.unicode.isWord := by
  have hparts : forcePush env =
      concat (pushStart env ++ [star dot, ilit "--force".toList, boundary env]) := rfl
  rw [hparts, matches_concat_append]
  constructor
  · rintro ⟨u, v, rfl, hu, h⟩
    obtain ⟨w, f, rfl, hw, hf, hb⟩ := matches_forced.mp h
    exact ⟨u, w, f, rfl, hu, hw, hf, hb⟩
  · rintro ⟨u, w, f, rfl, hu, hw, hf, hb⟩
    exact ⟨u, w ++ f, rfl, hu, matches_forced.mpr ⟨w, f, rfl, hw, hf, hb⟩⟩

theorem matches_pushesToEnd : (pushesToEnd env).Matches x t y ↔ ∃ u w, t = u ++ w ∧
    (concat (pushStart env)).Matches x u (w ++ y) ∧ '\n' ∉ w ∧ (y = [] ∨ y = ['\n']) := by
  rw [pushesToEnd, matches_concat_append]
  constructor
  · rintro ⟨u, v, rfl, hu, w, v, rfl, hw, rfl, hy⟩
    exact ⟨u, w, by simp, by simpa using hu, mem_dot.mp (matches_star_char.mp hw), hy⟩
  · rintro ⟨u, w, rfl, hu, hw, hy⟩
    exact ⟨u, w, rfl, hu, w, [], by simp, matches_star_char.mpr (mem_dot.mpr hw), rfl, hy⟩

theorem matches_forcedAhead : (forcedAhead env).Matches x t y ↔ x = [] ∧ ∃ w f, t = w ++ f ∧
    '\n' ∉ w ∧ Forces f ∧
      f.reverse.head?.any env.unicode.isWord ≠ y.head?.any env.unicode.isWord := by
  rw [forcedAhead, matches_concat_cons]
  constructor
  · rintro ⟨u, v, rfl, ⟨rfl, rfl⟩, h⟩
    exact ⟨rfl, matches_forced.mp h⟩
  · rintro ⟨rfl, h⟩
    exact ⟨[], t, rfl, ⟨rfl, rfl⟩, matches_forced.mpr h⟩

/-- `git push` has no `m`. -/
theorem not_mem_pushStart (hu : env.unicode.Lawful) {u : List Char}
    (h : (concat (pushStart env)).Matches x u y) : 'm' ∉ u := by
  have hwithin : (concat (pushStart env)).Within (· ≠ 'm') := by
    refine within_concat fun r hr => ?_
    simp only [pushStart, List.mem_cons, List.not_mem_nil, or_false] at hr
    rcases hr with rfl | rfl | rfl | rfl | rfl
    · trivial
    · exact within_chars (by decide)
    · exact within_spaces hu (by decide)
    · exact within_chars (by decide)
    · exact within_spaces hu (by decide)
  exact fun hm => h.within hwithin 'm' hm rfl

theorem local_pushStart : (concat (pushStart env)).Local env.unicode.isWord :=
  ⟨rfl, local_ilit _, ⟨trivial, trivial⟩, local_ilit _, trivial, trivial⟩

/-- **A force push that goes on after `mkfs`** and the separator. -/
theorem pushedAcross_of_match (hu : env.unicode.Lawful) {a sep b : String} (hsep : sep ∈ SEPARATORS)
    {pre q n u post : List Char} (ha : a.toList = pre ++ (q ++ 'm' :: 'k' :: 'f' :: 's' :: n))
    (hn : n = [] ∨ n = ['\n']) (hb : sep.toList ++ b.toList = u ++ post)
    (hm : (forcePush env).Matches pre.reverse (q ++ 'm' :: 'k' :: 'f' :: 's' :: (n ++ u)) post) :
    PushedAcross env a sep b := by
  obtain ⟨g, w, f, ht, hg, hw, hf, hend⟩ := matches_forcePush.mp hm
  obtain ⟨w₀, rfl, hwf⟩ := exists_of_append_eq ht.symm (not_mem_pushStart hu hg)
  have hwf' : w ++ f = (w₀ ++ ['m', 'k', 'f']) ++ 's' :: (n ++ u) := by
    rw [hwf]
    simp
  obtain ⟨w₁, rfl, hnu⟩ := exists_of_append_eq' hwf' (hf.not_mem (by decide))
  obtain ⟨c, f', rfl, hc⟩ := hf.exists_cons
  have hw₁ : '\n' ∉ w₁ := fun h => hw (by simp [h])
  -- no line ends before the option
  obtain rfl : n = [] := by
    rcases hn with rfl | rfl
    · rfl
    · cases w₁ with
      | nil =>
        obtain rfl : '\n' = c := (List.cons.inj hnu).1
        exact absurd (by decide) hc
      | cons d w₁ =>
        obtain rfl : '\n' = d := (List.cons.inj hnu).1
        exact absurd List.mem_cons_self hw₁
  obtain rfl : u = w₁ ++ c :: f' := hnu
  obtain ⟨-, hchars, -, -⟩ := separator_sides hu hsep
  -- the option is in the second command
  obtain ⟨w₂, rfl, hb'⟩ : ∃ w₂, w₁ = sep.toList ++ w₂ ∧ b.toList = w₂ ++ (c :: f') ++ post := by
    rw [List.append_assoc] at hb
    rcases List.append_eq_append_iff.mp hb with ⟨z, hz, hb'⟩ | ⟨z, hz, hb'⟩
    · exact ⟨z, hz, by simp [hb']⟩
    · cases z with
      | nil => exact ⟨[], by simpa using hz.symm, by simpa using hb'.symm⟩
      | cons d z =>
        obtain rfl : c = d := (List.cons.inj hb').1
        exact absurd (hchars c (hz ▸ by simp)) hc
  refine ⟨⟨?_, ?_⟩, ?_, ?_⟩
  · rintro rfl
    exact hw₁ (List.mem_append_left _ (by decide))
  · rintro ⟨cs, hcs⟩
    rw [hcs] at ha
    have hlast := congrArg List.getLast? ha
    simp at hlast
  · refine search_isSome_iff.mpr ⟨pre.reverse, g ++ (w₀ ++ ['m', 'k', 'f', 's']), [], ?_, ?_⟩
    · rw [ha]
      simp
    · refine matches_pushesToEnd.mpr ⟨g, _, rfl, hg.congr local_pushStart rfl ?_, ?_, .inl rfl⟩
      · cases w₀ <;> rfl
      · intro h
        have hw₀ : '\n' ∈ w₀ := by simpa using h
        exact hw (by simp [hw₀])
  · refine search_isSome_iff.mpr ⟨[], w₂ ++ c :: f', post, by simp [hb'], ?_⟩
    exact matches_forcedAhead.mpr ⟨rfl, w₂, c :: f', rfl, fun h => hw₁ (by simp [h]), hf, hend⟩

/-- **A force push across the separator** is found. -/
theorem found_of_pushedAcross (hu : env.unicode.Lawful) {a sep b : String} (hsep : sep ∈ SEPARATORS)
    (h : PushedAcross env a sep b) : found (forcePush env) (a ++ sep ++ b) = true := by
  obtain ⟨⟨hline, hends⟩, ha, hb⟩ := h
  obtain ⟨x, t, y, ha, hm⟩ := search_isSome_iff.mp ha
  obtain ⟨g, w, rfl, hg, hw, hy⟩ := matches_pushesToEnd.mp hm
  obtain rfl : y = [] := by
    rcases hy with rfl | rfl
    · rfl
    · exact absurd ⟨_, ha⟩ hends
  obtain ⟨x', t', z, hb, hm'⟩ := search_isSome_iff.mp hb
  obtain ⟨rfl, v, f, rfl, hv, hf, hend⟩ := matches_forcedAhead.mp hm'
  obtain ⟨⟨s, ss, hs, -⟩, -, hhead, -⟩ := separator_sides hu hsep
  have hnewline : '\n' ∉ sep.toList := by
    simp only [SEPARATORS, List.mem_cons, List.not_mem_nil, or_false] at hsep
    rcases hsep with rfl | rfl | rfl | rfl
    · exact absurd rfl hline
    all_goals decide
  refine search_isSome_iff.mpr ⟨x, g ++ ((w ++ sep.toList ++ v) ++ f), z, ?_, ?_⟩
  · rw [toList_sequence, ha, hb]
    simp
  · refine matches_forcePush.mpr ⟨g, w ++ sep.toList ++ v, f, rfl, hg.congr local_pushStart rfl ?_,
      ?_, hf, hend⟩
    · cases w with
      | nil =>
        rw [hs] at hhead ⊢
        exact hhead.symm
      | cons c w => rfl
    · simp only [List.mem_append, not_or]
      exact ⟨⟨hw, hnewline⟩, hv⟩

end Pushes

/-! ## Sequences -/

variable (env) in
/-- **The danger that a sequence hides**: the first command ends in the word `mkfs`, the only critical
thing in it, there is none in the second, the word does not end the sequence, and no force push goes on
across the separator. -/
structure Hidden (a sep b : String) : Prop where
  formats : found (formatsAtEnd env) a = true
  alone : found (formatsDevice env) a = false ∧ ∀ r ∈ otherCritical env, found r a = false
  harmless : ∀ p ∈ CRITICAL_PATTERNS env, found p.1 b = false
  goesOn : ¬ (sep = "\n" ∧ b = "" ∧ ¬ EndsLine a)
  noPush : ¬ PushedAcross env a sep b

/-- The level of a sequence is at least those of its parts. -/
def Monotone (env : Env) (a sep b : String) : Prop :=
  max (classifyCommandRisk env a).riskLevel.rank (classifyCommandRisk env b).riskLevel.rank ≤
    (classifyCommandRisk env (a ++ sep ++ b)).riskLevel.rank

theorem forward_diskFormatting : (diskFormatting env).Forward env.unicode.isWord :=
  ⟨rfl, (local_lit _).forward, (local_lit ['.']).forward, trivial⟩

theorem forward_critical {p : Regex × String} (hp : p ∈ CRITICAL_PATTERNS env) :
    p.1.Forward env.unicode.isWord := by
  rcases mem_critical hp with h | h
  · rw [h]
    exact forward_diskFormatting
  · exact (local_otherCritical h).forward

theorem forcePush_mem : forcePush env ∈ otherCritical env := by
  simp [otherCritical, CRITICAL_PATTERNS, forcePush]

theorem diskFormatting_mem (env : Env) : ∃ p ∈ CRITICAL_PATTERNS env, p.1 = diskFormatting env := by
  simp [CRITICAL_PATTERNS, diskFormatting]

section Sequence

variable {a sep b : String}

theorem head?_any_append_right (cs ds : List Char) (hcs : cs.head?.any env.unicode.isWord = false)
    (hne : cs ≠ []) : (cs ++ ds).head?.any env.unicode.isWord = false := by
  cases cs with
  | nil => exact absurd rfl hne
  | cons c cs => exact hcs

/-- A match in the second command. -/
theorem found_second (hu : env.unicode.Lawful) (hsep : sep ∈ SEPARATORS) {p : Regex × String}
    (hp : p ∈ CRITICAL_PATTERNS env) {x t v post : List Char} (hm : p.1.Matches x t post)
    (hx : x.reverse = a.toList ++ (sep.toList ++ v)) (hb : b.toList = v ++ (t ++ post)) :
    found p.1 b = true := by
  obtain ⟨⟨s, ss, hs, -⟩, -, -, hlast⟩ := separator_sides hu hsep
  have hxv : x = v.reverse ++ (sep.toList.reverse ++ a.toList.reverse) := by
    rw [← List.reverse_reverse x, hx]
    simp
  refine search_isSome_iff.mpr ⟨v.reverse, t, post, by simp [hb], ?_⟩
  refine hm.congr_before (forward_critical hp) ?_
  rw [hxv]
  cases v.reverse with
  | cons c v => rfl
  | nil => exact head?_any_append_right sep.toList.reverse _ hlast (by simp [hs])

/-- No critical pattern but the hidden one matches in the first command. -/
theorem Hidden.not_first (hu : env.unicode.Lawful) (hsep : sep ∈ SEPARATORS) (h : Hidden env a sep b)
    {p : Regex × String} (hp : p ∈ CRITICAL_PATTERNS env) {x t v : List Char}
    (hm : p.1.Matches x t (v ++ (sep.toList ++ b.toList)))
    (ha : a.toList = x.reverse ++ t ++ v) : False := by
  obtain ⟨⟨s, ss, hs, -⟩, -, hhead, -⟩ := separator_sides hu hsep
  have hafter : (v ++ (sep.toList ++ b.toList)).head?.any env.unicode.isWord =
      v.head?.any env.unicode.isWord := by
    cases v with
    | cons c v => rfl
    | nil => exact head?_any_append_right sep.toList _ hhead (by simp [hs])
  have hfound : ∀ {r : Regex}, r.Local env.unicode.isWord →
      r.Matches x t (v ++ (sep.toList ++ b.toList)) → found r a = true := fun hr hm =>
    search_isSome_iff.mpr ⟨x, t, v, ha, hm.congr hr rfl hafter⟩
  rcases mem_critical hp with hdisk | hother
  · rw [hdisk, matches_diskFormatting] at hm
    rcases hm with hm | hm
    · have hdevice := hfound local_formatsDevice hm
      rw [h.alone.1] at hdevice
      cases hdevice
    -- the end of the sequence is the end of the first command
    · obtain ⟨-, rfl, hend⟩ := matches_formatsAtEnd.mp hm
      have hend : v ++ (sep.toList ++ b.toList) = ['\n'] := hend.resolve_left (by simp [hs])
      obtain ⟨rfl, hsb⟩ : v = [] ∧ sep.toList ++ b.toList = ['\n'] := by
        cases v with
        | nil => exact ⟨rfl, hend⟩
        | cons c v => simp [hs] at hend
      rw [hs, List.cons_append] at hsb
      obtain ⟨rfl, hnil⟩ := List.cons.inj hsb
      obtain ⟨rfl, hb⟩ := List.append_eq_nil_iff.mp hnil
      refine h.goesOn ⟨String.toList_inj.mp hs, String.toList_inj.mp hb, ?_⟩
      rintro ⟨cs, hcs⟩
      rw [hcs] at ha
      have hlast := congrArg List.getLast? ha
      simp at hlast
  · have hin := hfound (local_otherCritical hother) hm
    rw [h.alone.2 p.1 hother] at hin
    cases hin

/-- No critical pattern matches across the separator. -/
theorem Hidden.not_across (hu : env.unicode.Lawful) (hsep : sep ∈ SEPARATORS) (h : Hidden env a sep b)
    {p : Regex × String} (hp : p ∈ CRITICAL_PATTERNS env) {x z u post : List Char}
    (hm : p.1.Matches x (z ++ u) post) (ha : a.toList = x.reverse ++ z) (hz : z ≠ []) (hune : u ≠ [])
    (hsb : sep.toList ++ b.toList = u ++ post) : False := by
  obtain ⟨y, t, n, hat, hformats⟩ := search_isSome_iff.mp h.formats
  obtain ⟨-, rfl, hn⟩ := matches_formatsAtEnd.mp hformats
  obtain ⟨hc, -, hb⟩ := startsWord_critical hp _ _ _ hm
  obtain ⟨⟨s, ss, hs, hsmem⟩, -, -, -⟩ := separator_sides hu hsep
  have hlt : x.reverse.length < a.toList.length := by
    have := List.length_pos_iff.mpr hz
    rw [ha, List.length_append]
    omega
  have hgt : a.toList.length < (x.reverse ++ (z ++ u)).length := by
    have := List.length_pos_iff.mpr hune
    simp only [ha, List.length_append]
    omega
  obtain ⟨q, u', hq, ht, hsb', hune'⟩ := crossing hu (by rw [ha, hsb]; simp :
      a.toList ++ (sep.toList ++ b.toList) = x.reverse ++ (z ++ u ++ post))
    (by rw [hat]; simp : a.toList = y.reverse ++ ('m' :: 'k' :: 'f' :: 's' :: n)) hn hlt hgt
    (by rwa [List.reverse_reverse]) hc
  -- what follows the word
  obtain ⟨c, w, hcw, hcmem⟩ : ∃ c w, n ++ u' = c :: w ∧ c ∈ ['\n', ';', ' '] := by
    rcases hn with rfl | rfl
    · cases u' with
      | nil => exact absurd rfl hune'
      | cons c w =>
        rw [hs] at hsb'
        obtain rfl : s = c := (List.cons.inj hsb').1
        exact ⟨s, w, rfl, hsmem⟩
    · exact ⟨'\n', u', rfl, by decide⟩
  rw [ht] at hm
  rcases mem_critical hp with hdisk | hother
  · rw [hdisk, matches_diskFormatting, hcw, matches_formatsDevice, matches_formatsAtEnd] at hm
    rcases hm with ⟨-, hm⟩ | ⟨-, hm, -⟩
    · have hlength := congrArg List.length hm
      simp only [List.length_append, List.length_cons, show "mkfs.".toList.length = 5 from rfl] at hlength
      obtain rfl : q = [] := List.length_eq_zero_iff.mp (by omega)
      obtain rfl : c = '.' := by
        have hget := congrArg (fun cs => cs[4]?) hm
        simpa using hget
      exact absurd hcmem (by decide)
    · have hlength := congrArg List.length hm
      simp only [List.length_append, List.length_cons, show "mkfs".toList.length = 4 from rfl] at hlength
      omega
  · by_cases hforce : p.1 = forcePush env
    · rw [hforce, ← List.reverse_reverse x] at hm
      exact h.noPush (pushedAcross_of_match hu hsep (by rw [hat, hq]; simp) hn hsb' hm)
    · rw [hcw] at hm
      exact refuses_otherCritical hu hother hforce _ _ _ q c w hm rfl hcmem

/-- **A hidden danger** is not found in the sequence. -/
theorem Hidden.not_found (hu : env.unicode.Lawful) (hsep : sep ∈ SEPARATORS) (h : Hidden env a sep b)
    {p : Regex × String} (hp : p ∈ CRITICAL_PATTERNS env) : found p.1 (a ++ sep ++ b) = false := by
  rw [Bool.eq_false_iff]
  intro hfound
  obtain ⟨x, t, post, hj, hm⟩ := search_isSome_iff.mp hfound
  obtain ⟨hc, hne, -⟩ := startsWord_critical hp _ _ _ hm
  obtain ⟨-, hchars, -, -⟩ := separator_sides hu hsep
  have hsecond : ∀ v, x.reverse = a.toList ++ (sep.toList ++ v) → b.toList = v ++ (t ++ post) → False := by
    intro v hx hb
    have hin := found_second hu hsep hp hm hx hb
    rw [h.harmless p hp] at hin
    cases hin
  have hinside : ∀ c v, sep.toList = v ++ c → c ≠ [] → t ++ post = c ++ b.toList → False := by
    intro c v hs hcne ht
    cases c with
    | nil => exact hcne rfl
    | cons c cs =>
      cases t with
      | nil => exact hne rfl
      | cons d t =>
        obtain rfl : d = c := (List.cons.inj ht).1
        exact hc d rfl (hchars d (by simp [hs]))
  rw [toList_sequence, List.append_assoc] at hj
  rcases List.append_eq_append_iff.mp hj with ⟨z, hx, hz⟩ | ⟨z, hz, ht⟩
  · rcases List.append_eq_append_iff.mp hz with ⟨v, rfl, hv⟩ | ⟨v, hsv, hv⟩
    · exact hsecond v hx hv
    · cases v with
      | nil => exact hsecond [] (by simp [hx, hsv]) hv.symm
      | cons c v => exact hinside (c :: v) z hsv (List.cons_ne_nil _ _) hv
  · rcases List.append_eq_append_iff.mp ht with ⟨v, rfl, hv⟩ | ⟨u, rfl, hu'⟩
    · rw [hv] at hm
      exact h.not_first hu hsep hp hm (by simp [hz])
    · by_cases hzne : z = []
      · subst hzne
        refine hinside sep.toList [] rfl ?_ (by simpa using hu'.symm)
        obtain ⟨⟨s, ss, hs, -⟩, -⟩ := separator_sides hu hsep
        simp [hs]
      by_cases hune : u = []
      · subst hune
        have hm' : p.1.Matches x z ([] ++ (sep.toList ++ b.toList)) := by simpa [hu'] using hm
        exact h.not_first hu hsep hp hm' (by simp [hz])
      exact h.not_across hu hsep hp hm hz hzne hune hu'

/-- **A level that is lost** was that of a hidden danger. -/
theorem hidden_of_lost (hu : env.unicode.Lawful) (hsep : sep ∈ SEPARATORS) {n : ℕ}
    {p : Regex × String} (hp : p ∈ patternsFrom env n) (hpart : found p.1 a = true ∨ found p.1 b = true)
    (hno : ∀ p ∈ patternsFrom env n, found p.1 (a ++ sep ++ b) = false) : Hidden env a sep b := by
  obtain ⟨⟨s, ss, hs, -⟩, -, hhead, hlast⟩ := separator_sides hu hsep
  have hne : sep.toList ≠ [] := by simp [hs]
  have hleft : ∀ {r : Regex}, r.Local env.unicode.isWord → found r (a ++ sep ++ b) = false →
      found r a = false := fun hr h => by
    rw [Bool.eq_false_iff] at h ⊢
    exact fun hfound => h (found_left hr hhead hne hfound)
  have hright : ∀ {r : Regex}, r.Forward env.unicode.isWord → found r (a ++ sep ++ b) = false →
      found r b = false := fun hr h => by
    rw [Bool.eq_false_iff] at h ⊢
    exact fun hfound => h (found_right hr hlast hne hfound)
  have hcritical : ∀ p ∈ CRITICAL_PATTERNS env, found p.1 (a ++ sep ++ b) = false :=
    fun p hp => hno p (critical_subset n hp)
  have hother : ∀ r ∈ otherCritical env, found r (a ++ sep ++ b) = false := by
    intro r hr
    obtain ⟨p, hp, rfl⟩ := found_of_otherCritical hr
    exact hcritical p hp
  obtain ⟨hdevice, hend⟩ : found (formatsDevice env) (a ++ sep ++ b) = false ∧
      found (formatsAtEnd env) (a ++ sep ++ b) = false := by
    obtain ⟨p, hp, hpd⟩ := diskFormatting_mem env
    have hdisk := hcritical p hp
    rw [hpd, Bool.eq_false_iff, ne_eq, found_diskFormatting, not_or] at hdisk
    simpa using hdisk
  have hformats : found (formatsAtEnd env) a = true := by
    rcases local_patternsFrom hp with hdisk | hlocal
    · rw [hdisk] at hpart
      rcases hpart with hpart | hpart
      · refine (found_diskFormatting.mp hpart).resolve_left fun h => ?_
        rw [hleft local_formatsDevice hdevice] at h
        cases h
      · obtain ⟨p', hp', hpd⟩ := diskFormatting_mem env
        rw [hright forward_diskFormatting (hpd ▸ hcritical p' hp')] at hpart
        cases hpart
    · have hnot := hno p hp
      rw [hleft hlocal hnot, hright hlocal.forward hnot] at hpart
      simp at hpart
  refine ⟨hformats, ⟨hleft local_formatsDevice hdevice, fun r hr =>
    hleft (local_otherCritical hr) (hother r hr)⟩, fun p hp =>
    hright (forward_critical hp) (hcritical p hp), ?_, fun hpush => ?_⟩
  -- a final line break leaves `mkfs` at the end
  · rintro ⟨rfl, rfl, hline⟩
    obtain ⟨x, t, y, ha, hm⟩ := search_isSome_iff.mp hformats
    obtain ⟨hx, rfl, hy⟩ := matches_formatsAtEnd.mp hm
    obtain rfl : y = [] := hy.resolve_right fun h => hline ⟨_, h ▸ ha⟩
    rw [Bool.eq_false_iff] at hend
    refine hend (search_isSome_iff.mpr ⟨x, "mkfs".toList, ['\n'], ?_,
      matches_formatsAtEnd.mpr ⟨hx, rfl, .inr rfl⟩⟩)
    rw [toList_sequence, ha]
    simp
  · have hforce := hother _ forcePush_mem
    rw [found_of_pushedAcross hu hsep hpush] at hforce
    cases hforce

/-- **The level of a sequence** is at least those of its parts, unless it hides a danger: for each
separator, exactly then. -/
theorem monotone_iff (env : Env) (hu : env.unicode.Lawful) (a sep b : String) (hsep : sep ∈ SEPARATORS) :
    Monotone env a sep b ↔ ¬ Hidden env a sep b := by
  constructor
  · intro hmono h
    have hdisk : 3 ≤ (classifyCommandRisk env a).riskLevel.rank := by
      obtain ⟨p, hp, hpd⟩ := diskFormatting_mem env
      exact (le_rank_iff (by decide) (Nat.le_refl _)).mpr
        ⟨p, hp, hpd ▸ found_diskFormatting.mpr (.inr h.formats)⟩
    have hjoined := Nat.le_trans (Nat.le_trans hdisk (Nat.le_max_left _ _)) hmono
    obtain ⟨p, hp, hfound⟩ := (le_rank_iff (by decide) (Nat.le_refl _)).mp hjoined
    rw [h.not_found hu hsep hp] at hfound
    cases hfound
  · intro hidden
    by_contra hmono
    have hrank : ∀ r : RiskLevel, r.rank ≤ 3 := fun r => by cases r <;> decide
    unfold Monotone at hmono
    generalize hn : max (classifyCommandRisk env a).riskLevel.rank
      (classifyCommandRisk env b).riskLevel.rank = n at hmono
    have hpos : 1 ≤ n := by omega
    have hle : n ≤ 3 := hn ▸ Nat.max_le.mpr ⟨hrank _, hrank _⟩
    rw [le_rank_iff hpos hle] at hmono
    have hno : ∀ p ∈ patternsFrom env n, found p.1 (a ++ sep ++ b) = false := fun p hp =>
      Bool.eq_false_iff.mpr fun hfound => hmono ⟨p, hp, hfound⟩
    -- a pattern of one of the parts
    rcases Nat.le_total (classifyCommandRisk env a).riskLevel.rank
      (classifyCommandRisk env b).riskLevel.rank with h | h
    · rw [Nat.max_eq_right h] at hn
      obtain ⟨p, hp, hfound⟩ := (le_rank_iff hpos hle).mp hn.ge
      exact hidden (hidden_of_lost hu hsep hp (.inr hfound) hno)
    · rw [Nat.max_eq_left h] at hn
      obtain ⟨p, hp, hfound⟩ := (le_rank_iff hpos hle).mp hn.ge
      exact hidden (hidden_of_lost hu hsep hp (.inl hfound) hno)

end Sequence

/-- A line break after `mkfs` leaves it at the end. -/
theorem monotone_iff_newline : ¬ Hidden plainEnv "mkfs" "\n" "" := by
  refine (monotone_iff plainEnv Unicode.lawful_ascii "mkfs" "\n" "" (by decide)).mp ?_
  unfold Monotone
  decide

/-- A second command hides `mkfs`. -/
theorem not_monotone_mkfs : ¬ ∀ (env : Env), env.unicode.Lawful → ∀ a sep b : String,
    sep ∈ SEPARATORS → Monotone env a sep b := by
  intro h
  have hmono := h plainEnv Unicode.lawful_ascii "mkfs" "; " "ls" (by decide)
  unfold Monotone at hmono
  revert hmono
  decide

end CommandRisk

end DevOps
