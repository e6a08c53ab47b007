import DevOpsAssistant.Policies.ImageReferences
import DevOpsAssistant.Reviews.LineNumbers
import Mathlib.Data.List.Infix

/-!
# The actions of a workflow

The rule finds entries by one expression, reads their values by others, and reports some of those that
are not pinned.

* `UsesEntry`: an entry `uses: …` of a file, with or without a dash; `IsPinnedAction`: a commit or a
  digest.
* `found_unpinned_iff`: what `UNPINNED_GHA_RE` finds; its lookbehind never counts.
* `captured_of_dash`: the expression reaches each entry with a dash.
* **`unpinned_reported_iff`**: when each remote action that is not pinned is reported.
-/

namespace DevOps

namespace PolicyEngine

open Regex
open ReviewChecks (contains_iff usesMatch usesLead isReported of_mem_usesFindings
  exists_mem_usesFindings usesLine_eq UsesMatch)

/-! ## Entries -/

/-- `uses:`, perhaps as an entry of a list; `dash` says whether. -/
def IsUsesKey (l : List Char) (dash : Bool) : Prop :=
  ∃ s d t, l = s ++ (d ++ ("uses:".toList ++ t)) ∧ (∀ c ∈ s, isBlank c = true) ∧
    (if dash then ∃ u, d = '-' :: u ∧ ∀ c ∈ u, isBlank c = true else d = []) ∧
    ∀ c ∈ t, isBlank c = true

/-- **An entry** of a file that names a remote action: the rest of its line is `rest`, perhaps a quote,
the action, which begins with a letter or a digit and goes on up to white space or a quote, and anything
else. -/
structure UsesEntry (content pre action rest post : List Char) (dash : Bool) : Prop where
  split : content = pre ++ (rest ++ post)
  line : ∃ q l, pre = q ++ l ∧ (∀ c ∈ q.getLast?, c = '\n') ∧ IsUsesKey l dash
  value : ∃ k e, rest = k ++ (action ++ e) ∧ (k = [] ∨ k = ['\''] ∨ k = ['"']) ∧
    ∀ c ∈ e.head?, isPlain c = false
  first : ∃ c cs, action = c :: cs ∧ c.isAlphanum = true
  plain : ∀ c ∈ action, isPlain c = true
  oneLine : '\n' ∉ rest
  stop : ∀ c ∈ post.head?, c = '\n'

/-- The reference of an action is a commit, by its 40 hexadecimal digits, or a digest. -/
def IsPinnedAction (action : List Char) : Prop :=
  ∃ name ref, action = name ++ '@' :: ref ∧ '@' ∉ name ∧
    ((ref.length = 40 ∧ ∀ c ∈ ref, isHexDigit c.toLower = true) ∨
      ∃ hex, ref = "sha256:".toList ++ hex ∧ hex.length = 64 ∧
        ∀ c ∈ hex, isHexDigit c.toLower = true)

variable (env : Env)

/-- There is a finding about the entry whose line ends before `post`. -/
def IsEntryReported (rule : PolicyRule) (configType content : String) (policyPackId : UUID)
    (post : List Char) : Prop :=
  ∃ m ∈ (usesLine env).findIter content.toList, m.stop.rest = post ∧
    ∃ f ∈ usesFindings env rule content policyPackId m,
      f ∈ evaluateRule env rule configType content policyPackId

/-! ## Values -/

/-- A text has `uses:`, and after it a name without white space, `@`, and a character that begins no
comment. -/
def NamesReference (t : List Char) : Prop :=
  ∃ b s x c a, t = b ++ ("uses:".toList ++ (s ++ (x ++ '@' :: c :: a))) ∧
    (∀ c ∈ s, Text.isSpace c = true) ∧ (x ≠ [] ∧ ∀ c ∈ x, Text.isSpace c = false ∧ c ≠ '@') ∧
    c ≠ '#' ∧ c ≠ '\n'

/-- The value mentions a branch that moves, or ends with a version. -/
def IsMutable (v : String) : Prop :=
  ("@main".toList <:+: v.toList ∨ "@master".toList <:+: v.toList ∨ ":latest".toList <:+: v.toList) ∨
    found (versionTag env) v = true

variable {env}

/-- No digest ends right after an `@`. -/
theorem not_isDigest_of_at {t : List Char} {c : Char} : ¬ IsDigest (t ++ ['@', c]) := by
  rintro ⟨hex, hsplit, hlength, hhex⟩
  obtain ⟨x, y, z, rfl⟩ : ∃ x y z, hex = x ++ [y, z] := by
    rcases List.eq_nil_or_concat hex with rfl | ⟨hex, z, rfl⟩
    · simp at hlength
    · rcases List.eq_nil_or_concat hex with rfl | ⟨x, y, rfl⟩
      · simp at hlength
      · exact ⟨x, y, z, by simp⟩
  rw [← List.append_assoc] at hsplit
  obtain ⟨-, htail⟩ := List.append_inj' hsplit rfl
  obtain ⟨rfl, -⟩ := List.cons.inj htail
  exact absurd (hhex '@' (by simp)) (by decide)

/-- **What `UNPINNED_GHA_RE` finds**: the lookbehind never counts. -/
theorem found_unpinned_iff (hu : env.unicode.Lawful) {t : String} :
    found (UNPINNED_GHA_RE env) t = true ↔ NamesReference t.toList := by
  unfold found
  rw [search_isSome_iff]
  constructor
  · rintro ⟨b, t', a, htext, hm⟩
    obtain ⟨u₁, v₁, rfl, h₁, hm⟩ := matches_concat_cons.mp hm
    obtain ⟨u₂, v₂, rfl, h₂, hm⟩ := matches_concat_cons.mp hm
    obtain ⟨u₃, v₃, rfl, h₃, hm⟩ := matches_concat_cons.mp hm
    obtain ⟨u₄, v₄, rfl, h₄, hm⟩ := matches_concat_cons.mp hm
    obtain ⟨u₅, v₅, rfl, h₅, -⟩ := matches_concat_cons.mp hm
    obtain rfl := matches_lit.mp h₁
    obtain rfl := matches_lit.mp h₄
    obtain ⟨hne, hname⟩ := matches_plus_char.mp h₃
    obtain ⟨hne', href⟩ := matches_plus_char.mp h₅
    obtain ⟨c, cs, rfl⟩ := List.exists_cons_of_ne_nil hne'
    refine ⟨b.reverse, u₂, u₃, c, cs ++ (v₅ ++ a), by rw [htext]; simp, fun d hd => ?_, ⟨hne, fun d hd => ?_⟩, ?_⟩
    · rw [← hu.isSpace]
      exact matches_star_char.mp h₂ d hd
    · rw [← hu.isSpace]
      simpa using hname d hd
    · simpa using href c List.mem_cons_self
  · rintro ⟨b, s, x, c, a, htext, hs, ⟨hne, hx⟩, hc⟩
    refine ⟨b.reverse, "uses:".toList ++ (s ++ (x ++ ['@', c])), a, by rw [htext]; simp, ?_⟩
    refine matches_concat_cons.mpr ⟨_, _, rfl, matches_lit.mpr rfl, ?_⟩
    refine matches_concat_cons.mpr ⟨s, _, rfl, matches_star_char.mpr fun d hd => ?_, ?_⟩
    · rw [hu.isSpace]
      exact hs d hd
    refine matches_concat_cons.mpr ⟨x, _, rfl, matches_plus_char.mpr ⟨hne, fun d hd => ?_⟩, ?_⟩
    · rw [hu.isSpace]
      simpa using hx d hd
    refine matches_concat_cons.mpr ⟨['@'], [c], rfl, matches_lit.mpr rfl, ?_⟩
    refine matches_concat_cons.mpr ⟨[c], [], rfl, matches_plus_char.mpr ⟨by simp, by simpa using hc⟩, ?_⟩
    -- the last two of the characters before are `@` and `c`
    refine ⟨rfl, fun h => ?_⟩
    exact not_isDigest_of_at (matches_digest.mp (by simpa using h.2))

/-- Which values are reported. -/
theorem isReported_iff_value (hu : env.unicode.Lawful) {v : String} : isReported env v = true ↔
    ('@' ∉ v.toList ∨ NamesReference ("uses: ".toList ++ v.toList)) ∧ IsMutable env v := by
  have hat : contains "@" v = true ↔ '@' ∈ v.toList := by
    rw [contains_iff]
    exact List.singleton_infix_iff '@' v.toList
  have hunpinned := found_unpinned_iff hu (t := "uses: " ++ v)
  rw [String.toList_append] at hunpinned
  unfold isReported IsMutable
  rw [Bool.and_eq_true, Bool.or_eq_true, Bool.not_eq_true', ← Bool.not_eq_true, hat, hunpinned]
  simp only [Bool.or_eq_true, contains_iff, or_assoc]

/-! ## Matches -/

variable {content : String} {pre action rest post : List Char}

theorem IsUsesKey.newline {l : List Char} {dash : Bool} (h : IsUsesKey l dash) : '\n' ∉ l := by
  obtain ⟨s, d, t, rfl, hs, hd, ht⟩ := h
  have hblank : ∀ {u : List Char}, (∀ c ∈ u, isBlank c = true) → '\n' ∉ u := fun h hmem =>
    absurd (h _ hmem) (by decide)
  have hdash : '\n' ∉ d := by
    cases dash with
    | false =>
      rw [if_neg Bool.false_ne_true] at hd
      simp [hd]
    | true =>
      obtain ⟨u, rfl, hu⟩ := (if_pos rfl).mp hd
      simpa using hblank hu
  simp [hblank hs, hblank ht, hdash]

/-- What follows a colon follows the first one. -/
theorem subset_of_colon {x y x' y' : List Char} (hx : ':' ∉ x) (h : x ++ ':' :: y = x' ++ ':' :: y') :
    y' ⊆ y := by
  rcases List.append_eq_append_iff.mp h with ⟨a, rfl, ha⟩ | ⟨a, rfl, ha⟩
  · cases a with
    | nil =>
      rw [(List.cons.inj ha).2]
      exact List.Subset.refl _
    | cons c a =>
      rw [(List.cons.inj ha).2]
      exact fun d hd => List.mem_append_right _ (List.mem_cons_of_mem _ hd)
  · cases a with
    | nil =>
      rw [(List.cons.inj ha).2]
      exact List.Subset.refl _
    | cons c a =>
      rw [← (List.cons.inj ha).1] at hx
      simp at hx

/-- The part of a match before its value has no line of an entry. -/
theorem not_prefix_of_lead {m : Regex.Match} (hmatch : UsesMatch env content m) {dash : Bool}
    {q l : List Char} (h : UsesEntry content.toList pre action rest post dash) (hl : IsUsesKey l dash) :
    ¬ q ++ (l ++ rest) <+: usesLead m := by
  rintro ⟨b, hb⟩
  obtain ⟨x, y, hlead, hx, hy⟩ := hmatch.colon
  obtain ⟨s, d, t, rfl, -⟩ := hl
  obtain ⟨k, e, hrest, -⟩ := h.value
  obtain ⟨c, cs, rfl, hc⟩ := h.first
  have hsplit : x ++ ':' :: y =
      (q ++ (s ++ (d ++ ['u', 's', 'e', 's']))) ++ ':' :: (t ++ (rest ++ b)) := by
    rw [← hlead, ← hb]
    simp
  have hmem : c ∈ y := subset_of_colon hx hsplit (by simp [hrest])
  have hnot := not_alphanum_of_isSpace (hy c hmem)
  rw [hc] at hnot
  cases hnot

/-- **A match over the start of an entry** ends with its line. -/
theorem stop_of_covering (hu : env.unicode.Lawful) {dash : Bool} {q l : List Char}
    (h : UsesEntry content.toList (q ++ l) action rest post dash) (hl : IsUsesKey l dash)
    {m : Regex.Match} (hm : m ∈ (usesLine env).findIter content.toList)
    (hle : m.startIndex ≤ q.length) (hlt : q.length < m.startIndex + m.length) :
    m.stop.rest = post := by
  have hmatch := usesMatch hu hm
  have hline : '\n' ∉ l ++ rest := by
    rw [List.mem_append, not_or]
    exact ⟨hl.newline, h.oneLine⟩
  have hrest : m.start.rest = usesLead m ++ (m.group 1 ++ m.stop.rest) :=
    List.append_cancel_left ((mem_findIter hm).place.symm.trans hmatch.split)
  have hlength : m.startIndex + m.length =
      (m.start.before.reverse ++ (usesLead m ++ m.group 1)).length := by
    unfold Match.startIndex Match.length
    rw [hrest]
    simp only [List.length_append, List.length_reverse]
    omega
  have hsplit : (m.start.before.reverse ++ (usesLead m ++ m.group 1)) ++ m.stop.rest =
      (q ++ (l ++ rest)) ++ post := by
    have hsplit := hmatch.split.symm.trans h.split
    simpa using hsplit
  rw [hlength] at hlt
  rcases List.append_eq_append_iff.mp hsplit with ⟨a, hq, hstop⟩ | ⟨a, hq, hpost⟩
  · cases a with
    | nil => exact hstop
    | cons c a =>
      -- the match does not end inside the line
      exfalso
      obtain rfl : c = '\n' := hmatch.lineEnd c (by rw [hstop]; rfl)
      rcases List.append_eq_append_iff.mp hq with ⟨b, -, hb⟩ | ⟨b, hb, -⟩
      · exact hline (by rw [hb]; simp)
      · rw [hb, List.length_append] at hlt
        omega
  · cases a with
    | nil => exact hpost.symm
    | cons c a =>
      -- nor after it: the line would stand before the value of the match
      exfalso
      obtain rfl : c = '\n' := h.stop c (by rw [hpost]; rfl)
      obtain ⟨b, rfl, hb⟩ : ∃ b, q = m.start.before.reverse ++ b ∧
          usesLead m ++ m.group 1 = (b ++ (l ++ rest)) ++ '\n' :: a := by
        rw [List.append_assoc] at hq
        rcases List.append_eq_append_iff.mp hq with ⟨b, hb, hlead⟩ | ⟨b, hb, hlead⟩
        · exact ⟨b, hb, by rw [hlead]; simp⟩
        · obtain rfl : b = [] := by
            have := congrArg List.length hb
            simp [Match.startIndex] at this hle
            exact List.length_eq_zero_iff.mp (by omega)
          exact ⟨[], by simpa using hb.symm, by simpa using hlead.symm⟩
      rcases List.append_eq_append_iff.mp hb with ⟨d, -, hgroup⟩ | ⟨d, hd, -⟩
      · exact hmatch.group (by rw [hgroup]; simp)
      · exact not_prefix_of_lead hmatch h hl ⟨d, hd.symm⟩

/-- The expression does not match the empty text. -/
theorem usesLine_not_nil (b a : List Char) : ¬ (usesLine env).Matches b [] a := by
  intro h
  obtain ⟨u₀, v₀, hv₀, -, h⟩ := matches_concat_cons.mp h
  obtain ⟨u₁, v₁, rfl, -, h⟩ := matches_concat_cons.mp h
  obtain ⟨u₂, v₂, rfl, hu₂, -⟩ := matches_concat_cons.mp h
  rw [matches_lit.mp hu₂] at hv₀
  simp at hv₀

/-- **Each entry with a dash is reached.** -/
theorem captured_of_dash (hu : env.unicode.Lawful)
    (h : UsesEntry content.toList pre action rest post true) :
    ∃ m ∈ (usesLine env).findIter content.toList, m.stop.rest = post := by
  obtain ⟨q, l, rfl, hq, hl⟩ := h.line
  have hspace : ∀ {u b a : List Char}, (∀ c ∈ u, isBlank c = true) → (star (space env)).Matches b u a := by
    intro u b a hu'
    refine matches_star_char.mpr fun c hc => ?_
    have hblank := hu' c hc
    unfold isBlank at hblank
    simp only [Bool.or_eq_true, beq_iff_eq] at hblank
    rw [hu.isSpace]
    rcases hblank with rfl | rfl <;> decide
  have hmatches : (usesLine env).Matches q.reverse (l ++ rest) post := by
    obtain ⟨s, d, t, rfl, hs, hd, ht⟩ := hl
    obtain ⟨u, rfl, hu'⟩ := (if_pos rfl).mp hd
    have hne : rest ≠ [] := by
      obtain ⟨k, e, hrest, -⟩ := h.value
      obtain ⟨c, cs, rfl, -⟩ := h.first
      simp [hrest]
    refine matches_concat_cons.mpr ⟨[], _, rfl, ⟨rfl, ?_⟩, ?_⟩
    · rw [List.head?_reverse]
      cases hlast : q.getLast? with
      | none => rfl
      | some c =>
        rw [hq c hlast]
        rfl
    refine matches_concat_cons.mpr ⟨s, '-' :: (u ++ ("uses:".toList ++ (t ++ rest))), by simp, hspace hs, ?_⟩
    refine matches_concat_cons.mpr ⟨['-'], _, rfl, matches_lit.mpr rfl, ?_⟩
    refine matches_concat_cons.mpr ⟨u, _, rfl, hspace hu', ?_⟩
    refine matches_concat_cons.mpr ⟨_, _, rfl, matches_lit.mpr rfl, ?_⟩
    refine matches_concat_cons.mpr ⟨t, _, rfl, hspace ht, ?_⟩
    refine matches_concat_cons.mpr ⟨rest, [], by simp, matches_plus_char.mpr ⟨hne, fun c hc => ?_⟩, rfl, ?_⟩
    · simp only [bne_iff_ne, ne_eq]
      rintro rfl
      exact h.oneLine hc
    · cases hhead : post.head? with
      | none => rfl
      | some c =>
        rw [h.stop c hhead]
        rfl
  have htext : content.toList = q.reverse.reverse ++ ((l ++ rest) ++ post) := by
    rw [h.split]
    simp
  obtain ⟨m, hm, hle, hlt⟩ := exists_covering usesLine_not_nil htext hmatches
  rw [List.length_reverse] at hle hlt
  exact ⟨m, hm, stop_of_covering hu h hl hm hle hlt⟩

/-- **Each remote action that is not pinned is reported** exactly if each such entry has a dash or is
reached otherwise, and what is taken for its value mentions a branch that moves or ends with a version,
and has no `@` or a reference. -/
theorem unpinned_reported_iff (env : Env) (hu : env.unicode.Lawful) (rule : PolicyRule)
    (hkey : rule.ruleKey = "require_pinned_github_actions") (henabled : rule.isEnabled = true)
    (configType : String) (hmatches : matchesResource rule configType = true) (content : String)
    (policyPackId : UUID) :
    (∀ pre action rest post dash, UsesEntry content.toList pre action rest post dash →
      ¬ IsPinnedAction action → IsEntryReported env rule configType content policyPackId post) ↔
    ∀ pre action rest post dash, UsesEntry content.toList pre action rest post dash →
      ¬ IsPinnedAction action →
        (dash = true ∨ ∃ m ∈ (usesLine env).findIter content.toList, m.stop.rest = post) ∧
        ∀ m ∈ (usesLine env).findIter content.toList, m.stop.rest = post →
          let v := env.strip (String.ofList (m.group 1))
          IsMutable env v ∧ ('@' ∉ v.toList ∨ NamesReference ("uses: ".toList ++ v.toList)) := by
  have hrule : evaluateRule env rule configType content policyPackId =
      ((usesLine env).findIter content.toList).flatMap (usesFindings env rule content policyPackId) := by
    unfold evaluateRule ruleFindings
    simp only [henabled, hmatches, hkey, Bool.not_true, Bool.or_self, Bool.false_eq_true, if_false]
  refine forall_congr' fun pre => forall_congr' fun action => forall_congr' fun rest =>
    forall_congr' fun post => forall_congr' fun dash => forall_congr' fun h =>
      forall_congr' fun _ => ?_
  constructor
  · rintro ⟨m, hm, hstop, f, hf, -⟩
    refine ⟨.inr ⟨m, hm, hstop⟩, fun m' hm' hstop' => ?_⟩
    obtain rfl := findIter_eq_of_stop usesLine_not_nil hm hm' (hstop.trans hstop'.symm)
    exact ((isReported_iff_value hu).mp (of_mem_usesFindings hf).1).symm
  · rintro ⟨hreached, hvalue⟩
    obtain ⟨m, hm, hstop⟩ : ∃ m ∈ (usesLine env).findIter content.toList, m.stop.rest = post := by
      rcases hreached with rfl | hreached
      · exact captured_of_dash hu h
      · exact hreached
    obtain ⟨f, hf⟩ := exists_mem_usesFindings rule content policyPackId
      ((isReported_iff_value hu).mpr (hvalue m hm hstop).symm)
    exact ⟨m, hm, hstop, f, hf, by rw [hrule]; exact List.mem_flatMap.mpr ⟨m, hm, hf⟩⟩

open ReviewChecks (strippingEnv pinnedActionsRule)

/-- One step that uses an action at a branch. -/
theorem usesEntry_of_branch {b : List Char} (hplain : ∀ c ∈ 'a' :: '@' :: b, isPlain c = true)
    (hline : '\n' ∉ 'a' :: '@' :: b) :
    UsesEntry ("- uses: ".toList ++ ('a' :: '@' :: b ++ [])) "- uses: ".toList
      ('a' :: '@' :: b) ('a' :: '@' :: b) [] true := by
  have hkey : IsUsesKey "- uses: ".toList true :=
    ⟨[], ['-', ' '], [' '], rfl, nofun, ⟨[' '], rfl, by decide⟩, by decide⟩
  exact ⟨rfl, ⟨[], _, rfl, nofun, hkey⟩, ⟨[], [], by simp, .inl rfl, nofun⟩,
    ⟨'a', '@' :: b, rfl, by decide⟩, hplain, hline, nofun⟩

/-- An action that is shorter than a commit is not pinned. -/
theorem not_isPinnedAction_of_short {action : List Char} (h : action.length < 40) :
    ¬ IsPinnedAction action := by
  rintro ⟨name, ref, hsplit, -, href⟩
  have hlength := congrArg List.length hsplit
  rcases href with ⟨hforty, -⟩ | ⟨hex, rfl, hhex, -⟩
  · simp [hforty] at hlength
    omega
  · simp [hhex] at hlength
    omega

/-- A branch that moves is reported. -/
theorem reported_branch :
    IsEntryReported strippingEnv pinnedActionsRule "github-actions" "- uses: a@main" 4 [] := by
  refine (unpinned_reported_iff strippingEnv Unicode.lawful_ascii pinnedActionsRule rfl rfl
    "github-actions" rfl "- uses: a@main" 4).mpr (fun pre action rest post dash h _ => ?_) _ _ _ [] true
    (usesEntry_of_branch (b := "main".toList) (by decide) (by decide))
    (not_isPinnedAction_of_short (by decide))
  have hpost : post = [] := by
    cases post with
    | nil => rfl
    | cons c post =>
      have hmem : c ∈ "- uses: a@main".toList := by
        rw [h.split]
        simp
      rw [h.stop c rfl] at hmem
      exact absurd hmem (by decide)
  have hreported : ∀ m ∈ (usesLine strippingEnv).findIter "- uses: a@main".toList,
      isReported strippingEnv (strippingEnv.strip (String.ofList (m.group 1))) = true := by
    decide
  rw [hpost]
  exact ⟨.inr (by decide), fun m hm _ =>
    ((isReported_iff_value Unicode.lawful_ascii).mp (hreported m hm)).symm⟩

/-- Another branch is not. -/
theorem branch_not_reported : ¬ ∀ (env : Env), env.unicode.Lawful → ∀ (rule : PolicyRule),
    rule.ruleKey = "require_pinned_github_actions" → rule.isEnabled = true →
    ∀ (configType : String), matchesResource rule configType = true →
    ∀ (content : String) (policyPackId : UUID) (pre action rest post : List Char) (dash : Bool),
      UsesEntry content.toList pre action rest post dash → ¬ IsPinnedAction action →
        IsEntryReported env rule configType content policyPackId post := by
  intro h
  obtain ⟨m, hm, -, f, hf, -⟩ := h strippingEnv Unicode.lawful_ascii pinnedActionsRule rfl rfl
    "github-actions" rfl "- uses: a@dev" 4 _ _ _ _ _
    (usesEntry_of_branch (b := "dev".toList) (by decide) (by decide))
    (not_isPinnedAction_of_short (by decide))
  have hnone : ∀ m ∈ (usesLine strippingEnv).findIter "- uses: a@dev".toList,
      usesFindings strippingEnv pinnedActionsRule "- uses: a@dev" 4 m = [] := by
    decide
  rw [hnone m hm] at hf
  cases hf

end PolicyEngine

end DevOps
