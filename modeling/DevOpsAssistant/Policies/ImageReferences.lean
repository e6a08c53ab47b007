import DevOpsAssistant.Core.Unicode
import DevOpsAssistant.Services.PolicyEngine
import DevOpsAssistant.Text.Matching

/-!
# The images of a configuration file

What the lines `FROM …` and `image: …` of a file refer to, and the rule that wants a digest.

* `ImageReference`: a reference of a file, with what stands before and after it.
* `IsExternal`: it names neither a stage of the file nor the empty image; `IsPinned`: it has a digest.
* `evaluateRule_digest`: the rule looks for one digest in the whole file.
* **`pinned_iff`**: when a file that the rule accepts has only images with a digest.
-/

namespace DevOps

namespace PolicyEngine

/-! ## References -/

/-- White space inside a line. -/
def isBlank (c : Char) : Bool := c == ' ' || c == '\t'

/-- A character of a reference: no white space and no quote. -/
def isPlain (c : Char) : Bool := !Text.isSpace c && c != '\'' && c != '"'

/-- `image:`, perhaps as an entry of a list. -/
def IsImageKey (l : List Char) : Prop :=
  ∃ s d t, l = s ++ (d ++ ("image:".toList ++ t)) ∧ (∀ c ∈ s, isBlank c = true) ∧
    (d = [] ∨ ∃ u, d = '-' :: u ∧ ∀ c ∈ u, isBlank c = true) ∧ ∀ c ∈ t, isBlank c = true

/-- Options such as `--platform=…`, each with the white space after it. -/
inductive FromOptions : List Char → Prop
  | nil : FromOptions []
  | cons {name t rest : List Char} (plain : ∀ c ∈ name, Text.isSpace c = false)
      (blank : t ≠ [] ∧ ∀ c ∈ t, isBlank c = true) (tail : FromOptions rest) :
      FromOptions ('-' :: '-' :: (name ++ (t ++ rest)))

/-- `FROM`, in any case, with its options. -/
def IsFrom (l : List Char) : Prop :=
  ∃ s f t options, l = s ++ (f ++ (t ++ options)) ∧ (∀ c ∈ s, isBlank c = true) ∧
    f.map Char.toLower = "from".toList ∧ (t ≠ [] ∧ ∀ c ∈ t, isBlank c = true) ∧ FromOptions options

/-- **An image reference** `ref` of a file, after `pre` and before `post`: it follows `FROM` or `image:` and
perhaps a quote, begins with a letter or a digit, and goes on up to white space or a quote. -/
structure ImageReference (content pre ref post : List Char) : Prop where
  split : content = pre ++ (ref ++ post)
  line : ∃ q l k, pre = q ++ (l ++ k) ∧ (∀ c ∈ q.getLast?, c = '\n') ∧ (IsImageKey l ∨ IsFrom l) ∧
    (k = [] ∨ k = ['\''] ∨ k = ['"'])
  first : ∃ c cs, ref = c :: cs ∧ c.isAlphanum = true
  plain : ∀ c ∈ ref, isPlain c = true
  stop : ∀ c ∈ post.head?, isPlain c = false

/-- The line is `FROM … AS name`. -/
def NamesStage (line name : List Char) : Prop :=
  ∃ l ref t a t' n e, line = l ++ (ref ++ (t ++ (a ++ (t' ++ (n ++ e))))) ∧ IsFrom l ∧
    (∀ c ∈ ref, isPlain c = true) ∧ (t ≠ [] ∧ ∀ c ∈ t, isBlank c = true) ∧
    a.map Char.toLower = "as".toList ∧ (t' ≠ [] ∧ ∀ c ∈ t', isBlank c = true) ∧
    n.map Char.toLower = name.map Char.toLower ∧ ∀ c ∈ e, Text.isSpace c = true

/-- The reference is neither the empty image nor an earlier stage of the file. -/
def IsExternal (pre ref : List Char) : Prop :=
  ref ≠ "scratch".toList ∧ ∀ line ∈ pre.splitOn '\n', ¬ NamesStage line ref

/-! ## Digests -/

/-- A hexadecimal digit. -/
def isHexDigit (c : Char) : Bool := ('a' ≤ c && c ≤ 'f') || ('0' ≤ c && c ≤ '9')

/-- `@sha256:` and 64 hexadecimal digits. -/
def IsDigest (t : List Char) : Prop :=
  ∃ hex, t = "@sha256:".toList ++ hex ∧ hex.length = 64 ∧ ∀ c ∈ hex, isHexDigit c = true

/-- The reference ends with a digest. -/
def IsPinned (ref : List Char) : Prop := ∃ name t, ref = name ++ t ∧ IsDigest t

/-- Somewhere in the file is a digest, in an image or not. -/
def HasDigest (content : List Char) : Prop := ∃ t, IsDigest t ∧ t <:+: content

theorem matches_digest {b t a : List Char} : IMAGE_DIGEST_RE.Matches b t a ↔ IsDigest t := by
  constructor
  · rintro ⟨u, v, rfl, hu, hv⟩
    obtain rfl := Regex.matches_lit.mp hu
    exact ⟨v, rfl, Regex.matches_times_char.mp hv⟩
  · rintro ⟨hex, rfl, hhex⟩
    exact ⟨_, hex, rfl, Regex.matches_lit.mpr rfl, Regex.matches_times_char.mpr hhex⟩

theorem found_digest {content : String} :
    found IMAGE_DIGEST_RE content = true ↔ HasDigest content.toList := by
  unfold found HasDigest
  rw [Regex.search_isSome_iff]
  constructor
  · rintro ⟨b, t, a, hcontent, ht⟩
    exact ⟨t, matches_digest.mp ht, b.reverse, a, hcontent.symm⟩
  · rintro ⟨t, ht, x, y, hcontent⟩
    exact ⟨x.reverse, t, y, by rw [List.reverse_reverse, hcontent], matches_digest.mpr ht⟩

section Digest

variable (env : Env) {rule : PolicyRule} {configType : String}

/-- **The rule accepts a file** if it does not apply, or if a digest is anywhere in the file. -/
theorem evaluateRule_digest (hkey : rule.ruleKey = "require_image_digest")
    (htype : configType = "dockerfile" ∨ configType = "kubernetes") (content : String)
    (policyPackId : UUID) : evaluateRule env rule configType content policyPackId = [] ↔
      ¬ (rule.isEnabled = true ∧ matchesResource rule configType = true) ∨
        HasDigest content.toList := by
  have hfindings : ruleFindings env rule configType content policyPackId = [] ↔
      HasDigest content.toList := by
    unfold ruleFindings
    simp only [hkey]
    rw [← found_digest]
    rcases htype with rfl | rfl <;> cases found IMAGE_DIGEST_RE content <;> simp [findingIf]
  unfold evaluateRule
  by_cases happlies : rule.isEnabled = true ∧ matchesResource rule configType = true
  · rw [if_neg (by simp [happlies]), hfindings]
    simp [happlies]
  · rw [if_pos]
    · simp [happlies]
    · rw [not_and_or] at happlies
      simpa using happlies

/-- **A file that the rule accepts has only external images with a digest** exactly if, whenever one of
them has none, the rule applies and no digest is anywhere in the file. -/
theorem pinned_iff (hkey : rule.ruleKey = "require_image_digest")
    (htype : configType = "dockerfile" ∨ configType = "kubernetes") (content : String)
    (policyPackId : UUID) :
    (evaluateRule env rule configType content policyPackId = [] → ∀ pre ref post,
      ImageReference content.toList pre ref post → IsExternal pre ref → IsPinned ref) ↔
    ∀ pre ref post, ImageReference content.toList pre ref post → IsExternal pre ref → ¬ IsPinned ref →
      (rule.isEnabled = true ∧ matchesResource rule configType = true) ∧
        ¬ HasDigest content.toList := by
  rw [evaluateRule_digest env hkey htype]
  constructor
  · intro h pre ref post href hexternal hpinned
    by_contra hnot
    rw [not_and_or, not_not] at hnot
    exact hpinned (h hnot pre ref post href hexternal)
  · intro h haccepted pre ref post href hexternal
    by_contra hpinned
    obtain ⟨happlies, hnone⟩ := h pre ref post href hexternal hpinned
    exact haccepted.elim (fun hnot => hnot happlies) hnone

end Digest

theorem IsDigest.length {t : List Char} (h : IsDigest t) : t.length = 72 := by
  obtain ⟨hex, rfl, hlength, -⟩ := h
  rw [List.length_append, hlength]
  rfl

/-- A rule that wants digests. -/
def digestRule : PolicyRule :=
  { id := 5, policyPackId := 4, ruleKey := "require_image_digest", name := "Digests"
    description := "", resourceType := "dockerfile", severity := .high, configurationJson := ⟨[], []⟩
    remediation := none, isEnabled := true, createdAt := 0, updatedAt := 0 }

/-- `FROM` and the name of one image. -/
theorem reference_of_name {c : Char} {p : List Char} (hc : c.isAlphanum = true)
    (hplain : isPlain c = true) (hstop : ∀ d ∈ p.head?, isPlain d = false) :
    ImageReference ("FROM ".toList ++ c :: p) "FROM ".toList [c] p := by
  refine ⟨rfl, ⟨[], "FROM ".toList, [], rfl, nofun, .inr ?_, .inl rfl⟩, ⟨c, [], rfl, hc⟩, ?_, hstop⟩
  · exact ⟨[], "FROM".toList, [' '], [], rfl, nofun, by decide, by decide, .nil⟩
  · intro d hd
    rw [List.mem_singleton.mp hd]
    exact hplain

/-- No stage comes before the first image. -/
theorem isExternal_first {c : Char} (hc : c.toLower ∉ "from ".toList) :
    IsExternal "FROM ".toList [c] := by
  refine ⟨fun h => ?_, ?_⟩
  · have hlength := congrArg List.length h
    cases hlength
  · rintro line hline ⟨l, ref, t, a, t', n, e, rfl, -, -, -, -, -, hn, -⟩
    have hmem : c.toLower ∈ (l ++ (ref ++ (t ++ (a ++ (t' ++ (n ++ e)))))).map Char.toLower := by
      simp only [List.map_append, List.mem_append, hn]
      simp
    generalize l ++ (ref ++ (t ++ (a ++ (t' ++ (n ++ e))))) = line at hline hmem
    rw [List.splitOn_eq_singleton (by decide), List.mem_singleton] at hline
    rw [hline] at hmem
    exact hc hmem

/-- A reference that is shorter than a digest is not pinned. -/
theorem not_isPinned_of_short {ref : List Char} (h : ref.length < 72) : ¬ IsPinned ref := by
  rintro ⟨name, t, hsplit, ht⟩
  have hlength := congrArg List.length hsplit
  rw [List.length_append, ht.length] at hlength
  omega

/-- A file without digests is not accepted. -/
theorem refused_without_digest : evaluateRule plainEnv digestRule "dockerfile" "FROM a" 4 ≠ [] := by
  intro haccepted
  have hnone : ¬ HasDigest "FROM a".toList := by
    rw [← found_digest]
    decide
  have hpinned := (pinned_iff plainEnv rfl (.inl rfl) "FROM a" 4).mpr
    (fun _ _ _ _ _ _ => ⟨by decide, hnone⟩) haccepted _ _ _
    (reference_of_name (p := []) (by decide) (by decide) nofun) (isExternal_first (c := 'a') (by decide))
  exact not_isPinned_of_short (by decide) hpinned

/-- The digest of one image hides that another has none. -/
theorem unpinned_accepted : ¬ ∀ (env : Env) (rule : PolicyRule) (configType : String),
    rule.ruleKey = "require_image_digest" → configType = "dockerfile" ∨ configType = "kubernetes" →
    ∀ (content : String) (policyPackId : UUID),
      evaluateRule env rule configType content policyPackId = [] → ∀ pre ref post,
        ImageReference content.toList pre ref post → IsExternal pre ref → IsPinned ref := by
  intro h
  let digest : List Char := "@sha256:".toList ++ List.replicate 64 '0'
  have hdigest : IsDigest digest := ⟨_, rfl, List.length_replicate, fun c hc => by
    rw [List.eq_of_mem_replicate hc]
    decide⟩
  let content : String := String.ofList ("FROM b".toList ++ ("\nFROM a".toList ++ digest))
  have hcontent : content.toList = "FROM b".toList ++ ("\nFROM a".toList ++ digest) :=
    String.toList_ofList
  have haccepted : evaluateRule plainEnv digestRule "dockerfile" content 4 = [] :=
    (evaluateRule_digest plainEnv rfl (.inl rfl) content 4).mpr (.inr ⟨digest, hdigest,
      "FROM b\nFROM a".toList, [], by rw [hcontent]; simp⟩)
  have href : ImageReference content.toList "FROM ".toList ['b'] ("\nFROM a".toList ++ digest) := by
    rw [hcontent]
    refine reference_of_name (by decide) (by decide) fun c hc => ?_
    obtain rfl : '\n' = c := Option.some.inj hc
    decide
  exact not_isPinned_of_short (by decide) (h plainEnv digestRule "dockerfile" rfl (.inl rfl) content 4
    haccepted _ _ _ href (isExternal_first (by decide)))

end PolicyEngine

end DevOps
