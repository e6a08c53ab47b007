import DevOpsAssistant.Policies.ImageReferences
import DevOpsAssistant.Text.Greedy
import DevOpsAssistant.Text.Scanning

/-!
# The allowed registries

The rule compares an entry with the start of a reference, and what it takes for the reference ends at the
first colon.

* `Admits`: an entry allows a reference, up to a boundary.
* `IsReported`, `IsChecked`: there is a finding about a reference, or only a match.
* `group_of_reference`: what a match takes of a reference.
* **`reported_iff_not_admitted`**: when the findings are about the references that no entry allows.
-/

namespace DevOps

namespace PolicyEngine

open Regex

variable (env : Env)

/-! ## The list and the findings -/

/-- **An entry allows a reference** if it is the start of it, up to `/`, `:`, `@` or the end. -/
def Admits (registry : String) (ref : List Char) : Prop :=
  ∃ rest, ref = registry.toList ++ rest ∧ ∀ c ∈ rest.head?, c ∈ ['/', ':', '@']

/-- Where the second group of a match of `imageReference` begins. -/
def referenceStart (m : Regex.Match) : ℕ := m.stop.before.length - (m.group 2).length

/-- What `allowed_container_registries` says of a match. -/
def registryFinding (rule : PolicyRule) (content : String) (policyPackId : UUID) (m : Regex.Match) :
    PolicyFinding :=
  finding rule policyPackId "Disallowed container registry"
    ("Image reference '" ++ String.ofList (m.group 2) ++ "' is not in the allow list.")
    none (some (lineOf content m.startIndex))

/-- There is a finding about the reference after `pre`. -/
def IsReported (rule : PolicyRule) (configType content : String) (policyPackId : UUID)
    (pre : List Char) : Prop :=
  ∃ m ∈ (imageReference env).findIter content.toList, referenceStart m = pre.length ∧
    registryFinding rule content policyPackId m ∈ evaluateRule env rule configType content policyPackId

/-- The rule applies, and its expression reaches the reference after `pre`. -/
def IsChecked (rule : PolicyRule) (configType content : String) (pre : List Char) : Prop :=
  (rule.isEnabled = true ∧ matchesResource rule configType = true) ∧
    ∃ m ∈ (imageReference env).findIter content.toList, referenceStart m = pre.length

/-- The segments of a reference before its first colon. -/
def imagePath (ref : List Char) : List Char := segmentsOf (fun c => c != '/' && c != ':') '/' ref

/-! ## Matches -/

/-- A character of a segment. -/
def isSegment (c : Char) : Bool :=
  !env.unicode.isSpace c && c != '\'' && c != '"' && c != '/' && c != ':'

/-- What stands before the image. -/
def imageKey : Regex :=
  alt (seq (ilit "image:".toList) (star (space env))) (seq (ilit "FROM".toList) (plus (space env)))

/-- A quote, or none. -/
def openingQuote : Regex := group 1 (opt (char fun c => c == '\'' || c == '"'))

theorem imageReference_eq : imageReference env =
    seq (imageKey env) (seq openingQuote (group 2 (segments (isSegment env) '/'))) := rfl

variable {env} {content : String}

/-- **What a match takes** for the image: the segments from where the second group begins. -/
theorem exists_group_eq {m : Regex.Match} (hm : m ∈ (imageReference env).findIter content.toList) :
    ∃ b rest : List Char, content.toList = b.reverse ++ rest ∧ b.length = referenceStart m ∧
      m.group 2 = segmentsOf (isSegment env) '/' rest := by
  have hat := mem_findIter hm
  have hhead := hat.head?_eq
  rw [imageReference_eq] at hhead
  obtain ⟨x, hx, hhead⟩ := exists_head?_of_seq hhead
  obtain ⟨⟨b, rest, g⟩, hz, hhead⟩ := exists_head?_of_seq hhead
  obtain ⟨s, hs, -⟩ := (faithful _).sound _ _ hx
  obtain ⟨t, ht, -⟩ := (faithful _).sound _ _ hz
  have hpast := hs.trans ht
  rw [ends, List.head?_map] at hhead
  obtain ⟨y, hy, hstop⟩ := Option.map_eq_some_iff.mp hhead
  obtain ⟨after, hrest, rfl⟩ := head?_segments (by simp [isSegment]) hy
  have hgroup : m.group 2 = segmentsOf (isSegment env) '/' rest := by
    unfold Match.group
    rw [← hstop]
    simp [Cursor.upTo]
  refine ⟨b, rest, ?_, ?_, hgroup⟩
  · have hbefore : b = (s ++ t).reverse ++ m.start.before := hpast.before
    rw [hat.place, hpast.rest, hbefore]
    simp
  · unfold referenceStart
    rw [hgroup, ← hstop]
    simp

variable {pre ref post : List Char}

/-- **What a match takes of a reference**: the segments before its first colon. -/
theorem group_of_reference (hu : env.unicode.Lawful) (h : ImageReference content.toList pre ref post)
    {m : Regex.Match} (hm : m ∈ (imageReference env).findIter content.toList)
    (hs : referenceStart m = pre.length) : m.group 2 = imagePath ref := by
  obtain ⟨b, rest, hsplit, hb, hgroup⟩ := exists_group_eq hm
  obtain ⟨-, rfl⟩ := List.append_inj (h.split.symm.trans hsplit) (by
    rw [List.length_reverse, hb, hs])
  rw [hgroup]
  refine segmentsOf_append (fun c hc => ?_) (fun c hc => ?_) ?_
  · have hstop := h.stop c hc
    unfold isPlain at hstop
    unfold isSegment
    rw [hu.isSpace]
    refine ⟨by rw [hstop]; rfl, ?_⟩
    rintro rfl
    exact absurd hstop (by decide)
  · have hplain := h.plain c hc
    unfold isPlain at hplain
    unfold isSegment
    rw [hu.isSpace, hplain, Bool.true_and]
  · obtain ⟨c, cs, rfl, -⟩ := h.first
    exact List.cons_ne_nil c cs

/-! ## Findings -/

variable {rule : PolicyRule} {configType : String} {policyPackId : UUID}

/-- A match is reported if no entry is a prefix of what it has taken. -/
theorem registryFinding_mem_iff {m : Regex.Match}
    (hm : m ∈ (imageReference env).findIter content.toList) :
    registryFinding rule content policyPackId m ∈ registryFindings env rule content policyPackId ↔
      ∀ registry ∈ rule.configurationJson.registries, ¬ registry.toList <+: m.group 2 := by
  have hfinding : ∀ m' : Regex.Match, registryFinding rule content policyPackId m ∈ findingIf
      (!rule.configurationJson.registries.any fun registry => registry.toList.isPrefixOf (m'.group 2))
      (registryFinding rule content policyPackId m') ↔
      registryFinding rule content policyPackId m = registryFinding rule content policyPackId m' ∧
        ∀ registry ∈ rule.configurationJson.registries, ¬ registry.toList <+: m'.group 2 := by
    intro m'
    unfold findingIf
    split
    · next h => simpa using fun _ => by simpa using h
    · next h => simpa using fun _ => by simpa using h
  unfold registryFindings
  rw [List.mem_flatMap]
  constructor
  · rintro ⟨m', -, hmem⟩
    obtain ⟨heq, hnone⟩ := (hfinding m').mp hmem
    have hgroup : String.ofList (m.group 2) = String.ofList (m'.group 2) :=
      Text.eq_of_between (congrArg PolicyFinding.description heq)
    rwa [String.ofList_inj.mp hgroup]
  · exact fun h => ⟨m, hm, (hfinding m).mpr ⟨rfl, h⟩⟩

/-- **A reference is reported** if the rule reaches it and no entry is a prefix of its path. -/
theorem isReported_iff (hu : env.unicode.Lawful) (hkey : rule.ruleKey = "allowed_container_registries")
    (h : ImageReference content.toList pre ref post) :
    IsReported env rule configType content policyPackId pre ↔
      IsChecked env rule configType content pre ∧
        ∀ registry ∈ rule.configurationJson.registries, ¬ registry.toList <+: imagePath ref := by
  have hfindings : ruleFindings env rule configType content policyPackId =
      registryFindings env rule content policyPackId := by
    unfold ruleFindings
    simp only [hkey]
  unfold IsReported IsChecked evaluateRule
  constructor
  · rintro ⟨m, hm, hs, hmem⟩
    split at hmem
    · cases hmem
    · next happlies =>
      rw [hfindings, registryFinding_mem_iff hm, group_of_reference hu h hm hs] at hmem
      exact ⟨⟨by simpa [not_or] using happlies, m, hm, hs⟩, hmem⟩
  · rintro ⟨⟨⟨henabled, hmatches⟩, m, hm, hs⟩, hnone⟩
    refine ⟨m, hm, hs, ?_⟩
    rw [henabled, hmatches, hfindings]
    rw [← group_of_reference hu h hm hs] at hnone
    exact (registryFinding_mem_iff hm).mpr hnone

/-- **The findings are about the references that no entry allows** exactly if the rule reaches each of
these and no entry is a prefix of its path, and if some entry is a prefix of the path of each other
reference that the rule reaches. -/
theorem reported_iff_not_admitted (env : Env) (hu : env.unicode.Lawful) (rule : PolicyRule)
    (hkey : rule.ruleKey = "allowed_container_registries") (configType content : String)
    (policyPackId : UUID) :
    (∀ pre ref post, ImageReference content.toList pre ref post →
      (IsReported env rule configType content policyPackId pre ↔
        ¬ ∃ registry ∈ rule.configurationJson.registries, Admits registry ref)) ↔
    ∀ pre ref post, ImageReference content.toList pre ref post →
      ((¬ ∃ registry ∈ rule.configurationJson.registries, Admits registry ref) →
        IsChecked env rule configType content pre ∧
          ∀ registry ∈ rule.configurationJson.registries, ¬ registry.toList <+: imagePath ref) ∧
      ((∃ registry ∈ rule.configurationJson.registries, Admits registry ref) →
        IsChecked env rule configType content pre →
          ∃ registry ∈ rule.configurationJson.registries, registry.toList <+: imagePath ref) := by
  refine forall_congr' fun pre => forall_congr' fun ref => forall_congr' fun post =>
    forall_congr' fun h => ?_
  rw [isReported_iff hu hkey h]
  constructor
  · intro hiff
    refine ⟨hiff.mpr, fun hadmits hchecked => ?_⟩
    by_contra hnone
    exact hiff.mp ⟨hchecked, fun registry hmem hprefix => hnone ⟨registry, hmem, hprefix⟩⟩ hadmits
  · rintro ⟨hrejected, hadmitted⟩
    refine ⟨fun ⟨hchecked, hnone⟩ hadmits => ?_, hrejected⟩
    obtain ⟨registry, hmem, hprefix⟩ := hadmitted hadmits hchecked
    exact hnone registry hmem hprefix

/-- A rule that allows one registry. -/
def oneRegistryRule : PolicyRule :=
  { id := 5, policyPackId := 4, ruleKey := "allowed_container_registries", name := "Registries"
    description := "", resourceType := "dockerfile", severity := .high
    configurationJson := ⟨["a.b"], []⟩, remediation := none, isEnabled := true, createdAt := 0
    updatedAt := 0 }

/-- The reference of a file of one short line. -/
theorem reference_of_from (h : ImageReference "FROM c".toList pre ref post) :
    pre = "FROM ".toList ∧ ref = ['c'] := by
  obtain ⟨c, cs, rfl, -⟩ := h.first
  have hlength := congrArg List.length h.split
  have hfive : 5 ≤ pre.length := by
    obtain ⟨q, l, k, rfl, -, hl | hl, -⟩ := h.line
    · obtain ⟨s, d, t, rfl, -⟩ := hl
      simp at hlength ⊢
      omega
    · obtain ⟨s, f, t, options, rfl, -, hf, ⟨ht, -⟩, -⟩ := hl
      have hf' := congrArg List.length hf
      have ht' := List.length_pos_of_ne_nil ht
      simp at hf' ⊢
      omega
  have hpre : pre.length = 5 := by
    simp at hlength
    omega
  have hsplit : "FROM ".toList ++ ['c'] = pre ++ (c :: cs ++ post) := h.split
  obtain ⟨rfl, hrest⟩ := List.append_inj hsplit (by rw [hpre]; rfl)
  obtain ⟨rfl, hnil⟩ := List.cons.inj hrest
  obtain ⟨rfl, -⟩ := List.append_eq_nil_iff.mp hnil.symm
  exact ⟨rfl, rfl⟩

/-- An image of another registry. -/
theorem reported_other_registry :
    IsReported plainEnv oneRegistryRule "dockerfile" "FROM c" 4 "FROM ".toList ↔
      ¬ ∃ registry ∈ oneRegistryRule.configurationJson.registries, Admits registry ['c'] := by
  refine (reported_iff_not_admitted plainEnv Unicode.lawful_ascii oneRegistryRule rfl "dockerfile"
    "FROM c" 4).mpr (fun pre ref post h => ?_) _ _ []
    (reference_of_name (by decide) (by decide) nofun)
  obtain ⟨rfl, rfl⟩ := reference_of_from h
  refine ⟨fun _ => ⟨⟨by decide, by decide⟩, by decide⟩, ?_⟩
  rintro ⟨registry, hmem, rest, hrest, -⟩
  obtain rfl : registry = "a.b" := List.mem_singleton.mp hmem
  cases hrest

/-- An image of a registry whose name begins like an allowed one. -/
theorem lookalike_not_reported : ¬ ∀ (env : Env), env.unicode.Lawful → ∀ (rule : PolicyRule),
    rule.ruleKey = "allowed_container_registries" →
    ∀ (configType content : String) (policyPackId : UUID) (pre ref post : List Char),
      ImageReference content.toList pre ref post →
        (IsReported env rule configType content policyPackId pre ↔
          ¬ ∃ registry ∈ rule.configurationJson.registries, Admits registry ref) := by
  intro h
  have href : ImageReference "FROM a.bc/x".toList "FROM ".toList "a.bc/x".toList [] := by
    refine ⟨rfl, ⟨[], "FROM ".toList, [], rfl, nofun, .inr ?_, .inl rfl⟩,
      ⟨'a', ".bc/x".toList, rfl, by decide⟩, by decide, nofun⟩
    exact ⟨[], "FROM".toList, [' '], [], rfl, nofun, by decide, by decide, .nil⟩
  have hreported := (h plainEnv Unicode.lawful_ascii oneRegistryRule rfl "dockerfile" "FROM a.bc/x" 4 _ _
    _ href).mpr (by
      rintro ⟨registry, hmem, rest, hrest, hboundary⟩
      obtain rfl : registry = "a.b" := List.mem_singleton.mp hmem
      have hsplit : "a.b".toList ++ "c/x".toList = "a.b".toList ++ rest := hrest
      obtain rfl : "c/x".toList = rest := List.append_cancel_left hsplit
      exact absurd (hboundary 'c' rfl) (by decide))
  obtain ⟨m, -, -, hmem⟩ := hreported
  have hnone : evaluateRule plainEnv oneRegistryRule "dockerfile" "FROM a.bc/x" 4 = [] := by decide
  rw [hnone] at hmem
  cases hmem

end PolicyEngine

end DevOps
