import DevOpsAssistant.Specs.Generators
import Mathlib.Data.List.Perm.Basic

/-!
# What a generator and a review say of the same file

A generator checks every pipeline as a file for GitHub Actions; a review checks it as a file for its
platform. A rule applies to the files of its resource type, and the general rules to all.

* `findingsFor`: the findings of the rules of one resource type.
* **`packFindings_perm_iff`**: two CI platforms, and the rules that tell them apart.
* **`pipeline_findings_perm_iff`**: when a generated pipeline and its review have the same findings.
* `gitlab_review_finds_more`: a pack and a pipeline of which only the review finds fault.
-/

namespace DevOps

open Txn PolicyEngine

variable (env : Env)

/-- The findings of the enabled rules of the resource type `type` in a file of this type. -/
def findingsFor (packs : List (PolicyPack × List PolicyRule)) (type content : String) :
    List PolicyFinding :=
  packs.flatMap fun (pack, rules) => rules.flatMap fun rule =>
    if rule.isEnabled && rule.resourceType = type then ruleFindings env rule type content pack.id
    else []

/-- A rule that is not general applies to the files of its type alone. -/
theorem evaluateRule_eq {type : String} (hg : type ≠ "general") (rule : PolicyRule) (content : String)
    (pack : UUID) : evaluateRule env rule type content pack =
      (if rule.isEnabled && rule.resourceType = "general" then ruleFindings env rule type content pack
        else []) ++
      (if rule.isEnabled && rule.resourceType = type then ruleFindings env rule type content pack
        else []) := by
  unfold evaluateRule matchesResource
  by_cases he : rule.isEnabled = true
  · by_cases h₁ : rule.resourceType = "general"
    · simp [he, h₁, Ne.symm hg]
    · by_cases h₂ : rule.resourceType = type <;> simp [he, h₁, h₂, hg]
  · simp [he]

/-- The findings in a file are those of the general rules and those of its type. -/
theorem packFindings_perm {type : String} (hg : type ≠ "general")
    (packs : List (PolicyPack × List PolicyRule)) (content : String) :
    (PolicyService.packFindings env packs type content).Perm
      ((packs.flatMap fun (pack, rules) => rules.flatMap fun rule =>
        if rule.isEnabled && rule.resourceType = "general" then ruleFindings env rule type content pack.id
        else []) ++ findingsFor env packs type content) := by
  refine .trans ?_ (List.flatMap_append_perm packs _ _).symm
  unfold PolicyService.packFindings evaluatePolicyRules
  refine List.Perm.flatMap_left packs fun (pack, rules) _ => ?_
  simp only [evaluateRule_eq env hg]
  exact (List.flatMap_append_perm rules _ _).symm

/-- **Two CI platforms** have the same findings when the rules written for them do. -/
theorem packFindings_perm_iff {t t' : String} (ht : isCi t) (ht' : isCi t') (hg : t ≠ "general")
    (hg' : t' ≠ "general") (packs : List (PolicyPack × List PolicyRule)) (content : String) :
    (PolicyService.packFindings env packs t content).Perm
        (PolicyService.packFindings env packs t' content) ↔
      (findingsFor env packs t content).Perm (findingsFor env packs t' content) := by
  have h := packFindings_perm env hg packs content
  have h' := packFindings_perm env hg' packs content
  simp only [ruleFindings_ci env ht ht'] at h
  constructor
  · exact fun hp => (List.perm_append_left_iff _).mp (h.symm.trans (hp.trans h'))
  · exact fun hp => h.trans (((List.perm_append_left_iff _).mpr hp).trans h'.symm)

theorem Platform.isCi (p : Platform) : isCi p.value ∧ p.value ≠ "general" := by
  unfold PolicyEngine.isCi
  cases p <;> decide

/-- The findings a generator returns, and those of a review. -/
theorem ends_generatePipeline (user : User) (payload : PipelineRequest) (s : Session Row World) :
    (PipelineGeneratorService.generate env user payload).Ends respond s (Prog.onOk fun result _ =>
      result.content = (PipelineGenerator.file env payload).1 ∧
      result.policyFindings =
        findingsOf env s.view payload.toGeneratorSaveOptions .pipeline result.content) := by
  refine (ends_persist env user _ _ _ _).bind_ok fun r s' hr => ?_
  exact fun result h => by cases h; exact ⟨rfl, hr⟩

/-- **A generated pipeline and its review** have the same findings exactly when the rules written for
GitHub Actions and those written for the platform of the pipeline do. -/
theorem pipeline_findings_perm_iff (user : User) (payload : PipelineRequest)
    (hvalidate : payload.validatePolicies = true) {o : UUID} (ho : payload.organizationId = some o)
    (s : Session Row World) {result : PipelineResponse} {findings : List PolicyFinding}
    (hgenerate : ((PipelineGeneratorService.generate env user payload).exec respond s).1 = .ok result)
    (hreview : ((PolicyService.evaluatePacks env o payload.policyPackIds payload.platform.value
      result.content).exec respond s).1 = .ok findings) :
      result.policyFindings.Perm findings ↔
      (findingsFor env (activePacks s.view o payload.policyPackIds) "github-actions"
        (PipelineGenerator.file env payload).1).Perm
        (findingsFor env (activePacks s.view o payload.policyPackIds) payload.platform.value
          (PipelineGenerator.file env payload).1) := by
  obtain ⟨hc, hg⟩ := ends_generatePipeline env user payload s result hgenerate
  obtain ⟨-, hr⟩ := ends_evaluatePacks env (s := s) o payload.policyPackIds
    payload.platform.value result.content
  rw [hg, hr findings hreview, findingsOf, ho, ← hc]
  simp only [hvalidate, if_true]
  exact packFindings_perm_iff env (Platform.githubActions.isCi).1 payload.platform.isCi.1
    (Platform.githubActions.isCi).2 payload.platform.isCi.2 _ _

/-! ## A rule for GitLab -/

/-- Library functions that can be evaluated on short inputs, with `str.strip` on ASCII texts. -/
def Env.ascii : Env :=
  { Env.trial with strip := fun s => String.ofList (Text.strip Char.isWhitespace s.toList) }

/-- A member of the organization 2. -/
def policyUser : User :=
  { id := 1, email := "a@b.co", username := "a", hashedPassword := "", role := .user, isActive := true,
    emailVerifiedAt := none }

/-- A pack with one rule, about pipelines for GitLab. -/
def gitlabPack : PolicyPack := ⟨4, 2, "Pipelines", none, true, 1, 1, 0, 0, none⟩

def gitlabRule : PolicyRule :=
  { id := 5, policyPackId := 4, ruleKey := "forbid_latest_image_tag", name := "Tags"
    description := "", resourceType := "gitlab-ci", severity := .high, configurationJson := ⟨[], []⟩
    remediation := none, isEnabled := true, createdAt := 0, updatedAt := 0 }

/-- A session on a database with the organization, its member and its pack. -/
def policySession : Session Row World :=
  { State.trial.session with
    nextId := 6
    committed := Table.empty.apply [
      .store (toRow (⟨2, "o", "o", 1, 0, 0, none⟩ : Organization)),
      .store (toRow (⟨3, 2, 1, .owner, 0, 0⟩ : OrganizationMember)),
      .store (toRow gitlabPack), .store (toRow gitlabRule)] }

/-- A request for a pipeline for GitLab that is to follow the pack. -/
def gitlabRequest : PipelineRequest :=
  { saveArtifact := false, artifactName := none, artifactDescription := none, organizationId := some 2,
    policyPackIds := [4], validatePolicies := true, platform := .gitlabCi, testCommand := "pytest",
    buildDockerImage := true, deployTarget := .kubernetes }

theorem ends_gitlabRequest : ∃ result findings,
    ((PipelineGeneratorService.generate Env.ascii policyUser gitlabRequest).exec respond
      policySession).1 = .ok result ∧
    ((PolicyService.evaluatePacks Env.ascii 2 [4] "gitlab-ci" result.content).exec respond
      policySession).1 = .ok findings := by
  have hgenerate : ((PipelineGeneratorService.generate Env.ascii policyUser gitlabRequest).exec
      respond policySession).1.isOk = true := by decide
  have hreview : ∀ content, ((PolicyService.evaluatePacks Env.ascii 2 [4] "gitlab-ci" content).exec
      respond policySession).1.isOk = true := fun _ => rfl
  obtain ⟨result, hr⟩ := exists_ok hgenerate
  obtain ⟨findings, hf⟩ := exists_ok (hreview result.content)
  exact ⟨result, findings, hr, hf⟩

/-- A file with an image tagged `latest` is found out, wherever the image stands. -/
theorem found_latest {content pre post : List Char} (h : content = pre ++ ":latest\n".toList ++ post) :
    PolicyEngine.found (LATEST_TAG_RE Env.ascii) (String.ofList content) = true := by
  rw [PolicyEngine.found, Regex.search_isSome]
  refine ⟨pre, ":latest\n".toList ++ post, by simpa using h, List.ne_nil_of_mem (a := ?_) ?_⟩
  · exact ⟨":latest".toList.reverse ++ pre.reverse, '\n' :: post, []⟩
  refine Regex.mem_ends_alt.mpr (.inl ?_)
  refine Regex.mem_ends_concat_cons.mpr ⟨_, @Regex.mem_ends_lit [':'] _
    ("latest\n".toList ++ post) _, ?_⟩
  refine Regex.mem_ends_concat_cons.mpr ⟨_, Regex.mem_ends_star_self _, ?_⟩
  refine Regex.mem_ends_concat_cons.mpr ⟨_, Regex.mem_ends_ilit "latest".toList, ?_⟩
  exact List.mem_singleton_self _

/-- A rule against the tag `latest` makes one finding, of the severity of the rule. -/
theorem ruleFindings_latest (rule : PolicyRule) (hkey : rule.ruleKey = "forbid_latest_image_tag")
    {content : String} (hfound : PolicyEngine.found (LATEST_TAG_RE env) content = true)
    (type : String) (pack : UUID) :
    ∃ f, ruleFindings env rule type content pack = [f] ∧ f.severity = rule.severity := by
  rw [PolicyEngine.found, Option.isSome_iff_exists] at hfound
  obtain ⟨m, hm⟩ := hfound
  refine ⟨finding rule pack "Mutable image tag is forbidden" "The container image uses the latest tag."
    (some "Use a versioned image tag or immutable digest.") (some (lineOf content m.startIndex)), ?_, rfl⟩
  rw [ruleFindings]
  simp only [hkey, hm]

theorem toList_gitlabCi (payload : PipelineRequest) :
    (PipelineGenerator.gitlabCi Env.ascii payload).1.toList =
      Text.strip Char.isWhitespace (Text.unlines (PipelineGenerator.gitlabCiLines payload)).toList ++
        ['\n'] := by
  simp only [PipelineGenerator.gitlabCi, stripped, Env.ascii, String.toList_append, String.toList_ofList]
  rfl

/-- The image of the deployment has the tag `latest`. -/
theorem latest_gitlabRequest : PolicyEngine.found (LATEST_TAG_RE Env.ascii)
    (PipelineGenerator.file Env.ascii gitlabRequest).1 = true := by
  have hlines : PipelineGenerator.gitlabCiLines gitlabRequest =
      (PipelineGenerator.gitlabCiLines gitlabRequest).take 43 ++
        "  image: bitnami/kubectl:latest" :: "  script:" ::
          (PipelineGenerator.gitlabCiLines gitlabRequest).drop 45 := rfl
  have himage : ∀ {pre post : List String}, (Text.unlines (pre ++
      "  image: bitnami/kubectl:latest" :: "  script:" :: post)).toList =
      ((Text.unlines pre).toList ++ "  image: bitnami/kubectl".toList) ++ ":latest\n".toList ++
        ("  script:\n".toList ++ (Text.unlines post).toList) := by
    intro pre post
    simp [Text.toList_unlines]
  obtain ⟨cs, es, hstrip, -, -⟩ := @Text.strip_infix Char.isWhitespace
    ((Text.unlines ((PipelineGenerator.gitlabCiLines gitlabRequest).take 43)).toList ++
      "  image: bitnami/kubectl".toList) ":latest\n".toList
    ("  script:\n".toList ++
      (Text.unlines ((PipelineGenerator.gitlabCiLines gitlabRequest).drop 45)).toList)
    ⟨'i', by simp, rfl⟩ ⟨'s', by simp, rfl⟩
  rw [← himage, ← hlines] at hstrip
  have hfile : (PipelineGenerator.file Env.ascii gitlabRequest).1 =
      String.ofList (cs ++ ":latest\n".toList ++ (es ++ ['\n'])) := by
    rw [← String.toList_inj, String.toList_ofList, ← List.append_assoc, ← hstrip]
    exact toList_gitlabCi gitlabRequest
  rw [hfile]
  exact found_latest rfl

/-- **The generated pipeline follows the pack, and its review does not**: the rule for GitLab is
never asked about a file that is checked as one for GitHub. -/
theorem gitlab_review_finds_more : ∃ result findings,
    ((PipelineGeneratorService.generate Env.ascii policyUser gitlabRequest).exec respond
      policySession).1 = .ok result ∧
    ((PolicyService.evaluatePacks Env.ascii 2 gitlabRequest.policyPackIds
      gitlabRequest.platform.value result.content).exec respond policySession).1 = .ok findings ∧
    ¬ result.policyFindings.Perm findings := by
  obtain ⟨result, findings, hgenerate, hreview⟩ := ends_gitlabRequest
  refine ⟨result, findings, hgenerate, hreview, fun hp => ?_⟩
  obtain ⟨hc, hg⟩ := ends_generatePipeline Env.ascii policyUser gitlabRequest policySession result
    hgenerate
  obtain ⟨-, hr⟩ := ends_evaluatePacks Env.ascii (s := policySession) 2 [4] "gitlab-ci" result.content
  rw [hg, hr findings hreview] at hp
  have hpacks : activePacks policySession.view 2 [4] = [(gitlabPack, [gitlabRule])] := rfl
  have hrules : (findingsFor Env.ascii [(gitlabPack, [gitlabRule])] "github-actions"
      result.content).Perm (findingsFor Env.ascii [(gitlabPack, [gitlabRule])] "gitlab-ci"
      result.content) :=
    (packFindings_perm_iff Env.ascii Platform.githubActions.isCi.1 Platform.gitlabCi.isCi.1
      Platform.githubActions.isCi.2 Platform.gitlabCi.isCi.2 _ _).mp (hpacks ▸ hp)
  have hnone : findingsFor Env.ascii [(gitlabPack, [gitlabRule])] "github-actions" result.content =
      [] := rfl
  have hsome : findingsFor Env.ascii [(gitlabPack, [gitlabRule])] "gitlab-ci" result.content ≠ [] := by
    obtain ⟨f, hf, -⟩ := ruleFindings_latest Env.ascii gitlabRule rfl
      (hc ▸ latest_gitlabRequest) "gitlab-ci" gitlabPack.id
    have hrule : findingsFor Env.ascii [(gitlabPack, [gitlabRule])] "gitlab-ci" result.content =
        ruleFindings Env.ascii gitlabRule "gitlab-ci" result.content gitlabPack.id := by
      simp [findingsFor, gitlabRule]
    rw [hrule, hf]
    exact List.cons_ne_nil _ _
  exact hsome (hnone ▸ hrules).symm.eq_nil

/-- The same on the pack and the request for GitLab. -/
theorem pipeline_findings_perm_iff_gitlab : ∃ result findings,
    ((PipelineGeneratorService.generate Env.ascii policyUser gitlabRequest).exec respond
      policySession).1 = .ok result ∧
    (result.policyFindings.Perm findings ↔
      (findingsFor Env.ascii (activePacks policySession.view 2 [4]) "github-actions"
        (PipelineGenerator.file Env.ascii gitlabRequest).1).Perm
        (findingsFor Env.ascii (activePacks policySession.view 2 [4]) "gitlab-ci"
          (PipelineGenerator.file Env.ascii gitlabRequest).1)) := by
  obtain ⟨result, findings, hgenerate, hreview⟩ := ends_gitlabRequest
  exact ⟨result, findings, hgenerate, pipeline_findings_perm_iff Env.ascii policyUser gitlabRequest rfl
    rfl policySession hgenerate hreview⟩

end DevOps
