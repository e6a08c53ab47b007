import DevOpsAssistant.Generators.Policies
import DevOpsAssistant.Services.SecurityReviewService
import DevOpsAssistant.Specs.Gateway

/-!
# Reviews do not depend on the language model

A review reads the rows its deterministic findings depend on before it calls the language model, and
swallows whatever the call and its answer raise.

* `reads_organizationFindings`: the findings of policies are only read.
* `SecurityReviewService.determined`: the deterministic findings, or the exception that takes their place.
* `ends_keep`: what a review writes at its end.
* `ends_review`: a review, given what its call of the language model ends with.
* **`review_independent`**: two reviews that see the same rows agree on everything authoritative.
-/

namespace DevOps

open Txn SecurityReviewService

variable (env : Env) (lib : ReviewLibrary)

/-! ## The findings of policies -/

section Reads

variable {T : Type} [Entity T]

theorem reads_selectOf (p : T → Bool) : (selectOf p).Reads := fun _ => trivial

omit [Entity T] in
theorem reads_scalarOneOrNone (ts : List T) : (scalarOneOrNone ts).Reads := by
  match ts with
  | [] | [_] | _ :: _ :: _ => trivial

theorem reads_selectOne (p : T → Bool) : (selectOf p >>= scalarOneOrNone).Reads :=
  (reads_selectOf p).bind reads_scalarOneOrNone

end Reads

theorem reads_requirePermission (organizationId userId : UUID) (permission : Permission) :
    (OrganizationAuthService.requirePermission organizationId userId permission).Reads := by
  have horg : (OrganizationAuthService.getActiveOrganization organizationId).Reads := by
    refine (reads_selectOne (activeOrganization organizationId)).bind fun found => ?_
    cases found <;> trivial
  have hmembership : (OrganizationAuthService.requireMembership organizationId userId).Reads := by
    refine horg.bind fun org => ?_
    refine (reads_selectOne (memberOf organizationId userId)).bind fun found => ?_
    cases found <;> trivial
  refine hmembership.bind fun (org, membership) => ?_
  simp only
  split <;> trivial

theorem reads_evaluatePacks (organizationId : UUID) (policyPackIds : List UUID)
    (configType content : String) :
    (PolicyService.evaluatePacks env organizationId policyPackIds configType content).Reads := by
  refine Prog.Reads.bind ?_ fun packs => ?_
  · unfold PolicyRepository.getActivePacksByIds
    split
    · trivial
    · refine (reads_selectOf _).bind fun packs => (reads_selectOf _).bind fun rules => ?_
      split <;> trivial
  · split <;> trivial

theorem reads_organizationFindings (user : User) (payload : ReviewRequest) :
    (organizationFindings env user payload).Reads := by
  unfold organizationFindings
  cases payload.organizationId with
  | none => trivial
  | some o =>
    simp only
    split
    · trivial
    · exact (reads_requirePermission o user.id .policyRead).bind fun _ =>
        (reads_evaluatePacks env o _ _ _).bind fun _ => trivial

/-! ## One review -/

variable {s : Session Row World}

/-- The deterministic findings of a review, or the exception that takes their place. -/
def SecurityReviewService.determined (user : User) (payload : ReviewRequest)
    (s : Session Row World) : Except Exc (List ReviewFinding × List ReviewFinding) := do
  let checked ← runStaticChecks env lib payload.type (contentOf env payload)
  let organization ← ((organizationFindings env user payload).exec respond s).1
  return (checked.map Subtype.val, organization)

/-- What a review writes at its end. -/
theorem ends_keep {α : Type} (h : Drawn s) (user : User) (payload : ReviewRequest) (a : α) :
    (do
      let _ ← ArtifactRepository.createAnalysis user.id payload.organizationId .review
        (previewText env (contentOf env payload)) .completed none
      AuditService.recordEvent "review.completed" user.id payload.organizationId "review" none
      return a : Db α).Ends respond s fun r _ => r = .ok a := by
  unfold ArtifactRepository.createAnalysis
  simp only [bind_assoc]
  refine ends_uuid4.mpr ((ends_insertOf ?_).mpr (ends_recordEvent fun s' _ => rfl))
  exact Drawn.clashes (s := s) h (Nat.le_refl _)

/-- **A review**, given what its call of the language model ends with. -/
theorem ends_review (user : User) (payload : ReviewRequest)
    {P : List ReviewFinding → List ReviewFinding → Supplement → Prop}
    (hcall : ∀ b o, determined env lib user payload s = .ok (b, o) →
      (supplement env lib user payload (b ++ o) ⟨staticSummary payload b o, .none, []⟩).Ends
        respond s fun r s' => Drawn s' ∧ ∃ added, r = .ok added ∧ P b o added) :
    (review env lib user payload).Ends respond s fun r _ =>
      (∃ e, determined env lib user payload s = .error e ∧ r = .error e) ∨
      ∃ b o added, determined env lib user payload s = .ok (b, o) ∧
        r = .ok (response b o added) ∧ P b o added := by
  unfold determined at hcall ⊢
  unfold review
  cases hc : runStaticChecks env lib payload.type (contentOf env payload) with
  | error e => exact .inl ⟨e, rfl, rfl⟩
  | ok checked =>
    have horg := (reads_organizationFindings env user payload).exec respond (s := s) rfl
    change ((organizationFindings env user payload).bind _).Ends respond s _
    refine Prog.ends_bind.mpr ?_
    rw [Prog.Ends, horg]
    cases ho : ((organizationFindings env user payload).exec respond s).1 with
    | error e => exact .inl ⟨e, rfl, rfl⟩
    | ok o =>
      refine (hcall _ o (by rw [hc, ho]; rfl)).bind (fun added s' h => ?_) fun e s' h => ?_
      · obtain ⟨hdrawn, added', heq, hP⟩ := h
        cases heq
        exact (ends_keep env hdrawn user payload _).mono fun r s'' hr =>
          .inr ⟨_, o, added, rfl, hr, hP⟩
      · obtain ⟨-, _, heq, -⟩ := h
        cases heq

/-! ## The call of the language model -/

theorem ends_ask (h : Drawn s) (user : User) (payload : ReviewRequest) (findings : String) :
    (ask env user payload findings).Ends respond s fun r s' =>
      Drawn s' ∧ (s.world.Calm → ∀ e, r = .error e → Harmless e) :=
  ends_gateway env h _ _ _ _ _ _ _

/-- **Whatever the language model does**, the call returns. -/
theorem ends_supplement (h : Drawn s) (hw : s.world.Calm) (user : User) (payload : ReviewRequest)
    (deterministic : List ReviewFinding) (base : Supplement) :
    (supplement env lib user payload deterministic base).Ends respond s fun r s' =>
      Drawn s' ∧ ∃ added, r = .ok added := by
  unfold supplement orElseBase
  refine Prog.ends_tryCatch.mpr ?_
  cases hdump : dumpFindings lib deterministic with
  | none => exact ⟨h, base, rfl⟩
  | some findings =>
    refine (ends_ask env h user payload findings).bind (fun (raw, name) s' ⟨hd, _⟩ => ⟨hd, _, rfl⟩) ?_
    rintro e s' ⟨hd, hharmless⟩
    have he : e.poisons = false := hharmless hw e rfl
    simp only [he, Bool.false_eq_true, if_false]
    exact ⟨hd, base, rfl⟩

/-! ## Two reviews -/

/-- What a review says on its own authority: the score, the findings of both kinds, and as many of all
findings from the first one on. -/
def ReviewResponse.authoritative (r : ReviewResponse) :
    ℤ × List ReviewFinding × List ReviewFinding × List ReviewFinding :=
  (r.score, r.builtInFindings, r.organizationPolicyFindings,
    r.findings.take (r.builtInFindings.length + r.organizationPolicyFindings.length))

theorem authoritative_response (b o : List ReviewFinding) (added : Supplement) :
    (response b o added).authoritative = (scoreFromFindings (b ++ o), b, o, b ++ o) := by
  unfold ReviewResponse.authoritative response
  rw [← List.length_append, List.take_left']
  rfl

/-- What is authoritative in the outcome of a review is determined before the language model is asked. -/
theorem review_determined (h : Drawn s) (hw : s.world.Calm) (user : User) (payload : ReviewRequest) :
    ((review env lib user payload).exec respond s).1.map ReviewResponse.authoritative =
      (determined env lib user payload s).map fun p =>
        (scoreFromFindings (p.1 ++ p.2), p.1, p.2, p.1 ++ p.2) := by
  rcases ends_review env lib (s := s) user payload (P := fun _ _ _ => True)
      (fun b o _ => (ends_supplement env lib h hw user payload _ _).mono fun r s' ⟨hd, added, hr⟩ =>
        ⟨hd, added, hr, trivial⟩) with ⟨e, hdet, hr⟩ | ⟨b, o, added, hdet, hr, -⟩
  · rw [hr, hdet]
    rfl
  · rw [hr, hdet]
    exact congrArg Except.ok (authoritative_response b o added)

/-- **Reviews do not depend on the language model**: two reviews of one request, by sessions that see the
same rows, agree on the score, on the findings of the checks and of the policies, and on the beginning of
the list of all findings, whatever their language models answer or raise. -/
theorem review_independent (user : User) (payload : ReviewRequest) {s s' : Session Row World}
    (hview : s'.view = s.view) (hdrawn : Drawn s) (hdrawn' : Drawn s') (hcalm : s.world.Calm)
    (hcalm' : s'.world.Calm) :
    ((review env lib user payload).exec respond s').1.map ReviewResponse.authoritative =
      ((review env lib user payload).exec respond s).1.map ReviewResponse.authoritative := by
  rw [review_determined env lib hdrawn' hcalm', review_determined env lib hdrawn hcalm]
  unfold determined
  rw [(reads_organizationFindings env user payload).exec respond hview]

/-! ## One request -/

/-- A request for a review of a workflow, by a user outside any organization. -/
def workflowRequest : ReviewRequest where
  type := .githubActions
  content := "name: CI"
  provider := "gemini"
  organizationId := none
  policyPackIds := []
  content_length := by decide

/-- The same session beside a language model with the outcome `r`. -/
def withModel (s : Session Row World) (r : Except Exc String) : Session Row World :=
  { s with world := { s.world with llmOutcome := fun _ => r } }

theorem review_independent_trial :
    ((review .trial .trial policyUser workflowRequest).exec respond
      (withModel State.trial.session (.error .httpError))).1.map
        ReviewResponse.authoritative =
    ((review .trial .trial policyUser workflowRequest).exec respond
      (withModel State.trial.session (.ok trialAnswer))).1.map
        ReviewResponse.authoritative := by
  have hdrawn : ∀ r, Drawn (withModel State.trial.session r) := fun _ _ hr => nomatch hr
  have hcalm : ∀ r, (∀ e, r = .error e → Harmless e) →
      (withModel State.trial.session r).world.Calm :=
    fun _ hr => ⟨fun _ => hr, fun _ _ he => nomatch he⟩
  exact review_independent .trial .trial policyUser workflowRequest rfl (hdrawn _) (hdrawn _)
    (hcalm _ fun _ he => nomatch he) (hcalm _ fun _ he => by cases he; rfl)

end DevOps
