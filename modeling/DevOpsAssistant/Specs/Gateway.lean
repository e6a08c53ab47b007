import DevOpsAssistant.Specs.Raises
import DevOpsAssistant.Specs.Runs
import DevOpsAssistant.Specs.Usage
import DevOpsAssistant.Txn.Raises

/-!
# What a call through the gateway raises

* `Calm`, `World.Calm`: answers, and surroundings, that do not raise the exceptions of a flush.
* `raises_enforceQuotas`, `raises_resolveProviderChain`, `raises_generateChain`, …: no part of a call
  raises an exception of a flush.
* `Drawn`: every identifier in use has been drawn.
* **`ends_gateway`**: a call leaves the session fit for use, whether it returns or raises.
-/

namespace DevOps

open Txn

variable (env : Env)

/-! ## Exceptions -/

/-- The exception is not one of a flush. -/
def Harmless (e : Exc) : Prop := e.poisons = false

/-- The answer is not an exception of a flush. -/
def Calm : (q : Query) → Answer q → Prop
  | .generate _, (r : Except Exc String) => ∀ e, r = .error e → Harmless e
  | .validateBaseUrl _, (r : Except Exc Unit) => ∀ e, r = .error e → Harmless e
  | _, _ => True

/-- Language models and name servers raise no exception of a flush. -/
structure World.Calm (w : World) : Prop where
  llm : ∀ n e, w.llmOutcome n = .error e → Harmless e
  baseUrl : ∀ p e, w.baseUrlOutcome p = .error e → Harmless e

theorem calm_respond {w : World} (h : w.Calm) (q : Query) :
    Calm q (respond q w).1 ∧ (respond q w).2.Calm := by
  cases q with
  | generate call => exact ⟨h.llm _, h.llm, h.baseUrl⟩
  | validateBaseUrl p => exact ⟨h.baseUrl p, h.llm, h.baseUrl⟩
  | _ => exact ⟨trivial, h.llm, h.baseUrl⟩

section Raises

variable {α : Type}

theorem raises_checkLimit (limit : Option ℕ) (used asked : ℕ) (message : String) :
    (UsageQuotaService.checkLimit limit used asked message).Raises Calm Harmless := by
  unfold UsageQuotaService.checkLimit
  cases limit with
  | none => trivial
  | some n => simp only; split <;> trivial

theorem raises_aggregateUsage (userId organizationId : Option UUID) (since : Option Time) :
    (UsageRepository.aggregateUsage userId organizationId since).Raises Calm Harmless :=
  (raises_selectOf _).bind fun _ => trivial

theorem raises_enforcePersonal (userId : UUID) (limit : Option ℕ) (start : Time)
    (estimatedTokens : ℕ) (message : String) : (UsageQuotaService.enforcePersonal userId limit start
      estimatedTokens message).Raises Calm Harmless := by
  unfold UsageQuotaService.enforcePersonal
  cases limit with
  | none => trivial
  | some n => exact (raises_aggregateUsage _ _ _).bind fun (_, _) => raises_checkLimit _ _ _ _

theorem raises_windowStart :
    OrganizationQuotaRepository.dailyWindowStart.Raises Calm Harmless ∧
      OrganizationQuotaRepository.monthlyWindowStart.Raises Calm Harmless :=
  ⟨raises_now.bind fun _ => trivial, raises_now.bind fun _ => trivial⟩

theorem raises_enforceOrgQuota (organizationId : UUID) (estimatedTokens : ℕ) :
    (UsageQuotaService.enforceOrgQuota organizationId estimatedTokens).Raises Calm Harmless := by
  refine (raises_selectOne (P := Harmless) rfl _).bind fun quota => ?_
  cases quota with
  | none => trivial
  | some quota =>
    simp only
    split
    · trivial
    · refine raises_windowStart.1.bind fun _ => raises_windowStart.2.bind fun _ => ?_
      refine (raises_aggregateUsage _ _ _).bind fun (_, _) => ?_
      refine (raises_aggregateUsage _ _ _).bind fun (_, _) => ?_
      refine (raises_checkLimit _ _ _ _).bind fun _ => (raises_checkLimit _ _ _ _).bind fun _ => ?_
      exact (raises_checkLimit _ _ _ _).bind fun _ => raises_checkLimit _ _ _ _

theorem raises_enforceQuotas (userId : UUID) (organizationId : Option UUID) (estimatedTokens : ℕ) :
    (UsageQuotaService.enforceQuotas env userId organizationId estimatedTokens).Raises
      Calm Harmless := by
  unfold UsageQuotaService.enforceQuotas
  cases organizationId with
  | some o => exact raises_enforceOrgQuota o estimatedTokens
  | none =>
    simp only
    split
    · trivial
    split
    · trivial
    · refine raises_windowStart.1.bind fun _ => raises_windowStart.2.bind fun _ => ?_
      exact (raises_enforcePersonal _ _ _ _ _).bind fun _ => raises_enforcePersonal _ _ _ _ _

theorem raises_getLlmProvider (providerName : String) :
    (getLlmProvider env providerName).Raises Calm Harmless := by
  unfold getLlmProvider
  simp only
  generalize providerKey env _ = name
  split
  · rfl
  split
  · rfl
  split
  · trivial
  · exact fun r hr => (raises_orRaise hr).bind fun _ => trivial

theorem raises_isOpen (providerName : String) :
    (ProviderCircuitBreaker.isOpen env providerName).Raises Calm Harmless := by
  refine raises_query fun snapshot _ => ?_
  split
  · trivial
  · refine raises_query fun data _ => ?_
    cases data.openedAt with
    | none => trivial
    | some openedAt =>
      simp only
      split
      · trivial
      · refine raises_now.bind fun t => ?_
        split
        · exact fun _ _ => trivial
        · trivial

theorem raises_recordFailure (providerName category : String) :
    (ProviderCircuitBreaker.recordFailure env providerName category).Raises Calm Harmless := by
  refine raises_query fun data _ => ?_
  simp only
  split
  · exact raises_now.bind fun _ _ _ => trivial
  · exact fun _ _ => trivial

theorem raises_recordSuccess (providerName : String) :
    (ProviderCircuitBreaker.recordSuccess providerName).Raises Calm Harmless :=
  fun _ _ => raises_now.bind fun _ _ _ => trivial

theorem raises_orgConfig (organizationId : Option UUID) (name : String) :
    (ProviderManagementService.orgConfig organizationId name).Raises Calm Harmless := by
  cases organizationId with
  | none => trivial
  | some o => exact raises_selectOne (P := Harmless) rfl _

theorem raises_explicitChain (organizationId : Option UUID) (name : String) :
    (ProviderManagementService.explicitChain organizationId name).Raises Calm Harmless := by
  refine (raises_orgConfig organizationId name).bind fun org => ?_
  split
  · rfl
  · refine (raises_selectOne (P := Harmless) rfl _).bind fun platform => ?_
    split
    · trivial
    split
    · trivial
    split
    · trivial
    · rfl

theorem raises_policyChain (organizationId : Option UUID) : ∀ names seen : List String,
    (ProviderManagementService.policyChain env organizationId seen names).Raises Calm Harmless
  | [], _ => trivial
  | providerName :: names, seen => by
    unfold ProviderManagementService.policyChain
    simp only
    split
    · exact raises_policyChain organizationId names seen
    · refine (raises_orgConfig organizationId _).bind fun org => ?_
      split
      · exact raises_policyChain organizationId names _
      · refine (raises_selectOne (P := Harmless) rfl _).bind fun platform => ?_
        split
        · exact raises_policyChain organizationId names _
        · exact (raises_policyChain organizationId names _).bind fun _ => trivial

theorem raises_policyOf (operation : LLMOperation) (organizationId : Option UUID) :
    (ProviderManagementService.policyOf operation organizationId).Raises Calm Harmless := by
  have hpolicy : ∀ o, (ProviderRoutingRepository.getPolicy operation o).Raises Calm Harmless :=
    fun o => raises_selectOne (P := Harmless) rfl _
  cases organizationId with
  | none => exact hpolicy none
  | some o =>
    refine (hpolicy (some o)).bind fun org => ?_
    cases org with
    | some policy => trivial
    | none => exact hpolicy none

theorem raises_resolveProviderChain (operation : LLMOperation) (organizationId : Option UUID)
    (explicitProvider : Option String) : (ProviderManagementService.resolveProviderChain env operation
      organizationId explicitProvider).Raises Calm Harmless := by
  unfold ProviderManagementService.resolveProviderChain
  cases explicitProvider.filter (· ≠ "") with
  | some provider => exact raises_explicitChain organizationId _
  | none =>
    refine (raises_policyOf operation organizationId).bind fun policy => ?_
    cases policy with
    | none => trivial
    | some policy =>
      refine (raises_policyChain env organizationId _ _).bind fun resolved => ?_
      split <;> trivial

theorem raises_generateChain (prompt : String) (systemPrompt : Option String)
    (maxOutputTokens : Option ℕ) : ∀ (chain : ProviderManagementService.Chain) (failed : Bool),
    (ProviderManagementService.generateChain env prompt systemPrompt maxOutputTokens failed
      chain).Raises Calm Harmless
  | [], failed => by cases failed <;> rfl
  | (providerName, config) :: chain, failed => by
    refine (raises_isOpen env providerName).bind fun isOpen => ?_
    split
    · exact raises_generateChain prompt systemPrompt maxOutputTokens chain failed
    · refine (raises_getLlmProvider env providerName).bind fun provider => ?_
      refine raises_query fun answer hanswer => ?_
      cases answer with
      | ok result => exact (raises_recordSuccess providerName).bind fun _ => trivial
      | error e =>
        simp only
        split
        · exact (raises_recordFailure env providerName _).bind fun _ =>
            raises_generateChain prompt systemPrompt maxOutputTokens chain true
        · exact (raises_recordFailure env providerName _).bind fun _ => hanswer e rfl

/-- No part of a call before its usage is recorded raises an exception of a flush. -/
theorem raises_generateWithRouting (operation : LLMOperation) (organizationId : Option UUID)
    (explicitProvider : Option String) (prompt : String) (systemPrompt : Option String)
    (maxOutputTokens : Option ℕ) : (ProviderManagementService.generateWithRouting env operation
      organizationId explicitProvider prompt systemPrompt maxOutputTokens).Raises Calm Harmless :=
  (raises_resolveProviderChain env operation organizationId explicitProvider).bind fun chain =>
    raises_generateChain env prompt systemPrompt maxOutputTokens chain false

end Raises

/-! ## Identifiers -/

/-- Every identifier in use has been drawn. -/
def Drawn (s : Session Row World) : Prop := ∀ r ∈ s.view.rows, (key r).id < s.nextId

variable {s : Session Row World}

theorem Drawn.of_unchanged {s' : Session Row World} (h : Drawn s)
    (hs : Unchanged (fun _ => True) s s') : Drawn s' := fun r hr =>
  Nat.lt_of_lt_of_le (h r ((hs.view r trivial).mp hr)) hs.nextId

theorem Drawn.insert {r : Row} (h : Drawn s) (hr : (key r).id < s.nextId) :
    Drawn (s.append [.store r]) := by
  intro r' hr'
  rw [Session.view_append, Table.apply_cons, Table.apply_nil] at hr'
  rcases Table.mem_write_store.mp hr' with rfl | ⟨hmem, -⟩
  · exact hr
  · exact h r' hmem

/-- A row whose identifier is drawn first can be inserted. -/
theorem Drawn.clashes {T : Type} [Entity T] {t : T} (h : Drawn s) (ht : s.nextId ≤ (key (toRow t)).id) :
    s.view.clashes (fun r => (ofRow r).any fun _ : T => false) (toRow t) = false :=
  clashes_eq_false fun r hr hk => by
    have := h r hr
    rw [hk] at this
    exact Nat.lt_irrefl _ (Nat.lt_of_lt_of_le this ht)

/-- The record of a call is written. -/
theorem ends_recordLlmUsage (h : Drawn s) (u : LlmUsage) :
    (UsageQuotaService.recordLlmUsage u).Ends respond s fun r s' => r = .ok () ∧ Drawn s' := by
  unfold UsageQuotaService.recordLlmUsage UsageRepository.recordEvent
  simp only [bind_assoc]
  refine ends_uuid4.mpr (ends_now.mpr ((ends_insertOf ?_).mpr ?_))
  · exact Drawn.clashes (s := s) h (Nat.le_refl _)
  · refine ⟨rfl, Drawn.insert (fun r hr => Nat.lt_succ_of_lt (h r hr)) (Nat.lt_succ_self _)⟩

/-- A part of a call that writes nothing. -/
theorem ends_calm {α : Type} {p : Db α} (h : Drawn s)
    (honly : p.Only (Writes (outside (fun _ => True) False)) fun _ => True)
    (hraises : p.Raises Calm Harmless) : p.Ends respond s fun r s' =>
      Drawn s' ∧ (s.world.Calm → s'.world.Calm ∧ ∀ e, r = .error e → Harmless e) :=
  ⟨h.of_unchanged (unchanged_of_only honly s), hraises.exec World.Calm fun q _ hw => calm_respond hw q⟩

/-- **A call leaves the session fit for use**, whether it returns or raises. -/
theorem ends_gateway (h : Drawn s) (user : User) (operation : LLMOperation)
    (organizationId : Option UUID) (prompt : String) (systemPrompt explicitProvider : Option String)
    (maxOutputTokens : Option ℕ) :
    (LLMGateway.generate env user operation organizationId prompt systemPrompt explicitProvider
      maxOutputTokens).Ends respond s fun r s' =>
        Drawn s' ∧ (s.world.Calm → ∀ e, r = .error e → Harmless e) := by
  refine (ends_calm h (only_enforceQuotas env _ _ _) (raises_enforceQuotas env _ _ _)).bind
    (fun _ s₁ h₁ => ?_) fun e s₁ h₁ => ⟨h₁.1, fun hw _ he => by cases he; exact (h₁.2 hw).2 _ rfl⟩
  refine (ends_calm h₁.1 (only_generateWithRouting env _ _ _ _ _ _)
    (raises_generateWithRouting env _ _ _ _ _ _)).bind (fun generated s₂ h₂ => ?_)
    fun e s₂ h₂ => ⟨h₂.1, fun hw _ he => by cases he; exact (h₂.2 (h₁.2 hw).1).2 _ rfl⟩
  refine (ends_recordLlmUsage h₂.1 _).bind (fun _ s₃ h₃ => ⟨h₃.2, fun _ _ he => nomatch he⟩)
    fun e s₃ h₃ => nomatch h₃.1

end DevOps
