import DevOpsAssistant.Services.ProviderService
import DevOpsAssistant.Specs.Runs

/-!
# Disabled providers and the chain of an operation

* `DisabledFor`: the platform or the organization has disabled a provider.
* `Skipped`: a provider of a policy that `policyChain` leaves out.
* `OverridesDisabled`, `UsesDefault`: where the settings of a provider are not obeyed, or not read.
* **`chain_enabled_iff`**: exactly outside of these, no disabled provider is in a chain.
-/

namespace DevOps

open Txn ProviderManagementService

/-- The settings of a provider, of the platform or of one organization. -/
def configsOf (c : Database) (name : String) (organizationId : Option UUID) : List ProviderConfig :=
  (rowsOf ProviderConfig c).filter fun config =>
    config.organizationId = organizationId && config.providerName = name

/-- The settings of a provider that an organization has made itself. -/
def orgConfigsOf (c : Database) (name : String) : Option UUID → List ProviderConfig
  | none => []
  | some o => configsOf c name (some o)

/-- The platform or the organization has disabled the provider. -/
def DisabledFor (c : Database) (organizationId : Option UUID) (name : String) : Prop :=
  ∃ config ∈ rowsOf ProviderConfig c, config.providerName = name ∧ config.enabled = false ∧
    (config.organizationId = none ∨ config.organizationId = organizationId)

/-- The only row of `l`, if there is one, is of a disabled provider. -/
def Disables (l : List ProviderConfig) : Prop := ∃ config, l = [config] ∧ config.enabled = false

/-- The only row of `l`, if there is one, is of an enabled provider, and there are not more. -/
def Allows (l : List ProviderConfig) : Prop :=
  l = [] ∨ ∃ config, l = [config] ∧ config.enabled = true

/-- A provider that `policyChain` leaves out. -/
def Skipped (c : Database) (organizationId : Option UUID) (name : String) : Prop :=
  Disables (orgConfigsOf c name organizationId) ∨
    Allows (orgConfigsOf c name organizationId) ∧ Disables (configsOf c name none)

/-- An explicit provider that the platform has disabled and the organization may use: by settings of its
own, or because there are none and the provider is a supported one. -/
def OverridesDisabled (c : Database) (organizationId : Option UUID) (name : String) : Prop :=
  Disables (configsOf c name none) ∧ Allows (orgConfigsOf c name organizationId) ∧
    (orgConfigsOf c name organizationId = [] → name ∈ SUPPORTED_PROVIDERS)

/-- The policies for an operation that the platform or one organization has. -/
def policiesOf (c : Database) (operation : LLMOperation) (organizationId : Option UUID) :
    List ProviderRoutingPolicy :=
  (rowsOf ProviderRoutingPolicy c).filter fun p =>
    p.organizationId = organizationId && p.operation = operation

/-- The policies an operation is under: those of the organization, or of the platform. -/
def governing (c : Database) (operation : LLMOperation) : Option UUID → List ProviderRoutingPolicy
  | none => policiesOf c operation none
  | some o =>
    if policiesOf c operation (some o) = [] then policiesOf c operation none
    else policiesOf c operation (some o)

variable (env : Env)

/-- There is no policy, or every provider of the policy is left out. -/
def UsesDefault (c : Database) (operation : LLMOperation) (organizationId : Option UUID) : Prop :=
  governing c operation organizationId = [] ∨
    ∃ p, governing c operation organizationId = [p] ∧ ∀ n ∈ p.primaryProvider :: p.fallbackProviders,
      providerKey env n = "" ∨ Skipped c organizationId (providerKey env n)

/-- The provider that is selected has its settings read and obeyed. -/
def ObeysSettings (c : Database) (operation : LLMOperation) (organizationId : Option UUID)
    (explicitProvider : Option String) : Prop :=
  match explicitProvider.filter (· ≠ "") with
  | some provider => ¬ OverridesDisabled c organizationId (providerKey env provider)
  | none => UsesDefault env c operation organizationId →
      ¬ DisabledFor c organizationId (env.lower env.settings.llmProvider)

/-- No entry of a chain names a provider that is disabled. -/
def EnabledChain (c : Database) (organizationId : Option UUID) (chain : Chain) : Prop :=
  ∀ entry ∈ chain, ¬ DisabledFor c organizationId entry.1

section Settings

variable {c : Database} {o : Option UUID} {name : String} {l : List ProviderConfig}

theorem mem_configsOf {config : ProviderConfig} : config ∈ configsOf c name o ↔
    config ∈ rowsOf ProviderConfig c ∧ config.organizationId = o ∧ config.providerName = name := by
  simp [configsOf]

theorem disabledFor_iff : DisabledFor c o name ↔
    (∃ config ∈ configsOf c name none, config.enabled = false) ∨
      ∃ config ∈ orgConfigsOf c name o, config.enabled = false := by
  constructor
  · rintro ⟨config, hm, hname, hdisabled, hnone | ho⟩
    · exact .inl ⟨config, mem_configsOf.mpr ⟨hm, hnone, hname⟩, hdisabled⟩
    · cases o with
      | none => exact .inl ⟨config, mem_configsOf.mpr ⟨hm, ho, hname⟩, hdisabled⟩
      | some o => exact .inr ⟨config, mem_configsOf.mpr ⟨hm, ho, hname⟩, hdisabled⟩
  · rintro (⟨config, hm, hdisabled⟩ | ⟨config, hm, hdisabled⟩)
    · obtain ⟨hm, ho, hname⟩ := mem_configsOf.mp hm
      exact ⟨config, hm, hname, hdisabled, .inl ho⟩
    · cases o with
      | none => cases hm
      | some o =>
        obtain ⟨hm, ho, hname⟩ := mem_configsOf.mp hm
        exact ⟨config, hm, hname, hdisabled, .inr ho⟩

theorem Disables.exists_mem (h : Disables l) : ∃ config ∈ l, config.enabled = false := by
  obtain ⟨config, rfl, hdisabled⟩ := h
  exact ⟨config, List.mem_singleton_self config, hdisabled⟩

theorem Allows.enabled (h : Allows l) {config : ProviderConfig} (hm : config ∈ l) :
    config.enabled = true := by
  obtain rfl | ⟨config', rfl, henabled⟩ := h
  · cases hm
  · rw [List.mem_singleton.mp hm, henabled]

theorem not_disables_of_allows (h : Allows l) : ¬ Disables l := fun hd => by
  obtain ⟨config, hm, hdisabled⟩ := hd.exists_mem
  rw [h.enabled hm] at hdisabled
  cases hdisabled

theorem not_skipped (ho : Allows (orgConfigsOf c name o)) (hp : Allows (configsOf c name none)) :
    ¬ Skipped c o name := by
  rintro (h | ⟨-, h⟩)
  · exact not_disables_of_allows ho h
  · exact not_disables_of_allows hp h

theorem not_disabledFor (ho : Allows (orgConfigsOf c name o)) (hp : Allows (configsOf c name none)) :
    ¬ DisabledFor c o name := fun h => by
  obtain ⟨config, hm, hdisabled⟩ | ⟨config, hm, hdisabled⟩ := disabledFor_iff.mp h
  · rw [hp.enabled hm] at hdisabled
    cases hdisabled
  · rw [ho.enabled hm] at hdisabled
    cases hdisabled

end Settings

/-! ## The lookups -/

section Lookups

variable {α : Type} {s : Session Row World} {Φ : Except Exc α → Session Row World → Prop}
  {name : String} {o : Option UUID} {operation : LLMOperation}

theorem ends_getConfig {g : Option ProviderConfig → Db α} :
    (ProviderConfigRepository.getConfig name o >>= g).Ends respond s Φ ↔
      match configsOf s.view name o with
      | [] => (g none).Ends respond s Φ
      | [config] => (g (some config)).Ends respond s Φ
      | _ :: _ :: _ => Φ (.error .multipleResultsFound) s := by
  rw [ProviderConfigRepository.getConfig, bind_assoc, ends_selectOf]
  rw [configsOf]
  rcases (rowsOf ProviderConfig s.view).filter _ with _ | ⟨_, _ | _⟩ <;> exact Iff.rfl

theorem ends_orgConfig {g : Option ProviderConfig → Db α} :
    (orgConfig o name >>= g).Ends respond s Φ ↔
      match orgConfigsOf s.view name o with
      | [] => (g none).Ends respond s Φ
      | [config] => (g (some config)).Ends respond s Φ
      | _ :: _ :: _ => Φ (.error .multipleResultsFound) s := by
  cases o with
  | none => exact Iff.rfl
  | some o => exact ends_getConfig

theorem ends_getPolicy {g : Option ProviderRoutingPolicy → Db α} :
    (ProviderRoutingRepository.getPolicy operation o >>= g).Ends respond s Φ ↔
      match policiesOf s.view operation o with
      | [] => (g none).Ends respond s Φ
      | [policy] => (g (some policy)).Ends respond s Φ
      | _ :: _ :: _ => Φ (.error .multipleResultsFound) s := by
  rw [ProviderRoutingRepository.getPolicy, bind_assoc, ends_selectOf]
  rw [policiesOf]
  rcases (rowsOf ProviderRoutingPolicy s.view).filter _ with _ | ⟨_, _ | _⟩ <;> exact Iff.rfl

theorem ends_policyOf {g : Option ProviderRoutingPolicy → Db α} :
    (policyOf operation o >>= g).Ends respond s Φ ↔
      match governing s.view operation o with
      | [] => (g none).Ends respond s Φ
      | [policy] => (g (some policy)).Ends respond s Φ
      | _ :: _ :: _ => Φ (.error .multipleResultsFound) s := by
  cases o with
  | none => exact ends_getPolicy
  | some o =>
    rw [policyOf, bind_assoc]
    refine ends_getPolicy.trans ?_
    rw [governing]
    rcases policiesOf s.view operation (some o) with _ | ⟨_, _ | _⟩
    · exact ends_getPolicy
    · exact Iff.rfl
    · exact Iff.rfl

end Lookups

/-! ## The chains -/

section Chains

variable {env} {s : Session Row World} {c : Database} {o : Option UUID} {name : String}

/-- A chain that is returned has no disabled provider in it. -/
def returnsEnabled (c : Database) (o : Option UUID) : Except Exc Chain → Session Row World → Prop :=
  Prog.onOk fun chain _ => EnabledChain c o chain

theorem ends_raise_enabled {e : Exc} : (Prog.raise e : Db Chain).Ends respond s (returnsEnabled c o) :=
  fun _ h => nomatch h

theorem ends_ret_enabled {config : Option ProviderConfig} :
    (Prog.ret [(name, config)] : Db Chain).Ends respond s (returnsEnabled c o) ↔
      ¬ DisabledFor c o name := by
  constructor
  · exact fun h => h _ rfl _ (List.mem_singleton_self _)
  · rintro h chain ⟨⟩ entry hm
    rwa [List.mem_singleton.mp hm]

theorem returnsEnabled_error {e : Exc} : returnsEnabled c o (.error e) s := fun _ h => nomatch h

/-- **An explicit provider** is enabled unless the settings of the platform are overridden. -/
theorem ends_explicitChain : (explicitChain o name).Ends respond s (returnsEnabled s.view o) ↔
    ¬ OverridesDisabled s.view o name := by
  rw [explicitChain, ends_orgConfig, OverridesDisabled]
  rcases ho : orgConfigsOf s.view name o with _ | ⟨x, _ | ⟨y, ys⟩⟩
  · simp only [Option.any_none, Bool.false_eq_true, if_false]
    rw [ends_getConfig]
    rcases hp : configsOf s.view name none with _ | ⟨p, _ | ⟨p', ps⟩⟩
    · by_cases hname : name ∈ SUPPORTED_PROVIDERS
      · simp [hname, ends_ret_enabled, disabledFor_iff, ho, hp, Disables]
      · simp [hname, ends_raise_enabled, Disables]
    · cases henabled : p.enabled
      · by_cases hname : name ∈ SUPPORTED_PROVIDERS
        · simp [hname, henabled, ends_ret_enabled, disabledFor_iff, ho, hp, Disables,
            Allows]
        · simp [hname, henabled, ends_raise_enabled]
      · simp [henabled, ends_ret_enabled, disabledFor_iff, ho, hp, Disables]
    · simp [returnsEnabled_error, Disables]
  · cases hx : x.enabled
    · simp [hx, ends_raise_enabled, Allows]
    · simp only [Option.any_some, hx, Bool.not_true, Bool.false_eq_true, if_false]
      rw [ends_getConfig]
      rcases hp : configsOf s.view name none with _ | ⟨p, _ | ⟨p', ps⟩⟩
      · simp [ends_ret_enabled, disabledFor_iff, ho, hp, hx, Disables]
      · simp [ends_ret_enabled, disabledFor_iff, ho, hp, hx, Disables, Allows]
      · simp [returnsEnabled_error, Disables]
  · simp [returnsEnabled_error, Allows]

/-- A provider of a policy is left out, or both levels allow it, or the lookup raises. -/
theorem ends_bothConfigs {α : Type} {Φ : Except Exc α → Session Row World → Prop} {skip : Db α}
    {keep : Option ProviderConfig → Option ProviderConfig → Db α}
    (hskip : Skipped s.view o name → skip.Ends respond s Φ)
    (hkeep : ∀ org platform, Allows (orgConfigsOf s.view name o) → Allows (configsOf s.view name none) →
      (keep org platform).Ends respond s Φ)
    (herror : ¬ Skipped s.view o name → Φ (.error .multipleResultsFound) s) :
    (orgConfig o name >>= fun org =>
      if org.any fun c => !c.enabled then skip
      else ProviderConfigRepository.getConfig name none >>= fun platform =>
        if platform.any fun c => !c.enabled then skip else keep org platform).Ends respond s Φ := by
  have hplatform : Allows (orgConfigsOf s.view name o) → ∀ org,
      (ProviderConfigRepository.getConfig name none >>= fun platform =>
        if platform.any fun c => !c.enabled then skip else keep org platform).Ends respond s Φ := by
    intro ho org
    rw [ends_getConfig]
    rcases hp : configsOf s.view name none with _ | ⟨p, _ | ⟨p', ps⟩⟩
    · exact hkeep _ _ ho (.inl hp)
    · cases henabled : p.enabled
      · simp only [Option.any_some, henabled, Bool.not_false, if_true]
        exact hskip (.inr ⟨ho, p, hp, henabled⟩)
      · simp only [Option.any_some, henabled, Bool.not_true, Bool.false_eq_true, if_false]
        exact hkeep _ _ ho (.inr ⟨p, hp, henabled⟩)
    · refine herror ?_
      rintro (h | ⟨-, h⟩)
      · exact not_disables_of_allows ho h
      · simp [Disables, hp] at h
  rw [ends_orgConfig]
  rcases ho : orgConfigsOf s.view name o with _ | ⟨x, _ | ⟨y, ys⟩⟩
  · exact hplatform (.inl ho) none
  · cases hx : x.enabled
    · simp only [Option.any_some, hx, Bool.not_false, if_true]
      exact hskip (.inl ⟨x, ho, hx⟩)
    · simp only [Option.any_some, hx, Bool.not_true, Bool.false_eq_true, if_false]
      exact hplatform (.inr ⟨x, ho, hx⟩) (some x)
  · exact herror (by simp [Skipped, Disables, Allows, ho])

/-- What `policyChain` returns: providers that both levels allow, or nothing, if every name is blank,
seen before or left out. -/
def policyEnds (env : Env) (c : Database) (o : Option UUID) (seen names : List String) :
    Except Exc Chain → Session Row World → Prop :=
  fun r s => returnsEnabled c o r s ∧ (r = .ok [] ↔ ∀ n ∈ names, providerKey env n = "" ∨
    providerKey env n ∈ seen ∨ Skipped c o (providerKey env n))

/-- A name that adds nothing to the chain. -/
theorem policyEnds_cons {seen seen' names : List String} {n : String} {r : Except Exc Chain}
    (h : policyEnds env c o seen' names r s)
    (hn : providerKey env n = "" ∨ providerKey env n ∈ seen ∨ Skipped c o (providerKey env n))
    (hseen : ∀ n', n' ∈ seen' ∨ Skipped c o n' ↔ n' ∈ seen ∨ Skipped c o n') :
    policyEnds env c o seen (n :: names) r s := by
  refine ⟨h.1, h.2.trans ?_⟩
  simp only [List.forall_mem_cons, hseen, hn, true_and]

/-- **The chain of a policy** has no disabled provider in it. -/
theorem ends_policyChain : ∀ (names seen : List String),
    (policyChain env o seen names).Ends respond s (policyEnds env s.view o seen names)
  | [], _ => by
    refine ⟨?_, fun _ _ hn => (nomatch hn), fun _ => rfl⟩
    rintro chain ⟨⟩ entry hm
    cases hm
  | n :: names, seen => by
    rw [policyChain]
    by_cases hskip : providerKey env n = "" ∨ providerKey env n ∈ seen
    · rw [if_pos hskip]
      refine (ends_policyChain names seen).mono fun r s' h => policyEnds_cons h ?_ fun _ => Iff.rfl
      exact hskip.imp_right .inl
    · rw [if_neg hskip]
      -- a provider that is not left out makes the chain nonempty, or its lookup has raised
      have hnone : ¬ Skipped s.view o (providerKey env n) → ¬ ∀ n' ∈ n :: names, providerKey env n' = "" ∨
          providerKey env n' ∈ seen ∨ Skipped s.view o (providerKey env n') := fun hs h => by
        rcases h n List.mem_cons_self with h | h | h
        · exact hskip (.inl h)
        · exact hskip (.inr h)
        · exact hs h
      refine ends_bothConfigs (fun hs => ?_) (fun org platform ho hp => ?_) fun hs => ?_
      · refine (ends_policyChain names _).mono fun r s' h =>
          policyEnds_cons h (.inr (.inr hs)) fun n' => ?_
        rw [List.mem_cons, or_assoc, or_iff_right_iff_imp]
        rintro rfl
        exact .inr hs
      · have hnone := hnone (not_skipped ho hp)
        refine (ends_policyChain names (providerKey env n :: seen)).bind (fun rest s' h => ?_)
          fun e s' h => ?_
        · refine ⟨?_, fun h => (nomatch h), fun h => absurd h hnone⟩
          rintro chain ⟨⟩ entry hm
          rcases List.mem_cons.mp hm with rfl | hm
          · exact not_disabledFor ho hp
          · exact h.1 rest rfl entry hm
        · exact ⟨returnsEnabled_error, fun h => (nomatch h), fun h => absurd h hnone⟩
      · exact ⟨returnsEnabled_error, fun h => (nomatch h), fun h => absurd h (hnone hs)⟩

/-! ## The chain of an operation -/

/-- **A chain has no disabled provider in it** unless the settings of the platform are overridden or
the default provider is used without its settings. -/
theorem chain_enabled_iff (env : Env) (operation : LLMOperation) (organizationId : Option UUID)
    (explicitProvider : Option String) (s : Session Row World) :
    (resolveProviderChain env operation organizationId explicitProvider).Ends respond s
        (fun r _ => ∀ chain, r = .ok chain →
          ∀ entry ∈ chain, ¬ DisabledFor s.view organizationId entry.1) ↔
      ObeysSettings env s.view operation organizationId explicitProvider := by
  change (resolveProviderChain _ _ _ _).Ends respond s (returnsEnabled s.view organizationId) ↔ _
  rw [resolveProviderChain, ObeysSettings]
  cases explicitProvider.filter (· ≠ "") with
  | some provider => exact ends_explicitChain
  | none =>
    simp only
    rw [ends_policyOf, UsesDefault]
    rcases hg : governing s.view operation organizationId with _ | ⟨p, _ | ⟨p', ps⟩⟩
    · simp only [true_or, true_imp_iff]
      exact ends_ret_enabled
    · simp only [List.cons_ne_nil, false_or, List.cons.injEq, and_true, exists_eq_left']
      refine Prog.ends_bind.trans ?_
      have hchain : (policyChain env organizationId [] (p.primaryProvider :: p.fallbackProviders)).Ends
          respond s (policyEnds env s.view organizationId [] _) := ends_policyChain _ _
      obtain ⟨henabled, hnone⟩ := hchain
      rw [Prog.Ends]
      simp only [List.not_mem_nil, false_or] at hnone
      rw [← hnone]
      rcases hr : (policyChain env organizationId [] _).exec respond s with ⟨e | resolved, s'⟩
      · simp [returnsEnabled_error]
      · rw [hr] at henabled
        cases resolved with
        | nil =>
          simp only [List.isEmpty_nil, if_true, true_imp_iff]
          exact ends_ret_enabled
        | cons entry chain =>
          exact iff_of_true henabled fun h => (by cases h)
    · simp [returnsEnabled_error]

/-- The platform has disabled a provider. -/
def disabledConfig : ProviderConfig :=
  ⟨1, none, "gemini", false, "gemini-1.5-pro", 60, 3, 100, 4096, "GEMINI_API_KEY", none, none, 0, 0⟩

def disabledSession : Session Row World :=
  ⟨⟨⟨[toRow disabledConfig], List.nodup_singleton _⟩, 2, World.trial 0⟩, []⟩

/-- The provider that the platform has disabled is asked for by name. -/
theorem chain_enabled_not : ¬ ∀ (env : Env) (operation : LLMOperation) (organizationId : Option UUID)
    (explicitProvider : Option String) (s : Session Row World),
    (resolveProviderChain env operation organizationId explicitProvider).Ends respond s
      fun r _ => ∀ chain, r = .ok chain →
        ∀ entry ∈ chain, ¬ DisabledFor s.view organizationId entry.1 := fun h =>
  h .trial .chat none (some "gemini") disabledSession [("gemini", some disabledConfig)] (by rfl) _
    (List.mem_singleton_self _) ⟨disabledConfig, List.mem_singleton_self _, rfl, rfl, .inl rfl⟩

end Chains

end DevOps
