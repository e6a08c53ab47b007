import DevOpsAssistant.Artifacts.TagScopes
import DevOpsAssistant.Policies.Versions
import DevOpsAssistant.Services.PolicyEngine

/-!
# The configurations of stored rules

The column `configuration_json` holds what the model of the rule's key has dumped.

* `RuleConfiguration.toJson`: the dump; **`validate_toJson`**: it validates again, to itself.
* `PolicyEngine.evaluateStored`: `evaluate_rule` on the column as it is stored, which may raise.
* **`evaluateStored_of_valid`**: it does not, on a column that validates; `evaluateStored_toJson`.
* `RulesStored`: every stored rule validates; `ends_addRule`, `ends_updateRule`, `ends_deleteRule`.
* **`stored_rules_evaluate`**: every rule that serial requests have stored evaluates.
-/

namespace DevOps

open Txn

/-! ## Dumps -/

/-- A list of a dump; it is there when it has items. -/
def dumpedList (field : String) (texts : List String) : List (String × Yaml) :=
  if texts.isEmpty then [] else [(field, .seq (texts.map .str))]

/-- `model_dump`. -/
def RuleConfiguration.toJson (c : RuleConfiguration) : List (String × Yaml) :=
  dumpedList "registries" c.registries ++ dumpedList "labels" c.labels

theorem strings_map_str (texts : List String) : strings (texts.map .str) = some texts := by
  induction texts with
  | nil => rfl
  | cons s texts ih => simp [strings, ih]

theorem eq_map_str_of_strings : ∀ {items : List Yaml} {texts : List String},
    strings items = some texts → items = texts.map .str
  | [], texts, h => by
    cases h
    rfl
  | .str s :: items, texts, h => by
    rw [strings, Option.map_eq_some_iff] at h
    obtain ⟨rest, hrest, rfl⟩ := h
    rw [List.map_cons, ← eq_map_str_of_strings hrest]
  | .null :: _, _, h | .bool _ :: _, _, h | .int _ :: _, _, h | .seq _ :: _, _, h
  | .map _ :: _, _, h | .other :: _, _, h => nomatch h

section Validation

variable {env : Env}

/-- What a list field accepts: the field alone, with a list of texts. -/
theorem listConfiguration_eq_some {field : String} {configuration : List (String × Yaml)}
    {cleaned : List String} (h : listConfiguration env field configuration = some cleaned) :
    ∃ texts : List String, configuration = [(field, .seq (texts.map .str))] ∧ cleaned ≠ [] ∧
      cleaned = (texts.filter fun item => env.strip item ≠ "").map env.strip := by
  unfold listConfiguration at h
  split at h
  · next name items =>
    split at h
    · next hname =>
      split at h
      · cases h
      · next texts htexts =>
        simp only at h
        split at h
        · cases h
        · next hne =>
          cases h
          refine ⟨texts, by rw [hname, eq_map_str_of_strings htexts], ?_, rfl⟩
          simpa using hne
    · cases h
  · cases h

/-- A list that has been cleaned stays as it is. -/
theorem listConfiguration_cleaned (hstrip : ∀ s, env.strip (env.strip s) = env.strip s)
    {field : String} {texts cleaned : List String} (hne : cleaned ≠ [])
    (hc : cleaned = (texts.filter fun item => env.strip item ≠ "").map env.strip) :
    listConfiguration env field (dumpedList field cleaned) = some cleaned := by
  have hmem : ∀ t ∈ cleaned, env.strip t = t ∧ t ≠ "" := by
    intro t ht
    rw [hc, List.mem_map] at ht
    obtain ⟨item, hitem, rfl⟩ := ht
    exact ⟨hstrip item, by simpa using (List.mem_filter.mp hitem).2⟩
  have hfilter : (cleaned.filter fun item => env.strip item ≠ "") = cleaned := by
    refine List.filter_eq_self.mpr fun t ht => ?_
    rw [(hmem t ht).1]
    exact decide_eq_true (hmem t ht).2
  have hmap : cleaned.map env.strip = cleaned := by
    conv_rhs => rw [← List.map_id cleaned]
    exact List.map_congr_left fun t ht => (hmem t ht).1
  have hempty : cleaned.isEmpty = false := by simpa using hne
  unfold listConfiguration dumpedList
  simp only [hempty, Bool.false_eq_true, if_false, if_true, strings_map_str, hfilter, hmap]

/-- What a list validator has returned. -/
theorem listConfiguration_dump (hstrip : ∀ s, env.strip (env.strip s) = env.strip s)
    {field : String} {configuration : List (String × Yaml)} {cleaned : List String}
    (h : listConfiguration env field configuration = some cleaned) :
    listConfiguration env field (dumpedList field cleaned) = some cleaned := by
  obtain ⟨texts, -, hne, hc⟩ := listConfiguration_eq_some h
  exact listConfiguration_cleaned hstrip hne hc

/-- **A dump validates again**, to itself. -/
theorem validate_toJson (hstrip : ∀ s, env.strip (env.strip s) = env.strip s) {ruleKey : String}
    {configuration : List (String × Yaml)} {c : RuleConfiguration}
    (h : validateRuleConfiguration env ruleKey configuration = .ok c) :
    validateRuleConfiguration env ruleKey c.toJson = .ok c := by
  unfold validateRuleConfiguration at h ⊢
  by_cases hkey : ruleKey ∉ SUPPORTED_RULE_KEYS
  · rw [if_pos hkey] at h
    cases h
  · rw [if_neg hkey] at h ⊢
    simp only at h ⊢
    by_cases hregistries : ruleKey = "allowed_container_registries"
    · simp only [hregistries, if_true] at h ⊢
      cases hl : listConfiguration env "registries" configuration with
      | none => simp [hl] at h
      | some registries =>
        simp only [hl, Option.map_some, Except.ok.injEq] at h
        subst h
        have hjson : (⟨registries, []⟩ : RuleConfiguration).toJson =
            dumpedList "registries" registries := List.append_nil _
        rw [hjson, listConfiguration_dump hstrip hl]
        rfl
    · by_cases hlabels : ruleKey = "required_kubernetes_labels"
      · simp only [hlabels, if_neg (by decide : ¬ "required_kubernetes_labels" =
          "allowed_container_registries"), if_true] at h ⊢
        cases hl : listConfiguration env "labels" configuration with
        | none => simp [hl] at h
        | some labels =>
          simp only [hl, Option.map_some, Except.ok.injEq] at h
          subst h
          have hjson : (⟨[], labels⟩ : RuleConfiguration).toJson = dumpedList "labels" labels := rfl
          rw [hjson, listConfiguration_dump hstrip hl]
          rfl
      · simp only [if_neg hregistries, if_neg hlabels] at h ⊢
        unfold emptyRuleConfiguration at h
        split at h
        · next c' hc' =>
          cases h
        · next c' hc' =>
          cases h
          split at hc'
          · cases hc'
            rfl
          · cases hc'

end Validation

/-! ## Evaluation of the column -/

namespace PolicyEngine

variable (env : Env)

/-- The items of `config.get(field) or []`. -/
def configItems (configuration : List (String × Yaml)) (field : String) : Except Exc (List Yaml) :=
  match configuration.lookup field with
  | none | some .null | some (.bool false) | some (.int 0) => .ok []
  | some (.str s) => .ok (s.toList.map fun c => .str (String.singleton c))
  | some (.seq items) => .ok items
  | some (.map entries) => .ok (entries.map fun e => .str e.1)
  | some _ => .error (.other "TypeError")

/-- `any(image_ref.startswith(registry) for registry in registries)`. -/
def startsWithAny (imageRef : List Char) : List Yaml → Except Exc Bool
  | [] => .ok false
  | .str registry :: registries =>
    if registry.toList.isPrefixOf imageRef then .ok true else startsWithAny imageRef registries
  | _ :: _ => .error (.other "TypeError")

/-- The check of `allowed_container_registries`, of one image. -/
def storedRegistryFindings (rule : PolicyRule) (configuration : List (String × Yaml))
    (content : String) (policyPackId : UUID) (m : Regex.Match) : Except Exc (List PolicyFinding) := do
  let imageRef := m.group 2
  let allowed ← startsWithAny imageRef (← configItems configuration "registries")
  return findingIf (!allowed)
    (finding rule policyPackId "Disallowed container registry"
      ("Image reference '" ++ String.ofList imageRef ++ "' is not in the allow list.")
      none (some (lineOf content m.startIndex)))

/-- The check of `required_kubernetes_labels`, of one label: `re.escape` takes a text. -/
def storedLabelFindings (rule : PolicyRule) (content : String) (policyPackId : UUID) :
    Yaml → Except Exc (List PolicyFinding)
  | .str label => .ok (findingIf (!found (labelLine env label) content)
      (finding rule policyPackId "Required Kubernetes label missing"
        ("Required label '" ++ label ++ "' was not found.")))
  | _ => .error (.other "TypeError")

/-- `evaluate_rule`, with the column `configuration_json` as it is stored. -/
def evaluateStored (rule : PolicyRule) (configuration : List (String × Yaml))
    (configType content : String) (policyPackId : UUID) : Except Exc (List PolicyFinding) :=
  if !rule.isEnabled || !matchesResource rule configType then .ok []
  else if rule.ruleKey = "allowed_container_registries" then do
    let findings ← ((imageReference env).findIter content.toList).mapM
      (storedRegistryFindings rule configuration content policyPackId)
    return findings.flatten
  else if rule.ruleKey = "required_kubernetes_labels" then
    if configType ≠ "kubernetes" then .ok []
    else do
      let findings ← (← configItems configuration "labels").mapM
        (storedLabelFindings env rule content policyPackId)
      return findings.flatten
  else .ok (ruleFindings env rule configType content policyPackId)

variable {env} {rule : PolicyRule} {configuration : List (String × Yaml)}
  {configType content : String} {policyPackId : UUID}

theorem startsWithAny_map_str (imageRef : List Char) (registries : List String) :
    startsWithAny imageRef (registries.map .str) =
      .ok (registries.any fun registry => registry.toList.isPrefixOf imageRef) := by
  induction registries with
  | nil => rfl
  | cons registry registries ih =>
    rw [List.map_cons, startsWithAny, ih, List.any_cons]
    cases registry.toList.isPrefixOf imageRef <;> rfl

theorem mapM_ok {α β : Type} {f : α → Except Exc β} {g : α → β} (h : ∀ a, f a = .ok (g a)) :
    ∀ as : List α, as.mapM f = .ok (as.map g)
  | [] => rfl
  | a :: as => by
    rw [List.mapM_cons, h a, mapM_ok h as]
    rfl

theorem mapM_map_ok {α β γ : Type} {k : α → γ} {f : γ → Except Exc β} {g : α → β}
    (h : ∀ a, f (k a) = .ok (g a)) (as : List α) : (as.map k).mapM f = .ok (as.map g) := by
  rw [List.mapM_map]
  exact mapM_ok (f := f ∘ k) h as

/-- The registries of a rule are read from the column. -/
theorem storedRegistryFindings_eq {m : Regex.Match} {registries : List String}
    (h : configItems configuration "registries" = .ok (registries.map .str)) :
    storedRegistryFindings rule configuration content policyPackId m =
      .ok (findingIf (!registries.any fun registry => registry.toList.isPrefixOf (m.group 2))
        (finding rule policyPackId "Disallowed container registry"
          ("Image reference '" ++ String.ofList (m.group 2) ++ "' is not in the allow list.")
          none (some (lineOf content m.startIndex)))) := by
  unfold storedRegistryFindings
  rw [h]
  change startsWithAny (m.group 2) (registries.map .str) >>= _ = _
  rw [startsWithAny_map_str]
  rfl

theorem storedLabelFindings_str (label : String) :
    storedLabelFindings env rule content policyPackId (.str label) =
      .ok (findingIf (!found (labelLine env label) content)
        (finding rule policyPackId "Required Kubernetes label missing"
          ("Required label '" ++ label ++ "' was not found."))) := rfl

theorem ruleFindings_registries (h : rule.ruleKey = "allowed_container_registries") :
    ruleFindings env rule configType content policyPackId =
      registryFindings env rule content policyPackId := by
  unfold ruleFindings
  simp only [h]

theorem ruleFindings_labels (h : rule.ruleKey = "required_kubernetes_labels") :
    ruleFindings env rule configType content policyPackId =
      if configType ≠ "kubernetes" then []
      else rule.configurationJson.labels.flatMap fun label =>
        findingIf (!found (labelLine env label) content)
          (finding rule policyPackId "Required Kubernetes label missing"
            ("Required label '" ++ label ++ "' was not found.")) := by
  unfold ruleFindings
  simp only [h]

/-- The other checks do not read the configuration. -/
theorem ruleFindings_configuration (hr : rule.ruleKey ≠ "allowed_container_registries")
    (hl : rule.ruleKey ≠ "required_kubernetes_labels") (c : RuleConfiguration) :
    ruleFindings env { rule with configurationJson := c } configType content policyPackId =
      ruleFindings env rule configType content policyPackId := by
  unfold ruleFindings
  simp only
  split <;> first | rfl | contradiction

/-- **The column reads like the configuration** whose lists it holds. -/
theorem evaluateStored_eq (c : RuleConfiguration)
    (hr : rule.ruleKey = "allowed_container_registries" →
      configItems configuration "registries" = .ok (c.registries.map .str))
    (hl : rule.ruleKey = "required_kubernetes_labels" →
      configItems configuration "labels" = .ok (c.labels.map .str)) :
    evaluateStored env rule configuration configType content policyPackId =
      .ok (evaluateRule env { rule with configurationJson := c } configType content policyPackId) := by
  have hconfigured : evaluateRule env { rule with configurationJson := c } configType content
      policyPackId = if !rule.isEnabled || !matchesResource rule configType then []
        else ruleFindings env { rule with configurationJson := c } configType content policyPackId := rfl
  rw [hconfigured, evaluateStored]
  split
  · rfl
  by_cases hregistries : rule.ruleKey = "allowed_container_registries"
  · have hfindings : ruleFindings env { rule with configurationJson := c } configType content
        policyPackId = _ := ruleFindings_registries hregistries
    rw [if_pos hregistries, mapM_ok fun m => storedRegistryFindings_eq (hr hregistries), hfindings,
      registryFindings, List.flatMap_def]
    rfl
  rw [if_neg hregistries]
  by_cases hlabels : rule.ruleKey = "required_kubernetes_labels"
  · have hfindings : ruleFindings env { rule with configurationJson := c } configType content
        policyPackId = _ := ruleFindings_labels hlabels
    rw [if_pos hlabels, hfindings]
    split
    · rfl
    · rw [hl hlabels]
      change (c.labels.map .str).mapM (storedLabelFindings env rule content policyPackId) >>= _ = _
      rw [mapM_map_ok storedLabelFindings_str, List.flatMap_def]
      rfl
  · rw [if_neg hlabels, ← ruleFindings_configuration hregistries hlabels c]

theorem configItems_toJson (c : RuleConfiguration) :
    configItems c.toJson "registries" = .ok (c.registries.map .str) ∧
      configItems c.toJson "labels" = .ok (c.labels.map .str) := by
  obtain ⟨registries, labels⟩ := c
  cases registries <;> cases labels <;>
    simp [RuleConfiguration.toJson, dumpedList, configItems, List.lookup_cons]

/-- **A rule evaluates its own dump** as it evaluates itself. -/
theorem evaluateStored_toJson :
    evaluateStored env rule rule.configurationJson.toJson configType content policyPackId =
      .ok (evaluateRule env rule configType content policyPackId) :=
  evaluateStored_eq rule.configurationJson (fun _ => (configItems_toJson _).1)
    fun _ => (configItems_toJson _).2

/-- **A column that validates is evaluated** without an exception. -/
theorem evaluateStored_of_valid {validated : RuleConfiguration}
    (h : validateRuleConfiguration env rule.ruleKey configuration = .ok validated) :
    ∃ findings, evaluateStored env rule configuration configType content policyPackId =
      .ok findings := by
  have hread : ∀ field, (∃ cleaned, listConfiguration env field configuration = some cleaned) →
      ∃ texts : List String, configItems configuration field = .ok (texts.map .str) := by
    rintro field ⟨cleaned, hc⟩
    obtain ⟨texts, rfl, -⟩ := listConfiguration_eq_some hc
    exact ⟨texts, by simp [configItems]⟩
  unfold validateRuleConfiguration at h
  by_cases hkey : rule.ruleKey ∉ SUPPORTED_RULE_KEYS
  · rw [if_pos hkey] at h
    cases h
  rw [if_neg hkey] at h
  by_cases hregistries : rule.ruleKey = "allowed_container_registries"
  · obtain ⟨texts, ht⟩ := hread "registries" (by
      cases hc : listConfiguration env "registries" configuration with
      | none => simp [hregistries, hc] at h
      | some cleaned => exact ⟨cleaned, rfl⟩)
    exact ⟨_, evaluateStored_eq ⟨texts, []⟩ (fun _ => ht) fun hl => by simp [hregistries] at hl⟩
  · by_cases hlabels : rule.ruleKey = "required_kubernetes_labels"
    · obtain ⟨texts, ht⟩ := hread "labels" (by
        cases hc : listConfiguration env "labels" configuration with
        | none => simp [hlabels, hc] at h
        | some cleaned => exact ⟨cleaned, rfl⟩)
      exact ⟨_, evaluateStored_eq ⟨[], texts⟩ (fun hr => absurd hr hregistries) fun _ => ht⟩
    · exact ⟨_, evaluateStored_eq ⟨[], []⟩ (fun hr => absurd hr hregistries)
        fun hl => absurd hl hlabels⟩

end PolicyEngine

/-! ## Stored rules -/

/-- The configuration of the rule, as it is stored, validates to itself. -/
def PolicyRule.Stored (env : Env) (r : PolicyRule) : Prop :=
  validateRuleConfiguration env r.ruleKey r.configurationJson.toJson = .ok r.configurationJson

/-- Every stored rule validates. -/
def RulesStored (env : Env) (db : Database) : Prop := ∀ r ∈ rowsOf PolicyRule db, r.Stored env

/-- The rules for statements on other tables. -/
abbrev besideRules : Rules := outside (· = .policyRules) False

theorem allowsSideEffects_besideRules : AllowsSideEffects besideRules := by
  constructor <;> intros <;> exact nofun

section Requests

variable {env : Env} {s : Session Row World}

/-- **A program on other tables** leaves the rules as they are. -/
theorem ends_besideRules {α : Type} {P : α → Prop} {p : Db α}
    (hp : p.Only (Writes besideRules) P) (h : RulesStored env s.view) :
    p.Ends respond s fun _ s' => RulesStored env s'.view :=
  fun r hr => h r (((unchanged_of_only hp s).mem rfl).mp hr)

/-- A rule is stored that validates. -/
theorem RulesStored.append {r : PolicyRule} (h : RulesStored env s.view) (hr : r.Stored env) :
    RulesStored env (s.append [.store (toRow r)]).view := by
  intro x hx
  rcases mem_rowsOf_append_store.mp hx with rfl | ⟨hx, -⟩
  · exact hr
  · exact h x hx

/-- Rules are deleted. -/
theorem RulesStored.delete (rs : List PolicyRule) {db : Database} (h : RulesStored env db) :
    RulesStored env (db.apply (rs.map fun r => .delete (keyOf r))) := by
  induction rs generalizing db with
  | nil => exact h
  | cons r rs ih => exact ih fun x hx => h x (mem_rowsOf_delete.mp hx).1

/-- The permission check, and the pack with rules that are stored. -/
theorem ends_managedPack (user : User) (o id : UUID) :
    (PolicyService.managedPack user o id).Ends respond s
      (unchanged s fun found => ∀ r ∈ found.2, r ∈ rowsOf PolicyRule s.view) := by
  unfold PolicyService.managedPack PolicyRepository.getPack
  refine ends_unchanged_bind (ends_requirePermission _ _ _) fun _ _ => ?_
  simp only [bind_assoc]
  rw [← bind_assoc]
  refine ends_unchanged_bind (ends_unchanged_selectOne _) fun found _ => ?_
  cases found with
  | none => exact ends_unchanged_throw
  | some pack =>
    simp only [bind_assoc]
    refine ends_unchanged_bind (ends_unchanged_selectOf _) fun rules hrules => ?_
    subst hrules
    exact ends_unchanged_pure fun r hr => List.mem_of_mem_filter hr

/-- A rule that is found is stored. -/
theorem ends_getRule {policyPackId ruleId : UUID} {held : List PolicyRule}
    (hheld : ∀ r ∈ held, r ∈ rowsOf PolicyRule s.view) :
    (PolicyRepository.getRule policyPackId ruleId held).Ends respond s
      (unchanged s fun found => ∀ r, found = some r → r ∈ rowsOf PolicyRule s.view) := by
  unfold PolicyRepository.getRule
  rw [← bind_assoc]
  refine ends_unchanged_bind (ends_unchanged_selectOne _) fun found hfound => ?_
  refine ends_unchanged_pure fun r hr => ?_
  cases found with
  | none => cases hr
  | some row =>
    cases hr
    unfold identityMapped
    cases hfind : held.find? fun t => Entity.id t = Entity.id row with
    | none => exact hfound.1
    | some t => exact hheld t (List.mem_of_find?_eq_some hfind)

/-! ## Requests -/

/-- A part of a request that keeps the rules valid. -/
def KeepsRules (env : Env) {α : Type} (p : Db α) : Prop :=
  ∀ s : Session Row World, RulesStored env s.view →
    p.Ends respond s (Prog.onOk fun _ s' => RulesStored env s'.view)

theorem keepsRules_of_only {α : Type} {P : α → Prop} {p : Db α}
    (hp : p.Only (Writes besideRules) P) : KeepsRules env p :=
  fun _ h => (ends_besideRules hp h).mono fun _ _ h' _ _ => h'

theorem keepsRules_bind {α β : Type} {p : Db α} {g : α → Db β} (hp : KeepsRules env p)
    (hg : ∀ a, KeepsRules env (g a)) : KeepsRules env (p >>= g) :=
  fun s h => Prog.Ends.bind_ok (hp s h) fun a s' h' => hg a s' h'

theorem keepsRules_throw {α : Type} {e : Exc} : KeepsRules env (throw e : Db α) :=
  fun _ _ _ h => nomatch h

theorem keepsRules_orRaise {α β : Type} {r : Except Exc α} {g : α → Db β}
    (hg : ∀ a, r = .ok a → KeepsRules env (g a)) : KeepsRules env (orRaise r >>= g) := by
  cases r with
  | error e => exact keepsRules_throw
  | ok a => exact hg a rfl

/-- What follows a part that leaves its session as it was. -/
theorem keepsRules_unchanged {α β : Type} {Φ : Session Row World → α → Prop} {p : Db α}
    {g : α → Db β} (hp : ∀ s, p.Ends respond s (unchanged s (Φ s)))
    (hg : ∀ s a, RulesStored env s.view → Φ s a →
      (g a).Ends respond s (Prog.onOk fun _ s' => RulesStored env s'.view)) :
    KeepsRules env (p >>= g) := by
  intro s h
  refine Prog.Ends.bind (hp s) (fun a s' hs => ?_) fun _ _ _ _ h => nomatch h
  obtain ⟨rfl, ha⟩ := hs
  exact hg s' a h (ha a rfl)

/-- The audit trail and the response. -/
theorem only_recorded {α : Type} (action : String) (actor o : Option UUID) (kind : String)
    (id : Option UUID) (response : α) :
    (AuditService.recordEventOrFail action actor o kind id >>= fun _ => pure response).Only
      (Writes besideRules) fun _ => True :=
  only_bind (only_recordEventOrFail allowsSideEffects_besideRules _ _ _ _ _) fun _ => only_pure _

/-- The bump of a pack, and what follows it. -/
theorem keepsRules_bump {α : Type} (pack : PolicyPack) (changes : PolicyRepository.PackChanges)
    {rest : PolicyPack → Db α} (hr : ∀ p, (rest p).Only (Writes besideRules) fun _ => True) :
    KeepsRules env (PolicyRepository.updatePack pack changes >>= rest) := by
  refine keepsRules_of_only (P := fun _ => True) (only_bind (only_updatePack ?_ pack changes) hr)
  intro p p'
  exact nofun

theorem keepsRules_createPack (user : User) (o : UUID) (payload : PolicyPackCreateRequest) :
    KeepsRules env (PolicyService.createPack user o payload) := by
  refine keepsRules_of_only (P := fun _ => True) (only_bind (only_requirePermission _ _ _) fun _ =>
    only_bind (P := fun _ => True) ?_ fun pack => only_recorded _ _ _ _ _ _)
  exact only_bind only_uuid4 fun _ => only_bind only_now fun _ => only_bind only_now fun _ =>
    only_bind (only_insertOf _ _ (by exact nofun)) fun _ => only_pure _

theorem keepsRules_updatePack (user : User) (o id : UUID) (payload : PolicyPackUpdateRequest) :
    KeepsRules env (PolicyService.updatePack user o id payload) :=
  keepsRules_bind (keepsRules_of_only (only_managedPack _ _ _)) fun (pack, _) =>
    keepsRules_bump pack _ fun _ => only_recorded _ _ _ _ _ _

/-- **A rule that is added** has the configuration its model has dumped. -/
theorem keepsRules_createRule (hstrip : ∀ s, env.strip (env.strip s) = env.strip s) (packId : UUID)
    {fields : PolicyRepository.RuleFields} {configuration : List (String × Yaml)}
    (hc : validateRuleConfiguration env fields.ruleKey configuration = .ok fields.configurationJson) :
    KeepsRules env (PolicyRepository.createRule packId fields) := by
  intro s h
  refine ends_uuid4.mpr (ends_now.mpr (ends_now.mpr ?_))
  refine Prog.Ends.bind (ends_insert _ _) (fun _ s' hs => ?_) fun _ _ _ _ h => nomatch h
  obtain ⟨-, rfl, -⟩ | ⟨he, -⟩ := hs
  · exact ends_onOk_pure (h.append (validate_toJson hstrip hc))
  · cases he

theorem keepsRules_addRule (hstrip : ∀ s, env.strip (env.strip s) = env.strip s) (user : User)
    (o id : UUID) (payload : PolicyRuleCreateRequest env) :
    KeepsRules env (PolicyService.addRule env user o id payload) := by
  refine keepsRules_bind (keepsRules_of_only (only_managedPack _ _ _)) fun (pack, _) => ?_
  refine keepsRules_orRaise fun configuration hc => ?_
  exact keepsRules_bind (keepsRules_createRule hstrip pack.id hc) fun rule =>
    keepsRules_bump pack _ fun _ => only_recorded _ _ _ _ _ _

/-- **A rule that is changed** has the configuration it had, or one its model has dumped. -/
theorem ends_updateRule (hstrip : ∀ s, env.strip (env.strip s) = env.strip s) {rule : PolicyRule}
    (h : RulesStored env s.view) (hrule : rule ∈ rowsOf PolicyRule s.view)
    {changes : PolicyRepository.RuleChanges} {configuration : Option (List (String × Yaml))}
    (hc : PolicyService.updatedConfiguration env rule configuration = .ok changes.configurationJson) :
    (PolicyRepository.updateRule rule changes).Ends respond s
      (Prog.onOk fun _ s' => RulesStored env s'.view) := by
  refine ends_now.mpr ((ends_update rule.id _ _).mono fun r s' hs a ha => ?_)
  obtain ⟨row, hrow, hid, -, rfl⟩ | ⟨-, rfl⟩ := hs
  · have hsame : row = rule := entity_ext hrow hrule hid
    subst hsame
    refine RulesStored.append h ?_
    unfold PolicyRule.Stored PolicyRepository.RuleChanges.flush
    simp only [flushed_current]
    cases configuration with
    | none =>
      have hnone : changes.configurationJson = none := (Except.ok.inj hc).symm
      rw [hnone]
      exact h row hrow
    | some json =>
      change (validateRuleConfiguration env row.ruleKey json).map some = _ at hc
      cases hv : validateRuleConfiguration env row.ruleKey json with
      | error e =>
        rw [hv] at hc
        cases hc
      | ok c =>
        rw [hv] at hc
        have hsome : changes.configurationJson = some c := (Except.ok.inj hc).symm
        rw [hsome]
        exact validate_toJson hstrip hv
  · cases ha

/-- **A request on a rule** of a pack: the rule it finds is stored. -/
theorem ends_onRule {α : Type} {id ruleId : UUID} {held : List PolicyRule}
    {g : Option PolicyRule → Db α} (hheld : ∀ r ∈ held, r ∈ rowsOf PolicyRule s.view)
    (hnone : (g none).Ends respond s (Prog.onOk fun _ s' => RulesStored env s'.view))
    (hsome : ∀ rule ∈ rowsOf PolicyRule s.view,
      (g (some rule)).Ends respond s (Prog.onOk fun _ s' => RulesStored env s'.view)) :
    (PolicyRepository.getRule id ruleId held >>= g).Ends respond s
      (Prog.onOk fun _ s' => RulesStored env s'.view) := by
  refine Prog.Ends.bind (ends_getRule hheld) (fun found s' hs => ?_) fun _ _ _ _ h => nomatch h
  obtain ⟨rfl, hfound⟩ := hs
  cases found with
  | none => exact hnone
  | some rule => exact hsome rule (hfound _ rfl rule rfl)

theorem keepsRules_updateRule (hstrip : ∀ s, env.strip (env.strip s) = env.strip s) (user : User)
    (o id ruleId : UUID) (payload : PolicyRuleUpdateRequest) :
    KeepsRules env (PolicyService.updateRule env user o id ruleId payload) := by
  refine keepsRules_unchanged (fun s => ends_managedPack user o id) fun s (pack, rules) h hrules => ?_
  refine ends_onRule hrules (fun _ h => nomatch h) fun rule hrule => ?_
  have horRaise : ∀ {r : Except Exc (Option RuleConfiguration)}
      {g : Option RuleConfiguration → Db PolicyRuleResponse},
      (∀ a, r = .ok a → (g a).Ends respond s (Prog.onOk fun _ s' => RulesStored env s'.view)) →
      (orRaise r >>= g).Ends respond s (Prog.onOk fun _ s' => RulesStored env s'.view) := by
    intro r g hg
    cases r with
    | error e => exact fun _ h => nomatch h
    | ok a => exact hg a rfl
  refine horRaise fun c hc => ?_
  refine Prog.Ends.bind_ok (ends_updateRule hstrip h hrule hc) fun updated s' h' => ?_
  exact keepsRules_bump pack _ (fun _ => only_recorded _ _ _ _ _ _) s' h'

theorem keepsRules_deleteRule (user : User) (o id ruleId : UUID) :
    KeepsRules env (PolicyService.deleteRule user o id ruleId) := by
  refine keepsRules_unchanged (fun s => ends_managedPack user o id) fun s (pack, rules) h hrules => ?_
  refine ends_onRule hrules (fun _ h => nomatch h) fun rule hrule => ?_
  unfold PolicyRepository.deleteRule
  simp only [bind_assoc]
  refine ends_deleteOf.mpr ?_
  simp only [pure_bind]
  refine keepsRules_bump pack _ (fun _ => ?_) _ ?_
  · exact only_recordEventOrFail allowsSideEffects_besideRules _ _ _ _ _
  · rw [Session.view_append]
    exact h.delete _

/-- **Every request keeps the rules valid.** -/
theorem keepsRules_route (hstrip : ∀ s, env.strip (env.strip s) = env.strip s)
    (r : PolicyRequest env) : KeepsRules env r.route := by
  have huser : ∀ {access : RawToken} {β γ : Type} {service : User → Db β} {f : β → γ},
      (∀ user, KeepsRules env (service user)) →
      KeepsRules env (getCurrentUser env access >>= fun user => service user >>= fun a => pure (f a)) :=
    fun hs => keepsRules_bind (keepsRules_of_only (only_getCurrentUser env _)) fun user =>
      keepsRules_bind (hs user) fun _ => keepsRules_of_only (only_pure _)
  cases r with
  | createPack access o payload => exact huser fun user => keepsRules_createPack user o payload
  | change r =>
    cases r with
    | updatePack access o id payload => exact huser fun user => keepsRules_updatePack user o id payload
    | addRule access o id payload => exact huser fun user => keepsRules_addRule hstrip user o id payload
    | updateRule access o id ruleId payload =>
      exact huser fun user => keepsRules_updateRule hstrip user o id ruleId payload
    | deleteRule access o id ruleId => exact huser fun user => keepsRules_deleteRule user o id ruleId

end Requests

/-! ## Serial runs -/

theorem only_policyRequest {env : Env} {W : Rules} (hrules : AllowsPolicyRules W)
    (heffects : AllowsSideEffects W) (hi : ∀ p : PolicyPack, W.insert (toRow p))
    (hu : ∀ p p' : PolicyPack, W.update (toRow p) (toRow p')) (r : PolicyRequest env) :
    r.route.Only (Writes W) fun _ => True := by
  cases r with
  | createPack access o payload =>
    refine only_bind (only_getCurrentUser env access) fun user =>
      only_bind (P := fun _ => True) ?_ fun _ => only_pure _
    refine only_bind (only_requirePermission _ _ _) fun _ => only_bind (P := fun _ => True) ?_
      fun pack => only_bind (only_recordEventOrFail heffects _ _ _ _ _) fun _ => only_pure _
    exact only_bind only_uuid4 fun _ => only_bind only_now fun _ => only_bind only_now fun _ =>
      only_bind (only_insertOf _ _ (hi _)) fun _ => only_pure _
  | change r => exact only_policyRoute hrules heffects hu r

/-- **Rules stay valid** along serial runs. -/
theorem RulesStored.serveAll {env : Env} (hstrip : ∀ s, env.strip (env.strip s) = env.strip s)
    {s : State} (h : RulesStored env s.committed) (rs : List (PolicyRequest env)) :
    RulesStored env (s.serveAll respond PolicyRequest.serve rs).committed :=
  Store.serveAll_induction respond PolicyRequest.serve (P := fun s => RulesStored env s.committed)
    (fun s r hs => ends_getDb (only_policyRequest allowsPolicyRules_body
      allowsSideEffects_body (fun _ => trivial) (fun _ _ => trivial) r) hs (keepsRules_route hstrip r s.session hs)) h rs

/-- **Every stored rule evaluates.** After any serial run of requests on a database without rules, the
configuration of every rule validates against the model of its key, and evaluating the rule does not
raise, whatever the configuration file. -/
theorem stored_rules_evaluate (env : Env) (hstrip : ∀ s, env.strip (env.strip s) = env.strip s)
    (s : State) (hs : rowsOf PolicyRule s.committed = []) (rs : List (PolicyRequest env)) :
    ∀ rule ∈ rowsOf PolicyRule (s.serveAll respond PolicyRequest.serve rs).committed,
      validateRuleConfiguration env rule.ruleKey rule.configurationJson.toJson =
        .ok rule.configurationJson ∧
      ∀ configType content policyPackId, PolicyEngine.evaluateStored env rule
        rule.configurationJson.toJson configType content policyPackId =
          .ok (evaluateRule env rule configType content policyPackId) := by
  have hstored : RulesStored env s.committed := fun r hr => by
    rw [hs] at hr
    cases hr
  exact fun rule hrule => ⟨hstored.serveAll hstrip rs rule hrule,
    fun _ _ _ => PolicyEngine.evaluateStored_toJson⟩

/-- The owner adds a rule that allows one registry. -/
def allowRegistry : PolicyRequest .trial :=
  .change (.addRule (.jwt ⟨some 1, 1, .access, 3600, none⟩) 2 4
    { ruleKey := "allowed_container_registries", name := "Registries", description := "Known registries."
      resourceType := "general", severity := .high, remediation := none, isEnabled := true
      configuration := [("registries", .seq [.str "docker.io", .str ""])]
      ruleKeyLength := by decide, nameLength := by decide, descriptionLength := by decide
      resourceTypeKnown := by decide, configurationValid := by decide })

/-- The owner allows another registry. -/
def allowOther : PolicyRequest .trial :=
  .change (.updateRule (.jwt ⟨some 1, 1, .access, 3600, none⟩) 2 4 5
    { name := none, description := none, severity := none, remediation := none, isEnabled := none
      configuration := some [("registries", .seq [.str "quay.io"])], nameLength := nofun })

/-- A rule that is added and changed is stored without blank registries, and evaluates. -/
theorem stored_rules_evaluate_changed : ∃ rule ∈ rowsOf PolicyRule
    (packState.serveAll respond PolicyRequest.serve [allowRegistry, allowOther]).committed,
      rule.configurationJson = ⟨["quay.io"], []⟩ ∧
      PolicyEngine.evaluateStored .trial rule rule.configurationJson.toJson "dockerfile"
        "FROM docker.io/library/nginx" 4 =
          .ok (evaluateRule .trial rule "dockerfile" "FROM docker.io/library/nginx" 4) := by
  have hrun : ((rowsOf PolicyRule (packState.serveAll respond PolicyRequest.serve
      [allowRegistry, allowOther]).committed).any fun rule =>
        decide (rule.configurationJson = ⟨["quay.io"], []⟩)) = true := by decide
  obtain ⟨rule, hrule, hconfiguration⟩ := List.any_eq_true.mp hrun
  have h := stored_rules_evaluate .trial (fun _ => rfl) packState rfl [allowRegistry, allowOther] rule hrule
  exact ⟨rule, hrule, of_decide_eq_true hconfiguration, h.2 _ _ _⟩

end DevOps
