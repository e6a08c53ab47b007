import DevOpsAssistant.Services.PipelineGenerator
import DevOpsAssistant.Specs.Runs

/-!
# What the end of a generator does

* `unchanged`: the outcome of a program that leaves its session as it was.
* `activePacks`: the packs a request asks for, with their rules, or none.
* **`ends_evaluatePacks`**, **`ends_requestedFindings`**: the findings, from the rows the session sees.
* `ends_persist`: the findings a generator returns.
-/

namespace DevOps

open Txn

variable (env : Env) {s : Session Row World}

/-- The outcome of a program that leaves its session as it was. -/
def unchanged {α : Type} (s : Session Row World) (Φ : α → Prop) :
    Except Exc α → Session Row World → Prop :=
  fun r s' => s' = s ∧ ∀ a, r = .ok a → Φ a

theorem ends_unchanged_bind {α β : Type} {p : Db α} {g : α → Db β} {Φ : α → Prop} {Ψ : β → Prop}
    (hp : p.Ends respond s (unchanged s Φ))
    (hg : ∀ a, Φ a → (g a).Ends respond s (unchanged s Ψ)) :
    (p >>= g).Ends respond s (unchanged s Ψ) := by
  refine Prog.Ends.bind hp (fun a s' ⟨hs, ha⟩ => ?_) fun e s' ⟨hs, _⟩ => ⟨hs, fun _ h => nomatch h⟩
  rw [hs]
  exact hg a (ha a rfl)

theorem ends_unchanged_pure {α : Type} {Φ : α → Prop} {a : α} (ha : Φ a) :
    (pure a : Db α).Ends respond s (unchanged s Φ) :=
  ⟨rfl, fun b hb => by cases hb; exact ha⟩

theorem ends_unchanged_throw {α : Type} {Φ : α → Prop} {e : Exc} :
    (throw e : Db α).Ends respond s (unchanged s Φ) :=
  ⟨rfl, fun _ h => nomatch h⟩

theorem ends_unchanged_selectOf {T : Type} [Entity T] (p : T → Bool) :
    (selectOf p).Ends respond s (unchanged s fun ts => ts = (rowsOf T s.view).filter p) :=
  ⟨rfl, fun ts h => by cases h; exact rowsOf_filter p⟩

theorem ends_unchanged_scalarOneOrNone {T : Type} (ts : List T) :
    (scalarOneOrNone ts : Db (Option T)).Ends respond s (unchanged s fun _ => True) := by
  cases ts with
  | nil => exact ends_unchanged_pure trivial
  | cons t ts =>
    cases ts with
    | nil => exact ends_unchanged_pure trivial
    | cons u us => exact ends_unchanged_throw

/-- The row a query for one row has found. -/
def Found {T : Type} [Entity T] (db : Database) (p : T → Bool) : Option T → Prop
  | none => ∀ t ∈ rowsOf T db, ¬ p t = true
  | some t => t ∈ rowsOf T db ∧ p t = true

theorem ends_unchanged_selectOne {T : Type} [Entity T] (p : T → Bool) :
    (selectOf p >>= scalarOneOrNone).Ends respond s (unchanged s (Found s.view p)) := by
  refine ends_unchanged_bind (ends_unchanged_selectOf p) fun ts hts => ?_
  cases ts with
  | nil => exact ends_unchanged_pure (List.filter_eq_nil_iff.mp hts.symm)
  | cons t ts =>
    cases ts with
    | nil =>
      have ht : t ∈ (rowsOf T s.view).filter p := by rw [← hts]; exact List.mem_cons_self
      exact ends_unchanged_pure (List.mem_filter.mp ht)
    | cons u us => exact ends_unchanged_throw

theorem ends_requireMembership (organizationId userId : UUID) :
    (OrganizationAuthService.requireMembership organizationId userId).Ends respond s
      (unchanged s fun _ => True) := by
  have hone : ∀ {T α : Type} [Entity T] (p : T → Bool) {g : Option T → Db α},
      (∀ found, (g found).Ends respond s (unchanged s fun _ => True)) →
      ((selectOf p >>= scalarOneOrNone) >>= g).Ends respond s (unchanged s fun _ => True) := by
    intro T α _ p g hg
    exact ends_unchanged_bind (ends_unchanged_bind (ends_unchanged_selectOf p) fun ts _ =>
      ends_unchanged_scalarOneOrNone ts) fun found _ => hg found
  have horg : (OrganizationAuthService.getActiveOrganization organizationId).Ends respond s
      (unchanged s fun _ => True) := by
    refine hone (activeOrganization organizationId) fun found => ?_
    cases found with
    | none => exact ends_unchanged_throw
    | some org => exact ends_unchanged_pure trivial
  refine ends_unchanged_bind horg fun org _ => ?_
  refine hone (memberOf organizationId userId) fun found => ?_
  cases found with
  | none => exact ends_unchanged_throw
  | some membership => exact ends_unchanged_pure trivial

theorem ends_requirePermission (organizationId userId : UUID) (permission : Permission) :
    (OrganizationAuthService.requirePermission organizationId userId permission).Ends respond s
      (unchanged s fun _ => True) := by
  refine ends_unchanged_bind (ends_requireMembership organizationId userId)
    fun (org, membership) _ => ?_
  by_cases h : roleHasPermission membership.role permission = true
  · simp only [h, if_true]
    exact ends_unchanged_pure trivial
  · simp only [h, Bool.false_eq_true, if_false]
    exact ends_unchanged_throw

theorem exists_ok {α : Type} {x : Except Exc α} (h : x.isOk = true) : ∃ a, x = .ok a := by
  cases x with
  | ok a => exact ⟨a, rfl⟩
  | error e => exact nomatch h

/-! ## Findings -/

/-- The active packs of the organization `o` among the packs `ids`, with their rules. -/
def activePacks (db : Database) (o : UUID) (ids : List UUID) : List (PolicyPack × List PolicyRule) :=
  if ids.isEmpty then []
  else
    let packs := (rowsOf PolicyPack db).filter (activePack o ids)
    let rules := (rowsOf PolicyRule db).filter fun r => packs.any fun p => p.id = r.policyPackId
    packs.map fun p => (p, rules.filter fun r => r.policyPackId = p.id)

/-- **The findings of the packs**, from the rows the session sees. -/
theorem ends_evaluatePacks (o : UUID) (ids : List UUID) (configType content : String) :
    (PolicyService.evaluatePacks env o ids configType content).Ends respond s (unchanged s fun fs =>
      fs = PolicyService.packFindings env (activePacks s.view o ids) configType content) := by
  have hpacks : (PolicyRepository.getActivePacksByIds o ids).Ends respond s (unchanged s fun packs =>
      packs = activePacks s.view o ids ∨ (packs = [] ∧ ids.isEmpty = false)) := by
    unfold PolicyRepository.getActivePacksByIds activePacks
    by_cases hids : ids.isEmpty = true
    · rw [if_pos hids, if_pos hids]
      exact ends_unchanged_pure (.inl rfl)
    · rw [if_neg hids, if_neg hids]
      refine ends_unchanged_bind (ends_unchanged_selectOf _) fun packs hp => ?_
      refine ends_unchanged_bind (ends_unchanged_selectOf _) fun rules hr => ?_
      by_cases hlen : packs.length ≠ ids.dedup.length
      · rw [if_pos hlen]
        exact ends_unchanged_pure (.inr ⟨rfl, by simpa using hids⟩)
      · rw [if_neg hlen]
        refine ends_unchanged_pure (.inl ?_)
        rw [hr, hp]
  refine ends_unchanged_bind hpacks fun packs hp => ?_
  by_cases hlen : packs.length ≠ ids.dedup.length
  · rw [if_pos hlen]
    exact ends_unchanged_throw
  · rw [if_neg hlen]
    refine ends_unchanged_pure ?_
    rcases hp with rfl | ⟨rfl, hids⟩
    · rfl
    -- packs that are missing are found out by their number
    · exfalso
      have hnil : ids.dedup = [] := List.length_eq_zero_iff.mp (by simpa [eq_comm] using hlen)
      rw [List.dedup_eq_nil] at hnil
      simp [hnil] at hids

/-- The findings of the policies a request asks for. -/
def findingsOf (db : Database) (payload : GeneratorSaveOptions) (artifactType : ArtifactType)
    (content : String) : List PolicyFinding :=
  match payload.organizationId with
  | none => []
  | some o =>
    if payload.validatePolicies then
      PolicyService.packFindings env (activePacks db o payload.policyPackIds)
        (configTypeForArtifact artifactType) content
    else []

/-- **The findings a request asks for**, from the rows the session sees. -/
theorem ends_requestedFindings (user : User) (payload : GeneratorSaveOptions)
    (artifactType : ArtifactType) (content : String) :
    (requestedFindings env user payload artifactType content).Ends respond s (unchanged s fun fs =>
      fs = findingsOf env s.view payload artifactType content) := by
  unfold requestedFindings findingsOf
  cases ho : payload.organizationId with
  | none => exact ends_unchanged_pure rfl
  | some o =>
    simp only
    by_cases hasks : (payload.validatePolicies && !payload.policyPackIds.isEmpty) = true
    · rw [if_pos hasks, if_pos (Bool.and_eq_true _ _ ▸ hasks).1]
      exact ends_unchanged_bind (ends_requirePermission o user.id .policyRead) fun _ _ =>
        ends_evaluatePacks env o payload.policyPackIds _ content
    · rw [if_neg hasks]
      refine ends_unchanged_pure ?_
      by_cases hv : payload.validatePolicies = true
      · have hnil : payload.policyPackIds.isEmpty = true := by simpa [hv] using hasks
        rw [if_pos hv, activePacks, if_pos hnil]
        rfl
      · rw [if_neg hv]

/-- What a program returns whose first part may do anything. -/
theorem ends_onOk_bind {α β : Type} {Φ : β → Prop} (p : Db α) {g : α → Db β}
    (hg : ∀ a s', (g a).Ends respond s' (Prog.onOk fun b _ => Φ b)) :
    (p >>= g).Ends respond s (Prog.onOk fun b _ => Φ b) :=
  Prog.ends_bind.mpr (by
    unfold Prog.Ends
    cases (p.exec respond s).1 with
    | ok a => exact hg a _
    | error e => exact fun _ h => nomatch h)

/-- The findings a generator returns are those of the policies the request asks for. -/
theorem ends_persist (user : User) (payload : GeneratorSaveOptions) (artifactType : ArtifactType)
    (content defaultName : String) :
    (persist env user payload artifactType content defaultName).Ends respond s
      (Prog.onOk fun r _ => r.1 = findingsOf env s.view payload artifactType content) := by
  have happly : (applyGeneratorPoliciesAndSave env user payload artifactType content
      defaultName).Ends respond s
      (Prog.onOk fun r _ => r.1 = findingsOf env s.view payload artifactType content) := by
    refine (ends_requestedFindings env user payload artifactType content).bind (fun fs s' ⟨hs, hfs⟩ => ?_)
      fun e s' _ _ h => nomatch h
    have hfs := hfs fs rfl
    by_cases hsave : payload.saveArtifact = true
    · rw [if_pos hsave]
      by_cases hblock : blocksSave env fs = true
      · rw [if_pos hblock]
        exact fun _ h => nomatch h
      · rw [if_neg hblock]
        exact ends_onOk_bind _ fun request s₁ => ends_onOk_bind _ fun artifact s₂ r h => by
          cases h; exact hfs
    · rw [if_neg hsave]
      exact fun r h => by cases h; exact hfs
  refine happly.bind_ok fun r s' hr => ?_
  by_cases hsave : payload.saveArtifact = true
  · simp only [hsave, if_true]
    exact fun r' h => by cases h; exact hr
  · simp only [hsave, Bool.false_eq_true, if_false]
    exact ends_onOk_bind _ fun artifact s₁ r' h => by cases h; exact hr

end DevOps
