import DevOpsAssistant.Providers.Chain
import DevOpsAssistant.Services.ProviderSettings
import DevOpsAssistant.Specs.Generators

/-!
# Settings that are read back

* `ConfigFields.Accepted`: what the schema of a request admits.
* `ConfigFields.Written`: a row has the settings of a request; `ConfigFields.Created`: a new row.
* `written_flush`: a row that was there before has them.
* `ConfigFields.Survives`: the settings that a new row keeps; **`written_iff_survives`**.
* **`patchConfig_written_iff`**: when the stored row has the settings of the request.
-/

namespace DevOps

open Txn
open ProviderConfigRepository (ConfigFields orDefault getConfig upsertConfig)

namespace ProviderConfigRepository.ConfigFields

/-- What the schema admits. -/
structure Accepted (fields : ConfigFields) : Prop where
  defaultModel : ∀ text ∈ fields.defaultModel, text.length ≤ 120
  timeoutSeconds : ∀ n ∈ fields.timeoutSeconds, 1 ≤ n ∧ n ≤ 600
  maxRetries : ∀ n ∈ fields.maxRetries, n ≤ 10
  priority : ∀ n ∈ fields.priority, n ≤ 1000
  maxOutputTokens : ∀ n ∈ fields.maxOutputTokens, 1 ≤ n ∧ n ≤ 128000
  secretEnvKey : ∀ text ∈ fields.secretEnvKey, text.length ≤ 120
  baseUrlEnvKey : ∀ text ∈ fields.baseUrlEnvKey, text.length ≤ 120
  modelEnvKey : ∀ text ∈ fields.modelEnvKey, text.length ≤ 120

/-- The row has every value that the request gives. -/
structure Written (fields : ConfigFields) (c : ProviderConfig) : Prop where
  enabled : ∀ v ∈ fields.enabled, c.enabled = v
  defaultModel : ∀ v ∈ fields.defaultModel, c.defaultModel = v
  timeoutSeconds : ∀ v ∈ fields.timeoutSeconds, c.timeoutSeconds = v
  maxRetries : ∀ v ∈ fields.maxRetries, c.maxRetries = v
  priority : ∀ v ∈ fields.priority, c.priority = v
  maxOutputTokens : ∀ v ∈ fields.maxOutputTokens, c.maxOutputTokens = v
  secretEnvKey : ∀ v ∈ fields.secretEnvKey, c.secretEnvKey = v
  baseUrlEnvKey : ∀ v ∈ fields.baseUrlEnvKey, c.baseUrlEnvKey = some v
  modelEnvKey : ∀ v ∈ fields.modelEnvKey, c.modelEnvKey = some v

/-- The row has been created from these settings. -/
structure Created (fields : ConfigFields) (c : ProviderConfig) : Prop where
  enabled : c.enabled = fields.enabled.getD true
  defaultModel : fields.defaultModel = some c.defaultModel
  timeoutSeconds : c.timeoutSeconds = orDefault fields.timeoutSeconds 60
  maxRetries : c.maxRetries = orDefault fields.maxRetries 3
  priority : c.priority = orDefault fields.priority 100
  maxOutputTokens : c.maxOutputTokens = orDefault fields.maxOutputTokens 4096
  secretEnvKey : fields.secretEnvKey = some c.secretEnvKey
  baseUrlEnvKey : c.baseUrlEnvKey = fields.baseUrlEnvKey
  modelEnvKey : c.modelEnvKey = fields.modelEnvKey

/-- The texts of the request that a new row keeps. -/
def TextsSurvive (fields : ConfigFields) (name : String) (organizationId : Option UUID)
    (platform : Option ProviderConfig) : Prop :=
  match organizationId, platform with
  | none, _ => fields.secretEnvKey = none →
      fields.defaultModel ≠ some "" ∧
      (∀ v ∈ fields.baseUrlEnvKey, (providerDefaults name).baseUrlEnvKey = some v) ∧
      ∀ v ∈ fields.modelEnvKey, (providerDefaults name).modelEnvKey = v
  | some _, some p =>
      (fields.defaultModel = some "" → p.defaultModel = "") ∧
      (fields.secretEnvKey = some "" → p.secretEnvKey = "") ∧
      (fields.baseUrlEnvKey = some "" → p.baseUrlEnvKey = some "") ∧
      (fields.modelEnvKey = some "" → p.modelEnvKey = some "")
  | some _, none => fields.secretEnvKey = none ∨ fields.defaultModel = none →
      fields.defaultModel ≠ some "" ∧ fields.secretEnvKey ≠ some "" ∧
      fields.baseUrlEnvKey ≠ some "" ∧ fields.modelEnvKey ≠ some ""

/-- **The settings** that a new row keeps. -/
structure Survives (fields : ConfigFields) (name : String) (organizationId : Option UUID)
    (platform : Option ProviderConfig) : Prop where
  maxRetries : fields.maxRetries ≠ some 0
  priority : fields.priority ≠ some 0
  texts : fields.TextsSurvive name organizationId platform

/-! ## A row that was there before -/

/-- A change of a row that is as it was loaded writes all the settings. -/
theorem written_flush (fields : ConfigFields) (config : ProviderConfig) (updatedAt : Time) :
    fields.Written (fields.flush config updatedAt config) := by
  constructor <;> intro v hv <;> rw [Option.mem_def] at hv <;>
    simp [flush, hv]

/-! ## A new row -/

theorem orDefault_pos (value : Option ℕ) {other : ℕ} (h : 0 < other) :
    0 < orDefault value other := by
  unfold orDefault
  split
  · exact h
  · exact h
  · next n hn => exact Nat.pos_of_ne_zero hn

theorem orDefault_of_ne {n : ℕ} (h : n ≠ 0) (other : ℕ) : orDefault (some n) other = n := by
  cases n with
  | zero => exact absurd rfl h
  | succ n => rfl

/-- A number is kept unless it is zero. -/
theorem orDefault_eq_iff {value : Option ℕ} {other : ℕ} (h : 0 < other) :
    (∀ v ∈ value, orDefault value other = v) ↔ value ≠ some 0 := by
  cases value with
  | none => simp
  | some n =>
    simp only [Option.mem_def, Option.some.injEq, forall_eq', ne_eq]
    constructor
    · rintro hn rfl
      have := orDefault_pos (some 0) h
      omega
    · exact fun hn => orDefault_of_ne hn other

/-- So is one that is looked for in the platform row first. -/
theorem orDefault_orDefault_eq_iff {value : Option ℕ} {platform other : ℕ} (h : 0 < other) :
    (∀ v ∈ value, orDefault (some (orDefault value platform)) other = v) ↔ value ≠ some 0 := by
  cases value with
  | none => simp
  | some n =>
    simp only [Option.mem_def, Option.some.injEq, forall_eq', ne_eq]
    constructor
    · rintro hn rfl
      have := orDefault_pos (some (orDefault (some 0) platform)) h
      omega
    · intro hn
      rw [orDefault_of_ne hn, orDefault_of_ne hn]

/-- A text is kept unless it is empty and what stands for it is not. -/
theorem orText_eq_iff {value other : Option String} :
    (∀ v ∈ value, orText value other = some v) ↔ (value = some "" → other = some "") := by
  cases value with
  | none => simp
  | some text =>
    simp only [Option.mem_def, Option.some.injEq, forall_eq']
    by_cases h : text = ""
    · simp [orText, h]
    · simp [orText, h]

theorem providerDefaults_ne (name : String) :
    (providerDefaults name).model ≠ "" ∧ (providerDefaults name).secretEnvKey ≠ "" ∧
      (providerDefaults name).baseUrlEnvKey ≠ some "" ∧
      (providerDefaults name).modelEnvKey ≠ "" := by
  unfold providerDefaults
  split_ifs <;> decide

section New

variable {fields : ConfigFields} {name : String} {o : Option UUID}
  {platform : Option ProviderConfig} {c : ProviderConfig}

/-- A number of a new row, of which the defaults know nothing. -/
theorem forNew_number_iff (get : ConfigFields → Option ℕ) (column : ProviderConfig → ℕ)
    (hplatform : ∀ d, get (fields.platformDefaults d) = get fields)
    (hdefaulted : ∀ d, get (fields.defaulted d) = get fields)
    (hinherited : ∀ p, get (fields.inherited p) = some (orDefault (get fields) (column p)))
    {other : ℕ} (h : 0 < other) :
    (∀ v ∈ get fields, orDefault (get (fields.forNew name o platform)) other = v) ↔
      get fields ≠ some 0 := by
  unfold forNew
  split
  · split_ifs
    · rw [hplatform]
      exact orDefault_eq_iff h
    · exact orDefault_eq_iff h
  · rw [hinherited]
    exact orDefault_orDefault_eq_iff h
  · split_ifs
    · rw [hdefaulted]
      exact orDefault_eq_iff h
    · exact orDefault_eq_iff h

/-- A row that has been created from the request itself has its texts. -/
theorem Created.texts (h : Created fields c) :
    (∀ v ∈ fields.defaultModel, c.defaultModel = v) ∧
      (∀ v ∈ fields.secretEnvKey, c.secretEnvKey = v) ∧
      (∀ v ∈ fields.baseUrlEnvKey, c.baseUrlEnvKey = some v) ∧
      ∀ v ∈ fields.modelEnvKey, c.modelEnvKey = some v := by
  refine ⟨fun v hv => ?_, fun v hv => ?_, fun v hv => ?_, fun v hv => ?_⟩
  · exact Option.some.inj (h.defaultModel.symm.trans hv)
  · exact Option.some.inj (h.secretEnvKey.symm.trans hv)
  · exact h.baseUrlEnvKey.trans hv
  · exact h.modelEnvKey.trans hv

/-- A text for which another stands when it is empty. -/
theorem text_iff {value other : Option String} {x : String} (hx : orText value other = some x) :
    (∀ v ∈ value, x = v) ↔ (value = some "" → other = some "") := by
  rw [← orText_eq_iff, hx]
  simp

theorem optionalText_iff {value other x : Option String} (hx : x = orText value other) :
    (∀ v ∈ value, x = some v) ↔ (value = some "" → other = some "") := by
  rw [← orText_eq_iff, hx]

/-- **The texts** of a new row. -/
theorem forNew_texts_iff (h : Created (fields.forNew name o platform) c) :
    ((∀ v ∈ fields.defaultModel, c.defaultModel = v) ∧
      (∀ v ∈ fields.secretEnvKey, c.secretEnvKey = v) ∧
      (∀ v ∈ fields.baseUrlEnvKey, c.baseUrlEnvKey = some v) ∧
      ∀ v ∈ fields.modelEnvKey, c.modelEnvKey = some v) ↔ fields.TextsSurvive name o platform := by
  obtain ⟨hmodel, hsecret, hbase, hkey⟩ := providerDefaults_ne name
  cases o with
  | none =>
    change _ ↔ (fields.secretEnvKey = none → _)
    unfold forNew at h
    by_cases hnone : fields.secretEnvKey = none
    · rw [if_pos hnone] at h
      have h₃ : c.baseUrlEnvKey = (providerDefaults name).baseUrlEnvKey := h.baseUrlEnvKey
      have h₄ : c.modelEnvKey = some (providerDefaults name).modelEnvKey := h.modelEnvKey
      rw [text_iff h.defaultModel, h₃, h₄]
      simp [hnone, hmodel]
    · rw [if_neg hnone] at h
      exact ⟨fun _ h => absurd h hnone, fun _ => h.texts⟩
  | some o =>
    cases platform with
    | some p =>
      change _ ↔ (fields.defaultModel = some "" → _) ∧ _
      rw [text_iff h.defaultModel, text_iff h.secretEnvKey, optionalText_iff h.baseUrlEnvKey,
        optionalText_iff h.modelEnvKey]
      simp
    | none =>
      change _ ↔ (fields.secretEnvKey = none ∨ fields.defaultModel = none → _)
      unfold forNew at h
      by_cases hnone : fields.secretEnvKey = none ∨ fields.defaultModel = none
      · simp only [if_pos hnone] at h
        rw [text_iff h.defaultModel, text_iff h.secretEnvKey, optionalText_iff h.baseUrlEnvKey,
          optionalText_iff h.modelEnvKey]
        simp [hnone, hmodel, hsecret, hbase, hkey]
      · simp only [if_neg hnone] at h
        exact ⟨fun _ h => absurd h hnone, fun _ => h.texts⟩

/-- **A new row** has the settings of the request if and only if they survive. -/
theorem written_iff_survives (hfields : fields.Accepted)
    (h : Created (fields.forNew name o platform) c) :
    fields.Written c ↔ fields.Survives name o platform := by
  have htexts := forNew_texts_iff h
  have henabled : ∀ v ∈ fields.enabled, c.enabled = v := by
    have hsame : (fields.forNew name o platform).enabled = fields.enabled := by
      unfold forNew
      split <;> (try split_ifs) <;> rfl
    intro v hv
    rw [h.enabled, hsame, Option.mem_def.mp hv, Option.getD_some]
  have htimeout : ∀ v ∈ fields.timeoutSeconds, c.timeoutSeconds = v := by
    rw [h.timeoutSeconds, forNew_number_iff (·.timeoutSeconds) (·.timeoutSeconds) (fun _ => rfl)
      (fun _ => rfl) (fun _ => rfl) (by decide)]
    exact fun hzero => absurd (hfields.timeoutSeconds 0 hzero).1 (by decide)
  have htokens : ∀ v ∈ fields.maxOutputTokens, c.maxOutputTokens = v := by
    rw [h.maxOutputTokens, forNew_number_iff (·.maxOutputTokens) (·.maxOutputTokens) (fun _ => rfl)
      (fun _ => rfl) (fun _ => rfl) (by decide)]
    exact fun hzero => absurd (hfields.maxOutputTokens 0 hzero).1 (by decide)
  have hretries : (∀ v ∈ fields.maxRetries, c.maxRetries = v) ↔ fields.maxRetries ≠ some 0 := by
    rw [h.maxRetries]
    exact forNew_number_iff (·.maxRetries) (·.maxRetries) (fun _ => rfl) (fun _ => rfl)
      (fun _ => rfl) (by decide)
  have hpriority : (∀ v ∈ fields.priority, c.priority = v) ↔ fields.priority ≠ some 0 := by
    rw [h.priority]
    exact forNew_number_iff (·.priority) (·.priority) (fun _ => rfl) (fun _ => rfl)
      (fun _ => rfl) (by decide)
  constructor
  · exact fun hw => ⟨hretries.mp hw.maxRetries, hpriority.mp hw.priority,
      htexts.mp ⟨hw.defaultModel, hw.secretEnvKey, hw.baseUrlEnvKey, hw.modelEnvKey⟩⟩
  · intro hs
    obtain ⟨h₁, h₂, h₃, h₄⟩ := htexts.mpr hs.texts
    exact ⟨henabled, h₁, htimeout, hretries.mpr hs.maxRetries, hpriority.mpr hs.priority, htokens,
      h₂, h₃, h₄⟩

end New

end ProviderConfigRepository.ConfigFields

/-! ## The stored row -/

section Stored

variable {s : Session Row World} {name : String} {o : Option UUID} {fields : ConfigFields}

/-- A row that is stored in place of those of its scope and name, is the only one. -/
theorem configsOf_store {c : ProviderConfig} (ho : c.organizationId = o)
    (hname : c.providerName = name) (honly : ∀ c' ∈ configsOf s.view name o, c'.id = c.id) :
    configsOf (s.append [.store (toRow c)]).view name o = [c] := by
  refine rowsOf_filter_eq_singleton (mem_rowsOf_append_store.mpr (.inl rfl)) (by simp [ho, hname])
    fun c' hc' hp => ?_
  rcases mem_rowsOf_append_store.mp hc' with rfl | ⟨hc', -⟩
  · rfl
  · exact honly c' (List.mem_filter.mpr ⟨hc', hp⟩)

/-- **An upsert** creates the only row, or writes the settings to it. -/
theorem ends_upsertConfig (o : Option UUID) (name : String) (fields : ConfigFields) :
    (upsertConfig o name fields).Ends respond s (Prog.onOk fun c s' =>
      configsOf s'.view name o = [c] ∧
      (configsOf s.view name o = [] → fields.Created c) ∧
      (configsOf s.view name o ≠ [] → fields.Written c)) := by
  unfold upsertConfig
  rw [ends_getConfig]
  rcases hconfigs : configsOf s.view name o with _ | ⟨config, _ | ⟨config', configs⟩⟩
  · rcases hmodel : fields.defaultModel with _ | defaultModel
    · exact fun _ h => nomatch h
    rcases hsecret : fields.secretEnvKey with _ | secretEnvKey
    · exact fun _ h => nomatch h
    refine ends_uuid4.mpr (ends_now.mpr (ends_now.mpr ?_))
    refine Prog.Ends.bind (ends_insert _ _) (fun _ s' hr => ?_) fun _ _ _ _ h => nomatch h
    rcases hr with ⟨-, rfl, -⟩ | ⟨h, -⟩
    · refine ends_onOk_pure ⟨configsOf_store rfl rfl fun c' hc' => ?_, fun _ => ?_,
        fun h => absurd rfl h⟩
      · change c' ∈ configsOf s.view name o at hc'
        rw [hconfigs] at hc'
        cases hc'
      · exact ⟨rfl, hmodel, rfl, rfl, rfl, rfl, hsecret, rfl, rfl⟩
    · exact nomatch h
  · refine ends_now.mpr ((ends_update _ _ _).mono fun r s' hr c hc => ?_)
    have hmem : config ∈ configsOf s.view name o := by
      rw [hconfigs]
      exact List.mem_singleton_self config
    obtain ⟨hrow, ho, hname⟩ := mem_configsOf.mp hmem
    rcases hr with ⟨row, hmem', hid, hr, rfl⟩ | ⟨-, hr⟩
    · obtain rfl : row = config := entity_ext hmem' hrow hid
      rw [hr] at hc
      cases hc
      refine ⟨configsOf_store ho hname fun c' hc' => ?_, fun h => (nomatch h),
        fun _ => ConfigFields.written_flush fields row _⟩
      change c' ∈ configsOf s.view name o at hc'
      rw [hconfigs, List.mem_singleton] at hc'
      rw [hc']
      rfl
    · exact nomatch hr.symm.trans hc
  · exact fun _ h => nomatch h

variable (env : Env)

/-- What a call leaves in the rows it sees. -/
theorem ends_patchConfig (o : Option UUID) (providerName : String) {fields : ConfigFields}
    (hfields : fields.Accepted) :
    (ProviderManagementService.patchConfig env o providerName fields).Ends respond s
      (Prog.onOk fun c s' => configsOf s'.view (providerKey env providerName) o = [c] ∧
        (fields.Written c ↔ (configsOf s.view (providerKey env providerName) o = [] →
          fields.Survives (providerKey env providerName) o
            (configsOf s.view (providerKey env providerName) none).head?))) := by
  unfold ProviderManagementService.patchConfig
  by_cases hname : providerKey env providerName ∉ SUPPORTED_PROVIDERS
  · simp only [if_pos hname]
    exact fun _ h => by cases h
  simp only [if_neg hname]
  generalize providerKey env providerName = name
  rw [ends_getConfig]
  rcases hconfigs : configsOf s.view name o with _ | ⟨config, _ | ⟨config', configs⟩⟩
  · -- the platform row makes no difference to a row of the platform
    have hnew : ∀ platform, (o.isSome = true → platform = (configsOf s.view name none).head?) →
        (upsertConfig o name (fields.forNew name o platform)).Ends respond s
          (Prog.onOk fun c s' => configsOf s'.view name o = [c] ∧ (fields.Written c ↔
            (([] : List ProviderConfig) = [] →
              fields.Survives name o (configsOf s.view name none).head?))) := by
      intro platform hplatform
      refine (ends_upsertConfig o name _).mono fun r s' hr c hc => ?_
      obtain ⟨hstored, hcreated, -⟩ := hr c hc
      refine ⟨hstored, ?_⟩
      rw [ConfigFields.written_iff_survives hfields (hcreated hconfigs), imp_iff_right rfl]
      cases o with
      | none => exact ⟨fun h => ⟨h.1, h.2, h.3⟩, fun h => ⟨h.1, h.2, h.3⟩⟩
      | some o => rw [hplatform rfl]
    cases o with
    | none => exact hnew none fun h => by cases h
    | some o =>
      refine ends_getConfig.mpr ?_
      generalize configsOf s.view name none = rows at hnew
      rcases rows with _ | ⟨platform, _ | ⟨platform', rows⟩⟩
      · exact hnew none fun _ => rfl
      · exact hnew (some platform) fun _ => rfl
      · exact fun _ h => by cases h
  · refine (ends_upsertConfig o name fields).mono fun r s' hr c hc => ?_
    obtain ⟨hstored, -, hwritten⟩ := hr c hc
    exact ⟨hstored, fun _ h => (by cases h), fun _ => hwritten (by rw [hconfigs]; exact List.cons_ne_nil _ _)⟩
  · exact fun _ h => by cases h

/-- The stored row of a scope has every value that the request gives. -/
def SettingsStored (db : Database) (name : String) (o : Option UUID) (fields : ConfigFields) :
    Prop :=
  ∃ c, configsOf db name o = [c] ∧ fields.Written c

/-- The request of a client, as a unit of work. -/
def patched (env : Env) (s : State) (o : Option UUID) (providerName : String)
    (fields : ConfigFields) : Except Exc ProviderConfig × Session Row World :=
  (getDb (ProviderManagementService.patchConfig env o providerName fields)).exec respond s.session

/-- **Settings are read back** as they were written if and only if the row was there before, or they
are settings that a new row keeps. -/
theorem patchConfig_stored_iff (s : State) (o : Option UUID) (providerName : String)
    (fields : ConfigFields) (hfields : fields.Accepted) (c : ProviderConfig)
    (h : (patched env s o providerName fields).1 = .ok c) :
    SettingsStored (patched env s o providerName fields).2.committed
        (providerKey env providerName) o fields ↔
      (configsOf s.committed (providerKey env providerName) o = [] →
        fields.Survives (providerKey env providerName) o
          (configsOf s.committed (providerKey env providerName) none).head?) := by
  have hends : (getDb (ProviderManagementService.patchConfig env o providerName fields)).Ends
      respond s.session (Prog.onOk fun c s' =>
        configsOf s'.committed (providerKey env providerName) o = [c] ∧
        (fields.Written c ↔ (configsOf s.committed (providerKey env providerName) o = [] →
          fields.Survives (providerKey env providerName) o
            (configsOf s.committed (providerKey env providerName) none).head?))) := by
    refine Prog.ends_unitOfWork.mpr ((ends_patchConfig env o providerName hfields).mono
      fun r s' hr => ?_)
    cases r with
    | error e => exact fun _ h => nomatch h
    | ok c =>
      intro c' hc'
      cases hc'
      exact hr c rfl
  obtain ⟨hstored, hiff⟩ := hends c h
  rw [← hiff]
  constructor
  · rintro ⟨c', hc', hwritten⟩
    obtain rfl : c' = c := List.singleton_inj.mp (hc'.symm.trans hstored)
    exact hwritten
  · exact fun hwritten => ⟨c, hstored, hwritten⟩

/-! ## The first settings of a provider -/

/-- The platform sets the timeout of Gemini, for which there is no row yet. -/
theorem timeout_stored : SettingsStored
    (patched .trial State.trial none "gemini" { timeoutSeconds := some 30 }).2.committed
    (providerKey .trial "gemini") none { timeoutSeconds := some 30 } := by
  obtain ⟨c, hc⟩ := exists_ok
    (x := (patched .trial State.trial none "gemini" { timeoutSeconds := some 30 }).1) (by decide)
  refine (patchConfig_stored_iff .trial State.trial none "gemini" _ ?_ c hc).mpr fun _ => ?_
  · constructor <;> simp
  · exact ⟨by simp, by simp, fun _ => ⟨by simp, by simp, by simp⟩⟩

/-- The platform asks for no retries of a provider for which there is no row yet. -/
theorem no_retries_not_stored : ¬ ∀ (env : Env) (s : State) (o : Option UUID)
    (providerName : String) (fields : ConfigFields) (c : ProviderConfig), fields.Accepted →
      (patched env s o providerName fields).1 = .ok c →
        SettingsStored (patched env s o providerName fields).2.committed
          (providerKey env providerName) o fields := by
  intro h
  obtain ⟨c, hc⟩ := exists_ok
    (x := (patched .trial State.trial none "gemini" { maxRetries := some 0 }).1) (by decide)
  obtain ⟨c', hc', hwritten⟩ := h .trial State.trial none "gemini" { maxRetries := some 0 } c
    (by constructor <;> simp) hc
  have hrow : (configsOf (patched .trial State.trial none "gemini"
      { maxRetries := some 0 }).2.committed (providerKey .trial "gemini") none).map
        (·.maxRetries) = [3] := by decide
  rw [hc', List.map_singleton, hwritten.maxRetries 0 rfl] at hrow
  exact absurd hrow (by decide)

end Stored

end DevOps
