import DevOpsAssistant.Repositories.Artifacts
import DevOpsAssistant.Repositories.Usage
import DevOpsAssistant.Specs.Keys
import DevOpsAssistant.Specs.Usage
import DevOpsAssistant.Txn.Recorded
import DevOpsAssistant.Txn.Serial

/-!
# Tags, provider configurations and routing policies by their scope

The row of a scope is looked up without a lock, and added if there is none. The unique constraints of
the tables tell rows without an organization apart, and names by their case.

* `ScopedRequest`: the transactions that get or create a row.
* `ScopedUnique`: no two rows have one scope.
* `ensures_scopedServe`: what each transaction writes.
* `LookupsHold`: a lookup that has missed its row has not been overtaken at the commit.
* **`scopedUnique_of_lookupsHold`**: scopes stay unique along such runs.
-/

namespace DevOps

open Txn Discipline

/-! ## Transactions -/

/-- The transactions that get or create the row of a scope. -/
inductive ScopedRequest where
  | getOrCreateTag (userId : UUID) (name : String) (organizationId : Option UUID)
      (color : Option String)
  | upsertConfig (organizationId : Option UUID) (providerName : String)
      (fields : ProviderConfigRepository.ConfigFields)
  | upsertPolicy (organizationId : Option UUID) (operation : LLMOperation)
      (primaryProvider : Option String) (fallbackProviders : Option (List String))

/-- The row a transaction returns. -/
inductive ScopedRow where
  | tag (t : ArtifactTag)
  | config (c : ProviderConfig)
  | policy (p : ProviderRoutingPolicy)

variable (env : Env)

namespace ScopedRequest

/-- The statements of a transaction. -/
def body : ScopedRequest → Db ScopedRow
  | getOrCreateTag userId name organizationId color => do
    return .tag (← ArtifactTagRepository.getOrCreateTag env userId name organizationId color)
  | upsertConfig organizationId providerName fields => do
    return .config (← ProviderConfigRepository.upsertConfig organizationId providerName fields)
  | upsertPolicy organizationId operation primaryProvider fallbackProviders => do
    return .policy (← ProviderRoutingRepository.upsertPolicy organizationId operation primaryProvider
      fallbackProviders)

/-- The program of a transaction. -/
def serve (r : ScopedRequest) : Db ScopedRow := getDb (r.body env)

end ScopedRequest

/-! ## Scopes -/

/-- The condition of `get_config`. -/
def configOf (organizationId : Option UUID) (providerName : String) (c : ProviderConfig) : Bool :=
  c.organizationId = organizationId && c.providerName = providerName

/-- The condition of `get_policy`. -/
def policyOf (organizationId : Option UUID) (operation : LLMOperation) (p : ProviderRoutingPolicy) :
    Bool :=
  p.organizationId = organizationId && p.operation = operation

/-- The scope of a tag and its name in lower case. -/
def tagKey (t : ArtifactTag) : UUID × Option UUID × String :=
  (t.userId, t.organizationId, env.lower t.name)

def configKey (c : ProviderConfig) : Option UUID × String := (c.organizationId, c.providerName)

def policyKey (p : ProviderRoutingPolicy) : Option UUID × LLMOperation :=
  (p.organizationId, p.operation)

/-- No two tags have one user, organization and name in lower case; no two configurations and no two
policies have one organization and key. -/
structure ScopedUnique (db : Database) : Prop where
  tags : KeysUnique (tagKey env) db
  configs : KeysUnique configKey db
  policies : KeysUnique policyKey db

theorem scopedTag_iff {userId : UUID} {organizationId : Option UUID} {name : String} (t : ArtifactTag) :
    scopedTag env userId organizationId name t = true ↔ tagKey env t = (userId, organizationId, name) := by
  simp [scopedTag, tagKey, and_assoc]

theorem configOf_iff {organizationId : Option UUID} {providerName : String} (c : ProviderConfig) :
    configOf organizationId providerName c = true ↔ configKey c = (organizationId, providerName) := by
  simp [configOf, configKey]

theorem policyOf_iff {organizationId : Option UUID} {operation : LLMOperation}
    (p : ProviderRoutingPolicy) :
    policyOf organizationId operation p = true ↔ policyKey p = (organizationId, operation) := by
  simp [policyOf, policyKey]

namespace ScopedRequest

/-- The rows the lookup of the request meets. -/
def met (db : Database) : ScopedRequest → ℕ
  | getOrCreateTag userId name organizationId _ =>
    ((rowsOf ArtifactTag db).filter
      (scopedTag env userId organizationId (env.lower (env.strip name)))).length
  | upsertConfig organizationId providerName _ =>
    ((rowsOf ProviderConfig db).filter (configOf organizationId providerName)).length
  | upsertPolicy organizationId operation _ _ =>
    ((rowsOf ProviderRoutingPolicy db).filter (policyOf organizationId operation)).length

/-- The lookup of the session has met no row. -/
def HasMissed (h : Told) : ScopedRequest → Prop
  | getOrCreateTag userId name organizationId _ =>
    Missed (scopedTag env userId organizationId (env.lower (env.strip name))) h
  | upsertConfig organizationId providerName _ => Missed (configOf organizationId providerName) h
  | upsertPolicy organizationId operation _ _ => Missed (policyOf organizationId operation) h

/-- What a transaction writes. -/
def Owes (r : ScopedRequest) (h : Told) (l : OpenTx) (c : Database) : Prop :=
  match r with
  | getOrCreateTag userId name organizationId _ =>
    Upserts (scopedTag env userId organizationId (env.lower (env.strip name))) (tagKey env) h l c
  | upsertConfig organizationId providerName _ =>
    Upserts (configOf organizationId providerName) configKey h l c
  | upsertPolicy organizationId operation _ _ =>
    Upserts (policyOf organizationId operation) policyKey h l c

end ScopedRequest

/-- **A transaction whose lookup has not been overtaken** keeps scopes unique. -/
theorem ScopedUnique.commit {h : Told} {l : OpenTx} {c : Database} (hu : ScopedUnique env c)
    {r : ScopedRequest} (hw : r.Owes env h l c) (hmissed : r.HasMissed env h → r.met env c = 0) :
    ScopedUnique env (l.view c) := by
  have hnone : ∀ {T : Type} [Entity T] {p : T → Bool}, ((rowsOf T c).filter p).length = 0 →
      ∀ t ∈ rowsOf T c, p t = false := fun h t ht =>
    Bool.eq_false_iff.mpr (List.filter_eq_nil_iff.mp (List.length_eq_zero_iff.mp h) t ht)
  cases r with
  | getOrCreateTag userId name organizationId color =>
    exact ⟨hu.tags.upsert hw (scopedTag_iff env) fun hm => hnone (hmissed hm),
      hu.configs.congr fun _ => hw.other (by decide), hu.policies.congr fun _ => hw.other (by decide)⟩
  | upsertConfig organizationId providerName fields =>
    exact ⟨hu.tags.congr fun _ => hw.other (by decide),
      hu.configs.upsert hw configOf_iff fun hm => hnone (hmissed hm),
      hu.policies.congr fun _ => hw.other (by decide)⟩
  | upsertPolicy organizationId operation _ _ =>
    exact ⟨hu.tags.congr fun _ => hw.other (by decide), hu.configs.congr fun _ => hw.other (by decide),
      hu.policies.upsert hw policyOf_iff fun hm => hnone (hmissed hm)⟩

/-! ## What transactions write -/

/-- Sessions assume nothing of these tables while others run. -/
def scopeDiscipline : Discipline Row where
  inv _ := True
  follows _ _ := True
  names _ := []
  follows_refl _ := trivial

section Programs

variable {c : Database} {owes : Told → OpenTx → Database → Prop}

theorem ensures_getOrCreateTag (userId : UUID) (name : String) (organizationId : Option UUID)
    (color : Option String) :
    scopeDiscipline.ensures owes (returns fun _ h l c =>
        Upserts (scopedTag env userId organizationId (env.lower (env.strip name))) (tagKey env) h l c)
      (ArtifactTagRepository.getOrCreateTag env userId name organizationId color) [] .start c := by
  unfold ArtifactTagRepository.getOrCreateTag
  simp only
  rw [← bind_assoc]
  refine ensures_selectOne (fun h₁ c₁ x₁ hr hnone => ?_) fun h₁ c₁ tag x₁ hr hm hp => ?_
  · refine ensures_uuid4 fun c₂ id x₂ => ensures_now fun h₃ c₃ t x₃ _ => ?_
    have told := x₂.told.trans x₃.told
    refine ensures_created (told.no_commit (x₁.told.no_commit List.not_mem_nil)) ?_ ?_ rfl
    · exact Missed.mono ⟨c₁, hr, hnone⟩ told
    · exact (scopedTag_iff env _).mpr rfl
  · simp only
    have hn := x₁.told.no_commit List.not_mem_nil
    split
    · exact ensures_pure fun _ _ => .unwritten hn rfl
    · exact ensures_changed (f := fun t : ArtifactTag => { t with color }) (fun _ => rfl) hn rfl

theorem ensures_upsertConfig (organizationId : Option UUID) (providerName : String)
    (fields : ProviderConfigRepository.ConfigFields) :
    scopeDiscipline.ensures owes (returns fun _ h l c =>
        Upserts (configOf organizationId providerName) configKey h l c)
      (ProviderConfigRepository.upsertConfig organizationId providerName fields) [] .start c := by
  unfold ProviderConfigRepository.upsertConfig ProviderConfigRepository.getConfig
  refine ensures_selectOne (p := configOf organizationId providerName) (fun h₁ c₁ x₁ hr hnone => ?_)
    fun h₁ c₁ config x₁ hr hm hp => ?_
  · simp only
    split
    · refine ensures_uuid4 fun c₂ id x₂ => ensures_now fun h₃ c₃ t x₃ _ =>
        ensures_now fun h₄ c₄ t' x₄ _ => ?_
      have told := x₂.told.trans (x₃.told.trans x₄.told)
      refine ensures_created (told.no_commit (x₁.told.no_commit List.not_mem_nil)) ?_ ?_ rfl
      · exact Missed.mono ⟨c₁, hr, hnone⟩ told
      · exact (configOf_iff _).mpr rfl
    · exact ensures_throw
  · exact ensures_now fun h₂ c₂ t x₂ _ => ensures_changed (fun _ => rfl)
      (x₂.told.no_commit (x₁.told.no_commit List.not_mem_nil)) rfl

theorem ensures_upsertPolicy (organizationId : Option UUID) (operation : LLMOperation)
    (primaryProvider : Option String) (fallbackProviders : Option (List String)) :
    scopeDiscipline.ensures owes (returns fun _ h l c =>
        Upserts (policyOf organizationId operation) policyKey h l c)
      (ProviderRoutingRepository.upsertPolicy organizationId operation primaryProvider
        fallbackProviders) [] .start c := by
  unfold ProviderRoutingRepository.upsertPolicy ProviderRoutingRepository.getPolicy
  refine ensures_selectOne (p := policyOf organizationId operation) (fun h₁ c₁ x₁ hr hnone => ?_)
    fun h₁ c₁ policy x₁ hr hm hp => ?_
  · simp only
    split
    · exact ensures_throw
    · refine ensures_uuid4 fun c₂ id x₂ => ensures_now fun h₃ c₃ t x₃ _ =>
        ensures_now fun h₄ c₄ t' x₄ _ => ?_
      have told := x₂.told.trans (x₃.told.trans x₄.told)
      refine ensures_created (told.no_commit (x₁.told.no_commit List.not_mem_nil)) ?_ ?_ rfl
      · exact Missed.mono ⟨c₁, hr, hnone⟩ told
      · exact (policyOf_iff _).mpr rfl
  · exact ensures_now fun h₂ c₂ t x₂ _ => ensures_changed (fun _ => rfl)
      (x₂.told.no_commit (x₁.told.no_commit List.not_mem_nil)) rfl

/-- **Every transaction** writes what it owes. -/
theorem ensures_scopedServe :
    scopeDiscipline.Ensures (ScopedRequest.Owes env) (fun _ (_ : Except Exc ScopedRow) _ => True)
      (ScopedRequest.serve env) := by
  intro r c _
  refine ensures_unitOfWork (returns fun _ => r.Owes env)
    (fun a h l c ha => ⟨ha a rfl, fun _ _ => trivial⟩) (fun _ _ _ _ => trivial) ?_
  cases r with
  | getOrCreateTag userId name organizationId color =>
    exact ensures_map (ensures_getOrCreateTag env userId name organizationId color)
  | upsertConfig organizationId providerName fields =>
    exact ensures_map (ensures_upsertConfig organizationId providerName fields)
  | upsertPolicy organizationId operation primaryProvider fallbackProviders =>
    exact ensures_map (ensures_upsertPolicy organizationId operation primaryProvider fallbackProviders)

end Programs

/-! ## Runs -/

abbrev ScopedRun := Recorded Row Answer Exc ScopedRow ScopedRequest World

section Runs

variable {env} {s : State} {x y : ScopedRun}

/-- A session whose lookup has met no row commits only while the lookup would still meet none. -/
def LookupsHold (env : Env) (x y : ScopedRun) : Prop :=
  ∀ (n : ℕ) (tx : Tx Row Answer Exc ScopedRow ScopedRequest), x.config.txs[n]? = some tx →
    (∃ k, tx.prog = .commit k) → y.config.txs[n]? ≠ some tx → tx.req.HasMissed env (x.history n) →
      tx.req.met env x.config.committed = 0

/-- What every run of these transactions keeps. -/
abbrev ScopedKept (env : Env) (x : ScopedRun) : Prop :=
  Kept scopeDiscipline (ScopedRequest.Owes env) (fun _ (_ : Except Exc ScopedRow) _ => True) x

theorem commitOk_scope (l : OpenTx) (c : Database) : scopeDiscipline.CommitOk l c :=
  ⟨trivial, fun _ _ _ => trivial, fun _ _ _ hm => (nomatch hm), fun _ _ => trivial⟩

/-- **A step whose lookup holds** keeps scopes unique. -/
theorem ScopedUnique.step (hu : ScopedUnique env x.config.committed) (k : ScopedKept env x)
    (hs : RecordedStep respond (ScopedRequest.serve env) x y) (hl : LookupsHold env x y) :
    ScopedUnique env y.config.committed := by
  obtain ⟨-, hcom | ⟨n, tx, hn, hcommit, hne, hcom, howes⟩⟩ :=
    k.step (ensures_scopedServe env) (fun _ _ l c _ _ => commitOk_scope l c) (fun _ _ _ => trivial) hs
  · rw [hcom]
    exact hu
  · rw [hcom]
    exact hu.commit env howes (hl n tx hn hcommit hne)

theorem ScopedRequest.Owes.uncommitted {r : ScopedRequest} {h : Told} {l : OpenTx} {c : Database}
    (hw : r.Owes env h l c) : .commit ∉ h := by
  cases r <;> exact Upserts.uncommitted hw

/-- The lookup of a session that has read only what is committed holds. -/
theorem LookupsHold.of_current (k : ScopedKept env x) (hc : x.Current) : LookupsHold env x y := by
  rintro n tx hn ⟨rest, hrest⟩ - hmissed
  have hreads := hc.reads n tx hn (by rw [hrest]; rfl) (k.owes_of_commit hn hrest).uncommitted
  have hnone : ∀ {T : Type} [Entity T] {p : T → Bool}, Missed p (x.history n) →
      ((rowsOf T x.config.committed).filter p).length = 0 := by
    rintro T _ p ⟨c, hr, hc⟩
    rw [List.length_eq_zero_iff, List.filter_eq_nil_iff, ← hreads _ c hr]
    exact fun t ht => Bool.eq_false_iff.mp (hc t ht)
  rcases hreq : tx.req with _ | _ | _ <;> rw [hreq] at hmissed <;> exact hnone hmissed

/-! ## Two runs -/

end Runs

end DevOps
