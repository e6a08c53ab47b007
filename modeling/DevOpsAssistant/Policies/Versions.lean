import DevOpsAssistant.Api.Policies
import DevOpsAssistant.Specs.Histories
import DevOpsAssistant.Specs.Organizations
import DevOpsAssistant.Txn.Recorded
import DevOpsAssistant.Txn.Returns
import DevOpsAssistant.Txn.Serial

/-!
# The versions of policy packs

Requests that change a pack read its row without locking it, and store one more than the version they
have read.

* `packDiscipline`, `Bumps`: what a session owes when it commits.
* `ensures_managedPack`, `ensures_bump`: the parts the requests share; **`ensures_policyServe`**.
* `FreshBumps`: a session commits only while the version it has read is committed.
* `FreshBumps.of_current`: requests that are served one after another are fresh.
* **`versions_count`**: along such a run the version of a pack counts the requests that have returned.
-/

namespace DevOps

open Txn Discipline

/-- The table of policy packs. -/
def packTables : TableName → Bool
  | .policyPacks => true
  | _ => false

/-- Sessions assume nothing of policy packs while others run. -/
def packDiscipline : Discipline Row where
  inv _ := True
  follows _ _ := True
  names _ := []
  follows_refl _ := trivial

/-- The session has not committed, and has stored one more than the version it has read of the pack. -/
structure Bumps (o id : UUID) (h : Told) (l : OpenTx) : Prop where
  uncommitted : .commit ∉ h
  stored : ∃ pack row : PolicyPack, Saw (packOf o id) pack h ∧
    logOn packTables l = [.store (toRow row)] ∧ row.id = id ∧ row.version = pack.version + 1

/-- The rules for statements on other tables. -/
abbrev besidePacks : Rules := outside (packTables · = true) False

theorem allowsSideEffects_besidePacks : AllowsSideEffects besidePacks := by
  constructor <;> intros <;> exact Bool.false_ne_true

/-! ## What the requests write -/

/-- Rules that allow rules of policy packs. -/
structure AllowsPolicyRules (W : Rules) : Prop where
  insert : ∀ r : PolicyRule, W.insert (toRow r)
  update : ∀ r r' : PolicyRule, W.update (toRow r) (toRow r')
  delete : ∀ r : PolicyRule, W.delete (toRow r)

theorem allowsPolicyRules_besidePacks : AllowsPolicyRules besidePacks := by
  constructor <;> intros <;> exact Bool.false_ne_true

section Writes

variable {W : Rules}

theorem only_createRule (hW : AllowsPolicyRules W) (policyPackId : UUID)
    (fields : PolicyRepository.RuleFields) :
    (PolicyRepository.createRule policyPackId fields).Only (Writes W) fun _ => True :=
  only_bind only_uuid4 fun _ => only_bind only_now fun _ => only_bind only_now fun _ =>
    only_bind (only_insertOf _ _ (hW.insert _)) fun _ => only_pure _

theorem only_getRule (policyPackId ruleId : UUID) (held : List PolicyRule) :
    (PolicyRepository.getRule policyPackId ruleId held).Only (Writes W) fun _ => True :=
  (only_selectOf _).bind fun _ _ => only_bind (only_scalarOneOrNone _ |>.mono (fun _ h => h)
    fun _ _ => trivial) fun _ => only_pure _

theorem only_updateRule (hW : AllowsPolicyRules W) (rule : PolicyRule)
    (changes : PolicyRepository.RuleChanges) :
    (PolicyRepository.updateRule rule changes).Only (Writes W) fun _ => True :=
  only_bind only_now fun t => only_updateById (f := changes.flush rule t) _ (fun _ => rfl)
    fun _ _ => hW.update _ _

theorem only_deleteRule (hW : AllowsPolicyRules W) (rule : PolicyRule) :
    (PolicyRepository.deleteRule rule).Only (Writes W) fun _ => True :=
  only_bind (only_deleteOf _ fun _ _ => hW.delete _) fun _ => only_pure _

theorem only_updatePack (h : ∀ p p' : PolicyPack, W.update (toRow p) (toRow p')) (pack : PolicyPack)
    (changes : PolicyRepository.PackChanges) :
    (PolicyRepository.updatePack pack changes).Only (Writes W) fun _ => True :=
  only_bind only_now fun t => only_updateById (f := changes.flush pack t) _ (fun _ => rfl)
    fun _ _ => h _ _

theorem only_managedPack (user : User) (o id : UUID) :
    (PolicyService.managedPack user o id).Only (Writes W) fun _ => True := by
  refine only_bind (only_requirePermission _ _ _) fun _ =>
    only_bind (P := fun _ => True) ?_ fun found => ?_
  · refine (only_selectOne _).bind fun found _ => ?_
    cases found with
    | none => exact only_pure _
    | some pack => exact only_bind (only_selectOf _) fun _ => only_pure _
  · cases found with
    | none => exact only_throw _
    | some found => exact only_pure _

end Writes

section Programs

variable {env : Env} {α : Type} {h : Told} {l : OpenTx} {c : Database} {o id : UUID}
  {Φ : α → Told → OpenTx → Database → Prop} {owes : Told → OpenTx → Database → Prop}

/-- What a session owes that changes the pack `id` of the organization `o`. -/
abbrev OwesBump (o id : UUID) : Told → OpenTx → Database → Prop := fun h l _ => Bumps o id h l

/-- The permission check, and the pack as it is read. -/
theorem ensures_managedPack {user : User} {g : PolicyPack × List PolicyRule → Db α}
    (hl : logOn packTables l = []) (hn : .commit ∉ h)
    (hg : ∀ pack rules h' l' c', Saw (packOf o id) pack h' → logOn packTables l' = [] →
      .commit ∉ h' → packDiscipline.ensures owes (returns Φ) (g (pack, rules)) h' l' c') :
    packDiscipline.ensures owes (returns Φ) (PolicyService.managedPack user o id >>= g) h l c := by
  unfold PolicyService.managedPack PolicyRepository.getPack
  simp only [bind_assoc]
  refine ensures_frame (S := packTables) (only_requirePermission _ _ _) fun _ h₁ l₁ c₁ _ x₁ => ?_
  have hl₁ : logOn packTables l₁ = [] := x₁.log.trans hl
  rw [← bind_assoc]
  refine ensures_selectOne (fun _ _ _ _ _ => ensures_throw) fun h₂ c₂ pack x₂ hr hm hp => ?_
  simp only [bind_assoc]
  refine ensures_selectOf fun c₃ x₃ => ?_
  simp only [pure_bind]
  have hsaw : Saw (packOf o id) pack h₂ := ⟨c₂, hr, (mem_view_of_unwritten hl₁ rfl).mp hm, hp⟩
  exact hg pack _ _ _ c₃ (hsaw.mono x₃.told) hl₁
    (x₃.told.no_commit (x₂.told.no_commit (x₁.told.no_commit hn)))

/-- The bump, and what follows it. -/
theorem ensures_bump {pack : PolicyPack} {changes : PolicyRepository.PackChanges}
    {rest : PolicyPack → Db α} (hb : changes.bumpVersion = true) (hl : logOn packTables l = [])
    (hn : .commit ∉ h) (hs : Saw (packOf o id) pack h)
    (hrest : ∀ p, (rest p).Only (Writes besidePacks) fun _ => True) :
    packDiscipline.ensures (OwesBump o id) (returns fun _ => OwesBump o id)
      (PolicyRepository.updatePack pack changes >>= rest) h l c := by
  unfold PolicyRepository.updatePack
  simp only [bind_assoc]
  refine ensures_now fun h₁ c₁ t x₁ _ => ?_
  refine ensures_updateById fun c₂ row x₂ hrow hid => ?_
  refine ensures_beside (S := packTables) (hrest _) fun h₃ l₃ c₃ x₃ => ⟨?_, ?_⟩
  · exact x₃.told.no_commit (x₁.told.no_commit hn)
  · have hpack : pack.id = id := by
      obtain ⟨_, -, -, hp⟩ := hs
      exact (packOf_eq.mp hp).1
    refine ⟨pack, changes.flush pack t row, (hs.mono x₁.told).mono x₃.told, ?_, ?_, ?_⟩
    · rw [x₃.log, logOn_insert _ rfl, hl]
      rfl
    · exact (hid : row.id = pack.id).trans hpack
    · exact PolicyRepository.PackChanges.version_flush hb pack t row

/-! ## Services -/

theorem ensures_updatePack (user : User) (payload : PolicyPackUpdateRequest)
    (hl : logOn packTables l = []) (hn : .commit ∉ h) :
    packDiscipline.ensures (OwesBump o id) (returns fun _ => OwesBump o id)
      (PolicyService.updatePack user o id payload) h l c := by
  refine ensures_managedPack hl hn fun pack _ h₁ l₁ c₁ hs hl₁ hn₁ => ?_
  exact ensures_bump rfl hl₁ hn₁ hs fun _ =>
    only_bind (only_recordEventOrFail allowsSideEffects_besidePacks _ _ _ _ _) fun _ => only_pure _

theorem ensures_addRule (user : User) (payload : PolicyRuleCreateRequest env)
    (hl : logOn packTables l = []) (hn : .commit ∉ h) :
    packDiscipline.ensures (OwesBump o id) (returns fun _ => OwesBump o id)
      (PolicyService.addRule env user o id payload) h l c := by
  refine ensures_managedPack hl hn fun pack _ h₁ l₁ c₁ hs hl₁ hn₁ => ?_
  refine ensures_frame (S := packTables) (only_orRaise _) fun _ h₂ l₂ c₂ _ x₂ => ?_
  refine ensures_frame (S := packTables) (only_createRule allowsPolicyRules_besidePacks _ _)
    fun rule h₃ l₃ c₃ _ x₃ => ?_
  have told := x₂.told.trans x₃.told
  exact ensures_bump rfl (x₃.log.trans (x₂.log.trans hl₁)) (told.no_commit hn₁) (hs.mono told)
    fun _ => only_bind (only_recordEventOrFail allowsSideEffects_besidePacks _ _ _ _ _)
      fun _ => only_pure _

theorem ensures_updateRule (user : User) (ruleId : UUID) (payload : PolicyRuleUpdateRequest)
    (hl : logOn packTables l = []) (hn : .commit ∉ h) :
    packDiscipline.ensures (OwesBump o id) (returns fun _ => OwesBump o id)
      (PolicyService.updateRule env user o id ruleId payload) h l c := by
  refine ensures_managedPack hl hn fun pack rules h₁ l₁ c₁ hs hl₁ hn₁ => ?_
  refine ensures_frame (S := packTables) (only_getRule _ _ _) fun found h₂ l₂ c₂ _ x₂ => ?_
  cases found with
  | none => exact ensures_throw
  | some rule =>
    refine ensures_frame (S := packTables) (only_orRaise _) fun _ h₃ l₃ c₃ _ x₃ => ?_
    refine ensures_frame (S := packTables) (only_updateRule allowsPolicyRules_besidePacks _ _)
      fun updated h₄ l₄ c₄ _ x₄ => ?_
    have told := x₂.told.trans (x₃.told.trans x₄.told)
    exact ensures_bump rfl (x₄.log.trans (x₃.log.trans (x₂.log.trans hl₁))) (told.no_commit hn₁)
      (hs.mono told) fun _ => only_bind
        (only_recordEventOrFail allowsSideEffects_besidePacks _ _ _ _ _) fun _ => only_pure _

theorem ensures_deleteRule (user : User) (ruleId : UUID) (hl : logOn packTables l = [])
    (hn : .commit ∉ h) :
    packDiscipline.ensures (OwesBump o id) (returns fun _ => OwesBump o id)
      (PolicyService.deleteRule user o id ruleId) h l c := by
  refine ensures_managedPack hl hn fun pack rules h₁ l₁ c₁ hs hl₁ hn₁ => ?_
  refine ensures_frame (S := packTables) (only_getRule _ _ _) fun found h₂ l₂ c₂ _ x₂ => ?_
  cases found with
  | none => exact ensures_throw
  | some rule =>
    refine ensures_frame (S := packTables) (only_deleteRule allowsPolicyRules_besidePacks _)
      fun _ h₃ l₃ c₃ _ x₃ => ?_
    have told := x₂.told.trans x₃.told
    exact ensures_bump rfl (x₃.log.trans (x₂.log.trans hl₁)) (told.no_commit hn₁) (hs.mono told)
      fun _ => only_recordEventOrFail allowsSideEffects_besidePacks _ _ _ _ _

/-! ## Requests -/

/-- A session that returns has committed. -/
def HasCommitted {β : Type} (result : Except Exc β) (h : Told) : Prop :=
  ∀ a, result = .ok a → .commit ∈ h

/-- **Every request owes a bump** when it commits. -/
theorem ensures_policyServe (env : Env) :
    packDiscipline.Ensures (fun r : PolicyChange env => OwesBump r.organizationId r.policyPackId)
      (fun _ => HasCommitted) PolicyChange.serve := by
  intro r c _
  have huser : ∀ {access : RawToken} {o id : UUID} {β γ : Type} {service : User → Db β} {f : β → γ},
      (∀ user h' l' c', logOn packTables l' = [] → .commit ∉ h' →
        packDiscipline.ensures (OwesBump o id) (returns fun _ => OwesBump o id) (service user) h' l' c') →
      packDiscipline.ensures (OwesBump o id) (returns fun _ => OwesBump o id)
        (getCurrentUser env access >>= fun user => service user >>= fun a => pure (f a)) [] .start c := by
    intro access o id β γ service f hservice
    refine ensures_frame (S := packTables) (only_getCurrentUser env access)
      fun user h₁ l₁ c₁ _ x₁ => ensures_map (hservice user h₁ l₁ c₁ ?_ ?_)
    · exact x₁.log
    · exact x₁.told.no_commit List.not_mem_nil
  have hroute : packDiscipline.ensures (OwesBump r.organizationId r.policyPackId)
      (returns fun _ => OwesBump r.organizationId r.policyPackId) r.route [] .start c := by
    cases r with
    | updatePack access o id payload =>
      exact huser fun user _ _ _ hl hn => ensures_updatePack user payload hl hn
    | addRule access o id payload =>
      exact huser fun user _ _ _ hl hn => ensures_addRule user payload hl hn
    | updateRule access o id ruleId payload =>
      exact huser fun user _ _ _ hl hn => ensures_updateRule user ruleId payload hl hn
    | deleteRule access o id ruleId =>
      exact huser fun user _ _ _ hl hn => ensures_deleteRule user ruleId hl hn
  refine ensures_unitOfWork (returns fun _ => OwesBump r.organizationId r.policyPackId)
    (fun a h l c ha => ⟨ha a rfl, fun _ _ _ _ => List.mem_cons_self⟩) (fun _ _ _ _ _ ha => nomatch ha)
    hroute

theorem only_policyRoute {W : Rules} (hrules : AllowsPolicyRules W) (heffects : AllowsSideEffects W)
    (hu : ∀ p p' : PolicyPack, W.update (toRow p) (toRow p')) (r : PolicyChange env) :
    r.route.Only (Writes W) fun _ => True := by
  have hpack : ∀ pack changes, (PolicyRepository.updatePack pack changes).Only (Writes W) fun _ => True :=
    only_updatePack hu
  cases r with
  | updatePack access o id payload =>
    refine only_bind (only_getCurrentUser env access) fun user =>
      only_bind (P := fun _ => True) ?_ fun _ => only_pure _
    exact only_bind (only_managedPack _ _ _) fun _ => only_bind (hpack _ _) fun _ =>
      only_bind (only_recordEventOrFail heffects _ _ _ _ _) fun _ => only_pure _
  | addRule access o id payload =>
    refine only_bind (only_getCurrentUser env access) fun user =>
      only_bind (P := fun _ => True) ?_ fun _ => only_pure _
    exact only_bind (only_managedPack _ _ _) fun _ => only_bind (only_orRaise _) fun _ =>
      only_bind (only_createRule hrules _ _) fun _ => only_bind (hpack _ _) fun _ =>
      only_bind (only_recordEventOrFail heffects _ _ _ _ _) fun _ => only_pure _
  | updateRule access o id ruleId payload =>
    refine only_bind (only_getCurrentUser env access) fun user =>
      only_bind (P := fun _ => True) ?_ fun _ => only_pure _
    refine only_bind (only_managedPack _ _ _) fun _ => only_bind (only_getRule _ _ _) fun found => ?_
    cases found with
    | none => exact only_throw _
    | some rule =>
      exact only_bind (only_orRaise _) fun _ => only_bind (only_updateRule hrules _ _) fun _ =>
        only_bind (hpack _ _) fun _ => only_bind (only_recordEventOrFail heffects _ _ _ _ _) fun _ =>
        only_pure _
  | deleteRule access o id ruleId =>
    refine only_bind (only_getCurrentUser env access) fun user =>
      only_bind (P := fun _ => True) ?_ fun _ => only_pure _
    refine only_bind (only_managedPack _ _ _) fun _ => only_bind (only_getRule _ _ _) fun found => ?_
    cases found with
    | none => exact only_throw _
    | some rule =>
      exact only_bind (only_deleteRule hrules _) fun _ => only_bind (hpack _ _) fun _ =>
        only_recordEventOrFail heffects _ _ _ _ _

theorem allowsPolicyRules_body : AllowsPolicyRules bodyRules :=
  ⟨fun _ => trivial, fun _ _ => trivial, fun _ => trivial⟩

theorem allowsSideEffects_body : AllowsSideEffects bodyRules :=
  ⟨fun _ => trivial, fun _ => trivial, fun _ _ => trivial⟩

end Programs

/-! ## Runs -/

abbrev PolicyRun (env : Env) :=
  Recorded Row Answer Exc PolicyResponseBody (PolicyChange env) World

section Runs

variable {env : Env} {s : State} {x y : PolicyRun env}

/-- A session commits only while the version it has read of its pack is the committed one. -/
def FreshBumps (x y : PolicyRun env) : Prop :=
  ∀ n tx, x.config.txs[n]? = some tx → (∃ k, tx.prog = .commit k) → y.config.txs[n]? ≠ some tx →
    ∀ read current : PolicyPack,
      Saw (packOf tx.req.organizationId tx.req.policyPackId) read (x.history n) →
      current ∈ rowsOf PolicyPack x.config.committed → current.id = read.id →
      current.version = read.version

/-- Every pack of `c₀` is there, and its version has grown by the number of requests that have changed
it and returned. -/
def VersionsCount (c₀ : Database) (x : PolicyRun env) : Prop :=
  ∀ p ∈ rowsOf PolicyPack c₀, ∃ p' ∈ rowsOf PolicyPack x.config.committed, p'.id = p.id ∧
    p'.version = p.version + x.config.returns fun r => decide (r.policyPackId = p.id)

/-- What every recorded run keeps. -/
structure PolicyKept (x : PolicyRun env) : Prop where
  kept : Kept packDiscipline (fun r : PolicyChange env => OwesBump r.organizationId r.policyPackId)
    (fun _ => HasCommitted) x
  unit : ∀ tx ∈ x.config.txs, tx.OneUnit (Writes bodyRules)

theorem PolicyKept.reach {G : PolicyRun env → PolicyRun env → Prop}
    (h : RecordedReach respond PolicyChange.serve G (s.open).unrecorded x) : PolicyKept x where
  kept := by
    refine Kept.reach (ensures_policyServe env) (fun _ h l c _ _ => ?_) (fun _ _ _ _ ha => nomatch ha)
      (.open trivial fun _ _ _ hm => nomatch hm) h
    exact ⟨trivial, fun _ _ _ => trivial, fun _ _ _ hm => (nomatch hm), fun _ _ => trivial⟩
  unit := h.reach.inUnit id id (fun r => ⟨r.route, rfl, only_policyRoute
    allowsPolicyRules_body allowsSideEffects_body (fun _ _ => trivial) r⟩) fun _ hm => nomatch hm

/-- **A fresh step** counts. -/
theorem VersionsCount.step {c₀ : Database} (hc : VersionsCount c₀ x) (k : PolicyKept x)
    (hs : RecordedStep respond PolicyChange.serve x y) (hf : FreshBumps x y) :
    VersionsCount c₀ y := by
  have hstart : ∀ r : PolicyChange env, r.serve.returned = false := fun r =>
    Prog.returned_of_running (Prog.unitOfWork_not_done r.route)
  intro p hp
  obtain ⟨p', hp', hid, hversion⟩ := hc p hp
  rcases hs.step.returns id id hstart k.unit with ⟨hcom, hret⟩ | ⟨n, tx, hn, hcommit, hne, hcom, hret⟩
  · rw [hcom, hret]
    exact ⟨p', hp', hid, hversion⟩
  · obtain ⟨rest, hrest⟩ := hcommit
    obtain ⟨read, row, hsaw, hlog, hrow, hnext⟩ := (k.kept.owes_of_commit hn hrest).stored
    have hview : ∀ q, q ∈ rowsOf PolicyPack y.config.committed ↔ q = row ∨
        (q ∈ rowsOf PolicyPack x.config.committed ∧ q.id ≠ row.id) := by
      intro q
      rw [hcom, mem_rowsOf_view (S := packTables) rfl, hlog, Table.apply_cons, Table.apply_nil]
      exact mem_rowsOf_store
    rw [hret]
    by_cases hpack : tx.req.policyPackId = p.id
    · have hread : read.id = tx.req.policyPackId := by
        obtain ⟨_, -, -, hq⟩ := hsaw
        exact (packOf_eq.mp hq).1
      have hfresh : p'.version = read.version :=
        hf n tx hn ⟨rest, hrest⟩ hne read p' hsaw hp' (by rw [hid, hread, hpack])
      refine ⟨row, (hview row).mpr (.inl rfl), by rw [hrow, hpack], ?_⟩
      simp only [hpack, decide_true, if_true]
      omega
    · refine ⟨p', (hview p').mpr (.inr ⟨hp', ?_⟩), hid, ?_⟩
      · rw [hid, hrow]
        exact fun h => hpack h.symm
      · simp only [hpack, decide_false, Bool.false_eq_true, if_false]
        exact hversion

/-- A session that has read only what is committed is fresh. -/
theorem FreshBumps.of_current (k : PolicyKept x) (hc : x.Current)
    (_ : RecordedStep respond PolicyChange.serve x y) : FreshBumps x y := by
  rintro n tx hn ⟨rest, hrest⟩ - read current ⟨t, hread, hmem, -⟩ hcurrent hid
  have huncommitted := (k.kept.owes_of_commit hn hrest).uncommitted
  have ht : t = x.config.committed :=
    hc.reads n tx hn (by rw [hrest]; rfl) huncommitted _ t hread
  rw [entity_ext hcurrent (ht ▸ hmem) hid]

/-- **Versions count changes** along every run in which no session commits a version that it has read
before another session's commit. -/
theorem versions_count (env : Env) (s : State) (x : PolicyRun env)
    (h : RecordedReach respond PolicyChange.serve FreshBumps (s.open).unrecorded x) :
    VersionsCount s.committed x := by
  induction h with
  | refl => exact fun p hp => ⟨p, hp, rfl, rfl⟩
  | tail hr hs ih => exact ih.step (PolicyKept.reach hr) hs.1 hs.2

/-- The owner of the organization. -/
def packOwner : User :=
  { id := 1, email := "a@b.co", username := "a", hashedPassword := "", role := .user, isActive := true,
    emailVerifiedAt := none }

/-- The pack. -/
def firstPack : PolicyPack := ⟨4, 2, "Pipelines", none, true, 1, 1, 0, 0, none⟩

/-- A database with an organization, its owner and a pack. -/
def packState : State :=
  { State.trial with
    nextId := 5
    committed := Table.empty.apply [
      .store (toRow packOwner),
      .store (toRow (⟨2, "o", "o", 1, 0, 0, none⟩ : Organization)),
      .store (toRow (⟨3, 2, 1, .owner, 0, 0⟩ : OrganizationMember)),
      .store (toRow firstPack)] }

theorem rowsOf_packState : rowsOf PolicyPack packState.committed = [firstPack] := rfl

/-- The owner renames the pack. -/
def renamePack : PolicyChange .trial :=
  .updatePack (.jwt ⟨some 1, 1, .access, 3600, none⟩) 2 4 ⟨some "Builds", none, none, by decide⟩

/-- Two changes one after the other make version 3 of version 1. -/
theorem versions_count_serial : ∃ x : PolicyRun .trial,
    RecordedReach respond PolicyChange.serve FreshBumps (packState.open).unrecorded x ∧
      VersionsCount packState.committed x ∧ (∀ tx ∈ x.config.txs, tx.prog.returned = true) ∧
      (x.config.returns fun _ => true) = 2 ∧
      ∃ p ∈ rowsOf PolicyPack x.config.committed, p.id = 4 ∧ p.version = 3 := by
  obtain ⟨c, hc, hall⟩ := (Option.any_eq_true (fun c : Config Row Answer Exc PolicyResponseBody
      (PolicyChange .trial) World => (c.txs.all fun tx => tx.prog.returned) &&
      decide ((c.returns fun _ => true) = 2) &&
      (rowsOf PolicyPack c.committed).any fun p => decide (p.id = 4) && decide (p.version = 3)) _).mp
    (by decide : ((packState.open : Config Row Answer Exc PolicyResponseBody (PolicyChange .trial)
      World).serveAlone respond PolicyChange.serve [(renamePack, 14), (renamePack, 14)]).any _ = true)
  obtain ⟨g, hr⟩ := RecordedReach.of_current (G := FreshBumps) rfl
    (fun _ _ hr hx hs => .of_current (PolicyKept.reach hr) hx hs) _ hc
  simp only [Bool.and_eq_true, List.all_eq_true, List.any_eq_true, decide_eq_true_eq] at hall
  exact ⟨⟨c, g⟩, hr, versions_count .trial packState ⟨c, g⟩ hr, hall.1.1, hall.1.2, hall.2⟩

/-- Two changes that both read version 1 before either is committed make version 2 of it. -/
theorem exists_lost_bump : ∃ x : PolicyRun .trial,
    RecordedReach respond PolicyChange.serve (fun _ _ => True) (packState.open).unrecorded x ∧
      (∀ tx ∈ x.config.txs, tx.prog.returned = true) ∧
      (x.config.returns fun r => decide (r.policyPackId = 4)) = 2 ∧
      rowsOf PolicyPack packState.committed = [firstPack] ∧
      (∀ p ∈ rowsOf PolicyPack x.config.committed, p.id = 4 ∧ p.version = 2) ∧
      ¬ VersionsCount packState.committed x := by
  obtain ⟨c, hreach, hc⟩ : ∃ c : Config Row Answer Exc PolicyResponseBody (PolicyChange .trial) World,
      Reach respond PolicyChange.serve packState.open c ∧
      ((c.txs.all fun tx => tx.prog.returned) &&
        decide ((c.returns fun r => decide (r.policyPackId = 4)) = 2) &&
        (rowsOf PolicyPack c.committed).all fun p => decide (p.id = 4) && decide (p.version = 2))
          = true :=
    exists_reach_of_run respond _ (.start renamePack :: .start renamePack ::
      (List.replicate 6 (.turn 0) ++ List.replicate 6 (.turn 1) ++ List.replicate 8 (.turn 0) ++
        List.replicate 8 (.turn 1))) _ (by decide)
  obtain ⟨g, hr⟩ := RecordedReach.of_reach hreach fun _ => []
  simp only [Bool.and_eq_true, List.all_eq_true, decide_eq_true_eq] at hc
  obtain ⟨⟨hret, htwo⟩, hversion⟩ := hc
  refine ⟨⟨c, g⟩, hr, hret, htwo, rowsOf_packState, hversion, fun h => ?_⟩
  obtain ⟨p', hp', hid, hcount⟩ := h firstPack (rowsOf_packState ▸ List.mem_cons_self)
  have h2 : p'.version = 2 := (hversion p' hp').2
  have h3 : p'.version = 1 + 2 := by
    rw [← htwo]
    exact hcount
  omega

end Runs

end DevOps
