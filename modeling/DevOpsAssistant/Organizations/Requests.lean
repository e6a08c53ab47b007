import DevOpsAssistant.Organizations.Effects

/-!
# Every request writes an effect

One rule for each check the services make, and one lemma for each service: what the session has
written when the service returns is an effect of the request.

* `ensures_requirePermission`, `ensures_insertMember`, `ensures_openInvitation`: the shared parts.
* `ensures_create`, `ensures_updateMember`, `ensures_accept`, …: the services.
* **`ensures_serve`**: every request commits only what `OrgEffect` says.
-/

namespace DevOps

open Txn Discipline

/-- The rules for statements on other tables. -/
abbrev besideOrgs : Rules := outside (orgTables · = true) False

theorem allowsSideEffects_besideOrgs : AllowsSideEffects besideOrgs := by
  constructor <;> intros <;> exact Bool.false_ne_true

theorem allowsAccounts_besideOrgs : AllowsAccounts besideOrgs := by
  constructor <;> intros <;> exact Bool.false_ne_true

theorem allowsSessions_besideOrgs : AllowsSessions besideOrgs := by
  constructor <;> intros <;> exact Bool.false_ne_true

/-- A session that returns has committed. -/
def Returned (_ : BackendRequest) (result : Except Exc BackendResponse) (h : Told) : Prop :=
  ∀ a, result = .ok a → .commit ∈ h

section Rules

variable {env : Env} {r : BackendRequest} {α β : Type} {h h' : Told} {l l' : OpenTx}
  {c c' : Database}

/-- The part of a request after its last write of organizations. -/
theorem ensures_rest {p : Db α} {P : α → Prop} (hp : p.Only (Writes besideOrgs) P)
    (o : Owing env r h l c) :
    orgDiscipline.ensures (Owing env r) (returns fun _ => Owing env r) p h l c :=
  ensures_beside hp fun _ _ _ x => o.extends x

variable {Φ : α → Told → OpenTx → Database → Prop} {access : RawToken} {user : User}
  {owes : Told → OpenTx → Database → Prop}

/-- The check of a permission reads the organization and the membership of the user. -/
theorem ensures_requirePermission {o : UUID} {permission : Permission}
    {g : Organization × OrganizationMember → Db α} (hl : logOn orgTables l = [])
    (hs : SignedIn env access user h) (hg : ∀ org actor h' c', Since orgDiscipline h l c h' l c' →
      org.id = o → Acts env h' access o permission user actor →
      orgDiscipline.ensures owes (returns Φ) (g (org, actor)) h' l c') :
    orgDiscipline.ensures owes (returns Φ)
      (OrganizationAuthService.requirePermission o user.id permission >>= g) h l c := by
  rw [OrganizationAuthService.requirePermission, OrganizationAuthService.requireMembership,
    OrganizationAuthService.getActiveOrganization, OrganizationAuthService.getMembership]
  simp only [bind_assoc]
  refine ensures_selectOne (fun _ _ _ _ _ => ensures_throw) fun h₁ c₁ org x₁ hr₁ horg hpo => ?_
  simp only [pure_bind]
  refine ensures_selectOne (fun _ _ _ _ _ => ensures_throw) fun h₂ c₂ actor x₂ hr₂ hm hpm => ?_
  simp only [pure_bind]
  by_cases hperm : roleHasPermission actor.role permission = true
  · rw [if_pos hperm]
    have hsaw : Saw (activeOrganization o) org h₁ :=
      ⟨c₁, hr₁, (mem_view_of_unwritten hl rfl).mp horg, hpo⟩
    have hmember : Saw (memberOf o user.id) actor h₂ :=
      ⟨c₂, hr₂, (mem_view_of_unwritten hl rfl).mp hm, hpm⟩
    have x := x₁.trans x₂
    have hid : org.id = o := by
      simp only [activeOrganization, Bool.and_eq_true, decide_eq_true_eq] at hpo
      exact hpo.1
    exact hg org actor h₂ c₂ x hid ⟨hs.mono x.told, ⟨org, hsaw.mono x₂.told⟩, hmember, hperm⟩
  · rw [if_neg hperm]
    exact ensures_throw

/-- The flush of a changed row with unique columns. -/
theorem ensures_updateUnique {T : Type} [Entity T] {clash : T → Bool} {id : UUID} {f : T → T}
    {hf : ∀ t, Entity.id (f t) = Entity.id t} {g : T → Db α}
    (hg : ∀ h' c' t, Since orgDiscipline h l c h' (l.insert (toRow (f t))) c' →
      t ∈ rowsOf T (l.view c') → Entity.id t = id →
      orgDiscipline.ensures owes (returns Φ) (g (f t)) h' (l.insert (toRow (f t))) c') :
    orgDiscipline.ensures owes (returns Φ) (updateUnique clash id f hf >>= g) h l c := by
  unfold updateUnique
  simp only [bind_assoc]
  refine ensures_selectOf fun c₁ x₁ => ?_
  split
  · exact ensures_updateById fun c₂ t x₂ ht hid => hg _ c₂ t (x₁.trans x₂) ht hid
  · exact ensures_throw

/-- A new membership. -/
theorem ensures_insertMember {o u : UUID} {role : OrgRole} {g : OrganizationMember → Db α}
    (hg : ∀ (m : OrganizationMember) h' c', m.organizationId = o → m.userId = u → m.role = role →
      Since orgDiscipline h l c h' ((l.draw m.id).insert (toRow m)) c' →
      orgDiscipline.ensures owes (returns Φ) (g m) h' ((l.draw m.id).insert (toRow m)) c') :
    orgDiscipline.ensures owes (returns Φ) (OrganizationRepository.addMember o u role >>= g)
      h l c := by
  rw [OrganizationRepository.addMember]
  simp only [bind_assoc]
  refine ensures_uuid4 fun c₁ n x₁ => ?_
  refine ensures_now fun h₂ c₂ t x₂ _ => ensures_now fun h₃ c₃ t' x₃ _ => ?_
  refine ensures_insertOf fun c₄ x₄ _ _ => ?_
  simp only [pure_bind]
  exact hg ⟨n, o, u, role, t, t'⟩ h₃ c₄ rfl rfl rfl (x₁.trans (x₂.trans (x₃.trans x₄)))

/-- Admins act on no owner and make no owner. -/
theorem ensures_ensureCanManageTarget {actor target : OrganizationMember}
    {assigningRole : Option OrgRole} {g : Unit → Db α}
    (hg : (actor.role = .admin → target.role ≠ .owner ∧ assigningRole ≠ some .owner) →
      orgDiscipline.ensures owes (returns Φ) (g ()) h l c) :
    orgDiscipline.ensures owes (returns Φ)
      (OrganizationService.ensureCanManageTarget actor target assigningRole >>= g) h l c := by
  unfold OrganizationService.ensureCanManageTarget
  by_cases hadmin : actor.role = .admin
  · rw [if_pos hadmin]
    by_cases htarget : target.role = .owner
    · rw [if_pos htarget]
      exact ensures_throw
    · rw [if_neg htarget]
      by_cases hassign : assigningRole = some .owner
      · rw [if_pos hassign]
        exact ensures_throw
      · rw [if_neg hassign]
        exact hg fun _ => ⟨htarget, hassign⟩
  · rw [if_neg hadmin]
    exact hg fun hr => absurd hr hadmin

/-- The check that an organization keeps an owner counts at least two. -/
theorem ensures_keepFinalOwner {o u : UUID} {target : OrganizationMember} {loses : Bool}
    {message : String} {g : Unit → Db α} (hl : logOn orgTables l = [])
    (hs : Saw (memberOf o u) target h) (hg : ∀ h' c', Since orgDiscipline h l c h' l c' →
      (target.role = .owner → loses = true → CountedAfter o u target h') →
      orgDiscipline.ensures owes (returns Φ) (g ()) h' l c') :
    orgDiscipline.ensures owes (returns Φ)
      (OrganizationService.keepFinalOwner o target loses message >>= g) h l c := by
  unfold OrganizationService.keepFinalOwner
  by_cases hloses : target.role = .owner ∧ loses = true
  · rw [if_pos hloses, OrganizationAuthService.countOwners]
    simp only [bind_assoc]
    refine ensures_selectOf fun c' x => ?_
    simp only [pure_bind]
    by_cases hcount : ((rowsOf OrganizationMember (l.view c')).filter (ownerOf o)).length ≤ 1
    · rw [if_pos hcount]
      exact ensures_throw
    · rw [if_neg hcount]
      obtain ⟨m, m', hm, hp, hm', hp', hne⟩ := exists_two_of_lt (Nat.lt_of_not_le hcount)
      exact hg _ c' x fun _ _ => ⟨[], c', h, m, m', rfl, hs, (mem_view_of_unwritten hl rfl).mp hm,
        hp, (mem_view_of_unwritten hl rfl).mp hm', hp', hne⟩
  · rw [if_neg hloses]
    refine ensures_of_rely fun c' e => hg h c' (.of_env e) fun h₁ h₂ => absurd ⟨h₁, h₂⟩ hloses

theorem identityMapped_singleton (held row : OrganizationMember) :
    identityMapped [held] row = if held.id = row.id then held else row := by
  change (List.find? (fun t => decide (t.id = row.id)) [held]).getD row = _
  by_cases hid : held.id = row.id <;> simp [hid]

/-- The membership of the target, as the session holds it. -/
theorem saw_identityMapped {o u v : UUID} {actor row : OrganizationMember}
    (ha : Saw (memberOf o v) actor h) (x : Since orgDiscipline h l c h' l' c')
    (hr : Reads (memberOf o u) c' h') (hm : row ∈ rowsOf OrganizationMember c')
    (hp : memberOf o u row = true) :
    Saw (memberOf o u) (identityMapped [actor] row) h' ∧
      (identityMapped [actor] row).id = row.id := by
  rw [identityMapped_singleton]
  by_cases hid : actor.id = row.id
  · rw [if_pos hid]
    refine ⟨?_, hid⟩
    obtain ⟨c₀, hr₀, hm₀, hp₀⟩ := ha
    -- the membership has kept its user, so it was looked for under the same condition
    obtain ⟨-, huser⟩ := x.env.follows _ _ hr₀ actor hm₀ row hm hid
    simp only [memberOf, Bool.and_eq_true, decide_eq_true_eq] at hp hp₀
    obtain rfl : v = u := by rw [← hp₀.2, ← huser, hp.2]
    exact ⟨c₀, x.told.mem hr₀, hm₀, by simp [memberOf, hp₀]⟩
  · rw [if_neg hid]
    exact ⟨⟨c', hr, hm, hp⟩, rfl⟩

end Rules

/-! ## Services -/

section Services

variable {env : Env} {access : RawToken} {user : User} {h : Told} {l : OpenTx} {c : Database}

/-- The session serves `user` and has not written anything of organizations yet. -/
structure Begun (env : Env) (access : RawToken) (user : User) (h : Told) (l : OpenTx) : Prop where
  unwritten : logOn orgTables l = []
  uncommitted : .commit ∉ h
  signedIn : SignedIn env access user h

theorem ensures_create (b : Begun env access user h l) (name : String) (slug : Option String) :
    orgDiscipline.ensures (Owing env (.organization (.create access name slug)))
      (returns fun _ => Owing env (.organization (.create access name slug)))
      (OrganizationService.create env user name slug) h l c := by
  unfold OrganizationService.create
  simp only
  refine ensures_frame (S := orgTables) (only_normalizeSlug env _) fun slug' h₁ l₁ c₁ _ x₁ => ?_
  have hl₁ : logOn orgTables l₁ = [] := x₁.log.trans b.unwritten
  refine ensures_selectOne (fun h₂ c₂ x₂ _ _ => ?_) fun _ _ _ _ _ _ _ => ensures_throw
  rw [OrganizationRepository.create]
  simp only [bind_assoc]
  refine ensures_uuid4 fun c₃ n x₃ => ?_
  refine ensures_now fun h₄ c₄ t x₄ _ => ensures_now fun h₅ c₅ t' x₅ _ => ?_
  refine ensures_insertOf fun c₆ x₆ _ _ => ?_
  simp only [pure_bind]
  refine ensures_insertMember fun member h₇ c₇ ho hu hr x₇ => ?_
  have x := x₁.toSince.trans (x₂.trans (x₃.trans (x₄.trans (x₅.trans (x₆.trans x₇)))))
  refine ensures_rest (P := fun _ => True) ?_ ⟨x.told.no_commit b.uncommitted, ?_, ?_⟩
  · exact only_bind (only_recordEventOrFail allowsSideEffects_besideOrgs _ _ _ _ _) fun _ =>
      only_bind (only_tryMarkFlag allowsSideEffects_besideOrgs _ _ _ _) fun _ => trivial
  · rw [logOn_insert _ rfl, logOn_draw, logOn_insert _ rfl, logOn_draw, hl₁]
    exact .create (b.signedIn.mono x.told)
      (List.mem_cons_of_mem _ (List.mem_cons_self (l := l₁.ids))) List.mem_cons_self rfl rfl ho hu hr
  · rw [logOn_insert _ rfl, logOn_draw, logOn_insert _ rfl, logOn_draw, hl₁]
    intro w hw
    rcases List.mem_cons.mp hw with rfl | hw
    · exact List.mem_cons_of_mem _ List.mem_cons_self
    · cases List.mem_singleton.mp hw
      exact List.mem_cons_self

theorem ensures_update (b : Begun env access user h l) (o : UUID) (name slug : Option String) :
    orgDiscipline.ensures (Owing env (.organization (.update access o name slug)))
      (returns fun _ => Owing env (.organization (.update access o name slug)))
      (OrganizationService.update env user o name slug) h l c := by
  unfold OrganizationService.update
  refine ensures_requirePermission b.unwritten b.signedIn fun org actor h₁ c₁ x₁ _ acts => ?_
  simp only
  by_cases hfields : (name.isNone && slug.isNone) = true
  · rw [if_pos hfields]
    exact ensures_throw
  rw [if_neg hfields]
  refine ensures_frame (S := orgTables) (only_updatedSlug env _ _ _) fun slug' h₂ l₂ c₂ _ x₂ => ?_
  have hl₂ : logOn orgTables l₂ = [] := x₂.log.trans b.unwritten
  unfold OrganizationRepository.update
  simp only [bind_assoc]
  refine ensures_now fun h₃ c₃ t x₃ _ => ?_
  refine ensures_updateUnique fun h₄ c₄ row x₄ hrow _ => ?_
  have x := x₁.trans (x₂.toSince.trans (x₃.trans x₄))
  refine ensures_rest (P := fun _ => True) ?_ ⟨x.told.no_commit b.uncommitted, ?_, ?_⟩
  · exact only_bind (only_recordEventOrFail allowsSideEffects_besideOrgs _ _ _ _ _) fun _ => trivial
  · rw [logOn_insert _ rfl, hl₂]
    exact .update ((mem_view_of_unwritten hl₂ rfl).mp hrow) rfl rfl rfl
  · rw [logOn_insert _ rfl, hl₂]
    exact locked_insert _

theorem ensures_delete (b : Begun env access user h l) (o : UUID) :
    orgDiscipline.ensures (Owing env (.organization (.delete access o)))
      (returns fun _ => Owing env (.organization (.delete access o)))
      (OrganizationService.delete user o) h l c := by
  unfold OrganizationService.delete
  refine ensures_requirePermission b.unwritten b.signedIn fun org actor h₁ c₁ x₁ horg acts => ?_
  unfold OrganizationRepository.softDelete
  simp only [bind_assoc]
  refine ensures_now fun h₂ c₂ t x₂ _ => ensures_now fun h₃ c₃ t' x₃ _ => ?_
  refine ensures_updateById fun c₄ row x₄ hrow hid => ?_
  have x := x₂.trans (x₃.trans x₄)
  have acts' := acts.mono x.told
  refine ensures_rest (only_recordEventOrFail allowsSideEffects_besideOrgs _ _ _ _ _)
    ⟨(x₁.trans x).told.no_commit b.uncommitted, ?_, ?_⟩
  · rw [logOn_insert _ rfl, b.unwritten]
    exact .delete acts' ((mem_view_of_unwritten b.unwritten rfl).mp hrow) (hid.trans horg)
  · rw [logOn_insert _ rfl, b.unwritten]
    exact locked_insert _

theorem ensures_addMember (b : Begun env access user h l) (o : UUID) (email : String)
    (role : OrgRole) :
    orgDiscipline.ensures (Owing env (.organization (.addMember access o email role)))
      (returns fun _ => Owing env (.organization (.addMember access o email role)))
      (OrganizationService.addMember env user o email role) h l c := by
  unfold OrganizationService.addMember
  refine ensures_requirePermission b.unwritten b.signedIn fun org actor h₁ c₁ x₁ _ acts => ?_
  simp only
  by_cases hassign : role = .owner ∧ actor.role ≠ .owner
  · rw [if_pos hassign]
    exact ensures_throw
  rw [if_neg hassign]
  refine ensures_selectOne (fun _ _ _ _ _ => ensures_throw) fun h₂ c₂ targetUser x₂ _ _ _ => ?_
  simp only
  refine ensures_selectOne (fun h₃ c₃ x₃ _ _ => ?_) fun _ _ _ _ _ _ _ => ensures_throw
  refine ensures_insertMember fun member h₄ c₄ ho hu hr x₄ => ?_
  have x := x₂.trans (x₃.trans x₄)
  refine ensures_rest (P := fun _ => True) ?_ ⟨(x₁.trans x).told.no_commit b.uncommitted, ?_, ?_⟩
  · exact only_bind (only_recordEventOrFail allowsSideEffects_besideOrgs _ _ _ _ _) fun _ => trivial
  · rw [logOn_insert _ rfl, logOn_draw, b.unwritten]
    exact .addMember (acts.mono x.told) (fun h => not_not.mp fun hn => hassign ⟨h, hn⟩)
      List.mem_cons_self ho hr
  · rw [logOn_insert _ rfl, logOn_draw, b.unwritten]
    exact locked_insert _

/-- The first part of a change to a member: the permission, the target and its guards. -/
theorem ensures_target (b : Begun env access user h l) {α : Type} {r : BackendRequest}
    {Φ : α → Told → OpenTx → Database → Prop} {o u : UUID} {assigning : Option OrgRole}
    {loses : Bool} {message : String} {g : OrganizationMember → OrganizationMember → Db α}
    (hg : ∀ actor target h' c', Since orgDiscipline h l c h' l c' →
      Acts env h' access o .memberManage user actor → Saw (memberOf o u) target h' →
      (actor.role = .owner ∨ target.role ≠ .owner ∧ assigning ≠ some .owner) →
      (target.role = .owner → loses = true → CountedAfter o u target h') →
      orgDiscipline.ensures (Owing env r) (returns Φ) (g actor target) h' l c') :
    orgDiscipline.ensures (Owing env r) (returns Φ)
      (OrganizationAuthService.requirePermission o user.id .memberManage >>= fun (_, actor) =>
        OrganizationRepository.getMember o u >>= fun found =>
          match found with
          | none => throw (NotFoundError "Member not found")
          | some row =>
            OrganizationService.ensureCanManageTarget actor (identityMapped [actor] row)
                assigning >>= fun _ =>
              OrganizationService.keepFinalOwner o (identityMapped [actor] row) loses message >>=
                fun _ => g actor (identityMapped [actor] row)) h l c := by
  refine ensures_requirePermission b.unwritten b.signedIn fun org actor h₁ c₁ x₁ _ acts => ?_
  simp only
  refine ensures_selectOne (fun _ _ _ _ _ => ensures_throw) fun h₂ c₂ row x₂ hr hm hp => ?_
  simp only
  obtain ⟨hsaw, -⟩ := saw_identityMapped acts.member x₂ hr
    ((mem_view_of_unwritten b.unwritten rfl).mp hm) hp
  refine ensures_ensureCanManageTarget fun hadmin => ?_
  refine ensures_keepFinalOwner b.unwritten hsaw fun h₃ c₃ x₃ hcount => ?_
  refine hg actor _ h₃ c₃ (x₁.trans (x₂.trans x₃)) (acts.mono (x₂.trans x₃).told)
    (hsaw.mono x₃.told) ?_ hcount
  exact (roleHasPermission_memberManage.mp acts.allowed).imp_right hadmin

theorem ensures_updateMember (b : Begun env access user h l) (o u : UUID) (role : OrgRole) :
    orgDiscipline.ensures (Owing env (.organization (.updateMember access o u role)))
      (returns fun _ => Owing env (.organization (.updateMember access o u role)))
      (OrganizationService.updateMember user o u role) h l c := by
  unfold OrganizationService.updateMember
  refine ensures_target b (g := fun actor target =>
    if role = .owner ∧ actor.role ≠ .owner then
      throw (ForbiddenError "Only owners may assign the owner role")
    else do
      let updated ← OrganizationRepository.updateMemberRole target role
      AuditService.recordEventOrFail "organization.member.role_changed" user.id o
        "organization_member" updated.id
      OrganizationService.memberResponse updated)
    fun actor target h₁ c₁ x₁ acts hsaw hmanage hcount => ?_
  by_cases hassign : role = .owner ∧ actor.role ≠ .owner
  · rw [if_pos hassign]
    exact ensures_throw
  rw [if_neg hassign]
  unfold OrganizationRepository.updateMemberRole
  simp only [bind_assoc]
  refine ensures_now fun h₂ c₂ t x₂ _ => ensures_updateById fun c₃ row x₃ hrow hid => ?_
  have x := x₂.trans x₃
  refine ensures_rest (P := fun _ => True) ?_ ⟨(x₁.trans x).told.no_commit b.uncommitted, ?_, ?_⟩
  · exact only_bind (only_recordEventOrFail allowsSideEffects_besideOrgs _ _ _ _ _) fun _ =>
      only_memberResponse _
  · rw [logOn_insert _ rfl, b.unwritten]
    refine .updateMember (acts.mono x.told) (hsaw.mono x.told)
      (hmanage.imp_right fun hm => ⟨hm.1, fun hr => hm.2 (congrArg some hr)⟩)
      (fun howner hlose => (hcount howner (decide_eq_true hlose)).mono x.told)
      ((mem_view_of_unwritten b.unwritten rfl).mp hrow) hid
  · rw [logOn_insert _ rfl, b.unwritten]
    exact locked_insert _

theorem ensures_removeMember (b : Begun env access user h l) (o u : UUID) :
    orgDiscipline.ensures (Owing env (.organization (.removeMember access o u)))
      (returns fun _ => Owing env (.organization (.removeMember access o u)))
      (OrganizationService.removeMember user o u) h l c := by
  unfold OrganizationService.removeMember
  refine ensures_target b (g := fun _ target => do
      OrganizationRepository.removeMember target
      AuditService.recordEventOrFail "organization.member.removed" user.id o "organization_member"
        target.id)
    fun actor target h₁ c₁ x₁ acts hsaw hmanage hcount => ?_
  unfold OrganizationRepository.removeMember
  simp only [bind_assoc]
  refine ensures_deleteById (fun c₂ x₂ => ?_) fun c₂ row x₂ hrow hid => ?_
  · refine ensures_rest (only_recordEventOrFail allowsSideEffects_besideOrgs _ _ _ _ _)
      ⟨(x₁.trans x₂).told.no_commit b.uncommitted, ?_, ?_⟩
    · rw [b.unwritten]
      exact .removeMissing
    · rw [b.unwritten]
      exact fun _ hw => by cases hw
  · have hlog : logOn orgTables (l.lock (toRow row) .remove) = [.delete (keyOf row)] := by
      rw [logOn_append [.delete (keyOf row)] rfl, b.unwritten]
      rfl
    refine ensures_rest (only_recordEventOrFail allowsSideEffects_besideOrgs _ _ _ _ _)
      ⟨(x₁.trans x₂).told.no_commit b.uncommitted, ?_, ?_⟩
    · rw [hlog]
      exact .removeMember (acts.mono x₂.told) (hsaw.mono x₂.told)
        (hmanage.imp_right And.left) (fun howner => (hcount howner rfl).mono x₂.told)
        ((mem_view_of_unwritten b.unwritten rfl).mp hrow) hid
    · rw [hlog]
      intro w hw
      cases List.mem_singleton.mp hw
      rw [Write.key, ← key_toRow]
      exact List.mem_cons_self

theorem ensures_createInvitation (b : Begun env access user h l) (o : UUID) (email : String)
    (role : OrgRole) :
    orgDiscipline.ensures (Owing env (.organization (.createInvitation access o email role)))
      (returns fun _ => Owing env (.organization (.createInvitation access o email role)))
      (InvitationService.create env user o email role) h l c := by
  unfold InvitationService.create
  refine ensures_requirePermission b.unwritten b.signedIn fun org actor h₁ c₁ x₁ _ acts => ?_
  simp only
  by_cases hassign : role = .owner ∧ actor.role ≠ .owner
  · rw [if_pos hassign]
    exact ensures_throw
  rw [if_neg hassign]
  refine ensures_frame (S := orgTables) (only_getActiveOrganization _) fun _ h₂ l₂ c₂ _ x₂ => ?_
  refine ensures_frame (S := orgTables) (only_ensureNoMember _ _) fun _ h₃ l₃ c₃ _ x₃ => ?_
  have hl₃ : logOn orgTables l₃ = [] := x₃.log.trans (x₂.log.trans b.unwritten)
  unfold OrganizationInvitationRepository.getActivePending
  simp only [bind_assoc]
  refine ensures_now fun h₄ c₄ t x₄ hasked => ?_
  rw [← bind_assoc]
  refine ensures_selectOne (fun h₅ c₅ x₅ hread hnone => ?_) fun _ _ _ _ _ _ _ => ensures_throw
  simp only
  refine ensures_frame (S := orgTables) only_generateSecureToken fun raw h₆ l₆ c₆ _ x₆ => ?_
  have hl₆ : logOn orgTables l₆ = [] := x₆.log.trans hl₃
  refine ensures_now fun h₇ c₇ t' x₇ _ => ?_
  unfold OrganizationInvitationRepository.create
  simp only [bind_assoc]
  refine ensures_uuid4 fun c₈ n x₈ => ensures_now fun h₉ c₉ t'' x₉ _ => ?_
  refine ensures_insertOf fun c' x' _ _ => ?_
  simp only [pure_bind]
  have xm := x₆.toSince.trans (x₇.trans (x₈.trans (x₉.trans x')))
  have x := x₂.toSince.trans (x₃.toSince.trans (x₄.trans (x₅.trans xm)))
  refine ensures_rest (P := fun _ => True) ?_ ⟨(x₁.trans x).told.no_commit b.uncommitted, ?_, ?_⟩
  · exact only_bind (only_sendMail _ _) fun _ =>
      only_bind (only_recordEventOrFail allowsSideEffects_besideOrgs _ _ _ _ _) fun _ =>
        only_bind (only_tryMarkFlag allowsSideEffects_besideOrgs _ _ _ _) fun _ => trivial
  · rw [logOn_insert _ rfl, logOn_draw, hl₆]
    have hmissed : Missed (activePending o (env.lower (env.lower email)) t) h₅ :=
      ⟨c₅, hread, fun i hi => hnone i ((mem_view_of_unwritten hl₃ rfl).mpr hi)⟩
    exact .createInvitation (acts.mono x.told) (fun h => not_not.mp fun hn => hassign ⟨h, hn⟩)
      List.mem_cons_self rfl rfl ((x₅.trans xm).told.mem hasked) (hmissed.mono xm.told)
  · rw [logOn_insert _ rfl, logOn_draw, hl₆]
    exact locked_insert _

theorem ensures_resend (b : Begun env access user h l) (o id : UUID) :
    orgDiscipline.ensures (Owing env (.organization (.resendInvitation access o id)))
      (returns fun _ => Owing env (.organization (.resendInvitation access o id)))
      (InvitationService.resend env user o id) h l c := by
  unfold InvitationService.resend
  refine ensures_requirePermission b.unwritten b.signedIn fun org actor h₁ c₁ x₁ _ acts => ?_
  refine ensures_selectOne (fun _ _ _ _ _ => ensures_throw) fun h₂ c₂ i x₂ hread hi hp => ?_
  simp only
  by_cases hpending : i.status = .pending
  swap
  · rw [if_pos hpending]
    exact ensures_throw
  rw [if_neg (not_not.mpr hpending)]
  by_cases hrevoked : i.revokedAt.isSome = true
  · rw [if_pos hrevoked]
    exact ensures_throw
  rw [if_neg hrevoked]
  have hsaw : SawPending id o h₂ :=
    ⟨i, ⟨c₂, hread, (mem_view_of_unwritten b.unwritten rfl).mp hi, hp⟩, hpending⟩
  have hid : i.id = id := by
    simp only [invitationOf, Bool.and_eq_true, decide_eq_true_eq] at hp
    exact hp.1
  refine ensures_frame (S := orgTables) (only_getActiveOrganization _) fun _ h₃ l₃ c₃ _ x₃ => ?_
  refine ensures_frame (S := orgTables) only_generateSecureToken fun raw h₄ l₄ c₄ _ x₄ => ?_
  have hl₄ : logOn orgTables l₄ = [] := x₄.log.trans (x₃.log.trans b.unwritten)
  refine ensures_now fun h₅ c₅ t x₅ _ => ?_
  refine ensures_updateUnique fun h₆ c₆ row x₆ hrow hrid => ?_
  have x := x₃.toSince.trans (x₄.toSince.trans (x₅.trans x₆))
  refine ensures_rest (P := fun _ => True) ?_
    ⟨(x₁.trans (x₂.trans x)).told.no_commit b.uncommitted, ?_, ?_⟩
  · exact only_bind (only_sendMail _ _) fun _ =>
      only_bind (only_recordEventOrFail allowsSideEffects_besideOrgs _ _ _ _ _) fun _ => trivial
  · rw [logOn_insert _ rfl, hl₄]
    exact .resend (acts.mono (x₂.trans x).told) (hsaw.mono x.told)
      ((mem_view_of_unwritten hl₄ rfl).mp hrow) (hrid.trans hid)
  · rw [logOn_insert _ rfl, hl₄]
    exact locked_insert _

theorem ensures_revoke (b : Begun env access user h l) (o id : UUID) :
    orgDiscipline.ensures (Owing env (.organization (.revokeInvitation access o id)))
      (returns fun _ => Owing env (.organization (.revokeInvitation access o id)))
      (InvitationService.revoke user o id) h l c := by
  unfold InvitationService.revoke
  refine ensures_requirePermission b.unwritten b.signedIn fun org actor h₁ c₁ x₁ _ acts => ?_
  refine ensures_selectOne (fun _ _ _ _ _ => ensures_throw) fun h₂ c₂ i x₂ hread hi hp => ?_
  simp only
  by_cases hpending : i.status = .pending
  swap
  · rw [if_pos hpending]
    exact ensures_throw
  rw [if_neg (not_not.mpr hpending)]
  have hsaw : SawPending id o h₂ :=
    ⟨i, ⟨c₂, hread, (mem_view_of_unwritten b.unwritten rfl).mp hi, hp⟩, hpending⟩
  have hid : i.id = id := by
    simp only [invitationOf, Bool.and_eq_true, decide_eq_true_eq] at hp
    exact hp.1
  unfold OrganizationInvitationRepository.setRevoked
  refine ensures_now fun h₃ c₃ t x₃ _ => ensures_updateById fun c₄ row x₄ hrow hrid => ?_
  have x := x₃.trans x₄
  refine ensures_rest (only_recordEventOrFail allowsSideEffects_besideOrgs _ _ _ _ _)
    ⟨(x₁.trans (x₂.trans x)).told.no_commit b.uncommitted, ?_, ?_⟩
  · rw [logOn_insert _ rfl, b.unwritten]
    exact .revoke (acts.mono (x₂.trans x).told) (hsaw.mono x.told)
      ((mem_view_of_unwritten b.unwritten rfl).mp hrow) (hrid.trans hid)
  · rw [logOn_insert _ rfl, b.unwritten]
    exact locked_insert _

theorem only_organizationOf {W : Rules} (i : OrganizationInvitation) :
    (InvitationService.organizationOf i).Only (Writes W) fun _ => True :=
  (only_selectOne _).mono (fun _ h => h) fun _ _ => trivial

/-- The invitation of a token is locked, current and open, or the request ends here. -/
theorem ensures_openInvitation {α : Type} {r : BackendRequest} {token : RawToken}
    {Φ : α → Told → OpenTx → Database → Prop}
    {g : OrganizationInvitation × Option Organization × Time → Db α}
    (hpres : r.invitationToken = some token) (hl : logOn orgTables l = []) (hn : .commit ∉ h)
    (hg : ∀ i org t h' l' c', Since orgDiscipline h l c h' l' c' → logOn orgTables l' = [] →
      i ∈ rowsOf OrganizationInvitation c' → keyOf i ∈ l'.locks → Opened env token i →
      .answer .now t ∈ h' → t < i.expiresAt →
      orgDiscipline.ensures (Owing env r) (returns Φ) (g (i, org, t)) h' l' c') :
    orgDiscipline.ensures (Owing env r) (returns Φ)
      (InvitationService.openInvitation env token >>= g) h l c := by
  unfold InvitationService.openInvitation
  rw [bind_assoc]
  refine ensures_lockOne (fun _ _ _ => ensures_throw) fun c₁ ks i x₁ hi htoken hlock => ?_
  simp only [bind_assoc]
  have hi₁ : i ∈ rowsOf OrganizationInvitation c₁ := (mem_view_of_unwritten hl rfl).mp hi
  refine ensures_frame (S := orgTables) (only_organizationOf i) fun org h₂ l₂ c₂ _ x₂ => ?_
  have hl₂ : logOn orgTables l₂ = [] := x₂.log.trans hl
  refine ensures_now fun h₃ c₃ t x₃ hasked => ?_
  have x := x₁.trans (x₂.toSince.trans x₃)
  have hlock₂ : keyOf i ∈ l₂.locks := x₂.locks _ hlock
  have hi₃ : i ∈ rowsOf OrganizationInvitation c₃ :=
    (mem_of_locked (x₂.toSince.trans x₃).env hlock).mpr hi₁
  by_cases hclosed : i.status ≠ .pending ∨ i.revokedAt.isSome = true
  · rw [if_pos hclosed]
    exact ensures_throw
  rw [if_neg hclosed]
  obtain ⟨hpending, hrevoked⟩ := not_or.mp hclosed
  have opened : Opened env token i :=
    ⟨of_decide_eq_true htoken, not_not.mp hpending, Option.not_isSome_iff_eq_none.mp hrevoked⟩
  by_cases hexpired : i.expiresAt ≤ t
  · rw [if_pos hexpired]
    unfold OrganizationInvitationRepository.setExpired
    simp only [bind_assoc]
    refine ensures_updateById fun c₄ row x₄ hrow hid => ?_
    have hi₄ : i ∈ rowsOf OrganizationInvitation c₄ := (mem_of_locked x₄.env hlock₂).mpr hi₃
    obtain rfl : row = i := entity_ext ((mem_view_of_unwritten hl₂ rfl).mp hrow) hi₄ hid
    have howing : Owing env r h₃ (l₂.insert (toRow { row with status := .expired })) c₄ := by
      refine ⟨x.told.no_commit hn, ?_, ?_⟩ <;> rw [logOn_insert _ rfl, hl₂]
      · exact .expire hpres hi₄ opened
      · exact locked_insert _
    exact ensures_commit (fun c' e => howing.extends ⟨.of_env e, rfl⟩) fun _ => ensures_throw
  · rw [if_neg hexpired]
    exact hg i org t h₃ l₂ c₃ x hl₂ hi₃ hlock₂ opened hasked (Nat.lt_of_not_le hexpired)

theorem ensures_accept (b : Begun env access user h l) (token : RawToken) :
    orgDiscipline.ensures (Owing env (.organization (.acceptInvitation access token)))
      (returns fun _ => Owing env (.organization (.acceptInvitation access token)))
      (InvitationService.accept env user token) h l c := by
  unfold InvitationService.accept
  refine ensures_openInvitation rfl b.unwritten b.uncommitted
    fun i org t h₁ l₁ c₁ x₁ hl₁ hi hlock opened hasked hfresh => ?_
  simp only
  by_cases hemail : env.lower user.email ≠ env.lower i.email
  · rw [if_pos hemail]
    exact ensures_throw
  rw [if_neg hemail]
  refine ensures_selectOne (fun h₂ c₂ x₂ hread hnone => ?_) fun _ _ _ _ _ _ _ => ensures_throw
  have hmissed : Missed (memberOf i.organizationId user.id) h₂ :=
    ⟨c₂, hread, fun m hm => hnone m ((mem_view_of_unwritten hl₁ rfl).mpr hm)⟩
  refine ensures_insertMember fun member h₃ c₃ ho hu hr x₃ => ?_
  have hlog₃ : logOn orgTables ((l₁.draw member.id).insert (toRow member)) =
      [.store (toRow member)] := by rw [logOn_insert _ rfl, logOn_draw, hl₁]; rfl
  unfold OrganizationInvitationRepository.setAccepted
  refine ensures_updateById fun c₄ row x₄ hrow hid => ?_
  have x := x₂.trans (x₃.trans x₄)
  have hi₄ : i ∈ rowsOf OrganizationInvitation c₄ := (mem_of_locked x.env hlock).mpr hi
  have hrow₄ : row ∈ rowsOf OrganizationInvitation c₄ := by
    have hrow := (mem_rowsOf_view (S := orgTables) rfl).mp hrow
    rw [hlog₃, Table.apply_cons, Table.apply_nil, mem_rowsOf, Table.mem_write_store] at hrow
    rcases hrow with hrow | hrow
    · cases hrow
    · exact mem_rowsOf.mpr hrow.1
  obtain rfl : row = i := entity_ext hrow₄ hi₄ hid
  refine ensures_rest (P := fun _ => True) ?_ ⟨(x₁.trans x).told.no_commit b.uncommitted, ?_, ?_⟩
  · refine only_bind (only_recordEventOrFail allowsSideEffects_besideOrgs _ _ _ _ _) fun _ => ?_
    split <;> trivial
  · rw [logOn_insert _ rfl, hlog₃]
    exact .accept (b.signedIn.mono (x₁.trans x).told) hi₄ opened (x.told.mem hasked) hfresh
      (not_not.mp hemail) (hmissed.mono (x₃.trans x₄).told) List.mem_cons_self ho hu hr
  · rw [logOn_insert _ rfl, hlog₃]
    intro w hw
    rcases List.mem_cons.mp hw with rfl | hw
    · exact List.mem_cons_of_mem _ List.mem_cons_self
    · cases List.mem_singleton.mp hw
      exact List.mem_cons_self

theorem ensures_decline (hl : logOn orgTables l = []) (hn : .commit ∉ h) (token : RawToken) :
    orgDiscipline.ensures (Owing env (.organization (.declineInvitation token)))
      (returns fun _ => Owing env (.organization (.declineInvitation token)))
      (InvitationService.decline env token) h l c := by
  unfold InvitationService.decline
  refine ensures_openInvitation rfl hl hn
    fun i org t h₁ l₁ c₁ x₁ hl₁ hi hlock opened hasked hfresh => ?_
  unfold OrganizationInvitationRepository.setDeclined
  refine ensures_updateById fun c₂ row x₂ hrow hid => ?_
  have hi₂ : i ∈ rowsOf OrganizationInvitation c₂ := (mem_of_locked x₂.env hlock).mpr hi
  obtain rfl : row = i := entity_ext ((mem_view_of_unwritten hl₁ rfl).mp hrow) hi₂ hid
  refine ensures_rest (only_recordEventOrFail allowsSideEffects_besideOrgs _ _ _ _ _)
    ⟨(x₁.trans x₂).told.no_commit hn, ?_, ?_⟩ <;> rw [logOn_insert _ rfl, hl₁]
  · exact .decline hi₂ opened
  · exact locked_insert _

/-! ## Requests -/

/-- A request that authenticates its user first. -/
theorem ensures_signedIn {α β : Type} {r : BackendRequest} {service : User → Db α} {f : α → β}
    (hl : l.log = []) (hn : .commit ∉ h) (hservice : ∀ user h' c', Begun env access user h' l →
      orgDiscipline.ensures (Owing env r) (returns fun _ => Owing env r) (service user) h' l c') :
    orgDiscipline.ensures (Owing env r) (returns fun _ => Owing env r)
      (getCurrentUser env access >>= fun user => service user >>= fun a => pure (f a)) h l c := by
  refine ensures_getCurrentUser hl fun user h' c' x hs => ensures_map (hservice user h' c' ?_)
  exact ⟨by rw [logOn, hl]; rfl, x.told.no_commit hn, hs⟩

/-- **What a route has written** when it returns is an effect of the request. -/
theorem ensures_organizationRoute (hl : l.log = []) (hn : .commit ∉ h) (r : OrganizationRequest) :
    orgDiscipline.ensures (Owing env (.organization r))
      (returns fun _ => Owing env (.organization r)) (r.route env) h l c := by
  have hnil : logOn orgTables l = [] := by rw [logOn, hl]; rfl
  have hquiet : ∀ r' : OrganizationRequest, r'.Quiet →
      orgDiscipline.ensures (Owing env (.organization r'))
        (returns fun _ => Owing env (.organization r')) (r'.route env) h l c := by
    intro r' hr'
    refine ensures_of_rely fun c' e => ensures_rest (only_quietOrganization env r' hr') ?_
    refine ⟨hn, ?_, ?_⟩ <;> rw [hnil]
    · exact .quiet hr'
    · exact fun _ hw => by cases hw
  cases r with
  | list | get | listMembers | listInvitations => exact hquiet _ trivial
  | create access name slug =>
    exact ensures_signedIn hl hn fun _ _ _ b => ensures_create b name slug
  | update access o name slug =>
    exact ensures_signedIn hl hn fun _ _ _ b => ensures_update b o name slug
  | delete access o => exact ensures_signedIn hl hn fun _ _ _ b => ensures_delete b o
  | addMember access o email role =>
    exact ensures_signedIn hl hn fun _ _ _ b => ensures_addMember b o email role
  | updateMember access o u role =>
    exact ensures_signedIn hl hn fun _ _ _ b => ensures_updateMember b o u role
  | removeMember access o u => exact ensures_signedIn hl hn fun _ _ _ b => ensures_removeMember b o u
  | createInvitation access o email role =>
    exact ensures_signedIn hl hn fun _ _ _ b => ensures_createInvitation b o email role
  | resendInvitation access o id => exact ensures_signedIn hl hn fun _ _ _ b => ensures_resend b o id
  | revokeInvitation access o id => exact ensures_signedIn hl hn fun _ _ _ b => ensures_revoke b o id
  | acceptInvitation access token =>
    exact ensures_signedIn hl hn fun _ _ _ b => ensures_accept b token
  | declineInvitation token => exact ensures_map (ensures_decline hnil hn token)

theorem ensures_route (hl : l.log = []) (hn : .commit ∉ h) (r : BackendRequest) :
    orgDiscipline.ensures (Owing env r) (returns fun _ => Owing env r) (r.route env) h l c := by
  cases r with
  | account r =>
    refine ensures_of_rely fun c' e => ensures_rest (P := fun _ => True) ?_ ⟨hn, ?_, ?_⟩
    · exact only_bind (only_route env allowsAccounts_besideOrgs r
        fun _ => allowsSessions_besideOrgs) fun _ => trivial
    · rw [logOn, hl]
      exact .quiet trivial
    · rw [logOn, hl]
      exact fun _ hw => by cases hw
  | organization r => exact ensures_map (ensures_organizationRoute hl hn r)

end Services

/-- **Every request commits only its effect**, and has committed when it returns. -/
theorem ensures_serve (env : Env) :
    orgDiscipline.Ensures (Owing env) Returned (BackendRequest.serve env) := by
  intro r c _
  refine ensures_unitOfWork (returns fun _ => Owing env r) (fun a h l c ha => ⟨ha a rfl, ?_⟩)
    (fun _ _ _ _ _ ha => nomatch ha) (ensures_route rfl List.not_mem_nil r)
  exact fun _ _ _ _ => List.mem_cons_self

end DevOps
