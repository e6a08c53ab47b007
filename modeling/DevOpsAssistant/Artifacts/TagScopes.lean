import DevOpsAssistant.Api.Library
import DevOpsAssistant.Specs.Artifacts
import DevOpsAssistant.Specs.Histories
import DevOpsAssistant.Specs.Outcomes

/-!
# The scopes of tags

A tag that is added by its name is looked up among those of the user in the organization of the
artifact; a tag that is added by its id is looked up among all tags.

* `ArtifactTag.InScope`, `TagsInScope`: the tags of an artifact have its scope.
* `KeepsScopes`: what each part of a request leaves; `ends_addTag`, `ends_removeTag`, `ends_createTag`.
* `TagRequest.NamesInScope`: the request names no tag of another scope.
* **`tagsInScope_of_named`**: tags stay in scope along runs of such requests.
-/

namespace DevOps

open Txn

/-- The tag has the scope of the artifact. -/
def ArtifactTag.InScope (t : ArtifactTag) (a : GeneratedArtifact) : Prop :=
  t.organizationId = a.organizationId ∧ (a.organizationId = none → t.userId = a.userId)

/-- Every tag that is attached to an artifact has its scope. -/
def TagsInScope (db : Database) : Prop :=
  ∀ x ∈ rowsOf ArtifactTagAssociation db, ∀ a ∈ rowsOf GeneratedArtifact db, a.id = x.artifactId →
    ∃ t ∈ rowsOf ArtifactTag db, t.id = x.tagId ∧ t.InScope a

/-- Artifacts stay as they are, tags keep their scopes, and every new association is in scope. -/
structure KeepsScopes (db db' : Database) : Prop where
  artifacts : ∀ a, a ∈ rowsOf GeneratedArtifact db' ↔ a ∈ rowsOf GeneratedArtifact db
  tags : ∀ t ∈ rowsOf ArtifactTag db, ∃ t' ∈ rowsOf ArtifactTag db',
    t'.id = t.id ∧ t'.organizationId = t.organizationId ∧ t'.userId = t.userId
  associations : ∀ x ∈ rowsOf ArtifactTagAssociation db', x ∈ rowsOf ArtifactTagAssociation db ∨
    ∃ a ∈ rowsOf GeneratedArtifact db, a.id = x.artifactId ∧
      ∃ t ∈ rowsOf ArtifactTag db', t.id = x.tagId ∧ t.InScope a

theorem ArtifactTag.InScope.congr {t t' : ArtifactTag} {a : GeneratedArtifact} (h : t.InScope a)
    (ho : t'.organizationId = t.organizationId) (hu : t'.userId = t.userId) : t'.InScope a :=
  ⟨ho.trans h.1, fun hn => hu.trans (h.2 hn)⟩

namespace KeepsScopes

variable {db db' db'' : Database}

theorem refl : KeepsScopes db db where
  artifacts _ := Iff.rfl
  tags t ht := ⟨t, ht, rfl, rfl, rfl⟩
  associations _ hx := .inl hx

theorem trans (h : KeepsScopes db db') (h' : KeepsScopes db' db'') : KeepsScopes db db'' where
  artifacts a := (h'.artifacts a).trans (h.artifacts a)
  tags t ht := by
    obtain ⟨t', ht', hid, ho, hu⟩ := h.tags t ht
    obtain ⟨t'', ht'', hid', ho', hu'⟩ := h'.tags t' ht'
    exact ⟨t'', ht'', hid'.trans hid, ho'.trans ho, hu'.trans hu⟩
  associations x hx := by
    rcases h'.associations x hx with hx | ⟨a, ha, hax, t, ht, htx, hscope⟩
    · refine (h.associations x hx).imp_right fun ⟨a, ha, hax, t, ht, htx, hscope⟩ => ?_
      obtain ⟨t', ht', hid, ho, hu⟩ := h'.tags t ht
      exact ⟨a, ha, hax, t', ht', hid.trans htx, hscope.congr ho hu⟩
    · exact .inr ⟨a, (h.artifacts a).mp ha, hax, t, ht, htx, hscope⟩

/-- A tag is stored, new or with the scope it had. -/
theorem storeTag {t' : ArtifactTag} (h : ∀ t ∈ rowsOf ArtifactTag db, t.id = t'.id →
      t'.organizationId = t.organizationId ∧ t'.userId = t.userId) :
    KeepsScopes db (db.write (.store (toRow t'))) where
  artifacts _ := mem_rowsOf_store_other (by decide)
  tags t ht := by
    by_cases hid : t.id = t'.id
    · exact ⟨t', mem_rowsOf_store.mpr (.inl rfl), hid.symm, h t ht hid⟩
    · exact ⟨t, mem_rowsOf_store.mpr (.inr ⟨ht, hid⟩), rfl, rfl, rfl⟩
  associations _ hx := .inl ((mem_rowsOf_store_other (by decide)).mp hx)

/-- A tag in scope is attached. -/
theorem storeAssociation {x : ArtifactTagAssociation} {a : GeneratedArtifact} {t : ArtifactTag}
    (ha : a ∈ rowsOf GeneratedArtifact db) (hax : a.id = x.artifactId)
    (ht : t ∈ rowsOf ArtifactTag db) (htx : t.id = x.tagId) (hscope : t.InScope a) :
    KeepsScopes db (db.write (.store (toRow x))) where
  artifacts _ := mem_rowsOf_store_other (by decide)
  tags t ht := ⟨t, (mem_rowsOf_store_other (by decide)).mpr ht, rfl, rfl, rfl⟩
  associations y hy := by
    rcases mem_rowsOf_store.mp hy with rfl | ⟨hy, -⟩
    · exact .inr ⟨a, ha, hax, t, (mem_rowsOf_store_other (by decide)).mpr ht, htx, hscope⟩
    · exact .inl hy

/-- Associations are deleted. -/
theorem deleteAssociations (xs : List ArtifactTagAssociation) :
    KeepsScopes db (db.apply (xs.map fun x => .delete (keyOf x))) := by
  induction xs generalizing db with
  | nil => exact refl
  | cons x xs ih =>
    refine trans ?_ ih
    exact ⟨fun _ => mem_rowsOf_delete_other (by decide),
      fun t ht => ⟨t, (mem_rowsOf_delete_other (by decide)).mpr ht, rfl, rfl, rfl⟩,
      fun y hy => .inl (mem_rowsOf_delete.mp hy).1⟩

end KeepsScopes

/-- **Scopes are kept.** -/
theorem TagsInScope.keep {db db' : Database} (h : TagsInScope db) (hk : KeepsScopes db db') :
    TagsInScope db' := by
  intro x hx a ha hax
  have ha := (hk.artifacts a).mp ha
  rcases hk.associations x hx with hx | ⟨b, hb, hbx, hnew⟩
  · obtain ⟨t, ht, htx, hscope⟩ := h x hx a ha hax
    obtain ⟨t', ht', hid, ho, hu⟩ := hk.tags t ht
    exact ⟨t', ht', hid.trans htx, hscope.congr ho hu⟩
  · have hab : b = a := entity_ext hb ha (hbx.trans hax.symm)
    exact hab ▸ hnew

section Requests

variable {env : Env} {s : Session Row World}

/-! ## Tags -/

/-- The tag of the user in the organization, as it is or with a new color, or a new one. -/
theorem ends_getOrCreateTag (userId : UUID) (name : String) (organizationId : Option UUID)
    (color : Option String) :
    (ArtifactTagRepository.getOrCreateTag env userId name organizationId color).Ends respond s
      (Prog.onOk fun t s' => KeepsScopes s.view s'.view ∧ t ∈ rowsOf ArtifactTag s'.view ∧
        t.organizationId = organizationId ∧ t.userId = userId) := by
  unfold ArtifactTagRepository.getOrCreateTag
  simp only
  rw [← bind_assoc]
  refine Prog.Ends.bind (ends_unchanged_selectOne _) (fun found s' h => ?_) fun _ _ _ _ h => by cases h
  obtain ⟨rfl, hfound⟩ := h
  have hfound := hfound found rfl
  cases found with
  | some tag =>
    obtain ⟨htag, hscoped⟩ := hfound
    simp only [scopedTag, Bool.and_eq_true, decide_eq_true_eq] at hscoped
    simp only
    split
    · exact ends_onOk_pure ⟨.refl, htag, hscoped.1.2, hscoped.1.1⟩
    · refine (ends_update tag.id (fun t : ArtifactTag => { t with color }) fun _ => rfl).mono
        fun r s' hr t h => ?_
      obtain ⟨row, hrow, hid, rfl, rfl⟩ | ⟨-, he⟩ := hr
      · cases h
        have : row = tag := entity_ext hrow htag hid
        subst this
        rw [Session.view_append, Table.apply_cons, Table.apply_nil]
        refine ⟨.storeTag fun t ht hid => ?_, mem_rowsOf_store.mpr (.inl rfl), hscoped.1.2, hscoped.1.1⟩
        have : t = row := entity_ext ht hrow hid
        exact this ▸ ⟨rfl, rfl⟩
      · rw [h] at he
        cases he
  | none =>
    refine ends_uuid4.mpr (ends_now.mpr ?_)
    refine Prog.Ends.bind (ends_insert _ _) (fun _ s' h => ?_) fun _ _ _ _ h => by cases h
    obtain ⟨-, rfl, hfresh⟩ | ⟨he, -⟩ := h
    · refine ends_onOk_pure ?_
      rw [Session.view_append, Table.apply_cons, Table.apply_nil]
      exact ⟨.storeTag fun t ht hid => absurd hid (hfresh t ht).1, mem_rowsOf_store.mpr (.inl rfl),
        rfl, rfl⟩
    · cases he

/-- A tag in scope is attached to the artifact. -/
theorem ends_addTagToArtifact {a : GeneratedArtifact} {t : ArtifactTag}
    (ha : a ∈ rowsOf GeneratedArtifact s.view) (ht : t ∈ rowsOf ArtifactTag s.view)
    (hscope : t.InScope a) :
    (ArtifactTagRepository.addTagToArtifact a.id t.id).Ends respond s
      (Prog.onOk fun _ s' => KeepsScopes s.view s'.view) := by
  unfold ArtifactTagRepository.addTagToArtifact
  rw [← bind_assoc]
  refine Prog.Ends.bind (ends_unchanged_selectOne _) (fun found s' h => ?_) fun _ _ _ _ h => nomatch h
  obtain ⟨rfl, -⟩ := h
  cases found with
  | some existing => exact ends_onOk_pure .refl
  | none =>
    refine ends_uuid4.mpr (ends_now.mpr ?_)
    refine Prog.Ends.bind (ends_insert _ _) (fun _ s' h => ?_) fun _ _ _ _ h => nomatch h
    obtain ⟨-, rfl, -⟩ | ⟨he, -⟩ := h
    · refine ends_onOk_pure ?_
      rw [Session.view_append, Table.apply_cons, Table.apply_nil]
      exact .storeAssociation ha rfl ht rfl hscope
    · cases he

theorem ends_listTagsForArtifact (artifactId : UUID) :
    (ArtifactTagRepository.listTagsForArtifact artifactId).Ends respond s
      (unchanged s fun _ => True) :=
  ends_unchanged_bind (ends_unchanged_selectOf _) fun _ _ =>
    ends_unchanged_bind (ends_unchanged_selectOf _) fun _ _ => ends_unchanged_pure trivial

/-! ## Permissions -/

/-- The user may write the artifact. -/
def MayWrite (db : Database) (user : User) (a : GeneratedArtifact) : Prop :=
  match a.organizationId with
  | none => a.userId = user.id
  | some o => (∃ org ∈ rowsOf Organization db, activeOrganization o org = true) ∧
      ∃ m ∈ rowsOf OrganizationMember db, memberOf o user.id m = true ∧
        roleHasPermission m.role .artifactWrite = true

/-- The membership that grants the permission. -/
theorem ends_granted (o userId : UUID) (permission : Permission) :
    (OrganizationAuthService.requirePermission o userId permission).Ends respond s
      (unchanged s fun _ => (∃ org ∈ rowsOf Organization s.view, activeOrganization o org = true) ∧
        ∃ m ∈ rowsOf OrganizationMember s.view, memberOf o userId m = true ∧
          roleHasPermission m.role permission = true) := by
  unfold OrganizationAuthService.requirePermission OrganizationAuthService.requireMembership
    OrganizationAuthService.getActiveOrganization OrganizationAuthService.getMembership
  simp only [bind_assoc]
  rw [← bind_assoc]
  refine ends_unchanged_bind (ends_unchanged_selectOne _) fun org horg => ?_
  cases org with
  | none => exact ends_unchanged_throw
  | some org =>
    simp only [pure_bind]
    rw [← bind_assoc]
    refine ends_unchanged_bind (ends_unchanged_selectOne _) fun m hm => ?_
    cases m with
    | none => exact ends_unchanged_throw
    | some m =>
      simp only [pure_bind]
      split
      · next hpermission => exact ends_unchanged_pure ⟨⟨org, horg⟩, m, hm.1, hm.2, hpermission⟩
      · exact ends_unchanged_throw

theorem ends_requireWrite (user : User) (a : GeneratedArtifact) :
    (ArtifactService.requireWrite user a).Ends respond s
      (unchanged s fun _ => MayWrite s.view user a) := by
  unfold ArtifactService.requireWrite ArtifactService.requireAccess MayWrite
  cases a.organizationId with
  | none =>
    simp only
    split
    · exact ends_unchanged_throw
    · next h => exact ends_unchanged_pure (not_not.mp h)
  | some o =>
    exact ends_unchanged_bind (ends_granted o user.id .artifactWrite) fun _ h =>
      ends_unchanged_pure h

/-! ## Requests -/

/-- The tag a request names is in scope, if a tag named by its id is. -/
theorem ends_assignedTag {user : User} {a : GeneratedArtifact} {payload : ArtifactTagAssignRequest}
    (hmay : MayWrite s.view user a) (hid : ∀ tagId, payload.tagId = some tagId →
      ∀ t ∈ rowsOf ArtifactTag s.view, t.id = tagId → t.InScope a) :
    (ArtifactService.assignedTag env user a payload).Ends respond s (Prog.onOk fun t s' =>
      KeepsScopes s.view s'.view ∧ t ∈ rowsOf ArtifactTag s'.view ∧ t.InScope a) := by
  unfold ArtifactService.assignedTag
  cases htag : payload.tagId with
  | some tagId =>
    refine Prog.Ends.bind (ends_unchanged_selectOne _) (fun found s' h => ?_) fun _ _ _ _ h => by cases h
    obtain ⟨rfl, hfound⟩ := h
    have hfound := hfound found rfl
    cases found with
    | none => exact fun _ h => by cases h
    | some tag =>
      exact ends_onOk_pure ⟨.refl, hfound.1, hid tagId htag tag hfound.1 (of_decide_eq_true hfound.2)⟩
  | none =>
    simp only
    cases payload.name with
    | none => exact fun _ h => by cases h
    | some name =>
      simp only
      split
      · exact fun _ h => by cases h
      · refine (ends_getOrCreateTag user.id name a.organizationId payload.color).mono
          fun r s' hr t ht => ?_
        obtain ⟨hkeeps, hmem, ho, hu⟩ := hr t ht
        refine ⟨hkeeps, hmem, ho, fun hn => ?_⟩
        rw [MayWrite, hn] at hmay
        rw [hu, hmay]

theorem ends_addTag (user : User) (artifactId : UUID) (payload : ArtifactTagAssignRequest)
    (hid : ∀ tagId, payload.tagId = some tagId → ∀ a ∈ rowsOf GeneratedArtifact s.view,
      activeArtifact artifactId a = true → MayWrite s.view user a →
        ∀ t ∈ rowsOf ArtifactTag s.view, t.id = tagId → t.InScope a) :
    (ArtifactService.addTag env user artifactId payload).Ends respond s
      (Prog.onOk fun _ s' => KeepsScopes s.view s'.view) := by
  refine Prog.Ends.bind (ends_unchanged_selectOne _) (fun found s' h => ?_) fun _ _ _ _ h => nomatch h
  obtain ⟨rfl, hfound⟩ := h
  have hfound := hfound found rfl
  cases found with
  | none => exact fun _ h => nomatch h
  | some a =>
    refine Prog.Ends.bind (ends_requireWrite user a) (fun _ s₁ h => ?_) fun _ _ _ _ h => nomatch h
    obtain ⟨rfl, hmay⟩ := h
    have hmay := hmay _ rfl
    refine Prog.Ends.bind_ok (ends_assignedTag hmay fun tagId htag =>
      hid tagId htag a hfound.1 hfound.2 hmay) fun t s₂ h₂ => ?_
    obtain ⟨hkeeps, ht, hscope⟩ := h₂
    have ha := (hkeeps.artifacts a).mpr hfound.1
    refine Prog.Ends.bind_ok (ends_addTagToArtifact ha ht hscope) fun _ s₃ h₃ => ?_
    refine Prog.Ends.bind (ends_listTagsForArtifact a.id) (fun _ s₄ h => ?_) fun _ _ _ _ h => nomatch h
    rw [h.1]
    exact ends_onOk_pure (hkeeps.trans h₃)

theorem ends_removeTag (user : User) (artifactId tagId : UUID) :
    (ArtifactService.removeTag user artifactId tagId).Ends respond s
      (Prog.onOk fun _ s' => KeepsScopes s.view s'.view) := by
  refine Prog.Ends.bind (ends_unchanged_selectOne _) (fun found s' h => ?_) fun _ _ _ _ h => nomatch h
  obtain ⟨rfl, -⟩ := h
  cases found with
  | none => exact fun _ h => nomatch h
  | some a =>
    refine Prog.Ends.bind (ends_requireWrite user a) (fun _ s₁ h => ?_) fun _ _ _ _ h => nomatch h
    rw [h.1]
    unfold ArtifactTagRepository.removeTagFromArtifact
    simp only [bind_assoc]
    refine ends_deleteOf.mpr ?_
    simp only [pure_bind]
    refine Prog.Ends.bind (ends_listTagsForArtifact a.id) (fun _ s₂ h => ?_) fun _ _ _ _ h => nomatch h
    rw [h.1]
    refine ends_onOk_pure ?_
    rw [Session.view_append]
    exact .deleteAssociations _

theorem ends_createTag (user : User) (payload : ArtifactTagCreateRequest)
    (organizationId : Option UUID) :
    (ArtifactService.createTag env user payload organizationId).Ends respond s
      (Prog.onOk fun _ s' => KeepsScopes s.view s'.view) := by
  have hvalid : (ArtifactService.validateOrgCreate user organizationId).Ends respond s
      (unchanged s fun _ => True) := by
    unfold ArtifactService.validateOrgCreate
    cases organizationId with
    | none => exact ends_unchanged_pure trivial
    | some o =>
      exact ends_unchanged_bind (ends_granted o user.id .artifactWrite) fun _ _ =>
        ends_unchanged_pure trivial
  refine Prog.Ends.bind hvalid (fun _ s' h => ?_) fun _ _ _ _ h => nomatch h
  rw [h.1]
  refine Prog.Ends.bind_ok (ends_getOrCreateTag _ _ _ _) fun _ s₁ h₁ => ?_
  exact ends_onOk_pure h₁.1

/-- The service of the user that the token authenticates. -/
theorem ends_authenticated {α : Type} {access : RawToken} {g : User → Db α}
    (hg : ∀ user, Authenticates env s.view s.world.tick.time access user →
      (g user).Ends respond { s with world := s.world.tick }
        (Prog.onOk fun _ s' => KeepsScopes s.view s'.view)) :
    (getCurrentUser env access >>= g).Ends respond s
      (Prog.onOk fun _ s' => KeepsScopes s.view s'.view) := by
  by_cases h : ∃ user, Authenticates env s.view s.world.tick.time access user
  · obtain ⟨user, huser⟩ := h
    exact (ends_getCurrentUser huser).mpr (hg user huser)
  · exact ends_getCurrentUser_refused (fun user huser => h ⟨user, huser⟩) fun _ _ _ ha => nomatch ha

end Requests

/-! ## Statements of the requests -/

section Statements

variable {env : Env} {W : Rules}

theorem only_getOrCreateTag (hi : ∀ t : ArtifactTag, W.insert (toRow t))
    (hu : ∀ t t' : ArtifactTag, W.update (toRow t) (toRow t')) (userId : UUID) (name : String)
    (organizationId : Option UUID) (color : Option String) :
    (ArtifactTagRepository.getOrCreateTag env userId name organizationId color).Only (Writes W)
      fun _ => True := by
  unfold ArtifactTagRepository.getOrCreateTag
  simp only
  rw [← bind_assoc]
  refine (only_selectOne _).bind fun found _ => ?_
  cases found with
  | some tag =>
    simp only
    split
    · exact only_pure _
    · exact only_updateById (f := fun t : ArtifactTag => { t with color }) _ (fun _ => rfl)
        fun _ _ => hu _ _
  | none =>
    exact only_bind only_uuid4 fun _ => only_bind only_now fun _ =>
      only_bind (only_insertOf _ _ (hi _)) fun _ => only_pure _

theorem only_addTagToArtifact (hi : ∀ x : ArtifactTagAssociation, W.insert (toRow x))
    (artifactId tagId : UUID) :
    (ArtifactTagRepository.addTagToArtifact artifactId tagId).Only (Writes W) fun _ => True := by
  unfold ArtifactTagRepository.addTagToArtifact
  rw [← bind_assoc]
  refine (only_selectOne _).bind fun found _ => ?_
  cases found with
  | some existing => exact only_pure _
  | none =>
    exact only_bind only_uuid4 fun _ => only_bind only_now fun _ =>
      only_bind (only_insertOf _ _ (hi _)) fun _ => only_pure _

theorem only_listTagsForArtifact (artifactId : UUID) :
    (ArtifactTagRepository.listTagsForArtifact artifactId).Only (Writes W) fun _ => True :=
  (only_selectOf _).bind fun _ _ => (only_selectOf _).bind fun _ _ => only_pure _

theorem only_assignedTag (hi : ∀ t : ArtifactTag, W.insert (toRow t))
    (hu : ∀ t t' : ArtifactTag, W.update (toRow t) (toRow t')) (user : User) (a : GeneratedArtifact)
    (payload : ArtifactTagAssignRequest) :
    (ArtifactService.assignedTag env user a payload).Only (Writes W) fun _ => True := by
  unfold ArtifactService.assignedTag
  split
  · refine (only_selectOne _).bind fun found _ => ?_
    cases found with
    | none => exact only_throw _
    | some tag => exact only_pure _
  · split
    · exact only_throw _
    · split
      · exact only_throw _
      · exact only_getOrCreateTag hi hu _ _ _ _

/-- Rules that let tags be written. -/
structure AllowsTags (W : Rules) : Prop where
  insert : ∀ t : ArtifactTag, W.insert (toRow t)
  update : ∀ t t' : ArtifactTag, W.update (toRow t) (toRow t')
  attach : ∀ x : ArtifactTagAssociation, W.insert (toRow x)
  detach : ∀ x : ArtifactTagAssociation, W.delete (toRow x)

theorem only_tagRoute (hW : AllowsTags W) (r : TagRequest) :
    (r.route env).Only (Writes W) fun _ => True := by
  cases r with
  | createTag access payload o =>
    refine only_bind (only_getCurrentUser env access) fun user =>
      only_bind (P := fun _ => True) ?_ fun _ => only_pure _
    exact only_bind (only_validateOrgCreate _ _) fun _ =>
      only_bind (only_getOrCreateTag hW.insert hW.update _ _ _ _) fun _ => only_pure _
  | addTag access artifactId payload =>
    refine only_bind (only_getCurrentUser env access) fun user =>
      only_bind (P := fun _ => True) ?_ fun _ => only_pure _
    refine (only_selectOne _).bind fun found _ => ?_
    cases found with
    | none => exact only_throw _
    | some a =>
      exact only_bind (only_requireAccess _ _ _) fun _ =>
        only_bind (only_assignedTag hW.insert hW.update _ _ _) fun _ =>
        only_bind (only_addTagToArtifact hW.attach _ _) fun _ =>
        only_bind (only_listTagsForArtifact _) fun _ => only_pure _
  | removeTag access artifactId tagId =>
    refine only_bind (only_getCurrentUser env access) fun user =>
      only_bind (P := fun _ => True) ?_ fun _ => only_pure _
    refine (only_selectOne _).bind fun found _ => ?_
    cases found with
    | none => exact only_throw _
    | some a =>
      refine only_bind (only_requireAccess _ _ _) fun _ =>
        only_bind (P := fun _ => True) ?_ fun _ =>
        only_bind (only_listTagsForArtifact _) fun _ => only_pure _
      exact only_bind (only_deleteOf _ fun x _ => hW.detach x) fun _ => only_pure _

end Statements

/-! ## Serial runs -/

section Runs

variable {env : Env}

namespace TagRequest

/-- A tag that the request names by its id has the scope of the artifact, if the user of the request may
write the artifact. -/
def NamesInScope (env : Env) (s : State) : TagRequest → Prop
  | addTag access artifactId payload => ∀ tagId, payload.tagId = some tagId →
      ∀ user, Authenticates env s.committed s.world.tick.time access user →
        ∀ a ∈ rowsOf GeneratedArtifact s.committed, activeArtifact artifactId a = true →
          MayWrite s.committed user a → ∀ t ∈ rowsOf ArtifactTag s.committed, t.id = tagId → t.InScope a
  | _ => True

theorem ends_route {s : State} {r : TagRequest} (h : r.NamesInScope env s) :
    (r.route env).Ends respond s.session (Prog.onOk fun _ s' => KeepsScopes s.committed s'.view) := by
  cases r with
  | createTag access payload o =>
    refine ends_authenticated fun user _ => ?_
    exact Prog.Ends.bind_ok (ends_createTag user payload o) fun _ _ h' => ends_onOk_pure h'
  | addTag access artifactId payload =>
    refine ends_authenticated fun user huser => ?_
    refine Prog.Ends.bind_ok (ends_addTag user artifactId payload fun tagId htag => ?_)
      fun _ _ h' => ends_onOk_pure h'
    exact h tagId htag user huser
  | removeTag access artifactId tagId =>
    refine ends_authenticated fun user _ => ?_
    exact Prog.Ends.bind_ok (ends_removeTag user artifactId tagId) fun _ _ h' => ends_onOk_pure h'

end TagRequest

/-- **One request.** -/
theorem TagsInScope.serve {s : State} (h : TagsInScope s.committed) {r : TagRequest}
    (hr : r.NamesInScope env s) :
    TagsInScope (s.serve respond (TagRequest.serve env) r).2.committed := by
  have hkept : KeepsScopes s.committed (s.serve respond (TagRequest.serve env) r).2.committed :=
    ends_getDb (only_tagRoute (by constructor <;> intros <;> trivial) r) .refl (TagRequest.ends_route hr)
  exact h.keep hkept

/-- The requests of a serial run all name tags in scope when they are served. -/
def AllInScope (env : Env) (s : State) : List TagRequest → Prop
  | [] => True
  | r :: rs => r.NamesInScope env s ∧ AllInScope env (s.serve respond (TagRequest.serve env) r).2 rs

/-- **Tags stay in scope** in every serial run whose requests name by id only tags in the scope of the
artifact. -/
theorem tagsInScope_of_named : ∀ (rs : List TagRequest) {s : State}, TagsInScope s.committed →
    AllInScope env s rs → TagsInScope (s.serveAll respond (TagRequest.serve env) rs).committed
  | [], _, h, _ => h
  | _ :: rs, _, h, hall => tagsInScope_of_named rs (h.serve hall.1) hall.2

end Runs

/-! ## Two artifacts -/

/-- An active user with the given id. -/
def tagUser (id : UUID) (name : String) : User :=
  { id, email := name, username := name, hashedPassword := "", role := .user, isActive := true,
    emailVerifiedAt := none }

/-- An artifact of the first user. -/
def tagArtifact : GeneratedArtifact :=
  { id := 3, userId := 1, organizationId := none, artifactType := .dockerfile, name := "web"
    description := none, content := "", currentVersionId := none, createdAt := 0, updatedAt := 0
    deletedAt := none, archivedAt := none }

/-- A database with two users; the first has an artifact and a tag, the second another tag. -/
def tagState : State :=
  { State.trial with
    nextId := 6
    committed := Table.empty.apply [
      .store (toRow (tagUser 1 "a")), .store (toRow (tagUser 2 "b")),
      .store (toRow tagArtifact),
      .store (toRow (⟨4, none, 1, "prod", none, 0⟩ : ArtifactTag)),
      .store (toRow (⟨5, none, 2, "prod", none, 0⟩ : ArtifactTag))] }

/-- The artifact and the tags. -/
theorem rowsOf_tagState :
    rowsOf GeneratedArtifact tagState.committed = [tagArtifact] ∧
      rowsOf ArtifactTag tagState.committed = [⟨4, none, 1, "prod", none, 0⟩,
        ⟨5, none, 2, "prod", none, 0⟩] := ⟨rfl, rfl⟩

theorem tagsInScope_tagState : TagsInScope tagState.committed := fun _ hx => nomatch hx

/-- The first user adds the tag `tagId` to the artifact. -/
def addsTag (tagId : UUID) : TagRequest :=
  .addTag (.jwt ⟨some 1, 1, .access, 3600, none⟩) 3 ⟨some tagId, none, none, nofun, nofun⟩

/-- The first user adds a tag by its id and another by its name. -/
theorem tagsInScope_of_named_own : TagsInScope (tagState.serveAll respond (TagRequest.serve .trial)
    [addsTag 4, .addTag (.jwt ⟨some 1, 1, .access, 3600, none⟩) 3
      ⟨none, some "dev", none, fun _ h => by cases h; decide, nofun⟩]).committed := by
  refine tagsInScope_of_named _ tagsInScope_tagState ⟨?_, nofun, trivial⟩
  rintro tagId htag user - a ha hactive - t ht rfl
  rw [rowsOf_tagState.1, List.mem_singleton] at ha
  rw [rowsOf_tagState.2] at ht
  subst ha
  have hid : t.id = 4 := (Option.some.inj htag).symm
  rcases List.mem_cons.mp ht with rfl | ht
  · exact ⟨rfl, fun _ => rfl⟩
  · rw [List.mem_singleton.mp ht] at hid
    cases hid

/-- The first user adds the tag of the second user by its id. -/
theorem foreign_tag_added : ¬ ∀ (env : Env) (s : State) (rs : List TagRequest),
    TagsInScope s.committed →
      TagsInScope (s.serveAll respond (TagRequest.serve env) rs).committed := by
  intro hall
  have h := hall .trial tagState [addsTag 5] tagsInScope_tagState
  have hadded : ((rowsOf ArtifactTagAssociation (tagState.serveAll respond
      (TagRequest.serve .trial) [addsTag 5]).committed).any fun x =>
        decide (x.artifactId = 3) && decide (x.tagId = 5)) = true := by decide
  have hartifact : ((rowsOf GeneratedArtifact (tagState.serveAll respond
      (TagRequest.serve .trial) [addsTag 5]).committed).any fun a =>
        decide (a.id = 3) && decide (a.organizationId = none) && decide (a.userId = 1)) = true := by decide
  have htags : ((rowsOf ArtifactTag (tagState.serveAll respond
      (TagRequest.serve .trial) [addsTag 5]).committed).all fun t =>
        decide (t.id = 5 → t.userId = 2)) = true := by decide
  obtain ⟨x, hx, hx'⟩ := List.any_eq_true.mp hadded
  obtain ⟨a, ha, ha'⟩ := List.any_eq_true.mp hartifact
  simp only [Bool.and_eq_true, decide_eq_true_eq] at hx' ha'
  obtain ⟨t, ht, htx, hscope⟩ := h x hx a ha (ha'.1.1.trans hx'.1.symm)
  have huser : t.userId = 2 := of_decide_eq_true (List.all_eq_true.mp htags t ht) (htx.trans hx'.2)
  have := hscope.2 ha'.1.2
  rw [huser, ha'.2] at this
  cases this

end DevOps
