import DevOpsAssistant.Api.Policies
import DevOpsAssistant.Api.Tasks
import DevOpsAssistant.Artifacts.Library
import DevOpsAssistant.Organizations.Serial
import DevOpsAssistant.Policies.Configurations

/-!
# All requests of a tenant

* `TenantRequest`: the requests about accounts, organizations, artifacts, policies and tasks.
* `only_libraryRoute`, `only_taskRoute`: what these requests write.
* `tenantServed`: the state after a list of requests.
* `serve_backend`, **`serve_beside`**: only requests to accounts and organizations write members.
-/

namespace DevOps

open Txn Discipline

variable (env : Env)

/-- A request about accounts and organizations, or about what belongs to them. -/
inductive TenantRequest where
  | backend (r : BackendRequest)
  | library (r : LibraryRequest)
  | policy (r : PolicyRequest env)
  | task (r : TaskRequest)

/-- The body of a successful response. -/
inductive TenantResponse where
  | backend (b : BackendResponse)
  | library (b : LibraryResponse)
  | policy (b : PolicyResponseBody)
  | task (b : TaskResponseBody)

namespace TenantRequest

variable {env}

/-- The program of a request. -/
def serve : TenantRequest env → Db TenantResponse
  | backend r => do return .backend (← r.serve env)
  | library r => do return .library (← r.serve env)
  | policy r => do return .policy (← r.serve)
  | task r => do return .task (← r.serve env)

end TenantRequest

/-! ## Requests that write no members -/

section Beside

variable {env} {W : Rules}

/-- Rules that let artifacts and their versions be written. -/
structure AllowsArtifacts (W : Rules) : Prop where
  insert : ∀ a : GeneratedArtifact, W.insert (toRow a)
  update : ∀ a a' : GeneratedArtifact, W.update (toRow a) (toRow a')
  version : ∀ v : ArtifactVersion, W.insert (toRow v)
  audit : ∀ e : AuditEvent, W.insert (toRow e)
  usage : ∀ e : UsageEvent, W.insert (toRow e)

theorem only_createArtifactRow (hW : AllowsArtifacts W) (u : UUID) (o : Option UUID)
    (artifactType : ArtifactType) (name : String) (description : Option String) (content : String) :
    (ArtifactRepository.createArtifact u o artifactType name description content).Only (Writes W)
      fun _ => True :=
  only_bind only_uuid4 fun _ => only_bind only_now fun _ => only_bind only_now fun _ =>
    only_bind (only_insertOf _ _ (hW.insert _)) fun _ => only_pure _

theorem only_updateArtifactRow (hW : AllowsArtifacts W) (a : GeneratedArtifact)
    (changes : ArtifactRepository.Changes) :
    (ArtifactRepository.updateArtifact a changes).Only (Writes W) fun _ => True :=
  only_bind only_now fun _ => only_updateById _ _ fun _ _ => hW.update _ _

theorem only_createVersion (hW : AllowsArtifacts W) (a : UUID) (n : ℕ) (content hash : String)
    (u : UUID) :
    (ArtifactVersionRepository.createVersion a n content hash u).Only (Writes W) fun _ => True :=
  only_bind only_uuid4 fun _ => only_bind only_now fun _ =>
    only_bind (only_insertOf _ _ (hW.version _)) fun _ => only_pure _

theorem only_setArchived (hW : AllowsArtifacts W) (a : GeneratedArtifact) (archived : Bool) :
    (ArtifactTagRepository.setArchived a archived).Only (Writes W) fun _ => True := by
  have hrow : ∀ archivedAt t, (updateById a.id
      (ArtifactTagRepository.archivedRow a.archivedAt archivedAt t) fun _ => rfl).Only (Writes W)
        fun _ => True := fun _ _ => only_updateById _ _ fun _ _ => hW.update _ _
  cases archived with
  | true =>
    exact only_bind (only_bind only_now fun _ => only_pure _) fun _ => only_bind only_now fun _ =>
      hrow _ _
  | false => exact only_bind (only_pure _) fun _ => only_bind only_now fun _ => hrow _ _

/-- A service that looks for an artifact first. -/
theorem only_found {α : Type} {q : Db (List GeneratedArtifact)} {e : Exc}
    {body : GeneratedArtifact → Db α} {P : List GeneratedArtifact → Prop}
    (hq : q.Only (Writes W) P) (hbody : ∀ a, (body a).Only (Writes W) fun _ => True) :
    (q >>= fun as => scalarOneOrNone as >>= fun
      | none => throw e
      | some a => body a).Only (Writes W) fun _ => True := by
  refine hq.bind fun as _ => (only_scalarOneOrNone as).bind fun found _ => ?_
  cases found with
  | none => exact only_throw _
  | some a => exact hbody a

open ArtifactService

theorem only_create (hW : AllowsArtifacts W) (hs : AllowsSideEffects W) (user : User)
    (payload : ArtifactCreateRequest) :
    (create env user payload).Only (Writes W) fun _ => True :=
  only_bind (only_validateContentSize env _) fun _ => only_bind (only_validateOrgCreate _ _) fun _ =>
    only_bind (only_createArtifactRow hW _ _ _ _ _ _) fun _ =>
    only_bind (only_createVersion hW _ _ _ _ _) fun _ =>
    only_bind (only_updateArtifactRow hW _ _) fun _ =>
    only_bind (only_recordEvent (fun _ _ => hW.audit _) _ _ _ _) fun _ =>
    only_bind (only_tryMarkFlag hs _ _ _ _) fun _ => only_toDetail _ _

theorem only_updateArtifact (hW : AllowsArtifacts W) (user : User) (id : UUID)
    (name description : Option String) :
    (updateArtifact user id name description).Only (Writes W) fun _ => True := by
  refine only_found (only_selectOf _) fun a => only_bind (only_requireAccess _ _ _) fun _ => ?_
  split
  · exact only_throw _
  · exact only_bind (only_updateArtifactRow hW _ _) fun _ =>
      only_bind (only_currentVersion _ _) fun _ => only_pure _

theorem only_deleteArtifact (hW : AllowsArtifacts W) (user : User) (id : UUID) :
    (deleteArtifact user id).Only (Writes W) fun _ => True := by
  refine only_found (only_selectOf _) fun a => only_bind (only_requireAccess _ _ _) fun _ => ?_
  refine only_bind (P := fun _ => True) ?_ fun _ =>
    only_recordEvent (fun _ _ => hW.audit _) _ _ _ _
  exact only_bind only_now fun _ => only_bind only_now fun _ =>
    only_updateById _ _ fun _ _ => hW.update _ _

theorem only_appendVersion (hW : AllowsArtifacts W) (user : User) (a : GeneratedArtifact)
    (content : String) : (appendVersion env user a content).Only (Writes W) fun _ => True := by
  refine only_bind (P := fun _ => True) ((only_selectOf _).bind fun _ _ => only_pure _) fun n => ?_
  exact only_bind (only_createVersion hW _ _ _ _ _) fun _ =>
    only_bind (only_updateArtifactRow hW _ _) fun _ =>
    only_bind (only_recordEvent (fun _ _ => hW.audit _) _ _ _ _) fun _ => only_pure _

theorem only_addVersion (hW : AllowsArtifacts W) (user : User) (id : UUID) (content : String) :
    (addVersion env user id content).Only (Writes W) fun _ => True := by
  refine only_bind (only_validateContentSize env _) fun _ => only_found (only_lockOf _) fun a =>
    only_bind (only_requireAccess _ _ _) fun _ =>
    only_bind (P := fun _ => True) ((only_selectOf _).bind fun _ _ => only_pure _) fun found => ?_
  cases found with
  | none => exact only_bind (only_appendVersion hW _ _ _) fun _ => only_pure _
  | some existing =>
    dsimp only
    split
    · exact only_bind (only_updateArtifactRow hW _ _) fun _ => only_pure _
    · exact only_pure _

theorem only_restoreVersion (hW : AllowsArtifacts W) (user : User) (id : UUID) (n : ℕ) :
    (restoreVersion env user id n).Only (Writes W) fun _ => True := by
  refine only_found (only_lockOf _) fun a => only_bind (only_requireAccess _ _ _) fun _ =>
    (only_selectOne _).bind fun found _ => ?_
  cases found with
  | none => exact only_throw _
  | some source =>
    exact only_bind (only_appendVersion hW _ _ _) fun _ =>
      only_bind (only_recordEvent (fun _ _ => hW.audit _) _ _ _ _) fun _ =>
      only_bind (only_toDetail _ _) fun _ => only_pure _

theorem only_archive (hW : AllowsArtifacts W) (user : User) (id : UUID) :
    (archive user id).Only (Writes W) fun _ => True := by
  refine only_found (only_lockOf _) fun a => only_bind (only_requireAccess _ _ _) fun _ =>
    only_bind (only_setArchived hW _ _) fun _ => only_bind (P := fun _ => True) ?_ fun _ => only_pure _
  exact (only_selectOf _).bind fun _ _ => only_pure _

theorem only_unarchive (hW : AllowsArtifacts W) (user : User) (id : UUID) :
    (unarchive user id).Only (Writes W) fun _ => True :=
  only_found (only_lockOf _) fun _ => only_bind (only_requireAccess _ _ _) fun _ =>
    only_bind (only_setArchived hW _ _) fun _ => only_pure _

theorem only_persist (hW : AllowsArtifacts W) (hs : AllowsSideEffects W) (user : User)
    (payload : GeneratorSaveOptions) (artifactType : ArtifactType) (content defaultName : String) :
    (persist env user payload artifactType content defaultName).Only (Writes W) fun _ => True := by
  refine only_bind (P := fun _ => True) ?_ fun _ => ?_
  · refine only_bind (only_requestedFindings env _ _ _ _) fun findings => ?_
    split
    · split
      · exact only_throw _
      · exact only_bind (only_artifactCreateRequest _ _ _ _) fun _ =>
          only_bind (only_create hW hs _ _) fun _ => only_pure _
    · exact only_pure _
  · dsimp only
    split
    · exact only_pure _
    · exact only_bind (only_createArtifactRow hW _ _ _ _ _ _) fun _ => only_pure _

theorem only_artifactRoute (hW : AllowsArtifacts W) (hs : AllowsSideEffects W) (r : ArtifactRequest) :
    (r.route env).Only (Writes W) fun _ => True := by
  cases r with
  | create access payload =>
    exact only_bind (only_getCurrentUser env access) fun _ =>
      only_bind (only_create hW hs _ _) fun _ => only_pure _
  | get access id =>
    exact only_bind (only_getCurrentUser env access) fun _ =>
      only_bind (only_getArtifact _ _) fun _ => only_pure _
  | update access id name description =>
    exact only_bind (only_getCurrentUser env access) fun _ =>
      only_bind (only_updateArtifact hW _ _ _ _) fun _ => only_pure _
  | delete access id =>
    exact only_bind (only_getCurrentUser env access) fun _ =>
      only_bind (only_deleteArtifact hW _ _) fun _ => only_pure _
  | listVersions access id limit offset =>
    exact only_bind (only_getCurrentUser env access) fun _ =>
      only_bind (only_listVersions _ _ _ _) fun _ => only_pure _
  | getVersion access id n =>
    exact only_bind (only_getCurrentUser env access) fun _ =>
      only_bind (only_getVersion _ _ _) fun _ => only_pure _
  | addVersion access id content =>
    exact only_bind (only_getCurrentUser env access) fun _ =>
      only_bind (only_addVersion hW _ _ _) fun _ => only_pure _
  | restoreVersion access id n =>
    exact only_bind (only_getCurrentUser env access) fun _ =>
      only_bind (only_restoreVersion hW _ _ _) fun _ => only_pure _
  | archive access id =>
    exact only_bind (only_getCurrentUser env access) fun _ =>
      only_bind (only_archive hW _ _) fun _ => only_pure _
  | unarchive access id =>
    exact only_bind (only_getCurrentUser env access) fun _ =>
      only_bind (only_unarchive hW _ _) fun _ => only_pure _

theorem only_generatorRoute (hW : AllowsArtifacts W) (hs : AllowsSideEffects W)
    (r : GeneratorRequest) : (r.route env).Only (Writes W) fun _ => True := by
  cases r with
  | dockerfile access payload =>
    refine only_bind (only_getCurrentUser env access) fun _ =>
      only_bind (P := fun _ => True) ?_ fun _ => only_pure _
    exact only_bind (only_dockerfileDraft env hW.usage _ _) fun _ =>
      only_bind (only_persist hW hs _ _ _ _ _) fun _ => only_pure _
  | kubernetes access payload =>
    refine only_bind (only_getCurrentUser env access) fun _ =>
      only_bind (P := fun _ => True) ?_ fun _ => only_pure _
    exact only_bind (only_kubernetesDraft env _) fun _ =>
      only_bind (only_persist hW hs _ _ _ _ _) fun _ => only_pure _
  | pipeline access payload =>
    refine only_bind (only_getCurrentUser env access) fun _ =>
      only_bind (P := fun _ => True) ?_ fun _ => only_pure _
    exact only_bind (P := fun _ => True) (only_pure _) fun _ =>
      only_bind (only_persist hW hs _ _ _ _ _) fun _ => only_pure _
  | command access payload =>
    refine only_bind (only_getCurrentUser env access) fun _ =>
      only_bind (P := fun _ => True) ?_ fun _ => only_pure _
    exact only_bind (only_commandDraft env hW.usage _ _) fun _ =>
      only_bind (only_persist hW hs _ _ _ _ _) fun _ => only_pure _

theorem only_libraryRoute (hW : AllowsArtifacts W) (hs : AllowsSideEffects W) (ht : AllowsTags W)
    (hi : ∀ f : ArtifactFavorite, W.insert (toRow f)) (hd : ∀ f : ArtifactFavorite, W.delete (toRow f))
    (r : LibraryRequest) : (r.route env).Only (Writes W) fun _ => True := by
  cases r with
  | workspace r =>
    refine only_bind (P := fun _ => True) ?_ fun _ => only_pure _
    cases r with
    | artifact r => exact only_bind (only_artifactRoute hW hs r) fun _ => only_pure _
    | generator r => exact only_bind (only_generatorRoute hW hs r) fun _ => only_pure _
  | tag r => exact only_bind (only_tagRoute ht r) fun _ => only_pure _
  | favorite access id =>
    exact only_bind (only_getCurrentUser env access) fun _ =>
      only_bind (only_favorite hi _ _) fun _ => only_pure _
  | unfavorite access id =>
    exact only_bind (only_getCurrentUser env access) fun _ =>
      only_bind (only_unfavorite hd _ _) fun _ => only_pure _

/-! ## Tasks -/

theorem only_requireMembership (o u : UUID) :
    (OrganizationAuthService.requireMembership o u).Only (Writes W) fun _ => True := by
  refine only_bind (only_getActiveOrganization o) fun org => (only_selectOne _).bind fun found _ => ?_
  split <;> trivial

theorem only_requireView (user : User) (task : BackgroundTask) :
    (TaskService.requireView user task).Only (Writes W) fun _ => True := by
  unfold TaskService.requireView
  split
  · split <;> trivial
  · exact only_bind (only_requireMembership _ _) fun _ => only_pure _

theorem only_requireCancel (user : User) (task : BackgroundTask) :
    (TaskService.requireCancel user task).Only (Writes W) fun _ => True := by
  unfold TaskService.requireCancel
  split
  · split <;> trivial
  · refine only_bind (only_requireMembership _ _) fun (_, membership) => ?_
    dsimp only
    split
    · exact only_throw _
    · split
      · exact only_pure _
      · exact only_bind (only_requirePermission _ _ _) fun _ => only_pure _

theorem only_updateTask (hu : ∀ t t' : BackgroundTask, W.update (toRow t) (toRow t'))
    (task : BackgroundTask) (changes : TaskRepository.Changes) :
    (TaskRepository.update task changes).Only (Writes W) fun _ => True := by
  refine only_bind (P := fun _ => True) ?_ fun _ => ?_
  · unfold TaskRepository.flush
    split
    · exact only_pure _
    · split
      · exact only_bind (only_updateById _ _ fun _ _ => hu _ _) fun _ => only_pure _
      · exact only_bind (only_updateUnique _ _ _ fun _ _ => hu _ _) fun _ => only_pure _
  · refine (only_selectOne _).bind fun found _ => ?_
    split <;> trivial

theorem only_listTasks (user : User) (o : Option UUID) (status : Option TaskStatus)
    (taskType : Option String) (limit offset : ℕ) :
    (TaskService.listTasks user o status taskType limit offset).Only (Writes W) fun _ => True := by
  have hpage : ∀ p, (TaskRepository.page p limit offset).Only (Writes W) fun _ => True := fun p =>
    (only_selectOf _).bind fun _ _ => only_pure _
  cases o with
  | none => exact only_bind (hpage _) fun _ => only_pure _
  | some o =>
    exact only_bind (only_requireMembership _ _) fun _ => only_bind (hpage _) fun _ => only_pure _

theorem only_taskRoute (hu : ∀ t t' : BackgroundTask, W.update (toRow t) (toRow t'))
    (ha : ∀ e : AuditEvent, W.insert (toRow e)) (r : TaskRequest) :
    (r.route env).Only (Writes W) fun _ => True := by
  cases r with
  | list access o status taskType limit offset =>
    exact only_bind (only_getCurrentUser env access) fun _ =>
      only_bind (only_listTasks _ _ _ _ _ _) fun _ => only_pure _
  | get access taskId =>
    refine only_bind (only_getCurrentUser env access) fun user => ?_
    split
    · refine only_bind (P := fun _ => True) ?_ fun _ => only_pure _
      refine (only_selectOne _).bind fun found _ => ?_
      cases found with
      | none => exact only_throw _
      | some task => exact only_bind (only_requireView _ _) fun _ => only_pure _
    · refine only_bind (P := fun _ => True) ?_ fun _ => only_pure _
      refine (only_selectOne _).bind fun found _ => ?_
      cases found with
      | none => exact only_throw _
      | some task => exact only_bind (only_requireView _ _) fun _ => only_pure _
  | cancel access taskId =>
    refine only_bind (only_getCurrentUser env access) fun user =>
      only_bind (P := fun _ => True) ?_ fun _ => only_pure _
    refine (only_selectOne _).bind fun found _ => ?_
    cases found with
    | none => exact only_throw _
    | some task =>
      refine only_bind (only_requireCancel _ _) fun _ => ?_
      split
      · exact only_pure _
      · exact only_bind only_now fun _ => only_bind (only_updateTask hu _ _) fun _ =>
          only_bind (only_recordEvent (fun _ _ => ha _) _ _ _ _) fun _ => only_pure _

end Beside

/-! ## Serial runs -/

variable {env}

/-- The state after the requests `rs`, each served when the one before has ended. -/
abbrev tenantServed (env : Env) (s : State) (rs : List (TenantRequest env)) : State :=
  s.serveAll respond TenantRequest.serve rs

/-- The state after one request. -/
abbrev tenantServedOne (s : State) (r : TenantRequest env) : State :=
  (s.serve respond TenantRequest.serve r).2

/-- What is returned does not change what a program does. -/
theorem exec_map_snd {α β : Type} (p : Db α) (f : α → β) (s : Session Row World) :
    ((p >>= fun a => pure (f a) : Db β).exec respond s).2 = (p.exec respond s).2 := by
  change ((Prog.bind p fun a => pure (f a)).exec respond s).2 = _
  rw [Prog.exec_bind]
  rcases p.exec respond s with ⟨_ | _, _⟩ <;> rfl

theorem serve_backend (s : State) (r : BackendRequest) :
    tenantServedOne s (.backend r : TenantRequest env) = servedOne env s r :=
  congrArg Session.toStore (exec_map_snd (r.serve env) TenantResponse.backend s.session)

/-- The rules of requests that leave the tables of organizations alone. -/
abbrev aroundOrgs : Rules := outside (orgTables · = true) True

/-- A unit of work that writes other tables. -/
theorem sameWhere_getDb {α : Type} {p : Db α} {P : α → Prop} (hp : p.Only (Writes aroundOrgs) P)
    (s : State) : s.committed.SameWhere (keysOf (orgTables · = true))
      ((getDb p).exec respond s.session).2.committed := by
  refine (Prog.Only.sameWhere respond (keysOf (orgTables · = true)) (fun p f h => outside_modify h)
    (fun r h => h) (hp.unitOfWork trivial trivial) ?_).1.committed
  exact .refl _

/-- **The other requests** leave the tables of organizations as they are. -/
theorem serve_beside (s : State) (r : TenantRequest env) (hr : ∀ r', r ≠ .backend r') :
    s.committed.SameWhere (keysOf (orgTables · = true)) (tenantServedOne s r).committed := by
  have hs : AllowsSideEffects aroundOrgs := by constructor <;> intros <;> exact Bool.false_ne_true
  have hW : AllowsArtifacts aroundOrgs := by constructor <;> intros <;> exact Bool.false_ne_true
  have ht : AllowsTags aroundOrgs := by constructor <;> intros <;> exact Bool.false_ne_true
  have hrules : AllowsPolicyRules aroundOrgs := by constructor <;> intros <;> exact Bool.false_ne_true
  have hmap : ∀ {α : Type} {p : Db α} {f : α → TenantResponse}, p.Only (Writes aroundOrgs) (fun _ => True) →
      s.committed.SameWhere (keysOf (orgTables · = true))
        ((getDb p >>= fun a => pure (f a) : Db TenantResponse).exec respond s.session).2.committed := by
    intro α p f hp
    rw [exec_map_snd]
    exact sameWhere_getDb hp s
  cases r with
  | backend r => exact absurd rfl (hr r)
  | library r =>
    exact hmap (only_libraryRoute hW hs ht (fun _ => Bool.false_ne_true) (fun _ => Bool.false_ne_true) r)
  | policy r =>
    exact hmap (only_policyRequest hrules hs (fun _ => Bool.false_ne_true)
      (fun _ _ => Bool.false_ne_true) r)
  | task r => exact hmap (only_taskRoute (fun _ _ => Bool.false_ne_true) (fun _ => Bool.false_ne_true) r)

/-- What the steps of organizations rest on holds between all requests. -/
theorem between_tenantServedOne {s : State} (b : Between orgDiscipline s) (r : TenantRequest env) :
    Between orgDiscipline (tenantServedOne s r) := by
  by_cases hr : ∃ r', r = .backend r'
  · obtain ⟨r', rfl⟩ := hr
    rw [serve_backend]
    exact (exists_stepOf env b r').1
  · refine ⟨trivial, fun row hrow n hn => ?_⟩
    have hsame := serve_beside s r fun r' h => hr ⟨r', h⟩
    have hid : s.nextId ≤ (tenantServedOne s r).nextId := Prog.nextId_le_exec (r.serve) s.session
    have hold : row ∈ s.committed.rows := (hsame row (mem_orgNames.mp hn).1).mp hrow
    exact Nat.lt_of_lt_of_le (b.named row hold n hn) hid

end DevOps
