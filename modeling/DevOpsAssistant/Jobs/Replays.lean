import DevOpsAssistant.Api.Tasks
import DevOpsAssistant.Jobs.Retention
import DevOpsAssistant.Specs.Generators
import DevOpsAssistant.Specs.Organizations
import Std.Data.String.ToNat

/-!
# The scope of a replay

An enqueue with an idempotency key returns the task it finds for the user and the key, whatever the
organization of that task.

* `HasTask`: a task and its organization; `ends_update`: a task keeps its organization.
* `ends_createTask`: the task that is found, or a new one in the requested organization.
* **`replay_scope_iff`**: the task of the response is in the requested organization exactly if no
  live task of the user with the key is in another.
-/

namespace DevOps

open Txn

/-- There is a task `id` in the organization `o`. -/
def HasTask (db : Database) (id : UUID) (o : Option UUID) : Prop :=
  ∃ t ∈ rowsOf BackgroundTask db, t.id = id ∧ t.organizationId = o

/-- The task of the user `u` with the key `key` that a lookup finds: the latest, unless it has ended
before the cutoff. -/
def IsLive (cutoff : Time) (db : Database) (u : UUID) (key : String) (t : BackgroundTask) : Prop :=
  TaskRepository.latest ((rowsOf BackgroundTask db).filter (keyedBy u TASK_TYPE_LOG_ANALYSIS key)) =
    some t ∧ endedBefore cutoff t = false

/-- Every table but that of the tasks. -/
abbrev besideTasks : Rules := outside (fun n => n = .backgroundTasks) False

variable {env : Env} {s : Session Row World} {id : UUID} {o : Option UUID}

/-- A user is authenticated by one token only as himself. -/
theorem Authenticates.unique {db : Database} {t : Time} {token : RawToken} {user user' : User}
    (h : Authenticates env db t token user) (h' : Authenticates env db t token user') :
    user = user' := by
  obtain ⟨payload, hclaims, hsub, hmem, -⟩ := h
  obtain ⟨payload', hclaims', hsub', hmem', -⟩ := h'
  rw [hclaims] at hclaims'
  obtain rfl := Option.some.inj hclaims'
  rw [hsub] at hsub'
  exact entity_ext hmem hmem' (Option.some.inj hsub')

theorem allowsSideEffects_besideTasks : AllowsSideEffects besideTasks := by
  constructor <;> intros <;> exact nofun

/-- A program on other tables leaves the tasks. -/
theorem ends_besideTasks {α : Type} {p : Db α} (hp : p.Only (Writes besideTasks) fun _ => True)
    (h : HasTask s.view id o) :
    p.Ends respond s (Prog.onOk fun _ s' => HasTask s'.view id o) := by
  intro a _
  obtain ⟨t, ht, hid, ho⟩ := h
  exact ⟨t, ((unchanged_of_only hp s).mem rfl).mpr ht, hid, ho⟩

/-- The flush of a task keeps its organization. -/
theorem ends_flushTask {loaded new : BackgroundTask} (h : HasTask s.view loaded.id o) :
    (TaskRepository.flush loaded new).Ends respond s
      (Prog.onOk fun _ s' => HasTask s'.view loaded.id o) := by
  have hstored : ∀ {t : BackgroundTask} {s' : Session Row World}, t ∈ rowsOf BackgroundTask s.view →
      Entity.id t = loaded.id →
      s' = s.append [.store (toRow (TaskRepository.flushedRow loaded new t))] →
        HasTask s'.view loaded.id o := by
    intro t s' ht hid hs
    obtain ⟨t', ht', hid', ho⟩ := h
    obtain rfl : t = t' := entity_ext ht ht' (hid.trans hid'.symm)
    refine ⟨TaskRepository.flushedRow loaded new t, ?_, hid', ho⟩
    rw [hs]
    exact mem_rowsOf_append_store.mpr (.inl rfl)
  unfold TaskRepository.flush
  by_cases hsame : new = loaded
  · rw [if_pos hsame]
    exact ends_onOk_pure h
  · rw [if_neg hsame]
    by_cases hcelery : new.celeryTaskId = loaded.celeryTaskId
    · rw [if_pos hcelery]
      refine Prog.Ends.bind (ends_update _ _ _) (fun t s' hr => ?_) fun _ _ _ _ hb => nomatch hb
      obtain ⟨t, ht, hid, -, hs⟩ | ⟨-, hraise⟩ := hr
      · exact ends_onOk_pure (hstored ht hid hs)
      · cases hraise
    · rw [if_neg hcelery]
      refine Prog.Ends.bind (ends_updateUnique _ _ _ _) (fun t s' hr => ?_) fun _ _ _ _ hb =>
        nomatch hb
      obtain ⟨t, ht, hid, -, hs, -⟩ | ⟨-, hraise⟩ | ⟨-, hraise, -⟩ := hr
      · exact ends_onOk_pure (hstored ht hid hs)
      · cases hraise
      · cases hraise

/-- An update returns the task as it is then, in its organization. -/
theorem ends_updateTask {task : BackgroundTask} {c : TaskRepository.Changes}
    (h : HasTask s.view task.id o) :
    (TaskRepository.update task c).Ends respond s
      (Prog.onOk fun t s' => t.id = task.id ∧ HasTask s'.view task.id o) := by
  refine Prog.Ends.bind_ok (ends_flushTask h) fun _ s₁ h₁ => ?_
  unfold refresh
  rw [← bind_assoc]
  refine Prog.Ends.bind (ends_unchanged_selectOne _) (fun found s₂ hr => ?_) fun _ _ _ _ hb =>
    nomatch hb
  obtain ⟨rfl, hfound⟩ := hr
  cases found with
  | none => exact fun _ hb => nomatch hb
  | some t => exact ends_onOk_pure ⟨of_decide_eq_true (hfound _ rfl).2, h₁⟩

/-! ## The task of an enqueue -/

/-- What an enqueue of the user `u` with the key `key` in the organization `o` works on: a live task
that the session has found, or a new task. -/
structure TaskFor (cutoff : Time) (db db' : Database) (u : UUID) (key : String) (o : Option UUID)
    (id : UUID) (o' : Option UUID) : Prop where
  has : HasTask db' id o'
  found : ∀ t, key ≠ "" → IsLive cutoff db u key t → o' = t.organizationId
  new : (∀ t, key ≠ "" → ¬ IsLive cutoff db u key t) → o' = o

theorem ends_requireCreate (user : User) (o : Option UUID) :
    (TaskService.requireCreate user o).Ends respond s (unchanged s fun _ => True) := by
  cases o with
  | none => exact ends_unchanged_pure trivial
  | some o =>
    exact ends_unchanged_bind (ends_requirePermission o user.id .resourceCreate) fun _ _ =>
      ends_unchanged_pure trivial

/-- A new task is in the organization that was asked for. -/
theorem ends_create (u : UUID) (taskType : String) (o : Option UUID) (key : Option String)
    (expiresAt : Option Time) :
    (TaskRepository.create u taskType o key expiresAt).Ends respond s
      (Prog.onOk fun t s' => t.organizationId = o ∧ HasTask s'.view t.id o) := by
  unfold TaskRepository.create
  refine ends_uuid4.mpr (ends_now.mpr ?_)
  refine Prog.Ends.bind (ends_insert _ _) (fun _ s' hr => ?_) fun _ _ _ _ hb => nomatch hb
  obtain ⟨-, hs, -⟩ | ⟨hraise, -⟩ := hr
  · refine ends_onOk_pure ⟨rfl, _, ?_, rfl, rfl⟩
    rw [hs]
    exact mem_rowsOf_append_store.mpr (.inl rfl)
  · cases hraise

/-- **The task of an enqueue**: the live task with the key, or a new one. -/
theorem ends_createTask (user : User) (o : Option UUID) (key : String) :
    (TaskService.createTask env user TASK_TYPE_LOG_ANALYSIS o (some key)).Ends respond s
      (Prog.onOk fun t s' => TaskFor (cutoffAt env s.world) s.view s'.view user.id key o t.id
        t.organizationId) := by
  have hnew : ∀ s' : Session Row World,
      (∀ t, key ≠ "" → ¬ IsLive (cutoffAt env s.world) s.view user.id key t) →
      (do
        let expiresAt ← TaskService.defaultExpiresAt env
        let task ← TaskRepository.create user.id TASK_TYPE_LOG_ANALYSIS o (some key)
          (some expiresAt)
        AuditService.recordEvent "task.created" user.id o "background_task" task.id
        return task : Db BackgroundTask).Ends respond s'
        (Prog.onOk fun t s' => TaskFor (cutoffAt env s.world) s.view s'.view user.id key o t.id
          t.organizationId) := by
    intro s' hnone
    unfold TaskService.defaultExpiresAt
    rw [bind_assoc]
    refine ends_now.mpr ?_
    rw [pure_bind]
    refine Prog.Ends.bind_ok (ends_create _ _ o _ _) fun t s₁ ⟨ho, h₁⟩ => ?_
    refine Prog.Ends.bind_ok (ends_besideTasks (only_recordEvent
      (fun e _ => allowsSideEffects_besideTasks.audit e) _ _ _ _) h₁)
      fun _ s₂ h₂ => ends_onOk_pure ⟨ho ▸ h₂, fun t' hne hlive => absurd hlive (hnone t' hne),
        fun _ => ho⟩
  unfold TaskService.createTask
  refine Prog.Ends.bind (ends_requireCreate user o) (fun _ s₁ hr => ?_) fun _ _ _ _ hb => nomatch hb
  obtain ⟨rfl, -⟩ := hr
  by_cases hne : key = ""
  · subst hne
    exact hnew s₁ fun _ h => absurd rfl h
  · refine Prog.Ends.bind (ends_lookup hne) (fun found s₂ hr => ?_) fun _ _ _ _ hb => nomatch hb
    obtain ⟨hfound, hview⟩ := hr
    cases hf : found with
    | none =>
      refine hnew s₂ fun t _ ⟨hlatest, hended⟩ => ?_
      rw [hlatest, Option.filter_some, hended, hf] at hfound
      cases hfound
    | some t =>
      rw [hf] at hfound
      obtain ⟨hlatest, hended⟩ := Option.filter_eq_some_iff.mp (Except.ok.inj hfound).symm
      have hmem := (List.mem_filter.mp (List.mem_mergeSort.mp (List.mem_of_head? hlatest))).1
      refine ends_onOk_pure ⟨⟨t, hview ▸ hmem, rfl, rfl⟩, fun t' _ hlive => ?_, fun hnone => ?_⟩
      · rw [Option.some.inj (hlatest.symm.trans hlive.1)]
      · exact absurd ⟨hlatest, by simpa using hended⟩ (hnone t hne)

/-! ## The response -/

/-- The response names a task in the organization `o`. -/
def NamesTask (db : Database) (r : LogAnalyzerService.AsyncTaskResponse) (o : Option UUID) : Prop :=
  ∃ t ∈ rowsOf BackgroundTask db, toString t.id = r.taskId ∧ t.organizationId = o

theorem NamesTask.of_hasTask {db : Database} {r : LogAnalyzerService.AsyncTaskResponse}
    (h : HasTask db id o) (hr : r.taskId = toString id) : NamesTask db r o := by
  obtain ⟨t, ht, rfl, ho⟩ := h
  exact ⟨t, ht, hr.symm, ho⟩

/-- A response names one task. -/
theorem NamesTask.unique {db : Database} {r : LogAnalyzerService.AsyncTaskResponse}
    {o' : Option UUID} (h : NamesTask db r o) (h' : NamesTask db r o') : o = o' := by
  obtain ⟨t, ht, hid, rfl⟩ := h
  obtain ⟨t', ht', hid', rfl⟩ := h'
  have hrepr : Nat.repr t.id = Nat.repr t'.id := hid.trans hid'.symm
  have hsame : t.id = t'.id := by
    have := congrArg String.toNat? hrepr
    simpa using this
  rw [entity_ext ht ht' hsame]

theorem ends_delay (m : CeleryMessage) : (LogAnalyzerService.delay m).Ends respond s
    (Prog.onOk fun _ s' => s'.view = s.view) := by
  unfold LogAnalyzerService.delay
  change (orRaise (respond (.publish m) s.world).1 : Db String).Ends respond
    { s with world := (respond (.publish m) s.world).2 } _
  cases (respond (.publish m) s.world).1 with
  | ok a => exact ends_onOk_pure rfl
  | error e => exact fun _ hb => nomatch hb

theorem only_createAnalysis (u : UUID) (o : Option UUID) (type : AnalysisType) (preview : String)
    (status : AnalysisStatus) (taskId : Option String) :
    (ArtifactRepository.createAnalysis u o type preview status taskId).Only (Writes besideTasks)
      fun _ => True :=
  only_bind only_uuid4 fun _ => only_bind (only_insertOf _ _ fun h => by cases h) fun _ =>
    only_pure _

theorem only_refreshAnalysis (id : UUID) :
    (refresh id : Db Analysis).Only (Writes besideTasks) fun _ => True := by
  unfold refresh
  rw [← bind_assoc]
  refine only_bind (only_selectOne _) fun found => ?_
  cases found with
  | none => exact only_throw _
  | some a => exact only_pure _

theorem only_updateAnalysis (analysis : SessionObject Analysis) (status : AnalysisStatus)
    (taskId : Option String) :
    (ArtifactRepository.updateAnalysis analysis status taskId).Only (Writes besideTasks)
      fun _ => True := by
  unfold ArtifactRepository.updateAnalysis
  dsimp only
  split
  · exact only_refreshAnalysis _
  · exact only_bind (only_updateById _ _ fun _ _ h => by cases h) fun _ =>
      only_refreshAnalysis _

/-- **The rest of an enqueue** names its task. -/
theorem ends_publish (user : User) (cleaned provider : String) (task : BackgroundTask)
    (h : HasTask s.view task.id o) :
    (LogAnalyzerService.publish env user cleaned provider task).Ends respond s
      (Prog.onOk fun r s' => NamesTask s'.view r o) := by
  unfold LogAnalyzerService.publish
  refine Prog.Ends.bind_ok (ends_besideTasks (only_createAnalysis _ _ _ _ _ _) h)
    fun analysis s₁ h₁ => ?_
  refine Prog.Ends.bind_ok (ends_besideTasks (only_recordEvent
    (fun e _ => allowsSideEffects_besideTasks.audit e) _ _ _ _) h₁) fun _ s₂ h₂ => ?_
  refine Prog.Ends.bind_ok (ends_delay _) fun celeryTaskId s₃ h₃ => ?_
  rw [← h₃] at h₂
  refine Prog.Ends.bind_ok (ends_updateTask h₂) fun task' s₄ ⟨hid, h₄⟩ => ?_
  refine Prog.Ends.bind_ok (ends_besideTasks (only_updateAnalysis _ _ _) h₄)
    fun analysis' s₅ h₅ => ?_
  change Prog.Ends respond (pure _) s₅.commit _
  exact ends_onOk_pure (NamesTask.of_hasTask h₅ (congrArg toString hid))

/-- **An enqueue** names the task it works on. -/
theorem ends_enqueueAsync (user : User) (content provider : String) (o : Option UUID)
    (key : String) :
    (LogAnalyzerService.enqueueAsync env user content provider o (some key)).Ends respond s
      (Prog.onOk fun r s' => ∃ o', NamesTask s'.view r o' ∧
        (∀ t, key ≠ "" → IsLive (cutoffAt env s.world) s.view user.id key t →
          o' = t.organizationId) ∧
        ((∀ t, key ≠ "" → ¬ IsLive (cutoffAt env s.world) s.view user.id key t) → o' = o)) := by
  unfold LogAnalyzerService.enqueueAsync ArtifactRepository.getAnalysisByTaskId
  refine Prog.Ends.bind_ok (ends_createTask user o key) fun task s₁ h => ?_
  refine Prog.Ends.bind (ends_unchanged_selectOne _) (fun existing s₂ hr => ?_) fun _ _ _ _ hb =>
    nomatch hb
  obtain ⟨rfl, -⟩ := hr
  cases existing with
  | some existing =>
    exact ends_onOk_pure ⟨_, NamesTask.of_hasTask h.has rfl, h.found, h.new⟩
  | none =>
    refine (ends_publish user _ provider task h.has).mono fun r s' hr a ha => ?_
    exact ⟨_, hr a ha, h.found, h.new⟩

/-- The program of an enqueue names the task that its user works on. -/
theorem ends_serveEnqueue (s : State) (access : RawToken) (content provider : String)
    (o : Option UUID) (key : String) :
    (JobRequest.serve env (.enqueue access content provider o (some key))).Ends respond s.session
      (Prog.onOk fun b s' => ∀ r, b = .enqueued r →
        ∃ user, Authenticates env s.committed s.world.tick.time access user ∧
        ∃ o', NamesTask s'.committed r o' ∧
        (∀ t, key ≠ "" → IsLive (cutoffAt env s.world.tick) s.committed user.id key t →
          o' = t.organizationId) ∧
        ((∀ t, key ≠ "" → ¬ IsLive (cutoffAt env s.world.tick) s.committed user.id key t) →
          o' = o)) := by
  unfold JobRequest.serve getDb
  refine Prog.ends_unitOfWork.mpr ?_
  by_cases hauth : ∃ user, Authenticates env s.committed s.world.tick.time access user
  · obtain ⟨user, huser⟩ := hauth
    refine (ends_getCurrentUser huser).mpr ?_
    refine Prog.Ends.bind (ends_enqueueAsync user content provider o key) (fun r s' hr => ?_)
      fun e s' _ _ hb => nomatch hb
    refine ends_pure.mpr fun b hb r' hr' => ?_
    obtain rfl : r = r' := JobResult.enqueued.inj ((Except.ok.inj hb).trans hr')
    exact ⟨user, huser, hr r rfl⟩
  · exact ends_getCurrentUser_refused (fun user huser => hauth ⟨user, huser⟩) fun _ _ _ hb =>
      nomatch hb

/-- **The task of the response is in the requested organization** exactly if no live task of the
user with the key is in another. -/
theorem replay_scope_iff (env : Env) (s : State) (access : RawToken) (content provider : String)
    (o : Option UUID) (key : String) (r : LogAnalyzerService.AsyncTaskResponse)
    (h : (s.serve respond (JobRequest.serve env)
      (.enqueue access content provider o (some key))).1 = .ok (.enqueued r)) :
    NamesTask (s.serve respond (JobRequest.serve env)
      (.enqueue access content provider o (some key))).2.committed r o ↔
    ∀ user t, Authenticates env s.committed s.world.tick.time access user → key ≠ "" →
      IsLive (cutoffAt env s.world.tick) s.committed user.id key t → t.organizationId = o := by
  obtain ⟨user, huser, o', hnames, hfound, hnew⟩ :=
    ends_serveEnqueue s access content provider o key _ h r rfl
  constructor
  · intro hr user' t huser' hne hlive
    obtain rfl := huser.unique huser'
    rw [← hfound t hne hlive]
    exact hnames.unique hr
  · intro hscope
    have ho : o' = o := by
      by_cases hlive : ∃ t, key ≠ "" ∧ IsLive (cutoffAt env s.world.tick) s.committed user.id key t
      · obtain ⟨t, hne, ht⟩ := hlive
        exact (hfound t hne ht).trans (hscope user t huser hne ht)
      · exact hnew fun t hne ht => hlive ⟨t, hne, ht⟩
    exact ho ▸ hnames

/-- A user who owns an organization. -/
def ownerState : State :=
  { State.trial with
    nextId := 4
    committed := Table.empty.apply [.store (toRow slowUser),
      .store (toRow (⟨2, "a", "a", 1, 0, 0, none⟩ : Organization)),
      .store (toRow (⟨3, 2, 1, .owner, 0, 0⟩ : OrganizationMember))] }

/-- The user enqueues logs with the key `k`. -/
def enqueueLogs (o : Option UUID) : JobRequest :=
  .enqueue (.jwt ⟨some 1, 1, .access, 3600, none⟩) "a" "gemini" o (some "k")

/-- What the request returns in a state, and the state after it. -/
def enqueued (s : State) (o : Option UUID) : Except Exc JobResult × State :=
  s.serve respond (JobRequest.serve .trial) (enqueueLogs o)

/-- The request has succeeded. -/
def isEnqueued : Except Exc JobResult → Bool
  | .ok (.enqueued _) => true
  | _ => false

theorem exists_enqueued {x : Except Exc JobResult} (h : isEnqueued x = true) :
    ∃ r, x = .ok (.enqueued r) := by
  cases x with
  | error e => cases h
  | ok b =>
    cases b with
    | enqueued r => exact ⟨r, rfl⟩
    | task b => cases h
    | analyzed r => cases h

/-- The first use of a key. -/
theorem first_use_scope : ∃ r, (enqueued ownerState (some 2)).1 = .ok (.enqueued r) ∧
    NamesTask (enqueued ownerState (some 2)).2.committed r (some 2) := by
  obtain ⟨r, hr⟩ := exists_enqueued (x := (enqueued ownerState (some 2)).1) (by decide +kernel)
  refine ⟨r, hr, (replay_scope_iff .trial ownerState _ "a" "gemini" (some 2) "k" r hr).mpr ?_⟩
  intro user t _ _ ⟨hlatest, _⟩
  have hmem := (List.mem_filter.mp (List.mem_mergeSort.mp (List.mem_of_head? hlatest))).1
  exact nomatch (hmem : t ∈ [])

/-- A key that was used without an organization is used again in one. -/
theorem foreign_scope_replayed : ¬ ∀ (env : Env) (s : State) (access : RawToken)
    (content provider : String) (o : Option UUID) (key : String)
    (r : LogAnalyzerService.AsyncTaskResponse),
    (s.serve respond (JobRequest.serve env) (.enqueue access content provider o (some key))).1 =
      .ok (.enqueued r) →
    NamesTask (s.serve respond (JobRequest.serve env)
      (.enqueue access content provider o (some key))).2.committed r o := by
  intro h
  obtain ⟨r, hr⟩ := exists_enqueued (x := (enqueued (enqueued ownerState none).2 (some 2)).1)
    (by decide +kernel)
  obtain ⟨t, ht, -, ho⟩ := h .trial (enqueued ownerState none).2 _ _ _ (some 2) "k" r hr
  have hnone : ((rowsOf BackgroundTask
      (enqueued (enqueued ownerState none).2 (some 2)).2.committed).all fun t =>
        t.organizationId.isNone) = true := by decide +kernel
  rw [Option.isNone_iff_eq_none.mp (List.all_eq_true.mp hnone t ht)] at ho
  cases ho

end DevOps
