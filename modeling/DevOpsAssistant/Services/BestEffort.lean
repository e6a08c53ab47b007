import DevOpsAssistant.Specs.Artifacts
import DevOpsAssistant.Txn.Flow

/-!
# Best-effort writes

Lines of the audit trail and onboarding flags are written on a best-effort basis: what their flush raises
is swallowed. It is the session that does not forget.

* `DbFlow`, `refusals`, `getDbFlow`: the programs of the services, with the exceptions of their statements.
* `BestEffortWrite`: the writes, and their programs; `follows_flow`.
* `ArtifactService.createFlow`: a request with both of them; **`follows_create`**.
* **`best_effort_fatal`**: a request one of whose best-effort writes fails, raises and commits nothing.
-/

namespace DevOps

open Txn

/-- The programs of the services, with the exceptions of their statements. -/
abbrev DbFlow := Flow Row Answer Exc

/-- The exceptions SQLAlchemy raises itself. -/
def refusals : Refusals Exc := ⟨pendingRollback, .integrityError⟩

/-- `get_db`. -/
def getDbFlow {α : Type} (p : DbFlow α) : DbFlow α := Flow.unitOfWork p

/-- A best-effort write. -/
inductive BestEffortWrite where
  | recordEvent (action : String) (actorUserId organizationId : Option UUID) (resourceType : String)
    (resourceId : Option UUID)
  | markFlag (userId : UUID) (get : UserOnboarding → Bool) (set : UserOnboarding → UserOnboarding)
    (hset : ∀ o, Entity.id (set o) = Entity.id o)

namespace BestEffortWrite

/-- The statements of a best-effort write. -/
def body : BestEffortWrite → Db Unit
  | recordEvent action actorUserId organizationId resourceType resourceId =>
    AuditService.recordEventOrFail action actorUserId organizationId resourceType resourceId
  | markFlag userId get set hset => OnboardingService.markFlag userId get set hset

/-- `record_event`, with the default `fail_on_error`, and `mark_flag` under its handler. -/
def flow (w : BestEffortWrite) : DbFlow Unit := Flow.bestEffort (.ofProg w.body)

/-- The same write in a model without failures. -/
def plain : BestEffortWrite → Db Unit
  | recordEvent action actorUserId organizationId resourceType resourceId =>
    AuditService.recordEvent action actorUserId organizationId resourceType resourceId
  | markFlag userId get set hset => OnboardingService.tryMarkFlag userId get set hset

/-- Every statement that does not end the transaction. -/
def withinTransaction : Rules := ⟨fun _ => True, fun _ _ => True, fun _ => True, False⟩

/-- No best-effort write ends its transaction. -/
theorem keeps_body (w : BestEffortWrite) {commits : Prop} :
    (Flow.ofProg w.body : DbFlow Unit).Keeps commits := by
  have hW : AllowsSideEffects withinTransaction := ⟨fun _ => trivial, fun _ => trivial, fun _ _ => trivial⟩
  cases w with
  | recordEvent action actorUserId organizationId resourceType resourceId =>
    exact Flow.keeps_ofProg (only_recordEventOrFail hW _ _ _ _ _) False.elim id
  | markFlag userId get set hset => exact Flow.keeps_ofProg (only_markFlag hW _ _ _ _) False.elim id

/-- The handler of `tryMarkFlag`. -/
def onFlagError : Exc → Db Unit
  | .integrityError => throw (.other "PendingRollbackError")
  | _ => pure ()

open Flow in
/-- A best-effort write follows the one without failures. -/
theorem follows_flow (w : BestEffortWrite) : Follows w.flow w.plain := by
  cases w with
  | recordEvent action actorUserId organizationId resourceType resourceId =>
    exact (follows_ofProg (AuditService.recordEventOrFail action actorUserId organizationId resourceType
      resourceId)).tryCatch fun _ => follows_ofProg (pure () : Db Unit)
  | markFlag userId get set hset =>
    have hset' : ∀ onboarding : UserOnboarding, Follows
        ((ofProg (if get onboarding then pure () else do
          let _ ← updateById userId set hset : Db Unit) : DbFlow Unit).tryCatch fun _ => ret ())
        (Prog.tryCatch (if get onboarding then pure () else do
          let _ ← updateById userId set hset : Db Unit) onFlagError) := by
      intro onboarding
      by_cases hget : get onboarding = true
      · rw [if_pos hget]
        exact .ret ()
      · rw [if_neg hget]
        refine .modify fun rs => ?_
        simp only [Prog.bind]
        rcases (rs.filterMap ofRow : List UserOnboarding) with _ | ⟨_, _ | _⟩ <;> exact .ret ()
    refine .select fun rs => ?_
    simp only [Prog.bind]
    rcases (rs.filterMap ofRow : List UserOnboarding) with _ | ⟨onboarding, _ | _⟩
    · exact .insert (hset' ⟨userId, false, false, false, false, false⟩)
    · exact hset' onboarding
    · exact .ret ()

end BestEffortWrite

/-! ## A request -/

namespace ArtifactService

variable (env : Env)

/-- The writes of `create` itself. -/
def createOwn (user : User) (payload : ArtifactCreateRequest) :
    Db (GeneratedArtifact × ArtifactVersion) := do
  validateContentSize env payload.content
  validateOrgCreate user payload.organizationId
  let artifact ← ArtifactRepository.createArtifact user.id payload.organizationId
    payload.artifactType payload.name payload.description payload.content
  let version ← ArtifactVersionRepository.createVersion artifact.id 1 payload.content
    (computeContentHash env payload.content) user.id
  let artifact ← ArtifactRepository.updateArtifact artifact
    { content := some payload.content, currentVersionId := some version.id }
  return (artifact, version)

/-- The line about a new artifact. -/
def createdEvent (user : User) (artifact : GeneratedArtifact) : BestEffortWrite :=
  .recordEvent "artifact.created" user.id artifact.organizationId "artifact" artifact.id

theorem id_firstArtifact (o : UserOnboarding) :
    Entity.id { o with firstArtifactCreated := true } = Entity.id o := rfl

/-- The flag of the first artifact. -/
def firstArtifactFlag (user : User) : BestEffortWrite :=
  .markFlag user.id (·.firstArtifactCreated) (fun o => { o with firstArtifactCreated := true })
    id_firstArtifact

/-- What `create` does after its first best-effort write. -/
def createRest (user : User) (artifact : GeneratedArtifact) (version : ArtifactVersion) :
    DbFlow ArtifactDetailResponse := do
  (firstArtifactFlag user).flow
  Flow.ofProg (toDetail artifact [version])

/-- `create`, with the exceptions of its statements. -/
def createFlow (user : User) (payload : ArtifactCreateRequest) : DbFlow ArtifactDetailResponse := do
  let (artifact, version) ← Flow.ofProg (createOwn env user payload)
  (createdEvent user artifact).flow
  createRest user artifact version

/-- **The request follows the one without failures.** -/
theorem follows_create (user : User) (payload : ArtifactCreateRequest) :
    (createFlow env user payload).Follows (create env user payload) := by
  have hcreate : create env user payload = createOwn env user payload >>= fun (artifact, version) =>
      (createdEvent user artifact).plain >>= fun _ => (firstArtifactFlag user).plain >>= fun _ =>
        toDetail artifact [version] := by
    simp only [create, createOwn, bind_assoc, pure_bind]
    rfl
  rw [hcreate]
  exact (Flow.follows_ofProg _).bind fun (artifact, version) =>
    (BestEffortWrite.follows_flow _).bind fun _ => (BestEffortWrite.follows_flow _).bind fun _ =>
      Flow.follows_ofProg _

end ArtifactService

/-! ## Failures -/

/-- **A request one of whose best-effort writes fails** raises, and commits nothing more than what it had
committed before. The request has come to the write `w a` with its own writes done, its flush fails, and
`rest` follows, which does not roll back. -/
theorem best_effort_fatal {α β : Type} {fails : ℕ → Option Exc} {s s₁ : FlushSession Row World}
    {own : DbFlow α} (w : α → BestEffortWrite) (rest : α → DbFlow β) {a : α}
    (hown : own.exec respond refusals fails s = (.ok a, s₁))
    (hfail : ((w a).flow.exec respond refusals fails s₁).2.failed = true)
    (hrest : (rest a).Keeps True) :
    let request := getDbFlow (own >>= fun a => (w a).flow >>= fun _ => rest a)
    (∃ e, (request.exec respond refusals fails s).1 = .error e) ∧
      (request.exec respond refusals fails s).2.committed = s₁.committed := by
  refine Flow.not_ok_of_bestEffort hown (w a).keeps_body ?_ hrest
  rw [BestEffortWrite.flow, Flow.bestEffort, Flow.exec_tryCatch] at hfail
  revert hfail
  rcases (Flow.ofProg (w a).body : DbFlow Unit).exec respond refusals fails s₁ with ⟨_ | _, _⟩ <;>
    exact id

/-! ## An artifact is created with a header that is too long -/

/-- The account of the author. -/
def author : User :=
  { id := 1, email := "a", username := "a", hashedPassword := "a", role := .user, isActive := true,
    emailVerifiedAt := none }

/-- A session of the author, of a new deployment. -/
def authorSession : FlushSession Row World :=
  .start { State.trial.session with
    nextId := 2, committed := Table.empty.apply [.store (toRow author)] }

/-- A request for an artifact. -/
def noteRequest : ArtifactCreateRequest := ⟨"n", none, .other, "x", none⟩

/-- The line of the audit trail is refused by the database: it is the fourth flush, after those of the
artifact, of its version and of the reference to it. -/
def refusesEvent (n : ℕ) : Option Exc := if n = 3 then some (.other "DataError") else none

theorem best_effort_fatal_note :
    (∃ e, ((getDbFlow (ArtifactService.createFlow .trial author noteRequest)).exec respond refusals
      refusesEvent authorSession).1 = .error e) ∧
    ((getDbFlow (ArtifactService.createFlow .trial author noteRequest)).exec respond refusals
      refusesEvent authorSession).2.committed = authorSession.committed := by
  have hown : (Flow.ofProg (ArtifactService.createOwn .trial author noteRequest)).exec respond refusals
      refusesEvent authorSession = (.ok (_, _), _) := Prod.ext rfl rfl
  have hrest : ∀ a : GeneratedArtifact × ArtifactVersion,
      (ArtifactService.createRest author a.1 a.2).Keeps True := fun a =>
    (BestEffortWrite.keeps_body _).bestEffort.bind fun _ =>
      Flow.keeps_ofProg (only_toDetail (W := BestEffortWrite.withinTransaction) a.1 [a.2]) False.elim id
  have hfatal := best_effort_fatal (fun a => ArtifactService.createdEvent author a.1)
    (fun a => ArtifactService.createRest author a.1 a.2) hown rfl (hrest _)
  exact hfatal

/-- **A best-effort write does break the operation it is part of**: the own writes of this request
succeed, and the request does not. -/
theorem best_effort_not_harmless : ¬ ∀ (env : Env) (user : User) (payload : ArtifactCreateRequest)
    (s : FlushSession Row World) (fails : ℕ → Option Exc),
    (∃ a s₁, (Flow.ofProg (ArtifactService.createOwn env user payload)).exec respond refusals fails s =
      (.ok a, s₁)) →
    ∃ b, ((getDbFlow (ArtifactService.createFlow env user payload)).exec respond refusals fails s).1 =
      .ok b := by
  intro hall
  obtain ⟨b, hb⟩ := hall .trial author noteRequest authorSession refusesEvent
    ⟨_, _, Prod.ext rfl rfl⟩
  have he : ((getDbFlow (ArtifactService.createFlow .trial author noteRequest)).exec respond refusals
      refusesEvent authorSession).1 = .error pendingRollback := rfl
  rw [hb] at he
  cases he

end DevOps
