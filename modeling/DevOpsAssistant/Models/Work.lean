import DevOpsAssistant.Models.Organizations

/-!
# What users work on

The tables of conversations, analyses, artifacts, background tasks and onboarding flags.
-/

namespace DevOps

/-- A chat conversation. -/
structure Conversation where
  id : UUID
  userId : UUID
  organizationId : Option UUID
  title : String
  provider : String

/-- `MessageRole`. -/
inductive MessageRole where
  | user
  | assistant
deriving DecidableEq

/-- A message of a conversation. -/
structure Message where
  id : UUID
  conversationId : UUID
  role : MessageRole
  content : String
  createdAt : Time

/-- `AnalysisType`. -/
inductive AnalysisType where
  | log
  | review
deriving DecidableEq

/-- `AnalysisStatus`. -/
inductive AnalysisStatus where
  | pending
  | running
  | completed
  | failed
deriving DecidableEq

/-- A log analysis or a configuration review. -/
structure Analysis where
  id : UUID
  userId : UUID
  organizationId : Option UUID
  analysisType : AnalysisType
  inputPreview : String
  status : AnalysisStatus
  taskId : Option String
deriving DecidableEq

/-- `ArtifactType`. -/
inductive ArtifactType where
  | dockerfile
  | kubernetes
  | githubActions
  | gitlabCi
  | jenkins
  | terraform
  | shellCommand
  | incidentReport
  | runbook
  | pipeline
  | command
  | review
  | other
deriving DecidableEq

/-- A generated artifact. -/
structure GeneratedArtifact where
  id : UUID
  userId : UUID
  organizationId : Option UUID
  artifactType : ArtifactType
  name : String
  description : Option String
  content : String
  currentVersionId : Option UUID
  createdAt : Time
  updatedAt : Time
  deletedAt : Option Time
  archivedAt : Option Time
deriving DecidableEq

/-- A version of an artifact's content. -/
structure ArtifactVersion where
  id : UUID
  artifactId : UUID
  versionNumber : ℕ
  content : String
  contentHash : String
  createdBy : UUID
  createdAt : Time
deriving DecidableEq

/-- An artifact a user has marked. -/
structure ArtifactFavorite where
  id : UUID
  userId : UUID
  artifactId : UUID
  createdAt : Time

/-- A tag of a user, in an organization or (`organizationId = none`) of the user alone. -/
structure ArtifactTag where
  id : UUID
  organizationId : Option UUID
  userId : UUID
  name : String
  color : Option String
  createdAt : Time

/-- A tag that is attached to an artifact. -/
structure ArtifactTagAssociation where
  id : UUID
  artifactId : UUID
  tagId : UUID
  createdAt : Time

/-- `PolicyFinding`; its source is always the organization's policy. -/
structure PolicyFinding where
  ruleKey : String
  severity : PolicySeverity
  title : String
  description : String
  recommendation : String
  policyPackId : UUID
  line : Option ℕ
deriving DecidableEq

/-- `TaskStatus`. -/
inductive TaskStatus where
  | queued
  | running
  | succeeded
  | failed
  | cancelled
deriving DecidableEq

/-- A task a worker runs. -/
structure BackgroundTask where
  id : UUID
  celeryTaskId : Option String
  userId : UUID
  organizationId : Option UUID
  taskType : String
  status : TaskStatus
  progress : ℕ
  errorCode : Option String
  errorMessage : Option String
  idempotencyKey : Option String
  createdAt : Time
  startedAt : Option Time
  completedAt : Option Time
  expiresAt : Option Time
  cancelledAt : Option Time
deriving DecidableEq

/-- The onboarding flags of a user; the user's id is the primary key. -/
structure UserOnboarding where
  userId : UUID
  firstChatCompleted : Bool
  firstArtifactCreated : Bool
  organizationCreated : Bool
  inviteTeamCompleted : Bool
  profileCompleted : Bool

end DevOps
