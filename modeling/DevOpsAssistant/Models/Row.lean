import DevOpsAssistant.Models.Organizations
import DevOpsAssistant.Models.Work
import DevOpsAssistant.Txn.Soundness

/-!
# The rows of the database

* `Row`: a row of any table; its primary key is the table and the id.
* `Entity`: the type of the rows of one table.
* `rowsOf`, `mem_rowsOf`: the rows of one table among all rows.
-/

namespace DevOps

open Txn

/-- The tables. -/
inductive TableName where
  | users
  | refreshTokens
  | passwordResetTokens
  | emailChangeTokens
  | emailVerificationTokens
  | auditEvents
  | organizations
  | organizationMembers
  | organizationInvitations
  | organizationQuotas
  | usageEvents
  | providerConfigs
  | providerRoutingPolicies
  | policyPacks
  | policyRules
  | conversations
  | messages
  | analyses
  | generatedArtifacts
  | artifactVersions
  | artifactFavorites
  | artifactTags
  | artifactTagAssociations
  | backgroundTasks
  | userOnboarding
deriving DecidableEq

/-- A row of one of the tables. -/
inductive Row where
  | user (u : User)
  | refreshToken (t : RefreshToken)
  | passwordResetToken (t : PasswordResetToken)
  | emailChangeToken (t : EmailChangeToken)
  | emailVerificationToken (t : EmailVerificationToken)
  | auditEvent (e : AuditEvent)
  | organization (o : Organization)
  | organizationMember (m : OrganizationMember)
  | organizationInvitation (i : OrganizationInvitation)
  | organizationQuota (q : OrganizationQuota)
  | usageEvent (e : UsageEvent)
  | providerConfig (c : ProviderConfig)
  | providerRoutingPolicy (p : ProviderRoutingPolicy)
  | policyPack (p : PolicyPack)
  | policyRule (r : PolicyRule)
  | conversation (c : Conversation)
  | message (m : Message)
  | analysis (a : Analysis)
  | generatedArtifact (a : GeneratedArtifact)
  | artifactVersion (v : ArtifactVersion)
  | artifactFavorite (f : ArtifactFavorite)
  | artifactTag (t : ArtifactTag)
  | artifactTagAssociation (a : ArtifactTagAssociation)
  | backgroundTask (t : BackgroundTask)
  | userOnboarding (o : UserOnboarding)

namespace Row

/-- The table of a row. -/
def table : Row → TableName
  | user _ => .users
  | refreshToken _ => .refreshTokens
  | passwordResetToken _ => .passwordResetTokens
  | emailChangeToken _ => .emailChangeTokens
  | emailVerificationToken _ => .emailVerificationTokens
  | auditEvent _ => .auditEvents
  | organization _ => .organizations
  | organizationMember _ => .organizationMembers
  | organizationInvitation _ => .organizationInvitations
  | organizationQuota _ => .organizationQuotas
  | usageEvent _ => .usageEvents
  | providerConfig _ => .providerConfigs
  | providerRoutingPolicy _ => .providerRoutingPolicies
  | policyPack _ => .policyPacks
  | policyRule _ => .policyRules
  | conversation _ => .conversations
  | message _ => .messages
  | analysis _ => .analyses
  | generatedArtifact _ => .generatedArtifacts
  | artifactVersion _ => .artifactVersions
  | artifactFavorite _ => .artifactFavorites
  | artifactTag _ => .artifactTags
  | artifactTagAssociation _ => .artifactTagAssociations
  | backgroundTask _ => .backgroundTasks
  | userOnboarding _ => .userOnboarding

/-- The id of a row in its table. -/
def id : Row → UUID
  | user u => u.id
  | refreshToken t => t.id
  | passwordResetToken t => t.id
  | emailChangeToken t => t.id
  | emailVerificationToken t => t.id
  | auditEvent e => e.id
  | organization o => o.id
  | organizationMember m => m.id
  | organizationInvitation i => i.id
  | organizationQuota q => q.id
  | usageEvent e => e.id
  | providerConfig c => c.id
  | providerRoutingPolicy p => p.id
  | policyPack p => p.id
  | policyRule r => r.id
  | conversation c => c.id
  | message m => m.id
  | analysis a => a.id
  | generatedArtifact a => a.id
  | artifactVersion v => v.id
  | artifactFavorite f => f.id
  | artifactTag t => t.id
  | artifactTagAssociation a => a.id
  | backgroundTask t => t.id
  | userOnboarding o => o.userId

end Row

/-- A primary key: the table and the id in it. -/
structure Key where
  table : TableName
  id : UUID
deriving DecidableEq

instance : Keyed Row Key where
  key r := ⟨r.table, r.id⟩

@[simp] theorem key_row (r : Row) : key r = ⟨r.table, r.id⟩ := rfl

/-- The database. -/
abbrev Database := Table Row

/-- The rows of one table. -/
class Entity (T : Type) where
  table : TableName
  toRow : T → Row
  ofRow : Row → Option T
  ofRow_eq_some : ∀ r t, ofRow r = some t ↔ r = toRow t
  table_toRow : ∀ t, (toRow t).table = table

export Entity (toRow ofRow)

namespace Entity

variable {T : Type} [Entity T]

/-- The id of a row of the table. -/
def id (t : T) : UUID := (toRow t).id

@[simp] theorem ofRow_toRow (t : T) : (ofRow (toRow t) : Option T) = some t :=
  (ofRow_eq_some _ _).mpr rfl

theorem toRow_injective {s t : T} (h : toRow s = toRow t) : s = t := by
  have : (some s : Option T) = some t := by rw [← ofRow_toRow s, h, ofRow_toRow]
  exact Option.some.inj this

theorem key_toRow_eq {s t : T} (h : id s = id t) : key (toRow s) = key (toRow t) := by
  change (⟨(toRow s).table, id s⟩ : Key) = ⟨(toRow t).table, id t⟩
  rw [table_toRow, table_toRow, h]

end Entity

instance : Entity User where
  table := .users
  toRow := .user
  ofRow | .user t => some t | _ => none
  ofRow_eq_some r _ := by cases r <;> simp
  table_toRow _ := rfl

instance : Entity RefreshToken where
  table := .refreshTokens
  toRow := .refreshToken
  ofRow | .refreshToken t => some t | _ => none
  ofRow_eq_some r _ := by cases r <;> simp
  table_toRow _ := rfl

instance : Entity PasswordResetToken where
  table := .passwordResetTokens
  toRow := .passwordResetToken
  ofRow | .passwordResetToken t => some t | _ => none
  ofRow_eq_some r _ := by cases r <;> simp
  table_toRow _ := rfl

instance : Entity EmailChangeToken where
  table := .emailChangeTokens
  toRow := .emailChangeToken
  ofRow | .emailChangeToken t => some t | _ => none
  ofRow_eq_some r _ := by cases r <;> simp
  table_toRow _ := rfl

instance : Entity EmailVerificationToken where
  table := .emailVerificationTokens
  toRow := .emailVerificationToken
  ofRow | .emailVerificationToken t => some t | _ => none
  ofRow_eq_some r _ := by cases r <;> simp
  table_toRow _ := rfl

instance : Entity AuditEvent where
  table := .auditEvents
  toRow := .auditEvent
  ofRow | .auditEvent t => some t | _ => none
  ofRow_eq_some r _ := by cases r <;> simp
  table_toRow _ := rfl

instance : Entity Organization where
  table := .organizations
  toRow := .organization
  ofRow | .organization t => some t | _ => none
  ofRow_eq_some r _ := by cases r <;> simp
  table_toRow _ := rfl

instance : Entity OrganizationMember where
  table := .organizationMembers
  toRow := .organizationMember
  ofRow | .organizationMember t => some t | _ => none
  ofRow_eq_some r _ := by cases r <;> simp
  table_toRow _ := rfl

instance : Entity OrganizationInvitation where
  table := .organizationInvitations
  toRow := .organizationInvitation
  ofRow | .organizationInvitation t => some t | _ => none
  ofRow_eq_some r _ := by cases r <;> simp
  table_toRow _ := rfl

instance : Entity OrganizationQuota where
  table := .organizationQuotas
  toRow := .organizationQuota
  ofRow | .organizationQuota t => some t | _ => none
  ofRow_eq_some r _ := by cases r <;> simp
  table_toRow _ := rfl

instance : Entity UsageEvent where
  table := .usageEvents
  toRow := .usageEvent
  ofRow | .usageEvent t => some t | _ => none
  ofRow_eq_some r _ := by cases r <;> simp
  table_toRow _ := rfl

instance : Entity ProviderConfig where
  table := .providerConfigs
  toRow := .providerConfig
  ofRow | .providerConfig t => some t | _ => none
  ofRow_eq_some r _ := by cases r <;> simp
  table_toRow _ := rfl

instance : Entity ProviderRoutingPolicy where
  table := .providerRoutingPolicies
  toRow := .providerRoutingPolicy
  ofRow | .providerRoutingPolicy t => some t | _ => none
  ofRow_eq_some r _ := by cases r <;> simp
  table_toRow _ := rfl

instance : Entity PolicyPack where
  table := .policyPacks
  toRow := .policyPack
  ofRow | .policyPack t => some t | _ => none
  ofRow_eq_some r _ := by cases r <;> simp
  table_toRow _ := rfl

instance : Entity PolicyRule where
  table := .policyRules
  toRow := .policyRule
  ofRow | .policyRule t => some t | _ => none
  ofRow_eq_some r _ := by cases r <;> simp
  table_toRow _ := rfl

instance : Entity Conversation where
  table := .conversations
  toRow := .conversation
  ofRow | .conversation t => some t | _ => none
  ofRow_eq_some r _ := by cases r <;> simp
  table_toRow _ := rfl

instance : Entity Message where
  table := .messages
  toRow := .message
  ofRow | .message t => some t | _ => none
  ofRow_eq_some r _ := by cases r <;> simp
  table_toRow _ := rfl

instance : Entity Analysis where
  table := .analyses
  toRow := .analysis
  ofRow | .analysis t => some t | _ => none
  ofRow_eq_some r _ := by cases r <;> simp
  table_toRow _ := rfl

instance : Entity GeneratedArtifact where
  table := .generatedArtifacts
  toRow := .generatedArtifact
  ofRow | .generatedArtifact t => some t | _ => none
  ofRow_eq_some r _ := by cases r <;> simp
  table_toRow _ := rfl

instance : Entity ArtifactVersion where
  table := .artifactVersions
  toRow := .artifactVersion
  ofRow | .artifactVersion t => some t | _ => none
  ofRow_eq_some r _ := by cases r <;> simp
  table_toRow _ := rfl

instance : Entity ArtifactFavorite where
  table := .artifactFavorites
  toRow := .artifactFavorite
  ofRow | .artifactFavorite t => some t | _ => none
  ofRow_eq_some r _ := by cases r <;> simp
  table_toRow _ := rfl

instance : Entity ArtifactTag where
  table := .artifactTags
  toRow := .artifactTag
  ofRow | .artifactTag t => some t | _ => none
  ofRow_eq_some r _ := by cases r <;> simp
  table_toRow _ := rfl

instance : Entity ArtifactTagAssociation where
  table := .artifactTagAssociations
  toRow := .artifactTagAssociation
  ofRow | .artifactTagAssociation t => some t | _ => none
  ofRow_eq_some r _ := by cases r <;> simp
  table_toRow _ := rfl

instance : Entity BackgroundTask where
  table := .backgroundTasks
  toRow := .backgroundTask
  ofRow | .backgroundTask t => some t | _ => none
  ofRow_eq_some r _ := by cases r <;> simp
  table_toRow _ := rfl

instance : Entity UserOnboarding where
  table := .userOnboarding
  toRow := .userOnboarding
  ofRow | .userOnboarding t => some t | _ => none
  ofRow_eq_some r _ := by cases r <;> simp
  table_toRow _ := rfl

/-- The rows of one table, in insertion order. -/
def rowsOf (T : Type) [Entity T] (db : Database) : List T := db.rows.filterMap ofRow

theorem mem_rowsOf {T : Type} [Entity T] {db : Database} {t : T} :
    t ∈ rowsOf T db ↔ toRow t ∈ db.rows := by
  rw [rowsOf, List.mem_filterMap]
  constructor
  · rintro ⟨r, hr, ht⟩
    rwa [← (Entity.ofRow_eq_some r t).mp ht]
  · exact fun h => ⟨toRow t, h, Entity.ofRow_toRow t⟩

theorem filterMap_filter_ofRow {T : Type} [Entity T] (p : T → Bool) (rows : List Row) :
    (rows.filter fun r => (ofRow r).any p).filterMap ofRow
      = ((rows.filterMap ofRow : List T).filter p) := by
  induction rows with
  | nil => rfl
  | cons r rows ih =>
    cases h : (ofRow r : Option T) with
    | none => simp [h, ih]
    | some t =>
      by_cases hp : p t <;> simp [h, hp, ih]

end DevOps
