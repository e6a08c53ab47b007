import DevOpsAssistant.Repositories.Artifacts

/-!
# Policy packs and their rules

`PolicyRepository`: packs and rules are created, changed and deleted. Every change of a pack that is
asked to bump its version adds one to the version the session has loaded.
-/

namespace DevOps

open Txn

/-- The pack `id` of the organization `o`, if it is not deleted. -/
def packOf (o id : UUID) (p : PolicyPack) : Bool :=
  p.id = id && p.organizationId = o && p.deletedAt.isNone

theorem packOf_eq {o id : UUID} {p : PolicyPack} :
    packOf o id p = true ↔ p.id = id ∧ p.organizationId = o ∧ p.deletedAt = none := by
  simp [packOf, and_assoc]

/-- The rule `id` of the pack `packId`. -/
def ruleOf (packId id : UUID) (r : PolicyRule) : Bool := r.id = id && r.policyPackId = packId

namespace PolicyRepository

def createPack (organizationId : UUID) (name : String) (description : Option String)
    (isActive : Bool) (createdBy : UUID) : Db PolicyPack := do
  let id ← uuid4
  let createdAt ← now
  let updatedAt ← now
  let pack : PolicyPack :=
    ⟨id, organizationId, name, description, isActive, 1, createdBy, createdAt, updatedAt, none⟩
  insertOf (fun _ : PolicyPack => false) pack
  return pack

/-- The pack with its rules. -/
def getPack (organizationId policyPackId : UUID) : Db (Option (PolicyPack × List PolicyRule)) := do
  match ← scalarOneOrNone (← selectOf (packOf organizationId policyPackId)) with
  | none => return none
  | some pack =>
    let rules ← selectOf fun r : PolicyRule => r.policyPackId = pack.id
    return some (pack, rules)

/-- The arguments of `update_pack`; the attributes that are `none` stay. -/
structure PackChanges where
  name : Option String := none
  description : Option String := none
  isActive : Option Bool := none
  bumpVersion : Bool := false

/-- The row after the flush of the changes to an object that was loaded as `loaded`. -/
def PackChanges.flush (c : PackChanges) (loaded : PolicyPack) (updatedAt : Time) (row : PolicyPack) :
    PolicyPack :=
  { row with
    name := flushed loaded.name (c.name.getD loaded.name) row.name
    description := flushed loaded.description (c.description <|> loaded.description) row.description
    isActive := flushed loaded.isActive (c.isActive.getD loaded.isActive) row.isActive
    version :=
      flushed loaded.version (if c.bumpVersion then loaded.version + 1 else loaded.version)
        row.version
    updatedAt }

/-- The version a bump stores is one more than the version that was loaded. -/
theorem PackChanges.version_flush {c : PackChanges} (h : c.bumpVersion = true) (loaded : PolicyPack)
    (updatedAt : Time) (row : PolicyPack) :
    (c.flush loaded updatedAt row).version = loaded.version + 1 := by
  unfold PackChanges.flush flushed
  simp [h]

def updatePack (pack : PolicyPack) (changes : PackChanges) : Db PolicyPack := do
  let updatedAt ← now
  updateById pack.id (changes.flush pack updatedAt) fun _ => rfl

/-- The arguments of `create_rule`. -/
structure RuleFields where
  ruleKey : String
  name : String
  description : String
  resourceType : String
  severity : PolicySeverity
  configurationJson : RuleConfiguration
  remediation : Option String
  isEnabled : Bool

def createRule (policyPackId : UUID) (fields : RuleFields) : Db PolicyRule := do
  let id ← uuid4
  let createdAt ← now
  let updatedAt ← now
  let rule : PolicyRule :=
    ⟨id, policyPackId, fields.ruleKey, fields.name, fields.description, fields.resourceType,
      fields.severity, fields.configurationJson, fields.remediation, fields.isEnabled, createdAt,
      updatedAt⟩
  insertOf (fun _ : PolicyRule => false) rule
  return rule

/-- A rule that the session holds keeps its attributes. -/
def getRule (policyPackId ruleId : UUID) (held : List PolicyRule) : Db (Option PolicyRule) := do
  let rule ← scalarOneOrNone (← selectOf (ruleOf policyPackId ruleId))
  return rule.map (identityMapped held)

/-- The arguments of `update_rule`; the attributes that are `none` stay. -/
structure RuleChanges where
  name : Option String
  description : Option String
  severity : Option PolicySeverity
  configurationJson : Option RuleConfiguration
  remediation : Option String
  isEnabled : Option Bool

/-- The row after the flush of the changes to an object that was loaded as `loaded`. -/
def RuleChanges.flush (c : RuleChanges) (loaded : PolicyRule) (updatedAt : Time) (row : PolicyRule) :
    PolicyRule :=
  { row with
    name := flushed loaded.name (c.name.getD loaded.name) row.name
    description := flushed loaded.description (c.description.getD loaded.description) row.description
    severity := flushed loaded.severity (c.severity.getD loaded.severity) row.severity
    configurationJson :=
      flushed loaded.configurationJson (c.configurationJson.getD loaded.configurationJson)
        row.configurationJson
    remediation := flushed loaded.remediation (c.remediation <|> loaded.remediation) row.remediation
    isEnabled := flushed loaded.isEnabled (c.isEnabled.getD loaded.isEnabled) row.isEnabled
    updatedAt }

def updateRule (rule : PolicyRule) (changes : RuleChanges) : Db PolicyRule := do
  let updatedAt ← now
  updateById rule.id (changes.flush rule updatedAt) fun _ => rfl

/-- A `DELETE` that finds no row only warns. -/
def deleteRule (rule : PolicyRule) : Db Unit := do
  let _ ← deleteOf fun r : PolicyRule => r.id = rule.id
  return ()

end PolicyRepository

end DevOps
