import DevOpsAssistant.Repositories.Accounts

/-!
# The audit trail

`AuditService.recordEvent` adds a line to the audit trail; a failure to write it is swallowed, or
raised by `recordEventOrFail`.
-/

namespace DevOps

namespace AuditService

/-- `record_event`, with the default `fail_on_error`. -/
def recordEvent (action : String) (actorUserId organizationId : Option UUID)
    (resourceType : String) (resourceId : Option UUID) : Db Unit := do
  let id ← uuid4
  let t ← now
  (insertOf (fun _ : AuditEvent => false)
    ⟨id, actorUserId, organizationId, action, resourceType, resourceId, t⟩).tryCatch
      fun _ => return ()

/-- `record_event`, with `fail_on_error=True`. -/
def recordEventOrFail (action : String) (actorUserId organizationId : Option UUID)
    (resourceType : String) (resourceId : Option UUID) : Db Unit := do
  let id ← uuid4
  let t ← now
  insertOf (fun _ : AuditEvent => false)
    ⟨id, actorUserId, organizationId, action, resourceType, resourceId, t⟩

end AuditService

end DevOps
