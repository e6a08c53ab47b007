import Mathlib.Data.List.Nodup

/-!
# Accounts and their tokens

The tables of user accounts: `User`, `RefreshToken`, the three kinds of mailed tokens and
`AuditEvent`. Identifiers are numbers, times are microseconds.
-/

namespace DevOps

/-- A `uuid4`, drawn from the numbers no one has drawn before. -/
abbrev UUID := ℕ

/-- A moment, in microseconds. -/
abbrev Time := ℕ

/-- `UserRole`. -/
inductive UserRole where
  | user
  | admin
deriving DecidableEq

/-- The row of an account. -/
structure User where
  id : UUID
  email : String
  username : String
  hashedPassword : String
  role : UserRole
  isActive : Bool
  emailVerifiedAt : Option Time
  displayName : Option String := none
  timezone : Option String := none
  jobTitle : Option String := none
  avatarUrl : Option String := none

/-- One refresh token of a session; `familyId` is the session it continues. -/
structure RefreshToken where
  id : UUID
  userId : UUID
  familyId : UUID
  tokenHash : String
  jti : UUID
  issuedAt : Time
  expiresAt : Time
  usedAt : Option Time
  revokedAt : Option Time
  replacedByTokenId : Option UUID
  revokedReason : Option String

/-- A mailed password-reset token. -/
structure PasswordResetToken where
  id : UUID
  userId : UUID
  tokenHash : String
  expiresAt : Time
  usedAt : Option Time
  createdAt : Time

/-- A mailed email-change token, for the address `newEmail`. -/
structure EmailChangeToken where
  id : UUID
  userId : UUID
  tokenHash : String
  newEmail : String
  expiresAt : Time
  usedAt : Option Time
  createdAt : Time

/-- A mailed token that verifies the address of an account. -/
structure EmailVerificationToken where
  id : UUID
  userId : UUID
  tokenHash : String
  expiresAt : Time
  usedAt : Option Time
  createdAt : Time

/-- A line of the audit trail. -/
structure AuditEvent where
  id : UUID
  actorUserId : Option UUID
  organizationId : Option UUID
  action : String
  resourceType : String
  resourceId : Option UUID
  createdAt : Time

end DevOps
