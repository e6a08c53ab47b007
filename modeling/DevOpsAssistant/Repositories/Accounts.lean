import DevOpsAssistant.Core.Security

/-!
# Repositories of accounts and tokens

* `updateById`, `updateUnique`: the `UPDATE` a flush sends for a changed row.
* `UserRepository`, `RefreshTokenRepository`.
* `MailedToken`: what the three tables of mailed tokens share; `PasswordResetTokenRepository`,
  `EmailChangeTokenRepository`, `EmailVerificationTokenRepository`.
-/

namespace DevOps

open Txn

variable (env : Env)

/-! ## Flushes -/

section Flush

variable {T : Type} [Entity T]

/-- The flush of a changed row: an `UPDATE` of its changed columns by primary key. -/
def updateById (id : UUID) (f : T → T) (hf : ∀ t, Entity.id (f t) = Entity.id t) : Db T := do
  let rs ← updateOf (fun t => Entity.id t = id) f hf
  match rs with
  | [t] => return f t
  | _ => throw (.other "StaleDataError")

/-- The flush of a changed row whose changed columns are unique; `clash` are the rows with the
new values. -/
def updateUnique (clash : T → Bool) (id : UUID) (f : T → T)
    (hf : ∀ t, Entity.id (f t) = Entity.id t) : Db T := do
  let others ← selectOf fun t => Entity.id t ≠ id && clash t
  if others.isEmpty then updateById id f hf else throw .integrityError

/-- A statement for each row of a list. -/
def forEach (f : T → Db Unit) : List T → Db Unit
  | [] => pure ()
  | t :: ts => do
    f t
    forEach f ts

end Flush

/-! ## Users -/

namespace UserRepository

def getById (userId : UUID) : Db (Option User) := do
  scalarOneOrNone (← selectOf fun u : User => u.id = userId)

def getByEmail (email : String) : Db (Option User) := do
  scalarOneOrNone (← selectOf fun u : User => u.email = email)

def getByUsername (username : String) : Db (Option User) := do
  scalarOneOrNone (← selectOf fun u : User => u.username = username)

def create (email username hashedPassword : String) (role : UserRole) : Db User := do
  let id ← uuid4
  let user : User :=
    { id, email := env.lower email, username, hashedPassword, role, isActive := true,
      emailVerifiedAt := none }
  insertOf (fun u : User => u.email = user.email || u.username = username) user
  return user

def updateHashedPassword (userId : UUID) (hashedPassword : String) : Db (Option User) := do
  match ← getById userId with
  | none => return none
  | some _ =>
    return some (← updateById userId (fun u : User => { u with hashedPassword }) fun _ => rfl)

/-- The fields of a profile that change; a username is never removed. -/
structure ProfileFields where
  username : Option String
  displayName : Option (Option String)
  timezone : Option (Option String)
  jobTitle : Option (Option String)
  avatarUrl : Option (Option String)

/-- The row with the fields of a profile set. -/
def withFields (fields : ProfileFields) (u : User) : User :=
  { u with
    username := fields.username.getD u.username
    displayName := fields.displayName.getD u.displayName
    timezone := fields.timezone.getD u.timezone
    jobTitle := fields.jobTitle.getD u.jobTitle
    avatarUrl := fields.avatarUrl.getD u.avatarUrl }

def updateProfile (userId : UUID) (fields : ProfileFields) : Db (Option User) := do
  match ← getById userId with
  | none => return none
  | some _ =>
    return some (← updateUnique (fun u : User => fields.username = some u.username) userId
      (withFields fields) fun _ => rfl)

def updateEmail (userId : UUID) (email : String) : Db (Option User) := do
  match ← getById userId with
  | none => return none
  | some _ =>
    let t ← now
    return some (← updateUnique (fun u : User => u.email = env.lower email) userId
      (fun u : User => { u with email := env.lower email, emailVerifiedAt := some t }) fun _ => rfl)

def markEmailVerified (userId : UUID) : Db (Option User) := do
  match ← getById userId with
  | none => return none
  | some _ =>
    let t ← now
    return some
      (← updateById userId (fun u : User => { u with emailVerifiedAt := some t }) fun _ => rfl)

end UserRepository

/-! ## Refresh tokens -/

namespace RefreshTokenRepository

/-- The row after a revocation. -/
def revoked (t : Time) (reason : String) (r : RefreshToken) : RefreshToken :=
  { r with revokedAt := some t, revokedReason := some reason }

def create (userId familyId : UUID) (tokenHash : String) (jti : UUID) (expiresAt : Time) :
    Db RefreshToken := do
  let id ← uuid4
  let issuedAt ← now
  let record : RefreshToken :=
    ⟨id, userId, familyId, tokenHash, jti, issuedAt, expiresAt, none, none, none, none⟩
  insertOf (fun r : RefreshToken => r.jti = jti) record
  return record

def getByJti (jti : UUID) : Db (Option RefreshToken) := do
  scalarOneOrNone (← selectOf fun r : RefreshToken => r.jti = jti)

def getByJtiForUpdate (jti : UUID) : Db (Option RefreshToken) := do
  scalarOneOrNone (← lockOf fun r : RefreshToken => r.jti = jti)

/-- `record` is the row as the session has read it before; `session.get` gives it back. -/
def revokeToken (record : RefreshToken) (reason : String) : Db RefreshToken := do
  if record.revokedAt.isSome then return record
  else
    let t ← now
    updateById record.id (revoked t reason) fun _ => rfl

/-- The `UPDATE` that revokes the unrevoked tokens `p`; the number of rows. -/
def revokeWhere (p : RefreshToken → Bool) (reason : String) : Db ℕ := do
  let t ← now
  let rs ← updateOf (fun r : RefreshToken => p r && r.revokedAt.isNone) (revoked t reason)
    fun _ => rfl
  return rs.length

def revokeFamily (familyId : UUID) (reason : String) : Db ℕ :=
  revokeWhere (fun r => r.familyId = familyId) reason

def revokeAllForUser (userId : UUID) (reason : String) : Db ℕ :=
  revokeWhere (fun r => r.userId = userId) reason

def revokeAllExceptJti (userId keepJti : UUID) (reason : String) : Db ℕ :=
  revokeWhere (fun r => r.userId = userId && r.jti ≠ keepJti) reason

def listForUser (userId : UUID) : Db (List RefreshToken) := do
  let rs ← selectOf fun r : RefreshToken => r.userId = userId
  return rs.mergeSort fun a b => b.issuedAt ≤ a.issuedAt

def getByIdForUser (tokenId userId : UUID) : Db (Option RefreshToken) := do
  scalarOneOrNone (← selectOf fun r : RefreshToken => r.id = tokenId && r.userId = userId)

def getByJtiForUser (jti userId : UUID) : Db (Option RefreshToken) := do
  scalarOneOrNone (← selectOf fun r : RefreshToken => r.jti = jti && r.userId = userId)

end RefreshTokenRepository

/-! ## Mailed tokens -/

/-- What the tables of mailed tokens share. -/
class MailedToken (T : Type) extends Entity T where
  userId : T → UUID
  tokenHash : T → String
  expiresAt : T → Time
  usedAt : T → Option Time
  markUsed : Time → T → T
  id_markUsed : ∀ t r, Entity.id (markUsed t r) = Entity.id r

namespace MailedToken

variable {T : Type} [MailedToken T]

def getByHashForUpdate (hash : String) : Db (Option T) := do
  scalarOneOrNone (← lockOf fun r : T => tokenHash r = hash)

/-- The flush of `token_record.used_at = now`. -/
def setUsedAt (record : T) (t : Time) : Db T :=
  updateById (Entity.id record) (markUsed t) (id_markUsed t)

/-- Marks the unused tokens of a user as used; the number of tokens. -/
def invalidateUnusedForUser (T : Type) [MailedToken T] (user : UUID) : Db ℕ := do
  let t ← now
  let tokens ← selectOf fun r : T => userId r = user && (usedAt r).isNone
  forEach (fun r : T => do let _ ← setUsedAt r t) tokens
  return tokens.length

/-- The token can no longer be presented. -/
def spent (record : T) (t : Time) : Bool := (usedAt record).isSome || decide (expiresAt record ≤ t)

end MailedToken

instance : MailedToken PasswordResetToken where
  userId r := r.userId
  tokenHash r := r.tokenHash
  expiresAt r := r.expiresAt
  usedAt r := r.usedAt
  markUsed t r := { r with usedAt := some t }
  id_markUsed _ _ := rfl

instance : MailedToken EmailChangeToken where
  userId r := r.userId
  tokenHash r := r.tokenHash
  expiresAt r := r.expiresAt
  usedAt r := r.usedAt
  markUsed t r := { r with usedAt := some t }
  id_markUsed _ _ := rfl

instance : MailedToken EmailVerificationToken where
  userId r := r.userId
  tokenHash r := r.tokenHash
  expiresAt r := r.expiresAt
  usedAt r := r.usedAt
  markUsed t r := { r with usedAt := some t }
  id_markUsed _ _ := rfl

namespace PasswordResetTokenRepository

def create (userId : UUID) (tokenHash : String) (expiresAt : Time) : Db PasswordResetToken := do
  let id ← uuid4
  let createdAt ← now
  let record : PasswordResetToken := ⟨id, userId, tokenHash, expiresAt, none, createdAt⟩
  insertOf (fun r : PasswordResetToken => r.tokenHash = tokenHash) record
  return record

def getByHashForUpdate (hash : String) : Db (Option PasswordResetToken) :=
  MailedToken.getByHashForUpdate hash

def invalidateUnusedForUser (userId : UUID) : Db ℕ :=
  MailedToken.invalidateUnusedForUser PasswordResetToken userId

end PasswordResetTokenRepository

namespace EmailChangeTokenRepository

def create (userId : UUID) (tokenHash newEmail : String) (expiresAt : Time) :
    Db EmailChangeToken := do
  let id ← uuid4
  let createdAt ← now
  let record : EmailChangeToken := ⟨id, userId, tokenHash, newEmail, expiresAt, none, createdAt⟩
  insertOf (fun r : EmailChangeToken => r.tokenHash = tokenHash) record
  return record

def getByHashForUpdate (hash : String) : Db (Option EmailChangeToken) :=
  MailedToken.getByHashForUpdate hash

def invalidateUnusedForUser (userId : UUID) : Db ℕ :=
  MailedToken.invalidateUnusedForUser EmailChangeToken userId

end EmailChangeTokenRepository

namespace EmailVerificationTokenRepository

def create (userId : UUID) (tokenHash : String) (expiresAt : Time) :
    Db EmailVerificationToken := do
  let id ← uuid4
  let createdAt ← now
  let record : EmailVerificationToken := ⟨id, userId, tokenHash, expiresAt, none, createdAt⟩
  insertOf (fun r : EmailVerificationToken => r.tokenHash = tokenHash) record
  return record

def getByHashForUpdate (hash : String) : Db (Option EmailVerificationToken) :=
  MailedToken.getByHashForUpdate hash

def invalidateUnusedForUser (userId : UUID) : Db ℕ :=
  MailedToken.invalidateUnusedForUser EmailVerificationToken userId

end EmailVerificationTokenRepository

end DevOps
