import DevOpsAssistant.Api.Accounts
import DevOpsAssistant.Specs.Writes

/-!
# What the account services write

One lemma for each function of the account services: the statements it sends follow any rules that
allow the writes of accounts.

* `Revokes`: a row that differs from another by a revocation only.
* `AllowsAccounts`, `AllowsSessions`: rules that allow the writes of accounts, and of new sessions.
* **`only_route`**: every account request follows such rules.
-/

namespace DevOps

open Txn

/-- The row `r'` is the refresh token `r`, possibly revoked. -/
def Revokes (r r' : Row) : Prop :=
  ∃ t at' reason, r = .refreshToken t ∧
    r' = .refreshToken { t with revokedAt := at', revokedReason := reason } ∧
    (t.revokedAt.isSome → at'.isSome)

/-- Rules that allow what accounts need besides new refresh tokens. -/
structure AllowsAccounts (W : Rules) : Prop where
  insertUser : ∀ u : User, W.insert (toRow u)
  insertReset : ∀ r : PasswordResetToken, W.insert (toRow r)
  insertChange : ∀ r : EmailChangeToken, W.insert (toRow r)
  insertVerification : ∀ r : EmailVerificationToken, W.insert (toRow r)
  audit : ∀ e : AuditEvent, e.organizationId = none → W.insert (toRow e)
  updateUser : ∀ u u' : User, u'.id = u.id → u'.isActive = u.isActive → W.update (toRow u) (toRow u')
  markReset : ∀ t (r : PasswordResetToken), W.update (toRow r) (toRow (MailedToken.markUsed t r))
  markChange : ∀ t (r : EmailChangeToken), W.update (toRow r) (toRow (MailedToken.markUsed t r))
  markVerification : ∀ t (r : EmailVerificationToken),
    W.update (toRow r) (toRow (MailedToken.markUsed t r))
  revoke : ∀ t reason (r : RefreshToken),
    W.update (toRow r) (toRow (RefreshTokenRepository.revoked t reason r))

/-- Rules that allow new refresh tokens and their rotation. -/
structure AllowsSessions (W : Rules) : Prop where
  insert : ∀ r : RefreshToken, W.insert (toRow r)
  used : ∀ t (r : RefreshToken), W.update (toRow r) (toRow { r with usedAt := some t })
  replaced : ∀ i (r : RefreshToken),
    W.update (toRow r) (toRow { r with replacedByTokenId := some i })

variable (env : Env) {W : Rules}

/-! ## Passwords and tokens -/

theorem only_hashPassword (password : String) :
    (hashPassword env password).Only (Writes W) fun _ => True :=
  only_bind only_uuid4 fun _ => trivial

theorem only_validatePassword (password username email : String) :
    (validatePassword env password username email).Only (Writes W) fun _ => True := by
  unfold validatePassword
  split <;> trivial

/-- The claims are those of the presented token. -/
theorem only_decodeToken (token : RawToken) (type : TokenType) :
    (decodeToken env token type).Only (Writes W) fun p => token = .jwt p := by
  unfold decodeToken
  split
  · refine only_now.bind fun t _ => ?_
    split
    · next p hp =>
      unfold tokenClaims at hp
      split at hp
      · split at hp
        · cases hp; rfl
        · cases hp
      · cases hp
    · trivial
  · trivial

theorem only_createAccessToken (subject : UUID) :
    (createAccessToken env subject).Only (Writes W) fun _ => True :=
  only_bind only_now fun _ => only_bind only_uuid4 fun _ => trivial

theorem only_createRefreshToken (subject jti familyId : UUID) :
    (createRefreshToken env subject jti familyId).Only (Writes W) fun _ => True :=
  only_bind only_now fun _ => trivial

theorem only_generateSecureToken : generateSecureToken.Only (Writes W) fun _ => True :=
  only_bind only_uuid4 fun _ => trivial

theorem only_exceptUnauthorized {α : Type} {body handler : Db α} {P : α → Prop}
    (hb : body.Only (Writes W) P) (hh : handler.Only (Writes W) P) :
    (exceptUnauthorized body handler).Only (Writes W) P := by
  refine hb.tryCatch fun e => ?_
  split
  · exact hh
  · trivial

/-! ## Repositories -/

theorem only_getById (userId : UUID) :
    (UserRepository.getById userId).Only (Writes W) fun found => ∀ u ∈ found, u.id = userId :=
  (only_selectOne _).mono (fun _ h => h) fun _ h u hu => of_decide_eq_true (h u hu)

theorem only_getByEmail (email : String) :
    (UserRepository.getByEmail email).Only (Writes W)
      fun found => ∀ u ∈ found, u.email = email :=
  (only_selectOne _).mono (fun _ h => h) fun _ h u hu => of_decide_eq_true (h u hu)

theorem only_getByUsername (username : String) :
    (UserRepository.getByUsername username).Only (Writes W)
      fun found => ∀ u ∈ found, u.username = username :=
  (only_selectOne _).mono (fun _ h => h) fun _ h u hu => of_decide_eq_true (h u hu)

theorem only_createUser (h : ∀ u : User, W.insert (toRow u)) (email username hashedPassword : String)
    (role : UserRole) :
    (UserRepository.create env email username hashedPassword role).Only (Writes W) fun _ => True :=
  only_bind only_uuid4 fun _ => only_bind (only_insertOf _ _ (h _)) fun _ => trivial

theorem only_updateHashedPassword
    (h : ∀ u u' : User, u'.id = u.id → u'.isActive = u.isActive → W.update (toRow u) (toRow u'))
    (userId : UUID) (hashedPassword : String) :
    (UserRepository.updateHashedPassword userId hashedPassword).Only (Writes W) fun _ => True := by
  refine only_bind (only_getById _) fun user => ?_
  split
  · trivial
  · exact only_bind (only_updateById _ _ fun u _ => h u _ rfl rfl) fun _ => trivial

theorem only_updateEmail
    (h : ∀ u u' : User, u'.id = u.id → u'.isActive = u.isActive → W.update (toRow u) (toRow u'))
    (userId : UUID) (email : String) :
    (UserRepository.updateEmail env userId email).Only (Writes W) fun _ => True := by
  refine only_bind (only_getById _) fun user => ?_
  split
  · trivial
  · exact only_bind only_now fun _ =>
      only_bind (only_updateUnique _ _ _ fun u _ => h u _ rfl rfl) fun _ => trivial

theorem only_markEmailVerified
    (h : ∀ u u' : User, u'.id = u.id → u'.isActive = u.isActive → W.update (toRow u) (toRow u'))
    (userId : UUID) :
    (UserRepository.markEmailVerified userId).Only (Writes W) fun _ => True := by
  refine only_bind (only_getById _) fun user => ?_
  split
  · trivial
  · exact only_bind only_now fun _ =>
      only_bind (only_updateById _ _ fun u _ => h u _ rfl rfl) fun _ => trivial

section MailedTokens

variable {T : Type} [MailedToken T]

theorem only_getByHashForUpdate (hash : String) :
    (MailedToken.getByHashForUpdate hash : Db (Option T)).Only (Writes W)
      fun found => ∀ r ∈ found, MailedToken.tokenHash r = hash :=
  (only_lockOne _).mono (fun _ h => h) fun _ h r hr => of_decide_eq_true (h r hr)

theorem only_setUsedAt (h : ∀ t (r : T), W.update (toRow r) (toRow (MailedToken.markUsed t r)))
    (record : T) (t : Time) :
    (MailedToken.setUsedAt record t).Only (Writes W) fun _ => True :=
  only_updateById _ _ fun r _ => h t r

theorem only_invalidateUnusedForUser
    (h : ∀ t (r : T), W.update (toRow r) (toRow (MailedToken.markUsed t r))) (userId : UUID) :
    (MailedToken.invalidateUnusedForUser T userId).Only (Writes W) fun _ => True :=
  only_bind only_now fun _ => only_bind (only_selectOf _) fun ts =>
    only_bind (only_forEach (fun r => only_bind (only_setUsedAt h r _) fun _ => only_pure _) ts)
      fun _ => trivial

end MailedTokens

theorem only_createPasswordResetToken (h : ∀ r : PasswordResetToken, W.insert (toRow r)) (userId : UUID)
    (tokenHash : String) (expiresAt : Time) :
    (PasswordResetTokenRepository.create userId tokenHash expiresAt).Only (Writes W) fun _ => True :=
  only_bind only_uuid4 fun _ => only_bind only_now fun _ =>
    only_bind (only_insertOf _ _ (h _)) fun _ => trivial

theorem only_createEmailChangeToken (h : ∀ r : EmailChangeToken, W.insert (toRow r)) (userId : UUID)
    (tokenHash newEmail : String) (expiresAt : Time) :
    (EmailChangeTokenRepository.create userId tokenHash newEmail expiresAt).Only (Writes W) fun _ => True :=
  only_bind only_uuid4 fun _ => only_bind only_now fun _ =>
    only_bind (only_insertOf _ _ (h _)) fun _ => trivial

theorem only_createEmailVerificationToken (h : ∀ r : EmailVerificationToken, W.insert (toRow r)) (userId : UUID)
    (tokenHash : String) (expiresAt : Time) :
    (EmailVerificationTokenRepository.create userId tokenHash expiresAt).Only (Writes W) fun _ => True :=
  only_bind only_uuid4 fun _ => only_bind only_now fun _ =>
    only_bind (only_insertOf _ _ (h _)) fun _ => trivial

theorem only_getByJti (jti : UUID) :
    (RefreshTokenRepository.getByJti jti).Only (Writes W)
      fun found => ∀ r ∈ found, r.jti = jti :=
  (only_selectOne _).mono (fun _ h => h) fun _ h r hr => of_decide_eq_true (h r hr)

theorem only_getByJtiForUpdate (jti : UUID) :
    (RefreshTokenRepository.getByJtiForUpdate jti).Only (Writes W)
      fun found => ∀ r ∈ found, r.jti = jti :=
  (only_lockOne _).mono (fun _ h => h) fun _ h r hr => of_decide_eq_true (h r hr)

theorem only_revokeToken (h : ∀ t reason (r : RefreshToken),
      W.update (toRow r) (toRow (RefreshTokenRepository.revoked t reason r))) (record : RefreshToken) (reason : String) :
    (RefreshTokenRepository.revokeToken record reason).Only (Writes W) fun _ => True := by
  unfold RefreshTokenRepository.revokeToken
  split
  · trivial
  · exact only_bind only_now fun _ => only_updateById _ _ fun _ _ => h _ _ _

theorem only_revokeWhere (h : ∀ t reason (r : RefreshToken),
      W.update (toRow r) (toRow (RefreshTokenRepository.revoked t reason r))) (p : RefreshToken → Bool) (reason : String) :
    (RefreshTokenRepository.revokeWhere p reason).Only (Writes W) fun _ => True :=
  only_bind only_now fun _ =>
    only_bind (only_updateOf _ fun _ _ => h _ _ _) fun _ => trivial

theorem only_getCurrentUser (token : RawToken) :
    (getCurrentUser env token).Only (Writes W) fun _ => True := by
  refine (only_decodeToken env _ _).bind fun payload _ => ?_
  split
  · trivial
  · refine only_bind (only_getById _) fun user => ?_
    split
    · trivial
    · split <;> trivial

theorem only_recordEvent {organizationId : Option UUID}
    (h : ∀ e : AuditEvent, e.organizationId = organizationId → W.insert (toRow e))
    (action : String) (actorUserId : Option UUID) (resourceType : String) (resourceId : Option UUID) :
    (AuditService.recordEvent action actorUserId organizationId resourceType resourceId).Only
      (Writes W) fun _ => True :=
  only_bind only_uuid4 fun _ => only_bind only_now fun _ =>
    only_tryCatch (only_insertOf _ _ (h _ rfl)) fun _ => trivial

/-! ## Services -/

open AuthService

theorem only_refreshPayload (rawToken : RawToken) :
    (refreshPayload? env rawToken).Only (Writes W) fun _ => True :=
  only_exceptUnauthorized ((only_decodeToken env _ _).bind fun _ _ => trivial) trivial

theorem only_buildTokenPair (user : User) (refreshToken : RawToken) :
    (buildTokenPair env user refreshToken).Only (Writes W)
      fun p => p.refreshToken = refreshToken :=
  (only_createAccessToken env _).bind fun _ _ => rfl

/-- A failed login returns nothing. -/
theorem only_loginFailure
    (h : ∀ e : AuditEvent, e.organizationId = none → W.insert (toRow e)) (userId : Option UUID) :
    (loginFailure userId).Only (Writes W) fun _ => False :=
  (only_recordEvent h _ _ _ _).bind fun _ _ => trivial

/-- A refused refresh returns nothing. -/
theorem only_refreshFailure
    (h : ∀ e : AuditEvent, e.organizationId = none → W.insert (toRow e)) (userId : Option UUID) :
    (refreshFailure userId).Only (Writes W) fun _ => False :=
  (only_recordEvent h _ _ _ _).bind fun _ _ => trivial

theorem only_verificationEmail (hinsert : ∀ r : EmailVerificationToken, W.insert (toRow r))
    (hmark : ∀ t (r : EmailVerificationToken), W.update (toRow r) (toRow (MailedToken.markUsed t r)))
    (haudit : ∀ e : AuditEvent, e.organizationId = none → W.insert (toRow e)) (user : User) :
    (sendVerificationEmail env user).Only (Writes W) fun _ => True := by
  unfold sendVerificationEmail
  split
  · trivial
  · refine only_bind (only_invalidateUnusedForUser hmark _) fun _ =>
      only_bind only_generateSecureToken fun _ => only_bind only_now fun _ =>
      only_bind (only_createEmailVerificationToken hinsert _ _ _) fun _ =>
      only_bind (only_sendMail _ _) fun _ => only_recordEvent haudit _ _ _ _

theorem only_sendVerificationEmail (hW : AllowsAccounts W) (user : User) :
    (sendVerificationEmail env user).Only (Writes W) fun _ => True :=
  only_verificationEmail env hW.insertVerification hW.markVerification hW.audit user

theorem only_register (hW : AllowsAccounts W) (email username password : String) :
    (register env email username password).Only (Writes W) fun _ => True := by
  refine only_bind (only_validatePassword env _ _ _) fun _ => only_bind (only_getByEmail _)
    fun byEmail => ?_
  split
  · trivial
  · refine only_bind (only_getByUsername _) fun byUsername => ?_
    split
    · trivial
    · refine only_bind (only_hashPassword env _) fun _ =>
        only_bind (only_createUser env hW.insertUser _ _ _ _) fun user => ?_
      split
      · exact only_bind (only_sendVerificationEmail env hW user) fun _ => trivial
      · trivial

theorem only_logout (hW : AllowsAccounts W)
    (rawToken : RawToken) : (logout env rawToken).Only (Writes W) fun _ => True := by
  refine only_bind (only_refreshPayload env _) fun payload => ?_
  split
  · trivial
  · refine only_bind (only_getByJti _) fun record => ?_
    split
    · trivial
    · split
      · trivial
      · exact only_bind (only_revokeToken hW.revoke _ _) fun _ =>
          only_recordEvent hW.audit _ _ _ _

theorem only_logoutAll (hW : AllowsAccounts W)
    (user : User) : (logoutAll user).Only (Writes W) fun _ => True :=
  only_bind (only_revokeWhere hW.revoke _ _) fun _ => only_recordEvent hW.audit _ _ _ _

theorem only_forgotPassword (hW : AllowsAccounts W) (email : String) :
    (forgotPassword env email).Only (Writes W) fun _ => True := by
  refine only_bind (only_getByEmail _) fun user => ?_
  split
  · trivial
  · split
    · trivial
    · exact only_bind (only_invalidateUnusedForUser hW.markReset _) fun _ =>
        only_bind only_generateSecureToken fun _ => only_bind only_now fun _ =>
        only_bind (only_createPasswordResetToken hW.insertReset _ _ _) fun _ =>
        only_bind (only_sendMail _ _) fun _ =>
        only_bind (only_recordEvent hW.audit _ _ _ _) fun _ => trivial

theorem only_resetPassword (hW : AllowsAccounts W)
    (token : RawToken) (newPassword : String) :
    (resetPassword env token newPassword).Only (Writes W) fun _ => True := by
  refine only_bind (only_validatePassword env _ _ _) fun _ =>
    only_bind (only_getByHashForUpdate _) fun record => ?_
  split
  · trivial
  · refine only_bind only_now fun t => ?_
    split
    · trivial
    · refine only_bind (only_getById _) fun user => ?_
      split
      · trivial
      · split
        · trivial
        · exact only_bind (only_setUsedAt hW.markReset _ _) fun _ =>
            only_bind (only_hashPassword env _) fun _ =>
            only_bind (only_updateHashedPassword hW.updateUser _ _) fun _ =>
            only_bind (only_revokeWhere hW.revoke _ _) fun _ =>
            only_recordEvent hW.audit _ _ _ _

theorem only_keepJti (user : User) (current : Option RawToken) :
    (keepJti env user current).Only (Writes W) fun _ => True := by
  unfold keepJti
  split
  · trivial
  · refine only_bind (only_refreshPayload env _) fun payload => ?_
    split
    · trivial
    · refine only_bind (only_getByJti _) fun record => ?_
      split
      · trivial
      · split <;> trivial

theorem only_changePassword (hW : AllowsAccounts W)
    (user : User) (currentPassword newPassword : String) (current : Option RawToken) :
    (changePassword env user currentPassword newPassword current).Only (Writes W) fun _ => True := by
  unfold changePassword
  split
  · trivial
  · refine only_bind (only_validatePassword env _ _ _) fun _ =>
      only_bind (only_hashPassword env _) fun _ =>
      only_bind (only_updateHashedPassword hW.updateUser _ _) fun _ =>
      only_bind (only_keepJti env _ _) fun keep => ?_
    split
    · exact only_bind (only_revokeWhere hW.revoke _ _) fun _ => only_recordEvent hW.audit _ _ _ _
    · exact only_bind (only_revokeWhere hW.revoke _ _) fun _ => only_recordEvent hW.audit _ _ _ _

theorem only_verifyEmail (hW : AllowsAccounts W) (token : RawToken) :
    (verifyEmail env token).Only (Writes W) fun _ => True := by
  refine only_bind (only_getByHashForUpdate _) fun record => ?_
  split
  · trivial
  · refine only_bind only_now fun t => ?_
    split
    · trivial
    · refine only_bind (only_getById _) fun user => ?_
      split
      · trivial
      · split
        · trivial
        · refine only_bind (only_setUsedAt hW.markVerification _ _) fun _ =>
            only_bind (only_markEmailVerified hW.updateUser _) fun updated => ?_
          split
          · trivial
          · exact only_bind (only_recordEvent hW.audit _ _ _ _) fun _ => trivial

theorem only_listSessions (user : User) (current : Option RawToken) :
    (listSessions env user current).Only (Writes W) fun _ => True := by
  have hlist : ∀ currentJti, (do
      let records ← RefreshTokenRepository.listForUser user.id
      return records.map fun record => refreshTokenToSession record currentJti : Db _).Only
        (Writes W) fun _ => True :=
    fun _ => only_bind (only_bind (only_selectOf _) fun _ => only_pure _) fun _ => trivial
  unfold listSessions
  split
  · exact hlist _
  · refine only_bind (only_refreshPayload env _) fun payload => ?_
    split
    · exact hlist _
    · refine only_bind (only_selectOne _) fun record => ?_
      split
      · exact hlist _
      · exact hlist _

theorem only_revokeSession (hW : AllowsAccounts W)
    (user : User) (sessionId : UUID) :
    (revokeSession user sessionId).Only (Writes W) fun _ => True := by
  refine only_bind (only_selectOne _) fun record => ?_
  split
  · trivial
  · exact only_bind (only_revokeToken hW.revoke _ _) fun _ => only_recordEvent hW.audit _ _ _ _

open ProfileService

theorem only_requestEmailChange (hW : AllowsAccounts W) (user : User)
    (newEmail password : String) :
    (requestEmailChange env user newEmail password).Only (Writes W) fun _ => True := by
  unfold requestEmailChange
  dsimp only
  split
  · trivial
  · split
    · trivial
    · refine only_bind (only_getByEmail _) fun existing => ?_
      split
      · trivial
      · exact only_bind (only_invalidateUnusedForUser hW.markChange _) fun _ =>
          only_bind only_generateSecureToken fun _ => only_bind only_now fun _ =>
          only_bind (only_createEmailChangeToken hW.insertChange _ _ _ _) fun _ =>
          only_bind (only_sendMail _ _) fun _ =>
          only_bind (only_recordEvent hW.audit _ _ _ _) fun _ => trivial

theorem only_confirmEmailChange (hW : AllowsAccounts W)
    (token : RawToken) :
    (confirmEmailChange env token).Only (Writes W) fun _ => True := by
  refine only_bind (only_getByHashForUpdate _) fun record => ?_
  split
  · trivial
  · refine only_bind only_now fun t => ?_
    split
    · trivial
    · refine only_bind (only_getById _) fun user => ?_
      split
      · trivial
      · split
        · trivial
        · refine only_bind (only_getByEmail _) fun existing => ?_
          split
          · trivial
          · refine only_bind (only_setUsedAt hW.markChange _ _) fun _ =>
              only_bind (only_updateEmail env hW.updateUser _ _) fun updated => ?_
            split
            · trivial
            · exact only_bind (only_revokeWhere hW.revoke _ _) fun _ =>
                only_bind (only_recordEvent hW.audit _ _ _ _) fun _ => trivial

/-! ## Login and refresh -/

theorem only_createRefreshTokenRecord (hs : AllowsSessions W) (user : User)
    (familyId : Option UUID) :
    (createRefreshTokenRecord env user familyId).Only (Writes W) fun _ => True := by
  have hcreate : ∀ f, (createTokenInFamily env user f).Only (Writes W) fun _ => True := fun f =>
    only_bind only_uuid4 fun _ => only_bind (only_createRefreshToken env _ _ _) fun _ =>
      only_bind only_now fun _ => only_bind (only_bind only_uuid4 fun _ => only_bind only_now fun _ =>
        only_bind (only_insertOf _ _ (hs.insert _)) fun _ => only_pure _) fun _ => trivial
  cases familyId with
  | some f => exact hcreate f
  | none => exact only_bind only_uuid4 hcreate

theorem only_issueTokenPair (hW : AllowsAccounts W) (hs : AllowsSessions W) (user : User) :
    (issueTokenPair env user).Only (Writes W) fun _ => True :=
  only_bind (only_createRefreshTokenRecord env hs _ _) fun _ =>
    only_bind (only_buildTokenPair env _ _) fun _ =>
    only_bind (only_recordEvent hW.audit _ _ _ _) fun _ => trivial

theorem only_login (hW : AllowsAccounts W) (hs : AllowsSessions W) (username password : String) :
    (login env username password).Only (Writes W) fun _ => True := by
  have hfail : ∀ id, (loginFailure id).Only (Writes W) fun _ => True := fun id =>
    (only_loginFailure hW.audit id).mono (fun _ h => h) fun _ _ => trivial
  refine only_bind (only_getByUsername _) fun user => ?_
  split
  · exact hfail _
  · split
    · exact hfail _
    split
    · exact hfail _
    split
    · exact hfail _
    split
    · exact only_bind (only_hashPassword env _) fun _ =>
        only_bind (only_updateHashedPassword hW.updateUser _ _) fun _ =>
        only_bind (only_recordEvent hW.audit _ _ _ _) fun _ => only_issueTokenPair env hW hs _
    · exact only_issueTokenPair env hW hs _

theorem only_rotate (hW : AllowsAccounts W) (hs : AllowsSessions W) (user : User)
    (tokenRecord : RefreshToken) (t : Time) :
    (rotate env user tokenRecord t).Only (Writes W) fun _ => True :=
  only_bind (only_updateById _ _ fun _ _ => hs.used _ _) fun _ =>
    only_bind (only_createRefreshTokenRecord env hs _ _) fun _ =>
    only_bind (only_updateById _ _ fun _ _ => hs.replaced _ _) fun _ =>
    only_bind (only_buildTokenPair env _ _) fun _ =>
    only_bind (only_recordEvent hW.audit _ _ _ _) fun _ => trivial

theorem only_refresh (hW : AllowsAccounts W) (hs : AllowsSessions W) (rawToken : RawToken) :
    (AuthService.refresh env rawToken).Only (Writes W) fun _ => True := by
  have hfail : ∀ id, (refreshFailure id).Only (Writes W) fun _ => True := fun id =>
    (only_refreshFailure hW.audit id).mono (fun _ h => h) fun _ _ => trivial
  refine only_bind (only_exceptUnauthorized ((only_decodeToken env _ _).mono (fun _ h => h)
    fun _ _ => trivial) (only_bind (only_recordEvent hW.audit _ _ _ _) fun _ => only_throw _))
    fun payload => only_bind (only_getByJtiForUpdate _) fun record => ?_
  split
  · exact hfail _
  split
  · exact only_bind (only_revokeWhere hW.revoke _ _) fun _ =>
      only_bind (only_recordEvent hW.audit _ _ _ _) fun _ => trivial
  refine only_bind only_now fun t => ?_
  split
  · exact hfail _
  split
  · exact hfail _
  split
  · exact hfail _
  split
  · exact hfail _
  refine only_bind (only_getById _) fun user => ?_
  split
  · exact hfail _
  split
  · exact hfail _
  · exact only_rotate env hW hs _ _ _

/-! ## Requests -/

/-- The requests that may issue refresh tokens. -/
def AccountRequest.Issues : AccountRequest → Prop
  | .login _ _ | .refresh _ => True
  | _ => False

/-- **Every account request** follows rules that allow the writes of accounts and, if it may issue
tokens, those of sessions. -/
theorem only_route (hW : AllowsAccounts W) :
    ∀ r : AccountRequest, (r.Issues → AllowsSessions W) →
      (r.route env).Only (Writes W) fun _ => True
  | .register _ _ _, _ => only_bind (only_register env hW _ _ _) fun _ => trivial
  | .login _ _, hs => only_bind (only_login env hW (hs trivial) _ _) fun _ => trivial
  | .refresh _, hs => only_bind (only_refresh env hW (hs trivial) _) fun _ => trivial
  | .logout _, _ => only_bind (only_logout env hW _) fun _ => trivial
  | .logoutAll _, _ => only_bind (only_getCurrentUser env _) fun _ =>
      only_bind (only_logoutAll hW _) fun _ => trivial
  | .forgotPassword _, _ => only_bind (only_forgotPassword env hW _) fun _ => trivial
  | .resetPassword _ _, _ => only_bind (only_resetPassword env hW _ _) fun _ => trivial
  | .changePassword _ _ _ _, _ => only_bind (only_getCurrentUser env _) fun _ =>
      only_bind (only_changePassword env hW _ _ _ _) fun _ => trivial
  | .sendVerification _, _ => only_bind (only_getCurrentUser env _) fun _ =>
      only_bind (only_sendVerificationEmail env hW _) fun _ => trivial
  | .verifyEmail _, _ => only_bind (only_verifyEmail env hW _) fun _ => trivial
  | .listSessions _ _, _ => only_bind (only_getCurrentUser env _) fun _ =>
      only_bind (only_listSessions env _ _) fun _ => trivial
  | .revokeSession _ _, _ => only_bind (only_getCurrentUser env _) fun _ =>
      only_bind (only_revokeSession hW _ _) fun _ => trivial
  | .requestEmailChange _ _ _, _ => only_bind (only_getCurrentUser env _) fun _ =>
      only_bind (only_requestEmailChange env hW _ _ _) fun _ => trivial
  | .confirmEmailChange _, _ => only_bind (only_confirmEmailChange env hW _) fun _ => trivial

end DevOps
