import DevOpsAssistant.Sessions.Reuse
import DevOpsAssistant.Specs.Raises
import DevOpsAssistant.Specs.Runs

/-!
# Audit events of refused requests

A refused login or refresh adds a line to the audit trail and raises, so that the unit of work drops
the line with everything else.

* `LogsRefusal`: an `UnauthorizedError` comes after the audit line of a refusal.
* **`logsRefusal_login`**, **`logsRefusal_refresh`**: it does, on every path of both operations.
* `Records`, `FailureEventsDurable`: what the audit trail is meant to keep.
* **`failure_events_lost`**: it keeps none of them.
-/

namespace DevOps

open Txn

/-- The actions of the audit events of refused logins and refreshes. -/
def FAILURE_ACTIONS : List String :=
  ["user.login.failure", "user.token.refresh.failure", "user.token.reuse_detected"]

variable (env : Env) {s s₀ : Session Row World} {α : Type}

/-! ## The audit line of a refusal -/

/-- Every audit event the session sees has an identifier that has been drawn. -/
def AuditDrawn (s : Session Row World) : Prop := ∀ a ∈ rowsOf AuditEvent s.view, a.id < s.nextId

/-- The session sees the audit line of a refusal, with an identifier drawn since `s₀`. -/
def SeesRefusal (s₀ s : Session Row World) : Prop :=
  ∃ event ∈ rowsOf AuditEvent s.view, event.action ∈ FAILURE_ACTIONS ∧ s₀.nextId ≤ event.id

/-- An `UnauthorizedError` comes after the audit line of a refusal. -/
def LogsRefusal (s₀ : Session Row World) (r : Except Exc α) (s : Session Row World) : Prop :=
  ∀ e, r = .error e → e.isA .unauthorized = true → SeesRefusal s₀ s

/-- A new audit line is added. -/
theorem ends_recordEvent_added (h : AuditDrawn s) (action : String)
    (actorUserId organizationId : Option UUID) (resourceType : String) (resourceId : Option UUID) :
    (AuditService.recordEvent action actorUserId organizationId resourceType resourceId).Ends
      respond s fun r s' => r = .ok () ∧
        ∃ event ∈ rowsOf AuditEvent s'.view, event.action = action ∧ event.id = s.nextId := by
  refine ends_uuid4.mpr (ends_now.mpr (Prog.ends_tryCatch.mpr ?_))
  let event : AuditEvent := ⟨s.nextId, actorUserId, organizationId, action, resourceType,
    resourceId, s.world.tick.time⟩
  -- no line has the new identifier, so the insert goes through
  have hnew : s.view.clashes (fun r => (ofRow r).any fun _ : AuditEvent => false) (toRow event) =
      false := by
    refine clashes_eq_false fun r hr hk => ?_
    cases r with
    | auditEvent a => exact (h a (mem_rowsOf.mpr hr)).ne (congrArg Key.id hk)
    | _ => cases congrArg Key.table hk
  rw [Prog.Ends, exec_insertOf (s := { s with nextId := s.nextId + 1, world := s.world.tick }) hnew]
  exact ⟨rfl, event, mem_rowsOf.mpr (mem_view_append _ _), rfl, rfl⟩

/-- A refusal with its audit line. -/
theorem ends_refused {action : String} (ha : action ∈ FAILURE_ACTIONS) (h : AuditDrawn s)
    (hs : s₀.nextId ≤ s.nextId) (actorUserId : Option UUID) (resourceType : String)
    (resourceId : Option UUID) (e : Exc) :
    (AuditService.recordEvent action actorUserId none resourceType resourceId >>= fun _ =>
      (throw e : Db α)).Ends respond s fun r s' => r = .error e ∧ SeesRefusal s₀ s' := by
  refine (ends_recordEvent_added h _ _ _ _ _).bind (fun u s' ⟨_, event, hm, hact, hid⟩ => ?_)
    fun _ _ hr => nomatch hr.1
  exact ⟨rfl, event, hm, hact ▸ ha, hid ▸ hs⟩

theorem LogsRefusal.of_refused {p : Db α} {e : Exc}
    (hp : p.Ends respond s fun r s' => r = .error e ∧ SeesRefusal s₀ s') :
    p.Ends respond s (LogsRefusal s₀) := hp.mono fun _ _ ⟨_, h⟩ _ _ _ => h

/-- A part that raises no `UnauthorizedError`. -/
theorem ends_otherError {p : Db α} (hp : p.Raises (fun _ _ => True) OtherError) :
    p.Ends respond s (LogsRefusal s₀) :=
  (hp.exec (fun _ => True) (fun _ _ _ => ⟨trivial, trivial⟩) trivial).mono
    fun r s' ⟨_, hr⟩ e he hu => by
      have := hr e he
      simp [OtherError, hu] at this

section Queries

variable {T : Type} [Entity T]

omit [Entity T] in
/-- What follows a query for at most one row. -/
theorem ends_one {rs : List T} {g : Option T → Db α}
    (h : ∀ o, (g o).Ends respond s (LogsRefusal s₀)) :
    (scalarOneOrNone rs >>= g).Ends respond s (LogsRefusal s₀) := by
  match rs with
  | [] => exact h none
  | [t] => exact h (some t)
  | _ :: _ :: _ => exact fun e he hu => by cases he; cases hu

theorem ends_selectOption {p : T → Bool} {g : Option T → Db α}
    (h : ∀ o, (g o).Ends respond s (LogsRefusal s₀)) :
    ((selectOf p >>= scalarOneOrNone) >>= g).Ends respond s (LogsRefusal s₀) := by
  rw [bind_assoc, ends_selectOf]
  exact ends_one h

theorem ends_lockOption {p : T → Bool} {g : Option T → Db α}
    (h : ∀ o, (g o).Ends respond s (LogsRefusal s₀)) :
    ((lockOf p >>= scalarOneOrNone) >>= g).Ends respond s (LogsRefusal s₀) := by
  rw [bind_assoc, ends_lockOf]
  exact ends_one h

end Queries

/-! ## Login -/

section Login

variable (h : AuditDrawn s) (hs : s₀.nextId ≤ s.nextId)

include h hs in
theorem ends_loginFailure (userId : Option UUID) :
    (AuthService.loginFailure userId).Ends respond s (LogsRefusal s₀) :=
  .of_refused (ends_refused (by simp [FAILURE_ACTIONS]) h hs _ _ _ _)

include h hs in
/-- **Every `UnauthorizedError` of a login** comes after its audit line. -/
theorem logsRefusal_login (username password : String) :
    (AuthService.login env username password).Ends respond s (LogsRefusal s₀) := by
  refine ends_selectOption fun user => ?_
  cases user with
  | none => exact ends_loginFailure h hs none
  | some user =>
    simp only
    split
    · exact ends_loginFailure h hs _
    split
    · exact ends_loginFailure h hs _
    split
    · exact ends_loginFailure h hs _
    -- the password is right: whatever is raised from here on is another error
    refine ends_otherError ?_
    split
    · exact (raises_hashPassword env password).bind fun _ =>
        (raises_updateHashedPassword _ _).bind fun _ => (raises_recordEvent _ _ _ _ _).bind fun _ =>
          raises_issueTokenPair env user
    · exact raises_issueTokenPair env user

end Login

/-! ## Refresh -/

section Refresh

theorem AuditDrawn.tick (h : AuditDrawn s) :
    AuditDrawn { s with world := s.world.tick } := h

/-- A transaction that has written other tables since. -/
theorem AuditDrawn.of_unchanged {s' : Session Row World} (h : AuditDrawn s)
    (hs : Unchanged (· = .auditEvents) s s') : AuditDrawn s' := fun a ha =>
  (h a ((hs.mem rfl).mp ha)).trans_le hs.nextId

theorem ends_refreshFailure (h : AuditDrawn s) (hs : s₀.nextId ≤ s.nextId) (userId : Option UUID) :
    (AuthService.refreshFailure userId).Ends respond s (LogsRefusal s₀) :=
  .of_refused (ends_refused (by simp [FAILURE_ACTIONS]) h hs _ _ _ _)

/-- A reused token: its family is revoked, and the reuse is recorded. -/
theorem ends_reuse (h : AuditDrawn s) (hs : s₀.nextId ≤ s.nextId) (record : RefreshToken) :
    (do
      let _ ← RefreshTokenRepository.revokeFamily record.familyId "reuse_detected"
      AuditService.recordEvent "user.token.reuse_detected" record.userId none "refresh_token"
        record.id
      throw (UnauthorizedError GENERIC_AUTH_ERROR) : Db TokenPairResponse).Ends respond s
        (LogsRefusal s₀) := by
  have hrevoke : (RefreshTokenRepository.revokeFamily record.familyId "reuse_detected").Ends respond
      s fun r s' => (∃ n, r = .ok n) ∧ Unchanged (· = .auditEvents) s s' :=
    ⟨⟨_, rfl⟩, unchanged_of_only (only_revokeWhere (fun _ _ _ => fun hT => nomatch hT) _ _) s⟩
  refine hrevoke.bind (fun n s' ⟨_, hs'⟩ => ?_) fun e s' ⟨⟨_, hr⟩, _⟩ => nomatch hr
  exact .of_refused
    (ends_refused (by simp [FAILURE_ACTIONS]) (h.of_unchanged hs') (hs.trans hs'.nextId) _ _ _ _)

/-- **Every `UnauthorizedError` of a refresh** comes after its audit line. -/
theorem logsRefusal_refresh (h : AuditDrawn s) (hs : s₀.nextId ≤ s.nextId) (rawToken : RawToken) :
    (AuthService.refresh env rawToken).Ends respond s (LogsRefusal s₀) := by
  have hdecode : (exceptUnauthorized (decodeToken env rawToken .refresh) do
      AuthService.recordRefreshFailure none
      throw (UnauthorizedError GENERIC_AUTH_ERROR)).Ends respond s fun r s' =>
        match r with
        | .ok _ => AuditDrawn s' ∧ s₀.nextId ≤ s'.nextId
        | .error _ => SeesRefusal s₀ s' := by
    refine Prog.ends_tryCatch.mpr ?_
    rw [← bind_pure (decodeToken env rawToken .refresh)]
    refine ends_decodeToken.mpr ?_
    cases tokenClaims env s.world.tick.time .refresh rawToken with
    | some payload => exact ⟨h, hs⟩
    | none =>
      refine (ends_refused (by simp [FAILURE_ACTIONS]) h.tick hs none "refresh_token" none
        (UnauthorizedError GENERIC_AUTH_ERROR)).mono fun r s' ⟨hr, hsees⟩ => ?_
      subst hr
      exact hsees
  refine hdecode.bind (fun payload s' ⟨h, hs⟩ => ends_lockOption fun record => ?_)
    fun e s' hr _ _ _ => hr
  cases record with
  | none => exact ends_refreshFailure h hs none
  | some record =>
    simp only
    split
    · exact ends_reuse h hs record
    refine ends_now.mpr ?_
    have h := h.tick
    split
    · exact ends_refreshFailure h hs _
    split
    · exact ends_refreshFailure h hs _
    split
    · exact ends_refreshFailure h hs _
    split
    · exact ends_refreshFailure h hs _
    refine ends_selectOption fun user => ?_
    cases user with
    | none => exact ends_refreshFailure h hs _
    | some user =>
      simp only
      split
      · exact ends_refreshFailure h hs _
      · exact ends_otherError (raises_rotate env user record _)

end Refresh

/-! ## Durability -/

/-- The request is a login or a refresh. -/
def AccountRequest.signsIn : AccountRequest → Prop
  | .login _ _ | .refresh _ => True
  | _ => False

/-- Served from `s`, the request adds the audit event within its transaction. -/
def Records (s : State) (r : AccountRequest) (event : AuditEvent) : Prop :=
  event ∈ rowsOf AuditEvent ((r.route env).exec respond s.session).2.view ∧
    event ∉ rowsOf AuditEvent s.committed

/-- After an `UnauthorizedError`, the audit events of the refusal are committed. -/
def FailureEventsDurable (s : State) (r : AccountRequest) : Prop :=
  ∀ e, (s.serve respond (AccountRequest.serve env) r).1 = .error e → e.isA .unauthorized = true →
    ∀ event, Records env s r event → event.action ∈ FAILURE_ACTIONS →
      event ∈ rowsOf AuditEvent (s.serve respond (AccountRequest.serve env) r).2.committed

/-- A login or refresh that ends in an `UnauthorizedError` has added the audit event of it. -/
theorem exists_records {s : State} (hdrawn : ∀ a ∈ rowsOf AuditEvent s.committed, a.id < s.nextId)
    {r : AccountRequest} (hr : r.signsIn) {e : Exc}
    (he : (s.serve respond (AccountRequest.serve env) r).1 = .error e)
    (hu : e.isA .unauthorized = true) :
    ∃ event, Records env s r event ∧ event.action ∈ FAILURE_ACTIONS := by
  have hview : AuditDrawn s.session := by
    rwa [AuditDrawn, Store.view_session]
  have hroute : (r.route env).Ends respond s.session (LogsRefusal s.session) := by
    cases r with
    | login username password =>
      exact (logsRefusal_login env hview (Nat.le_refl _) username password).bind
        (fun _ _ _ e he => nomatch he) fun e s' h e' he => by cases he; exact h e rfl
    | refresh rawToken =>
      exact (logsRefusal_refresh env hview (Nat.le_refl _) rawToken).bind
        (fun _ _ _ e he => nomatch he) fun e s' h e' he => by cases he; exact h e rfl
    | _ => exact hr.elim
  have hout : ((r.route env).exec respond s.session).1 = .error e := by
    rw [serve_eq] at he
    rcases hx : (r.route env).exec respond s.session with ⟨_ | _, _⟩ <;> rw [hx] at he
    · exact he
    · cases he
  obtain ⟨event, hm, hact, hid⟩ := hroute e hout hu
  exact ⟨event, ⟨hm, fun hold => absurd (hdrawn event hold) (Nat.not_lt.mpr hid)⟩, hact⟩

/-- **The audit events of refused requests are lost.** A login or refresh that ends in an
`UnauthorizedError` has added the event of its refusal, and no event it has added is committed. -/
theorem failure_events_lost {s : State}
    (hdrawn : ∀ a ∈ rowsOf AuditEvent s.committed, a.id < s.nextId) {r : AccountRequest}
    (hr : r.signsIn) {e : Exc} (he : (s.serve respond (AccountRequest.serve env) r).1 = .error e)
    (hu : e.isA .unauthorized = true) : ¬ FailureEventsDurable env s r ∧ ∀ event,
      Records env s r event →
        event ∉ rowsOf AuditEvent (s.serve respond (AccountRequest.serve env) r).2.committed := by
  have hlost : ∀ event, Records env s r event →
      event ∉ rowsOf AuditEvent (s.serve respond (AccountRequest.serve env) r).2.committed :=
    fun event h => by rw [serve_error env he]; exact h.2
  obtain ⟨event, hrec, hact⟩ := exists_records env hdrawn hr he hu
  exact ⟨fun hdurable => hlost event hrec (hdurable e he hu event hrec hact), hlost⟩

/-- A login of a user that does not exist. -/
theorem failure_events_lost_unknown :
    ¬ FailureEventsDurable .trial State.trial (.login "ada" "pw") :=
  (failure_events_lost .trial (s := State.trial) (r := .login "ada" "pw") (fun _ h => nomatch h)
    trivial (e := UnauthorizedError GENERIC_AUTH_ERROR) rfl rfl).1

theorem failure_events_not_durable : ¬ ∀ (env : Env) (s : State) (r : AccountRequest),
    (∀ a ∈ rowsOf AuditEvent s.committed, a.id < s.nextId) → r.signsIn →
      FailureEventsDurable env s r := by
  intro h
  have hdrawn : ∀ a ∈ rowsOf AuditEvent State.trial.committed, a.id < State.trial.nextId :=
    fun _ h => nomatch h
  have he : (State.trial.serve respond (AccountRequest.serve .trial) (.login "ada" "pw")).1 =
      .error (UnauthorizedError GENERIC_AUTH_ERROR) := rfl
  obtain ⟨event, hrec, hact⟩ := exists_records .trial hdrawn (r := .login "ada" "pw") trivial he rfl
  have hrow := h .trial .trial (.login "ada" "pw") hdrawn trivial _ he rfl event hrec hact
  rw [serve_error .trial he] at hrow
  exact hrec.2 hrow

end DevOps
