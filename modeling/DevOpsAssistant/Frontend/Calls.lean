import DevOpsAssistant.Frontend.Auth
import DevOpsAssistant.Sessions.Accepted

/-!
# The calls of the handlers

Both handlers send their call, refresh once when it is answered 401, and send it again.

* `sending`, `refreshing`, `resending`: what is left of a handler before each of its calls.
* `start_handle`, `start_proxyAuthenticatedAuth`: the handlers are such clients.
* `backend_eq`, **`backend_refresh`**: how the backend answers, and what a refresh leaves.
-/

namespace DevOps

open Txn Rpc

variable (env : Env)

/-! ## Clients -/

/-- What `tryRefreshTokens` returns after the response to its call, and the cookies it has set. -/
def refreshOutcome (ck : Cookies) :
    Except FetchError UpstreamResponse → Option RawToken × Jar
  | .ok response =>
    match (if response.ok then completePair response.pair else none) with
    | some pair => (some pair.accessToken, ⟨ck, .set pair.accessToken pair.refreshToken⟩)
    | none => (none, ⟨ck, .clear⟩)
  | .error _ => (none, ⟨ck, .clear⟩)

/-- A handler before the call it sends again, with the access token of the refresh. -/
def resending (call : Option RawToken → BackendCall) (access : RawToken) (jar : Jar) :
    HandlerCall ℕ :=
  .send (call (some access)) fun r => .done (r.map UpstreamResponse.status, jar)

/-- A handler before its refresh. -/
def refreshing (call : Option RawToken → BackendCall) (ck : Cookies) (refreshToken : RawToken) :
    HandlerCall ℕ :=
  .send (refreshCall env refreshToken) fun r =>
    match refreshOutcome ck r with
    | (none, jar) => .done (.ok 401, { jar with pending := .clear })
    | (some access, jar) => resending call access jar

/-- A handler before its first call; `retry` when it refreshes on a 401. -/
def sending (call : Option RawToken → BackendCall) (ck : Cookies) (refreshToken : RawToken)
    (retry : Bool) : HandlerCall ℕ :=
  .send (call ck.access) fun r =>
    match r with
    | .ok response =>
      if response.status = 401 ∧ retry then refreshing env call ck refreshToken
      else .done (.ok response.status, ⟨ck, .keep⟩)
    | .error e => .done (.error e, ⟨ck, .keep⟩)

variable {ck : Cookies} {payload : TokenPayload}

theorem run_tryRefreshTokens {α : Type} (g : Option RawToken → Handler α)
    (hr : ck.refresh = some (.jwt payload)) :
    StateT.run (ExceptT.run (tryRefreshTokens env >>= g)) ⟨ck, .keep⟩ =
      .send (refreshCall env (.jwt payload)) fun r =>
        StateT.run (ExceptT.run (g (refreshOutcome ck r).1)) (refreshOutcome ck r).2 := by
  obtain ⟨a, _⟩ := ck
  cases hr
  change Call.send _ _ = _
  refine congrArg (Call.send _) (funext fun r => ?_)
  cases r with
  | error e => rfl
  | ok response =>
    simp only [refreshOutcome, Call.bind, ExceptT.bindCont]
    cases hok : response.ok with
    | false => rfl
    | true =>
      simp only [Bool.not_true, Bool.false_eq_true, if_false, if_true]
      cases completePair response.pair <;> rfl

/-- The BFF. -/
theorem start_handle (request : BrowserRequest) (hr : ck.refresh = some (.jwt payload)) :
    (handle env request).start ck = sending env (fun t => request.route (truthy t)) ck
      (.jwt payload) (!request.alreadyRetried) := by
  change Call.send _ _ = _
  refine congrArg (Call.send _) (funext fun r => ?_)
  cases r with
  | error e => rfl
  | ok response =>
    change StateT.run (ExceptT.run (if response.status = 401 ∧ !request.alreadyRetried then _
      else _ : Handler ℕ)) _ = _
    simp only
    split
    · refine (run_tryRefreshTokens env _ hr).trans (congrArg (Call.send _) (funext fun r => ?_))
      rcases refreshOutcome ck r with ⟨_ | access, jar⟩
      · rfl
      · refine congrArg (Call.send _) (funext fun r => ?_)
        cases r <;> rfl
    · rfl

/-- The auth proxy, with the refresh header. -/
theorem start_proxyAuthenticatedAuth (route : Option RawToken → Option RawToken → BackendCall)
    (hr : ck.refresh = some (.jwt payload)) :
    (proxyAuthenticatedAuth env route true).start ck =
      sending env (fun t => route (truthy t) (some (.jwt payload))) ck (.jwt payload) true := by
  obtain ⟨a, _⟩ := ck
  cases hr
  change Call.send _ _ = _
  refine congrArg (Call.send _) (funext fun r => ?_)
  cases r with
  | error e => rfl
  | ok response =>
    change StateT.run (ExceptT.run (if response.status = 401 then _ else _ : Handler ℕ)) _ = _
    simp only [and_true]
    split
    · refine (run_tryRefreshTokens env _ rfl).trans (congrArg (Call.send _) (funext fun r => ?_))
      rcases refreshOutcome _ r with ⟨_ | access, jar⟩
      · rfl
      · refine congrArg (Call.send _) (funext fun r => ?_)
        cases r <;> rfl
    · rfl

/-! ## How the backend answers -/

theorem Exc.statusCode_ge (e : Exc) : 400 ≤ e.statusCode := by
  cases e with
  | app e =>
    change 400 ≤ e.cls.statusCode
    cases e.cls <;> decide
  | _ => exact Nat.le_of_ble_eq_true rfl

variable {env} {s : State}

/-- The call keeps to the protocol of the refresh tokens. -/
def KeepsTokens (call : BackendCall) : Prop := ∀ s : State, Protocol.Serial tokenProtocol s →
  Protocol.Serial tokenProtocol (backend call s).2 ∧
    Evolves s.committed (backend call s).2.committed

variable (env) in
/-- **The routes of accounts** keep to the protocol. -/
theorem keepsTokens_route (r : AccountRequest) : KeepsTokens (r.route env) := fun s h => by
  obtain ⟨hserial, hev, -⟩ := h.serve respond (keeps_serve env) r
  exact ⟨hserial, hev⟩

theorem keepsTokens_throw (e : Exc) : KeepsTokens (throw e) := fun s h =>
  ⟨⟨h.inv, h.named⟩, .refl s.committed⟩

theorem time_le_backend (call : BackendCall) (s : State) :
    s.world.time ≤ (backend call s).2.world.time :=
  time_le_exec (getDb call) s.session

/-- The access token does not authenticate a request, at the time `t` or later. -/
def Stale (env : Env) (t : Time) (access : Option RawToken) : Prop :=
  ∀ token ∈ access, ∀ t', t ≤ t' → tokenClaims env t' .access token = none

theorem Stale.mono {t t' : Time} {access : Option RawToken} (h : Stale env t access) (ht : t ≤ t') :
    Stale env t' access := fun token hm u hu => h token hm u (Nat.le_trans ht hu)

theorem Stale.truthy {t : Time} {access : Option RawToken} (h : Stale env t access) :
    Stale env t (truthy access) := by
  unfold DevOps.truthy
  split
  · exact fun _ ht => nomatch ht
  · exact h

/-- **A request that is not authenticated** is answered 401 and changes nothing. -/
theorem backend_stale (body : User → Db AccountResponse) {access : Option RawToken}
    (h : Stale env s.world.time access) :
    (backend (authenticated env body access) s).1 = .ok ⟨401, none⟩ ∧
      (backend (authenticated env body access) s).2.committed = s.committed ∧
      (backend (authenticated env body access) s).2.nextId = s.nextId := by
  cases access with
  | none => exact ⟨rfl, rfl, rfl⟩
  | some token =>
    have hrun : (getDb (authenticated env body (some token))).Ends respond s.session fun r s' =>
        (∃ e, r = .error e ∧ e.statusCode = 401) ∧ s'.committed = s.committed ∧
          s'.nextId = s.nextId := by
      refine Prog.ends_unitOfWork.mpr (ends_getCurrentUser_refused (fun user ⟨payload, hp, _⟩ => ?_)
        fun e he => ⟨⟨e, rfl, he⟩, rfl, rfl⟩)
      cases hp.symm.trans (h token rfl _ (World.time_le_tick _))
    obtain ⟨⟨e, hr, he⟩, hc, hn⟩ := hrun
    refine ⟨?_, hc, hn⟩
    change Except.ok (UpstreamResponse.ofOutcome ((getDb _).exec respond s.session).1) = _
    rw [hr, UpstreamResponse.ofOutcome, he]

/-- A refresh the backend refuses. -/
theorem refreshOutcome_refused (h : ¬ Accepted env s (.jwt payload)) :
    refreshOutcome ck (backend (refreshCall env (.jwt payload)) s).1 = (none, ⟨ck, .clear⟩) := by
  change refreshOutcome ck (.ok (.ofOutcome
    (s.serve respond (AccountRequest.serve env) (.refresh (.jwt payload))).1)) = _
  rcases hx : (s.serve respond (AccountRequest.serve env) (.refresh (.jwt payload))).1 with e | a
  · have hok : UpstreamResponse.ok ⟨e.statusCode, none⟩ = false := by
      have := e.statusCode_ge
      simp only [UpstreamResponse.ok, Bool.and_eq_false_iff, decide_eq_false_iff_not]
      omega
    simp [refreshOutcome, UpstreamResponse.ofOutcome, hok]
  · exact absurd ⟨a, hx⟩ h

variable (ck) in
/-- **A refresh the backend accepts** sets the cookies to the tokens of the exchange. -/
theorem refreshOutcome_accepted {record : RefreshToken} {user : User}
    (h : Protocol.Serial tokenProtocol s) (hu : Usable env s.committed payload record user)
    (ht : Unexpired env s.world payload record) : ∃ p payload' new,
      refreshOutcome ck (backend (refreshCall env (.jwt payload)) s).1 =
        (some p.accessToken, ⟨ck, .set p.accessToken p.refreshToken⟩) ∧
      (s.serve respond (AccountRequest.serve env) (.refresh (.jwt payload))).1 =
        .ok (.tokenPair p) ∧
      Exchange env s (backend (refreshCall env (.jwt payload)) s).2 record user p payload' new := by
  obtain ⟨p, payload', new, hok, hex⟩ := refresh_usable h hu ht
  obtain ⟨j, exp, haccess⟩ := hex.access
  refine ⟨p, payload', new, ?_, hok, hex⟩
  change refreshOutcome ck (.ok (.ofOutcome
    (s.serve respond (AccountRequest.serve env) (.refresh (.jwt payload))).1)) = _
  rw [hok]
  have hcomplete : completePair (some ⟨p.accessToken, p.refreshToken⟩) =
      some ⟨p.accessToken, p.refreshToken⟩ := by
    simp [completePair, haccess, hex.raw, truthy]
  simp [refreshOutcome, UpstreamResponse.ofOutcome, AccountResponse.pair?, UpstreamResponse.ok,
    hcomplete]

end DevOps
