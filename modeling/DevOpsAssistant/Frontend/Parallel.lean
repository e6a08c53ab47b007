import DevOpsAssistant.Frontend.Calls
import DevOpsAssistant.Sessions.Sweep

/-!
# Parallel requests of one browser

Requests that hold the same expired access token and the same refresh cookie refresh independently
of each other, and the backend exchanges the cookie once.

* `ApiRequest`: a request that needs authentication.
* `Waiting`, `Lost`, `Won`: how far a request has come; `Parallel`: the invariant of a run.
* **`parallel_of_reach`**: one request at most wins, and all others that refresh lose.
* **`one_response_clears`**: what two responses do to the cookies.
-/

namespace DevOps

open Txn Rpc

/-- A request of the browser that needs authentication. -/
structure ApiRequest (env : Env) where
  alreadyRetried : Bool
  body : User → Db AccountResponse
  keeps : ∀ access, KeepsTokens (authenticated env body access)

variable {env : Env}

/-- The request as the BFF gets it. -/
def ApiRequest.toBrowserRequest (r : ApiRequest env) : BrowserRequest :=
  ⟨r.alreadyRetried, authenticated env r.body⟩

/-- The call the BFF makes for the request with an access token. -/
def ApiRequest.call (r : ApiRequest env) (access : Option RawToken) : BackendCall :=
  authenticated env r.body (truthy access)

/-- The BFF serving the request for a browser with the cookies `ck`. -/
def ApiRequest.start (r : ApiRequest env) (ck : Cookies) : HandlerCall ℕ :=
  (handle env r.toBrowserRequest).start ck

/-- The states of the BFF and the backend. -/
abbrev BffNet := Net State BackendCall (Except FetchError UpstreamResponse)
  (Except FetchError ℕ × Jar)

variable {ck : Cookies} {payload : TokenPayload}

/-! ## How far a request has come -/

/-- The request has not refreshed, and the cookie has not been refused to it. -/
inductive Waiting (r : ApiRequest env) (ck : Cookies) (payload : TokenPayload) :
    HandlerCall ℕ → Prop where
  | sending : Waiting r ck payload (sending env r.call ck (.jwt payload) (!r.alreadyRetried))
  | refreshing (h : r.alreadyRetried = false) :
    Waiting r ck payload (refreshing env r.call ck (.jwt payload))
  | passed (h : r.alreadyRetried = true) (status : ℕ) :
    Waiting r ck payload (.done (.ok status, ⟨ck, .keep⟩))

/-- The cookie has been refused to the request. -/
inductive Lost (r : ApiRequest env) (ck : Cookies) : HandlerCall ℕ → Prop where
  | cleared (h : r.alreadyRetried = false) : Lost r ck (.done (.ok 401, ⟨ck, .clear⟩))

/-- The cookie has been exchanged for the tokens `a` and `b` by the request. -/
inductive Won (r : ApiRequest env) (ck : Cookies) (a b : RawToken) : HandlerCall ℕ → Prop where
  | resending (h : r.alreadyRetried = false) : Won r ck a b (resending r.call a ⟨ck, .set a b⟩)
  | finished (h : r.alreadyRetried = false) (res : Except FetchError ℕ) :
    Won r ck a b (.done (res, ⟨ck, .set a b⟩))

/-- The token with the claims `payload` has been exchanged for `b`. -/
def Superseded (payload : TokenPayload) (b : RawToken) (c : Database) : Prop :=
  ∃ old new drawn, old.jti = payload.jti ∧ Exchanged old new b drawn c

theorem Superseded.evolves {b : RawToken} {c c' : Database} (he : Evolves c c')
    (h : Superseded payload b c) : Superseded payload b c' := by
  obtain ⟨old, new, drawn, hj, hex⟩ := h
  obtain ⟨old', new', hg, hex'⟩ := hex.evolves he
  exact ⟨old', new', drawn, hg.jti.trans hj, hex'⟩

/-- The refresh token of the cookie is not accepted any more. -/
theorem Superseded.not_accepted {b : RawToken} {s : State}
    (hs : Protocol.Serial tokenProtocol s) (h : Superseded payload b s.committed) :
    ¬ Accepted env s (.jwt payload) := by
  obtain ⟨old, new, drawn, hj, hex⟩ := h
  refine not_accepted_of_spent hs hex.mem_old hj fun hlive => ?_
  have := hex.used
  simp [hlive.1] at this

theorem superseded_of_accepted {s : State} (hs : Protocol.Serial tokenProtocol s)
    {p : TokenPairResponse}
    (h : (s.serve respond (AccountRequest.serve env) (.refresh (.jwt payload))).1 =
      .ok (.tokenPair p)) :
    Superseded payload p.refreshToken (backend (refreshCall env (.jwt payload)) s).2.committed := by
  obtain ⟨-, -, hres⟩ := hs.serve respond (keeps_serve env) (.refresh (.jwt payload))
  obtain ⟨ns, -, payload', p', old, new, hraw, hp, hj, hex⟩ := hres _ h
  cases hraw
  cases hp
  exact ⟨old, new, ns, hj, hex⟩

/-! ## The invariant -/

/-- Every request is in a state `P` allows. -/
def Each (reqs : List (ApiRequest env)) (net : BffNet)
    (P : ℕ → ApiRequest env → HandlerCall ℕ → Prop) : Prop :=
  net.clients.length = reqs.length ∧
    ∀ n r c, reqs[n]? = some r → net.clients[n]? = some c → P n r c

/-- The invariant of a run: the cookie is still usable and every request waits, or one request has
won and the others wait or have lost. -/
structure Parallel (reqs : List (ApiRequest env)) (ck : Cookies) (payload : TokenPayload)
    (record : RefreshToken) (user : User) (t : Time) (net : BffNet) : Prop where
  serial : Protocol.Serial tokenProtocol net.server
  time : t ≤ net.server.world.time
  state : (Usable env net.server.committed payload record user ∧
      Each reqs net fun _ r c => Waiting r ck payload c) ∨
    ∃ w a b, w < reqs.length ∧ Superseded payload b net.server.committed ∧
      Each reqs net fun n r c => if n = w then Won r ck a b c else Waiting r ck payload c ∨ Lost r ck c

variable {reqs : List (ApiRequest env)} {net net' : BffNet} {record : RefreshToken} {user : User}
  {t : Time}

/-- One client moves on; the others keep their states. -/
theorem Each.set {P P' : ℕ → ApiRequest env → HandlerCall ℕ → Prop} (h : Each reqs net P)
    {n : ℕ} {c : HandlerCall ℕ} (hc : net'.clients = net.clients.set n c)
    (hothers : ∀ m r d, m ≠ n → P m r d → P' m r d) (hn : ∀ r, reqs[n]? = some r → P' n r c) :
    Each reqs net' P' := by
  refine ⟨by rw [hc, List.length_set, h.1], fun m r d hr hd => ?_⟩
  rw [hc] at hd
  by_cases hmn : m = n
  · subst hmn
    have hlt := (List.getElem?_eq_some_iff.mp hd).1
    rw [List.length_set] at hlt
    rw [List.getElem?_set_self hlt] at hd
    cases hd
    exact hn r hr
  · rw [List.getElem?_set_ne (Ne.symm hmn)] at hd
    exact hothers m r d hmn (h.2 m r d hr hd)

/-- The request of a client. -/
theorem Each.get {P : ℕ → ApiRequest env → HandlerCall ℕ → Prop} (h : Each reqs net P) {n : ℕ}
    {c : HandlerCall ℕ} (hc : net.clients[n]? = some c) : ∃ r, reqs[n]? = some r ∧ P n r c := by
  have hlt : n < reqs.length := h.1 ▸ (List.getElem?_eq_some_iff.mp hc).1
  exact ⟨reqs[n], List.getElem?_eq_getElem hlt, h.2 n _ c (List.getElem?_eq_getElem hlt) hc⟩

/-- A request that is sent for the first time is answered 401. -/
theorem waiting_of_sending {r : ApiRequest env} {s : State} (h : Stale env s.world.time ck.access)
    {q : BackendCall} {k : Except FetchError UpstreamResponse → HandlerCall ℕ}
    (hk : sending env r.call ck (.jwt payload) (!r.alreadyRetried) = .send q k) :
    Waiting r ck payload (k (backend q s).1) ∧ (backend q s).2.committed = s.committed ∧
      (backend q s).2.nextId = s.nextId := by
  cases hk
  obtain ⟨hanswer, hc, hn⟩ := backend_stale r.body h.truthy
  refine ⟨?_, hc, hn⟩
  have hcall : (backend (r.call ck.access) s).1 = .ok ⟨401, none⟩ := hanswer
  rw [hcall]
  cases hretried : r.alreadyRetried with
  | true => exact .passed hretried 401
  | false => exact .refreshing hretried

theorem serial_of_eq {s s' : State} (h : Protocol.Serial tokenProtocol s)
    (hc : s'.committed = s.committed) (hn : s'.nextId = s.nextId) :
    Protocol.Serial tokenProtocol s' := by
  refine ⟨hc ▸ h.inv, fun r hr n hm => ?_⟩
  rw [hn]
  exact h.named r (hc ▸ hr) n hm

/-- **One step** of a run keeps the invariant. -/
theorem Parallel.step (h : Parallel reqs ck payload record user t net)
    (hstale : Stale env t ck.access) (hlive : Unexpired env net.server.world payload record)
    (hstep : Net.Step backend net net') : Parallel reqs ck payload record user t net' := by
  obtain ⟨n, q, k, hn, hserver, hclients⟩ := hstep.elim
  have htime : t ≤ net'.server.world.time := by
    rw [hserver]
    exact Nat.le_trans h.time (time_le_backend q net.server)
  have hstale' := hstale.mono h.time
  rcases h.state with ⟨hu, heach⟩ | ⟨w, a, b, hw, hsup, heach⟩
  · obtain ⟨r, hr, hwait⟩ := heach.get hn
    generalize hc : Call.send q k = c at hwait
    cases hwait with
    | sending =>
      obtain ⟨hwait', hsame, hid⟩ := waiting_of_sending (s := net.server) hstale' hc.symm
      rw [← hserver] at hsame hid
      refine ⟨serial_of_eq h.serial hsame hid, htime, .inl ⟨hsame ▸ hu, ?_⟩⟩
      refine heach.set hclients (fun _ _ _ _ h => h) fun r' hr' => ?_
      cases hr.symm.trans hr'
      exact hwait'
    | refreshing hretried =>
      cases hc
      obtain ⟨p, -, -, hout, hok, -⟩ := refreshOutcome_accepted ck h.serial hu hlive
      have hserial := (keepsTokens_route env (.refresh (.jwt payload)) _ h.serial).1
      refine ⟨hserver ▸ hserial, htime, .inr ⟨n, p.accessToken, p.refreshToken,
        (List.getElem?_eq_some_iff.mp hr).1, hserver ▸ superseded_of_accepted h.serial hok, ?_⟩⟩
      refine heach.set hclients (fun m r' d hm hd => ?_) fun r' hr' => ?_
      · rw [if_neg hm]
        exact .inl hd
      · cases hr.symm.trans hr'
        rw [if_pos rfl]
        simp only [hout]
        exact .resending hretried
    | passed => cases hc
  · obtain ⟨r, hr, hphase⟩ := heach.get hn
    split at hphase
    · next hnw =>
      generalize hc : Call.send q k = c at hphase
      cases hphase with
      | resending hretried =>
        cases hc
        obtain ⟨hserial, hev⟩ := r.keeps (truthy (some a)) net.server h.serial
        refine ⟨hserver ▸ hserial, htime, .inr ⟨w, a, b, hw, hserver ▸ hsup.evolves hev, ?_⟩⟩
        refine heach.set hclients (fun _ _ _ _ h => h) fun r' hr' => ?_
        cases hr.symm.trans hr'
        rw [if_pos hnw]
        exact .finished hretried _
      | finished => cases hc
    · next hnw =>
      rcases hphase with hwait | hlost
      · generalize hc : Call.send q k = c at hwait
        cases hwait with
        | sending =>
          obtain ⟨hwait', hsame, hid⟩ := waiting_of_sending (s := net.server) hstale' hc.symm
          rw [← hserver] at hsame hid
          refine ⟨serial_of_eq h.serial hsame hid, htime, .inr ⟨w, a, b, hw, hsame ▸ hsup, ?_⟩⟩
          refine heach.set hclients (fun _ _ _ _ h => h) fun r' hr' => ?_
          cases hr.symm.trans hr'
          rw [if_neg hnw]
          exact .inl hwait'
        | refreshing hretried =>
          cases hc
          obtain ⟨hserial, hev⟩ := keepsTokens_route env (.refresh (.jwt payload)) _ h.serial
          refine ⟨hserver ▸ hserial, htime, .inr ⟨w, a, b, hw, hserver ▸ hsup.evolves hev, ?_⟩⟩
          refine heach.set hclients (fun _ _ _ _ h => h) fun r' hr' => ?_
          cases hr.symm.trans hr'
          rw [if_neg hnw]
          simp only [refreshOutcome_refused (hsup.not_accepted h.serial)]
          exact .inr (.cleared hretried)
        | passed => cases hc
      · generalize hc : Call.send q k = c at hlost
        cases hlost
        cases hc

/-- The state in which all requests start. -/
def startNet (reqs : List (ApiRequest env)) (ck : Cookies) (s : State) : BffNet :=
  ⟨s, reqs.map fun r => r.start ck⟩

/-- **A run** keeps the invariant, while the refresh token does not expire. -/
theorem parallel_of_reach {s : State} (hs : Protocol.Serial tokenProtocol s)
    (hu : Usable env s.committed payload record user) (hr : ck.refresh = some (.jwt payload))
    (hstale : Stale env s.world.time ck.access)
    (hrun : Net.ReachWith backend (fun s => Unexpired env s.world payload record)
      (startNet reqs ck s) net) : Parallel reqs ck payload record user s.world.time net := by
  induction hrun with
  | refl =>
    refine ⟨hs, Nat.le_refl _, .inl ⟨hu, List.length_map _, fun n r c hn hc => ?_⟩⟩
    rw [startNet, List.getElem?_map, hn] at hc
    cases hc
    have hstart : r.start ck = _ := start_handle env r.toBrowserRequest hr
    change Waiting r ck payload (r.start ck)
    rw [hstart]
    exact .sending
  | tail _ hstep ih => exact ih.step hstale hstep.2 hstep.1

/-- **One of two responses clears the cookies.** Two requests of one browser hold the same stale
access token and the same usable refresh token, and run in any order. If neither carries the retry
header, one response clears the cookies and the other sets the successor of the refresh token, so
that the browser ends up with the successor if and only if the clearing response is applied first. If
one of them carries the header, no response clears the cookies. -/
theorem one_response_clears {s₀ : State} {c : AccountConfig} (h₀ : s₀.committed = .empty)
    (hr : Reach respond (AccountRequest.serve env) s₀.open c)
    (hu : Usable env c.committed payload record user) (hck : ck.refresh = some (.jwt payload))
    (hstale : Stale env c.world.time ck.access) (r₀ r₁ : ApiRequest env)
    (hrun : Net.ReachWith backend (fun s => Unexpired env s.world payload record)
      (startNet [r₀, r₁] ck c.toStore) net) {x₀ x₁ : Except FetchError ℕ} {j₀ j₁ : Jar}
    (hend : net.clients = [.done (x₀, j₀), .done (x₁, j₁)]) :
    (r₀.alreadyRetried = false → r₁.alreadyRetried = false →
      ∃ a b, Superseded payload b net.server.committed ∧
        (j₀.pending = .clear ∧ j₁.pending = .set a b ∨
          j₀.pending = .set a b ∧ j₁.pending = .clear) ∧
        ∀ p q, p = j₀.pending ∧ q = j₁.pending ∨ p = j₁.pending ∧ q = j₀.pending →
          ((ck.apply p).apply q).refresh = if p = .clear then some b else none) ∧
    (r₀.alreadyRetried = true ∨ r₁.alreadyRetried = true →
      j₀.pending ≠ .clear ∧ j₁.pending ≠ .clear) := by
  have h := parallel_of_reach (tokensSound_of_reach h₀ hr).serial hu hck hstale hrun
  rcases h.state with ⟨-, heach⟩ | ⟨w, a, b, hw, hsup, heach⟩
  · have h₀ : Waiting r₀ ck payload _ := heach.2 0 r₀ (.done (x₀, j₀)) rfl (by rw [hend]; rfl)
    have h₁ : Waiting r₁ ck payload _ := heach.2 1 r₁ (.done (x₁, j₁)) rfl (by rw [hend]; rfl)
    cases h₀ with
    | passed hretried =>
      cases h₁ with
      | passed => exact ⟨fun h => by simp [hretried] at h, fun _ => ⟨nofun, nofun⟩⟩
  · have h₀ := heach.2 0 r₀ (.done (x₀, j₀)) rfl (by rw [hend]; rfl)
    have h₁ := heach.2 1 r₁ (.done (x₁, j₁)) rfl (by rw [hend]; rfl)
    have hwin : ∀ {r : ApiRequest env} {x : Except FetchError ℕ} {j : Jar},
        Won r ck a b (.done (x, j)) → j.pending = .set a b ∧ r.alreadyRetried = false := by
      intro r x j h
      cases h with
      | finished h => exact ⟨rfl, h⟩
    have hlose : ∀ {r : ApiRequest env} {x : Except FetchError ℕ} {j : Jar},
        Waiting r ck payload (.done (x, j)) ∨ Lost r ck (.done (x, j)) →
          (r.alreadyRetried = true ∧ j.pending = .keep) ∨
            (r.alreadyRetried = false ∧ j.pending = .clear) := by
      intro r x j h
      rcases h with h | h
      · cases h with
        | passed h => exact .inl ⟨h, rfl⟩
      · cases h with
        | cleared h => exact .inr ⟨h, rfl⟩
    have hcases : w = 0 ∨ w = 1 := by
      change w < 2 at hw
      omega
    rcases hcases with rfl | rfl
    · rw [if_pos rfl] at h₀
      rw [if_neg (by decide)] at h₁
      obtain ⟨hset, hfirst⟩ := hwin h₀
      rcases hlose h₁ with ⟨hretried, hkeep⟩ | ⟨hsecond, hclear⟩
      · exact ⟨fun _ h => by simp [hretried] at h, fun _ => by simp [hset, hkeep]⟩
      · refine ⟨fun _ _ => ⟨a, b, hsup, .inr ⟨hset, hclear⟩, ?_⟩, fun h => ?_⟩
        · rintro p q (⟨rfl, rfl⟩ | ⟨rfl, rfl⟩) <;> simp [hset, hclear, Cookies.apply]
        · simp [hfirst, hsecond] at h
    · rw [if_neg (by decide)] at h₀
      rw [if_pos rfl] at h₁
      obtain ⟨hset, hsecond⟩ := hwin h₁
      rcases hlose h₀ with ⟨hretried, hkeep⟩ | ⟨hfirst, hclear⟩
      · exact ⟨fun h => by simp [hretried] at h, fun _ => by simp [hset, hkeep]⟩
      · refine ⟨fun _ _ => ⟨a, b, hsup, .inl ⟨hclear, hset⟩, ?_⟩, fun h => ?_⟩
        · rintro p q (⟨rfl, rfl⟩ | ⟨rfl, rfl⟩) <;> simp [hset, hclear, Cookies.apply]
        · simp [hfirst, hsecond] at h

/-! ## A run -/

theorem stale_of_exp {p : TokenPayload} (h : p.exp + env.settings.jwtClockSkewSeconds < Time.seconds t) :
    Stale env t (some (.jwt p)) := by
  rintro token ⟨⟩ t' ht'
  refine if_neg fun hclaims => ?_
  exact absurd (Nat.lt_of_lt_of_le h (Nat.div_le_div_right ht')) (Nat.not_lt.mpr hclaims.1)

/-- The list of sessions, as a request of the browser. -/
def listRequest (env : Env) : ApiRequest env where
  alreadyRetried := false
  body user := do return .sessions (← AuthService.listSessions env user none)
  keeps
    | none => keepsTokens_throw _
    | some access => keepsTokens_route env (.listSessions access none)

/-- Surroundings whose clock outlasts the first access token while it is issued. -/
def World.late : World :=
  { World.trial 0 with ticks := fun n => if n = 4 then seconds 4000 else 1 }

/-- A new deployment in such surroundings. -/
def State.late : State := ⟨.empty, 0, World.late⟩

/-- The first account has logged in, and its access token has expired. -/
def lateConfig : AccountConfig :=
  ((State.late.open : AccountConfig).run respond (AccountRequest.serve .trial) loggedInMoves).getD
    State.late.open

theorem reach_lateConfig :
    Reach respond (AccountRequest.serve .trial) State.late.open lateConfig :=
  .of_run respond _ loggedInMoves rfl

/-- The cookies of the first account. -/
def trialCookies : Cookies := ⟨some trialAccess, some (trialToken 3 1209600)⟩

theorem usable_late : ∃ record user,
    Usable .trial lateConfig.committed ⟨some 1, 3, .refresh, 1209600, some 2⟩ record user ∧
      Lasts (seconds 1209600) ⟨some 1, 3, .refresh, 1209600, some 2⟩ record :=
  ⟨_, _, ⟨rfl, List.mem_singleton.mpr rfl, rfl, ⟨rfl, rfl⟩, rfl, rfl, List.mem_singleton.mpr rfl,
    rfl, rfl⟩, by decide, by decide⟩

theorem stale_late : Stale .trial lateConfig.world.time trialCookies.access :=
  stale_of_exp (by decide)

/-- Both requests have ended, the second with the cookies cleared. -/
def bothEnded (clients : List (HandlerCall ℕ)) : Bool :=
  match clients with
  | [.done _, .done (_, j₁)] => decide (j₁.pending = .clear)
  | _ => false

/-- Both requests are answered 401, refresh one after the other, and end. -/
theorem exists_parallel_run : ∃ net : BffNet,
    Net.ReachWith backend (fun s => s.world.tick.tick.time < seconds 1209600)
      (startNet [listRequest .trial, listRequest .trial] trialCookies lateConfig.toStore) net ∧
    ∃ x₀ x₁ j₀ j₁, net.clients = [.done (x₀, j₀), .done (x₁, j₁)] ∧ j₁.pending = .clear := by
  have hrun : ((startNet [listRequest .trial, listRequest .trial] trialCookies
      lateConfig.toStore).turns backend (fun s => decide (s.world.tick.tick.time < seconds 1209600))
      [0, 1, 0, 1, 0]).any (fun net => bothEnded net.clients) = true := by
    decide
  obtain ⟨net, hturns, hend⟩ := (Option.any_eq_true _ _).mp hrun
  refine ⟨net, .of_turns (fun _ h => of_decide_eq_true h) _ hturns, ?_⟩
  unfold bothEnded at hend
  split at hend
  · next x₀ x₁ j₁ hclients =>
    exact ⟨x₀.1, x₁, x₀.2, j₁, hclients, of_decide_eq_true hend⟩
  · cases hend

/-- The browser session does not survive parallel expiry: one of two responses clears the cookies. -/
theorem parallel_expiry_clears : ¬ ∀ (env : Env) (s₀ : State) (c : AccountConfig) (ck : Cookies)
    (payload : TokenPayload) (record : RefreshToken) (user : User) (r₀ r₁ : ApiRequest env)
    (net : BffNet) (x₀ x₁ : Except FetchError ℕ) (j₀ j₁ : Jar), s₀.committed = .empty →
      Reach respond (AccountRequest.serve env) s₀.open c →
      Usable env c.committed payload record user → ck.refresh = some (.jwt payload) →
      Stale env c.world.time ck.access →
      Net.ReachWith backend (fun s => Unexpired env s.world payload record)
        (startNet [r₀, r₁] ck c.toStore) net →
      net.clients = [.done (x₀, j₀), .done (x₁, j₁)] →
      j₀.pending ≠ .clear ∧ j₁.pending ≠ .clear := by
  intro h
  obtain ⟨record, user, hu, hlasts⟩ := usable_late
  obtain ⟨net, hrun, x₀, x₁, j₀, j₁, hend, hclear⟩ := exists_parallel_run
  refine (h .trial State.late lateConfig trialCookies _ record user _ _ net x₀ x₁ j₀ j₁ rfl
    reach_lateConfig hu rfl stale_late (hrun.mono fun _ hw => hlasts.unexpired hw) hend).2 hclear

theorem one_response_clears_trial : ∃ (net : BffNet) (a b : RawToken) (j₀ j₁ : Jar),
    (j₀.pending = .clear ∧ j₁.pending = .set a b ∨ j₀.pending = .set a b ∧ j₁.pending = .clear) ∧
      Superseded ⟨some 1, 3, .refresh, 1209600, some 2⟩ b net.server.committed := by
  obtain ⟨record, user, hu, hlasts⟩ := usable_late
  obtain ⟨net, hrun, x₀, x₁, j₀, j₁, hend, -⟩ := exists_parallel_run
  obtain ⟨h, -⟩ := one_response_clears (rfl : State.late.committed = .empty) reach_lateConfig hu
    (rfl : trialCookies.refresh = _)
    stale_late (listRequest .trial) (listRequest .trial)
      (hrun.mono fun _ hw => hlasts.unexpired hw) hend
  obtain ⟨a, b, hsup, hset, -⟩ := h rfl rfl
  exact ⟨net, a, b, j₀, j₁, hset, hsup⟩

end DevOps
