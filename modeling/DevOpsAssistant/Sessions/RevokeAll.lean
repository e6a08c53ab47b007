import DevOpsAssistant.Sessions.Rotation

/-!
# Programs that revoke all sessions of a user

Logout from all sessions, a password reset and a confirmed change of address send one `UPDATE` that
revokes the unrevoked tokens of the user, and commit after it.

* `ofUserUnrevoked`, `revokeEffect`: the statement of `revoke_all_for_user`.
* `ThenRevokes`: a program that sends it before it returns; **`thenRevokes_route`**.
* `Before`, `Sweeping`, `After`: how far a session has come; **`phase_of_reach`**.
-/

namespace DevOps

open Txn AuthService ProfileService

/-! ## The statement -/

/-- The condition of the `UPDATE`: an unrevoked token of the user `u`. -/
def ofUserUnrevoked (u : UUID) (r : Row) : Bool :=
  (ofRow r : Option RefreshToken).any fun t => decide (t.userId = u) && t.revokedAt.isNone

/-- What the `UPDATE` does to a row. -/
def revokeEffect (t : Time) (reason : String) : (r : Row) → Effect r :=
  updateEffect (RefreshTokenRepository.revoked t reason) fun _ => rfl

theorem ofUserUnrevoked_token {u : UUID} {t : RefreshToken} :
    ofUserUnrevoked u (.refreshToken t) = true ↔ t.userId = u ∧ t.revokedAt = none := by
  simp [ofUserUnrevoked, ofRow]

theorem ofUserUnrevoked_row {u : UUID} {r : Row} (h : ofUserUnrevoked u r = true) :
    ∃ t, r = .refreshToken t ∧ t.userId = u ∧ t.revokedAt = none := by
  obtain ⟨-, t, rfl, -⟩ := table_of_ofRow_any h
  exact ⟨t, rfl, ofUserUnrevoked_token.mp h⟩

theorem revokeEffect_token (t : Time) (reason : String) (r : RefreshToken) :
    (revokeEffect t reason (.refreshToken r)).log
      = [.store (.refreshToken (RefreshTokenRepository.revoked t reason r))] := rfl

/-- The statement writes refresh tokens. -/
theorem not_frame_revokeAll (u : UUID) (t : Time) (reason : String) :
    ¬ Writes frameRules (.modify (ofUserUnrevoked u) (revokeEffect t reason)) := by
  intro h
  have := h (.refreshToken ⟨0, u, 0, "", 0, 0, 0, none, none, none, none⟩)
    (ofUserUnrevoked_token.mpr ⟨rfl, rfl⟩)
  rcases this with h | h
  · exact h rfl
  · exact h

/-! ## Programs -/

/-- Before it returns, the program sends the `UPDATE`; all its other statements write no refresh
token. -/
def ThenRevokes {α : Type} : Db α → Prop
  | .ret _ => False
  | .raise _ => True
  | .select p k => ∀ rs, (∀ r ∈ rs, p r = true) → ThenRevokes (k rs)
  | .modify p f k =>
    ((∃ u t reason, p = ofUserUnrevoked u ∧ f = revokeEffect t reason) ∧
      ∀ rs, (k rs).Only (Writes frameRules) fun _ => True) ∨
    (Writes frameRules (.modify p f) ∧ ∀ rs, (∀ r ∈ rs, p r = true) → ThenRevokes (k rs))
  | .insert _ r k => frameRules.insert r ∧ ∀ b, ThenRevokes (k b)
  | .fresh k => ∀ n, ThenRevokes (k n)
  | .ask _ k => ∀ a, ThenRevokes (k a)
  | .commit _ | .rollback _ => False

section ThenRevokes

variable {α β : Type} {p : Db α} {g : α → Db β} {P : α → Prop}

theorem thenRevokes_bind_frame (hp : p.Only (Writes frameRules) P)
    (hg : ∀ a, P a → ThenRevokes (g a)) : ThenRevokes (p >>= g) := by
  induction p with
  | ret a => exact hg a hp
  | raise e => trivial
  | select p k ih => exact fun rs hrs => ih rs (hp.2 rs hrs)
  | modify p f k ih => exact .inr ⟨hp.1, fun rs hrs => ih rs (hp.2 rs hrs)⟩
  | insert clash r k ih => exact ⟨hp.1, fun b => ih b (hp.2 b)⟩
  | fresh k ih => exact fun n => ih n (hp n)
  | ask q k ih => exact fun a => ih a (hp.2 a)
  | commit k ih | rollback k ih => exact hp.1

theorem thenRevokes_bind (hp : ThenRevokes p)
    (hg : ∀ a, (g a).Only (Writes frameRules) fun _ => True) : ThenRevokes (p >>= g) := by
  induction p with
  | ret a => exact hp.elim
  | raise e => trivial
  | select p k ih => exact fun rs hrs => ih rs (hp rs hrs)
  | modify p f k ih =>
    rcases hp with ⟨hupd, hk⟩ | ⟨hw, hk⟩
    · exact .inl ⟨hupd, fun rs => (hk rs).bind fun a _ => hg a⟩
    · exact .inr ⟨hw, fun rs hrs => ih rs (hk rs hrs)⟩
  | insert clash r k ih => exact ⟨hp.1, fun b => ih b (hp.2 b)⟩
  | fresh k ih => exact fun n => ih n (hp n)
  | ask q k ih => exact fun a => ih a (hp a)
  | commit k ih | rollback k ih => exact hp

theorem thenRevokes_revokeAllForUser (u : UUID) (reason : String) :
    ThenRevokes (RefreshTokenRepository.revokeAllForUser u reason) :=
  fun t => .inl ⟨⟨u, t, reason, rfl, rfl⟩, fun _ => trivial⟩

end ThenRevokes

variable (env : Env)

theorem thenRevokes_logoutAll (user : User) : ThenRevokes (logoutAll user) :=
  thenRevokes_bind (thenRevokes_revokeAllForUser _ _) fun _ =>
    only_recordEvent frameRules_audit _ _ _ _

theorem thenRevokes_resetPassword (token : RawToken) (newPassword : String) :
    ThenRevokes (resetPassword env token newPassword) := by
  refine thenRevokes_bind_frame (only_validatePassword env _ _ _) fun _ _ =>
    thenRevokes_bind_frame (only_getByHashForUpdate _) fun record _ => ?_
  split
  · trivial
  refine thenRevokes_bind_frame only_now fun t _ => ?_
  split
  · trivial
  refine thenRevokes_bind_frame (only_getById _) fun user _ => ?_
  split
  · trivial
  split
  · trivial
  · exact thenRevokes_bind_frame (only_setUsedAt (fun _ _ => otherTables_update (by simp [toRow, Row.table])) _ _)
      fun _ _ => thenRevokes_bind_frame (only_hashPassword env _) fun _ _ =>
      thenRevokes_bind_frame (only_updateHashedPassword frameRules_updateUser _ _) fun _ _ =>
      thenRevokes_bind (thenRevokes_revokeAllForUser _ _) fun _ =>
        only_recordEvent frameRules_audit _ _ _ _

theorem thenRevokes_confirmEmailChange (token : RawToken) :
    ThenRevokes (confirmEmailChange env token) := by
  refine thenRevokes_bind_frame (only_getByHashForUpdate _) fun record _ => ?_
  split
  · trivial
  refine thenRevokes_bind_frame only_now fun t _ => ?_
  split
  · trivial
  refine thenRevokes_bind_frame (only_getById _) fun user _ => ?_
  split
  · trivial
  split
  · trivial
  refine thenRevokes_bind_frame (only_getByEmail _) fun existing _ => ?_
  split
  · trivial
  refine thenRevokes_bind_frame (only_setUsedAt (fun _ _ => otherTables_update (by simp [toRow, Row.table])) _ _)
    fun _ _ => thenRevokes_bind_frame (only_updateEmail env frameRules_updateUser _ _)
    fun updated _ => ?_
  split
  · trivial
  · exact thenRevokes_bind (thenRevokes_revokeAllForUser _ _) fun _ =>
      only_bind (only_recordEvent frameRules_audit _ _ _ _) fun _ => trivial

/-- The requests that revoke all sessions of a user. -/
def AccountRequest.RevokesAll : AccountRequest → Prop
  | .logoutAll _ | .resetPassword _ _ | .confirmEmailChange _ => True
  | _ => False

/-- **A request that revokes all sessions** sends the `UPDATE` before it returns. -/
theorem thenRevokes_route : ∀ r : AccountRequest, r.RevokesAll → ThenRevokes (r.route env)
  | .logoutAll _, _ => thenRevokes_bind_frame (only_getCurrentUser env _) fun _ _ =>
      thenRevokes_bind (thenRevokes_logoutAll _) fun _ => trivial
  | .resetPassword _ _, _ => thenRevokes_bind (thenRevokes_resetPassword env _ _) fun _ => trivial
  | .confirmEmailChange _, _ =>
      thenRevokes_bind (thenRevokes_confirmEmailChange env _) fun _ => trivial
  | .register _ _ _, h | .login _ _, h | .refresh _, h | .logout _, h | .forgotPassword _, h
  | .changePassword _ _ _ _, h | .sendVerification _, h | .verifyEmail _, h | .listSessions _ _, h
  | .revokeSession _ _, h | .requestEmailChange _ _ _, h => h.elim

/-! ## How far a session has come -/

variable {env}

/-- The session has not yet sent the `UPDATE`, and has written no refresh token. -/
structure Before (tx : AccountTx) (body : Db AccountResponse) : Prop where
  prog : tx.prog = .unitOfWork body
  revokes : ThenRevokes body
  log : tokenLog tx.toLocal = []
  scan : tx.scan.isSome → ∃ p f k, body = .modify p f k ∧ Writes frameRules (.modify p f) ∧
    ∀ rs, (∀ r ∈ rs, p r = true) → ThenRevokes (k rs)

/-- The next or current statement of the session is the `UPDATE` for the user `u`. -/
def Sweeping (u : UUID) (tx : AccountTx) : Prop :=
  ∃ t reason k, tx.prog = .unitOfWork (.modify (ofUserUnrevoked u) (revokeEffect t reason) k) ∧
    ∀ rs, (k rs).Only (Writes frameRules) fun _ => True

/-- The session will write no more refresh tokens. -/
def After (tx : AccountTx) : Prop :=
  ∃ body, tx.prog = .unitOfWork body ∧ body.Only (Writes frameRules) fun _ => True

variable {c c' : AccountConfig} {n : ℕ} {tx tx' : AccountTx} {u : UUID}

theorem After.not_done (h : After tx) : tx.prog.done = false := by
  obtain ⟨body, hbody, -⟩ := h
  rw [hbody, Prog.unitOfWork_not_done]

theorem Sweeping.not_done {u : UUID} (h : Sweeping u tx) : tx.prog.done = false := by
  obtain ⟨t, reason, k, hprog, -⟩ := h
  rw [hprog, Prog.unitOfWork_not_done]

/-- Such a session ends with its commit. -/
theorem After.commit (h : After tx) {k : Db AccountResponse} (hp : tx.prog = .commit k) :
    k.done = true := by
  obtain ⟨body, hbody, honly⟩ := h
  rw [hbody] at hp
  cases body with
  | ret a => cases hp; rfl
  | commit k => exact honly.1.elim
  | _ => cases hp

/-- Locking a row the statement leaves the refresh tokens alone for. -/
theorem TokenFrame.lock {p : Row → Bool} {f : (r : Row) → Effect r} {r : Row}
    (l : Local Row Key) (h : Writes frameRules (.modify p f)) (hp : p r = true) :
    TokenFrame l (l.lock r (f r)) := by
  refine .append l [key r] fun w hw htab => ?_
  have hkey := Effect.key_of_mem_log hw
  have hr : r.table = .refreshTokens := by rw [hkey] at htab; exact htab
  have h := h r hp
  cases hf : f r with
  | keep => rw [hf] at hw; cases hw
  | remove => rw [hf] at h; exact h hr
  | store r' same => rw [hf] at h; exact h.elim (fun h => h hr) id

/-- The turns of a session that will write no more refresh tokens. -/
theorem After.turn (h : After tx) (hs : tx.ScanOk) (ht : Turns c n tx tx') :
    (After tx' ∧ TokenFrame tx.toLocal tx'.toLocal) ∨
      (∃ a, tx.prog = .commit (.ret a) ∧ tx'.prog = .ret a) ∨ ∃ e, tx'.prog = .raise e := by
  obtain ⟨body, hbody, honly⟩ := h
  cases ht with
  | ended hd =>
    rw [hbody, Prog.unitOfWork_not_done] at hd
    cases hd
  | select hp =>
    rw [hbody] at hp
    cases body with
    | select p k =>
      cases hp
      exact .inl ⟨⟨k _, rfl, honly.2 _ fun r hr => (List.mem_filter.mp hr).2⟩, .refl _⟩
    | _ => cases hp
  | snapshot hp hs' => exact .inl ⟨⟨body, hbody, honly⟩, .refl _⟩
  | lock hp hs' hfree hr hpr =>
    rw [hbody] at hp
    refine .inl ⟨⟨body, hbody, honly⟩, ?_⟩
    cases body with
    | modify p f k =>
      cases hp
      exact .lock _ honly.1 hpr
    | _ => cases hp
  | skip hp hs' hfree hskip => exact .inl ⟨⟨body, hbody, honly⟩, .refl _⟩
  | visited hp hs' =>
    obtain ⟨p, f, k, hp', hrs⟩ := hs _ _ hs'
    cases hp.symm.trans hp'
    rw [hbody] at hp
    cases body with
    | modify p f k =>
      cases hp
      exact .inl ⟨⟨k _, rfl, honly.2 _ hrs⟩, .refl _⟩
    | _ => cases hp
  | clash hp =>
    rw [hbody] at hp
    cases body with
    | insert clash r k =>
      cases hp
      exact .inl ⟨⟨k false, rfl, honly.2 _⟩, .refl _⟩
    | _ => cases hp
  | insert hp =>
    rw [hbody] at hp
    cases body with
    | insert clash r k =>
      cases hp
      refine .inl ⟨⟨k true, rfl, honly.2 _⟩, .append _ [_] fun w hw htab => ?_⟩
      cases List.mem_singleton.mp hw
      exact honly.1 htab
    | _ => cases hp
  | fresh hp =>
    rw [hbody] at hp
    cases body with
    | fresh k =>
      cases hp
      exact .inl ⟨⟨k _, rfl, honly _⟩, rfl, fun _ hk => hk, fun _ hn => List.mem_cons_of_mem _ hn,
        fun _ hn => List.mem_cons_of_mem _ hn⟩
    | _ => cases hp
  | ask hp a =>
    rw [hbody] at hp
    cases body with
    | ask q k =>
      cases hp
      exact .inl ⟨⟨k _, rfl, honly.2 _⟩, .refl _⟩
    | _ => cases hp
  | commit hp =>
    rw [hbody] at hp
    cases body with
    | ret a =>
      cases hp
      exact .inr (.inl ⟨a, hbody, rfl⟩)
    | commit k => exact honly.1.elim
    | _ => cases hp
  | rollback hp =>
    rw [hbody] at hp
    cases body with
    | raise e =>
      cases hp
      exact .inr (.inr ⟨e, rfl⟩)
    | rollback k => exact honly.1.elim
    | _ => cases hp

/-- The turns of a session that has not yet sent the `UPDATE`. -/
theorem Before.turn {body : Db AccountResponse} (h : Before tx body) (hs : tx.ScanOk)
    (ht : Turns c n tx tx') :
    (∃ body', Before tx' body') ∨ (∃ u, Sweeping u tx ∧ tx.scan = none ∧ Sweeping u tx' ∧
      tx'.scan = some (((tx.view c.committed).rows.filter (ofUserUnrevoked u)).map key, []) ∧
      tx'.toLocal = tx.toLocal) ∨ ∃ e, tx'.prog = .raise e := by
  obtain ⟨hbody, hrev, hlog, hscan⟩ := h
  cases ht with
  | ended hd =>
    rw [hbody, Prog.unitOfWork_not_done] at hd
    cases hd
  | select hp =>
    rw [hbody] at hp
    cases body with
    | select p k =>
      cases hp
      refine .inl ⟨k _, rfl, hrev _ fun r hr => (List.mem_filter.mp hr).2, hlog, fun hs' => ?_⟩
      obtain ⟨p', f, k', hk, -⟩ := hscan hs'
      cases hk
    | _ => cases hp
  | snapshot hp hs' =>
    rw [hbody] at hp
    cases body with
    | modify p f k =>
      cases hp
      rcases hrev with ⟨⟨u, t, reason, rfl, rfl⟩, hk⟩ | hframe
      · exact .inr (.inl ⟨u, ⟨t, reason, k, hbody, hk⟩, hs', ⟨t, reason, k, hbody, hk⟩, rfl, rfl⟩)
      · exact .inl ⟨_, hbody, .inr hframe, hlog, fun _ => ⟨_, _, k, rfl, hframe⟩⟩
    | _ => cases hp
  | lock hp hs' hfree hr hpr =>
    obtain ⟨p, f, k, rfl, hw, hk⟩ := hscan (by rw [hs']; rfl)
    rw [hbody] at hp
    cases hp
    exact .inl ⟨_, hbody, hrev, (TokenFrame.lock _ hw hpr).log.trans hlog, fun _ =>
      ⟨_, _, k, rfl, hw, hk⟩⟩
  | skip hp hs' hfree hskip =>
    exact .inl ⟨_, hbody, hrev, hlog, fun _ => hscan (by rw [hs']; rfl)⟩
  | visited hp hs' =>
    obtain ⟨p, f, k, rfl, hw, hk⟩ := hscan (by rw [hs']; rfl)
    obtain ⟨p', f', k', hp', hrs⟩ := hs _ _ hs'
    cases hp.symm.trans hp'
    rw [hbody] at hp
    cases hp
    exact .inl ⟨k _, rfl, hk _ hrs, hlog, fun h => nomatch h⟩
  | clash hp =>
    rw [hbody] at hp
    cases body with
    | insert clash r k =>
      cases hp
      refine .inl ⟨k false, rfl, hrev.2 _, hlog, fun hs' => ?_⟩
      obtain ⟨p', f, k', hk, -⟩ := hscan hs'
      cases hk
    | _ => cases hp
  | insert hp =>
    rw [hbody] at hp
    cases body with
    | insert clash r k =>
      cases hp
      refine .inl ⟨k true, rfl, hrev.2 _, ?_, fun hs' => ?_⟩
      · refine (TokenFrame.append _ [_] fun w hw htab => ?_).log.trans hlog
        cases List.mem_singleton.mp hw
        exact hrev.1 htab
      · obtain ⟨p', f, k', hk, -⟩ := hscan hs'
        cases hk
    | _ => cases hp
  | fresh hp =>
    rw [hbody] at hp
    cases body with
    | fresh k =>
      cases hp
      refine .inl ⟨k _, rfl, hrev _, hlog, fun hs' => ?_⟩
      obtain ⟨p', f, k', hk, -⟩ := hscan hs'
      cases hk
    | _ => cases hp
  | ask hp a =>
    rw [hbody] at hp
    cases body with
    | ask q k =>
      cases hp
      refine .inl ⟨k _, rfl, hrev _, hlog, fun hs' => ?_⟩
      obtain ⟨p', f, k', hk, -⟩ := hscan hs'
      cases hk
    | _ => cases hp
  | commit hp =>
    rw [hbody] at hp
    cases body with
    | ret a => exact hrev.elim
    | commit k => exact hrev.elim
    | _ => cases hp
  | rollback hp =>
    rw [hbody] at hp
    cases body with
    | raise e =>
      cases hp
      exact .inr (.inr ⟨e, rfl⟩)
    | rollback k => exact hrev.elim
    | _ => cases hp

/-- How far a session that revokes all sessions has come. -/
def Phase (tx : AccountTx) : Prop :=
  (∃ body, Before tx body) ∨ (∃ u, Sweeping u tx ∧ tx.scan.isSome) ∨ After tx ∨ tx.prog.done = true

theorem Phase.turn (h : Phase tx) (hs : tx.ScanOk) (ht : Turns c n tx tx') : Phase tx' := by
  rcases h with ⟨body, hb⟩ | ⟨u, ⟨t, reason, k, hprog, hk⟩, hscan⟩ | ha | hd
  · rcases hb.turn hs ht with hb' | ⟨u, -, -, hsw, hscan, -⟩ | ⟨e, he⟩
    · exact .inl hb'
    · exact .inr (.inl ⟨u, hsw, by rw [hscan]; rfl⟩)
    · exact .inr (.inr (.inr (by rw [he]; rfl)))
  · rw [Prog.unitOfWork_modify] at hprog
    cases ht with
    | ended hd => rw [hprog] at hd; cases hd
    | snapshot hp hs' => rw [hs'] at hscan; cases hscan
    | lock hp hs' | skip hp hs' => exact .inr (.inl ⟨u, ⟨t, reason, k, hprog, hk⟩, rfl⟩)
    | visited hp hs' =>
      cases hprog.symm.trans hp
      exact .inr (.inr (.inl ⟨k _, rfl, hk _⟩))
    | _ hp => cases hprog.symm.trans hp
  · rcases ha.turn hs ht with ⟨ha', -⟩ | ⟨a, -, hp⟩ | ⟨e, he⟩
    · exact .inr (.inr (.inl ha'))
    · exact .inr (.inr (.inr (by rw [hp]; rfl)))
    · exact .inr (.inr (.inr (by rw [he]; rfl)))
  · refine .inr (.inr (.inr ?_))
    cases ht with
    | ended _ => exact hd
    | snapshot hp | lock hp | skip hp | visited hp => rw [hp] at hd; cases hd
    | _ hp => rw [hp] at hd; cases hd

/-- **Every session that revokes all sessions** is before, in or after its `UPDATE`, or has ended. -/
theorem phase_of_reach {s : State} (hr : Reach respond (AccountRequest.serve env) s.open c) :
    ∀ tx ∈ c.txs, tx.ScanOk ∧ (tx.req.RevokesAll → Phase tx) := by
  refine hr.forall_tx (fun i => ⟨fun _ _ h => (nomatch h), fun hi => .inl ⟨i.route env, rfl,
    thenRevokes_route env i hi, rfl, fun h => nomatch h⟩⟩) (fun c n tx tx' h ht => ?_)
    (fun tx e h => ⟨fun _ _ h => (nomatch h), fun _ => .inr (.inr (.inr rfl))⟩) (by simp [Store.open])
  exact ⟨ht.scanOk h.1, fun hi => (h.2 (ht.req ▸ hi)).turn h.1 ht⟩

/-- The session is about to send the `UPDATE` that revokes the tokens of the user `u`. -/
def AtRevokeAll (u : UUID) (tx : AccountTx) : Prop :=
  tx.scan = none ∧
    ∃ t reason k, tx.prog = .modify (ofUserUnrevoked u) (revokeEffect t reason) k

/-- Up to its `UPDATE` the session has written no refresh token, and after it none either. -/
theorem Phase.sweeping (h : Phase tx) (hat : AtRevokeAll u tx) :
    Sweeping u tx ∧ tokenLog tx.toLocal = [] := by
  obtain ⟨hscan, t, reason, k, hp⟩ := hat
  rcases h with ⟨body, hb, hrev, hlog, -⟩ | ⟨u', -, hs⟩ | ⟨body, hb, honly⟩ | hd
  · have hb' := hb
    rw [hp] at hb'
    cases body with
    | modify p f k' =>
      cases hb'
      rcases hrev with ⟨-, hk⟩ | ⟨hw, -⟩
      · exact ⟨⟨t, reason, k', hb, hk⟩, hlog⟩
      · exact absurd hw (not_frame_revokeAll u t reason)
    | _ => cases hb'
  · rw [hscan] at hs
    cases hs
  · rw [hp] at hb
    cases body with
    | modify p f k' =>
      cases hb
      exact absurd honly.1 (not_frame_revokeAll u t reason)
    | _ => cases hb
  · rw [hp] at hd
    cases hd

/-- The `n`th session has passed the moment before its `UPDATE`. -/
def Passed (env : Env) (s : State) (c : AccountConfig) (n : ℕ) (tx : AccountTx) : Prop :=
  ∃ d tx' u, Reach respond (AccountRequest.serve env) s.open d ∧
    Reach respond (AccountRequest.serve env) d c ∧ d.txs[n]? = some tx' ∧ tx'.req = tx.req ∧
    AtRevokeAll u tx'

/-- **A session that revokes all sessions and has returned** has sent the `UPDATE`. -/
theorem exists_atRevokeAll {s : State} (hr : Reach respond (AccountRequest.serve env) s.open c)
    (hn : c.txs[n]? = some tx) (hreq : tx.req.RevokesAll) {a : AccountResponse}
    (ha : tx.prog = .ret a) : Passed env s c n tx := by
  suffices h : ∀ n tx, c.txs[n]? = some tx → tx.req.RevokesAll → (∃ body, Before tx body) ∨
      (∃ e, tx.prog = .raise e) ∨ Passed env s c n tx by
    rcases h n tx hn hreq with ⟨body, hb, -⟩ | ⟨e, he⟩ | h
    · have := Prog.unitOfWork_not_done body
      rw [← hb, ha] at this
      cases this
    · cases ha.symm.trans he
    · exact h
  clear hn hreq ha
  induction hr with
  | refl => intro n tx hn; simp [Store.open] at hn
  | @tail d d' hd hstep ih =>
    intro n tx hn hreq
    have hpassed : ∀ tx', tx'.req = tx.req → Passed env s d n tx' → Passed env s d' n tx :=
      fun tx' hq h => by
        obtain ⟨e, t, u, hre, hed, hne, hqe, hat⟩ := h
        exact ⟨e, t, u, hre, hed.tail hstep, hne, hqe.trans hq, hat⟩
    have hkeep : d.txs[n]? = some tx → (∃ body, Before tx body) ∨ (∃ e, tx.prog = .raise e) ∨
        Passed env s d' n tx := fun hn => (ih n tx hn hreq).imp_right fun h => h.imp_right (hpassed tx rfl)
    rcases hstep.elim with ⟨i, htxs, -⟩ | ⟨m, t, t', hm, ht, htxs, -⟩ | ⟨m, t, e, hm, -, htxs, -⟩
    · rw [htxs, List.getElem?_append] at hn
      split at hn
      · exact hkeep hn
      · obtain ⟨-, rfl⟩ : n - d.txs.length = 0 ∧ _ = tx := by
          simpa [List.getElem?_singleton] using hn
        exact .inl ⟨i.route env, rfl, thenRevokes_route env i hreq, rfl, fun h => by cases h⟩
    · rw [htxs, List.getElem?_set] at hn
      split at hn
      · next hmn =>
        subst hmn
        split at hn
        · cases hn
          have hok := (phase_of_reach hd t (List.mem_of_getElem? hm)).1
          rcases ih m t hm (ht.req ▸ hreq) with ⟨body, hb⟩ | ⟨e, he⟩ | h
          · rcases hb.turn hok ht with hb' | ⟨u, hsw, hscan, -⟩ | he
            · exact .inl hb'
            · obtain ⟨at', reason, k, hp, -⟩ := hsw
              exact .inr (.inr ⟨d, t, u, hd, .single hstep, hm, ht.req.symm, hscan, at', reason, _, hp⟩)
            · exact .inr (.inl he)
          · cases ht with
            | ended _ => exact .inr (.inl ⟨e, he⟩)
            | snapshot hp | lock hp | skip hp | visited hp => cases he.symm.trans hp
            | _ hp => cases he.symm.trans hp
          · exact .inr (.inr (hpassed t ht.req.symm h))
        · cases hn
      · exact hkeep hn
    · rw [htxs, List.getElem?_set] at hn
      split at hn
      · split at hn
        · cases hn
          exact .inr (.inl ⟨e, rfl⟩)
        · cases hn
      · exact hkeep hn

end DevOps
