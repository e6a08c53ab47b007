import DevOpsAssistant.Sessions.Reuse
import DevOpsAssistant.Specs.Runs

/-!
# When a refresh succeeds

* `Usable`: the database would exchange the presented token; `Unexpired`: the clock would let it.
* `ends_createTokenInFamily`, `ends_rotate`: the run of a rotation, statement by statement.
* `Exchange`: what a successful refresh leaves; **`refresh_usable`**.
* `Accepted`, **`accepted_of_usable`**, **`not_accepted_of_spent`**.
-/

namespace DevOps

open Txn AuthService

variable (env : Env)

/-! ## Presented tokens -/

/-- The database holds what a refresh with the claims `payload` needs, its time apart. -/
structure Usable (c : Database) (payload : TokenPayload) (record : RefreshToken) (user : User) :
    Prop where
  type : payload.tokenType = .refresh
  mem : record ∈ tokens c
  jti : record.jti = payload.jti
  live : Live record
  hash : record.tokenHash = hashRefreshToken env (.jwt payload)
  sub : payload.sub = some record.userId
  mem_user : user ∈ rowsOf User c
  user_id : user.id = record.userId
  active : user.isActive = true

/-- The token has not expired at the readings of the clock a refresh makes. -/
structure Unexpired (w : World) (payload : TokenPayload) (record : RefreshToken) : Prop where
  claims : Time.seconds w.tick.time ≤ payload.exp + env.settings.jwtClockSkewSeconds
  row : w.tick.tick.time < record.expiresAt

variable {env}

theorem tokenClaims_of_unexpired {w : World} {payload : TokenPayload} {record : RefreshToken}
    (ht : payload.tokenType = .refresh) (h : Unexpired env w payload record) :
    tokenClaims env w.tick.time .refresh (.jwt payload) = some payload := if_pos ⟨h.claims, ht⟩

/-! ## The run of a rotation -/

variable {α : Type} {s : Session Row World} {Φ : Except Exc α → Session Row World → Prop}

/-- The token `createTokenInFamily` hands out, when it runs from `s`. -/
def issuedRaw (env : Env) (user : User) (f : UUID) (s : Session Row World) : RawToken :=
  .jwt ⟨some user.id, s.nextId, .refresh,
    Time.seconds (s.world.tick.time + days env.settings.refreshTokenExpireDays), some f⟩

/-- The row `createTokenInFamily` inserts, when it runs from `s`. -/
def issuedRecord (env : Env) (user : User) (f : UUID) (s : Session Row World) : RefreshToken :=
  ⟨s.nextId + 1, user.id, f, hashRefreshToken env (issuedRaw env user f s), s.nextId,
    s.world.tick.tick.tick.time,
    s.world.tick.tick.time + days env.settings.refreshTokenExpireDays, none, none, none, none⟩

/-- The session after `createTokenInFamily`. -/
def afterIssue (env : Env) (user : User) (f : UUID) (s : Session Row World) : Session Row World :=
  ({ s with nextId := s.nextId + 2, world := s.world.tick.tick.tick } : Session Row World).append
    [.store (.refreshToken (issuedRecord env user f s))]

theorem ends_createTokenInFamily {user : User} {f : UUID} {g : RawToken × RefreshToken → Db α}
    (hnew : ∀ t ∈ tokens s.view, t.id < s.nextId ∧ t.jti < s.nextId) :
    (createTokenInFamily env user f >>= g).Ends respond s Φ ↔
      (g (issuedRaw env user f s, issuedRecord env user f s)).Ends respond
        (afterIssue env user f s) Φ := by
  let s₁ : Session Row World :=
    { s with nextId := s.nextId + 2, world := s.world.tick.tick.tick }
  have hclash : s₁.view.clashes
      (fun r => (ofRow r).any fun t : RefreshToken => t.jti = s.nextId)
      (toRow (issuedRecord env user f s)) = false := by
    refine List.any_eq_false.mpr fun r hr => ?_
    cases r with
    | refreshToken t =>
      obtain ⟨hid, hj⟩ := hnew t (mem_tokens.mpr hr)
      have hid' : t.id ≠ s.nextId + 1 := (Nat.lt_succ_of_lt hid).ne
      simp [ofRow, toRow, Row.table, Row.id, issuedRecord, hid', hj.ne]
    | _ => simp [ofRow, toRow, Row.table]
  exact ends_insertOf (s := s₁) (g := fun _ =>
    g (issuedRaw env user f s, issuedRecord env user f s)) hclash

/-- The session after the writes of `rotate` to the refresh tokens. -/
def afterRotate (env : Env) (user : User) (record : RefreshToken) (t : Time)
    (s : Session Row World) : Session Row World :=
  ({ s with nextId := s.nextId + 2, world := s.world.tick.tick.tick } : Session Row World).append
    (rotationLog record t (issuedRecord env user record.familyId s))

/-- The response of `rotate`. -/
def rotatedPair (env : Env) (user : User) (record : RefreshToken) (s : Session Row World) :
    TokenPairResponse :=
  ⟨.jwt ⟨some user.id, s.nextId + 2, .access, Time.seconds (s.world.tick.tick.tick.tick.time +
    minutes env.settings.accessTokenExpireMinutes), none⟩, issuedRaw env user record.familyId s,
    env.settings.accessTokenExpireMinutes * 60⟩

/-- **A rotation** of a token the session sees writes its log and returns. -/
theorem ends_rotate {user : User} {record : RefreshToken} {t : Time} {g : TokenPairResponse → Db α}
    (hm : record ∈ tokens s.view) (hnew : ∀ t ∈ tokens s.view, t.id < s.nextId ∧ t.jti < s.nextId)
    (h : ∀ s', Unchanged (· ≠ .auditEvents) (afterRotate env user record t s) s' →
      (g (rotatedPair env user record s)).Ends respond s' Φ) :
    (rotate env user record t >>= g).Ends respond s Φ := by
  let s₁ := s.append [.store (.refreshToken { record with usedAt := some t })]
  have hview : ∀ x ∈ tokens s₁.view, ∃ y ∈ tokens s.view, y.id = x.id ∧ y.jti = x.jti := by
    intro x hx
    rw [Session.view_append, mem_tokens] at hx
    rcases Table.mem_write_store.mp hx with heq | ⟨hx, -⟩
    · cases heq
      exact ⟨record, hm, rfl, rfl⟩
    · exact ⟨x, mem_tokens.mpr hx, rfl, rfl⟩
  unfold rotate
  simp only [bind_assoc]
  refine (ends_updateById (t := record) hm).mpr ?_
  refine (ends_createTokenInFamily (s := s₁) (f := record.familyId) fun x hx => ?_).mpr ?_
  · obtain ⟨y, hy, hid, hj⟩ := hview x hx
    exact hid ▸ hj ▸ hnew y hy
  have hne : record.id ≠ s.nextId + 1 := (Nat.lt_succ_of_lt (hnew record hm).1).ne
  have hused : ({ record with usedAt := some t } : RefreshToken) ∈
      tokens (afterIssue env user record.familyId s₁).view := by
    rw [afterIssue, Session.view_append, mem_tokens]
    refine Table.mem_write_store.mpr (.inr ⟨?_, fun hk => hne (congrArg Key.id hk)⟩)
    exact (Session.view_append s _ ▸ Table.mem_write_store.mpr (.inl rfl) :
      Row.refreshToken { record with usedAt := some t } ∈ s₁.view.rows)
  refine (ends_updateById (t := { record with usedAt := some t }) hused).mpr ?_
  have hlog : (afterIssue env user record.familyId s₁).append [.store (.refreshToken
      { record with usedAt := some t, replacedByTokenId := some (s.nextId + 1) })]
      = afterRotate env user record t s := by
    simp only [afterIssue, afterRotate, Session.append, s₁, List.append_assoc]
    rfl
  change Prog.Ends respond _ ((afterIssue env user record.familyId s₁).append [.store
    (.refreshToken { record with usedAt := some t, replacedByTokenId := some (s.nextId + 1) })]) Φ
  rw [hlog]
  -- the pair is built, then the audit trail is written
  change Prog.Ends respond (AuditService.recordEvent _ _ _ _ _ >>= fun _ =>
    g (rotatedPair env user record s)) { afterRotate env user record t s with
      world := (afterRotate env user record t s).world.tick
      nextId := (afterRotate env user record t s).nextId + 1 } Φ
  refine ends_recordEvent fun s' hs' => h s' ⟨hs'.view, hs'.committed, ?_, ?_⟩
  · exact Nat.le_trans (Nat.le_succ _) hs'.nextId
  · exact Nat.le_trans (World.time_le_tick _) hs'.time

/-! ## The run of a refresh -/

/-- The first statement of a refresh, when the token is valid. -/
theorem ends_decode_or {payload : TokenPayload} {type : TokenType} {raw : RawToken}
    {handler : Db TokenPayload} {g : TokenPayload → Db α}
    (h : tokenClaims env s.world.tick.time type raw = some payload) :
    (exceptUnauthorized (decodeToken env raw type) handler >>= g).Ends respond s Φ ↔
      (g payload).Ends respond { s with world := s.world.tick } Φ := by
  have hbody : (decodeToken env raw type >>= pure).Ends respond s fun r s' =>
      r = .ok payload ∧ s' = { s with world := s.world.tick } := by
    refine ends_decodeToken.mpr ?_
    rw [h]
    exact ⟨rfl, rfl⟩
  rw [bind_pure] at hbody
  refine Prog.ends_bind.trans (Prog.ends_tryCatch.trans ?_)
  rw [Prog.Ends, hbody.1, hbody.2]

/-- **A refresh with a usable token** reaches its rotation. -/
theorem ends_refresh {payload : TokenPayload} {record : RefreshToken} {user : User}
    {g : TokenPairResponse → Db α} (hl : Linear s.view)
    (hnew : ∀ t ∈ tokens s.view, t.id < s.nextId ∧ t.jti < s.nextId)
    (hu : Usable env s.view payload record user) (ht : Unexpired env s.world payload record)
    (h : ∀ s', Unchanged (· ≠ .auditEvents) (afterRotate env user record s.world.tick.tick.time
      { s with world := s.world.tick.tick }) s' →
      (g (rotatedPair env user record { s with world := s.world.tick.tick })).Ends respond s' Φ) :
    (AuthService.refresh env (.jwt payload) >>= g).Ends respond s Φ := by
  unfold AuthService.refresh
  simp only [bind_assoc]
  refine (ends_decode_or (tokenClaims_of_unexpired hu.type ht)).mpr ?_
  refine (ends_lockOne (t := record) (s := { s with world := s.world.tick })
    (p := fun r : RefreshToken => decide (r.jti = payload.jti)) hu.mem (decide_eq_true hu.jti) fun t' ht' hj => ?_).mpr ?_
  · have hj : t'.jti = record.jti := (of_decide_eq_true hj).trans hu.jti.symm
    rw [hl.jti t' ht' record hu.mem hj]
  simp only
  rw [if_neg (by simp [hu.live.1, hu.live.2])]
  rw [bind_assoc]
  refine ends_now.mpr ?_
  rw [if_neg (Nat.not_le.mpr ht.row), if_neg (not_not.mpr hu.hash), hu.sub]
  simp only
  rw [if_neg (not_not.mpr rfl), ← hu.user_id, bind_assoc]
  refine (ends_getById (s := { s with world := s.world.tick.tick }) hu.mem_user).mpr ?_
  simp only
  rw [if_neg (by simp [hu.active])]
  exact ends_rotate hu.mem hnew h

/-! ## What a refresh leaves -/

variable {s s' : State} {payload : TokenPayload} {record : RefreshToken} {user : User}

/-- A refresh of `record` for `user` has led from `s` to `s'`, with the response `p`; its new token
has the claims `payload'` and the row `new`. -/
structure Exchange (env : Env) (s s' : State) (record : RefreshToken) (user : User)
    (p : TokenPairResponse) (payload' : TokenPayload) (new : RefreshToken) : Prop where
  raw : p.refreshToken = .jwt payload'
  usable : Usable env s'.committed payload' new user
  jti : s.nextId ≤ new.jti
  expires : s.world.time + days env.settings.refreshTokenExpireDays ≤ new.expiresAt
  exp : Time.seconds (s.world.time + days env.settings.refreshTokenExpireDays) ≤ payload'.exp
  spent : ∃ t i, { record with usedAt := some t, replacedByTokenId := some i } ∈ tokens s'.committed
  access : ∃ jti exp, p.accessToken = .jwt ⟨some user.id, jti, .access, exp, none⟩
  users : ∀ u, u ∈ rowsOf User s'.committed ↔ u ∈ rowsOf User s.committed
  time : s.world.time ≤ s'.world.time

/-- The identifiers of the tokens are known. -/
theorem lt_nextId (h : Protocol.Serial tokenProtocol s) {t : RefreshToken}
    (ht : t ∈ tokens s.committed) : t.id < s.nextId ∧ t.jti < s.nextId := by
  have hnamed := h.named (.refreshToken t) (mem_tokens.mp ht)
  constructor
  · exact hnamed t.id (by simp [tokenProtocol, tokenNames])
  · exact hnamed t.jti (by simp [tokenProtocol, tokenNames])

/-- **A refresh with a usable token that has not expired** exchanges it. -/
theorem refresh_usable (h : Protocol.Serial tokenProtocol s)
    (hu : Usable env s.committed payload record user) (ht : Unexpired env s.world payload record) :
    ∃ p payload' new,
      (s.serve respond (AccountRequest.serve env) (.refresh (.jwt payload))).1 =
        .ok (.tokenPair p) ∧
      Exchange env s (s.serve respond (AccountRequest.serve env) (.refresh (.jwt payload))).2
        record user p payload' new := by
  let s₀ : Session Row World := { s.session with world := s.world.tick.tick }
  have hrun : (AccountRequest.route env (.refresh (.jwt payload))).Ends respond s.session fun r s' =>
      r = .ok (.tokenPair (rotatedPair env user record s₀)) ∧
        Unchanged (· ≠ .auditEvents)
          (afterRotate env user record s.world.tick.tick.time s₀) s' :=
    ends_refresh (s := s.session) h.inv (fun t ht => lt_nextId h ht) hu ht fun s' hs' => ⟨rfl, hs'⟩
  obtain ⟨hok, hs'⟩ := hrun
  rw [serve_eq]
  rcases hx : (AccountRequest.route env (.refresh (.jwt payload))).exec respond s.session
    with ⟨r, s'⟩
  rw [hx] at hok hs'
  cases hok
  have htokens : ∀ x, x ∈ tokens s'.view ↔ x = issuedRecord env user record.familyId s₀ ∨
      x = { record with
        usedAt := some s.world.tick.tick.time, replacedByTokenId := some (s.nextId + 1) } ∨
      (x ∈ tokens s.committed ∧ x.id ≠ record.id) := fun x =>
    (hs'.mem (T := RefreshToken) (by simp [Entity.table])).trans
      (mem_tokens_rotationLog hu.mem (fun t ht => (Nat.lt_succ_of_lt (lt_nextId h ht).1).ne) x)
  have husers : ∀ u : User, u ∈ rowsOf User s'.view ↔ u ∈ rowsOf User s.committed := by
    intro u
    refine (hs'.mem (T := User) (by simp [Entity.table])).trans ?_
    rw [mem_rowsOf, mem_rowsOf]
    refine Table.mem_apply_of_key_notMem (r := toRow u)
      (rotationLog record s.world.tick.tick.time (issuedRecord env user record.familyId s₀))
      fun w hw => ?_
    simp only [rotationLog, List.mem_cons, List.not_mem_nil, or_false] at hw
    rcases hw with rfl | rfl | rfl <;> simp [Write.key, toRow, Row.table]
  have hw₃ : s.world.time ≤ s.world.tick.tick.tick.time :=
    Nat.le_trans (World.time_le_tick _) (Nat.le_trans (World.time_le_tick _) (World.time_le_tick _))
  have hw₄ : s.world.time ≤ s.world.tick.tick.tick.tick.time :=
    Nat.le_trans hw₃ (World.time_le_tick _)
  refine ⟨_, _, issuedRecord env user record.familyId s₀, rfl, rfl, ?_, ?_, ?_, ?_, ?_, ?_, ?_, ?_⟩
  · refine ⟨rfl, ?_, rfl, ⟨rfl, rfl⟩, rfl, rfl, ?_, rfl, hu.active⟩
    · exact (htokens _).mpr (.inl rfl)
    · exact (husers user).mpr hu.mem_user
  · exact Nat.le_refl _
  · exact Nat.add_le_add_right hw₄ _
  · exact Nat.div_le_div_right (Nat.add_le_add_right hw₃ _)
  · exact ⟨_, _, (htokens _).mpr (.inr (.inl rfl))⟩
  · exact ⟨_, _, rfl⟩
  · exact husers
  · exact Nat.le_trans (Nat.le_trans hw₄ (World.time_le_tick _)) hs'.time

/-! ## Acceptance -/

/-- A refresh with `raw` succeeds. -/
def Accepted (env : Env) (s : State) (raw : RawToken) : Prop :=
  ∃ a, (s.serve respond (AccountRequest.serve env) (.refresh raw)).1 = .ok a

theorem accepted_of_usable (h : Protocol.Serial tokenProtocol s)
    (hu : Usable env s.committed payload record user) (ht : Unexpired env s.world payload record) :
    Accepted env s (.jwt payload) := by
  obtain ⟨p, -, -, hok, -⟩ := refresh_usable h hu ht
  exact ⟨_, hok⟩

theorem not_accepted_of_spent (h : Protocol.Serial tokenProtocol s)
    (hm : record ∈ tokens s.committed) (hj : record.jti = payload.jti) (hspent : ¬ Live record) :
    ¬ Accepted env s (.jwt payload) := by
  rintro ⟨a, ha⟩
  obtain ⟨e, he⟩ := refresh_spent env payload h hm hj hspent
  cases ha.symm.trans he

/-- The token does not expire before the time `T`. -/
structure Lasts (T : Time) (payload : TokenPayload) (record : RefreshToken) : Prop where
  exp : Time.seconds T ≤ payload.exp
  row : T ≤ record.expiresAt

theorem Lasts.unexpired {T : Time} (h : Lasts T payload record) {w : World}
    (hw : w.tick.tick.time < T) : Unexpired env w payload record := by
  refine ⟨?_, Nat.lt_of_lt_of_le hw h.row⟩
  have hle : w.tick.time ≤ T := Nat.le_trans (World.time_le_tick _) (Nat.le_of_lt hw)
  exact Nat.le_trans (Nat.div_le_div_right hle) (Nat.le_trans h.exp (Nat.le_add_right _ _))

end DevOps
