import DevOpsAssistant.Tokens.Marks

/-!
# Requests that present a mailed token

`reset_password`, `verify_email` and `confirm_email_change` lock the row of the presented token, check it,
and mark it as used in the transaction that changes the account.

* `AccountRequest.presents`: the table of the token a request presents, and the token.
* `Spending`: a transaction that marks a locked, unused token, and read the clock before it expired.
* `Cleared`: the token between its check and its mark; `ensures_present`, `ensures_setUsedAt`.
* **`ensures_mark`**: every request adds only tokens and marks, and commits with a token only if it
  spends it.
-/

namespace DevOps

open Txn Discipline

/-- The table of the token a request presents, and the token. -/
def AccountRequest.presents : AccountRequest → Option (TableName × RawToken)
  | .resetPassword token _ => some (.passwordResetTokens, token)
  | .verifyEmail token => some (.emailVerificationTokens, token)
  | .confirmEmailChange token => some (.emailChangeTokens, token)
  | _ => none

/-- The token `t` of the table `k` is committed and unused, its hash is that of `token`, and the
transaction holds its lock. -/
structure Presented (env : Env) (k : TableName) (token : RawToken) (t : OneTimeToken) (l : OpenTx)
    (c : Database) : Prop where
  mem : t ∈ oneTimeTokens c
  kind : t.key.table = k
  tokenHash : t.tokenHash = hashSecureToken env token
  locked : t.key ∈ l.locks
  unused : t.usedAt = none

/-- The transaction marks the presented token as used; the session has read the clock before the
token expired. -/
structure Spending (env : Env) (k : TableName) (token : RawToken) (t : OneTimeToken) (h : Told)
    (l : OpenTx) (c : Database) : Prop extends Presented env k token t l c where
  told : ∃ u, .answer .now u ∈ h ∧ u < t.expiresAt
  spent : ∃ t' ∈ oneTimeTokens (l.view c), t.Marks t' ∧ t'.usedAt.isSome = true

/-- What a request owes at its commit. -/
structure OwesMarks (env : Env) (r : AccountRequest) (h : Told) (l : OpenTx) (c : Database) : Prop where
  log : MarkLog l c
  spends : ∀ k token, r.presents = some (k, token) → ∃ t, Spending env k token t h l c

/-- The tables of mailed tokens, as far as their use goes. -/
class OneTime (T : Type) extends MailedToken T where
  mail : mailTables (Entity.table T) = true
  token_toRow : ∀ t : T, oneTimeToken (toRow t) =
    some ⟨keyOf t, MailedToken.tokenHash t, MailedToken.expiresAt t, MailedToken.usedAt t⟩
  marked : ∀ u (t : T), Marked (toRow t) (toRow (MailedToken.markUsed u t))
  used_markUsed : ∀ u (t : T), (MailedToken.usedAt (MailedToken.markUsed u t)).isSome = true

instance : OneTime PasswordResetToken where
  mail := rfl
  token_toRow _ := rfl
  marked := allowsAccounts_mark.markReset
  used_markUsed _ _ := rfl

instance : OneTime EmailChangeToken where
  mail := rfl
  token_toRow _ := rfl
  marked := allowsAccounts_mark.markChange
  used_markUsed _ _ := rfl

instance : OneTime EmailVerificationToken where
  mail := rfl
  token_toRow _ := rfl
  marked := allowsAccounts_mark.markVerification
  used_markUsed _ _ := rfl

section Present

variable {T α : Type} [OneTime T] {env : Env} {token : RawToken} {record : T} {u : Time}
  {h h' : Told} {l l' : OpenTx} {c c' : Database}

/-- The mailed token of a row. -/
def asOneTime (record : T) : OneTimeToken :=
  ⟨keyOf record, MailedToken.tokenHash record, MailedToken.expiresAt record, MailedToken.usedAt record⟩

/-- The row of the presented token is locked. -/
structure Claimed (env : Env) (token : RawToken) (record : T) (l : OpenTx) (c : Database) : Prop where
  unwritten : logOn mailTables l = []
  mem : record ∈ rowsOf T c
  locked : keyOf record ∈ l.locks
  tokenHash : MailedToken.tokenHash record = hashSecureToken env token

/-- The row of the presented token is locked, and was found unused and not expired. -/
structure Cleared (env : Env) (token : RawToken) (record : T) (u : Time) (h : Told) (l : OpenTx)
    (c : Database) : Prop extends Claimed env token record l c where
  unspent : MailedToken.spent record u = false
  told : .answer .now u ∈ h

theorem mem_asOneTime : record ∈ rowsOf T c → asOneTime record ∈ oneTimeTokens c := fun h =>
  mem_oneTimeTokens.mpr ⟨_, mem_rowsOf.mp h, OneTime.token_toRow record⟩

/-- Others leave the row alone. -/
theorem Claimed.since (k : Claimed env token record l c) (x : Since markDiscipline h l c h' l c') :
    Claimed env token record l c' :=
  ⟨k.unwritten, (mem_of_locked x.env k.locked).mpr k.mem, k.locked, k.tokenHash⟩

theorem Cleared.since (k : Cleared env token record u h l c) (x : Since markDiscipline h l c h' l c') :
    Cleared env token record u h' l c' :=
  ⟨k.toClaimed.since x, k.unspent, x.told.mem k.told⟩

variable {owes : Told → OpenTx → Database → Prop} {Φ : α → Told → OpenTx → Database → Prop}

/-- The query for a presented token. -/
theorem ensures_present {g : Option T → Db α} (hl : l.log = [])
    (hnone : ∀ h' l' c', markDiscipline.ensures owes (returns Φ) (g none) h' l' c')
    (hsome : ∀ record h' l' c', Claimed env token record l' c' →
      markDiscipline.ensures owes (returns Φ) (g (some record)) h' l' c') :
    markDiscipline.ensures owes (returns Φ)
      (MailedToken.getByHashForUpdate (hashSecureToken env token) >>= g) h l c := by
  refine ensures_lockOne (fun _ _ _ => hnone _ _ _) fun c₁ ks record x hm hp hk =>
    hsome record _ _ _ ⟨?_, ?_, hk, of_decide_eq_true hp⟩
  · change l.log.filter _ = []
    rw [hl, List.filter_nil]
  · have hview : l.view c₁ = c₁ := by rw [Local.view, hl, Table.apply_nil]
    rwa [hview] at hm

/-- The reading of the clock before the check. -/
theorem ensures_check {g : Time → Db α} (hk : Claimed env token record l c)
    (hg : ∀ u h' c', (MailedToken.spent record u = false → Cleared env token record u h' l c') →
      markDiscipline.ensures owes (returns Φ) (g u) h' l c') :
    markDiscipline.ensures owes (returns Φ) (now >>= g) h l c :=
  ensures_now fun h' c' u x hu => hg u h' c' fun hs => ⟨hk.since x, hs, hu⟩

/-- The account of the presented token. -/
theorem ensures_account {p : User → Bool} {g : Option User → Db α}
    (hk : Cleared env token record u h l c)
    (hg : ∀ o h' c', Cleared env token record u h' l c' →
      markDiscipline.ensures owes (returns Φ) (g o) h' l c') :
    markDiscipline.ensures owes (returns Φ) ((selectOf p >>= scalarOneOrNone) >>= g) h l c :=
  ensures_selectOne (fun h' c' x _ _ => hg none h' c' (hk.since x))
    fun h' c' user x _ _ _ => hg (some user) h' c' (hk.since x)

/-- The presented token is marked as used. -/
theorem ensures_setUsedAt {g : T → Db α} (hk : Cleared env token record u h l c)
    (hg : ∀ r' l' c', MarkLog l' c' → Spending env (Entity.table T) token (asOneTime record) h l' c' →
      markDiscipline.ensures owes (returns Φ) (g r') h l' c') :
    markDiscipline.ensures owes (returns Φ) (MailedToken.setUsedAt record u >>= g) h l c := by
  refine ensures_updateById fun c₁ t x ht hid => ?_
  have hlocked : keyOf record ∈ (l.insert (toRow (MailedToken.markUsed u t))).locks :=
    List.mem_cons_of_mem _ hk.locked
  have hmem : record ∈ rowsOf T c₁ :=
    (mem_of_locked (x.env.mono (fun _ _ ht => ht) (fun _ hk => hk) fun _ hn => hn) hk.locked).mpr hk.mem
  -- the row is locked, so the flush finds it as it was read
  obtain rfl : t = record :=
    entity_ext ((mem_view_of_unwritten hk.unwritten OneTime.mail).mp ht) hmem hid
  have hlog : logOn mailTables (l.insert (toRow (MailedToken.markUsed u t))) =
      [.store (toRow (MailedToken.markUsed u t))] := by
    rw [logOn_insert _ OneTime.mail, hk.unwritten, List.nil_append]
  have hkey : keyOf (MailedToken.markUsed u t) = keyOf t :=
    congrArg (Key.mk _) (MailedToken.id_markUsed u t)
  have hview : MailedToken.markUsed u t ∈
      rowsOf T ((l.insert (toRow (MailedToken.markUsed u t))).view c₁) := by
    rw [mem_rowsOf_view OneTime.mail, hlog]
    exact mem_rowsOf_store.mpr (.inl rfl)
  obtain ⟨hused, hexpires⟩ : MailedToken.usedAt t = none ∧ u < MailedToken.expiresAt t := by
    have := hk.unspent
    simp only [MailedToken.spent, Bool.or_eq_false_iff, decide_eq_false_iff_not, Nat.not_le,
      Option.isSome_eq_false_iff, Option.isNone_iff_eq_none] at this
    exact this
  obtain ⟨t', ht', hmarks⟩ := OneTime.marked u t _ (OneTime.token_toRow t)
  have hused' : t'.usedAt.isSome = true := by
    rw [OneTime.token_toRow] at ht'
    cases ht'
    exact OneTime.used_markUsed u t
  refine hg _ _ _ (fun w hw => ?_) ⟨⟨mem_asOneTime hmem, rfl, hk.tokenHash, hlocked, hused⟩,
    ⟨u, hk.told, hexpires⟩, t', mem_oneTimeTokens.mpr ⟨_, mem_rowsOf.mp hview, ht'⟩, hmarks, hused'⟩
  rw [hlog, List.mem_singleton] at hw
  subst hw
  refine ⟨List.mem_cons_self, _, rfl, fun r hr hrk => ?_⟩
  have hr : r = toRow t := by
    refine c₁.eq_of_key_eq hr (mem_rowsOf.mp hmem) ?_
    rw [hrk, key_toRow, key_toRow, hkey]
  subst hr
  exact OneTime.marked u t

end Present

/-! ## What follows the mark -/

section After

variable {env : Env} {k : TableName} {token : RawToken} {t : OneTimeToken} {h h' : Told}
  {l l' : OpenTx} {c c' : Database}

/-- A token whose row is locked stays as it is. -/
theorem mem_oneTimeTokens_of_same {c c' : Database} {ks : List Key} (hs : c.SameAt ks c')
    (hk : t.key ∈ ks) : t ∈ oneTimeTokens c' ↔ t ∈ oneTimeTokens c := by
  have hrow : ∀ r, oneTimeToken r = some t → (r ∈ c'.rows ↔ r ∈ c.rows) := fun r hr =>
    hs r (key_of_oneTimeToken hr ▸ hk)
  rw [mem_oneTimeTokens, mem_oneTimeTokens]
  constructor
  · exact fun ⟨r, hr, ht⟩ => ⟨r, (hrow r ht).mp hr, ht⟩
  · exact fun ⟨r, hr, ht⟩ => ⟨r, (hrow r ht).mpr hr, ht⟩

theorem mem_oneTimeTokens_view :
    t ∈ oneTimeTokens (l.view c) ↔ t ∈ oneTimeTokens (c.apply (logOn mailTables l)) := by
  have hrow : ∀ r, oneTimeToken r = some t →
      (r ∈ (l.view c).rows ↔ r ∈ (c.apply (logOn mailTables l)).rows) := fun r hr =>
    mem_apply_filter (mailTables_of_oneTimeToken hr) l.log Iff.rfl
  rw [mem_oneTimeTokens, mem_oneTimeTokens]
  constructor
  · exact fun ⟨r, hr, ht⟩ => ⟨r, (hrow r ht).mp hr, ht⟩
  · exact fun ⟨r, hr, ht⟩ => ⟨r, (hrow r ht).mpr hr, ht⟩

/-- **Statements on other tables** leave the mark. -/
theorem Spending.extends (s : Spending env k token t h l c)
    (x : Extends markDiscipline mailTables h l c h' l' c') : Spending env k token t h' l' c' := by
  obtain ⟨⟨hm, hkind, hhash, hlock, hunused⟩, ⟨u, hu, hlt⟩, t', ht', hmarks, hused⟩ := s
  refine ⟨⟨(mem_oneTimeTokens_of_same x.env.same hlock).mpr hm, hkind, hhash, x.locks _ hlock, hunused⟩,
    ⟨u, x.told.mem hu, hlt⟩, t', ?_, hmarks, hused⟩
  rw [mem_oneTimeTokens_view] at ht' ⊢
  rw [x.log]
  exact (mem_oneTimeTokens_of_same (fun r hr => x.env.same.replay _ r hr)
    (hmarks.key ▸ hlock)).mpr ht'

/-- The rest of a request that has spent its token. -/
theorem ensures_afterSpending {α : Type} {r : AccountRequest} {p : Db α}
    (hr : r.presents = some (k, token)) (hlog : MarkLog l c) (hs : Spending env k token t h l c)
    (hp : p.Only (Writes (outside (mailTables · = true) False)) fun _ => True) :
    markDiscipline.ensures (OwesMarks env r) (returns fun _ => OwesMarks env r) p h l c :=
  ensures_beside hp fun _ _ _ x => ⟨hlog.extends x, fun k' token' hr' => by
    cases hr.symm.trans hr'
    exact ⟨t, hs.extends x⟩⟩

end After

/-! ## The requests -/

section Requests

variable (env : Env) {c : Database}

/-- The session has no writes to mailed tokens to forget. -/
theorem ensures_other (r : AccountRequest) (hr : r.presents = none) :
    markDiscipline.ensures (OwesMarks env r) (returns fun _ => OwesMarks env r) (r.route env) []
      .start c :=
  ensures_mono (fun _ _ _ _ ho _ _ => ⟨ho.1, fun _ _ hk => nomatch hr.symm.trans hk⟩)
    (ensures_of_preserves preserves_markLog
      (only_route env allowsAccounts_mark r fun _ => allowsSessions_mark)
      (MarkLog.of_unwritten rfl))

/-- The rules of what follows the mark. -/
abbrev afterMark : Rules := outside (mailTables · = true) False

theorem afterMark_user (u u' : User) (_ : u'.id = u.id) (_ : u'.isActive = u.isActive) :
    afterMark.update (toRow u) (toRow u') := fun h => nomatch h

theorem afterMark_revoke (t : Time) (reason : String) (r : RefreshToken) :
    afterMark.update (toRow r) (toRow (RefreshTokenRepository.revoked t reason r)) :=
  fun h => nomatch h

theorem afterMark_audit (e : AuditEvent) (_ : e.organizationId = none) :
    afterMark.insert (toRow e) := fun h => nomatch h

theorem ensures_resetPassword (token : RawToken) (newPassword : String) :
    markDiscipline.ensures (OwesMarks env (.resetPassword token newPassword))
      (returns fun _ => OwesMarks env (.resetPassword token newPassword))
      (AuthService.resetPassword env token newPassword) [] .start c := by
  unfold AuthService.resetPassword validatePassword
  split
  · refine ensures_present (T := PasswordResetToken) (l := .start) rfl (fun _ _ _ => ensures_throw)
      fun record h l c hk => ensures_check hk fun u h c hk => ?_
    split
    · exact ensures_throw
    rename_i hspent
    refine ensures_account (hk (by simpa using hspent)) fun user h c hk => ?_
    cases user with
    | none => exact ensures_throw
    | some user =>
      simp only
      split
      · exact ensures_throw
      · refine ensures_setUsedAt hk fun _ l c hlog hs => ensures_afterSpending rfl hlog hs ?_
        exact only_bind (only_hashPassword env _) fun _ =>
          only_bind (only_updateHashedPassword afterMark_user _ _) fun _ =>
          only_bind (only_revokeWhere afterMark_revoke _ _) fun _ =>
          only_recordEvent afterMark_audit _ _ _ _
  · exact ensures_throw

theorem ensures_verifyEmail (token : RawToken) :
    markDiscipline.ensures (OwesMarks env (.verifyEmail token))
      (returns fun _ => OwesMarks env (.verifyEmail token))
      (AuthService.verifyEmail env token) [] .start c := by
  refine ensures_present (T := EmailVerificationToken) (l := .start) rfl (fun _ _ _ => ensures_throw)
    fun record h l c hk => ensures_check hk fun u h c hk => ?_
  split
  · exact ensures_throw
  rename_i hspent
  refine ensures_account (hk (by simpa using hspent)) fun user h c hk => ?_
  cases user with
  | none => exact ensures_throw
  | some user =>
    simp only
    split
    · exact ensures_throw
    · refine ensures_setUsedAt hk fun _ l c hlog hs => ensures_afterSpending rfl hlog hs ?_
      refine only_bind (only_markEmailVerified afterMark_user _) fun updated => ?_
      split
      · trivial
      · exact only_bind (only_recordEvent afterMark_audit _ _ _ _) fun _ => trivial

theorem ensures_confirmEmailChange (token : RawToken) :
    markDiscipline.ensures (OwesMarks env (.confirmEmailChange token))
      (returns fun _ => OwesMarks env (.confirmEmailChange token))
      (ProfileService.confirmEmailChange env token) [] .start c := by
  refine ensures_present (T := EmailChangeToken) (l := .start) rfl (fun _ _ _ => ensures_throw)
    fun record h l c hk => ensures_check hk fun u h c hk => ?_
  split
  · exact ensures_throw
  rename_i hspent
  refine ensures_account (hk (by simpa using hspent)) fun user h c hk => ?_
  cases user with
  | none => exact ensures_throw
  | some user =>
    simp only
    split
    · exact ensures_throw
    refine ensures_account hk fun existing h c hk => ?_
    split
    · exact ensures_throw
    · refine ensures_setUsedAt hk fun _ l c hlog hs => ensures_afterSpending rfl hlog hs ?_
      refine only_bind (only_updateEmail env afterMark_user _ _) fun updated => ?_
      split
      · trivial
      · exact only_bind (only_revokeWhere afterMark_revoke _ _) fun _ =>
          only_bind (only_recordEvent afterMark_audit _ _ _ _) fun _ => trivial

/-- **Every request adds only tokens and marks**, and commits with a token only if it spends it. -/
theorem ensures_mark : Ensures markDiscipline (OwesMarks env) (fun _ _ _ => True)
    (AccountRequest.serve env) := by
  intro r c _
  have hroute : markDiscipline.ensures (OwesMarks env r) (returns fun _ => OwesMarks env r)
      (r.route env) [] .start c := by
    cases r with
    | resetPassword token newPassword =>
      exact ensures_map (f := fun _ => AccountResponse.message "Password reset successful")
        (ensures_resetPassword env token newPassword)
    | verifyEmail token => exact ensures_map (ensures_verifyEmail env token)
    | confirmEmailChange token => exact ensures_map (ensures_confirmEmailChange env token)
    | _ => exact ensures_other env _ rfl
  exact ensures_unitOfWork (returns fun _ => OwesMarks env r)
    (fun a h l c ho => ⟨ho a rfl, fun _ _ => trivial⟩) (fun _ _ _ _ => trivial) hroute

end Requests

end DevOps
