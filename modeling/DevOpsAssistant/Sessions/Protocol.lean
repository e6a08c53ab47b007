import DevOpsAssistant.Sessions.Chain

/-!
# The protocol of the refresh tokens

* `tokenProtocol`: families are linear, commits have a `TokenEffect`, and new tokens bring a `jti`
  and a family into circulation.
* `QuietLog`: a transaction that has revoked tokens at most; **`quiet_invariant`**.
* `TokenFrame`: what statements on other tables leave alone; **`frame_invariant`**.
-/

namespace DevOps

open Txn

/-- The identifiers a row brings into circulation. -/
def tokenNames : Row → List ℕ
  | .refreshToken t => [t.id, t.jti, t.familyId]
  | _ => []

/-- The protocol every session keeps to. -/
def tokenProtocol : Protocol Row where
  inv := Linear
  effect := TokenEffect
  evolves := Evolves
  names := tokenNames
  evolves_refl := Evolves.refl
  evolves_trans := Evolves.trans
  effect_evolves hl _ h := h.evolves hl

/-- The rules that leave the refresh tokens alone, except for the changes `up`. -/
def otherTables (up : Row → Row → Prop) (tx : Prop) : Rules where
  insert r := r.table ≠ .refreshTokens
  update r r' := r.table ≠ .refreshTokens ∨ up r r'
  delete r := r.table ≠ .refreshTokens
  tx := tx

/-- The rules of a part of a request that writes no refresh token. -/
abbrev frameRules : Rules := otherTables (fun _ _ => False) False

/-- The rules of a request that revokes refresh tokens at most. -/
abbrev quietRules : Rules := otherTables Revokes False

theorem allowsAccounts_quiet {tx : Prop} : AllowsAccounts (otherTables Revokes tx) where
  insertUser _ := fun h => nomatch h
  insertReset _ := fun h => nomatch h
  insertChange _ := fun h => nomatch h
  insertVerification _ := fun h => nomatch h
  audit _ _ := fun h => nomatch h
  updateUser _ _ _ _ := .inl fun h => nomatch h
  markReset _ _ := .inl fun h => nomatch h
  markChange _ _ := .inl fun h => nomatch h
  markVerification _ _ := .inl fun h => nomatch h
  revoke t reason r := .inr ⟨r, some t, some reason, rfl, rfl, fun _ => rfl⟩

theorem otherTables_update {up : Row → Row → Prop} {tx : Prop} {r r' : Row}
    (h : r.table ≠ .refreshTokens) : (otherTables up tx).update r r' := .inl h

/-- Lines of the audit trail are no refresh tokens. -/
theorem frameRules_audit {up : Row → Row → Prop} {tx : Prop} {organizationId : Option UUID}
    (e : AuditEvent) (_ : e.organizationId = organizationId) :
    (otherTables up tx).insert (toRow e) := fun h => nomatch h

theorem frameRules_updateUser {up : Row → Row → Prop} {tx : Prop} (u u' : User) (_ : u'.id = u.id)
    (_ : u'.isActive = u.isActive) : (otherTables up tx).update (toRow u) (toRow u') :=
  .inl fun h => nomatch h

variable {l : Local Row Key} {c c' : Database}

theorem mem_tokens_of_same {ks : List Key} (h : c.SameAt ks c') {t : RefreshToken}
    (hk : tokenKey t ∈ ks) : t ∈ tokens c' ↔ t ∈ tokens c := by
  rw [mem_tokens, mem_tokens]
  exact h (.refreshToken t) hk

/-- A token effect is a commit the protocol allows, if each name of a new token is new or known. -/
theorem commitOk_of_effect (hl : Linear c) (he : TokenEffect l.locks c (l.view c))
    (hn : ∀ t' ∈ tokens (l.view c), (∃ t ∈ tokens c, Grows t t') ∨
      (t'.id ∈ l.ids ∧ t'.jti ∈ l.ids ∧
        (t'.familyId ∈ l.ids ∨ ∃ t ∈ tokens c, t.familyId = t'.familyId))) :
    tokenProtocol.CommitOk l c := by
  refine ⟨he.linear hl, he, fun r hr n hnr => ?_⟩
  cases r with
  | refreshToken t' =>
    have hn' : n = t'.id ∨ n = t'.jti ∨ n = t'.familyId := by
      simpa [tokenProtocol, tokenNames] using hnr
    rcases hn t' (mem_tokens.mpr hr) with ⟨t, ht, hg⟩ | ⟨hid, hj, hf⟩
    · refine .inr ⟨.refreshToken t, mem_tokens.mp ht, ?_⟩
      change n ∈ [t.id, t.jti, t.familyId]
      rw [← hg.id, ← hg.jti, ← hg.familyId]
      exact hnr
    · rcases hn' with rfl | rfl | rfl
      · exact .inl hid
      · exact .inl hj
      · rcases hf with hf | ⟨t, ht, hf⟩
        · exact .inl hf
        · refine .inr ⟨.refreshToken t, mem_tokens.mp ht, ?_⟩
          change t'.familyId ∈ [t.id, t.jti, t.familyId]
          simp [hf]
  | _ => cases hnr

/-! ## Transactions that revoke at most -/

/-- The writes of the transaction to refresh tokens are revocations of tokens it has locked. -/
def QuietLog (l : Local Row Key) (c : Database) : Prop :=
  ∀ w ∈ l.log, w.key.table = .refreshTokens → ∃ t t', w = .store (.refreshToken t') ∧
    t ∈ tokens c ∧ tokenKey t ∈ l.locks ∧ RevokedOf l.locks t t'

theorem RevokedOf.mono {ks ks' : List Key} (h : ∀ k ∈ ks, k ∈ ks') {t t' : RefreshToken}
    (hr : RevokedOf ks t t') : RevokedOf ks' t t' :=
  hr.imp_right fun ⟨hk, he⟩ => ⟨h _ hk, he⟩

theorem QuietLog.came (h : QuietLog l c) {t' : RefreshToken} (ht' : t' ∈ tokens (l.view c)) :
    ∃ t ∈ tokens c, RevokedOf l.locks t t' := by
  rcases Table.mem_apply l.log (mem_tokens.mp ht') with hs | ⟨hm, -⟩
  · obtain ⟨t, u, hu, ht, -, hr⟩ := h _ hs rfl
    cases hu
    exact ⟨t, ht, hr⟩
  · exact ⟨t', mem_tokens.mpr hm, .inl rfl⟩

theorem QuietLog.kept (h : QuietLog l c) {t : RefreshToken} (ht : t ∈ tokens c) :
    ∃ t' ∈ tokens (l.view c), RevokedOf l.locks t t' := by
  obtain ⟨r, hr, hk⟩ := Table.exists_mem_apply (tokenKey t) l.log (fun w hw hwk => by
    obtain ⟨-, t', rfl, -⟩ := h w hw (by rw [hwk]; rfl)
    exact ⟨_, rfl⟩) ⟨_, mem_tokens.mp ht, rfl⟩
  cases r with
  | refreshToken t' =>
    obtain ⟨u, hu, hr'⟩ := h.came (mem_tokens.mpr hr)
    have hid : u.id = t.id := hr'.grows.id.symm.trans (congrArg Key.id hk)
    exact ⟨t', mem_tokens.mpr hr, token_ext hu ht hid ▸ hr'⟩
  | _ => cases hk

theorem QuietLog.commitOk (h : QuietLog l c) (hl : Linear c) : tokenProtocol.CommitOk l c := by
  refine commitOk_of_effect hl (.revoke (fun _ ht => h.came ht) fun _ ht => h.kept ht) ?_
  intro t' ht'
  obtain ⟨t, ht, hr⟩ := h.came ht'
  exact .inl ⟨t, ht, hr.grows⟩

theorem QuietLog.rely (h : QuietLog l c) (hr : tokenProtocol.Rely l c c') : QuietLog l c' := by
  intro w hw hk
  obtain ⟨t, t', rfl, ht, hlock, hrev⟩ := h w hw hk
  exact ⟨t, t', rfl, (mem_tokens_of_same hr.same hlock).mpr ht, hlock, hrev⟩

/-- Writing other tables, or revoking locked tokens, keeps the log quiet. -/
theorem QuietLog.append (h : QuietLog l c) (ks : List Key) {ws : List (Write Row Key)}
    (hws : ∀ w ∈ ws, w.key.table = .refreshTokens → ∃ t t', w = .store (.refreshToken t') ∧
      t ∈ tokens c ∧ tokenKey t ∈ ks ++ l.locks ∧ RevokedOf (ks ++ l.locks) t t') :
    QuietLog { l with log := l.log ++ ws, locks := ks ++ l.locks } c := by
  intro w hw hk
  have hmono : ∀ k ∈ l.locks, k ∈ ks ++ l.locks := fun k hk => List.mem_append_right _ hk
  rcases List.mem_append.mp hw with hw | hw
  · obtain ⟨t, t', rfl, ht, hlock, hrev⟩ := h w hw hk
    exact ⟨t, t', rfl, ht, hmono _ hlock, hrev.mono hmono⟩
  · exact hws w hw hk

theorem QuietLog.lock {tx : Prop} (h : QuietLog l c) {p : Row → Bool} {f : (r : Row) → Effect r}
    {r : Row} (hφ : Writes (otherTables Revokes tx) (.modify p f)) (hr : r ∈ (l.view c).rows)
    (hp : p r = true) : QuietLog (l.lock r (f r)) c := by
  refine h.append [key r] fun w hw hk => ?_
  have hkey := Effect.key_of_mem_log hw
  have htab : r.table = .refreshTokens := by rw [hkey] at hk; exact hk
  have hφ' := hφ r hp
  cases hf : f r with
  | keep => rw [hf] at hw; cases hw
  | remove => rw [hf] at hφ'; exact absurd htab hφ'
  | store r' same =>
    rw [hf] at hφ' hw
    cases List.mem_singleton.mp hw
    rcases hφ' with hφ' | ⟨t', at', reason, rfl, rfl, hat⟩
    · exact absurd htab hφ'
    · obtain ⟨t, ht, hrev⟩ := h.came (mem_tokens.mpr hr)
      have hlock : tokenKey t ∈ key (Row.refreshToken t') :: l.locks := by
        refine List.mem_cons.mpr (.inl ?_)
        change (⟨.refreshTokens, t.id⟩ : Key) = ⟨.refreshTokens, t'.id⟩
        rw [hrev.grows.id]
      refine ⟨t, _, rfl, ht, hlock, .inr ⟨hlock, ?_⟩⟩
      rcases hrev with rfl | ⟨-, a, b, rfl, hab⟩
      · exact ⟨at', reason, rfl, hat⟩
      · exact ⟨at', reason, rfl, fun ht => hat (hab ht)⟩

/-- **Statements that revoke tokens at most keep the log quiet.** -/
theorem quiet_invariant {tx : Prop} :
    Protocol.Invariant tokenProtocol (Writes (otherTables Revokes tx))
      fun l c => QuietLog l c ∧ Linear c where
  rely h hr := ⟨h.1.rely hr, hr.inv⟩
  lock hφ h hr hp := ⟨h.1.lock hφ hr hp, h.2⟩
  insert {l c r} hφ h _ := by
    refine ⟨h.1.append [key r] fun w hw hk => ?_, h.2⟩
    cases List.mem_singleton.mp hw
    exact absurd hk hφ
  draw h _ _ := h
  commit _ h hr := ⟨h.1.commitOk hr.inv, fun _ hw => (nomatch hw), (h.1.commitOk hr.inv).inv⟩
  rollback _ h := ⟨fun _ hw => (nomatch hw), h.2⟩

/-! ## Statements on other tables -/

/-- The writes of a log to the refresh tokens. -/
def tokenLog (l : Local Row Key) : List (Write Row Key) :=
  l.log.filter fun w => w.key.table = .refreshTokens

theorem mem_tokens_apply_filter {t : RefreshToken} : ∀ (log : List (Write Row Key)) (c : Database),
    t ∈ tokens (c.apply log) ↔
      t ∈ tokens (c.apply (log.filter fun w => w.key.table = .refreshTokens)) := by
  have key : ∀ (log : List (Write Row Key)) (c d : Database),
      (∀ t, t ∈ tokens c ↔ t ∈ tokens d) → ∀ t, t ∈ tokens (c.apply log) ↔
        t ∈ tokens (d.apply (log.filter fun w => w.key.table = .refreshTokens)) := by
    intro log
    induction log with
    | nil => exact fun c d h => h
    | cons w log ih =>
      intro c d h t
      by_cases hw : w.key.table = .refreshTokens
      · rw [List.filter_cons_of_pos (by simpa using hw)]
        refine ih _ _ (fun s => ?_) t
        simp only [mem_tokens, Table.mem_write] at h ⊢
        rw [h s]
      · rw [List.filter_cons_of_neg (by simpa using hw)]
        refine ih _ _ (fun s => ?_) t
        rw [← h s, mem_tokens, mem_tokens, Table.mem_write]
        constructor
        · rintro (hs | ⟨hs, -⟩)
          · cases w with
            | store r => cases hs; exact absurd rfl hw
            | delete k => cases hs
          · exact hs
        · exact fun hs => .inr ⟨hs, fun hk => hw (hk ▸ rfl)⟩
  exact fun log c => key log c c (fun _ => Iff.rfl) t

theorem mem_tokens_view {t : RefreshToken} :
    t ∈ tokens (l.view c) ↔ t ∈ tokens (c.apply (tokenLog l)) := mem_tokens_apply_filter l.log c

/-- The session `l'` has written no refresh token since it was `l`. -/
structure TokenFrame (l l' : Local Row Key) : Prop where
  log : tokenLog l' = tokenLog l
  locks : ∀ k ∈ l.locks, k ∈ l'.locks
  ids : ∀ n ∈ l.ids, n ∈ l'.ids
  drawn : ∀ n ∈ l.drawn, n ∈ l'.drawn

theorem TokenFrame.refl (l : Local Row Key) : TokenFrame l l :=
  ⟨rfl, fun _ h => h, fun _ h => h, fun _ h => h⟩

theorem TokenFrame.trans {l₁ l₂ l₃ : Local Row Key} (h₁ : TokenFrame l₁ l₂)
    (h₂ : TokenFrame l₂ l₃) : TokenFrame l₁ l₃ :=
  ⟨h₂.log.trans h₁.log, fun k hk => h₂.locks k (h₁.locks k hk), fun n hn => h₂.ids n (h₁.ids n hn),
    fun n hn => h₂.drawn n (h₁.drawn n hn)⟩

theorem TokenFrame.rely {l' : Local Row Key} (h : TokenFrame l l')
    (hr : tokenProtocol.Rely l' c c') : tokenProtocol.Rely l c c' := hr.mono h.locks h.ids

theorem TokenFrame.append (l : Local Row Key) (ks : List Key) {ws : List (Write Row Key)}
    (h : ∀ w ∈ ws, w.key.table ≠ .refreshTokens) :
    TokenFrame l { l with log := l.log ++ ws, locks := ks ++ l.locks } := by
  refine ⟨?_, fun _ hk => List.mem_append_right _ hk, fun _ hn => hn, fun _ hn => hn⟩
  have : ws.filter (fun w => w.key.table = .refreshTokens) = [] :=
    List.filter_eq_nil_iff.mpr fun w hw => by simpa using h w hw
  simp [tokenLog, List.filter_append, this]

/-- **Statements on other tables keep the frame.** -/
theorem frame_invariant (l₀ : Local Row Key) (c₀ : Database) :
    Protocol.Invariant tokenProtocol (Writes frameRules)
      fun l c => TokenFrame l₀ l ∧ tokenProtocol.Rely l₀ c₀ c where
  rely {l c c'} h hr := ⟨h.1, h.2.trans (h.1.rely hr)⟩
  lock {l c p f r} hφ h hr hp := by
    refine ⟨h.1.trans (.append l [key r] fun w hw htab => ?_ : TokenFrame l (l.lock r (f r))), h.2⟩
    have hkey := Effect.key_of_mem_log hw
    have hother : r.table ≠ .refreshTokens := by
      have hφ' := hφ r hp
      cases hf : f r with
      | keep => rw [hf] at hw; cases hw
      | remove => rw [hf] at hφ'; exact hφ'
      | store r' same => rw [hf] at hφ'; exact hφ'.resolve_right id
    exact hother (by rw [hkey] at htab; exact htab)
  insert {l c r} hφ h _ := by
    refine ⟨h.1.trans (.append l [key r] fun w hw htab => ?_ : TokenFrame l (l.insert r)), h.2⟩
    cases List.mem_singleton.mp hw
    exact hφ htab
  draw {l c n} h _ _ :=
    ⟨h.1.trans ⟨rfl, fun _ hk => hk, fun _ hn => List.mem_cons_of_mem _ hn,
      fun _ hn => List.mem_cons_of_mem _ hn⟩, h.2⟩
  commit hφ _ _ := hφ.elim
  rollback hφ _ := hφ.elim

end DevOps
