import DevOpsAssistant.Sessions.Issue

/-!
# Rotating tokens

* `safe_getByJtiForUpdate`: the row `SELECT … FOR UPDATE` returns is current and locked.
* `Rotated`: what `rotate` leaves; **`Rotated.commitOk`**, **`safe_rotate`**.
* **`safe_refresh`**: a refresh rotates a live token, revokes at most, or writes no token.
-/

namespace DevOps

open Txn AuthService

variable {env : Env} {l l' : Local Row Key} {c c' : Database}

/-! ## The row lock -/

/-- The token `t` is current, locked by the session and has the identifier `jti`. -/
structure Held (jti : UUID) (t : RefreshToken) (l : Local Row Key) (c : Database) : Prop where
  mem : t ∈ tokens (l.view c)
  locked : tokenKey t ∈ l.locks
  jti_eq : t.jti = jti

theorem safe_getByJtiForUpdate (jti : UUID) :
    tokenProtocol.safe (onReturn fun found l' c' => TokenFrame l l' ∧ tokenProtocol.Rely l c c' ∧
        ∀ t ∈ found, Held jti t l' c')
      (RefreshTokenRepository.getByJtiForUpdate jti) l c := by
  intro c₁ h₁
  refine Protocol.scanSafe_mono (fun rs l₂ c₂ (hlocked : Protocol.Locked tokenProtocol
    (fun r => (ofRow r : Option RefreshToken).any fun t => t.jti = jti) l c₁ rs l₂ c₂) => ?_) _
    (Protocol.scanSafe_keep _ ⟨h₁.again, ⟨[], rfl⟩, by simp⟩)
  have hheld : ∀ t ∈ rs.filterMap (ofRow : Row → Option RefreshToken), Held jti t l₂ c₂ := by
    intro t ht
    obtain ⟨r, hr, hrt⟩ := List.mem_filterMap.mp ht
    obtain ⟨hp, hm, hk⟩ := hlocked.rows r hr
    obtain rfl := (Entity.ofRow_eq_some r t).mp hrt
    obtain ⟨-, s, hs, hj⟩ := table_of_ofRow_any hp
    cases hs
    exact ⟨mem_tokens.mpr hm, hk, of_decide_eq_true hj⟩
  have hframe : TokenFrame l l₂ := by
    obtain ⟨ks, rfl⟩ := hlocked.locks
    exact ⟨rfl, fun _ hk => List.mem_append_right _ hk, fun _ hn => hn, fun _ hn => hn⟩
  have hrely : tokenProtocol.Rely l c c₂ := h₁.trans hlocked.rely
  refine Protocol.safe_of_rely fun c₃ h₃ => ?_
  have hpost : ∀ found : Option RefreshToken,
      (∀ t ∈ found, t ∈ rs.filterMap (ofRow : Row → Option RefreshToken)) →
      ∀ c', tokenProtocol.Rely l₂ c₃ c' → ∀ a, (Except.ok found : Except Exc _) = .ok a →
        TokenFrame l l₂ ∧ tokenProtocol.Rely l c c' ∧ ∀ t ∈ a, Held jti t l₂ c' := by
    rintro found hfound c' hc _ ⟨⟩
    refine ⟨hframe, hrely.trans (hframe.rely (h₃.trans hc)), fun t ht => ?_⟩
    have h := hheld t (hfound t ht)
    exact ⟨mem_tokens.mpr (((h₃.trans hc).same.replay l₂.log (.refreshToken t) h.locked).mpr
      (mem_tokens.mp h.mem)), h.locked, h.jti_eq⟩
  change tokenProtocol.safe _ (scalarOneOrNone (rs.filterMap ofRow)) l₂ c₃
  generalize rs.filterMap (ofRow : Row → Option RefreshToken) = ts at hpost
  match ts with
  | [] => exact hpost none fun _ ht => nomatch ht
  | [t] => exact hpost (some t) fun s hs => by simpa [eq_comm] using hs
  | _ :: _ :: _ => exact fun c' _ a ha => nomatch ha

/-! ## Rotation -/

/-- The writes of a rotation to the refresh tokens. -/
def rotationLog (old : RefreshToken) (t : Time) (new : RefreshToken) : List (Write Row Key) :=
  [.store (.refreshToken { old with usedAt := some t }), .store (.refreshToken new),
    .store (.refreshToken { old with usedAt := some t, replacedByTokenId := some new.id })]

/-- The session has marked the token `old` as used and linked it to its successor `new`, presented
as `raw`, and written no other token. -/
structure Rotated (old : RefreshToken) (t : Time) (raw : RawToken) (new : RefreshToken)
    (l : Local Row Key) (c : Database) : Prop where
  rely : tokenProtocol.Rely l c c
  log : tokenLog l = rotationLog old t new
  mem_old : old ∈ tokens c
  live : Live old
  locked : tokenKey old ∈ l.locks
  pristine : Pristine new
  id : new.id ∈ l.ids
  jti : new.jti ∈ l.ids
  drawn : new.jti ∈ l.drawn
  absent : ∀ s ∈ tokens c, s.id ≠ new.id
  family : new.familyId = old.familyId
  user : new.userId = old.userId
  signed : ∃ exp, raw = .jwt ⟨some new.userId, new.jti, .refresh, exp, some new.familyId⟩

variable {user : User} {old new : RefreshToken} {t : Time} {raw : RawToken}

/-- The tokens after the writes of a rotation. -/
theorem mem_tokens_rotationLog (hold : old ∈ tokens c) (habsent : ∀ s ∈ tokens c, s.id ≠ new.id)
    (s : RefreshToken) : s ∈ tokens (c.apply (rotationLog old t new)) ↔ s = new ∨
      s = { old with usedAt := some t, replacedByTokenId := some new.id } ∨
      (s ∈ tokens c ∧ s.id ≠ old.id) := by
  have hkey : ∀ a b : RefreshToken, key (Row.refreshToken a) ≠ key (Row.refreshToken b) ↔
      a.id ≠ b.id := fun a b => by
    rw [not_iff_not]
    exact ⟨fun hk => congrArg Key.id hk, fun hid => congrArg (Key.mk .refreshTokens) hid⟩
  have hne := habsent old hold
  rw [mem_tokens, mem_tokens]
  simp only [rotationLog, Table.apply_cons, Table.apply_nil, Table.mem_write_store,
    Row.refreshToken.injEq, hkey]
  constructor
  · rintro (rfl | ⟨rfl | ⟨rfl | hs, -⟩, hid⟩)
    · exact .inr (.inl rfl)
    · exact .inl rfl
    · exact absurd rfl hid
    · exact .inr (.inr ⟨hs.1, hs.2⟩)
  · rintro (rfl | rfl | ⟨hs, hid⟩)
    · exact .inr ⟨.inl rfl, hne.symm⟩
    · exact .inl rfl
    · exact .inr ⟨.inr ⟨.inr ⟨hs, hid⟩, habsent s (mem_tokens.mpr hs)⟩, hid⟩

/-- The tokens after the commit of a rotation. -/
theorem Rotated.mem_view (h : Rotated old t raw new l c) (s : RefreshToken) :
    s ∈ tokens (l.view c) ↔ s = new ∨
      s = { old with usedAt := some t, replacedByTokenId := some new.id } ∨
      (s ∈ tokens c ∧ s.id ≠ old.id) := by
  rw [mem_tokens_view, h.log]
  exact mem_tokens_rotationLog h.mem_old h.absent s

theorem Rotated.commitOk (h : Rotated old t raw new l c) : tokenProtocol.CommitOk l c := by
  have hfresh : ∀ s ∈ tokens c, s.jti ≠ new.jti := fun s hs hj => by
    have := h.rely.unused new.jti h.jti (.refreshToken s) (mem_tokens.mp hs)
    simp [tokenProtocol, tokenNames, hj] at this
  refine commitOk_of_effect h.rely.inv (.rotate old new t h.mem_old h.live h.locked h.pristine
    hfresh h.absent h.family h.user h.mem_view) fun s hs => ?_
  rcases (h.mem_view s).mp hs with rfl | rfl | ⟨hs, -⟩
  · exact .inr ⟨h.id, h.jti, .inr ⟨old, h.mem_old, h.family.symm⟩⟩
  · exact .inl ⟨old, h.mem_old, h.rely.inv.grows_rotated h.mem_old h.live t new.id⟩
  · exact .inl ⟨s, hs, .refl s⟩

/-- **Rotation** of a live token the session has locked, or a violated constraint. -/
theorem safe_rotate (hl : tokenLog l = []) (hm : old ∈ tokens c) (hlive : Live old) (hk : tokenKey old ∈ l.locks)
    (hu : user.id = old.userId) :
    tokenProtocol.safe (onReturn fun p l' c' => ∃ new, Rotated old t p.refreshToken new l' c')
      (rotate env user old t) l c := by
  have hview : ∀ {c'}, old ∈ tokens (l.view c') ↔ old ∈ tokens c' := fun {c'} => by
    rw [mem_tokens_view, hl, Table.apply_nil]
  refine safe_bind_updateById old _ (hview.mpr hm) hk fun l₁ c₁ hr₁ hl₁ hk₁ hids₁ hdrawn₁ hself₁ => ?_
  rw [hl, List.nil_append] at hl₁
  refine safe_bind_return _ (safe_createTokenInFamily old.familyId) fun p l₂ c₂ h hself₂ => ?_
  obtain ⟨hissued, hfam⟩ := h
  obtain ⟨raw, new⟩ := p
  have hm₂ : old ∈ tokens c₂ := (mem_tokens_of_same (hissued.rely.same.mono hk₁) hk).mpr
    ((mem_tokens_of_same hr₁.same hk).mpr hm)
  have hlog₂ : tokenLog l₂ = [.store (.refreshToken { old with usedAt := some t }),
      .store (.refreshToken new)] := by rw [hissued.log, hl₁]; rfl
  have hne : old.id ≠ new.id := by
    refine hissued.absent { old with usedAt := some t } ?_
    rw [hl₁, mem_tokens]
    exact Table.mem_write_store.mpr (.inl rfl)
  have hused : ({ old with usedAt := some t } : RefreshToken) ∈ tokens (l₂.view c₂) := by
    rw [mem_tokens_view, hlog₂, mem_tokens]
    exact Table.mem_write_store.mpr (.inr ⟨Table.mem_write_store.mpr (.inl rfl),
      fun hid => hne (congrArg Key.id hid)⟩)
  -- the row is linked to its successor
  refine safe_bind_updateById { old with usedAt := some t } _ hused (hissued.locks _ (hk₁ _ hk))
    fun l₃ c₃ hr₃ hl₃ hk₃ hids₃ hdrawn₃ hself₃ => ?_
  refine safe_bind_frame (only_buildTokenPair env _ _) hself₃ fun pair l₄ c₄ hraw hfr₄ hr₄ hself₄ => ?_
  refine safe_bind_frame (only_recordEvent frameRules_audit _ _ _ _) hself₄
    fun _ l₅ c₅ _ hfr₅ hr₅ hself₅ c' hc a ha => ?_
  have hfr : TokenFrame l₃ l₅ := hfr₄.trans hfr₅
  have hrely : tokenProtocol.Rely l₃ c₃ c' := hr₄.trans (hfr₄.rely (hr₅.trans (hfr₅.rely hc)))
  have hlocks : ∀ k ∈ l.locks, k ∈ l₃.locks := fun k hk => hk₃ k (hissued.locks k (hk₁ k hk))
  have hsame : c₂.SameAt l₂.locks c' := hr₃.same.trans (hrely.same.mono hk₃)
  have hm' : old ∈ tokens c' :=
    (mem_tokens_of_same hsame (hissued.locks _ (hk₁ _ hk))).mpr hm₂
  cases ha
  refine ⟨new, hc.again, ?_, hm', hlive, hfr.locks _ (hlocks _ hk), hissued.pristine,
    hfr.ids _ (hids₃ ▸ hissued.id), hfr.ids _ (hids₃ ▸ hissued.jti), hfr.drawn _ (hdrawn₃ ▸ hissued.drawn), fun s hs => ?_, hfam,
    hissued.owner.trans hu, ?_⟩
  · rw [hfr.log, hl₃, hlog₂]
    rfl
  · -- a row with the key of the new token would have been there when it was inserted
    intro hid
    have hs₂ : s ∈ tokens c₂ := (mem_tokens_of_same hsame (by
      rw [tokenKey, hid]; exact hissued.locked)).mp hs
    refine hissued.absent s ?_ hid
    rw [hl₁, mem_tokens]
    exact Table.mem_write_store.mpr (.inr ⟨mem_tokens.mp hs₂,
      fun hk => hne ((congrArg Key.id hk).symm.trans hid)⟩)
  · rw [hraw, hissued.owner]
    exact hissued.signed

/-! ## Refresh -/

theorem quietLog_of_tokenLog_nil (h : tokenLog l = []) : QuietLog l c := fun w hw hk => by
  have : w ∈ tokenLog l := List.mem_filter.mpr ⟨hw, by simpa using hk⟩
  rw [h] at this
  cases this

/-- **A refresh** that returns has rotated the token it was given. -/
theorem safe_refresh (raw : RawToken) (hl : tokenLog l = []) (hr : tokenProtocol.Rely l c c) :
    tokenProtocol.safe (onReturn fun p l' c' => ∃ payload old t new, raw = .jwt payload ∧
        old.jti = payload.jti ∧ Rotated old t p.refreshToken new l' c')
      (AuthService.refresh env raw) l c := by
  unfold AuthService.refresh
  refine safe_bind_frame (only_exceptUnauthorized (only_decodeToken env raw .refresh)
    ((only_recordEvent frameRules_audit _ _ _ _).bind fun _ _ => trivial)) hr
    fun payload l₁ c₁ hraw hfr₁ _ _ => ?_
  refine safe_bind_return _ (safe_getByJtiForUpdate payload.jti) fun found l₂ c₂ h hself => ?_
  obtain ⟨hfr₂, -, hheld⟩ := h
  have hl₂ : tokenLog l₂ = [] := (hfr₁.trans hfr₂).log.trans hl
  cases found with
  | none => exact safe_of_raises (only_refreshFailure frameRules_audit _) hself
  | some old =>
    obtain ⟨hm, hk, hj⟩ := hheld old rfl
    rw [mem_tokens_view, hl₂, Table.apply_nil] at hm
    simp only
    split
    · -- the revocation of the family is dropped with the exception
      refine safe_of_quiet_raises ?_ (quietLog_of_tokenLog_nil hl₂) hself.inv
      exact (only_revokeWhere allowsAccounts_quiet.revoke _ _).bind fun _ _ =>
        (only_recordEvent frameRules_audit _ _ _ _).bind fun _ _ => trivial
    next hlive =>
    have hlive : Live old := by
      simpa [Live, Option.isSome_iff_ne_none] using hlive
    refine safe_bind_frame only_now hself fun t l₃ c₃ _ hfr₃ hr₃ hself => ?_
    split
    · exact safe_of_raises (only_refreshFailure frameRules_audit _) hself
    split
    · exact safe_of_raises (only_refreshFailure frameRules_audit _) hself
    split
    · exact safe_of_raises (only_refreshFailure frameRules_audit _) hself
    next userId _ =>
    split
    · exact safe_of_raises (only_refreshFailure frameRules_audit _) hself
    next huser =>
    refine safe_bind_frame (only_getById userId) hself fun user l₄ c₄ huid hfr₄ hr₄ hself => ?_
    split
    · exact safe_of_raises (only_refreshFailure frameRules_audit _) hself
    next user =>
    split
    · exact safe_of_raises (only_refreshFailure frameRules_audit _) hself
    · have hfr := hfr₃.trans hfr₄
      have hrely : tokenProtocol.Rely l₂ c₂ c₄ := hr₃.trans (hfr₃.rely hr₄)
      refine Protocol.safe_mono (fun _ _ _ h p hp => ?_) (safe_rotate (hfr.log.trans hl₂)
        ((mem_tokens_of_same hrely.same hk).mpr hm) hlive (hfr.locks _ hk)
        ((huid user rfl).trans (not_not.mp huser)))
      obtain ⟨new, hnew⟩ := h p hp
      exact ⟨payload, old, t, new, hraw, hj, hnew⟩

end DevOps
