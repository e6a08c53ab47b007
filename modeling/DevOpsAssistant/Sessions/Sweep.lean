import DevOpsAssistant.Sessions.RevokeAll

/-!
# The `UPDATE` that revokes all sessions, among other transactions

The statement revokes the tokens it saw when it started. A successor that another transaction
commits after that stays unrevoked; without such a commit none does.

* `HasRotated`, `Undisturbed`: the commits of other sessions that the statement misses.
* `Covered`: the tokens the statement has dealt with or will visit.
* `SweepInv`, **`SweepInv.step`**: the invariant of the session, from its `UPDATE` on.
* **`revoke_all_final_of_undisturbed`**: after the commit all tokens of the user are revoked.
-/

namespace DevOps

open Txn

variable {env : Env} {u : UUID} {F : UUID → Prop} {n : ℕ} {tx tx' : AccountTx}

/-! ## Commits of other sessions -/

/-- The open transaction of `tx` has rotated a token of the user `u`: it has written a successor, an
unused and unrevoked token of a family that exists. -/
def HasRotated (u : UUID) (tx : AccountTx) (c : Database) : Prop :=
  ∃ new, .store (.refreshToken new) ∈ tx.log ∧ new.userId = u ∧ Live new ∧
    ∃ t ∈ tokens c, t.familyId = new.familyId

/-- While the `n`th session is open, the step is not the commit of a rotation of a token of `u` by
another session. -/
def Undisturbed (u : UUID) (n : ℕ) (c c' : AccountConfig) : Prop :=
  ∀ m s t k, m ≠ n → c.txs[n]? = some s → s.prog.done = false → c.txs[m]? = some t →
    t.prog = .commit k → HasRotated u t c.committed → c'.txs[m]? = some t

/-- Apart from rotations of its tokens, the commit of another session gives the user no new token in
an old family. -/
theorem came_of_not_rotated {c : Database} {ks : List Key} (hl : Linear c)
    (hF : ∀ f, F f → ∃ t ∈ tokens c, t.familyId = f) (he : TokenEffect ks c (tx.view c)) (hrot : ¬ HasRotated u tx c) :
    ∀ t' ∈ tokens (tx.view c), t'.userId = u → F t'.familyId → ∃ t ∈ tokens c, Grows t t' := by
  intro t' ht' hu hf
  have hnew : ∀ {new : RefreshToken}, new ∈ tokens (tx.view c) → (∀ t ∈ tokens c, t.id ≠ new.id) →
      .store (.refreshToken new) ∈ tx.log := fun {new} hm hid => by
    rcases Table.mem_apply tx.log (mem_tokens.mp hm) with hs | ⟨hm, -⟩
    · exact hs
    · exact absurd rfl (hid new (mem_tokens.mpr hm))
  cases he with
  | revoke came kept =>
    obtain ⟨t, ht, hr⟩ := came t' ht'
    exact ⟨t, ht, hr.grows⟩
  | issue new pristine jti id family mem =>
    rcases (mem t').mp ht' with rfl | ht
    · obtain ⟨t, ht, htf⟩ := hF _ hf
      exact absurd htf (family t ht)
    · exact ⟨t', ht, .refl t'⟩
  | rotate old new t mem_old live locked pristine jti id family user mem =>
    rcases (mem t').mp ht' with rfl | rfl | ⟨ht, -⟩
    · exact absurd ⟨t', hnew ht' id, hu, pristine.1, old, mem_old, family.symm⟩ hrot
    · exact ⟨old, mem_old, hl.grows_rotated mem_old live t new.id⟩
    · exact ⟨t', ht, .refl t'⟩

/-! ## The tokens the statement deals with -/

/-- Each token of the user in an old family is revoked, or will be visited at one of the keys `ks`, or
is locked by the session and revoked in its view. -/
def Covered (u : UUID) (F : UUID → Prop) (ks : List Key) (l : Local Row Key) (c : Database) : Prop :=
  ∀ t ∈ tokens c, t.userId = u → F t.familyId → t.revokedAt.isSome ∨ tokenKey t ∈ ks ∨
    (tokenKey t ∈ l.locks ∧ ∀ t' ∈ tokens (l.view c), t'.id = t.id → t'.revokedAt.isSome)

/-- Every refresh token the session has written is revoked. -/
def LogRevokes (l : Local Row Key) : Prop :=
  ∀ t, .store (.refreshToken t) ∈ l.log → t.revokedAt.isSome

variable {c : Database} {l l' : Local Row Key} {ks : List Key}

/-- A token is written by the session or appears in its view. -/
theorem mem_view_or_written (hlock : ∀ w ∈ l.log, w.key ∈ l.locks) (hrev : LogRevokes l)
    {t : RefreshToken} (ht : t ∈ tokens c) : t ∈ tokens (l.view c) ∨ (tokenKey t ∈ l.locks ∧
      ∀ t' ∈ tokens (l.view c), t'.id = t.id → t'.revokedAt.isSome) := by
  by_cases hw : ∀ w ∈ l.log, w.key ≠ tokenKey t
  · exact .inl (mem_tokens.mpr ((Table.mem_apply_of_key_notMem l.log hw).mpr (mem_tokens.mp ht)))
  · push Not at hw
    obtain ⟨w, hwl, hwk⟩ := hw
    refine .inr ⟨hwk ▸ hlock w hwl, fun t' ht' hid => ?_⟩
    rcases Table.mem_apply l.log (mem_tokens.mp ht') with hs | ⟨-, hno⟩
    · exact hrev t' hs
    · exact absurd (hwk.trans (congrArg (Key.mk .refreshTokens) hid.symm)) (hno w hwl)

/-- What the statement sees when it starts covers all tokens. -/
theorem Covered.snapshot (hl : tokenLog l = []) :
    Covered u F (((l.view c).rows.filter (ofUserUnrevoked u)).map key) l c := by
  intro t ht hu _
  cases hrev : t.revokedAt with
  | some _ => exact .inl rfl
  | none =>
    have hv : t ∈ tokens (l.view c) := by rwa [mem_tokens_view, hl]
    exact .inr (.inl (List.mem_map.mpr ⟨_, List.mem_filter.mpr ⟨mem_tokens.mp hv,
      ofUserUnrevoked_token.mpr ⟨hu, hrev⟩⟩, rfl⟩))

/-- The commit of another session keeps the tokens covered. -/
theorem Covered.other {c' : Database} (h : Covered u F ks l c) (hsame : c.SameAt l.locks c')
    (hcame : ∀ t' ∈ tokens c', t'.userId = u → F t'.familyId → ∃ t ∈ tokens c, Grows t t') :
    Covered u F ks l c' := by
  intro t' ht' hu hf
  obtain ⟨t, ht, hg⟩ := hcame t' ht' hu hf
  have hkey : tokenKey t = tokenKey t' := congrArg (Key.mk .refreshTokens) hg.id.symm
  rcases h t ht (hg.userId.symm.trans hu) (hg.familyId ▸ hf) with hr | hk | ⟨hk, hv⟩
  · exact .inl (hg.revoked hr)
  · exact .inr (.inl (hkey ▸ hk))
  · have hk' : tokenKey t' ∈ l.locks := hkey ▸ hk
    refine .inr (.inr ⟨hk', fun s hs hid => hv s ?_ (hid.trans hg.id)⟩)
    have hsk : key (Row.refreshToken s) ∈ l.locks := by
      change (⟨.refreshTokens, s.id⟩ : Key) ∈ l.locks
      rw [hid]
      exact hk'
    exact mem_tokens.mpr ((hsame.replay l.log _ hsk).mp (mem_tokens.mp hs))

/-- Statements on other tables keep the tokens covered. -/
theorem Covered.frame (h : Covered u F ks l c) (hfr : TokenFrame l l') : Covered u F ks l' c := by
  intro t ht hu hf
  rcases h t ht hu hf with hr | hk | ⟨hk, hv⟩
  · exact .inl hr
  · exact .inr (.inl hk)
  · refine .inr (.inr ⟨hfr.locks _ hk, fun s hs hid => hv s ?_ hid⟩)
    rwa [mem_tokens_view, ← hfr.log, ← mem_tokens_view]

theorem mem_tokenLog {t : RefreshToken} :
    .store (.refreshToken t) ∈ tokenLog l ↔ .store (.refreshToken t) ∈ l.log := by
  simp [tokenLog, List.mem_filter, Write.key, Row.table]

theorem LogRevokes.frame (h : LogRevokes l) (hfr : TokenFrame l l') : LogRevokes l' := fun t ht =>
  h t (mem_tokenLog.mp (hfr.log ▸ mem_tokenLog.mpr ht))

/-- Revoking the row at the next key. -/
theorem Covered.lock {x : Key} {r : Row} (h : Covered u F (x :: ks) l c)
    (hr : (l.view c).lookup x = some r) (hu : ofUserUnrevoked u r = true) (t : Time)
    (reason : String) : Covered u F ks (l.lock r (revokeEffect t reason r)) c := by
  obtain ⟨s, rfl, -, -⟩ := ofUserUnrevoked_row hu
  obtain ⟨-, hx⟩ := Table.lookup_eq_some.mp hr
  -- in the new view the row at `x` is revoked and the others are as before
  have hview : ∀ t', t' ∈ tokens ((l.lock (.refreshToken s) (revokeEffect t reason _)).view c) →
      t'.revokedAt.isSome ∨ (t' ∈ tokens (l.view c) ∧ tokenKey t' ≠ x) := by
    intro t' ht'
    rw [mem_tokens, Local.view, Local.lock, Table.apply_append, revokeEffect_token] at ht'
    rcases Table.mem_write_store.mp ht' with heq | ⟨hm, hk⟩
    · cases heq
      exact .inl rfl
    · exact .inr ⟨mem_tokens.mpr hm, fun hkx => hk (hkx.trans hx.symm)⟩
  intro t₁ ht₁ hu₁ hf₁
  rcases h t₁ ht₁ hu₁ hf₁ with hrev | hk | ⟨hk, hv⟩
  · exact .inl hrev
  · rcases List.mem_cons.mp hk with hk | hk
    · refine .inr (.inr ⟨hk ▸ hx ▸ List.mem_cons_self, fun t' ht' hid => ?_⟩)
      exact (hview t' ht').resolve_right fun h =>
        h.2 ((congrArg (Key.mk .refreshTokens) hid).trans hk)
    · exact .inr (.inl hk)
  · exact .inr (.inr ⟨List.mem_cons_of_mem _ hk, fun t' ht' hid =>
      (hview t' ht').elim (fun h => h) fun h => hv t' h.1 hid⟩)

/-- Passing over the next key, where there is no unrevoked token of the user. -/
theorem Covered.skip {x : Key} (h : Covered u F (x :: ks) l c)
    (hlock : ∀ w ∈ l.log, w.key ∈ l.locks) (hrev : LogRevokes l)
    (hskip : ∀ r, (l.view c).lookup x = some r → ¬ ofUserUnrevoked u r) : Covered u F ks l c := by
  intro t ht hu hf
  rcases h t ht hu hf with hr | hk | hk
  · exact .inl hr
  · rcases List.mem_cons.mp hk with hk | hk
    · rcases mem_view_or_written hlock hrev ht with hv | hw
      · have hno := hskip (.refreshToken t) (Table.lookup_eq_some.mpr ⟨mem_tokens.mp hv, hk⟩)
        rw [ofUserUnrevoked_token] at hno
        exact .inl (Option.isSome_iff_ne_none.mpr fun hn => hno ⟨hu, hn⟩)
      · exact .inr (.inr hw)
    · exact .inr (.inl hk)
  · exact .inr (.inr hk)

/-- When nothing is left to visit, the view has no unrevoked token of the user in an old family. -/
theorem Covered.revoked (h : Covered u F [] l c) (hrev : LogRevokes l) :
    ∀ t ∈ tokens (l.view c), t.userId = u → F t.familyId → t.revokedAt.isSome := by
  intro t ht hu hf
  rcases Table.mem_apply l.log (mem_tokens.mp ht) with hs | ⟨hm, -⟩
  · exact hrev t hs
  · rcases h t (mem_tokens.mpr hm) hu hf with hr | hk | ⟨-, hv⟩
    · exact hr
    · cases hk
    · exact hv t ht rfl

/-! ## The invariant -/

/-- The session has sent the `UPDATE`, and its commit will leave no unrevoked token. -/
inductive SweepInv (u : UUID) (F : UUID → Prop) (tx : AccountTx) (c : Database) : Prop where
  | start (hs : Sweeping u tx) (hscan : tx.scan = none) (hlog : tokenLog tx.toLocal = [])
  | scan {ks rs} (hs : Sweeping u tx) (hscan : tx.scan = some (ks, rs))
    (hrev : LogRevokes tx.toLocal) (hcov : Covered u F ks tx.toLocal c)
  | after (ha : After tx) (hrev : LogRevokes tx.toLocal) (hcov : Covered u F [] tx.toLocal c)
  | raised {e} (he : tx.prog = .raise e)
  | done {a} (ha : tx.prog = .ret a)
    (hrev : ∀ t ∈ tokens c, t.userId = u → F t.familyId → t.revokedAt.isSome)

theorem logRevokes_of_nil (h : tokenLog l = []) : LogRevokes l := fun t ht => by
  have := mem_tokenLog.mpr ht
  rw [h] at this
  cases this

variable {cfg cfg' : AccountConfig}

/-- The turns of the session while the `UPDATE` is its statement. -/
theorem Sweeping.turn (h : Sweeping u tx) (ht : Turns cfg n tx tx') :
    (tx.scan = none ∧ tx' = { tx with
      scan := some (((tx.view cfg.committed).rows.filter (ofUserUnrevoked u)).map key, []) }) ∨
    (∃ x ks rs r t reason, tx.scan = some (x :: ks, rs) ∧
      (tx.view cfg.committed).lookup x = some r ∧ ofUserUnrevoked u r = true ∧
      tx' = { tx with toLocal := tx.lock r (revokeEffect t reason r), scan := some (ks, rs ++ [r]) }) ∨
    (∃ x ks rs, tx.scan = some (x :: ks, rs) ∧
      (∀ r, (tx.view cfg.committed).lookup x = some r → ¬ ofUserUnrevoked u r) ∧
      tx' = { tx with scan := some (ks, rs) }) ∨
    (∃ rs, tx.scan = some ([], rs) ∧ After tx' ∧ tx'.toLocal = tx.toLocal) := by
  obtain ⟨t, reason, k, hprog, hk⟩ := h
  rw [Prog.unitOfWork_modify] at hprog
  cases ht with
  | ended hd =>
    rw [hprog] at hd
    cases hd
  | snapshot hp hs =>
    cases hprog.symm.trans hp
    exact .inl ⟨hs, rfl⟩
  | lock hp hs hfree hr hpr =>
    cases hprog.symm.trans hp
    exact .inr (.inl ⟨_, _, _, _, t, reason, hs, hr, hpr, rfl⟩)
  | skip hp hs hfree hskip =>
    cases hprog.symm.trans hp
    exact .inr (.inr (.inl ⟨_, _, _, hs, hskip, rfl⟩))
  | visited hp hs =>
    cases hprog.symm.trans hp
    exact .inr (.inr (.inr ⟨_, hs, ⟨k _, rfl, hk _⟩, rfl⟩))
  | _ hp => cases hprog.symm.trans hp

theorem committed_of_not_commit (h : CommitsTo cfg cfg' tx) (hp : ∀ k, tx.prog ≠ .commit k) :
    cfg'.committed = cfg.committed := by
  rcases h with ⟨hc, -⟩ | ⟨-, k, hk⟩
  · exact hc
  · exact absurd hk (hp k)

/-- **The session's own turns keep the invariant.** -/
theorem SweepInv.turn (h : SweepInv u F tx cfg.committed) (hs : tx.ScanOk)
    (hlock : ∀ w ∈ tx.log, w.key ∈ tx.locks) (ht : Turns cfg n tx tx')
    (hc : CommitsTo cfg cfg' tx) : SweepInv u F tx' cfg'.committed := by
  have hsweep : Sweeping u tx → cfg'.committed = cfg.committed := fun ⟨t, reason, k, hp, _⟩ =>
    committed_of_not_commit hc (by simp [hp])
  cases h with
  | start hsw hscan hlog =>
    rw [hsweep hsw]
    rcases hsw.turn ht with ⟨-, rfl⟩ | ⟨_, _, _, _, _, _, hs', -⟩ | ⟨_, _, _, hs', -⟩ | ⟨_, hs', -⟩
    · exact .scan hsw rfl (logRevokes_of_nil hlog) (.snapshot hlog)
    all_goals rw [hscan] at hs'; cases hs'
  | scan hsw hscan hrev hcov =>
    rw [hsweep hsw]
    rcases hsw.turn ht with ⟨hs', -⟩ | ⟨x, ks, rs, r, t, reason, hs', hr, hpr, rfl⟩ |
      ⟨x, ks, rs, hs', hskip, rfl⟩ | ⟨rs, hs', hafter, hl⟩
    · rw [hscan] at hs'
      cases hs'
    · cases hscan.symm.trans hs'
      refine .scan hsw rfl (fun s hm => ?_) (hcov.lock hr hpr t reason)
      rcases List.mem_append.mp hm with hm | hm
      · exact hrev s hm
      · obtain ⟨s', rfl, -, -⟩ := ofUserUnrevoked_row hpr
        rw [revokeEffect_token, List.mem_singleton] at hm
        cases hm
        rfl
    · cases hscan.symm.trans hs'
      exact .scan hsw rfl hrev (hcov.skip hlock hrev hskip)
    · cases hscan.symm.trans hs'
      exact .after hafter (hl ▸ hrev) (hl ▸ hcov)
  | after ha hrev hcov =>
    rcases ha.turn hs ht with ⟨ha', hfr⟩ | ⟨a, hp, hp'⟩ | ⟨e, hp'⟩
    · have hne : ∀ k, tx.prog ≠ .commit k := fun k hk => by
        have hdone := ha.commit hk
        cases ht with
        | commit hp =>
          cases hk.symm.trans hp
          rw [show k.done = false from ha'.not_done] at hdone
          cases hdone
        | ended hd => rw [hk] at hd; cases hd
        | snapshot hp | lock hp | skip hp => cases hk.symm.trans hp
        | _ hp => cases hk.symm.trans hp
      rw [committed_of_not_commit hc hne]
      exact .after ha' (hrev.frame hfr) (hcov.frame hfr)
    · rcases hc with ⟨-, hno⟩ | ⟨hview, -⟩
      · exact absurd hp (hno _)
      · rw [hview]
        exact .done hp' (hcov.revoked hrev)
    · exact .raised hp'
  | raised he =>
    cases ht with
    | ended hd => exact .raised he
    | _ hp => cases he.symm.trans hp
  | done ha hrev =>
    cases ht with
    | ended hd =>
      rw [committed_of_not_commit hc (by simp [ha])]
      exact .done ha hrev
    | _ hp => cases ha.symm.trans hp

/-- When the session is done, no rotation can follow. -/
theorem came_of_revoked {c c' : Database} (hF : ∀ f, F f → ∃ t ∈ tokens c, t.familyId = f)
    (he : Evolves c c') (hrev : ∀ t ∈ tokens c, t.userId = u → F t.familyId → t.revokedAt.isSome) :
    ∀ t' ∈ tokens c', t'.userId = u → F t'.familyId → ∃ t ∈ tokens c, Grows t t' := by
  intro t' ht' hu hf
  rcases he.new t' ht' with hold | hnew | ⟨p, hp, hpf, hpu, hlive⟩
  · exact hold
  · obtain ⟨t, ht, htf⟩ := hF _ hf
    exact absurd htf (hnew t ht)
  · have := hrev p hp (hpu.trans hu) (hpf ▸ hf)
    simp [hlive.2] at this

/-- The commit of another session keeps the invariant. -/
theorem SweepInv.other {c' : Database} (h : SweepInv u F tx c) (hsame : c.SameAt tx.locks c')
    (hcame : ∀ t' ∈ tokens c', t'.userId = u → F t'.familyId → ∃ t ∈ tokens c, Grows t t') :
    SweepInv u F tx c' := by
  cases h with
  | start hs hscan hlog => exact .start hs hscan hlog
  | scan hs hscan hrev hcov => exact .scan hs hscan hrev (hcov.other hsame hcame)
  | after ha hrev hcov => exact .after ha hrev (hcov.other hsame hcame)
  | raised he => exact .raised he
  | done ha hrev =>
    refine .done ha fun t' ht' hu hf => ?_
    obtain ⟨t, ht, hg⟩ := hcame t' ht' hu hf
    exact hg.revoked (hrev t ht (hg.userId.symm.trans hu) (hg.familyId ▸ hf))

variable {c₀ c₁ : AccountConfig} {tx₁ : AccountTx}

/-- **A step of the run keeps the invariant.** -/
theorem SweepInv.step (hsound : TokensSound cfg) (hscan : tx.ScanOk)
    (hF : ∀ f, F f → ∃ t ∈ tokens cfg.committed, t.familyId = f)
    (hs : Step respond (AccountRequest.serve env) cfg cfg') (hu : Undisturbed u n cfg cfg')
    (hn : cfg.txs[n]? = some tx) (h : SweepInv u F tx cfg.committed) :
    ∃ tx', cfg'.txs[n]? = some tx' ∧ SweepInv u F tx' cfg'.committed := by
  have hlt : n < cfg.txs.length := (List.getElem?_eq_some_iff.mp hn).1
  obtain ⟨hsound', hcommits⟩ := hsound.step (keeps_serve env) hs
  rcases hs.elim with ⟨i, htxs, hc, -⟩ | ⟨m, t, t', hm, ht, htxs, hc, -⟩ | ⟨m, t, e, hm, -, htxs, hc, -⟩
  · exact ⟨tx, by rw [htxs, List.getElem?_append_left hlt, hn], hc ▸ h⟩
  · by_cases hmn : m = n
    · subst hmn
      cases hn.symm.trans hm
      exact ⟨t', by rw [htxs, List.getElem?_set_self hlt],
        h.turn hscan (hsound.locked tx (List.mem_of_getElem? hn)) ht hc⟩
    · have hn' : cfg'.txs[n]? = some tx := by rw [htxs, List.getElem?_set_ne hmn, hn]
      refine ⟨tx, hn', ?_⟩
      rcases hc with ⟨hc, -⟩ | ⟨hc, k, hk⟩
      · exact hc ▸ h
      -- another session commits
      have hsame : cfg.committed.SameAt tx.locks cfg'.committed := by
        rw [hc]
        exact Table.SameAt.apply fun w hw => (hsound.apart m n t tx hmn hm hn).locks _
          (hsound.locked t (List.mem_of_getElem? hm) w hw)
      have hcame : tx.prog.done = false → ∀ t' ∈ tokens cfg'.committed, t'.userId = u →
          F t'.familyId → ∃ t ∈ tokens cfg.committed, Grows t t' := by
        intro hdone
        rcases hcommits with heq | ⟨_, _, _, _, heff⟩
        · rw [heq]
          exact fun t ht _ _ => ⟨t, ht, .refl t⟩
        · rw [hc] at heff ⊢
          refine came_of_not_rotated hsound.inv hF heff fun hrot => ?_
          have hstay := hu m tx t k hmn hn hdone hm hk hrot
          rw [htxs, List.getElem?_set_self (List.getElem?_eq_some_iff.mp hm).1] at hstay
          exact absurd (Option.some.inj hstay) (ht.prog_ne_of_commit hk)
      cases h with
      | raised he => exact .raised he
      | done ha hrev =>
        exact (SweepInv.done ha hrev).other hsame
          (came_of_revoked hF (evolves_of_reach hsound (.single hs)) hrev)
      | start hs hsc hlog => exact (SweepInv.start hs hsc hlog).other hsame (hcame hs.not_done)
      | scan hs hsc hrev hcov =>
        exact (SweepInv.scan hs hsc hrev hcov).other hsame (hcame hs.not_done)
      | after ha hrev hcov => exact (SweepInv.after ha hrev hcov).other hsame (hcame ha.not_done)
  · by_cases hmn : m = n
    · subst hmn
      exact ⟨_, by rw [htxs, List.getElem?_set_self hlt], .raised rfl⟩
    · exact ⟨tx, by rw [htxs, List.getElem?_set_ne hmn, hn], hc ▸ h⟩

/-- **Revoking all sessions is final when no rotation commits meanwhile.** From the moment a session
that revokes all sessions of the user `u` sends its `UPDATE`: if no other session commits a rotation
of a token of `u` while it is open, then once it has committed, every token of `u` in a family that
existed is revoked, whatever else has run. -/
theorem revoke_all_final_of_undisturbed {s₀ : State} (h₀ : s₀.committed = .empty)
    (hr : Reach respond (AccountRequest.serve env) s₀.open c₀) (hn : c₀.txs[n]? = some tx)
    (hreq : tx.req.RevokesAll) (hat : AtRevokeAll u tx)
    (hrun : ReachWith respond (AccountRequest.serve env) (Undisturbed u n) c₀ c₁)
    (hn₁ : c₁.txs[n]? = some tx₁) {a : AccountResponse} (ha : tx₁.prog = .ret a) :
    ∀ t ∈ tokens c₁.committed, t.userId = u →
      (∃ t₀ ∈ tokens c₀.committed, t₀.familyId = t.familyId) → t.revokedAt.isSome := by
  have hphase := phase_of_reach hr tx (List.mem_of_getElem? hn)
  obtain ⟨hsweep, hlog⟩ := (hphase.2 hreq).sweeping hat
  have hsound₀ := tokensSound_of_reach h₀ hr
  have hinv : ∃ tx', c₁.txs[n]? = some tx' ∧
      SweepInv u (fun f => ∃ t₀ ∈ tokens c₀.committed, t₀.familyId = f) tx' c₁.committed := by
    clear hn₁
    induction hrun with
    | refl => exact ⟨tx, hn, .start hsweep hat.1 hlog⟩
    | @tail d d' hd hstep ih =>
      obtain ⟨tx', hn', hinv⟩ := ih
      have hreach : Reach respond (AccountRequest.serve env) s₀.open d :=
        Relation.ReflTransGen.trans hr (ReachWith.reach hd)
      refine hinv.step (tokensSound_of_reach h₀ hreach)
        (phase_of_reach hreach tx' (List.mem_of_getElem? hn')).1 ?_ hstep.1 hstep.2 hn'
      -- a family that existed when the statement was sent still exists
      rintro f ⟨t, ht, htf⟩
      obtain ⟨t', ht', hg⟩ := (evolves_of_reach hsound₀ (ReachWith.reach hd)).kept t ht
      exact ⟨t', ht', hg.familyId.trans htf⟩
  obtain ⟨tx', hn', hinv⟩ := hinv
  cases hn'.symm.trans hn₁
  have hdone : tx₁.prog.done = true := by rw [ha]; rfl
  cases hinv with
  | done ha' hrev => exact hrev
  | raised he => cases he.symm.trans ha
  | start hs | scan hs => exact absurd hs.not_done (by simp [hdone])
  | after hs => exact absurd hs.not_done (by simp [hdone])

/-! ## Runs -/

/-- The access token of the first account's first login in a new deployment. -/
def trialAccess : RawToken := .jwt ⟨some 1, 5, .access, 3600, none⟩

/-- The first account of a new deployment registers and logs in. -/
def loggedInMoves : List (Move Exc AccountRequest) :=
  Move.alone (.register "a@b.c" "ann" "correct horse") 0 6
    ++ Move.alone (.login "ann" "correct horse") 1 14

/-- A refresh has written its successor but not committed when all sessions are revoked. -/
theorem exists_missed_successor : ∃ c c₁ : AccountConfig,
    Reach respond (AccountRequest.serve .trial) State.trial.open c ∧
    Reach respond (AccountRequest.serve .trial)
      (c.arrive (AccountRequest.serve .trial) (.logoutAll trialAccess)) c₁ ∧
    (∃ tx a, c₁.txs[c.txs.length]? = some tx ∧ tx.prog = .ret a) ∧
    (∀ tx ∈ c₁.txs, tx.prog.done = true) ∧
    ∃ t ∈ tokens c₁.committed, t.userId = 1 ∧ t.revokedAt = none ∧
      ∃ t₀ ∈ tokens c.committed, t₀.familyId = t.familyId := by
  obtain ⟨c, hr, hc⟩ := exists_reach_of_run respond (AccountRequest.serve .trial)
    (c := State.trial.open)
    (loggedInMoves ++ Move.alone (.refresh (trialToken 3 1209600)) 2 23)
    (fun c => ((c.arrive (AccountRequest.serve .trial) (.logoutAll trialAccess)).run respond
      (AccountRequest.serve .trial) (List.replicate 4 (.turn 3) ++ .turn 2 ::
        List.replicate 6 (.turn 3))).any fun c₁ =>
      (c₁.txs[c.txs.length]?.any fun tx => tx.prog.returned) && (c₁.txs.all fun tx => tx.prog.done) &&
      (tokens c₁.committed).any fun t => t.userId = 1 && t.revokedAt.isNone &&
        (tokens c.committed).any fun t₀ => t₀.familyId = t.familyId)
    (by decide)
  obtain ⟨c₁, hrun, hc₁⟩ := (Option.any_eq_true _ _).mp hc
  rw [Bool.and_eq_true, Bool.and_eq_true, Option.any_eq_true, List.all_eq_true,
    List.any_eq_true] at hc₁
  obtain ⟨⟨⟨tx, htx, hret⟩, hdone⟩, t, ht, hprop⟩ := hc₁
  rw [Bool.and_eq_true, Bool.and_eq_true, decide_eq_true_eq, List.any_eq_true] at hprop
  obtain ⟨⟨hu, hrev⟩, t₀, ht₀, hf⟩ := hprop
  obtain ⟨a, ha⟩ := Prog.exists_ret hret
  exact ⟨c, c₁, hr, .of_run respond _ _ hrun, ⟨tx, a, htx, ha⟩, hdone, t, ht, hu,
    Option.isNone_iff_eq_none.mp hrev, t₀, ht₀, of_decide_eq_true hf⟩

/-- Revoking all sessions is not final: it misses the successor a concurrent refresh commits. -/
theorem revoke_all_not_final : ¬ ∀ (env : Env) (s₀ : State) (c c₁ : AccountConfig)
    (payload : TokenPayload) (u : UUID) (tx : AccountTx) (a : AccountResponse),
      s₀.committed = .empty → Reach respond (AccountRequest.serve env) s₀.open c →
      payload.sub = some u →
      Reach respond (AccountRequest.serve env)
        (c.arrive (AccountRequest.serve env) (.logoutAll (.jwt payload))) c₁ →
      c₁.txs[c.txs.length]? = some tx → tx.prog = .ret a → (∀ t ∈ c₁.txs, t.prog.done = true) →
      ∀ t ∈ tokens c₁.committed, t.userId = u →
        (∃ t₀ ∈ tokens c.committed, t₀.familyId = t.familyId) → t.revokedAt.isSome := by
  intro h
  obtain ⟨c, c₁, hr, hr₁, ⟨tx, a, htx, ha⟩, hdone, t, ht, hu, hrev, hf⟩ := exists_missed_successor
  have := h .trial State.trial c c₁ ⟨some 1, 5, .access, 3600, none⟩ 1 tx a rfl hr rfl hr₁ htx ha
    hdone t ht hu hf
  simp [hrev] at this

/-- The first account logs out of all sessions; the configuration before the `UPDATE`. -/
def atRevokeAllConfig : AccountConfig :=
  ((State.trial.open : AccountConfig).run respond (AccountRequest.serve .trial)
    (loggedInMoves ++ Move.alone (.logoutAll trialAccess) 2 3)).getD State.trial.open

theorem reach_atRevokeAllConfig :
    Reach respond (AccountRequest.serve .trial) State.trial.open atRevokeAllConfig :=
  .of_run respond _ (loggedInMoves ++ Move.alone (.logoutAll trialAccess) 2 3) rfl

theorem atRevokeAllConfig_session : ∃ tx, atRevokeAllConfig.txs[2]? = some tx ∧
    tx.req.RevokesAll ∧ AtRevokeAll 1 tx := ⟨_, rfl, trivial, rfl, _, _, _, rfl⟩

theorem atRevokeAllConfig_run : ∃ c₁ : AccountConfig,
    ReachWith respond (AccountRequest.serve .trial) (Undisturbed 1 2) atRevokeAllConfig c₁ ∧
    (∃ tx a, c₁.txs[2]? = some tx ∧ tx.prog = .ret a) ∧ ∃ t ∈ tokens c₁.committed, t.userId = 1 ∧
      ∃ t₀ ∈ tokens atRevokeAllConfig.committed, t₀.familyId = t.familyId := by
  have hrun : (atRevokeAllConfig.run respond (AccountRequest.serve .trial)
      (List.replicate 7 (.turn 2))).any (fun c₁ =>
        (c₁.txs[2]?.any fun tx => tx.prog.returned) && (tokens c₁.committed).any fun t =>
          t.userId = 1 && (tokens atRevokeAllConfig.committed).any fun t₀ =>
            t₀.familyId = t.familyId) = true := by
    decide
  obtain ⟨c₁, hrun, hc₁⟩ := (Option.any_eq_true _ _).mp hrun
  rw [Bool.and_eq_true, Option.any_eq_true, List.any_eq_true] at hc₁
  obtain ⟨⟨tx₁, hn₁, hret⟩, t, ht, hprop⟩ := hc₁
  rw [Bool.and_eq_true, decide_eq_true_eq, List.any_eq_true] at hprop
  obtain ⟨hu, t₀, ht₀, hf⟩ := hprop
  obtain ⟨a, ha⟩ := Prog.exists_ret hret
  refine ⟨c₁, .of_turns (fun d d' hq m s t k hm _ _ ht hk _ => ?_) 7 (by decide) hrun,
    ⟨tx₁, a, hn₁, ha⟩, t, ht, hu, t₀, ht₀, of_decide_eq_true hf⟩
  have := Config.done_of_quietFor hq hm ht
  rw [hk] at this
  cases this

theorem revoke_all_final_of_undisturbed_trial : ∃ c₀ c₁ : AccountConfig,
    (∃ t ∈ tokens c₁.committed, t.userId = 1 ∧
      ∃ t₀ ∈ tokens c₀.committed, t₀.familyId = t.familyId) ∧
    ∀ t ∈ tokens c₁.committed, t.userId = 1 →
      (∃ t₀ ∈ tokens c₀.committed, t₀.familyId = t.familyId) → t.revokedAt.isSome := by
  obtain ⟨tx, hn, hreq, hat⟩ := atRevokeAllConfig_session
  obtain ⟨c₁, hrun, ⟨tx₁, a, hn₁, ha⟩, hsome⟩ := atRevokeAllConfig_run
  exact ⟨atRevokeAllConfig, c₁, hsome, revoke_all_final_of_undisturbed rfl
    reach_atRevokeAllConfig hn hreq hat hrun hn₁ ha⟩

end DevOps
