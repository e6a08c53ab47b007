import DevOpsAssistant.Sessions.Reuse
import DevOpsAssistant.Sessions.Sweep
import DevOpsAssistant.Specs.Histories

/-!
# Revoking one session of the list

`revoke_session` revokes the row whose id the list of sessions has reported. Of a family that has
been rotated, only the last row can still be exchanged.

* `RevokesRow`: what `revoke_session` has done to the row; **`keeps_revoked`**: once it has returned,
  the row is revoked.
* `Spent`: no token of the row's family can be exchanged; `RevokesLast`: the row is the last that can.
* `Exchanges`: a step that accepts a refresh token.
* **`session_ended_of_revokesLast`**: then the family accepts no token any more.
-/

namespace DevOps

open Txn AuthService

variable {env : Env} {α : Type} {Φ : α → Local Row Key → Database → Prop} {l l' : Local Row Key}
  {c c' : Database} {i : UUID}

/-! ## Statements -/

/-- A query for one row, and what follows it. -/
theorem safe_bind_selectOne {T : Type} [Entity T] {p : T → Bool} {g : Option T → Db α}
    (hnone : ∀ c', tokenProtocol.Rely l c c' → tokenProtocol.safe (onReturn Φ) (g none) l c')
    (hsome : ∀ t c', tokenProtocol.Rely l c c' → t ∈ rowsOf T (l.view c') → p t = true →
      tokenProtocol.safe (onReturn Φ) (g (some t)) l c') :
    tokenProtocol.safe (onReturn Φ) ((selectOf p >>= scalarOneOrNone) >>= g) l c := by
  rw [bind_assoc]
  intro c' hc
  let found : List T := ((l.view c').rows.filter fun r => (ofRow r : Option T).any p).filterMap ofRow
  have hmem : ∀ t ∈ found, t ∈ rowsOf T (l.view c') ∧ p t = true := by
    intro t ht
    obtain ⟨r, hr, hrt⟩ := List.mem_filterMap.mp ht
    obtain ⟨hm, hp⟩ := List.mem_filter.mp hr
    refine ⟨List.mem_filterMap.mpr ⟨r, hm, hrt⟩, ?_⟩
    rw [hrt] at hp
    exact hp
  change tokenProtocol.safe _ (scalarOneOrNone found >>= g) l c'
  generalize found = ts at hmem
  match ts with
  | [] => exact hnone c' hc
  | [t] => exact hsome t c' hc (hmem t List.mem_cons_self).1 (hmem t List.mem_cons_self).2
  | _ :: _ :: _ => exact fun _ _ _ ha => nomatch ha

/-- The flush of a changed row, which the session may not have locked yet. -/
theorem safe_bind_flush {T : Type} [Entity T] {f : T → T}
    (hf : ∀ t, Entity.id (f t) = Entity.id t) {g : T → Db α}
    (hg : ∀ t c', tokenProtocol.Rely l c c' → t ∈ rowsOf T (l.view c') → Entity.id t = i →
      tokenProtocol.safe (onReturn Φ) (g (f t)) (l.insert (toRow (f t))) c') :
    tokenProtocol.safe (onReturn Φ) (updateById i f hf >>= g) l c := by
  rw [updateById, bind_assoc]
  intro c₁ h₁
  rcases keys_of_id (p := fun t : T => decide (Entity.id t = i)) (fun t ht => of_decide_eq_true ht)
    (l.view c₁) with hkeys | hkeys
  · -- the row is gone
    rw [hkeys]
    exact fun _ _ _ _ _ ha => by cases ha
  rw [hkeys]
  intro c₂ h₂
  split
  · next r hr =>
    obtain ⟨hm, -⟩ := Table.lookup_eq_some.mp hr
    split
    · next hp =>
      obtain ⟨-, t, rfl, ht⟩ := table_of_ofRow_any hp
      obtain ⟨hsame, he⟩ := updateEffect_toRow hf t
      have hl : l.lock (toRow t) (updateEffect f hf (toRow t)) = l.insert (toRow (f t)) := by
        rw [he]
        simp only [Local.lock, Local.insert, Effect.log, hsame]
      rw [hl]
      intro c₃ h₃
      have := Protocol.safe_rely
        (hg t c₂ (h₁.trans h₂) (mem_rowsOf.mpr hm) (of_decide_eq_true ht)) h₃
      simpa [Prog.bind] using this
    · exact fun _ _ _ _ _ ha => by cases ha
  · exact fun _ _ _ _ _ ha => by cases ha

/-! ## The row -/

/-- The session has found the token `i` revoked, or has revoked it, and has written no other token. -/
inductive RevokesRow (i : UUID) (l : Local Row Key) (c : Database) : Prop where
  | found (t) (mem : t ∈ tokens c) (id : t.id = i) (revoked : t.revokedAt.isSome)
      (log : tokenLog l = [])
  | wrote (t at' reason) (mem : t ∈ tokens c) (id : t.id = i) (locked : tokenKey t ∈ l.locks)
      (log : tokenLog l = [.store (.refreshToken (RefreshTokenRepository.revoked at' reason t))])

/-- Writing other tables changes nothing, nor do other sessions. -/
theorem RevokesRow.mono (h : RevokesRow i l c) (hfr : TokenFrame l l')
    (hr : tokenProtocol.Rely l c c') : RevokesRow i l' c' := by
  cases h with
  | found t mem id revoked log =>
    obtain ⟨t', ht', hg⟩ := hr.evolves.kept _ mem
    exact .found t' ht' (hg.id.trans id) (hg.revoked revoked) (hfr.log.trans log)
  | wrote t at' reason mem id locked log =>
    exact .wrote t at' reason ((mem_tokens_of_same hr.same locked).mpr mem) id (hfr.locks _ locked)
      (hfr.log.trans log)

theorem RevokesRow.quiet (h : RevokesRow i l c) : QuietLog l c := by
  intro w hw hk
  have hw : w ∈ tokenLog l := List.mem_filter.mpr ⟨hw, by simpa using hk⟩
  cases h with
  | found t mem id revoked log =>
    rw [log] at hw
    cases hw
  | wrote t at' reason mem id locked log =>
    rw [log] at hw
    cases List.mem_singleton.mp hw
    exact ⟨_, _, rfl, mem, locked, .inr ⟨locked, _, _, rfl, fun _ => rfl⟩⟩

/-- The commit leaves the token revoked. -/
theorem RevokesRow.revoked (h : RevokesRow i l c) :
    ∃ t ∈ tokens (l.view c), t.id = i ∧ t.revokedAt.isSome := by
  cases h with
  | found t mem id revoked log =>
    exact ⟨_, mem_tokens_view.mpr (by rw [log]; exact mem), id, revoked⟩
  | wrote t at' reason mem id locked log =>
    refine ⟨RefreshTokenRepository.revoked at' reason t, mem_tokens_view.mpr ?_, id, rfl⟩
    rw [log, mem_tokens]
    exact Table.mem_write_store.mpr (.inl rfl)

/-- **`revoke_token`** on a token the session has just read. -/
theorem safe_revokeToken {t : RefreshToken} (reason : String) (hl : tokenLog l = [])
    (hr : tokenProtocol.Rely l c c) (ht : t ∈ tokens (l.view c)) :
    tokenProtocol.safe (onReturn fun _ l' c' => RevokesRow t.id l' c')
      (RefreshTokenRepository.revokeToken t reason) l c := by
  have hview : ∀ {s d}, s ∈ tokens (l.view d) → s ∈ tokens d := fun h => by
    rwa [mem_tokens_view, hl] at h
  unfold RefreshTokenRepository.revokeToken
  split
  · next hrev =>
    intro c' hc a _
    exact (RevokesRow.found t (hview ht) rfl hrev hl).mono (.refl l) hc
  · refine safe_bind_frame only_now hr fun at' l₁ c₁ _ hfr _ _ => ?_
    have hl₁ : tokenLog l₁ = [] := hfr.log.trans hl
    have hflush : tokenProtocol.safe (onReturn fun _ l' c' => RevokesRow t.id l' c')
        (updateById t.id (RefreshTokenRepository.revoked at' reason) (fun _ => rfl) >>= pure)
        l₁ c₁ := by
      refine safe_bind_flush (f := RefreshTokenRepository.revoked at' reason) _ fun s c₂ _ hs hid c₃ h₃ a _ => ?_
      have hs : s ∈ tokens c₂ := by
        have hs : s ∈ tokens (l₁.view c₂) := hs
        rwa [mem_tokens_view, hl₁] at hs
      refine (RevokesRow.wrote s at' reason hs hid List.mem_cons_self ?_).mono (.refl _) h₃
      rw [tokenLog, Local.insert, List.filter_append, ← tokenLog, hl₁]
      rfl
    rwa [bind_pure] at hflush

/-- **`revoke_session`** revokes the row of the user, or raises. -/
theorem safe_revokeSession (user : User) (hl : tokenLog l = []) :
    tokenProtocol.safe (onReturn fun _ l' c' => RevokesRow i l' c' ∧ Linear c')
      (revokeSession user i) l c := by
  unfold revokeSession
  refine safe_bind_selectOne (fun c₁ _ _ _ _ ha => nomatch ha) fun t c₁ h₁ ht hp => ?_
  have hid : t.id = i := by
    have := of_decide_eq_true ((Bool.and_eq_true _ _).mp hp).1
    exact this
  refine safe_bind_return _ (safe_revokeToken _ hl h₁.again ht) fun _ l₂ c₂ h hself => ?_
  have hframe : (AuditService.recordEvent "user.session.revoked" user.id none "refresh_token"
      t.id).Only (Writes frameRules) fun _ => True := only_recordEvent frameRules_audit _ _ _ _
  rw [← bind_pure (AuditService.recordEvent _ _ _ _ _)]
  refine safe_bind_frame hframe hself fun _ l₃ c₃ _ hfr hr₃ _ c₄ h₄ a _ => ?_
  exact ⟨hid ▸ (h.mono hfr hr₃).mono (.refl _) h₄, h₄.inv⟩

/-- What a successful response says about the row of a revoked session. -/
def RevokeResult : AccountRequest → AccountResponse → List ℕ → Database → Prop
  | .revokeSession _ i, _, _, c => ∃ t ∈ tokens c, t.id = i ∧ t.revokedAt.isSome
  | _, _, _, _ => True

theorem RevokeResult.evolves {r : AccountRequest} {a : AccountResponse} {drawn : List ℕ}
    (he : Evolves c c') (h : RevokeResult r a drawn c) : RevokeResult r a drawn c' := by
  unfold RevokeResult at h ⊢
  split at h
  · obtain ⟨t, ht, hid, hrev⟩ := h
    obtain ⟨t', ht', hg⟩ := he.kept t ht
    exact ⟨t', ht', hg.id.trans hid, hg.revoked hrev⟩
  · trivial

/-- **Every account request keeps to the protocol**, and a revocation that returns has revoked its
row. -/
theorem keeps_revoked : Protocol.Keeps tokenProtocol RevokeResult (AccountRequest.serve env) := by
  intro r c hc
  have hr : tokenProtocol.Rely .start c c := .refl hc fun _ hn => nomatch hn
  cases r with
  | revokeSession access i =>
    refine Protocol.safe_unitOfWork_ends (fun he h => h.evolves he) ?_
    refine safe_bind_frame (only_getCurrentUser env _) hr fun user l₁ c₁ _ hfr _ _ => ?_
    exact safe_map_return _ (safe_revokeSession user hfr.log) fun _ l₂ c₂ h =>
      ⟨h.1.quiet.commitOk h.2, h.1.revoked⟩
  | _ => exact Protocol.safe_mono (fun _ _ _ _ _ _ _ _ => trivial) (keeps_serve env _ c hc)

/-! ## The family -/

/-- The token `i` exists, and no token of its family can be exchanged. -/
def Spent (i : UUID) (c : Database) : Prop :=
  ∃ t ∈ tokens c, t.id = i ∧ ∀ t' ∈ tokens c, t'.familyId = t.familyId → ¬ Live t'

/-- **A spent family stays spent**: a new token of it would continue a live one. -/
theorem Spent.evolves (h : Spent i c) (he : Evolves c c') : Spent i c' := by
  obtain ⟨t, ht, hid, hspent⟩ := h
  obtain ⟨t', ht', hg⟩ := he.kept t ht
  refine ⟨t', ht', hg.id.trans hid, fun u' hu' hf hlive => ?_⟩
  have hf : u'.familyId = t.familyId := hf.trans hg.familyId
  rcases he.new u' hu' with ⟨u, hu, hgu⟩ | hnew | ⟨p, hp, hpf, -, hp_live⟩
  · exact hspent u hu (hgu.familyId.symm.trans hf) (hlive.of_grows hgu)
  · exact hnew t ht hf.symm
  · exact hspent p hp (hpf.trans hf) hp_live

/-- A commit that leaves the token `i` revoked makes its family spent, if no other token of the
family was live. -/
theorem spent_of_commit {ks : List Key} (he : TokenEffect ks c c')
    (hrev : ∃ t ∈ tokens c', t.id = i ∧ t.revokedAt.isSome)
    (hlast : ∀ t ∈ tokens c, t.id = i → ∀ t' ∈ tokens c, t'.familyId = t.familyId → t'.id ≠ i →
      ¬ Live t') : Spent i c' := by
  obtain ⟨t', ht', rfl, hrev⟩ := hrev
  refine ⟨t', ht', rfl, fun u' hu' hf hlive => ?_⟩
  by_cases hid : u'.id = t'.id
  · cases token_ext hu' ht' hid
    simp [hlive.2] at hrev
  cases he with
  | revoke came kept =>
    obtain ⟨t, ht, hr⟩ := came t' ht'
    obtain ⟨u, hu, hru⟩ := came u' hu'
    exact hlast t ht hr.grows.id.symm u hu
      (hru.grows.familyId.symm.trans (hf.trans hr.grows.familyId))
      (fun h => hid (hru.grows.id.trans h)) (hlive.of_grows hru.grows)
  | issue new pristine jti id family mem =>
    rcases (mem t').mp ht' with rfl | ht
    · simp [pristine.1.2] at hrev
    rcases (mem u').mp hu' with rfl | hu
    · exact family t' ht hf.symm
    · exact hlast t' ht rfl u' hu hf hid hlive
  | rotate old new t mem_old live locked pristine jti id family user mem =>
    rcases (mem t').mp ht' with rfl | rfl | ⟨ht, hne⟩
    · simp [pristine.1.2] at hrev
    · simp [live.2] at hrev
    rcases (mem u').mp hu' with rfl | rfl | ⟨hu, -⟩
    · exact hlast t' ht rfl old mem_old (family.symm.trans hf) (Ne.symm hne) live
    · exact nomatch hlive.1
    · exact hlast t' ht rfl u' hu hf hid hlive

/-! ## Runs -/

variable {s₀ : State} {cfg cfg' : AccountConfig} {n : ℕ} {tx' : AccountTx}

/-- Every open session is in its only unit of work. -/
theorem inUnit_of_reach (hr : Reach respond (AccountRequest.serve env) s₀.open cfg) :
    ∀ tx ∈ cfg.txs, tx.ScanOk ∧ (tx.prog.done = false → tx.InUnit (Writes bodyRules)) := by
  refine hr.forall_tx (fun r => ⟨fun _ _ h => (nomatch h), fun _ => ⟨⟨r.route env, rfl,
      only_route env allowsAccounts_body r fun _ => allowsSessions_body⟩, rfl⟩⟩)
    (fun c n tx tx' h ht => ⟨ht.scanOk h.1, fun hd => ?_⟩)
    (fun tx e _ => ⟨fun _ _ h => (nomatch h), fun hd => (nomatch hd)⟩) (by simp [Store.open])
  rcases (h.2 (ht.running hd)).turn (fun h => h) (fun h => h) h.1 ht with h' | ⟨a, -, ha, -⟩ | ⟨e, he⟩
  · exact h'
  · rw [ha] at hd
    cases hd
  · rw [he] at hd
    cases hd

/-- A session that has returned had done so before the step, or commits with it. -/
theorem returned_of_step (hr : Reach respond (AccountRequest.serve env) s₀.open cfg)
    (hs : Step respond (AccountRequest.serve env) cfg cfg') (hn : cfg'.txs[n]? = some tx')
    {a : AccountResponse} (ha : tx'.prog = .ret a) :
    ∃ tx, cfg.txs[n]? = some tx ∧ tx'.req = tx.req ∧ (tx.prog = .ret a ∨
      ((∃ k, tx.prog = .commit k) ∧ cfg'.txs[n]? ≠ some tx ∧ tx.ids = tx'.drawn)) := by
  rcases hs.elim with ⟨r, htxs, -⟩ | ⟨m, t, t', hm, ht, htxs, -⟩ | ⟨m, t, e, hm, -, htxs, -⟩
  · rw [htxs, List.getElem?_append] at hn
    split at hn
    · exact ⟨tx', hn, rfl, .inl ha⟩
    · obtain ⟨-, rfl⟩ : n - cfg.txs.length = 0 ∧ _ = tx' := by
        simpa [List.getElem?_singleton] using hn
      have := Prog.unitOfWork_not_done (r.route env)
      rw [show Prog.unitOfWork (r.route env) = .ret a from ha] at this
      cases this
  · by_cases hmn : m = n
    · subst hmn
      have hlt : m < cfg.txs.length := (List.getElem?_eq_some_iff.mp hm).1
      rw [htxs, List.getElem?_set_self hlt] at hn
      cases hn
      obtain ⟨hscan, hunit⟩ := inUnit_of_reach hr t (List.mem_of_getElem? hm)
      refine ⟨t, hm, ht.req, ?_⟩
      cases hd : t.prog.done with
      | true =>
        cases ht with
        | ended _ => exact .inl ha
        | _ hp => rw [hp] at hd; cases hd
      | false =>
        rcases (hunit hd).turn (fun h => h) (fun h => h) hscan ht with h' | ⟨b, hb, -, hl⟩ | ⟨e, he⟩
        · obtain ⟨body, hbody, -⟩ := h'.body
          have := Prog.unitOfWork_not_done body
          rw [← hbody, ha] at this
          cases this
        · refine .inr ⟨⟨_, hb⟩, fun hsame => ?_, (hunit hd).ids.trans ?_⟩
          · rw [htxs, List.getElem?_set_self hlt] at hsame
            exact ht.prog_ne_of_commit hb (Option.some.inj hsame)
          · rw [hl]
            rfl
        · cases ha.symm.trans he
    · rw [htxs, List.getElem?_set_ne hmn] at hn
      exact ⟨tx', hn, rfl, .inl ha⟩
  · by_cases hmn : m = n
    · subst hmn
      rw [htxs, List.getElem?_set_self (List.getElem?_eq_some_iff.mp hm).1] at hn
      cases hn
      cases ha
    · rw [htxs, List.getElem?_set_ne hmn] at hn
      exact ⟨tx', hn, rfl, .inl ha⟩

/-- A session that has returned with `revoke_session` has revoked its row. -/
theorem revoked_of_ret (h₀ : s₀.committed = .empty)
    (hr : Reach respond (AccountRequest.serve env) s₀.open cfg) (hn : cfg.txs[n]? = some tx')
    {access : RawToken} (hq : tx'.req = .revokeSession access i) {a : AccountResponse}
    (ha : tx'.prog = .ret a) :
    ∃ t ∈ tokens cfg.committed, t.id = i ∧ t.revokedAt.isSome := by
  have hsound : Protocol.Sound tokenProtocol RevokeResult cfg :=
    (serial_of_empty h₀).sound_open.reach keeps_revoked hr
  have hself := hsound.rely_self (List.mem_of_getElem? hn)
  have hsafe := hsound.safe tx' (List.mem_of_getElem? hn)
  unfold Protocol.txSafe at hsafe
  split at hsafe
  · rw [ha, hq] at hsafe
    exact hsafe cfg.committed hself _ rfl cfg.committed hself.clear
  · obtain ⟨q, f, k, hk, -⟩ := hsafe
    cases ha.symm.trans hk

/-- If the step is the commit of `revoke_session` by the `n`th session, no token of the row's family
but the row itself is live. -/
def RevokesLast (n : ℕ) (cfg cfg' : AccountConfig) : Prop :=
  ∀ tx access i k, cfg.txs[n]? = some tx → tx.req = .revokeSession access i →
    tx.prog = .commit k → cfg'.txs[n]? ≠ some tx →
    ∀ t ∈ tokens cfg.committed, t.id = i →
      ∀ t' ∈ tokens cfg.committed, t'.familyId = t.familyId → t'.id ≠ i → ¬ Live t'

/-- Once the session has returned, the family of its row is spent. -/
theorem spent_of_ret (h₀ : s₀.committed = .empty)
    (hrun : ReachWith respond (AccountRequest.serve env) (RevokesLast n) s₀.open cfg)
    {access : RawToken} : ∀ tx, cfg.txs[n]? = some tx → tx.req = .revokeSession access i →
      ∀ a, tx.prog = .ret a → Spent i cfg.committed := by
  induction hrun with
  | refl => exact fun tx hn => by simp [Store.open] at hn
  | @tail d d' hd hstep ih =>
    intro tx' hn' hq a ha
    have hreach := ReachWith.reach hd
    have hsound := tokensSound_of_reach h₀ hreach
    have hreach' := Relation.ReflTransGen.tail hreach hstep.1
    obtain ⟨tx, hn, hreq, hret | ⟨⟨k, hk⟩, hne, -⟩⟩ := returned_of_step hreach hstep.1 hn' ha
    · exact (ih tx hn (hreq.symm.trans hq) a hret).evolves
        (evolves_of_reach hsound (.single hstep.1))
    · have hrev := revoked_of_ret h₀ hreach' hn' hq ha
      have hlast := hstep.2 tx access i k hn (hreq.symm.trans hq) hk hne
      rcases (hsound.step (keeps_serve env) hstep.1).2 with heq | ⟨m, t, hm, -, heff⟩
      · rw [heq] at hrev ⊢
        have hsame : TokenEffect [] d.committed d.committed :=
          .revoke (fun t ht => ⟨t, ht, .inl rfl⟩) fun t ht => ⟨t, ht, .inl rfl⟩
        exact spent_of_commit hsame hrev hlast
      · exact spent_of_commit heff hrev hlast

/-- The step is the commit of a refresh with the claims `payload` by the `m`th session. -/
def Exchanges (cfg cfg' : AccountConfig) (m : ℕ) (payload : TokenPayload) : Prop :=
  ∃ tx tx' a, cfg.txs[m]? = some tx ∧ tx.req = .refresh (.jwt payload) ∧ tx.prog.done = false ∧
    cfg'.txs[m]? = some tx' ∧ tx'.prog = .ret a

/-- **A spent family accepts no token.** -/
theorem Spent.not_exchanges (h₀ : s₀.committed = .empty)
    (hr : Reach respond (AccountRequest.serve env) s₀.open cfg) (h : Spent i cfg.committed)
    (hs : Step respond (AccountRequest.serve env) cfg cfg') {m : ℕ} {payload : TokenPayload}
    (hx : Exchanges cfg cfg' m payload) {t t' : RefreshToken} (ht : t ∈ tokens cfg'.committed)
    (hid : t.id = i) (ht' : t' ∈ tokens cfg'.committed) (hj : t'.jti = payload.jti) :
    t'.familyId ≠ t.familyId := by
  obtain ⟨tx, tx', a, hm, hq, hd, hm', ha⟩ := hx
  have hsound := tokensSound_of_reach h₀ hr
  have hsound' := tokensSound_of_reach h₀ (hr.tail hs)
  have hev := evolves_of_reach hsound (.single hs)
  obtain ⟨u, hu, hreq, hret | ⟨-, -, hids⟩⟩ := returned_of_step hr hs hm' ha
  · cases hm.symm.trans hu
    rw [hret] at hd
    cases hd
  cases hm.symm.trans hu
  obtain ⟨old, new, tx₂, payload', p, hn', hq', -, hj', hex⟩ :=
    exchangedBy_of_ret hsound' hm' (hreq.trans hq) ha
  cases hm'.symm.trans hn'
  cases hq'.symm.trans (hreq.trans hq)
  have hold : old = t' := hsound'.inv.jti old hex.mem_old t' ht' (hj'.trans hj.symm)
  intro hf
  -- the successor would be a new token of the family
  obtain ⟨t₀, ht₀, hid₀, hspent⟩ := h
  have ht₀f : t₀.familyId = t.familyId := by
    obtain ⟨t₁, ht₁, hg⟩ := hev.kept t₀ ht₀
    rw [← hg.familyId, token_ext ht₁ ht (hg.id.trans (hid₀.trans hid.symm))]
  have hnewf : new.familyId = t₀.familyId := by rw [hex.family, hold, hf, ht₀f]
  rcases hev.new new hex.mem_new with ⟨q, hq₀, hg⟩ | hnew | ⟨q, hq₀, hqf, -, hlive⟩
  · have hdrawn : q.jti ∈ tx.ids := hids ▸ hg.jti ▸ hex.drawn
    refine hsound.unused tx (List.mem_of_getElem? hm) _ hdrawn (.refreshToken q)
      (mem_tokens.mp hq₀) ?_
    simp [tokenProtocol, tokenNames]
  · exact hnew t₀ ht₀ hnewf.symm
  · exact hspent q hq₀ (hqf.trans hnewf) hlive

/-- **RevokesRow the last token of a session ends it.** In every run in which the commit of
`revoke_session` finds no other live token in the family of its row: once it has committed, the row
is revoked, and no step of the run accepts a token of the family. -/
theorem session_ended_of_revokesLast (h₀ : s₀.committed = .empty)
    (hrun : ReachWith respond (AccountRequest.serve env) (RevokesLast n) s₀.open cfg)
    {tx : AccountTx} (hn : cfg.txs[n]? = some tx) {access : RawToken}
    (hq : tx.req = .revokeSession access i) {a : AccountResponse} (ha : tx.prog = .ret a)
    (hs : Step respond (AccountRequest.serve env) cfg cfg') {m : ℕ} {payload : TokenPayload}
    (hx : Exchanges cfg cfg' m payload) :
    ∃ t ∈ tokens cfg'.committed, t.id = i ∧ t.revokedAt.isSome ∧
      ∀ t' ∈ tokens cfg'.committed, t'.jti = payload.jti → t'.familyId ≠ t.familyId := by
  have hreach := ReachWith.reach hrun
  obtain ⟨t, ht, hid, hrev⟩ := revoked_of_ret h₀ hreach hn hq ha
  obtain ⟨t', ht', hg⟩ := (evolves_of_reach (tokensSound_of_reach h₀ hreach) (.single hs)).kept t ht
  have hspent := spent_of_ret h₀ hrun tx hn hq a ha
  exact ⟨t', ht', hg.id.trans hid, hg.revoked hrev, fun u hu hj =>
    hspent.not_exchanges h₀ hreach hs hx ht' (hg.id.trans hid) hu hj⟩

/-! ## Two runs -/

/-- Whether `RevokesLast` holds of the next step. -/
def revokesLast (n : ℕ) (cfg : AccountConfig) : Bool :=
  (cfg.txs[n]?).all fun tx =>
    match tx.prog, tx.req with
    | .commit _, .revokeSession _ i => (tokens cfg.committed).all fun t => t.id ≠ i ||
        (tokens cfg.committed).all fun t' => t'.familyId ≠ t.familyId || t'.id = i ||
          t'.usedAt.isSome || t'.revokedAt.isSome
    | _, _ => true

theorem revokesLast_of_check (h : revokesLast n cfg = true) : RevokesLast n cfg cfg' := by
  intro tx access i k hn hq hk _ t ht hid t' ht' hf hne hlive
  rw [revokesLast, hn, Option.all_some, hk, hq] at h
  have h := List.all_eq_true.mp h t ht
  simp only [hid, ne_eq, not_true_eq_false, decide_false, Bool.false_or] at h
  have h := List.all_eq_true.mp h t' ht'
  simp [hf, hne, hlive.1, hlive.2] at h

/-- An account logs in twice, revokes its first session and refreshes the second, up to the
commit. -/
def onlyRevokedMoves : List (Move Exc AccountRequest) :=
  loggedInMoves ++ Move.alone (.login "ann" "correct horse") 2 14
    ++ Move.alone (.revokeSession trialAccess 4) 3 11
    ++ Move.alone (.refresh (.jwt ⟨some 1, 8, .refresh, 1209600, some 7⟩)) 4 23

def onlyRevokedConfig : AccountConfig :=
  ((State.trial.open : AccountConfig).runChecked respond (AccountRequest.serve .trial)
    (revokesLast 3) onlyRevokedMoves).getD State.trial.open

def otherExchangedConfig : AccountConfig :=
  (onlyRevokedConfig.run respond (AccountRequest.serve .trial) [.turn 4]).getD State.trial.open

set_option maxRecDepth 1000 in
theorem session_ended_of_revokesLast_trial : ∃ cfg cfg' : AccountConfig,
    Step respond (AccountRequest.serve .trial) cfg cfg' ∧
    Exchanges cfg cfg' 4 ⟨some 1, 8, .refresh, 1209600, some 7⟩ ∧
    ∃ t ∈ tokens cfg'.committed, t.id = 4 ∧ t.revokedAt.isSome ∧
      ∀ t' ∈ tokens cfg'.committed, t'.jti = 8 → t'.familyId ≠ t.familyId := by
  have hrun : ReachWith respond (AccountRequest.serve .trial) (RevokesLast 3) State.trial.open
      onlyRevokedConfig :=
    .of_runChecked (fun _ _ => revokesLast_of_check) onlyRevokedMoves rfl
  obtain ⟨tx, a, hn, hq, ha⟩ : ∃ tx a, onlyRevokedConfig.txs[3]? = some tx ∧
      tx.req = .revokeSession trialAccess 4 ∧ tx.prog = .ret a := ⟨_, _, rfl, rfl, rfl⟩
  have hs : Step respond (AccountRequest.serve .trial) onlyRevokedConfig otherExchangedConfig :=
    ⟨.turn 4, rfl⟩
  have hx : Exchanges onlyRevokedConfig otherExchangedConfig 4
      ⟨some 1, 8, .refresh, 1209600, some 7⟩ := ⟨_, _, _, rfl, rfl, rfl, rfl, rfl⟩
  exact ⟨onlyRevokedConfig, otherExchangedConfig, hs, hx,
    session_ended_of_revokesLast rfl hrun hn hq ha hs hx⟩

/-- The `n`th session has listed the session `i` as not revoked. -/
def Lists (cfg : AccountConfig) (n : ℕ) (access : RawToken) (i : UUID) : Prop :=
  ∃ tx current ss, cfg.txs[n]? = some tx ∧ tx.req = .listSessions access current ∧
    tx.prog = .ret (.sessions ss) ∧ ∃ s ∈ ss, s.id = i ∧ s.revoked = false

/-- Every unrevoked row is in the list, wherever its time of issue puts it. -/
theorem exists_listed {rs : List RefreshToken} {le : RefreshToken → RefreshToken → Bool}
    {jti : Option UUID} (h : (rs.any fun t => t.id = i && t.revokedAt.isNone) = true) :
    ∃ s ∈ (rs.mergeSort le).map fun t => refreshTokenToSession t jti, s.id = i ∧ s.revoked = false := by
  obtain ⟨t, ht, hprop⟩ := List.any_eq_true.mp h
  rw [Bool.and_eq_true, decide_eq_true_eq, Option.isNone_iff_eq_none] at hprop
  refine ⟨_, List.mem_map_of_mem (List.mem_mergeSort.mpr ht), hprop.1, ?_⟩
  rw [refreshTokenToSession, hprop.2]
  rfl

/-- The first account of a new deployment has rotated its token and lists its sessions. -/
def listedConfig : AccountConfig :=
  ((State.trial.open : AccountConfig).run respond (AccountRequest.serve .trial)
    (rotatedMoves ++ Move.alone (.listSessions trialAccess none) 3 4)).getD State.trial.open

theorem lists_listedConfig : Lists listedConfig 3 trialAccess 4 :=
  ⟨_, none, _, rfl, rfl, rfl, exists_listed (by decide)⟩

/-- It revokes the older row of the list, and refreshes with the successor, up to the commit. -/
def olderRevokedConfig : AccountConfig :=
  ((listedConfig.arrive (AccountRequest.serve .trial) (.revokeSession trialAccess 4)).run respond
    (AccountRequest.serve .trial) (List.replicate 11 (.turn 4)
      ++ Move.alone (.refresh (trialToken 7 1209600)) 5 23)).getD State.trial.open

/-- The refresh has been committed. -/
def olderExchangedConfig : AccountConfig :=
  (olderRevokedConfig.run respond (AccountRequest.serve .trial) [.turn 5]).getD State.trial.open

theorem exchanges_olderRevokedConfig : Exchanges olderRevokedConfig olderExchangedConfig 5
    ⟨some 1, 7, .refresh, 1209600, some 2⟩ :=
  ⟨_, _, _, rfl, rfl, rfl, rfl, rfl⟩

/-- RevokesRow a listed session does not end it: the row may be one that has been rotated, and its
successor stays live. -/
theorem revoke_session_not_final : ¬ ∀ (env : Env) (s₀ : State) (c₀ c c' : AccountConfig)
    (j m : ℕ) (access : RawToken) (i : UUID) (tx : AccountTx) (a : AccountResponse)
    (payload : TokenPayload), s₀.committed = .empty →
      Reach respond (AccountRequest.serve env) s₀.open c₀ → Lists c₀ j access i →
      Reach respond (AccountRequest.serve env)
        (c₀.arrive (AccountRequest.serve env) (.revokeSession access i)) c →
      c.txs[c₀.txs.length]? = some tx → tx.prog = .ret a →
      Step respond (AccountRequest.serve env) c c' → Exchanges c c' m payload →
      ∀ t ∈ tokens c'.committed, t.id = i → ∀ t' ∈ tokens c'.committed, t'.jti = payload.jti →
        t'.familyId ≠ t.familyId := by
  intro h
  have hfamily : ((tokens olderExchangedConfig.committed).any fun t => t.id = 4 &&
      (tokens olderExchangedConfig.committed).any fun t' => t'.jti = 7 &&
        decide (t'.familyId = t.familyId)) = true := by decide
  obtain ⟨t, ht, hprop⟩ := List.any_eq_true.mp hfamily
  rw [Bool.and_eq_true, decide_eq_true_eq, List.any_eq_true] at hprop
  obtain ⟨hid, t', ht', hprop⟩ := hprop
  rw [Bool.and_eq_true, decide_eq_true_eq, decide_eq_true_eq] at hprop
  obtain ⟨tx, a, htx, ha⟩ : ∃ tx a, olderRevokedConfig.txs[4]? = some tx ∧ tx.prog = .ret a :=
    ⟨_, _, rfl, rfl⟩
  exact h .trial State.trial listedConfig olderRevokedConfig olderExchangedConfig 3 5 trialAccess 4
    tx a ⟨some 1, 7, .refresh, 1209600, some 2⟩ rfl
    (.of_run respond _ (rotatedMoves ++ Move.alone (.listSessions trialAccess none) 3 4) rfl)
    lists_listedConfig
    (.of_run respond _ (List.replicate 11 (.turn 4)
      ++ Move.alone (.refresh (trialToken 7 1209600)) 5 23) rfl) htx ha ⟨.turn 5, rfl⟩
    exchanges_olderRevokedConfig t ht hid t' ht' hprop.1 hprop.2

end DevOps
