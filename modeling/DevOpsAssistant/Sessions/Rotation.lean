import DevOpsAssistant.Sessions.Rotate
import DevOpsAssistant.Txn.Alone

/-!
# Runs of account requests

Every account request keeps to the protocol of the refresh tokens, so every interleaving does.

* `Exchanged`: the presented token has been replaced by the token of the response.
* **`keeps_serve`**: each request keeps to the protocol, and a refresh that returns has exchanged
  its token.
* `sound_of_reach`, `evolves_of_reach`: what follows for interleaved runs.
* **`rotation_linear`**: a token is exchanged once, and a family is a chain.
-/

namespace DevOps

open Txn

variable (env : Env)

/-- The interleaved runs of account requests. -/
abbrev AccountConfig := Config Row Answer Exc AccountResponse AccountRequest World

/-- The sessions of account requests. -/
abbrev AccountTx := Tx Row Answer Exc AccountResponse AccountRequest

/-- The token `old` has been replaced by `new`, presented as `raw`, which the session drew. -/
structure Exchanged (old new : RefreshToken) (raw : RawToken) (drawn : List ℕ) (c : Database) :
    Prop where
  mem_old : old ∈ tokens c
  mem_new : new ∈ tokens c
  used : old.usedAt.isSome
  replaced : old.replacedByTokenId = some new.id
  family : new.familyId = old.familyId
  drawn : new.jti ∈ drawn
  signed : ∃ exp, raw = .jwt ⟨some new.userId, new.jti, .refresh, exp, some new.familyId⟩

/-- What a successful response says about the refresh tokens. -/
def TokenResult : AccountRequest → AccountResponse → List ℕ → Database → Prop
  | .refresh raw, a, drawn, c => ∃ payload p old new, raw = .jwt payload ∧ a = .tokenPair p ∧
    old.jti = payload.jti ∧ Exchanged old new p.refreshToken drawn c
  | _, _, _, _ => True

theorem Exchanged.evolves {c c' : Database} (he : Evolves c c') {old new : RefreshToken}
    {raw : RawToken} {drawn : List ℕ} (h : Exchanged old new raw drawn c) :
    ∃ old' new', Grows old old' ∧ Exchanged old' new' raw drawn c' := by
  obtain ⟨old', hold', hgo⟩ := he.kept old h.mem_old
  obtain ⟨new', hnew', hgn⟩ := he.kept new h.mem_new
  refine ⟨old', new', hgo, hold', hnew', hgo.used h.used, ?_, ?_, ?_, ?_⟩
  · rw [hgo.replaced _ h.replaced, hgn.id]
  · rw [hgn.familyId, hgo.familyId, h.family]
  · rw [hgn.jti]
    exact h.drawn
  · rw [hgn.userId, hgn.jti, hgn.familyId]
    exact h.signed

theorem TokenResult.evolves {r : AccountRequest} {a : AccountResponse} {drawn : List ℕ}
    {c c' : Database} (he : Evolves c c') (h : TokenResult r a drawn c) :
    TokenResult r a drawn c' := by
  unfold TokenResult at h ⊢
  split at h
  · obtain ⟨payload, p, old, new, hraw, ha, hj, hex⟩ := h
    obtain ⟨old', new', hg, hex'⟩ := hex.evolves he
    exact ⟨payload, p, old', new', hraw, ha, hg.jti.trans hj, hex'⟩
  · trivial

theorem Rotated.exchanged {old new : RefreshToken} {t : Time} {raw : RawToken}
    {l : Local Row Key} {c : Database} (h : Rotated old t raw new l c) :
    Exchanged { old with usedAt := some t, replacedByTokenId := some new.id } new raw l.drawn
      (l.view c) :=
  ⟨(h.mem_view _).mpr (.inr (.inl rfl)), (h.mem_view _).mpr (.inl rfl), rfl, rfl, h.family, h.drawn,
    h.signed⟩

theorem tokenResult_of_not_issues {r : AccountRequest} (h : ¬ r.Issues) (a : AccountResponse)
    (drawn : List ℕ) (c : Database) : TokenResult r a drawn c := by
  cases r <;> first | trivial | exact absurd trivial h

/-- **Every account request keeps to the protocol.** -/
theorem keeps_serve : Protocol.Keeps tokenProtocol TokenResult (AccountRequest.serve env) := by
  intro r c hc
  have hr : tokenProtocol.Rely .start c c := .refl hc fun _ hn => nomatch hn
  refine Protocol.safe_unitOfWork_ends (fun he h => h.evolves he) ?_
  by_cases hi : r.Issues
  · cases r with
    | login username password =>
      exact safe_map_return _ (safe_login username password rfl hr) fun p l' c' ⟨new, hnew⟩ =>
        ⟨hnew.commitOk, trivial⟩
    | refresh raw =>
      exact safe_map_return _ (safe_refresh raw rfl hr)
        fun p l' c' ⟨payload, old, t, new, hraw, hj, hrot⟩ =>
          ⟨hrot.commitOk, payload, p, { old with usedAt := some t, replacedByTokenId := some new.id },
            new, hraw, rfl, hj, hrot.exchanged⟩
    | _ => exact hi.elim
  · have hquiet : (r.route env).Only (Writes quietRules) fun _ => True :=
      only_route env allowsAccounts_quiet r fun h => absurd h hi
    have hkeep := Protocol.safe_of_only quiet_invariant hquiet
      (show QuietLog .start c ∧ Linear c from ⟨fun _ hw => (nomatch hw), hc⟩)
    refine Protocol.safe_mono (fun _ l' c' h a _ => ?_) hkeep
    exact ⟨h.1.1.commitOk h.1.2, tokenResult_of_not_issues hi _ _ _⟩

/-! ## Interleaved runs -/

variable {env} {s : State} {c c' : AccountConfig}

theorem linear_empty : Linear (.empty : Database) := by
  refine ⟨fun _ hs => (nomatch hs), fun _ hs => (nomatch hs), fun f => ⟨[], .nil, fun i => ?_, .nil,
    fun _ hi => nomatch hi⟩⟩
  simp [tokens, rowsOf]

/-- The invariant of the runs that start from an empty database. -/
abbrev TokensSound (c : AccountConfig) : Prop := Protocol.Sound tokenProtocol TokenResult c

theorem serial_of_empty (h₀ : s.committed = .empty) : Protocol.Serial tokenProtocol s := by
  refine ⟨h₀ ▸ linear_empty, fun r hr => ?_⟩
  rw [h₀] at hr
  cases hr

theorem tokensSound_open (h : Protocol.Serial tokenProtocol s) : TokensSound s.open :=
  h.sound_open

theorem tokensSound_of_reach (h₀ : s.committed = .empty)
    (hr : Reach respond (AccountRequest.serve env) s.open c) : TokensSound c :=
  (tokensSound_open (serial_of_empty h₀)).reach (keeps_serve env) hr

/-- Along a run, the refresh tokens evolve. -/
theorem evolves_of_reach (h : TokensSound c) (hr : Reach respond (AccountRequest.serve env) c c') :
    Evolves c.committed c'.committed := by
  induction hr with
  | refl => exact .refl _
  | tail hreach hstep ih =>
    have hsound := h.reach (keeps_serve env) hreach
    refine ih.trans ?_
    rcases (hsound.step (keeps_serve env) hstep).2 with heq | ⟨n, tx, hn, hk, heff⟩
    · rw [heq]
      exact .refl _
    · exact TokenEffect.evolves hsound.inv heff

/-- The session `n` has committed a refresh of the token `old`, which it replaced by `new`. -/
def ExchangedBy (c : AccountConfig) (n : ℕ) (old new : RefreshToken) : Prop :=
  ∃ tx payload p, c.txs[n]? = some tx ∧ tx.req = .refresh (.jwt payload) ∧
    tx.prog = .ret (.tokenPair p) ∧ old.jti = payload.jti ∧
    Exchanged old new p.refreshToken tx.drawn c.committed

/-- A committed refresh has exchanged the token it was given. -/
theorem exchangedBy_of_ret (h : TokensSound c) {n : ℕ} {tx : AccountTx} {raw : RawToken} {a : AccountResponse} (hn : c.txs[n]? = some tx)
    (hq : tx.req = .refresh raw) (hp : tx.prog = .ret a) : ∃ old new, ExchangedBy c n old new := by
  have hsafe := h.safe tx (List.mem_of_getElem? hn)
  unfold Protocol.txSafe at hsafe
  split at hsafe
  · rw [hp, hq] at hsafe
    have hself := h.rely_self (List.mem_of_getElem? hn)
    obtain ⟨payload, p, old, new, rfl, rfl, hj, hex⟩ :=
      hsafe c.committed hself _ rfl c.committed hself.clear
    exact ⟨old, new, tx, payload, p, hn, hq, hp, hj, hex⟩
  · obtain ⟨q, f, k, hk, -⟩ := hsafe
    rw [hp] at hk
    cases hk

/-- A token has at most one successor, and one session has drawn it. -/
theorem exchangedBy_unique (h : TokensSound c) {m n : ℕ} {old new new' : RefreshToken}
    (hm : ExchangedBy c m old new) (hn : ExchangedBy c n old new') : m = n ∧ new = new' := by
  obtain ⟨tm, pm, am, hm, -, -, -, hem⟩ := hm
  obtain ⟨tn, pn, an, hn, -, -, -, hen⟩ := hn
  have hnew : new = new' := token_ext hem.mem_new hen.mem_new
    (Option.some.inj (hem.replaced.symm.trans hen.replaced))
  refine ⟨by_contra fun hne => ?_, hnew⟩
  exact (h.apart m n tm tn hne hm hn).drawn _ hem.drawn (hnew ▸ hen.drawn)

/-- **Rotation is linear.** In every interleaved run, each committed refresh exchanges the token it
was given for a successor, no token is exchanged by two sessions, a family has at most one token
that is neither used nor revoked, and every family is a single chain. -/
theorem rotation_linear (h₀ : s.committed = .empty)
    (hr : Reach respond (AccountRequest.serve env) s.open c) :
    (∀ n tx raw a, c.txs[n]? = some tx → tx.req = .refresh raw → tx.prog = .ret a →
      ∃ old new, ExchangedBy c n old new) ∧
    (∀ m n old new new', ExchangedBy c m old new → ExchangedBy c n old new' →
      m = n ∧ new = new') ∧
    (∀ s ∈ tokens c.committed, ∀ t ∈ tokens c.committed, s.familyId = t.familyId → Live s →
      Live t → s = t) ∧
    ∀ f, ∃ ids, FamilyChain c.committed f ids := by
  have h := tokensSound_of_reach h₀ hr
  refine ⟨fun n tx raw a hn hq hp => exchangedBy_of_ret h hn hq hp,
    fun m n old new new' hm hn => exchangedBy_unique h hm hn, fun s hs t ht hf hsl htl => ?_,
    h.inv.chain⟩
  obtain ⟨ids, hids⟩ := h.inv.chain t.familyId
  exact hids.eq_of_unused hs ht hf rfl hsl.1 htl.1

/-! ## A run -/

/-- The refresh token `jti` of the first account, first family, of a new deployment. -/
def trialToken (jti exp : ℕ) : RawToken := .jwt ⟨some 1, jti, .refresh, exp, some 2⟩

/-- The first account of a new deployment logs in and rotates its token. -/
def rotatedMoves : List (Move Exc AccountRequest) :=
  Move.alone (.register "a@b.c" "ann" "correct horse") 0 6
    ++ Move.alone (.login "ann" "correct horse") 1 14
    ++ Move.alone (.refresh (trialToken 3 1209600)) 2 24

/-- After a rotation there is a used token whose family is not revoked. -/
theorem exists_rotated : ∃ c, Reach respond (AccountRequest.serve .trial) State.trial.open c ∧
    ∃ old ∈ tokens c.committed, old.jti = 3 ∧ old.usedAt.isSome ∧
      ¬ FamilyRevoked c.committed old.familyId := by
  obtain ⟨c, hr, hc⟩ := exists_reach_of_run respond (AccountRequest.serve .trial)
    (c := State.trial.open) rotatedMoves
    (fun c => (tokens c.committed).any fun old => old.jti = 3 && old.usedAt.isSome &&
      (tokens c.committed).any fun new => new.familyId = old.familyId && new.revokedAt.isNone)
    (by decide)
  obtain ⟨old, hold, h⟩ := List.any_eq_true.mp hc
  rw [Bool.and_eq_true, Bool.and_eq_true, decide_eq_true_eq, List.any_eq_true] at h
  obtain ⟨⟨hj, hu⟩, new, hnew, h⟩ := h
  rw [Bool.and_eq_true, decide_eq_true_eq] at h
  refine ⟨c, hr, old, hold, hj, hu, fun hf => ?_⟩
  have := hf new hnew h.1
  simp [Option.isNone_iff_eq_none.mp h.2] at this

theorem rotation_linear_trial : ∃ c : AccountConfig,
    (∃ old ∈ tokens c.committed, old.usedAt.isSome) ∧
    (∀ m n old new new', ExchangedBy c m old new → ExchangedBy c n old new' →
      m = n ∧ new = new') ∧
    ∀ f, ∃ ids, FamilyChain c.committed f ids := by
  obtain ⟨c, hr, old, hold, -, hu, -⟩ := exists_rotated
  obtain ⟨-, hunique, -, hchain⟩ := rotation_linear (s := State.trial) rfl hr
  exact ⟨c, ⟨old, hold, hu⟩, hunique, hchain⟩

end DevOps
