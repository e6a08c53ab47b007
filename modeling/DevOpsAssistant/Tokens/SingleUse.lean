import DevOpsAssistant.Tokens.Requests

/-!
# Mailed tokens are used once

* `time_le_reach`, `asked_of_reach`: the clock along a run, and what a session has read of it.
* `CommitsWith`, `Authorises`: the commit of a request that presents a token, and the token behind it.
* **`one_time_tokens`**: every such commit has a token behind it, which was never used before, is used
  ever after, and had not expired.
-/

namespace DevOps

open Txn Discipline

/-- The interleaved sessions of the account routes, with what they have been told. -/
abbrev AccountRun := Recorded Row Answer Exc AccountResponse AccountRequest World

variable {env : Env} {x y z : AccountRun} {n : ℕ}

/-! ## The clock -/

theorem time_le_step (h : RecordedStep respond (AccountRequest.serve env) x y) :
    x.config.world.time ≤ y.config.world.time := by
  rcases h.world with hw | ⟨q, hw⟩
  · exact hw ▸ Nat.le_refl _
  · rw [hw]
    exact time_le_respond q _

theorem time_le_reach {G : AccountRun → AccountRun → Prop}
    (h : RecordedReach respond (AccountRequest.serve env) G x y) :
    x.config.world.time ≤ y.config.world.time := by
  induction h with
  | refl => exact Nat.le_refl _
  | tail _ hs ih => exact Nat.le_trans ih (time_le_step hs.1)

/-- What a session has read of the clock in the meantime. -/
theorem asked_of_reach {G : AccountRun → AccountRun → Prop}
    (h : RecordedReach respond (AccountRequest.serve env) G x y) {u : Time}
    (hu : .answer .now u ∈ y.history n) :
    .answer .now u ∈ x.history n ∨ x.config.world.time ≤ u := by
  induction h with
  | refl => exact .inl hu
  | tail hr hs ih =>
    rcases hs.1.answer hu with hu | rfl
    · exact ih hu
    · exact .inr (Nat.le_trans (time_le_reach hr) (Nat.le_add_right _ _))

/-! ## Commits with a token -/

/-- In the step from `x` to `y` the `n`th session commits; its request presents `token`, which is one
of the table `k`. -/
structure CommitsWith (env : Env) (x y : AccountRun) (n : ℕ) (k : TableName) (token : RawToken) :
    Prop where
  turn : x.config.step respond (AccountRequest.serve env) (.turn n) = some y.config
  history : y.history = x.config.record respond x.history (.turn n)
  session : ∃ tx p, x.config.txs[n]? = some tx ∧ tx.prog = .commit p ∧
    tx.req.presents = some (k, token)

/-- The token `t` authorises what the `n`th session commits in the step from `x` to `y`: it is committed
and unused, its hash is that of the presented token, and the session holds its lock. -/
structure Authorises (env : Env) (x y : AccountRun) (n : ℕ) (k : TableName) (token : RawToken)
    (t : OneTimeToken) : Prop where
  commits : CommitsWith env x y n k token
  presented : ∃ tx, x.config.txs[n]? = some tx ∧ Presented env k token t tx.toLocal x.config.committed

theorem CommitsWith.step (h : CommitsWith env x y n k token) :
    RecordedStep respond (AccountRequest.serve env) x y := ⟨.turn n, h.turn, h.history⟩

theorem CommitsWith.committed (h : CommitsWith env x y n k token) : ∃ tx p,
    x.config.txs[n]? = some tx ∧ tx.prog = .commit p ∧ tx.req.presents = some (k, token) ∧
      y.config.committed = tx.view x.config.committed := by
  obtain ⟨tx, p, hn, hp, hr⟩ := h.session
  have hturn := h.turn
  simp only [Config.step, Config.turn, hn, hp, Config.turnOf] at hturn
  exact ⟨tx, p, hn, hp, hr, by rw [← Option.some.inj hturn]⟩

/-! ## Runs -/

/-- The invariant of the sessions on mailed tokens. -/
abbrev MarksKept (env : Env) : AccountRun → Prop := Kept markDiscipline (OwesMarks env) fun _ _ _ => True

theorem MarksKept.step (h : MarksKept env x)
    (hs : RecordedStep respond (AccountRequest.serve env) x y) :
    MarksKept env y ∧ Commits (OwesMarks env) x y :=
  Kept.step (ensures_mark env) (fun _ _ _ _ _ ho => ho.log.commitOk) (fun _ _ _ => trivial) h hs

theorem MarksKept.reach {G : AccountRun → AccountRun → Prop} (h : MarksKept env x)
    (hr : RecordedReach respond (AccountRequest.serve env) G x y) : MarksKept env y :=
  Kept.reach (ensures_mark env) (fun _ _ _ _ _ ho => ho.log.commitOk) (fun _ _ _ => trivial) h hr

/-- **A step leaves every token**, possibly marked as used. -/
theorem MarksKept.persist_step (h : MarksKept env x)
    (hs : RecordedStep respond (AccountRequest.serve env) x y) :
    Persist x.config.committed y.config.committed := by
  rcases (h.step hs).2 with heq | ⟨n, tx, -, -, -, hcom, howes⟩
  · rw [heq]
    exact .refl _
  · rw [hcom]
    exact howes.log.persist

theorem MarksKept.persist {G : AccountRun → AccountRun → Prop} (h : MarksKept env x)
    (hr : RecordedReach respond (AccountRequest.serve env) G x y) :
    Persist x.config.committed y.config.committed := by
  induction hr with
  | refl => exact .refl _
  | tail hxy hs ih => exact ih.trans ((h.reach hxy).persist_step hs.1)

/-- A token that is used stays used. -/
theorem Persist.used {c d : Database} (h : Persist c d) {t t' : OneTimeToken}
    (ht : t ∈ oneTimeTokens c) (ht' : t' ∈ oneTimeTokens d) (hk : t'.key = t.key)
    (hu : t'.usedAt = none) : t.usedAt = none := by
  obtain ⟨t'', ht'', hm⟩ := h t ht
  obtain rfl := oneTimeToken_ext ht' ht'' (hk.trans hm.key.symm)
  by_contra hne
  have := hm.used (Option.isSome_iff_ne_none.mpr hne)
  simp [hu] at this

/-- **Mailed tokens are used once.** In every run in which requests arrive and interleave, each commit
of a `reset_password`, `verify_email` or `confirm_email_change` request is authorised by a token that
no later commit is authorised by, that no earlier state `z` has marked as used, and that expires after
the time of every state `z` before the session read the clock. -/
theorem one_time_tokens {G : AccountRun → AccountRun → Prop} (s : State) {k : TableName}
    {token : RawToken} (hz : RecordedReach respond (AccountRequest.serve env) G s.open.unrecorded z)
    (hx : RecordedReach respond (AccountRequest.serve env) G z x)
    (hc : CommitsWith env x y n k token) : ∃ t, Authorises env x y n k token t ∧
      (∀ x' y' m k' token' t', RecordedReach respond (AccountRequest.serve env) G y x' →
        Authorises env x' y' m k' token' t' → t'.key ≠ t.key) ∧
      (∀ t' ∈ oneTimeTokens z.config.committed, t'.key = t.key → t'.usedAt = none) ∧
      ((∀ u, .answer .now u ∉ z.history n) → z.config.world.time < t.expiresAt) := by
  have hkz : MarksKept env z := Kept.reach (ensures_mark env) (fun _ _ _ _ _ ho => ho.log.commitOk)
    (fun _ _ _ => trivial) (Kept.open trivial fun _ _ _ hn => nomatch hn) hz
  have hkx := hkz.reach hx
  obtain ⟨tx, p, hn, hp, hr, hcom⟩ := hc.committed
  obtain ⟨t, hpres, ⟨u, hu, hlt⟩, t', ht', hmarks, hused⟩ :=
    (hkx.owes_of_commit hn hp).spends k token hr
  refine ⟨t, ⟨hc, tx, hn, hpres⟩, fun x' y' m k' token' t₁ hy hauth hk => ?_, fun t₁ ht₁ hk => ?_,
    fun hz => ?_⟩
  · -- after the commit the token is marked, and it stays so
    obtain ⟨tx', -, hpres'⟩ := hauth.presented
    have := ((hkx.step hc.step).1.persist hy).used (hcom ▸ ht') hpres'.mem
      (hk.trans hmarks.key.symm) hpres'.unused
    simp [this] at hused
  · exact (hkz.persist hx).used ht₁ hpres.mem hk.symm hpres.unused
  · rcases asked_of_reach hx hu with hold | hle
    · exact absurd hold (hz u)
    · exact Nat.lt_of_le_of_lt hle hlt

/-! ## An account resets its password -/

/-- The first account of a new deployment asks for a reset token and presents it; its request is about
to commit. -/
def resettingMoves : List (Move Exc AccountRequest) :=
  Move.alone (.register "a@b.c" "ann" "correct horse") 0 6
    ++ Move.alone (.forgotPassword "a@b.c") 1 14
    ++ Move.alone (.resetPassword (.secure 2) "battery staple") 2 19

def resettingConfig : Config Row Answer Exc AccountResponse AccountRequest World :=
  (State.trial.open.run respond (AccountRequest.serve .trial) resettingMoves).getD State.trial.open

def resetConfig : Config Row Answer Exc AccountResponse AccountRequest World :=
  (resettingConfig.step respond (AccountRequest.serve .trial) (.turn 2)).getD State.trial.open

theorem one_time_tokens_trial : ∃ x y : AccountRun,
    CommitsWith .trial x y 2 .passwordResetTokens (.secure 2) ∧
    ∃ t, Authorises .trial x y 2 .passwordResetTokens (.secure 2) t ∧
      ∀ x' y' m k' token' t', RecordedReach respond (AccountRequest.serve .trial) (fun _ _ => True) y x' →
        Authorises .trial x' y' m k' token' t' → t'.key ≠ t.key := by
  have hrun : Reach respond (AccountRequest.serve .trial) State.trial.open resettingConfig :=
    .of_run respond _ resettingMoves rfl
  obtain ⟨g, hx⟩ := RecordedReach.of_reach hrun fun _ => []
  have hsession : ∃ tx p, resettingConfig.txs[2]? = some tx ∧ tx.prog = .commit p ∧
      tx.req.presents = some (.passwordResetTokens, .secure 2) := ⟨_, _, rfl, rfl, rfl⟩
  have hc : CommitsWith .trial ⟨resettingConfig, g⟩
      ⟨resetConfig, resettingConfig.record respond g (.turn 2)⟩ 2 .passwordResetTokens (.secure 2) :=
    ⟨rfl, rfl, hsession⟩
  obtain ⟨t, hauth, hlater, -, -⟩ := one_time_tokens State.trial .refl hx hc
  exact ⟨_, _, hc, t, hauth, hlater⟩

end DevOps
