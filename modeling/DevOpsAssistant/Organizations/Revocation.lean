import DevOpsAssistant.Organizations.Owners

/-!
# Revoked invitations

`revoke` reads the invitation without a lock and then writes it. It ends the invitation as long as no
`accept` of it commits in between.

* `AcceptCommits`: an invitation is accepted, and a membership has come.
* `SparesRevocation`: no accept commits between the check of a revocation and its end.
* `Closed`: an invitation that is answered or revoked stays so.
* `BackendKept.accepts`: every accept that commits a membership accepts an invitation of its token.
* **`revoked_never_accepted`**; **`revoke_overwrites_accept`**: a run without it.
-/

namespace DevOps

open Txn Discipline

/-- The invitation `id` is answered or revoked. -/
def Closed (c : Database) (id : UUID) : Prop :=
  ∃ i ∈ rowsOf OrganizationInvitation c, i.id = id ∧ i.status ≠ .pending

/-- In the step from `c` to `d` a session commits that has accepted the invitation `id` and inserted a
membership. -/
structure AcceptCommits (c d : BackendConfig) (id : UUID) : Prop where
  session : ∃ (n : ℕ) (tx : BackendTx), c.txs[n]? = some tx ∧ (∃ k, tx.prog = .commit k) ∧
    d.committed = tx.view c.committed ∧
      ∃ access token, tx.req = .organization (.acceptInvitation access token)
  before : ∃ i ∈ rowsOf OrganizationInvitation c.committed, i.id = id ∧ i.status ≠ .accepted
  accepted : ∃ i ∈ rowsOf OrganizationInvitation d.committed, i.id = id ∧ i.status = .accepted
  inserted : ∃ m ∈ rowsOf OrganizationMember d.committed, m ∉ rowsOf OrganizationMember c.committed

/-- The `n`th session is to revoke the invitation `id` of `o`, has seen it pending, and has not
committed. -/
structure Revoking (x : BackendRun) (n : ℕ) (o id : UUID) : Prop where
  request : ∃ (tx : BackendTx) (access : RawToken), x.config.txs[n]? = some tx ∧
    tx.prog.done = false ∧ tx.req = .organization (.revokeInvitation access o id)
  uncommitted : .commit ∉ x.history n
  saw : SawPending id o (x.history n)

/-- No accept of an invitation commits while the `n`th session is revoking it. -/
def SparesRevocation (n : ℕ) (x y : BackendRun) : Prop :=
  ∀ o id, Revoking x n o id → ¬ AcceptCommits x.config y.config id

section Steps

variable {env : Env} {x y : BackendRun} {n : ℕ} {o id : UUID}

/-- What a step does to the invitations. -/
theorem BackendKept.invitations (hk : BackendKept env x)
    (hs : RecordedStep respond (BackendRequest.serve env) x y) : ∃ h ids r,
      InvitationOutcome env h ids x.config.committed r y.config.committed ∧
        ∀ n ∈ ids, ∀ row ∈ x.config.committed.rows, n ∉ orgDiscipline.names row := by
  rcases (hk.step hs).2 with heq | ⟨n, tx, hn, -, -, hcom, howes⟩
  · refine ⟨[], [], .account (.login "" ""), .same fun i => ?_, fun _ hm => nomatch hm⟩
    rw [heq]
  · refine ⟨x.history n, tx.ids, tx.req, ?_, hk.unused tx (List.mem_of_getElem? hn)⟩
    rw [hcom]
    exact howes.effect.invitations.congr fun i => mem_rowsOf_view rfl

/-- **A closed invitation stays closed.** -/
theorem Closed.step (hk : BackendKept env x) (hc : Closed x.config.committed id)
    (hs : RecordedStep respond (BackendRequest.serve env) x y) : Closed y.config.committed id := by
  obtain ⟨i, hi, rfl, hp⟩ := hc
  obtain ⟨h, ids, r, hout, hunused⟩ := hk.invitations hs
  cases hout with
  | same rows => exact ⟨i, (rows i).mpr hi, rfl, hp⟩
  | invited request acts assign fresh asked missed rows =>
    refine ⟨i, (rows i).mpr (.inr ⟨hi, fun hid => ?_⟩), rfl, hp⟩
    rw [← hid] at fresh
    exact not_fresh_of_committed hunused rfl hi fresh
  | @resent _ _ j _ _ request saw mem rows =>
    by_cases hid : i.id = j.id
    · obtain rfl := entity_ext hi mem hid
      exact ⟨_, (rows _).mpr (.inl rfl), rfl, hp⟩
    · exact ⟨i, (rows i).mpr (.inr ⟨hi, hid⟩), rfl, hp⟩
  | @revoked _ _ j _ request saw mem rows =>
    by_cases hid : i.id = j.id
    · exact ⟨_, (rows _).mpr (.inl rfl), hid.symm, by simp⟩
    · exact ⟨i, (rows i).mpr (.inr ⟨hi, hid⟩), rfl, hp⟩
  | @answered _ j _ _ _ presents mem opened closed rows =>
    by_cases hid : i.id = j.id
    · exact ⟨_, (rows _).mpr (.inl rfl), hid.symm, closed⟩
    · exact ⟨i, (rows i).mpr (.inr ⟨hi, hid⟩), rfl, hp⟩

/-- A step that accepts an invitation finds it pending, and leaves it closed. -/
theorem AcceptCommits.pending (hk : BackendKept env x)
    (hs : RecordedStep respond (BackendRequest.serve env) x y)
    (ha : AcceptCommits x.config y.config id) :
    ¬ Closed x.config.committed id ∧ Closed y.config.committed id := by
  obtain ⟨i, hi, rfl, hna⟩ := ha.before
  obtain ⟨j, hj, hid, hacc⟩ := ha.accepted
  refine ⟨?_, j, hj, hid, by rw [hacc]; decide⟩
  -- the accepted row is not the one from before
  have hold : j ∉ rowsOf OrganizationInvitation x.config.committed := fun h => by
    rw [entity_ext h hi hid] at hacc
    exact hna hacc
  obtain ⟨h, ids, r, hout, hunused⟩ := hk.invitations hs
  cases hout with
  | same rows => exact absurd ((rows j).mp hj) hold
  | invited request acts assign fresh asked missed rows =>
    rcases (rows j).mp hj with rfl | ⟨h, -⟩
    · rw [hid] at fresh
      exact absurd fresh (not_fresh_of_committed hunused rfl hi)
    · exact absurd h hold
  | resent request saw mem rows =>
    rcases (rows j).mp hj with rfl | ⟨h, -⟩
    · rw [entity_ext mem hi hid] at hacc
      exact absurd hacc hna
    · exact absurd h hold
  | revoked request saw mem rows =>
    rcases (rows j).mp hj with rfl | ⟨h, -⟩
    · cases hacc
    · exact absurd h hold
  | answered presents mem opened closed rows =>
    rcases (rows j).mp hj with rfl | ⟨h, -⟩
    · rintro ⟨i', hi', hid', hp'⟩
      rw [entity_ext hi' mem (hid'.trans hid.symm)] at hp'
      exact hp' opened.pending
    · exact absurd h hold

/-- **Whatever membership an accept commits**, it accepts an invitation of its token. -/
theorem BackendKept.accepts (hk : BackendKept env x) {tx : BackendTx} {access token : RawToken}
    (hn : x.config.txs[n]? = some tx)
    (hreq : tx.req = .organization (.acceptInvitation access token))
    (hp : ∃ k, tx.prog = .commit k) (hview : y.config.committed = tx.view x.config.committed)
    (hm : ∃ m ∈ rowsOf OrganizationMember y.config.committed,
      m ∉ rowsOf OrganizationMember x.config.committed) :
    ∃ i ∈ rowsOf OrganizationInvitation x.config.committed,
      i.tokenHash = hashSecureToken env token ∧ AcceptCommits x.config y.config i.id := by
  have heffect : OrgEffect env (x.history n) tx.ids x.config.committed
      (.organization (.acceptInvitation access token)) (logOn orgTables tx.toLocal) := by
    obtain ⟨k, hk'⟩ := hp
    exact hreq ▸ (hk.owes_of_commit hn hk').effect
  generalize hws : logOn orgTables tx.toLocal = ws at heffect
  obtain ⟨m, hm, hnm⟩ := hm
  rw [hview] at hm
  have hm' := (mem_rowsOf_view (S := orgTables) rfl).mp hm
  rw [hws] at hm'
  cases heffect with
  | quiet hr => cases hr
  | @accept _ _ _ i member t signedIn mem opened =>
    refine ⟨i, mem, opened.token, ⟨n, tx, hn, hp, hview, access, token, hreq⟩, ⟨i, mem, rfl, ?_⟩,
      ⟨{ i with status := .accepted, acceptedAt := some t }, ?_, rfl, rfl⟩, m, hview ▸ hm, hnm⟩
    · rw [opened.pending]
      decide
    · rw [hview]
      refine (mem_rowsOf_view (S := orgTables) rfl).mpr ?_
      rw [hws]
      exact mem_rowsOf_store.mpr (.inl rfl)
  | expire presents mem opened => exact absurd ((mem_rowsOf_store_other (by decide)).mp hm') hnm

/-- A session that commits a revocation has seen the invitation pending, and closes it. -/
theorem BackendKept.revokes (hk : BackendKept env x) {tx : BackendTx} {access : RawToken}
    (hn : x.config.txs[n]? = some tx) (hreq : tx.req = .organization (.revokeInvitation access o id))
    (hp : ∃ k, tx.prog = .commit k) :
    SawPending id o (x.history n) ∧ Closed (tx.view x.config.committed) id := by
  obtain ⟨k, hp⟩ := hp
  have howes := hk.owes_of_commit hn hp
  have heffect := howes.effect
  rw [hreq] at heffect
  generalize hws : logOn orgTables tx.toLocal = ws at heffect
  cases heffect with
  | quiet hr => cases hr
  | @revoke _ _ _ _ _ i t acts saw mem hid =>
    refine ⟨saw, { i with status := .revoked, revokedAt := some t }, ?_, hid, by simp⟩
    refine (mem_rowsOf_view (S := orgTables) rfl).mpr ?_
    rw [hws]
    exact mem_rowsOf_store.mpr (.inl rfl)
  | expire presents => cases presents

/-- A session that has committed a revocation has closed the invitation. -/
def RevokedClosed (x : BackendRun) : Prop :=
  ∀ n (tx : BackendTx) access o id, x.config.txs[n]? = some tx →
    tx.req = .organization (.revokeInvitation access o id) → .commit ∈ x.history n →
      Closed x.config.committed id

/-- The invitation `id` is closed, and the `n`th session has not committed a revocation of it, and will
not. -/
def Barred (x : BackendRun) (n : ℕ) (id : UUID) : Prop :=
  Closed x.config.committed id ∧ ∀ (tx : BackendTx) access o, x.config.txs[n]? = some tx →
    tx.req = .organization (.revokeInvitation access o id) →
      .commit ∉ x.history n ∧ (tx.prog.done = false → ¬ SawPending id o (x.history n))

theorem RevokedClosed.step (hk : BackendKept env x) (hx : RevokedClosed x)
    (hs : RecordedStep respond (BackendRequest.serve env) x y) : RevokedClosed y := by
  intro n tx' access o id hn hreq hcommit
  rcases hs.session hn with ⟨hn, hh⟩ | ⟨tx, hn, hturn, hcom, hh⟩ | ⟨-, -, hh, tx, e, hn, hreq', -⟩ |
    ⟨hlen, -, hh, -⟩
  · exact (hx n tx' access o id hn hreq (hh ▸ hcommit)).step hk hs
  · rw [hturn.req] at hreq
    by_cases hold : .commit ∈ x.history n
    · exact (hx n tx access o id hn hreq hold).step hk hs
    · rcases hcom with ⟨-, hne⟩ | ⟨hview, hp⟩
      · rw [hh, List.mem_append] at hcommit
        rcases tx.prog.told_cases respond x.config.toStore with htold | ⟨q, htold⟩ |
          ⟨q, a, htold⟩ | ⟨-, k, hp⟩
        · simp [htold, hold] at hcommit
        · simp [htold, hold] at hcommit
        · simp [htold, hold] at hcommit
        · exact absurd hp (hne k)
      · rw [hview]
        exact (hk.revokes hn hreq hp).2
  · exact (hx n tx access o id hn (hreq' ▸ hreq) (hh ▸ hcommit)).step hk hs
  · rw [hh, hk.blank n (Nat.le_of_eq hlen.symm)] at hcommit
    cases hcommit

theorem Barred.step (hk : BackendKept env x) (hx : Barred x n id)
    (hs : RecordedStep respond (BackendRequest.serve env) x y) : Barred y n id := by
  refine ⟨hx.1.step hk hs, fun tx' access o hn hreq => ?_⟩
  rcases hs.session hn with ⟨hn, hh⟩ | ⟨tx, hn, hturn, hcom, hh⟩ | ⟨hdone, -, hh, tx, e, hn, hreq', -⟩ |
    ⟨hlen, -, hh, -⟩
  · rw [hh]
    exact hx.2 tx' access o hn hreq
  · rw [hturn.req] at hreq
    obtain ⟨hcommit, hsaw⟩ := hx.2 tx access o hn hreq
    have hnot : ∀ k, tx.prog ≠ .commit k := fun k hp =>
      hsaw (by rw [hp]; rfl) (hk.revokes hn hreq ⟨k, hp⟩).1
    rw [hh]
    have hkeep : (tx'.prog.done = false → ¬ SawPending id o (x.history n)) := fun hd =>
      hsaw (hturn.running hd)
    rcases tx.prog.told_cases respond x.config.toStore with htold | ⟨q, htold⟩ |
      ⟨q, a, htold⟩ | ⟨-, k, hp⟩
    · exact htold ▸ ⟨hcommit, hkeep⟩
    · rw [htold]
      refine ⟨by simpa using hcommit, fun hd ⟨i, ⟨c, hr, hi, hpi⟩, hpend⟩ => ?_⟩
      rcases List.mem_cons.mp hr with hr | hr
      -- what it reads now is closed
      · obtain ⟨j, hj, hjid, hjp⟩ := hx.1
        obtain ⟨-, rfl⟩ := Event.read.inj hr
        rw [entity_ext hj hi (hjid.trans (invitationOf_eq.mp hpi).1.symm)] at hjp
        exact hjp hpend
      · exact hkeep hd ⟨i, ⟨c, hr, hi, hpi⟩, hpend⟩
    · rw [htold]
      refine ⟨by simpa using hcommit, fun hd ⟨i, ⟨c, hr, hi⟩, hpend⟩ => ?_⟩
      rcases List.mem_cons.mp hr with hr | hr
      · cases hr
      · exact hkeep hd ⟨i, ⟨c, hr, hi⟩, hpend⟩
    · exact absurd hp (hnot k)
  · rw [hh]
    exact ⟨(hx.2 tx access o hn (hreq' ▸ hreq)).1, fun hd => absurd hdone (by simp [hd])⟩
  · rw [hh, hk.blank n (Nat.le_of_eq hlen.symm)]
    exact ⟨fun h => (nomatch h), fun _ ⟨_, ⟨_, hr, _⟩, _⟩ => nomatch hr⟩

end Steps

/-! ## Runs -/

section Runs

variable {env : Env} {s₀ : State} {x y w : BackendRun} {n : ℕ} {o id : UUID}

theorem revokedClosed_of_reach {G : BackendRun → BackendRun → Prop} (h₀ : s₀.committed = .empty)
    (hr : RecordedReach respond (BackendRequest.serve env) G (s₀.open : BackendConfig).unrecorded x) :
    BackendKept env x ∧ RevokedClosed x := by
  induction hr with
  | refl => exact ⟨backendKept_open h₀, fun _ _ _ _ _ hn => nomatch hn⟩
  | tail _ hs ih => exact ⟨(ih.1.step hs.1).1, ih.2.step ih.1 hs.1⟩

/-- Once an invitation is accepted, a session that is not revoking it has not revoked it, and will
not. -/
theorem barred_of_acceptCommits (hk : BackendKept env x) (hx : RevokedClosed x)
    (hs : RecordedStep respond (BackendRequest.serve env) x y) (hg : SparesRevocation n x y)
    (ha : AcceptCommits x.config y.config id) : Barred y n id := by
  obtain ⟨hopen, hclosed⟩ := ha.pending hk hs
  have hbefore : ∀ (tx : BackendTx) access o, x.config.txs[n]? = some tx →
      tx.req = .organization (.revokeInvitation access o id) → .commit ∉ x.history n ∧
        (tx.prog.done = false → ¬ SawPending id o (x.history n)) := by
    intro tx access o hn hreq
    have hcommit : .commit ∉ x.history n := fun h => hopen (hx n tx access o id hn hreq h)
    exact ⟨hcommit, fun hd hsaw => hg o id ⟨⟨tx, access, hn, hd, hreq⟩, hcommit, hsaw⟩ ha⟩
  have hmoved : y.config.committed ≠ x.config.committed := fun heq => by
    obtain ⟨m, hm, hnm⟩ := ha.inserted
    exact hnm (heq ▸ hm)
  refine ⟨hclosed, fun tx' access o hn hreq => ?_⟩
  rcases hs.session hn with ⟨hn, hh⟩ | ⟨tx, hn, hturn, ⟨heq, -⟩ | ⟨-, k, hp⟩, -⟩ | ⟨-, heq, -⟩ |
    ⟨-, heq, -⟩
  · rw [hh]
    exact hbefore tx' access o hn hreq
  · exact absurd heq hmoved
  -- the session that commits is no revocation
  · rw [hturn.req] at hreq
    exact absurd (hk.revokes hn hreq ⟨k, hp⟩).1 ((hbefore tx access o hn hreq).2 (by rw [hp]; rfl))
  · exact absurd heq hmoved
  · exact absurd heq hmoved

theorem barred_of_reach {G : BackendRun → BackendRun → Prop} (hk : BackendKept env y)
    (hb : Barred y n id) (hw : RecordedReach respond (BackendRequest.serve env) G y w) :
    BackendKept env w ∧ Barred w n id := by
  induction hw with
  | refl => exact ⟨hk, hb⟩
  | tail _ hs ih => exact ⟨(ih.1.step hs.1).1, ih.2.step ih.1 hs.1⟩

/-- **A revoked invitation never yields membership**: if a revocation returns in a run in which no accept
of the invitation commits between its check and its end, no accept has committed, and none ever
will. -/
theorem revoked_never_accepted (h₀ : s₀.committed = .empty)
    (hx : RecordedReach respond (BackendRequest.serve env) (SparesRevocation n)
      (s₀.open : BackendConfig).unrecorded x)
    (hs : RecordedStep respond (BackendRequest.serve env) x y) (hg : SparesRevocation n x y)
    (hw : RecordedReach respond (BackendRequest.serve env) (SparesRevocation n) y w)
    {tx : BackendTx} {access : RawToken} (hreq : tx.req = .organization (.revokeInvitation access o id))
    (hret : tx.prog.returned = true)
    (hn : x.config.txs[n]? = some tx ∨ w.config.txs[n]? = some tx) :
    ¬ AcceptCommits x.config y.config id := by
  intro ha
  obtain ⟨hk, hclosed⟩ := revokedClosed_of_reach h₀ hx
  obtain ⟨a, hret⟩ := Prog.exists_ret hret
  rcases hn with hn | hn
  · exact (ha.pending hk hs).1 (hclosed n tx access o id hn hreq (hk.ends_of_ret hn hret a rfl))
  · obtain ⟨hk', hbarred⟩ :=
      barred_of_reach (hk.step hs).1 (barred_of_acceptCommits hk hclosed hs hg ha) hw
    exact (hbarred.2 tx access o hn hreq).1 (hk'.ends_of_ret hn hret a rfl)

end Runs

/-! ## Two runs -/

/-- The user 1 creates the organization 4 and invites the user 3: the requests, each with the number of
its turns. The invitation is 8, its token was made from 7. -/
def secondInvited : List (BackendRequest × ℕ) :=
  [(.account (.register "a" "a" "abababababab"), 6),
    (.account (.register "b" "b" "abababababab"), 6),
    (.organization (.create (trialAccessOf 1) "o" none), 20),
    (.organization (.createInvitation (trialAccessOf 1) 4 "b" .member), 23)]

/-- The revocation sees the invitation pending, then an accept of it is about to commit. -/
def acceptingMoves : List (Move Exc BackendRequest) :=
  Move.serial 0 secondInvited ++
    Move.alone (.organization (.revokeInvitation (trialAccessOf 1) 4 8)) 4 5 ++
    Move.alone (.organization (.acceptInvitation (trialAccessOf 3) (.secure 7))) 5 18

def acceptingConfig : BackendConfig :=
  ((State.trial.open : BackendConfig).run respond (BackendRequest.serve .trial) acceptingMoves).getD
    State.trial.open

/-- The accept has committed. -/
def acceptedConfig : BackendConfig :=
  (acceptingConfig.step respond (BackendRequest.serve .trial) (.turn 5)).getD State.trial.open

/-- The revocation has returned. -/
def overwrittenConfig : BackendConfig :=
  (acceptedConfig.run respond (BackendRequest.serve .trial) (List.replicate 8 (.turn 4))).getD
    State.trial.open

theorem acceptCommits_trial : AcceptCommits acceptingConfig acceptedConfig 8 := by
  refine ⟨⟨5, _, rfl, ⟨_, rfl⟩, rfl, _, _, rfl⟩, by decide, by decide, ?_⟩
  have hnew : ∃ m ∈ rowsOf OrganizationMember acceptedConfig.committed,
      ∀ m' ∈ rowsOf OrganizationMember acceptingConfig.committed, m'.id ≠ m.id := by
    decide
  obtain ⟨m, hm, hne⟩ := hnew
  exact ⟨m, hm, fun h => hne m h rfl⟩

/-- The revocation checks the invitation, the accept commits, and the revocation overwrites the
invitation and returns. -/
theorem revoke_overwrites_accept : ¬ ∀ (env : Env) (s₀ : State) (x y w : BackendConfig) (n : ℕ)
    (tx : BackendTx) (access : RawToken) (o id : UUID), s₀.committed = .empty →
      Reach respond (BackendRequest.serve env) s₀.open x →
      Step respond (BackendRequest.serve env) x y → Reach respond (BackendRequest.serve env) y w →
      w.txs[n]? = some tx → tx.req = .organization (.revokeInvitation access o id) →
      tx.prog.returned = true → ¬ AcceptCommits x y id := by
  intro hall
  refine hall .trial State.trial acceptingConfig acceptedConfig overwrittenConfig 4 _ _ 4 8 rfl
    (.of_run respond _ acceptingMoves rfl) ⟨.turn 5, rfl⟩
    (.of_run respond _ (List.replicate 8 (.turn 4)) rfl) rfl rfl rfl acceptCommits_trial

/-- A session that is open alone is not accepting while it revokes. -/
theorem sparesRevocation_of_quiet {x y : BackendRun} {m n : ℕ} (hq : x.config.quietFor m = true) :
    SparesRevocation n x y := by
  intro o id hr ha
  obtain ⟨tx, access, hn, hd, hreq⟩ := hr.request
  obtain ⟨k, tx', hk, ⟨p, hp⟩, -, access', token, hreq'⟩ := ha.session
  have honly : ∀ {i : ℕ} {t : BackendTx}, x.config.txs[i]? = some t → t.prog.done = false → i = m := by
    intro i t hi hd
    by_contra hne
    exact absurd (Config.done_of_quietFor hq hne hi) (by simp [hd])
  obtain rfl := honly hn hd
  obtain rfl := honly hk (by rw [hp]; rfl)
  cases hn.symm.trans hk
  cases hreq.symm.trans hreq'

/-- The invitation is revoked, and no one else is there. -/
def revokedConfig : BackendConfig :=
  ((State.trial.open : BackendConfig).serveAlone respond (BackendRequest.serve .trial)
    (secondInvited ++
      [(.organization (.revokeInvitation (trialAccessOf 1) 4 8), 13)])).getD State.trial.open

theorem serveAlone_revokedConfig : (State.trial.open : BackendConfig).serveAlone respond
    (BackendRequest.serve .trial) (secondInvited ++
      [(.organization (.revokeInvitation (trialAccessOf 1) 4 8), 13)]) = some revokedConfig := rfl

theorem revokedConfig_session : ∃ tx access, revokedConfig.txs[4]? = some tx ∧
    tx.req = .organization (.revokeInvitation access 4 8) ∧ tx.prog.returned = true :=
  ⟨_, _, rfl, rfl, rfl⟩

/-- Whatever comes next does not accept the invitation. -/
theorem revoked_never_accepted_trial : ∃ x : BackendRun, x.config = revokedConfig ∧
    ∀ y, RecordedStep respond (BackendRequest.serve .trial) x y →
      ¬ AcceptCommits x.config y.config 8 := by
  obtain ⟨g, hr⟩ := RecordedReach.of_serveAlone (G := SparesRevocation 4)
    (fun _ _ _ hq _ => sparesRevocation_of_quiet hq) _
    (x := (State.trial.open : BackendConfig).unrecorded) serveAlone_revokedConfig
  obtain ⟨tx, access, hn, hreq, hret⟩ := revokedConfig_session
  have hquiet : revokedConfig.quietFor 0 = true := by decide
  exact ⟨⟨revokedConfig, g⟩, rfl, fun y hs => revoked_never_accepted rfl hr hs
    (sparesRevocation_of_quiet hquiet) .refl hreq hret (.inl hn)⟩

end DevOps
