import DevOpsAssistant.Organizations.Changes

/-!
# Every organization keeps an owner, if checks stay valid

The guard of the final owner counts the owners and then changes another row. It keeps an owner in
every organization as long as nothing takes the other owners away between the count and the commit.

* `Owned`: every organization that is not deleted has an owner.
* `Taking`: a session that has passed the guard and has not committed.
* `SparesOwners`: no other session takes the last other owner away meanwhile.
* **`owned_of_sparesOwners`**; **`two_removals_leave_no_owner`**: a run without it.
-/

namespace DevOps

open Txn Discipline

/-! ## Owners -/

/-- The organization `o` is not deleted. -/
def LiveOrg (c : Database) (o : UUID) : Prop :=
  ∃ org ∈ rowsOf Organization c, org.id = o ∧ org.deletedAt = none

/-- Every organization that is not deleted has an owner. -/
def Owned (c : Database) : Prop :=
  ∀ o, LiveOrg c o → ∃ m ∈ rowsOf OrganizationMember c, ownerOf o m = true

/-- The organization `o` has an owner besides the membership `id`. -/
def HasOther (c : Database) (o id : UUID) : Prop :=
  ∃ m ∈ rowsOf OrganizationMember c, ownerOf o m = true ∧ m.id ≠ id

/-- The guard of the final owner is passed for the membership `target` of `u` in `o`: it was not an
owner when the session read it, or the session then counted other owners. -/
def Checked (o u : UUID) (target : OrganizationMember) (h : Told) : Prop :=
  (Saw (memberOf o u) target h ∧ target.role ≠ .owner) ∨ CountedAfter o u target h

/-- The session has passed the guard, may take the role of an owner from the membership `target` of
`o`, and has not committed. -/
structure Taking (tx : BackendTx) (h : Told) (o : UUID) (target : OrganizationMember) : Prop where
  request : ∃ access u, Checked o u target h ∧
    ((∃ role, role ≠ .owner ∧ tx.req = .organization (.updateMember access o u role)) ∨
      tx.req = .organization (.removeMember access o u))
  running : tx.prog.done = false
  uncommitted : .commit ∉ h

/-- No other session takes the last other owner away while a session may take an owner. -/
def SparesOwners (x y : BackendRun) : Prop :=
  ∀ n tx o target, x.config.txs[n]? = some tx → Taking tx (x.history n) o target →
    y.config.txs[n]? = some tx → LiveOrg y.config.committed o →
    HasOther x.config.committed o target.id → HasOther y.config.committed o target.id

/-- The target of a guard was read. -/
theorem Checked.saw {o u : UUID} {target : OrganizationMember} {h : Told}
    (hc : Checked o u target h) : Saw (memberOf o u) target h := by
  rcases hc with ⟨hs, -⟩ | ⟨es, c, h₀, m, m', rfl, ⟨c₀, hr, ht⟩, -⟩
  · exact hs
  · exact ⟨c₀, List.mem_append_right _ (List.mem_cons_of_mem _ hr), ht⟩

/-- A guard is passed by the latest thing the session was told, or was passed before. -/
theorem Checked.of_cons {o u : UUID} {target : OrganizationMember} {e : Event Row Answer} {h : Told}
    (hc : Checked o u target (e :: h)) : Checked o u target h ∨ ∃ p c, e = .read p c ∧
      ((target ∈ rowsOf OrganizationMember c ∧ target.role ≠ .owner) ∨
        ∃ m m', m ∈ rowsOf OrganizationMember c ∧ ownerOf o m = true ∧
          m' ∈ rowsOf OrganizationMember c ∧ ownerOf o m' = true ∧ m.id ≠ m'.id) := by
  rcases hc with ⟨⟨c, hr, hm, hp⟩, hrole⟩ | ⟨es, c, h₀, m, m', heq, hs, hrest⟩
  · rcases List.mem_cons.mp hr with hr | hr
    · exact .inr ⟨_, c, hr.symm, .inl ⟨hm, hrole⟩⟩
    · exact .inl (.inl ⟨⟨c, hr, hm, hp⟩, hrole⟩)
  · cases es with
    | nil =>
      obtain ⟨rfl, rfl⟩ := List.cons.inj heq
      exact .inr ⟨_, c, rfl, .inr ⟨m, m', hrest⟩⟩
    | cons e' es =>
      obtain ⟨rfl, rfl⟩ := List.cons.inj heq
      exact .inl (.inr ⟨es, c, h₀, m, m', rfl, hs, hrest⟩)

/-! ## One commit -/

section Commit

variable {env : Env} {h : Told} {ids : List ℕ} {c : Database} {r : BackendRequest}
  {ws : List (Write Row Key)}

/-- A commit keeps an owner in every organization that is not deleted, if the guards it rests on
still hold. -/
theorem owned_apply (e : OrgEffect env h ids c r ws)
    (hu : ∀ n ∈ ids, ∀ r ∈ c.rows, n ∉ orgDiscipline.names r)
    (hkept : ∀ p t, .read p t ∈ h → MembersKept t c) (hc : Owned c)
    (hother : ∀ access o u target, Checked o u target h →
      ((∃ role, role ≠ .owner ∧ r = .organization (.updateMember access o u role)) ∨
        r = .organization (.removeMember access o u)) → LiveOrg c o → HasOther c o target.id) :
    Owned (c.apply ws) := by
  rintro o ⟨org, horg, rfl, hlive⟩
  rcases e.organization_came horg with ⟨org₀, horg₀, hid, hdel⟩ | ⟨-, m, hm, hp, -⟩
  swap
  · exact ⟨m, hm, hp⟩
  have hlive₀ : LiveOrg c org.id := ⟨org₀, horg₀, hid, hdel hlive⟩
  obtain ⟨m, hm, hp⟩ := hc _ hlive₀
  -- a membership that the session has read has kept its organization
  have horg_of : ∀ {o' u : UUID} {target row : OrganizationMember}, Saw (memberOf o' u) target h →
      row ∈ rowsOf OrganizationMember c → row.id = target.id → row.organizationId = o' := by
    rintro o' u target row ⟨t, hr, ht, hpt⟩ hrow hid
    rw [(hkept _ t hr target ht row hrow hid.symm).1]
    exact (memberOf_eq.mp hpt).1
  cases e.members with
  | same rows => exact ⟨m, (rows m).mpr hm, hp⟩
  | @joined member fresh joins rows =>
    refine ⟨m, (rows m).mpr (.inr ⟨hm, fun hid => ?_⟩), hp⟩
    exact not_fresh_of_committed hu rfl hm (show m.id ∈ ids from hid ▸ fresh)
  | @reassigned access o' u role user actor target row t request acts saw manage final mem hrow rows =>
    by_cases hmid : m.id = row.id
    swap
    · exact ⟨m, (rows m).mpr (.inr ⟨hm, hmid⟩), hp⟩
    obtain rfl : m = row := entity_ext hm mem hmid
    by_cases hrole : role = .owner
    · refine ⟨_, (rows _).mpr (.inl rfl), ownerOf_eq.mpr ⟨(ownerOf_eq.mp hp).1, ?_⟩⟩
      change flushed target.role role m.role = .owner
      unfold flushed
      split
      · exact (ownerOf_eq.mp hp).2
      · exact hrole
    · have ho : o' = org.id := by rw [← horg_of saw mem hrow, (ownerOf_eq.mp hp).1]
      subst ho
      have hchecked : Checked org.id u target h := by
        by_cases howner : target.role = .owner
        · exact .inr (final howner hrole)
        · exact .inl ⟨saw, howner⟩
      obtain ⟨m', hm', hp', hne⟩ := hother access _ u target hchecked
        (.inl ⟨role, hrole, request⟩) hlive₀
      exact ⟨m', (rows m').mpr (.inr ⟨hm', fun h => hne (h.trans hrow)⟩), hp'⟩
  | @dismissed access o' u user actor target row request acts saw manage final mem hrow rows =>
    by_cases hmid : m.id = row.id
    swap
    · exact ⟨m, (rows m).mpr ⟨hm, hmid⟩, hp⟩
    obtain rfl : m = row := entity_ext hm mem hmid
    have ho : o' = org.id := by rw [← horg_of saw mem hrow, (ownerOf_eq.mp hp).1]
    subst ho
    have hchecked : Checked org.id u target h := by
      by_cases howner : target.role = .owner
      · exact .inr (final howner)
      · exact .inl ⟨saw, howner⟩
    obtain ⟨m', hm', hp', hne⟩ := hother access _ u target hchecked (.inr request) hlive₀
    exact ⟨m', (rows m').mpr ⟨hm', fun h => hne (h.trans hrow)⟩, hp'⟩

end Commit

/-! ## Runs -/

/-- The organizations of `l.view c` are those its writes to them leave. -/
theorem liveOrg_view {l : OpenTx} {c : Database} {o : UUID} :
    LiveOrg (l.view c) o ↔ LiveOrg (c.apply (logOn orgTables l)) o :=
  exists_congr fun _ => and_congr_left' (mem_rowsOf_view rfl)

theorem owned_view {l : OpenTx} {c : Database} :
    Owned (l.view c) ↔ Owned (c.apply (logOn orgTables l)) := by
  refine forall_congr' fun o => imp_congr liveOrg_view (exists_congr fun m => and_congr_left' ?_)
  exact mem_rowsOf_view rfl

variable {env : Env} {x y : BackendRun}

/-- The invariant of the runs in which sessions spare each other's owners. -/
structure OwnersKept (x : BackendRun) : Prop where
  owned : Owned x.config.committed
  other : ∀ n tx o target, x.config.txs[n]? = some tx → Taking tx (x.history n) o target →
    LiveOrg x.config.committed o → HasOther x.config.committed o target.id

/-- The invariant of all runs. -/
abbrev BackendKept (env : Env) (x : BackendRun) : Prop := Kept orgDiscipline (Owing env) Returned x

theorem BackendKept.step (hk : BackendKept env x)
    (hs : RecordedStep respond (BackendRequest.serve env) x y) :
    BackendKept env y ∧ Commits (Owing env) x y :=
  Kept.step (ensures_serve env) (fun _ _ _ _ _ ho => commitOk_of_owing ho)
    (fun _ _ _ _ ha => nomatch ha) hk hs

/-- A turn of a session that passes a guard leaves the other owner it has seen. -/
theorem hasOther_of_turn (hx : OwnersKept x) {n : ℕ} {tx tx' : BackendTx} {o : UUID}
    {target : OrganizationMember} (hn : x.config.txs[n]? = some tx)
    (hturn : Turns x.config n tx tx')
    (ht : Taking tx' (tx.prog.told respond x.config.toStore ++ x.history n) o target)
    (hlive : LiveOrg x.config.committed o) : HasOther x.config.committed o target.id := by
  have hrunning : tx.prog.done = false := hturn.running ht.running
  obtain ⟨access, u, hchecked, hreq⟩ := ht.request
  rw [hturn.req] at hreq
  have hbefore : Checked o u target (x.history n) → .commit ∉ x.history n →
      HasOther x.config.committed o target.id := fun hc hcommit =>
    hx.other n tx o target hn ⟨⟨access, u, hc, hreq⟩, hrunning, hcommit⟩ hlive
  have hun := ht.uncommitted
  rw [List.mem_append, not_or] at hun
  rcases tx.prog.told_cases respond x.config.toStore with htold | ⟨q, htold⟩ |
    ⟨q, a, htold⟩ | ⟨htold, -⟩ <;> rw [htold] at hchecked hun
  · exact hbefore hchecked hun.2
  · rcases hchecked.of_cons with hc | ⟨p, c, he, hnew⟩
    · exact hbefore hc hun.2
    obtain ⟨-, rfl⟩ := Event.read.inj he
    rcases hnew with ⟨hm, hrole⟩ | ⟨m, m', hm, hp, hm', hp', hne⟩
    -- the target is no owner, so the owner of the organization is another member
    · obtain ⟨m, hmem, hp⟩ := hx.owned o hlive
      refine ⟨m, hmem, hp, fun hid => hrole ?_⟩
      rw [← entity_ext hmem hm hid]
      exact (ownerOf_eq.mp hp).2
    -- of two owners, one is not the target
    · by_cases hid : m.id = target.id
      · exact ⟨m', hm', hp', fun h => hne (hid.trans h.symm)⟩
      · exact ⟨m, hm, hp, hid⟩
  · rcases hchecked.of_cons with hc | ⟨p, c, he, -⟩
    · exact hbefore hc hun.2
    · cases he
  · exact absurd List.mem_cons_self hun.1

/-- **A step that spares owners keeps the invariant.** -/
theorem OwnersKept.step (hk : BackendKept env x) (hx : OwnersKept x)
    (hs : RecordedStep respond (BackendRequest.serve env) x y) (hg : SparesOwners x y) :
    OwnersKept y := by
  obtain ⟨-, hcommits⟩ := hk.step hs
  -- an organization that is live after the step was live before it, or has just got an owner
  have hlive : ∀ {o : UUID}, LiveOrg y.config.committed o → LiveOrg x.config.committed o ∨
      ∃ m ∈ rowsOf OrganizationMember y.config.committed, ownerOf o m = true ∧
        ∃ tx ∈ x.config.txs, m.id ∈ tx.ids := by
    rintro o ho
    rcases hcommits with heq | ⟨n, tx, hn, -, -, hcom, howes⟩
    · exact .inl (heq ▸ ho)
    · rw [hcom, liveOrg_view] at ho
      obtain ⟨org, horg, rfl, hdel⟩ := ho
      rcases howes.effect.organization_came horg with ⟨org₀, h₀, hid, hd⟩ | ⟨-, m, hm, hp, hfresh⟩
      · exact .inl ⟨org₀, h₀, hid, hd hdel⟩
      · refine .inr ⟨m, ?_, hp, tx, List.mem_of_getElem? hn, hfresh⟩
        rw [hcom]
        exact (mem_rowsOf_view rfl).mpr hm
  refine ⟨?_, fun m t' o target ht htaking ho => ?_⟩
  · rcases hcommits with heq | ⟨n, tx, hn, ⟨k, hcommit⟩, -, hcom, howes⟩
    · exact heq ▸ hx.owned
    · rw [hcom, owned_view]
      refine owned_apply howes.effect (hk.unused tx (List.mem_of_getElem? hn)) (hk.follows n) hx.owned
        fun access o u target hc hreq ho => ?_
      exact hx.other n tx o target hn ⟨⟨access, u, hc, hreq⟩, by rw [hcommit]; rfl,
        howes.uncommitted⟩ ho
  · rcases hs.session ht with ⟨hx', hh⟩ | ⟨tx, hx', hturn, hcom, hh⟩ | ⟨hdone, -⟩ | ⟨hlen, -, hh, -⟩
    · rw [hh] at htaking
      rcases hlive ho with ho' | ⟨m', hm', hp', tx, htx, hfresh⟩
      · exact hg m t' o target hx' htaking ht ho (hx.other m t' o target hx' htaking ho')
      -- the target was read before the new owner was drawn
      · refine ⟨m', hm', hp', fun hid => ?_⟩
        obtain ⟨access, u, hc, -⟩ := htaking.request
        obtain ⟨c, hr, htarget, -⟩ := hc.saw
        refine (hk.older m _ c hr (toRow target) (mem_rowsOf.mp htarget) target.id ?_).2 tx htx
          (hid ▸ hfresh)
        exact mem_orgNames.mpr ⟨rfl, rfl⟩
    · rw [hh] at htaking
      have hsame : y.config.committed = x.config.committed := by
        rcases hcom with ⟨heq, -⟩ | ⟨-, k, hp⟩
        · exact heq
        · refine absurd ?_ htaking.uncommitted
          rw [hp]
          exact List.mem_cons_self
      rw [hsame] at ho ⊢
      exact hasOther_of_turn hx hx' hturn htaking ho
    · exact absurd hdone (by simpa using htaking.running)
    · obtain ⟨access, u, hc, -⟩ := htaking.request
      obtain ⟨c, hr, -⟩ := hc.saw
      rw [hh, hk.blank m (by omega)] at hr
      cases hr

/-- The run of a new deployment starts with the invariant. -/
theorem backendKept_open {s₀ : State} (h₀ : s₀.committed = .empty) :
    BackendKept env (s₀.open : BackendConfig).unrecorded :=
  Kept.open trivial (by rw [h₀]; exact fun _ hr => nomatch hr)

/-- **Every organization that is not deleted has an owner**, in every run of a new deployment in which
no session takes the last other owner away from one that has passed the guard. -/
theorem owned_of_sparesOwners {s₀ : State} (h₀ : s₀.committed = .empty)
    (hr : RecordedReach respond (BackendRequest.serve env) SparesOwners
      (s₀.open : BackendConfig).unrecorded x) : Owned x.config.committed := by
  have hstart : OwnersKept (s₀.open : BackendConfig).unrecorded := by
    refine ⟨?_, fun _ _ _ _ hn => nomatch hn⟩
    rintro o ⟨org, horg, -⟩
    change org ∈ rowsOf Organization s₀.committed at horg
    rw [h₀] at horg
    cases horg
  suffices BackendKept env x ∧ OwnersKept x from this.2.owned
  induction hr with
  | refl => exact ⟨backendKept_open h₀, hstart⟩
  | tail _ hs ih => exact ⟨(ih.1.step hs.1).1, ih.2.step ih.1 hs.1 hs.2⟩

/-! ## Two runs -/

/-- An access token of the user `u`, valid for the first hour. -/
def trialAccessOf (u : UUID) : RawToken := .jwt ⟨some u, 0, .access, 3600, none⟩

/-- Two accounts register, and the first one creates an organization with both as owners: the requests,
each with the number of its turns. The users are 1 and 3, the organization is 4. -/
def twoOwners : List (BackendRequest × ℕ) :=
  [(.account (.register "a" "a" "abababababab"), 6),
    (.account (.register "b" "b" "abababababab"), 6),
    (.organization (.create (trialAccessOf 1) "o" none), 20),
    (.organization (.addMember (trialAccessOf 1) 4 "b" .owner), 14)]

/-- Each owner removes the other: both guards count two owners before either removal is committed. -/
theorem two_removals_leave_no_owner : ¬ ∀ (env : Env) (s₀ : State) (c : BackendConfig),
    s₀.committed = .empty → Reach respond (BackendRequest.serve env) s₀.open c →
      Owned c.committed := by
  intro hall
  obtain ⟨c, hr, hc⟩ := exists_reach_of_run respond (BackendRequest.serve .trial)
    (c := State.trial.open)
    (Move.serial 0 twoOwners ++
      .start (.organization (.removeMember (trialAccessOf 1) 4 3)) :: List.replicate 6 (.turn 4) ++
      Move.alone (.organization (.removeMember (trialAccessOf 3) 4 1)) 5 13 ++
      List.replicate 7 (.turn 4))
    (fun c => (rowsOf Organization c.committed).any fun org => org.deletedAt.isNone &&
      (rowsOf OrganizationMember c.committed).all fun m => !ownerOf org.id m)
    (by decide)
  obtain ⟨org, horg, hp⟩ := List.any_eq_true.mp hc
  rw [Bool.and_eq_true, Option.isNone_iff_eq_none, List.all_eq_true] at hp
  obtain ⟨m, hm, howner⟩ := hall .trial State.trial c rfl hr org.id ⟨org, horg, rfl, hp.1⟩
  simpa [howner] using hp.2 m hm

/-- A session that is open alone spares the owners. -/
theorem sparesOwners_of_quiet {n : ℕ} (hq : x.config.quietFor n = true)
    (hs : RecordedStep respond (BackendRequest.serve env) x y) : SparesOwners x y := by
  intro k tx o target hk htaking hk' _ hother
  have hkn : k = n := by
    by_contra hne
    exact absurd (Config.done_of_quietFor hq hne hk) (by simpa using htaking.running)
  subst hkn
  rcases hs.step.elim with ⟨i, -, hcom, -⟩ | ⟨m, tm, tm', hm, hturn, htxs, hcom, -⟩ |
    ⟨m, tm, e, -, -, -, hcom, -⟩
  · exact hcom ▸ hother
  · rcases hcom with ⟨hcom, -⟩ | ⟨-, j, hcommit⟩
    · exact hcom ▸ hother
    -- a session that commits is the open one, and moves on
    · have hmk : m = k := by
        by_contra hne
        have hd := Config.done_of_quietFor hq hne hm
        rw [hcommit] at hd
        cases hd
      subst hmk
      rw [htxs, List.getElem?_set_self (List.getElem?_eq_some_iff.mp hm).1] at hk'
      obtain rfl := Option.some.inj (hm.symm.trans hk)
      exact absurd (Option.some.inj hk') (hturn.prog_ne_of_commit hcommit)
  · exact hcom ▸ hother

/-- The second owner is demoted, and the organization keeps the first. -/
theorem owned_of_sparesOwners_trial : ∃ x : BackendRun,
    RecordedReach respond (BackendRequest.serve .trial) SparesOwners
      (State.trial.open : BackendConfig).unrecorded x ∧
    LiveOrg x.config.committed 4 ∧ Owned x.config.committed := by
  obtain ⟨c, hc, hlive⟩ := (Option.any_eq_true (fun c : BackendConfig =>
      (rowsOf Organization c.committed).any fun org => org.id = 4 && org.deletedAt.isNone) _).mp
    (by decide : ((State.trial.open : BackendConfig).serveAlone respond
      (BackendRequest.serve .trial) (twoOwners ++
        [(.organization (.updateMember (trialAccessOf 1) 4 3 .member), 15)])).any _ = true)
  obtain ⟨g, hr⟩ := RecordedReach.of_serveAlone (G := SparesOwners)
    (fun _ _ _ hq hs => sparesOwners_of_quiet hq hs) _
    (x := (State.trial.open : BackendConfig).unrecorded) hc
  refine ⟨⟨c, g⟩, hr, ?_, owned_of_sparesOwners rfl hr⟩
  obtain ⟨org, horg, hp⟩ := List.any_eq_true.mp hlive
  rw [Bool.and_eq_true, decide_eq_true_eq, Option.isNone_iff_eq_none] at hp
  exact ⟨org, horg, hp.1, hp.2⟩

end DevOps
