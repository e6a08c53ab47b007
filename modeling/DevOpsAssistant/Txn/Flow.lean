import DevOpsAssistant.Txn.Solo

/-!
# Programs whose statements can raise

A statement goes on with its result or with the exception it raises, so that handlers see the exceptions
of every statement. A flush that fails rolls its transaction back, and the session refuses every further
statement until it is rolled back.

* `Flow`: programs with two continuations; `Flow.bind`, `Flow.tryCatch`, `Flow.unitOfWork`.
* `Flow.ofProg`: a program that handles no exception of its statements.
* `Flow.exec`: a run, in which the flushes fail that `fails` says; `exec_bind`, `exec_tryCatch`.
* `Flow.Keeps`: a program that does not roll back; **`failed_exec`**: a session that has failed stays so.
* **`not_ok_unitOfWork`**: a unit of work in which a flush has failed raises and commits nothing more.
* `Flow.Follows`: a program with the same statements; **`Follows.exec`**: the same run, if no flush fails.
-/

namespace Txn

/-- A program whose statements go on with their result, or with the exception they raise. -/
inductive Flow (R : Type) {K : Type} [Keyed R K] {Q : Type} (A : Q → Type) (E α : Type) where
  | ret (a : α)
  | raise (e : E)
  | select (p : R → Bool) (k : List R → Flow R A E α) (h : E → Flow R A E α)
  | modify (p : R → Bool) (f : (r : R) → Effect r) (k : List R → Flow R A E α) (h : E → Flow R A E α)
  | insert (clash : R → Bool) (r : R) (k : Flow R A E α) (h : E → Flow R A E α)
  | fresh (k : ℕ → Flow R A E α)
  | ask (q : Q) (k : A q → Flow R A E α)
  | commit (k : Flow R A E α) (h : E → Flow R A E α)
  | rollback (k : Flow R A E α)

variable {R K Q W : Type} {A : Q → Type} {E α β : Type} [DecidableEq K] [Keyed R K]

/-- A session, with the number of its flushes so far and whether one of them has failed. -/
structure FlushSession (R : Type) {K : Type} [Keyed R K] (W : Type) extends Session R W where
  flushes : ℕ
  failed : Bool

/-- The exceptions the session raises itself: of a statement after a flush that has failed, and of a
violated constraint. -/
structure Refusals (E : Type) where
  refused : E
  violated : E

namespace FlushSession

variable (x : Refusals E) (fails : ℕ → Option E)

/-- A session that has not flushed yet. -/
def start (s : Session R W) : FlushSession R W := ⟨s, 0, false⟩

/-- The session after a flush that fails: the transaction is rolled back. -/
def fail (s : FlushSession R W) : FlushSession R W := ⟨s.toSession.rollback, s.flushes + 1, true⟩

omit [DecidableEq K] in
/-- A statement that writes nothing. -/
def read (s : FlushSession R W) : Except E Unit × FlushSession R W :=
  if s.failed then (.error x.refused, s) else (.ok (), s)

omit [DecidableEq K] in
/-- A flush of the writes `ws`. It raises the exception that `fails` has for it, or that of a constraint
they violate. -/
def flush (violates : Bool) (ws : List (Write R K)) (s : FlushSession R W) :
    Except E Unit × FlushSession R W :=
  if s.failed then (.error x.refused, s)
  else match fails s.flushes with
    | some e => (.error e, s.fail)
    | none =>
      if violates then (.error x.violated, s.fail)
      else (.ok (), { s with toSession := s.append ws, flushes := s.flushes + 1 })

omit [DecidableEq K] in
/-- A statement on rows it has locked: a flush, if it writes any. -/
def modify (ws : List (Write R K)) (s : FlushSession R W) : Except E Unit × FlushSession R W :=
  if ws.isEmpty then s.read x else s.flush x fails false ws

omit [DecidableEq K] in
theorem committed_read (s : FlushSession R W) : (s.read x).2.committed = s.committed := by
  unfold read
  split <;> rfl

omit [DecidableEq K] in
theorem committed_flush (violates : Bool) (ws : List (Write R K)) (s : FlushSession R W) :
    (s.flush x fails violates ws).2.committed = s.committed := by
  unfold flush
  repeat' split
  all_goals rfl

variable {x fails} in
omit [DecidableEq K] in
/-- A flush that raises has failed, now or before. -/
theorem failed_of_flush {violates : Bool} {ws : List (Write R K)} {s s' : FlushSession R W} {e : E}
    (h : s.flush x fails violates ws = (.error e, s')) : s'.failed = true := by
  unfold flush at h
  repeat' split at h
  all_goals cases h
  · assumption
  · rfl
  · rfl

variable {x fails} in
omit [DecidableEq K] in
/-- A flush that returns has written. -/
theorem eq_of_flush {violates : Bool} {ws : List (Write R K)} {s s' : FlushSession R W} {u : Unit}
    (h : s.flush x fails violates ws = (.ok u, s')) :
    violates = false ∧ s'.toSession = s.append ws ∧ s'.failed = false := by
  unfold flush at h
  repeat' split at h
  all_goals cases h
  simp_all

omit [DecidableEq K] in
theorem committed_modify (ws : List (Write R K)) (s : FlushSession R W) :
    (s.modify x fails ws).2.committed = s.committed := by
  unfold modify
  split
  · exact s.committed_read x
  · exact s.committed_flush x fails false ws

/-- `COMMIT`. -/
def commit (s : FlushSession R W) : Except E Unit × FlushSession R W :=
  if s.failed then (.error x.refused, s) else (.ok (), { s with toSession := s.toSession.commit })

/-- `ROLLBACK`. -/
def rollback (s : FlushSession R W) : FlushSession R W :=
  { s with toSession := s.toSession.rollback, failed := false }

end FlushSession

namespace Flow

def bind : Flow R A E α → (α → Flow R A E β) → Flow R A E β
  | ret a, g => g a
  | raise e, _ => raise e
  | select p k h, g => select p (fun rs => (k rs).bind g) fun e => (h e).bind g
  | modify p f k h, g => modify p f (fun rs => (k rs).bind g) fun e => (h e).bind g
  | insert c r k h, g => insert c r (k.bind g) fun e => (h e).bind g
  | fresh k, g => fresh fun n => (k n).bind g
  | ask q k, g => ask q fun a => (k a).bind g
  | commit k h, g => commit (k.bind g) fun e => (h e).bind g
  | rollback k, g => rollback (k.bind g)

/-- An exception handler. -/
def tryCatch : Flow R A E α → (E → Flow R A E α) → Flow R A E α
  | ret a, _ => ret a
  | raise e, c => c e
  | select p k h, c => select p (fun rs => (k rs).tryCatch c) fun e => (h e).tryCatch c
  | modify p f k h, c => modify p f (fun rs => (k rs).tryCatch c) fun e => (h e).tryCatch c
  | insert x r k h, c => insert x r (k.tryCatch c) fun e => (h e).tryCatch c
  | fresh k, c => fresh fun n => (k n).tryCatch c
  | ask q k, c => ask q fun a => (k a).tryCatch c
  | commit k h, c => commit (k.tryCatch c) fun e => (h e).tryCatch c
  | rollback k, c => rollback (k.tryCatch c)

/-- A session that commits when its body returns, and rolls back when its body or the commit raises. -/
def unitOfWork (p : Flow R A E α) : Flow R A E α :=
  tryCatch (p.bind fun a => commit (ret a) raise) fun e => rollback (raise e)

instance : Monad (Flow R A E) where
  pure := ret
  bind := bind

/-- A program whose statements raise what they raise; a violated constraint is handled as the program
says. -/
def ofProg : Prog R A E α → Flow R A E α
  | .ret a => ret a
  | .raise e => raise e
  | .select p k => select p (fun rs => ofProg (k rs)) raise
  | .modify p f k => modify p f (fun rs => ofProg (k rs)) raise
  | .insert c r k => insert c r (ofProg (k true)) fun _ => ofProg (k false)
  | .fresh k => fresh fun n => ofProg (k n)
  | .ask q k => ask q fun a => ofProg (k a)
  | .commit k => commit (ofProg k) raise
  | .rollback k => rollback (ofProg k)

/-- Whatever the program raises is swallowed. -/
def bestEffort (p : Flow R A E Unit) : Flow R A E Unit := p.tryCatch fun _ => ret ()

/-! ## Runs -/

variable (respond : (q : Q) → W → A q × W) (x : Refusals E) (fails : ℕ → Option E)

/-- A run of a program, in which the `n`th flush raises `fails n` if that is an exception. -/
def exec : Flow R A E α → FlushSession R W → Except E α × FlushSession R W
  | ret a, s => (.ok a, s)
  | raise e, s => (.error e, s)
  | select p k h, s =>
    match s.read x with
    | (.ok _, s') => (k (s.view.rows.filter p)).exec s'
    | (.error e, s') => (h e).exec s'
  | modify p f k h, s =>
    match s.modify x fails (writesOf f (s.view.rows.filter p)) with
    | (.ok _, s') => (k (s.view.rows.filter p)).exec s'
    | (.error e, s') => (h e).exec s'
  | insert c r k h, s =>
    match s.flush x fails (s.view.clashes c r) [.store r] with
    | (.ok _, s') => k.exec s'
    | (.error e, s') => (h e).exec s'
  | fresh k, s => (k s.nextId).exec { s with nextId := s.nextId + 1 }
  | ask q k, s => (k (respond q s.world).1).exec { s with world := (respond q s.world).2 }
  | commit k h, s =>
    match s.commit x with
    | (.ok _, s') => k.exec s'
    | (.error e, s') => (h e).exec s'
  | rollback k, s => k.exec s.rollback

theorem exec_bind (p : Flow R A E α) (g : α → Flow R A E β) (s : FlushSession R W) :
    (p.bind g).exec respond x fails s =
      match p.exec respond x fails s with
      | (.ok a, s') => (g a).exec respond x fails s'
      | (.error e, s') => (.error e, s') := by
  induction p generalizing s with
  | ret a | raise e => rfl
  | select p k h ihk ihh | modify p f k h ihk ihh | insert c r k h ihk ihh | commit k h ihk ihh =>
    simp only [bind, exec, ihk, ihh]
    split <;> rfl
  | fresh k ih | ask q k ih | rollback k ih => simp only [bind, exec, ih]

theorem exec_tryCatch (p : Flow R A E α) (c : E → Flow R A E α) (s : FlushSession R W) :
    (p.tryCatch c).exec respond x fails s =
      match p.exec respond x fails s with
      | (.ok a, s') => (.ok a, s')
      | (.error e, s') => (c e).exec respond x fails s' := by
  induction p generalizing s with
  | ret a | raise e => rfl
  | select p k h ihk ihh | modify p f k h ihk ihh | insert _ r k h ihk ihh | commit k h ihk ihh =>
    simp only [tryCatch, exec, ihk, ihh]
    split <;> rfl
  | fresh k ih | ask q k ih | rollback k ih => simp only [tryCatch, exec, ih]

/-! ## A flush that has failed -/

/-- The program does not roll back, and commits only if it may. -/
def Keeps (commits : Prop) : Flow R A E α → Prop
  | ret _ | raise _ => True
  | select p k h | modify p _ k h =>
    (∀ rs, (∀ r ∈ rs, p r) → (k rs).Keeps commits) ∧ ∀ e, (h e).Keeps commits
  | insert _ _ k h => k.Keeps commits ∧ ∀ e, (h e).Keeps commits
  | commit k h => commits ∧ k.Keeps commits ∧ ∀ e, (h e).Keeps commits
  | fresh k | ask _ k => ∀ a, (k a).Keeps commits
  | rollback _ => False

variable {respond x fails} {commits : Prop} {s : FlushSession R W}

omit [DecidableEq K] in
theorem Keeps.bind {p : Flow R A E α} {g : α → Flow R A E β} (hp : p.Keeps commits)
    (hg : ∀ a, (g a).Keeps commits) : (p.bind g).Keeps commits := by
  induction p with
  | ret a => exact hg a
  | raise e => trivial
  | select p k h ihk ihh | modify p f k h ihk ihh =>
    exact ⟨fun rs hrs => ihk rs (hp.1 rs hrs), fun e => ihh e (hp.2 e)⟩
  | insert c r k h ihk ihh => exact ⟨ihk hp.1, fun e => ihh e (hp.2 e)⟩
  | commit k h ihk ihh => exact ⟨hp.1, ihk hp.2.1, fun e => ihh e (hp.2.2 e)⟩
  | fresh k ih | ask q k ih => exact fun a => ih a (hp a)
  | rollback k ih => exact hp.elim

omit [DecidableEq K] in
theorem Keeps.tryCatch {p : Flow R A E α} {c : E → Flow R A E α} (hp : p.Keeps commits)
    (hc : ∀ e, (c e).Keeps commits) : (p.tryCatch c).Keeps commits := by
  induction p with
  | ret a => trivial
  | raise e => exact hc e
  | select p k h ihk ihh | modify p f k h ihk ihh =>
    exact ⟨fun rs hrs => ihk rs (hp.1 rs hrs), fun e => ihh e (hp.2 e)⟩
  | insert _ r k h ihk ihh => exact ⟨ihk hp.1, fun e => ihh e (hp.2 e)⟩
  | commit k h ihk ihh => exact ⟨hp.1, ihk hp.2.1, fun e => ihh e (hp.2.2 e)⟩
  | fresh k ih | ask q k ih => exact fun a => ih a (hp a)
  | rollback k ih => exact hp.elim

omit [DecidableEq K] in
theorem Keeps.bestEffort {p : Flow R A E Unit} (hp : p.Keeps commits) : (bestEffort p).Keeps commits :=
  hp.tryCatch fun _ => trivial

omit [DecidableEq K] in
/-- A program without handlers commits and rolls back where its statements do. -/
theorem keeps_ofProg {φ : Stmt R Q → Prop} {P : α → Prop} {p : Prog R A E α} (hp : p.Only φ P)
    (hcommit : φ .commit → commits) (hrollback : ¬ φ .rollback) : (ofProg p).Keeps commits := by
  induction p with
  | ret a | raise e => trivial
  | select p k ih | modify p f k ih => exact ⟨fun rs hrs => ih rs (hp.2 rs hrs), fun _ => trivial⟩
  | insert c r k ih => exact ⟨ih true (hp.2 true), fun _ => ih false (hp.2 false)⟩
  | fresh k ih => exact fun n => ih n (hp n)
  | ask q k ih => exact fun a => ih a (hp.2 a)
  | commit k ih => exact ⟨hcommit hp.1, ih hp.2, fun _ => trivial⟩
  | rollback k ih => exact hrollback hp.1

/-- **A session that has failed stays so**, and nothing is committed. -/
theorem failed_exec {p : Flow R A E α} (hp : p.Keeps commits) (hs : s.failed = true) :
    (p.exec respond x fails s).2.failed = true ∧
      (p.exec respond x fails s).2.committed = s.committed := by
  induction p generalizing s with
  | ret a | raise e => exact ⟨hs, rfl⟩
  | select p k h ihk ihh =>
    simp only [exec, FlushSession.read, hs, if_true]
    exact ihh _ (hp.2 _) hs
  | modify p f k h ihk ihh =>
    simp only [exec, FlushSession.modify, FlushSession.read, FlushSession.flush, hs, if_true, ite_self]
    exact ihh _ (hp.2 _) hs
  | insert c r k h ihk ihh =>
    simp only [exec, FlushSession.flush, hs, if_true]
    exact ihh _ (hp.2 _) hs
  | commit k h ihk ihh =>
    simp only [exec, FlushSession.commit, hs, if_true]
    exact ihh _ (hp.2.2 _) hs
  | fresh k ih | ask q k ih => exact ih _ (hp _) hs
  | rollback k ih => exact hp.elim

/-- A program that does not commit leaves the committed rows as they are. -/
theorem committed_exec {p : Flow R A E α} (hp : p.Keeps False) :
    (p.exec respond x fails s).2.committed = s.committed := by
  induction p generalizing s with
  | ret a | raise e => rfl
  | select p k h ihk ihh =>
    have hs := s.committed_read x
    simp only [exec]
    split
    all_goals rename_i heq; rw [heq] at hs
    · exact (ihk _ (hp.1 _ fun r hr => (List.mem_filter.mp hr).2)).trans hs
    · exact (ihh _ (hp.2 _)).trans hs
  | modify p f k h ihk ihh =>
    have hs := s.committed_modify x fails (writesOf f (s.view.rows.filter p))
    simp only [exec]
    split
    all_goals rename_i heq; rw [heq] at hs
    · exact (ihk _ (hp.1 _ fun r hr => (List.mem_filter.mp hr).2)).trans hs
    · exact (ihh _ (hp.2 _)).trans hs
  | insert c r k h ihk ihh =>
    have hs := s.committed_flush x fails (s.view.clashes c r) [.store r]
    simp only [exec]
    split
    all_goals rename_i heq; rw [heq] at hs
    · exact (ihk hp.1).trans hs
    · exact (ihh _ (hp.2 _)).trans hs
  | commit k h ihk ihh => exact hp.1.elim
  | fresh k ih | ask q k ih => exact ih _ (hp _)
  | rollback k ih => exact hp.elim

/-! ## Units of work -/

variable (respond x fails)

theorem exec_unitOfWork (p : Flow R A E α) (s : FlushSession R W) :
    (unitOfWork p).exec respond x fails s =
      match p.exec respond x fails s with
      | (.ok a, s') =>
        match s'.commit x with
        | (.ok _, s'') => (.ok a, s'')
        | (.error e, s'') => (.error e, s''.rollback)
      | (.error e, s') => (.error e, s'.rollback) := by
  rw [unitOfWork, exec_tryCatch, exec_bind]
  rcases p.exec respond x fails s with ⟨_ | a, s'⟩
  · rfl
  · simp only [exec]
    rcases s'.commit x with ⟨_ | _, s''⟩ <;> rfl

variable {respond x fails}

/-- **A unit of work in which a flush has failed** raises, and commits nothing more. -/
theorem not_ok_unitOfWork {p : Flow R A E α} (hp : (p.exec respond x fails s).2.failed = true) :
    (∃ e, ((unitOfWork p).exec respond x fails s).1 = .error e) ∧
      ((unitOfWork p).exec respond x fails s).2.committed =
        (p.exec respond x fails s).2.committed := by
  rw [exec_unitOfWork]
  cases hexec : p.exec respond x fails s with
  | mk r s' =>
    rw [hexec] at hp
    have hcommit : s'.commit x = (.error x.refused, s') := if_pos hp
    cases r with
    | ok a =>
      simp only [hcommit]
      exact ⟨⟨_, rfl⟩, rfl⟩
    | error e => exact ⟨⟨e, rfl⟩, rfl⟩

/-- **A best-effort write whose flush fails** is fatal: the unit of work it is part of raises, and
commits nothing more than what it had committed before the write. -/
theorem not_ok_of_bestEffort {own : Flow R A E α} {write : α → Flow R A E Unit}
    {rest : α → Flow R A E β} {a : α} {s₁ : FlushSession R W}
    (hown : own.exec respond x fails s = (.ok a, s₁)) (hwrite : (write a).Keeps False)
    (hfail : ((write a).exec respond x fails s₁).2.failed = true) (hrest : (rest a).Keeps commits) :
    let p := own.bind fun a => (bestEffort (write a)).bind fun _ => rest a
    (∃ e, ((unitOfWork p).exec respond x fails s).1 = .error e) ∧
      ((unitOfWork p).exec respond x fails s).2.committed = s₁.committed := by
  intro p
  have hp : p.exec respond x fails s =
      (rest a).exec respond x fails ((write a).exec respond x fails s₁).2 := by
    simp only [p, exec_bind, hown, bestEffort, exec_tryCatch]
    rcases (write a).exec respond x fails s₁ with ⟨_ | _, s₂⟩ <;> rfl
  obtain ⟨hfailed, hcommitted⟩ : ((rest a).exec respond x fails _).2.failed = true ∧ _ :=
    failed_exec hrest hfail
  have h := not_ok_unitOfWork (p := p) (s := s) (by rw [hp]; exact hfailed)
  refine ⟨h.1, h.2.trans ?_⟩
  rw [hp, hcommitted, committed_exec hwrite]

/-! ## Without a failure -/

/-- The program sends the statements of `p`, as long as they succeed. -/
inductive Follows : Flow R A E α → Prog R A E α → Prop where
  | ret (a : α) : Follows (ret a) (.ret a)
  | raise (e : E) : Follows (raise e) (.raise e)
  | select {p k h k'} (hk : ∀ rs, Follows (k rs) (k' rs)) : Follows (select p k h) (.select p k')
  | modify {p f k h k'} (hk : ∀ rs, Follows (k rs) (k' rs)) :
    Follows (modify p f k h) (.modify p f k')
  | insert {c r k h k'} (hk : Follows k (k' true)) : Follows (insert c r k h) (.insert c r k')
  | fresh {k k'} (hk : ∀ n, Follows (k n) (k' n)) : Follows (fresh k) (.fresh k')
  | ask {q k k'} (hk : ∀ a, Follows (k a) (k' a)) : Follows (ask q k) (.ask q k')
  | commit {k h k'} (hk : Follows k k') : Follows (commit k h) (.commit k')
  | rollback {k k'} (hk : Follows k k') : Follows (rollback k) (.rollback k')

omit [DecidableEq K] in
theorem follows_ofProg (p : Prog R A E α) : Follows (ofProg p) p := by
  induction p with
  | ret a => exact .ret a
  | raise e => exact .raise e
  | select p k ih => exact .select ih
  | modify p f k ih => exact .modify ih
  | insert c r k ih => exact .insert (ih true)
  | fresh k ih => exact .fresh ih
  | ask q k ih => exact .ask ih
  | commit k ih => exact .commit ih
  | rollback k ih => exact .rollback ih

omit [DecidableEq K] in
theorem Follows.bind {p : Flow R A E α} {p' : Prog R A E α} {g : α → Flow R A E β}
    {g' : α → Prog R A E β} (hp : Follows p p') (hg : ∀ a, Follows (g a) (g' a)) :
    Follows (p.bind g) (p'.bind g') := by
  induction hp with
  | ret a => exact hg a
  | raise e => exact .raise e
  | select _ ih => exact .select ih
  | modify _ ih => exact .modify ih
  | insert _ ih => exact .insert ih
  | fresh _ ih => exact .fresh ih
  | ask _ ih => exact .ask ih
  | commit _ ih => exact .commit ih
  | rollback _ ih => exact .rollback ih

omit [DecidableEq K] in
theorem Follows.tryCatch {p : Flow R A E α} {p' : Prog R A E α} {c : E → Flow R A E α}
    {c' : E → Prog R A E α} (hp : Follows p p') (hc : ∀ e, Follows (c e) (c' e)) :
    Follows (p.tryCatch c) (p'.tryCatch c') := by
  induction hp with
  | ret a => exact .ret a
  | raise e => exact hc e
  | select _ ih => exact .select ih
  | modify _ ih => exact .modify ih
  | insert _ ih => exact .insert ih
  | fresh _ ih => exact .fresh ih
  | ask _ ih => exact .ask ih
  | commit _ ih => exact .commit ih
  | rollback _ ih => exact .rollback ih

/-- **A run in which no flush fails** is that of the program it follows. -/
theorem Follows.exec {p : Flow R A E α} {p' : Prog R A E α} (h : Follows p p')
    (hp : p.Keeps commits) (hs : s.failed = false)
    (hnone : (p.exec respond x fails s).2.failed = false) :
    p'.exec respond s.toSession =
      ((p.exec respond x fails s).1, (p.exec respond x fails s).2.toSession) := by
  induction h generalizing s with
  | ret a | raise e => rfl
  | @select p k h k' hk ih =>
    simp only [Flow.exec, FlushSession.read, hs, Bool.false_eq_true, if_false] at hnone ⊢
    exact ih _ (hp.1 _ fun r hr => (List.mem_filter.mp hr).2) hs hnone
  | @modify p f k h k' hk ih =>
    have hkeeps := hp.1 (s.view.rows.filter p) fun r hr => (List.mem_filter.mp hr).2
    rw [Prog.exec]
    by_cases hws : (writesOf f (s.view.rows.filter p) : List (Write R K)).isEmpty = true
    · have happend : s.append (writesOf f (s.view.rows.filter p)) = s.toSession := by
        rw [List.isEmpty_iff.mp hws]
        simp [Session.append]
      rw [happend]
      simp only [Flow.exec, FlushSession.modify, FlushSession.read, hws, hs, if_true,
        Bool.false_eq_true, if_false] at hnone ⊢
      exact ih _ hkeeps hs hnone
    · simp only [Flow.exec, FlushSession.modify, hws, Bool.false_eq_true, if_false] at hnone ⊢
      cases hflush : s.flush x fails false (writesOf f (s.view.rows.filter p)) with
      | mk r s' =>
        simp only [hflush] at hnone ⊢
        cases r with
        | error e =>
          have := (failed_exec (hp.2 e) (FlushSession.failed_of_flush hflush)).1.symm.trans hnone
          cases this
        | ok u =>
          obtain ⟨-, hsession, hfailed⟩ := FlushSession.eq_of_flush hflush
          rw [← hsession]
          exact ih _ hkeeps hfailed hnone
  | @insert c r k h k' hk ih =>
    rw [Prog.exec]
    simp only [Flow.exec] at hnone ⊢
    cases hflush : s.flush x fails (s.view.clashes c r) [.store r] with
    | mk result s' =>
      simp only [hflush] at hnone ⊢
      cases result with
      | error e =>
        have := (failed_exec (hp.2 e) (FlushSession.failed_of_flush hflush)).1.symm.trans hnone
        cases this
      | ok u =>
        obtain ⟨hclash, hsession, hfailed⟩ := FlushSession.eq_of_flush hflush
        rw [if_neg (by simp [hclash]), ← hsession]
        exact ih hp.1 hfailed hnone
  | fresh hk ih => exact ih _ (s := { s with nextId := s.nextId + 1 }) (hp _) hs hnone
  | ask hk ih =>
    exact ih _ (s := { s with world := (respond _ s.world).2 }) (hp _) hs hnone
  | @commit k h k' hk ih =>
    simp only [Flow.exec, FlushSession.commit, hs, Bool.false_eq_true, if_false] at hnone ⊢
    exact ih (s := ⟨s.toSession.commit, s.flushes, false⟩) hp.2.1 rfl hnone
  | rollback hk ih => exact hp.elim

end Flow

end Txn
