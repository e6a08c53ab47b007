import DevOpsAssistant.Txn.Solo

/-!
# Interleaved sessions

Sessions take turns, one statement at a time, at the isolation level READ COMMITTED: a statement
sees the rows committed when it starts and the session's own writes. A locking statement visits
the rows it saw one after another; at each it waits for the lock, reads the latest version and
checks its condition again.

* `Local`: what an open transaction holds; `Tx`: a session with the rest of its program.
* `Config.turn`: the next statement of one session; `none` while it has to wait.
* `Config.step`: a request arrives, a session takes its turn, or a session is lost.
* `Step`, `Reach`: interleaved runs; `Config.run`: a run along a list of moves.
* `Turns`, **`Step.elim`**: what one step can do.
-/

namespace Txn

variable {R K Q W I : Type} {A : Q → Type} {E α : Type} [DecidableEq K] [Keyed R K]

/-- What an open transaction holds: its redo log, its row locks and the identifiers it has drawn;
`drawn` are the identifiers the session has drawn since it was opened. -/
structure Local (R K : Type) where
  log : List (Write R K)
  locks : List K
  ids : List ℕ
  drawn : List ℕ

namespace Local

/-- A session that has done nothing yet. -/
def start : Local R K := ⟨[], [], [], []⟩

/-- The session after its transaction has ended. -/
def clear (l : Local R K) : Local R K := ⟨[], [], [], l.drawn⟩

/-- The rows the transaction sees over the committed rows `c`. -/
def view (l : Local R K) (c : Table R) : Table R := c.apply l.log

/-- The transaction after it has locked `r` and logged what it does to it. -/
def lock (l : Local R K) (r : R) (e : Effect r) : Local R K :=
  { l with log := l.log ++ e.log, locks := key r :: l.locks }

/-- The transaction after it has inserted `r`. -/
def insert (l : Local R K) (r : R) : Local R K :=
  { l with log := l.log ++ [.store r], locks := key r :: l.locks }

/-- The transaction after it has drawn `n`. -/
def draw (l : Local R K) (n : ℕ) : Local R K := { l with ids := n :: l.ids, drawn := n :: l.drawn }

end Local

/-- A session: the request it serves, the rest of its program, the locking statement it is in the
middle of (keys still to visit, rows locked so far), and its open transaction. -/
structure Tx (R : Type) {Q : Type} (A : Q → Type) (E α I : Type) {K : Type} [Keyed R K]
    extends Local R K where
  req : I
  prog : Prog R A E α
  scan : Option (List K × List R)

/-- The store and all sessions, in the order they arrived. -/
structure Config (R : Type) {Q : Type} (A : Q → Type) (E α I W : Type) {K : Type} [Keyed R K]
    extends Store R W where
  txs : List (Tx R A E α I)

/-- What can happen next. -/
inductive Move (E I : Type) where
  | start (i : I)
  | turn (n : ℕ)
  | lost (n : ℕ) (e : E)

/-- The moves of a request that is served without interruption, as the `n`th session in `k` turns. -/
def Move.alone (i : I) (n k : ℕ) : List (Move E I) := .start i :: List.replicate k (.turn n)

/-- The moves of requests that are served one after another, from the `n`th session on, each in the
given number of turns. -/
def Move.serial (n : ℕ) : List (I × ℕ) → List (Move E I)
  | [] => []
  | (i, k) :: is => Move.alone i n k ++ Move.serial (n + 1) is

/-- The program has returned a value. -/
def Prog.returned : Prog R A E α → Bool
  | .ret _ => true
  | _ => false

omit [DecidableEq K] in
theorem Prog.exists_ret {p : Prog R A E α} (h : p.returned = true) : ∃ a, p = .ret a := by
  cases p with
  | ret a => exact ⟨a, rfl⟩
  | _ => cases h

/-- The program has ended. -/
def Prog.done : Prog R A E α → Bool
  | .ret _ | .raise _ => true
  | _ => false

namespace Config

/-- The sessions other than the `n`th. -/
def others (c : Config R A E α I W) (n : ℕ) : List (Tx R A E α I) := c.txs.eraseIdx n

/-- Another session holds the lock on `k`. -/
def lockedFor (c : Config R A E α I W) (n : ℕ) (k : K) : Bool :=
  (c.others n).any fun tx => decide (k ∈ tx.locks)

/-- Another session has an open write that decides whether `r` violates a unique constraint. -/
def insertWaits (c : Config R A E α I W) (n : ℕ) (view : Table R) (clash : R → Bool) (r : R) :
    Bool :=
  c.lockedFor n (key r) ||
    (c.others n).any fun tx => tx.log.any fun w =>
      w.row?.any clash || view.rows.any fun x => clash x && decide (w.key = key x)

/-- The configuration with the `n`th session replaced. -/
def put (c : Config R A E α I W) (n : ℕ) (tx : Tx R A E α I) : Config R A E α I W :=
  { c with txs := c.txs.set n tx }

variable (respond : (q : Q) → W → A q × W)

/-- The next statement of the session `tx`, the `n`th of `c`. -/
def turnOf (c : Config R A E α I W) (n : ℕ) (tx : Tx R A E α I) :
    Prog R A E α → Option (Config R A E α I W)
  | .ret _ | .raise _ => some (c.put n { tx with toLocal := tx.clear })
  | .select p k => some (c.put n { tx with prog := k ((tx.view c.committed).rows.filter p) })
  | .modify p f k =>
    match tx.scan with
    | none =>
      some (c.put n { tx with scan := some (((tx.view c.committed).rows.filter p).map key, []) })
    | some ([], rs) => some (c.put n { tx with prog := k rs, scan := none })
    | some (x :: ks, rs) =>
      if c.lockedFor n x then none
      else match (tx.view c.committed).lookup x with
        | some r =>
          if p r then
            some (c.put n { tx with toLocal := tx.lock r (f r), scan := some (ks, rs ++ [r]) })
          else some (c.put n { tx with scan := some (ks, rs) })
        | none => some (c.put n { tx with scan := some (ks, rs) })
  | .insert clash r k =>
    if c.insertWaits n (tx.view c.committed) clash r then none
    else if (tx.view c.committed).clashes clash r then some (c.put n { tx with prog := k false })
    else some (c.put n { tx with toLocal := tx.insert r, prog := k true })
  | .fresh k =>
    some { c.put n { tx with toLocal := tx.draw c.nextId, prog := k c.nextId } with
      nextId := c.nextId + 1 }
  | .ask q k =>
    some { c.put n { tx with prog := k (respond q c.world).1 } with
      world := (respond q c.world).2 }
  | .commit k =>
    some { c.put n { tx with toLocal := tx.clear, prog := k } with
      committed := tx.view c.committed }
  | .rollback k => some (c.put n { tx with toLocal := tx.clear, prog := k })

/-- The turn of the `n`th session: `none` when there is none, or when it has to wait. -/
def turn (c : Config R A E α I W) (n : ℕ) : Option (Config R A E α I W) :=
  match c.txs[n]? with
  | some tx => c.turnOf respond n tx tx.prog
  | none => none

variable (handle : I → Prog R A E α)

/-- The configuration after the request `i` has arrived. -/
def arrive (c : Config R A E α I W) (i : I) : Config R A E α I W :=
  { c with txs := c.txs ++ [{ Local.start with req := i, prog := handle i, scan := none }] }

/-- One move. A lost session ends with an exception and loses its open transaction. -/
def step (c : Config R A E α I W) : Move E I → Option (Config R A E α I W)
  | .start i => some (c.arrive handle i)
  | .turn n => c.turn respond n
  | .lost n e =>
    match c.txs[n]? with
    | some tx =>
      if tx.prog.done then none
      else some (c.put n { tx.clear with req := tx.req, prog := .raise e, scan := none })
    | none => none

/-- All sessions but the `n`th have ended. -/
def quietFor (c : Config R A E α I W) (n : ℕ) : Bool := (c.others n).all fun tx => tx.prog.done

/-- The configuration after a list of moves, if each of them can be made. -/
def run (c : Config R A E α I W) : List (Move E I) → Option (Config R A E α I W)
  | [] => some c
  | m :: ms => (c.step respond handle m).bind fun c' => c'.run ms

end Config

variable (respond : (q : Q) → W → A q × W) (handle : I → Prog R A E α)

/-- One step of an interleaved run. -/
def Step (c c' : Config R A E α I W) : Prop := ∃ m, c.step respond handle m = some c'

/-- The configurations an interleaved run leads to. -/
def Reach : Config R A E α I W → Config R A E α I W → Prop :=
  Relation.ReflTransGen (Step respond handle)

/-- The configurations an interleaved run leads to when each of its steps satisfies `G`. -/
def ReachWith (G : Config R A E α I W → Config R A E α I W → Prop) :
    Config R A E α I W → Config R A E α I W → Prop :=
  Relation.ReflTransGen fun c c' => Step respond handle c c' ∧ G c c'

variable {respond handle} in
theorem ReachWith.reach {G : Config R A E α I W → Config R A E α I W → Prop}
    {c c' : Config R A E α I W} (h : ReachWith respond handle G c c') :
    Reach respond handle c c' := by
  induction h with
  | refl => exact .refl
  | tail _ hs ih => exact ih.tail hs.1

theorem Reach.of_run {c' : Config R A E α I W} : ∀ (ms : List (Move E I)) {c : Config R A E α I W},
    c.run respond handle ms = some c' → Reach respond handle c c'
  | [], c, h => by cases h; exact .refl
  | m :: ms, c, h => by
    obtain ⟨d, hd, hrun⟩ := Option.bind_eq_some_iff.mp h
    exact .head ⟨m, hd⟩ (Reach.of_run ms hrun)

/-- A run along a list of moves leads to a configuration that satisfies what can be checked of it. -/
theorem exists_reach_of_run {c : Config R A E α I W} (ms : List (Move E I))
    (p : Config R A E α I W → Bool) (h : (c.run respond handle ms).any p = true) :
    ∃ c', Reach respond handle c c' ∧ p c' = true := by
  obtain ⟨c', hrun, hp⟩ := (Option.any_eq_true _ _).mp h
  exact ⟨c', .of_run respond handle ms hrun, hp⟩

/-! ## What one step can do -/

/-- The `n`th session of `c` goes from `tx` to `tx'` in one turn. -/
inductive Turns (c : Config R A E α I W) (n : ℕ) (tx : Tx R A E α I) : Tx R A E α I → Prop where
  | ended (hd : tx.prog.done) : Turns c n tx { tx with toLocal := tx.clear }
  | select {p k} (hp : tx.prog = .select p k) :
    Turns c n tx { tx with prog := k ((tx.view c.committed).rows.filter p) }
  | snapshot {p f k} (hp : tx.prog = .modify p f k) (hs : tx.scan = none) :
    Turns c n tx { tx with scan := some (((tx.view c.committed).rows.filter p).map key, []) }
  | lock {p f k x ks rs r} (hp : tx.prog = .modify p f k) (hs : tx.scan = some (x :: ks, rs))
    (hfree : c.lockedFor n x = false) (hr : (tx.view c.committed).lookup x = some r)
    (hpr : p r = true) :
    Turns c n tx { tx with toLocal := tx.lock r (f r), scan := some (ks, rs ++ [r]) }
  | skip {p f k x ks rs} (hp : tx.prog = .modify p f k) (hs : tx.scan = some (x :: ks, rs))
    (hfree : c.lockedFor n x = false)
    (hskip : ∀ r, (tx.view c.committed).lookup x = some r → ¬ p r) :
    Turns c n tx { tx with scan := some (ks, rs) }
  | visited {p f k rs} (hp : tx.prog = .modify p f k) (hs : tx.scan = some ([], rs)) :
    Turns c n tx { tx with prog := k rs, scan := none }
  | clash {clash r k} (hp : tx.prog = .insert clash r k) : Turns c n tx { tx with prog := k false }
  | insert {clash r k} (hp : tx.prog = .insert clash r k) :
    Turns c n tx { tx with toLocal := tx.insert r, prog := k true }
  | fresh {k} (hp : tx.prog = .fresh k) :
    Turns c n tx { tx with toLocal := tx.draw c.nextId, prog := k c.nextId }
  | ask {q k} (hp : tx.prog = .ask q k) (a : A q) : Turns c n tx { tx with prog := k a }
  | commit {k} (hp : tx.prog = .commit k) : Turns c n tx { tx with toLocal := tx.clear, prog := k }
  | rollback {k} (hp : tx.prog = .rollback k) :
    Turns c n tx { tx with toLocal := tx.clear, prog := k }

variable {respond : (q : Q) → W → A q × W} {handle : I → Prog R A E α} {c c' : Config R A E α I W}
  {n : ℕ} {tx : Tx R A E α I}

/-- The committed rows change when a session commits, and are then those it sees. -/
def CommitsTo (c c' : Config R A E α I W) (tx : Tx R A E α I) : Prop :=
  (c'.committed = c.committed ∧ ∀ k, tx.prog ≠ .commit k) ∨
    (c'.committed = tx.view c.committed ∧ ∃ k, tx.prog = .commit k)

theorem turns_of_turnOf {p : Prog R A E α} (hp : tx.prog = p)
    (h : c.turnOf respond n tx p = some c') : ∃ tx', Turns c n tx tx' ∧ c'.txs = c.txs.set n tx' ∧
      CommitsTo c c' tx ∧ c.nextId ≤ c'.nextId := by
  cases p with
  | ret a =>
    cases h
    exact ⟨_, .ended (by rw [hp]; rfl), rfl, .inl ⟨rfl, by simp [hp]⟩, Nat.le_refl _⟩
  | raise e =>
    cases h
    exact ⟨_, .ended (by rw [hp]; rfl), rfl, .inl ⟨rfl, by simp [hp]⟩, Nat.le_refl _⟩
  | select p k =>
    cases h
    exact ⟨_, .select hp, rfl, .inl ⟨rfl, by simp [hp]⟩, Nat.le_refl _⟩
  | modify p f k =>
    have hmod : CommitsTo c c tx := .inl ⟨rfl, by simp [hp]⟩
    simp only [Config.turnOf] at h
    split at h
    · next hs =>
      cases h
      exact ⟨_, .snapshot hp hs, rfl, hmod, Nat.le_refl _⟩
    · next rs hs =>
      cases h
      exact ⟨_, .visited hp hs, rfl, hmod, Nat.le_refl _⟩
    · next x ks rs hs =>
      split at h
      · cases h
      next hfree =>
      rw [Bool.not_eq_true] at hfree
      split at h
      · next r hr =>
        split at h
        · next hpr =>
          cases h
          exact ⟨_, .lock hp hs hfree hr hpr, rfl, hmod, Nat.le_refl _⟩
        · next hpr =>
          cases h
          refine ⟨_, .skip hp hs hfree fun r' hr' => ?_, rfl, hmod, Nat.le_refl _⟩
          rw [hr] at hr'
          cases hr'
          exact hpr
      · next hr =>
        cases h
        refine ⟨_, .skip hp hs hfree fun r' hr' => ?_, rfl, hmod, Nat.le_refl _⟩
        rw [hr] at hr'
        cases hr'
  | insert clash r k =>
    simp only [Config.turnOf] at h
    split at h
    · cases h
    split at h
    · cases h
      exact ⟨_, .clash hp, rfl, .inl ⟨rfl, by simp [hp]⟩, Nat.le_refl _⟩
    · cases h
      exact ⟨_, .insert hp, rfl, .inl ⟨rfl, by simp [hp]⟩, Nat.le_refl _⟩
  | fresh k =>
    cases h
    exact ⟨_, .fresh hp, rfl, .inl ⟨rfl, by simp [hp]⟩, Nat.le_succ _⟩
  | ask q k =>
    cases h
    exact ⟨_, .ask hp _, rfl, .inl ⟨rfl, by simp [hp]⟩, Nat.le_refl _⟩
  | commit k =>
    cases h
    exact ⟨_, .commit hp, rfl, .inr ⟨rfl, k, hp⟩, Nat.le_refl _⟩
  | rollback k =>
    cases h
    exact ⟨_, .rollback hp, rfl, .inl ⟨rfl, by simp [hp]⟩, Nat.le_refl _⟩

/-- **What one step can do**: a request arrives, a session takes a turn, or a session is lost. -/
theorem Step.elim (h : Step respond handle c c') :
    (∃ i, c'.txs = c.txs ++ [{ Local.start with req := i, prog := handle i, scan := none }] ∧
      c'.committed = c.committed ∧ c.nextId ≤ c'.nextId) ∨
    (∃ n tx tx', c.txs[n]? = some tx ∧ Turns c n tx tx' ∧ c'.txs = c.txs.set n tx' ∧
      CommitsTo c c' tx ∧ c.nextId ≤ c'.nextId) ∨
    (∃ n tx e, c.txs[n]? = some tx ∧ tx.prog.done = false ∧
      c'.txs = c.txs.set n { tx.clear with req := tx.req, prog := .raise e, scan := none } ∧
      c'.committed = c.committed ∧ c.nextId ≤ c'.nextId) := by
  obtain ⟨m, hm⟩ := h
  cases m with
  | start i =>
    cases hm
    exact .inl ⟨i, rfl, rfl, Nat.le_refl _⟩
  | turn n =>
    simp only [Config.step, Config.turn] at hm
    split at hm
    · next tx hn =>
      obtain ⟨tx', ht, htxs, hc, hle⟩ := turns_of_turnOf rfl hm
      exact .inr (.inl ⟨n, tx, tx', hn, ht, htxs, hc, hle⟩)
    · cases hm
  | lost n e =>
    simp only [Config.step] at hm
    split at hm
    · next tx hn =>
      split at hm
      · cases hm
      · next hd =>
        cases hm
        exact .inr (.inr ⟨n, tx, e, hn, by simpa using hd, rfl, rfl, Nat.le_refl _⟩)
    · cases hm

/-- The session is in the middle of a locking statement only when that is its next statement, and
the rows it has locked so far satisfy its condition. -/
def Tx.ScanOk (tx : Tx R A E α I) : Prop :=
  ∀ ks rs, tx.scan = some (ks, rs) → ∃ p f k, tx.prog = .modify p f k ∧ ∀ r ∈ rs, p r = true

/-- A session that has not ended after its turn had not ended before it. -/
theorem Turns.running {tx' : Tx R A E α I} (h : Turns c n tx tx') (hd : tx'.prog.done = false) :
    tx.prog.done = false := by
  cases h with
  | ended => exact hd
  | select hp | snapshot hp | lock hp | skip hp | visited hp | clash hp | insert hp | fresh hp
  | ask hp | commit hp | rollback hp => rw [hp]; rfl

theorem Turns.req {tx' : Tx R A E α I} (h : Turns c n tx tx') : tx'.req = tx.req := by
  cases h <;> rfl

/-- A session that commits moves on. -/
theorem Turns.prog_ne_of_commit {tx' : Tx R A E α I} (h : Turns c n tx tx') {k : Prog R A E α}
    (hk : tx.prog = .commit k) : tx' ≠ tx := by
  intro heq
  have hp : tx'.prog = .commit k := heq ▸ hk
  cases h with
  | commit hp' =>
    cases hk.symm.trans hp'
    cases (hp : k = .commit k)
  | ended hd => rw [hk] at hd; cases hd
  | snapshot hp' | lock hp' | skip hp' => cases hk.symm.trans hp'
  | _ hp' => cases hk.symm.trans hp'

theorem Turns.scanOk {tx' : Tx R A E α I} (h : Turns c n tx tx') (hs : tx.ScanOk) : tx'.ScanOk := by
  intro ks rs hscan
  cases h with
  | snapshot hp hs' =>
    cases hscan
    exact ⟨_, _, _, hp, fun _ hr => nomatch hr⟩
  | lock hp hs' hfree hr hpr =>
    cases hscan
    obtain ⟨p, f, k, hp', hrs⟩ := hs _ _ hs'
    refine ⟨p, f, k, hp', fun s hm => ?_⟩
    rcases List.mem_append.mp hm with hm | hm
    · exact hrs s hm
    · cases hp.symm.trans hp'
      exact List.mem_singleton.mp hm ▸ hpr
  | skip hp hs' hfree hskip =>
    cases hscan
    exact hs _ _ hs'
  | visited hp hs' => cases hscan
  | ended hd => exact hs _ _ hscan
  | _ hp =>
    obtain ⟨p, f, k, hp', -⟩ := hs _ _ hscan
    cases hp.symm.trans hp'

/-- The session is in its only unit of work, whose statements satisfy `φ`, and has drawn all its
identifiers in it. -/
structure Tx.InUnit (φ : Stmt R Q → Prop) (tx : Tx R A E α I) : Prop where
  body : ∃ body : Prog R A E α, tx.prog = .unitOfWork body ∧ body.Only φ fun _ => True
  ids : tx.ids = tx.drawn

omit [DecidableEq K] in
theorem Prog.unitOfWork_not_done (body : Prog R A E α) : (Prog.unitOfWork body).done = false := by
  cases body <;> rfl

/-- **The turns of a session in its only unit of work**: it stays in it, commits and returns, or
raises. -/
theorem Tx.InUnit.turn {φ : Stmt R Q → Prop} (hcommit : ¬ φ .commit) (hrollback : ¬ φ .rollback)
    {tx' : Tx R A E α I} (h : tx.InUnit φ) (hs : tx.ScanOk) (ht : Turns c n tx tx') :
    tx'.InUnit φ ∨
      (∃ a, tx.prog = .commit (.ret a) ∧ tx'.prog = .ret a ∧ tx'.toLocal = tx.clear) ∨
      ∃ e, tx'.prog = .raise e := by
  obtain ⟨⟨body, hbody, honly⟩, hids⟩ := h
  cases ht with
  | ended hd =>
    rw [hbody, Prog.unitOfWork_not_done] at hd
    cases hd
  | select hp =>
    rw [hbody] at hp
    cases body with
    | select p k =>
      cases hp
      exact .inl ⟨⟨k _, rfl, honly.2 _ fun r hr => (List.mem_filter.mp hr).2⟩, hids⟩
    | _ => cases hp
  | snapshot hp hs' => exact .inl ⟨⟨body, hbody, honly⟩, hids⟩
  | lock hp hs' hfree hr hpr => exact .inl ⟨⟨body, hbody, honly⟩, hids⟩
  | skip hp hs' hfree hskip => exact .inl ⟨⟨body, hbody, honly⟩, hids⟩
  | visited hp hs' =>
    obtain ⟨p, f, k, hp', hrs⟩ := hs _ _ hs'
    cases hp.symm.trans hp'
    rw [hbody] at hp
    cases body with
    | modify p f k =>
      cases hp
      exact .inl ⟨⟨k _, rfl, honly.2 _ hrs⟩, hids⟩
    | _ => cases hp
  | clash hp | insert hp =>
    rw [hbody] at hp
    cases body with
    | insert clash r k =>
      cases hp
      exact .inl ⟨⟨k _, rfl, honly.2 _⟩, hids⟩
    | _ => cases hp
  | fresh hp =>
    rw [hbody] at hp
    cases body with
    | fresh k =>
      cases hp
      exact .inl ⟨⟨k _, rfl, honly _⟩, congrArg (List.cons c.nextId) hids⟩
    | _ => cases hp
  | ask hp a =>
    rw [hbody] at hp
    cases body with
    | ask q k =>
      cases hp
      exact .inl ⟨⟨k _, rfl, honly.2 _⟩, hids⟩
    | _ => cases hp
  | commit hp =>
    rw [hbody] at hp
    cases body with
    | ret a =>
      cases hp
      exact .inr (.inl ⟨a, hbody, rfl, rfl⟩)
    | commit k => exact absurd honly.1 hcommit
    | _ => cases hp
  | rollback hp =>
    rw [hbody] at hp
    cases body with
    | raise e =>
      cases hp
      exact .inr (.inr ⟨e, rfl⟩)
    | rollback k => exact absurd honly.1 hrollback
    | _ => cases hp

/-- **A property of single sessions** that holds when they arrive and is kept by their turns holds
throughout a run. -/
theorem Reach.forall_tx {P : Tx R A E α I → Prop}
    (hstart : ∀ i, P { Local.start with req := i, prog := handle i, scan := none })
    (hturn : ∀ (c : Config R A E α I W) n tx tx', P tx → Turns c n tx tx' → P tx')
    (hlost : ∀ (tx : Tx R A E α I) e, P tx → P { tx.clear with req := tx.req, prog := .raise e, scan := none })
    (h : Reach respond handle c c') (hc : ∀ tx ∈ c.txs, P tx) : ∀ tx ∈ c'.txs, P tx := by
  induction h with
  | refl => exact hc
  | @tail d d' _ hstep ih =>
    intro t htm
    rcases hstep.elim with ⟨i, htxs, -⟩ | ⟨n, tx, tx', hn, ht, htxs, -⟩ | ⟨n, tx, e, hn, -, htxs, -⟩
    · rw [htxs, List.mem_append, List.mem_singleton] at htm
      rcases htm with htm | rfl
      · exact ih t htm
      · exact hstart i
    · rw [htxs] at htm
      rcases List.mem_or_eq_of_mem_set htm with htm | rfl
      · exact ih t htm
      · exact hturn d n tx t (ih tx (List.mem_of_getElem? hn)) ht
    · rw [htxs] at htm
      rcases List.mem_or_eq_of_mem_set htm with htm | rfl
      · exact ih t htm
      · exact hlost tx e (ih tx (List.mem_of_getElem? hn))

omit [DecidableEq K] in
theorem Config.done_of_quietFor (h : c.quietFor n = true) {m : ℕ} (hm : m ≠ n)
    {t : Tx R A E α I} (ht : c.txs[m]? = some t) : t.prog.done = true :=
  List.all_eq_true.mp h t (List.mem_eraseIdx_iff_getElem?.mpr ⟨m, hm, ht⟩)

/-- Turns of the only open session make a run whose steps satisfy whatever such turns do. -/
theorem ReachWith.of_turns {G : Config R A E α I W → Config R A E α I W → Prop}
    (hG : ∀ d d' : Config R A E α I W, d.quietFor n = true → G d d') :
    ∀ (k : ℕ) {c : Config R A E α I W}, c.quietFor n = true →
      c.run respond handle (List.replicate k (.turn n)) = some c' →
      ReachWith respond handle G c c'
  | 0, c, _, h => by cases h; exact .refl
  | k + 1, c, hq, h => by
    obtain ⟨d, hd, hrun⟩ := Option.bind_eq_some_iff.mp h
    refine .head ⟨⟨_, hd⟩, hG c d hq⟩ (ReachWith.of_turns hG k ?_ hrun)
    -- a turn of the session leaves the others as they are
    simp only [Config.step, Config.turn] at hd
    split at hd
    · next tx hn =>
      obtain ⟨tx', -, htxs, -⟩ := turns_of_turnOf rfl hd
      rw [Config.quietFor, Config.others, htxs, List.eraseIdx_set_eq]
      exact hq
    · cases hd

/-- A run, if `check` holds before each of its moves. -/
def Config.runChecked (respond : (q : Q) → W → A q × W) (handle : I → Prog R A E α)
    (check : Config R A E α I W → Bool) (c : Config R A E α I W) :
    List (Move E I) → Option (Config R A E α I W)
  | [] => some c
  | m :: ms => if check c then (c.step respond handle m).bind fun c' =>
      c'.runChecked respond handle check ms else none

theorem ReachWith.of_runChecked {G : Config R A E α I W → Config R A E α I W → Prop}
    {check : Config R A E α I W → Bool} (hG : ∀ d d', check d = true → G d d') :
    ∀ (ms : List (Move E I)) {c : Config R A E α I W},
      c.runChecked respond handle check ms = some c' → ReachWith respond handle G c c'
  | [], c, h => by cases h; exact .refl
  | m :: ms, c, h => by
    rw [Config.runChecked] at h
    split at h
    · next hc =>
      obtain ⟨d, hd, hrun⟩ := Option.bind_eq_some_iff.mp h
      exact .head ⟨⟨m, hd⟩, hG c d hc⟩ (ReachWith.of_runChecked hG ms hrun)
    · cases h

/-- The identifiers a session draws are newer than those drawn before the run. -/
theorem Reach.drawn_ge (h : Reach respond handle c c') {N : ℕ} (hN : N ≤ c.nextId)
    (hd : ∀ tx ∈ c.txs, ∀ m ∈ tx.drawn, N ≤ m) :
    N ≤ c'.nextId ∧ ∀ tx ∈ c'.txs, ∀ m ∈ tx.drawn, N ≤ m := by
  induction h with
  | refl => exact ⟨hN, hd⟩
  | @tail d d' _ hstep ih =>
    obtain ⟨hN, hd⟩ := ih
    rcases hstep.elim with ⟨i, htxs, -, hle⟩ | ⟨n, tx, tx', hn, ht, htxs, -, hle⟩ |
      ⟨n, tx, e, hn, -, htxs, -, hle⟩
    · refine ⟨Nat.le_trans hN hle, fun t ht m hm => ?_⟩
      rw [htxs, List.mem_append, List.mem_singleton] at ht
      rcases ht with ht | rfl
      · exact hd t ht m hm
      · cases hm
    · have hold := hd tx (List.mem_of_getElem? hn)
      refine ⟨Nat.le_trans hN hle, fun t htm m hm => ?_⟩
      rw [htxs] at htm
      rcases List.mem_or_eq_of_mem_set htm with htm | rfl
      · exact hd t htm m hm
      · cases ht with
        | fresh hp =>
          rcases List.mem_cons.mp hm with rfl | hm
          · exact hN
          · exact hold m hm
        | _ => exact hold m hm
    · have hold := hd tx (List.mem_of_getElem? hn)
      refine ⟨Nat.le_trans hN hle, fun t htm m hm => ?_⟩
      rw [htxs] at htm
      rcases List.mem_or_eq_of_mem_set htm with htm | rfl
      · exact hd t htm m hm
      · exact hold m hm

/-- The configuration with a store and no session. -/
def Store.open (s : Store R W) : Config R A E α I W := { s with txs := [] }

end Txn
