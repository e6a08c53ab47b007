import DevOpsAssistant.Txn.Prog

/-!
# One session at a time

The meaning of a program that no other session runs beside, and serial runs of requests.

* `Store`: the committed rows, the next identifier and the surroundings.
* `Prog.exec`: a program from a session; `exec_bind`, `exec_tryCatch`, `exec_unitOfWork`.
* `Prog.Only φ Q`: every statement of a program satisfies `φ`, every result satisfies `Q`.
* **`Only.committed_eq`**: without a commit, the committed rows stay as they are.
* `Store.serve`, `Store.serveAll`: requests served one after another; **`serveAll_induction`**.
-/

namespace Txn

variable {R K Q W : Type} {A : Q → Type} {E α β : Type} [DecidableEq K] [Keyed R K]

/-- What outlives a session: the committed rows, the next identifier, the surroundings. -/
structure Store (R : Type) {K : Type} [Keyed R K] (W : Type) where
  committed : Table R
  nextId : ℕ
  world : W

/-- A store as an open session sees it, with the redo log of the transaction. -/
structure Session (R : Type) {K : Type} [Keyed R K] (W : Type) extends Store R W where
  log : List (Write R K)

namespace Session

/-- The rows the session sees: its own writes over the committed rows. -/
def view (s : Session R W) : Table R := s.committed.apply s.log

/-- The session after writing `ws`. -/
def append (s : Session R W) (ws : List (Write R K)) : Session R W := { s with log := s.log ++ ws }

/-- The session after `COMMIT`. -/
def commit (s : Session R W) : Session R W := { s with committed := s.view, log := [] }

/-- The session after `ROLLBACK`. -/
def rollback (s : Session R W) : Session R W := { s with log := [] }

omit [DecidableEq K] in
@[simp] theorem committed_append (s : Session R W) (ws : List (Write R K)) :
    (s.append ws).committed = s.committed := rfl

omit [DecidableEq K] in
@[simp] theorem world_append (s : Session R W) (ws : List (Write R K)) :
    (s.append ws).world = s.world := rfl

@[simp] theorem view_append (s : Session R W) (ws : List (Write R K)) :
    (s.append ws).view = s.view.apply ws := Table.apply_append _ _ _

@[simp] theorem committed_commit (s : Session R W) : s.commit.committed = s.view := rfl

@[simp] theorem view_commit (s : Session R W) : s.commit.view = s.view := rfl

@[simp] theorem world_commit (s : Session R W) : s.commit.world = s.world := rfl

@[simp] theorem view_rollback (s : Session R W) : s.rollback.view = s.committed := rfl

omit [DecidableEq K] in
@[simp] theorem committed_rollback (s : Session R W) : s.rollback.committed = s.committed := rfl

end Session

/-- The writes of a locking statement over the rows it has locked. -/
def writesOf (f : (r : R) → Effect r) (rs : List R) : List (Write R K) := rs.flatMap fun r => (f r).log

/-- `r` cannot be inserted next to the rows of `t`. -/
def Table.clashes (t : Table R) (clash : R → Bool) (r : R) : Bool :=
  t.rows.any fun x => decide (key x = key r) || clash x

namespace Prog

variable (respond : (q : Q) → W → A q × W)

/-- A program run alone, from a session to its outcome and the session after it. -/
def exec : Prog R A E α → Session R W → Except E α × Session R W
  | ret a, s => (.ok a, s)
  | raise e, s => (.error e, s)
  | select p k, s => (k (s.view.rows.filter p)).exec s
  | modify p f k, s =>
    (k (s.view.rows.filter p)).exec (s.append (writesOf f (s.view.rows.filter p)))
  | insert c r k, s =>
    if s.view.clashes c r then (k false).exec s else (k true).exec (s.append [.store r])
  | fresh k, s => (k s.nextId).exec { s with nextId := s.nextId + 1 }
  | ask q k, s => (k (respond q s.world).1).exec { s with world := (respond q s.world).2 }
  | commit k, s => k.exec s.commit
  | rollback k, s => k.exec s.rollback

theorem exec_bind (p : Prog R A E α) (g : α → Prog R A E β) (s : Session R W) :
    (p.bind g).exec respond s =
      match p.exec respond s with
      | (.ok a, s') => (g a).exec respond s'
      | (.error e, s') => (.error e, s') := by
  induction p generalizing s with
  | ret a | raise e => rfl
  | select p k ih | modify p f k ih | fresh k ih | ask q k ih => simp only [bind, exec, ih]
  | insert c r k ih =>
    simp only [bind, exec]
    split <;> exact ih _ _
  | commit k ih | rollback k ih => simp only [bind, exec, ih]

theorem exec_tryCatch (p : Prog R A E α) (h : E → Prog R A E α) (s : Session R W) :
    (p.tryCatch h).exec respond s =
      match p.exec respond s with
      | (.ok a, s') => (.ok a, s')
      | (.error e, s') => (h e).exec respond s' := by
  induction p generalizing s with
  | ret a | raise e => rfl
  | select p k ih | modify p f k ih | fresh k ih | ask q k ih => simp only [tryCatch, exec, ih]
  | insert c r k ih =>
    simp only [tryCatch, exec]
    split <;> exact ih _ _
  | commit k ih | rollback k ih => simp only [tryCatch, exec, ih]

/-- A unit of work commits what its body has written, or drops it with the exception. -/
theorem exec_unitOfWork (p : Prog R A E α) (s : Session R W) :
    (unitOfWork p).exec respond s =
      match p.exec respond s with
      | (.ok a, s') => (.ok a, s'.commit)
      | (.error e, s') => (.error e, s'.rollback) := by
  rw [unitOfWork, exec_tryCatch, exec_bind]
  rcases p.exec respond s with ⟨_ | _, _⟩ <;> rfl

end Prog

/-! ## What a program's statements are -/

/-- One statement, without its continuation. -/
inductive Stmt (R : Type) {K : Type} [Keyed R K] (Q : Type) where
  | select (p : R → Bool)
  | modify (p : R → Bool) (f : (r : R) → Effect r)
  | insert (r : R)
  | ask (q : Q)
  | commit
  | rollback

namespace Prog

/-- Every statement the program can send satisfies `φ`, and every value it can return `Q`. -/
def Only (φ : Stmt R Q → Prop) (P : α → Prop) : Prog R A E α → Prop
  | ret a => P a
  | raise _ => True
  | select p k => φ (.select p) ∧ ∀ rs, (∀ r ∈ rs, p r) → (k rs).Only φ P
  | modify p f k => φ (.modify p f) ∧ ∀ rs, (∀ r ∈ rs, p r) → (k rs).Only φ P
  | insert _ r k => φ (.insert r) ∧ ∀ b, (k b).Only φ P
  | fresh k => ∀ n, (k n).Only φ P
  | ask q k => φ (.ask q) ∧ ∀ a, (k a).Only φ P
  | commit k => φ .commit ∧ k.Only φ P
  | rollback k => φ .rollback ∧ k.Only φ P

variable {φ ψ : Stmt R Q → Prop} {P : α → Prop} {P' : β → Prop}

omit [DecidableEq K] in
theorem Only.bind {p : Prog R A E α} {g : α → Prog R A E β} (hp : p.Only φ P)
    (hg : ∀ a, P a → (g a).Only φ P') : (p.bind g).Only φ P' := by
  induction p with
  | ret a => exact hg a hp
  | raise e => trivial
  | select p k ih | modify p f k ih => exact ⟨hp.1, fun rs hrs => ih rs (hp.2 rs hrs)⟩
  | insert c r k ih | ask q k ih => exact ⟨hp.1, fun b => ih b (hp.2 b)⟩
  | fresh k ih => exact fun n => ih n (hp n)
  | commit k ih | rollback k ih => exact ⟨hp.1, ih hp.2⟩

omit [DecidableEq K] in
theorem Only.tryCatch {p : Prog R A E α} {h : E → Prog R A E α} (hp : p.Only φ P)
    (hh : ∀ e, (h e).Only φ P) : (p.tryCatch h).Only φ P := by
  induction p with
  | ret a => exact hp
  | raise e => exact hh e
  | select p k ih | modify p f k ih => exact ⟨hp.1, fun rs hrs => ih rs (hp.2 rs hrs)⟩
  | insert c r k ih | ask q k ih => exact ⟨hp.1, fun b => ih b (hp.2 b)⟩
  | fresh k ih => exact fun n => ih n (hp n)
  | commit k ih | rollback k ih => exact ⟨hp.1, ih hp.2⟩

omit [DecidableEq K] in
theorem Only.mono {P₂ : α → Prop} {p : Prog R A E α} (hp : p.Only φ P) (hφ : ∀ s, φ s → ψ s)
    (hP : ∀ a, P a → P₂ a) : p.Only ψ P₂ := by
  induction p with
  | ret a => exact hP a hp
  | raise e => trivial
  | select p k ih | modify p f k ih => exact ⟨hφ _ hp.1, fun rs hrs => ih rs (hp.2 rs hrs)⟩
  | insert c r k ih | ask q k ih => exact ⟨hφ _ hp.1, fun b => ih b (hp.2 b)⟩
  | fresh k ih => exact fun n => ih n (hp n)
  | commit k ih | rollback k ih => exact ⟨hφ _ hp.1, ih hp.2⟩

omit [DecidableEq K] in
theorem Only.unitOfWork {p : Prog R A E α} (hp : p.Only φ P) (hc : φ .commit) (hr : φ .rollback) :
    (unitOfWork p).Only φ P :=
  Only.tryCatch (hp.bind fun _ ha => ⟨hc, ha⟩) fun _ => ⟨hr, trivial⟩

variable (respond : (q : Q) → W → A q × W)

/-- **A run keeps what every statement keeps.** `I` is the invariant of the session. -/
theorem Only.exec_inv (I : Session R W → Prop)
    (hmodify : ∀ p f s, φ (.modify p f) → I s →
      I (s.append (writesOf f (s.view.rows.filter p))))
    (hinsert : ∀ r s, φ (.insert r) → I s → (∀ x ∈ s.view.rows, key x ≠ key r) →
      I (s.append [.store r]))
    (hfresh : ∀ s, I s → I { s with nextId := s.nextId + 1 })
    (hask : ∀ q s, φ (.ask q) → I s → I { s with world := (respond q s.world).2 })
    (hcommit : ∀ s, φ .commit → I s → I s.commit)
    (hrollback : ∀ s, φ .rollback → I s → I s.rollback)
    {p : Prog R A E α} (hp : p.Only φ P) {s : Session R W} (hs : I s) :
    I (p.exec respond s).2 ∧ ∀ a, (p.exec respond s).1 = .ok a → P a := by
  induction p generalizing s with
  | ret a => exact ⟨hs, fun b hb => by cases hb; exact hp⟩
  | raise e => exact ⟨hs, fun b hb => by cases hb⟩
  | select p k ih => exact ih _ (hp.2 _ fun r hr => (List.mem_filter.mp hr).2) hs
  | modify p f k ih =>
    exact ih _ (hp.2 _ fun r hr => (List.mem_filter.mp hr).2) (hmodify p f s hp.1 hs)
  | insert c r k ih =>
    simp only [exec]
    split
    · exact ih false (hp.2 false) hs
    · next hc =>
      refine ih true (hp.2 true) (hinsert r s hp.1 hs fun x hx hk => hc ?_)
      exact List.any_eq_true.mpr ⟨x, hx, by simp [hk]⟩
  | fresh k ih => exact ih _ (hp _) (hfresh s hs)
  | ask q k ih => exact ih _ (hp.2 _) (hask q s hp.1 hs)
  | commit k ih => exact ih hp.2 (hcommit s hp.1 hs)
  | rollback k ih => exact ih hp.2 (hrollback s hp.1 hs)

/-- **Without a commit, the committed rows stay as they are.** -/
theorem Only.committed_eq {p : Prog R A E α} (hp : p.Only (· ≠ .commit) P) (s : Session R W) :
    (p.exec respond s).2.committed = s.committed :=
  (hp.exec_inv respond (fun s' => s'.committed = s.committed)
    (fun _ _ _ _ h => h) (fun _ _ _ h _ => h) (fun _ h => h) (fun _ _ _ h => h)
    (fun _ hc => absurd rfl hc) (fun _ _ h => h) rfl).1

end Prog

/-! ## Serial runs -/

namespace Store

variable {I : Type} (respond : (q : Q) → W → A q × W) (handle : I → Prog R A E α)

/-- The session opened on a store. -/
def session (s : Store R W) : Session R W := { s with log := [] }

omit [DecidableEq K] in
@[simp] theorem committed_session (s : Store R W) : s.session.committed = s.committed := rfl

@[simp] theorem view_session (s : Store R W) : s.session.view = s.committed := rfl

/-- One request served alone: its outcome and the store after its session is closed. -/
def serve (s : Store R W) (i : I) : Except E α × Store R W :=
  ((handle i).exec respond s.session).map id Session.toStore

/-- The store after a list of requests, each served when the one before has ended. -/
def serveAll (s : Store R W) (is : List I) : Store R W :=
  is.foldl (fun s i => (s.serve respond handle i).2) s

theorem serveAll_append (s : Store R W) (is js : List I) :
    s.serveAll respond handle (is ++ js) = (s.serveAll respond handle is).serveAll respond handle js :=
  List.foldl_append

/-- **An invariant of each request is an invariant of serial runs.** -/
theorem serveAll_induction {P : Store R W → Prop}
    (step : ∀ s i, P s → P (s.serve respond handle i).2) {s : Store R W} (hs : P s) :
    ∀ is, P (s.serveAll respond handle is) := by
  intro is
  induction is generalizing s with
  | nil => exact hs
  | cons i is ih => exact ih (step s i hs)

end Store

end Txn
