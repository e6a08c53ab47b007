import DevOpsAssistant.Txn.Table

/-!
# Database programs

A program is the tree of statements one session sends to the database, with the questions it asks
its surroundings (clock, mail, brokers, remote services). Every interpretation of programs is a
recursion over this tree.

* `Effect`: what a locking statement does to a row it has locked.
* `Prog`: programs over rows `R`, questions `Q` with answers `A`, exceptions `E`.
* `Prog.bind`, `Prog.tryCatch`: sequencing and exception handlers, with the monad laws.
* `Prog.unitOfWork`: commit on a normal return, roll back on any exception.
-/

namespace Txn

/-- What a locking statement does to the row `r` it has locked; an update keeps the primary key. -/
inductive Effect {R K : Type} [Keyed R K] (r : R) where
  | keep
  | store (r' : R) (same : key r' = key r)
  | remove

/-- The writes a locking statement puts into the redo log for the row `r`. -/
def Effect.log {R K : Type} [Keyed R K] {r : R} : Effect r → List (Write R K)
  | .keep => []
  | .store r' _ => [.store r']
  | .remove => [.delete (key r)]

theorem Effect.key_of_mem_log {R K : Type} [Keyed R K] {r : R} {e : Effect r} {w : Write R K}
    (h : w ∈ e.log) : w.key = key r := by
  cases e with
  | keep => cases h
  | store r' same => cases List.mem_singleton.mp h; exact same
  | remove => cases List.mem_singleton.mp h; rfl

/-- The statements of a session, in the order they are sent.

`modify p f` is `UPDATE`, `DELETE` or `SELECT … FOR UPDATE` with the condition `p`; its
continuation gets the rows as they were when they were locked. `insert clash r` fails (`false`)
when a row has the key of `r` or satisfies `clash`, the unique constraints `r` is subject to.
`fresh` draws an identifier no one has drawn before. -/
inductive Prog (R : Type) {K : Type} [Keyed R K] {Q : Type} (A : Q → Type) (E α : Type) : Type where
  | ret (a : α)
  | raise (e : E)
  | select (p : R → Bool) (k : List R → Prog R A E α)
  | modify (p : R → Bool) (f : (r : R) → Effect r) (k : List R → Prog R A E α)
  | insert (clash : R → Bool) (r : R) (k : Bool → Prog R A E α)
  | fresh (k : ℕ → Prog R A E α)
  | ask (q : Q) (k : A q → Prog R A E α)
  | commit (k : Prog R A E α)
  | rollback (k : Prog R A E α)

namespace Prog

variable {R K Q : Type} [Keyed R K] {A : Q → Type} {E α β γ : Type}

/-- Sequencing: an exception ends the program. -/
def bind : Prog R A E α → (α → Prog R A E β) → Prog R A E β
  | ret a, g => g a
  | raise e, _ => raise e
  | select p k, g => select p fun rs => (k rs).bind g
  | modify p f k, g => modify p f fun rs => (k rs).bind g
  | insert c r k, g => insert c r fun b => (k b).bind g
  | fresh k, g => fresh fun n => (k n).bind g
  | ask q k, g => ask q fun a => (k a).bind g
  | commit k, g => commit (k.bind g)
  | rollback k, g => rollback (k.bind g)

/-- An exception handler: what the session has done before the exception stays done. -/
def tryCatch : Prog R A E α → (E → Prog R A E α) → Prog R A E α
  | ret a, _ => ret a
  | raise e, h => h e
  | select p k, h => select p fun rs => (k rs).tryCatch h
  | modify p f k, h => modify p f fun rs => (k rs).tryCatch h
  | insert c r k, h => insert c r fun b => (k b).tryCatch h
  | fresh k, h => fresh fun n => (k n).tryCatch h
  | ask q k, h => ask q fun a => (k a).tryCatch h
  | commit k, h => commit (k.tryCatch h)
  | rollback k, h => rollback (k.tryCatch h)

instance : Monad (Prog R A E) where
  pure := ret
  bind := bind

instance : MonadExcept E (Prog R A E) where
  throw := raise
  tryCatch := tryCatch

@[simp] theorem pure_eq (a : α) : (pure a : Prog R A E α) = ret a := rfl

@[simp] theorem throw_eq (e : E) : (throw e : Prog R A E α) = raise e := rfl

@[simp] theorem bind_eq (p : Prog R A E α) (g : α → Prog R A E β) : p >>= g = p.bind g := rfl

@[simp] theorem tryCatch_eq (p : Prog R A E α) (h : E → Prog R A E α) :
    MonadExcept.tryCatch p h = p.tryCatch h := rfl

@[simp] theorem map_eq (f : α → β) (p : Prog R A E α) : f <$> p = p.bind fun a => ret (f a) := rfl

theorem bind_ret (p : Prog R A E α) : p.bind ret = p := by
  induction p with
  | ret a | raise e => rfl
  | select p k ih | modify p f k ih | insert c r k ih | fresh k ih | ask q k ih =>
    simp only [bind, ih]
  | commit k ih | rollback k ih => simp only [bind, ih]

theorem bind_assoc (p : Prog R A E α) (g : α → Prog R A E β) (h : β → Prog R A E γ) :
    (p.bind g).bind h = p.bind fun a => (g a).bind h := by
  induction p with
  | ret a | raise e => rfl
  | select p k ih | modify p f k ih | insert c r k ih | fresh k ih | ask q k ih =>
    simp only [bind, ih]
  | commit k ih | rollback k ih => simp only [bind, ih]

instance : LawfulMonad (Prog R A E) := LawfulMonad.mk' _ bind_ret (fun _ _ => rfl) bind_assoc

/-! ## Statements as programs -/

/-- `SELECT` of the rows that satisfy `p`. -/
def selectWhere (p : R → Bool) : Prog R A E (List R) := select p ret

/-- `UPDATE`, `DELETE` or `SELECT … FOR UPDATE` of the rows that satisfy `p`. -/
def modifyWhere (p : R → Bool) (f : (r : R) → Effect r) : Prog R A E (List R) := modify p f ret

/-- `INSERT`; `false` is a violated unique constraint. -/
def insertRow (clash : R → Bool) (r : R) : Prog R A E Bool := insert clash r ret

/-- A new identifier. -/
def draw : Prog R A E ℕ := fresh ret

/-- The answer to a question. -/
def query (q : Q) : Prog R A E (A q) := ask q ret

/-- `COMMIT`. -/
def commitWork : Prog R A E Unit := commit (ret ())

/-- `ROLLBACK`. -/
def rollbackWork : Prog R A E Unit := rollback (ret ())

/-- A session that commits when its body returns and rolls back when its body raises. -/
def unitOfWork (p : Prog R A E α) : Prog R A E α :=
  tryCatch (p.bind fun a => commit (ret a)) fun e => rollback (raise e)

section UnitOfWork

@[simp] theorem unitOfWork_ret (a : α) :
    unitOfWork (ret a : Prog R A E α) = commit (ret a) := rfl

@[simp] theorem unitOfWork_raise (e : E) :
    unitOfWork (raise e : Prog R A E α) = rollback (raise e) := rfl

@[simp] theorem unitOfWork_select (p : R → Bool) (k : List R → Prog R A E α) :
    unitOfWork (select p k) = select p fun rs => unitOfWork (k rs) := rfl

@[simp] theorem unitOfWork_modify (p : R → Bool) (f : (r : R) → Effect r)
    (k : List R → Prog R A E α) :
    unitOfWork (modify p f k) = modify p f fun rs => unitOfWork (k rs) := rfl

@[simp] theorem unitOfWork_insert (c : R → Bool) (r : R) (k : Bool → Prog R A E α) :
    unitOfWork (insert c r k) = insert c r fun b => unitOfWork (k b) := rfl

@[simp] theorem unitOfWork_fresh (k : ℕ → Prog R A E α) :
    unitOfWork (fresh k) = fresh fun n => unitOfWork (k n) := rfl

@[simp] theorem unitOfWork_ask (q : Q) (k : A q → Prog R A E α) :
    unitOfWork (ask q k) = ask q fun a => unitOfWork (k a) := rfl

@[simp] theorem unitOfWork_commit (k : Prog R A E α) :
    unitOfWork (commit k) = commit (unitOfWork k) := rfl

@[simp] theorem unitOfWork_rollback (k : Prog R A E α) :
    unitOfWork (rollback k) = rollback (unitOfWork k) := rfl

end UnitOfWork

end Prog

end Txn
