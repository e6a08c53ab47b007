import DevOpsAssistant.Txn.Outcome
import DevOpsAssistant.Txn.Solo

/-!
# What programs read and raise

* `Prog.Reads`: every statement of the program is a `SELECT`.
* `Reads.bind`, `Reads.tryCatch`: composition.
* **`Reads.exec`**: what such a program does depends on the rows it sees, and on nothing else.
* `Prog.Raises φ P`: where the answers satisfy `φ`, every exception of the program satisfies `P`.
* `Raises.bind`, `Raises.tryCatch`, `Raises.mono`: composition.
* **`Raises.exec`**: what a run raises.
-/

namespace Txn

variable {R K Q W : Type} {A : Q → Type} {E α β : Type} [DecidableEq K] [Keyed R K]

namespace Prog

/-- The program only reads the rows it sees. -/
def Reads : Prog R A E α → Prop
  | ret _ | raise _ => True
  | select _ k => ∀ rs, (k rs).Reads
  | modify _ _ _ | insert _ _ _ | fresh _ | ask _ _ | commit _ | rollback _ => False

omit [DecidableEq K] in
theorem Reads.bind {p : Prog R A E α} {g : α → Prog R A E β} (hp : p.Reads)
    (hg : ∀ a, (g a).Reads) : (p.bind g).Reads := by
  induction p with
  | ret a => exact hg a
  | raise e => trivial
  | select p k ih => exact fun rs => ih rs (hp rs)
  | _ => exact hp.elim

omit [DecidableEq K] in
theorem Reads.tryCatch {p : Prog R A E α} {h : E → Prog R A E α} (hp : p.Reads)
    (hh : ∀ e, (h e).Reads) : (p.tryCatch h).Reads := by
  induction p with
  | ret a => trivial
  | raise e => exact hh e
  | select p k ih => exact fun rs => ih rs (hp rs)
  | _ => exact hp.elim

variable (respond : (q : Q) → W → A q × W)

/-- **The outcome depends on the rows the session sees**, and the session stays as it was. -/
theorem Reads.exec {p : Prog R A E α} (hp : p.Reads) {s s' : Session R W} (h : s'.view = s.view) :
    p.exec respond s' = ((p.exec respond s).1, s') := by
  induction p with
  | ret a | raise e => rfl
  | select p k ih =>
    simp only [Prog.exec, h]
    exact ih _ (hp _)
  | _ => exact hp.elim

end Prog

end Txn

namespace Txn

variable {R K Q W : Type} {A : Q → Type} {E α β : Type} [DecidableEq K] [Keyed R K]

namespace Prog

/-- Where the answers satisfy `φ`, every exception the program can raise satisfies `P`. -/
def Raises (φ : (q : Q) → A q → Prop) (P : E → Prop) : Prog R A E α → Prop
  | ret _ => True
  | raise e => P e
  | select _ k | modify _ _ k => ∀ rs, (k rs).Raises φ P
  | insert _ _ k => ∀ b, (k b).Raises φ P
  | fresh k => ∀ n, (k n).Raises φ P
  | ask q k => ∀ a, φ q a → (k a).Raises φ P
  | commit k | rollback k => k.Raises φ P

variable {φ : (q : Q) → A q → Prop} {P P' : E → Prop}

omit [DecidableEq K] in
theorem Raises.bind {p : Prog R A E α} {g : α → Prog R A E β} (hp : p.Raises φ P)
    (hg : ∀ a, (g a).Raises φ P) : (p.bind g).Raises φ P := by
  induction p with
  | ret a => exact hg a
  | raise e => exact hp
  | select p k ih | modify p f k ih => exact fun rs => ih rs (hp rs)
  | insert c r k ih | fresh k ih => exact fun b => ih b (hp b)
  | ask q k ih => exact fun a ha => ih a (hp a ha)
  | commit k ih | rollback k ih => exact ih hp

omit [DecidableEq K] in
/-- What the handler raises in its turn. -/
theorem Raises.tryCatch {p : Prog R A E α} {h : E → Prog R A E α} (hp : p.Raises φ P')
    (hh : ∀ e, P' e → (h e).Raises φ P) : (p.tryCatch h).Raises φ P := by
  induction p with
  | ret a => trivial
  | raise e => exact hh e hp
  | select p k ih | modify p f k ih => exact fun rs => ih rs (hp rs)
  | insert c r k ih | fresh k ih => exact fun b => ih b (hp b)
  | ask q k ih => exact fun a ha => ih a (hp a ha)
  | commit k ih | rollback k ih => exact ih hp

omit [DecidableEq K] in
theorem Raises.mono {p : Prog R A E α} (hp : p.Raises φ P') (h : ∀ e, P' e → P e) :
    p.Raises φ P := by
  induction p with
  | ret a => trivial
  | raise e => exact h e hp
  | select p k ih | modify p f k ih => exact fun rs => ih rs (hp rs)
  | insert c r k ih | fresh k ih => exact fun b => ih b (hp b)
  | ask q k ih => exact fun a ha => ih a (hp a ha)
  | commit k ih | rollback k ih => exact ih hp

/-- **What a run raises** in surroundings whose answers satisfy `φ`. -/
theorem Raises.exec {respond : (q : Q) → W → A q × W} (I : W → Prop)
    (hI : ∀ q w, I w → φ q (respond q w).1 ∧ I (respond q w).2) {p : Prog R A E α}
    (hp : p.Raises φ P) {s : Session R W} (hs : I s.world) :
    p.Ends respond s fun r s' => I s'.world ∧ ∀ e, r = .error e → P e := by
  induction p generalizing s with
  | ret a => exact ⟨hs, fun e h => nomatch h⟩
  | raise e => exact ⟨hs, fun e' h => by cases h; exact hp⟩
  | select p k ih | modify p f k ih => exact ih _ (hp _) hs
  | insert c r k ih =>
    unfold Ends
    simp only [Prog.exec]
    split
    · exact ih false (hp false) hs
    · exact ih true (hp true) hs
  | fresh k ih => exact ih _ (hp _) hs
  | ask q k ih => exact ih _ (hp _ (hI q _ hs).1) (hI q _ hs).2
  | commit k ih | rollback k ih => exact ih hp hs

end Prog

end Txn
