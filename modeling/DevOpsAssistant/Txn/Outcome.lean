import DevOpsAssistant.Txn.Solo

/-!
# Outcomes of a session

What holds of the outcome of a program that runs alone, and of the session after it.

* `Prog.Ends`: a postcondition of a run; `ends_bind`, `ends_tryCatch`, `ends_unitOfWork`.
* `onOk`: a postcondition that speaks about returns only.
* `nextId_le_exec`, **`exec_rel`**: what every run can only increase.
* `Table.SameWhere`: tables that agree on the keys of a set; **`Only.sameWhere`**.
-/

namespace Txn

variable {R K Q W : Type} {A : Q → Type} {E α β : Type} [DecidableEq K] [Keyed R K]

namespace Prog

variable (respond : (q : Q) → W → A q × W)

/-- Run alone from `s`, the program ends as `Φ` says. -/
def Ends (p : Prog R A E α) (s : Session R W) (Φ : Except E α → Session R W → Prop) : Prop :=
  Φ (p.exec respond s).1 (p.exec respond s).2

/-- A postcondition about what a program returns. -/
def onOk (Φ : α → Session R W → Prop) : Except E α → Session R W → Prop :=
  fun r s => ∀ a, r = .ok a → Φ a s

variable {respond} {p : Prog R A E α} {g : α → Prog R A E β} {s : Session R W}
  {Φ Ψ : Except E α → Session R W → Prop} {Φ' : Except E β → Session R W → Prop}

theorem Ends.mono (h : p.Ends respond s Φ) (hΦ : ∀ r s', Φ r s' → Ψ r s') :
    p.Ends respond s Ψ := hΦ _ _ h

/-- **Sequencing**: the exception of the first program is the outcome of both. -/
theorem ends_bind : (p.bind g).Ends respond s Φ' ↔ p.Ends respond s fun r s' =>
    match r with
    | .ok a => (g a).Ends respond s' Φ'
    | .error e => Φ' (.error e) s' := by
  unfold Ends
  rw [exec_bind]
  rcases p.exec respond s with ⟨_ | _, _⟩ <;> exact Iff.rfl

theorem Ends.bind (h : p.Ends respond s Φ)
    (hok : ∀ a s', Φ (.ok a) s' → (g a).Ends respond s' Φ')
    (herr : ∀ e s', Φ (.error e) s' → Φ' (.error e) s') : (p.bind g).Ends respond s Φ' := by
  refine ends_bind.mpr (h.mono fun r s' hr => ?_)
  cases r with
  | ok a => exact hok a s' hr
  | error e => exact herr e s' hr

/-- Sequencing, for a postcondition about returns. -/
theorem Ends.bind_ok {φ : α → Session R W → Prop} {ψ : β → Session R W → Prop}
    (h : p.Ends respond s (onOk φ)) (hok : ∀ a s', φ a s' → (g a).Ends respond s' (onOk ψ)) :
    (p.bind g).Ends respond s (onOk ψ) :=
  h.bind (fun a s' ha => hok a s' (ha a rfl)) fun _ _ _ _ hb => nomatch hb

theorem ends_tryCatch {h : E → Prog R A E α} : (p.tryCatch h).Ends respond s Φ ↔
    p.Ends respond s fun r s' =>
      match r with
      | .ok a => Φ (.ok a) s'
      | .error e => (h e).Ends respond s' Φ := by
  unfold Ends
  rw [exec_tryCatch]
  rcases p.exec respond s with ⟨_ | _, _⟩ <;> exact Iff.rfl

theorem ends_unitOfWork : (unitOfWork p).Ends respond s Φ ↔ p.Ends respond s fun r s' =>
    match r with
    | .ok a => Φ (.ok a) s'.commit
    | .error e => Φ (.error e) s'.rollback := by
  unfold Ends
  rw [exec_unitOfWork]
  rcases p.exec respond s with ⟨_ | _, _⟩ <;> exact Iff.rfl

/-! ## What every run can only increase -/

omit [DecidableEq K] in
theorem only_true (p : Prog R A E α) : p.Only (fun _ => True) fun _ => True := by
  induction p with
  | ret a | raise e => trivial
  | select p k ih | modify p f k ih => exact ⟨trivial, fun rs _ => ih rs⟩
  | insert c r k ih | ask q k ih => exact ⟨trivial, ih⟩
  | fresh k ih => exact ih
  | commit k ih | rollback k ih => exact ⟨trivial, ih⟩

/-- What a run returns is one of the values the program can return. -/
theorem Only.exec_ok {P : α → Prop} {p : Prog R A E α} (hp : p.Only (fun _ => True) P)
    (s : Session R W) {a : α} (h : (p.exec respond s).1 = .ok a) : P a :=
  (hp.exec_inv respond (fun _ => True) (fun _ _ _ _ _ => trivial) (fun _ _ _ _ _ => trivial)
    (fun _ _ => trivial) (fun _ _ _ _ => trivial) (fun _ _ _ => trivial) (fun _ _ _ => trivial)
    trivial).2 a h

theorem nextId_le_exec (p : Prog R A E α) (s : Session R W) :
    s.nextId ≤ (p.exec respond s).2.nextId :=
  (p.only_true.exec_inv respond (fun s' => s.nextId ≤ s'.nextId) (fun _ _ _ _ h => h)
    (fun _ _ _ h _ => h) (fun _ h => Nat.le_succ_of_le h) (fun _ _ _ h => h) (fun _ _ h => h)
    (fun _ _ h => h) (Nat.le_refl _)).1

/-- **A preorder that every answer follows** relates the surroundings before and after a run. -/
theorem exec_rel (ρ : W → W → Prop) (hrefl : ∀ w, ρ w w) (htrans : ∀ {u v w}, ρ u v → ρ v w → ρ u w)
    (hanswer : ∀ q w, ρ w (respond q w).2) (p : Prog R A E α) (s : Session R W) :
    ρ s.world (p.exec respond s).2.world :=
  (p.only_true.exec_inv respond (fun s' => ρ s.world s'.world) (fun _ _ _ _ h => h)
    (fun _ _ _ h _ => h) (fun _ h => h) (fun q s' _ h => htrans h (hanswer q s'.world))
    (fun _ _ h => h) (fun _ _ h => h) (hrefl _)).1

end Prog

/-! ## Agreement on a set of keys -/

namespace Table

/-- The tables `t` and `u` have the same rows at the keys in `S`. -/
def SameWhere (S : K → Prop) (t u : Table R) : Prop :=
  ∀ r : R, S (key r) → (r ∈ u.rows ↔ r ∈ t.rows)

variable {S : K → Prop} {t u v : Table R}

omit [DecidableEq K] in
theorem SameWhere.refl (t : Table R) : SameWhere S t t := fun _ _ => Iff.rfl

omit [DecidableEq K] in
theorem SameWhere.trans (h₁ : SameWhere S t u) (h₂ : SameWhere S u v) : SameWhere S t v :=
  fun r hr => (h₂ r hr).trans (h₁ r hr)

omit [DecidableEq K] in
theorem SameWhere.symm (h : SameWhere S t u) : SameWhere S u t := fun r hr => (h r hr).symm

theorem SameWhere.apply {log : List (Write R K)} (h : ∀ w ∈ log, ¬ S w.key) :
    SameWhere S t (t.apply log) := fun _ hr =>
  mem_apply_of_key_notMem log fun w hw hk => h w hw (hk ▸ hr)

end Table

/-- The sessions agree on the keys in `S`, in what is committed and in what they see. -/
structure Session.SameWhere (S : K → Prop) (s s' : Session R W) : Prop where
  committed : s.committed.SameWhere S s'.committed
  view : s.view.SameWhere S s'.view

omit [DecidableEq K] in
theorem Effect.not_mem_key {S : K → Prop} {r : R} {e : Effect r} (h : e = .keep ∨ ¬ S (key r)) :
    ∀ w ∈ e.log, ¬ S w.key := by
  intro w hw
  rcases h with rfl | h
  · cases hw
  · rw [Effect.key_of_mem_log hw]
    exact h

namespace Prog

variable {φ : Stmt R Q → Prop} {P : α → Prop} (respond : (q : Q) → W → A q × W)

/-- Within a transaction, a program that does not write the keys in `S` sees the same rows there. -/
theorem Only.view_sameWhere (S : K → Prop)
    (hmodify : ∀ p f, φ (.modify p f) → ∀ r, p r → f r = .keep ∨ ¬ S (key r))
    (hinsert : ∀ r, φ (.insert r) → ¬ S (key r)) (hcommit : ¬ φ .commit) (hrollback : ¬ φ .rollback)
    {p : Prog R A E α} (hp : p.Only φ P) (s : Session R W) :
    s.view.SameWhere S (p.exec respond s).2.view ∧
      (p.exec respond s).2.committed = s.committed := by
  have happend : ∀ (s' : Session R W) (ws : List (Write R K)), (∀ w ∈ ws, ¬ S w.key) →
      s.view.SameWhere S s'.view → s.view.SameWhere S (s'.append ws).view := by
    intro s' ws hws h
    rw [Session.view_append]
    exact h.trans (.apply hws)
  exact (hp.exec_inv respond
    (fun s' => s.view.SameWhere S s'.view ∧ s'.committed = s.committed)
    (fun p f s' hφ h => ⟨happend s' _ (fun w hw => by
      obtain ⟨r, hr, hw⟩ := List.mem_flatMap.mp hw
      exact Effect.not_mem_key (hmodify p f hφ r (List.mem_filter.mp hr).2) w hw) h.1, h.2⟩)
    (fun r s' hφ h _ => ⟨happend s' _ (fun w hw => by
      cases List.mem_singleton.mp hw
      exact hinsert r hφ) h.1, h.2⟩)
    (fun _ h => h) (fun _ _ _ h => h) (fun _ hc => absurd hc hcommit)
    (fun _ hc => absurd hc hrollback) ⟨.refl _, rfl⟩).1

/-- **A program that does not write the keys in `S`** leaves the rows there as they are. -/
theorem Only.sameWhere (S : K → Prop)
    (hmodify : ∀ p f, φ (.modify p f) → ∀ r, p r → f r = .keep ∨ ¬ S (key r))
    (hinsert : ∀ r, φ (.insert r) → ¬ S (key r)) {p : Prog R A E α} (hp : p.Only φ P)
    {s : Session R W} (hs : s.committed.SameWhere S s.view) :
    s.SameWhere S (p.exec respond s).2 ∧ (p.exec respond s).2.committed.SameWhere S
      (p.exec respond s).2.view ∧ ∀ a, (p.exec respond s).1 = .ok a → P a := by
  have happend : ∀ (s' : Session R W) (ws : List (Write R K)), (∀ w ∈ ws, ¬ S w.key) →
      s.SameWhere S s' ∧ s'.committed.SameWhere S s'.view →
      s.SameWhere S (s'.append ws) ∧ (s'.append ws).committed.SameWhere S (s'.append ws).view := by
    rintro s' ws hws ⟨h, hself⟩
    have hv : s'.view.SameWhere S (s'.append ws).view := by
      rw [Session.view_append]
      exact .apply hws
    exact ⟨⟨h.committed, h.view.trans hv⟩, hself.trans hv⟩
  obtain ⟨h, hP⟩ := hp.exec_inv respond
    (fun s' => s.SameWhere S s' ∧ s'.committed.SameWhere S s'.view)
    (fun p f s' hφ h => happend s' _ (fun w hw => by
      obtain ⟨r, hr, hw⟩ := List.mem_flatMap.mp hw
      exact Effect.not_mem_key (hmodify p f hφ r (List.mem_filter.mp hr).2) w hw) h)
    (fun r s' hφ h _ => happend s' _ (fun w hw => by
      cases List.mem_singleton.mp hw
      exact hinsert r hφ) h)
    (fun _ h => ⟨⟨h.1.committed, h.1.view⟩, h.2⟩) (fun _ _ _ h => ⟨⟨h.1.committed, h.1.view⟩, h.2⟩)
    (fun s' _ h => ⟨⟨h.1.committed.trans h.2, h.1.view⟩, .refl _⟩)
    (fun s' _ h => ⟨⟨h.1.committed, h.1.view.trans h.2.symm⟩, .refl _⟩)
    ⟨⟨.refl _, .refl _⟩, hs⟩
  exact ⟨h.1, h.2, hP⟩

end Prog

end Txn
