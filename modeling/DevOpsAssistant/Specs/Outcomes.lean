import DevOpsAssistant.Specs.Generators
import DevOpsAssistant.Specs.Organizations

/-!
# Programs that return

The exact outcome of statements on a database that satisfies its constraints: a query for one row finds
it or none, and a row with a new id is inserted.

* `Numbered`: every id has been drawn.
* **`ends_selectUnique`**, **`ends_insertNew`**: statements that do not raise.
* `ends_sendMail`, `ends_recordEventOrFail`, `ends_tryMarkFlag`: what services do beside their writes.
-/

namespace DevOps

open Txn

section Statements

variable {T α : Type} [Entity T] {s : Session Row World} {Φ : Except Exc α → Session Row World → Prop}

/-- **A query for one row**, of a condition that at most one row satisfies. -/
theorem ends_selectUnique {p : T → Bool} {g : Option T → Db α}
    (h : ∀ t ∈ rowsOf T s.view, ∀ t' ∈ rowsOf T s.view, p t = true → p t' = true → t = t')
    (hg : ∀ found, Found s.view p found → (g found).Ends respond s Φ) :
    ((selectOf p >>= scalarOneOrNone) >>= g).Ends respond s Φ := by
  by_cases hex : ∃ t ∈ rowsOf T s.view, p t = true
  · obtain ⟨t, ht, hp⟩ := hex
    refine (ends_selectOne ht hp fun t' ht' hp' => ?_).mpr (hg (some t) ⟨ht, hp⟩)
    rw [h t' ht' t ht hp' hp]
  · have hnone : ∀ t ∈ rowsOf T s.view, ¬ p t = true := fun t ht hp => hex ⟨t, ht, hp⟩
    exact (ends_selectNone hnone).mpr (hg none hnone)

/-- Every id of the database is below `n`. -/
def Numbered (n : ℕ) (db : Database) : Prop := ∀ r ∈ db.rows, r.id < n

theorem Numbered.store {n : ℕ} {db : Database} (h : Numbered n db) {r : Row} (hr : r.id < n) :
    Numbered n (db.apply [.store r]) := by
  intro x hx
  rw [Table.apply_cons, Table.apply_nil, Table.mem_write_store] at hx
  rcases hx with rfl | ⟨hx, -⟩
  · exact hr
  · exact h x hx

theorem Numbered.mono {n m : ℕ} {db : Database} (h : Numbered n db) (hnm : n ≤ m) : Numbered m db :=
  fun r hr => Nat.lt_of_lt_of_le (h r hr) hnm

/-- **A row with a new id** is inserted, if it clashes with none. -/
theorem ends_insertNew {clash : T → Bool} {t : T} {g : Unit → Db α}
    (hid : ∀ r ∈ s.view.rows, r.id ≠ Entity.id t)
    (hclash : ∀ x ∈ rowsOf T s.view, clash x = false) :
    (insertOf clash t >>= g).Ends respond s Φ ↔
      (g ()).Ends respond (s.append [.store (toRow t)]) Φ := by
  refine ends_insertOf (List.any_eq_false.mpr fun r hr => ?_)
  rw [Bool.or_eq_true, not_or, decide_eq_true_iff]
  refine ⟨fun hk => hid r hr (Key.mk.inj hk).2, fun hany => ?_⟩
  obtain ⟨-, x, rfl, hx⟩ := table_of_ofRow_any hany
  rw [hclash x (mem_rowsOf.mpr hr)] at hx
  cases hx

/-- What the mail server answers next. -/
def World.nextMail (w : World) : Except Exc Unit := w.mailOutcome w.mails.length

theorem ends_sendMail {recipient : String} {content : MailContent} {g : Unit → Db α} :
    (sendMail recipient content >>= g).Ends respond s Φ ↔
      match s.world.nextMail with
      | .ok () => (g ()).Ends respond
          { s with world := (respond (.sendMail recipient content) s.world).2 } Φ
      | .error e => Φ (.error e)
          { s with world := (respond (.sendMail recipient content) s.world).2 } := by
  have hrun : (sendMail recipient content >>= g).Ends respond s Φ ↔
      (orRaise s.world.nextMail >>= g).Ends respond
        { s with world := (respond (.sendMail recipient content) s.world).2 } Φ := Iff.rfl
  rw [hrun]
  cases s.world.nextMail with
  | ok a => exact Iff.rfl
  | error e => exact Iff.rfl

end Statements

/-! ## What services do beside their writes -/

section Services

variable {s : Session Row World}

theorem ends_recordEventOrFail {α : Type} {Φ : Except Exc α → Session Row World → Prop}
    (hn : Numbered s.nextId s.view) {action resourceType : String}
    {actorUserId organizationId resourceId : Option UUID} {g : Unit → Db α}
    (hg : ∀ s', (g ()).Ends respond s' Φ) :
    (AuditService.recordEventOrFail action actorUserId organizationId resourceType resourceId >>= g).Ends
      respond s Φ := by
  unfold AuditService.recordEventOrFail
  simp only [bind_assoc]
  refine ends_uuid4.mpr (ends_now.mpr ((ends_insertNew ?_ fun _ _ => rfl).mpr (hg _)))
  exact fun r hr => Nat.ne_of_lt (hn r hr)

theorem ends_addMember {α : Type} {Φ : Except Exc α → Session Row World → Prop}
    (hn : Numbered s.nextId s.view) {organizationId userId : UUID} {role : OrgRole}
    (hm : ∀ m ∈ rowsOf OrganizationMember s.view, memberOf organizationId userId m = false)
    {g : OrganizationMember → Db α}
    (hg : ∀ m s', Numbered s'.nextId s'.view → (g m).Ends respond s' Φ) :
    (OrganizationRepository.addMember organizationId userId role >>= g).Ends respond s Φ := by
  unfold OrganizationRepository.addMember
  simp only [bind_assoc]
  refine ends_uuid4.mpr (ends_now.mpr (ends_now.mpr ((ends_insertNew ?_ ?_).mpr (hg _ _ ?_))))
  · exact fun r hr => Nat.ne_of_lt (hn r hr)
  · exact hm
  · rw [Session.view_append]
    exact (hn.mono (Nat.le_succ _)).store (Nat.lt_succ_self _)

/-- The onboarding row of a user is there, or it can be inserted. -/
theorem ends_getOrCreate {α : Type} {Φ : Except Exc α → Session Row World → Prop} {userId : UUID}
    {g : UserOnboarding → Db α} (hg : ∀ o s', o ∈ rowsOf UserOnboarding s'.view → o.userId = userId →
      (g o).Ends respond s' Φ) :
    (UserOnboardingRepository.getOrCreate userId >>= g).Ends respond s Φ := by
  unfold UserOnboardingRepository.getOrCreate UserOnboardingRepository.getForUser
  rw [bind_assoc]
  have hunique : ∀ o ∈ rowsOf UserOnboarding s.view, ∀ o' ∈ rowsOf UserOnboarding s.view,
      decide (o.userId = userId) = true → decide (o'.userId = userId) = true → o = o' :=
    fun o ho o' ho' h h' => entity_ext ho ho'
      ((of_decide_eq_true h).trans (of_decide_eq_true h').symm)
  refine ends_selectUnique hunique fun found hfound => ?_
  cases found with
  | some o => exact hg o s hfound.1 (of_decide_eq_true hfound.2)
  | none =>
    simp only [bind_assoc]
    refine (ends_insertOf (clashes_eq_false fun r hr hk => ?_)).mpr
      (hg _ _ (mem_rowsOf.mpr (mem_view_append s _)) rfl)
    obtain ⟨htable, hid⟩ := Key.mk.inj hk
    cases r with
    | userOnboarding o => exact hfound o (mem_rowsOf.mpr hr) (decide_eq_true hid)
    | _ => cases htable

/-- **An onboarding flag** is marked. -/
theorem ends_tryMarkFlag {α : Type} {Φ : Except Exc α → Session Row World → Prop} {userId : UUID}
    {get : UserOnboarding → Bool} {set : UserOnboarding → UserOnboarding}
    {hset : ∀ o, Entity.id (set o) = Entity.id o} {g : Unit → Db α}
    (hg : ∀ s', (g ()).Ends respond s' Φ) :
    (OnboardingService.tryMarkFlag userId get set hset >>= g).Ends respond s Φ := by
  have hmark : (OnboardingService.markFlag userId get set hset).Ends respond s
      fun r _ => r = .ok () := by
    refine ends_getOrCreate fun o s' ho hid => ?_
    split
    · rfl
    · refine Prog.ends_bind.mpr ((ends_update userId set hset).mono fun r s'' h => ?_)
      obtain ⟨o', -, -, rfl, -⟩ | ⟨hnone, -⟩ := h
      · rfl
      · exact absurd hid (hnone o ho)
  refine Prog.ends_bind.mpr (Prog.ends_tryCatch.mpr (hmark.mono fun r s' hr => ?_))
  rw [hr]
  exact hg s'

end Services

end DevOps
