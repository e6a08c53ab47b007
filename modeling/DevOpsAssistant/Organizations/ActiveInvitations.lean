import DevOpsAssistant.Organizations.Owners
import DevOpsAssistant.Organizations.Serial

/-!
# One active invitation for each address

An invitation is active while it is pending, not revoked and not expired. `create` looks for an active
one first; `resend` moves the expiry of the one it is given.

* `OneActive`: for each organization and address, at any later time.
* `ResendsAlone`: no other invitation of the address is active when one is sent again.
* **`oneActive_of_resendsAlone`**; **`resend_gives_two_active`**: a run without it.
-/

namespace DevOps

open Txn Discipline

/-- From now on, each organization has at most one active invitation for each address. -/
def OneActive (s : State) : Prop :=
  ∀ o email t, s.world.time ≤ t →
    ((rowsOf OrganizationInvitation s.committed).filter (activePending o email t)).length ≤ 1

/-- A pending invitation is sent again only if no other one of its address is active. -/
def ResendsAlone (s : State) (r : BackendRequest) : Prop :=
  ∀ access o id, r = .organization (.resendInvitation access o id) →
    ∀ i ∈ rowsOf OrganizationInvitation s.committed, invitationOf id o i = true →
      i.status = .pending → ∀ j ∈ rowsOf OrganizationInvitation s.committed,
        activePending o i.email s.world.time j = true → j.id = id

section Active

variable {o : UUID} {email : String} {t t' : Time} {i j : OrganizationInvitation}

/-- What is active later is active now. -/
theorem activePending_of_le (h : t ≤ t') (ha : activePending o email t' i = true) :
    activePending o email t i = true := by
  rw [activePending_eq] at ha ⊢
  obtain ⟨ho, he, hp, hx, hr⟩ := ha
  exact ⟨ho, he, hp, Nat.lt_of_le_of_lt h hx, hr⟩

end Active

/-- Two active invitations of one address are one. -/
def ActiveUnique (s : State) : Prop :=
  ∀ o email, ∀ i ∈ rowsOf OrganizationInvitation s.committed,
    ∀ j ∈ rowsOf OrganizationInvitation s.committed,
      activePending o email s.world.time i = true → activePending o email s.world.time j = true →
        i.id = j.id

theorem ActiveUnique.oneActive {s : State} (hu : ActiveUnique s) : OneActive s := by
  intro o email t ht
  by_contra hlt
  obtain ⟨i, j, hi, hpi, hj, hpj, hne⟩ := exists_two_of_lt (Nat.not_le.mp hlt)
  exact hne (hu o email i hi j hj (activePending_of_le ht hpi) (activePending_of_le ht hpj))

/-! ## Steps -/

section Steps

variable {env : Env} {s s' : State} {r : BackendRequest} {h : Told} {ids : List ℕ}

/-- One invitation has come or changed, and whatever is active besides it is not of its address. -/
theorem ActiveUnique.replace (hu : ActiveUnique s) (ht : s.world.time ≤ s'.world.time)
    {new : OrganizationInvitation}
    (rows : ∀ j, j ∈ rowsOf OrganizationInvitation s'.committed ↔
      j = new ∨ (j ∈ rowsOf OrganizationInvitation s.committed ∧ j.id ≠ new.id))
    (hnew : ∀ o email, activePending o email s'.world.time new = true →
      ∀ j ∈ rowsOf OrganizationInvitation s.committed,
        activePending o email s'.world.time j = true → j.id = new.id) : ActiveUnique s' := by
  intro o email i hi j hj hai haj
  rcases (rows i).mp hi with rfl | ⟨hi, -⟩ <;> rcases (rows j).mp hj with rfl | ⟨hj, -⟩
  · rfl
  · exact (hnew o email hai j hj haj).symm
  · exact hnew o email haj i hi hai
  · exact hu o email i hi j hj (activePending_of_le ht hai) (activePending_of_le ht haj)

/-- **A request** that sends invitations again only while no other one is active keeps them unique. -/
theorem ActiveUnique.step (x : StepOf env r s s' h ids) (hg : ResendsAlone s r)
    (hu : ActiveUnique s) : ActiveUnique s' := by
  cases x.invitations with
  | same rows =>
    intro o email i hi j hj hai haj
    exact hu o email i ((rows i).mp hi) j ((rows j).mp hj) (activePending_of_le x.time hai)
      (activePending_of_le x.time haj)
  | @invited _ _ _ _ new t request acts assign fresh asked missed rows =>
    refine hu.replace x.time rows fun o email hn j hj haj => ?_
    obtain ⟨rfl, rfl, -⟩ := activePending_eq.mp hn
    -- `create` has found none at a time between
    have := x.missed missed j hj
    rw [activePending_of_le (x.asked t asked).2 haj] at this
    cases this
  | @resent _ o i _ _ request saw mem rows =>
    refine hu.replace x.time rows fun o' email hn j hj haj => ?_
    obtain ⟨-, rfl, -⟩ := activePending_eq.mp hn
    obtain ⟨i₀, hs, hp⟩ := saw
    obtain ⟨h₀, hof⟩ := x.saw hs
    have hid : i₀.id = i.id := (invitationOf_eq.mp hof).1
    obtain rfl := entity_ext h₀ mem hid
    refine hg _ o _ request i₀ h₀ hof hp j hj ?_
    obtain ⟨rfl, -⟩ := activePending_eq.mp hn
    rw [← (invitationOf_eq.mp hof).2]
    exact activePending_of_le x.time haj
  | revoked request saw mem rows =>
    refine hu.replace x.time rows fun o email hn => ?_
    obtain ⟨-, -, hp, -⟩ := activePending_eq.mp hn
    cases hp
  | answered presents mem opened closed rows =>
    refine hu.replace x.time rows fun o email hn => ?_
    obtain ⟨-, -, hp, -⟩ := activePending_eq.mp hn
    exact absurd hp closed

end Steps

/-! ## Runs -/

variable {env : Env} {s₀ : State}

/-- **At most one active invitation** for each organization and address, in every serial run of a new
deployment in which no invitation is sent again while another one of its address is active. -/
theorem oneActive_of_resendsAlone (h₀ : s₀.committed = .empty) (rs : List BackendRequest)
    (hg : Along ResendsAlone env s₀ rs) : OneActive (served env s₀ rs) := by
  have hstart : ActiveUnique s₀ := by
    intro o email i hi
    rw [h₀] at hi
    cases hi
  exact (served_induction_along h₀ hstart (fun _ _ _ _ _ hg hu x => hu.step x hg) rs hg).oneActive

/-! ## Two runs -/

/-- A new deployment whose clock jumps by two hundred hours at its twelfth reading. -/
def jumpingClock : State :=
  ⟨.empty, 0, { World.trial 0 with ticks := fun n => if n = 11 then hours 200 else 1 }⟩

/-- An access token of the user 1 that outlasts the jump. -/
def longAccess : RawToken := .jwt ⟨some 1, 0, .access, 1000000, none⟩

/-- The user 1 creates the organization 2, and invites an address: the invitation is 6. -/
def oneInvited : List BackendRequest :=
  [.account (.register "a" "a" "abababababab"),
    .organization (.create longAccess "o" none),
    .organization (.createInvitation longAccess 2 "b" .member)]

/-- The first invitation expires, the address is invited once more, and the first invitation is sent
again. -/
theorem resend_gives_two_active : ¬ ∀ (env : Env) (s₀ : State) (rs : List BackendRequest),
    s₀.committed = .empty → OneActive (served env s₀ rs) := by
  intro hall
  have := hall .trial jumpingClock (oneInvited ++
    [.organization (.createInvitation longAccess 2 "b" .member),
      .organization (.resendInvitation longAccess 2 6)]) rfl 2 "b" _
    (Nat.le_refl _)
  revert this
  decide

/-- The invitation is sent again while it is the only one. -/
theorem oneActive_of_resendsAlone_trial :
    ((rowsOf OrganizationInvitation (served .trial jumpingClock (oneInvited ++
      [.organization (.resendInvitation longAccess 2 6)])).committed).map
        (·.id) = [6]) ∧
    OneActive (served .trial jumpingClock (oneInvited ++
      [.organization (.resendInvitation longAccess 2 6)])) := by
  refine ⟨by decide, oneActive_of_resendsAlone rfl _ ?_⟩
  refine .cons (fun _ _ _ hr => nomatch hr) (.cons (fun _ _ _ hr => nomatch hr)
    (.cons (fun _ _ _ hr => nomatch hr) (.cons ?_ .nil)))
  rintro _ _ _ ⟨rfl, rfl⟩
  intro i hi _ _ j hj _
  have hone : ∀ j ∈ rowsOf OrganizationInvitation (served .trial jumpingClock oneInvited).committed,
      j.id = 6 := by decide
  exact hone j hj

end DevOps
