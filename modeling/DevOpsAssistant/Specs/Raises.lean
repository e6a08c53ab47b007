import DevOpsAssistant.Specs.Accounts
import DevOpsAssistant.Txn.Raises

/-!
# What the services raise

One lemma for each statement and each function of the services: under which condition on `P` all its
exceptions satisfy `P`.

* `raises_insertOf`, `raises_updateById`, …: the statements that can raise, and those that cannot.
* `raises_recordEvent`: a best-effort audit line raises nothing.
* `OtherError`: an exception that is not an `UnauthorizedError`.
* `raises_issueTokenPair`, **`raises_rotate`**: to issue tokens raises no `UnauthorizedError`.
-/

namespace DevOps

open Txn

variable {φ : (q : Query) → Answer q → Prop} {P : Exc → Prop}

/-! ## Statements -/

section Statements

variable {T : Type} [Entity T]

theorem raises_now : now.Raises φ P := fun _ _ => trivial

/-- What follows a question, for each answer that can be given. -/
theorem raises_query {α : Type} {q : Query} {g : Answer q → Db α}
    (h : ∀ a, φ q a → (g a).Raises φ P) : (Prog.query q >>= g).Raises φ P := h

theorem raises_uuid4 : uuid4.Raises φ P := fun _ => trivial

theorem raises_selectOf (p : T → Bool) : (selectOf p).Raises φ P := fun _ => trivial

theorem raises_lockOf (p : T → Bool) : (lockOf p).Raises φ P := fun _ => trivial

theorem raises_updateOf (p : T → Bool) (f : T → T) (hf : ∀ t, Entity.id (f t) = Entity.id t) :
    (updateOf p f hf).Raises φ P := fun _ => trivial

theorem raises_insertOf (h : P .integrityError) (clash : T → Bool) (t : T) :
    (insertOf clash t).Raises φ P := by
  refine Prog.Raises.bind (fun _ => trivial) fun ok => ?_
  cases ok with
  | true => trivial
  | false => exact h

omit [Entity T] in
theorem raises_scalarOneOrNone (h : P .multipleResultsFound) (ts : List T) :
    (scalarOneOrNone ts).Raises φ P := by
  match ts with
  | [] | [_] => trivial
  | _ :: _ :: _ => exact h

theorem raises_selectOne (h : P .multipleResultsFound) (p : T → Bool) :
    (selectOf p >>= scalarOneOrNone).Raises φ P :=
  (raises_selectOf p).bind fun ts => raises_scalarOneOrNone h ts

theorem raises_updateById (h : P (.other "StaleDataError")) (id : UUID) (f : T → T)
    (hf : ∀ t, Entity.id (f t) = Entity.id t) : (updateById id f hf).Raises φ P := by
  refine (raises_updateOf _ f hf).bind fun ts => ?_
  match ts with
  | [_] => trivial
  | [] | _ :: _ :: _ => exact h

theorem raises_orRaise {α : Type} {r : Except Exc α} (h : ∀ e, r = .error e → P e) :
    (orRaise r).Raises φ P := by
  cases r with
  | ok a => trivial
  | error e => exact h e rfl

end Statements

/-- A best-effort line of the audit trail raises nothing. -/
theorem raises_recordEvent (action : String) (actorUserId organizationId : Option UUID)
    (resourceType : String) (resourceId : Option UUID) :
    (AuditService.recordEvent action actorUserId organizationId resourceType resourceId).Raises
      φ P :=
  raises_uuid4.bind fun _ => raises_now.bind fun _ =>
    (raises_insertOf (P := fun _ => True) trivial _ _).tryCatch fun _ _ => trivial

/-! ## Tokens -/

/-- The exception is not an `UnauthorizedError`. -/
def OtherError (e : Exc) : Prop := e.isA .unauthorized = false

variable (env : Env)

open AuthService

theorem raises_hashPassword (password : String) : (hashPassword env password).Raises φ P :=
  raises_uuid4.bind fun _ => trivial

theorem raises_updateHashedPassword (userId : UUID) (hashedPassword : String) :
    (UserRepository.updateHashedPassword userId hashedPassword).Raises φ OtherError := by
  refine (raises_selectOne (P := OtherError) rfl fun u : User => u.id = userId).bind fun user => ?_
  cases user with
  | none => trivial
  | some user => exact (raises_updateById (P := OtherError) rfl _ _ _).bind fun _ => trivial

theorem raises_createTokenInFamily (user : User) (tokenFamilyId : UUID) :
    (createTokenInFamily env user tokenFamilyId).Raises φ OtherError := by
  refine raises_uuid4.bind fun jti => Prog.Raises.bind ?_ fun raw => raises_now.bind fun t => ?_
  · exact raises_now.bind fun _ => trivial
  · refine Prog.Raises.bind ?_ fun _ => trivial
    exact raises_uuid4.bind fun _ => raises_now.bind fun _ =>
      (raises_insertOf (P := OtherError) rfl _ _).bind fun _ => trivial

theorem raises_createRefreshTokenRecord (user : User) (familyId : Option UUID) :
    (createRefreshTokenRecord env user familyId).Raises φ OtherError := by
  cases familyId with
  | some f => exact raises_createTokenInFamily env user f
  | none => exact raises_uuid4.bind fun f => raises_createTokenInFamily env user f

theorem raises_buildTokenPair (user : User) (refreshToken : RawToken) :
    (buildTokenPair env user refreshToken).Raises φ P :=
  Prog.Raises.bind (raises_now.bind fun _ => raises_uuid4.bind fun _ => trivial) fun _ => trivial

theorem raises_issueTokenPair (user : User) : (issueTokenPair env user).Raises φ OtherError :=
  (raises_createRefreshTokenRecord env user none).bind fun _ =>
    (raises_buildTokenPair env user _).bind fun _ =>
      (raises_recordEvent _ _ _ _ _).bind fun _ => trivial

/-- **To rotate a token raises no `UnauthorizedError`.** -/
theorem raises_rotate (user : User) (tokenRecord : RefreshToken) (t : Time) :
    (rotate env user tokenRecord t).Raises φ OtherError :=
  (raises_updateById (P := OtherError) rfl _ _ _).bind fun _ =>
    (raises_createRefreshTokenRecord env user _).bind fun _ =>
      (raises_updateById (P := OtherError) rfl _ _ _).bind fun _ =>
        (raises_buildTokenPair env user _).bind fun _ =>
          (raises_recordEvent _ _ _ _ _).bind fun _ => trivial

end DevOps
