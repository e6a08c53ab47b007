import DevOpsAssistant.Accounts.Usernames
import DevOpsAssistant.Specs.Histories
import DevOpsAssistant.Specs.Outcomes

/-!
# Checks and the constraints they stand for

A registration looks for a conflict before it writes. The constraints of the tables are stricter: it
looks for the address as it is given, and stores it in lower case.

* `Fits`: the lengths of the columns; `Handled`: an outcome without a violation.
* `Sound`: what the constraints of the database guarantee.
* **`register_handled_iff`**: when a registration is handled.
-/

namespace DevOps

open Txn

/-! ## Constraints -/

/-- The row fits into the columns of `users` and `organizations`. -/
def Fits : Row → Prop
  | .user u => u.email.length ≤ 255 ∧ u.username.length ≤ 100 ∧ u.hashedPassword.length ≤ 255
  | .organization o => o.name.length ≤ 200 ∧ o.slug.length ≤ 100
  | _ => True

/-- The application errors that report a conflict or refuse the request. -/
def Exc.reports (e : Exc) : Bool :=
  e.isA .conflict || e.isA .validation || e.isA .forbidden || e.isA .notFound

/-- The rows a session has written fit. -/
def LogFits (s : Session Row World) : Prop := ∀ r, .store r ∈ s.log → Fits r

/-- The operation has returned or raised an error that reports, and what it has written fits. -/
def Handled {α : Type} (r : Except Exc α) (s : Session Row World) : Prop :=
  (∀ e, r = .error e → e.reports = true) ∧ LogFits s

/-- Writes that fit. -/
def fitRules : Rules := ⟨Fits, fun _ r' => Fits r', fun _ => True, False⟩

theorem logFits_exec {α : Type} {P : α → Prop} {p : Db α} (hp : p.Only (Writes fitRules) P)
    {s : Session Row World} (h : LogFits s) : LogFits (p.exec respond s).2 := by
  refine (hp.exec_inv respond LogFits (fun p f s' hpf h r hr => ?_) (fun r s' hr h _ r' hr' => ?_)
    (fun _ h => h) (fun _ _ _ h => h) (fun _ hc => hc.elim) (fun _ hc => hc.elim) h).1
  · rcases List.mem_append.mp hr with hr | hr
    · exact h r hr
    · obtain ⟨x, hx, hlog⟩ := List.mem_flatMap.mp hr
      have hpx := hpf x (List.mem_filter.mp hx).2
      cases hf : f x with
      | keep => rw [hf] at hlog; cases hlog
      | store x' same =>
        rw [hf] at hlog hpx
        cases List.mem_singleton.mp hlog
        exact hpx
      | remove => rw [hf] at hlog; cases List.mem_singleton.mp hlog
  · rcases List.mem_append.mp hr' with hr' | hr'
    · exact h r' hr'
    · cases List.mem_singleton.mp hr'
      exact hr

/-- A write stays in the log of its transaction. -/
theorem mem_log_exec {α : Type} {P : α → Prop} {p : Db α} (hp : p.Only (Writes bodyRules) P)
    {s : Session Row World} {w : Write Row Key} (h : w ∈ s.log) : w ∈ (p.exec respond s).2.log :=
  (hp.exec_inv respond (fun s' => w ∈ s'.log) (fun _ _ _ _ h => List.mem_append_left _ h)
    (fun _ _ _ h _ => List.mem_append_left _ h) (fun _ h => h) (fun _ _ _ h => h)
    (fun _ hc => hc.elim) (fun _ hc => hc.elim) h).1

/-- What the constraints of the database guarantee of every state, and that what has not been drawn is
used nowhere. -/
structure Sound (env : Env) (s : State) : Prop where
  emails : ∀ u ∈ rowsOf User s.committed, ∀ v ∈ rowsOf User s.committed, u.email = v.email → u = v
  usernames : ∀ u ∈ rowsOf User s.committed, ∀ v ∈ rowsOf User s.committed,
    u.username = v.username → u = v
  slugs : ∀ o ∈ rowsOf Organization s.committed, ∀ o' ∈ rowsOf Organization s.committed,
    o.slug = o'.slug → o = o'
  members : ∀ m ∈ rowsOf OrganizationMember s.committed,
    ∀ m' ∈ rowsOf OrganizationMember s.committed,
      m.organizationId = m'.organizationId → m.userId = m'.userId → m = m'
  fits : ∀ r ∈ s.committed.rows, Fits r
  numbered : Numbered s.nextId s.committed
  memberships : ∀ m ∈ rowsOf OrganizationMember s.committed, m.organizationId < s.nextId
  tokens : ∀ t ∈ rowsOf EmailVerificationToken s.committed, t.userId < s.nextId ∧
    ∀ n, s.nextId ≤ n → t.tokenHash ≠ env.hmac (.secure n)

/-- What the services rely on of the libraries: a stripped text is not longer, and a password hash has at
most 255 characters. -/
structure Libraries (env : Env) : Prop where
  strip : ∀ text, (env.strip text).length ≤ text.length
  bcryptHash : ∀ password salt, (env.bcryptHash password salt).length ≤ 255

section Registration

variable {env : Env} {s : State}

/-! ## Registration -/

/-- A registration is refused before a user is stored. -/
def RefusesUser (db : Database) (payload : RegisterRequest env) : Prop :=
  passwordErrors env payload.password payload.username payload.email ≠ [] ∨
    ∃ u ∈ rowsOf User db, u.email = payload.email ∨ u.username = payload.username

/-- The verification mail of a registration, if there is one, raises nothing else. -/
def MailReports (env : Env) (w : World) : Prop :=
  env.settings.emailVerificationRequired = true → ∀ e, w.nextMail = .error e → e.reports = true

/-- The registration is refused, or no user has its address in lower case and the verification mail is
accepted. -/
def RegistersCleanly (s : State) (payload : RegisterRequest env) : Prop :=
  RefusesUser s.committed payload ∨
    ((∀ u ∈ rowsOf User s.committed, u.email ≠ env.lower payload.email) ∧ MailReports env s.world)

/-- **The verification mail** of a user who has no tokens yet ends as the mail server answers. -/
theorem ends_verificationEmail {u : User} {s : Session Row World} (hu : u.emailVerifiedAt = none)
    (hn : Numbered s.nextId s.view)
    (htokens : ∀ t ∈ rowsOf EmailVerificationToken s.view, t.userId ≠ u.id ∧
      ∀ n, s.nextId ≤ n → t.tokenHash ≠ env.hmac (.secure n)) :
    (AuthService.sendVerificationEmail env u).Ends respond s fun r _ => r = s.world.nextMail := by
  have hnone : (rowsOf EmailVerificationToken { s with world := s.world.tick }.view).filter (fun t =>
      decide (MailedToken.userId t = u.id) && (MailedToken.usedAt t).isNone) = [] := by
    refine List.filter_eq_nil_iff.mpr fun t ht h => (htokens t ht).1 ?_
    exact of_decide_eq_true (Bool.and_eq_true_iff.mp h).1
  unfold AuthService.sendVerificationEmail
  rw [if_neg (by simp [hu])]
  unfold EmailVerificationTokenRepository.invalidateUnusedForUser MailedToken.invalidateUnusedForUser
    EmailVerificationTokenRepository.create generateSecureToken
  simp only [bind_assoc, pure_bind]
  refine ends_now.mpr (ends_selectOf.mpr ?_)
  rw [hnone]
  simp only [forEach, pure_bind]
  refine ends_uuid4.mpr (ends_now.mpr (ends_uuid4.mpr (ends_now.mpr ((ends_insertNew ?_ ?_).mpr ?_))))
  · exact fun r hr => Nat.ne_of_lt (Nat.lt_succ_of_lt (hn r hr))
  · exact fun t ht => decide_eq_false ((htokens t ht).2 _ (Nat.le_refl _))
  refine ends_sendMail.mpr ?_
  split
  · next hmail =>
    rw [← bind_pure (AuditService.recordEvent _ _ _ _ _)]
    exact ends_recordEvent fun _ _ => hmail.symm
  · next e hmail => exact hmail.symm

/-- How a registration ends. -/
inductive RegisterEnd (env : Env) (s : State) (payload : RegisterRequest env) :
    Except Exc UserResponse → Prop where
  | refused {e : Exc} (refuses : RefusesUser s.committed payload) (reports : e.reports = true) :
      RegisterEnd env s payload (.error e)
  | violates (accepts : ¬ RefusesUser s.committed payload)
      (taken : ∃ u ∈ rowsOf User s.committed, u.email = env.lower payload.email) :
      RegisterEnd env s payload (.error .integrityError)
  | mailed {r : Except Exc UserResponse} (accepts : ¬ RefusesUser s.committed payload)
      (free : ∀ u ∈ rowsOf User s.committed, u.email ≠ env.lower payload.email)
      (mail : (∃ a, r = .ok a) ∧ (env.settings.emailVerificationRequired = true →
          s.world.nextMail = .ok ()) ∨
        ∃ e, r = .error e ∧ env.settings.emailVerificationRequired = true ∧
          s.world.nextMail = .error e) :
      RegisterEnd env s payload r

/-- The last part of a registration. -/
theorem ends_mailing {u : User} {s : Session Row World} (hu : u.emailVerifiedAt = none)
    (hn : Numbered s.nextId s.view) (hfits : LogFits s)
    (htokens : ∀ t ∈ rowsOf EmailVerificationToken s.view, t.userId ≠ u.id ∧
      ∀ n, s.nextId ≤ n → t.tokenHash ≠ env.hmac (.secure n)) :
    Prog.Ends respond (do
        if env.settings.emailVerificationRequired then AuthService.sendVerificationEmail env u
        return UserResponse.ofUser u : Db UserResponse) s fun r s' =>
      ((∃ a, r = .ok a) ∧ (env.settings.emailVerificationRequired = true →
          s.world.nextMail = .ok ()) ∨
        ∃ e, r = .error e ∧ env.settings.emailVerificationRequired = true ∧
          s.world.nextMail = .error e) ∧ LogFits s' := by
  by_cases hreq : env.settings.emailVerificationRequired = true
  · have hmail : (AuthService.sendVerificationEmail env u).Ends respond s fun r s' =>
        r = s.world.nextMail ∧ LogFits s' :=
      ⟨ends_verificationEmail hu hn htokens, logFits_exec (only_verificationEmail env
        (fun _ => trivial) (fun _ _ => trivial) (fun _ _ => trivial) u) hfits⟩
    rw [if_pos hreq]
    refine Prog.Ends.bind hmail (fun _ s' h => ?_) fun e s' h => ?_
    · exact ⟨.inl ⟨⟨_, rfl⟩, fun _ => h.1.symm⟩, h.2⟩
    · exact ⟨.inr ⟨e, rfl, hreq, h.1.symm⟩, h.2⟩
  · rw [if_neg hreq]
    exact ⟨.inl ⟨⟨_, rfl⟩, fun h => absurd h hreq⟩, hfits⟩

/-- **A registration** is refused, violates a constraint, or stores a user that fits and mails. -/
theorem ends_registration (h : Sound env s) (hl : Libraries env) (payload : RegisterRequest env) :
    (AuthService.register env payload.email payload.username payload.password).Ends respond s.session
      fun r s' => RegisterEnd env s payload r ∧ LogFits s' := by
  have hempty : LogFits s.session := fun _ h => nomatch h
  unfold AuthService.register
  by_cases hvalid : passwordErrors env payload.password payload.username payload.email = []
  · rw [validatePassword, if_pos hvalid, pure_bind]
    unfold UserRepository.getByEmail UserRepository.getByUsername
    refine ends_selectUnique (fun u hu v hv h₁ h₂ => h.emails u hu v hv
      ((of_decide_eq_true h₁).trans (of_decide_eq_true h₂).symm)) fun byEmail hemail => ?_
    cases byEmail with
    | some u =>
      exact ⟨.refused (.inr ⟨u, hemail.1, .inl (of_decide_eq_true hemail.2)⟩) rfl, hempty⟩
    | none =>
      simp only [Option.isSome_none, Bool.false_eq_true, if_false]
      refine ends_selectUnique (fun u hu v hv h₁ h₂ => h.usernames u hu v hv
        ((of_decide_eq_true h₁).trans (of_decide_eq_true h₂).symm)) fun byUsername hname => ?_
      cases byUsername with
      | some u =>
        exact ⟨.refused (.inr ⟨u, hname.1, .inr (of_decide_eq_true hname.2)⟩) rfl, hempty⟩
      | none =>
        simp only [Option.isSome_none, Bool.false_eq_true, if_false]
        have haccepts : ¬ RefusesUser s.committed payload := by
          rintro (hne | ⟨u, hu, he | hn⟩)
          · exact hne hvalid
          · exact hemail u hu (decide_eq_true he)
          · exact hname u hu (decide_eq_true hn)
        unfold hashPassword UserRepository.create
        simp only [bind_assoc, pure_bind]
        refine ends_uuid4.mpr (ends_uuid4.mpr ?_)
        by_cases htaken : ∃ u ∈ rowsOf User s.committed, u.email = env.lower payload.email
        · refine Prog.ends_bind.mpr ((ends_insert _ _).mono fun r s' hr => ?_)
          obtain ⟨-, -, hfree⟩ | ⟨rfl, rfl⟩ := hr
          · obtain ⟨u, hu, hue⟩ := htaken
            have := (hfree u hu).2
            simp [hue] at this
          · exact ⟨.violates haccepts htaken, hempty⟩
        · have hfree : ∀ u ∈ rowsOf User s.committed, u.email ≠ env.lower payload.email :=
            fun u hu hue => htaken ⟨u, hu, hue⟩
          refine (ends_insertNew ?_ ?_).mpr ?_
          · exact fun r hr => Nat.ne_of_lt (Nat.lt_succ_of_lt (h.numbered r hr))
          · exact fun u hu => by simp [hfree u hu]; exact fun hn => hname u hu (decide_eq_true hn)
          refine (ends_mailing rfl ?_ ?_ fun t ht => ?_).mono fun r s' hr =>
            ⟨.mailed haccepts hfree hr.1, hr.2⟩
          · rw [Session.view_append]
            exact (h.numbered.mono (Nat.le_add_right _ 2)).store (Nat.lt_succ_self (s.nextId + 1))
          · intro r hr
            cases List.mem_singleton.mp hr
            exact ⟨Nat.le_succ_of_le payload.emailLength, payload.usernameLength.2,
              hl.bcryptHash _ _⟩
          · rw [Session.view_append, Table.apply_cons, Table.apply_nil,
              mem_rowsOf_store_other (by decide)] at ht
            obtain ⟨hlt, hhash⟩ := h.tokens t ht
            exact ⟨Nat.ne_of_lt (Nat.lt_succ_of_lt hlt), fun n hn => hhash n (Nat.le_of_succ_le
              (Nat.le_of_succ_le hn))⟩
  · rw [validatePassword, if_neg hvalid]
    exact ⟨.refused (.inl hvalid) rfl, hempty⟩

/-- **Registrations are handled** unless the address is taken in lower case, or the mail server fails. -/
theorem register_handled_iff (h : Sound env s) (hl : Libraries env) (payload : RegisterRequest env) :
    (AuthService.register env payload.email payload.username payload.password).Ends respond s.session
      Handled ↔ RegistersCleanly s payload := by
  obtain ⟨hend, hfits⟩ := ends_registration h hl payload
  unfold Prog.Ends Handled
  revert hend
  generalize (Prog.exec respond _ s.session).1 = r
  intro hend
  cases hend with
  | refused refuses reports =>
    exact ⟨fun _ => .inl refuses, fun _ => ⟨fun e he => by cases he; exact reports, hfits⟩⟩
  | violates accepts taken =>
    refine ⟨fun hh => ?_, ?_⟩
    · exact absurd (hh.1 _ rfl) (by decide)
    · rintro (hrefuses | ⟨hfree, -⟩)
      · exact absurd hrefuses accepts
      · obtain ⟨u, hu, hue⟩ := taken
        exact absurd hue (hfree u hu)
  | mailed accepts free mail =>
    constructor
    · refine fun hh => .inr ⟨free, fun hreq e he => ?_⟩
      rcases mail with ⟨-, hok⟩ | ⟨e', hr, -, he'⟩
      · rw [hok hreq] at he
        cases he
      · rw [he'] at he
        cases he
        exact hh.1 e hr
    · rintro (hrefuses | ⟨-, hmail⟩)
      · exact absurd hrefuses accepts
      · refine ⟨fun e he => ?_, hfits⟩
        rcases mail with ⟨⟨a, hr⟩, -⟩ | ⟨e', hr, hreq, he'⟩
        · rw [hr] at he
          cases he
        · rw [hr] at he
          cases he
          exact hmail hreq e he'

end Registration

end DevOps
