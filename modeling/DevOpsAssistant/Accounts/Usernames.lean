import DevOpsAssistant.Api.Accounts
import DevOpsAssistant.Specs.Generators
import DevOpsAssistant.Specs.Organizations

/-!
# The names of users

Profiles are given normalized names that are not reserved; registrations store the name as it is. Both
compare it with the names that are stored, letter by letter.

* `Namespaced`: no two users have names that normalize to one, and no name is reserved.
* `ends_register`, `ends_updateProfile`: what the two requests do to the names.
-/

namespace DevOps

open Txn

/-- The names of the users are different and not reserved, under normalization. -/
structure Namespaced (db : Database) : Prop where
  distinct : ∀ u ∈ rowsOf User db, ∀ v ∈ rowsOf User db,
    normalizeUsername u.username = normalizeUsername v.username → u.id = v.id
  unreserved : ∀ u ∈ rowsOf User db, normalizeUsername u.username ∉ RESERVED_USERNAMES

section Steps

variable (env : Env) {s : Session Row World}

-- unification would otherwise evaluate the names
attribute [local irreducible] normalizeUsername Text.stripped

/-! ## Registration -/

/-- What a registration leaves: one more user, whose name no other has. -/
structure Registers (email username : String) (db db' : Database) (u : User) : Prop where
  email : u.email = env.lower email
  username : u.username = username
  users : ∀ x, x ∈ rowsOf User db' ↔ x = u ∨ x ∈ rowsOf User db
  fresh : ∀ x ∈ rowsOf User db, x.email ≠ u.email ∧ x.username ≠ u.username

theorem ends_createUser (email username hashedPassword : String) (role : UserRole) :
    (UserRepository.create env email username hashedPassword role).Ends respond s
      (Prog.onOk fun u s' => Registers env email username s.view s'.view u) := by
  refine ends_uuid4.mpr ?_
  simp only
  generalize hs' : ({ s with nextId := s.nextId + 1 } : Session Row World) = s'
  have hview : s'.view = s.view := by rw [← hs']; rfl
  refine Prog.Ends.bind (ends_insert _ _) (fun a s'' h => ?_) fun e _ _ a ha => by cases ha
  obtain ⟨-, rfl, hfresh⟩ | ⟨he, -⟩ := h
  · intro u hu
    cases hu
    rw [hview] at hfresh
    refine ⟨rfl, rfl, fun x => ?_, fun x hx => ?_⟩
    · rw [← hview]
      exact mem_rowsOf_append fun y hy => (hfresh y (hview ▸ hy)).1
    · have := (hfresh x hx).2
      simp only [Bool.or_eq_false_iff, decide_eq_false_iff_not] at this
      exact this
  · cases he

/-- **Registration.** -/
theorem ends_register (email username password : String) :
    (AuthService.register env email username password).Ends respond s
      (Prog.onOk fun _ s' => ∃ u, Registers env email username s.view s'.view u) := by
  have hvalid : (validatePassword env password username email).Ends respond s
      (unchanged s fun _ => True) := by
    unfold validatePassword
    split
    · exact ends_unchanged_pure trivial
    · exact ends_unchanged_throw
  have hone : ∀ {p : User → Bool} {g : Option User → Db UserResponse} {Φ},
      (∀ found, (g found).Ends respond s Φ) → (∀ e, Φ (.error e) s) →
      ((selectOf p >>= scalarOneOrNone) >>= g).Ends respond s Φ := by
    intro p g Φ hg he
    refine Prog.Ends.bind (ends_unchanged_selectOne p) (fun found s' h => ?_) fun e s' h => ?_
    · rw [h.1]
      exact hg found
    · rw [h.1]
      exact he e
  refine Prog.Ends.bind hvalid (fun _ s₁ h₁ => ?_) fun _ _ _ _ h => by cases h
  rw [h₁.1]
  refine hone (fun byEmail => ?_) fun _ _ h => by cases h
  split
  · exact fun _ h => by cases h
  refine hone (fun byUsername => ?_) fun _ _ h => by cases h
  split
  · exact fun _ h => by cases h
  refine ends_uuid4.mpr ?_
  simp only
  refine Prog.Ends.bind_ok (ends_createUser env _ _ _ _) fun u s₂ h₂ => ?_
  split
  · have hmail : (AuthService.sendVerificationEmail env u).Ends respond s₂
        (Prog.onOk fun _ s' => Unchanged (· = .users) s₂ s') :=
      fun _ _ => unchanged_of_only (only_verificationEmail env (fun _ h => by cases h)
        (fun _ _ h => by cases h) (fun _ _ h => by cases h) u) s₂
    refine Prog.Ends.bind_ok hmail fun _ s₃ h₃ => ?_
    intro _ _
    exact ⟨u, h₂.email, h₂.username, fun x => (h₃.mem rfl).trans (h₂.users x), h₂.fresh⟩
  · intro _ _
    exact ⟨u, h₂⟩

/-! ## Profiles -/

/-- What an update of a profile leaves: at most the user `id` has another name, one that is normalized
and that no other user has. -/
structure Renames (payload : UserProfileUpdateRequest) (id : UUID) (db db' : Database)
    (name : Option String) : Prop where
  users : ∀ x ∈ rowsOf User db', x ∈ rowsOf User db ∨ (x.id = id ∧
    ∃ y ∈ rowsOf User db, y.id = id ∧ x.username = name.getD y.username)
  normalized : ∀ n ∈ name, n ∉ RESERVED_USERNAMES ∧
    ∃ raw, payload.username = some (some raw) ∧ n = normalizeUsername raw
  fresh : ∀ n ∈ name, ∀ x ∈ rowsOf User db, x.id ≠ id → x.username ≠ n

theorem ends_validateUsername (value : String) : (validateUsername value).Ends respond s
    (unchanged s fun n => n = normalizeUsername value ∧ n ∉ RESERVED_USERNAMES) := by
  unfold validateUsername
  simp only
  split
  · exact ends_unchanged_throw
  split
  · exact ends_unchanged_throw
  split
  · exact ends_unchanged_throw
  · next h => exact ends_unchanged_pure ⟨rfl, h⟩

theorem ends_updatedUsername (user : User) (username : Option (Option String)) :
    (ProfileService.updatedUsername user username).Ends respond s (unchanged s fun name =>
      ∀ n ∈ name, n ∉ RESERVED_USERNAMES ∧
        ∃ raw, username = some (some raw) ∧ n = normalizeUsername raw) := by
  unfold ProfileService.updatedUsername
  split
  · exact ends_unchanged_pure fun _ h => by cases h
  · exact ends_unchanged_throw
  · next raw =>
    refine ends_unchanged_bind (ends_validateUsername raw) fun n hn => ?_
    refine ends_unchanged_bind (ends_unchanged_selectOne _) fun existing _ => ?_
    split
    · exact ends_unchanged_throw
    · exact ends_unchanged_pure fun n' h => by cases h; exact ⟨hn.2, raw, rfl, hn.1⟩

theorem ends_updatedField {validate : Option String → Db (Option String)}
    (h : ∀ v, (validate v).Ends respond s (unchanged s fun _ => True))
    (value : Option (Option String)) :
    (ProfileService.updatedField validate value).Ends respond s (unchanged s fun _ => True) := by
  cases value with
  | none => exact ends_unchanged_pure trivial
  | some v => exact ends_unchanged_bind (h v) fun _ _ => ends_unchanged_pure trivial

theorem ends_validateTimezone (value : Option String) :
    (validateTimezone env value).Ends respond s (unchanged s fun _ => True) := by
  cases value with
  | none => exact ends_unchanged_pure trivial
  | some v =>
    unfold validateTimezone
    simp only
    split
    · exact ends_unchanged_pure trivial
    split
    · exact ends_unchanged_throw
    · exact ends_unchanged_pure trivial

theorem ends_validateAvatarUrl (value : Option String) :
    (validateAvatarUrl env value).Ends respond s (unchanged s fun _ => True) := by
  cases value with
  | none => exact ends_unchanged_pure trivial
  | some v =>
    unfold validateAvatarUrl
    simp only
    split
    · exact ends_unchanged_pure trivial
    split
    · exact ends_unchanged_throw
    split
    · exact ends_unchanged_throw
    split
    · exact ends_unchanged_throw
    · exact ends_unchanged_pure trivial

theorem allowsSideEffects_besideUsers : AllowsSideEffects (outside (· = .users) False) where
  audit _ h := nomatch h
  insertOnboarding _ h := nomatch h
  updateOnboarding _ _ h := nomatch h

/-- The update of the row. -/
theorem ends_updateFields (userId : UUID) (fields : UserRepository.ProfileFields) :
    (UserRepository.updateProfile userId fields).Ends respond s (Prog.onOk fun found s' =>
      ∀ updated ∈ found, (∀ x ∈ rowsOf User s'.view, x ∈ rowsOf User s.view ∨ (x.id = userId ∧
        ∃ y ∈ rowsOf User s.view, y.id = userId ∧ x.username = fields.username.getD y.username)) ∧
      ∀ n ∈ fields.username, ∀ x ∈ rowsOf User s.view, x.id ≠ userId → x.username ≠ n) := by
  refine Prog.Ends.bind (ends_unchanged_selectOne _) (fun found s' h => ?_) fun _ _ _ _ h => nomatch h
  rw [h.1]
  cases found with
  | none => exact fun _ ha _ hu => by cases ha; cases hu
  | some _ =>
    refine Prog.Ends.bind (ends_updateUnique _ userId _ _) (fun updated s'' hr => ?_)
      fun _ _ _ _ h => nomatch h
    obtain ⟨y, hy, hid, -, rfl, hclash⟩ | ⟨-, he⟩ | ⟨-, he, -⟩ := hr
    · intro _ ha _ hu
      cases ha
      refine ⟨fun x hx => ?_, fun n hn x hx hne hname => ?_⟩
      · rcases mem_rowsOf_append_store.mp hx with rfl | ⟨hx, -⟩
        · exact .inr ⟨hid, y, hy, hid, rfl⟩
        · exact .inl hx
      · have := of_decide_eq_false (hclash x hx hne)
        exact this (by rw [hname]; exact hn)
    · cases he
    · cases he

/-- **An update of a profile.** -/
theorem ends_updateProfile (user : User) (payload : UserProfileUpdateRequest) :
    (ProfileService.updateProfile env user payload).Ends respond s (Prog.onOk fun _ s' =>
      ∃ name, Renames payload user.id s.view s'.view name) := by
  have hquiet : ∀ {α : Type} {p : Db α} {Φ : α → Prop}, p.Ends respond s (unchanged s Φ) →
      p.Ends respond s (Prog.onOk fun a s' => s' = s ∧ Φ a) :=
    fun h => h.mono fun _ _ h a ha => ⟨h.1, h.2 a ha⟩
  refine Prog.Ends.bind_ok (hquiet (ends_updatedUsername user _)) fun username s₁ h₁ => ?_
  obtain ⟨h₁, hname⟩ := h₁
  rw [h₁]
  refine Prog.Ends.bind_ok (hquiet (ends_updatedField (ends_validateTimezone env) _))
    fun timezone s₂ h₂ => ?_
  rw [h₂.1]
  refine Prog.Ends.bind_ok (hquiet (ends_updatedField (ends_validateAvatarUrl env) _))
    fun avatarUrl s₃ h₃ => ?_
  rw [h₃.1]
  simp only
  generalize hchanged : ProfileService.changedFields user _ = changed
  have hfilter : ∀ n ∈ changed.username, n ∈ username := by
    rw [← hchanged]
    intro n hn
    exact (Option.mem_filter_iff.mp hn).1
  split
  · intro _ _
    exact ⟨none, fun x hx => .inl hx, fun _ h => (by cases h), fun _ h => (by cases h)⟩
  refine Prog.Ends.bind_ok (ends_updateFields user.id changed) fun found s₄ h₄ => ?_
  cases found with
  | none => exact fun _ h => by cases h
  | some updated =>
    obtain ⟨husers, hfresh⟩ := h₄ updated rfl
    have hrest : ∀ {p : Db UserResponse}, p.Only (Writes (outside (· = .users) False))
        (fun _ => True) → p.Ends respond s₄ (Prog.onOk fun _ s' =>
          ∃ name, Renames payload user.id s.view s'.view name) := by
      intro p hp _ _
      have hsame := unchanged_of_only hp s₄
      exact ⟨changed.username, fun x hx => husers x ((hsame.mem rfl).mp hx),
        fun n hn => hname n (hfilter n hn), hfresh⟩
    simp only
    split
    · exact hrest (only_bind (only_markFlag allowsSideEffects_besideUsers _ _ _ _) fun _ =>
        only_bind (only_recordEvent (fun _ _ h => by cases h) _ _ _ _) fun _ => trivial)
    · exact hrest (only_bind (only_recordEvent (fun _ _ h => by cases h) _ _ _ _) fun _ => trivial)

/-! ## Serial runs -/

/-- The user a token is for. -/
def RawToken.subject : RawToken → Option UUID
  | .jwt payload => payload.sub
  | _ => none

variable {env}

namespace ProfileRequest

/-- The name a request stores is told apart, letter by letter, from the names it would be confused
with; a name that is registered is not reserved. -/
def Distinguished (db : Database) : ProfileRequest env → Prop
  | register payload => normalizeUsername payload.username ∉ RESERVED_USERNAMES ∧
      ∀ u ∈ rowsOf User db, normalizeUsername u.username = normalizeUsername payload.username →
        u.username = payload.username
  | updateMe access payload => ∀ raw, payload.username = some (some raw) →
      ∀ u ∈ rowsOf User db, access.subject ≠ some u.id →
        normalizeUsername u.username = normalizeUsername raw → u.username = normalizeUsername raw

end ProfileRequest

theorem Namespaced.registers {email username : String} {db db' : Database} {u : User}
    (h : Namespaced db) (hu : Registers env email username db db' u)
    (hreserved : normalizeUsername username ∉ RESERVED_USERNAMES)
    (hother : ∀ x ∈ rowsOf User db, normalizeUsername x.username = normalizeUsername username →
      x.username = username) : Namespaced db' := by
  have hnew : ∀ x ∈ rowsOf User db, normalizeUsername x.username ≠ normalizeUsername u.username :=
    fun x hx heq => (hu.fresh x hx).2 ((hother x hx (hu.username ▸ heq)).trans hu.username.symm)
  refine ⟨fun x hx y hy hxy => ?_, fun x hx => ?_⟩
  · rcases (hu.users x).mp hx with rfl | hx <;> rcases (hu.users y).mp hy with rfl | hy
    · rfl
    · exact absurd hxy.symm (hnew y hy)
    · exact absurd hxy (hnew x hx)
    · exact h.distinct x hx y hy hxy
  · rcases (hu.users x).mp hx with rfl | hx
    · rwa [hu.username]
    · exact h.unreserved x hx

theorem Namespaced.renames {payload : UserProfileUpdateRequest} {id : UUID} {db db' : Database}
    {name : Option String} (h : Namespaced db) (hr : Renames payload id db db' name)
    (hother : ∀ raw, payload.username = some (some raw) → ∀ u ∈ rowsOf User db, u.id ≠ id →
      normalizeUsername u.username = normalizeUsername raw → u.username = normalizeUsername raw) :
    Namespaced db' := by
  -- the new name is that of no other user
  have hnew : ∀ n ∈ name, ∀ x ∈ rowsOf User db, x.id ≠ id → normalizeUsername x.username ≠
      normalizeUsername n := by
    intro n hn x hx hne heq
    obtain ⟨-, raw, hraw, rfl⟩ := hr.normalized n hn
    rw [normalizeUsername_idem] at heq
    exact hr.fresh _ hn x hx hne (hother raw hraw x hx hne heq)
  -- a changed row has the new name, or the name the user had
  have hone : ∀ x ∈ rowsOf User db', x ∈ rowsOf User db ∨ (x.id = id ∧
      ((∃ n ∈ name, x.username = n) ∨ ∃ y ∈ rowsOf User db, y.id = id ∧ x.username = y.username)) := by
    intro x hx
    refine (hr.users x hx).imp_right fun ⟨hid, y, hy, hyid, hxy⟩ => ⟨hid, ?_⟩
    cases name with
    | none => exact .inr ⟨y, hy, hyid, hxy⟩
    | some n => exact .inl ⟨n, rfl, hxy⟩
  have hcross : ∀ x ∈ rowsOf User db', x.id = id → ∀ y ∈ rowsOf User db,
      normalizeUsername x.username = normalizeUsername y.username → y.id = id := by
    intro x hx hid y hy heq
    by_contra hne
    rcases hone x hx with hx | ⟨-, ⟨n, hn, hxn⟩ | ⟨z, hz, hzid, hxz⟩⟩
    · exact hne ((h.distinct x hx y hy heq).symm.trans hid)
    · exact hnew n hn y hy hne (by rw [← heq, hxn])
    · exact hne ((h.distinct z hz y hy (by rw [← hxz, heq])).symm.trans hzid)
  refine ⟨fun x hx y hy hxy => ?_, fun x hx => ?_⟩
  · rcases hr.users x hx with hxdb | ⟨hxid, -⟩
    · rcases hr.users y hy with hydb | ⟨hyid, -⟩
      · exact h.distinct x hxdb y hydb hxy
      · rw [hcross y hy hyid x hxdb hxy.symm, hyid]
    · rcases hr.users y hy with hydb | ⟨hyid, -⟩
      · rw [hcross x hx hxid y hydb hxy, hxid]
      · rw [hxid, hyid]
  · rcases hone x hx with hx | ⟨-, ⟨n, hn, hxn⟩ | ⟨z, hz, -, hxz⟩⟩
    · exact h.unreserved x hx
    · obtain ⟨hres, raw, -, rfl⟩ := hr.normalized n hn
      rw [hxn, normalizeUsername_idem]
      exact hres
    · rw [hxz]
      exact h.unreserved z hz

variable (env) in
/-- The user of a token is the one it is for. -/
theorem only_subject {W : Rules} (access : RawToken) : (getCurrentUser env access).Only (Writes W)
    fun user => access.subject = some user.id := by
  refine (only_decodeToken env access .access).bind fun payload hpayload => ?_
  split
  · trivial
  · next userId hsub =>
    refine (only_getById userId).bind fun found hfound => ?_
    split
    · trivial
    · next user =>
      split
      · trivial
      · change access.subject = some user.id
        rw [hpayload, hfound user rfl]
        exact hsub

theorem only_validateUsername {W : Rules} (value : String) :
    (validateUsername value).Only (Writes W) fun _ => True := by
  unfold validateUsername
  generalize normalizeUsername value = username
  simp only
  split
  · exact only_throw _
  split
  · exact only_throw _
  split
  · exact only_throw _
  · exact only_pure _

theorem only_updatedUsername {W : Rules} (user : User) (username : Option (Option String)) :
    (ProfileService.updatedUsername user username).Only (Writes W) fun _ => True := by
  cases username with
  | none => exact only_pure _
  | some v =>
    cases v with
    | none => exact only_throw _
    | some raw =>
      have hfound : ∀ n, (UserRepository.getByUsername n).Only (Writes W) fun _ => True := fun n =>
        (only_getByUsername n).mono (fun _ h => h) fun _ _ => trivial
      refine only_bind (only_validateUsername raw) fun n => only_bind (hfound n) fun existing => ?_
      generalize Option.any _ existing = taken
      cases taken with
      | true => exact only_throw _
      | false => exact only_pure _

theorem only_updatedField {W : Rules} {validate : Option String → Db (Option String)}
    (h : ∀ v, (validate v).Only (Writes W) fun _ => True) (value : Option (Option String)) :
    (ProfileService.updatedField validate value).Only (Writes W) fun _ => True := by
  cases value with
  | none => trivial
  | some v => exact only_bind (h v) fun _ => trivial

theorem only_validateTimezone {W : Rules} (value : Option String) :
    (validateTimezone env value).Only (Writes W) fun _ => True := by
  cases value with
  | none => exact only_pure _
  | some v =>
    simp only [validateTimezone]
    generalize Text.stripped v = timezone
    split
    · exact only_pure _
    split
    · exact only_throw _
    · exact only_pure _

theorem only_validateAvatarUrl {W : Rules} (value : Option String) :
    (validateAvatarUrl env value).Only (Writes W) fun _ => True := by
  cases value with
  | none => exact only_pure _
  | some v =>
    simp only [validateAvatarUrl]
    generalize Text.stripped v = avatarUrl
    by_cases hempty : avatarUrl = ""
    · rw [if_pos hempty]
      exact only_pure _
    rw [if_neg hempty]
    by_cases hlong : 512 < avatarUrl.length
    · rw [if_pos hlong]
      exact only_throw _
    rw [if_neg hlong]
    cases env.urlparse avatarUrl with
    | none => exact only_throw _
    | some parts =>
      simp only
      split
      · exact only_throw _
      · exact only_pure _

theorem only_updateProfile {W : Rules} (hs : AllowsSideEffects W)
    (hu : ∀ u u' : User, W.update (toRow u) (toRow u')) (user : User)
    (payload : UserProfileUpdateRequest) :
    (ProfileService.updateProfile env user payload).Only (Writes W) fun _ => True := by
  refine only_bind (only_updatedUsername user _) fun username => ?_
  refine only_bind (only_updatedField only_validateTimezone _) fun timezone => ?_
  refine only_bind (only_updatedField only_validateAvatarUrl _) fun avatarUrl => ?_
  simp only
  split
  · trivial
  refine only_bind (P := fun _ => True) ?_ fun found => ?_
  · refine only_bind (only_getById _) fun found => ?_
    split
    · trivial
    · exact only_bind (only_updateUnique _ _ _ fun _ _ => hu _ _) fun _ => trivial
  · have haudit : ∀ {updated : User}, (AuditService.recordEvent "user.profile.updated" updated.id none
        "user" updated.id).Only (Writes W) fun _ => True :=
      only_recordEvent (fun e _ => hs.audit e) _ _ _ _
    split
    · trivial
    split
    · exact only_bind (only_markFlag hs _ _ _ _) fun _ => only_bind haudit fun _ => trivial
    · exact only_bind haudit fun _ => trivial

theorem only_profileRoute (r : ProfileRequest env) :
    r.route.Only (Writes bodyRules) fun _ => True := by
  cases r with
  | register payload => exact only_register env allowsAccounts_body _ _ _
  | updateMe access payload =>
    exact only_bind (only_getCurrentUser env access) fun user =>
      only_updateProfile ⟨fun _ => trivial, fun _ => trivial, fun _ _ => trivial⟩
        (fun _ _ => trivial) user payload

theorem Namespaced.congr {db db' : Database} (h : Namespaced db)
    (hmem : ∀ x, x ∈ rowsOf User db' ↔ x ∈ rowsOf User db) : Namespaced db' :=
  ⟨fun u hu v hv => h.distinct u ((hmem u).mp hu) v ((hmem v).mp hv),
    fun u hu => h.unreserved u ((hmem u).mp hu)⟩

/-- **One request.** -/
theorem Namespaced.serve (r : ProfileRequest env) {s : State} (h : Namespaced s.committed)
    (hr : r.Distinguished s.committed) :
    Namespaced (s.serve respond ProfileRequest.serve r).2.committed := by
  refine ends_getDb (only_profileRoute r) h ?_
  cases r with
  | register payload =>
    refine (ends_register env _ _ _).mono fun r s' hr' a ha => ?_
    obtain ⟨u, hu⟩ := hr' a ha
    exact h.registers hu hr.1 hr.2
  | updateMe access payload =>
    have huser : (getCurrentUser env access).Ends respond s.session (Prog.onOk fun user s' =>
        access.subject = some user.id ∧ Unchanged (· = .users) s.session s') := by
      intro user huser
      have honly := only_subject env (W := bodyRules) access
      exact ⟨(honly.mono (fun _ _ => trivial) fun _ h => h).exec_ok _ huser,
        unchanged_of_only (only_getCurrentUser env access) _⟩
    refine Prog.Ends.bind_ok huser fun user s₁ ⟨hsub, hsame⟩ => ?_
    refine (ends_updateProfile env user payload).mono fun r s' hr' a ha => ?_
    obtain ⟨name, hname⟩ := hr' a ha
    refine (h.congr fun x => hsame.mem rfl).renames hname fun raw hraw u hu hne => ?_
    refine hr raw hraw u ((hsame.mem rfl).mp hu) ?_
    rw [hsub]
    exact fun hid => hne (Option.some.inj hid).symm

/-- The requests of a serial run are all distinguished when they are served. -/
def AllDistinguished (s : State) : List (ProfileRequest env) → Prop
  | [] => True
  | r :: rs => r.Distinguished s.committed ∧
      AllDistinguished (s.serve respond ProfileRequest.serve r).2 rs

/-- **Names stay apart**: in every serial run whose requests are distinguished, no two users have
names that normalize to one, and no name is reserved. -/
theorem namespaced_of_distinguished : ∀ (rs : List (ProfileRequest env)) {s : State},
    Namespaced s.committed → AllDistinguished s rs →
      Namespaced (s.serveAll respond ProfileRequest.serve rs).committed
  | [], _, h, _ => h
  | r :: rs, _, h, hd => namespaced_of_distinguished rs (h.serve r hd.1) hd.2

end Steps

/-! ## Two deployments -/

/-- A registration in a new deployment. -/
def registration (username : String) (h : 3 ≤ username.length ∧ username.length ≤ 100)
    (hp : username.toList.all isUsernameChar = true) : ProfileRequest Env.trial :=
  .register
    { email := username, username, password := "correct horse", emailLength := by
        have : (Env.trial.lower username).length = username.length := by
          simp [Env.trial, ← String.length_toList]
        omega
      usernameLength := h, usernamePattern := hp, passwordLength := by decide }

theorem namespaced_trial : Namespaced State.trial.committed :=
  ⟨fun _ h => (nomatch h), fun _ h => (nomatch h)⟩

/-- A reserved name is registered in capitals. -/
theorem reserved_name_registered : ¬ ∀ (env : Env) (s : State) (rs : List (ProfileRequest env)),
    Namespaced s.committed →
      Namespaced (s.serveAll respond ProfileRequest.serve rs).committed := by
  intro hall
  have h := hall Env.trial State.trial [registration "Admin" (by decide) (by decide)] namespaced_trial
  have hadmin : ((rowsOf User (State.trial.serveAll respond ProfileRequest.serve
      [registration "Admin" (by decide) (by decide)]).committed).any fun u =>
        decide (normalizeUsername u.username ∈ RESERVED_USERNAMES)) = true := by decide +kernel
  obtain ⟨u, hu, hreserved⟩ := List.any_eq_true.mp hadmin
  exact h.unreserved u hu (of_decide_eq_true hreserved)

/-- Two users with different names. -/
theorem namespaced_of_distinguished_trial :
    AllDistinguished State.trial [registration "Alice" (by decide) (by decide),
      registration "bob" (by decide) (by decide)] ∧
    Namespaced (State.trial.serveAll respond ProfileRequest.serve
      [registration "Alice" (by decide) (by decide),
        registration "bob" (by decide) (by decide)]).committed := by
  have h : AllDistinguished State.trial [registration "Alice" (by decide) (by decide),
      registration "bob" (by decide) (by decide)] := by
    refine ⟨⟨by decide +kernel, fun _ h => nomatch h⟩, ⟨by decide +kernel, ?_⟩, trivial⟩
    decide +kernel
  exact ⟨h, namespaced_of_distinguished _ namespaced_trial h⟩

end DevOps
