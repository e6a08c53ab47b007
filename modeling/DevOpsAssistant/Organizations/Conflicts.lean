import DevOpsAssistant.Accounts.Conflicts

/-!
# The slugs of organizations

An organization is created, or given another slug, after a look for an active organization with that
slug. Deleted organizations keep their slugs, and a slug made of a name can be too long.

* `SlugFree`: what the look would have to find.
* **`create_handled_iff`**, **`update_handled_iff`**, `handled_iff`: when a request is handled.
-/

namespace DevOps

open Txn

/-- `OrganizationCreate`. -/
structure OrganizationCreate where
  name : String
  slug : Option String
  nameLength : 1 ≤ name.length ∧ name.length ≤ 200
  slugLength : ∀ s ∈ slug, s.length ≤ 100

/-- `payload.slug or payload.name`. -/
def OrganizationCreate.rawSlug (payload : OrganizationCreate) : String :=
  match payload.slug with
  | some s => if s = "" then payload.name else s
  | none => payload.name

/-- `OrganizationUpdate`. -/
structure OrganizationUpdate where
  name : Option String
  slug : Option String
  nameLength : ∀ n ∈ name, 1 ≤ n.length ∧ n.length ≤ 200
  slugLength : ∀ s ∈ slug, s.length ≤ 100

section Slugs

variable (env : Env)

/-- `normalize_slug` accepts the text. -/
def ValidSlug (raw : String) : Prop :=
  (slugChars env raw).isEmpty = false ∧ (slugChars env raw).all isSlugChar = true

/-- The slug made of a text. -/
def slugOf (raw : String) : String := String.ofList (slugChars env raw)

/-- A slug made of the text is held by no deleted organization and fits. -/
def SlugFree (db : Database) (raw : String) : Prop :=
  ValidSlug env raw → (∀ o ∈ rowsOf Organization db, o.slug = slugOf env raw → o.deletedAt = none) ∧
    (slugOf env raw).length ≤ 100

variable {env} {s : State} {α : Type} {Φ : Except Exc α → Session Row World → Prop}

theorem ends_normalizeSlug {raw : String} {g : String → Db α} {s : Session Row World}
    (hvalid : ValidSlug env raw → (g (slugOf env raw)).Ends respond s Φ)
    (hinvalid : ¬ ValidSlug env raw → ∀ e : Exc, e.reports = true → Φ (.error e) s) :
    (normalizeSlug env raw >>= g).Ends respond s Φ := by
  unfold normalizeSlug
  by_cases h : ValidSlug env raw
  · simp only [h.1, h.2, Bool.not_true, Bool.or_self, Bool.false_eq_true, if_false]
    exact hvalid h
  · have hbad : ((slugChars env raw).isEmpty || !(slugChars env raw).all isSlugChar) = true := by
      by_contra hne
      simp only [Bool.or_eq_true, not_or, Bool.not_eq_true, Bool.not_eq_false'] at hne
      exact h hne
    simp only [hbad, if_true]
    exact hinvalid h _ rfl

/-- The look for an active organization with the slug. -/
theorem ends_getBySlug (h : Sound env s) {slug : String} {g : Option Organization → Db α}
    (hg : ∀ found, Found s.committed (fun o : Organization => o.slug = slug && o.deletedAt.isNone) found →
      (g found).Ends respond s.session Φ) :
    (OrganizationRepository.getBySlug slug >>= g).Ends respond s.session Φ := by
  unfold OrganizationRepository.getBySlug
  refine ends_selectUnique (fun o ho o' ho' hp hp' => h.slugs o ho o' ho' ?_) hg
  simp only [Bool.and_eq_true, decide_eq_true_eq] at hp hp'
  rw [hp.1, hp'.1]

/-! ## Creating an organization -/

theorem id_organizationCreated (o : UserOnboarding) :
    Entity.id { o with organizationCreated := true } = Entity.id o := rfl

/-- What follows the insert of a new organization. -/
def founding (user : User) (org : Organization) : Db OrganizationResponse := do
  let _ ← OrganizationRepository.addMember org.id user.id .owner
  AuditService.recordEventOrFail "organization.created" user.id org.id "organization" org.id
  OnboardingService.tryMarkFlag user.id (·.organizationCreated)
    (fun o => { o with organizationCreated := true }) id_organizationCreated
  return OrganizationResponse.ofOrganization org

theorem only_founding {W : Rules} (hW : AllowsSideEffects W)
    (hm : ∀ m : OrganizationMember, W.insert (toRow m)) (user : User) (org : Organization) :
    (founding user org).Only (Writes W) fun _ => True := by
  have hadd : (OrganizationRepository.addMember org.id user.id .owner).Only (Writes W)
      fun _ => True :=
    only_bind only_uuid4 fun _ => only_bind only_now fun _ => only_bind only_now fun _ =>
      only_bind (only_insertOf _ _ (hm _)) fun _ => only_pure _
  refine only_bind hadd fun _ => ?_
  exact only_bind (only_recordEventOrFail hW _ _ _ _ _) fun _ =>
    only_bind (only_tryMarkFlag hW _ _ _ _) fun _ => only_pure _

/-- It returns, and what it writes fits. -/
theorem ends_founding {user : User} {org : Organization} {s : Session Row World}
    (hn : Numbered s.nextId s.view)
    (hm : ∀ m ∈ rowsOf OrganizationMember s.view, m.organizationId ≠ org.id) :
    (founding user org).Ends respond s fun r s' =>
      (∃ a, r = .ok a) ∧ (LogFits s' ↔ LogFits s) := by
  refine ⟨?_, fun hfits r hr => hfits r ?_, fun hfits => ?_⟩
  · change (founding user org).Ends respond s fun r _ => ∃ a, r = .ok a
    refine ends_addMember hn (fun m hmem => ?_) fun m _ hn' => ?_
    · simp [memberOf, hm m hmem]
    · exact ends_recordEventOrFail hn' fun _ => ends_tryMarkFlag fun _ => ⟨_, rfl⟩
  · exact mem_log_exec (only_founding ⟨fun _ => trivial, fun _ => trivial, fun _ _ => trivial⟩
      (fun _ => trivial) user org) hr
  · exact logFits_exec (only_founding ⟨fun _ => trivial, fun _ => trivial, fun _ _ => trivial⟩
      (fun _ => trivial) user org) hfits

/-- The insert of a new organization. -/
theorem ends_insertOrganization {name slug : String} {createdBy : UUID} {g : Organization → Db α}
    {s : Session Row World} (hn : Numbered s.nextId s.view)
    (hok : (∀ o ∈ rowsOf Organization s.view, o.slug ≠ slug) → ∀ (org : Organization) s',
      org.name = name → org.slug = slug → org.id = s.nextId →
      s'.log = s.log ++ [.store (toRow org)] → Numbered s'.nextId s'.view →
      (∀ m ∈ rowsOf OrganizationMember s'.view, m ∈ rowsOf OrganizationMember s.view) →
      (g org).Ends respond s' Φ)
    (hclash : ∀ s', s'.log = s.log → (∃ o ∈ rowsOf Organization s.view, o.slug = slug) →
      Φ (.error .integrityError) s') :
    (OrganizationRepository.create name slug createdBy >>= g).Ends respond s Φ := by
  unfold OrganizationRepository.create
  simp only [bind_assoc, pure_bind]
  refine ends_uuid4.mpr (ends_now.mpr (ends_now.mpr ?_))
  by_cases htaken : ∃ o ∈ rowsOf Organization s.view, o.slug = slug
  · refine Prog.ends_bind.mpr ((ends_insert _ _).mono fun r s' hr => ?_)
    obtain ⟨-, -, hfree⟩ | ⟨rfl, rfl⟩ := hr
    · obtain ⟨o, ho, hslug⟩ := htaken
      have := (hfree o ho).2
      simp [hslug] at this
    · exact hclash _ rfl htaken
  · have hfree : ∀ o ∈ rowsOf Organization s.view, o.slug ≠ slug := fun o ho hs => htaken ⟨o, ho, hs⟩
    refine (ends_insertNew ?_ ?_).mpr (hok hfree _ _ rfl rfl rfl rfl ?_ fun m hm => ?_)
    · exact fun r hr => Nat.ne_of_lt (hn r hr)
    · exact fun o ho => decide_eq_false (hfree o ho)
    · rw [Session.view_append]
      exact (hn.mono (Nat.le_succ _)).store (Nat.lt_succ_self _)
    · rw [Session.view_append, Table.apply_cons, Table.apply_nil,
        mem_rowsOf_store_other (by decide)] at hm
      exact hm

/-- **An organization is created** as its request asks, unless a deleted one holds the slug, or the slug
is too long. -/
theorem create_handled_iff (h : Sound env s) (hl : Libraries env) (user : User)
    (payload : OrganizationCreate) :
    (OrganizationService.create env user payload.name payload.slug).Ends respond s.session Handled ↔
      SlugFree env s.committed payload.rawSlug := by
  have hempty : LogFits s.session := fun _ h => nomatch h
  -- the two sides are compared at the end of every path
  suffices hpath : (OrganizationService.create env user payload.name payload.slug).Ends respond
      s.session fun r s' => Handled r s' ↔ SlugFree env s.committed payload.rawSlug from hpath
  change Prog.Ends respond (normalizeSlug env payload.rawSlug >>= _) s.session _
  refine ends_normalizeSlug (fun hvalid => ?_) fun hinvalid e he => ?_
  · refine ends_getBySlug h fun found hfound => ?_
    cases found with
    | some o =>
      obtain ⟨ho, hp⟩ := hfound
      simp only [Bool.and_eq_true, decide_eq_true_eq, Option.isNone_iff_eq_none] at hp
      refine iff_of_true ⟨fun e he => by cases he; rfl, hempty⟩ fun _ => ⟨fun o' ho' hs => ?_, ?_⟩
      · rw [h.slugs o' ho' o ho (hs.trans hp.1.symm)]
        exact hp.2
      · rw [← hp.1]
        exact (h.fits _ (mem_rowsOf.mp ho)).2
    | none =>
      refine ends_insertOrganization h.numbered (fun hfree org s' hname hslug hid hlog hn hm => ?_)
        fun s' hlog htaken => ?_
      · refine (ends_founding hn fun m hmem => ?_).mono fun r s'' ⟨⟨a, hr⟩, hfits⟩ => ?_
        · rw [hid]
          exact Nat.ne_of_lt (h.memberships m (hm m hmem))
        · rw [Handled, hfits]
          constructor
          · intro hh _
            have hstored : Fits (toRow org) := hh.2 _ (by rw [hlog]; exact List.mem_singleton.mpr rfl)
            exact ⟨fun o ho hs => absurd hs (hfree o ho), hslug ▸ hstored.2⟩
          · intro hclear
            refine ⟨fun e he => (nomatch hr.symm.trans he), fun r hr => ?_⟩
            rw [hlog] at hr
            cases List.mem_singleton.mp hr
            refine ⟨?_, ?_⟩
            · rw [hname]
              exact (hl.strip _).trans payload.nameLength.2
            · rw [hslug]
              exact (hclear hvalid).2
      · obtain ⟨o, ho, hslug⟩ := htaken
        refine iff_of_false (fun hh => ?_) fun hfree => ?_
        · exact absurd (hh.1 _ rfl) (by decide)
        · have := (hfree hvalid).1 o ho hslug
          exact hfound o ho (by simp [hslug, this])
  · exact iff_of_true ⟨fun e' he' => by cases he'; exact he, hempty⟩ fun hvalid =>
      absurd hvalid hinvalid

/-! ## Updating an organization -/

/-- The user owns the active organization. -/
def OwnsActive (db : Database) (organizationId userId : UUID) : Prop :=
  (∃ o ∈ rowsOf Organization db, activeOrganization organizationId o = true) ∧
    ∃ m ∈ rowsOf OrganizationMember db, memberOf organizationId userId m = true ∧ m.role = .owner

/-- The permission check finds the active organization and a membership, or refuses. -/
theorem ends_permitted (h : Sound env s) {organizationId userId : UUID}
    {g : Organization × OrganizationMember → Db α}
    (hok : ∀ org m, org ∈ rowsOf Organization s.committed → activeOrganization organizationId org = true →
      m ∈ rowsOf OrganizationMember s.committed → memberOf organizationId userId m = true →
      (g (org, m)).Ends respond s.session Φ)
    (hrefused : ¬ OwnsActive s.committed organizationId userId → ∀ e : Exc, e.reports = true →
      Φ (.error e) s.session) :
    (OrganizationAuthService.requirePermission organizationId userId .organizationUpdate >>= g).Ends
      respond s.session Φ := by
  unfold OrganizationAuthService.requirePermission OrganizationAuthService.requireMembership
    OrganizationAuthService.getActiveOrganization OrganizationAuthService.getMembership
  simp only [bind_assoc]
  rw [← bind_assoc]
  have hactive : ∀ o ∈ rowsOf Organization s.committed, ∀ o' ∈ rowsOf Organization s.committed,
      activeOrganization organizationId o = true → activeOrganization organizationId o' = true →
      o = o' := by
    intro o ho o' ho' hp hp'
    simp only [activeOrganization, Bool.and_eq_true, decide_eq_true_eq] at hp hp'
    exact entity_ext ho ho' (hp.1.trans hp'.1.symm)
  refine ends_selectUnique hactive fun found hfound => ?_
  cases found with
  | none => exact hrefused (fun hown => by obtain ⟨⟨o, ho, hp⟩, -⟩ := hown; exact hfound o ho hp) _ rfl
  | some org =>
    simp only [pure_bind]
    rw [← bind_assoc]
    refine ends_selectUnique (fun m hm m' hm' hp hp' => ?_) fun found hm => ?_
    · rw [memberOf_eq] at hp hp'
      exact h.members m hm m' hm' (hp.1.trans hp'.1.symm) (hp.2.trans hp'.2.symm)
    cases found with
    | none => exact hrefused (fun hown => by obtain ⟨-, m, hmem, hp, -⟩ := hown; exact hm m hmem hp) _ rfl
    | some m =>
      simp only [pure_bind]
      by_cases hperm : roleHasPermission m.role .organizationUpdate = true
      · simp only [hperm, if_true, pure_bind]
        exact hok org m hfound.1 hfound.2 hm.1 hm.2
      · simp only [hperm, Bool.false_eq_true, if_false]
        refine hrefused (fun hown => hperm ?_) _ rfl
        obtain ⟨-, m', hmem, hp, hrole⟩ := hown
        have hp' := hm.2
        rw [memberOf_eq] at hp hp'
        rw [h.members m hm.1 m' hmem (hp'.1.trans hp.1.symm) (hp'.2.trans hp.2.symm), hrole]
        decide

/-- The slug of an update is new, or is refused. -/
theorem ends_updatedSlug (h : Sound env s) {org : Organization} {m : OrganizationMember}
    {slug : Option String} {g : Option String → Db α}
    (hnone : slug = none → (g none).Ends respond s.session Φ)
    (hsome : ∀ raw, slug = some raw → m.role = .owner → ValidSlug env raw →
      (∀ o ∈ rowsOf Organization s.committed, o.slug = slugOf env raw → o.deletedAt = none →
        o.id = org.id) → (g (some (slugOf env raw))).Ends respond s.session Φ)
    (hrefused : (∀ raw, slug = some raw → m.role = .owner → SlugFree env s.committed raw) →
      ∀ e : Exc, e.reports = true → Φ (.error e) s.session) :
    (OrganizationService.updatedSlug env org m slug >>= g).Ends respond s.session Φ := by
  unfold OrganizationService.updatedSlug
  cases slug with
  | none => exact hnone rfl
  | some raw =>
    by_cases hrole : m.role = .owner
    · simp only [hrole, ne_eq, not_true_eq_false, if_false, bind_assoc]
      refine ends_normalizeSlug (fun hvalid => ?_) fun hinvalid => hrefused fun raw' hraw _ hvalid => ?_
      · refine ends_getBySlug h fun found hfound => ?_
        cases found with
        | none =>
          refine hsome raw rfl hrole hvalid fun o ho hs hd => absurd ?_ (hfound o ho)
          simp [hs, hd]
        | some existing =>
          obtain ⟨hex, hp⟩ := hfound
          simp only [Bool.and_eq_true, decide_eq_true_eq, Option.isNone_iff_eq_none] at hp
          by_cases hid : existing.id = org.id
          · simp only [hid, not_true_eq_false, if_false]
            refine hsome raw rfl hrole hvalid fun o ho hs _ => ?_
            rw [h.slugs o ho existing hex (hs.trans hp.1.symm), hid]
          · simp only [hid, not_false_eq_true, if_true]
            refine hrefused (fun raw' hraw _ _ => ?_) _ rfl
            cases hraw
            refine ⟨fun o ho hs => ?_, ?_⟩
            · rw [h.slugs o ho existing hex (hs.trans hp.1.symm)]
              exact hp.2
            · rw [← hp.1]
              exact (h.fits _ (mem_rowsOf.mp hex)).2
      · cases hraw
        exact absurd hvalid hinvalid
    · simp only [hrole, ne_eq, not_false_eq_true, if_true]
      exact hrefused (fun _ _ h => absurd h hrole) _ rfl

/-- The flush of an update of a row that the session has just read. -/
theorem ends_flushOrganization {org : Organization} {name slug : Option String}
    {g : Organization → Db α} (hn : Numbered s.nextId s.committed)
    (horg : org ∈ rowsOf Organization s.committed)
    (hok : ∀ (row : Organization) s', s'.log = [.store (toRow row)] →
      row.name = name.getD org.name → row.slug = slug.getD org.slug →
      Numbered s'.nextId s'.view →
      (∀ o ∈ rowsOf Organization s.committed, o.slug = slug.getD org.slug → o.slug = org.slug ∨ o = org) →
      (g row).Ends respond s' Φ)
    (hclash : ∀ s', s'.log = [] → slug.getD org.slug ≠ org.slug →
      (∃ o ∈ rowsOf Organization s.committed, o.id ≠ org.id ∧ o.slug = slug.getD org.slug) →
      Φ (.error .integrityError) s') :
    (OrganizationRepository.update org name slug >>= g).Ends respond s.session Φ := by
  unfold OrganizationRepository.update
  simp only [bind_assoc]
  refine ends_now.mpr (Prog.ends_bind.mpr ((ends_updateUnique _ _ _ _).mono fun r s' hr => ?_))
  obtain ⟨t, ht, hid, rfl, rfl, hfree⟩ | ⟨hmissing, -⟩ | ⟨⟨o, ho, hid, hp⟩, rfl, rfl⟩ := hr
  · have htorg : t = org := entity_ext ht horg hid
    subst htorg
    refine hok _ _ rfl (flushed_current _ _) (flushed_current _ _) ?_ fun o ho hs => ?_
    · rw [Session.view_append]
      have hlt : t.id < s.nextId := hn (toRow t) (mem_rowsOf.mp horg)
      exact hn.store hlt
    · by_cases hoid : o.id = t.id
      · exact .inr (entity_ext ho horg hoid)
      · have hclash' := hfree o ho hoid
        simp only [Bool.and_eq_false_iff, decide_eq_false_iff_not, ne_eq, not_not] at hclash'
        exact .inl (hclash'.elim (fun h => hs.trans h) fun h => absurd hs h)
  · exact absurd rfl (hmissing org horg)
  · simp only [Bool.and_eq_true, decide_eq_true_eq] at hp
    exact hclash _ rfl hp.1 ⟨o, ho, hid, hp.2⟩

/-- The last part of an update. -/
def audited (user : User) (organizationId : UUID) (updated : Organization) :
    Db OrganizationResponse := do
  AuditService.recordEventOrFail "organization.updated" user.id organizationId "organization"
    organizationId
  return .ofOrganization updated

theorem only_audited {W : Rules} (hW : AllowsSideEffects W) (user : User) (organizationId : UUID)
    (updated : Organization) :
    (audited user organizationId updated).Only (Writes W) fun _ => True :=
  only_bind (only_recordEventOrFail hW _ _ _ _ _) fun _ => only_pure _

theorem ends_audited {updated : Organization} {user : User} {organizationId : UUID}
    {s : Session Row World} (hn : Numbered s.nextId s.view) :
    (audited user organizationId updated).Ends respond s fun r s' =>
      (∃ a, r = .ok a) ∧ (LogFits s' ↔ LogFits s) := by
  refine ⟨?_, fun hfits r hr => hfits r ?_, fun hfits => ?_⟩
  · change (audited user organizationId updated).Ends respond s fun r _ => ∃ a, r = .ok a
    exact ends_recordEventOrFail hn fun _ => ⟨_, rfl⟩
  · exact mem_log_exec (only_audited ⟨fun _ => trivial, fun _ => trivial, fun _ _ => trivial⟩ _ _ _) hr
  · exact logFits_exec (only_audited ⟨fun _ => trivial, fun _ => trivial, fun _ _ => trivial⟩ _ _ _)
      hfits

/-- **An organization is updated** as its request asks, unless its owner gives it a slug that a deleted
one holds, or that is too long. -/
theorem update_handled_iff (h : Sound env s) (hl : Libraries env) (user : User) (organizationId : UUID)
    (payload : OrganizationUpdate) :
    (OrganizationService.update env user organizationId payload.name payload.slug).Ends respond
        s.session Handled ↔
      ∀ raw, payload.slug = some raw → OwnsActive s.committed organizationId user.id →
        SlugFree env s.committed raw := by
  have hempty : LogFits s.session := fun _ h => by cases h
  have hreports : ∀ {e : Exc}, e.reports = true →
      Handled (.error e : Except Exc OrganizationResponse) s.session :=
    fun he => ⟨fun e' he' => by cases he'; exact he, hempty⟩
  suffices hpath : (OrganizationService.update env user organizationId payload.name payload.slug).Ends
      respond s.session fun r s' => Handled r s' ↔ ∀ raw, payload.slug = some raw →
        OwnsActive s.committed organizationId user.id → SlugFree env s.committed raw from hpath
  refine ends_permitted h (fun org m horg hactive hm hmember => ?_) fun hnot e he => ?_
  · have howns : OwnsActive s.committed organizationId user.id ↔ m.role = .owner := by
      refine ⟨fun howns => ?_, fun hrole => ⟨⟨org, horg, hactive⟩, m, hm, hmember, hrole⟩⟩
      obtain ⟨_, m', hm', hmember', hrole⟩ := howns
      rw [memberOf_eq] at hmember hmember'
      rw [h.members m hm m' hm' (hmember.1.trans hmember'.1.symm) (hmember.2.trans hmember'.2.symm)]
      exact hrole
    obtain ⟨hnameFits, hslugFits⟩ : org.name.length ≤ 200 ∧ org.slug.length ≤ 100 :=
      h.fits _ (mem_rowsOf.mp horg)
    have hname : ((payload.name.map env.strip).getD org.name).length ≤ 200 := by
      cases hn : payload.name with
      | none => exact hnameFits
      | some n => exact (hl.strip n).trans (payload.nameLength n hn).2
    -- what is stored fits if its slug does
    have hstored : ∀ (row : Organization) {s' : Session Row World}, s'.log = [.store (toRow row)] →
        row.name = (payload.name.map env.strip).getD org.name → Numbered s'.nextId s'.view →
        (audited user org.id row).Ends respond s' fun r s'' =>
          Handled r s'' ↔ row.slug.length ≤ 100 := by
      intro row s' hlog hrow hn
      refine (ends_audited hn).mono fun r s'' h => ?_
      obtain ⟨⟨a, hr⟩, hfits⟩ := h
      rw [Handled, hfits]
      constructor
      · intro hh
        have hfit : Fits (toRow row) := hh.2 _ (by rw [hlog]; exact List.mem_singleton.mpr rfl)
        exact hfit.2
      · intro hslug
        refine ⟨fun e he => (by cases hr.symm.trans he), fun x hx => ?_⟩
        rw [hlog] at hx
        cases List.mem_singleton.mp hx
        exact ⟨hrow ▸ hname, hslug⟩
    rw [howns]
    simp only
    by_cases hnothing : (payload.name.isNone && payload.slug.isNone) = true
    · rw [if_pos hnothing]
      refine iff_of_true (hreports rfl) fun raw hraw => ?_
      rw [hraw] at hnothing
      simp at hnothing
    rw [if_neg hnothing]
    refine ends_updatedSlug h (fun hnone => ?_) (fun raw hraw hrole hvalid hmine => ?_)
      fun hfree e he => iff_of_true (hreports he) hfree
    · refine ends_flushOrganization h.numbered horg (fun row s' hlog hrow hslug hn _ => ?_)
        fun _ _ hne _ => absurd rfl hne
      refine (hstored row hlog hrow hn).mono fun r s'' hiff => hiff.trans ?_
      rw [hslug]
      exact iff_of_true hslugFits fun raw hraw => by cases hnone.symm.trans hraw
    · have hsame : (∀ raw', payload.slug = some raw' → m.role = .owner → SlugFree env s.committed raw') ↔
          SlugFree env s.committed raw :=
        ⟨fun hall => hall raw hraw hrole, fun hfree raw' hraw' _ => by
          cases hraw.symm.trans hraw'
          exact hfree⟩
      rw [hsame]
      refine ends_flushOrganization h.numbered horg (fun row s' hlog hrow hslug hn hheld => ?_)
        fun s' hlog hne htaken => ?_
      · refine (hstored row hlog hrow hn).mono fun r s'' hiff => hiff.trans ?_
        rw [hslug]
        refine ⟨fun hlen _ => ⟨fun o ho hs => ?_, hlen⟩, fun hfree => (hfree hvalid).2⟩
        have hmineToo : o = org := (hheld o ho hs).elim (fun h' => h.slugs o ho org horg h') id
        rw [hmineToo]
        simp only [activeOrganization, Bool.and_eq_true, Option.isNone_iff_eq_none] at hactive
        exact hactive.2
      · obtain ⟨o, ho, hid, hslug⟩ := htaken
        refine iff_of_false (fun hh => ?_) fun hfree => ?_
        · exact absurd (hh.1 _ rfl) (by decide)
        · exact hid (hmine o ho hslug ((hfree hvalid).1 o ho hslug))
  · exact iff_of_true (hreports he) fun _ _ hown => absurd hown hnot

end Slugs

/-! ## Every request -/

/-- The requests that store an address, a name or a slug. -/
inductive NamingRequest (env : Env) where
  | register (payload : RegisterRequest env)
  | create (user : User) (payload : OrganizationCreate)
  | update (user : User) (organizationId : UUID) (payload : OrganizationUpdate)

namespace NamingRequest

variable {env : Env}

/-- The service handles the request. -/
def HandledIn (s : State) : NamingRequest env → Prop
  | register payload =>
    (AuthService.register env payload.email payload.username payload.password).Ends respond s.session
      Handled
  | create user payload =>
    (OrganizationService.create env user payload.name payload.slug).Ends respond s.session Handled
  | update user organizationId payload =>
    (OrganizationService.update env user organizationId payload.name payload.slug).Ends respond
      s.session Handled

/-- What the checks of the service miss does not arise. -/
def Clear (s : State) : NamingRequest env → Prop
  | register payload => RegistersCleanly s payload
  | create _ payload => SlugFree env s.committed payload.rawSlug
  | update user organizationId payload => ∀ raw, payload.slug = some raw →
      OwnsActive s.committed organizationId user.id → SlugFree env s.committed raw

/-- **Conflicts are reported** exactly when the address is not taken in another case, and the slug is
not too long and not that of a deleted organization. -/
theorem handledIn_iff {s : State} (h : Sound env s) (hl : Libraries env) (r : NamingRequest env) :
    r.HandledIn s ↔ r.Clear s := by
  cases r with
  | register payload => exact register_handled_iff h hl payload
  | create user payload => exact create_handled_iff h hl user payload
  | update user organizationId payload => exact update_handled_iff h hl user organizationId payload

/-! ## An address in capitals -/

/-- Library functions that can be evaluated on short inputs, with hashes that fit. -/
def namingEnv : Env := { Env.trial with bcryptHash := fun _ _ => "$2b$12$" }

theorem libraries_naming : Libraries namingEnv := ⟨fun _ => Nat.le_refl _, fun _ _ =>
  (by decide : "$2b$12$".length ≤ 255)⟩

/-- A deployment with one user. -/
def namedState : State :=
  { State.trial with
    nextId := 1
    committed := Table.empty.apply [.store (toRow
      ({ id := 0, email := "a@b.co", username := "bob", hashedPassword := "", role := .user,
         isActive := true, emailVerifiedAt := none } : User))] }

theorem sound_named : Sound namingEnv namedState where
  emails u hu v hv _ := by cases List.mem_singleton.mp hu; cases List.mem_singleton.mp hv; rfl
  usernames u hu v hv _ := by cases List.mem_singleton.mp hu; cases List.mem_singleton.mp hv; rfl
  slugs _ h := nomatch h
  members _ h := nomatch h
  fits r hr := by
    cases List.mem_singleton.mp hr
    exact ⟨by decide, by decide, by decide⟩
  numbered r hr := by cases List.mem_singleton.mp hr; decide
  memberships _ h := nomatch h
  tokens _ h := nomatch h

/-- The registration of Ann with an address. -/
def annRegisters (email : String) (h : (namingEnv.lower email).length ≤ 254) :
    NamingRequest namingEnv :=
  .register
    { email, username := "Ann", password := "correct horse", emailLength := h
      usernameLength := by decide, usernamePattern := by decide, passwordLength := by decide }

/-- The address of a user, in capitals, violates the constraint. -/
theorem address_in_capitals : ¬ ∀ (env : Env) (s : State), Libraries env → Sound env s →
    ∀ r : NamingRequest env, r.HandledIn s := by
  intro hall
  have h := hall namingEnv namedState libraries_naming sound_named
    (annRegisters "A@b.co" (by decide +kernel))
  have hclean := (register_handled_iff sound_named libraries_naming _).mp h
  rcases hclean with (hinvalid | ⟨u, hu, htaken⟩) | ⟨hfree, -⟩
  · exact hinvalid (by decide +kernel)
  · cases List.mem_singleton.mp hu
    revert htaken
    decide
  · exact hfree _ (List.mem_singleton.mpr rfl) (by decide +kernel)

/-- Another address is registered. -/
theorem handledIn_another : (annRegisters "C@b.co" (by decide +kernel)).HandledIn namedState := by
  refine (handledIn_iff sound_named libraries_naming _).mpr (.inr ⟨fun u hu => ?_, fun _ e he => ?_⟩)
  · cases List.mem_singleton.mp hu
    decide +kernel
  · cases he

end NamingRequest

end DevOps
