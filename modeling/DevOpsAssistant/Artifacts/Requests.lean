import DevOpsAssistant.Artifacts.Chain
import DevOpsAssistant.Specs.Artifacts

/-!
# Every request writes an effect on artifacts

One rule for each function that writes artifacts, and one lemma for each service: what the session has
written when the service returns is an `ArtifactEffect` of the request.

* `next_maxNumber`: the number that `appendVersion` computes is the next one.
* `ensures_createArtifact`, `ensures_updateArtifact`, `ensures_appendVersion`: the shared parts.
* `ensures_addVersion`, `ensures_restoreVersion`, …: the services.
* **`ensures_workspace`**: every request commits only its effect.
-/

namespace DevOps

open Txn Discipline

/-- The rules for statements on other tables. -/
abbrev besideArtifacts : Rules := outside (artifactTables · = true) False

theorem allowsSideEffects_besideArtifacts : AllowsSideEffects besideArtifacts := by
  constructor <;> intros <;> exact Bool.false_ne_true

/-! ## Numbers -/

theorem le_maxNumber {v : ArtifactVersion} : ∀ {vs : List ArtifactVersion}, v ∈ vs →
    v.versionNumber ≤ ArtifactVersionRepository.maxNumber vs
  | w :: vs, hv => by
    rcases List.mem_cons.mp hv with rfl | hv
    · exact Nat.le_max_left ..
    · exact (le_maxNumber hv).trans (Nat.le_max_right ..)

theorem maxNumber_mem : ∀ vs : List ArtifactVersion, ArtifactVersionRepository.maxNumber vs = 0 ∨
    ∃ v ∈ vs, v.versionNumber = ArtifactVersionRepository.maxNumber vs
  | [] => .inl rfl
  | v :: vs => by
    change max v.versionNumber (ArtifactVersionRepository.maxNumber vs) = 0 ∨
      ∃ w ∈ v :: vs, w.versionNumber = max v.versionNumber (ArtifactVersionRepository.maxNumber vs)
    rcases Nat.le_total (ArtifactVersionRepository.maxNumber vs) v.versionNumber with h | h
    · exact .inr ⟨v, List.mem_cons_self, (Nat.max_eq_left h).symm⟩
    · rw [Nat.max_eq_right h]
      refine (maxNumber_mem vs).imp_right fun ⟨w, hw, heq⟩ => ?_
      exact ⟨w, List.mem_cons_of_mem _ hw, heq⟩

/-- **One more than the greatest number** is the next one. -/
theorem next_maxNumber {env : Env} {c : Database} (h : Chained env c) {a : UUID}
    {vs : List ArtifactVersion}
    (hvs : ∀ v, v ∈ vs ↔ v ∈ rowsOf ArtifactVersion c ∧ v.artifactId = a) :
    Next c a (ArtifactVersionRepository.maxNumber vs + 1) := by
  obtain ⟨n, hn⟩ := h.next a
  have hlt : ArtifactVersionRepository.maxNumber vs < n := by
    have hone := hn.1
    rcases maxNumber_mem vs with h₀ | ⟨v, hv, heq⟩
    · omega
    · rw [← heq]
      exact ((hn.2 _).mp ⟨v, ((hvs v).mp hv).1, ((hvs v).mp hv).2, rfl⟩).2
  have hle : n ≤ ArtifactVersionRepository.maxNumber vs + 1 := by
    by_cases hone : n = 1
    · omega
    · have hpos := hn.1
      obtain ⟨v, hv, ha, heq⟩ := (hn.2 (n - 1)).mpr (by omega)
      have := le_maxNumber ((hvs v).mpr ⟨hv, ha⟩)
      omega
  obtain rfl : n = ArtifactVersionRepository.maxNumber vs + 1 := by omega
  exact hn

section Rules

variable {env : Env} {r : WorkspaceRequest} {α : Type} {h h' : Told} {l l' : OpenTx}
  {c c' : Database}

/-- The session has not written artifacts yet, and has not committed. -/
structure Blank (h : Told) (l : OpenTx) : Prop where
  unwritten : logOn artifactTables l = []
  uncommitted : .commit ∉ h

theorem Blank.since {D : Discipline Row} (b : Blank h l) (x : Since D h l c h' l' c')
    (hl : logOn artifactTables l' = logOn artifactTables l) : Blank h' l' :=
  ⟨hl.trans b.unwritten, x.told.no_commit b.uncommitted⟩

theorem Blank.keeping (b : Blank h l) : Keeping env r h l c := by
  refine ⟨b.uncommitted, ?_, ?_⟩ <;> rw [b.unwritten]
  · exact .nothing
  · exact fun _ hw => nomatch hw

/-- A session that writes a version of an artifact that it has locked, or only the artifact. -/
theorem Blank.append (b : Blank h l) {t : GeneratedArtifact}
    (he : ArtifactEffect env l.ids c r [.store (toRow t)]) :
    Keeping env r h (l.insert (toRow t)) c := by
  refine ⟨b.uncommitted, ?_, ?_⟩ <;> rw [logOn_insert _ rfl, b.unwritten]
  · exact he
  · exact locked_insert _

/-- The part of a request after its last write of artifacts. -/
theorem ensures_kept {p : Db α} {P : α → Prop} (hp : p.Only (Writes besideArtifacts) P)
    (k : Keeping env r h l c) :
    (artifactDiscipline env).ensures (Keeping env r) (returns fun _ => Keeping env r) p h l c :=
  ensures_beside hp fun _ _ _ x => k.extends x

/-- A request that writes no artifact. -/
theorem ensures_unwritten {p : Db α} {P : α → Prop} (b : Blank h l)
    (hp : p.Only (Writes besideArtifacts) P) :
    (artifactDiscipline env).ensures (Keeping env r) (returns fun _ => Keeping env r) p h l c :=
  ensures_of_rely fun _ _ => ensures_kept hp b.keeping

variable {Φ : α → Told → OpenTx → Database → Prop}
  {D : Discipline Row} {owes : Told → OpenTx → Database → Prop}

/-- A new artifact. -/
theorem ensures_createArtifact {u : UUID} {o : Option UUID} {artifactType : ArtifactType}
    {name content : String} {description : Option String} {g : GeneratedArtifact → Db α}
    (hg : ∀ (a : GeneratedArtifact) h' c', a.currentVersionId = none → a.content = content →
      Since D h l c h' ((l.draw a.id).insert (toRow a)) c' →
      D.ensures owes (returns Φ) (g a) h' ((l.draw a.id).insert (toRow a)) c') :
    D.ensures owes (returns Φ)
      (ArtifactRepository.createArtifact u o artifactType name description content >>= g) h l c := by
  rw [ArtifactRepository.createArtifact]
  simp only [bind_assoc]
  refine ensures_uuid4 fun c₁ n x₁ => ?_
  refine ensures_now fun h₂ c₂ t x₂ _ => ensures_now fun h₃ c₃ t' x₃ _ => ?_
  refine ensures_insertOf fun c₄ x₄ _ _ => ?_
  simp only [pure_bind]
  exact hg ⟨n, u, o, artifactType, name, description, content, none, t, t', none, none⟩ h₃ c₄ rfl rfl
    (x₁.trans (x₂.trans (x₃.trans x₄)))

/-- A new version. -/
theorem ensures_createVersion {a u : UUID} {n : ℕ} {content hash : String}
    {g : ArtifactVersion → Db α}
    (hg : ∀ (v : ArtifactVersion) h' c', v.artifactId = a → v.versionNumber = n →
      v.content = content → v.contentHash = hash →
      Since D h l c h' ((l.draw v.id).insert (toRow v)) c' →
      D.ensures owes (returns Φ) (g v) h' ((l.draw v.id).insert (toRow v)) c') :
    D.ensures owes (returns Φ)
      (ArtifactVersionRepository.createVersion a n content hash u >>= g) h l c := by
  rw [ArtifactVersionRepository.createVersion]
  simp only [bind_assoc]
  refine ensures_uuid4 fun c₁ i x₁ => ensures_now fun h₂ c₂ t x₂ _ => ?_
  refine ensures_insertOf fun c₃ x₃ _ _ => ?_
  simp only [pure_bind]
  exact hg ⟨i, a, n, content, hash, u, t⟩ h₂ c₃ rfl rfl rfl rfl (x₁.trans (x₂.trans x₃))

/-- The flush of a changed artifact. -/
theorem ensures_updateArtifact {artifact : GeneratedArtifact} {changes : ArtifactRepository.Changes}
    {g : GeneratedArtifact → Db α}
    (hg : ∀ t row h' c', Since D h l c h' (l.insert (toRow (changes.flush artifact t row))) c' →
      row ∈ rowsOf GeneratedArtifact (l.view c') → row.id = artifact.id →
      D.ensures owes (returns Φ) (g (changes.flush artifact t row)) h'
        (l.insert (toRow (changes.flush artifact t row))) c') :
    D.ensures owes (returns Φ) (ArtifactRepository.updateArtifact artifact changes >>= g) h l c := by
  rw [ArtifactRepository.updateArtifact]
  simp only [bind_assoc]
  refine ensures_now fun h₁ c₁ t x₁ _ => ensures_updateById fun c₂ row x₂ hrow hid => ?_
  exact hg t row h₁ c₂ (x₁.trans x₂) hrow hid

/-- An artifact that the session has locked, and whose row it has not written. -/
structure Locked (artifact : GeneratedArtifact) (l : OpenTx) (c : Database) : Prop where
  mem : artifact ∈ rowsOf GeneratedArtifact c
  lock : keyOf artifact ∈ l.locks

theorem Locked.since {artifact : GeneratedArtifact} (k : Locked artifact l c)
    (x : Since D h l c h' l' c') : Locked artifact l' c' :=
  ⟨(mem_of_locked x.env k.lock).mpr k.mem, x.locks _ k.lock⟩

/-- The row of a locked artifact that its session updates. -/
theorem Locked.row {artifact row : GeneratedArtifact} (k : Locked artifact l c)
    (hrow : row ∈ rowsOf GeneratedArtifact c) (hid : row.id = artifact.id) : row = artifact :=
  entity_ext hrow k.mem hid

/-- An artifact that is looked up with its lock. -/
theorem ensures_getArtifactForUpdate {id : UUID} {g : Option GeneratedArtifact → Db α}
    (b : Blank h l) (hnone : ∀ l' c', Blank h l' → D.ensures owes (returns Φ) (g none) h l' c')
    (hsome : ∀ a l' c', Since D h l c h l' c' → Blank h l' → Locked a l' c' → a.id = id →
      D.ensures owes (returns Φ) (g (some a)) h l' c') :
    D.ensures owes (returns Φ) (ArtifactRepository.getArtifactForUpdate id >>= g) h l c := by
  refine ensures_lockOne (fun c' ks x => hnone _ c' (b.since x rfl)) fun c' ks a x ha hp hk => ?_
  exact hsome a _ c' x (b.since x rfl) ⟨(mem_view_of_unwritten b.unwritten rfl).mp ha, hk⟩
    (activeArtifact_eq.mp hp).1

/-- A read of other tables. -/
theorem ensures_aside {β : Type} {p : Db β} {P : β → Prop} {g : β → Db α}
    (hp : p.Only (Writes besideArtifacts) P) (b : Blank h l)
    (hg : ∀ a h' l' c', Since D h l c h' l' c' → Blank h' l' →
      D.ensures owes (returns Φ) (g a) h' l' c') :
    D.ensures owes (returns Φ) (p >>= g) h l c :=
  ensures_frame (S := artifactTables) hp fun a h' l' c' _ x =>
    hg a h' l' c' x.toSince (b.since x.toSince x.log)

/-- **The next version of a locked artifact** becomes its current one. -/
theorem ensures_appendVersion {user : User} {artifact : GeneratedArtifact} {content : String}
    {g : GeneratedArtifact × ArtifactVersion → Db α} (b : Blank h l) (k : Locked artifact l c)
    (hg : ∀ a h' l' c', Keeping env r h' l' c' →
      (artifactDiscipline env).ensures (Keeping env r) (returns Φ) (g a) h' l' c') :
    (artifactDiscipline env).ensures (Keeping env r) (returns Φ)
      (ArtifactService.appendVersion env user artifact content >>= g) h l c := by
  unfold ArtifactService.appendVersion ArtifactVersionRepository.getMaxVersionNumber
  simp only [bind_assoc]
  refine ensures_selectOf fun c₁ x₁ => ?_
  simp only [pure_bind]
  have hnext : Next c₁ artifact.id (ArtifactVersionRepository.maxNumber
      ((rowsOf ArtifactVersion (l.view c₁)).filter (versionOf artifact.id)) + 1) := by
    refine next_maxNumber x₁.env.inv fun v => ?_
    rw [List.mem_filter, mem_view_of_unwritten b.unwritten rfl, versionOf, decide_eq_true_eq]
  refine ensures_createVersion fun v h₂ c₂ ha hn hcontent hhash x₂ => ?_
  have hlog₂ : logOn artifactTables ((l.draw v.id).insert (toRow v)) = [.store (toRow v)] := by
    rw [logOn_insert _ rfl, logOn_draw, b.unwritten]
    rfl
  refine ensures_updateArtifact fun t row h₃ c₃ x₃ hrow hid => ?_
  have x := x₂.trans x₃
  have hrow : row = artifact := by
    refine ((k.since x₁).since x).row ?_ hid
    have hrow := (mem_rowsOf_view (S := artifactTables) rfl).mp hrow
    rw [hlog₂, Table.apply_cons, Table.apply_nil] at hrow
    exact (mem_rowsOf_store_other (by decide)).mp hrow
  subst hrow
  -- the lock on the artifact has kept its versions
  have hsame : SameVersions row.id c₁ c₃ := x.env.guarded _ (k.since x₁).lock rfl
  refine ensures_frame (S := artifactTables)
    (only_recordEvent (fun _ _ => Bool.false_ne_true) _ _ _ _) fun _ h₄ l₄ c₄ _ x₄ => ?_
  refine hg _ h₄ l₄ c₄ (.extends ?_ x₄)
  refine ⟨(x₁.trans x).told.no_commit b.uncommitted, ?_, ?_⟩ <;> rw [logOn_insert _ rfl, hlog₂]
  · refine .append ((k.since x₁).since x).mem rfl List.mem_cons_self ?_ (hcontent ▸ hhash)
      ⟨ha, ?_, ?_⟩
    · rw [ha, hn]
      exact hsame.next hnext
    · exact flushed_current _ _
    · exact (flushed_current _ _).trans hcontent.symm
  · intro w hw
    rcases List.mem_cons.mp hw with rfl | hw
    · exact List.mem_cons_of_mem _ List.mem_cons_self
    · cases List.mem_singleton.mp hw
      exact List.mem_cons_self

end Rules

/-! ## Services -/

section Services

variable {env : Env} {r : WorkspaceRequest} {user : User} {h : Told} {l : OpenTx} {c : Database}

theorem ensures_createService (b : Blank h l) (hr : r.versioned = true)
    (payload : ArtifactCreateRequest) :
    (artifactDiscipline env).ensures (Keeping env r) (returns fun _ => Keeping env r)
      (ArtifactService.create env user payload) h l c := by
  unfold ArtifactService.create
  refine ensures_aside (only_validateContentSize env _) b fun _ h₁ l₁ c₁ _ b₁ => ?_
  refine ensures_aside (only_validateOrgCreate _ _) b₁ fun _ h₂ l₂ c₂ _ b₂ => ?_
  refine ensures_createArtifact fun a h₃ c₃ hnone hcontent x₃ => ?_
  refine ensures_createVersion fun v h₄ c₄ ha hn hvcontent hhash x₄ => ?_
  have hlog₄ : logOn artifactTables (((((l₂.draw a.id).insert (toRow a)).draw v.id)).insert (toRow v)) =
      [.store (toRow a), .store (toRow v)] := by
    rw [logOn_insert _ rfl, logOn_draw, logOn_insert _ rfl, logOn_draw, b₂.unwritten]
    rfl
  refine ensures_updateArtifact fun t row h₅ c₅ x₅ hrow hid => ?_
  have hrow : row = a := by
    have hrow := (mem_rowsOf_view (S := artifactTables) rfl).mp hrow
    rw [hlog₄, Table.apply_cons, Table.apply_cons, Table.apply_nil,
      mem_rowsOf_store_other (by decide), mem_rowsOf_store] at hrow
    exact hrow.resolve_right fun h => h.2 hid
  subst hrow
  refine ensures_kept (P := fun _ => True) ?_
    ⟨(x₃.trans (x₄.trans x₅)).told.no_commit b₂.uncommitted, ?_, ?_⟩
  · exact only_bind (only_recordEvent (fun _ _ => Bool.false_ne_true) _ _ _ _) fun _ =>
      only_bind (only_tryMarkFlag allowsSideEffects_besideArtifacts _ _ _ _) fun _ =>
        only_toDetail _ _
  · rw [logOn_insert _ rfl, hlog₄]
    refine .create hr (List.mem_cons_of_mem _ List.mem_cons_self) List.mem_cons_self rfl hn
      (hvcontent ▸ hhash) ⟨ha, ?_, ?_⟩
    · change flushed row.currentVersionId (some v.id) row.currentVersionId = _
      exact flushed_current _ _
    · exact (flushed_current _ _).trans hvcontent.symm
  · rw [logOn_insert _ rfl, hlog₄]
    intro w hw
    rcases List.mem_cons.mp hw with rfl | hw
    · exact List.mem_cons_of_mem _ (List.mem_cons_of_mem _ List.mem_cons_self)
    · rcases List.mem_cons.mp hw with rfl | hw
      · exact List.mem_cons_of_mem _ List.mem_cons_self
      · cases List.mem_singleton.mp hw
        exact List.mem_cons_self

theorem ensures_updateService (b : Blank h l) (id : UUID) (name description : Option String) :
    (artifactDiscipline env).ensures (Keeping env r) (returns fun _ => Keeping env r)
      (ArtifactService.updateArtifact user id name description) h l c := by
  unfold ArtifactService.updateArtifact
  refine ensures_selectOne (fun _ _ _ _ _ => ensures_throw) fun h₁ c₁ a x₁ _ _ _ => ?_
  refine ensures_aside (only_requireAccess _ _ _) (b.since x₁ rfl) fun _ h₂ l₂ c₂ _ b₂ => ?_
  by_cases hfields : (name.isNone && description.isNone) = true
  · rw [if_pos hfields]
    exact ensures_throw
  rw [if_neg hfields]
  refine ensures_updateArtifact fun t row h₃ c₃ x₃ hrow _ => ?_
  refine ensures_kept (P := fun _ => True) ?_ (Blank.append ⟨b₂.unwritten, ?_⟩ ?_)
  · exact only_bind (only_currentVersion _ _) fun _ => trivial
  · exact x₃.told.no_commit b₂.uncommitted
  · exact .keep ((mem_view_of_unwritten b₂.unwritten rfl).mp hrow) rfl (flushed_self _ _)
      (flushed_self _ _)

theorem ensures_deleteService (b : Blank h l) (id : UUID) :
    (artifactDiscipline env).ensures (Keeping env r) (returns fun _ => Keeping env r)
      (ArtifactService.deleteArtifact user id) h l c := by
  unfold ArtifactService.deleteArtifact
  refine ensures_selectOne (fun _ _ _ _ _ => ensures_throw) fun h₁ c₁ a x₁ _ _ _ => ?_
  refine ensures_aside (only_requireAccess _ _ _) (b.since x₁ rfl) fun _ h₂ l₂ c₂ _ b₂ => ?_
  unfold ArtifactRepository.softDelete
  simp only [bind_assoc]
  refine ensures_now fun h₃ c₃ t x₃ _ => ensures_now fun h₄ c₄ t' x₄ _ => ?_
  refine ensures_updateById fun c₅ row x₅ hrow _ => ?_
  refine ensures_kept (only_recordEvent (fun _ _ => Bool.false_ne_true) _ _ _ _)
    (Blank.append ⟨b₂.unwritten, ?_⟩ ?_)
  · exact (x₃.trans (x₄.trans x₅)).told.no_commit b₂.uncommitted
  · exact .keep ((mem_view_of_unwritten b₂.unwritten rfl).mp hrow) rfl rfl rfl

/-- A version that is found by its hash is one of the artifact. -/
theorem mem_of_head_newestFirst {vs : List ArtifactVersion} {v : ArtifactVersion}
    (h : (ArtifactVersionRepository.newestFirst vs).head? = some v) : v ∈ vs :=
  List.mem_mergeSort.mp (List.mem_of_head? h)

theorem ensures_addVersion (b : Blank h l) (id : UUID) (content : String) :
    (artifactDiscipline env).ensures (Keeping env r) (returns fun _ => Keeping env r)
      (ArtifactService.addVersion env user id content) h l c := by
  unfold ArtifactService.addVersion
  refine ensures_aside (only_validateContentSize env _) b fun _ h₁ l₁ c₁ _ b₁ => ?_
  refine ensures_getArtifactForUpdate b₁ (fun _ _ _ => ensures_throw) fun a l₂ c₂ _ b₂ k₂ _ => ?_
  refine ensures_aside (only_requireAccess _ _ _) b₂ fun _ h₃ l₃ c₃ x₃ b₃ => ?_
  have k₃ := k₂.since x₃
  unfold ArtifactVersionRepository.getByHash
  simp only [bind_assoc]
  refine ensures_selectOf fun c₄ x₄ => ?_
  simp only [pure_bind]
  have b₄ := b₃.since x₄ rfl
  have k₄ := k₃.since x₄
  cases hfound : (ArtifactVersionRepository.newestFirst ((rowsOf ArtifactVersion (l₃.view c₄)).filter
      (versionHashed a.id (computeContentHash env content)))).head? with
  | none =>
    simp only
    refine ensures_appendVersion b₄ k₄ fun p _ _ _ k => ?_
    obtain ⟨_, _⟩ := p
    exact ensures_kept (only_pure _) k
  | some existing =>
    simp only
    obtain ⟨hmem, hp⟩ := List.mem_filter.mp (mem_of_head_newestFirst hfound)
    have hversion : existing ∈ rowsOf ArtifactVersion c₄ :=
      (mem_view_of_unwritten b₃.unwritten rfl).mp hmem
    have ha := (versionHashed_eq.mp hp).1
    by_cases hcurrent : a.currentVersionId ≠ some existing.id
    · rw [if_pos hcurrent]
      refine ensures_updateArtifact fun t row h₅ c₅ x₅ hrow hid => ?_
      have k₅ := k₄.since x₅
      obtain rfl : row = a := k₅.row ((mem_view_of_unwritten b₄.unwritten rfl).mp hrow) hid
      refine ensures_kept (only_pure _) (Blank.append ⟨b₄.unwritten, ?_⟩ ?_)
      · exact x₅.told.no_commit b₄.uncommitted
      · refine .point k₅.mem rfl ((x₅.env.guarded _ k₄.lock rfl existing ha).mpr hversion) ⟨ha, ?_, ?_⟩
        · exact flushed_current _ _
        · exact flushed_current _ _
    · rw [if_neg hcurrent]
      exact ensures_unwritten b₄ (only_pure _)

theorem ensures_restoreVersion (b : Blank h l) (id : UUID) (n : ℕ) :
    (artifactDiscipline env).ensures (Keeping env r) (returns fun _ => Keeping env r)
      (ArtifactService.restoreVersion env user id n) h l c := by
  unfold ArtifactService.restoreVersion
  refine ensures_getArtifactForUpdate b (fun _ _ _ => ensures_throw) fun a l₁ c₁ _ b₁ k₁ _ => ?_
  refine ensures_aside (only_requireAccess _ _ _) b₁ fun _ h₂ l₂ c₂ x₂ b₂ => ?_
  refine ensures_selectOne (fun _ _ _ _ _ => ensures_throw) fun h₃ c₃ source x₃ _ _ _ => ?_
  refine ensures_appendVersion (b₂.since x₃ rfl) ((k₁.since x₂).since x₃) fun p _ _ _ k => ?_
  obtain ⟨_, _⟩ := p
  exact ensures_kept (P := fun _ => True) (only_bind (only_recordEvent
    (fun _ _ => Bool.false_ne_true) _ _ _ _) fun _ => only_bind (only_toDetail _ _) fun _ => trivial) k

/-- The archive flag of a locked artifact. -/
theorem ensures_setArchived {α : Type} {Φ : α → Told → OpenTx → Database → Prop}
    {g : GeneratedArtifact → Db α} (b : Blank h l) (a : GeneratedArtifact) (archived : Bool)
    (hg : ∀ a h' l' c', Keeping env r h' l' c' →
      (artifactDiscipline env).ensures (Keeping env r) (returns Φ) (g a) h' l' c') :
    (artifactDiscipline env).ensures (Keeping env r) (returns Φ)
      (ArtifactTagRepository.setArchived a archived >>= g) h l c := by
  have hwrite : ∀ at_ h' c', Blank h' l →
      (artifactDiscipline env).ensures (Keeping env r) (returns Φ)
        ((do let updatedAt ← now
             updateById a.id (ArtifactTagRepository.archivedRow a.archivedAt at_ updatedAt)
               fun _ => rfl) >>= g) h' l c' := by
    intro at_ h' c' b'
    simp only [bind_assoc]
    refine ensures_now fun h₁ c₁ t x₁ _ => ensures_updateById fun c₂ row x₂ hrow _ => ?_
    have b₂ := b'.since (x₁.trans x₂)
    refine hg _ _ _ _ (Blank.append ⟨b'.unwritten, ?_⟩ ?_)
    · exact (x₁.trans x₂).told.no_commit b'.uncommitted
    · exact .keep ((mem_view_of_unwritten b'.unwritten rfl).mp hrow) rfl rfl rfl
  unfold ArtifactTagRepository.setArchived
  cases archived with
  | false => exact hwrite none h c b
  | true =>
    simp only [if_true, bind_assoc]
    exact ensures_now fun h₁ c₁ t x₁ _ => hwrite (some t) h₁ c₁ (b.since x₁ rfl)

theorem ensures_archive (b : Blank h l) (id : UUID) :
    (artifactDiscipline env).ensures (Keeping env r) (returns fun _ => Keeping env r)
      (ArtifactService.archive user id) h l c := by
  unfold ArtifactService.archive
  refine ensures_getArtifactForUpdate b (fun _ _ _ => ensures_throw) fun a l₁ c₁ _ b₁ k₁ _ => ?_
  refine ensures_aside (only_requireAccess _ _ _) b₁ fun _ h₂ l₂ c₂ x₂ b₂ => ?_
  refine ensures_setArchived b₂ a true fun _ _ _ _ k => ensures_kept (P := fun _ => True) ?_ k
  exact only_bind (P := fun _ => True) ((only_selectOf _).bind fun _ _ => trivial) fun _ => trivial

theorem ensures_unarchive (b : Blank h l) (id : UUID) :
    (artifactDiscipline env).ensures (Keeping env r) (returns fun _ => Keeping env r)
      (ArtifactService.unarchive user id) h l c := by
  unfold ArtifactService.unarchive
  refine ensures_getArtifactForUpdate b (fun _ _ _ => ensures_throw) fun a l₁ c₁ _ b₁ k₁ _ => ?_
  refine ensures_aside (only_requireAccess _ _ _) b₁ fun _ h₂ l₂ c₂ x₂ b₂ => ?_
  exact ensures_setArchived b₂ a false fun _ _ _ _ k => ensures_kept (only_pure _) k

/-- **The end of a generator** creates the artifact, or keeps the draft. -/
theorem ensures_persist (b : Blank h l) {payload : GeneratorSaveOptions}
    (hr : r.versioned = payload.saveArtifact) (artifactType : ArtifactType)
    (content defaultName : String) :
    (artifactDiscipline env).ensures (Keeping env r) (returns fun _ => Keeping env r)
      (persist env user payload artifactType content defaultName) h l c := by
  unfold persist applyGeneratorPoliciesAndSave
  simp only [bind_assoc]
  refine ensures_aside (only_requestedFindings env _ _ _ _) b fun findings h₁ l₁ c₁ _ b₁ => ?_
  by_cases hsave : payload.saveArtifact = true
  · simp only [hsave, if_true]
    by_cases hblock : blocksSave env findings = true
    · rw [if_pos hblock]
      exact ensures_throw
    rw [if_neg hblock]
    simp only [bind_assoc]
    refine ensures_aside (only_artifactCreateRequest _ _ _ _) b₁ fun request h₂ l₂ c₂ _ b₂ => ?_
    simp only [pure_bind]
    exact ensures_map (ensures_createService b₂ (hr.trans hsave) request)
  · simp only [hsave]
    refine ensures_createArtifact fun a h₂ c₂ hnone _ x₂ => ensures_kept (only_pure _) ?_
    refine ⟨x₂.told.no_commit b₁.uncommitted, ?_, ?_⟩ <;>
      rw [logOn_insert _ rfl, logOn_draw, b₁.unwritten]
    · exact .draft (hr.trans (by simpa using hsave)) List.mem_cons_self hnone
    · exact locked_insert _

/-! ## Requests -/

/-- A request that authenticates its user first. -/
theorem ensures_authenticated {α β : Type} {access : RawToken} {service : User → Db α} {f : α → β}
    (b : Blank h l) (hservice : ∀ user h' l' c', Blank h' l' →
      (artifactDiscipline env).ensures (Keeping env r) (returns fun _ => Keeping env r)
        (service user) h' l' c') :
    (artifactDiscipline env).ensures (Keeping env r) (returns fun _ => Keeping env r)
      (getCurrentUser env access >>= fun user => service user >>= fun a => pure (f a)) h l c :=
  ensures_aside (only_getCurrentUser env access) b fun user h' l' c' _ b' =>
    ensures_map (hservice user h' l' c' b')

theorem ensures_artifactRoute (b : Blank h l) (r : ArtifactRequest) :
    (artifactDiscipline env).ensures (Keeping env (.artifact r))
      (returns fun _ => Keeping env (.artifact r)) (r.route env) h l c := by
  cases r with
  | create access payload =>
    exact ensures_authenticated b fun _ _ _ _ b' => ensures_createService b' rfl payload
  | get access id => exact ensures_authenticated b fun _ _ _ _ b' => ensures_unwritten b' (only_getArtifact _ _)
  | update access id name description =>
    exact ensures_authenticated b fun _ _ _ _ b' => ensures_updateService b' id name description
  | delete access id =>
    exact ensures_authenticated b fun _ _ _ _ b' => ensures_deleteService b' id
  | listVersions access id limit offset =>
    exact ensures_authenticated b fun _ _ _ _ b' => ensures_unwritten b' (only_listVersions _ _ _ _)
  | getVersion access id n =>
    exact ensures_authenticated b fun _ _ _ _ b' => ensures_unwritten b' (only_getVersion _ _ _)
  | addVersion access id content =>
    exact ensures_authenticated b fun _ _ _ _ b' => ensures_addVersion b' id content
  | restoreVersion access id n =>
    exact ensures_authenticated b fun _ _ _ _ b' => ensures_restoreVersion b' id n
  | archive access id => exact ensures_authenticated b fun _ _ _ _ b' => ensures_archive b' id
  | unarchive access id => exact ensures_authenticated b fun _ _ _ _ b' => ensures_unarchive b' id

theorem ensures_generatorRoute (b : Blank h l) (r : GeneratorRequest) :
    (artifactDiscipline env).ensures (Keeping env (.generator r))
      (returns fun _ => Keeping env (.generator r)) (r.route env) h l c := by
  have hW : ∀ e : UsageEvent, besideArtifacts.insert (toRow e) := fun _ => Bool.false_ne_true
  cases r with
  | dockerfile access payload =>
    refine ensures_authenticated b fun user h₁ l₁ c₁ b₁ => ?_
    refine ensures_aside (only_dockerfileDraft env hW user payload) b₁ fun _ h₂ l₂ c₂ _ b₂ => ?_
    exact ensures_map (ensures_persist b₂ rfl _ _ _)
  | kubernetes access payload =>
    refine ensures_authenticated b fun user h₁ l₁ c₁ b₁ => ?_
    refine ensures_aside (only_kubernetesDraft env payload) b₁ fun _ h₂ l₂ c₂ _ b₂ => ?_
    exact ensures_map (ensures_persist b₂ rfl _ _ _)
  | pipeline access payload =>
    refine ensures_authenticated b fun user h₁ l₁ c₁ b₁ => ?_
    exact ensures_map (ensures_persist b₁ rfl _ _ _)
  | command access payload =>
    refine ensures_authenticated b fun user h₁ l₁ c₁ b₁ => ?_
    refine ensures_aside (only_commandDraft env hW user payload) b₁ fun _ h₂ l₂ c₂ _ b₂ => ?_
    exact ensures_map (ensures_persist b₂ rfl _ _ _)

theorem ensures_workspaceRoute (b : Blank h l) (r : WorkspaceRequest) :
    (artifactDiscipline env).ensures (Keeping env r) (returns fun _ => Keeping env r)
      (r.route env) h l c := by
  cases r with
  | artifact r => exact ensures_map (ensures_artifactRoute b r)
  | generator r => exact ensures_map (ensures_generatorRoute b r)

end Services

/-- A session that returns has committed. -/
def Answered (_ : WorkspaceRequest) (result : Except Exc WorkspaceResponse) (h : Told) : Prop :=
  ∀ a, result = .ok a → .commit ∈ h

/-- **Every request commits only its effect**, and has committed when it returns. -/
theorem ensures_workspace (env : Env) :
    (artifactDiscipline env).Ensures (Keeping env) Answered (WorkspaceRequest.serve env) := by
  intro r c _
  refine ensures_unitOfWork (returns fun _ => Keeping env r) (fun a h l c ha => ⟨ha a rfl, ?_⟩)
    (fun _ _ _ _ _ ha => nomatch ha) (ensures_workspaceRoute ⟨rfl, List.not_mem_nil⟩ r)
  exact fun _ _ _ _ => List.mem_cons_self

end DevOps
