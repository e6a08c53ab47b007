import DevOpsAssistant.Artifacts.Requests

/-!
# The versions and the contents of artifacts over whole runs

The artifact service gives a new artifact its first version. A generator that is not asked for an artifact
keeps what it has generated as an artifact without a version; the next version replaces this content.

* `artifacts_kept`: the invariant of the sessions on artifacts, along every run.
* `versions_of_step`: no step removes or changes a version.
* **`versions_chained`**: versions are numbered from 1 on, they stay as they are, their hashes are those
  of their contents, and an artifact that points to a version has its content.
* `servedWorkspace`: the state after a list of requests.
* `EffectOf`: what serving one request has done to artifacts; **`exists_effectOf`**.
* `Recoverable`: the content of an artifact is that of one of its versions.
* **`contents_kept_iff`**: which requests create artifacts whose contents are never lost.
-/

namespace DevOps

open Txn Discipline

/-- The invariant of the sessions on artifacts. -/
abbrev ArtifactsKept (env : Env) : WorkspaceRun → Prop :=
  Kept (artifactDiscipline env) (Keeping env) Answered

section Runs

variable {env : Env} {x y : WorkspaceRun} {c d : WorkspaceConfig} {s : State}

theorem ArtifactsKept.step (h : ArtifactsKept env x)
    (hs : RecordedStep respond (WorkspaceRequest.serve env) x y) :
    ArtifactsKept env y ∧ Commits (Keeping env) x y :=
  Kept.step (ensures_workspace env) (fun _ _ _ _ => commitOk_of_keeping) (fun _ _ _ _ h => nomatch h)
    h hs

theorem ArtifactsKept.reach {G : WorkspaceRun → WorkspaceRun → Prop} (h : ArtifactsKept env x)
    (hr : RecordedReach respond (WorkspaceRequest.serve env) G x y) : ArtifactsKept env y :=
  Kept.reach (ensures_workspace env) (fun _ _ _ _ => commitOk_of_keeping)
    (fun _ _ _ _ h => nomatch h) h hr

/-- There is no artifact and no version yet. -/
def NoArtifacts (c : Database) : Prop := ∀ r ∈ c.rows, artifactTables r.table = false

theorem NoArtifacts.notMem {c : Database} (h : NoArtifacts c) {T : Type} [Entity T]
    (hT : artifactTables (Entity.table T) = true) {t : T} : t ∉ rowsOf T c := by
  intro ht
  have := h _ (mem_rowsOf.mp ht)
  rw [Entity.table_toRow, hT] at this
  cases this

theorem NoArtifacts.chained {c : Database} (h : NoArtifacts c) : Chained env c := by
  refine ⟨fun v hv => absurd hv (h.notMem rfl), fun a => ⟨1, Nat.le_refl 1, fun m => ?_⟩,
    fun v hv => absurd hv (h.notMem rfl), fun a ha => absurd ha (h.notMem rfl)⟩
  refine ⟨fun ⟨v, hv, _⟩ => absurd hv (h.notMem rfl), fun hm => ?_⟩
  omega

/-- The run of a deployment without artifacts starts with the invariant. -/
theorem artifactsKept_open (h₀ : NoArtifacts s.committed) :
    ArtifactsKept env (s.open : WorkspaceConfig).unrecorded := by
  refine Kept.open h₀.chained fun r hr n hn => ?_
  have htable := h₀ r hr
  cases r with
  | generatedArtifact a | artifactVersion v => cases htable
  | _ => cases hn

/-- **A step** leaves the versions that are committed. -/
theorem ArtifactsKept.versions_of_step (h : ArtifactsKept env x)
    (hs : RecordedStep respond (WorkspaceRequest.serve env) x y) {v : ArtifactVersion}
    (hv : v ∈ rowsOf ArtifactVersion x.config.committed) :
    v ∈ rowsOf ArtifactVersion y.config.committed := by
  rcases (h.step hs).2 with heq | ⟨n, tx, hn, -, -, hcom, howes⟩
  · rwa [heq]
  · rw [hcom]
    refine (mem_rowsOf_view (S := artifactTables) rfl).mpr ?_
    exact howes.effect.version_mem (h.unused tx (List.mem_of_getElem? hn)) hv

theorem ArtifactsKept.versions_of_reach {G : WorkspaceRun → WorkspaceRun → Prop}
    (h : ArtifactsKept env x) (hr : RecordedReach respond (WorkspaceRequest.serve env) G x y)
    {v : ArtifactVersion} (hv : v ∈ rowsOf ArtifactVersion x.config.committed) :
    v ∈ rowsOf ArtifactVersion y.config.committed := by
  induction hr with
  | refl => exact hv
  | tail hxy hs ih => exact (h.reach hxy).versions_of_step hs.1 ih

/-- **The version chain**: in every state `c` that interleaved sessions reach, the versions of an artifact
are numbered from 1 on, every version stays as it is in all later states `d`, its hash is that of its
content, and an artifact that points to a version has the content of this version of it. -/
theorem versions_chained (h₀ : NoArtifacts s.committed)
    (hc : Reach respond (WorkspaceRequest.serve env) s.open c)
    (hd : Reach respond (WorkspaceRequest.serve env) c d) :
    (∀ a, (versionNumbers a c.committed).Perm
      (List.range' 1 (versionNumbers a c.committed).length)) ∧
    (∀ v ∈ rowsOf ArtifactVersion c.committed, v ∈ rowsOf ArtifactVersion d.committed) ∧
    (∀ v ∈ rowsOf ArtifactVersion c.committed, v.contentHash = env.sha256 v.content) ∧
    ∀ a ∈ rowsOf GeneratedArtifact c.committed, ∀ i, a.currentVersionId = some i →
      ∃ v ∈ rowsOf ArtifactVersion c.committed, v.id = i ∧ v.artifactId = a.id ∧
        v.content = a.content := by
  obtain ⟨g, hx⟩ := RecordedReach.of_reach hc (fun _ => [])
  obtain ⟨g', hy⟩ := RecordedReach.of_reach hd g
  have hk : ArtifactsKept env ⟨c, g⟩ := (artifactsKept_open h₀).reach hx
  exact ⟨hk.inv.numbers_perm, fun v hv => hk.versions_of_reach hy hv, hk.inv.hash, hk.inv.current⟩

end Runs

/-! ## A version is added while another one is restored -/

/-- A deployment with one user. -/
def authorState : State :=
  { State.trial with
    nextId := 2
    committed := Table.empty.apply [.store (toRow
      { id := 1, email := "a", username := "a", hashedPassword := "a", role := .user,
        isActive := true, emailVerifiedAt := none : User })] }

/-- The access token of the user. -/
def authorAccess : RawToken := .jwt ⟨some 1, 1, .access, 3600, none⟩

/-- The artifact 2 is created; a version is added to it, and the restore of the first one has to wait for
the lock. -/
def restoringMoves : List (Move Exc WorkspaceRequest) :=
  Move.alone (.artifact (.create authorAccess ⟨"n", none, .other, "x", none⟩)) 0 22 ++
    Move.alone (.artifact (.addVersion authorAccess 2 "y")) 1 10 ++
    Move.alone (.artifact (.restoreVersion authorAccess 2 1)) 2 3 ++
    List.replicate 8 (.turn 1) ++ List.replicate 18 (.turn 2)

theorem versions_chained_author : ∃ c : WorkspaceConfig,
    Reach respond (WorkspaceRequest.serve Env.trial) authorState.open c ∧
    (versionNumbers 2 c.committed).length = 3 ∧
    (versionNumbers 2 c.committed).Perm [1, 2, 3] := by
  obtain ⟨c, hc, hlen⟩ : ∃ c, Reach respond (WorkspaceRequest.serve Env.trial)
      (authorState.open : WorkspaceConfig) c ∧
      decide ((versionNumbers 2 c.committed).length = 3) = true :=
    exists_reach_of_run respond _ restoringMoves _ (by decide +kernel)
  have hlen := of_decide_eq_true hlen
  refine ⟨c, hc, hlen, ?_⟩
  have hperm := (versions_chained (by unfold NoArtifacts; decide) hc .refl).1 2
  rw [hlen] at hperm
  exact hperm

end DevOps

namespace DevOps

open Txn Discipline

/-- The state after the requests `rs`, each served when the one before has ended. -/
abbrev servedWorkspace (env : Env) (s : State) (rs : List WorkspaceRequest) : State :=
  s.serveAll respond (WorkspaceRequest.serve env) rs

variable {env : Env} {s s₀ : State} {r : WorkspaceRequest} {ids : List ℕ} {c d : Database}
  {ws : List (Write Row Key)}

theorem servedWorkspace_append (s : State) (rs rs' : List WorkspaceRequest) :
    servedWorkspace env s (rs ++ rs') = servedWorkspace env (servedWorkspace env s rs) rs' :=
  Store.serveAll_append respond (WorkspaceRequest.serve env) s rs rs'

/-! ## One request -/

/-- The request `r` has led from the rows `c` to `d`: its session has drawn `ids` and written `ws`. -/
structure EffectOf (env : Env) (r : WorkspaceRequest) (c d : Database) (ids : List ℕ)
    (ws : List (Write Row Key)) : Prop where
  effect : ArtifactEffect env ids c r ws
  unknown : Unknown ids c
  artifacts : ∀ a, a ∈ rowsOf GeneratedArtifact d ↔ a ∈ rowsOf GeneratedArtifact (c.apply ws)
  versions : ∀ v, v ∈ rowsOf ArtifactVersion d ↔ v ∈ rowsOf ArtifactVersion (c.apply ws)

/-- **One request**, served alone. -/
theorem exists_effectOf (b : Between (artifactDiscipline env) s) (r : WorkspaceRequest) :
    Between (artifactDiscipline env) (servedWorkspace env s [r]) ∧
      ∃ ids ws, EffectOf env r s.committed (servedWorkspace env s [r]).committed ids ws := by
  obtain ⟨hb, hl⟩ := b.serve (fun _ _ : World => True) (fun _ => trivial) (fun _ _ => trivial)
    (fun _ _ => trivial) (ensures_workspace env) (fun _ _ _ _ => commitOk_of_keeping)
    (fun _ _ _ _ k => k.uncommitted) r
  refine ⟨hb, ?_⟩
  rcases hl.commits with heq | ⟨h, l, k, hcom, -, -, hunused⟩
  · refine ⟨[], [], .nothing, fun _ hn => (nomatch hn), fun a => ?_, fun v => ?_⟩
    · exact iff_of_eq (congrArg (a ∈ rowsOf GeneratedArtifact ·) heq)
    · exact iff_of_eq (congrArg (v ∈ rowsOf ArtifactVersion ·) heq)
  · change (servedWorkspace env s [r]).committed = l.view s.committed at hcom
    refine ⟨l.ids, logOn artifactTables l, k.effect, hunused, fun a => ?_, fun v => ?_⟩
    · rw [hcom]
      exact mem_rowsOf_view rfl
    · rw [hcom]
      exact mem_rowsOf_view rfl

theorem between_of_noArtifacts (h₀ : NoArtifacts s.committed) :
    Between (artifactDiscipline env) s := by
  refine ⟨h₀.chained, fun r hr n hn => ?_⟩
  have htable := h₀ r hr
  cases r with
  | generatedArtifact a | artifactVersion v => cases htable
  | _ => cases hn

theorem between_served (b : Between (artifactDiscipline env) s) (rs : List WorkspaceRequest) :
    Between (artifactDiscipline env) (servedWorkspace env s rs) := by
  induction rs generalizing s with
  | nil => exact b
  | cons r rs ih =>
    rw [← List.singleton_append, servedWorkspace_append]
    exact ih (exists_effectOf b r).1

/-! ## The content of an artifact -/

/-- There is an artifact `id`. -/
def HasArtifact (c : Database) (id : UUID) : Prop := ∃ a ∈ rowsOf GeneratedArtifact c, a.id = id

/-- The content of the artifact `id` is that of one of its versions. -/
def Recoverable (c : Database) (id : UUID) : Prop :=
  ∀ a ∈ rowsOf GeneratedArtifact c, a.id = id →
    ∃ v ∈ rowsOf ArtifactVersion c, v.artifactId = id ∧ v.content = a.content

/-- No write of an effect removes an artifact. -/
theorem HasArtifact.apply {id : UUID} (h : HasArtifact c id) (e : ArtifactEffect env ids c r ws) :
    HasArtifact (c.apply ws) id := by
  have hversion : ∀ {d : Database} (v : ArtifactVersion), HasArtifact d id →
      HasArtifact (d.write (.store (toRow v))) id := fun v ⟨a, ha, hid⟩ =>
    ⟨a, (mem_rowsOf_store_other (by decide)).mpr ha, hid⟩
  have hartifact : ∀ {d : Database} (a : GeneratedArtifact), HasArtifact d id →
      HasArtifact (d.write (.store (toRow a))) id := by
    intro d a ⟨b, hb, hid⟩
    by_cases hab : b.id = a.id
    · exact ⟨a, mem_rowsOf_store.mpr (.inl rfl), hab.symm.trans hid⟩
    · exact ⟨b, mem_rowsOf_store.mpr (.inr ⟨hb, hab⟩), hid⟩
  cases e with
  | nothing => exact h
  | create => exact hartifact _ (hversion _ (hartifact _ h))
  | draft | keep | point => exact hartifact _ h
  | append => exact hartifact _ (hversion _ h)

section Steps

variable {id : UUID} (x : EffectOf env r c d ids ws)

include x

theorem EffectOf.hasArtifact (h : HasArtifact c id) : HasArtifact d id := by
  obtain ⟨a, ha, hid⟩ := h.apply x.effect
  exact ⟨a, (x.artifacts a).mpr ha, hid⟩

theorem EffectOf.version_mem {v : ArtifactVersion} (hv : v ∈ rowsOf ArtifactVersion c) :
    v ∈ rowsOf ArtifactVersion d := (x.versions v).mpr (x.effect.version_mem x.unknown hv)

/-- **A step** leaves a recoverable artifact recoverable. -/
theorem EffectOf.recoverable (h : HasArtifact c id) (hc : Recoverable c id) : Recoverable d id := by
  intro b hb hid
  have hstill : ∀ a ∈ rowsOf GeneratedArtifact c, a.id = id →
      ∃ v ∈ rowsOf ArtifactVersion d, v.artifactId = id ∧ v.content = a.content := by
    intro a ha hid
    obtain ⟨v, hv, hva⟩ := hc a ha hid
    exact ⟨v, x.version_mem hv, hva⟩
  cases x.effect.arises ((x.artifacts b).mp hb) with
  | old mem => exact hstill b mem hid
  | blank fresh none =>
    obtain ⟨a, ha, haid⟩ := h
    exact absurd (haid.trans hid.symm ▸ fresh) (x.unknown.artifact ha)
  | kept mem same current content =>
    obtain ⟨v, hv, hva, hvc⟩ := hstill _ mem (same.symm.trans hid)
    exact ⟨v, hv, hva, hvc.trans content.symm⟩
  | pointed known version points =>
    exact ⟨_, (x.versions _).mpr version, points.artifact.trans hid, points.content.symm⟩

/-- **The creating request** makes its artifact recoverable, or leaves it without a version. -/
theorem EffectOf.created (hnew : ¬ HasArtifact c id) (h : HasArtifact d id) :
    (r.versioned = true ∧ Recoverable d id) ∨
      (r.versioned = false ∧ ∀ v ∈ rowsOf ArtifactVersion d, v.artifactId ≠ id) := by
  obtain ⟨b, hb, hid⟩ := h
  have hb' := (x.artifacts b).mp hb
  have hold : ∀ {a : GeneratedArtifact}, a ∈ rowsOf GeneratedArtifact c → a.id ≠ id :=
    fun ha hid => hnew ⟨_, ha, hid⟩
  have hcases : ∀ {e : Database} {a : GeneratedArtifact},
      b ∈ rowsOf GeneratedArtifact (e.write (.store (toRow a))) →
      b = a ∨ b ∈ rowsOf GeneratedArtifact e := fun h => (mem_rowsOf_store.mp h).imp_right And.left
  have hother : ∀ {e : Database} {v : ArtifactVersion},
      b ∈ rowsOf GeneratedArtifact (e.write (.store (toRow v))) →
      b ∈ rowsOf GeneratedArtifact e := fun h => (mem_rowsOf_store_other (by decide)).mp h
  cases x.effect with
  | nothing => exact absurd hid (hold hb')
  | create versioned fresh versionFresh same first hash points =>
    rename_i a a' v
    refine .inl ⟨versioned, fun b' hb'' hid' => ⟨v, (x.versions v).mpr ?_, ?_⟩⟩
    · exact (mem_rowsOf_store_other (by decide)).mpr (mem_rowsOf_store.mpr (.inl rfl))
    · obtain rfl : b' = b := entity_ext hb'' hb (hid'.trans hid.symm)
      rcases mem_rowsOf_store.mp hb' with rfl | ⟨hb', hne⟩
      · exact ⟨points.artifact.trans hid, points.content.symm⟩
      · rcases hcases (hother hb') with rfl | hb'
        · exact absurd same.symm hne
        · exact absurd hid (hold hb')
  | draft unversioned fresh none =>
    refine .inr ⟨unversioned, fun v hv ha => ?_⟩
    rcases hcases hb' with rfl | hb'
    · have hv := (mem_rowsOf_store_other (by decide)).mp ((x.versions v).mp hv)
      exact absurd (ha.trans hid.symm ▸ fresh) (x.unknown.version hv).2
    · exact absurd hid (hold hb')
  | keep mem same | point mem same =>
    rcases hcases hb' with rfl | hb'
    · exact absurd (same.symm.trans hid) (hold mem)
    · exact absurd hid (hold hb')
  | append mem same =>
    rcases hcases hb' with rfl | hb'
    · exact absurd (same.symm.trans hid) (hold mem)
    · exact absurd hid (hold (hother hb'))

end Steps

/-! ## Runs -/

/-- A recoverable artifact stays so, and its versions stay. -/
theorem recoverable_served (b : Between (artifactDiscipline env) s) {id : UUID}
    (h : HasArtifact s.committed id) (rs : List WorkspaceRequest) :
    (Recoverable s.committed id → Recoverable (servedWorkspace env s rs).committed id) ∧
      ∀ v ∈ rowsOf ArtifactVersion s.committed,
        v ∈ rowsOf ArtifactVersion (servedWorkspace env s rs).committed := by
  induction rs generalizing s with
  | nil => exact ⟨fun hc => hc, fun _ hv => hv⟩
  | cons r rs ih =>
    obtain ⟨hb, ids, ws, x⟩ := exists_effectOf b r
    obtain ⟨hrecoverable, hversions⟩ := ih hb (x.hasArtifact h)
    rw [← List.singleton_append, servedWorkspace_append]
    exact ⟨fun hc => hrecoverable (x.recoverable h hc), fun v hv => hversions v (x.version_mem hv)⟩

/-- **No content is lost**: after the request `r` has created the artifact `a`, every content that the
artifact has after some requests `rs` is, whatever follows, that of one of its versions, if and only if
`r` creates a version with the artifact. -/
theorem contents_kept_iff (h₀ : NoArtifacts s₀.committed) (before : List WorkspaceRequest)
    (r : WorkspaceRequest) {id : UUID}
    (hnew : ¬ HasArtifact (servedWorkspace env s₀ before).committed id)
    (hcreated : HasArtifact (servedWorkspace env s₀ (before ++ [r])).committed id) :
    (∀ rs rs', ∀ a ∈ rowsOf GeneratedArtifact
      (servedWorkspace env s₀ (before ++ [r] ++ rs)).committed, a.id = id →
      ∃ v ∈ rowsOf ArtifactVersion (servedWorkspace env s₀ (before ++ [r] ++ rs ++ rs')).committed,
        v.artifactId = id ∧ v.content = a.content) ↔ r.versioned = true := by
  have b : Between (artifactDiscipline env) (servedWorkspace env s₀ before) :=
    between_served (between_of_noArtifacts h₀) before
  obtain ⟨hb, ids, ws, x⟩ := exists_effectOf b r
  rw [← servedWorkspace_append] at hb x
  rcases x.created hnew hcreated with ⟨hr, hrecoverable⟩ | ⟨hr, hnone⟩
  · refine iff_of_true (fun rs rs' a ha hid => ?_) hr
    rw [servedWorkspace_append] at ha
    obtain ⟨v, hv, hva⟩ := (recoverable_served hb hcreated rs).1 hrecoverable a ha hid
    rw [servedWorkspace_append, servedWorkspace_append _ (before ++ [r])]
    exact ⟨v, (recoverable_served (between_served hb rs) ⟨a, ha, hid⟩ rs').2 v hv, hva⟩
  · refine iff_of_false (fun h => ?_) (by simp [hr])
    obtain ⟨a, ha, hid⟩ := hcreated
    obtain ⟨v, hv, hva, -⟩ := h [] [] a (by simpa using ha) hid
    exact hnone v (by simpa using hv) hva

/-! ## A draft, and its next version -/

/-- The request for the manifests of an application, with the save flag `save`. -/
def manifestsRequest (save : Bool) : WorkspaceRequest :=
  .generator (.kubernetes authorAccess
    { saveArtifact := save, artifactName := none, artifactDescription := none, organizationId := none,
      policyPackIds := [], validatePolicies := false, applicationName := "a", image := "a",
      replicas := 1, containerPort := 80, serviceType := .clusterIP, includeIngress := false,
      includeConfigmap := false, includeHpa := false, cpuRequest := "1", cpuLimit := "1",
      memoryRequest := "1", memoryLimit := "1"
      applicationName_length := by decide, applicationName_pattern := by decide
      image_length := by decide, replicas_range := by decide, containerPort_range := by decide })

/-- A version is added to the artifact that keeps the manifests, and its first content is in no
version. -/
theorem draft_content_lost : ¬ ∀ (env : Env) (s₀ : State) (before : List WorkspaceRequest)
    (r : WorkspaceRequest) (id : UUID), NoArtifacts s₀.committed →
    ¬ HasArtifact (servedWorkspace env s₀ before).committed id →
    HasArtifact (servedWorkspace env s₀ (before ++ [r])).committed id →
    ∀ rs rs', ∀ a ∈ rowsOf GeneratedArtifact
      (servedWorkspace env s₀ (before ++ [r] ++ rs)).committed, a.id = id →
      ∃ v ∈ rowsOf ArtifactVersion (servedWorkspace env s₀ (before ++ [r] ++ rs ++ rs')).committed,
        v.artifactId = id ∧ v.content = a.content := by
  intro hall
  have hlost : ∃ a ∈ rowsOf GeneratedArtifact
      (servedWorkspace .trial authorState [manifestsRequest false]).committed, a.id = 2 ∧
      ∀ v ∈ rowsOf ArtifactVersion (servedWorkspace .trial authorState [manifestsRequest false,
        .artifact (.addVersion authorAccess 2 "y")]).committed, v.content ≠ a.content := by
    decide +kernel
  obtain ⟨a, ha, hid, hne⟩ := hlost
  obtain ⟨v, hv, -, hcontent⟩ := hall .trial authorState [] (manifestsRequest false) 2
    (by unfold NoArtifacts; decide) (by unfold HasArtifact; decide) ⟨a, ha, hid⟩ []
    [.artifact (.addVersion authorAccess 2 "y")] a ha hid
  exact hne v hv hcontent

/-- The manifests that are saved as an artifact are in a version of it, whatever follows. -/
theorem contents_kept_iff_manifests : ∃ a ∈ rowsOf GeneratedArtifact
      (servedWorkspace .trial authorState [manifestsRequest true]).committed,
      ∀ rs : List WorkspaceRequest, ∃ v ∈ rowsOf ArtifactVersion
        (servedWorkspace .trial authorState (manifestsRequest true :: rs)).committed,
        v.artifactId = a.id ∧ v.content = a.content := by
  have hcreated : ∃ a ∈ rowsOf GeneratedArtifact
      (servedWorkspace .trial authorState [manifestsRequest true]).committed, a.id = 2 := by decide
  obtain ⟨a, ha, hid⟩ := hcreated
  have hkept := (contents_kept_iff (by unfold NoArtifacts; decide) [] (manifestsRequest true)
    (by unfold HasArtifact; decide) ⟨a, ha, hid⟩).mpr rfl
  refine ⟨a, ha, fun rs => ?_⟩
  obtain ⟨v, hv, hva, hcontent⟩ := hkept [] rs a ha hid
  exact ⟨v, hv, hva.trans hid.symm, hcontent⟩

end DevOps
