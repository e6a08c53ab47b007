import DevOpsAssistant.Api.Artifacts
import DevOpsAssistant.Specs.Histories
import Mathlib.Data.List.Range

/-!
# The versions of an artifact

The versions of an artifact are numbered from 1 on, without a gap. The lock on the artifact protects them:
a session that holds it is the only one that can add a version.

* `Next`: the number the next version of an artifact gets.
* `Chained`: the invariant of artifacts and their versions; **`Chained.numbers_perm`**.
* `artifactDiscipline`: what sessions assume of artifacts while others run.
* `ArtifactEffect`: the writes to artifacts and versions that a request commits.
* `Keeping`: a session whose writes are such an effect; **`Keeping.extends`**, **`commitOk_of_keeping`**.
-/

namespace DevOps

open Txn Discipline

/-- The tables of artifacts and their versions. -/
def artifactTables : TableName → Bool
  | .generatedArtifacts | .artifactVersions => true
  | _ => false

/-! ## The invariant -/

/-- There is a version `m` of the artifact `a`. -/
def HasVersion (c : Database) (a : UUID) (m : ℕ) : Prop :=
  ∃ v ∈ rowsOf ArtifactVersion c, v.artifactId = a ∧ v.versionNumber = m

/-- The next version of the artifact `a` has the number `n`: there are versions `1` to `n - 1`. -/
def Next (c : Database) (a : UUID) (n : ℕ) : Prop := 1 ≤ n ∧ ∀ m, HasVersion c a m ↔ 1 ≤ m ∧ m < n

/-- The version `i` of the artifact `a` has its content. -/
def Current (c : Database) (a : GeneratedArtifact) (i : UUID) : Prop :=
  ∃ v ∈ rowsOf ArtifactVersion c, v.id = i ∧ v.artifactId = a.id ∧ v.content = a.content

/-- The invariant of artifacts and their versions. -/
structure Chained (env : Env) (c : Database) : Prop where
  once : ∀ v ∈ rowsOf ArtifactVersion c, ∀ v' ∈ rowsOf ArtifactVersion c,
    v'.artifactId = v.artifactId → v'.versionNumber = v.versionNumber → v' = v
  next : ∀ a, ∃ n, Next c a n
  hash : ∀ v ∈ rowsOf ArtifactVersion c, v.contentHash = computeContentHash env v.content
  current : ∀ a ∈ rowsOf GeneratedArtifact c, ∀ i, a.currentVersionId = some i → Current c a i

/-- The numbers of the versions of the artifact `a`. -/
def versionNumbers (a : UUID) (c : Database) : List ℕ :=
  ((rowsOf ArtifactVersion c).filter (versionOf a)).map (·.versionNumber)

theorem mem_versionNumbers {a : UUID} {c : Database} {m : ℕ} :
    m ∈ versionNumbers a c ↔ HasVersion c a m := by
  simp only [versionNumbers, List.mem_map, List.mem_filter, versionOf, decide_eq_true_eq, HasVersion,
    and_assoc]

/-- **The numbers of the versions are exactly `1` to `n`**, each once. -/
theorem Chained.numbers_perm {env : Env} {c : Database} (h : Chained env c) (a : UUID) :
    (versionNumbers a c).Perm (List.range' 1 (versionNumbers a c).length) := by
  obtain ⟨n, hnext⟩ := h.next a
  have hnd : (versionNumbers a c).Nodup := by
    refine List.Nodup.map_on (fun v hv v' hv' heq => ?_) (nodup_rowsOf.filter _)
    simp only [List.mem_filter, versionOf, decide_eq_true_eq] at hv hv'
    exact h.once v' hv'.1 v hv.1 (hv.2.trans hv'.2.symm) heq
  have hperm : (versionNumbers a c).Perm (List.range' 1 (n - 1)) := by
    refine (List.perm_ext_iff_of_nodup hnd (List.nodup_range' ..)).mpr fun m => ?_
    have hn := hnext.1
    rw [mem_versionNumbers, hnext.2 m, List.mem_range'_1]
    omega
  rw [hperm.length_eq, List.length_range']
  exact hperm

/-! ## What sessions assume -/

/-- The identifiers of artifacts a row makes known, and those of versions. -/
def artifactNames : Row → List ℕ
  | .generatedArtifact a => [a.id]
  | .artifactVersion v => [v.id, v.artifactId]
  | _ => []

/-- The versions of the artifact `a` are the same in `c` and in `d`. -/
def SameVersions (a : UUID) (c d : Database) : Prop :=
  ∀ v : ArtifactVersion, v.artifactId = a → (v ∈ rowsOf ArtifactVersion d ↔ v ∈ rowsOf ArtifactVersion c)

/-- What sessions assume of artifacts while others run: the lock on an artifact protects its versions. -/
def artifactDiscipline (env : Env) : Discipline Row where
  inv := Chained env
  follows _ _ := True
  names := artifactNames
  guards k c d := k.table = .generatedArtifacts → SameVersions k.id c d
  follows_refl _ := trivial
  guards_refl _ _ _ _ _ := Iff.rfl
  guards_trans h h' hk v hv := (h' hk v hv).trans (h hk v hv)

theorem SameVersions.hasVersion {a : UUID} {c d : Database} (h : SameVersions a c d) {m : ℕ} :
    HasVersion d a m ↔ HasVersion c a m := by
  constructor
  · exact fun ⟨v, hv, ha, hm⟩ => ⟨v, (h v ha).mp hv, ha, hm⟩
  · exact fun ⟨v, hv, ha, hm⟩ => ⟨v, (h v ha).mpr hv, ha, hm⟩

theorem SameVersions.next {a : UUID} {c d : Database} (h : SameVersions a c d) {n : ℕ}
    (hn : Next c a n) : Next d a n := ⟨hn.1, fun m => h.hasVersion.trans (hn.2 m)⟩

/-! ## What requests write -/

/-- The artifacts the request creates have a first version. -/
def WorkspaceRequest.versioned : WorkspaceRequest → Bool
  | .artifact _ => true
  | .generator r => r.options.saveArtifact

/-- The row of an artifact that points to the version `v`, with its content. -/
structure PointsTo (a : GeneratedArtifact) (v : ArtifactVersion) : Prop where
  artifact : v.artifactId = a.id
  current : a.currentVersionId = some v.id
  content : a.content = v.content

/-- The writes to artifacts and versions that a request commits: `ids` are the identifiers its session
has drawn, `c` the committed rows. -/
inductive ArtifactEffect (env : Env) (ids : List ℕ) (c : Database) :
    WorkspaceRequest → List (Write Row Key) → Prop where
  | nothing {r : WorkspaceRequest} : ArtifactEffect env ids c r []
  | create {r : WorkspaceRequest} {a a' : GeneratedArtifact} {v : ArtifactVersion}
      (versioned : r.versioned = true) (fresh : a.id ∈ ids) (versionFresh : v.id ∈ ids)
      (same : a'.id = a.id) (first : v.versionNumber = 1)
      (hash : v.contentHash = computeContentHash env v.content) (points : PointsTo a' v) :
      ArtifactEffect env ids c r [.store (toRow a), .store (toRow v), .store (toRow a')]
  | draft {r : WorkspaceRequest} {a : GeneratedArtifact} (unversioned : r.versioned = false)
      (fresh : a.id ∈ ids) (none : a.currentVersionId = none) :
      ArtifactEffect env ids c r [.store (toRow a)]
  | keep {r : WorkspaceRequest} {a a' : GeneratedArtifact} (mem : a ∈ rowsOf GeneratedArtifact c)
      (same : a'.id = a.id) (current : a'.currentVersionId = a.currentVersionId)
      (content : a'.content = a.content) : ArtifactEffect env ids c r [.store (toRow a')]
  | point {r : WorkspaceRequest} {a a' : GeneratedArtifact} {v : ArtifactVersion}
      (mem : a ∈ rowsOf GeneratedArtifact c) (same : a'.id = a.id)
      (version : v ∈ rowsOf ArtifactVersion c) (points : PointsTo a' v) :
      ArtifactEffect env ids c r [.store (toRow a')]
  | append {r : WorkspaceRequest} {a a' : GeneratedArtifact} {v : ArtifactVersion}
      (mem : a ∈ rowsOf GeneratedArtifact c) (same : a'.id = a.id) (fresh : v.id ∈ ids)
      (next : Next c v.artifactId v.versionNumber)
      (hash : v.contentHash = computeContentHash env v.content) (points : PointsTo a' v) :
      ArtifactEffect env ids c r [.store (toRow v), .store (toRow a')]

/-- The session has written an effect of the request `r`, and has locked what it wrote. -/
structure Keeping (env : Env) (r : WorkspaceRequest) (h : Told) (l : OpenTx) (c : Database) : Prop where
  uncommitted : .commit ∉ h
  effect : ArtifactEffect env l.ids c r (logOn artifactTables l)
  locked : ∀ w ∈ logOn artifactTables l, w.key ∈ l.locks

variable {env : Env} {h h' : Told} {ids ids' : List ℕ} {l l' : OpenTx} {c c' : Database}
  {r : WorkspaceRequest} {ws : List (Write Row Key)}

/-- What a session writes that has drawn more, over rows that are the same where it has locks. -/
theorem ArtifactEffect.mono (e : ArtifactEffect env ids c r ws) (hids : ∀ n ∈ ids, n ∈ ids')
    (hsame : c.SameAt (ws.map Write.key) c')
    (hguard : ∀ a : GeneratedArtifact, keyOf a ∈ ws.map Write.key → SameVersions a.id c c') :
    ArtifactEffect env ids' c' r ws := by
  have hstay : ∀ {a a' : GeneratedArtifact}, a'.id = a.id → keyOf a' ∈ ws.map Write.key →
      a ∈ rowsOf GeneratedArtifact c → a ∈ rowsOf GeneratedArtifact c' := by
    intro a a' hid hk ha
    rw [mem_rowsOf] at ha ⊢
    refine (hsame _ ?_).mpr ha
    have hkey : keyOf a = keyOf a' := congrArg (Key.mk _) hid.symm
    rw [key_toRow, hkey]
    exact hk
  cases e with
  | nothing => exact .nothing
  | create versioned fresh versionFresh same first hash points =>
    exact .create versioned (hids _ fresh) (hids _ versionFresh) same first hash points
  | draft unversioned fresh none => exact .draft unversioned (hids _ fresh) none
  | keep mem same current content =>
    exact .keep (hstay same List.mem_cons_self mem) same current content
  | point mem same version points =>
    refine .point (hstay same List.mem_cons_self mem) same ?_ points
    exact (hguard _ List.mem_cons_self _ points.artifact).mpr version
  | append mem same fresh next hash points =>
    rename_i a a' v
    have hk : keyOf a' ∈ ([.store (toRow v), .store (toRow a')] : List (Write Row Key)).map Write.key :=
      List.mem_cons_of_mem _ List.mem_cons_self
    refine .append (hstay same hk mem) same (hids _ fresh) ?_ hash points
    rw [points.artifact] at next ⊢
    exact (hguard _ hk).next next

/-- **Statements on other tables** leave what a session has written of artifacts. -/
theorem Keeping.extends (k : Keeping env r h l c)
    (x : Extends (artifactDiscipline env) artifactTables h l c h' l' c') : Keeping env r h' l' c' := by
  refine ⟨x.told.no_commit k.uncommitted, ?_, fun w hw => x.locks _ (k.locked w (x.log ▸ hw))⟩
  rw [x.log]
  have hlocked : ∀ key ∈ (logOn artifactTables l).map Write.key, key ∈ l.locks := by
    intro key hk
    obtain ⟨w, hw, rfl⟩ := List.mem_map.mp hk
    exact k.locked w hw
  exact k.effect.mono x.ids (x.env.same.mono hlocked) fun a ha => x.env.guarded _ (hlocked _ ha) rfl

/-! ## What a commit leaves -/

/-- The identifiers `ids` are not known in `c`. -/
def Unknown (ids : List ℕ) (c : Database) : Prop := ∀ n ∈ ids, ∀ r ∈ c.rows, n ∉ artifactNames r

theorem Unknown.artifact (hu : Unknown ids c) {a : GeneratedArtifact}
    (ha : a ∈ rowsOf GeneratedArtifact c) : a.id ∉ ids := fun hn =>
  hu _ hn _ (mem_rowsOf.mp ha) List.mem_cons_self

theorem Unknown.version (hu : Unknown ids c) {v : ArtifactVersion}
    (hv : v ∈ rowsOf ArtifactVersion c) : v.id ∉ ids ∧ v.artifactId ∉ ids :=
  ⟨fun hn => hu _ hn _ (mem_rowsOf.mp hv) List.mem_cons_self,
    fun hn => hu _ hn _ (mem_rowsOf.mp hv) (List.mem_cons_of_mem _ List.mem_cons_self)⟩

/-- The identifier `n` is drawn by the session, or it is that of an artifact. -/
def Known (ids : List ℕ) (c : Database) (n : UUID) : Prop :=
  n ∈ ids ∨ ∃ a ∈ rowsOf GeneratedArtifact c, a.id = n

/-- The version `v` is the next one of its artifact. -/
structure Appends (env : Env) (ids : List ℕ) (c : Database) (v : ArtifactVersion) : Prop where
  fresh : v.id ∈ ids
  known : Known ids c v.artifactId
  next : Next c v.artifactId v.versionNumber
  hash : v.contentHash = computeContentHash env v.content

/-- **The versions after an effect**: those before, and at most one more. -/
theorem ArtifactEffect.versions (e : ArtifactEffect env ids c r ws) (hu : Unknown ids c) :
    (∀ w, w ∈ rowsOf ArtifactVersion (c.apply ws) ↔ w ∈ rowsOf ArtifactVersion c) ∨
      ∃ v, Appends env ids c v ∧ ⟨.generatedArtifacts, v.artifactId⟩ ∈ ws.map Write.key ∧
        ∀ w, w ∈ rowsOf ArtifactVersion (c.apply ws) ↔ w = v ∨ w ∈ rowsOf ArtifactVersion c := by
  have hother : ∀ (d : Database) (a : GeneratedArtifact) (w : ArtifactVersion),
      w ∈ rowsOf ArtifactVersion (d.write (.store (toRow a))) ↔ w ∈ rowsOf ArtifactVersion d :=
    fun d a w => mem_rowsOf_store_other (by decide)
  have hstore : ∀ {v w : ArtifactVersion} {d : Database}, v.id ∈ ids →
      (w ∈ rowsOf ArtifactVersion d ↔ w ∈ rowsOf ArtifactVersion c) →
      (w ∈ rowsOf ArtifactVersion (d.write (.store (toRow v))) ↔
        w = v ∨ w ∈ rowsOf ArtifactVersion c) := by
    intro v w d hv hd
    rw [mem_rowsOf_store, hd]
    refine or_congr Iff.rfl ⟨And.left, fun hw => ⟨hw, fun hid => (hu.version hw).1 ?_⟩⟩
    exact (show w.id = v.id from hid) ▸ hv
  cases e with
  | nothing => exact .inl fun w => Iff.rfl
  | draft | keep | point => exact .inl fun w => hother c _ w
  | create versioned fresh versionFresh same first hash points =>
    rename_i a a' v
    have hid : v.artifactId = a.id := points.artifact.trans same
    refine .inr ⟨v, ⟨versionFresh, .inl (hid ▸ fresh), ⟨first.ge, fun m => ?_⟩, hash⟩, ?_, fun w => ?_⟩
    · -- the artifact is new, so it has no version yet
      refine ⟨fun ⟨w, hw, ha, _⟩ => ?_, fun hm => ?_⟩
      · exact absurd (ha.trans hid ▸ fresh) (hu.version hw).2
      · omega
    · rw [points.artifact]
      exact List.mem_cons_of_mem _ (List.mem_cons_of_mem _ List.mem_cons_self)
    · exact (hother _ _ w).trans (hstore versionFresh (hother c a w))
  | append mem same fresh next hash points =>
    rename_i a a' v
    refine .inr ⟨v, ⟨fresh, .inr ⟨a, mem, (points.artifact.trans same).symm⟩, next, hash⟩, ?_, fun w => ?_⟩
    · rw [points.artifact]
      exact List.mem_cons_of_mem _ List.mem_cons_self
    · exact (hother _ _ w).trans (hstore fresh Iff.rfl)

/-- How an artifact has come into the rows after an effect. -/
inductive Arises (ids : List ℕ) (c d : Database) (a' : GeneratedArtifact) : Prop where
  | old (mem : a' ∈ rowsOf GeneratedArtifact c)
  | blank (fresh : a'.id ∈ ids) (none : a'.currentVersionId = none)
  | kept {a : GeneratedArtifact} (mem : a ∈ rowsOf GeneratedArtifact c) (same : a'.id = a.id)
      (current : a'.currentVersionId = a.currentVersionId) (content : a'.content = a.content)
  | pointed {v : ArtifactVersion} (known : Known ids c a'.id)
      (version : v ∈ rowsOf ArtifactVersion d) (points : PointsTo a' v)

theorem Arises.known {d : Database} {a' : GeneratedArtifact} (h : Arises ids c d a') :
    Known ids c a'.id := by
  cases h with
  | old mem => exact .inr ⟨a', mem, rfl⟩
  | blank fresh => exact .inl fresh
  | kept mem same => exact .inr ⟨_, mem, same.symm⟩
  | pointed known => exact known

/-- **The artifacts after an effect**. -/
theorem ArtifactEffect.arises (e : ArtifactEffect env ids c r ws) {b : GeneratedArtifact}
    (hb : b ∈ rowsOf GeneratedArtifact (c.apply ws)) : Arises ids c (c.apply ws) b := by
  have hother : ∀ (d : Database) (v : ArtifactVersion),
      b ∈ rowsOf GeneratedArtifact (d.write (.store (toRow v))) ↔ b ∈ rowsOf GeneratedArtifact d :=
    fun d v => mem_rowsOf_store_other (by decide)
  have hversion : ∀ (d : Database) (a : GeneratedArtifact) (v : ArtifactVersion),
      v ∈ rowsOf ArtifactVersion (d.write (.store (toRow a))) ↔ v ∈ rowsOf ArtifactVersion d :=
    fun d a v => mem_rowsOf_store_other (by decide)
  cases e with
  | nothing => exact .old hb
  | draft unversioned fresh none =>
    rcases mem_rowsOf_store.mp hb with rfl | ⟨hb, -⟩
    · exact .blank fresh none
    · exact .old hb
  | keep mem same current content =>
    rcases mem_rowsOf_store.mp hb with rfl | ⟨hb, -⟩
    · exact .kept mem same current content
    · exact .old hb
  | point mem same version points =>
    rcases mem_rowsOf_store.mp hb with rfl | ⟨hb, -⟩
    · exact .pointed (.inr ⟨_, mem, same.symm⟩) ((hversion _ _ _).mpr version) points
    · exact .old hb
  | create versioned fresh versionFresh same first hash points =>
    rename_i a a' v
    rcases mem_rowsOf_store.mp hb with rfl | ⟨hb, hne⟩
    · refine .pointed (.inl (same ▸ fresh)) ((hversion _ _ v).mpr ?_) points
      exact mem_rowsOf_store.mpr (.inl rfl)
    · rcases mem_rowsOf_store.mp ((hother _ _).mp hb) with rfl | ⟨hb, -⟩
      · exact absurd same.symm hne
      · exact .old hb
  | append mem same fresh next hash points =>
    rename_i a a' v
    rcases mem_rowsOf_store.mp hb with rfl | ⟨hb, -⟩
    · refine .pointed (.inr ⟨a, mem, same.symm⟩) ((hversion _ _ v).mpr ?_) points
      exact mem_rowsOf_store.mpr (.inl rfl)
    · exact .old ((hother _ _).mp hb)

/-- The versions of before are among those after an effect. -/
theorem ArtifactEffect.version_mem (e : ArtifactEffect env ids c r ws) (hu : Unknown ids c)
    {v : ArtifactVersion} (hv : v ∈ rowsOf ArtifactVersion c) :
    v ∈ rowsOf ArtifactVersion (c.apply ws) := by
  rcases e.versions hu with h | ⟨w, -, -, h⟩
  · exact (h v).mpr hv
  · exact (h v).mpr (.inr hv)

/-- **An effect keeps the invariant.** -/
theorem ArtifactEffect.chained (e : ArtifactEffect env ids c r ws) (hu : Unknown ids c)
    (h : Chained env c) : Chained env (c.apply ws) := by
  have hcurrent : ∀ b ∈ rowsOf GeneratedArtifact (c.apply ws), ∀ i, b.currentVersionId = some i →
      Current (c.apply ws) b i := by
    have hstill : ∀ (a b : GeneratedArtifact) i, b.id = a.id → b.content = a.content →
        Current c a i → Current (c.apply ws) b i := by
      intro a b i hid hcontent ⟨v, hv, hi, ha, hc⟩
      exact ⟨v, e.version_mem hu hv, hi, ha.trans hid.symm, hc.trans hcontent.symm⟩
    intro b hb i hi
    cases e.arises hb with
    | old mem => exact hstill b b i rfl rfl (h.current b mem i hi)
    | blank fresh none => exact absurd (none.symm.trans hi) nofun
    | kept mem same current content =>
      exact hstill _ b i same content (h.current _ mem i (current ▸ hi))
    | pointed known version points =>
      have hv := Option.some.inj (points.current.symm.trans hi)
      exact ⟨_, version, hv, points.artifact, points.content.symm⟩
  rcases e.versions hu with hsame | ⟨v, new, -, hmem⟩
  · refine ⟨fun w hw w' hw' => h.once w ((hsame w).mp hw) w' ((hsame w').mp hw'), fun a => ?_,
      fun w hw => h.hash w ((hsame w).mp hw), hcurrent⟩
    obtain ⟨n, hn⟩ := h.next a
    exact ⟨n, SameVersions.next (c := c) (fun w _ => hsame w) hn⟩
  · -- the number of the new version is not taken
    have hfree : ∀ w ∈ rowsOf ArtifactVersion c, w.artifactId = v.artifactId →
        w.versionNumber ≠ v.versionNumber := by
      intro w hw ha hn
      have := (new.next.2 v.versionNumber).mp ⟨w, hw, ha, hn⟩
      omega
    refine ⟨fun w hw w' hw' ha hn => ?_, fun a => ?_, fun w hw => ?_, hcurrent⟩
    · rcases (hmem w).mp hw with rfl | hw <;> rcases (hmem w').mp hw' with rfl | hw'
      · rfl
      · exact absurd hn (hfree w' hw' ha)
      · exact absurd hn.symm (hfree w hw ha.symm)
      · exact h.once w hw w' hw' ha hn
    · by_cases ha : a = v.artifactId
      · refine ⟨v.versionNumber + 1, Nat.le_add_left .., fun m => ?_⟩
        have hhas : HasVersion (c.apply ws) a m ↔ m = v.versionNumber ∨ HasVersion c a m := by
          constructor
          · rintro ⟨w, hw, hwa, rfl⟩
            exact ((hmem w).mp hw).imp (fun hw => congrArg _ hw) fun hw => ⟨w, hw, hwa, rfl⟩
          · rintro (rfl | ⟨w, hw, hwa, hm⟩)
            · exact ⟨v, (hmem v).mpr (.inl rfl), ha.symm, rfl⟩
            · exact ⟨w, (hmem w).mpr (.inr hw), hwa, hm⟩
        have hone := new.next.1
        rw [hhas, ha, new.next.2 m]
        omega
      · obtain ⟨n, hn⟩ := h.next a
        refine ⟨n, SameVersions.next (c := c) (fun w hwa => ?_) hn⟩
        refine (hmem w).trans ⟨fun hw => hw.resolve_left fun hw => ha ?_, .inr⟩
        rw [← hwa, hw]
    · rcases (hmem w).mp hw with rfl | hw
      · exact new.hash
      · exact h.hash w hw

/-- **A commit of an effect** keeps what other sessions assume. -/
theorem commitOk_of_keeping (e : (artifactDiscipline env).Env h l c c) (k : Keeping env r h l c) :
    (artifactDiscipline env).CommitOk l c := by
  have hu : Unknown l.ids c := e.unused
  have hview : ∀ {T : Type} [Entity T] {t : T}, artifactTables (Entity.table T) = true →
      (t ∈ rowsOf T (l.view c) ↔ t ∈ rowsOf T (c.apply (logOn artifactTables l))) :=
    fun hT => mem_rowsOf_view hT
  have hversions := k.effect.versions hu
  have hknown : ∀ {n : ℕ}, Known l.ids c n → n ∈ l.ids ∨ ∃ s ∈ c.rows, n ∈ artifactNames s := by
    rintro n (hn | ⟨a, ha, rfl⟩)
    · exact .inl hn
    · exact .inr ⟨_, mem_rowsOf.mp ha, List.mem_cons_self⟩
  refine ⟨?_, fun _ _ _ => trivial, fun row hrow n hn => ?_, fun key hkey htable v hv => ?_⟩
  · obtain ⟨honce, hnext, hhash, hcurrent⟩ := k.effect.chained hu e.inv
    refine ⟨fun v hv v' hv' => honce v ((hview rfl).mp hv) v' ((hview rfl).mp hv'), fun a => ?_,
      fun v hv => hhash v ((hview rfl).mp hv), fun a ha i hi => ?_⟩
    · obtain ⟨n, hn⟩ := hnext a
      exact ⟨n, SameVersions.next (fun v _ => hview rfl) hn⟩
    · obtain ⟨v, hv, h'⟩ := hcurrent a ((hview rfl).mp ha) i hi
      exact ⟨v, (hview rfl).mpr hv, h'⟩
  · cases row with
    | generatedArtifact a =>
      cases List.mem_singleton.mp hn
      exact hknown (k.effect.arises ((hview rfl).mp (mem_rowsOf.mpr hrow))).known
    | artifactVersion v =>
      have hv : v ∈ rowsOf ArtifactVersion (l.view c) := mem_rowsOf.mpr hrow
      replace hv := (hview rfl).mp hv
      rcases hversions with hsame | ⟨w, new, -, hmem⟩
      · exact .inr ⟨_, mem_rowsOf.mp ((hsame v).mp hv), hn⟩
      · rcases (hmem v).mp hv with rfl | hv
        · rcases List.mem_cons.mp hn with rfl | hn
          · exact .inl new.fresh
          · cases List.mem_singleton.mp hn
            exact hknown new.known
        · exact .inr ⟨_, mem_rowsOf.mp hv, hn⟩
    | _ => cases hn
  · refine (hview rfl).trans ?_
    rcases hversions with hsame | ⟨w, -, hlock, hmem⟩
    · exact hsame v
    -- a new version is one of a locked artifact
    · refine (hmem v).trans ⟨fun h => h.resolve_left fun hvw => hkey ?_, .inr⟩
      obtain ⟨x, hx, hxk⟩ := List.mem_map.mp hlock
      have hk : key = x.key := by
        rw [hxk, ← hvw, hv, ← htable]
      exact hk ▸ k.locked x hx

end DevOps
