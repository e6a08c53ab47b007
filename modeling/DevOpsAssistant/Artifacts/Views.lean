import DevOpsAssistant.Artifacts.Library
import DevOpsAssistant.Artifacts.Listing
import DevOpsAssistant.Specs.Generators

/-!
# What a listing and the other responses say about an artifact

* `Tagged`, `Favorited`, `Versioned`: the tags, favorites and versions of an artifact.
* `ends_listArtifacts`: what a listing says about its artifacts.
* `SameExtras`: what the requests about one artifact leave; `ends_service`: what they say about it.
* **`summary_listed_iff`**: when a response and a listing agree.
-/

namespace DevOps

open Txn

/-- A tag is at the artifact. -/
def Tagged (db : Database) (id : UUID) : Prop :=
  ∃ x ∈ rowsOf ArtifactTagAssociation db, x.artifactId = id ∧
    ∃ t ∈ rowsOf ArtifactTag db, t.id = x.tagId

/-- The user has marked the artifact. -/
def Favorited (db : Database) (userId id : UUID) : Prop :=
  ∃ f ∈ rowsOf ArtifactFavorite db, f.userId = userId ∧ f.artifactId = id

/-- The artifact has a current version. -/
def Versioned (db : Database) (id : UUID) : Prop :=
  ∃ a ∈ rowsOf GeneratedArtifact db, a.id = id ∧ a.currentVersionId ≠ none

/-- Two responses say the same about tags, favorites and versions. -/
structure SameView (x y : ArtifactSummaryResponse) : Prop where
  tags : x.tags = y.tags
  isFavorited : x.isFavorited = y.isFavorited
  currentVersionNumber : x.currentVersionNumber = y.currentVersionNumber

variable {env : Env} {engine : SqlEngine} {s : Session Row World} {user : User} {db db' : Database}

/-! ## The number of the current version -/

/-- The number, when the current version is one of the artifact. -/
theorem versionNumber_of_mem {a : GeneratedArtifact} {v : ArtifactVersion}
    (hv : v ∈ rowsOf ArtifactVersion db) (ha : v.artifactId = a.id)
    (hcurrent : a.currentVersionId = some v.id) :
    ArtifactService.versionNumber (rowsOf ArtifactVersion db) a = some v.versionNumber := by
  unfold ArtifactService.versionNumber
  have hmem : v ∈ (rowsOf ArtifactVersion db).filter fun v => v.artifactId = a.id :=
    List.mem_filter.mpr ⟨hv, decide_eq_true ha⟩
  cases hfind : ((rowsOf ArtifactVersion db).filter fun v => v.artifactId = a.id).find? fun v =>
      a.currentVersionId = some v.id with
  | none => exact absurd (decide_eq_true hcurrent) (List.find?_eq_none.mp hfind v hmem)
  | some w =>
    have hw : a.currentVersionId = some w.id := by simpa using List.find?_some hfind
    obtain rfl : w = v := entity_ext (List.mem_of_mem_filter (List.mem_of_find?_eq_some hfind)) hv
      (Option.some.inj (hw.symm.trans hcurrent))
    rfl

theorem versionNumber_eq_none {a : GeneratedArtifact} {versions : List ArtifactVersion}
    (h : a.currentVersionId = none) : ArtifactService.versionNumber versions a = none := by
  simp [ArtifactService.versionNumber, h]

/-- Versions of other artifacts do not count. -/
theorem versionNumber_filter {a : GeneratedArtifact} {ids : List UUID} (h : a.id ∈ ids)
    (versions : List ArtifactVersion) :
    ArtifactService.versionNumber (versions.filter fun v => ids.contains v.artifactId) a =
      ArtifactService.versionNumber versions a := by
  unfold ArtifactService.versionNumber
  rw [List.filter_filter]
  congr 2
  refine List.filter_congr fun v _ => ?_
  by_cases hv : v.artifactId = a.id <;> simp [hv, h]

/-! ## A listing -/

theorem ends_unchanged_snapshot : snapshot.Ends respond s (unchanged s fun rows => rows = s.view.rows) :=
  ⟨rfl, fun _ h => by cases h; exact List.filter_true _⟩

theorem mem_of_mem_uniqueFrom {a : GeneratedArtifact} : ∀ {as : List GeneratedArtifact}
    {seen : List UUID}, a ∈ uniqueFrom seen as → a ∈ as
  | b :: as, seen, h => by
    unfold uniqueFrom at h
    split at h
    · exact List.mem_cons_of_mem _ (mem_of_mem_uniqueFrom h)
    · rcases List.mem_cons.mp h with rfl | h
      · exact List.mem_cons_self
      · exact List.mem_cons_of_mem _ (mem_of_mem_uniqueFrom h)

theorem mem_of_mem_sortedRows {f : ArtifactFilters} {field : SortField} {order : SortOrder} {n : ℕ}
    {x : JoinedRow} (h : x ∈ sortedRows env engine f field order n db.rows) :
    x.1 ∈ rowsOf GeneratedArtifact db := by
  obtain ⟨a, ha, hx⟩ := List.mem_flatMap.mp ((engine.orderBy_perm _ _ _).mem_iff.mp h)
  obtain ⟨v, hv⟩ : ∃ v, joinVersion field db.rows a = [(a, v)] := joinVersion_eq field a
  rw [hv, List.mem_singleton] at hx
  rw [hx]
  exact (mem_matchingRows.mp ha).1

/-- A page holds artifacts. -/
theorem ends_listArtifactsFiltered (f : ArtifactFilters) (field : SortField) (order : SortOrder)
    (limit offset n : ℕ) :
    (ArtifactTagRepository.listArtifactsFiltered env engine f field order limit offset n).Ends respond s
      (unchanged s fun page => ∀ a ∈ page.1, a ∈ rowsOf GeneratedArtifact s.view) := by
  refine ends_unchanged_bind ends_unchanged_snapshot fun _ _ =>
    ends_unchanged_bind ends_unchanged_snapshot fun rows hrows => ends_unchanged_pure fun a ha => ?_
  obtain ⟨x, hx, rfl⟩ := List.mem_map.mp (mem_of_mem_uniqueFrom ha)
  rw [hrows] at hx
  exact mem_of_mem_sortedRows (List.mem_of_mem_drop (List.mem_of_mem_take hx))

theorem mem_taggedNames {ids : List UUID} {id : UUID} {name : String} :
    (id, name) ∈ ArtifactTagRepository.taggedNames ids db.rows ↔ id ∈ ids ∧
      ∃ x ∈ rowsOf ArtifactTagAssociation db, x.artifactId = id ∧
        ∃ t ∈ rowsOf ArtifactTag db, t.id = x.tagId ∧ t.name = name := by
  unfold ArtifactTagRepository.taggedNames
  rw [List.mem_mergeSort, List.mem_flatMap]
  constructor
  · rintro ⟨x, hx, h⟩
    split at h
    · next hid =>
      obtain ⟨t, ht, heq⟩ := List.mem_map.mp h
      cases heq
      obtain ⟨ht, htag⟩ := List.mem_filter.mp ht
      exact ⟨hid, x, hx, rfl, t, ht, of_decide_eq_true htag, rfl⟩
    · cases h
  · rintro ⟨hid, x, hx, rfl, t, ht, htag, rfl⟩
    refine ⟨x, hx, ?_⟩
    rw [if_pos hid]
    exact List.mem_map.mpr ⟨t, List.mem_filter.mpr ⟨ht, decide_eq_true htag⟩, rfl⟩

/-- The artifacts without names are those without tags. -/
theorem ends_listTagsForArtifacts (ids : List UUID) :
    (ArtifactTagRepository.listTagsForArtifacts ids).Ends respond s
      (unchanged s fun names => ∀ id ∈ ids, names id = [] ↔ ¬ Tagged s.view id) := by
  unfold ArtifactTagRepository.listTagsForArtifacts
  split
  · next hempty =>
    rw [List.isEmpty_iff] at hempty
    exact ends_unchanged_pure fun id hid => by simp [hempty] at hid
  · refine ends_unchanged_bind ends_unchanged_snapshot fun rows hrows => ends_unchanged_pure ?_
    intro id hid
    rw [List.map_eq_nil_iff, List.filter_eq_nil_iff, hrows]
    constructor
    · rintro hnone ⟨x, hx, hxid, t, ht, htag⟩
      exact hnone (id, t.name) (mem_taggedNames.mpr ⟨hid, x, hx, hxid, t, ht, htag, rfl⟩) (by simp)
    · rintro hnone ⟨id', name⟩ hmem heq
      obtain ⟨-, x, hx, hxid, t, ht, htag, -⟩ := mem_taggedNames.mp hmem
      exact hnone ⟨x, hx, hxid.trans (of_decide_eq_true heq), t, ht, htag⟩

theorem ends_listFavoritedArtifactIds (userId : UUID) (ids : List UUID) :
    (ArtifactTagRepository.listFavoritedArtifactIds userId ids).Ends respond s
      (unchanged s fun found => ∀ id ∈ ids, id ∈ found ↔ Favorited s.view userId id) := by
  unfold ArtifactTagRepository.listFavoritedArtifactIds
  split
  · next hempty =>
    rw [List.isEmpty_iff] at hempty
    exact ends_unchanged_pure fun id hid => by simp [hempty] at hid
  · refine ends_unchanged_bind (ends_unchanged_selectOf _) fun fs hfs => ends_unchanged_pure ?_
    intro id hid
    rw [hfs, List.mem_map]
    constructor
    · rintro ⟨f, hf, rfl⟩
      obtain ⟨hf, hcond⟩ := List.mem_filter.mp hf
      rw [Bool.and_eq_true, decide_eq_true_eq] at hcond
      exact ⟨f, hf, hcond.1, rfl⟩
    · rintro ⟨f, hf, hu, rfl⟩
      refine ⟨f, List.mem_filter.mpr ⟨hf, ?_⟩, rfl⟩
      rw [Bool.and_eq_true]
      exact ⟨decide_eq_true hu, List.contains_iff_mem.mpr hid⟩

/-- What a listing says about an artifact. -/
structure Listed (db : Database) (userId : UUID) (x : ArtifactSummaryResponse) : Prop where
  tags : x.tags = [] ↔ ¬ Tagged db x.id
  isFavorited : x.isFavorited = true ↔ Favorited db userId x.id
  number : ∃ a ∈ rowsOf GeneratedArtifact db, a.id = x.id ∧
    x.currentVersionNumber = ArtifactService.versionNumber (rowsOf ArtifactVersion db) a

theorem ends_requireList (user : User) (o : Option UUID) :
    (ArtifactService.requireList user o).Ends respond s (unchanged s fun _ => True) := by
  cases o with
  | none => exact ends_unchanged_pure trivial
  | some o => exact ends_unchanged_bind (ends_granted o user.id _) fun _ _ => ends_unchanged_pure trivial

/-- **A listing** tells the tags, the favorites and the current versions. -/
theorem ends_listArtifacts (q : ArtifactListQuery) (n : ℕ) :
    (ArtifactService.listArtifacts env engine user q n).Ends respond s
      (unchanged s fun result => ∀ x ∈ result.1, Listed s.view user.id x) := by
  unfold ArtifactService.listArtifacts
  refine ends_unchanged_bind (ends_requireList user _) fun _ _ => ?_
  refine ends_unchanged_bind (ends_listArtifactsFiltered _ _ _ _ _ _) fun (items, total) hitems => ?_
  refine ends_unchanged_bind (ends_unchanged_selectOf _) fun versions hversions => ?_
  refine ends_unchanged_bind (ends_listTagsForArtifacts _) fun names hnames => ?_
  refine ends_unchanged_bind (ends_listFavoritedArtifactIds _ _) fun found hfound => ?_
  refine ends_unchanged_pure fun x hx => ?_
  obtain ⟨a, ha, rfl⟩ := List.mem_map.mp hx
  have hid : a.id ∈ items.map (·.id) := List.mem_map_of_mem ha
  refine ⟨hnames a.id hid, List.contains_iff_mem.trans (hfound a.id hid), a, hitems a ha, rfl, ?_⟩
  rw [hversions]
  exact versionNumber_filter hid _

/-! ## The requests about one artifact -/

/-- The current version of the artifact is one of its own. -/
def OwnsCurrent (db : Database) (a : GeneratedArtifact) : Prop :=
  ∀ i, a.currentVersionId = some i → ∃ v ∈ rowsOf ArtifactVersion db, v.id = i ∧ v.artifactId = a.id

/-- What a request about the artifact `id` leaves: tags, favorites and versions. -/
structure SameExtras (db db' : Database) (id : UUID) : Prop where
  associations : ∀ x : ArtifactTagAssociation,
    x ∈ rowsOf ArtifactTagAssociation db' ↔ x ∈ rowsOf ArtifactTagAssociation db
  tags : ∀ t : ArtifactTag, t ∈ rowsOf ArtifactTag db' ↔ t ∈ rowsOf ArtifactTag db
  favorites : ∀ f : ArtifactFavorite, f ∈ rowsOf ArtifactFavorite db' ↔ f ∈ rowsOf ArtifactFavorite db
  versions : ∀ v : ArtifactVersion, v ∈ rowsOf ArtifactVersion db' ↔ v ∈ rowsOf ArtifactVersion db
  current : ∀ b ∈ rowsOf GeneratedArtifact db', b.id = id →
    ∃ a ∈ rowsOf GeneratedArtifact db, a.id = id ∧ b.currentVersionId = a.currentVersionId

namespace SameExtras

variable {id : UUID}

theorem refl : SameExtras db db id :=
  ⟨fun _ => .rfl, fun _ => .rfl, fun _ => .rfl, fun _ => .rfl, fun b hb hid => ⟨b, hb, hid, rfl⟩⟩

/-- The artifact is written, with the same current version. -/
theorem store {a b : GeneratedArtifact} (ha : a ∈ rowsOf GeneratedArtifact db) (hid : b.id = a.id)
    (hcurrent : b.currentVersionId = a.currentVersionId) :
    SameExtras db (db.write (.store (toRow b))) a.id := by
  refine ⟨fun _ => ?_, fun _ => ?_, fun _ => ?_, fun _ => ?_, fun c hc hcid => ?_⟩
  · exact mem_rowsOf_store_other (by decide)
  · exact mem_rowsOf_store_other (by decide)
  · exact mem_rowsOf_store_other (by decide)
  · exact mem_rowsOf_store_other (by decide)
  · rcases mem_rowsOf_store.mp hc with rfl | ⟨-, hne⟩
    · exact ⟨a, ha, rfl, hcurrent⟩
    · exact absurd (hcid.trans hid.symm) hne

theorem tagged (h : SameExtras db db' id) : Tagged db' id ↔ Tagged db id := by
  simp only [Tagged, h.associations, h.tags]

theorem favorited (h : SameExtras db db' id) {userId : UUID} :
    Favorited db' userId id ↔ Favorited db userId id := by
  simp only [Favorited, h.favorites]

/-- The number of the current version stays. -/
theorem versionNumber_eq (h : SameExtras db db' id) {a b : GeneratedArtifact} (howned : OwnsCurrent db a)
    (hid : b.id = a.id) (hcurrent : b.currentVersionId = a.currentVersionId) :
    ArtifactService.versionNumber (rowsOf ArtifactVersion db') b =
      ArtifactService.versionNumber (rowsOf ArtifactVersion db) a := by
  cases ha : a.currentVersionId with
  | none => rw [versionNumber_eq_none ha, versionNumber_eq_none (hcurrent.trans ha)]
  | some i =>
    obtain ⟨v, hv, rfl, hva⟩ := howned i ha
    rw [versionNumber_of_mem hv hva ha,
      versionNumber_of_mem ((h.versions v).mpr hv) (hva.trans hid.symm) (hcurrent.trans ha)]

end SameExtras

/-- The response tells the number of the current version. -/
def SummaryRequest.numbered : SummaryRequest → Bool
  | get | update _ _ => true
  | archive | unarchive => false

/-- The response tells whether the user has marked the artifact. -/
def SummaryRequest.marked : SummaryRequest → Bool
  | archive => true
  | get | update _ _ | unarchive => false

/-- What a response says about the artifact `id`. -/
structure SummaryRequest.Answers (op : SummaryRequest) (db : Database) (userId id : UUID)
    (r : ArtifactSummaryResponse) : Prop where
  tags : r.tags = []
  isFavorited : r.isFavorited = true ↔ op.marked = true ∧ Favorited db userId id
  number : ∃ a ∈ rowsOf GeneratedArtifact db, a.id = id ∧ r.currentVersionNumber =
    if op.numbered then ArtifactService.versionNumber (rowsOf ArtifactVersion db) a else none

theorem ends_unchanged_lockOne {T : Type} [Entity T] (p : T → Bool) :
    (lockOf p >>= scalarOneOrNone).Ends respond s (unchanged s (Found s.view p)) :=
  ends_lockOf.mpr (ends_selectOf.mp (ends_unchanged_selectOne p))

theorem ends_requireAccess (permission : Permission) (user : User) (a : GeneratedArtifact) :
    (ArtifactService.requireAccess permission user a).Ends respond s (unchanged s fun _ => True) := by
  unfold ArtifactService.requireAccess
  cases a.organizationId with
  | none =>
    simp only
    split
    · exact ends_unchanged_throw
    · exact ends_unchanged_pure trivial
  | some o => exact ends_unchanged_bind (ends_granted o user.id _) fun _ _ => ends_unchanged_pure trivial

/-- The number that `session.get` gives. -/
theorem ends_currentVersion {a : GeneratedArtifact} (howned : OwnsCurrent s.view a) :
    (ArtifactService.currentVersion a []).Ends respond s (unchanged s fun version =>
      version.map (·.versionNumber) =
        ArtifactService.versionNumber (rowsOf ArtifactVersion s.view) a) := by
  unfold ArtifactService.currentVersion
  cases ha : a.currentVersionId with
  | none => exact ends_unchanged_pure (versionNumber_eq_none ha).symm
  | some i =>
    obtain ⟨v, hv, rfl, hva⟩ := howned i ha
    refine (ends_unchanged_selectOne _).mono fun r s' ⟨hs, hfound⟩ => ⟨hs, fun version hr => ?_⟩
    have hfound := hfound version hr
    cases version with
    | none => exact absurd (decide_eq_true rfl) (hfound v hv)
    | some w =>
      obtain rfl : w = v := entity_ext hfound.1 hv (of_decide_eq_true hfound.2)
      exact (versionNumber_of_mem hv hva ha).symm

/-- An artifact is written without its current version. -/
theorem ends_updateArtifact {a : GeneratedArtifact} (ha : a ∈ rowsOf GeneratedArtifact s.view)
    (name description : Option String) :
    (ArtifactRepository.updateArtifact a { name, description }).Ends respond s
      (Prog.onOk fun b s' => b.id = a.id ∧ b.currentVersionId = a.currentVersionId ∧
        s'.view = s.view.write (.store (toRow b))) := by
  refine ends_now.mpr ((ends_update _ _ _).mono fun r s' hr b hb => ?_)
  rcases hr with ⟨row, hrow, hid, rfl, rfl⟩ | ⟨-, rfl⟩
  · obtain rfl : row = a := entity_ext hrow ha hid
    cases hb
    refine ⟨rfl, ?_, by rw [Session.view_append, Table.apply_cons, Table.apply_nil]; rfl⟩
    simp [ArtifactRepository.Changes.flush, flushed]
  · cases hb

theorem ends_setArchived {a : GeneratedArtifact} (ha : a ∈ rowsOf GeneratedArtifact s.view)
    (archived : Bool) :
    (ArtifactTagRepository.setArchived a archived).Ends respond s
      (Prog.onOk fun b s' => b.id = a.id ∧ b.currentVersionId = a.currentVersionId ∧
        s'.view = s.view.write (.store (toRow b))) := by
  have hrest : ∀ (s₁ : Session Row World) archivedAt, s₁.view = s.view →
      (do let updatedAt ← now
          updateById a.id (ArtifactTagRepository.archivedRow a.archivedAt archivedAt updatedAt)
            fun _ => rfl).Ends respond s₁ (Prog.onOk fun b s' => b.id = a.id ∧
        b.currentVersionId = a.currentVersionId ∧ s'.view = s.view.write (.store (toRow b))) := by
    intro s₁ archivedAt hs₁
    refine ends_now.mpr ((ends_update _ _ _).mono fun r s' hr b hb => ?_)
    rcases hr with ⟨row, hrow, hid, rfl, rfl⟩ | ⟨-, rfl⟩
    · obtain rfl : row = a := entity_ext hrow (hs₁ ▸ ha) hid
      cases hb
      refine ⟨rfl, rfl, ?_⟩
      rw [Session.view_append, Table.apply_cons, Table.apply_nil, ← hs₁]
      rfl
    · cases hb
  cases archived with
  | true => exact ends_now.mpr (hrest _ _ rfl)
  | false => exact hrest _ _ rfl

theorem ends_isFavorited (userId id : UUID) :
    (ArtifactTagRepository.isFavorited userId id).Ends respond s
      (unchanged s fun found => found = true ↔ Favorited s.view userId id) := by
  refine ends_unchanged_bind (ends_unchanged_selectOf _) fun fs hfs => ends_unchanged_pure ?_
  rw [hfs, Bool.not_eq_true', ← Bool.not_eq_true, List.isEmpty_iff, List.filter_eq_nil_iff]
  simp only [Bool.and_eq_true, decide_eq_true_eq, not_forall, not_not, exists_prop]
  exact Iff.rfl

/-! ## When the responses agree -/

section Responses

variable {id : UUID}

theorem ends_getSummary (howned : ∀ a ∈ rowsOf GeneratedArtifact s.view, OwnsCurrent s.view a) :
    (SummaryRequest.get.service user id).Ends respond s (Prog.onOk fun r s' =>
      SummaryRequest.get.Answers s.view user.id id r ∧ SameExtras s.view s'.view id) := by
  have hdetail : (ArtifactService.getArtifact user id).Ends respond s (unchanged s fun detail =>
      SummaryRequest.get.Answers s.view user.id id detail.toArtifactSummaryResponse) := by
    refine ends_unchanged_bind (ends_unchanged_selectOne _) fun found hfound => ?_
    cases found with
    | none => exact ends_unchanged_throw
    | some a =>
      refine ends_unchanged_bind (ends_requireAccess _ user a) fun _ _ => ?_
      refine ends_unchanged_bind (ends_currentVersion (howned a hfound.1)) fun version hversion => ?_
      exact ends_unchanged_pure ⟨rfl, by simp [SummaryRequest.marked, ArtifactService.toSummary], a,
        hfound.1, (activeArtifact_eq.mp hfound.2).1, hversion⟩
  refine Prog.Ends.bind hdetail (fun detail s' h => ?_) fun _ _ _ _ hr => nomatch hr
  obtain ⟨rfl, hanswers⟩ := h
  exact ends_onOk_pure ⟨hanswers detail rfl, .refl⟩

theorem ends_updateSummary (howned : ∀ a ∈ rowsOf GeneratedArtifact s.view, OwnsCurrent s.view a)
    (name description : Option String) :
    ((SummaryRequest.update name description).service user id).Ends respond s (Prog.onOk fun r s' =>
      (SummaryRequest.update name description).Answers s.view user.id id r ∧
        SameExtras s.view s'.view id) := by
  refine Prog.Ends.bind (ends_unchanged_selectOne _) (fun found s₁ h => ?_) fun _ _ _ _ h => by cases h
  obtain ⟨rfl, hfound⟩ := h
  have hfound := hfound found rfl
  cases found with
  | none => exact fun _ h => by cases h
  | some a =>
    refine Prog.Ends.bind (ends_requireAccess _ user a) (fun _ s₂ h => ?_) fun _ _ _ _ h => by cases h
    obtain ⟨rfl, -⟩ := h
    split
    · exact fun _ h => by cases h
    refine Prog.Ends.bind_ok (ends_updateArtifact hfound.1 name description) fun b s₃ h => ?_
    obtain ⟨hid, hcurrent, hview⟩ := h
    obtain rfl : a.id = id := (activeArtifact_eq.mp hfound.2).1
    have hsame : SameExtras s₂.view s₃.view a.id := by
      rw [hview]
      exact .store hfound.1 hid hcurrent
    have hb : OwnsCurrent s₃.view b := by
      intro i hi
      obtain ⟨v, hv, hvi, hva⟩ := howned a hfound.1 i (hcurrent ▸ hi)
      exact ⟨v, (hsame.versions v).mpr hv, hvi, hva.trans hid.symm⟩
    refine Prog.Ends.bind (ends_currentVersion hb) (fun version s₄ h => ?_) fun _ _ _ _ h => by cases h
    obtain ⟨rfl, hversion⟩ := h
    refine ends_onOk_pure ⟨⟨rfl, by simp [SummaryRequest.marked, ArtifactService.toSummary], a,
      hfound.1, rfl, ?_⟩, hsame⟩
    exact (hversion version rfl).trans (hsame.versionNumber_eq (howned a hfound.1) hid hcurrent)

theorem ends_archiveSummary :
    (SummaryRequest.archive.service user id).Ends respond s (Prog.onOk fun r s' =>
      SummaryRequest.archive.Answers s.view user.id id r ∧ SameExtras s.view s'.view id) := by
  refine Prog.Ends.bind (ends_unchanged_lockOne _) (fun found s₁ h => ?_) fun _ _ _ _ h => nomatch h
  obtain ⟨rfl, hfound⟩ := h
  have hfound := hfound found rfl
  cases found with
  | none => exact fun _ h => nomatch h
  | some a =>
    refine Prog.Ends.bind (ends_requireAccess _ user a) (fun _ s₂ h => ?_) fun _ _ _ _ h => nomatch h
    obtain ⟨rfl, -⟩ := h
    refine Prog.Ends.bind_ok (ends_setArchived hfound.1 true) fun b s₃ h => ?_
    obtain ⟨hid, hcurrent, hview⟩ := h
    obtain rfl : a.id = id := (activeArtifact_eq.mp hfound.2).1
    have hsame : SameExtras s₂.view s₃.view a.id := by
      rw [hview]
      exact .store hfound.1 hid hcurrent
    refine Prog.Ends.bind (ends_isFavorited user.id a.id) (fun found s₄ h => ?_)
      fun _ _ _ _ h => nomatch h
    obtain ⟨rfl, hmarked⟩ := h
    refine ends_onOk_pure ⟨⟨rfl, ?_, a, hfound.1, rfl, rfl⟩, hsame⟩
    rw [← hsame.favorited]
    exact (hmarked found rfl).trans ⟨fun h => ⟨rfl, h⟩, fun h => h.2⟩

theorem ends_unarchiveSummary :
    (SummaryRequest.unarchive.service user id).Ends respond s (Prog.onOk fun r s' =>
      SummaryRequest.unarchive.Answers s.view user.id id r ∧ SameExtras s.view s'.view id) := by
  refine Prog.Ends.bind (ends_unchanged_lockOne _) (fun found s₁ h => ?_) fun _ _ _ _ h => nomatch h
  obtain ⟨rfl, hfound⟩ := h
  have hfound := hfound found rfl
  cases found with
  | none => exact fun _ h => nomatch h
  | some a =>
    refine Prog.Ends.bind (ends_requireAccess _ user a) (fun _ s₂ h => ?_) fun _ _ _ _ h => nomatch h
    obtain ⟨rfl, -⟩ := h
    refine Prog.Ends.bind_ok (ends_setArchived hfound.1 false) fun b s₃ h => ?_
    obtain ⟨hid, hcurrent, hview⟩ := h
    obtain rfl : a.id = id := (activeArtifact_eq.mp hfound.2).1
    refine ends_onOk_pure ⟨⟨rfl, by simp [SummaryRequest.marked, ArtifactService.toSummary], a,
      hfound.1, rfl, rfl⟩, ?_⟩
    rw [hview]
    exact .store hfound.1 hid hcurrent

/-- **What the requests about one artifact** say about it, and what they leave. -/
theorem ends_service (howned : ∀ a ∈ rowsOf GeneratedArtifact s.view, OwnsCurrent s.view a)
    (op : SummaryRequest) : (op.service user id).Ends respond s (Prog.onOk fun r s' =>
      op.Answers s.view user.id id r ∧ SameExtras s.view s'.view id) := by
  cases op with
  | get => exact ends_getSummary howned
  | update name description => exact ends_updateSummary howned name description
  | archive => exact ends_archiveSummary
  | unarchive => exact ends_unarchiveSummary

/-- The artifact has nothing that the response leaves out. -/
def SummaryRequest.Complete (op : SummaryRequest) (db : Database) (userId id : UUID) : Prop :=
  ¬ Tagged db id ∧ (op.marked = true ∨ ¬ Favorited db userId id) ∧
    (op.numbered = true ∨ ¬ Versioned db id)

/-- A response and a listing of the state it leaves agree if the response leaves nothing out. -/
theorem sameView_iff {op : SummaryRequest} {userId : UUID} {r x : ArtifactSummaryResponse}
    (howned : ∀ a ∈ rowsOf GeneratedArtifact db, OwnsCurrent db a) (hr : op.Answers db userId id r)
    (hx : Listed db' userId x) (hid : x.id = id) (hsame : SameExtras db db' id) :
    SameView r x ↔ op.Complete db userId id := by
  obtain ⟨a, ha, haid, hnumber⟩ := hr.number
  obtain ⟨b, hb, hbid, hnumber'⟩ := hx.number
  obtain ⟨a', ha', haid', hcurrent⟩ := hsame.current b hb (hbid.trans hid)
  obtain rfl : a' = a := entity_ext ha' ha (haid'.trans haid.symm)
  have htags : r.tags = x.tags ↔ ¬ Tagged db id := by
    rw [hr.tags, eq_comm, hx.tags, hid, hsame.tagged]
  have hmarked : r.isFavorited = x.isFavorited ↔ op.marked = true ∨ ¬ Favorited db userId id := by
    rw [Bool.eq_iff_iff, hr.isFavorited, hx.isFavorited, hid, hsame.favorited]
    tauto
  have hnumbers : r.currentVersionNumber = x.currentVersionNumber ↔
      op.numbered = true ∨ ¬ Versioned db id := by
    have hsameNumber := hsame.versionNumber_eq (howned a' ha) ((hbid.trans hid).trans haid.symm) hcurrent
    have hversioned : Versioned db id ↔ a'.currentVersionId ≠ none := by
      constructor
      · rintro ⟨c, hc, hcid, hne⟩
        rwa [entity_ext hc ha (hcid.trans haid.symm)] at hne
      · exact fun hne => ⟨a', ha, haid, hne⟩
    rw [hnumber, hnumber', hsameNumber, hversioned]
    cases op.numbered with
    | true => simp
    | false =>
      cases hcur : a'.currentVersionId with
      | none => simp [versionNumber_eq_none hcur]
      | some i =>
        obtain ⟨v, hv, rfl, hva⟩ := howned a' ha i hcur
        simp [versionNumber_of_mem hv hva hcur]
  unfold SummaryRequest.Complete
  rw [← htags, ← hmarked, ← hnumbers]
  exact ⟨fun h => ⟨h.1, h.2, h.3⟩, fun h => ⟨h.1, h.2.1, h.2.2⟩⟩

/-- **A listing and another response agree** about an artifact, in the state that the other request
leaves, exactly if there is nothing that the response leaves out: no tag; no favorite of the user, unless
the response is that of `archive`; and, for `archive` and `unarchive`, no current version. -/
theorem summary_listed_iff (env : Env) (engine : SqlEngine) (s₀ : State) (h₀ : NoArtifacts s₀.committed)
    (c : LibraryConfig) (hc : Reach respond (LibraryRequest.serve env) s₀.open c) (s : State)
    (hs : s.committed = c.committed) (user : User) (id : UUID) (op : SummaryRequest)
    (r : ArtifactSummaryResponse) (s' : State)
    (hr : s.serve respond getDb (op.service user id) = (.ok r, s')) (q : ArtifactListQuery) (n : ℕ)
    (items : List ArtifactSummaryResponse) (total : ℕ)
    (hlist : (s'.serve respond getDb
      (ArtifactService.listArtifacts env engine user q n)).1 = .ok (items, total))
    (x : ArtifactSummaryResponse) (hx : x ∈ items) (hid : x.id = id) :
    SameView r x ↔ op.Complete s.committed user.id id := by
  have hchained : Chained env c.committed := chained_of_library h₀ hc
  have howned : ∀ a ∈ rowsOf GeneratedArtifact s.committed, OwnsCurrent s.committed a := by
    rw [hs]
    intro a ha i hi
    obtain ⟨v, hv, hvi, hva, -⟩ := hchained.current a ha i hi
    exact ⟨v, hv, hvi, hva⟩
  have hservice : (getDb (op.service user id)).Ends respond s.session (Prog.onOk fun r s' =>
      op.Answers s.committed user.id id r ∧ SameExtras s.committed s'.committed id) := by
    refine Prog.ends_unitOfWork.mpr ((ends_service (s := s.session) howned op).mono fun result s' hresult => ?_)
    cases result with
    | error e => exact fun _ h => nomatch h
    | ok r => exact fun r' hr' => by cases hr'; exact hresult r rfl
  have hlisting : (getDb (ArtifactService.listArtifacts env engine user q n)).Ends respond s'.session
      (Prog.onOk fun result _ => ∀ x ∈ result.1, Listed s'.committed user.id x) := by
    refine Prog.ends_unitOfWork.mpr ((ends_listArtifacts q n).mono fun result s'' hresult => ?_)
    cases result with
    | error e => exact fun _ h => nomatch h
    | ok p => exact fun p' hp' => by cases hp'; exact hresult.2 p rfl
  obtain ⟨hanswers, hsame⟩ := hservice r (congrArg Prod.fst hr)
  have hcommitted : ((getDb (op.service user id)).exec respond s.session).2.committed = s'.committed :=
    congrArg (fun p => Store.committed (Prod.snd p)) hr
  rw [hcommitted] at hsame
  exact sameView_iff howned hanswers (hlisting _ hlist x hx) hid hsame

end Responses

/-! ## An artifact with a favorite -/

/-- The user who creates an artifact. -/
def shelfAuthor : User :=
  { id := 1, email := "a", username := "a", hashedPassword := "a", role := .user, isActive := true,
    emailVerifiedAt := none }

/-- The artifact 2 is created, and marked if there are `turns` for it. -/
def favoriteMoves (turns : ℕ) : List (Move Exc LibraryRequest) :=
  Move.alone (.workspace (.artifact (.create authorAccess ⟨"n", none, .other, "x", none⟩))) 0 22 ++
    Move.alone (.favorite authorAccess 2) 1 turns

/-- The state after a run, with the response of `get_artifact`. -/
def shelfRead (c : LibraryConfig) : Except Exc ArtifactSummaryResponse × State :=
  Store.serve respond getDb { authorState with committed := c.committed }
    (SummaryRequest.get.service shelfAuthor 2)

/-- The listing after that. -/
def shelfListing (c : LibraryConfig) : Except Exc (List ArtifactSummaryResponse × ℕ) :=
  ((shelfRead c).2.serve respond getDb (ArtifactService.listArtifacts .trial .plain shelfAuthor
    { limit := 10, offset := 0 } 0)).1

/-- The responses of a run, with and without a favorite. -/
def showsFavorite (favorite : Bool) (c : LibraryConfig) : Bool :=
  (shelfRead c).1.map (·.isFavorited) = .ok false &&
    (shelfListing c).map (fun p => p.1.map fun x => (x.id, x.isFavorited)) = .ok [(2, favorite)]

theorem exists_of_map_eq_ok {α β : Type} {f : α → β} {x : Except Exc α} {b : β}
    (h : x.map f = .ok b) : ∃ a, x = .ok a ∧ f a = b := by
  cases x with
  | error e => cases h
  | ok a => exact ⟨a, rfl, Except.ok.inj h⟩

theorem responses_of_showsFavorite {favorite : Bool} {c : LibraryConfig}
    (h : showsFavorite favorite c = true) : ∃ r x total, shelfRead c = (.ok r, (shelfRead c).2) ∧
      shelfListing c = .ok ([x], total) ∧ x.id = 2 ∧ r.isFavorited = false ∧
      x.isFavorited = favorite := by
  unfold showsFavorite at h
  simp only [Bool.and_eq_true, decide_eq_true_eq] at h
  obtain ⟨r, hr, hfalse⟩ := exists_of_map_eq_ok h.1
  obtain ⟨⟨items, total⟩, hlist, hmap⟩ := exists_of_map_eq_ok h.2
  obtain ⟨x, rfl, hx⟩ := List.map_eq_singleton_iff.mp hmap
  exact ⟨r, x, total, Prod.ext hr rfl, hlist, congrArg Prod.fst hx, hfalse, congrArg Prod.snd hx⟩

/-- An artifact without tags and favorites is read and listed. -/
theorem unmarked_listed : ∃ (c : LibraryConfig) (r x : ArtifactSummaryResponse) (total : ℕ),
    Reach respond (LibraryRequest.serve .trial) authorState.open c ∧
    (shelfRead c).1 = .ok r ∧ shelfListing c = .ok ([x], total) ∧ SameView r x := by
  obtain ⟨c, hc, hp⟩ : ∃ c, Reach respond (LibraryRequest.serve .trial)
      (authorState.open : LibraryConfig) c ∧
      (showsFavorite false c && (rowsOf ArtifactFavorite c.committed).isEmpty &&
        (rowsOf ArtifactTagAssociation c.committed).isEmpty) = true :=
    exists_reach_of_run respond _ (favoriteMoves 0) _ (by decide +kernel)
  simp only [Bool.and_eq_true, List.isEmpty_iff] at hp
  obtain ⟨⟨hshows, hfavorites⟩, htags⟩ := hp
  obtain ⟨r, x, total, hr, hlist, hid, -⟩ := responses_of_showsFavorite hshows
  refine ⟨c, r, x, total, hc, congrArg Prod.fst hr, hlist, ?_⟩
  refine (summary_listed_iff .trial .plain authorState (by unfold NoArtifacts; decide) c hc
    { authorState with committed := c.committed } rfl shelfAuthor 2 .get r _ hr _ 0 [x] total hlist x
    List.mem_cons_self hid).mpr ⟨?_, .inr ?_, .inl rfl⟩
  · rintro ⟨y, hy, -⟩
    exact absurd (htags ▸ hy) List.not_mem_nil
  · rintro ⟨y, hy, -⟩
    exact absurd (hfavorites ▸ hy) List.not_mem_nil

/-- An artifact that the user has marked is read and listed. -/
theorem favorite_not_shown : ¬ ∀ (env : Env) (engine : SqlEngine) (s₀ : State),
    NoArtifacts s₀.committed → ∀ c : LibraryConfig,
    Reach respond (LibraryRequest.serve env) s₀.open c → ∀ s : State, s.committed = c.committed →
    ∀ (user : User) (id : UUID) (op : SummaryRequest) (r : ArtifactSummaryResponse) (s' : State),
    s.serve respond getDb (op.service user id) = (.ok r, s') → ∀ (q : ArtifactListQuery) (n : ℕ)
    (items : List ArtifactSummaryResponse) (total : ℕ),
    (s'.serve respond getDb (ArtifactService.listArtifacts env engine user q n)).1 =
      .ok (items, total) → ∀ x ∈ items, x.id = id → SameView r x := by
  intro h
  obtain ⟨c, hc, hshows⟩ : ∃ c, Reach respond (LibraryRequest.serve .trial)
      (authorState.open : LibraryConfig) c ∧ showsFavorite true c = true :=
    exists_reach_of_run respond _ (favoriteMoves 8) _ (by decide +kernel)
  obtain ⟨r, x, total, hr, hlist, hid, hread, hlisted⟩ := responses_of_showsFavorite hshows
  have hsame := h .trial .plain authorState (by unfold NoArtifacts; decide) c hc
    { authorState with committed := c.committed } rfl shelfAuthor 2 .get r _ hr _ 0 [x] total hlist x
    List.mem_cons_self hid
  have := hsame.isFavorited
  rw [hread, hlisted] at this
  cases this

end DevOps
