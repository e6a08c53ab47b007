import DevOpsAssistant.Repositories.ArtifactListing
import DevOpsAssistant.Specs.Runs
import Mathlib.Data.String.Basic

/-!
# Pages of artifacts

* `ArtifactFilters.Matches`: the artifacts a listing is about; `FavoritesUnique`: the unique constraint.
* `mem_matchingRows`, `nodup_matchingRows`: what the query without its order returns.
* `joinVersion_eq`: the join for the order adds no row.
* `sortedRows_eq`: there is one way to order the rows.
* **`listArtifactsFiltered_pages`**: the pages are a partition of the artifacts that match.
* `SqlEngine.plain`: an engine that orders texts by their characters, with `NULL` first.
-/

namespace DevOps

open Txn

/-- `uq_artifact_favorite`. -/
def FavoritesUnique (db : Database) : Prop :=
  ∀ x ∈ rowsOf ArtifactFavorite db, ∀ y ∈ rowsOf ArtifactFavorite db,
    x.userId = y.userId → x.artifactId = y.artifactId → x = y

/-- The artifact satisfies the conditions of the listing. -/
structure ArtifactFilters.Matches (env : Env) (engine : SqlEngine) (f : ArtifactFilters)
    (db : Database) (a : GeneratedArtifact) : Prop where
  admitted : f.admits env engine a = true
  favorite : ∀ u ∈ f.favoritesOf, ∃ x ∈ rowsOf ArtifactFavorite db, x.artifactId = a.id ∧ x.userId = u
  tagged : ∀ name ∈ f.normalizedNames env, ∃ x ∈ rowsOf ArtifactTagAssociation db,
    ∃ tag ∈ rowsOf ArtifactTag db, x.artifactId = a.id ∧ tag.id = x.tagId ∧
      env.lower tag.name = name

variable {env : Env} {engine : SqlEngine} {f : ArtifactFilters} {db : Database}

/-! ## The query -/

theorem mem_taggedIds {name : String} {id : UUID} : id ∈ taggedIds env name db.rows ↔
    ∃ x ∈ rowsOf ArtifactTagAssociation db, ∃ tag ∈ rowsOf ArtifactTag db, x.artifactId = id ∧
      tag.id = x.tagId ∧ env.lower tag.name = name := by
  unfold taggedIds
  simp only [List.mem_flatMap, List.mem_map, List.mem_filter, Bool.and_eq_true, decide_eq_true_eq]
  constructor
  · rintro ⟨x, hx, tag, ⟨htag, hid, hname⟩, rfl⟩
    exact ⟨x, hx, tag, htag, rfl, hid, hname⟩
  · rintro ⟨x, hx, tag, htag, rfl, hid, hname⟩
    exact ⟨x, hx, tag, ⟨htag, hid, hname⟩, rfl⟩

/-- The join keeps an artifact or leaves it out. -/
theorem mem_joinFavorites {o : Option UUID} {a b : GeneratedArtifact} :
    b ∈ joinFavorites o db.rows a ↔ b = a ∧
      ∀ u ∈ o, ∃ x ∈ rowsOf ArtifactFavorite db, x.artifactId = a.id ∧ x.userId = u := by
  cases o with
  | none => simp [joinFavorites]
  | some u =>
    unfold joinFavorites
    simp only [List.mem_map, List.mem_filter, Bool.and_eq_true, decide_eq_true_eq, Option.mem_def,
      Option.some.injEq, forall_eq']
    constructor
    · rintro ⟨x, ⟨hx, h⟩, rfl⟩
      exact ⟨rfl, x, hx, h⟩
    · rintro ⟨rfl, x, hx, h⟩
      exact ⟨x, ⟨hx, h⟩, rfl⟩

/-- **What the query finds** are the artifacts that match. -/
theorem mem_matchingRows {a : GeneratedArtifact} : a ∈ matchingRows env engine f db.rows ↔
    a ∈ rowsOf GeneratedArtifact db ∧ f.Matches env engine db a := by
  unfold matchingRows
  rw [List.mem_filter, List.all_eq_true, List.mem_flatMap]
  simp only [List.contains_iff_mem, mem_taggedIds]
  constructor
  · rintro ⟨⟨b, hb, hjoin⟩, htagged⟩
    obtain ⟨rfl, hfavorite⟩ := mem_joinFavorites.mp hjoin
    obtain ⟨hb, hadmits⟩ := List.mem_filter.mp hb
    exact ⟨hb, hadmits, hfavorite, htagged⟩
  · rintro ⟨ha, hadmits, hfavorite, htagged⟩
    exact ⟨⟨a, List.mem_filter.mpr ⟨ha, hadmits⟩, mem_joinFavorites.mpr ⟨rfl, hfavorite⟩⟩, htagged⟩

/-- The join adds no row: a user has marked an artifact once. -/
theorem length_joinFavorites_le (h : FavoritesUnique db) (o : Option UUID) (a : GeneratedArtifact) :
    (joinFavorites o db.rows a).length ≤ 1 := by
  cases o with
  | none => exact Nat.le_refl 1
  | some u =>
    change (List.map _ ((rowsOf ArtifactFavorite db).filter _)).length ≤ 1
    rw [List.length_map]
    by_contra hlt
    obtain ⟨x, y, hx, hpx, hy, hpy, hne⟩ := exists_two_of_lt (Nat.lt_of_not_le hlt)
    simp only [Bool.and_eq_true, decide_eq_true_eq] at hpx hpy
    exact hne (congrArg ArtifactFavorite.id
      (h x hx y hy (hpx.2.trans hpy.2.symm) (hpx.1.trans hpy.1.symm)))

/-- **No artifact** is found twice. -/
theorem nodup_matchingRows (h : FavoritesUnique db) : (matchingRows env engine f db.rows).Nodup := by
  refine List.Nodup.filter _ (List.nodup_flatMap.mpr ⟨fun a _ => ?_, ?_⟩)
  · have hle := length_joinFavorites_le h f.favoritesOf a
    generalize joinFavorites f.favoritesOf db.rows a = joined at hle
    rcases joined with _ | ⟨b, _ | ⟨c, l⟩⟩
    · exact List.nodup_nil
    · exact List.nodup_singleton b
    · simp at hle
  · refine (nodup_rowsOf.filter _).imp fun {a b} hab c ha hb => ?_
    exact hab ((mem_joinFavorites.mp ha).1.symm.trans (mem_joinFavorites.mp hb).1)

/-! ## The order -/

/-- **The join for the order** keeps every artifact, once. -/
theorem joinVersion_eq (field : SortField) (a : GeneratedArtifact) :
    ∃ v, joinVersion field db.rows a = [(a, v)] := by
  cases field with
  | currentVersionNumber =>
    unfold joinVersion
    generalize hvs : (rowsIn db.rows : List ArtifactVersion).filter
      (fun v => a.currentVersionId = some v.id) = versions
    rcases versions with _ | ⟨v, _ | ⟨w, l⟩⟩
    · exact ⟨none, rfl⟩
    · exact ⟨some v, rfl⟩
    · -- two versions cannot both be the current one
      have hlt : 1 < ((rowsOf ArtifactVersion db).filter
          fun v => a.currentVersionId = some v.id).length := by
        change 1 < (List.filter _ (rowsIn db.rows)).length
        rw [hvs]
        simp
      obtain ⟨x, y, -, hx, -, hy, hne⟩ := exists_two_of_lt hlt
      rw [decide_eq_true_eq] at hx hy
      exact absurd (Option.some.inj (hx.symm.trans hy)) hne
  | _ => exact ⟨none, rfl⟩

theorem map_fst_joinVersion (field : SortField) (as : List GeneratedArtifact) :
    (as.flatMap (joinVersion field db.rows)).map Prod.fst = as := by
  induction as with
  | nil => rfl
  | cons a as ih =>
    obtain ⟨v, hv⟩ : ∃ v, joinVersion field db.rows a = [(a, v)] := joinVersion_eq field a
    rw [List.flatMap_cons, hv, List.map_append, ih]
    rfl

theorem ascending_total (field : SortField) (a b : JoinedRow) :
    engine.ascending field a b || engine.ascending field b a :=
  Lexicographic.le_total (fun _ _ => engine.le_total _ _ _) (fun _ _ => engine.idLe_total _ _) a b

theorem ascending_trans (field : SortField) {a b c : JoinedRow}
    (hab : engine.ascending field a b = true) (hbc : engine.ascending field b c = true) :
    engine.ascending field a c = true :=
  Lexicographic.le_trans (fun a b c => engine.le_trans field (field.valueOf a) (field.valueOf b)
    (field.valueOf c)) (fun a b c => engine.idLe_trans a.1.id b.1.id c.1.id) hab hbc

theorem idLe_of_ascending {field : SortField} {a b : JoinedRow}
    (hab : engine.ascending field a b = true) (hba : engine.ascending field b a = true) :
    engine.idLe a.1.id b.1.id = true ∧ engine.idLe b.1.id a.1.id = true :=
  Lexicographic.second_of_le (t := fun a b : JoinedRow => engine.idLe a.1.id b.1.id) hab hba

theorem pairwise_sortedRows (field : SortField) (order : SortOrder) (n : ℕ) :
    (sortedRows env engine f field order n db.rows).Pairwise (engine.rowLe field order · ·) := by
  refine engine.orderBy_pairwise _ _ _ (fun a b => ?_) fun a b c hab hbc => ?_
  · cases order with
    | asc => exact ascending_total field a b
    | desc => exact ascending_total field b a
  · cases order with
    | asc => exact ascending_trans field hab hbc
    | desc => exact ascending_trans field hbc hab

/-- Rows that are below each other are one row. -/
theorem rowLe_antisymm {field : SortField} {order : SortOrder} {as : List GeneratedArtifact}
    (has : ∀ a ∈ as, a ∈ rowsOf GeneratedArtifact db) {x y : JoinedRow}
    (hx : x ∈ as.flatMap (joinVersion field db.rows))
    (hy : y ∈ as.flatMap (joinVersion field db.rows)) (hxy : engine.rowLe field order x y = true)
    (hyx : engine.rowLe field order y x = true) : x = y := by
  obtain ⟨a, ha, hx⟩ := List.mem_flatMap.mp hx
  obtain ⟨b, hb, hy⟩ := List.mem_flatMap.mp hy
  obtain ⟨v, hv⟩ : ∃ v, joinVersion field db.rows a = [(a, v)] := joinVersion_eq field a
  obtain ⟨w, hw⟩ : ∃ w, joinVersion field db.rows b = [(b, w)] := joinVersion_eq field b
  rw [hv, List.mem_singleton] at hx
  rw [hw, List.mem_singleton] at hy
  have hids : engine.idLe x.1.id y.1.id = true ∧ engine.idLe y.1.id x.1.id = true := by
    cases order with
    | asc => exact idLe_of_ascending hxy hyx
    | desc => exact idLe_of_ascending hyx hxy
  have hid := engine.idLe_antisymm _ _ hids.1 hids.2
  rw [hx, hy] at hid
  obtain rfl := entity_ext (has a ha) (has b hb) hid
  rw [hv] at hw
  rw [hx, hy, List.singleton_inj.mp hw]

/-- **There is one way** to order the rows. -/
theorem sortedRows_eq (field : SortField) (order : SortOrder) (m n : ℕ) :
    sortedRows env engine f field order m db.rows = sortedRows env engine f field order n db.rows := by
  have hperm : ∀ n, (sortedRows env engine f field order n db.rows).Perm
      ((matchingRows env engine f db.rows).flatMap (joinVersion field db.rows)) := fun n =>
    engine.orderBy_perm _ _ _
  refine List.Perm.eq_of_pairwise (fun x y hx hy hxy hyx => ?_) (pairwise_sortedRows field order m)
    (pairwise_sortedRows field order n) ((hperm m).trans (hperm n).symm)
  exact rowLe_antisymm (fun a ha => (mem_matchingRows.mp ha).1) ((hperm m).mem_iff.mp hx)
    ((hperm n).mem_iff.mp hy) hxy hyx

/-! ## Pages -/

/-- Artifacts that are all different stay. -/
theorem uniqueFrom_eq_self {as : List GeneratedArtifact} {seen : List UUID}
    (h : (as.map (·.id)).Nodup) (hseen : ∀ a ∈ as, a.id ∉ seen) : uniqueFrom seen as = as := by
  induction as generalizing seen with
  | nil => rfl
  | cons a as ih =>
    rw [List.map_cons, List.nodup_cons] at h
    rw [List.forall_mem_cons] at hseen
    unfold uniqueFrom
    rw [if_neg hseen.1, ih h.2 fun b hb hmem => ?_]
    rcases List.mem_cons.mp hmem with heq | hmem
    · exact h.1 (heq ▸ List.mem_map_of_mem hb)
    · exact hseen.2 b hb hmem

theorem exec_snapshot {α : Type} (s : Session Row World) (g : List Row → Db α) :
    (snapshot >>= g).exec respond s = (g s.view.rows).exec respond s := by
  change (g (s.view.rows.filter fun _ => true)).exec respond s = _
  rw [List.filter_true]

/-- **The pages** of a listing, at the offsets 0, `limit`, 2 · `limit`, …, hold each artifact that
matches exactly once, and every one of them reports their number. -/
theorem listArtifactsFiltered_pages (env : Env) (engine : SqlEngine) (s : Session Row World)
    (h : FavoritesUnique s.view) (f : ArtifactFilters) (field : SortField) (order : SortOrder)
    (limit : ℕ) (hlimit : 1 ≤ limit) (queries : ℕ → ℕ) :
    ∃ (all : List GeneratedArtifact) (page : ℕ → List GeneratedArtifact),
      all.Nodup ∧
      (∀ a, a ∈ all ↔ a ∈ rowsOf GeneratedArtifact s.view ∧ f.Matches env engine s.view a) ∧
      (∀ k, (ArtifactTagRepository.listArtifactsFiltered env engine f field order limit (k * limit)
        (queries k)).exec respond s = (.ok (page k, all.length), s)) ∧
      ∀ n, all.length ≤ n → (List.range n).flatMap page = all := by
  have hperm : ((sortedRows env engine f field order 0 s.view.rows).map Prod.fst).Perm
      (matchingRows env engine f s.view.rows) := by
    have := (engine.orderBy_perm 0 (engine.rowLe field order)
      ((matchingRows env engine f s.view.rows).flatMap (joinVersion field s.view.rows))).map Prod.fst
    rwa [map_fst_joinVersion] at this
  generalize hall : (sortedRows env engine f field order 0 s.view.rows).map Prod.fst = all at hperm
  have hnodup : all.Nodup := hperm.nodup_iff.mpr (nodup_matchingRows h)
  have hmem : ∀ a, a ∈ all ↔ a ∈ rowsOf GeneratedArtifact s.view ∧ f.Matches env engine s.view a :=
    fun a => hperm.mem_iff.trans mem_matchingRows
  have hids : (all.map (·.id)).Nodup := by
    refine List.Nodup.map_on (fun a ha b hb hid => ?_) hnodup
    exact entity_ext ((hmem a).mp ha).1 ((hmem b).mp hb).1 hid
  refine ⟨all, fun k => (all.drop (k * limit)).take limit, hnodup, hmem, fun k => ?_, fun n hn => ?_⟩
  · unfold ArtifactTagRepository.listArtifactsFiltered
    rw [exec_snapshot, exec_snapshot]
    have hpage : uniqueFrom [] ((((sortedRows env engine f field order (queries k)
        s.view.rows).drop (k * limit)).take limit).map Prod.fst) =
          (all.drop (k * limit)).take limit := by
      rw [sortedRows_eq field order (queries k) 0, List.map_take, List.map_drop, hall]
      refine uniqueFrom_eq_self ?_ fun _ _ hnil => nomatch hnil
      exact hids.sublist (((List.take_sublist _ _).trans (List.drop_sublist _ _)).map _)
    dsimp only
    rw [hpage, hperm.length_eq]
    rfl
  · refine flatMap_pages_eq_self all (hn.trans ?_)
    exact Nat.le_mul_of_pos_right n hlimit

/-! ## Two artifacts on two pages -/

/-- The values of a column in ascending order. -/
def SqlValue.le : SqlValue → SqlValue → Bool
  | .null, _ => true
  | _, .null => false
  | .number m, .number n => m ≤ n
  | .number _, .text _ => true
  | .text _, .number _ => false
  | .text s, .text t => s ≤ t

theorem SqlValue.total (a b : SqlValue) : a.le b || b.le a := by
  cases a <;> cases b <;> simp [SqlValue.le, le_total]

theorem SqlValue.trans (a b c : SqlValue) (hab : a.le b) (hbc : b.le c) : a.le c := by
  cases a <;> cases b <;> cases c <;> simp_all [SqlValue.le] <;> exact le_trans hab hbc

/-- An engine. -/
def SqlEngine.plain : SqlEngine where
  ilike value pattern :=
    (value.toList.map Char.toLower).IsInfix ((pattern.toList.filter (· ≠ '%')).map Char.toLower)
  le _ := SqlValue.le
  le_total _ := SqlValue.total
  le_trans _ := SqlValue.trans
  idLe a b := Nat.ble a b
  idLe_total a b := by
    rw [Bool.or_eq_true, Nat.ble_eq, Nat.ble_eq]
    exact Nat.le_total a b
  idLe_trans a b c hab hbc := Nat.ble_eq.mpr (Nat.le_trans (Nat.ble_eq.mp hab) (Nat.ble_eq.mp hbc))
  idLe_antisymm a b hab hba := Nat.le_antisymm (Nat.ble_eq.mp hab) (Nat.ble_eq.mp hba)
  orderBy _ le rows := rows.mergeSort le
  orderBy_perm _ _ _ := List.mergeSort_perm _ _
  orderBy_pairwise _ _ _ total trans := List.pairwise_mergeSort trans total _

/-- An artifact without a version. -/
def shelved (id : UUID) (name : String) : GeneratedArtifact :=
  ⟨id, 1, none, .other, name, none, "", none, 0, 0, none, none⟩

def shelfSession : Session Row World :=
  ⟨⟨⟨[toRow (shelved 2 "b"), toRow (shelved 3 "a")], by decide⟩, 4, World.trial 0⟩, []⟩

/-- Two artifacts are listed on two pages of one. -/
theorem pages_shelf : ∃ (all : List GeneratedArtifact) (page : ℕ → List GeneratedArtifact),
    all.length = 2 ∧ (List.range 2).flatMap page = all ∧
    ∀ k, (ArtifactTagRepository.listArtifactsFiltered .trial .plain { userId := some 1 } .name .asc 1
      (k * 1) 0).exec respond shelfSession = (.ok (page k, all.length), shelfSession) := by
  obtain ⟨all, page, -, -, hpages, hall⟩ := listArtifactsFiltered_pages .trial .plain shelfSession
    (fun _ hx => nomatch hx) { userId := some 1 } .name .asc 1 (Nat.le_refl 1) fun _ => 0
  have htotal : all.length = 2 := by
    have hrun : ((ArtifactTagRepository.listArtifactsFiltered .trial .plain { userId := some 1 } .name
        .asc 1 (0 * 1) 0).exec respond shelfSession).1.map Prod.snd = .ok 2 := by decide +kernel
    rw [hpages 0] at hrun
    exact Except.ok.inj hrun
  exact ⟨all, page, htotal, hall 2 (by omega), hpages⟩

end DevOps
