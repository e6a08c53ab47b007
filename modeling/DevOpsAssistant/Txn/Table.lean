import Mathlib.Data.List.Nodup
import Mathlib.Logic.Relation
import Mathlib.Tactic.Common

/-!
# Keyed tables and redo logs

A database is a list of rows with pairwise different primary keys, and an open transaction is the
list of writes it makes at its commit.

* `Table R`: the rows of a database, with the key constraint as a field.
* `Write`, `Table.write`, `Table.apply`: one write, and the replay of a redo log.
* **`Table.mem_write_store`**, **`Table.mem_write_delete`**: the rows after a write.
* `Table.SameAt`: two databases that agree on a list of keys.
-/

namespace Txn

/-- Rows of type `R` carry a primary key of type `K`. -/
class Keyed (R : Type) (K : outParam Type) where
  key : R → K

export Keyed (key)

variable {R K : Type} [DecidableEq K] [Keyed R K]

/-! ## Tables -/

/-- A finite table, in insertion order; no two rows have the same primary key. -/
structure Table (R : Type) {K : Type} [Keyed R K] where
  rows : List R
  nodup : (rows.map key).Nodup

/-- A write of the redo log: an insert or update of a whole row, or a delete. -/
inductive Write (R K : Type) where
  | store (r : R)
  | delete (k : K)

/-- The key a write is about. -/
def Write.key : Write R K → K
  | .store r => Txn.key r
  | .delete k => k

/-- The row a write leaves at its key. -/
def Write.row? : Write R K → Option R
  | .store r => some r
  | .delete _ => none

namespace Table

omit [DecidableEq K] in
@[ext] theorem ext {t u : Table R} (h : t.rows = u.rows) : t = u := by
  cases t; cases u; cases h; rfl

/-- The database with no rows. -/
def empty : Table R := ⟨[], List.nodup_nil⟩

omit [DecidableEq K] in
@[simp] theorem rows_empty : (empty : Table R).rows = [] := rfl

/-- The row at a key. -/
def lookup (t : Table R) (k : K) : Option R := t.rows.find? fun r => key r = k

omit [DecidableEq K] in
theorem eq_of_key_eq (t : Table R) {r s : R} (hr : r ∈ t.rows) (hs : s ∈ t.rows)
    (h : key r = key s) : r = s :=
  List.inj_on_of_nodup_map t.nodup hr hs h

theorem lookup_eq_some {t : Table R} {k : K} {r : R} :
    t.lookup k = some r ↔ r ∈ t.rows ∧ key r = k := by
  constructor
  · intro h
    exact ⟨List.mem_of_find?_eq_some h, by simpa using List.find?_some h⟩
  · rintro ⟨hr, rfl⟩
    obtain ⟨s, hs⟩ : ∃ s, t.rows.find? (fun x => key x = key r) = some s :=
      Option.isSome_iff_exists.mp (List.find?_isSome.mpr ⟨r, hr, by simp⟩)
    have hk : key s = key r := by simpa using List.find?_some hs
    rw [lookup, hs, t.eq_of_key_eq (List.mem_of_find?_eq_some hs) hr hk]

theorem lookup_eq_none {t : Table R} {k : K} :
    t.lookup k = none ↔ ∀ r ∈ t.rows, key r ≠ k := by
  simp [lookup, List.find?_eq_none]

/-! ## Writing -/

/-- The rows after an insert or update: the row replaces the row with its key or goes to the end. -/
def storeRow (rows : List R) (r : R) : List R :=
  if rows.any fun x => key x = key r then rows.map fun x => if key x = key r then r else x
  else rows ++ [r]

theorem nodup_storeRow {rows : List R} (h : (rows.map key).Nodup) (r : R) :
    ((storeRow rows r).map key).Nodup := by
  unfold storeRow
  split
  · have : (rows.map fun x => if key x = key r then r else x).map key = rows.map key := by
      rw [List.map_map]
      refine List.map_congr_left fun x _ => ?_
      by_cases hx : key x = key r <;> simp [hx]
    rwa [this]
  · next hr =>
    simp only [List.any_eq_true, decide_eq_true_eq, not_exists, not_and] at hr
    rw [List.map_append, List.nodup_append]
    refine ⟨h, by simp, fun a ha b hb hab => ?_⟩
    obtain ⟨x, hx, rfl⟩ := List.mem_map.mp ha
    rw [List.map_singleton, List.mem_singleton] at hb
    exact hr x hx (hab.trans hb)

theorem mem_storeRow {rows : List R} {r s : R} :
    s ∈ storeRow rows r ↔ s = r ∨ (s ∈ rows ∧ key s ≠ key r) := by
  unfold storeRow
  split
  · next h =>
    simp only [List.any_eq_true, decide_eq_true_eq] at h
    obtain ⟨x, hx, hxr⟩ := h
    rw [List.mem_map]
    constructor
    · rintro ⟨y, hy, rfl⟩
      by_cases hyr : key y = key r
      · simp [hyr]
      · simp [hyr, hy]
    · rintro (rfl | ⟨hs, hsr⟩)
      · exact ⟨x, hx, by simp [hxr]⟩
      · exact ⟨s, hs, by simp [hsr]⟩
  · next h =>
    simp only [List.any_eq_true, decide_eq_true_eq, not_exists, not_and] at h
    rw [List.mem_append, List.mem_singleton]
    constructor
    · rintro (hs | rfl)
      · exact .inr ⟨hs, h s hs⟩
      · exact .inl rfl
    · rintro (rfl | ⟨hs, -⟩)
      · exact .inr rfl
      · exact .inl hs

/-- The table after one write. -/
def write (t : Table R) : Write R K → Table R
  | .store r => ⟨storeRow t.rows r, nodup_storeRow t.nodup r⟩
  | .delete k => ⟨t.rows.filter fun x => key x ≠ k, t.nodup.sublist (List.filter_sublist.map key)⟩

/-- **The rows after a store**: the stored row and every row at another key. -/
theorem mem_write_store {t : Table R} {r s : R} :
    s ∈ (t.write (.store r)).rows ↔ s = r ∨ (s ∈ t.rows ∧ key s ≠ key r) := mem_storeRow

/-- **The rows after a delete**: every row at another key. -/
theorem mem_write_delete {t : Table R} {k : K} {s : R} :
    s ∈ (t.write (.delete k)).rows ↔ s ∈ t.rows ∧ key s ≠ k := by simp [write]

theorem mem_write {t : Table R} {w : Write R K} {s : R} :
    s ∈ (t.write w).rows ↔ w.row? = some s ∨ (s ∈ t.rows ∧ key s ≠ w.key) := by
  cases w with
  | store r => rw [mem_write_store]; simp [Write.row?, Write.key, eq_comm]
  | delete k => rw [mem_write_delete]; simp [Write.row?, Write.key]

/-! ## Redo logs -/

/-- The table after the writes of a redo log, oldest first. -/
def apply (t : Table R) (log : List (Write R K)) : Table R := log.foldl write t

@[simp] theorem apply_nil (t : Table R) : t.apply [] = t := rfl

@[simp] theorem apply_cons (t : Table R) (w : Write R K) (log : List (Write R K)) :
    t.apply (w :: log) = (t.write w).apply log := rfl

theorem apply_append (t : Table R) (l₁ l₂ : List (Write R K)) :
    t.apply (l₁ ++ l₂) = (t.apply l₁).apply l₂ := List.foldl_append

/-- A log that does not write a key leaves the row at that key as it is. -/
theorem mem_apply_of_key_notMem {r : R} : ∀ (log : List (Write R K)) {t : Table R},
    (∀ w ∈ log, w.key ≠ key r) → (r ∈ (t.apply log).rows ↔ r ∈ t.rows)
  | [], _, _ => Iff.rfl
  | w :: log, t, h => by
    rw [apply_cons, mem_apply_of_key_notMem log fun v hv => h v (List.mem_cons_of_mem _ hv),
      mem_write]
    have hw := h w List.mem_cons_self
    constructor
    · rintro (hr | ⟨hr, -⟩)
      · cases w with
        | store s => exact absurd (by cases hr; rfl) hw
        | delete k => cases hr
      · exact hr
    · exact fun hr => .inr ⟨hr, hw.symm⟩

/-- A row after a log was written by the log, or was there before and its key was not written. -/
theorem mem_apply {r : R} : ∀ (log : List (Write R K)) {t : Table R},
    r ∈ (t.apply log).rows → .store r ∈ log ∨ (r ∈ t.rows ∧ ∀ w ∈ log, w.key ≠ key r)
  | [], _, h => .inr ⟨h, by simp⟩
  | w :: log, t, h => by
    rcases mem_apply log h with hs | ⟨hr, hk⟩
    · exact .inl (List.mem_cons_of_mem _ hs)
    · rcases mem_write.mp hr with hw | ⟨ht, hw⟩
      · cases w with
        | store s => cases hw; exact .inl List.mem_cons_self
        | delete k => cases hw
      · refine .inr ⟨ht, fun v hv => ?_⟩
        rcases List.mem_cons.mp hv with rfl | hv
        · exact hw.symm
        · exact hk v hv

/-- A key whose writes are all stores keeps a row. -/
theorem exists_mem_apply (k : K) : ∀ (log : List (Write R K)) {t : Table R},
    (∀ w ∈ log, w.key = k → ∃ r, w = .store r) → (∃ r ∈ t.rows, key r = k) →
      ∃ r ∈ (t.apply log).rows, key r = k
  | [], _, _, h => h
  | w :: log, t, hw, ⟨r, hr, hk⟩ => by
    refine exists_mem_apply k log (fun v hv => hw v (List.mem_cons_of_mem _ hv)) ?_
    by_cases hwk : w.key = k
    · obtain ⟨s, rfl⟩ := hw w List.mem_cons_self hwk
      exact ⟨s, mem_write_store.mpr (.inl rfl), hwk⟩
    · exact ⟨r, mem_write.mpr (.inr ⟨hr, fun h => hwk (h.symm.trans hk)⟩), hk⟩

/-! ## Agreement on keys -/

/-- The tables `t` and `u` have the same rows at the keys `ks`. -/
def SameAt (ks : List K) (t u : Table R) : Prop := ∀ r : R, key r ∈ ks → (r ∈ u.rows ↔ r ∈ t.rows)

omit [DecidableEq K] in
theorem SameAt.refl (ks : List K) (t : Table R) : SameAt ks t t := fun _ _ => Iff.rfl

omit [DecidableEq K] in
theorem SameAt.trans {ks : List K} {t u v : Table R} (h₁ : SameAt ks t u) (h₂ : SameAt ks u v) :
    SameAt ks t v := fun r hr => (h₂ r hr).trans (h₁ r hr)

omit [DecidableEq K] in
theorem SameAt.mono {ks ks' : List K} {t u : Table R} (hk : ∀ k ∈ ks', k ∈ ks)
    (h : SameAt ks t u) : SameAt ks' t u := fun r hr => h r (hk _ hr)

theorem SameAt.apply {ks : List K} {t : Table R} {log : List (Write R K)}
    (h : ∀ w ∈ log, w.key ∉ ks) : SameAt ks t (t.apply log) := fun _ hr =>
  mem_apply_of_key_notMem log fun w hw hk => h w hw (hk ▸ hr)

theorem SameAt.write {ks : List K} {t u : Table R} (h : SameAt ks t u) (w : Write R K) :
    SameAt ks (t.write w) (u.write w) := fun r hr => by
  rw [mem_write, mem_write, h r hr]

/-- Replaying one log over tables that agree on some keys keeps them in agreement. -/
theorem SameAt.replay {ks : List K} : ∀ (log : List (Write R K)) {t u : Table R},
    SameAt ks t u → SameAt ks (t.apply log) (u.apply log)
  | [], _, _, h => h
  | w :: log, _, _, h => SameAt.replay log (h.write w)

omit [DecidableEq K] in
/-- A condition that only rows with the key of `r` satisfy, selects `r` alone. -/
theorem filter_eq_singleton {t : Table R} {p : R → Bool} {r : R} (hr : r ∈ t.rows)
    (hp : p r = true) (honly : ∀ s ∈ t.rows, p s = true → key s = key r) :
    t.rows.filter p = [r] := by
  have hmem : ∀ s, s ∈ t.rows.filter p ↔ s = r := fun s => by
    rw [List.mem_filter]
    exact ⟨fun ⟨hs, hps⟩ => t.eq_of_key_eq hs hr (honly s hs hps), fun h => h ▸ ⟨hr, hp⟩⟩
  have hnd : (t.rows.filter p).Nodup := (List.Nodup.of_map key t.nodup).filter p
  cases hl : t.rows.filter p with
  | nil => simp [hl] at hmem
  | cons x xs =>
    rw [hl] at hmem hnd
    cases xs with
    | nil => rw [(hmem x).mp List.mem_cons_self]
    | cons y ys =>
      have hx := (hmem x).mp List.mem_cons_self
      have hy := (hmem y).mp (List.mem_cons_of_mem _ List.mem_cons_self)
      rw [hx, hy] at hnd
      simp at hnd

end Table

end Txn
