import DevOpsAssistant.Specs.Histories

/-!
# Rows that are looked up by a key

A transaction looks for the row of a key. It changes the row it finds, but not its key, or adds a row
with the key if it finds none.

* `KeysUnique`: no two rows of a table have one key; `KeysUnique.lookup`.
* `Upserts`: what such a transaction writes; `ensures_changed`, `ensures_created`.
* **`KeysUnique.upsert`**: keys stay unique if the lookup has not been overtaken.
-/

namespace DevOps

open Txn Discipline

section Keys

variable {T κ : Type} [Entity T] {key : T → κ} {p : T → Bool} {k : κ} {db : Database} {h : Told}
  {l : OpenTx} {c : Database}

/-- No two rows have one key. -/
def KeysUnique (key : T → κ) (db : Database) : Prop :=
  ∀ t ∈ rowsOf T db, ∀ u ∈ rowsOf T db, key t = key u → t = u

theorem KeysUnique.congr {db' : Database} (hu : KeysUnique key db)
    (hmem : ∀ t : T, t ∈ rowsOf T db' ↔ t ∈ rowsOf T db) : KeysUnique key db' :=
  fun t ht u hu' => hu t ((hmem t).mp ht) u ((hmem u).mp hu')

/-- A lookup of a key meets at most one row. -/
theorem KeysUnique.lookup (hu : KeysUnique key db) (hp : ∀ t, p t = true → key t = k) :
    ((rowsOf T db).filter p).length ≤ 1 := by
  by_contra hlt
  obtain ⟨t, u, ht, hpt, hu', hpu, hne⟩ := exists_two_of_lt (Nat.lt_of_not_le hlt)
  exact hne (congrArg Entity.id (hu t ht u hu' ((hp t hpt).trans (hp u hpu).symm)))

/-- A transaction that looks for a row by `p` writes nothing, a row with the key that it had, or a row
that the lookup has missed. -/
inductive Upserts (p : T → Bool) (key : T → κ) (h : Told) (l : OpenTx) (c : Database) : Prop
  | unwritten (hn : .commit ∉ h) (hl : l.log = [])
  | changed (hn : .commit ∉ h) (t u : T) (mem : t ∈ rowsOf T c) (id : Entity.id u = Entity.id t)
      (same : key u = key t) (hl : l.log = [.store (toRow u)])
  | created (hn : .commit ∉ h) (u : T) (missed : Missed p h) (finds : p u = true)
      (hl : l.log = [.store (toRow u)])

theorem Upserts.uncommitted (hw : Upserts p key h l c) : .commit ∉ h := by
  cases hw <;> assumption

theorem view_of_store {u : T} (hl : l.log = [.store (toRow u)]) :
    l.view c = c.write (.store (toRow u)) := by
  rw [Local.view, hl]
  rfl

/-- **Keys stay unique** when the transaction commits, unless its lookup has been overtaken. -/
theorem KeysUnique.upsert (hu : KeysUnique key c) (hw : Upserts p key h l c)
    (hp : ∀ t, p t = true ↔ key t = k)
    (hmissed : Missed p h → ∀ t ∈ rowsOf T c, p t = false) : KeysUnique key (l.view c) := by
  -- the stored row is the only one with its key
  have hstore : ∀ u : T, (∀ x ∈ rowsOf T c, key x = key u → Entity.id x = Entity.id u) →
      KeysUnique key (c.write (.store (toRow u))) := by
    intro u hone x hx y hy hxy
    rcases mem_rowsOf_store.mp hx with hx | ⟨hx, hxu⟩ <;>
      rcases mem_rowsOf_store.mp hy with hy | ⟨hy, hyu⟩
    · rw [hx, hy]
    · exact absurd (hone y hy (hx ▸ hxy.symm)) hyu
    · exact absurd (hone x hx (hy ▸ hxy)) hxu
    · exact hu x hx y hy hxy
  cases hw with
  | unwritten _ hl =>
    rw [Local.view, hl]
    exact hu
  | changed _ t u mem id same hl =>
    rw [view_of_store hl]
    refine hstore u fun x hx hxu => ?_
    rw [hu x hx t mem (hxu.trans same), id]
  | created _ u missed finds hl =>
    rw [view_of_store hl]
    refine hstore u fun x hx hxu => ?_
    have := hmissed missed x hx
    rw [(hp x).mpr (hxu.trans ((hp u).mp finds))] at this
    cases this

/-- The other tables stay as they are. -/
theorem Upserts.other {T' : Type} [Entity T'] (hw : Upserts p key h l c)
    (hT : Entity.table T' ≠ Entity.table T) {t : T'} :
    t ∈ rowsOf T' (l.view c) ↔ t ∈ rowsOf T' c := by
  cases hw with
  | unwritten _ hl => rw [Local.view, hl]; rfl
  | changed _ _ u _ _ _ hl | created _ u _ _ hl =>
    rw [view_of_store hl]
    exact mem_rowsOf_store_other hT

/-! ## Programs -/

variable {D : Discipline Row} {owes : Told → OpenTx → Database → Prop}

/-- The flush of a change that leaves the key alone. -/
theorem ensures_changed {id : UUID} {f : T → T} {hf : ∀ t, Entity.id (f t) = Entity.id t}
    (hkey : ∀ t, key (f t) = key t) (hn : .commit ∉ h) (hl : l.log = []) :
    D.ensures owes (returns fun _ h l c => Upserts p key h l c) (updateById id f hf) h l c := by
  rw [← bind_pure (updateById id f hf)]
  refine ensures_updateById fun c' t x ht hid => ensures_pure fun c'' e => ?_
  rw [Local.view, hl, Table.apply_nil] at ht
  -- the row is locked
  have ht' : t ∈ rowsOf T c'' := by
    rw [mem_rowsOf] at ht ⊢
    refine (e.same (toRow t) ?_).mpr ht
    rw [Entity.key_toRow_eq (hf t).symm]
    exact List.mem_cons_self
  refine .changed hn t (f t) ht' (hf t) (hkey t) ?_
  change l.log ++ [.store (toRow (f t))] = _
  rw [hl, List.nil_append]

/-- The insert of a row that the lookup has missed. -/
theorem ensures_created {u : T} {clash : T → Bool} (hn : .commit ∉ h) (hm : Missed p h)
    (hu : p u = true) (hl : l.log = []) : D.ensures owes (returns fun _ h l c => Upserts p key h l c)
      (insertOf clash u >>= fun _ => pure u) h l c := by
  refine ensures_insertOf fun c' x _ _ => ensures_pure fun c'' e => ?_
  refine .created hn u hm hu ?_
  change l.log ++ [.store (toRow u)] = _
  rw [hl, List.nil_append]

end Keys

end DevOps
