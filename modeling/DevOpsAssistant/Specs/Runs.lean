import DevOpsAssistant.Specs.Accounts
import DevOpsAssistant.Txn.Outcome

/-!
# What a program does when it runs alone

One equation for each statement, to be read from left to right: a run of the statement and what
follows it is a run of what follows it, from the session the statement leaves.

* `World.tick`: one reading of the clock; `time_le_exec`.
* `ends_now`, `ends_uuid4`, `ends_selectOf`, …: the statements; **`ends_insert`**.
* `Unchanged`: what a program on other tables leaves; **`unchanged_of_only`**.
-/

namespace DevOps

open Txn

/-- The surroundings after one reading of the clock. -/
def World.tick (w : World) : World :=
  { w with time := w.time + w.ticks w.readings, readings := w.readings + 1 }

theorem World.time_le_tick (w : World) : w.time ≤ w.tick.time := Nat.le_add_right _ _

theorem time_le_respond (q : Query) (w : World) : w.time ≤ (respond q w).2.time := by
  cases q with
  | now => exact w.time_le_tick
  | _ => exact Nat.le_refl _

theorem time_le_exec {α : Type} (p : Db α) (s : Session Row World) :
    s.world.time ≤ (p.exec respond s).2.world.time :=
  Prog.exec_rel (fun v w => v.time ≤ w.time) (fun _ => Nat.le_refl _)
    (fun h₁ h₂ => Nat.le_trans h₁ h₂) time_le_respond p s

/-! ## Rows of one table -/

section Rows

variable {T : Type} [Entity T] {db : Database} {t : T}

/-- The key of a row of the table. -/
def keyOf (t : T) : Key := ⟨Entity.table T, Entity.id t⟩

theorem key_toRow (t : T) : key (toRow t) = keyOf t := by
  change (⟨(toRow t).table, _⟩ : Key) = _
  rw [Entity.table_toRow]
  rfl

theorem entity_ext {t' : T} (ht : t ∈ rowsOf T db) (ht' : t' ∈ rowsOf T db)
    (h : Entity.id t = Entity.id t') : t = t' :=
  Entity.toRow_injective (db.eq_of_key_eq (mem_rowsOf.mp ht) (mem_rowsOf.mp ht')
    (Entity.key_toRow_eq h))

theorem nodup_rowsOf : (rowsOf T db).Nodup := by
  refine List.Nodup.filterMap (fun r r' t hr hr' => ?_) (List.Nodup.of_map key db.nodup)
  rw [(Entity.ofRow_eq_some r t).mp hr, (Entity.ofRow_eq_some r' t).mp hr']

/-- Two of several rows that satisfy a condition. -/
theorem exists_two_of_lt {p : T → Bool} (h : 1 < ((rowsOf T db).filter p).length) :
    ∃ t t', t ∈ rowsOf T db ∧ p t = true ∧ t' ∈ rowsOf T db ∧ p t' = true ∧
      Entity.id t ≠ Entity.id t' := by
  have hnd : ((rowsOf T db).filter p).Nodup := nodup_rowsOf.filter p
  cases hl : (rowsOf T db).filter p with
  | nil => simp [hl] at h
  | cons t ts =>
    cases ts with
    | nil => simp [hl] at h
    | cons t' ts =>
      have ht : t ∈ (rowsOf T db).filter p := by rw [hl]; exact List.mem_cons_self
      have ht' : t' ∈ (rowsOf T db).filter p := by
        rw [hl]; exact List.mem_cons_of_mem _ List.mem_cons_self
      rw [List.mem_filter] at ht ht'
      refine ⟨t, t', ht.1, ht.2, ht'.1, ht'.2, fun hid => ?_⟩
      rw [hl, entity_ext ht.1 ht'.1 hid] at hnd
      simp at hnd

theorem rowsOf_filter (p : T → Bool) :
    (db.rows.filter fun r => (ofRow r).any p).filterMap ofRow = (rowsOf T db).filter p :=
  filterMap_filter_ofRow p db.rows

/-- A condition that only rows with the id of `t` satisfy, selects `t` alone. -/
theorem rowsOf_filter_eq_singleton {p : T → Bool} (ht : t ∈ rowsOf T db) (hp : p t = true)
    (honly : ∀ t' ∈ rowsOf T db, p t' = true → Entity.id t' = Entity.id t) :
    (rowsOf T db).filter p = [t] := by
  have hrow : db.rows.filter (fun r => (ofRow r : Option T).any p) = [toRow t] := by
    refine Table.filter_eq_singleton (mem_rowsOf.mp ht) (by simp [hp]) fun r hr hpr => ?_
    obtain ⟨-, t', rfl, hp'⟩ := table_of_ofRow_any hpr
    exact Entity.key_toRow_eq (honly t' (mem_rowsOf.mpr hr) hp')
  rw [← rowsOf_filter, hrow]
  simp

/-- The rows of a table after some of them have been deleted. -/
theorem rowsOf_deleted (p : T → Bool) :
    rowsOf T (db.apply (((rowsOf T db).filter p).map fun t => .delete (keyOf t))) =
      (rowsOf T db).filter fun t => !p t := by
  have hrows : ∀ (ks : List Key) (c : Database),
      (c.apply (ks.map Write.delete)).rows = c.rows.filter fun r => decide (key r ∉ ks) := by
    intro ks
    induction ks with
    | nil => simp
    | cons k ks ih =>
      intro c
      rw [List.map_cons, Table.apply_cons, ih, Table.write, List.filter_filter]
      refine List.filter_congr fun r _ => ?_
      rw [← Bool.decide_and]
      refine decide_eq_decide.mpr ?_
      rw [List.mem_cons, not_or, and_comm]
  have hmap : ((rowsOf T db).filter p).map (fun t => (.delete (keyOf t) : Write Row Key)) =
      (((rowsOf T db).filter p).map keyOf).map Write.delete := by
    rw [List.map_map]
    rfl
  -- the key of a row is that of a deleted row exactly if the row is deleted
  have hkey : ∀ t ∈ rowsOf T db, (key (toRow t) ∈ ((rowsOf T db).filter p).map keyOf ↔ p t = true) := by
    intro t ht
    rw [List.mem_map]
    constructor
    · rintro ⟨t', ht', hk⟩
      obtain ⟨hmem, hp⟩ := List.mem_filter.mp ht'
      rw [key_toRow] at hk
      rwa [← entity_ext hmem ht (Key.mk.inj hk).2]
    · exact fun hp => ⟨t, List.mem_filter.mpr ⟨ht, hp⟩, (key_toRow t).symm⟩
  rw [hmap, rowsOf, hrows]
  change _ = ((db.rows.filterMap ofRow).filter fun t => !p t)
  rw [← filterMap_filter_ofRow, List.filterMap_filter, List.filterMap_filter]
  refine List.filterMap_congr fun r hr => ?_
  cases ht : (ofRow r : Option T) with
  | none => simp
  | some t =>
    obtain rfl := (Entity.ofRow_eq_some r t).mp ht
    simp only [hkey t (mem_rowsOf.mpr hr)]
    cases hp : p t <;> simp [hp]

end Rows

/-! ## Statements -/

section Statements

variable {T α : Type} [Entity T] {s : Session Row World} {Φ : Except Exc α → Session Row World → Prop}

theorem ends_pure {a : α} : (pure a : Db α).Ends respond s Φ ↔ Φ (.ok a) s := Iff.rfl

theorem ends_onOk_pure {φ : α → Session Row World → Prop} {a : α} (h : φ a s) :
    (pure a : Db α).Ends respond s (Prog.onOk φ) := fun b hb => by
  cases hb
  exact h

theorem ends_throw {e : Exc} : (throw e : Db α).Ends respond s Φ ↔ Φ (.error e) s := Iff.rfl

theorem ends_now {g : Time → Db α} : (now >>= g).Ends respond s Φ ↔
    (g s.world.tick.time).Ends respond { s with world := s.world.tick } Φ := Iff.rfl

theorem ends_uuid4 {g : UUID → Db α} : (uuid4 >>= g).Ends respond s Φ ↔
    (g s.nextId).Ends respond { s with nextId := s.nextId + 1 } Φ := Iff.rfl

theorem ends_selectOf {p : T → Bool} {g : List T → Db α} :
    (selectOf p >>= g).Ends respond s Φ ↔ (g ((rowsOf T s.view).filter p)).Ends respond s Φ := by
  rw [← rowsOf_filter]
  exact Iff.rfl

theorem writesOf_keep (rs : List Row) :
    writesOf (fun r => (.keep : Effect r)) rs = [] := by
  simp [writesOf, Effect.log]

theorem ends_lockOf {p : T → Bool} {g : List T → Db α} :
    (lockOf p >>= g).Ends respond s Φ ↔ (g ((rowsOf T s.view).filter p)).Ends respond s Φ := by
  have hs : s.append (writesOf (fun r => (.keep : Effect r))
      (s.view.rows.filter fun r => (ofRow r : Option T).any p)) = s := by
    rw [writesOf_keep]
    simp [Session.append]
  rw [← rowsOf_filter]
  change Prog.Ends respond (g _) (s.append _) Φ ↔ _
  rw [hs]

theorem writesOf_update {f : T → T} (hf : ∀ t, Entity.id (f t) = Entity.id t) {p : T → Bool}
    {rs : List Row} (h : ∀ r ∈ rs, (ofRow r : Option T).any p = true) :
    writesOf (updateEffect f hf) rs = (rs.filterMap ofRow).map fun t => .store (toRow (f t)) := by
  induction rs with
  | nil => rfl
  | cons r rs ih =>
    obtain ⟨-, t, rfl, -⟩ := table_of_ofRow_any (h r List.mem_cons_self)
    obtain ⟨hk, he⟩ := updateEffect_toRow hf t
    have ih := ih fun r' hr' => h r' (List.mem_cons_of_mem _ hr')
    rw [writesOf] at ih ⊢
    rw [List.flatMap_cons, ih, he, List.filterMap_cons, Entity.ofRow_toRow]
    rfl

theorem ends_updateOf {p : T → Bool} {f : T → T} {hf : ∀ t, Entity.id (f t) = Entity.id t}
    {g : List T → Db α} : (updateOf p f hf >>= g).Ends respond s Φ ↔
      (g ((rowsOf T s.view).filter p)).Ends respond
        (s.append (((rowsOf T s.view).filter p).map fun t => .store (toRow (f t)))) Φ := by
  rw [← rowsOf_filter, ← writesOf_update hf fun r hr => (List.mem_filter.mp hr).2]
  exact Iff.rfl

/-- A `DELETE`. -/
theorem ends_deleteOf {p : T → Bool} {g : List T → Db α} :
    (deleteOf p >>= g).Ends respond s Φ ↔ (g ((rowsOf T s.view).filter p)).Ends respond
      (s.append (((rowsOf T s.view).filter p).map fun t => .delete (keyOf t))) Φ := by
  have hw : ∀ {rs : List Row}, (∀ r ∈ rs, (ofRow r : Option T).any p = true) →
      writesOf (fun r => (.remove : Effect r)) rs =
        (rs.filterMap (ofRow (T := T))).map fun t => .delete (keyOf t) := by
    intro rs h
    induction rs with
    | nil => rfl
    | cons r rs ih =>
      obtain ⟨-, t, rfl, -⟩ := table_of_ofRow_any (h r List.mem_cons_self)
      have ih := ih fun r' hr' => h r' (List.mem_cons_of_mem _ hr')
      rw [writesOf] at ih ⊢
      rw [List.flatMap_cons, ih, List.filterMap_cons, Entity.ofRow_toRow]
      exact congrArg (fun k => Write.delete k :: _) (key_toRow t)
  rw [← rowsOf_filter, ← hw fun r hr => (List.mem_filter.mp hr).2]
  exact Iff.rfl

theorem exec_insertOf {clash : T → Bool} {t : T}
    (h : s.view.clashes (fun r => (ofRow r).any clash) (toRow t) = false) :
    (insertOf clash t).exec respond s = (.ok (), s.append [.store (toRow t)]) := by
  change Prog.exec respond (.insert _ (toRow t) _) s = _
  rw [Prog.exec, if_neg (by simp [h])]
  rfl

theorem ends_insertOf {clash : T → Bool} {t : T} {g : Unit → Db α}
    (h : s.view.clashes (fun r => (ofRow r).any clash) (toRow t) = false) :
    (insertOf clash t >>= g).Ends respond s Φ ↔
      (g ()).Ends respond (s.append [.store (toRow t)]) Φ := by
  rw [Prog.bind_eq, Prog.ends_bind, Prog.Ends, exec_insertOf h]

/-- A row that can be inserted has a new id, and no row clashes with it. -/
theorem of_clashes_eq_false {db : Database} {clash : T → Bool} {t : T}
    (h : db.clashes (fun r => (ofRow r).any clash) (toRow t) = false) {x : T}
    (hx : x ∈ rowsOf T db) : Entity.id x ≠ Entity.id t ∧ clash x = false := by
  have h := List.any_eq_false.mp h (toRow x) (mem_rowsOf.mp hx)
  simp only [Entity.ofRow_toRow, Bool.or_eq_true, not_or, decide_eq_true_iff] at h
  exact ⟨fun hid => h.1 (Entity.key_toRow_eq hid), by simpa using h.2⟩

theorem mem_rowsOf_append_store {t x : T} : x ∈ rowsOf T (s.append [.store (toRow t)]).view ↔
    x = t ∨ (x ∈ rowsOf T s.view ∧ Entity.id x ≠ Entity.id t) := by
  rw [mem_rowsOf, Session.view_append, Table.apply_cons, Table.apply_nil, Table.mem_write_store,
    ← mem_rowsOf]
  constructor
  · rintro (hx | ⟨hx, hk⟩)
    · exact .inl (Entity.toRow_injective hx)
    · exact .inr ⟨hx, fun hid => hk (Entity.key_toRow_eq hid)⟩
  · rintro (rfl | ⟨hx, hid⟩)
    · exact .inl rfl
    · exact .inr ⟨hx, fun hk => hid (Key.mk.inj hk).2⟩

theorem mem_rowsOf_append {t x : T} (h : ∀ y ∈ rowsOf T s.view, Entity.id y ≠ Entity.id t) :
    x ∈ rowsOf T (s.append [.store (toRow t)]).view ↔ x = t ∨ x ∈ rowsOf T s.view := by
  rw [mem_rowsOf_append_store]
  exact or_congr_right ⟨And.left, fun hx => ⟨hx, h x hx⟩⟩

/-- **An insert** adds its row, or raises and does nothing. -/
theorem ends_insert (clash : T → Bool) (t : T) : (insertOf clash t).Ends respond s fun r s' =>
    (r = .ok () ∧ s' = s.append [.store (toRow t)] ∧
      ∀ x ∈ rowsOf T s.view, Entity.id x ≠ Entity.id t ∧ clash x = false) ∨
    (r = .error .integrityError ∧ s' = s) := by
  by_cases h : s.view.clashes (fun r => (ofRow r).any clash) (toRow t) = false
  · unfold Prog.Ends
    rw [exec_insertOf h]
    exact .inl ⟨rfl, rfl, fun x hx => of_clashes_eq_false h hx⟩
  · change Prog.Ends respond (.insert _ (toRow t) _) s _
    unfold Prog.Ends
    rw [Prog.exec, if_pos (by simpa using h)]
    exact .inr ⟨rfl, rfl⟩

theorem mem_view_append (s : Session Row World) (r : Row) :
    r ∈ (s.append [.store r]).view.rows := by
  rw [Session.view_append, Table.apply_cons, Table.apply_nil]
  exact Table.mem_write_store.mpr (.inl rfl)

/-- A row with a new key can be inserted into a table without unique constraints. -/
theorem clashes_eq_false {db : Database} {t : T} (h : ∀ r ∈ db.rows, key r ≠ key (toRow t)) :
    db.clashes (fun r => (ofRow r).any fun _ : T => false) (toRow t) = false := by
  refine List.any_eq_false.mpr fun r hr => ?_
  have hk := h r hr
  cases (ofRow r : Option T) <;> simp_all

/-- A query for the row `t`. -/
theorem ends_selectOne {p : T → Bool} {t : T} {g : Option T → Db α} (ht : t ∈ rowsOf T s.view)
    (hp : p t = true) (honly : ∀ t' ∈ rowsOf T s.view, p t' = true → Entity.id t' = Entity.id t) :
    ((selectOf p >>= scalarOneOrNone) >>= g).Ends respond s Φ ↔ (g (some t)).Ends respond s Φ := by
  rw [bind_assoc, ends_selectOf, rowsOf_filter_eq_singleton ht hp honly]
  exact Iff.rfl

/-- A locking query for the row `t`. -/
theorem ends_lockOne {p : T → Bool} {t : T} {g : Option T → Db α} (ht : t ∈ rowsOf T s.view)
    (hp : p t = true) (honly : ∀ t' ∈ rowsOf T s.view, p t' = true → Entity.id t' = Entity.id t) :
    ((lockOf p >>= scalarOneOrNone) >>= g).Ends respond s Φ ↔ (g (some t)).Ends respond s Φ := by
  rw [bind_assoc, ends_lockOf, rowsOf_filter_eq_singleton ht hp honly]
  exact Iff.rfl

/-- The flush of a change to the row `t`. -/
theorem ends_updateById {t : T} {f : T → T} {hf : ∀ t, Entity.id (f t) = Entity.id t}
    {g : T → Db α} (ht : t ∈ rowsOf T s.view) :
    (updateById (Entity.id t) f hf >>= g).Ends respond s Φ ↔
      (g (f t)).Ends respond (s.append [.store (toRow (f t))]) Φ := by
  rw [updateById, bind_assoc, ends_updateOf, rowsOf_filter_eq_singleton ht (by simp)
    fun t' _ h => of_decide_eq_true h]
  exact Iff.rfl

theorem ends_getById {user : User} {g : Option User → Db α} (hu : user ∈ rowsOf User s.view) :
    (UserRepository.getById user.id >>= g).Ends respond s Φ ↔
      (g (some user)).Ends respond s Φ :=
  ends_selectOne hu (by simp) fun _ _ h => of_decide_eq_true h

/-- **An update by primary key** changes the row, or finds none. -/
theorem ends_update (id : UUID) (f : T → T) (hf : ∀ t, Entity.id (f t) = Entity.id t) :
    (updateById id f hf).Ends respond s fun r s' =>
      (∃ t ∈ rowsOf T s.view, Entity.id t = id ∧ r = .ok (f t) ∧
        s' = s.append [.store (toRow (f t))]) ∨
      ((∀ t ∈ rowsOf T s.view, Entity.id t ≠ id) ∧ r = .error (.other "StaleDataError")) := by
  by_cases h : ∃ t ∈ rowsOf T s.view, Entity.id t = id
  · obtain ⟨t, ht, rfl⟩ := h
    rw [updateById]
    refine ends_updateOf.mpr ?_
    rw [rowsOf_filter_eq_singleton ht (by simp) fun t' _ h => of_decide_eq_true h]
    exact .inl ⟨t, ht, rfl, rfl, rfl⟩
  · have hnone : ∀ t ∈ rowsOf T s.view, Entity.id t ≠ id := fun t ht hid => h ⟨t, ht, hid⟩
    rw [updateById]
    refine ends_updateOf.mpr ?_
    rw [List.filter_eq_nil_iff.mpr fun t ht hid => hnone t ht (of_decide_eq_true hid)]
    exact .inr ⟨hnone, rfl⟩

/-- **An update of a unique column**: it also raises if another row has the new value. -/
theorem ends_updateUnique (clash : T → Bool) (id : UUID) (f : T → T)
    (hf : ∀ t, Entity.id (f t) = Entity.id t) :
    (updateUnique clash id f hf).Ends respond s fun r s' =>
      (∃ t ∈ rowsOf T s.view, Entity.id t = id ∧ r = .ok (f t) ∧
        s' = s.append [.store (toRow (f t))] ∧
        ∀ x ∈ rowsOf T s.view, Entity.id x ≠ id → clash x = false) ∨
      ((∀ t ∈ rowsOf T s.view, Entity.id t ≠ id) ∧ r = .error (.other "StaleDataError")) ∨
      ((∃ x ∈ rowsOf T s.view, Entity.id x ≠ id ∧ clash x = true) ∧ r = .error .integrityError ∧
        s' = s) := by
  rw [updateUnique]
  refine ends_selectOf.mpr ?_
  by_cases h : ∃ x ∈ rowsOf T s.view, Entity.id x ≠ id ∧ clash x = true
  · obtain ⟨x, hx, hid, hclash⟩ := h
    rw [if_neg]
    · exact .inr (.inr ⟨⟨x, hx, hid, hclash⟩, rfl, rfl⟩)
    · rw [List.isEmpty_iff, List.filter_eq_nil_iff]
      exact fun hall => hall x hx (by simp [hid, hclash])
  · have hnone : ∀ x ∈ rowsOf T s.view, Entity.id x ≠ id → clash x = false := fun x hx hid => by
      cases hc : clash x with
      | false => rfl
      | true => exact absurd ⟨x, hx, hid, hc⟩ h
    rw [if_pos]
    · refine (ends_update id f hf).mono fun r s' hr => ?_
      obtain ⟨t, ht, hid, hok, hs⟩ | hmissing := hr
      · exact .inl ⟨t, ht, hid, hok, hs, hnone⟩
      · exact .inr (.inl hmissing)
    · rw [List.isEmpty_iff, List.filter_eq_nil_iff]
      intro x hx hp
      rw [Bool.and_eq_true, decide_eq_true_iff] at hp
      rw [hnone x hx hp.1] at hp
      exact nomatch hp.2

/-- A query that finds no row. -/
theorem ends_selectNone {p : T → Bool} {g : Option T → Db α}
    (h : ∀ t ∈ rowsOf T s.view, ¬ p t = true) :
    ((selectOf p >>= scalarOneOrNone) >>= g).Ends respond s Φ ↔ (g none).Ends respond s Φ := by
  rw [bind_assoc, ends_selectOf, List.filter_eq_nil_iff.mpr h]
  exact Iff.rfl

variable {env : Env} {token : RawToken} {type : TokenType}

theorem ends_decodeToken {g : TokenPayload → Db α} :
    (decodeToken env token type >>= g).Ends respond s Φ ↔
      match tokenClaims env s.world.tick.time type token with
      | some payload => (g payload).Ends respond { s with world := s.world.tick } Φ
      | none => Φ (.error (UnauthorizedError.withCode "Invalid authentication credentials."
          .unauthorized)) { s with world := s.world.tick } := by
  rw [decodeToken, if_pos env.settings.validateJwtAlgorithm, bind_assoc]
  refine ends_now.trans ?_
  cases tokenClaims env s.world.tick.time type token <;> exact Iff.rfl

/-- The access token authenticates `user` at the time `t`. -/
def Authenticates (env : Env) (c : Database) (t : Time) (token : RawToken) (user : User) : Prop :=
  ∃ payload, tokenClaims env t .access token = some payload ∧ payload.sub = some user.id ∧
    user ∈ rowsOf User c ∧ user.isActive = true

theorem ends_getCurrentUser {user : User} {g : User → Db α}
    (h : Authenticates env s.view s.world.tick.time token user) :
    (getCurrentUser env token >>= g).Ends respond s Φ ↔
      (g user).Ends respond { s with world := s.world.tick } Φ := by
  obtain ⟨payload, hclaims, hsub, hm, hactive⟩ := h
  rw [getCurrentUser, decodeAccessToken, bind_assoc]
  refine ends_decodeToken.trans ?_
  rw [hclaims]
  simp only [hsub, bind_assoc]
  refine (ends_getById (s := { s with world := s.world.tick }) hm).trans ?_
  simp only [hactive, Bool.not_true, Bool.false_eq_true, if_false]
  exact Iff.rfl

/-- Any other access token is refused with the status 401. -/
theorem ends_getCurrentUser_refused {g : User → Db α}
    (h : ∀ user, ¬ Authenticates env s.view s.world.tick.time token user)
    (hΦ : ∀ e : Exc, e.statusCode = 401 → Φ (.error e) { s with world := s.world.tick }) :
    (getCurrentUser env token >>= g).Ends respond s Φ := by
  rw [getCurrentUser, decodeAccessToken, bind_assoc]
  refine ends_decodeToken.mpr ?_
  cases hclaims : tokenClaims env s.world.tick.time .access token with
  | none => exact hΦ _ rfl
  | some payload =>
    simp only
    cases hsub : payload.sub with
    | none => exact hΦ _ rfl
    | some userId =>
      simp only [bind_assoc]
      by_cases hfound : ∃ u ∈ rowsOf User s.view, u.id = userId
      · obtain ⟨u, hu, rfl⟩ := hfound
        refine (ends_getById (s := { s with world := s.world.tick }) hu).mpr ?_
        have hinactive : u.isActive = false := by
          by_contra hne
          exact h u ⟨payload, hclaims, hsub, hu, by simpa using hne⟩
        simp only [hinactive, Bool.not_false, if_true]
        exact hΦ _ rfl
      · refine (ends_selectNone (p := fun u : User => decide (u.id = userId))
          (s := { s with world := s.world.tick }) fun u hu hid => ?_).mpr (hΦ _ rfl)
        exact hfound ⟨u, hu, of_decide_eq_true hid⟩

end Statements

/-! ## Programs on other tables -/

/-- The rules that leave the tables in `S` alone. -/
def outside (S : TableName → Prop) (tx : Prop) : Rules where
  insert r := ¬ S r.table
  update r _ := ¬ S r.table
  delete r := ¬ S r.table
  tx := tx

section Outside

variable {α : Type} {S : TableName → Prop} {tx : Prop} {P : α → Prop} {p : Db α}

/-- The keys of the tables in `S`. -/
def keysOf (S : TableName → Prop) (k : Key) : Prop := S k.table

theorem outside_modify {p : Row → Bool} {f : (r : Row) → Effect r}
    (h : Writes (outside S tx) (.modify p f)) (r : Row) (hr : p r = true) :
    f r = .keep ∨ ¬ keysOf S (key r) := by
  have h := h r hr
  cases hf : f r with
  | keep => exact .inl rfl
  | store r' same => rw [hf] at h; exact .inr h
  | remove => rw [hf] at h; exact .inr h

/-- What a part of a transaction leaves that does not write the tables in `S`. -/
structure Unchanged (S : TableName → Prop) (s s' : Session Row World) : Prop where
  view : s.view.SameWhere (keysOf S) s'.view
  committed : s'.committed = s.committed
  nextId : s.nextId ≤ s'.nextId
  time : s.world.time ≤ s'.world.time

/-- **A program on other tables** leaves the tables in `S` unchanged. -/
theorem unchanged_of_only (hp : p.Only (Writes (outside S False)) P) (s : Session Row World) :
    Unchanged S s (p.exec respond s).2 := by
  obtain ⟨hview, hc⟩ := hp.view_sameWhere respond (keysOf S) (fun p f h => outside_modify h)
    (fun r h => h) id id s
  exact ⟨hview, hc, Prog.nextId_le_exec p s, time_le_exec p s⟩

theorem Unchanged.mem {T : Type} [Entity T] {s s' : Session Row World} (h : Unchanged S s s')
    (hT : S (Entity.table T)) {t : T} : t ∈ rowsOf T s'.view ↔ t ∈ rowsOf T s.view := by
  rw [mem_rowsOf, mem_rowsOf]
  refine h.view (toRow t) ?_
  change S (toRow t).table
  rwa [Entity.table_toRow]

/-- Every write but the end of the transaction. -/
def bodyRules : Rules := ⟨fun _ => True, fun _ _ => True, fun _ => True, False⟩

theorem allowsAccounts_body : AllowsAccounts bodyRules := by constructor <;> intros <;> trivial

/-- **A unit of work**: the committed rows are those its body has left if it returns, and stay as they
are if it raises. -/
theorem ends_getDb {β : Type} {q : Db β} {s : State} {Φ : Database → Prop}
    (hq : q.Only (Writes bodyRules) fun _ => True) (h : Φ s.committed)
    (hview : q.Ends respond s.session (Prog.onOk fun _ s' => Φ s'.view)) :
    (getDb q).Ends respond s.session fun _ s' => Φ s'.committed := by
  have hcommitted : (q.exec respond s.session).2.committed = s.committed := by
    refine Prog.Only.committed_eq respond (hq.mono (fun st hst => ?_) fun _ _ => trivial) _
    rintro rfl
    exact hst
  refine Prog.ends_unitOfWork.mpr ?_
  unfold Prog.Ends Prog.onOk at *
  rcases hx : q.exec respond s.session with ⟨e | a, s'⟩
  · rw [hx] at hcommitted
    simp only [Session.committed_rollback]
    rwa [hcommitted]
  · rw [hx] at hview
    exact hview a rfl

/-- The audit trail is written, or it is not; either way the program goes on. -/
theorem ends_recordEvent {β : Type} {s : Session Row World}
    {Φ : Except Exc β → Session Row World → Prop} {action : String}
    {actorUserId organizationId : Option UUID} {resourceType : String} {resourceId : Option UUID}
    {g : Unit → Db β} (h : ∀ s', Unchanged (· ≠ .auditEvents) s s' → (g ()).Ends respond s' Φ) :
    (AuditService.recordEvent action actorUserId organizationId resourceType resourceId >>= g).Ends
      respond s Φ := by
  have hframe : Unchanged (· ≠ .auditEvents) s ((AuditService.recordEvent action actorUserId
      organizationId resourceType resourceId).exec respond s).2 :=
    unchanged_of_only (only_recordEvent (fun _ _ h => h rfl) _ _ _ _) s
  have hok : (AuditService.recordEvent action actorUserId organizationId resourceType
      resourceId).Ends respond s fun r _ => r = .ok () := by
    refine ends_uuid4.mpr (ends_now.mpr (Prog.ends_tryCatch.mpr ?_))
    unfold Prog.Ends
    generalize Prog.exec respond (insertOf (fun _ : AuditEvent => false) _) _ = out
    cases out with
    | mk r s' => cases r <;> rfl
  refine Prog.ends_bind.mpr ?_
  rw [Prog.Ends, hok]
  exact h _ hframe

end Outside

end DevOps
