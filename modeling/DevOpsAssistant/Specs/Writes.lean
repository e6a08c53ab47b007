import DevOpsAssistant.Repositories.Accounts

/-!
# What a program writes

`Rules` say which rows may be inserted and deleted, which row may replace which, and whether a
transaction may be ended; `Writes W` are the statements that follow them. Each function of the
services has one lemma that says what it writes, for any rules that allow it.

* `Rules`, `Writes`: the rules, and the statements that follow them.
* `only_selectOf`, `only_updateOf`, …: the primitives.
* `only_updateById`, `only_insertOf`, …: the helpers of the repositories.
-/

namespace DevOps

open Txn

/-- What a program may write. -/
structure Rules where
  insert : Row → Prop
  update : Row → Row → Prop
  delete : Row → Prop
  tx : Prop

/-- The statement follows the rules `W`, and sends no message to the workers. -/
def Writes (W : Rules) : Stmt Row Query → Prop
  | .insert r => W.insert r
  | .modify p f => ∀ r, p r → match f r with
    | .keep => True
    | .store r' _ => W.update r r'
    | .remove => W.delete r
  | .commit | .rollback => W.tx
  | .select _ => True
  | .ask q => q.silent

section Primitives

variable {W : Rules} {T α β : Type}

theorem only_pure (a : α) : (pure a : Db α).Only (Writes W) fun _ => True := trivial

theorem only_throw (e : Exc) : (throw e : Db α).Only (Writes W) fun _ => True := trivial

theorem only_bind {p : Db α} {g : α → Db β} {P : α → Prop} {P' : β → Prop}
    (hp : p.Only (Writes W) P) (hg : ∀ a, (g a).Only (Writes W) P') :
    (p >>= g).Only (Writes W) P' := hp.bind fun a _ => hg a

theorem only_now : now.Only (Writes W) fun _ => True := ⟨trivial, fun _ => trivial⟩

theorem only_uuid4 : uuid4.Only (Writes W) fun _ => True := fun _ => trivial

theorem only_orRaise (r : Except Exc α) : (orRaise r).Only (Writes W) fun _ => True := by
  cases r <;> trivial

theorem only_query (q : Query) (hq : q.silent) :
    (Prog.query q : Db (Answer q)).Only (Writes W) fun _ => True :=
  ⟨hq, fun _ => trivial⟩

theorem only_sendMail (recipient : String) (content : MailContent) :
    (sendMail recipient content).Only (Writes W) fun _ => True :=
  only_bind (only_query _ trivial) fun r => only_orRaise r

theorem only_scalarOneOrNone (ts : List T) :
    (scalarOneOrNone ts).Only (Writes W) fun found => ∀ t ∈ found, t ∈ ts := by
  unfold scalarOneOrNone
  split
  · exact fun _ ht => nomatch ht
  · exact fun _ ht => by simpa [eq_comm] using ht
  · trivial

theorem only_tryCatch {p : Db α} {h : Exc → Db α} (hp : p.Only (Writes W) fun _ => True)
    (hh : ∀ e, (h e).Only (Writes W) fun _ => True) :
    (p.tryCatch h).Only (Writes W) fun _ => True := hp.tryCatch hh

variable [Entity T]

theorem table_of_ofRow_any {p : T → Bool} {r : Row} (h : (ofRow r : Option T).any p = true) :
    r.table = Entity.table T ∧ ∃ t, r = toRow t ∧ p t = true := by
  obtain ⟨t, ht, hp⟩ := (Option.any_eq_true _ _).mp h
  have hr := (Entity.ofRow_eq_some r t).mp ht
  exact ⟨hr ▸ Entity.table_toRow t, t, hr, hp⟩

/-- The rows of a table a statement returns satisfy its condition. -/
theorem satisfies_of_mem_filterMap {p : T → Bool} {rs : List Row}
    (h : ∀ r ∈ rs, ((ofRow r : Option T).any p) = true) {t : T}
    (ht : t ∈ rs.filterMap (ofRow : Row → Option T)) : p t = true := by
  obtain ⟨r, hr, hrt⟩ := List.mem_filterMap.mp ht
  simpa [hrt] using h r hr

theorem only_selectOf (p : T → Bool) :
    (selectOf p).Only (Writes W) fun ts => ∀ t ∈ ts, p t = true :=
  ⟨trivial, fun _ hrs _ ht => satisfies_of_mem_filterMap hrs ht⟩

theorem only_lockOf (p : T → Bool) :
    (lockOf p).Only (Writes W) fun ts => ∀ t ∈ ts, p t = true :=
  ⟨fun _ _ => trivial, fun _ hrs _ ht => satisfies_of_mem_filterMap hrs ht⟩

/-- A query for one row returns a row that satisfies its condition. -/
theorem only_selectOne (p : T → Bool) :
    (selectOf p >>= scalarOneOrNone).Only (Writes W) fun found => ∀ t ∈ found, p t = true :=
  (only_selectOf p).bind fun ts hts =>
    (only_scalarOneOrNone ts).mono (fun _ h => h) fun _ h t ht => hts t (h t ht)

theorem only_lockOne (p : T → Bool) :
    (lockOf p >>= scalarOneOrNone).Only (Writes W) fun found => ∀ t ∈ found, p t = true :=
  (only_lockOf p).bind fun ts hts =>
    (only_scalarOneOrNone ts).mono (fun _ h => h) fun _ h t ht => hts t (h t ht)

theorem updateEffect_toRow {f : T → T} (hf : ∀ t, Entity.id (f t) = Entity.id t) (t : T) :
    ∃ h, updateEffect f hf (toRow t) = .store (toRow (f t)) h := by
  unfold updateEffect
  split
  · next s hs =>
    rw [Entity.ofRow_toRow] at hs
    cases hs
    exact ⟨Entity.key_toRow_eq (hf t), rfl⟩
  · next hs => rw [Entity.ofRow_toRow] at hs; cases hs

theorem only_updateOf {p : T → Bool} {f : T → T} (hf : ∀ t, Entity.id (f t) = Entity.id t)
    (h : ∀ t, p t = true → W.update (toRow t) (toRow (f t))) :
    (updateOf p f hf).Only (Writes W) fun ts => ∀ t ∈ ts, p t = true := by
  refine ⟨fun r hr => ?_, fun _ hrs _ ht => satisfies_of_mem_filterMap hrs ht⟩
  obtain ⟨-, t, rfl, hp⟩ := table_of_ofRow_any hr
  obtain ⟨hk, he⟩ := updateEffect_toRow hf t
  rw [he]
  exact h t hp

theorem only_deleteOf (p : T → Bool) (h : ∀ t, p t = true → W.delete (toRow t)) :
    (deleteOf p).Only (Writes W) fun _ => True := by
  refine ⟨fun r hr => ?_, fun _ _ => trivial⟩
  obtain ⟨-, t, rfl, hp⟩ := table_of_ofRow_any hr
  exact h t hp

theorem only_insertOf (clash : T → Bool) (t : T) (h : W.insert (toRow t)) :
    (insertOf clash t).Only (Writes W) fun _ => True := by
  refine ⟨h, fun b => ?_⟩
  cases b <;> trivial

theorem only_updateById (id : UUID) {f : T → T} (hf : ∀ t, Entity.id (f t) = Entity.id t)
    (h : ∀ t, Entity.id t = id → W.update (toRow t) (toRow (f t))) :
    (updateById id f hf).Only (Writes W) fun _ => True := by
  refine only_bind (only_updateOf hf fun t ht => h t (of_decide_eq_true ht)) fun rs => ?_
  split <;> trivial

theorem only_updateUnique (clash : T → Bool) (id : UUID) {f : T → T}
    (hf : ∀ t, Entity.id (f t) = Entity.id t)
    (h : ∀ t, Entity.id t = id → W.update (toRow t) (toRow (f t))) :
    (updateUnique clash id f hf).Only (Writes W) fun _ => True := by
  refine only_bind (only_selectOf _) fun rs => ?_
  split
  · exact only_updateById id hf h
  · trivial

omit [Entity T] in
theorem only_forEach {f : T → Db Unit} (hf : ∀ t, (f t).Only (Writes W) fun _ => True) :
    ∀ ts : List T, (forEach f ts).Only (Writes W) fun _ => True
  | [] => trivial
  | t :: ts => only_bind (hf t) fun _ => only_forEach hf ts

end Primitives

end DevOps
