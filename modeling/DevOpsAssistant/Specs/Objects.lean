import DevOpsAssistant.Api.Tasks
import DevOpsAssistant.Specs.Organizations
import DevOpsAssistant.Specs.Histories

/-!
# What saving an object ensures

A function that can be followed by an exception handler is specified by all its outcomes.

* `ensures_then`, `ensures_attempt`: what follows a program with such a specification.
* `Saved`: what the flush and the refresh of an object leave; **`ensures_save`**.
-/

namespace DevOps

open Txn Discipline

section Outcomes

variable {D : Discipline Row} {owes : Told → OpenTx → Database → Prop} {α β : Type}
  {mid : Except Exc β → Told → OpenTx → Database → Prop}
  {Φ : α → Told → OpenTx → Database → Prop} {h : Told} {l : OpenTx} {c : Database}

/-- What follows a program that has been specified. -/
theorem ensures_then {p : Db β} {g : β → Db α} (hp : D.ensures owes mid p h l c)
    (hg : ∀ b h' l' c', mid (.ok b) h' l' c' → D.ensures owes (returns Φ) (g b) h' l' c') :
    D.ensures owes (returns Φ) (p >>= g) h l c :=
  ensures_bind mid (fun b h' l' _ hb => ensures_of_rely fun c' e => hg b h' l' c' (hb c' e))
    (fun _ _ _ _ _ _ ha => nomatch ha) hp

/-- The outcome of the body of an attempt. -/
def attempted (mid : Except Exc β → Told → OpenTx → Database → Prop) :
    Except Exc (Except Exc β) → Told → OpenTx → Database → Prop
  | .ok r, h, l, c => mid r h l c
  | .error e, h, l, c => mid (.error e) h l c

/-- What follows an attempt, whatever its outcome. -/
theorem ensures_attempt {p : Db β} {g : Except Exc β → Db α} (hp : D.ensures owes mid p h l c)
    (hg : ∀ r h' l' c', mid r h' l' c' → D.ensures owes (returns Φ) (g r) h' l' c') :
    D.ensures owes (returns Φ) (attempt p >>= g) h l c := by
  have hbody : D.ensures owes (attempted mid) (p >>= fun b => pure (.ok b)) h l c := by
    refine ensures_bind mid (fun b h' l' c' hb => ?_) (fun e h' l' c' he => ?_) hp
    · exact fun d hd => hb d hd
    · exact he
  have hp' : D.ensures owes (attempted mid) (attempt p) h l c := by
    refine ensures_tryCatch (attempted mid) (fun r h' l' c' hr => ?_) (fun e h' l' c' he => ?_) hbody
    · exact hr
    · exact fun d hd => he d hd
  exact ensures_then hp' hg

theorem ensures_mono_returns {Ψ : α → Told → OpenTx → Database → Prop} {p : Db α}
    (hp : D.ensures owes (returns Ψ) p h l c) (hΨ : ∀ a h l c, Ψ a h l c → Φ a h l c) :
    D.ensures owes (returns Φ) p h l c :=
  ensures_mono (fun _ _ _ _ hr a ha => hΨ a _ _ _ (hr a ha)) hp

end Outcomes

section Saves

variable {T : Type} [Entity T] {D : Discipline Row} {owes : Told → OpenTx → Database → Prop}
  {h h' : Told} {l l' : OpenTx} {c c' c'' : Database} {id : UUID} {f : T → T}

/-- The rows of one id. -/
def idIs (T : Type) [Entity T] (id : UUID) (t : T) : Bool := Entity.id t = id

/-- What the flush of an object with the id `id` and its refresh leave: nothing was written, or the row
was replaced by `f` of it; the session has read the row afterwards. -/
inductive Saved (D : Discipline Row) (h : Told) (l : OpenTx) (c : Database) (id : UUID) (f : T → T) :
    T → Told → OpenTx → Database → Prop where
  | kept {h' : Told} {c' : Database} {t : T} (since : Since D h l c h' l c')
      (current : ∃ d, Reads (idIs T id) d h' ∧ t ∈ rowsOf T (l.view d)) (hid : Entity.id t = id) :
      Saved D h l c id f t h' l c'
  | written {h' : Told} {c' : Database} {row : T}
      (since : Since D h l c h' (l.insert (toRow (f row))) c')
      (current : ∃ d, Reads (idIs T id) d h' ∧ row ∈ rowsOf T (l.view d))
      (mem : row ∈ rowsOf T (l.view c')) (hid : Entity.id row = id) :
      Saved D h l c id f (f row) h' (l.insert (toRow (f row))) c'

/-- The outcomes of a save: it returns, the session refuses to go on, or it has done nothing. -/
def saves (D : Discipline Row) (h : Told) (l : OpenTx) (c : Database) (id : UUID) (f : T → T) :
    Except Exc T → Told → OpenTx → Database → Prop
  | .ok t, h', l', c' => Saved D h l c id f t h' l' c'
  | .error e, h', l', c' => e.poisons = true ∨ (l' = l ∧ Since D h l c h' l' c')

theorem view_insert (l : OpenTx) (r : Row) (c : Database) :
    (l.insert r).view c = (l.view c).write (.store r) :=
  Table.apply_append c l.log [.store r]

/-- A row under a lock of the session. -/
theorem mem_view_of_inserted {t row : T} (e : D.Env h (l.insert (toRow t)) c c')
    (hid : Entity.id row = Entity.id t) :
    row ∈ rowsOf T (l.view c') ↔ row ∈ rowsOf T (l.view c) := by
  rw [mem_rowsOf, mem_rowsOf]
  refine e.same.replay l.log _ ?_
  rw [Entity.key_toRow_eq hid]
  exact List.mem_cons_self

theorem Saved.rely {t : T} (hf : ∀ t, Entity.id (f t) = Entity.id t)
    (s : Saved D h l c id f t h' l' c') (e : D.Env h' l' c' c'') :
    Saved D h l c id f t h' l' c'' := by
  cases s with
  | kept since current hid => exact .kept (since.rely e) current hid
  | written since current mem hid =>
    exact .written (since.rely e) current ((mem_view_of_inserted e (hf _).symm).mpr mem) hid

theorem saves_rely {r : Except Exc T} (hf : ∀ t, Entity.id (f t) = Entity.id t)
    (s : saves D h l c id f r h' l' c') (e : D.Env h' l' c' c'') :
    saves D h l c id f r h' l' c'' := by
  cases r with
  | ok t => exact Saved.rely hf s e
  | error x => exact s.imp_right fun ⟨hl, hs⟩ => ⟨hl, hs.rely e⟩

theorem saves.since {h₀ : Told} {c₀ : Database} {r : Except Exc T} (s : saves D h l c id f r h' l' c')
    (x : Since D h₀ l c₀ h l c) : saves D h₀ l c₀ id f r h' l' c' := by
  cases r with
  | ok t =>
    cases s with
    | kept since current hid => exact .kept (x.trans since) current hid
    | written since current mem hid => exact .written (x.trans since) current mem hid
  | error e => exact s.imp_right fun ⟨hl, y⟩ => ⟨hl, x.trans y⟩

/-- A refresh that has written nothing before. -/
theorem ensures_refresh : D.ensures owes (saves D h l c id f) (refresh id : Db T) h l c := by
  intro c₁ e₁
  have x : Since D h l c (.read (fun r => (ofRow r).any (idIs T id)) c₁ :: h) l c₁ :=
    (Since.of_env e₁).tell trivial
  have hrows : ((l.view c₁).rows.filter fun r => (ofRow r).any (idIs T id)).filterMap ofRow
      = (rowsOf T (l.view c₁)).filter (idIs T id) := rowsOf_filter _
  change D.ensures owes _ ((scalarOneOrNone (((l.view c₁).rows.filter
    fun r => (ofRow r).any (idIs T id)).filterMap ofRow) : Db (Option T)) >>= _) _ l c₁
  rw [hrows]
  have hmem : ∀ t ∈ (rowsOf T (l.view c₁)).filter (idIs T id),
      t ∈ rowsOf T (l.view c₁) ∧ Entity.id t = id := fun t ht =>
    ⟨(List.mem_filter.mp ht).1, of_decide_eq_true (List.mem_filter.mp ht).2⟩
  generalize (rowsOf T (l.view c₁)).filter (idIs T id) = rows at hmem
  cases rows with
  | nil => exact fun c₂ e₂ => .inr ⟨rfl, x.rely e₂⟩
  | cons t ts =>
    cases ts with
    | nil =>
      obtain ⟨ht, hid⟩ := hmem t List.mem_cons_self
      exact fun c₂ e₂ => .kept (x.rely e₂) ⟨c₁, List.mem_cons_self, ht⟩ hid
    | cons u us => exact fun c₂ e₂ => .inr ⟨rfl, x.rely e₂⟩

/-- A refresh of the row that has just been written. -/
theorem ensures_refresh_written {h₀ : Told} {c₀ : Database} {row : T}
    (hf : ∀ t, Entity.id (f t) = Entity.id t)
    (x : Since D h₀ l c₀ h (l.insert (toRow (f row))) c) (hm : row ∈ rowsOf T (l.view c))
    (hid : Entity.id row = id) :
    D.ensures owes (saves D h₀ l c₀ id f) (refresh id : Db T) h (l.insert (toRow (f row))) c := by
  intro c₁ e₁
  have x₁ : Since D h₀ l c₀ (.read (fun r => (ofRow r).any (idIs T id)) c₁ :: h)
      (l.insert (toRow (f row))) c₁ := (x.rely e₁).tell trivial
  have hm₁ : row ∈ rowsOf T (l.view c₁) := (mem_view_of_inserted e₁ (hf _).symm).mpr hm
  have hview : f row ∈ rowsOf T ((l.insert (toRow (f row))).view c₁) := by
    rw [mem_rowsOf, view_insert]
    exact Table.mem_write_store.mpr (.inl rfl)
  have hrows : (((l.insert (toRow (f row))).view c₁).rows.filter
      fun r => (ofRow r).any (idIs T id)).filterMap ofRow = [f row] := by
    refine (rowsOf_filter _).trans (rowsOf_filter_eq_singleton hview ?_ fun t _ ht => ?_)
    · exact decide_eq_true ((hf row).trans hid)
    · exact (of_decide_eq_true ht).trans ((hf row).trans hid).symm
  change D.ensures owes _ ((scalarOneOrNone ((((l.insert (toRow (f row))).view c₁).rows.filter
    fun r => (ofRow r).any (idIs T id)).filterMap ofRow) : Db (Option T)) >>= _) _ _ c₁
  rw [hrows]
  exact fun c₂ e₂ => Saved.rely hf (.written x₁ ⟨c₁, List.mem_cons_self, hm₁⟩ hm₁ hid) e₂

/-! ## Flushes -/

/-- The outcomes of a flush: the row has been replaced by `f` of it, or the session refuses to go on. -/
def flushes (D : Discipline Row) (h : Told) (l : OpenTx) (c : Database) (id : UUID) (f : T → T) :
    Except Exc T → Told → OpenTx → Database → Prop
  | .ok t, h', l', c' => ∃ row, t = f row ∧ l' = l.insert (toRow (f row)) ∧ Since D h l c h' l' c' ∧
      row ∈ rowsOf T (l.view c') ∧ Entity.id row = id
  | .error e, _, _, _ => e.poisons = true

theorem ensures_flush (hf : ∀ t, Entity.id (f t) = Entity.id t) :
    D.ensures owes (flushes D h l c id f) (updateById id f hf) h l c := by
  intro c' e
  refine scanEnsures_one (k := ⟨Entity.table T, id⟩)
    (keys_of_id (fun t ht => of_decide_eq_true ht) _) (fun c'' e' => ?_)
    fun c'' t e' ht hpt hk c₃ e₃ => ?_
  · exact fun _ _ => rfl
  · obtain ⟨hsame, he⟩ := updateEffect_toRow hf t
    have hl : l.lock (toRow t) (updateEffect f hf (toRow t)) = l.insert (toRow (f t)) := by
      rw [he]
      simp only [Local.lock, Local.insert, Effect.log, hsame]
    rw [hl] at e₃ ⊢
    have hid : Entity.id t = id := of_decide_eq_true hpt
    have x : Since D h l c h (l.insert (toRow (f t))) c₃ :=
      ((Since.of_env (e.trans e')).insert _).rely e₃
    have hm : t ∈ rowsOf T (l.view c₃) := (mem_view_of_inserted e₃ (hf t).symm).mpr ht
    suffices D.ensures owes (flushes D h l c id f) (pure (f t)) h (l.insert (toRow (f t))) c₃ by
      simpa [Prog.bind] using this
    exact fun c₄ e₄ => ⟨t, rfl, rfl, x.rely e₄, (mem_view_of_inserted e₄ (hf t).symm).mpr hm, hid⟩

/-- The flush and the refresh of a changed object. -/
theorem ensures_save (hf : ∀ t, Entity.id (f t) = Entity.id t) :
    D.ensures owes (saves D h l c id f) (updateById id f hf >>= fun _ => refresh id) h l c := by
  refine ensures_bind (flushes D h l c id f) (fun t h' l' c' ht => ?_) (fun e h' l' c' he => .inl he)
    (ensures_flush hf)
  refine ensures_of_rely fun c'' e => ?_
  obtain ⟨row, -, rfl, x, hm, hid⟩ := ht c'' e
  exact ensures_refresh_written hf x hm hid

/-- The flush of a changed object with a unique column, and its refresh. -/
theorem ensures_saveUnique {clash : T → Bool} (hf : ∀ t, Entity.id (f t) = Entity.id t) :
    D.ensures owes (saves D h l c id f)
      (updateUnique clash id f hf >>= fun _ => refresh id) h l c := by
  unfold updateUnique
  rw [bind_assoc]
  intro c₁ e₁
  have x : Since D h l c (.read (fun r => (ofRow r).any fun t => Entity.id t ≠ id && clash t) c₁ :: h) l
      c₁ := (Since.of_env e₁).tell trivial
  change D.ensures owes _ ((if _ then _ else _) >>= _) _ l c₁
  split
  · refine ensures_mono (fun r h' l' c' hr => ?_) (ensures_save hf)
    exact hr.since x
  · exact fun c₂ e₂ => .inl rfl

end Saves

end DevOps
