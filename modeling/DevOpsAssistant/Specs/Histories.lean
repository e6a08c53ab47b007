import DevOpsAssistant.Specs.Runs
import DevOpsAssistant.Txn.Served

/-!
# What a program ensures, statement by statement

One rule for each statement: what has to be ensured by the statement and what follows it, in terms
of what follows it.

* `returns`: a postcondition that speaks about returns only.
* `Reads`, `Saw`, `Missed`, `SignedIn`: what a session has been told.
* `logOn`: the writes of a session to some tables.
* `ensures_now`, `ensures_selectOne`, `ensures_updateById`, …: the statements.
* **`ensures_frame`**: programs on other tables.
-/

namespace DevOps

open Txn Discipline

/-- The history of a session. -/
abbrev Told := History Row Answer

/-- The part of a session that other sessions do not see. -/
abbrev OpenTx := Local Row Key

/-- A postcondition about what a program returns. -/
def returns {α : Type} (Φ : α → Told → OpenTx → Database → Prop) :
    Except Exc α → Told → OpenTx → Database → Prop :=
  fun r h l c => ∀ a, r = .ok a → Φ a h l c

section Rows

variable {T : Type} [Entity T]

/-- The session has read the rows that satisfy `p` when `c` was committed. -/
def Reads (p : T → Bool) (c : Database) (h : Told) : Prop :=
  .read (fun r => (ofRow r).any p) c ∈ h

/-- The session has read the row `t`, which satisfies `p`. -/
def Saw (p : T → Bool) (t : T) (h : Told) : Prop :=
  ∃ c, Reads p c h ∧ t ∈ rowsOf T c ∧ p t = true

/-- The session has looked for a row that satisfies `p`, and there was none. -/
def Missed (p : T → Bool) (h : Told) : Prop :=
  ∃ c, Reads p c h ∧ ∀ t ∈ rowsOf T c, p t = false

end Rows

/-! ## The writes to some tables -/

/-- The write is to a table in `S`. -/
def writesTo (S : TableName → Bool) (w : Write Row Key) : Bool := S w.key.table

/-- The writes of a session to the tables in `S`. -/
def logOn (S : TableName → Bool) (l : OpenTx) : List (Write Row Key) := l.log.filter (writesTo S)

section LogOn

variable {S : TableName → Bool} {l : OpenTx}

/-- The rows of the tables in `S` are those that the writes to these tables leave. -/
theorem mem_apply_filter {r : Row} (hr : S r.table = true) :
    ∀ (log : List (Write Row Key)) {c d : Database}, (r ∈ c.rows ↔ r ∈ d.rows) →
      (r ∈ (c.apply log).rows ↔ r ∈ (d.apply (log.filter (writesTo S))).rows)
  | [], _, _, h => h
  | w :: log, c, d, h => by
    by_cases hw : writesTo S w = true
    · rw [List.filter_cons_of_pos hw, Table.apply_cons, Table.apply_cons]
      refine mem_apply_filter hr log ?_
      rw [Table.mem_write, Table.mem_write, h]
    · rw [List.filter_cons_of_neg hw, Table.apply_cons]
      refine mem_apply_filter hr log (Iff.trans ?_ h)
      -- the write is to another table
      have hne : key r ≠ w.key := fun he => hw (by rw [writesTo, ← he]; exact hr)
      rw [Table.mem_write]
      refine ⟨fun hm => ?_, fun hm => .inr ⟨hm, hne⟩⟩
      rcases hm with hm | ⟨hm, -⟩
      · cases w with
        | store s => cases hm; exact absurd rfl hne
        | delete k => cases hm
      · exact hm

theorem mem_rowsOf_view {T : Type} [Entity T] (hT : S (Entity.table T) = true) {t : T}
    {c : Database} : t ∈ rowsOf T (l.view c) ↔ t ∈ rowsOf T (c.apply (logOn S l)) := by
  rw [mem_rowsOf, mem_rowsOf]
  exact mem_apply_filter (by rw [Entity.table_toRow, hT]) l.log Iff.rfl

theorem logOn_append (ws : List (Write Row Key)) {l' : OpenTx} (h : l'.log = l.log ++ ws) :
    logOn S l' = logOn S l ++ ws.filter (writesTo S) := by
  rw [logOn, h, List.filter_append]
  rfl

@[simp] theorem logOn_draw (n : ℕ) : logOn S (l.draw n) = logOn S l := rfl

theorem logOn_insert {T : Type} [Entity T] (t : T) (hT : S (Entity.table T) = true) :
    logOn S (l.insert (toRow t)) = logOn S l ++ [.store (toRow t)] := by
  rw [logOn_append [.store (toRow t)] rfl, List.filter_cons_of_pos]
  · rfl
  · change S (toRow t).table = true
    rw [Entity.table_toRow, hT]

theorem logOn_insert_other {T : Type} [Entity T] (t : T) (hT : S (Entity.table T) = false) :
    logOn S (l.insert (toRow t)) = logOn S l := by
  rw [logOn_append [.store (toRow t)] rfl, List.filter_cons_of_neg]
  · exact List.append_nil _
  · change ¬ S (toRow t).table = true
    rw [Entity.table_toRow, hT]
    exact Bool.false_ne_true

end LogOn

/-! ## The rows of one table after a write -/

section Writes

variable {T T' : Type} [Entity T] [Entity T'] {c : Database} {s t : T}

theorem key_toRow_ne {t' : T'} (h : Entity.table T ≠ Entity.table T') : key (toRow s) ≠ keyOf t' := by
  rw [key_toRow]
  exact fun hk => h (congrArg Key.table hk)

theorem mem_rowsOf_store : s ∈ rowsOf T (c.write (.store (toRow t))) ↔
    s = t ∨ (s ∈ rowsOf T c ∧ Entity.id s ≠ Entity.id t) := by
  rw [mem_rowsOf, mem_rowsOf, Table.mem_write_store, key_toRow, key_toRow]
  refine or_congr ⟨fun h => Entity.toRow_injective h, fun h => h ▸ rfl⟩ (and_congr_right fun _ => ?_)
  exact not_congr ⟨fun h => congrArg Key.id h, fun h => congrArg (Key.mk _) h⟩

theorem mem_rowsOf_store_other {t' : T'} (h : Entity.table T ≠ Entity.table T') :
    s ∈ rowsOf T (c.write (.store (toRow t'))) ↔ s ∈ rowsOf T c := by
  have hne : key (toRow s) ≠ key (toRow t') := by
    rw [key_toRow t']
    exact key_toRow_ne h
  rw [mem_rowsOf, mem_rowsOf, Table.mem_write_store]
  exact ⟨fun hs => hs.elim (fun he => absurd (congrArg key he) hne) And.left, fun hs => .inr ⟨hs, hne⟩⟩

theorem mem_rowsOf_delete : s ∈ rowsOf T (c.write (.delete (keyOf t))) ↔
    s ∈ rowsOf T c ∧ Entity.id s ≠ Entity.id t := by
  rw [mem_rowsOf, mem_rowsOf, Table.mem_write_delete, key_toRow]
  refine and_congr_right fun _ => ?_
  exact not_congr ⟨fun h => congrArg Key.id h, fun h => congrArg (Key.mk _) h⟩

theorem mem_rowsOf_delete_other {t' : T'} (h : Entity.table T ≠ Entity.table T') :
    s ∈ rowsOf T (c.write (.delete (keyOf t'))) ↔ s ∈ rowsOf T c := by
  rw [mem_rowsOf, mem_rowsOf, Table.mem_write_delete]
  exact ⟨And.left, fun hs => ⟨hs, key_toRow_ne h⟩⟩

end Writes

/-! ## What a session is told as it goes on -/

/-- The event is neither a commit nor a message to the workers. -/
def Minor : Event Row Answer → Prop
  | .read _ _ => True
  | .answer q _ => q.silent
  | .commit => False

/-- The session has been told more, and has neither committed nor sent a message to the workers. -/
def ToldMore (h h' : Told) : Prop := ∃ es, h' = es ++ h ∧ ∀ e ∈ es, Minor e

theorem ToldMore.refl (h : Told) : ToldMore h h := ⟨[], rfl, fun _ hm => nomatch hm⟩

theorem ToldMore.trans {h h' h'' : Told} (g₁ : ToldMore h h') (g₂ : ToldMore h' h'') : ToldMore h h'' := by
  obtain ⟨es, rfl, h₁⟩ := g₁
  obtain ⟨fs, rfl, h₂⟩ := g₂
  refine ⟨fs ++ es, (List.append_assoc _ _ _).symm, fun e hm => ?_⟩
  rcases List.mem_append.mp hm with hm | hm
  · exact h₂ e hm
  · exact h₁ e hm

theorem ToldMore.cons {h h' : Told} (g : ToldMore h h') {e : Event Row Answer} (he : Minor e) :
    ToldMore h (e :: h') :=
  g.trans ⟨[e], rfl, fun _ hm => List.mem_singleton.mp hm ▸ he⟩

theorem ToldMore.mem {h h' : Told} (g : ToldMore h h') {e : Event Row Answer} (he : e ∈ h) : e ∈ h' := by
  obtain ⟨es, rfl, -⟩ := g
  exact List.mem_append_right _ he

theorem ToldMore.no_commit {h h' : Told} (g : ToldMore h h') (hn : .commit ∉ h) : .commit ∉ h' := by
  obtain ⟨es, rfl, he⟩ := g
  intro hm
  rcases List.mem_append.mp hm with hm | hm
  · exact he _ hm
  · exact hn hm

theorem Saw.mono {T : Type} [Entity T] {p : T → Bool} {t : T} {h h' : Told} (hs : Saw p t h)
    (g : ToldMore h h') : Saw p t h' := by
  obtain ⟨c, hr, ht⟩ := hs
  exact ⟨c, g.mem hr, ht⟩

theorem Missed.mono {T : Type} [Entity T] {p : T → Bool} {h h' : Told} (hm : Missed p h)
    (g : ToldMore h h') : Missed p h' := by
  obtain ⟨c, hr, hn⟩ := hm
  exact ⟨c, g.mem hr, hn⟩

/-- What a part of a transaction leaves: the session was `l`, with the history `h`, over `c`. -/
structure Since (D : Discipline Row) (h : Told) (l : OpenTx) (c : Database) (h' : Told) (l' : OpenTx)
    (c' : Database) : Prop where
  env : D.Env h l c c'
  told : ToldMore h h'
  locks : ∀ k ∈ l.locks, k ∈ l'.locks
  ids : ∀ n ∈ l.ids, n ∈ l'.ids

namespace Since

variable {D : Discipline Row} {h h' h'' : Told} {l l' l'' : OpenTx} {c c' c'' : Database}

theorem of_env (e : D.Env h l c c') : Since D h l c h l c' :=
  ⟨e, .refl h, fun _ hk => hk, fun _ hn => hn⟩

theorem trans (x : Since D h l c h' l' c') (y : Since D h' l' c' h'' l'' c'') :
    Since D h l c h'' l'' c'' :=
  ⟨x.env.trans (y.env.mono (fun _ _ ht => x.told.mem ht) x.locks x.ids), x.told.trans y.told,
    fun k hk => y.locks k (x.locks k hk), fun n hn => y.ids n (x.ids n hn)⟩

theorem rely (x : Since D h l c h' l' c') (e : D.Env h' l' c' c'') : Since D h l c h' l' c'' :=
  x.trans (of_env e)

theorem tell (x : Since D h l c h' l' c') {e : Event Row Answer} (he : Minor e) :
    Since D h l c (e :: h') l' c' :=
  ⟨x.env, x.told.cons he, x.locks, x.ids⟩

theorem draw (x : Since D h l c h' l' c') (n : ℕ) : Since D h l c h' (l'.draw n) c' :=
  ⟨x.env, x.told, x.locks, fun m hm => List.mem_cons_of_mem _ (x.ids m hm)⟩

theorem lock (x : Since D h l c h' l' c') (r : Row) (e : Effect r) :
    Since D h l c h' (l'.lock r e) c' :=
  ⟨x.env, x.told, fun k hk => List.mem_cons_of_mem _ (x.locks k hk), x.ids⟩

theorem insert (x : Since D h l c h' l' c') (r : Row) : Since D h l c h' (l'.insert r) c' :=
  ⟨x.env, x.told, fun k hk => List.mem_cons_of_mem _ (x.locks k hk), x.ids⟩

theorem lockAll (x : Since D h l c h' l' c') (ks : List Key) :
    Since D h l c h' { l' with locks := ks ++ l'.locks } c' :=
  ⟨x.env, x.told, fun k hk => List.mem_append_right _ (x.locks k hk), x.ids⟩

end Since

/-! ## Statements -/

section Statements

variable {D : Discipline Row} {owes : Told → OpenTx → Database → Prop} {T α β : Type} [Entity T]
  {Φ : α → Told → OpenTx → Database → Prop} {h : Told} {l : OpenTx} {c : Database}

omit [Entity T] in
theorem ensures_pure {a : α} (hp : ∀ c', D.Env h l c c' → Φ a h l c') :
    D.ensures owes (returns Φ) (pure a : Db α) h l c :=
  fun c' e b hb => by cases hb; exact hp c' e

omit [Entity T] in
theorem ensures_throw {e : Exc} : D.ensures owes (returns Φ) (throw e : Db α) h l c :=
  fun _ _ _ ha => nomatch ha

omit [Entity T] in
theorem ensures_now {g : Time → Db α} (hg : ∀ h' c' t, Since D h l c h' l c' → .answer .now t ∈ h' →
      D.ensures owes (returns Φ) (g t) h' l c') :
    D.ensures owes (returns Φ) (now >>= g) h l c :=
  fun c' e t => hg _ c' t ((Since.of_env e).tell trivial) List.mem_cons_self

omit [Entity T] in
theorem ensures_uuid4 {g : UUID → Db α} (hg : ∀ c' n, Since D h l c h (l.draw n) c' →
      D.ensures owes (returns Φ) (g n) h (l.draw n) c') :
    D.ensures owes (returns Φ) (uuid4 >>= g) h l c :=
  fun c' e n _ _ => hg c' n ((Since.of_env e).draw n)

omit [Entity T] in
/-- A question to the surroundings. -/
theorem ensures_query {q : Query} (hq : q.silent) {g : Answer q → Db α}
    (hg : ∀ h' c' a, Since D h l c h' l c' → .answer q a ∈ h' →
      D.ensures owes (returns Φ) (g a) h' l c') :
    D.ensures owes (returns Φ) (Prog.query q >>= g) h l c :=
  fun c' e a => hg _ c' a ((Since.of_env e).tell hq) List.mem_cons_self

theorem ensures_selectOf {p : T → Bool} {g : List T → Db α}
    (hg : ∀ c', Since D h l c (.read (fun r => (ofRow r).any p) c' :: h) l c' →
      D.ensures owes (returns Φ) (g ((rowsOf T (l.view c')).filter p))
        (.read (fun r => (ofRow r).any p) c' :: h) l c') :
    D.ensures owes (returns Φ) (selectOf p >>= g) h l c := by
  intro c' e
  have := hg c' ((Since.of_env e).tell trivial)
  rwa [← rowsOf_filter] at this

/-- A query for at most one row. -/
theorem ensures_selectOne {p : T → Bool} {g : Option T → Db α}
    (hnone : ∀ h' c', Since D h l c h' l c' → Reads p c' h' →
      (∀ t ∈ rowsOf T (l.view c'), p t = false) → D.ensures owes (returns Φ) (g none) h' l c')
    (hsome : ∀ h' c' t, Since D h l c h' l c' → Reads p c' h' → t ∈ rowsOf T (l.view c') →
      p t = true → D.ensures owes (returns Φ) (g (some t)) h' l c') :
    D.ensures owes (returns Φ) ((selectOf p >>= scalarOneOrNone) >>= g) h l c := by
  rw [bind_assoc]
  refine ensures_selectOf fun c' x => ?_
  have hr : Reads p c' (.read (fun r => (ofRow r).any p) c' :: h) := List.mem_cons_self
  cases hf : (rowsOf T (l.view c')).filter p with
  | nil =>
    refine hnone _ c' x hr fun t ht => ?_
    simpa using List.filter_eq_nil_iff.mp hf t ht
  | cons t ts =>
    have ht : t ∈ (rowsOf T (l.view c')).filter p := by rw [hf]; exact List.mem_cons_self
    cases ts with
    | nil => exact hsome _ c' t x hr (List.mem_filter.mp ht).1 (List.mem_filter.mp ht).2
    | cons u us => exact ensures_throw

omit [Entity T] in
theorem ensures_map {p : Db α} {f : α → β} {Ψ : Told → OpenTx → Database → Prop}
    (hp : D.ensures owes (returns fun _ => Ψ) p h l c) :
    D.ensures owes (returns fun _ => Ψ) (p >>= fun a => pure (f a)) h l c :=
  ensures_bind (returns fun _ => Ψ) (fun a _ _ _ ha => ensures_pure fun c' e => ha c' e a rfl)
    (fun _ _ _ _ _ _ hb => nomatch hb) hp

/-- A session locks the rows it writes. -/
theorem locked_insert {l : OpenTx} (row : Row) :
    ∀ w ∈ ([] ++ [.store row] : List (Write Row Key)), w.key ∈ (l.insert row).locks := by
  intro w hw
  cases List.mem_singleton.mp hw
  exact List.mem_cons_self

/-- An insert, where it violates no constraint. -/
theorem ensures_insertOf {clash : T → Bool} {t : T} {g : Unit → Db α}
    (hg : ∀ c', Since D h l c h (l.insert (toRow t)) c' →
      (∀ u ∈ rowsOf T (l.view c'), Entity.id u ≠ Entity.id t) →
      (∀ u ∈ rowsOf T (l.view c'), clash u = false) →
      D.ensures owes (returns Φ) (g ()) h (l.insert (toRow t)) c') :
    D.ensures owes (returns Φ) (insertOf clash t >>= g) h l c := by
  intro c' e
  split
  · exact ensures_throw
  · next hx =>
    have hfree : ∀ r ∈ (l.view c').rows, key r ≠ key (toRow t) ∧
        (ofRow r : Option T).any clash = false := by
      intro r hr
      rw [Table.clashes, List.any_eq_true, not_exists] at hx
      have := hx r
      rw [not_and, Bool.or_eq_true, not_or, decide_eq_true_eq, Bool.not_eq_true] at this
      exact this hr
    refine hg c' ((Since.of_env e).insert _) (fun u hu hid => ?_) fun u hu => ?_
    · exact (hfree _ (mem_rowsOf.mp hu)).1 (Entity.key_toRow_eq hid)
    · simpa using (hfree _ (mem_rowsOf.mp hu)).2

omit [Entity T] in
theorem ensures_commit {g : Unit → Db α} (ho : ∀ c', D.Env h l c c' → owes h l c')
    (hg : ∀ c', D.ensures owes (returns Φ) (g ()) (.commit :: h) l.clear (l.view c')) :
    D.ensures owes (returns Φ) (Prog.commitWork >>= g) h l c :=
  fun c' e => ⟨ho c' e, hg c'⟩

/-! ### Locking statements -/

/-- The rows of a locking statement that touches at most one row. -/
theorem scanEnsures_one {p : T → Bool} {f : (r : Row) → Effect r}
    {φ : List Row → OpenTx → Database → Prop} {k : Key} {ks : List Key}
    (hks : ks = [] ∨ ks = [k])
    (hnone : ∀ c', D.Env h l c c' → φ [] l c')
    (hsome : ∀ c' t, D.Env h l c c' → t ∈ rowsOf T (l.view c') → p t = true → keyOf t = k →
      ∀ c'', D.Env h (l.lock (toRow t) (f (toRow t))) c' c'' →
        φ [toRow t] (l.lock (toRow t) (f (toRow t))) c'') :
    D.scanEnsures h (fun r => (ofRow r : Option T).any p) f φ ks [] l c := by
  rcases hks with rfl | rfl
  · exact fun c' e => hnone c' e
  · intro c' e
    split
    · next r hr =>
      obtain ⟨hm, hk⟩ := Table.lookup_eq_some.mp hr
      split
      · next hp =>
        obtain ⟨-, t, rfl, hpt⟩ := table_of_ofRow_any hp
        exact fun c'' e' => hsome c' t e (mem_rowsOf.mpr hm) hpt (by rw [← key_toRow, hk]) c'' e'
      · exact fun c'' e' => hnone c'' (e.trans e')
    · exact fun c'' e' => hnone c'' (e.trans e')

/-- The keys a statement about one id visits. -/
theorem keys_of_id {p : T → Bool} {id : UUID} (hp : ∀ t, p t = true → Entity.id t = id)
    (d : Database) :
    ((d.rows.filter fun r => (ofRow r : Option T).any p).map key) = [] ∨
      ((d.rows.filter fun r => (ofRow r : Option T).any p).map key) = [⟨Entity.table T, id⟩] := by
  have hkey : ∀ r ∈ d.rows.filter (fun r => (ofRow r : Option T).any p),
      key r = ⟨Entity.table T, id⟩ := by
    intro r hr
    obtain ⟨-, t, rfl, hpt⟩ := table_of_ofRow_any (List.mem_filter.mp hr).2
    rw [key_toRow, keyOf, hp t hpt]
  have hnd : ((d.rows.filter fun r => (ofRow r : Option T).any p).map key).Nodup :=
    List.Sublist.nodup (List.filter_sublist.map key) d.nodup
  cases hf : d.rows.filter (fun r => (ofRow r : Option T).any p) with
  | nil => exact .inl rfl
  | cons r rs =>
    rw [hf] at hkey hnd
    cases rs with
    | nil => exact .inr (by rw [List.map_singleton, hkey r List.mem_cons_self])
    | cons r' rs =>
      have h₁ := hkey r List.mem_cons_self
      have h₂ := hkey r' (List.mem_cons_of_mem _ List.mem_cons_self)
      simp [h₁, h₂] at hnd

/-- The flush of a changed row: the row is read anew and locked. -/
theorem ensures_updateById {id : UUID} {f : T → T} {hf : ∀ t, Entity.id (f t) = Entity.id t}
    {g : T → Db α} (hg : ∀ c' t, Since D h l c h (l.insert (toRow (f t))) c' →
      t ∈ rowsOf T (l.view c') → Entity.id t = id →
      D.ensures owes (returns Φ) (g (f t)) h (l.insert (toRow (f t))) c') :
    D.ensures owes (returns Φ) (updateById id f hf >>= g) h l c := by
  rw [updateById, bind_assoc]
  intro c' e
  refine scanEnsures_one (k := ⟨Entity.table T, id⟩)
    (keys_of_id (fun t ht => of_decide_eq_true ht) _) (fun c'' e' => ?_)
    fun c'' t e' ht hpt hk c₃ e₃ => ?_
  · exact ensures_throw
  · obtain ⟨hsame, he⟩ := updateEffect_toRow hf t
    have hl : l.lock (toRow t) (updateEffect f hf (toRow t)) = l.insert (toRow (f t)) := by
      rw [he]
      simp only [Local.lock, Local.insert, Effect.log, hsame]
    rw [hl] at e₃ ⊢
    have := ensures_rely
      (hg c'' t ((Since.of_env (e.trans e')).insert _) ht (of_decide_eq_true hpt)) e₃
    simpa [Prog.bind] using this

/-- A `DELETE` by id: the row is read anew, locked and removed, if it is still there. -/
theorem ensures_deleteById {id : UUID} {g : List T → Db α}
    (hnone : ∀ c', Since D h l c h l c' → D.ensures owes (returns Φ) (g []) h l c')
    (hsome : ∀ c' t, Since D h l c h (l.lock (toRow t) .remove) c' → t ∈ rowsOf T (l.view c') →
      Entity.id t = id → D.ensures owes (returns Φ) (g [t]) h (l.lock (toRow t) .remove) c') :
    D.ensures owes (returns Φ) (deleteOf (fun t : T => Entity.id t = id) >>= g) h l c := by
  intro c' e
  refine scanEnsures_one (k := ⟨Entity.table T, id⟩)
    (keys_of_id (fun t ht => of_decide_eq_true ht) _) (fun c'' e' => ?_)
    fun c'' t e' ht hpt hk c₃ e₃ => ?_
  · simpa [Prog.bind] using hnone c'' (Since.of_env (e.trans e'))
  · simpa [Prog.bind] using ensures_rely
      (hsome c'' t ((Since.of_env (e.trans e')).lock _ _) ht (of_decide_eq_true hpt)) e₃

theorem mem_view_of_locked {t : T} {c' : Database} (e : D.Env h l c c') (hk : keyOf t ∈ l.locks) :
    t ∈ rowsOf T (l.view c') ↔ t ∈ rowsOf T (l.view c) := by
  rw [mem_rowsOf, mem_rowsOf]
  exact e.same.replay l.log _ (by rw [key_toRow]; exact hk)

/-- The rows `rs` satisfy `p`, are current and locked by the session, which has only locked rows
since it was `l₀` over `c₀`. -/
structure LockedRows (D : Discipline Row) (h : Told) (p : T → Bool) (l₀ : OpenTx) (c₀ : Database)
    (rs : List Row) (l : OpenTx) (c : Database) : Prop where
  env : D.Env h l₀ c₀ c
  locks : ∃ ks, l = { l₀ with locks := ks ++ l₀.locks }
  rows : ∀ r ∈ rs, ∃ t : T, r = toRow t ∧ p t = true ∧ t ∈ rowsOf T (l.view c) ∧ keyOf t ∈ l.locks

theorem LockedRows.mono {p : T → Bool} {l₀ : OpenTx} {c₀ c' : Database} {rs : List Row}
    (hl : LockedRows D h p l₀ c₀ rs l c) (e : D.Env h l c c') :
    LockedRows D h p l₀ c₀ rs l c' := by
  obtain ⟨ks, rfl⟩ := hl.locks
  refine ⟨hl.env.trans (e.mono (fun _ _ ht => ht) (fun k hk => List.mem_append_right _ hk)
    fun _ hn => hn), ⟨ks, rfl⟩, fun r hr => ?_⟩
  obtain ⟨t, rfl, hp, ht, hk⟩ := hl.rows r hr
  exact ⟨t, rfl, hp, (mem_view_of_locked e hk).mpr ht, hk⟩

theorem scanEnsures_lock {p : T → Bool} {l₀ : OpenTx} {c₀ : Database} :
    ∀ (ks : List Key) {rs : List Row} {l : OpenTx} {c : Database},
      LockedRows D h p l₀ c₀ rs l c → D.scanEnsures h (fun r => (ofRow r : Option T).any p)
        (fun _ => .keep) (LockedRows D h p l₀ c₀) ks rs l c
  | [], rs, l, c, hl => fun c' e => hl.mono e
  | x :: ks, rs, l, c, hl => fun c' e => by
    have hl' := hl.mono e
    split
    · next r hr =>
      split
      · next hp =>
        obtain ⟨-, t, rfl, hpt⟩ := table_of_ofRow_any hp
        have hview : (l.lock (toRow t) .keep).view c' = l.view c' := by
          simp [Local.view, Local.lock, Effect.log]
        obtain ⟨js, hjs⟩ := hl.locks
        refine scanEnsures_lock ks ⟨hl'.env,
          ⟨key (toRow t) :: js, by simp [hjs, Local.lock, Effect.log]⟩, fun r hr' => ?_⟩
        rw [hview]
        rcases List.mem_append.mp hr' with hr' | hr'
        · obtain ⟨u, rfl, hpu, hu, hk⟩ := hl'.rows r hr'
          exact ⟨u, rfl, hpu, hu, List.mem_cons_of_mem _ hk⟩
        · cases List.mem_singleton.mp hr'
          exact ⟨t, rfl, hpt, mem_rowsOf.mpr (Table.lookup_eq_some.mp hr).1,
            by rw [← key_toRow]; exact List.mem_cons_self⟩
      · exact scanEnsures_lock ks hl'
    · exact scanEnsures_lock ks hl'

/-- A locking query for at most one row. -/
theorem ensures_lockOne {p : T → Bool} {g : Option T → Db α}
    (hnone : ∀ c' ks, Since D h l c h { l with locks := ks ++ l.locks } c' →
      D.ensures owes (returns Φ) (g none) h { l with locks := ks ++ l.locks } c')
    (hsome : ∀ c' ks t, Since D h l c h { l with locks := ks ++ l.locks } c' →
      t ∈ rowsOf T (l.view c') → p t = true → keyOf t ∈ ks ++ l.locks →
      D.ensures owes (returns Φ) (g (some t)) h { l with locks := ks ++ l.locks } c') :
    D.ensures owes (returns Φ) ((lockOf p >>= scalarOneOrNone) >>= g) h l c := by
  rw [bind_assoc]
  intro c' e
  refine scanEnsures_mono (fun rs l' c'' hl => ?_) _ (scanEnsures_lock (h := h) (p := p) (D := D) _
    ⟨e, ⟨[], rfl⟩, fun _ hr => nomatch hr⟩)
  obtain ⟨ks, rfl⟩ := hl.locks
  change D.ensures owes (returns Φ) ((scalarOneOrNone (rs.filterMap ofRow) : Db (Option T)) >>= g)
    h _ c''
  cases rs with
  | nil => exact hnone c'' ks ((Since.of_env hl.env).lockAll ks)
  | cons r rs =>
    obtain ⟨t, rfl, hp, ht, hk⟩ := hl.rows r List.mem_cons_self
    cases rs with
    | nil => simpa [scalarOneOrNone, Prog.bind] using
        hsome c'' ks t ((Since.of_env hl.env).lockAll ks) ht hp hk
    | cons r' rs =>
      obtain ⟨t', rfl, -⟩ := hl.rows r' (List.mem_cons_of_mem _ List.mem_cons_self)
      simpa [scalarOneOrNone, Prog.bind] using ensures_throw

/-- A locked row stays as it is. -/
theorem mem_of_locked {t : T} {c' : Database} (e : D.Env h l c c') (hk : keyOf t ∈ l.locks) :
    t ∈ rowsOf T c' ↔ t ∈ rowsOf T c := by
  rw [mem_rowsOf, mem_rowsOf]
  exact e.same _ (by rw [key_toRow]; exact hk)

end Statements

/-! ## Programs on other tables -/

/-- What a program leaves that does not write the tables in `S`. -/
structure Extends (D : Discipline Row) (S : TableName → Bool) (h : Told) (l : OpenTx) (c : Database)
    (h' : Told) (l' : OpenTx) (c' : Database) : Prop extends Since D h l c h' l' c' where
  log : logOn S l' = logOn S l

section Frame

variable {D : Discipline Row} {owes : Told → OpenTx → Database → Prop} {S : TableName → Bool}
  {h h' : Told} {l l' : OpenTx} {c c' c'' : Database}

theorem Extends.rely (x : Extends D S h l c h' l' c') (e : D.Env h' l' c' c'') :
    Extends D S h l c h' l' c'' :=
  ⟨x.toSince.rely e, x.log⟩

theorem outside_effect {p : Row → Bool} {f : (r : Row) → Effect r}
    (hw : Writes (outside (S · = true) False) (.modify p f)) {r : Row} (hr : p r = true) :
    (f r).log.filter (writesTo S) = [] := by
  rw [List.filter_eq_nil_iff]
  intro w hw'
  have hkey := Effect.key_of_mem_log hw'
  rcases outside_modify hw r hr with hk | hk
  · rw [hk] at hw'
    cases hw'
  · rw [writesTo, hkey]
    exact hk

theorem extends_invariant :
    Invariant D (Writes (outside (S · = true) False)) owes (Extends D S h l c) where
  rely x e := x.rely e
  read x := ⟨x.tell trivial, x.log⟩
  answer hq x := ⟨x.tell hq, x.log⟩
  lock {h' l' c' p f r} hφ x _ hp := by
    refine ⟨x.lock r (f r), ?_⟩
    rw [logOn_append (f r).log rfl, outside_effect hφ hp, List.append_nil, x.log]
  insert {h' l' c' r} hφ x := by
    refine ⟨x.toSince.insert r, ?_⟩
    rw [logOn_append [.store r] rfl, List.filter_cons_of_neg, List.filter_nil, List.append_nil, x.log]
    exact hφ
  draw {h' l' c' n} x := ⟨x.toSince.draw n, x.log⟩
  commit hφ := hφ.elim
  rollback hφ := hφ.elim

/-- **A program on other tables** leaves the writes to the tables in `S` as they are. -/
theorem ensures_frame {α β : Type} {P : β → Prop} {Φ : α → Told → OpenTx → Database → Prop}
    {p : Db β} {g : β → Db α} (hp : p.Only (Writes (outside (S · = true) False)) P)
    (hg : ∀ b h' l' c', P b → Extends D S h l c h' l' c' →
      D.ensures owes (returns Φ) (g b) h' l' c') :
    D.ensures owes (returns Φ) (p >>= g) h l c := by
  refine ensures_of_rely fun c₁ e₁ => ?_
  refine ensures_bind (fun r h' l' c' => Extends D S h l c h' l' c' ∧ ∀ b, r = .ok b → P b)
    (fun b h' l' c' hb => ensures_of_rely fun c'' e => ?_) (fun _ _ _ _ _ _ ha => nomatch ha)
    (ensures_of_only extends_invariant hp ⟨.of_env e₁, rfl⟩)
  obtain ⟨hx, hP⟩ := hb c'' e
  exact hg b h' l' c'' (hP b rfl) hx

/-- The part of a program after its last write to the tables in `S`. -/
theorem ensures_beside {α : Type} {P : α → Prop} {p : Db α}
    (hp : p.Only (Writes (outside (S · = true) False)) P)
    (ho : ∀ h' l' c', Extends D S h l c h' l' c' → owes h' l' c') :
    D.ensures owes (returns fun _ => owes) p h l c := by
  rw [← bind_pure p]
  exact ensures_frame hp fun b h' l' c' _ x => ensures_pure fun c'' e => ho h' l' c'' (x.rely e)

/-- A session that has written nothing to the tables in `S` sees them as committed. -/
theorem mem_view_of_unwritten {T : Type} [Entity T] (hl : logOn S l = [])
    (hT : S (Entity.table T) = true) {t : T} :
    t ∈ rowsOf T (l.view c) ↔ t ∈ rowsOf T c := by
  rw [mem_rowsOf_view hT, hl, Table.apply_nil]

end Frame

/-! ## The current user -/

/-- The session has authenticated `user` by the access token. -/
def SignedIn (env : Env) (access : RawToken) (user : User) (h : Told) : Prop :=
  ∃ t c, .answer .now t ∈ h ∧ Reads (fun u : User => u.id = user.id) c h ∧
    Authenticates env c t access user

theorem SignedIn.mono {env : Env} {access : RawToken} {user : User} {h h' : Told}
    (hs : SignedIn env access user h) (g : ToldMore h h') : SignedIn env access user h' := by
  obtain ⟨t, c, ht, hr, ha⟩ := hs
  exact ⟨t, c, g.mem ht, g.mem hr, ha⟩

theorem ensures_getCurrentUser {D : Discipline Row} {owes : Told → OpenTx → Database → Prop}
    {α : Type} {Φ : α → Told → OpenTx → Database → Prop} {env : Env} {access : RawToken}
    {h : Told} {l : OpenTx} {c : Database} {g : User → Db α} (hl : l.log = [])
    (hg : ∀ user h' c', Since D h l c h' l c' → SignedIn env access user h' →
      D.ensures owes (returns Φ) (g user) h' l c') :
    D.ensures owes (returns Φ) (getCurrentUser env access >>= g) h l c := by
  rw [getCurrentUser, decodeAccessToken, decodeToken, if_pos env.settings.validateJwtAlgorithm]
  simp only [bind_assoc]
  refine ensures_now fun h₁ c₁ t x₁ ht => ?_
  cases hclaims : tokenClaims env t .access access with
  | none => exact ensures_throw
  | some payload =>
    simp only [pure_bind]
    cases hsub : payload.sub with
    | none => exact ensures_throw
    | some userId =>
      simp only [bind_assoc]
      refine ensures_selectOne (fun _ _ _ _ _ => ensures_throw) fun h₂ c₂ user x₂ hr hu hid => ?_
      have hid : user.id = userId := of_decide_eq_true hid
      subst hid
      simp only
      by_cases hactive : user.isActive = true
      · simp only [hactive, Bool.not_true, Bool.false_eq_true, if_false]
        have hview : l.view c₂ = c₂ := by rw [Local.view, hl, Table.apply_nil]
        rw [hview] at hu
        exact hg user h₂ c₂ (x₁.trans x₂)
          ⟨t, c₂, x₂.told.mem ht, hr, payload, hclaims, hsub, hu, hactive⟩
      · simp only [hactive, Bool.not_false, if_true]
        exact ensures_throw

end DevOps
