import DevOpsAssistant.Txn.Concurrent

/-!
# What a session has been told

A session that reads rows without locking them acts on what the database told it some time ago. The
history of a session records its unlocked reads, the answers it got and its commits; what it owes
at a commit may refer to them.

* `Event`, `History`: reads, answers and commits, latest first.
* `Discipline`, `Discipline.Env`: what a session assumes of the committed rows while others run.
* `Discipline.ensures`: every commit of a program does what it owes, by recursion over its
  statements; `ensures_bind`, `ensures_tryCatch`, `ensures_unitOfWork`.
* `Invariant`, `Preserves`; **`ensures_of_only`**, **`ensures_of_preserves`**: the rules for programs
  whose statements keep an invariant.
-/

namespace Txn

variable {R K Q W I : Type} {A : Q → Type} {E α β : Type} [DecidableEq K] [Keyed R K]

/-- What a session is told: the committed rows from which a `SELECT` with the condition `p` was
answered, the answer to a question, or that its transaction is committed. -/
inductive Event (R : Type) {K Q : Type} [Keyed R K] (A : Q → Type) where
  | read (p : R → Bool) (c : Table R)
  | answer (q : Q) (a : A q)
  | commit

/-- The events of a session, latest first. -/
abbrev History (R : Type) {K Q : Type} [Keyed R K] (A : Q → Type) := List (Event R A)

/-- An invariant of the committed rows, how those a session has read relate to later ones, the
identifiers a row makes known, and what the lock on a key protects besides its row. -/
structure Discipline (R : Type) {K : Type} [Keyed R K] where
  inv : Table R → Prop
  follows : Table R → Table R → Prop
  names : R → List ℕ
  guards : K → Table R → Table R → Prop := fun _ _ _ => True
  follows_refl : ∀ {c}, inv c → follows c c
  guards_refl : ∀ k c, guards k c c := by intros; trivial
  guards_trans : ∀ {k c c' c''}, guards k c c' → guards k c' c'' → guards k c c'' := by
    intros; trivial

namespace Discipline

variable {D : Discipline R} {h h' : History R A} {l l' : Local R K} {c c' c'' : Table R}

/-- What a session with the history `h` may assume while others run: `c` are the committed rows when
it last looked. -/
structure Env (D : Discipline R) (h : History R A) (l : Local R K) (c c' : Table R) : Prop where
  inv : D.inv c'
  follows : ∀ p t, .read p t ∈ h → D.follows t c'
  same : c.SameAt l.locks c'
  unused : ∀ n ∈ l.ids, ∀ r ∈ c'.rows, n ∉ D.names r
  guarded : ∀ k ∈ l.locks, D.guards k c c'

/-- What every commit has to keep. -/
structure CommitOk (D : Discipline R) (l : Local R K) (c : Table R) : Prop where
  inv : D.inv (l.view c)
  follows : ∀ t, D.follows t c → (∀ n ∈ l.ids, ∀ r ∈ t.rows, n ∉ D.names r) →
    D.follows t (l.view c)
  names : ∀ r ∈ (l.view c).rows, ∀ n ∈ D.names r, n ∈ l.ids ∨ ∃ s ∈ c.rows, n ∈ D.names s
  guarded : ∀ k, k ∉ l.locks → D.guards k c (l.view c)

omit [DecidableEq K] in
theorem Env.trans (h₁ : D.Env h l c c') (h₂ : D.Env h l c' c'') : D.Env h l c c'' :=
  ⟨h₂.inv, h₂.follows, h₁.same.trans h₂.same, h₂.unused,
    fun k hk => D.guards_trans (h₁.guarded k hk) (h₂.guarded k hk)⟩

omit [DecidableEq K] in
/-- After a step of the environment the session can look again. -/
theorem Env.again (e : D.Env h l c c') : D.Env h l c' c' :=
  ⟨e.inv, e.follows, .refl _ _, e.unused, fun k _ => D.guards_refl k c'⟩

omit [DecidableEq K] in
theorem Env.mono (e : D.Env h l c c') (hh : ∀ p t, .read p t ∈ h' → .read p t ∈ h)
    (hl : ∀ k ∈ l'.locks, k ∈ l.locks) (hn : ∀ n ∈ l'.ids, n ∈ l.ids) : D.Env h' l' c c' :=
  ⟨e.inv, fun p t ht => e.follows p t (hh p t ht), e.same.mono hl,
    fun n hn' => e.unused n (hn n hn'), fun k hk => e.guarded k (hl k hk)⟩

/-! ## Programs -/

/-- A locking statement, with the keys `ks` still to visit and the rows `rs` locked. -/
def scanEnsures (D : Discipline R) (h : History R A) (p : R → Bool) (f : (r : R) → Effect r)
    (post : List R → Local R K → Table R → Prop) :
    List K → List R → Local R K → Table R → Prop
  | [], rs, l, c => ∀ c', D.Env h l c c' → post rs l c'
  | x :: ks, rs, l, c => ∀ c', D.Env h l c c' →
    match (l.view c').lookup x with
    | some r =>
      if p r then scanEnsures D h p f post ks (rs ++ [r]) (l.lock r (f r)) c'
      else scanEnsures D h p f post ks rs l c'
    | none => scanEnsures D h p f post ks rs l c'

/-- Every commit of the program does what it owes, whatever others do between its statements, and
the program ends as `post` says. -/
def ensures (D : Discipline R) (owes : History R A → Local R K → Table R → Prop)
    (post : Except E α → History R A → Local R K → Table R → Prop) :
    Prog R A E α → History R A → Local R K → Table R → Prop
  | .ret a, h, l, c => ∀ c', D.Env h l c c' → post (.ok a) h l c'
  | .raise e, h, l, c => ∀ c', D.Env h l c c' → post (.error e) h l c'
  | .select p k, h, l, c => ∀ c', D.Env h l c c' →
    D.ensures owes post (k ((l.view c').rows.filter p)) (.read p c' :: h) l c'
  | .modify p f k, h, l, c => ∀ c', D.Env h l c c' →
    D.scanEnsures h p f (fun rs l c => D.ensures owes post (k rs) h l c)
      (((l.view c').rows.filter p).map key) [] l c'
  | .insert clash r k, h, l, c => ∀ c', D.Env h l c c' →
    if (l.view c').clashes clash r then D.ensures owes post (k false) h l c'
    else D.ensures owes post (k true) h (l.insert r) c'
  | .fresh k, h, l, c => ∀ c', D.Env h l c c' → ∀ n, n ∉ l.drawn →
    (∀ r ∈ c'.rows, n ∉ D.names r) → D.ensures owes post (k n) h (l.draw n) c'
  | .ask q k, h, l, c => ∀ c', D.Env h l c c' → ∀ a,
    D.ensures owes post (k a) (.answer q a :: h) l c'
  | .commit k, h, l, c => ∀ c', D.Env h l c c' →
    owes h l c' ∧ D.ensures owes post k (.commit :: h) l.clear (l.view c')
  | .rollback k, h, l, c => ∀ c', D.Env h l c c' → D.ensures owes post k h l.clear c'

section Rules

variable {owes owes' : History R A → Local R K → Table R → Prop}
  {post post' : Except E α → History R A → Local R K → Table R → Prop}

theorem scanEnsures_rely {p : R → Bool} {f : (r : R) → Effect r}
    {φ : List R → Local R K → Table R → Prop} {ks : List K} {rs : List R}
    (hs : D.scanEnsures h p f φ ks rs l c) (e : D.Env h l c c') :
    D.scanEnsures h p f φ ks rs l c' := by
  cases ks with
  | nil => exact fun d hd => hs d (e.trans hd)
  | cons x ks => exact fun d hd => hs d (e.trans hd)

/-- What a program ensures is stable under what others do. -/
theorem ensures_rely {p : Prog R A E α} (hp : D.ensures owes post p h l c) (e : D.Env h l c c') :
    D.ensures owes post p h l c' := by
  cases p <;> exact fun d hd => hp d (e.trans hd)

/-- It is enough to look from every state others leave. -/
theorem ensures_of_rely {p : Prog R A E α}
    (hp : ∀ c', D.Env h l c c' → D.ensures owes post p h l c') : D.ensures owes post p h l c := by
  cases p <;> exact fun d hd => hp d hd d hd.again

theorem scanEnsures_mono {p : R → Bool} {f : (r : R) → Effect r}
    {φ ψ : List R → Local R K → Table R → Prop} (hφ : ∀ rs l c, φ rs l c → ψ rs l c) :
    ∀ (ks : List K) {rs : List R} {l : Local R K} {c : Table R},
      D.scanEnsures h p f φ ks rs l c → D.scanEnsures h p f ψ ks rs l c
  | [], _, _, _, hs => fun c' hc => hφ _ _ _ (hs c' hc)
  | x :: ks, _, _, _, hs => fun c' hc => by
    have h' := hs c' hc
    split
    · next r hx =>
      simp only [hx] at h'
      split
      · next hp => exact scanEnsures_mono hφ ks (by simpa [hp] using h')
      · next hp => exact scanEnsures_mono hφ ks (by simpa [hp] using h')
    · next hx =>
      simp only [hx] at h'
      exact scanEnsures_mono hφ ks h'

/-- A program that does more at its commits, and ends with more. -/
theorem ensures_imp (howes : ∀ h l c, owes h l c → owes' h l c)
    (hpost : ∀ r h l c, post r h l c → post' r h l c) {p : Prog R A E α}
    {h : History R A} {l : Local R K} {c : Table R} (hp : D.ensures owes post p h l c) :
    D.ensures owes' post' p h l c := by
  induction p generalizing h l c with
  | ret a | raise e => exact fun c' hc => hpost _ _ _ _ (hp c' hc)
  | select p k ih => exact fun c' hc => ih _ (hp c' hc)
  | modify p f k ih => exact fun c' hc => scanEnsures_mono (fun rs _ _ hs => ih rs hs) _ (hp c' hc)
  | insert clash r k ih =>
    intro c' hc
    have hp := hp c' hc
    split at hp
    · next hx => exact (if_pos hx).mpr (ih false hp)
    · next hx => exact (if_neg hx).mpr (ih true hp)
  | fresh k ih => exact fun c' hc n hn hu => ih n (hp c' hc n hn hu)
  | ask q k ih => exact fun c' hc a => ih a (hp c' hc a)
  | commit k ih => exact fun c' hc => ⟨howes _ _ _ (hp c' hc).1, ih (hp c' hc).2⟩
  | rollback k ih => exact fun c' hc => ih (hp c' hc)

theorem ensures_mono (hpost : ∀ r h l c, post r h l c → post' r h l c) {p : Prog R A E α}
    {h : History R A} {l : Local R K} {c : Table R} (hp : D.ensures owes post p h l c) :
    D.ensures owes post' p h l c := ensures_imp (fun _ _ _ ho => ho) hpost hp

/-- Sequencing: what the first part leaves is what the second part starts from. -/
theorem ensures_bind {p : Prog R A E α} {g : α → Prog R A E β}
    {post : Except E β → History R A → Local R K → Table R → Prop}
    (mid : Except E α → History R A → Local R K → Table R → Prop)
    (hok : ∀ a h l c, (∀ c', D.Env h l c c' → mid (.ok a) h l c') → D.ensures owes post (g a) h l c)
    (herr : ∀ e h l c, mid (.error e) h l c → post (.error e) h l c)
    {h : History R A} {l : Local R K} {c : Table R} (hp : D.ensures owes mid p h l c) :
    D.ensures owes post (p.bind g) h l c := by
  induction p generalizing h l c with
  | ret a => exact hok a h l c hp
  | raise e => exact fun c' hc => herr e h l c' (hp c' hc)
  | select p k ih => exact fun c' hc => ih _ (hp c' hc)
  | modify p f k ih =>
    exact fun c' hc => scanEnsures_mono (fun rs _ _ hs => ih rs hs) _ (hp c' hc)
  | insert clash r k ih =>
    intro c' hc
    have hp := hp c' hc
    split at hp
    · next hx => exact (if_pos hx).mpr (ih false hp)
    · next hx => exact (if_neg hx).mpr (ih true hp)
  | fresh k ih => exact fun c' hc n hn hu => ih n (hp c' hc n hn hu)
  | ask q k ih => exact fun c' hc a => ih a (hp c' hc a)
  | commit k ih => exact fun c' hc => ⟨(hp c' hc).1, ih (hp c' hc).2⟩
  | rollback k ih => exact fun c' hc => ih (hp c' hc)

/-- Handlers: what the body leaves when it raises is what the handler starts from. -/
theorem ensures_tryCatch {p : Prog R A E α} {handler : E → Prog R A E α}
    (mid : Except E α → History R A → Local R K → Table R → Prop)
    (hok : ∀ a h l c, mid (.ok a) h l c → post (.ok a) h l c)
    (herr : ∀ e h l c, (∀ c', D.Env h l c c' → mid (.error e) h l c') →
      D.ensures owes post (handler e) h l c)
    {h : History R A} {l : Local R K} {c : Table R} (hp : D.ensures owes mid p h l c) :
    D.ensures owes post (p.tryCatch handler) h l c := by
  induction p generalizing h l c with
  | ret a => exact fun c' hc => hok a h l c' (hp c' hc)
  | raise e => exact herr e h l c hp
  | select p k ih => exact fun c' hc => ih _ (hp c' hc)
  | modify p f k ih =>
    exact fun c' hc => scanEnsures_mono (fun rs _ _ hs => ih rs hs) _ (hp c' hc)
  | insert clash r k ih =>
    intro c' hc
    have hp := hp c' hc
    split at hp
    · next hx => exact (if_pos hx).mpr (ih false hp)
    · next hx => exact (if_neg hx).mpr (ih true hp)
  | fresh k ih => exact fun c' hc n hn hu => ih n (hp c' hc n hn hu)
  | ask q k ih => exact fun c' hc a => ih a (hp c' hc a)
  | commit k ih => exact fun c' hc => ⟨(hp c' hc).1, ih (hp c' hc).2⟩
  | rollback k ih => exact fun c' hc => ih (hp c' hc)

/-- A unit of work does what it owes when its body ends in a state it may commit. -/
theorem ensures_unitOfWork {p : Prog R A E α}
    (mid : Except E α → History R A → Local R K → Table R → Prop)
    (hok : ∀ a h l c, mid (.ok a) h l c → owes h l c ∧
      ∀ c', D.Env (.commit :: h) l.clear (l.view c) c' → post (.ok a) (.commit :: h) l.clear c')
    (herr : ∀ e (h : History R A) (l : Local R K) (c : Table R), post (.error e) h l.clear c)
    {h : History R A} {l : Local R K} {c : Table R} (hp : D.ensures owes mid p h l c) :
    D.ensures owes post (Prog.unitOfWork p) h l c := by
  rw [Prog.unitOfWork]
  refine ensures_tryCatch (fun r h l c => ∀ a, r = .ok a → post (.ok a) h l c)
    (fun a _ _ _ ha => ha a rfl) (fun e h l c _ => ?_)
    (ensures_bind mid (fun a h l c ha => ?_) (fun e _ _ _ _ a ha => by cases ha) hp)
  · exact fun c' _ d _ => herr e h l d
  · intro c' hc
    obtain ⟨howes, hpost⟩ := hok a h l c' (ha c' hc)
    exact ⟨howes, fun d hd b hb => by cases hb; exact hpost d hd⟩

/-! ## Programs that keep an invariant -/

/-- A property of a session that others keep, and that the statements `φ` keep. -/
structure Invariant (D : Discipline R) (φ : Stmt R Q → Prop) (owes : History R A → Local R K →
    Table R → Prop) (J : History R A → Local R K → Table R → Prop) : Prop where
  rely : ∀ {h l c c'}, J h l c → D.Env h l c c' → J h l c'
  read : ∀ {h l c p d}, J h l c → J (.read p d :: h) l c
  answer : ∀ {h l c q a}, φ (.ask q) → J h l c → J (.answer q a :: h) l c
  lock : ∀ {h l c p f r}, φ (.modify p f) → J h l c → r ∈ (l.view c).rows → p r = true →
    J h (l.lock r (f r)) c
  insert : ∀ {h l c r}, φ (.insert r) → J h l c → J h (l.insert r) c
  draw : ∀ {h l c n}, J h l c → J h (l.draw n) c
  commit : ∀ {h l c}, φ .commit → J h l c → owes h l c ∧ J (.commit :: h) l.clear (l.view c)
  rollback : ∀ {h l c}, φ .rollback → J h l c → J h l.clear c

/-- The same, where an insert may assume that no row the session sees has the key of the new one. -/
structure Preserves (D : Discipline R) (φ : Stmt R Q → Prop) (owes : History R A → Local R K →
    Table R → Prop) (J : History R A → Local R K → Table R → Prop) : Prop where
  rely : ∀ {h l c c'}, J h l c → D.Env h l c c' → J h l c'
  read : ∀ {h l c p d}, J h l c → J (.read p d :: h) l c
  answer : ∀ {h l c q a}, φ (.ask q) → J h l c → J (.answer q a :: h) l c
  lock : ∀ {h l c p f r}, φ (.modify p f) → J h l c → r ∈ (l.view c).rows → p r = true →
    J h (l.lock r (f r)) c
  insert : ∀ {h l c r}, φ (.insert r) → J h l c → (∀ x ∈ (l.view c).rows, key x ≠ key r) →
    J h (l.insert r) c
  draw : ∀ {h l c n}, J h l c → J h (l.draw n) c
  commit : ∀ {h l c}, φ .commit → J h l c → owes h l c ∧ J (.commit :: h) l.clear (l.view c)
  rollback : ∀ {h l c}, φ .rollback → J h l c → J h l.clear c

theorem Invariant.preserves {φ : Stmt R Q → Prop} {J : History R A → Local R K → Table R → Prop}
    (hJ : Invariant D φ owes J) : Preserves D φ owes J :=
  ⟨hJ.rely, hJ.read, hJ.answer, hJ.lock, fun hφ hj _ => hJ.insert hφ hj, hJ.draw, hJ.commit,
    hJ.rollback⟩

theorem scanEnsures_of_preserves {φ : Stmt R Q → Prop}
    {J : History R A → Local R K → Table R → Prop} (hJ : Preserves D φ owes J) {p : R → Bool}
    {f : (r : R) → Effect r} (hφ : φ (.modify p f)) :
    ∀ (ks : List K) {rs : List R} {l : Local R K} {c : Table R}, J h l c → (∀ r ∈ rs, p r = true) →
      D.scanEnsures h p f (fun rs l c => J h l c ∧ ∀ r ∈ rs, p r = true) ks rs l c
  | [], _, _, _, hj, hrs => fun _ hc => ⟨hJ.rely hj hc, hrs⟩
  | x :: ks, rs, l, _, hj, hrs => fun c' hc => by
    have h' := hJ.rely hj hc
    split
    · next r hr =>
      split
      · next hp =>
        refine scanEnsures_of_preserves hJ hφ ks
          (hJ.lock hφ h' (Table.lookup_eq_some.mp hr).1 hp) fun s hs => ?_
        rcases List.mem_append.mp hs with hs | hs
        · exact hrs s hs
        · exact List.mem_singleton.mp hs ▸ hp
      · exact scanEnsures_of_preserves hJ hφ ks h' hrs
    · exact scanEnsures_of_preserves hJ hφ ks h' hrs

/-- **A program keeps what all its statements preserve.** -/
theorem ensures_of_preserves {φ : Stmt R Q → Prop} {J : History R A → Local R K → Table R → Prop}
    (hJ : Preserves D φ owes J) {S : α → Prop} {p : Prog R A E α} (hp : p.Only φ S)
    {h : History R A} {l : Local R K} {c : Table R} (hj : J h l c) :
    D.ensures owes (fun r h l c => J h l c ∧ ∀ a, r = .ok a → S a) p h l c := by
  induction p generalizing h l c with
  | ret a => exact fun c' hc => ⟨hJ.rely hj hc, fun b hb => by cases hb; exact hp⟩
  | raise e => exact fun c' hc => ⟨hJ.rely hj hc, fun b hb => nomatch hb⟩
  | select p k ih =>
    exact fun c' hc => ih _ (hp.2 _ fun r hr => (List.mem_filter.mp hr).2)
      (hJ.read (hJ.rely hj hc))
  | modify p f k ih =>
    exact fun c' hc => scanEnsures_mono (fun rs _ _ hrs => ih rs (hp.2 rs hrs.2) hrs.1) _
      (scanEnsures_of_preserves hJ hp.1 _ (hJ.rely hj hc) fun _ hr => nomatch hr)
  | insert clash r k ih =>
    intro c' hc
    have h' := hJ.rely hj hc
    split
    · exact ih false (hp.2 false) h'
    · next hclash =>
      refine ih true (hp.2 true) (hJ.insert hp.1 h' fun x hx hk => hclash ?_)
      exact List.any_eq_true.mpr ⟨x, hx, by simp [hk]⟩
  | fresh k ih => exact fun c' hc n _ _ => ih n (hp n) (hJ.draw (hJ.rely hj hc))
  | ask q k ih =>
    exact fun c' hc a => ih a (hp.2 a) (hJ.answer hp.1 (hJ.rely hj hc))
  | commit k ih =>
    intro c' hc
    obtain ⟨howes, h'⟩ := hJ.commit hp.1 (hJ.rely hj hc)
    exact ⟨howes, ih hp.2 h'⟩
  | rollback k ih => exact fun c' hc => ih hp.2 (hJ.rollback hp.1 (hJ.rely hj hc))

/-- **A program keeps what all its statements keep.** -/
theorem ensures_of_only {φ : Stmt R Q → Prop} {J : History R A → Local R K → Table R → Prop}
    (hJ : Invariant D φ owes J) {S : α → Prop} {p : Prog R A E α} (hp : p.Only φ S)
    {h : History R A} {l : Local R K} {c : Table R} (hj : J h l c) :
    D.ensures owes (fun r h l c => J h l c ∧ ∀ a, r = .ok a → S a) p h l c :=
  ensures_of_preserves hJ.preserves hp hj

end Rules

end Discipline

end Txn
