import DevOpsAssistant.Txn.Concurrent

/-!
# Rely and guarantee for interleaved sessions

A protocol says what holds of the committed rows, how they may change from one commit to a later
one, and which identifiers a row brings into circulation. A program keeps to the protocol when
each of its commits does, under the assumption that all others do; then every interleaving does.

* `Protocol`, `Protocol.Rely`, `Protocol.CommitOk`: what a session assumes and what it owes.
* `Protocol.safe`: a program keeps to the protocol, by recursion over its statements.
* `safe_bind`, `safe_tryCatch`: the rules for sequencing and for exception handlers.
* `safe_unitOfWork`: the rule for a session that commits when its body returns.
* **`safe_of_only`**: the rule for programs whose statements keep an invariant.
-/

namespace Txn

variable {R K Q W I : Type} {A : Q → Type} {E α β : Type} [DecidableEq K] [Keyed R K]

/-- An invariant of the committed rows, the effect a commit may have when it holds some locks, the
order in which committed states follow each other, and the identifiers a row makes known. -/
structure Protocol (R : Type) {K : Type} [Keyed R K] where
  inv : Table R → Prop
  effect : List K → Table R → Table R → Prop
  evolves : Table R → Table R → Prop
  names : R → List ℕ
  evolves_refl : ∀ c, evolves c c
  evolves_trans : ∀ {c d e}, evolves c d → evolves d e → evolves c e
  effect_evolves : ∀ {ks c d}, inv c → inv d → effect ks c d → evolves c d

namespace Protocol

/-- What a session may assume while others run: `c` are the committed rows when it last looked. -/
structure Rely (P : Protocol R) (l : Local R K) (c c' : Table R) : Prop where
  inv : P.inv c'
  evolves : P.evolves c c'
  same : c.SameAt l.locks c'
  unused : ∀ n ∈ l.ids, ∀ r ∈ c'.rows, n ∉ P.names r

/-- What a session owes at its commit. -/
structure CommitOk (P : Protocol R) (l : Local R K) (c : Table R) : Prop where
  inv : P.inv (l.view c)
  effect : P.effect l.locks c (l.view c)
  names : ∀ r ∈ (l.view c).rows, ∀ n ∈ P.names r, n ∈ l.ids ∨ ∃ s ∈ c.rows, n ∈ P.names s

variable {P : Protocol R} {l l' : Local R K} {c c' c'' : Table R}

omit [DecidableEq K] in
theorem Rely.trans (h₁ : P.Rely l c c') (h₂ : P.Rely l c' c'') : P.Rely l c c'' :=
  ⟨h₂.inv, P.evolves_trans h₁.evolves h₂.evolves, h₁.same.trans h₂.same, h₂.unused⟩

omit [DecidableEq K] in
theorem Rely.refl (hi : P.inv c) (hu : ∀ n ∈ l.ids, ∀ r ∈ c.rows, n ∉ P.names r) : P.Rely l c c :=
  ⟨hi, P.evolves_refl c, .refl _ _, hu⟩

omit [DecidableEq K] in
/-- After a step of the environment the session can look again. -/
theorem Rely.again (h : P.Rely l c c') : P.Rely l c' c' := .refl h.inv h.unused

omit [DecidableEq K] in
theorem Rely.mono (h : P.Rely l c c') (hl : ∀ k ∈ l'.locks, k ∈ l.locks)
    (hn : ∀ n ∈ l'.ids, n ∈ l.ids) : P.Rely l' c c' :=
  ⟨h.inv, h.evolves, h.same.mono hl, fun n hn' => h.unused n (hn n hn')⟩

omit [DecidableEq K] in
theorem Rely.clear (h : P.Rely l c c') : P.Rely l.clear c c' :=
  h.mono (fun _ hk => nomatch hk) (fun _ hn => nomatch hn)

/-- A locking statement that keeps to the protocol, with the keys `ks` still to visit and the rows
`rs` locked. -/
def scanSafe (P : Protocol R) (p : R → Bool) (f : (r : R) → Effect r)
    (post : List R → Local R K → Table R → Prop) :
    List K → List R → Local R K → Table R → Prop
  | [], rs, l, c => ∀ c', P.Rely l c c' → post rs l c'
  | x :: ks, rs, l, c => ∀ c', P.Rely l c c' →
    match (l.view c').lookup x with
    | some r =>
      if p r then scanSafe P p f post ks (rs ++ [r]) (l.lock r (f r)) c'
      else scanSafe P p f post ks rs l c'
    | none => scanSafe P p f post ks rs l c'

/-- A program that keeps to the protocol: at each statement others may have changed the committed
rows as the session may assume, and each commit does what the session owes. -/
def safe (P : Protocol R) (post : Except E α → Local R K → Table R → Prop) :
    Prog R A E α → Local R K → Table R → Prop
  | .ret a, l, c => ∀ c', P.Rely l c c' → post (.ok a) l c'
  | .raise e, l, c => ∀ c', P.Rely l c c' → post (.error e) l c'
  | .select p k, l, c => ∀ c', P.Rely l c c' →
    P.safe post (k ((l.view c').rows.filter p)) l c'
  | .modify p f k, l, c => ∀ c', P.Rely l c c' →
    P.scanSafe p f (fun rs l c => P.safe post (k rs) l c)
      (((l.view c').rows.filter p).map key) [] l c'
  | .insert clash r k, l, c => ∀ c', P.Rely l c c' →
    if (l.view c').clashes clash r then P.safe post (k false) l c'
    else P.safe post (k true) (l.insert r) c'
  | .fresh k, l, c => ∀ c', P.Rely l c c' → ∀ n, n ∉ l.drawn →
    (∀ r ∈ c'.rows, n ∉ P.names r) → P.safe post (k n) (l.draw n) c'
  | .ask _ k, l, c => ∀ c', P.Rely l c c' → ∀ a, P.safe post (k a) l c'
  | .commit k, l, c => ∀ c', P.Rely l c c' →
    P.CommitOk l c' ∧ P.safe post k l.clear (l.view c')
  | .rollback k, l, c => ∀ c', P.Rely l c c' → P.safe post k l.clear c'

section Rules

variable {post : Except E α → Local R K → Table R → Prop}

theorem scanSafe_rely {p : R → Bool} {f : (r : R) → Effect r}
    {φ : List R → Local R K → Table R → Prop} {ks : List K} {rs : List R}
    (h : P.scanSafe p f φ ks rs l c) (hr : P.Rely l c c') : P.scanSafe p f φ ks rs l c' := by
  cases ks with
  | nil => exact fun d hd => h d (hr.trans hd)
  | cons x ks => exact fun d hd => h d (hr.trans hd)

/-- Keeping to the protocol is stable under what others do. -/
theorem safe_rely {p : Prog R A E α} (h : P.safe post p l c) (hr : P.Rely l c c') :
    P.safe post p l c' := by
  cases p <;> exact fun d hd => h d (hr.trans hd)

theorem scanSafe_mono {p : R → Bool} {f : (r : R) → Effect r}
    {φ ψ : List R → Local R K → Table R → Prop} (hφ : ∀ rs l c, φ rs l c → ψ rs l c) :
    ∀ (ks : List K) {rs : List R} {l : Local R K} {c : Table R},
      P.scanSafe p f φ ks rs l c → P.scanSafe p f ψ ks rs l c
  | [], _, _, _, h => fun c' hc => hφ _ _ _ (h c' hc)
  | x :: ks, _, _, _, h => fun c' hc => by
    have h' := h c' hc
    split
    · next r hx =>
      simp only [hx] at h'
      split
      · next hp => exact scanSafe_mono hφ ks (by simpa [hp] using h')
      · next hp => exact scanSafe_mono hφ ks (by simpa [hp] using h')
    · next hx =>
      simp only [hx] at h'
      exact scanSafe_mono hφ ks h'

/-- To keep to the protocol from `c` it is enough to do so from every state others leave. -/
theorem safe_of_rely {p : Prog R A E α} (h : ∀ c', P.Rely l c c' → P.safe post p l c') :
    P.safe post p l c := by
  cases p <;> exact fun d hd => h d hd d hd.again

theorem safe_mono {post' : Except E α → Local R K → Table R → Prop}
    (hpost : ∀ r l c, post r l c → post' r l c) {p : Prog R A E α} {l : Local R K} {c : Table R}
    (h : P.safe post p l c) : P.safe post' p l c := by
  induction p generalizing l c with
  | ret a | raise e => exact fun c' hc => hpost _ _ _ (h c' hc)
  | select p k ih => exact fun c' hc => ih _ (h c' hc)
  | modify p f k ih => exact fun c' hc => scanSafe_mono (fun rs _ _ h => ih rs h) _ (h c' hc)
  | insert clash r k ih =>
    intro c' hc
    have h := h c' hc
    split at h
    · next hx => exact (if_pos hx).mpr (ih false h)
    · next hx => exact (if_neg hx).mpr (ih true h)
  | fresh k ih => exact fun c' hc n hn hu => ih n (h c' hc n hn hu)
  | ask q k ih => exact fun c' hc a => ih a (h c' hc a)
  | commit k ih => exact fun c' hc => ⟨(h c' hc).1, ih (h c' hc).2⟩
  | rollback k ih => exact fun c' hc => ih (h c' hc)

/-- Sequencing: what the first part leaves is what the second part starts from. -/
theorem safe_bind {p : Prog R A E α} {g : α → Prog R A E β}
    {post : Except E β → Local R K → Table R → Prop}
    (mid : Except E α → Local R K → Table R → Prop)
    (hok : ∀ a l c, (∀ c', P.Rely l c c' → mid (.ok a) l c') → P.safe post (g a) l c)
    (herr : ∀ e l c, mid (.error e) l c → post (.error e) l c)
    {l : Local R K} {c : Table R} (hp : P.safe mid p l c) : P.safe post (p.bind g) l c := by
  induction p generalizing l c with
  | ret a => exact hok a l c hp
  | raise e => exact fun c' hc => herr e l c' (hp c' hc)
  | select p k ih => exact fun c' hc => ih _ (hp c' hc)
  | modify p f k ih =>
    exact fun c' hc => scanSafe_mono (fun rs _ _ h => ih rs h) _ (hp c' hc)
  | insert clash r k ih =>
    intro c' hc
    have h := hp c' hc
    split at h
    · next hx => exact (if_pos hx).mpr (ih false h)
    · next hx => exact (if_neg hx).mpr (ih true h)
  | fresh k ih => exact fun c' hc n hn hu => ih n (hp c' hc n hn hu)
  | ask q k ih => exact fun c' hc a => ih a (hp c' hc a)
  | commit k ih => exact fun c' hc => ⟨(hp c' hc).1, ih (hp c' hc).2⟩
  | rollback k ih => exact fun c' hc => ih (hp c' hc)

/-- Handlers: what the body leaves when it raises is what the handler starts from. -/
theorem safe_tryCatch {p : Prog R A E α} {h : E → Prog R A E α}
    (mid : Except E α → Local R K → Table R → Prop)
    (hok : ∀ a l c, mid (.ok a) l c → post (.ok a) l c)
    (herr : ∀ e l c, (∀ c', P.Rely l c c' → mid (.error e) l c') → P.safe post (h e) l c)
    {l : Local R K} {c : Table R} (hp : P.safe mid p l c) : P.safe post (p.tryCatch h) l c := by
  induction p generalizing l c with
  | ret a => exact fun c' hc => hok a l c' (hp c' hc)
  | raise e => exact herr e l c hp
  | select p k ih => exact fun c' hc => ih _ (hp c' hc)
  | modify p f k ih =>
    exact fun c' hc => scanSafe_mono (fun rs _ _ h => ih rs h) _ (hp c' hc)
  | insert clash r k ih =>
    intro c' hc
    have h := hp c' hc
    split at h
    · next hx => exact (if_pos hx).mpr (ih false h)
    · next hx => exact (if_neg hx).mpr (ih true h)
  | fresh k ih => exact fun c' hc n hn hu => ih n (hp c' hc n hn hu)
  | ask q k ih => exact fun c' hc a => ih a (hp c' hc a)
  | commit k ih => exact fun c' hc => ⟨(hp c' hc).1, ih (hp c' hc).2⟩
  | rollback k ih => exact fun c' hc => ih (hp c' hc)

/-- A unit of work keeps to the protocol when its body ends in a state it may commit. -/
theorem safe_unitOfWork {p : Prog R A E α} (mid : Except E α → Local R K → Table R → Prop)
    (hok : ∀ a l c, mid (.ok a) l c → P.CommitOk l c ∧
      ∀ c', P.Rely l.clear (l.view c) c' → post (.ok a) l.clear c')
    (herr : ∀ e (l : Local R K) (c : Table R), P.Rely l.clear c c → post (.error e) l.clear c)
    {l : Local R K} {c : Table R} (hp : P.safe mid p l c) :
    P.safe post (Prog.unitOfWork p) l c := by
  rw [Prog.unitOfWork]
  refine safe_tryCatch (fun r l c => ∀ a, r = .ok a → post (.ok a) l c)
    (fun a _ _ h => h a rfl) (fun e l c _ => ?_)
    (safe_bind mid (fun a l c ha => ?_) (fun e _ _ _ a h => by cases h) hp)
  · exact fun c' _ d hd => herr e l d hd.again
  · intro c' hc
    obtain ⟨hcommit, hpost⟩ := hok a l c' (ha c' hc)
    exact ⟨hcommit, fun d hd b hb => by cases hb; exact hpost d hd⟩

/-- A property of a session that others keep, and that the statements `φ` keep. -/
structure Invariant (P : Protocol R) (φ : Stmt R Q → Prop) (J : Local R K → Table R → Prop) :
    Prop where
  rely : ∀ {l c c'}, J l c → P.Rely l c c' → J l c'
  lock : ∀ {l c p f r}, φ (.modify p f) → J l c → r ∈ (l.view c).rows → p r = true →
    J (l.lock r (f r)) c
  insert : ∀ {l c r}, φ (.insert r) → J l c → (∀ x ∈ (l.view c).rows, key x ≠ key r) →
    J (l.insert r) c
  draw : ∀ {l c n}, J l c → n ∉ l.drawn → (∀ r ∈ c.rows, n ∉ P.names r) → J (l.draw n) c
  commit : ∀ {l c}, φ .commit → J l c → P.Rely l c c → P.CommitOk l c ∧ J l.clear (l.view c)
  rollback : ∀ {l c}, φ .rollback → J l c → J l.clear c

theorem scanSafe_of_invariant {φ : Stmt R Q → Prop} {J : Local R K → Table R → Prop}
    (hJ : Invariant P φ J) {p : R → Bool} {f : (r : R) → Effect r} (hφ : φ (.modify p f)) :
    ∀ (ks : List K) {rs : List R} {l : Local R K} {c : Table R}, J l c → (∀ r ∈ rs, p r = true) →
      P.scanSafe p f (fun rs l c => J l c ∧ ∀ r ∈ rs, p r = true) ks rs l c
  | [], _, _, _, h, hrs => fun _ hc => ⟨hJ.rely h hc, hrs⟩
  | x :: ks, rs, l, _, h, hrs => fun c' hc => by
    have h' := hJ.rely h hc
    split
    · next r hr =>
      split
      · next hp =>
        refine scanSafe_of_invariant hJ hφ ks
          (hJ.lock hφ h' (Table.lookup_eq_some.mp hr).1 hp) fun s hs => ?_
        rcases List.mem_append.mp hs with hs | hs
        · exact hrs s hs
        · exact List.mem_singleton.mp hs ▸ hp
      · exact scanSafe_of_invariant hJ hφ ks h' hrs
    · exact scanSafe_of_invariant hJ hφ ks h' hrs

/-- **A program keeps what all its statements keep.** -/
theorem safe_of_only {φ : Stmt R Q → Prop} {J : Local R K → Table R → Prop}
    (hJ : Invariant P φ J) {S : α → Prop} {p : Prog R A E α} (hp : p.Only φ S)
    {l : Local R K} {c : Table R} (h : J l c) :
    P.safe (fun r l c => J l c ∧ ∀ a, r = .ok a → S a) p l c := by
  induction p generalizing l c with
  | ret a => exact fun c' hc => ⟨hJ.rely h hc, fun b hb => by cases hb; exact hp⟩
  | raise e => exact fun c' hc => ⟨hJ.rely h hc, fun b hb => nomatch hb⟩
  | select p k ih =>
    exact fun c' hc => ih _ (hp.2 _ fun r hr => (List.mem_filter.mp hr).2) (hJ.rely h hc)
  | modify p f k ih =>
    exact fun c' hc => scanSafe_mono (fun rs _ _ hrs => ih rs (hp.2 rs hrs.2) hrs.1) _
      (scanSafe_of_invariant hJ hp.1 _ (hJ.rely h hc) fun _ hr => nomatch hr)
  | insert clash r k ih =>
    intro c' hc
    have h' := hJ.rely h hc
    split
    · exact ih false (hp.2 false) h'
    · next hx =>
      refine ih true (hp.2 true) (hJ.insert hp.1 h' fun x hxm hk => hx ?_)
      exact List.any_eq_true.mpr ⟨x, hxm, by simp [hk]⟩
  | fresh k ih => exact fun c' hc n hn hu => ih n (hp n) (hJ.draw (hJ.rely h hc) hn hu)
  | ask q k ih => exact fun c' hc a => ih a (hp.2 a) (hJ.rely h hc)
  | commit k ih =>
    intro c' hc
    obtain ⟨hcommit, h'⟩ := hJ.commit hp.1 (hJ.rely h hc) hc.again
    exact ⟨hcommit, ih hp.2 h'⟩
  | rollback k ih => exact fun c' hc => ih hp.2 (hJ.rollback hp.1 (hJ.rely h hc))

/-! ### Locking statements -/

/-- The rows `rs` satisfy `p`, are current, and are locked by the session, which has done nothing
else since it was `l₀` over `c₀`. -/
structure Locked (P : Protocol R) (p : R → Bool) (l₀ : Local R K) (c₀ : Table R) (rs : List R)
    (l : Local R K) (c : Table R) : Prop where
  rely : P.Rely l₀ c₀ c
  locks : ∃ ks, l = { l₀ with locks := ks ++ l₀.locks }
  rows : ∀ r ∈ rs, p r = true ∧ r ∈ (l.view c).rows ∧ key r ∈ l.locks

theorem Locked.mono {p : R → Bool} {l₀ : Local R K} {c₀ : Table R} {rs : List R}
    (h : Locked P p l₀ c₀ rs l c) (hc : P.Rely l c c') : Locked P p l₀ c₀ rs l c' := by
  obtain ⟨ks, rfl⟩ := h.locks
  have hc₀ : P.Rely l₀ c c' := hc.mono (fun k hk => List.mem_append_right _ hk) fun _ hn => hn
  exact ⟨h.rely.trans hc₀, h.locks, fun r hr =>
    ⟨(h.rows r hr).1, (hc.same.replay _ r (h.rows r hr).2.2).mpr (h.rows r hr).2.1,
      (h.rows r hr).2.2⟩⟩

theorem Locked.lock {p : R → Bool} {l₀ : Local R K} {c₀ : Table R} {rs : List R} {r : R}
    (h : Locked P p l₀ c₀ rs l c) (hr : r ∈ (l.view c).rows) (hp : p r = true) :
    Locked P p l₀ c₀ (rs ++ [r]) (l.lock r .keep) c := by
  have hview : (l.lock r .keep).view c = l.view c := by
    simp [Local.view, Local.lock, Effect.log]
  obtain ⟨ks, hks⟩ := h.locks
  refine ⟨h.rely, ⟨key r :: ks, by simp [hks, Local.lock, Effect.log]⟩, fun s hs => ?_⟩
  rw [hview]
  rcases List.mem_append.mp hs with hs | hs
  · exact ⟨(h.rows s hs).1, (h.rows s hs).2.1, List.mem_cons_of_mem _ (h.rows s hs).2.2⟩
  · cases List.mem_singleton.mp hs
    exact ⟨hp, hr, List.mem_cons_self⟩

/-- **`SELECT … FOR UPDATE`** returns rows that satisfy its condition, are current and locked. -/
theorem scanSafe_keep {p : R → Bool} {l₀ : Local R K} {c₀ : Table R} :
    ∀ (ks : List K) {rs : List R} {l : Local R K} {c : Table R}, Locked P p l₀ c₀ rs l c →
      P.scanSafe p (fun _ => .keep) (Locked P p l₀ c₀) ks rs l c
  | [], _, _, _, h => fun _ hc => h.mono hc
  | x :: ks, _, _, _, h => fun c' hc => by
    split
    · next r hr =>
      split
      · next hp => exact scanSafe_keep ks ((h.mono hc).lock (Table.lookup_eq_some.mp hr).1 hp)
      · exact scanSafe_keep ks (h.mono hc)
    · exact scanSafe_keep ks (h.mono hc)

/-- A locking statement whose condition only the locked row `r` satisfies, locks and changes it. -/
theorem safe_modify_locked {p : R → Bool} {f : (r : R) → Effect r} {r : R}
    {k : List R → Prog R A E α} (hr : r ∈ (l.view c).rows) (hk : key r ∈ l.locks)
    (hp : p r = true) (honly : ∀ s, p s = true → key s = key r)
    (hnext : ∀ c', P.Rely l c c' → P.safe post (k [r]) (l.lock r (f r)) c') :
    P.safe post (.modify p f k) l c := by
  have hview : ∀ {c'}, P.Rely l c c' → r ∈ (l.view c').rows := fun hc =>
    (hc.same.replay l.log r hk).mpr hr
  intro c' hc
  rw [Table.filter_eq_singleton (hview hc) hp fun s _ hs => honly s hs]
  intro c'' hc'
  rw [Table.lookup_eq_some.mpr ⟨hview (hc.trans hc'), rfl⟩]
  simp only [hp, if_true]
  exact fun d hd => safe_rely (hnext c'' (hc.trans hc')) hd

end Rules

end Protocol

end Txn
