import DevOpsAssistant.Txn.RelyGuarantee

/-!
# Interleaved runs keep to the protocol

* `Protocol.Keeps`: every request keeps to the protocol.
* `Protocol.Sound`: the invariant of configurations, with the disjointness of locks and
  identifiers that the rely conditions rest on.
* **`Sound.step`**, **`Sound.reach`**: it holds along every interleaved run, and each step leaves
  the committed rows alone or has the effect of one session's commit.
-/

namespace Txn

variable {R K Q W I : Type} {A : Q → Type} {E α : Type} [DecidableEq K] [Keyed R K]

namespace Protocol

/-- What every session owes besides its commits: when it has returned `a`, having drawn the
identifiers `ns`, `Res a ns` holds of the committed rows from then on. -/
def ends (P : Protocol R) (Res : α → List ℕ → Table R → Prop) :
    Except E α → Local R K → Table R → Prop := fun r l c =>
  ∀ a, r = .ok a → ∀ c', P.Rely l.clear c c' → Res a l.drawn c'

/-- A unit of work ends as it should when its body ends in a state it may commit, with a result
that stays right as the committed rows evolve. -/
theorem safe_unitOfWork_ends {P : Protocol R} {Res : α → List ℕ → Table R → Prop}
    (hstable : ∀ {a ns c c'}, P.evolves c c' → Res a ns c → Res a ns c') {p : Prog R A E α}
    {l : Local R K} {c : Table R}
    (hp : P.safe (fun r l c => ∀ a, r = .ok a → P.CommitOk l c ∧ Res a l.drawn (l.view c)) p l c) :
    P.safe (P.ends Res) (Prog.unitOfWork p) l c := by
  refine safe_unitOfWork _ (fun a l c h => ?_) (fun _ _ _ _ _ ha => nomatch ha) hp
  obtain ⟨hcommit, hres⟩ := h a rfl
  refine ⟨hcommit, fun d hd b hb e he => ?_⟩
  cases hb
  exact hstable (P.evolves_trans hd.evolves he.evolves) hres

/-- A session in the middle of a run keeps to the protocol. -/
def txSafe (P : Protocol R) (Res : I → α → List ℕ → Table R → Prop) (tx : Tx R A E α I)
    (c : Table R) : Prop :=
  match tx.scan with
  | none => P.safe (P.ends (Res tx.req)) tx.prog tx.toLocal c
  | some (ks, rs) => ∃ p f k, tx.prog = .modify p f k ∧
    P.scanSafe p f (fun rs l c => P.safe (P.ends (Res tx.req)) (k rs) l c) ks rs tx.toLocal c

/-- Two sessions hold no lock and no identifier in common. -/
structure Apart (s t : Local R K) : Prop where
  locks : ∀ k ∈ s.locks, k ∉ t.locks
  drawn : ∀ n ∈ s.drawn, n ∉ t.drawn

/-- The invariant of interleaved runs of sessions that keep to the protocol. -/
structure Sound (P : Protocol R) (Res : I → α → List ℕ → Table R → Prop)
    (c : Config R A E α I W) : Prop where
  inv : P.inv c.committed
  named : ∀ r ∈ c.committed.rows, ∀ n ∈ P.names r, n < c.nextId
  unused : ∀ tx ∈ c.txs, ∀ n ∈ tx.ids, ∀ r ∈ c.committed.rows, n ∉ P.names r
  drawn : ∀ tx ∈ c.txs, ∀ n ∈ tx.drawn, n < c.nextId
  ids : ∀ tx ∈ c.txs, ∀ n ∈ tx.ids, n ∈ tx.drawn
  locked : ∀ tx ∈ c.txs, ∀ w ∈ tx.log, w.key ∈ tx.locks
  apart : ∀ (m n : ℕ) (s t : Tx R A E α I), m ≠ n → c.txs[m]? = some s → c.txs[n]? = some t →
    Apart s.toLocal t.toLocal
  safe : ∀ tx ∈ c.txs, P.txSafe Res tx c.committed

variable {P : Protocol R} {Res : I → α → List ℕ → Table R → Prop} {c c' : Config R A E α I W}
  {tx tx' : Tx R A E α I} {n : ℕ}

omit [DecidableEq K] [Keyed R K] in
theorem Apart.symm {s t : Local R K} (h : Apart s t) : Apart t s :=
  ⟨fun k ht hs => h.locks k hs ht, fun n ht hs => h.drawn n hs ht⟩

theorem txSafe_rely {t t' : Table R} (h : P.txSafe Res tx t) (hr : P.Rely tx.toLocal t t') :
    P.txSafe Res tx t' := by
  unfold txSafe at h ⊢
  split at h
  · exact safe_rely h hr
  · obtain ⟨p, f, k, hk, hs⟩ := h
    exact ⟨p, f, k, hk, scanSafe_rely hs hr⟩

/-! ## One session moves -/

omit [DecidableEq K] in
theorem mem_set_cases {tx₀ : Tx R A E α I} (h : tx₀ ∈ c.txs.set n tx') :
    tx₀ = tx' ∨ ∃ m, m ≠ n ∧ c.txs[m]? = some tx₀ := by
  obtain ⟨m, hm⟩ := List.mem_iff_getElem?.mp h
  rw [List.getElem?_set] at hm
  split at hm
  · split at hm
    · exact .inl (Option.some.inj hm).symm
    · cases hm
  · next hne => exact .inr ⟨m, fun h => hne h.symm, hm⟩

theorem not_locked_of_lockedFor {k : K} (h : c.lockedFor n k = false) {m : ℕ} (hm : m ≠ n)
    (htx : c.txs[m]? = some tx) : k ∉ tx.locks := by
  intro hk
  have : c.lockedFor n k = true := List.any_eq_true.mpr
    ⟨tx, List.mem_eraseIdx_iff_getElem?.mpr ⟨m, hm, htx⟩, by simpa using hk⟩
  simp [h] at this

/-- What a session may do between two commits: lock rows no one else has locked, draw new
identifiers, write rows it has locked. -/
structure Advances (P : Protocol R) (Res : I → α → List ℕ → Table R → Prop)
    (c : Config R A E α I W) (n : ℕ) (tx tx' : Tx R A E α I) (next : ℕ) : Prop where
  locks : ∀ k ∈ tx'.locks, k ∈ tx.locks ∨ c.lockedFor n k = false
  drawn : ∀ m ∈ tx'.drawn, m ∈ tx.drawn ∨ (c.nextId ≤ m ∧ m < next)
  ids : ∀ m ∈ tx'.ids, m ∈ tx'.drawn ∧ (m ∈ tx.ids ∨ c.nextId ≤ m)
  locked : ∀ w ∈ tx'.log, w.key ∈ tx'.locks
  le : c.nextId ≤ next
  safe : P.txSafe Res tx' c.committed

omit [DecidableEq K] in
theorem apart_set
    (h : ∀ (i j : ℕ) (s t : Tx R A E α I), i ≠ j → c.txs[i]? = some s → c.txs[j]? = some t →
      Apart s.toLocal t.toLocal)
    (hnew : ∀ (m : ℕ) (t : Tx R A E α I), m ≠ n → c.txs[m]? = some t → Apart tx'.toLocal t.toLocal)
    (i j : ℕ) (s t : Tx R A E α I) (hij : i ≠ j) (hs : (c.txs.set n tx')[i]? = some s)
    (ht : (c.txs.set n tx')[j]? = some t) : Apart s.toLocal t.toLocal := by
  rw [List.getElem?_set] at hs ht
  by_cases hi : n = i
  · have hj : n ≠ j := fun hj => hij (hi.symm.trans hj)
    rw [if_neg hj] at ht
    rw [if_pos hi] at hs
    split at hs
    · cases hs; exact hnew j t hj.symm ht
    · cases hs
  · rw [if_neg hi] at hs
    by_cases hj : n = j
    · rw [if_pos hj] at ht
      split at ht
      · cases ht; exact (hnew i s (Ne.symm hi) hs).symm
      · cases ht
    · rw [if_neg hj] at ht
      exact h i j s t hij hs ht

theorem Sound.advance (h : Sound P Res c) (hn : c.txs[n]? = some tx) (next : ℕ) (w : W)
    (ha : Advances P Res c n tx tx' next) :
    Sound P Res { c.put n tx' with nextId := next, world := w } := by
  have hmem : ∀ {m : ℕ} {t : Tx R A E α I}, c.txs[m]? = some t → t ∈ c.txs :=
    fun hm => List.mem_of_getElem? hm
  have hcases : ∀ {t : Tx R A E α I}, t ∈ c.txs.set n tx' → t = tx' ∨ t ∈ c.txs := fun ht =>
    (mem_set_cases ht).imp_right fun ⟨m, _, hm⟩ => hmem hm
  have hapart : ∀ (m : ℕ) (t : Tx R A E α I), m ≠ n → c.txs[m]? = some t →
      Apart tx'.toLocal t.toLocal := by
    intro m t hm ht
    have hold := h.apart n m tx t hm.symm hn ht
    refine ⟨fun k hk => ?_, fun i hi hit => ?_⟩
    · rcases ha.locks k hk with hk | hk
      · exact hold.locks k hk
      · exact not_locked_of_lockedFor hk hm ht
    · rcases ha.drawn i hi with hi | ⟨hi, -⟩
      · exact hold.drawn i hi hit
      · exact absurd (h.drawn t (hmem ht) i hit) (by omega)
  refine ⟨h.inv, fun r hr m hm => Nat.lt_of_lt_of_le (h.named r hr m hm) ha.le, ?_, ?_, ?_, ?_,
    apart_set h.apart hapart, ?_⟩
  · intro t ht m hm r hr
    rcases hcases ht with rfl | ht
    · rcases (ha.ids m hm).2 with hm' | hm'
      · exact h.unused tx (hmem hn) m hm' r hr
      · exact fun hmr => absurd (h.named r hr m hmr) (by omega)
    · exact h.unused t ht m hm r hr
  · intro t ht m hm
    rcases hcases ht with rfl | ht
    · rcases ha.drawn m hm with hm | ⟨-, hm⟩
      · exact Nat.lt_of_lt_of_le (h.drawn tx (hmem hn) m hm) ha.le
      · exact hm
    · exact Nat.lt_of_lt_of_le (h.drawn t ht m hm) ha.le
  · intro t ht m hm
    rcases hcases ht with rfl | ht
    · exact (ha.ids m hm).1
    · exact h.ids t ht m hm
  · intro t ht v hv
    rcases hcases ht with rfl | ht
    · exact ha.locked v hv
    · exact h.locked t ht v hv
  · intro t ht
    rcases hcases ht with rfl | ht
    · exact ha.safe
    · exact h.safe t ht

/-- The commit of one session is what every other session relies on. -/
theorem Sound.rely_commit (h : Sound P Res c) (hn : c.txs[n]? = some tx)
    (hc : CommitOk P tx.toLocal c.committed) {m : ℕ} {t : Tx R A E α I} (hm : m ≠ n)
    (ht : c.txs[m]? = some t) : P.Rely t.toLocal c.committed (tx.view c.committed) := by
  have hap := h.apart n m tx t hm.symm hn ht
  have htx := List.mem_of_getElem? hn
  have htm := List.mem_of_getElem? ht
  refine ⟨hc.inv, P.effect_evolves h.inv hc.inv hc.effect, ?_, fun i hi r hr hir => ?_⟩
  · exact Table.SameAt.apply fun w hw => hap.locks _ (h.locked tx htx w hw)
  · rcases hc.names r hr i hir with hi' | ⟨s, hs, his⟩
    · exact hap.drawn i (h.ids tx htx i hi') (h.ids t htm i hi)
    · exact h.unused t htm i hi s hs his

theorem Sound.commit (h : Sound P Res c) (hn : c.txs[n]? = some tx)
    (hc : CommitOk P tx.toLocal c.committed) {k : Prog R A E α} (hscan : tx.scan = none)
    (hk : P.safe (P.ends (Res tx.req)) k tx.clear (tx.view c.committed)) :
    Sound P Res { c.put n { tx with toLocal := tx.clear, prog := k } with
      committed := tx.view c.committed } := by
  have htx := List.mem_of_getElem? hn
  have hcases : ∀ {t tx' : Tx R A E α I}, t ∈ c.txs.set n tx' → t = tx' ∨
      ∃ m, m ≠ n ∧ c.txs[m]? = some t := fun ht => mem_set_cases ht
  have hrely : ∀ {m : ℕ} {t : Tx R A E α I}, m ≠ n → c.txs[m]? = some t →
      P.Rely t.toLocal c.committed (tx.view c.committed) := fun hm ht => h.rely_commit hn hc hm ht
  refine ⟨hc.inv, fun r hr i hi => ?_, ?_, ?_, ?_, ?_,
    apart_set h.apart fun m t hm ht => ⟨fun _ hk => (nomatch hk),
      (h.apart n m tx t hm.symm hn ht).drawn⟩, ?_⟩
  · rcases hc.names r hr i hi with hi' | ⟨s, hs, his⟩
    · exact h.drawn tx htx i (h.ids tx htx i hi')
    · exact h.named s hs i his
  · intro t ht i hi r hr
    rcases hcases ht with rfl | ⟨m, hm, ht⟩
    · cases hi
    · exact (hrely hm ht).unused i hi r hr
  · intro t ht i hi
    rcases hcases ht with rfl | ⟨m, hm, ht⟩
    · exact h.drawn tx htx i hi
    · exact h.drawn t (List.mem_of_getElem? ht) i hi
  · intro t ht i hi
    rcases hcases ht with rfl | ⟨m, hm, ht⟩
    · cases hi
    · exact h.ids t (List.mem_of_getElem? ht) i hi
  · intro t ht w hw
    rcases hcases ht with rfl | ⟨m, hm, ht⟩
    · cases hw
    · exact h.locked t (List.mem_of_getElem? ht) w hw
  · intro t ht
    rcases hcases ht with rfl | ⟨m, hm, ht⟩
    · simpa only [txSafe, hscan] using hk
    · exact txSafe_rely (h.safe t (List.mem_of_getElem? ht)) (hrely hm ht)

/-! ## Every step -/

/-- The step left the committed rows alone, or it was the commit of the `n`th session. -/
def Commits (P : Protocol R) (c c' : Config R A E α I W) : Prop :=
  c'.committed = c.committed ∨ ∃ (n : ℕ) (tx : Tx R A E α I), c.txs[n]? = some tx ∧
    (∃ k, tx.prog = .commit k) ∧ P.effect tx.locks c.committed c'.committed

/-- Every request keeps to the protocol, and `Res` holds of what it returns. -/
def Keeps (P : Protocol R) (Res : I → α → List ℕ → Table R → Prop) (handle : I → Prog R A E α) :
    Prop :=
  ∀ i c, P.inv c → P.safe (P.ends (Res i)) (handle i) .start c

theorem Sound.rely_self (h : Sound P Res c) (htx : tx ∈ c.txs) :
    P.Rely tx.toLocal c.committed c.committed := .refl h.inv (h.unused tx htx)

theorem Advances.of_same (h : Sound P Res c) (hn : c.txs[n]? = some tx)
    (hl : tx'.toLocal = tx.toLocal) (hs : P.txSafe Res tx' c.committed) :
    Advances P Res c n tx tx' c.nextId := by
  have htx := List.mem_of_getElem? hn
  refine ⟨fun k hk => .inl (hl ▸ hk), fun m hm => .inl (hl ▸ hm), fun m hm => ?_, fun w hw => ?_,
    Nat.le_refl _, hs⟩
  · rw [hl] at hm ⊢
    exact ⟨h.ids tx htx m hm, .inl hm⟩
  · rw [hl] at hw ⊢
    exact h.locked tx htx w hw

theorem Advances.of_clear (hl : tx'.toLocal = tx.clear) (hs : P.txSafe Res tx' c.committed) :
    Advances P Res c n tx tx' c.nextId := by
  refine ⟨fun k hk => ?_, fun m hm => .inl ?_, fun m hm => ?_, fun w hw => ?_, Nat.le_refl _, hs⟩
  · rw [hl] at hk; cases hk
  · rw [hl] at hm; exact hm
  · rw [hl] at hm; cases hm
  · rw [hl] at hw; cases hw

variable {respond : (q : Q) → W → A q × W} {handle : I → Prog R A E α}

theorem Sound.put (h : Sound P Res c) (hn : c.txs[n]? = some tx)
    (ha : Advances P Res c n tx tx' c.nextId) : Sound P Res (c.put n tx') :=
  h.advance hn c.nextId c.world ha

theorem Advances.of_lock (h : Sound P Res c) (hn : c.txs[n]? = some tx) {k : K}
    (ws : List (Write R K)) (hk : c.lockedFor n k = false) (hws : ∀ w ∈ ws, w.key = k)
    (hl : tx'.toLocal = { tx.toLocal with log := tx.log ++ ws, locks := k :: tx.locks })
    (hs : P.txSafe Res tx' c.committed) : Advances P Res c n tx tx' c.nextId := by
  have htx := List.mem_of_getElem? hn
  refine ⟨fun k' hk' => ?_, fun m hm => .inl ?_, fun m hm => ?_, fun w hw => ?_, Nat.le_refl _, hs⟩
  · rw [hl] at hk'
    rcases List.mem_cons.mp hk' with rfl | hk'
    · exact .inr hk
    · exact .inl hk'
  · rw [hl] at hm; exact hm
  · rw [hl] at hm ⊢
    exact ⟨h.ids tx htx m hm, .inl hm⟩
  · rw [hl] at hw ⊢
    rcases List.mem_append.mp hw with hw | hw
    · exact List.mem_cons_of_mem _ (h.locked tx htx w hw)
    · exact hws w hw ▸ List.mem_cons_self

/-- The turns of a locking statement: it takes its snapshot, visits a row, or ends. -/
theorem Sound.turnOf_modify (h : Sound P Res c) (hn : c.txs[n]? = some tx) {p : R → Bool}
    {f : (r : R) → Effect r} {k : List R → Prog R A E α} (hp : tx.prog = .modify p f k)
    (ht : c.turnOf respond n tx (.modify p f k) = some c') :
    Sound P Res c' ∧ Commits P c c' := by
  have htx := List.mem_of_getElem? hn
  have hsafe := h.safe tx htx
  have hself := h.rely_self htx
  have hput : ∀ {tx' : Tx R A E α I}, tx'.toLocal = tx.toLocal → P.txSafe Res tx' c.committed →
      Sound P Res (c.put n tx') ∧ Commits P c (c.put n tx') :=
    fun hl hs => ⟨h.put hn (.of_same h hn hl hs), .inl rfl⟩
  unfold txSafe at hsafe
  simp only [Config.turnOf] at ht
  cases hscan : tx.scan with
  | none =>
    rw [hscan] at hsafe ht
    simp only [hp] at hsafe
    cases ht
    exact hput rfl ⟨p, f, k, hp, hsafe c.committed hself⟩
  | some s =>
    obtain ⟨ks, rs⟩ := s
    simp only [hscan] at hsafe ht
    obtain ⟨p', f', k', hk, hs⟩ := hsafe
    cases hp.symm.trans hk
    cases ks with
    | nil =>
      cases ht
      exact hput rfl (hs c.committed hself)
    | cons x ks =>
      have hs := hs c.committed hself
      simp only at ht
      split at ht
      · cases ht
      next hfree =>
      rw [Bool.not_eq_true] at hfree
      split at ht
      · next r hr =>
        change (tx.toLocal.view c.committed).lookup x = some r at hr
        simp only [hr] at hs
        split at ht
        · next hpr =>
          cases ht
          rw [if_pos hpr] at hs
          have hx : key r = x := (Table.lookup_eq_some.mp hr).2
          exact ⟨h.put hn (.of_lock h hn _ (hx ▸ hfree) (fun w hw => Effect.key_of_mem_log hw) rfl
            ⟨p, f, k, hp, hs⟩), .inl rfl⟩
        · next hpr =>
          cases ht
          rw [if_neg hpr] at hs
          exact hput rfl ⟨p, f, k, hp, hs⟩
      · next hr =>
        change (tx.toLocal.view c.committed).lookup x = none at hr
        simp only [hr] at hs
        cases ht
        exact hput rfl ⟨p, f, k, hp, hs⟩

/-- **A turn keeps the invariant**, and changes the committed rows only by a commit. -/
theorem Sound.turnOf (h : Sound P Res c) (hn : c.txs[n]? = some tx) {p : Prog R A E α}
    (hp : tx.prog = p) (ht : c.turnOf respond n tx p = some c') :
    Sound P Res c' ∧ Commits P c c' := by
  have htx := List.mem_of_getElem? hn
  have hsafe := h.safe tx htx
  have hself := h.rely_self htx
  -- only a locking statement is visited in several turns
  have hwhole : (∀ q f k, p ≠ .modify q f k) → tx.scan = none ∧
      P.safe (P.ends (Res tx.req)) p tx.toLocal c.committed := by
    intro hne
    unfold txSafe at hsafe
    split at hsafe
    · next hs => exact ⟨hs, hp ▸ hsafe⟩
    · obtain ⟨q, f, k, hk, -⟩ := hsafe
      exact absurd (hp.symm.trans hk) (hne q f k)
  have hput : ∀ {tx' : Tx R A E α I}, tx'.toLocal = tx.toLocal → P.txSafe Res tx' c.committed →
      Sound P Res (c.put n tx') ∧ Commits P c (c.put n tx') :=
    fun hl hs => ⟨h.put hn (.of_same h hn hl hs), .inl rfl⟩
  have hclear : ∀ {tx' : Tx R A E α I}, tx'.toLocal = tx.clear → P.txSafe Res tx' c.committed →
      Sound P Res (c.put n tx') ∧ Commits P c (c.put n tx') :=
    fun hl hs => ⟨h.put hn (.of_clear hl hs), .inl rfl⟩
  cases p with
  | ret a =>
    obtain ⟨hscan, hs⟩ := hwhole (by simp)
    cases ht
    refine hclear rfl ?_
    simp only [txSafe, hscan, hp]
    exact fun d hd b hb e he => hs c.committed hself b hb e (hd.trans he)
  | raise e =>
    obtain ⟨hscan, hs⟩ := hwhole (by simp)
    cases ht
    refine hclear rfl ?_
    simp only [txSafe, hscan, hp]
    exact fun d _ b hb => by cases hb
  | select q k =>
    obtain ⟨hscan, hs⟩ := hwhole (by simp)
    cases ht
    refine hput rfl ?_
    simpa only [txSafe, hscan] using hs c.committed hself
  | modify q f k => exact h.turnOf_modify hn hp ht
  | insert clash r k =>
    obtain ⟨hscan, hs⟩ := hwhole (by simp)
    have hs := hs c.committed hself
    simp only [Config.turnOf] at ht
    split at ht
    · cases ht
    next hwait =>
    split at ht
    · next hclash =>
      cases ht
      refine hput rfl ?_
      rw [if_pos hclash] at hs
      simpa only [txSafe, hscan] using hs
    · next hclash =>
      cases ht
      rw [if_neg hclash] at hs
      rw [Config.insertWaits, Bool.or_eq_true, not_or, Bool.not_eq_true] at hwait
      refine ⟨h.put hn (.of_lock h hn [.store r] hwait.1 ?_ rfl ?_), .inl rfl⟩
      · simp [Write.key]
      · simpa only [txSafe, hscan] using hs
  | fresh k =>
    obtain ⟨hscan, hs⟩ := hwhole (by simp)
    cases ht
    have hfresh := hs c.committed hself c.nextId
      (fun hm => Nat.lt_irrefl _ (h.drawn tx htx _ hm))
      (fun r hr hm => Nat.lt_irrefl _ (h.named r hr _ hm))
    refine ⟨h.advance hn (c.nextId + 1) c.world
      ⟨fun k hk => .inl hk, fun m hm => ?_, fun m hm => ?_, fun w hw => h.locked tx htx w hw,
        Nat.le_succ _, by simpa only [txSafe, hscan] using hfresh⟩, .inl rfl⟩
    · rcases List.mem_cons.mp hm with rfl | hm
      · exact .inr ⟨Nat.le_refl _, Nat.lt_succ_self _⟩
      · exact .inl hm
    · rcases List.mem_cons.mp hm with rfl | hm
      · exact ⟨List.mem_cons_self, .inr (Nat.le_refl _)⟩
      · exact ⟨List.mem_cons_of_mem _ (h.ids tx htx m hm), .inl hm⟩
  | ask q k =>
    obtain ⟨hscan, hs⟩ := hwhole (by simp)
    cases ht
    refine ⟨h.advance hn c.nextId _ (.of_same h hn rfl ?_), .inl rfl⟩
    simpa only [txSafe, hscan] using hs c.committed hself _
  | commit k =>
    obtain ⟨hscan, hs⟩ := hwhole (by simp)
    obtain ⟨hc, hk⟩ := hs c.committed hself
    cases ht
    exact ⟨h.commit hn hc hscan hk, .inr ⟨n, tx, hn, ⟨k, hp⟩, hc.effect⟩⟩
  | rollback k =>
    obtain ⟨hscan, hs⟩ := hwhole (by simp)
    cases ht
    refine hclear rfl ?_
    simpa only [txSafe, hscan] using hs c.committed hself

theorem Sound.start (hk : Keeps P Res handle) (h : Sound P Res c) (i : I) :
    Sound P Res { c with
      txs := c.txs ++ [{ Local.start with req := i, prog := handle i, scan := none }] } := by
  have hcases : ∀ {t u : Tx R A E α I}, t ∈ c.txs ++ [u] → t ∈ c.txs ∨ t = u := fun ht => by
    simpa using ht
  refine ⟨h.inv, h.named, ?_, ?_, ?_, ?_, ?_, ?_⟩
  · intro t ht m hm
    rcases hcases ht with ht | rfl
    · exact h.unused t ht m hm
    · cases hm
  · intro t ht m hm
    rcases hcases ht with ht | rfl
    · exact h.drawn t ht m hm
    · cases hm
  · intro t ht m hm
    rcases hcases ht with ht | rfl
    · exact h.ids t ht m hm
    · cases hm
  · intro t ht w hw
    rcases hcases ht with ht | rfl
    · exact h.locked t ht w hw
    · cases hw
  · intro i j s t hij hs ht
    have hlast : ∀ {m : ℕ} {v u : Tx R A E α I}, (c.txs ++ [u])[m]? = some v →
        c.txs[m]? = some v ∨ (m = c.txs.length ∧ v = u) := by
      intro m v u hv
      rw [List.getElem?_append] at hv
      split at hv
      · exact .inl hv
      · next hlt =>
        obtain ⟨hm, rfl⟩ : m - c.txs.length = 0 ∧ u = v := by
          simpa [List.getElem?_singleton, and_comm] using hv
        exact .inr ⟨by omega, rfl⟩
    rcases hlast hs with hs | ⟨hi, rfl⟩
    · rcases hlast ht with ht | ⟨hj, rfl⟩
      · exact h.apart i j s t hij hs ht
      · exact ⟨fun _ _ hk => (nomatch hk), fun _ _ hn => (nomatch hn)⟩
    · exact ⟨fun _ hk => (nomatch hk), fun _ hn => (nomatch hn)⟩
  · intro t ht
    rcases hcases ht with ht | rfl
    · exact h.safe t ht
    · exact hk i c.committed h.inv

/-- **A step keeps the invariant**, and changes the committed rows only by a commit. -/
theorem Sound.step (hk : Keeps P Res handle) (h : Sound P Res c) (hs : Step respond handle c c') :
    Sound P Res c' ∧ Commits P c c' := by
  obtain ⟨m, hm⟩ := hs
  cases m with
  | turn n =>
    simp only [Config.step, Config.turn] at hm
    split at hm
    · next tx hn => exact h.turnOf hn rfl hm
    · cases hm
  | lost n e =>
    simp only [Config.step] at hm
    split at hm
    · next tx hn =>
      split at hm
      · cases hm
      · cases hm
        refine ⟨h.put hn (.of_clear rfl ?_), .inl rfl⟩
        exact fun d _ b hb => by cases hb
    · cases hm
  | start i =>
    cases hm
    exact ⟨h.start hk i, .inl rfl⟩

/-- **Every interleaved run keeps the invariant.** -/
theorem Sound.reach (hk : Keeps P Res handle) (h : Sound P Res c)
    (hr : Reach respond handle c c') : Sound P Res c' := by
  induction hr with
  | refl => exact h
  | tail _ hstep ih => exact (ih.step hk hstep).1

end Protocol

end Txn
