import DevOpsAssistant.Txn.Soundness

/-!
# A session that runs alone keeps to the protocol

What `Protocol.safe` says of every interleaving it says in particular of the run in which no other
session takes a turn, which is `Prog.exec`.

* `Alone`: an open session and the part of it the protocol speaks about.
* `scanSafe_exec`: a locking statement that no one delays.
* **`safe_exec`**: a program that keeps to the protocol ends as it should.
* `Serial`, **`Serial.serve`**, **`Serial.serveAll`**: requests served one after another.
-/

namespace Txn

variable {R K Q W I : Type} {A : Q → Type} {E α : Type} [DecidableEq K] [Keyed R K]

namespace Protocol

/-- The session `s` is open alone; `l` is what it holds. -/
structure Alone (P : Protocol R) (s : Session R W) (l : Local R K) : Prop where
  log : s.log = l.log
  inv : P.inv s.committed
  named : ∀ r ∈ s.committed.rows, ∀ n ∈ P.names r, n < s.nextId
  unused : ∀ n ∈ l.ids, ∀ r ∈ s.committed.rows, n ∉ P.names r
  drawn : ∀ n ∈ l.drawn, n < s.nextId
  ids : ∀ n ∈ l.ids, n ∈ l.drawn

variable {P : Protocol R} {s : Session R W} {l : Local R K}

omit [DecidableEq K] in
theorem Alone.rely (h : Alone P s l) : P.Rely l s.committed s.committed := .refl h.inv h.unused

theorem Alone.view (h : Alone P s l) : s.view = l.view s.committed := by
  rw [Session.view, h.log, Local.view]

/-- The session after it has locked the rows `rs` one after another. -/
def lockAll (f : (r : R) → Effect r) (l : Local R K) (rs : List R) : Local R K :=
  rs.foldl (fun l r => l.lock r (f r)) l

omit [DecidableEq K] in
theorem lockAll_log (f : (r : R) → Effect r) : ∀ (rs : List R) (l : Local R K),
    (lockAll f l rs).log = l.log ++ writesOf f rs ∧ (lockAll f l rs).ids = l.ids ∧
      (lockAll f l rs).drawn = l.drawn
  | [], l => ⟨(List.append_nil _).symm, rfl, rfl⟩
  | r :: rs, l => by
    obtain ⟨hlog, hids, hdrawn⟩ := lockAll_log f rs (l.lock r (f r))
    refine ⟨hlog.trans ?_, hids, hdrawn⟩
    simp [Local.lock, writesOf]

/-- **A locking statement that no one delays** locks the rows it has seen. -/
theorem scanSafe_exec {p : R → Bool} {f : (r : R) → Effect r} {c : Table R}
    {φ : List R → Local R K → Table R → Prop} : ∀ (rs : List R) {acc : List R} {l : Local R K},
      (rs.map key).Nodup → (∀ r ∈ rs, r ∈ (l.view c).rows ∧ p r = true) → P.Rely l c c →
        P.scanSafe p f φ (rs.map key) acc l c → φ (acc ++ rs) (lockAll f l rs) c
  | [], acc, l, _, _, hr, h => by simpa [lockAll] using h c hr
  | r :: rs, acc, l, hnd, hmem, hr, h => by
    obtain ⟨hnotin, hnd⟩ := List.nodup_cons.mp hnd
    obtain ⟨hrm, hpr⟩ := hmem r List.mem_cons_self
    have h := h c hr
    rw [Table.lookup_eq_some.mpr ⟨hrm, rfl⟩] at h
    simp only [hpr, if_true] at h
    have hr' : P.Rely (l.lock r (f r)) c c := .refl hr.inv hr.unused
    have := scanSafe_exec rs hnd (fun s hs => ⟨?_, (hmem s (List.mem_cons_of_mem _ hs)).2⟩) hr' h
    · simpa [lockAll] using this
    -- the rows still to visit have other keys
    · rw [Local.view, Local.lock, Table.apply_append]
      refine (Table.mem_apply_of_key_notMem _ fun w hw hk => hnotin ?_).mpr
        (hmem s (List.mem_cons_of_mem _ hs)).1
      rw [← Effect.key_of_mem_log hw, hk]
      exact List.mem_map_of_mem hs

variable (respond : (q : Q) → W → A q × W)

/-- What a session that started as `s`, holding `l`, leaves as `s'`. -/
structure Ended (P : Protocol R) (s : Session R W) (l : Local R K) (s' : Session R W)
    (l' : Local R K) : Prop where
  alone : Alone P s' l'
  evolves : P.evolves s.committed s'.committed
  drawn : ∀ n ∈ l'.drawn, n ∈ l.drawn ∨ s.nextId ≤ n
  le : s.nextId ≤ s'.nextId

omit [DecidableEq K] in
theorem Ended.refl (h : Alone P s l) : Ended P s l s l :=
  ⟨h, P.evolves_refl _, fun _ hn => .inl hn, Nat.le_refl _⟩

omit [DecidableEq K] in
theorem Ended.trans {s₁ s₂ s₃ : Session R W} {l₁ l₂ l₃ : Local R K} (h₁ : Ended P s₁ l₁ s₂ l₂)
    (h₂ : Ended P s₂ l₂ s₃ l₃) : Ended P s₁ l₁ s₃ l₃ := by
  refine ⟨h₂.alone, P.evolves_trans h₁.evolves h₂.evolves, fun n hn => ?_, Nat.le_trans h₁.le h₂.le⟩
  rcases h₂.drawn n hn with hn | hn
  · exact h₁.drawn n hn
  · exact .inr (Nat.le_trans h₁.le hn)

/-- **A program that keeps to the protocol**, run alone, ends as it should. -/
theorem safe_exec {post : Except E α → Local R K → Table R → Prop} {p : Prog R A E α}
    {s : Session R W} {l : Local R K} (ha : Alone P s l) (h : P.safe post p l s.committed) :
    ∃ l', Ended P s l (p.exec respond s).2 l' ∧
      post (p.exec respond s).1 l' (p.exec respond s).2.committed := by
  induction p generalizing s l with
  | ret a | raise e => exact ⟨l, .refl ha, h _ ha.rely⟩
  | select p k ih =>
    have h := h _ ha.rely
    rw [← ha.view] at h
    exact ih _ ha h
  | modify p f k ih =>
    have h := h _ ha.rely
    have h := scanSafe_exec _ (List.Sublist.nodup (List.filter_sublist.map key) (l.view _).nodup)
      (fun r hr => List.mem_filter.mp hr) ha.rely h
    rw [← ha.view, List.nil_append] at h
    obtain ⟨hlog, hids, hdrawn⟩ := lockAll_log f (s.view.rows.filter p) l
    have ha' : Alone P (s.append (writesOf f (s.view.rows.filter p)))
        (lockAll f l (s.view.rows.filter p)) := by
      refine ⟨?_, ha.inv, ha.named, hids ▸ ha.unused, hdrawn ▸ ha.drawn, ?_⟩
      · rw [hlog, ← ha.log]
        rfl
      · rw [hids, hdrawn]
        exact ha.ids
    obtain ⟨l', hend, hpost⟩ := ih _ ha' h
    refine ⟨l', ⟨hend.alone, hend.evolves, fun n hn => ?_, hend.le⟩, hpost⟩
    exact (hend.drawn n hn).imp_left fun hn => hdrawn ▸ hn
  | insert clash r k ih =>
    have h := h _ ha.rely
    rw [← ha.view] at h
    simp only [Prog.exec]
    split at h
    · next hc =>
      rw [if_pos hc]
      exact ih false ha h
    · next hc =>
      rw [if_neg hc]
      have ha' : Alone P (s.append [.store r]) (l.insert r) :=
        ⟨congrArg (· ++ _) ha.log, ha.inv, ha.named, ha.unused, ha.drawn, ha.ids⟩
      obtain ⟨l', hend, hpost⟩ := ih true ha' h
      exact ⟨l', ⟨hend.alone, hend.evolves, hend.drawn, hend.le⟩, hpost⟩
  | fresh k ih =>
    have h := h _ ha.rely s.nextId (fun hn => Nat.lt_irrefl _ (ha.drawn _ hn))
      fun r hr hn => Nat.lt_irrefl _ (ha.named r hr _ hn)
    have ha' : Alone P { s with nextId := s.nextId + 1 } (l.draw s.nextId) := by
      refine ⟨ha.log, ha.inv, fun r hr n hn => Nat.lt_succ_of_lt (ha.named r hr n hn), ?_, ?_, ?_⟩
      · intro n hn r hr
        rcases List.mem_cons.mp hn with rfl | hn
        · exact fun hn => Nat.lt_irrefl _ (ha.named r hr _ hn)
        · exact ha.unused n hn r hr
      · intro n hn
        rcases List.mem_cons.mp hn with rfl | hn
        · exact Nat.lt_succ_self _
        · exact Nat.lt_succ_of_lt (ha.drawn n hn)
      · intro n hn
        rcases List.mem_cons.mp hn with rfl | hn
        · exact List.mem_cons_self
        · exact List.mem_cons_of_mem _ (ha.ids n hn)
    obtain ⟨l', hend, hpost⟩ := ih _ ha' h
    refine ⟨l', ⟨hend.alone, hend.evolves, fun n hn => ?_, Nat.le_trans (Nat.le_succ _) hend.le⟩, hpost⟩
    rcases hend.drawn n hn with hn | hn
    · rcases List.mem_cons.mp hn with rfl | hn
      · exact .inr (Nat.le_refl _)
      · exact .inl hn
    · exact .inr (Nat.le_trans (Nat.le_succ _) hn)
  | ask q k ih =>
    obtain ⟨l', hend, hpost⟩ := ih _ (s := { s with world := (respond q s.world).2 })
      ⟨ha.log, ha.inv, ha.named, ha.unused, ha.drawn, ha.ids⟩ (h _ ha.rely _)
    exact ⟨l', ⟨hend.alone, hend.evolves, hend.drawn, hend.le⟩, hpost⟩
  | commit k ih =>
    obtain ⟨hc, hk⟩ := h _ ha.rely
    have ha' : Alone P s.commit l.clear := by
      refine ⟨rfl, ?_, fun r hr n hn => ?_, fun _ hn => (by cases hn), ha.drawn,
        fun _ hn => (by cases hn)⟩
      · rw [Session.committed_commit, ha.view]
        exact hc.inv
      · rw [Session.committed_commit, ha.view] at hr
        rcases hc.names r hr n hn with hn | ⟨t, ht, hn⟩
        · exact ha.drawn n (ha.ids n hn)
        · exact ha.named t ht n hn
    rw [← ha.view] at hk
    obtain ⟨l', hend, hpost⟩ := ih ha' hk
    refine ⟨l', ⟨hend.alone, P.evolves_trans ?_ hend.evolves, hend.drawn, hend.le⟩, hpost⟩
    rw [Session.committed_commit, ha.view]
    exact P.effect_evolves ha.inv hc.inv hc.effect
  | rollback k ih =>
    obtain ⟨l', hend, hpost⟩ := ih (s := s.rollback) (l := l.clear)
      ⟨rfl, ha.inv, ha.named, fun _ hn => (by cases hn), ha.drawn, fun _ hn => (by cases hn)⟩
      (h _ ha.rely)
    exact ⟨l', ⟨hend.alone, hend.evolves, hend.drawn, hend.le⟩, hpost⟩

/-! ## Serial runs -/

/-- The invariant of a store between requests. -/
structure Serial (P : Protocol R) (s : Store R W) : Prop where
  inv : P.inv s.committed
  named : ∀ r ∈ s.committed.rows, ∀ n ∈ P.names r, n < s.nextId

variable {Res : I → α → List ℕ → Table R → Prop} {handle : I → Prog R A E α} {s : Store R W}

omit [DecidableEq K] in
theorem Serial.alone (h : Serial P s) : Alone P s.session (.start : Local R K) :=
  ⟨rfl, h.inv, h.named, fun _ hn => (nomatch hn), fun _ hn => (nomatch hn), fun _ hn => nomatch hn⟩

/-- Interleaved runs may start where a serial run has ended. -/
theorem Serial.sound_open (h : Serial P s) : Sound P Res (s.open : Config R A E α I W) := by
  refine ⟨h.inv, h.named, ?_, ?_, ?_, ?_, ?_, ?_⟩ <;> simp [Store.open]

/-- The committed rows of an interleaved run are those of a serial one that could go on. -/
theorem Sound.serial {c : Config R A E α I W} (h : Sound P Res c) : Serial P c.toStore :=
  ⟨h.inv, h.named⟩

/-- **Serving a request** keeps the invariant, and what it returns is as it should be. -/
theorem Serial.serve (hk : Keeps P Res handle) (h : Serial P s) (i : I) :
    Serial P (s.serve respond handle i).2 ∧
      P.evolves s.committed (s.serve respond handle i).2.committed ∧
      ∀ a, (s.serve respond handle i).1 = .ok a → ∃ ns, (∀ n ∈ ns, s.nextId ≤ n) ∧
        Res i a ns (s.serve respond handle i).2.committed := by
  obtain ⟨l, hend, hpost⟩ := safe_exec respond (h.alone (W := W)) (hk i s.committed h.inv)
  refine ⟨⟨hend.alone.inv, hend.alone.named⟩, hend.evolves, fun a ha => ⟨l.drawn, fun n hn => ?_,
    hpost a ha _ hend.alone.rely.clear⟩⟩
  exact (hend.drawn n hn).resolve_left fun hn => nomatch hn

/-- **Serial runs** keep the invariant. -/
theorem Serial.serveAll (hk : Keeps P Res handle) (h : Serial P s) (is : List I) :
    Serial P (s.serveAll respond handle is) ∧
      P.evolves s.committed (s.serveAll respond handle is).committed := by
  refine Store.serveAll_induction (P := fun s' => Serial P s' ∧ P.evolves s.committed s'.committed)
    respond handle (fun s' i hs => ?_) ⟨h, P.evolves_refl _⟩ is
  obtain ⟨hserial, hev, -⟩ := hs.1.serve respond hk i
  exact ⟨hserial, P.evolves_trans hs.2 hev⟩

end Protocol

end Txn
