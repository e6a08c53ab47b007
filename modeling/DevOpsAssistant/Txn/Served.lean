import DevOpsAssistant.Txn.Alone
import DevOpsAssistant.Txn.Recorded

/-!
# Requests served one after another do what they owe

A run in which no other session takes a turn reads one database throughout, up to its first commit.

* `Discipline.Open`: a session that is open alone, with its history.
* `Progress`: what has come of a session so far, when it commits only once.
* **`ensures_exec`**: a program that does what it owes, run alone.
* `Discipline.Between`, **`Between.serve`**: a request leaves the committed rows alone, or makes one
  commit that does what it owes.
-/

namespace Txn

variable {R K Q W I : Type} {A : Q → Type} {E α : Type} [DecidableEq K] [Keyed R K]

namespace Discipline

/-- The session `s` is open alone; `l` is what it holds, `h` what it has been told. -/
structure Open (D : Discipline R) (s : Session R W) (h : History R A) (l : Local R K) : Prop where
  log : s.log = l.log
  inv : D.inv s.committed
  named : ∀ r ∈ s.committed.rows, ∀ n ∈ D.names r, n < s.nextId
  unused : ∀ n ∈ l.ids, ∀ r ∈ s.committed.rows, n ∉ D.names r
  drawn : ∀ n ∈ l.drawn, n < s.nextId
  ids : ∀ n ∈ l.ids, n ∈ l.drawn
  follows : ∀ p t, .read p t ∈ h → D.follows t s.committed
  older : ∀ p t, .read p t ∈ h → ∀ r ∈ t.rows, ∀ n ∈ D.names r, n < s.nextId ∧ n ∉ l.ids

variable {D : Discipline R} {s s₀ : Session R W} {h : History R A} {l : Local R K}

omit [DecidableEq K] in
theorem Open.env (o : Open D s h l) : D.Env h l s.committed s.committed :=
  ⟨o.inv, o.follows, .refl _ _, o.unused, fun k _ => D.guards_refl k _⟩

theorem Open.view (o : Open D s h l) : s.view = l.view s.committed := by
  rw [Session.view, o.log, Local.view]

variable (respond : (q : Q) → W → A q × W) (ρ : W → W → Prop)

/-- The answers in `h` were given between the surroundings `v` and `w`. -/
def AnsweredBetween (v w : W) (h : History R A) : Prop :=
  ∀ q a, .answer q a ∈ h → ∃ u, ρ v u ∧ a = (respond q u).1 ∧ ρ (respond q u).2 w

/-- One commit from the committed rows of `s₀` to those of `s`, which does what is owed; all it had
read were the rows of `s₀`. -/
def CommitsOnce (D : Discipline R) (owes : History R A → Local R K → Table R → Prop)
    (s₀ s : Session R W) : Prop :=
  ∃ (h : History R A) (l : Local R K), owes h l s₀.committed ∧
    s.committed = l.view s₀.committed ∧ ReadsNow h s₀.committed ∧
    AnsweredBetween respond ρ s₀.world s.world h ∧
    ∀ n ∈ l.ids, ∀ r ∈ s₀.committed.rows, n ∉ D.names r

/-- What has come of a session that was opened as `s₀` and commits at most once. -/
structure Progress (D : Discipline R) (owes : History R A → Local R K → Table R → Prop) (s₀ s : Session R W)
    (h : History R A) : Prop where
  rel : ρ s₀.world s.world
  answers : AnsweredBetween respond ρ s₀.world s.world h
  before : .commit ∉ h → s.committed = s₀.committed ∧ ReadsNow h s₀.committed
  after : .commit ∈ h → CommitsOnce respond ρ D owes s₀ s

variable {respond ρ} {owes : History R A → Local R K → Table R → Prop}

theorem Progress.tell (g : Progress respond ρ D owes s₀ s h) {e : Event R A} (hc : e ≠ .commit)
    (hread : ∀ p t, e = .read p t → t = s.committed)
    (hanswer : ∀ q a, e = .answer q a → ∃ u, ρ s₀.world u ∧ a = (respond q u).1 ∧
      ρ (respond q u).2 s.world) : Progress respond ρ D owes s₀ s (e :: h) := by
  refine ⟨g.rel, fun q a ha => ?_, fun hn => ?_, fun hm => ?_⟩
  · rcases List.mem_cons.mp ha with ha | ha
    · exact hanswer q a ha.symm
    · exact g.answers q a ha
  · rw [List.mem_cons, not_or] at hn
    obtain ⟨hs, hr⟩ := g.before hn.2
    refine ⟨hs, fun p t ht => ?_⟩
    rcases List.mem_cons.mp ht with ht | ht
    · exact (hread p t ht.symm).trans hs
    · exact hr p t ht
  · rcases List.mem_cons.mp hm with hm | hm
    · exact absurd hm.symm hc
    · exact g.after hm

/-- Between commits the surroundings change, and the committed rows do not. -/
theorem Progress.pass {s' : Session R W} (htrans : ∀ {u v w}, ρ u v → ρ v w → ρ u w)
    (g : Progress respond ρ D owes s₀ s h) (hs : s'.committed = s.committed)
    (hw : ρ s.world s'.world) : Progress respond ρ D owes s₀ s' h := by
  have hbetween : ∀ {h : History R A}, AnsweredBetween respond ρ s₀.world s.world h →
      AnsweredBetween respond ρ s₀.world s'.world h := fun ha q a hm => by
    obtain ⟨u, hu, rfl, hr⟩ := ha q a hm
    exact ⟨u, hu, rfl, htrans hr hw⟩
  refine ⟨htrans g.rel hw, hbetween g.answers, fun hn => ?_, fun hm => ?_⟩
  · exact ⟨hs.trans (g.before hn).1, (g.before hn).2⟩
  · obtain ⟨h', l', ho, hc, hr, ha, hu⟩ := g.after hm
    exact ⟨h', l', ho, hs.trans hc, hr, hbetween ha, hu⟩

/-- A locking statement that no one delays locks the rows it has seen. -/
theorem scanEnsures_exec {p : R → Bool} {f : (r : R) → Effect r} {c : Table R}
    {φ : List R → Local R K → Table R → Prop} : ∀ (rs : List R) {acc : List R} {l : Local R K},
      (rs.map key).Nodup → (∀ r ∈ rs, r ∈ (l.view c).rows ∧ p r = true) → D.Env h l c c →
        D.scanEnsures h p f φ (rs.map key) acc l c → φ (acc ++ rs) (Protocol.lockAll f l rs) c
  | [], acc, l, _, _, e, hs => by simpa [Protocol.lockAll] using hs c e
  | r :: rs, acc, l, hnd, hmem, e, hs => by
    obtain ⟨hnotin, hnd⟩ := List.nodup_cons.mp hnd
    obtain ⟨hrm, hpr⟩ := hmem r List.mem_cons_self
    have hs := hs c e
    rw [Table.lookup_eq_some.mpr ⟨hrm, rfl⟩] at hs
    simp only [hpr, if_true] at hs
    have e' : D.Env h (l.lock r (f r)) c c :=
      ⟨e.inv, e.follows, .refl _ _, e.unused, fun k _ => D.guards_refl k c⟩
    have := scanEnsures_exec rs hnd (fun s hs => ⟨?_, (hmem s (List.mem_cons_of_mem _ hs)).2⟩) e' hs
    · simpa [Protocol.lockAll] using this
    -- the rows still to visit have other keys
    · rw [Local.view, Local.lock, Table.apply_append]
      refine (Table.mem_apply_of_key_notMem _ fun w hw hk => hnotin ?_).mpr
        (hmem s (List.mem_cons_of_mem _ hs)).1
      rw [← Effect.key_of_mem_log hw, hk]
      exact List.mem_map_of_mem hs

/-- **A program that does what it owes**, run alone, ends as it should, and makes at most one commit,
which does what is owed. -/
theorem ensures_exec (hrefl : ∀ w, ρ w w) (htrans : ∀ {u v w}, ρ u v → ρ v w → ρ u w)
    (hanswer : ∀ q w, ρ w (respond q w).2)
    (hc : ∀ h l c, D.Env h l c c → owes h l c → D.CommitOk l c)
    (hfirst : ∀ h l c, owes h l c → .commit ∉ h)
    {post : Except E α → History R A → Local R K → Table R → Prop} {p : Prog R A E α}
    {s : Session R W} {h : History R A} {l : Local R K} (o : Open D s h l)
    (g : Progress respond ρ D owes s₀ s h) (hp : D.ensures owes post p h l s.committed) :
    ∃ h' l', Open D (p.exec respond s).2 h' l' ∧
      Progress respond ρ D owes s₀ (p.exec respond s).2 h' ∧
      post (p.exec respond s).1 h' l' (p.exec respond s).2.committed := by
  induction p generalizing s h l with
  | ret a | raise e => exact ⟨h, l, o, g, hp _ o.env⟩
  | select p k ih =>
    have hp := hp _ o.env
    rw [← o.view] at hp
    refine ih _ (h := .read p s.committed :: h) ⟨o.log, o.inv, o.named, o.unused, o.drawn, o.ids,
      ?_, ?_⟩ (g.tell (fun he => by cases he) (fun p t he => by cases he; rfl)
        fun q a he => by cases he) hp
    · intro q t ht
      rcases List.mem_cons.mp ht with ht | ht
      · cases ht; exact D.follows_refl o.inv
      · exact o.follows q t ht
    · intro q t ht r hr n hn
      rcases List.mem_cons.mp ht with ht | ht
      · cases ht; exact ⟨o.named r hr n hn, fun hl => o.unused n hl r hr hn⟩
      · exact o.older q t ht r hr n hn
  | modify p f k ih =>
    have hp := hp _ o.env
    have hp := scanEnsures_exec _ (List.Sublist.nodup (List.filter_sublist.map key) (l.view _).nodup)
      (fun r hr => List.mem_filter.mp hr) o.env hp
    rw [← o.view, List.nil_append] at hp
    obtain ⟨hlog, hids, hdrawn⟩ := Protocol.lockAll_log f (s.view.rows.filter p) l
    refine ih _ ⟨?_, o.inv, o.named, hids ▸ o.unused, hdrawn ▸ o.drawn, ?_, o.follows, ?_⟩
      (g.pass htrans rfl (hrefl _)) hp
    · rw [hlog, ← o.log]
      rfl
    · rw [hids, hdrawn]
      exact o.ids
    · rw [hids]
      exact o.older
  | insert clash r k ih =>
    have hp := hp _ o.env
    rw [← o.view] at hp
    simp only [Prog.exec]
    split at hp
    · next hx =>
      rw [if_pos hx]
      exact ih false o g hp
    · next hx =>
      rw [if_neg hx]
      exact ih true (l := l.insert r) ⟨congrArg (· ++ _) o.log, o.inv, o.named, o.unused, o.drawn,
        o.ids, o.follows, o.older⟩ (g.pass htrans rfl (hrefl _)) hp
  | fresh k ih =>
    have hp := hp _ o.env s.nextId (fun hn => Nat.lt_irrefl _ (o.drawn _ hn))
      fun r hr hn => Nat.lt_irrefl _ (o.named r hr _ hn)
    refine ih _ (s := { s with nextId := s.nextId + 1 }) (l := l.draw s.nextId) ⟨o.log, o.inv,
      fun r hr n hn => Nat.lt_succ_of_lt (o.named r hr n hn), ?_, ?_, ?_, o.follows, ?_⟩
      (g.pass htrans rfl (hrefl _)) hp
    · intro n hn r hr
      rcases List.mem_cons.mp hn with rfl | hn
      · exact fun hn => Nat.lt_irrefl _ (o.named r hr _ hn)
      · exact o.unused n hn r hr
    · intro n hn
      rcases List.mem_cons.mp hn with rfl | hn
      · exact Nat.lt_succ_self _
      · exact Nat.lt_succ_of_lt (o.drawn n hn)
    · intro n hn
      rcases List.mem_cons.mp hn with rfl | hn
      · exact List.mem_cons_self
      · exact List.mem_cons_of_mem _ (o.ids n hn)
    · intro p t ht r hr n hn
      obtain ⟨hlt, hl⟩ := o.older p t ht r hr n hn
      refine ⟨Nat.lt_succ_of_lt hlt, fun hm => ?_⟩
      rcases List.mem_cons.mp hm with rfl | hm
      · exact Nat.lt_irrefl _ hlt
      · exact hl hm
  | ask q k ih =>
    have hp := hp _ o.env (respond q s.world).1
    have g' : Progress respond ρ D owes s₀ { s with world := (respond q s.world).2 } h :=
      g.pass htrans rfl (hanswer q _)
    refine ih _ (s := { s with world := (respond q s.world).2 })
      (h := .answer q (respond q s.world).1 :: h)
      ⟨o.log, o.inv, o.named, o.unused, o.drawn, o.ids, fun p t ht => ?_, fun p t ht => ?_⟩
      (g'.tell (fun he => by cases he) (fun p t he => by cases he) fun q' a he => ?_) hp
    · exact o.follows p t (by simpa using ht)
    · exact o.older p t (by simpa using ht)
    · cases he
      exact ⟨s.world, g.rel, rfl, hrefl _⟩
  | commit k ih =>
    obtain ⟨howes, hk⟩ := hp _ o.env
    have hok := hc _ _ _ o.env howes
    have hcom : s.commit.committed = l.view s.committed := by
      rw [Session.committed_commit, o.view]
    rw [← hcom] at hk
    obtain ⟨hs, hr⟩ := g.before (hfirst _ _ _ howes)
    refine ih (s := s.commit) (h := .commit :: h) (l := l.clear) ⟨rfl, hcom ▸ hok.inv,
      fun r hr n hn => ?_, fun _ hn => (by cases hn), o.drawn, fun _ hn => (by cases hn),
      fun p t ht => ?_, fun p t ht r hr n hn => ?_⟩ ?_ hk
    · rw [hcom] at hr
      rcases hok.names r hr n hn with hn | ⟨t, ht, hn⟩
      · exact o.drawn n (o.ids n hn)
      · exact o.named t ht n hn
    · have ht : .read p t ∈ h := by simpa using ht
      rw [hcom]
      exact hok.follows t (o.follows p t ht) fun n hn r hr hnr => (o.older p t ht r hr n hnr).2 hn
    · exact ⟨(o.older p t (by simpa using ht) r hr n hn).1, fun hm => by cases hm⟩
    · refine ⟨g.rel, fun q a ha => g.answers q a (by simpa using ha), fun hn => ?_, fun _ => ?_⟩
      · exact absurd List.mem_cons_self hn
      · rw [hs] at howes
        exact ⟨h, l, howes, hcom.trans (congrArg _ hs), hr, g.answers, hs ▸ o.unused⟩
  | rollback k ih =>
    exact ih (s := s.rollback) (l := l.clear) ⟨rfl, o.inv, o.named, fun _ hn => (by cases hn),
      o.drawn, fun _ hn => (by cases hn), o.follows,
      fun p t ht r hr n hn => ⟨(o.older p t ht r hr n hn).1, fun hm => by cases hm⟩⟩
      (g.pass htrans rfl (hrefl _)) (hp _ o.env)

/-! ## Serial runs -/

/-- The invariant of a store between requests. -/
structure Between (D : Discipline R) (s : Store R W) : Prop where
  inv : D.inv s.committed
  named : ∀ r ∈ s.committed.rows, ∀ n ∈ D.names r, n < s.nextId

variable {s : Store R W} {owes : I → History R A → Local R K → Table R → Prop}
  {ends : I → Except E α → History R A → Prop} {handle : I → Prog R A E α}

omit [DecidableEq K] in
theorem Between.open (b : Between D s) : Open D s.session ([] : History R A) (.start : Local R K) :=
  ⟨rfl, b.inv, b.named, fun _ hn => (nomatch hn), fun _ hn => (nomatch hn), fun _ hn => (nomatch hn),
    fun _ _ ht => (nomatch ht), fun _ _ ht => nomatch ht⟩

/-- What a request leaves: the committed rows as they were, or after one commit that does what it
owes. -/
structure Leaves (respond : (q : Q) → W → A q × W) (ρ : W → W → Prop) (D : Discipline R)
    (owes : History R A → Local R K → Table R → Prop) (s s' : Store R W) : Prop where
  rel : ρ s.world s'.world
  commits : s'.committed = s.committed ∨ CommitsOnce respond ρ D owes s.session s'.session

/-- **Serving a request** keeps the invariant, and makes at most one commit, which does what the
request owes. -/
theorem Between.serve (ρ : W → W → Prop) (hrefl : ∀ w, ρ w w) (htrans : ∀ {u v w}, ρ u v → ρ v w → ρ u w)
    (hanswer : ∀ q w, ρ w (respond q w).2) (hk : D.Ensures owes ends handle)
    (hc : ∀ i h l c, D.Env h l c c → owes i h l c → D.CommitOk l c)
    (hfirst : ∀ i h l c, owes i h l c → .commit ∉ h) (b : Between D s) (i : I) :
    Between D (s.serve respond handle i).2 ∧
      Leaves respond ρ D (owes i) s (s.serve respond handle i).2 := by
  have hstart : Progress respond ρ D (owes i) s.session s.session [] :=
    ⟨hrefl _, fun _ _ ha => (nomatch ha), fun _ => ⟨rfl, fun _ _ ht => nomatch ht⟩,
      fun hm => nomatch hm⟩
  obtain ⟨h, l, o, g, -⟩ := ensures_exec hrefl htrans hanswer (hc i) (hfirst i) b.open hstart
    (hk i s.committed b.inv)
  refine ⟨⟨o.inv, o.named⟩, g.rel, ?_⟩
  by_cases hm : .commit ∈ h
  · exact .inr (g.after hm)
  · exact .inl (g.before hm).1

end Discipline

end Txn
