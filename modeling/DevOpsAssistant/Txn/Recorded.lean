import DevOpsAssistant.Txn.History
import DevOpsAssistant.Txn.Soundness
import Mathlib.Logic.Function.Basic

/-!
# Interleaved runs with the histories of their sessions

* `Prog.told`, `Config.record`: what a turn adds to the history of its session.
* `RecordedStep`, `RecordedReach`: runs whose steps satisfy a condition on the state before, the
  histories and the state after.
* `free`: every session locks the rows it writes, whatever it does; `Sound free` along every run.
* `Discipline.Kept`: the invariant of recorded runs of sessions that do what they owe.
* **`Kept.step`**: it holds along every run, and each step leaves the committed rows alone or is a
  commit that does what its session owes.
-/

namespace Txn

variable {R K Q W I : Type} {A : Q → Type} {E α : Type} [DecidableEq K] [Keyed R K]

/-- The histories of the sessions of a configuration. -/
abbrev Histories (R : Type) {K Q : Type} [Keyed R K] (A : Q → Type) := ℕ → History R A

/-- What a session is told by its next statement. -/
def Prog.told (respond : (q : Q) → W → A q × W) (s : Store R W) : Prog R A E α → History R A
  | .select p _ => [.read p s.committed]
  | .ask q _ => [.answer q (respond q s.world).1]
  | .commit _ => [.commit]
  | _ => []

namespace Config

variable (respond : (q : Q) → W → A q × W)

/-- What the `n`th session is told in its turn. -/
def told (c : Config R A E α I W) (n : ℕ) : History R A :=
  match c.txs[n]? with
  | some tx => tx.prog.told respond c.toStore
  | none => []

/-- The histories after a move. -/
def record (c : Config R A E α I W) (g : Histories R A) : Move E I → Histories R A
  | .turn n => Function.update g n (c.told respond n ++ g n)
  | _ => g

end Config

/-- A configuration with the histories of its sessions. -/
structure Recorded (R : Type) {Q : Type} (A : Q → Type) (E α I W : Type) {K : Type} [Keyed R K] where
  config : Config R A E α I W
  history : Histories R A

/-- No session has been told anything. -/
def Config.unrecorded (c : Config R A E α I W) : Recorded R A E α I W := ⟨c, fun _ => []⟩

section Runs

variable (respond : (q : Q) → W → A q × W) (handle : I → Prog R A E α)
  (G : Recorded R A E α I W → Recorded R A E α I W → Prop)

/-- One step of an interleaved run, recorded. -/
def RecordedStep (x y : Recorded R A E α I W) : Prop :=
  ∃ m, x.config.step respond handle m = some y.config ∧
    y.history = x.config.record respond x.history m

/-- The runs whose steps satisfy `G`. -/
def RecordedReach : Recorded R A E α I W → Recorded R A E α I W → Prop :=
  Relation.ReflTransGen fun x y => RecordedStep respond handle x y ∧ G x y

variable {respond handle G}

theorem RecordedStep.step {x y : Recorded R A E α I W} (h : RecordedStep respond handle x y) :
    Step respond handle x.config y.config := by
  obtain ⟨m, hm, -⟩ := h
  exact ⟨m, hm⟩

theorem RecordedReach.reach {x y : Recorded R A E α I W} (h : RecordedReach respond handle G x y) :
    Reach respond handle x.config y.config := by
  induction h with
  | refl => exact .refl
  | tail _ hs ih => exact ih.tail hs.1.step

omit [DecidableEq K] in
theorem Prog.told_cases (respond : (q : Q) → W → A q × W) (s : Store R W) (p : Prog R A E α) :
    p.told respond s = [] ∨ (∃ q, p.told respond s = [.read q s.committed]) ∨
      (∃ q a, p.told respond s = [.answer q a]) ∨ (p.told respond s = [.commit] ∧ ∃ k, p = .commit k) := by
  cases p with
  | select p k => exact .inr (.inl ⟨p, rfl⟩)
  | ask q k => exact .inr (.inr (.inl ⟨q, _, rfl⟩))
  | commit k => exact .inr (.inr (.inr ⟨rfl, k, rfl⟩))
  | _ => exact .inl rfl

/-- **What one step can do to a session**: nothing, a turn of it, or its loss; or the session is new. -/
theorem RecordedStep.session {x y : Recorded R A E α I W} (h : RecordedStep respond handle x y) {m : ℕ}
    {t' : Tx R A E α I} (ht : y.config.txs[m]? = some t') :
    (x.config.txs[m]? = some t' ∧ y.history m = x.history m) ∨
    (∃ tx, x.config.txs[m]? = some tx ∧ Turns x.config m tx t' ∧ CommitsTo x.config y.config tx ∧
      y.history m = tx.prog.told respond x.config.toStore ++ x.history m) ∨
    (t'.prog.done = true ∧ y.config.committed = x.config.committed ∧ y.history m = x.history m ∧
      ∃ tx e, x.config.txs[m]? = some tx ∧ t'.req = tx.req ∧ t'.prog = .raise e) ∨
    (m = x.config.txs.length ∧ y.config.committed = x.config.committed ∧
      y.history m = x.history m ∧ t'.prog = handle t'.req) := by
  obtain ⟨mv, hm, hh⟩ := h
  cases mv with
  | start i =>
    have hm := Option.some.inj hm
    rw [← hm] at ht ⊢
    rw [hh]
    simp only [Config.arrive, List.getElem?_append] at ht
    split at ht
    · exact .inl ⟨ht, rfl⟩
    · next hlt =>
      obtain ⟨h0, rfl⟩ : m - x.config.txs.length = 0 ∧ _ = t' := by
        simpa [List.getElem?_singleton] using ht
      exact .inr (.inr (.inr ⟨by omega, rfl, rfl, rfl⟩))
  | turn n =>
    simp only [Config.step, Config.turn] at hm
    split at hm
    · next tx hn =>
      obtain ⟨tx', hturn, htxs, hcom, -⟩ := turns_of_turnOf rfl hm
      rw [htxs] at ht
      rw [hh]
      simp only [Config.record, Config.told, hn]
      by_cases hmn : n = m
      · subst hmn
        rw [List.getElem?_set_self (List.getElem?_eq_some_iff.mp hn).1] at ht
        cases ht
        exact .inr (.inl ⟨tx, hn, hturn, hcom, Function.update_self _ _ _⟩)
      · rw [List.getElem?_set_ne hmn] at ht
        exact .inl ⟨ht, Function.update_of_ne (Ne.symm hmn) _ _⟩
    · cases hm
  | lost n e =>
    simp only [Config.step] at hm
    split at hm
    · next tx hn =>
      split at hm
      · cases hm
      · have hm := Option.some.inj hm
        rw [← hm] at ht ⊢
        rw [hh]
        simp only [Config.put] at ht
        by_cases hmn : n = m
        · subst hmn
          rw [List.getElem?_set_self (List.getElem?_eq_some_iff.mp hn).1] at ht
          cases ht
          exact .inr (.inr (.inl ⟨rfl, rfl, rfl, tx, e, hn, rfl, rfl⟩))
        · rw [List.getElem?_set_ne hmn] at ht
          exact .inl ⟨ht, rfl⟩
    · cases hm

theorem world_of_turnOf {c c' : Config R A E α I W} {n : ℕ} {tx : Tx R A E α I} {p : Prog R A E α}
    (h : c.turnOf respond n tx p = some c') :
    c'.world = c.world ∨ ∃ q, c'.world = (respond q c.world).2 := by
  cases p with
  | ask q k => cases h; exact .inr ⟨q, rfl⟩
  | modify p f k =>
    simp only [Config.turnOf] at h
    repeat' split at h
    all_goals cases h
    all_goals exact .inl rfl
  | insert clash r k =>
    simp only [Config.turnOf] at h
    repeat' split at h
    all_goals cases h
    all_goals exact .inl rfl
  | _ => cases h; exact .inl rfl

/-- A step leaves the surroundings alone, or they answer one question. -/
theorem RecordedStep.world {x y : Recorded R A E α I W} (h : RecordedStep respond handle x y) :
    y.config.world = x.config.world ∨ ∃ q, y.config.world = (respond q x.config.world).2 := by
  obtain ⟨m, hm, -⟩ := h
  cases m with
  | start i =>
    rw [← Option.some.inj hm]
    exact .inl rfl
  | turn n =>
    simp only [Config.step, Config.turn] at hm
    split at hm
    · exact world_of_turnOf hm
    · cases hm
  | lost n e =>
    simp only [Config.step] at hm
    split at hm
    · split at hm
      · cases hm
      · rw [← Option.some.inj hm]
        exact .inl rfl
    · cases hm

/-- An answer a session has got is that of the surroundings before the step. -/
theorem RecordedStep.answer {x y : Recorded R A E α I W} (h : RecordedStep respond handle x y) {n : ℕ}
    {q : Q} {a : A q} (ha : .answer q a ∈ y.history n) :
    .answer q a ∈ x.history n ∨ a = (respond q x.config.world).1 := by
  obtain ⟨m, -, hh⟩ := h
  rw [hh] at ha
  cases m with
  | start i | lost k e => exact .inl ha
  | turn k =>
    simp only [Config.record] at ha
    by_cases hk : n = k
    · subst hk
      rw [Function.update_self, List.mem_append] at ha
      refine ha.symm.imp_right fun ha => ?_
      unfold Config.told at ha
      split at ha
      · next tx _ =>
        cases hp : tx.prog <;> simp [hp, Prog.told] at ha
        next q' k' =>
          obtain ⟨rfl, ha⟩ := ha
          exact eq_of_heq ha
      · cases ha
    · rw [Function.update_of_ne hk] at ha
      exact .inl ha

/-- Every run can be recorded. -/
theorem RecordedReach.of_reach {c c' : Config R A E α I W} (h : Reach respond handle c c')
    (g : Histories R A) :
    ∃ g', RecordedReach respond handle (fun _ _ => True) ⟨c, g⟩ ⟨c', g'⟩ := by
  induction h with
  | refl => exact ⟨g, .refl⟩
  | @tail d d' _ hs ih =>
    obtain ⟨g', hr⟩ := ih
    obtain ⟨m, hm⟩ := hs
    exact ⟨_, hr.tail ⟨⟨m, hm, rfl⟩, trivial⟩⟩

/-- Turns of the only open session make a run whose steps satisfy whatever such turns do. -/
theorem RecordedReach.of_turns {n : ℕ} (hG : ∀ x y : Recorded R A E α I W,
      x.config.quietFor n = true → RecordedStep respond handle x y → G x y) :
    ∀ (k : ℕ) {x : Recorded R A E α I W} {c' : Config R A E α I W}, x.config.quietFor n = true →
      x.config.run respond handle (List.replicate k (.turn n)) = some c' →
      ∃ g', RecordedReach respond handle G x ⟨c', g'⟩
  | 0, x, c', _, h => by cases h; exact ⟨x.history, .refl⟩
  | k + 1, x, c', hq, h => by
    obtain ⟨d, hd, hrun⟩ := Option.bind_eq_some_iff.mp h
    have hstep : RecordedStep respond handle x ⟨d, x.config.record respond x.history (.turn n)⟩ :=
      ⟨.turn n, hd, rfl⟩
    have hq' : d.quietFor n = true := by
      simp only [Config.step, Config.turn] at hd
      split at hd
      · next tx hn =>
        obtain ⟨tx', -, htxs, -⟩ := turns_of_turnOf rfl hd
        rw [Config.quietFor, Config.others, htxs, List.eraseIdx_set_eq]
        exact hq
      · cases hd
    obtain ⟨g', hr⟩ := RecordedReach.of_turns hG k (x := ⟨d, _⟩) hq' hrun
    exact ⟨g', .head ⟨hstep, hG _ _ hq hstep⟩ hr⟩

/-- The configuration after requests have been served one after another, each in the given number
of turns. -/
def Config.serveAlone (respond : (q : Q) → W → A q × W) (handle : I → Prog R A E α)
    (c : Config R A E α I W) : List (I × ℕ) → Option (Config R A E α I W)
  | [] => some c
  | (i, k) :: is =>
    if c.quietFor c.txs.length then
      (c.run respond handle (Move.alone i c.txs.length k)).bind fun c' =>
        c'.serveAlone respond handle is
    else none

/-- Requests served one after another make a run whose steps satisfy whatever the steps of the only
open session do. -/
theorem RecordedReach.of_serveAlone (hG : ∀ (n : ℕ) (x y : Recorded R A E α I W),
      x.config.quietFor n = true → RecordedStep respond handle x y → G x y) :
    ∀ (is : List (I × ℕ)) {x : Recorded R A E α I W} {c' : Config R A E α I W},
      x.config.serveAlone respond handle is = some c' →
      ∃ g', RecordedReach respond handle G x ⟨c', g'⟩
  | [], x, c', h => by cases h; exact ⟨x.history, .refl⟩
  | (i, k) :: is, x, c', h => by
    rw [Config.serveAlone] at h
    split at h
    · next hq =>
      obtain ⟨d, hd, hrest⟩ := Option.bind_eq_some_iff.mp h
      obtain ⟨e, he, hturns⟩ := Option.bind_eq_some_iff.mp hd
      cases he
      have hstep : RecordedStep respond handle x ⟨x.config.arrive handle i, x.history⟩ :=
        ⟨.start i, rfl, rfl⟩
      have hq' : (x.config.arrive handle i).quietFor x.config.txs.length = true := by
        rw [Config.quietFor, Config.others, Config.arrive,
          List.eraseIdx_append_of_length_le (Nat.le_refl _)]
        rw [Config.quietFor, Config.others, List.eraseIdx_of_length_le (Nat.le_refl _)] at hq
        simpa using hq
      obtain ⟨g₁, hr₁⟩ := RecordedReach.of_turns (hG _) k (x := ⟨_, x.history⟩) hq' hturns
      obtain ⟨g₂, hr₂⟩ := RecordedReach.of_serveAlone hG is (x := ⟨d, g₁⟩) hrest
      exact ⟨g₂, .head ⟨hstep, hG _ _ _ hq hstep⟩ (hr₁.trans hr₂)⟩
    · cases h

end Runs

/-! ## Locks -/

namespace Protocol

/-- The protocol every program keeps to. -/
def free : Protocol R where
  inv _ := True
  effect _ _ _ := True
  evolves _ _ := True
  names _ := []
  evolves_refl _ := trivial
  evolves_trans _ _ := trivial
  effect_evolves _ _ _ := trivial

theorem safe_free {post : Except E α → Local R K → Table R → Prop} (hpost : ∀ r l c, post r l c)
    (p : Prog R A E α) (l : Local R K) (c : Table R) : (free : Protocol R).safe post p l c := by
  have hscan : ∀ {q : R → Bool} {f : (r : R) → Effect r} {φ : List R → Local R K → Table R → Prop},
      (∀ rs l c, φ rs l c) → ∀ (ks : List K) (rs : List R) (l : Local R K) (c : Table R),
        (free : Protocol R).scanSafe q f φ ks rs l c := by
    intro q f φ hφ ks
    induction ks with
    | nil => exact fun rs l _ c' _ => hφ rs l c'
    | cons x ks ih =>
      intro rs l c c' _
      split
      · split <;> exact ih _ _ _
      · exact ih _ _ _
  induction p generalizing l c with
  | ret a | raise e => exact fun c' _ => hpost _ _ c'
  | select p k ih => exact fun c' _ => ih _ l c'
  | modify p f k ih => exact fun c' _ => hscan (fun rs l c => ih rs l c) _ [] l c'
  | insert clash r k ih =>
    intro c' _
    split
    · exact ih false l c'
    · exact ih true _ c'
  | fresh k ih => exact fun c' _ n _ _ => ih n _ c'
  | ask q k ih => exact fun c' _ a => ih a l c'
  | commit k ih => exact fun c' _ => ⟨⟨trivial, trivial, fun _ _ _ hn => by cases hn⟩, ih _ _⟩
  | rollback k ih => exact fun c' _ => ih _ c'

theorem keeps_free (handle : I → Prog R A E α) :
    (free : Protocol R).Keeps (fun _ _ _ _ => True) handle :=
  fun i c _ => safe_free (fun _ _ _ _ _ _ _ => trivial) (handle i) .start c

/-- Sessions hold no lock and no identifier in common, and they lock what they write. -/
abbrev Separate (c : Config R A E α I W) : Prop := Sound (free : Protocol R) (fun _ _ _ _ => True) c

end Protocol

/-! ## Sessions that do what they owe -/

namespace Discipline

open Protocol

/-- A session in the middle of a run does what it owes. -/
def txEnsures (D : Discipline R) (owes : I → History R A → Local R K → Table R → Prop)
    (ends : I → Except E α → History R A → Prop) (tx : Tx R A E α I) (h : History R A)
    (c : Table R) : Prop :=
  match tx.scan with
  | none => D.ensures (owes tx.req) (fun r h _ _ => ends tx.req r h) tx.prog h tx.toLocal c
  | some (ks, rs) => ∃ p f k, tx.prog = .modify p f k ∧
    D.scanEnsures h p f
      (fun rs l c => D.ensures (owes tx.req) (fun r h _ _ => ends tx.req r h) (k rs) h l c)
      ks rs tx.toLocal c

/-- The invariant of recorded runs. -/
structure Kept (D : Discipline R) (owes : I → History R A → Local R K → Table R → Prop)
    (ends : I → Except E α → History R A → Prop) (x : Recorded R A E α I W) : Prop where
  separate : Separate x.config
  inv : D.inv x.config.committed
  named : ∀ r ∈ x.config.committed.rows, ∀ n ∈ D.names r, n < x.config.nextId
  unused : ∀ tx ∈ x.config.txs, ∀ n ∈ tx.ids, ∀ r ∈ x.config.committed.rows, n ∉ D.names r
  follows : ∀ m p t, .read p t ∈ x.history m → D.follows t x.config.committed
  older : ∀ m p t, .read p t ∈ x.history m → ∀ r ∈ t.rows, ∀ n ∈ D.names r,
    n < x.config.nextId ∧ ∀ tx ∈ x.config.txs, n ∉ tx.ids
  blank : ∀ m, x.config.txs.length ≤ m → x.history m = []
  ensures : ∀ m tx, x.config.txs[m]? = some tx →
    D.txEnsures owes ends tx (x.history m) x.config.committed

/-- Every request does what it owes, and ends as it should. -/
def Ensures (D : Discipline R) (owes : I → History R A → Local R K → Table R → Prop)
    (ends : I → Except E α → History R A → Prop) (handle : I → Prog R A E α) : Prop :=
  ∀ i c, D.inv c → D.ensures (owes i) (fun r h _ _ => ends i r h) (handle i) [] .start c

/-- The step left the committed rows alone, or it was the commit of the `n`th session, which did what
it owed. -/
def Commits (owes : I → History R A → Local R K → Table R → Prop)
    (x y : Recorded R A E α I W) : Prop :=
  y.config.committed = x.config.committed ∨ ∃ (n : ℕ) (tx : Tx R A E α I),
    x.config.txs[n]? = some tx ∧ (∃ k, tx.prog = .commit k) ∧ y.config.txs[n]? ≠ some tx ∧
    y.config.committed = tx.view x.config.committed ∧
    owes tx.req (x.history n) tx.toLocal x.config.committed

/-! ## One session moves -/

variable {D : Discipline R} {owes : I → History R A → Local R K → Table R → Prop}
  {ends : I → Except E α → History R A → Prop} {x y : Recorded R A E α I W}
  {tx tx' : Tx R A E α I} {n : ℕ}

theorem txEnsures_rely {h : History R A} {t t' : Table R} (hx : D.txEnsures owes ends tx h t)
    (e : D.Env h tx.toLocal t t') : D.txEnsures owes ends tx h t' := by
  unfold txEnsures at hx ⊢
  split at hx
  · exact ensures_rely hx e
  · obtain ⟨p, f, k, hk, hs⟩ := hx
    exact ⟨p, f, k, hk, scanEnsures_rely hs e⟩

theorem Kept.env (h : Kept D owes ends x) (hn : x.config.txs[n]? = some tx) :
    D.Env (x.history n) tx.toLocal x.config.committed x.config.committed :=
  ⟨h.inv, h.follows n, .refl _ _, h.unused tx (List.mem_of_getElem? hn),
    fun k _ => D.guards_refl k _⟩

/-- The rows a session reads are those committed at the time. -/
def ReadsNow (es : History R A) (c : Table R) : Prop := ∀ p t, .read p t ∈ es → t = c

/-- A session moves between two commits. -/
theorem Kept.advance (h : Kept D owes ends x) (hn : x.config.txs[n]? = some tx) {es : History R A}
    (htxs : y.config.txs = x.config.txs.set n tx')
    (hcom : y.config.committed = x.config.committed)
    (hhist : y.history = Function.update x.history n (es ++ x.history n))
    (hle : x.config.nextId ≤ y.config.nextId)
    (hids : ∀ m ∈ tx'.ids, m ∈ tx.ids ∨ x.config.nextId ≤ m)
    (hes : ReadsNow es x.config.committed)
    (hens : D.txEnsures owes ends tx' (es ++ x.history n) x.config.committed)
    (hsep : Separate y.config) : Kept D owes ends y := by
  have hcases : ∀ {t : Tx R A E α I}, t ∈ y.config.txs → t = tx' ∨ t ∈ x.config.txs :=
    fun ht => (mem_set_cases (htxs ▸ ht)).imp_right fun ⟨_, _, hm⟩ => List.mem_of_getElem? hm
  -- what a session has read is what it had read before, or what is committed now
  have hread : ∀ m p t, .read p t ∈ y.history m →
      (∃ m, .read p t ∈ x.history m) ∨ t = x.config.committed := by
    intro m p t ht
    rw [hhist] at ht
    by_cases hm : m = n
    · subst hm
      rw [Function.update_self, List.mem_append] at ht
      exact ht.elim (fun ht => .inr (hes p t ht)) fun ht => .inl ⟨m, ht⟩
    · rw [Function.update_of_ne hm] at ht
      exact .inl ⟨m, ht⟩
  have hnew : ∀ {r : R}, (∀ k ∈ D.names r, k < x.config.nextId ∧ ∀ u ∈ x.config.txs, k ∉ u.ids) →
      ∀ k ∈ D.names r, k < y.config.nextId ∧ ∀ u ∈ y.config.txs, k ∉ u.ids := by
    intro r hr k hk
    obtain ⟨hlt, hfree⟩ := hr k hk
    refine ⟨Nat.lt_of_lt_of_le hlt hle, fun u hu hku => ?_⟩
    rcases hcases hu with rfl | hu
    · rcases hids k hku with hku | hge
      · exact hfree tx (List.mem_of_getElem? hn) hku
      · omega
    · exact hfree u hu hku
  have hnow : ∀ r ∈ x.config.committed.rows, ∀ k ∈ D.names r, k < x.config.nextId ∧
      ∀ u ∈ x.config.txs, k ∉ u.ids := fun r hr k hk =>
    ⟨h.named r hr k hk, fun u hu hku => h.unused u hu k hku r hr hk⟩
  refine ⟨hsep, hcom ▸ h.inv, ?_, ?_, ?_, ?_, ?_, ?_⟩
  · rw [hcom]
    exact fun r hr k hk => (hnew (hnow r hr) k hk).1
  · rw [hcom]
    exact fun u hu k hk r hr hkr => (hnew (hnow r hr) k hkr).2 u hu hk
  · intro m p t ht
    rw [hcom]
    rcases hread m p t ht with ⟨m', ht⟩ | rfl
    · exact h.follows m' p t ht
    · exact D.follows_refl h.inv
  · intro m p t ht r hr
    rcases hread m p t ht with ⟨m', ht⟩ | rfl
    · exact hnew (h.older m' p t ht r hr)
    · exact hnew (hnow r hr)
  · intro m hm
    rw [htxs, List.length_set] at hm
    have hlen : n < x.config.txs.length := (List.getElem?_eq_some_iff.mp hn).1
    rw [hhist, Function.update_of_ne (by omega)]
    exact h.blank m hm
  · intro m t ht
    rw [htxs, List.getElem?_set] at ht
    rw [hhist, hcom]
    split at ht
    · next hmn =>
      subst hmn
      split at ht
      · cases ht
        rw [Function.update_self]
        exact hens
      · cases ht
    · next hmn =>
      rw [Function.update_of_ne (Ne.symm hmn)]
      exact h.ensures m t ht

/-- The commit of one session is what every other session may assume. -/
theorem Kept.env_commit (h : Kept D owes ends x) (hn : x.config.txs[n]? = some tx)
    (hc : D.CommitOk tx.toLocal x.config.committed) {m : ℕ} {t : Tx R A E α I} (hm : m ≠ n)
    (ht : x.config.txs[m]? = some t) :
    D.Env (x.history m) t.toLocal x.config.committed (tx.view x.config.committed) := by
  have hap := h.separate.apart n m tx t hm.symm hn ht
  have htx := List.mem_of_getElem? hn
  have htm := List.mem_of_getElem? ht
  refine ⟨hc.inv, fun p u hu => ?_, ?_, fun i hi r hr hir => ?_, fun k hk =>
    hc.guarded k fun hk' => hap.locks k hk' hk⟩
  · exact hc.follows u (h.follows m p u hu) fun i hi r hr hir =>
      (h.older m p u hu r hr i hir).2 tx htx hi
  · exact Table.SameAt.apply fun w hw => hap.locks _ (h.separate.locked tx htx w hw)
  · rcases hc.names r hr i hir with hi' | ⟨s, hs, his⟩
    · exact hap.drawn i (h.separate.ids tx htx i hi') (h.separate.ids t htm i hi)
    · exact h.unused t htm i hi s hs his

/-- A session commits. -/
theorem Kept.commit (h : Kept D owes ends x) (hn : x.config.txs[n]? = some tx)
    (htxs : y.config.txs = x.config.txs.set n tx')
    (hcom : y.config.committed = tx.view x.config.committed)
    (hhist : y.history = Function.update x.history n ([.commit] ++ x.history n))
    (hle : x.config.nextId ≤ y.config.nextId) (hids : tx'.ids = [])
    (hc : D.CommitOk tx.toLocal x.config.committed)
    (hens : D.txEnsures owes ends tx' ([.commit] ++ x.history n) (tx.view x.config.committed))
    (hsep : Separate y.config) : Kept D owes ends y := by
  have htx := List.mem_of_getElem? hn
  have hcases : ∀ {t : Tx R A E α I}, t ∈ y.config.txs → t = tx' ∨
      ∃ m, m ≠ n ∧ x.config.txs[m]? = some t := fun ht => mem_set_cases (htxs ▸ ht)
  have hread : ∀ m p t, .read p t ∈ y.history m → .read p t ∈ x.history m := by
    intro m p t ht
    rw [hhist] at ht
    by_cases hm : m = n
    · subst hm
      rw [Function.update_self] at ht
      simpa using ht
    · rwa [Function.update_of_ne hm] at ht
  refine ⟨hsep, hcom ▸ hc.inv, fun r hr i hi => ?_, ?_, ?_, ?_, ?_, ?_⟩
  · refine Nat.lt_of_lt_of_le ?_ hle
    rcases hc.names r (hcom ▸ hr) i hi with hi' | ⟨s, hs, his⟩
    · exact h.separate.drawn tx htx i (h.separate.ids tx htx i hi')
    · exact h.named s hs i his
  · intro t ht i hi r hr
    rcases hcases ht with rfl | ⟨m, hm, ht⟩
    · rw [hids] at hi; cases hi
    · exact (h.env_commit hn hc hm ht).unused i hi r (hcom ▸ hr)
  · intro m p t ht
    rw [hcom]
    exact hc.follows t (h.follows m p t (hread m p t ht)) fun i hi r hr hir =>
      (h.older m p t (hread m p t ht) r hr i hir).2 tx htx hi
  · intro m p t ht r hr i hi
    obtain ⟨hlt, hfree⟩ := h.older m p t (hread m p t ht) r hr i hi
    refine ⟨Nat.lt_of_lt_of_le hlt hle, fun u hu hiu => ?_⟩
    rcases hcases hu with rfl | ⟨m', hm', hu⟩
    · rw [hids] at hiu; cases hiu
    · exact hfree u (List.mem_of_getElem? hu) hiu
  · intro m hm
    rw [htxs, List.length_set] at hm
    have hlen : n < x.config.txs.length := (List.getElem?_eq_some_iff.mp hn).1
    rw [hhist, Function.update_of_ne (by omega)]
    exact h.blank m hm
  · intro m t ht
    rw [htxs, List.getElem?_set] at ht
    rw [hhist, hcom]
    split at ht
    · next hmn =>
      subst hmn
      split at ht
      · cases ht
        rw [Function.update_self]
        exact hens
      · cases ht
    · next hmn =>
      rw [Function.update_of_ne (Ne.symm hmn)]
      exact txEnsures_rely (h.ensures m t ht) (h.env_commit hn hc (Ne.symm hmn) ht)

/-! ## Every step -/

variable {respond : (q : Q) → W → A q × W} {handle : I → Prog R A E α} {c' : Config R A E α I W}

/-- A turn that tells the session nothing and leaves its identifiers alone. -/
theorem Kept.untold (h : Kept D owes ends x) (hn : x.config.txs[n]? = some tx)
    (hids : ∀ m ∈ tx'.ids, m ∈ tx.ids)
    (hens : D.txEnsures owes ends tx' (x.history n) x.config.committed)
    (hsep : Separate (x.config.put n tx')) :
    Kept D owes ends ⟨x.config.put n tx', Function.update x.history n ([] ++ x.history n)⟩ :=
  h.advance (y := ⟨x.config.put n tx', _⟩) hn rfl rfl rfl (Nat.le_refl _)
    (fun m hm => .inl (hids m hm)) (fun _ _ he => nomatch he) hens hsep

/-- The turns of a locking statement. -/
theorem Kept.turnOf_modify (h : Kept D owes ends x) (hn : x.config.txs[n]? = some tx)
    {p : R → Bool} {f : (r : R) → Effect r} {k : List R → Prog R A E α}
    (hp : tx.prog = .modify p f k) (ht : x.config.turnOf respond n tx (.modify p f k) = some c')
    (hsep : Separate c') :
    Kept D owes ends ⟨c', Function.update x.history n ([] ++ x.history n)⟩ ∧
      c'.committed = x.config.committed := by
  have hens := h.ensures n tx hn
  have hself := h.env hn
  unfold txEnsures at hens
  simp only [Config.turnOf] at ht
  cases hscan : tx.scan with
  | none =>
    rw [hscan] at hens ht
    simp only [hp] at hens
    cases ht
    exact ⟨h.untold hn (fun _ hm => hm) ⟨p, f, k, hp, hens _ hself⟩ hsep, rfl⟩
  | some s =>
    obtain ⟨ks, rs⟩ := s
    simp only [hscan] at hens ht
    obtain ⟨p', f', k', hk, hs⟩ := hens
    cases hp.symm.trans hk
    cases ks with
    | nil =>
      cases ht
      exact ⟨h.untold hn (fun _ hm => hm) (hs _ hself) hsep, rfl⟩
    | cons z ks =>
      have hs := hs _ hself
      simp only at ht
      split at ht
      · cases ht
      split at ht
      · next r hr =>
        change (tx.toLocal.view x.config.committed).lookup z = some r at hr
        simp only [hr] at hs
        split at ht
        · next hpr =>
          cases ht
          rw [if_pos hpr] at hs
          exact ⟨h.untold hn (fun _ hm => hm) ⟨p, f, k, hp, hs⟩ hsep, rfl⟩
        · next hpr =>
          cases ht
          rw [if_neg hpr] at hs
          exact ⟨h.untold hn (fun _ hm => hm) ⟨p, f, k, hp, hs⟩ hsep, rfl⟩
      · next hr =>
        change (tx.toLocal.view x.config.committed).lookup z = none at hr
        simp only [hr] at hs
        cases ht
        exact ⟨h.untold hn (fun _ hm => hm) ⟨p, f, k, hp, hs⟩ hsep, rfl⟩

/-- **A turn keeps the invariant**, and changes the committed rows only by a commit that does what its
session owes. -/
theorem Kept.turnOf (hc : ∀ i h l c, D.Env h l c c → owes i h l c → D.CommitOk l c)
    (h : Kept D owes ends x) (hn : x.config.txs[n]? = some tx) {p : Prog R A E α}
    (hp : tx.prog = p) (ht : x.config.turnOf respond n tx p = some c') (hsep : Separate c') :
    Kept D owes ends ⟨c', x.config.record respond x.history (.turn n)⟩ ∧
      Commits owes x ⟨c', x.config.record respond x.history (.turn n)⟩ := by
  have hens := h.ensures n tx hn
  have hself := h.env hn
  have hlen : n < x.config.txs.length := (List.getElem?_eq_some_iff.mp hn).1
  have htold : x.config.told respond n = p.told respond x.config.toStore := by
    simp only [Config.told, hn, hp]
  simp only [Config.record, htold]
  -- only a locking statement is visited in several turns
  have hwhole : (∀ q f k, p ≠ .modify q f k) → tx.scan = none ∧
      D.ensures (owes tx.req) (fun r h _ _ => ends tx.req r h) p (x.history n) tx.toLocal
        x.config.committed := by
    intro hne
    unfold txEnsures at hens
    split at hens
    · next hs => exact ⟨hs, hp ▸ hens⟩
    · obtain ⟨q, f, k, hk, -⟩ := hens
      exact absurd (hp.symm.trans hk) (hne q f k)
  have hmove : ∀ {tx' : Tx R A E α I} {es : History R A} {next : ℕ} {w : W},
      x.config.nextId ≤ next → (∀ m ∈ tx'.ids, m ∈ tx.ids ∨ x.config.nextId ≤ m) →
      ReadsNow es x.config.committed → tx'.scan = none →
      D.ensures (owes tx'.req) (fun r h _ _ => ends tx'.req r h) tx'.prog (es ++ x.history n)
        tx'.toLocal x.config.committed →
      Separate { x.config.put n tx' with nextId := next, world := w } →
      Kept D owes ends ⟨{ x.config.put n tx' with nextId := next, world := w },
        Function.update x.history n (es ++ x.history n)⟩ := by
    intro tx' es next w hle hids hes hs hens hsep
    refine h.advance (y := ⟨{ x.config.put n tx' with nextId := next, world := w }, _⟩) hn rfl rfl rfl
      hle hids hes ?_ hsep
    simpa only [txEnsures, hs] using hens
  have hno : ReadsNow ([] : History R A) x.config.committed := fun _ _ he => by cases he
  cases p with
  | ret a =>
    obtain ⟨hscan, hs⟩ := hwhole (by simp)
    cases ht
    refine ⟨hmove (Nat.le_refl _) (fun _ hm => by cases hm) hno hscan ?_ hsep, .inl rfl⟩
    simp only [hp]
    exact fun d hd => hs _ hself
  | raise e =>
    obtain ⟨hscan, hs⟩ := hwhole (by simp)
    cases ht
    refine ⟨hmove (Nat.le_refl _) (fun _ hm => by cases hm) hno hscan ?_ hsep, .inl rfl⟩
    simp only [hp]
    exact fun d hd => hs _ hself
  | select q k =>
    obtain ⟨hscan, hs⟩ := hwhole (by simp)
    cases ht
    refine ⟨hmove (Nat.le_refl _) (fun _ hm => .inl hm) ?_ hscan (hs _ hself) hsep, .inl rfl⟩
    intro p t he
    cases List.mem_singleton.mp he
    rfl
  | modify q f k =>
    obtain ⟨hkept, hcom⟩ := h.turnOf_modify hn hp ht hsep
    exact ⟨hkept, .inl hcom⟩
  | insert clash r k =>
    obtain ⟨hscan, hs⟩ := hwhole (by simp)
    have hs := hs _ hself
    simp only [Config.turnOf] at ht
    split at ht
    · cases ht
    split at ht
    · next hclash =>
      cases ht
      rw [if_pos hclash] at hs
      exact ⟨hmove (Nat.le_refl _) (fun _ hm => .inl hm) hno hscan hs hsep, .inl rfl⟩
    · next hclash =>
      cases ht
      rw [if_neg hclash] at hs
      exact ⟨hmove (Nat.le_refl _) (fun _ hm => .inl hm) hno hscan hs hsep, .inl rfl⟩
  | fresh k =>
    obtain ⟨hscan, hs⟩ := hwhole (by simp)
    cases ht
    have hs := hs _ hself x.config.nextId
      (fun hm => Nat.lt_irrefl _ (h.separate.drawn tx (List.mem_of_getElem? hn) _ hm))
      fun r hr hm => Nat.lt_irrefl _ (h.named r hr _ hm)
    refine ⟨hmove (Nat.le_succ _) (fun m hm => ?_) hno hscan hs hsep, .inl rfl⟩
    rcases List.mem_cons.mp hm with rfl | hm
    · exact .inr (Nat.le_refl _)
    · exact .inl hm
  | ask q k =>
    obtain ⟨hscan, hs⟩ := hwhole (by simp)
    cases ht
    refine ⟨hmove (Nat.le_refl _) (fun _ hm => .inl hm) ?_ hscan (hs _ hself _) hsep, .inl rfl⟩
    intro p t he
    cases List.mem_singleton.mp he
  | commit k =>
    obtain ⟨hscan, hs⟩ := hwhole (by simp)
    obtain ⟨howes, hk⟩ := hs _ hself
    cases ht
    refine ⟨h.commit (y := ⟨_, _⟩) hn rfl rfl rfl (Nat.le_refl _) rfl
      (hc _ _ _ _ hself howes) ?_ hsep, .inr ⟨n, tx, hn, ⟨k, hp⟩, ?_, rfl, howes⟩⟩
    · simpa only [txEnsures, hscan, List.singleton_append] using hk
    · -- a session that commits moves on
      intro heq
      simp only [Config.put, List.getElem?_set_self hlen, Option.some.injEq] at heq
      have hcycle : k = .commit k := (congrArg Tx.prog heq).trans hp
      cases hcycle
  | rollback k =>
    obtain ⟨hscan, hs⟩ := hwhole (by simp)
    cases ht
    exact ⟨hmove (Nat.le_refl _) (fun _ hm => by cases hm) hno hscan (hs _ hself) hsep, .inl rfl⟩

/-- A request arrives. -/
theorem Kept.start (hk : D.Ensures owes ends handle) (h : Kept D owes ends x) (i : I)
    (hsep : Separate (x.config.arrive handle i)) :
    Kept D owes ends ⟨x.config.arrive handle i, x.history⟩ := by
  have hcases : ∀ {t : Tx R A E α I}, t ∈ (x.config.arrive handle i).txs →
      t ∈ x.config.txs ∨ t.ids = [] := by
    intro t ht
    rcases List.mem_append.mp ht with ht | ht
    · exact .inl ht
    · cases List.mem_singleton.mp ht
      exact .inr rfl
  refine ⟨hsep, h.inv, h.named, ?_, h.follows, ?_, ?_, ?_⟩
  · intro t ht m hm
    rcases hcases ht with ht | ht
    · exact h.unused t ht m hm
    · rw [ht] at hm; cases hm
  · intro m p t ht r hr k hk
    obtain ⟨hlt, hfree⟩ := h.older m p t ht r hr k hk
    refine ⟨hlt, fun u hu hku => ?_⟩
    rcases hcases hu with hu | hu
    · exact hfree u hu hku
    · rw [hu] at hku; cases hku
  · intro m hm
    simp only [Config.arrive, List.length_append, List.length_singleton] at hm
    exact h.blank m (by omega)
  · intro m t ht
    simp only [Config.arrive] at ht ⊢
    rw [List.getElem?_append] at ht
    split at ht
    · exact h.ensures m t ht
    · next hlt =>
      obtain ⟨hm, rfl⟩ : m - x.config.txs.length = 0 ∧ _ = t := by
        simpa [List.getElem?_singleton] using ht
      rw [h.blank m (by omega)]
      exact hk i x.config.committed h.inv

/-- **A step keeps the invariant**, and changes the committed rows only by a commit that does what
its session owes. -/
theorem Kept.step (hk : D.Ensures owes ends handle)
    (hc : ∀ i h l c, D.Env h l c c → owes i h l c → D.CommitOk l c)
    (hl : ∀ i e h, ends i (.error e) h) (h : Kept D owes ends x)
    (hs : RecordedStep respond handle x y) : Kept D owes ends y ∧ Commits owes x y := by
  have hsep : Separate y.config := (h.separate.step (keeps_free handle) hs.step).1
  obtain ⟨m, hm, hhist⟩ := hs
  cases m with
  | turn n =>
    simp only [Config.step, Config.turn] at hm
    split at hm
    · next tx hn =>
      have hy : y = ⟨y.config, x.config.record respond x.history (.turn n)⟩ := by
        rw [← hhist]
      rw [hy]
      exact h.turnOf hc hn rfl hm hsep
    · cases hm
  | lost n e =>
    simp only [Config.step] at hm
    split at hm
    · next tx hn =>
      split at hm
      · cases hm
      · have hc' := Option.some.inj hm
        have hy : y = ⟨y.config, Function.update x.history n ([] ++ x.history n)⟩ := by
          rw [List.nil_append, Function.update_eq_self]
          exact congrArg (Recorded.mk y.config) hhist
        rw [hy]
        have htxs : y.config.txs = x.config.txs.set n
            { tx.clear with req := tx.req, prog := .raise e, scan := none } := by rw [← hc']; rfl
        have hcom : y.config.committed = x.config.committed := by rw [← hc']; rfl
        have hle : x.config.nextId ≤ y.config.nextId := by rw [← hc']; exact Nat.le_refl _
        exact ⟨h.advance (y := ⟨y.config, _⟩) hn htxs hcom rfl hle (fun _ hm => by cases hm)
          (fun _ _ he => by cases he) (fun _ _ => hl tx.req e _) hsep, .inl hcom⟩
    · cases hm
  | start i =>
    have hc' := Option.some.inj hm
    have hy : y = ⟨x.config.arrive handle i, x.history⟩ := by
      rw [hc']
      exact congrArg (Recorded.mk y.config) hhist
    subst hy
    exact ⟨h.start hk i hsep, .inl rfl⟩

/-- **Every run keeps the invariant.** -/
theorem Kept.reach {G : Recorded R A E α I W → Recorded R A E α I W → Prop}
    (hk : D.Ensures owes ends handle)
    (hc : ∀ i h l c, D.Env h l c c → owes i h l c → D.CommitOk l c)
    (hl : ∀ i e h, ends i (.error e) h) (h : Kept D owes ends x)
    (hr : RecordedReach respond handle G x y) : Kept D owes ends y := by
  induction hr with
  | refl => exact h
  | tail _ hstep ih => exact (ih.step hk hc hl hstep.1).1

/-- The run of a new configuration starts with the invariant. -/
theorem Kept.open {s : Store R W} (hi : D.inv s.committed)
    (hn : ∀ r ∈ s.committed.rows, ∀ n ∈ D.names r, n < s.nextId) :
    Kept D owes ends (s.open : Config R A E α I W).unrecorded := by
  refine ⟨⟨trivial, fun _ _ _ hm => (nomatch hm), ?_, ?_, ?_, ?_, ?_, ?_⟩, hi, hn, ?_, ?_, ?_, ?_, ?_⟩
    <;> simp [Store.open, Config.unrecorded]

/-- What a session that has returned has been told. -/
theorem Kept.ends_of_ret (h : Kept D owes ends x) (hn : x.config.txs[n]? = some tx) {a : α}
    (hp : tx.prog = .ret a) : ends tx.req (.ok a) (x.history n) := by
  have hens := h.ensures n tx hn
  unfold txEnsures at hens
  split at hens
  · rw [hp] at hens
    exact hens _ (h.env hn)
  · obtain ⟨p, f, k, hk, -⟩ := hens
    cases hp.symm.trans hk

/-- What a session that is about to commit owes. -/
theorem Kept.owes_of_commit (h : Kept D owes ends x) (hn : x.config.txs[n]? = some tx)
    {k : Prog R A E α} (hp : tx.prog = .commit k) :
    owes tx.req (x.history n) tx.toLocal x.config.committed := by
  have hens := h.ensures n tx hn
  unfold txEnsures at hens
  split at hens
  · rw [hp] at hens
    exact (hens _ (h.env hn)).1
  · obtain ⟨p, f, k', hk, -⟩ := hens
    cases hp.symm.trans hk

end Discipline

end Txn
