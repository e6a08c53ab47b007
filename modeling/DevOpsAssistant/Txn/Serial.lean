import DevOpsAssistant.Txn.Recorded

/-!
# Requests served one after another, with what their sessions have read

* `Recorded.Current`: the session that is open has read only what is committed.
* `RecordedStep.current`: a turn of the only open session keeps this.
* **`RecordedReach.of_current`**: a run of requests that are served one after another satisfies
  whatever such turns do.
-/

namespace Txn

variable {R K Q W I : Type} {A : Q → Type} {E α : Type} [DecidableEq K] [Keyed R K]
  {respond : (q : Q) → W → A q × W} {handle : I → Prog R A E α}
  {G : Recorded R A E α I W → Recorded R A E α I W → Prop} {x y : Recorded R A E α I W}

/-- Open sessions have read only what is committed, until they commit. -/
structure Recorded.Current (x : Recorded R A E α I W) : Prop where
  reads : ∀ n tx, x.config.txs[n]? = some tx → tx.prog.done = false → .commit ∉ x.history n →
    ∀ q t, .read q t ∈ x.history n → t = x.config.committed
  blank : ∀ n, x.config.txs.length ≤ n → x.history n = []

omit [DecidableEq K] in
/-- No session is open before the first request. -/
theorem Recorded.Current.unrecorded {c : Config R A E α I W} (hc : c.txs = []) :
    (c.unrecorded : Recorded R A E α I W).Current where
  reads := fun n tx hn => by
    rw [show c.unrecorded.config.txs = [] from hc] at hn
    cases hn
  blank := fun _ _ => rfl

omit [DecidableEq K] in
/-- The session that takes a turn while the others have ended is the only open one. -/
theorem Config.eq_of_quietFor {c : Config R A E α I W} {n m : ℕ} {tx : Tx R A E α I}
    (hq : c.quietFor n = true) (hm : c.txs[m]? = some tx) (hd : tx.prog.done = false) : m = n := by
  by_contra hne
  have hmem : tx ∈ c.others n := by
    obtain ⟨hlt, rfl⟩ := List.getElem?_eq_some_iff.mp hm
    exact List.mem_eraseIdx_iff_getElem.mpr ⟨m, hlt, hne, rfl⟩
  have := List.all_eq_true.mp hq tx hmem
  rw [hd] at this
  cases this

theorem RecordedStep.length_le (h : RecordedStep respond handle x y) :
    x.config.txs.length ≤ y.config.txs.length := by
  obtain ⟨m, hm, -⟩ := h
  cases m with
  | start i =>
    rw [← Option.some.inj hm]
    simp [Config.arrive]
  | turn n =>
    simp only [Config.step, Config.turn] at hm
    split at hm
    · obtain ⟨tx', -, htxs, -⟩ := turns_of_turnOf rfl hm
      simp [htxs]
    · cases hm
  | lost n e =>
    simp only [Config.step] at hm
    split at hm
    · split at hm
      · cases hm
      · rw [← Option.some.inj hm]
        simp [Config.put]
    · cases hm

/-- The history of a session that has not begun is empty. -/
theorem RecordedStep.blank (h : RecordedStep respond handle x y)
    (hx : ∀ n, x.config.txs.length ≤ n → x.history n = []) (n : ℕ)
    (hn : y.config.txs.length ≤ n) : y.history n = [] := by
  have hlt : x.config.txs.length ≤ n := Nat.le_trans h.length_le hn
  obtain ⟨m, hm, hh⟩ := h
  rw [hh]
  cases m with
  | start i | lost k e => exact hx n hlt
  | turn k =>
    have hk : n ≠ k := by
      rintro rfl
      simp only [Config.step, Config.turn, List.getElem?_eq_none hlt] at hm
      cases hm
    simp only [Config.record]
    rw [Function.update_of_ne hk]
    exact hx n hlt

/-- Only the session whose turn it is can commit. -/
theorem Step.committed_of_quiet {c c' : Config R A E α I W} {n m : ℕ} {tx : Tx R A E α I}
    (hq : c.quietFor n = true) (h : Step respond handle c c') (hm : c.txs[m]? = some tx)
    (hm' : c'.txs[m]? = some tx) (hd : tx.prog.done = false) : c'.committed = c.committed := by
  rcases h.elim with ⟨_, -, hcom, -⟩ | ⟨k, tk, tk', hk, hturn, htxs, hcom, -⟩ |
    ⟨_, _, _, -, -, -, hcom, -⟩
  · exact hcom
  · rcases hcom with ⟨hcom, -⟩ | ⟨-, p, hp⟩
    · exact hcom
    · have hkm : k = m := by
        rw [Config.eq_of_quietFor hq hk (by rw [hp]; rfl), Config.eq_of_quietFor hq hm hd]
      subst hkm
      rw [htxs, List.getElem?_set_self (List.getElem?_eq_some_iff.mp hk).1] at hm'
      rw [hk] at hm
      cases hm
      cases hm'
      exact absurd rfl (hturn.prog_ne_of_commit hp)
  · exact hcom

/-- **A turn of the only open session**, or the start of one. -/
theorem RecordedStep.current {n : ℕ} (hq : x.config.quietFor n = true)
    (h : RecordedStep respond handle x y) (hx : x.Current) : y.Current where
  reads := fun m tx hm hd hcommit q t hread => by
    rcases h.session hm with ⟨hm', hh⟩ | ⟨tx', hm', hturn, hcom, hh⟩ | ⟨hd', -⟩ | ⟨hm', -, hh, -⟩
    · rw [hh] at hcommit hread
      rw [hx.reads m tx hm' hd hcommit q t hread, h.step.committed_of_quiet hq hm' hm hd]
    · rw [hh, List.mem_append, not_or] at hcommit
      rw [hh, List.mem_append] at hread
      have hcom : y.config.committed = x.config.committed := by
        rcases hcom with ⟨hcom, -⟩ | ⟨-, k, hk⟩
        · exact hcom
        · rw [hk] at hcommit
          exact absurd List.mem_cons_self hcommit.1
      rw [hcom]
      rcases hread with hread | hread
      · rcases Prog.told_cases respond x.config.toStore tx'.prog with h' | ⟨q', h'⟩ | ⟨q', a, h'⟩ |
          ⟨h', -⟩ <;> rw [h'] at hread
        · cases hread
        · cases List.mem_singleton.mp hread
          rfl
        · cases List.mem_singleton.mp hread
        · cases List.mem_singleton.mp hread
      · exact hx.reads m tx' hm' (hturn.running hd) hcommit.2 q t hread
    · rw [hd] at hd'
      cases hd'
    · rw [hh, hx.blank m (Nat.le_of_eq hm'.symm)] at hread
      cases hread
  blank := h.blank hx.blank

/-- **Requests that are served one after another** make a run whose steps satisfy whatever the steps
after such runs do. -/
theorem RecordedReach.of_current {c c' : Config R A E α I W} (hc : c.txs = [])
    (hG : ∀ x y : Recorded R A E α I W, RecordedReach respond handle G c.unrecorded x → x.Current →
      RecordedStep respond handle x y → G x y) (is : List (I × ℕ))
    (h : c.serveAlone respond handle is = some c') :
    ∃ g, RecordedReach respond handle G c.unrecorded ⟨c', g⟩ := by
  obtain ⟨g, hr⟩ := RecordedReach.of_serveAlone (x := c.unrecorded)
    (G := fun x _ => ∃ n, x.config.quietFor n = true) (fun n _ _ hq _ => ⟨n, hq⟩) is h
  refine ⟨g, ?_⟩
  have hkept : ∀ {z : Recorded R A E α I W}, RecordedReach respond handle
      (fun x _ => ∃ n, x.config.quietFor n = true) c.unrecorded z →
      RecordedReach respond handle G c.unrecorded z ∧ z.Current := by
    intro z hz
    induction hz with
    | refl => exact ⟨.refl, .unrecorded hc⟩
    | tail _ hs ih =>
      obtain ⟨hstep, n, hq⟩ := hs
      exact ⟨ih.1.tail ⟨hstep, hG _ _ ih.1 ih.2 hstep⟩, hstep.current hq ih.2⟩
  exact (hkept hr).1

end Txn
