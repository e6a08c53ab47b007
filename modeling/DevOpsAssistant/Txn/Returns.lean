import DevOpsAssistant.Txn.Concurrent
import Mathlib.Data.List.Count

/-!
# Sessions that have returned

When every request is one unit of work, a session returns right after its only commit.

* `Config.returns`: how many requests of a kind have returned.
* `Reach.inUnit`: every open session is in its only unit of work.
* **`Step.returns`**: a step is a commit after which one more request has returned, or changes neither
  the committed rows nor the number of requests that have returned.
-/

namespace Txn

variable {R K Q W I : Type} {A : Q → Type} {E α : Type} [DecidableEq K] [Keyed R K]

/-- The number of requests that satisfy `f` and have returned. -/
def Config.returns (c : Config R A E α I W) (f : I → Bool) : ℕ :=
  c.txs.countP fun tx => tx.prog.returned && f tx.req

variable {respond : (q : Q) → W → A q × W} {handle : I → Prog R A E α} {c c' : Config R A E α I W}
  {φ : Stmt R Q → Prop}

/-- The session has ended, or is in its only unit of work. -/
def Tx.OneUnit (φ : Stmt R Q → Prop) (tx : Tx R A E α I) : Prop :=
  tx.ScanOk ∧ (tx.prog.done = false → tx.InUnit φ)

/-- Every open session is in its only unit of work. -/
theorem Reach.inUnit (hcommit : ¬ φ .commit) (hrollback : ¬ φ .rollback)
    (hunit : ∀ i, ∃ body : Prog R A E α, handle i = .unitOfWork body ∧ body.Only φ fun _ => True)
    (h : Reach respond handle c c') (hc : ∀ tx ∈ c.txs, tx.OneUnit φ) :
    ∀ tx ∈ c'.txs, tx.OneUnit φ := by
  refine h.forall_tx (fun i => ⟨fun _ _ h => (nomatch h), fun _ => ⟨hunit i, rfl⟩⟩)
    (fun c n tx tx' h ht => ⟨ht.scanOk h.1, fun hd => ?_⟩)
    (fun tx e _ => ⟨fun _ _ h => (nomatch h), fun hd => (nomatch hd)⟩) hc
  rcases (h.2 (ht.running hd)).turn hcommit hrollback h.1 ht with h' | ⟨a, -, ha, -⟩ | ⟨e, he⟩
  · exact h'
  · rw [ha] at hd
    cases hd
  · rw [he] at hd
    cases hd

omit [DecidableEq K] in
/-- A program that has not ended has not returned. -/
theorem Prog.returned_of_running {p : Prog R A E α} (h : p.done = false) : p.returned = false := by
  cases p with
  | ret a => cases h
  | _ => rfl

omit [DecidableEq K] in
theorem Config.returns_set {n : ℕ} {tx tx' : Tx R A E α I} (hn : c.txs[n]? = some tx)
    (htxs : c'.txs = c.txs.set n tx') (f : I → Bool)
    (h : (tx'.prog.returned && f tx'.req) = (tx.prog.returned && f tx.req)) :
    c'.returns f = c.returns f := by
  obtain ⟨hlt, htx⟩ := List.getElem?_eq_some_iff.mp hn
  unfold Config.returns
  rw [htxs, List.countP_set hlt, htx, h]
  have hpos : (if (tx.prog.returned && f tx.req) = true then 1 else 0) ≤
      c.txs.countP fun tx => tx.prog.returned && f tx.req := by
    split
    · next hp => exact List.countP_pos_iff.mpr ⟨tx, List.mem_of_getElem? hn, hp⟩
    · exact Nat.zero_le _
  omega

omit [DecidableEq K] in
/-- A session in its only unit of work returns right after its commit. -/
theorem Tx.InUnit.of_commit (hcommit : ¬ φ .commit) {tx : Tx R A E α I} (h : tx.InUnit φ)
    {k : Prog R A E α} (hk : tx.prog = .commit k) : ∃ a, k = .ret a := by
  obtain ⟨body, hbody, honly⟩ := h.body
  rw [hbody] at hk
  cases body with
  | ret a => cases hk; exact ⟨a, rfl⟩
  | commit k => exact absurd honly.1 hcommit
  | _ => cases hk

/-- **What a step does to the number of requests that have returned.** -/
theorem Step.returns (hcommit : ¬ φ .commit) (hrollback : ¬ φ .rollback)
    (hstart : ∀ i, (handle i).returned = false) (hu : ∀ tx ∈ c.txs, tx.OneUnit φ)
    (h : Step respond handle c c') :
    (c'.committed = c.committed ∧ ∀ f, c'.returns f = c.returns f) ∨
    ∃ (n : ℕ) (tx : Tx R A E α I), c.txs[n]? = some tx ∧ (∃ k, tx.prog = .commit k) ∧
      c'.txs[n]? ≠ some tx ∧ c'.committed = tx.view c.committed ∧
      ∀ f, c'.returns f = c.returns f + if f tx.req then 1 else 0 := by
  rcases h.elim with ⟨i, htxs, hc, -⟩ | ⟨n, tx, tx', hn, ht, htxs, hc, -⟩ | ⟨n, tx, e, hn, hd, htxs, hc, -⟩
  · refine .inl ⟨hc, fun f => ?_⟩
    unfold Config.returns
    rw [htxs, List.countP_append, List.countP_singleton]
    simp [hstart i]
  · obtain ⟨hscan, hunit⟩ := hu tx (List.mem_of_getElem? hn)
    rcases hc with ⟨hc, hne⟩ | ⟨hc, k, hk⟩
    · refine .inl ⟨hc, fun f => Config.returns_set hn htxs f ?_⟩
      cases hd : tx.prog.done with
      | true =>
        cases ht with
        | ended _ | snapshot _ _ | lock _ _ _ _ _ | skip _ _ _ _ => rfl
        | _ hp => rw [hp] at hd; cases hd
      | false =>
        have hafter : tx'.prog.returned = false := by
          rcases (hunit hd).turn hcommit hrollback hscan ht with h' | ⟨a, ha, -⟩ | ⟨e, he⟩
          · obtain ⟨body, hbody, -⟩ := h'.body
            exact Prog.returned_of_running (by rw [hbody]; exact Prog.unitOfWork_not_done body)
          · exact absurd ha (hne _)
          · rw [he]
            rfl
        rw [Prog.returned_of_running hd, hafter]
        rfl
    · have hd : tx.prog.done = false := by rw [hk]; rfl
      obtain ⟨a, rfl⟩ := (hunit hd).of_commit hcommit hk
      obtain ⟨hlt, htx⟩ := List.getElem?_eq_some_iff.mp hn
      have hret : tx'.prog = .ret a := by
        cases ht with
        | commit hp => cases hk.symm.trans hp; rfl
        | ended h => rw [hd] at h; cases h
        | snapshot hp | lock hp | skip hp => cases hk.symm.trans hp
        | _ hp => cases hk.symm.trans hp
      refine .inr ⟨n, tx, hn, ⟨_, hk⟩, fun hsame => ?_, hc, fun f => ?_⟩
      · rw [htxs, List.getElem?_set_self hlt] at hsame
        exact ht.prog_ne_of_commit hk (Option.some.inj hsame)
      · unfold Config.returns
        rw [htxs, List.countP_set hlt, htx, hret, hk, ht.req]
        simp [Prog.returned]
  · refine .inl ⟨hc, fun f => Config.returns_set hn htxs f ?_⟩
    rw [Prog.returned_of_running hd]
    rfl

end Txn
