import DevOpsAssistant.Providers.Circuit
import DevOpsAssistant.Specs.Histories
import Mathlib.Algebra.BigOperators.Group.Finset.Basic
import Mathlib.Algebra.GroupWithZero.Nat

/-!
# Failures recorded at the same time

* `CircuitUse`: failures and questions about one provider, interleaved; each loads the record and saves
  it in statements of its own.
* `CircuitProgress`: how far a program has come with the record.
* `FreshSaves`: a session saves a record only if what it has loaded is still stored.
* `CircuitStep`: what one step does to the record; `Counted`, `Uncounted`: every failure is counted, or one
  has been lost.
* **`failures_counted`**: no failure is lost when saves are fresh, and none of several failures is lost
  only then.
-/

namespace DevOps

open Txn

/-- The calls that record no success. -/
abbrev CircuitUse := { call : CircuitCall // call ≠ .recordSuccess }

/-- The failures a call records. -/
def CircuitCall.recorded : CircuitCall → ℕ
  | .recordFailure _ => 1
  | _ => 0

abbrev CircuitConfig := Config Row Answer Exc (Option Bool) CircuitUse World

abbrev CircuitRun := Recorded Row Answer Exc (Option Bool) CircuitUse World

variable (env : Env) (provider : String)

/-- The program of a call. -/
def CircuitUse.serve (use : CircuitUse) : Db (Option Bool) := use.1.program env provider

/-- The record a session has loaded last. -/
def loaded (h : Told) : Option CircuitData := h.findSome? fun
  | .answer (.loadCircuit _) d => some d
  | _ => none

/-- The session has saved a record. -/
def hasSaved (h : Told) : Bool := h.any fun
  | .answer (.saveCircuit _ _) _ => true
  | _ => false

/-- A program that records `δ` failures and has loaded the record `l`: it saves once, `δ` more failures
than it has loaded, and then returns. -/
def CircuitProgress (δ : ℕ) : Option CircuitData → Bool → Db (Option Bool) → Prop
  | _, saved, .ret _ => δ = 0 ∨ saved = true
  | _, _, .raise _ => True
  | l, saved, .ask .now k => ∀ t, CircuitProgress δ l saved (k t)
  | _, false, .ask (.loadCircuit p) k => p = provider ∧ ∀ d, CircuitProgress δ (some d) false (k d)
  | some d, false, .ask (.saveCircuit p d') k => p = provider ∧ d'.failureCount = d.failureCount + δ ∧
      (δ = 1 → env.settings.providerCircuitFailureThreshold ≤ d'.failureCount → d'.state = .opened) ∧
      CircuitProgress δ (some d) true (k ())
  | _, _, _ => False

section Progress

variable {env provider} {δ : ℕ} {l : Option CircuitData} {saved : Bool}

theorem CircuitProgress.done {b : Option Bool} (h : δ = 0 ∨ saved = true) :
    CircuitProgress env provider δ l saved (pure b) := by
  cases l <;> cases saved <;> exact h

theorem CircuitProgress.now {f : Time → Db (Option Bool)}
    (h : ∀ t, CircuitProgress env provider δ l saved (f t)) :
    CircuitProgress env provider δ l saved (now >>= f) := by
  cases l <;> cases saved <;> exact h

theorem CircuitProgress.load {f : CircuitData → Db (Option Bool)}
    (h : ∀ d, CircuitProgress env provider δ (some d) false (f d)) :
    CircuitProgress env provider δ l false (ProviderCircuitBreaker.load provider >>= f) := by
  cases l <;> exact ⟨rfl, h⟩

theorem CircuitProgress.save {d d' : CircuitData} {f : Unit → Db (Option Bool)}
    (hcount : d'.failureCount = d.failureCount + δ)
    (hopens : δ = 1 → env.settings.providerCircuitFailureThreshold ≤ d'.failureCount → d'.state = .opened)
    (hf : CircuitProgress env provider δ (some d) true (f ())) :
    CircuitProgress env provider δ (some d) false (ProviderCircuitBreaker.save provider d' >>= f) :=
  ⟨rfl, hcount, hopens, hf⟩

end Progress

theorem circuitProgress_serve (use : CircuitUse) :
    CircuitProgress env provider use.1.recorded none false (use.serve env provider) := by
  obtain ⟨call, hcall⟩ := use
  cases call with
  | recordFailure category =>
    change CircuitProgress env provider 1 none false
      (ProviderCircuitBreaker.recordFailure env provider category >>= fun _ => pure none)
    rw [ProviderCircuitBreaker.recordFailure, bind_assoc]
    refine .load fun d => ?_
    by_cases hle : env.settings.providerCircuitFailureThreshold ≤ d.failureCount + 1
    · simp only [if_pos hle, bind_assoc]
      exact .now fun t => .save rfl (fun _ _ => rfl) (.done (.inr rfl))
    · simp only [if_neg hle]
      exact .save rfl (fun _ h => absurd h hle) (.done (.inr rfl))
  | recordSuccess => exact absurd rfl hcall
  | isOpen =>
    change CircuitProgress env provider 0 none false
      (ProviderCircuitBreaker.isOpen env provider >>= fun b => pure (some b))
    rw [ProviderCircuitBreaker.isOpen, bind_assoc]
    refine .load fun snapshot => ?_
    by_cases hopen : snapshot.state ≠ .opened
    · rw [if_pos hopen]
      exact .done (.inl rfl)
    · rw [if_neg hopen, bind_assoc]
      refine .load fun d => ?_
      cases d.openedAt with
      | none => exact .done (.inl rfl)
      | some openedAt =>
        simp only
        by_cases hzero : openedAt = 0
        · rw [if_pos hzero]
          exact .done (.inl rfl)
        · rw [if_neg hzero, bind_assoc]
          refine .now fun t => ?_
          split
          · exact .save rfl (fun h => (by cases h)) (.done (.inl rfl))
          · exact .done (.inl rfl)

/-! ## What one step does to the record -/

/-- The record a session has loaded and has not saved yet. -/
def pending (h : Told) : Option CircuitData := if hasSaved h then none else loaded h

/-- What a session has added to the count of failures. -/
def CircuitConfig.bump (c : CircuitConfig) (g : ℕ → Told) (n : ℕ) : ℕ :=
  if hasSaved (g n) then (c.txs[n]?.map fun tx => tx.req.1.recorded).getD 0 else 0

/-- The failures that have been saved. -/
def CircuitRun.saved (x : CircuitRun) : ℕ :=
  ∑ n ∈ Finset.range x.config.txs.length, CircuitConfig.bump x.config x.history n

/-- The stored record. -/
def CircuitRun.record (x : CircuitRun) : CircuitData := x.config.world.circuit provider

/-- A session saves a record only if what it has loaded is still stored. -/
def FreshSaves (x y : CircuitRun) : Prop :=
  ∀ n tx p d k, x.config.txs[n]? = some tx → tx.prog = .ask (.saveCircuit p d) k →
    y.history n ≠ x.history n → loaded (x.history n) = some (x.record provider)

/-- Every session is as far as its history says. -/
structure CircuitInv (x : CircuitRun) : Prop where
  progress : ∀ n tx, x.config.txs[n]? = some tx → CircuitProgress env provider tx.req.1.recorded
    (loaded (x.history n)) (hasSaved (x.history n)) tx.prog
  blank : ∀ n, x.config.txs.length ≤ n → x.history n = []

/-- What one step does to the record. -/
inductive CircuitStep (x y : CircuitRun) : Prop where
  | quiet (record : y.record provider = x.record provider) (saved : y.saved = x.saved)
      (loads : ∀ n d, pending (y.history n) = some d →
        pending (x.history n) = some d ∨ d = x.record provider)
      (fresh : FreshSaves provider x y)
  | save {n : ℕ} {tx : Tx Row Answer Exc (Option Bool) CircuitUse} {d : CircuitData}
      (session : x.config.txs[n]? = some tx) (loaded : pending (x.history n) = some d)
      (count : (y.record provider).failureCount = d.failureCount + tx.req.1.recorded)
      (opens : tx.req.1.recorded = 1 →
        env.settings.providerCircuitFailureThreshold ≤ (y.record provider).failureCount →
          (y.record provider).state = .opened)
      (saved : y.saved = x.saved + tx.req.1.recorded)
      (loads : ∀ m d, pending (y.history m) = some d → pending (x.history m) = some d)
      (fresh : FreshSaves provider x y ↔ d = x.record provider)

section Steps

variable {env provider} {x y : CircuitRun} {n : ℕ} {tx tx' : Tx Row Answer Exc (Option Bool) CircuitUse}

theorem sum_eq_of_one {s : Finset ℕ} {f g : ℕ → ℕ} {δ : ℕ} (hn : n ∈ s) (hf : f n = g n + δ)
    (hother : ∀ m, m ≠ n → f m = g m) : ∑ m ∈ s, f m = ∑ m ∈ s, g m + δ := by
  rw [← Finset.add_sum_erase s f hn, ← Finset.add_sum_erase s g hn, hf,
    Finset.sum_congr rfl fun m hm => hother m (Finset.ne_of_mem_erase hm)]
  exact Nat.add_right_comm _ _ _

theorem map_recorded_set {c : CircuitConfig} (hn : c.txs[n]? = some tx) (hreq : tx'.req = tx.req) (m : ℕ) :
    ((c.txs.set n tx')[m]?.map fun tx => tx.req.1.recorded) =
      (c.txs[m]?.map fun tx => tx.req.1.recorded) := by
  by_cases hm : n = m
  · subst hm
    rw [List.getElem?_set_self (List.getElem?_eq_some_iff.mp hn).1, hn, Option.map_some, Option.map_some,
      hreq]
  · rw [List.getElem?_set_ne hm]

/-- A turn of the session `n`, which is told `es`. -/
structure Turned (x y : CircuitRun) (n : ℕ) (tx tx' : Tx Row Answer Exc (Option Bool) CircuitUse)
    (es : Told) : Prop where
  session : x.config.txs[n]? = some tx
  txs : y.config.txs = x.config.txs.set n tx'
  req : tx'.req = tx.req
  history : y.history = Function.update x.history n (es ++ x.history n)

theorem Turned.history_self {es : Told} (t : Turned x y n tx tx' es) :
    y.history n = es ++ x.history n := by rw [t.history, Function.update_self]

theorem Turned.history_other {es : Told} (t : Turned x y n tx tx' es) {m : ℕ} (hm : m ≠ n) :
    y.history m = x.history m := by rw [t.history, Function.update_of_ne hm]

theorem Turned.inv {es : Told} (t : Turned x y n tx tx' es) (i : CircuitInv env provider x)
    (hp : CircuitProgress env provider tx.req.1.recorded (loaded (es ++ x.history n))
      (hasSaved (es ++ x.history n)) tx'.prog) : CircuitInv env provider y := by
  have hlen := (List.getElem?_eq_some_iff.mp t.session).1
  refine ⟨fun m u hu => ?_, fun m hm => ?_⟩
  · rw [t.txs] at hu
    by_cases hmn : n = m
    · subst hmn
      rw [List.getElem?_set_self hlen] at hu
      cases hu
      rw [t.history_self, t.req]
      exact hp
    · rw [List.getElem?_set_ne hmn] at hu
      rw [t.history_other (Ne.symm hmn)]
      exact i.progress m u hu
  · rw [t.txs, List.length_set] at hm
    rw [t.history_other (by omega)]
    exact i.blank m hm

/-- The count of saved failures after a turn in which the session has saved, or has not. -/
theorem Turned.saved {es : Told} (t : Turned x y n tx tx' es) {δ : ℕ}
    (hδ : (if hasSaved (es ++ x.history n) then tx.req.1.recorded else 0) =
      (if hasSaved (x.history n) then tx.req.1.recorded else 0) + δ) : y.saved = x.saved + δ := by
  have hlen := (List.getElem?_eq_some_iff.mp t.session).1
  have hbump : ∀ m, CircuitConfig.bump y.config y.history m =
      if hasSaved (y.history m) then
        (x.config.txs[m]?.map fun tx => tx.req.1.recorded).getD 0 else 0 := fun m => by
    rw [CircuitConfig.bump, t.txs, map_recorded_set t.session t.req]
  rw [CircuitRun.saved, t.txs, List.length_set]
  refine sum_eq_of_one (Finset.mem_range.mpr hlen) ?_ fun m hm => ?_
  · rw [hbump, CircuitConfig.bump, t.history_self, t.session]
    exact hδ
  · rw [hbump, CircuitConfig.bump, t.history_other hm]

/-- A turn that neither loads nor saves a record. -/
theorem Turned.idle {es : Told} (t : Turned x y n tx tx' es) (hl : loaded (es ++ x.history n) =
      loaded (x.history n)) (hs : hasSaved (es ++ x.history n) = hasSaved (x.history n))
    (hrecord : y.record provider = x.record provider) (hprog : ∀ p d k, tx.prog ≠ .ask (.saveCircuit p d) k) :
    CircuitStep env provider x y := by
  refine .quiet hrecord (t.saved (by rw [hs, Nat.add_zero])) (fun m d hd => ?_) fun m u p d k hu hp hne => ?_
  · by_cases hm : m = n
    · subst hm
      rw [t.history_self, pending, hs, hl] at hd
      exact .inl hd
    · rw [t.history_other hm] at hd
      exact .inl hd
  · by_cases hm : m = n
    · subst hm
      rw [t.session] at hu
      cases hu
      exact absurd hp (hprog p d k)
    · exact absurd (t.history_other hm) hne

/-- A turn that loads the record. -/
theorem Turned.loads {p : String} {d : CircuitData}
    (t : Turned x y n tx tx' [.answer (.loadCircuit p) d])
    (hsaved : hasSaved (x.history n) = false) (hd : d = x.record provider)
    (hrecord : y.record provider = x.record provider) (hprog : ∀ p d k, tx.prog ≠ .ask (.saveCircuit p d) k) :
    CircuitStep env provider x y := by
  have hs : hasSaved ([.answer (.loadCircuit p) d] ++ x.history n) = false := hsaved
  refine .quiet hrecord (t.saved (by rw [hs, hsaved, Nat.add_zero])) (fun m e he => ?_)
    fun m u p d k hu hp hne => ?_
  · by_cases hm : m = n
    · subst hm
      rw [t.history_self, pending, hs] at he
      have : some d = some e := he
      cases this
      exact .inr hd
    · rw [t.history_other hm] at he
      exact .inl he
  · by_cases hm : m = n
    · subst hm
      rw [t.session] at hu
      cases hu
      exact absurd hp (hprog p d k)
    · exact absurd (t.history_other hm) hne

/-- A turn that saves a record. -/
theorem Turned.saves {p : String} {d d' : CircuitData} {k : Unit → Db (Option Bool)}
    (t : Turned x y n tx tx' [.answer (.saveCircuit p d') ()])
    (hp : tx.prog = .ask (.saveCircuit p d') k) (hsaved : hasSaved (x.history n) = false)
    (hd : loaded (x.history n) = some d) (hcount : d'.failureCount = d.failureCount + tx.req.1.recorded)
    (hopens : tx.req.1.recorded = 1 →
      env.settings.providerCircuitFailureThreshold ≤ d'.failureCount → d'.state = .opened)
    (hrecord : y.record provider = d') : CircuitStep env provider x y := by
  have hs : hasSaved ([.answer (.saveCircuit p d') ()] ++ x.history n) = true := rfl
  have hpending : pending (x.history n) = some d := by rw [pending, hsaved]; exact hd
  refine .save t.session hpending (hrecord ▸ hcount) (hrecord ▸ hopens)
    (t.saved (by rw [hs, hsaved]; simp)) (fun m e he => ?_) ⟨fun hf => ?_, fun heq m u q e k' hu hq hne => ?_⟩
  · by_cases hm : m = n
    · subst hm
      rw [t.history_self, pending, hs] at he
      cases he
    · rwa [t.history_other hm] at he
  · have hne : y.history n ≠ x.history n := by rw [t.history_self]; simp
    exact Option.some.inj (hd.symm.trans (hf n tx p d' k t.session hp hne))
  · by_cases hm : m = n
    · subst hm
      rw [hd, heq]
    · exact absurd (t.history_other hm) hne

/-- **What a turn does to the record.** -/
theorem circuitStep_turn {c' : CircuitConfig} (i : CircuitInv env provider x)
    (hn : x.config.txs[n]? = some tx) (ht : x.config.turn respond n = some c') :
    CircuitInv env provider ⟨c', x.config.record respond x.history (.turn n)⟩ ∧
      CircuitStep env provider x ⟨c', x.config.record respond x.history (.turn n)⟩ := by
  have hprogress := i.progress n tx hn
  have htold : x.config.told respond n = tx.prog.told respond x.config.toStore := by
    simp only [Config.told, hn]
  simp only [Config.turn, hn] at ht
  simp only [Config.record, htold]
  cases hp : tx.prog with
  | ret a =>
    rw [hp] at ht hprogress
    cases ht
    have t : Turned x ⟨x.config.put n { tx with toLocal := tx.clear }, Function.update x.history n
        ([] ++ x.history n)⟩ n tx { tx with toLocal := tx.clear } [] := ⟨hn, rfl, rfl, rfl⟩
    exact ⟨t.inv i (hp ▸ hprogress), t.idle rfl rfl rfl (by simp [hp])⟩
  | raise e =>
    rw [hp] at ht hprogress
    cases ht
    have t : Turned x ⟨x.config.put n { tx with toLocal := tx.clear }, Function.update x.history n
        ([] ++ x.history n)⟩ n tx { tx with toLocal := tx.clear } [] := ⟨hn, rfl, rfl, rfl⟩
    exact ⟨t.inv i (hp ▸ hprogress), t.idle rfl rfl rfl (by simp [hp])⟩
  | ask q k =>
    rw [hp] at ht hprogress
    cases ht
    have t : Turned x ⟨{ x.config.put n { tx with prog := k (respond q x.config.world).1 } with
        world := (respond q x.config.world).2 }, Function.update x.history n
          ([.answer q (respond q x.config.world).1] ++ x.history n)⟩ n tx
        { tx with prog := k (respond q x.config.world).1 } [.answer q (respond q x.config.world).1] :=
      ⟨hn, rfl, rfl, rfl⟩
    cases q with
    | now =>
      have hnext : CircuitProgress env provider tx.req.1.recorded (loaded (x.history n))
          (hasSaved (x.history n)) (k (respond .now x.config.world).1) := by
        cases hl : loaded (x.history n) <;> rw [hl] at hprogress <;> exact hprogress _
      exact ⟨t.inv i hnext, t.idle rfl rfl rfl (by simp [hp])⟩
    | loadCircuit p =>
      have hs : hasSaved (x.history n) = false := by
        cases hs : hasSaved (x.history n) with
        | false => rfl
        | true => cases hl : loaded (x.history n) <;> rw [hl, hs] at hprogress <;> exact hprogress.elim
      have hk : p = provider ∧ ∀ d, CircuitProgress env provider tx.req.1.recorded (some d) false (k d) := by
        cases hl : loaded (x.history n) <;> rw [hl, hs] at hprogress <;> exact hprogress
      obtain ⟨rfl, hk⟩ := hk
      refine ⟨t.inv i ?_, t.loads hs rfl rfl (by simp [hp])⟩
      have hs' : hasSaved ([.answer (.loadCircuit p) (respond (.loadCircuit p) x.config.world).1] ++
          x.history n) = false := hs
      rw [hs']
      exact hk _
    | saveCircuit p d' =>
      have hs : hasSaved (x.history n) = false := by
        cases hs : hasSaved (x.history n) with
        | false => rfl
        | true => cases hl : loaded (x.history n) <;> rw [hl, hs] at hprogress <;> exact hprogress.elim
      cases hl : loaded (x.history n) with
      | none =>
        rw [hl, hs] at hprogress
        exact hprogress.elim
      | some d =>
        rw [hl, hs] at hprogress
        obtain ⟨rfl, hcount, hopens, hk⟩ := hprogress
        have hrecord : ((p, d') :: x.config.world.circuits).lookup p = some d' := List.lookup_cons_self
        refine ⟨t.inv i ?_, t.saves hp hs hl hcount hopens (congrArg (·.getD .initial) hrecord)⟩
        change CircuitProgress env p tx.req.1.recorded (loaded (x.history n)) true (k ())
        rw [hl]
        exact hk
    | _ =>
      cases hl : loaded (x.history n) <;> cases hs : hasSaved (x.history n) <;> rw [hl, hs] at hprogress <;>
        exact hprogress.elim
  | _ =>
    rw [hp] at hprogress
    exact hprogress.elim

/-- **What one step does to the record.** -/
theorem circuitStep (i : CircuitInv env provider x)
    (h : RecordedStep respond (CircuitUse.serve env provider) x y) :
    CircuitInv env provider y ∧ CircuitStep env provider x y := by
  obtain ⟨m, hm, hhist⟩ := h
  cases m with
  | start use =>
    have hc := Option.some.inj hm
    obtain rfl : y = ⟨x.config.arrive (CircuitUse.serve env provider) use, x.history⟩ := by
      rw [hc]
      exact congrArg (Recorded.mk y.config) hhist
    have hblank : x.history x.config.txs.length = [] := i.blank _ (Nat.le_refl _)
    refine ⟨⟨fun m u hu => ?_, fun m hm => ?_⟩, .quiet rfl ?_ (fun _ _ hd => .inl hd) ?_⟩
    · simp only [Config.arrive] at hu
      rw [List.getElem?_append] at hu
      split at hu
      · exact i.progress m u hu
      · next hlt =>
        obtain ⟨hm, rfl⟩ : m - x.config.txs.length = 0 ∧ _ = u := by
          simpa [List.getElem?_singleton] using hu
        obtain rfl : m = x.config.txs.length := by omega
        rw [hblank]
        exact circuitProgress_serve env provider use
    · simp only [Config.arrive, List.length_append, List.length_singleton] at hm
      exact i.blank m (by omega)
    · have hlast : CircuitConfig.bump (x.config.arrive (CircuitUse.serve env provider) use) x.history
          x.config.txs.length = 0 := by
        rw [CircuitConfig.bump, hblank]
        rfl
      simp only [CircuitRun.saved, Config.arrive, List.length_append, List.length_singleton,
        Finset.sum_range_succ]
      refine (congrArg (_ + ·) hlast).trans ((Nat.add_zero _).trans (Finset.sum_congr rfl fun m hm => ?_))
      rw [CircuitConfig.bump, CircuitConfig.bump, List.getElem?_append_left (Finset.mem_range.mp hm)]
    · exact fun m u p d k _ _ hne => absurd rfl hne
  | turn n =>
    simp only [Config.step] at hm
    have hm' := hm
    simp only [Config.turn] at hm'
    split at hm'
    · next tx hn =>
      have hy : y = ⟨y.config, x.config.record respond x.history (.turn n)⟩ := by rw [← hhist]
      rw [hy]
      exact circuitStep_turn i hn hm
    · cases hm'
  | lost n e =>
    simp only [Config.step] at hm
    split at hm
    · next tx hn =>
      split at hm
      · cases hm
      · have hc := Option.some.inj hm
        have hh : y.history = Function.update x.history n ([] ++ x.history n) := by
          rw [List.nil_append, Function.update_eq_self]
          exact hhist
        have t : Turned x y n tx { tx.clear with req := tx.req, prog := .raise e, scan := none } [] :=
          ⟨hn, by rw [← hc]; rfl, rfl, hh⟩
        have hsame : y.history n = x.history n := t.history_self
        refine ⟨t.inv i trivial, .quiet (by rw [CircuitRun.record, ← hc]; rfl)
          (t.saved (Nat.add_zero _).symm) (fun m d hd => ?_) fun m u p d k hu hp hne => ?_⟩
        · by_cases hmn : m = n
          · subst hmn
            rw [hsame] at hd
            exact .inl hd
          · rw [t.history_other hmn] at hd
            exact .inl hd
        · by_cases hmn : m = n
          · subst hmn
            exact absurd hsame hne
          · exact absurd (t.history_other hmn) hne
    · cases hm

end Steps

/-! ## Runs -/

/-- All calls record failures. -/
def CircuitConfig.Failing (c : CircuitConfig) : Prop := ∀ tx ∈ c.txs, tx.req.1.recorded = 1

/-- The failures that the sessions of a configuration record. -/
def CircuitConfig.recorded (c : CircuitConfig) : ℕ := (c.txs.map fun tx => tx.req.1.recorded).sum

/-- Every failure is counted, from the state `s` on, and the circuit is open when they are enough. -/
structure AllCounted (s : State) (c : CircuitConfig) : Prop where
  count : (c.world.circuit provider).failureCount = (s.world.circuit provider).failureCount + c.recorded
  opened : c.Failing → 0 < c.recorded → env.settings.providerCircuitFailureThreshold ≤
    (s.world.circuit provider).failureCount + c.recorded → (c.world.circuit provider).state = .opened

/-- Every failure that has been saved is counted, from `init` on. -/
structure Counted (init : ℕ) (x : CircuitRun) : Prop where
  count : (x.record provider).failureCount = init + x.saved
  opened : CircuitConfig.Failing x.config → 0 < x.saved →
    env.settings.providerCircuitFailureThreshold ≤ init + x.saved → (x.record provider).state = .opened

/-- What a session has loaded is stored, or the count has grown since. -/
def Behind (x : CircuitRun) : Prop :=
  ∀ n d, pending (x.history n) = some d →
    d = x.record provider ∨ d.failureCount < (x.record provider).failureCount

/-- A failure that has been saved is not counted, and will not be. -/
structure Uncounted (init : ℕ) (x : CircuitRun) : Prop where
  count : (x.record provider).failureCount < init + x.saved
  pending : ∀ n d, pending (x.history n) = some d → d.failureCount < init + x.saved

section Runs

variable {env provider} {x y : CircuitRun} {init : ℕ}

/-- The sessions there are keep their requests. -/
theorem failing_of_step (h : RecordedStep respond (CircuitUse.serve env provider) x y)
    (hy : CircuitConfig.Failing y.config) : CircuitConfig.Failing x.config := by
  intro tx htx
  obtain ⟨m, hm⟩ := List.mem_iff_getElem?.mp htx
  have hlen := (List.getElem?_eq_some_iff.mp hm).1
  have hset : ∀ {n : ℕ} {u u' : Tx Row Answer Exc (Option Bool) CircuitUse},
      x.config.txs[n]? = some u → u'.req = u.req → y.config.txs = x.config.txs.set n u' →
      tx.req.1.recorded = 1 := by
    intro n u u' hn hreq htxs
    have hmap := map_recorded_set hn hreq m
    rw [← htxs, hm] at hmap
    obtain ⟨u'', hu'', heq⟩ := Option.map_eq_some_iff.mp hmap
    exact heq.symm.trans (hy u'' (List.mem_of_getElem? hu''))
  rcases h.step.elim with ⟨i, htxs, -⟩ | ⟨n, u, u', hn, hturn, htxs, -⟩ | ⟨n, u, e, hn, -, htxs, -⟩
  · exact hy tx (htxs ▸ List.mem_append_left _ htx)
  · exact hset hn (by cases hturn <;> rfl) htxs
  · refine hset hn ?_ htxs
    rfl

/-- **Fresh saves count.** -/
theorem Counted.step (k : Counted env provider init x)
    (h : RecordedStep respond (CircuitUse.serve env provider) x y) (st : CircuitStep env provider x y)
    (hf : FreshSaves provider x y) : Counted env provider init y := by
  cases st with
  | quiet record saved =>
    refine ⟨by rw [record, saved]; exact k.count, fun hy => ?_⟩
    rw [record, saved]
    exact k.opened (failing_of_step h hy)
  | @save n tx d session loaded count opens saved loads fresh =>
    obtain rfl := fresh.mp hf
    have hcount : (y.record provider).failureCount = init + y.saved := by
      rw [count, saved, k.count]
      omega
    refine ⟨hcount, fun hy _ hle => ?_⟩
    exact opens (failing_of_step h hy tx (List.mem_of_getElem? session)) (hcount ▸ hle)

/-- While no failure is lost, what sessions have loaded is stored or behind. -/
theorem Behind.step (b : Behind provider x) (st : CircuitStep env provider x y)
    (hx : CircuitConfig.Failing x.config) (hf : FreshSaves provider x y) : Behind provider y := by
  intro n d hd
  cases st with
  | quiet record saved loads =>
    rw [record]
    rcases loads n d hd with hd | rfl
    · exact b n d hd
    · exact .inl rfl
  | @save m tx e session loaded count opens saved loads fresh =>
    obtain rfl := fresh.mp hf
    rw [hx tx (List.mem_of_getElem? session)] at count
    rcases b n d (loads n d hd) with rfl | hlt
    · exact .inr (by omega)
    · exact .inr (by omega)

/-- **A save that is not fresh loses a failure.** -/
theorem lost_of_step (k : Counted env provider init x) (b : Behind provider x)
    (st : CircuitStep env provider x y) (hx : CircuitConfig.Failing x.config)
    (hf : ¬ FreshSaves provider x y) : Uncounted provider init y := by
  have hbound : ∀ n d, pending (x.history n) = some d → d.failureCount ≤ init + x.saved := by
    intro n d hd
    rw [← k.count]
    rcases b n d hd with rfl | hlt
    · exact Nat.le_refl _
    · exact Nat.le_of_lt hlt
  cases st with
  | quiet record saved loads fresh => exact absurd fresh hf
  | @save m tx e session loaded count opens saved loads fresh =>
    rw [hx tx (List.mem_of_getElem? session)] at count saved
    have hlt : e.failureCount < init + x.saved := by
      rw [← k.count]
      exact (b m e loaded).resolve_left fun he => hf (fresh.mpr he)
    refine ⟨by omega, fun n d hd => ?_⟩
    have := hbound n d (loads n d hd)
    omega

/-- What is lost stays lost. -/
theorem Uncounted.step (k : Uncounted provider init x) (st : CircuitStep env provider x y)
    (hx : CircuitConfig.Failing x.config) : Uncounted provider init y := by
  have hcount := k.count
  cases st with
  | quiet record saved loads =>
    refine ⟨by rw [record, saved]; exact hcount, fun n d hd => ?_⟩
    rw [saved]
    rcases loads n d hd with hd | rfl
    · exact k.pending n d hd
    · exact hcount
  | @save m tx e session loaded count opens saved loads fresh =>
    rw [hx tx (List.mem_of_getElem? session)] at count saved
    have hlt := k.pending m e loaded
    refine ⟨by omega, fun n d hd => ?_⟩
    have := k.pending n d (loads n d hd)
    omega

/-- The invariant at the start of a run. -/
theorem circuitInv_open (s : State) : CircuitInv env provider (s.open : CircuitConfig).unrecorded :=
  ⟨fun _ _ h => by simp [Store.open, Config.unrecorded] at h, fun _ _ => rfl⟩

theorem counted_open (s : State) :
    Counted env provider (s.world.circuit provider).failureCount (s.open : CircuitConfig).unrecorded :=
  ⟨rfl, fun _ h => absurd h (Nat.lt_irrefl 0)⟩

/-- **Along a run with fresh saves** every failure that has been saved is counted. -/
theorem counted_of_fresh {s : State} (h : RecordedReach respond (CircuitUse.serve env provider)
    (FreshSaves provider) (s.open : CircuitConfig).unrecorded x) :
    CircuitInv env provider x ∧ Counted env provider (s.world.circuit provider).failureCount x := by
  induction h with
  | refl => exact ⟨circuitInv_open s, counted_open s⟩
  | tail _ hs ih =>
    obtain ⟨i, k⟩ := ih
    obtain ⟨i', st⟩ := circuitStep i hs.1
    exact ⟨i', k.step hs.1 st hs.2⟩

/-- **Along a run of failures** the saves have been fresh, or a failure is lost. -/
theorem fresh_or_lost {s : State} (h : RecordedReach respond (CircuitUse.serve env provider)
    (fun _ _ => True) (s.open : CircuitConfig).unrecorded x) (hx : CircuitConfig.Failing x.config) :
    CircuitInv env provider x ∧
      ((RecordedReach respond (CircuitUse.serve env provider) (FreshSaves provider)
          (s.open : CircuitConfig).unrecorded x ∧ Behind provider x) ∨
        Uncounted provider (s.world.circuit provider).failureCount x) := by
  induction h with
  | refl => exact ⟨circuitInv_open s, .inl ⟨.refl, fun n d hd => nomatch hd⟩⟩
  | @tail y z _ hs ih =>
    have hy := failing_of_step hs.1 hx
    obtain ⟨i, hcase⟩ := ih hy
    obtain ⟨i', st⟩ := circuitStep i hs.1
    refine ⟨i', ?_⟩
    rcases hcase with ⟨hreach, b⟩ | hlost
    · by_cases hf : FreshSaves provider y z
      · exact .inl ⟨hreach.tail ⟨hs.1, hf⟩, b.step st hy hf⟩
      · exact .inr (lost_of_step (counted_of_fresh hreach).2 b st hy hf)
    · exact .inr (hlost.step st hy)

theorem sum_range_getElem? {α : Type} (f : α → ℕ) :
    ∀ l : List α, ∑ n ∈ Finset.range l.length, (l[n]?.map f).getD 0 = (l.map f).sum
  | [] => rfl
  | a :: l => by
    rw [List.length_cons, Finset.sum_range_succ']
    simp only [List.getElem?_cons_succ, List.getElem?_cons_zero, Option.map_some, Option.getD_some,
      List.map_cons, List.sum_cons]
    rw [sum_range_getElem? f l, Nat.add_comm]

/-- When all calls have returned, all their failures have been saved. -/
theorem saved_eq_recorded (i : CircuitInv env provider x)
    (hret : ∀ tx ∈ x.config.txs, tx.prog.returned = true) :
    x.saved = CircuitConfig.recorded x.config := by
  rw [CircuitRun.saved, CircuitConfig.recorded, ← sum_range_getElem?]
  refine Finset.sum_congr rfl fun n hn => ?_
  rw [CircuitConfig.bump]
  have hlt := Finset.mem_range.mp hn
  have htx : x.config.txs[n]? = some x.config.txs[n] := List.getElem?_eq_getElem hlt
  have hprogress := i.progress n _ htx
  obtain ⟨a, ha⟩ := Prog.exists_ret (hret _ (List.getElem_mem hlt))
  rw [ha] at hprogress
  rw [htx, Option.map_some, Option.getD_some]
  have hsaved : x.config.txs[n].req.1.recorded = 0 ∨ hasSaved (x.history n) = true := by
    cases hl : loaded (x.history n) <;> rw [hl] at hprogress <;> exact hprogress
  rcases hsaved with h0 | hs
  · rw [h0, ite_self]
  · rw [if_pos hs]

end Runs

/-- **No failure is lost** when calls have returned whose saves were all fresh; and when all the calls
record failures, none is lost only then. -/
theorem failures_counted (s : State) (x : CircuitRun)
    (hx : RecordedReach respond (CircuitUse.serve env provider) (fun _ _ => True)
      (s.open : CircuitConfig).unrecorded x) (hret : ∀ tx ∈ x.config.txs, tx.prog.returned = true) :
    (RecordedReach respond (CircuitUse.serve env provider) (FreshSaves provider)
        (s.open : CircuitConfig).unrecorded x → AllCounted env provider s x.config) ∧
      (CircuitConfig.Failing x.config → AllCounted env provider s x.config →
        RecordedReach respond (CircuitUse.serve env provider) (FreshSaves provider)
          (s.open : CircuitConfig).unrecorded x) := by
  refine ⟨fun hfresh => ?_, fun hfail hall => ?_⟩
  · obtain ⟨i, k⟩ := counted_of_fresh hfresh
    have hsaved := saved_eq_recorded i hret
    exact ⟨hsaved ▸ k.count, hsaved ▸ k.opened⟩
  · obtain ⟨i, ⟨hreach, -⟩ | hlost⟩ := fresh_or_lost hx hfail
    · exact hreach
    · have hlt := hlost.count
      rw [saved_eq_recorded i hret] at hlt
      exact absurd hall.count (Nat.ne_of_lt hlt)

/-- A failure. -/
def CircuitUse.trial : CircuitUse := ⟨.recordFailure "transient", nofun⟩

/-- One failure. -/
theorem failures_counted_trial : ∃ x, RecordedReach respond (CircuitUse.serve .trial "gemini")
    (FreshSaves "gemini") ((State.trial.open : CircuitConfig).unrecorded) x ∧
      AllCounted .trial "gemini" State.trial x.config ∧ CircuitConfig.recorded x.config = 1 := by
  obtain ⟨c, hreach, hc⟩ : ∃ c, Reach respond (CircuitUse.serve .trial "gemini") State.trial.open c ∧
      (c.txs.all (fun tx => tx.prog.returned && tx.req.1.recorded = 1) &&
        (c.world.circuit "gemini").failureCount = 1 && CircuitConfig.recorded c = 1) = true :=
    exists_reach_of_run respond _ [.start .trial, .turn 0, .turn 0] _ (by decide)
  obtain ⟨g, hrec⟩ := RecordedReach.of_reach hreach fun _ => []
  simp only [Bool.and_eq_true, List.all_eq_true, decide_eq_true_eq] at hc
  obtain ⟨⟨hall, hcount⟩, hone⟩ := hc
  obtain ⟨hcounted, hfresh⟩ := failures_counted .trial "gemini" State.trial ⟨c, g⟩ hrec fun tx htx =>
    (hall tx htx).1
  have hreach' := hfresh (fun tx htx => (hall tx htx).2)
    ⟨by rw [hcount, hone]; rfl, fun _ _ hle => absurd hle (by rw [hone]; decide)⟩
  exact ⟨⟨c, g⟩, hreach', hcounted hreach', hone⟩

/-- Two failures that load the record before either saves it count as one. -/
theorem not_failures_counted : ∃ x, RecordedReach respond (CircuitUse.serve .trial "gemini")
    (fun _ _ => True) ((State.trial.open : CircuitConfig).unrecorded) x ∧
      (∀ tx ∈ x.config.txs, tx.prog.returned = true) ∧ CircuitConfig.Failing x.config ∧
        CircuitConfig.recorded x.config = 2 ∧ (x.config.world.circuit "gemini").failureCount = 1 ∧
          ¬ AllCounted .trial "gemini" State.trial x.config := by
  obtain ⟨c, hreach, hc⟩ : ∃ c, Reach respond (CircuitUse.serve .trial "gemini") State.trial.open c ∧
      (c.txs.all (fun tx => tx.prog.returned && tx.req.1.recorded = 1) &&
        (c.world.circuit "gemini").failureCount = 1 && CircuitConfig.recorded c = 2) = true :=
    exists_reach_of_run respond _ [.start .trial, .start .trial, .turn 0, .turn 1, .turn 0, .turn 1] _ (by decide)
  obtain ⟨g, hrec⟩ := RecordedReach.of_reach hreach fun _ => []
  simp only [Bool.and_eq_true, List.all_eq_true, decide_eq_true_eq] at hc
  obtain ⟨⟨hall, hcount⟩, htwo⟩ := hc
  refine ⟨⟨c, g⟩, hrec, fun tx htx => (hall tx htx).1, fun tx htx => (hall tx htx).2, htwo, hcount,
    fun h => ?_⟩
  have := h.count
  rw [hcount, htwo] at this
  cases this

end DevOps
