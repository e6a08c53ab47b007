import DevOpsAssistant.Services.ProviderService
import DevOpsAssistant.Specs.Runs

/-!
# The circuit of one provider

* `CircuitCall`: the calls of the breaker; `CircuitCall.step`: what a call makes of the record.
* `failures`, `lastFailure`: the failures since the last success, and the time of the last failure.
* `Tracks`: the record agrees with the history.
* **`isOpen_eq`**: the circuit is open when the threshold is reached and the last failure is recent.
-/

namespace DevOps

open Txn

/-- The calls of the circuit breaker. -/
inductive CircuitCall where
  | recordFailure (category : String)
  | recordSuccess
  | isOpen

/-- The program of a call; `isOpen` returns a value. -/
def CircuitCall.program (env : Env) (provider : String) : CircuitCall → Db (Option Bool)
  | .recordFailure category => do
    ProviderCircuitBreaker.recordFailure env provider category
    return none
  | .recordSuccess => do
    ProviderCircuitBreaker.recordSuccess provider
    return none
  | .isOpen => do
    return some (← ProviderCircuitBreaker.isOpen env provider)

/-- The clock stands at `t`. -/
def World.at (w : World) (t : Time) : World := { w with time := t, ticks := fun _ => 0 }

/-- The record of a provider. -/
def World.circuit (w : World) (provider : String) : CircuitData :=
  (w.circuits.lookup provider).getD .initial

variable (env : Env) (provider : String)

/-- A call at the time `t`: what it returns, and the state after it. -/
def CircuitCall.serve (s : State) (call : CircuitCall) (t : Time) : Except Exc (Option Bool) × State :=
  Store.serve respond (CircuitCall.program env provider) { s with world := s.world.at t } call

/-- The state after a history of calls, the latest first. -/
def stateAfter (s : State) : List (CircuitCall × Time) → State
  | [] => s
  | (call, t) :: h => (call.serve env provider (stateAfter s h) t).2

/-! ## The specification -/

/-- The number of failures since the last success. -/
def failures : List (CircuitCall × Time) → ℕ
  | [] => 0
  | (.recordFailure _, _) :: h => failures h + 1
  | (.recordSuccess, _) :: _ => 0
  | (.isOpen, _) :: h => failures h

/-- The time of the last failure. -/
def lastFailure : List (CircuitCall × Time) → Option Time
  | [] => none
  | (.recordFailure _, t) :: _ => some t
  | (.recordSuccess, _) :: h | (.isOpen, _) :: h => lastFailure h

/-! ## One call -/

/-- An open circuit whose recovery period is over at the time `t`. -/
def CircuitData.recovered (d : CircuitData) (t : Time) : Prop :=
  ∃ openedAt, d.openedAt = some openedAt ∧ openedAt ≠ 0 ∧
    openedAt + seconds env.settings.providerCircuitRecoverySeconds ≤ t

instance (d : CircuitData) (t : Time) : Decidable (d.recovered env t) :=
  match h : d.openedAt with
  | none => isFalse fun ⟨_, ho, _⟩ => by rw [h] at ho; cases ho
  | some openedAt =>
    if hr : openedAt ≠ 0 ∧ openedAt + seconds env.settings.providerCircuitRecoverySeconds ≤ t then
      isTrue ⟨openedAt, h, hr⟩
    else isFalse fun ⟨_, ho, hr'⟩ => by rw [h] at ho; cases ho; exact hr hr'

/-- What a call at the time `t` makes of the record. -/
def CircuitCall.step (d : CircuitData) (t : Time) : CircuitCall → CircuitData
  | .recordFailure category =>
    if env.settings.providerCircuitFailureThreshold ≤ d.failureCount + 1 then
      { d with
        state := .opened
        failureCount := d.failureCount + 1
        lastFailureCategory := some category
        openedAt := some t }
    else
      { d with
        state := .closed
        failureCount := d.failureCount + 1
        lastFailureCategory := some category }
  | .recordSuccess =>
    { d with
      state := .closed
      failureCount := 0
      successCount := d.successCount + 1
      lastSuccessAt := some t }
  | .isOpen => if d.state = .opened ∧ d.recovered env t then { d with state := .halfOpen } else d

/-- What a call at the time `t` returns when it finds the record `d`. -/
def CircuitCall.answer (d : CircuitData) (t : Time) : CircuitCall → Option Bool
  | .recordFailure _ | .recordSuccess => none
  | .isOpen => some (d.state = .opened ∧ ¬ d.recovered env t)

section Calls

variable {env provider} {s : Session Row World} {d : CircuitData} {t : Time}

theorem ends_load {α : Type} {g : CircuitData → Db α} {Φ : Except Exc α → Session Row World → Prop} :
    (ProviderCircuitBreaker.load provider >>= g).Ends respond s Φ ↔
      (g (s.world.circuit provider)).Ends respond s Φ := Iff.rfl

theorem ends_save {α : Type} {g : Unit → Db α} {Φ : Except Exc α → Session Row World → Prop} :
    (ProviderCircuitBreaker.save provider d >>= g).Ends respond s Φ ↔ (g ()).Ends respond
      { s with world := { s.world with circuits := (provider, d) :: s.world.circuits } } Φ := Iff.rfl

/-- The call has returned `a`, and the record is `d`. -/
def leaves (provider : String) (a : Option Bool) (d : CircuitData) :
    Except Exc (Option Bool) → Session Row World → Prop :=
  fun r s => r = .ok a ∧ s.world.circuit provider = d

theorem leaves_saved {a : Option Bool} :
    (ProviderCircuitBreaker.save provider d >>= fun _ => (pure a : Db (Option Bool))).Ends respond s
      (leaves provider a d) := by
  have hlookup : ((provider, d) :: s.world.circuits).lookup provider = some d := List.lookup_cons_self
  exact ends_save.mpr ⟨rfl, congrArg (·.getD .initial) hlookup⟩

/-- **A call changes the record as `step` says.** -/
theorem ends_call (call : CircuitCall) (hd : s.world.circuit provider = d)
    (ht : s.world.tick.time = t) : (call.program env provider).Ends respond s
      (leaves provider (call.answer env d t) (call.step env d t)) := by
  cases call with
  | recordFailure category =>
    rw [CircuitCall.program, ProviderCircuitBreaker.recordFailure, bind_assoc, ends_load, hd]
    simp only [CircuitCall.step]
    by_cases hle : env.settings.providerCircuitFailureThreshold ≤ d.failureCount + 1
    · rw [if_pos hle, if_pos hle, bind_assoc, ends_now, ht]
      exact leaves_saved
    · rw [if_neg hle, if_neg hle]
      exact leaves_saved
  | recordSuccess =>
    rw [CircuitCall.program, ProviderCircuitBreaker.recordSuccess, bind_assoc, ends_load, hd, bind_assoc,
      ends_now, ht]
    exact leaves_saved
  | isOpen =>
    rw [CircuitCall.program, ProviderCircuitBreaker.isOpen, bind_assoc, ends_load, hd]
    simp only [CircuitCall.step, CircuitCall.answer]
    by_cases hopen : d.state = .opened
    · rw [if_neg (not_not.mpr hopen), bind_assoc, ends_load, hd]
      cases ho : d.openedAt with
      | none =>
        have hr : ¬ d.recovered env t := by
          rintro ⟨_, h, -⟩
          rw [ho] at h
          cases h
        simp only [hopen, hr]
        exact ⟨rfl, hd⟩
      | some openedAt =>
        have hrec : d.recovered env t ↔ openedAt ≠ 0 ∧
            openedAt + seconds env.settings.providerCircuitRecoverySeconds ≤ t :=
          ⟨fun h => by obtain ⟨o, h, h'⟩ := h; rw [ho] at h; cases h; exact h',
            fun h' => ⟨openedAt, ho, h'⟩⟩
        simp only
        by_cases hzero : openedAt = 0
        · have hr : ¬ d.recovered env t := fun h => (hrec.mp h).1 hzero
          rw [if_pos hzero]
          simp only [hopen, hr]
          exact ⟨rfl, hd⟩
        · rw [if_neg hzero, bind_assoc, ends_now, ht]
          by_cases hle : openedAt + seconds env.settings.providerCircuitRecoverySeconds ≤ t
          · have hr : d.recovered env t := hrec.mpr ⟨hzero, hle⟩
            rw [if_pos hle]
            simp only [hopen, hr]
            exact leaves_saved
          · have hr : ¬ d.recovered env t := fun h => hle (hrec.mp h).2
            rw [if_neg hle]
            simp only [hopen, hr]
            exact ⟨rfl, hd⟩
    · rw [if_pos hopen]
      simp only [hopen]
      exact ⟨rfl, hd⟩

end Calls

/-! ## Histories -/

/-- The record `d` agrees with the history `h`, whose calls are no later than `t`. -/
structure Tracks (env : Env) (d : CircuitData) (h : List (CircuitCall × Time)) (t : Time) : Prop where
  count : d.failureCount = failures h
  closed : failures h < env.settings.providerCircuitFailureThreshold → d.state = .closed
  opened : env.settings.providerCircuitFailureThreshold ≤ failures h → d.openedAt = lastFailure h
  open_or_recovered : env.settings.providerCircuitFailureThreshold ≤ failures h → d.state = .opened ∨
    ∃ last, lastFailure h = some last ∧ last + seconds env.settings.providerCircuitRecoverySeconds ≤ t

section Histories

variable {env : Env} {provider : String} {d : CircuitData} {h : List (CircuitCall × Time)} {t t' : Time}

/-- **A call keeps the record in agreement** with the history. -/
theorem Tracks.step (k : Tracks env d h t) (hthreshold : 1 ≤ env.settings.providerCircuitFailureThreshold)
    (ht : t ≤ t') (call : CircuitCall) : Tracks env (call.step env d t') ((call, t') :: h) t' := by
  cases call with
  | recordFailure category =>
    simp only [CircuitCall.step, k.count]
    by_cases hle : env.settings.providerCircuitFailureThreshold ≤ failures h + 1
    · rw [if_pos hle]
      exact ⟨rfl, fun hlt => absurd hle (Nat.not_le.mpr hlt), fun _ => rfl, fun _ => .inl rfl⟩
    · rw [if_neg hle]
      exact ⟨rfl, fun _ => rfl, fun hge => absurd hge hle, fun hge => absurd hge hle⟩
  | recordSuccess =>
    have hnot : ¬ env.settings.providerCircuitFailureThreshold ≤ 0 := by omega
    exact ⟨rfl, fun _ => rfl, fun hge => absurd hge hnot, fun hge => absurd hge hnot⟩
  | isOpen =>
    simp only [CircuitCall.step]
    split
    · next hrec =>
      obtain ⟨hopen, last, hlast, -, hle⟩ := hrec
      refine ⟨k.count, fun hlt => ?_, k.opened, fun hge => .inr ⟨last, ?_, hle⟩⟩
      · rw [k.closed hlt] at hopen
        cases hopen
      · exact (k.opened hge).symm.trans hlast
    · refine ⟨k.count, k.closed, k.opened, fun hge => (k.open_or_recovered hge).imp_right ?_⟩
      exact fun ⟨last, hlast, hle⟩ => ⟨last, hlast, Nat.le_trans hle ht⟩

theorem circuit_serve_eq (s : State) (call : CircuitCall) (t : Time) :
    (call.serve env provider s t).1 = .ok (call.answer env (s.world.circuit provider) t) ∧
      (call.serve env provider s t).2.world.circuit provider =
        call.step env (s.world.circuit provider) t :=
  ends_call (s := { committed := s.committed, nextId := s.nextId, world := s.world.at t, log := [] }) call
    rfl (Nat.add_zero t)

/-- The record agrees with every history of a provider that had none. -/
theorem tracks_stateAfter {s : State} (hnew : s.world.circuit provider = .initial)
    (hthreshold : 1 ≤ env.settings.providerCircuitFailureThreshold) :
    ∀ (h : List (CircuitCall × Time)) {t : Time}, (h.Pairwise fun a b => b.2 ≤ a.2) →
      (∀ a ∈ h, a.2 ≤ t) → Tracks env ((stateAfter env provider s h).world.circuit provider) h t
  | [], _, _, _ => by
    have hnot : ¬ env.settings.providerCircuitFailureThreshold ≤ 0 := by omega
    rw [stateAfter, hnew]
    exact ⟨rfl, fun _ => rfl, fun hge => absurd hge hnot, fun hge => absurd hge hnot⟩
  | (call, t₀) :: h, t, hsorted, hle => by
    rw [List.pairwise_cons] at hsorted
    have k := tracks_stateAfter hnew hthreshold h hsorted.2 (fun a ha => hsorted.1 a ha)
    have k' := k.step hthreshold (Nat.le_refl t₀) call
    rw [stateAfter, (circuit_serve_eq _ call t₀).2]
    have hlast := hle _ List.mem_cons_self
    exact ⟨k'.count, k'.closed, k'.opened, fun hge => (k'.open_or_recovered hge).imp_right
      fun ⟨last, h₁, h₂⟩ => ⟨last, h₁, Nat.le_trans h₂ hlast⟩⟩

/-- The last failure is one of the calls. -/
theorem exists_of_lastFailure : ∀ (h : List (CircuitCall × Time)) {last : Time},
    lastFailure h = some last → ∃ a ∈ h, a.2 = last
  | [], _, hl => nomatch hl
  | (.recordFailure _, _) :: _, _, hl => by cases hl; exact ⟨_, List.mem_cons_self, rfl⟩
  | (.recordSuccess, _) :: h, _, hl | (.isOpen, _) :: h, _, hl => by
    obtain ⟨a, ha, h'⟩ := exists_of_lastFailure h hl
    exact ⟨a, List.mem_cons_of_mem _ ha, h'⟩

/-- Where there has been a failure, there is a last one. -/
theorem exists_lastFailure : ∀ (h : List (CircuitCall × Time)), 0 < failures h →
    ∃ last, lastFailure h = some last
  | [], hf => absurd hf (Nat.lt_irrefl 0)
  | (.recordFailure _, t) :: _, _ => ⟨t, rfl⟩
  | (.recordSuccess, _) :: _, hf => absurd hf (Nat.lt_irrefl 0)
  | (.isOpen, _) :: h, hf => exists_lastFailure h hf

theorem sub_lt_iff {a r t : ℕ} (h : a ≤ t) : t - a < r ↔ ¬ a + r ≤ t := by omega

/-- **The circuit is open** at the time `t` when the failures since the last success have reached the
threshold and the last failure is more recent than the recovery period; `is_open` says so after every
history of calls. -/
theorem isOpen_eq (env : Env) (provider : String) (s : State)
    (hnew : s.world.circuit provider = .initial)
    (hthreshold : 1 ≤ env.settings.providerCircuitFailureThreshold)
    (h : List (CircuitCall × Time)) (t : Time) (hsorted : h.Pairwise fun a b => b.2 ≤ a.2)
    (hle : ∀ a ∈ h, a.2 ≤ t) (hpos : ∀ a ∈ h, 0 < a.2) :
    (CircuitCall.isOpen.serve env provider (stateAfter env provider s h) t).1 =
      .ok (some (decide (env.settings.providerCircuitFailureThreshold ≤ failures h ∧
        ∃ last ∈ lastFailure h, t - last < seconds env.settings.providerCircuitRecoverySeconds))) := by
  have k := tracks_stateAfter hnew hthreshold h hsorted hle
  rw [(circuit_serve_eq _ .isOpen t).1]
  simp only [CircuitCall.answer]
  congr 2
  rw [decide_eq_decide]
  by_cases hge : env.settings.providerCircuitFailureThreshold ≤ failures h
  · obtain ⟨last, hlast⟩ := exists_lastFailure h (by omega)
    obtain ⟨a, ha, rfl⟩ := exists_of_lastFailure h hlast
    have hopened := (k.opened hge).trans hlast
    have hlt := hpos a ha
    have hat := hle a ha
    have hrec : ((stateAfter env provider s h).world.circuit provider).recovered env t ↔
        a.2 + seconds env.settings.providerCircuitRecoverySeconds ≤ t := by
      refine ⟨fun ⟨o, ho, _, hr⟩ => ?_, fun hr => ⟨a.2, hopened, Nat.ne_of_gt hlt, hr⟩⟩
      rw [hopened] at ho
      cases ho
      exact hr
    have hspec : (∃ last ∈ lastFailure h, t - last <
        seconds env.settings.providerCircuitRecoverySeconds) ↔
        t - a.2 < seconds env.settings.providerCircuitRecoverySeconds := by simp [hlast]
    rw [hrec, hspec, sub_lt_iff hat]
    refine ⟨fun ⟨_, hr⟩ => ⟨hge, hr⟩, fun ⟨_, hr⟩ => ⟨?_, hr⟩⟩
    refine (k.open_or_recovered hge).resolve_right fun ⟨last, h₁, h₂⟩ => ?_
    rw [hlast] at h₁
    cases h₁
    exact hr h₂
  · have hclosed := k.closed (by omega)
    simp [hge, hclosed]

/-- Five failures, and a question ten seconds after the last. -/
theorem isOpen_eq_trial :
    (CircuitCall.isOpen.serve .trial "gemini" (stateAfter .trial "gemini" State.trial
      (List.replicate 5 (.recordFailure "transient", seconds 1))) (seconds 11)).1 = .ok (some true) :=
  isOpen_eq .trial "gemini" State.trial rfl (by decide)
    (List.replicate 5 (.recordFailure "transient", seconds 1)) (seconds 11)
    (by simp) (by simp [seconds]) (by simp [seconds])

end Histories

end DevOps
