import DevOpsAssistant.Generators.Critical
import DevOpsAssistant.Reviews.Independence

/-!
# The findings a language model adds

The prompt of a review lists its deterministic findings as JSON. A finding of a policy names its pack by
a UUID, for which `json.dumps` has no form: the exception is swallowed, and the language model is never
asked.

* `Answers`: a text is an object whose findings validate; `llmFindings_mergeText`.
* `isJson_dumpedFindings`, `dumpFindings_eq_none_iff`: findings that have a form in JSON.
* `provenance_of_determined`: which findings name a pack.
* `exists_llmFindings`, **`llmFindings_eq_iff`**: when a review uses the findings of such an answer.
-/

namespace DevOps

open Txn SecurityReviewService

variable (env : Env) (lib : ReviewLibrary)

/-! ## Answers -/

/-- The text is a JSON object, whose findings validate as `expected`. -/
def Answers (text : String) (expected : List ReviewFinding) : Prop :=
  ∃ data items, lib.jsonLoads text = some (.dict data) ∧
    (PyValue.get data "findings" = .list items ∨
      PyValue.get data "findings" = .none ∧ items = []) ∧
    items.mapM (ReviewFinding.modelValidate lib .llm) = some expected

theorem validFindings_of_mapM : ∀ {items : List PyValue} {expected : List ReviewFinding},
    items.mapM (ReviewFinding.modelValidate lib .llm) = some expected →
    validFindings lib items = expected
  | [], expected, h => by
    cases h
    rfl
  | item :: items, expected, h => by
    rw [List.mapM_cons, Option.bind_eq_bind, Option.bind_eq_some_iff] at h
    obtain ⟨f, hf, h⟩ := h
    rw [Option.bind_eq_bind, Option.bind_eq_some_iff] at h
    obtain ⟨fs, hfs, h⟩ := h
    cases h
    rw [validFindings, hf, validFindings_of_mapM hfs]

theorem llmFindings_mergeText {text : String} {expected : List ReviewFinding}
    (h : Answers lib text expected) (base : Supplement) :
    (mergeText lib base text).llmFindings = expected := by
  obtain ⟨data, items, hloads, hitems, hvalid⟩ := h
  rw [mergeText, hloads]
  change validFindings lib (findingItems (PyValue.get data "findings")) = expected
  rcases hitems with hitems | ⟨hitems, rfl⟩
  · rw [hitems]
    exact validFindings_of_mapM lib hvalid
  · rw [hitems]
    exact validFindings_of_mapM lib hvalid

/-! ## Findings in the prompt -/

theorem isJson_dumpedFindings (fs : List ReviewFinding) :
    (dumpedFindings fs).isJson = fs.all fun f => f.policyPackId.isNone := by
  rw [dumpedFindings, PyValue.isJson, PyValue.allJson_map]
  simp only [ReviewFinding.isJson_modelDump]

/-- Findings have no form in JSON if one of them names a pack. -/
theorem dumpFindings_eq_none_iff (fs : List ReviewFinding) :
    dumpFindings lib fs = none ↔ ∃ f ∈ fs, f.policyPackId.isSome = true := by
  rw [dumpFindings, isJson_dumpedFindings, ite_eq_right_iff, List.all_eq_true]
  simp [Option.isSome_iff_ne_none]

variable {s : Session Row World}

/-- **The findings of policies name a pack**, and those of the checks do not. -/
theorem provenance_of_determined {user : User} {payload : ReviewRequest} {b o : List ReviewFinding}
    (h : determined env lib user payload s = .ok (b, o)) :
    (∀ f ∈ b, f.policyPackId = none) ∧ ∀ f ∈ o, f.policyPackId.isSome = true := by
  have horg : (organizationFindings env user payload).Ends respond s
      (Prog.onOk fun fs _ => ∀ f ∈ fs, f.policyPackId.isSome = true) := by
    unfold organizationFindings
    cases payload.organizationId with
    | none => exact fun _ h f hf => by cases h; cases hf
    | some o =>
      simp only
      split
      · exact fun _ h f hf => by cases h; cases hf
      · refine ends_onOk_bind _ fun _ s₁ => ends_onOk_bind _ fun fs s₂ => ?_
        intro _ h f hf
        cases h
        obtain ⟨g, -, rfl⟩ := List.mem_map.mp hf
        rfl
  unfold determined at h
  cases hc : runStaticChecks env lib payload.type (contentOf env payload) with
  | error e => rw [hc] at h; cases h
  | ok checked =>
    rw [hc] at h
    cases ho : ((organizationFindings env user payload).exec respond s).1 with
    | error e => rw [ho] at h; cases h
    | ok fs =>
      rw [ho] at h
      cases h
      refine ⟨fun f hf => ?_, horg _ ho⟩
      obtain ⟨g, -, rfl⟩ := List.mem_map.mp hf
      exact g.2.2

/-- The deterministic findings have a form in JSON only without findings of policies. -/
theorem dumpFindings_of_determined {user : User} {payload : ReviewRequest} {b o : List ReviewFinding}
    (h : determined env lib user payload s = .ok (b, o)) :
    dumpFindings lib (b ++ o) = none ↔ o ≠ [] := by
  obtain ⟨hb, ho⟩ := provenance_of_determined env lib h
  rw [dumpFindings_eq_none_iff, List.ne_nil_iff_exists_cons]
  constructor
  · rintro ⟨f, hf, hsome⟩
    rcases List.mem_append.mp hf with hf | hf
    · rw [hb f hf] at hsome
      cases hsome
    · exact List.exists_cons_of_ne_nil (List.ne_nil_of_mem hf)
  · rintro ⟨f, fs, rfl⟩
    exact ⟨f, List.mem_append_right _ List.mem_cons_self, ho f List.mem_cons_self⟩

/-! ## The findings that are used -/

/-- What the call of the language model adds: the findings of its answer, where the prompt can be
written. -/
theorem ends_supplement_of_answers {user : User} {payload : ReviewRequest}
    {deterministic expected : List ReviewFinding} {base : Supplement} {findings raw name : String}
    {s₁ : Session Row World} (h : Drawn s)
    (hfindings : ∀ text, dumpFindings lib deterministic = some text → text = findings)
    (hask : (ask env user payload findings).exec respond s = (.ok (raw, name), s₁))
    (hraw : Answers lib (unfenced env raw) expected) :
    (supplement env lib user payload deterministic base).Ends respond s fun r s' =>
      Drawn s' ∧ ∃ added, r = .ok added ∧ added.llmFindings =
        if dumpFindings lib deterministic = none then base.llmFindings else expected := by
  have hdrawn := (ends_ask env h user payload findings).1
  rw [hask] at hdrawn
  unfold supplement orElseBase
  refine Prog.ends_tryCatch.mpr ?_
  cases hdump : dumpFindings lib deterministic with
  | none => exact ⟨h, base, rfl, rfl⟩
  | some text =>
    cases hfindings text hdump
    refine Prog.ends_bind.mpr ?_
    rw [Prog.Ends, hask]
    exact ⟨hdrawn, _, rfl, llmFindings_mergeText lib hraw base⟩

/-- The findings of a valid answer, in a review: the gateway would answer `raw` to the prompt with the
text `findings`, which is that of the deterministic findings where they have one. -/
theorem exists_llmFindings {user : User} {payload : ReviewRequest} {b o expected : List ReviewFinding}
    {findings raw name : String} {s₁ : Session Row World} (h : Drawn s)
    (hdet : determined env lib user payload s = .ok (b, o))
    (hfindings : ∀ text, dumpFindings lib (b ++ o) = some text → text = findings)
    (hask : (ask env user payload findings).exec respond s = (.ok (raw, name), s₁))
    (hraw : Answers lib (unfenced env raw) expected) :
    ∃ r, ((review env lib user payload).exec respond s).1 = .ok r ∧
      r.llmFindings = if o = [] then expected else [] := by
  have hreview := ends_review env lib (s := s) user payload
    (P := fun b' o' added => b' = b ∧ o' = o → added.llmFindings =
      if dumpFindings lib (b ++ o) = none then [] else expected) fun b' o' hdet' => by
    rw [hdet] at hdet'
    cases hdet'
    exact (ends_supplement_of_answers env lib h hfindings hask hraw).mono
      fun r s' ⟨hd, added, hr, hadded⟩ => ⟨hd, added, hr, fun _ => hadded⟩
  rw [Prog.Ends, hdet] at hreview
  rcases hreview with ⟨e, herr, -⟩ | ⟨b', o', added, heq, hr, hadded⟩
  · cases herr
  · cases heq
    refine ⟨_, hr, (hadded ⟨rfl, rfl⟩).trans ?_⟩
    by_cases ho : o = []
    · have hdump : dumpFindings lib (b ++ o) ≠ none := fun hn =>
        (dumpFindings_of_determined env lib hdet).mp hn ho
      rw [if_neg hdump, if_pos ho]
    · rw [if_pos ((dumpFindings_of_determined env lib hdet).mpr ho), if_neg ho]

/-- **When the findings of a valid answer are used**: exactly if no policy has found anything, or there
are none. -/
theorem llmFindings_eq_iff {user : User} {payload : ReviewRequest} {b o expected : List ReviewFinding}
    {findings raw name : String} {s₁ : Session Row World} (h : Drawn s)
    (hdet : determined env lib user payload s = .ok (b, o))
    (hfindings : ∀ text, dumpFindings lib (b ++ o) = some text → text = findings)
    (hask : (ask env user payload findings).exec respond s = (.ok (raw, name), s₁))
    (hraw : Answers lib (unfenced env raw) expected) :
    ∃ r, ((review env lib user payload).exec respond s).1 = .ok r ∧
      (r.llmFindings = expected ↔ o = [] ∨ expected = []) := by
  obtain ⟨r, hr, hllm⟩ := exists_llmFindings env lib h hdet hfindings hask hraw
  refine ⟨r, hr, ?_⟩
  rw [hllm]
  by_cases ho : o = []
  · simp [ho]
  · simp [ho, eq_comm]

/-! ## Two requests -/

/-- The finding of the answer. -/
def trialFinding : ReviewFinding := ⟨.low, "t", "d", "r", none, .llm, none, none⟩

theorem answers_trial : Answers .trial (unfenced .ascii trialAnswer) [trialFinding] := by
  have htext : unfenced .ascii trialAnswer = trialAnswer := by decide
  refine ⟨[(.str "findings", .list [trialItem])], [trialItem], ?_, .inl rfl, by decide⟩
  rw [htext]
  simp [ReviewLibrary.trial]

/-- A language model that gives this answer. -/
abbrev trialSession (s : Session Row World) : Session Row World := withModel s (.ok trialAnswer)

theorem llmFindings_eq_iff_workflow : ∃ r,
    ((review .ascii .trial policyUser workflowRequest).exec respond
      (trialSession State.trial.session)).1 = .ok r ∧
    (r.llmFindings = [trialFinding] ↔ ([] : List ReviewFinding) = [] ∨ [trialFinding] = []) := by
  have hdrawn : Drawn (trialSession State.trial.session) := fun _ hr => nomatch hr
  have hdet : determined .ascii .trial policyUser workflowRequest
      (trialSession State.trial.session) = .ok ([], []) := by decide
  have hask : (ask .ascii policyUser workflowRequest "[]").exec respond
      (trialSession State.trial.session) = (.ok (trialAnswer, "gemini"), _) := Prod.ext rfl rfl
  exact llmFindings_eq_iff .ascii .trial hdrawn hdet (fun text h => by cases h; rfl) hask answers_trial

/-- A request for a review of a file with an image tagged `latest`, against the pack of a policy. -/
def policyRequest : ReviewRequest :=
  { workflowRequest with content := "x:latest", organizationId := some 2, policyPackIds := [4],
                         content_length := by decide }

/-- **The findings of a valid answer are not used** next to a finding of a policy. -/
theorem llmFindings_unused : ¬ ∀ (env : Env) (lib : ReviewLibrary) (s s₁ : Session Row World)
    (user : User) (payload : ReviewRequest) (b o expected : List ReviewFinding)
    (findings raw name : String), Drawn s → determined env lib user payload s = .ok (b, o) →
    (∀ text, dumpFindings lib (b ++ o) = some text → text = findings) →
    (ask env user payload findings).exec respond s = (.ok (raw, name), s₁) →
    Answers lib (unfenced env raw) expected →
    ∃ r, ((review env lib user payload).exec respond s).1 = .ok r ∧ r.llmFindings = expected := by
  intro hall
  have hdrawn : Drawn (trialSession latestState.session) := by
    have hids : ∀ r ∈ (trialSession latestState.session).view.rows, (key r).id < 6 := by decide
    exact hids
  have hdet : ∃ b f fs, determined .ascii .trial policyUser policyRequest
      (trialSession latestState.session) = .ok (b, f :: fs) := ⟨_, _, _, rfl⟩
  obtain ⟨b, f, fs, hdet⟩ := hdet
  have hnone : dumpFindings .trial (b ++ f :: fs) = none :=
    (dumpFindings_of_determined .ascii .trial hdet).mpr (List.cons_ne_nil _ _)
  have htext : ∀ text, dumpFindings .trial (b ++ f :: fs) = some text → text = "" :=
    fun text h => by rw [hnone] at h; cases h
  have hask : (ask .ascii policyUser policyRequest "").exec respond
      (trialSession latestState.session) = (.ok (trialAnswer, "gemini"), _) := Prod.ext rfl rfl
  obtain ⟨r, hr, hused⟩ := hall .ascii .trial _ _ policyUser policyRequest b (f :: fs) [trialFinding]
    "" trialAnswer "gemini" hdrawn hdet htext hask answers_trial
  obtain ⟨r', hr', hllm⟩ := exists_llmFindings .ascii .trial hdrawn hdet htext hask answers_trial
  rw [hr] at hr'
  cases hr'
  rw [hused, if_neg (List.cons_ne_nil f fs)] at hllm
  cases hllm

end DevOps
