import DevOpsAssistant.Dashboard.Runs
import Mathlib.Algebra.GroupWithZero.Nat

/-!
# The counts of findings

* `listedFindings`, `severityCount`: the findings of a result, and how many have a severity.
* `reviewRows`, `totalFindings`: the reviews of a scope in a range, and all their findings.
* `Uncut`: the reviews beyond the newest hundred have no finding of a severity.
* **`ends_findings_summary`**: the counts are totals if and only if this is so.
-/

namespace DevOps

open Txn

/-! ## Counting -/

/-- The findings that a result lists. -/
def listedFindings : PyValue → List PyValue
  | .dict entries =>
    match PyValue.get entries "findings" with
    | .list items => items
    | _ => []
  | _ => []

/-- A finding has the severity. -/
def hasSeverity (severity : Severity) : PyValue → Bool
  | .dict entries => (PyValue.get entries "severity").isText severity.value
  | _ => false

/-- How many findings of a result have the severity. -/
def severityCount (severity : Severity) (result : PyValue) : ℕ :=
  (listedFindings result).countP (hasSeverity severity)

/-- A fold that adds to a measure adds the sum. -/
theorem measure_foldlM {σ α ε : Type} {f : σ → α → Except ε σ} {m : σ → ℕ} {w : α → ℕ}
    (h : ∀ s a s', f s a = .ok s' → m s' = m s + w a) (l : List α) (s s' : σ)
    (hl : l.foldlM f s = .ok s') : m s' = m s + (l.map w).sum := by
  induction l generalizing s with
  | nil =>
    cases hl
    rfl
  | cons a l ih =>
    rw [List.foldlM_cons] at hl
    cases ha : f s a with
    | error e =>
      rw [ha] at hl
      cases hl
    | ok s₁ =>
      rw [ha] at hl
      rw [ih s₁ hl, h s a s₁ ha, List.map_cons, List.sum_cons, Nat.add_assoc]

theorem sum_map_ite {α : Type} (p : α → Bool) (l : List α) :
    (l.map fun a => if p a then 1 else 0).sum = l.countP p := by
  induction l with
  | nil => rfl
  | cons a l ih =>
    rw [List.map_cons, List.sum_cons, ih, List.countP_cons, Nat.add_comm]

theorem isText_iff {s : String} {v : PyValue} : v.isText s = true ↔ v = .str s := by
  cases v <;> simp [PyValue.isText]

theorem value_injective {a b : Severity} (h : a.value = b.value) : a = b := by
  revert h
  cases a <;> cases b <;> decide

theorem count_increment (c : FindingCountSummary) {a b : Severity} (ha : a ∈ SEVERITIES) :
    (c.increment b).count a = c.count a + if a = b then 1 else 0 := by
  cases a <;> cases b <;> first | rfl | exact absurd ha (by decide)

/-- Values that are no dictionaries are no findings: the loop over them raises. -/
theorem eq_nil_of_not_dict {cols : DashboardColumns} {lib : DashboardLibrary} {analysis : Analysis}
    {values : List PyValue} (hvalues : ∀ v ∈ values, ∀ entries, v ≠ .dict entries)
    {found found' : FindingCountSummary × List FindingItem}
    (h : values.foldlM (countFinding cols lib analysis) found = .ok found') : values = [] := by
  cases values with
  | nil => rfl
  | cons v values =>
    have hv := hvalues v (by simp)
    cases v with
    | dict entries => exact absurd rfl (hv entries)
    | _ => exact nomatch h

/-- The values of a dictionary of JSON are JSON. -/
theorem isJson_get {entries : List (PyValue × PyValue)} (h : PyValue.entriesJson entries = true)
    (key : String) : (PyValue.get entries key).isJson = true := by
  induction entries with
  | nil => rfl
  | cons e entries ih =>
    obtain ⟨k, v⟩ := e
    rw [PyValue.entriesJson, Bool.and_eq_true, Bool.and_eq_true] at h
    unfold PyValue.get
    rw [List.find?_cons]
    by_cases hk : k.isText key = true
    · rw [hk]
      exact h.1.2
    · rw [eq_false_of_ne_true hk]
      exact ih h.2

/-- The keys of a dictionary of JSON are no dictionaries. -/
theorem key_ne_dict {entries : List (PyValue × PyValue)} (h : PyValue.entriesJson entries = true) :
    ∀ e ∈ entries, ∀ es, e.1 ≠ .dict es := by
  induction entries with
  | nil => simp
  | cons e entries ih =>
    obtain ⟨k, v⟩ := e
    rw [PyValue.entriesJson, Bool.and_eq_true, Bool.and_eq_true] at h
    intro e he es
    obtain rfl | he := List.mem_cons.mp he
    · rintro rfl
      exact absurd h.1.1 (by simp [PyValue.isJsonKey])
    · exact ih h.2 e he es

/-- Without the key, there is no value. -/
theorem get_of_not_has {entries : List (PyValue × PyValue)} {key : String}
    (h : PyValue.has entries key = false) : PyValue.get entries key = .none := by
  have hnone : entries.find? (fun e => e.1.isText key) = none := by
    rw [List.find?_eq_none]
    intro e he
    have := List.any_eq_false.mp h e he
    simpa using this
  rw [PyValue.get, hnone]
  rfl

/-- **What the loop goes through** without an exception is what the result lists. -/
theorem resultFindings_eq {cols : DashboardColumns} {lib : DashboardLibrary} {analysis : Analysis}
    {result : PyValue} (hjson : result.isJson = true) {values : List PyValue}
    (hvalues : resultFindings result = .ok values)
    {found found' : FindingCountSummary × List FindingItem}
    (h : values.foldlM (countFinding cols lib analysis) found = .ok found') :
    values = listedFindings result := by
  cases result with
  | dict entries =>
    by_cases hempty : entries = []
    · subst hempty
      cases hvalues
      rfl
    · have htrue : (PyValue.dict entries).truthy = true := by
        simp [PyValue.truthy, hempty]
      rw [PyValue.isJson] at hjson
      rw [resultFindings, if_pos htrue] at hvalues
      by_cases hhas : PyValue.has entries "findings" = true
      · rw [if_pos hhas] at hvalues
        have hget := isJson_get hjson "findings"
        rw [listedFindings]
        cases hv : PyValue.get entries "findings" with
        | list items =>
          rw [hv] at hvalues
          cases hvalues
          rfl
        | dict es =>
          rw [hv] at hvalues hget
          cases hvalues
          rw [PyValue.isJson] at hget
          refine eq_nil_of_not_dict (fun v hmem => ?_) h
          obtain ⟨e, he, rfl⟩ := List.mem_map.mp hmem
          exact key_ne_dict hget e he
        | str s =>
          rw [hv] at hvalues
          cases hvalues
          refine eq_nil_of_not_dict (fun v hmem => ?_) h
          obtain ⟨c, -, rfl⟩ := List.mem_map.mp hmem
          exact fun _ hc => by cases hc
        | _ =>
          rw [hv] at hvalues
          cases hvalues
      · rw [if_neg hhas] at hvalues
        cases hvalues
        rw [listedFindings, get_of_not_has (eq_false_of_ne_true hhas)]
  | _ =>
    unfold resultFindings at hvalues
    split at hvalues
    · cases hvalues
    · cases hvalues
      rfl

section

variable {cols : DashboardColumns} {lib : DashboardLibrary} {severity : Severity}
  (hs : severity ∈ SEVERITIES)

include hs

/-- **One finding** is counted under its severity. -/
theorem count_countFinding {analysis : Analysis} {finding : PyValue}
    {found found' : FindingCountSummary × List FindingItem}
    (h : countFinding cols lib analysis found finding = .ok found') :
    found'.1.count severity =
      found.1.count severity + if hasSeverity severity finding then 1 else 0 := by
  cases finding with
  | dict entries =>
    rw [countFinding] at h
    dsimp only at h
    by_cases hhash : (PyValue.get entries "severity").hashable = true
    · rw [if_pos hhash] at h
      cases hfind : SEVERITIES.find? fun s => (PyValue.get entries "severity").isText s.value with
      | none =>
        rw [hfind] at h
        cases h
        have := List.find?_eq_none.mp hfind severity hs
        rw [hasSeverity, if_neg this, Nat.add_zero]
      | some s =>
        rw [hfind] at h
        cases h
        have htext : (PyValue.get entries "severity").isText s.value = true := by
          simpa using List.find?_some hfind
        rw [isText_iff] at htext
        have hiff : hasSeverity severity (.dict entries) = true ↔ severity = s := by
          rw [hasSeverity, htext, isText_iff, PyValue.str.injEq]
          exact ⟨fun h => (value_injective h).symm, fun h => h ▸ rfl⟩
        rw [count_increment found.1 hs]
        simp only [hiff]
    · rw [if_neg hhash] at h
      cases h
  | _ => cases h

/-- **One review** adds its findings of the severity. -/
theorem count_countAnalysis {analysis : Analysis} {found found' : FindingCountSummary × List FindingItem}
    (h : countAnalysis cols lib found analysis = .ok found') : found'.1.count severity =
      found.1.count severity + severityCount severity (cols.analysisResult analysis.id) := by
  have hjson := cols.isJson analysis.id
  unfold countAnalysis at h
  cases hvalues : resultFindings (cols.analysisResult analysis.id) with
  | error e =>
    rw [hvalues] at h
    cases h
  | ok values =>
    rw [hvalues] at h
    have hsum := measure_foldlM (m := fun found => found.1.count severity)
      (fun _ _ _ hfinding => count_countFinding hs hfinding) values found found' h
    rw [hsum, resultFindings_eq hjson hvalues h, severityCount, sum_map_ite]

end

/-! ## Totals -/

namespace DashboardService

section

variable (cols : DashboardColumns) (lib : DashboardLibrary) (db : Database) (userId : UUID)
  (organizationId : Option UUID) (since : Time)

/-- The reviews of the scope in the range. -/
def reviewRows : List Analysis :=
  (rowsOf Analysis db).filter fun a => scope userId organizationId a.userId a.organizationId &&
    decide (a.analysisType = .review) && decide (since ≤ cols.analysisCreatedAt a.id)

/-- The number of findings of a severity over all reviews of the scope in the range. -/
def totalFindings (severity : Severity) : ℕ :=
  ((reviewRows cols db userId organizationId since).map fun a =>
    severityCount severity (cols.analysisResult a.id)).sum

/-- The reviews that come after the newest hundred list no finding of the severity. -/
def Uncut (severity : Severity) : Prop :=
  ∀ a ∈ (lib.newestFirst (fun a => cols.analysisCreatedAt a.id)
    (reviewRows cols db userId organizationId since)).drop 100,
    ∀ f ∈ listedFindings (cols.analysisResult a.id), hasSeverity severity f = false

end

variable {cols : DashboardColumns} {lib : DashboardLibrary} {s : Session Row World}

/-- **The counts** are totals if and only if the reviews that are cut off list nothing. -/
theorem ends_findingData (userId : UUID) (organizationId : Option UUID) (since : Time) :
    (findingData cols lib userId organizationId since).Ends respond s (unchanged s fun found =>
      ∀ severity ∈ SEVERITIES,
        found.1.count severity = totalFindings cols s.view userId organizationId since severity ↔
          Uncut cols lib s.view userId organizationId since severity) := by
  unfold findingData
  refine ends_unchanged_bind (ends_unchanged_selectOf _) fun analyses hrows => ?_
  have hrows : analyses = reviewRows cols s.view userId organizationId since := hrows
  subst hrows
  have hperm := lib.newestFirst_perm (fun a => cols.analysisCreatedAt a.id)
    (reviewRows cols s.view userId organizationId since)
  cases hfold : ((lib.newestFirst (fun a => cols.analysisCreatedAt a.id)
      (reviewRows cols s.view userId organizationId since)).take 100).foldlM
        (countAnalysis cols lib) (⟨0, 0, 0, 0⟩, []) with
  | error e =>
    dsimp only
    rw [hfold]
    exact ends_unchanged_throw
  | ok found =>
    dsimp only
    rw [hfold]
    refine ends_unchanged_pure fun severity hs => ?_
    have hcount := measure_foldlM (m := fun found => found.1.count severity)
      (fun _ _ _ h => count_countAnalysis hs h) _ _ found hfold
    have hzero : (⟨0, 0, 0, 0⟩ : FindingCountSummary).count severity = 0 := by
      cases severity <;> rfl
    rw [hzero, Nat.zero_add] at hcount
    rw [totalFindings, ← (hperm.map _).sum_nat, Uncut, hcount]
    generalize lib.newestFirst _ _ = rows
    have hsplit : (rows.map fun a => severityCount severity (cols.analysisResult a.id)).sum =
        ((rows.take 100).map fun a => severityCount severity (cols.analysisResult a.id)).sum +
          ((rows.drop 100).map fun a => severityCount severity (cols.analysisResult a.id)).sum := by
      rw [← List.sum_append_nat, ← List.map_append, List.take_append_drop]
    have hnone : ((rows.drop 100).map fun a =>
        severityCount severity (cols.analysisResult a.id)).sum = 0 ↔ ∀ a ∈ rows.drop 100,
          ∀ f ∈ listedFindings (cols.analysisResult a.id), hasSeverity severity f = false := by
      rw [List.sum_eq_zero_iff_forall_eq_nat]
      simp only [List.forall_mem_map, severityCount, List.countP_eq_zero, Bool.not_eq_true]
    rw [hsplit, ← hnone]
    omega

/-- The counts of artifacts are read without a change. -/
theorem ends_artifactCounts {α : Type} {userId : UUID} {organizationId : Option UUID}
    {g : ArtifactCountSummary → Db α} {Φ : Except Exc α → Session Row World → Prop}
    (hg : ∀ c, (g c).Ends respond s Φ) :
    (artifactCounts userId organizationId >>= g).Ends respond s Φ := by
  have hcounts : (artifactCounts userId organizationId).Ends respond s fun r s' =>
      s' = s ∧ ∃ c, r = .ok c := ⟨rfl, _, rfl⟩
  refine hcounts.bind (fun c s' h => ?_) fun e s' h => ?_
  · rw [h.1]
    exact hg c
  · obtain ⟨-, c, hc⟩ := h
    cases hc

/-- **The counts of the dashboard.** In the findings and in the summary, the count of a severity is
the number of all findings if and only if the reviews beyond the newest hundred list none. -/
theorem ends_findings_summary (user : User) (organizationId : Option UUID) (timeRange : TimeRange) :
    ((findings cols lib user organizationId timeRange).Ends respond s (Prog.onOk fun r _ =>
      ∀ severity ∈ SEVERITIES,
        r.counts.count severity = totalFindings cols s.view user.id organizationId
            (s.world.tick.time - TIME_RANGES timeRange) severity ↔
          Uncut cols lib s.view user.id organizationId
            (s.world.tick.time - TIME_RANGES timeRange) severity)) ∧
    (summary cols lib user organizationId timeRange).Ends respond s (Prog.onOk fun r _ =>
      ∀ severity ∈ SEVERITIES,
        r.findings.count severity = totalFindings cols s.view user.id organizationId
            (s.world.tick.time - TIME_RANGES timeRange) severity ↔
          Uncut cols lib s.view user.id organizationId
            (s.world.tick.time - TIME_RANGES timeRange) severity) := by
  constructor
  · unfold findings
    refine ends_authorize_bind (ends_now.mpr ?_)
    refine (ends_findingData user.id organizationId _).bind (fun found s' h => ?_)
      fun e _ _ a ha => nomatch ha
    rintro _ ⟨⟩
    exact h.2 found rfl
  · unfold summary
    refine ends_authorize_bind (ends_now.mpr ?_)
    refine ends_selectOf.mpr (ends_artifactCounts fun artifacts => ends_selectOf.mpr ?_)
    refine (ends_findingData user.id organizationId _).bind (fun found s' h => ?_)
      fun e _ _ a ha => nomatch ha
    have hfound := h.2 found rfl
    obtain ⟨counts, items⟩ := found
    cases organizationId with
    | none =>
      refine ends_onOk_bind _ fun tasks _ => ?_
      rintro _ ⟨⟩
      exact hfound
    | some o =>
      refine ends_onOk_bind _ fun members _ => ends_onOk_bind _ fun packs _ => ?_
      refine ends_onOk_bind _ fun quotas _ => ends_onOk_bind _ fun tasks _ => ?_
      rintro _ ⟨⟩
      exact hfound

/-! ### A hundred and one reviews -/

/-- Reviews with one critical finding each. -/
def criticalColumns : DashboardColumns where
  conversationCreatedAt := id
  conversationUpdatedAt := id
  analysisCreatedAt := id
  analysisResult _ :=
    .dict [(.str "findings", .list [.dict [(.str "severity", .str "critical")]])]
  isJson _ := rfl

/-- As many reviews of the user `1`. -/
def manyReviews : Session Row World where
  committed :=
    ⟨(List.range 101).map fun i => .analysis ⟨i, 1, none, .review, "", .completed, none⟩, by
      decide +kernel⟩
  nextId := 101
  world := stillWorld
  log := []

/-- The oldest of them is not counted. -/
theorem not_total_findings : ¬ ∀ (cols : DashboardColumns) (lib : DashboardLibrary)
    (s : Session Row World) (user : User) (organizationId : Option UUID) (timeRange : TimeRange),
    (findings cols lib user organizationId timeRange).Ends respond s (Prog.onOk fun r _ =>
      ∀ severity ∈ SEVERITIES, r.counts.count severity = totalFindings cols s.view user.id
        organizationId (s.world.tick.time - TIME_RANGES timeRange) severity) := by
  intro h
  have hends := h criticalColumns stableLibrary manyReviews owner none .week
  obtain ⟨r, hr⟩ := exists_ok (x := ((findings criticalColumns stableLibrary owner none .week).exec
    respond manyReviews).1) (by decide +kernel)
  have hcount : (((findings criticalColumns stableLibrary owner none .week).exec respond
      manyReviews).1.map fun r => r.counts.critical).toOption = some 100 := by decide +kernel
  have htotal : totalFindings criticalColumns manyReviews.view owner.id none
      (manyReviews.world.tick.time - TIME_RANGES .week) .critical = 101 := by decide +kernel
  have hequal := hends r hr .critical (by decide)
  rw [htotal] at hequal
  rw [hr] at hcount
  exact absurd (hequal.symm.trans (Option.some.inj hcount)) (by decide)

end DashboardService

end DevOps
