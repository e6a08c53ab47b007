import DevOpsAssistant.Lists.Tally
import DevOpsAssistant.Services.SecurityReviewService
import DevOpsAssistant.Text.Matching

/-!
# The static signals of a log

* `ERROR_PATTERNS`: what is looked for in a log as a whole.
* `repeats`: the error lines of a log, with the number of times they occur.
* `staticLogSignals`: the errors detected and a hint at their severity.
* `Regex.search_append`: an expression without anchors is still found in a longer text.
* `splitLines_append`: the lines of a text come first in what continues it after a newline.
* `detected_append`, `repeated_append`: what is detected in a log is detected in a longer one.
* **`severityHint_append`**: the severity never falls.
-/

namespace DevOps

namespace LogAnalyzer

open Regex PolicyEngine

variable (env : Env)

def ERROR_PATTERNS : List (Regex × String) :=
  [(ignoringCase "CrashLoopBackOff", "Kubernetes CrashLoopBackOff"),
    (alt (ignoringCase "ImagePullBackOff") (ignoringCase "ErrImagePull"),
      "Kubernetes image pull failure"),
    (ignoringCase "OOMKilled", "Container OOMKilled"),
    (ignoringCase "permission denied", "Permission denied"),
    (ignoringCase "connection refused", "Connection refused"),
    (ignoringCase "no space left on device", "Disk space exhausted"),
    (ignoringCase "Traceback (most recent call last):", "Python stack trace"),
    (concat [ignoringCase "nginx:", star (space env), ignoringCase "[error]"], "Nginx error"),
    (alt (ignoringCase "Failed to start")
        (concat [ignoringCase "Unit ", plus dot, ignoringCase " failed"]),
      "Linux service failure"),
    (alt (ignoringCase "ERROR: Job failed") (ignoringCase "Process completed with exit code"),
      "CI/CD failure"),
    (alt (concat [ignoringCase "docker:", star (space env), ignoringCase "Error"])
        (ignoringCase "Cannot connect to the Docker daemon"),
      "Docker error")]

/-- `error|exception|failed|fatal`. -/
def errorWord : Regex :=
  oneOf [ignoringCase "error", ignoringCase "exception", ignoringCase "failed",
    ignoringCase "fatal"]

/-- The severity of a log. -/
inductive LogSeverity where
  | low
  | medium
  | high
  | critical
deriving DecidableEq

namespace LogSeverity

def value : LogSeverity → String
  | low => "low"
  | medium => "medium"
  | high => "high"
  | critical => "critical"

/-- The place of a severity in the order. -/
def rank : LogSeverity → ℕ
  | low => 0
  | medium => 1
  | high => 2
  | critical => 3

instance : LE LogSeverity := ⟨fun a b => a.rank ≤ b.rank⟩

end LogSeverity

/-- `_static_log_signals` returns these. -/
structure LogSignals where
  detectedErrors : List String
  severityHint : LogSeverity

/-- The labels of the patterns that are found. -/
def detected (content : String) : List String :=
  (ERROR_PATTERNS env).filterMap fun (pattern, label) =>
    if found pattern content then some label else none

/-- The key under which a line is counted; lines that are no errors are not. -/
def errorKey (line : List Char) : Option String :=
  let stripped := env.strip (String.ofList line)
  if stripped = "" then none
  else if found errorWord stripped then some (firstChars 200 stripped)
  else none

/-- The keys of the lines of a log. -/
def errorKeys (content : String) : List String :=
  (StaticChecks.splitLines [] content.toList).filterMap (errorKey env)

def repeats (content : String) : List (String × ℕ) := Tally.tally (errorKeys env content)

/-- The lines that occur three times or more. -/
def repeated (content : String) : List String :=
  (repeats env content).filterMap fun (line, count) =>
    if 3 ≤ count then some (toString count ++ "x: " ++ line) else none

/-- The label of an error that is critical. -/
def isCritical (label : String) : Bool := contains "OOM" label || contains "CrashLoop" label

/-- `_static_log_signals`. -/
def staticLogSignals (content : String) : LogSignals :=
  { detectedErrors := detected env content ++ (repeated env content).take 10
    severityHint :=
      if (detected env content).any isCritical then .critical
      else if detected env content ≠ [] then .high
      else if repeated env content ≠ [] then .medium
      else .low }

end LogAnalyzer

end DevOps

/-- An expression whose surroundings do not count is still found when the text goes on. -/
theorem Regex.search_append {r : Regex} (hr : r.Local fun _ => false) {text : List Char}
    (h : (r.search text).isSome = true) (more : List Char) :
    (r.search (text ++ more)).isSome = true := by
  obtain ⟨b, t, a, rfl, hm⟩ := search_isSome_iff.mp h
  refine search_isSome_iff.mpr ⟨b, t, a ++ more, by simp only [List.append_assoc], ?_⟩
  exact hm.congr hr rfl (by cases a <;> cases more <;> rfl)

namespace DevOps

open Regex PolicyEngine

/-- **The lines of a text** come first in every text that continues it after a newline. -/
theorem splitLines_append (line cs ds : List Char) :
    ∃ more, StaticChecks.splitLines line (cs ++ '\n' :: ds) =
      StaticChecks.splitLines line cs ++ more := by
  fun_induction StaticChecks.splitLines line cs with
  | case1 => exact ⟨_, rfl⟩
  | case2 line hline => exact ⟨StaticChecks.splitLines [] ds, rfl⟩
  | case3 line cs ih =>
    obtain ⟨more, h⟩ := ih
    exact ⟨more, congrArg (line.reverse :: ·) h⟩
  | case4 line c cs hc hbreak ih =>
    by_cases hend : c = '\r' ∧ cs = []
    · -- a carriage return at the end of the text becomes a part of the line break
      obtain ⟨rfl, rfl⟩ := hend
      exact ⟨StaticChecks.splitLines [] ds, rfl⟩
    · obtain ⟨more, h⟩ := ih
      refine ⟨more, ?_⟩
      rw [List.cons_append, StaticChecks.splitLines.eq_3, if_pos hbreak, h]
      · rfl
      · intro cs' hr hcs
        cases cs with
        | nil => exact hend ⟨hr, rfl⟩
        | cons d cs =>
          cases hcs
          exact hc _ hr rfl
  | case5 line c cs hc hbreak ih =>
    obtain ⟨more, h⟩ := ih
    refine ⟨more, ?_⟩
    rw [List.cons_append, StaticChecks.splitLines.eq_3, if_neg hbreak, h]
    intro cs' hr _
    exact hbreak (by rw [hr]; decide)

namespace LogAnalyzer

variable (env : Env)

/-- None of the patterns looks at its surroundings. -/
theorem local_ERROR_PATTERNS : ∀ p ∈ ERROR_PATTERNS env, p.1.Local fun _ => false := by
  have hicase : ∀ text : String, (ignoringCase text).Local fun _ => false := fun text =>
    local_ilit text.toList
  simp only [ERROR_PATTERNS, List.forall_mem_cons, hicase, Local, concat, plus, dot,
    PolicyEngine.space, and_self, List.not_mem_nil, IsEmpty.forall_iff, implies_true]

/-- **What is detected** in a log is detected in a longer one. -/
theorem detected_append {content label : String} (h : label ∈ detected env content)
    (more : String) : label ∈ detected env (content ++ more) := by
  obtain ⟨p, hp, hlabel⟩ := List.mem_filterMap.mp h
  refine List.mem_filterMap.mpr ⟨p, hp, ?_⟩
  have hfound : found p.1 content = true := by
    by_contra hno
    simp [hno] at hlabel
  have hmore : found p.1 (content ++ more) = true := by
    unfold found
    rw [String.toList_append]
    exact search_append (local_ERROR_PATTERNS env p hp) hfound more.toList
  rw [← hlabel]
  simp only [hfound, hmore, if_true]

/-- The keys of the lines come first in those of the longer log. -/
theorem errorKeys_append (content more : String) :
    ∃ keys, errorKeys env (content ++ "\n" ++ more) = errorKeys env content ++ keys := by
  obtain ⟨lines, h⟩ := splitLines_append [] content.toList more.toList
  refine ⟨lines.filterMap (errorKey env), ?_⟩
  have hlist : (content ++ "\n" ++ more).toList = content.toList ++ '\n' :: more.toList := by
    simp [String.toList_append]
  unfold errorKeys
  rw [hlist, h, List.filterMap_append]

/-- A line is reported as repeated if and only if its key occurs three times or more. -/
theorem repeated_ne_nil {content : String} :
    repeated env content ≠ [] ↔ ∃ line n, (line, n) ∈ repeats env content ∧ 3 ≤ n := by
  rw [ne_eq, repeated, List.filterMap_eq_nil_iff]
  simp only [Prod.forall, ite_eq_right_iff, reduceCtorEq, imp_false, not_forall, not_not,
    exists_prop]

/-- **What is repeated** in a log is repeated in a longer one. -/
theorem repeated_append {content : String} (h : repeated env content ≠ []) (more : String) :
    repeated env (content ++ "\n" ++ more) ≠ [] := by
  obtain ⟨line, n, hmem, hn⟩ := (repeated_ne_nil env).mp h
  obtain ⟨keys, hkeys⟩ := errorKeys_append env content more
  obtain ⟨m, hm, hmem⟩ := Tally.exists_mem_tally_append hmem keys
  refine (repeated_ne_nil env).mpr ⟨line, m, ?_, hn.trans hm⟩
  unfold repeats
  rw [hkeys]
  exact hmem

/-- More signs of each kind do not lower the severity. -/
theorem severity_mono {c c' d d' r r' : Prop} [Decidable c] [Decidable c'] [Decidable d]
    [Decidable d'] [Decidable r] [Decidable r'] (hc : c → c') (hd : d → d') (hr : r → r') :
    (if c then LogSeverity.critical else if d then .high else if r then .medium else .low) ≤
      (if c' then .critical else if d' then .high else if r' then .medium else .low) := by
  change LogSeverity.rank _ ≤ LogSeverity.rank _
  by_cases hc' : c'
  · rw [if_pos hc']
    split_ifs <;> decide
  rw [if_neg (mt hc hc'), if_neg hc']
  by_cases hd' : d'
  · rw [if_pos hd']
    split_ifs <;> decide
  rw [if_neg (mt hd hd'), if_neg hd']
  by_cases hr' : r'
  · rw [if_pos hr']
    split_ifs <;> decide
  · rw [if_neg (mt hr hr')]
    exact Nat.zero_le _

/-- **The severity** of a log never falls when lines are appended after a newline. -/
theorem severityHint_append (content more : String) :
    (staticLogSignals env content).severityHint ≤
      (staticLogSignals env (content ++ "\n" ++ more)).severityHint := by
  have hdetected : ∀ label ∈ detected env content,
      label ∈ detected env (content ++ "\n" ++ more) := by
    intro label h
    rw [String.append_assoc]
    exact detected_append env h _
  refine severity_mono ?_ ?_ fun h => repeated_append env h more
  · intro h
    obtain ⟨label, hlabel, hcritical⟩ := List.any_eq_true.mp h
    exact List.any_eq_true.mpr ⟨label, hdetected label hlabel, hcritical⟩
  · intro h
    obtain ⟨label, hlabel⟩ := List.exists_mem_of_ne_nil _ h
    exact List.ne_nil_of_mem (hdetected label hlabel)

end LogAnalyzer

end DevOps
