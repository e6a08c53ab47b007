import DevOpsAssistant.Reviews.GitlabCi

/-!
# When the review of a GitLab CI file raises

The checks of the mapping assume texts as the keys of the file and as the lines of a script, and apply
`str` to what they compare.

* `TextKeys`, `ScriptReadable`, `JobReadable`, `VariablesReadable`: what the checks assume.
* `isOk_iterJobDicts`, `isOk_isDeploy`, `isOk_checkDeployJobs`, …: when a check returns.
* **`checkGitlabCi_isOk_iff`**: when the review of a file returns; **`checkGitlabCi_raises`**: one that
  does not.
-/

namespace DevOps

namespace GitlabCi

open PyValue (get)
open PolicyEngine (found contains)
open ReviewChecks (looksLikeEnvReference)

/-! ## Results -/

section Results

variable {α β : Type}

theorem isOk_iff {x : Except Exc α} : x.isOk = true ↔ ∃ a, x = .ok a := by
  cases x with
  | ok a => exact iff_of_true rfl ⟨a, rfl⟩
  | error e => exact iff_of_false Bool.false_ne_true fun ⟨_, h⟩ => nomatch h

theorem isOk_bind {x : Except Exc α} {f : α → Except Exc β} :
    (x >>= f).isOk = true ↔ ∃ a, x = .ok a ∧ (f a).isOk = true := by
  cases x with
  | ok a =>
    constructor
    · exact fun h => ⟨a, rfl, h⟩
    · rintro ⟨b, hb, h⟩
      cases hb
      exact h
  | error e => exact iff_of_false Bool.false_ne_true fun ⟨_, h, _⟩ => nomatch h

/-- A computation that always returns after another one. -/
theorem isOk_bind_of_ok {x : Except Exc α} {f : α → Except Exc β} (h : ∀ a, (f a).isOk = true) :
    (x >>= f).isOk = true ↔ x.isOk = true := by
  rw [isOk_bind, isOk_iff]
  exact ⟨fun ⟨a, ha, _⟩ => ⟨a, ha⟩, fun ⟨a, ha⟩ => ⟨a, ha, h a⟩⟩

end Results

/-! ## What the checks assume -/

/-- The value is a text. -/
def IsText (v : PyValue) : Prop := ∃ s, v = .str s

/-- All keys of the mapping are texts. -/
def TextKeys (data : Entries) : Prop := ∀ e ∈ data, IsText e.1

section Readable

variable (env : Env) (lib : ReviewLibrary)

/-- `str` returns a text of the value, or of the empty text for it. -/
def Prints (v : PyValue) : Prop := lib.strRaises (orEmpty v) = none

/-- The job is marked by its name or its stage. -/
def markedDeploy (name : String) (job : Entries) : Bool :=
  contains "deploy" (env.lower name) || env.lower (lib.str (orEmpty (get job "stage"))) = "deploy"

/-- The lines of the script are texts; what is no list has a text. -/
def ScriptReadable (job : Entries) : Prop :=
  match get job "script" with
  | .list lines => ∀ line ∈ lines, IsText line
  | script => Prints lib script

/-- What the checks assume of a job. -/
structure JobReadable (name : String) (job : Entries) : Prop where
  stage : Prints lib (get job "stage")
  script : markedDeploy env lib name job = false → ScriptReadable lib job
  time : isDeploy env lib name job = .ok true → isRestricted job = false →
    Prints lib (get job "when")

/-- The names of the variables with plain values have texts. -/
def VariablesReadable (data : Entries) : Prop :=
  match get data "variables" with
  | .dict entries => ∀ e ∈ entries, plainValue env e.2 ≠ none → lib.strRaises e.1 = none
  | _ => True

/-- The job of an entry, if it is one. -/
def jobOf : PyValue × PyValue → Option (String × Entries)
  | (.str key, .dict job) =>
    if key.startsWith "." || reserved.contains key then none else some (key, job)
  | _ => none

/-- The jobs of a mapping. -/
def jobsOf (data : Entries) : List (String × Entries) := data.filterMap jobOf

/-- What the checks assume of the value of a file. -/
def ValueReadable : PyValue → Prop
  | .dict data => TextKeys data ∧ (∀ job ∈ jobsOf data, JobReadable env lib job.1 job.2) ∧
      VariablesReadable env lib data
  | _ => True

/-- What the checks assume of a file: it is no YAML, or its value is as they assume. -/
def Readable (content : String) : Prop :=
  match lib.safeLoad content with
  | .error e => e = .other "YAMLError"
  | .ok data => ValueReadable env lib data

end Readable

/-! ## Checks -/

section Checks

variable {env : Env} {lib : ReviewLibrary} {name : String} {job : Entries}

theorem isOk_strOf {v : PyValue} : (strOf lib v).isOk = true ↔ lib.strRaises v = none := by
  unfold strOf
  cases lib.strRaises v with
  | none => exact iff_of_true rfl rfl
  | some e => exact iff_of_false Bool.false_ne_true fun h => nomatch h

theorem strOf_of_ok {v : PyValue} {s : String} (h : strOf lib v = .ok s) : s = lib.str v := by
  unfold strOf at h
  split at h
  · cases h
  · cases h
    rfl

/-- **The jobs of a mapping** are read if and only if its keys are texts. -/
theorem iterJobDicts_eq : ∀ {data : Entries}, TextKeys data → iterJobDicts data = .ok (jobsOf data)
  | [], _ => rfl
  | (key, value) :: data, h => by
    obtain ⟨⟨key, rfl⟩, hdata⟩ := List.forall_mem_cons.mp h
    rw [iterJobDicts, iterJobDicts_eq hdata, jobsOf, jobsOf]
    by_cases hskip : (key.startsWith "." || reserved.contains key) = true
    · have hnone : jobOf (.str key, value) = none := by
        cases value with
        | dict job => exact if_pos hskip
        | _ => rfl
      rw [List.filterMap_cons_none hnone]
      exact if_pos hskip
    · cases value with
      | dict job =>
        have hsome : jobOf (.str key, .dict job) = some (key, job) := if_neg hskip
        rw [List.filterMap_cons_some hsome]
        exact if_neg hskip
      | _ => exact if_neg hskip

theorem isOk_iterJobDicts {data : Entries} : (iterJobDicts data).isOk = true ↔ TextKeys data := by
  refine ⟨fun h => ?_, fun h => by rw [iterJobDicts_eq h]; rfl⟩
  induction data with
  | nil => exact fun e he => nomatch he
  | cons e data ih =>
    obtain ⟨key, value⟩ := e
    cases key with
    | str key =>
      rw [iterJobDicts, isOk_bind] at h
      obtain ⟨jobs, hjobs, -⟩ := h
      exact List.forall_mem_cons.mpr ⟨⟨key, rfl⟩, ih (by rw [hjobs]; rfl)⟩
    | _ => exact absurd h Bool.false_ne_true

theorem isOk_joinLines : ∀ {lines : List PyValue},
    (joinLines lines).isOk = true ↔ ∀ line ∈ lines, IsText line
  | [] => iff_of_true rfl fun _ h => nomatch h
  | [v] => by
    rw [List.forall_mem_singleton]
    cases v with
    | str s => exact iff_of_true rfl ⟨s, rfl⟩
    | _ => exact iff_of_false Bool.false_ne_true fun ⟨_, h⟩ => nomatch h
  | v :: w :: lines => by
    rw [List.forall_mem_cons]
    cases v with
    | str s =>
      rw [joinLines, isOk_bind_of_ok fun _ => rfl, isOk_joinLines, and_iff_right ⟨s, rfl⟩]
      exact fun h => nomatch h
    | _ => exact iff_of_false Bool.false_ne_true fun ⟨⟨_, h⟩, _⟩ => nomatch h

theorem isOk_scriptText : (scriptText lib job).isOk = true ↔ ScriptReadable lib job := by
  unfold scriptText ScriptReadable Prints
  cases get job "script" with
  | list lines => exact isOk_joinLines
  | _ => exact isOk_strOf

/-- **Whether a job deploys** can be said if its stage has a text and, unless it is marked, its script
has one. -/
theorem isOk_isDeploy : (isDeploy env lib name job).isOk = true ↔
    Prints lib (get job "stage") ∧
      (markedDeploy env lib name job = false → ScriptReadable lib job) := by
  rw [isDeploy, isOk_bind]
  constructor
  · rintro ⟨stage, hstage, h⟩
    refine ⟨isOk_strOf.mp (by rw [hstage]; rfl), fun hmarked => ?_⟩
    rw [strOf_of_ok hstage] at h
    rw [markedDeploy] at hmarked
    rw [if_neg (by rw [hmarked]; exact Bool.false_ne_true)] at h
    exact isOk_scriptText.mp ((isOk_bind_of_ok fun _ => rfl).mp h)
  · rintro ⟨hstage, hscript⟩
    obtain ⟨stage, hok⟩ := isOk_iff.mp (isOk_strOf.mpr hstage)
    refine ⟨stage, hok, ?_⟩
    rw [strOf_of_ok hok]
    cases hmarked : markedDeploy env lib name job with
    | true =>
      rw [markedDeploy] at hmarked
      rw [if_pos hmarked]
      rfl
    | false =>
      rw [markedDeploy] at hmarked
      rw [if_neg (by rw [hmarked]; exact Bool.false_ne_true)]
      have hreadable : ScriptReadable lib job := hscript (by rw [markedDeploy, hmarked])
      exact (isOk_bind_of_ok fun _ => rfl).mpr (isOk_scriptText.mpr hreadable)

theorem isOk_jobHasRestriction : (jobHasRestriction env lib job).isOk = true ↔
    (isRestricted job = false → Prints lib (get job "when")) := by
  unfold jobHasRestriction
  cases hrestricted : isRestricted job with
  | true => exact iff_of_true rfl fun h => nomatch h
  | false =>
    rw [if_neg Bool.false_ne_true, isOk_bind_of_ok fun _ => rfl, isOk_strOf]
    exact ⟨fun h _ => h, fun h => h rfl⟩

/-- **A job is checked** if and only if it is as the check assumes. -/
theorem isOk_isUnrestrictedDeploy : (isUnrestrictedDeploy env lib name job).isOk = true ↔
    JobReadable env lib name job := by
  rw [isUnrestrictedDeploy, isOk_bind]
  constructor
  · rintro ⟨deploys, hdeploys, h⟩
    obtain ⟨hstage, hscript⟩ := isOk_isDeploy.mp (by rw [hdeploys]; rfl)
    refine ⟨hstage, hscript, fun htrue => ?_⟩
    rw [htrue] at hdeploys
    cases hdeploys
    rw [if_pos rfl] at h
    exact isOk_jobHasRestriction.mp ((isOk_bind_of_ok fun _ => rfl).mp h)
  · rintro ⟨hstage, hscript, htime⟩
    obtain ⟨deploys, hdeploys⟩ := isOk_iff.mp (isOk_isDeploy.mpr ⟨hstage, hscript⟩)
    refine ⟨deploys, hdeploys, ?_⟩
    cases deploys with
    | false => rfl
    | true =>
      rw [if_pos rfl]
      exact (isOk_bind_of_ok fun _ => rfl).mpr (isOk_jobHasRestriction.mpr (htime hdeploys))

theorem isOk_checkDeployJobs : ∀ {jobs : List (String × Entries)},
    (checkDeployJobs env lib jobs).isOk = true ↔ ∀ job ∈ jobs, JobReadable env lib job.1 job.2
  | [] => iff_of_true rfl fun _ h => nomatch h
  | (name, job) :: jobs => by
    rw [List.forall_mem_cons, ← isOk_checkDeployJobs, ← isOk_isUnrestrictedDeploy, checkDeployJobs,
      isOk_bind, isOk_iff]
    constructor
    · exact fun ⟨a, ha, h⟩ => ⟨⟨a, ha⟩, (isOk_bind_of_ok fun _ => rfl).mp h⟩
    · exact fun ⟨⟨a, ha⟩, h⟩ => ⟨a, ha, (isOk_bind_of_ok fun _ => rfl).mpr h⟩

theorem isOk_variablesIn : ∀ {entries : Entries}, (variablesIn env lib entries).isOk = true ↔
    ∀ e ∈ entries, plainValue env e.2 ≠ none → lib.strRaises e.1 = none
  | [] => iff_of_true rfl fun _ h => nomatch h
  | (key, value) :: entries => by
    rw [List.forall_mem_cons, ← isOk_variablesIn, variablesIn]
    cases plainValue env value with
    | none => exact (and_iff_right fun h => absurd rfl h).symm
    | some text =>
      rw [isOk_bind]
      constructor
      · rintro ⟨s, hs, h⟩
        exact ⟨fun _ => isOk_strOf.mp (by rw [hs]; rfl), (isOk_bind_of_ok fun _ => rfl).mp h⟩
      · rintro ⟨hkey, h⟩
        obtain ⟨s, hs⟩ := isOk_iff.mp (isOk_strOf.mpr (hkey (Option.some_ne_none text)))
        exact ⟨s, hs, (isOk_bind_of_ok fun _ => rfl).mpr h⟩

theorem isOk_variableFindings {data : Entries} :
    (variableFindings env lib data).isOk = true ↔ VariablesReadable env lib data := by
  unfold variableFindings VariablesReadable
  cases get data "variables" with
  | dict entries => exact isOk_variablesIn
  | _ => exact iff_of_true rfl trivial

/-- **The value of a file** is checked if and only if it is as the checks assume. -/
theorem isOk_dataFindings {content : String} {v : PyValue} :
    (dataFindings env lib content v).isOk = true ↔ ValueReadable env lib v := by
  cases v with
  | dict data =>
    rw [dataFindings, isOk_bind, ValueReadable]
    constructor
    · rintro ⟨jobs, hjobs, h⟩
      have hkeys : TextKeys data := isOk_iterJobDicts.mp (by rw [hjobs]; rfl)
      rw [iterJobDicts_eq hkeys] at hjobs
      cases hjobs
      obtain ⟨deploy, hdeploy, h⟩ := isOk_bind.mp h
      refine ⟨hkeys, isOk_checkDeployJobs.mp (by rw [hdeploy]; rfl), ?_⟩
      exact isOk_variableFindings.mp ((isOk_bind_of_ok fun _ => rfl).mp h)
    · rintro ⟨hkeys, hjobs, hvariables⟩
      obtain ⟨deploy, hdeploy⟩ := isOk_iff.mp (isOk_checkDeployJobs.mpr hjobs)
      refine ⟨jobsOf data, iterJobDicts_eq hkeys, isOk_bind.mpr ⟨deploy, hdeploy, ?_⟩⟩
      exact (isOk_bind_of_ok fun _ => rfl).mpr (isOk_variableFindings.mpr hvariables)
  | _ => exact iff_of_true rfl trivial

end Checks

/-- **When the review of a file returns**: if and only if the loader returns a value or raises a
`YAMLError`, and the value is as the checks assume. -/
theorem checkGitlabCi_isOk_iff (env : Env) (lib : ReviewLibrary) (content : String) :
    (checkGitlabCi env lib content).isOk = true ↔ Readable env lib content := by
  rw [checkGitlabCi, isOk_bind]
  unfold safeLoadYaml Readable
  cases lib.safeLoad content with
  | ok data =>
    constructor
    · rintro ⟨a, ha, h⟩
      cases ha
      exact isOk_dataFindings.mp ((isOk_bind_of_ok fun _ => rfl).mp h)
    · exact fun h => ⟨data, rfl, (isOk_bind_of_ok fun _ => rfl).mpr (isOk_dataFindings.mpr h)⟩
  | error e =>
    by_cases he : e = .other "YAMLError"
    · simp only [if_pos he]
      exact iff_of_true ⟨.none, rfl, rfl⟩ he
    · simp only [if_neg he]
      exact iff_of_false (fun ⟨_, h, _⟩ => nomatch h) he

/-- A library that reads one file: a job whose name is a number. -/
def numberedLibrary : ReviewLibrary :=
  { ReviewLibrary.trial with
    safeLoad := fun content =>
      if content = "8080: \x7b\x7d\n" then .ok (.dict [(.int 8080, .dict [])]) else .ok .none }

/-- A job whose name is a number fails the review of the file. -/
theorem checkGitlabCi_raises : ¬ ∀ (env : Env) (lib : ReviewLibrary) (content : String),
    (checkGitlabCi env lib content).isOk = true := by
  intro h
  obtain ⟨data, hdata, hfindings⟩ := isOk_bind.mp (h Env.trial numberedLibrary "8080: \x7b\x7d\n")
  have hload : safeLoadYaml numberedLibrary "8080: \x7b\x7d\n" =
      .ok (.dict [(.int 8080, .dict [])]) := rfl
  rw [hload] at hdata
  cases hdata
  have hkeys := isOk_dataFindings.mp ((isOk_bind_of_ok fun _ => rfl).mp hfindings)
  obtain ⟨s, hs⟩ := hkeys.1 _ List.mem_cons_self
  cases hs

end GitlabCi

end DevOps
