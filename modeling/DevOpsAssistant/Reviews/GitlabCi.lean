import DevOpsAssistant.Reviews.Common

/-!
# The review of GitLab CI files

The file is read as YAML, and searched for expressions as a text. What a mapping of the file can hold as
keys and values is not checked everywhere, so that some checks can raise.

* `GitlabCi.safeLoadYaml`, `GitlabCi.iterJobDicts`: the file as a value, and its jobs.
* `GitlabCi.checkIncludes`, `GitlabCi.checkDeployJobs`, …: the checks; `checkGitlabCi`.
-/

namespace DevOps

namespace GitlabCi

variable (env : Env) (lib : ReviewLibrary)

open Regex ReviewChecks
open PolicyEngine (space boundary found contains)
open PyValue (get has)

/-- The entries of a mapping. -/
abbrev Entries := List (PyValue × PyValue)

def UNPINNED_REMOTE_RE : Regex :=
  concat [ilit "remote:".toList, star (space env), opt quote,
    group 1 (concat [ilit "http".toList, opt (ilit ['s']), lit "://".toList,
      plus (nonSpaceNotOf env ['\'', '"'])]), opt quote]

/-- `\b(kubectl\s+apply|helm\s+upgrade|terraform\s+apply|deploy)\b`. -/
def deployCommand : Regex :=
  concat [boundary env, oneOf [words env "kubectl" "apply", words env "helm" "upgrade",
    words env "terraform" "apply", ilit "deploy".toList], boundary env]

/-- `(echo|printenv|env)\s+.*\b(CI_JOB_TOKEN|CI_DEPLOY_PASSWORD|CI_REGISTRY_PASSWORD)\b`. -/
def printedToken : Regex :=
  concat [oneOf [ilit "echo".toList, ilit "printenv".toList, ilit "env".toList], plus (space env),
    star dot, boundary env, oneOf [ilit "CI_JOB_TOKEN".toList, ilit "CI_DEPLOY_PASSWORD".toList,
      ilit "CI_REGISTRY_PASSWORD".toList], boundary env]

/-- `curl\b.+\b\$CI_JOB_TOKEN\b`. -/
def curlToken : Regex :=
  concat [ilit "curl".toList, boundary env, plus dot, boundary env, ilit "$CI_JOB_TOKEN".toList,
    boundary env]

/-- `(password|secret|token|api[_-]?key)`. -/
def secretName : Regex :=
  oneOf [ilit "password".toList, ilit "secret".toList, ilit "token".toList, hyphenated "api" "key"]

/-! ## The file as a value -/

/-- `_safe_load_yaml`: only a `YAMLError` is caught. -/
def safeLoadYaml (content : String) : Except Exc PyValue :=
  match lib.safeLoad content with
  | .error e => if e = .other "YAMLError" then .ok .none else .error e
  | .ok data => .ok data

/-- The keys that name no job. -/
def reserved : List String :=
  ["stages", "variables", "default", "include", "workflow", "image", "services", "before_script",
    "after_script", "cache", "pages"]

/-- `_iter_job_dicts`; a key that is no text raises at `startswith`. -/
def iterJobDicts : Entries → Except Exc (List (String × Entries))
  | [] => .ok []
  | (.str key, value) :: entries => do
    let jobs ← iterJobDicts entries
    if key.startsWith "." || reserved.contains key then return jobs
    else match value with
      | .dict job => return (key, job) :: jobs
      | _ => return jobs
  | (_, _) :: _ => .error (.other "AttributeError")

/-- The value if it is true, otherwise the empty text: `v or ""`. -/
def orEmpty (v : PyValue) : PyValue := if v.truthy then v else .str ""

/-- `str(v)`. -/
def strOf (v : PyValue) : Except Exc String :=
  match lib.strRaises v with
  | some e => .error e
  | none => .ok (lib.str v)

/-- The job has rules, branches or an environment. -/
def isRestricted (job : Entries) : Bool :=
  (match get job "rules" with
    | .list rules => !rules.isEmpty
    | _ => false) ||
  (get job "only").truthy || (get job "except").truthy || (get job "environment").truthy

/-- `_job_has_restriction`. -/
def jobHasRestriction (job : Entries) : Except Exc Bool := do
  if isRestricted job then return true
  else return ["manual", "delayed"].contains (env.lower (← strOf lib (orEmpty (get job "when"))))

/-! ## Checks -/

/-- The includes of a file, as a list. -/
def includesOf (data : Entries) : List PyValue :=
  if has data "include" then
    match get data "include" with
    | .list items => items
    | .dict entries => [.dict entries]
    | .str s => [.str s]
    | _ => []
  else []

/-- The remote URL of an include, its `ref`, and whether it names a project. -/
def includeParts : PyValue → Option String × Option String × Bool
  | .str s => (if s.startsWith "http" then some s else none, none, false)
  | .dict item => ((get item "remote").asStr, (get item "ref").asStr, (get item "project").truthy)
  | _ => (none, none, false)

/-- `_check_includes`, of one include. -/
def includeFindings (content : String) (item : PyValue) : List StaticFinding :=
  let (remote, ref, project) := includeParts item
  let unpinned := (ref.filter (· ≠ "")).isNone
  findingIf (project && unpinned)
      (finding .medium "Unpinned GitLab include"
        ("A project include does not pin a stable `ref`. " ++
          "Remote includes are not fetched during review.")
        "Pin includes to a tag, commit SHA, or immutable ref." none
        (some "gitlab_unpinned_include")) ++
    match remote.filter (· ≠ "") with
    | none => []
    | some remote =>
      findingIf (!contains "@" remote && !contains "ref=" remote && unpinned)
        (finding .medium "Unpinned remote include"
          ("Remote include '" ++ remote ++ "' appears unpinned. " ++
            "Remote includes are treated as external dependencies and are not fetched during review.")
          "Pin remote includes to an immutable version or checksummed artifact."
          (((UNPINNED_REMOTE_RE env).search content.toList).map fun m => lineOf content m.startIndex)
          (some "gitlab_unpinned_remote_include"))

def checkIncludes (content : String) (data : Entries) : List StaticFinding :=
  (includesOf data).flatMap (includeFindings env content)

/-- `"\n".join(lines)`; a line that is no text raises. -/
def joinLines : List PyValue → Except Exc String
  | [] => .ok ""
  | [.str s] => .ok s
  | .str s :: lines => do return s ++ "\n" ++ (← joinLines lines)
  | _ :: _ => .error (.other "TypeError")

/-- The script of a job as one text. -/
def scriptText (job : Entries) : Except Exc String :=
  match get job "script" with
  | .list lines => joinLines lines
  | script => strOf lib (orEmpty script)

/-- The job deploys. -/
def isDeploy (name : String) (job : Entries) : Except Exc Bool := do
  let stage ← strOf lib (orEmpty (get job "stage"))
  if contains "deploy" (env.lower name) || env.lower stage = "deploy" then return true
  else return found (deployCommand env) (← scriptText lib job)

/-- The job deploys, and has no restriction. -/
def isUnrestrictedDeploy (name : String) (job : Entries) : Except Exc Bool := do
  if ← isDeploy env lib name job then return !(← jobHasRestriction env lib job)
  else return false

/-- `_check_deploy_jobs`. -/
def checkDeployJobs : List (String × Entries) → Except Exc (List StaticFinding)
  | [] => .ok []
  | (name, job) :: jobs => do
    let unrestricted ← isUnrestrictedDeploy env lib name job
    let findings ← checkDeployJobs jobs
    return findingIf unrestricted
      (finding .medium "Deployment job without branch or manual restriction"
        ("Job '" ++ name ++ "' appears to deploy without obvious `rules`/`only`, " ++
          "environment, or `when: manual` protections. " ++
          "This does not prove branch protection is absent in GitLab settings.")
        "Restrict deploy jobs with rules, environments, and manual approval for production." none
        (some "gitlab_unrestricted_deploy")) ++ findings

/-- The findings about the artifacts of one job. -/
def artifactFindings (name : String) (job : Entries) : List StaticFinding :=
  match get job "artifacts" with
  | .dict artifacts =>
    let paths := get artifacts "paths"
    let broad := match paths with
      | .list paths => paths.filterMap fun path : PyValue => path.asStr.filter fun p =>
          [".", "./", "**/*", "*"].contains (env.strip p)
      | _ => []
    let retention := match get artifacts "expire_in" with
      | .none => paths.truthy
      | _ => false
    (broad.map fun path => finding .medium "Broad artifact path"
        ("Job '" ++ name ++ "' publishes a very broad artifact path '" ++ path ++ "'.")
        "Limit artifacts to explicit build outputs." none (some "gitlab_broad_artifacts")) ++
      findingIf retention (finding .info "Artifact retention not set"
        ("Job '" ++ name ++ "' defines artifacts without `expire_in`.")
        "Set expire_in to limit retention of build outputs." none
        (some "gitlab_artifact_retention"))
  | _ => []

def checkArtifacts (jobs : List (String × Entries)) (content : String) : List StaticFinding :=
  scanSensitivePaths env content ++
    jobs.flatMap fun (name, job) => artifactFindings env name job

def checkTokenExposure (content : String) : List StaticFinding :=
  findingsAt (printedToken env) content (fun _ line =>
      some (finding .high "Built-in token may be printed"
        "A high-privilege GitLab CI token appears in a print/echo command."
        "Never print CI tokens; mask variables and avoid debug dumps." line
        (some "gitlab_token_logging"))) ++
    findingsAt (curlToken env) content fun _ line =>
      some (finding .low "CI_JOB_TOKEN used in script"
        "CI_JOB_TOKEN is a privileged built-in token used in a script."
        "Scope token usage narrowly and avoid leaking it via logs or artifacts." line
        (some "gitlab_job_token_use"))

/-- The value of a variable that is a text and no reference. -/
def plainValue (value : PyValue) : Option String :=
  value.asStr.filter fun value => !looksLikeEnvReference env value

/-- The findings about the entries of `variables`. -/
def variablesIn : Entries → Except Exc (List StaticFinding)
  | [] => .ok []
  | (key, value) :: entries =>
    match plainValue env value with
    | none => variablesIn entries
    | some value => do
      let name ← strOf lib key
      let findings ← variablesIn entries
      return findingIf (found secretName name && 6 ≤ value.length)
        (finding .critical "Possible hardcoded secret in variables"
          ("Variable '" ++ name ++ "' looks secret-like and is not an environment reference.")
          "Move secrets to masked/protected CI variables." none (some "ci_hardcoded_secret")) ++
        findings

/-- The findings about the variables of a file. -/
def variableFindings (data : Entries) : Except Exc (List StaticFinding) :=
  match get data "variables" with
  | .dict entries => variablesIn env lib entries
  | _ => .ok []

/-- The findings about the file as a value. -/
def dataFindings (content : String) : PyValue → Except Exc (List StaticFinding)
  | .dict data => do
    let jobs ← iterJobDicts data
    let deploy ← checkDeployJobs env lib jobs
    let secrets ← variableFindings env lib data
    return checkIncludes env content data ++ deploy ++ checkArtifacts env jobs content ++ secrets
  | _ => .ok (scanSensitivePaths env content)

end GitlabCi

open GitlabCi ReviewChecks in
def checkGitlabCi (env : Env) (lib : ReviewLibrary) (content : String) :
    Except Exc (List StaticFinding) := do
  let data ← safeLoadYaml lib content
  let invalid := match data with
    | .none => env.strip content ≠ ""
    | _ => false
  let findings ← dataFindings env lib content data
  return dedupeFindings (
    findingIf invalid (finding .high "Invalid GitLab CI YAML"
      "The configuration could not be parsed as YAML."
      "Fix YAML syntax before relying on pipeline behavior." none (some "gitlab_invalid_yaml")) ++
    scanHardcodedSecrets env content ++ scanDangerousShell env content ++
    scanLatestAndUnpinnedImages env content ++ scanPrivilegedAndDockerSocket env content ++
    checkTokenExposure env content ++ findings)

end DevOps
