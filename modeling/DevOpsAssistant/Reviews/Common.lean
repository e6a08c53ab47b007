import DevOpsAssistant.Reviews.Findings
import DevOpsAssistant.Utils.Sanitization

/-!
# Checks that the reviews of CI files share

* `ENV_REF_RE`, `PIPE_TO_SHELL_RE`, …: the expressions.
* `looksLikeEnvReference`: a value that is not a secret.
* `scanHardcodedSecrets`, `scanDangerousShell`, …: the checks.
* `dedupeFindings`; **`mem_dedupeFindings`**: no place and text of a finding is lost.
-/

namespace DevOps

namespace ReviewChecks

variable (env : Env)

/-! ## Expressions -/

open Regex
open PolicyEngine (space nonSpace boundary found contains LATEST_TAG_RE)

/-- `[A-Za-z]`, where case does not count. -/
def isLetter (c : Char) : Bool :=
  ('a' ≤ c.toLower && c.toLower ≤ 'z') || c = 'İ' || c = 'ı' || c = 'K' || c = 'ſ'

/-- `[A-Za-z0-9]` and the characters of `extra`. -/
def isNameChar (extra : List Char) (c : Char) : Bool :=
  isLetter c || ('0' ≤ c && c ≤ '9') || extra.contains c

/-- `[…]`. -/
def charOf (cs : List Char) : Regex := char fun c => cs.contains c

/-- `[^…]`. -/
def charNotOf (cs : List Char) : Regex := char fun c => !cs.contains c

/-- `[^\s…]`. -/
def nonSpaceNotOf (cs : List Char) : Regex := char fun c => !env.unicode.isSpace c && !cs.contains c

/-- `['\"]`. -/
def quote : Regex := charOf ['\'', '"']

/-- `first[_-]?second`. -/
def hyphenated (first second : String) : Regex :=
  concat [ilit first.toList, opt (charOf ['_', '-']), ilit second.toList]

/-- `first\s+second`. -/
def words (first second : String) : Regex :=
  concat [ilit first.toList, plus (space env), ilit second.toList]

def ENV_REF_RE : Regex :=
  let braced (name : String) := concat [textStart, lit "$\x7b\x7b".toList, star (space env),
    ilit name.toList, plus (charNotOf ['\x7d']), lit "\x7d\x7d".toList, textEnd]
  oneOf [
    concat [textStart, lit ['$'], opt (lit ['\x7b']), char fun c => isLetter c || c == '_',
      star (char (isNameChar ['_'])), opt (lit ['\x7d']), textEnd],
    braced "secrets.",
    braced "env.",
    concat [textStart, ilit "credentials(".toList, quote, plus (charNotOf ['\'', '"']), quote,
      lit [')'], textEnd]]

def PIPE_TO_SHELL_RE : Regex :=
  concat [boundary env, oneOf [ilit "curl".toList, ilit "wget".toList], boundary env, plus dot,
    lit ['|'], star (space env), opt (ilit "ba".toList), ilit "sh".toList, boundary env]

def RM_RF_ROOT_RE : Regex :=
  concat [boundary env, ilit "rm".toList, plus (space env),
    star (concat [lit ['-'], star (nonSpace env), plus (space env)]),
    oneOf [lit ['/'], lit ['/', '*'], lit ['/', '.', '.']]]

def CHMOD_777_RE : Regex :=
  concat [boundary env, words env "chmod" "-R", plus (space env), lit "777".toList, boundary env]

def DOCKER_LOGIN_INLINE_RE : Regex :=
  concat [boundary env, words env "docker" "login", boundary env, plus dot,
    oneOf [ilit "-p".toList, ilit "--password".toList], plus (space env), plus (nonSpace env)]

def KUBECTL_APPLY_RE : Regex := concat [boundary env, words env "kubectl" "apply", boundary env]

def TF_AUTO_APPROVE_RE : Regex :=
  concat [boundary env, words env "terraform" "apply", boundary env, star dot,
    ilit "-auto-approve".toList]

def TF_DESTROY_RE : Regex := concat [boundary env, words env "terraform" "destroy", boundary env]

def UNPINNED_IMAGE_RE : Regex :=
  concat [lineStart, star (charOf [' ', '\t']), ilit "image:".toList, star (charOf [' ', '\t']),
    group 1 (seq (char (isNameChar [])) (star (char (isNameChar ['.', '_', '/', '-'])))),
    star (charOf [' ', '\t']), lineEnd]

def PRIVILEGED_RE : Regex :=
  concat [boundary env, ilit "privileged".toList, star (space env), charOf [':', '='],
    star (space env), ilit "true".toList, boundary env]

def DOCKER_SOCKET_RE : Regex := ilit "/var/run/docker.sock".toList

def SENSITIVE_PATH_RE : Regex :=
  let side := char fun c => env.unicode.isSpace c || ['"', '\'', '/'].contains c
  concat [alt textStart side,
    group 1 (oneOf [
      seq (ilit ".env".toList) (opt (seq (lit ['.']) (plus (char env.unicode.isWord)))),
      ilit "id_rsa".toList,
      ilit "id_ed25519".toList,
      ilit ".aws/credentials".toList,
      ilit ".kube/config".toList,
      ilit ".docker/config.json".toList,
      ilit ".git-credentials".toList]),
    alt textEnd side]

/-- The expression of `scan_hardcoded_secrets`; the value is the second group. -/
def hardcodedSecret : Regex :=
  concat [group 1 (oneOf [ilit "password".toList, ilit "passwd".toList, ilit "secret".toList,
      hyphenated "api" "key", hyphenated "access" "key", ilit "token".toList,
      hyphenated "private" "key"]),
    star (space env), charOf [':', '='], star (space env), opt quote,
    group 2 (atLeast 6 (nonSpaceNotOf env ['\'', '"']))]

/-- `\bdind\b|docker:dind`. -/
def dockerInDocker : Regex :=
  alt (concat [boundary env, ilit "dind".toList, boundary env]) (ilit "docker:dind".toList)

/-! ## Checks -/

/-- A finding at each match of an expression. -/
def findingsAt (r : Regex) (content : String) (f : Regex.Match → ℕ → Option StaticFinding) :
    List StaticFinding :=
  (r.findIter content.toList).filterMap fun m => f m (lineOf content m.startIndex)

/-- A finding at the first match of an expression. -/
def findingAt (r : Regex) (content : String) (f : ℕ → StaticFinding) : List StaticFinding :=
  ((r.search content.toList).map fun m => f (lineOf content m.startIndex)).toList

/-- A finding, if the file fails a check. -/
def findingIf (fails : Bool) (f : StaticFinding) : List StaticFinding := if fails then [f] else []

def looksLikeEnvReference (value : String) : Bool :=
  let cleaned := Text.strip (['\'', '"'].contains ·) (env.strip value).toList
  if cleaned = [] then false
  else if ((ENV_REF_RE env).matchAt [] cleaned).isSome then true
  else cleaned.head? = some '$' && !cleaned.contains ' '

def scanHardcodedSecrets (content : String) : List StaticFinding :=
  findingsAt (hardcodedSecret env) content fun m line =>
    let value := String.ofList (m.group 2)
    if looksLikeEnvReference env value then none
    else if env.lower value ∈ ["changeme", "placeholder", "redacted", "xxxxx"] then none
    else some (finding .critical "Possible hardcoded secret"
      ("A secret-like key/value pattern was detected. " ++
        "Environment or credential-store references were excluded.")
      ("Remove secrets from pipeline files and load them from " ++
        "the CI credential store or secret manager.")
      line (some "ci_hardcoded_secret"))

/-- The expressions of `scan_dangerous_shell`, each with its finding. -/
def shellChecks : List (Regex × Severity × String × String × String) := [
  (PIPE_TO_SHELL_RE env, .critical, "Remote script piped to shell",
    "Piping curl/wget output to a shell is dangerous.",
    "Vendor scripts and verify checksums or signatures before execution."),
  (RM_RF_ROOT_RE env, .critical, "Destructive recursive delete",
    "A recursive force delete targeting the filesystem root was detected.",
    "Remove destructive cleanup from CI and scope deletes carefully."),
  (CHMOD_777_RE env, .high, "World-writable recursive permissions",
    "chmod -R 777 weakens filesystem permissions.",
    "Use least-privilege modes appropriate for the workload."),
  (DOCKER_LOGIN_INLINE_RE env, .critical, "Docker login with inline password",
    "Inline registry passwords may expose credentials in logs and history.",
    "Use the CI credential helper or a secret-mounted auth config."),
  (TF_DESTROY_RE env, .critical, "Terraform destroy in pipeline",
    "terraform destroy can remove infrastructure.",
    "Require human approval and restrict destroy to controlled workflows."),
  (TF_AUTO_APPROVE_RE env, .high, "Terraform apply with auto-approve",
    "Auto-approved Terraform apply skips interactive review.",
    "Require plan review and manual approval before apply."),
  (KUBECTL_APPLY_RE env, .medium, "kubectl apply without review context",
    "Direct kubectl apply was detected in the pipeline content.",
    "Treat apply as human-approved remediation; prefer reviewable diffs.")]

def scanDangerousShell (content : String) : List StaticFinding :=
  (shellChecks env).flatMap fun (pattern, severity, title, description, recommendation) =>
    findingAt pattern content fun line =>
      finding severity title description recommendation line (some "ci_dangerous_shell")

def scanLatestAndUnpinnedImages (content : String) : List StaticFinding :=
  findingIf (found (LATEST_TAG_RE env) content)
      (finding .medium "Unpinned latest image tag"
        "Use of the 'latest' tag reduces reproducibility and auditability."
        "Pin immutable tags or digests." none (some "forbid_latest_image_tag")) ++
    findingsAt UNPINNED_IMAGE_RE content fun m line =>
      let image := String.ofList (m.group 1)
      if contains ":" image || contains "@sha256:" image then none
      else if looksLikeEnvReference env image || contains "$" image then none
      else some (finding .low "Unversioned container image"
        ("Image '" ++ image ++ "' has no tag or digest.")
        "Pin a version tag or digest for reproducible builds." line (some "ci_unpinned_image"))

def scanPrivilegedAndDockerSocket (content : String) : List StaticFinding :=
  findingAt (PRIVILEGED_RE env) content (fun line =>
      finding .critical "Privileged container or runner" "privileged: true grants broad host access."
        "Disable privileged mode unless absolutely required." line
        (some "forbid_privileged_container")) ++
    findingAt DOCKER_SOCKET_RE content (fun line =>
      finding .high "Docker socket mount"
        "Mounting /var/run/docker.sock can expose the host Docker daemon."
        "Avoid socket mounts; use isolated builders or DinD carefully." line
        (some "ci_docker_socket")) ++
    findingIf (found (dockerInDocker env) content)
      (finding .medium "Docker-in-Docker pattern"
        "Docker-in-Docker increases privilege and escape risk."
        "Prefer rootless builders or remote build services." none (some "ci_dind"))

def scanSensitivePaths (content : String) : List StaticFinding :=
  findingsAt (SENSITIVE_PATH_RE env) content fun m line =>
    some (finding .high "Sensitive path referenced"
      ("Reference to '" ++ String.ofList (m.group 1) ++
        "' may expose credentials or secrets via artifacts or scripts.")
      "Exclude secret files from artifacts and never print them." line (some "ci_sensitive_path"))

/-! ## Duplicates -/

/-- What findings are compared by. -/
def findingKey (f : StaticFinding) : String × String × Option ℤ :=
  (f.val.title, f.val.description, f.val.line)

/-- The findings whose keys are not in `seen`, the first of each key. -/
def dedupeFrom (seen : List (String × String × Option ℤ)) : List StaticFinding → List StaticFinding
  | [] => []
  | f :: fs =>
    if findingKey f ∈ seen then dedupeFrom seen fs
    else f :: dedupeFrom (findingKey f :: seen) fs

def dedupeFindings (findings : List StaticFinding) : List StaticFinding := dedupeFrom [] findings

theorem keys_dedupeFrom (fs : List StaticFinding) (seen : List (String × String × Option ℤ)) :
    ∀ k, k ∉ seen → (k ∈ (dedupeFrom seen fs).map findingKey ↔ k ∈ fs.map findingKey) := by
  induction fs generalizing seen with
  | nil => exact fun k _ => Iff.rfl
  | cons f fs ih =>
    intro k hk
    rw [dedupeFrom, List.map_cons, List.mem_cons]
    by_cases hf : findingKey f ∈ seen
    · rw [if_pos hf, ih seen k hk]
      exact ⟨.inr, fun h => h.resolve_left fun he => hk (he ▸ hf)⟩
    · rw [if_neg hf, List.map_cons, List.mem_cons]
      by_cases he : k = findingKey f
      · exact iff_of_true (.inl he) (.inl he)
      · rw [ih _ k (by simp [he, hk])]

/-- **No place and text of a finding is lost.** -/
theorem mem_dedupeFindings (fs : List StaticFinding) (k : String × String × Option ℤ) :
    k ∈ (dedupeFindings fs).map findingKey ↔ k ∈ fs.map findingKey :=
  keys_dedupeFrom fs [] k List.not_mem_nil

end ReviewChecks

end DevOps
