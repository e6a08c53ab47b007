import DevOpsAssistant.Models.Work
import DevOpsAssistant.Core.Config
import DevOpsAssistant.Text.Regex

/-!
# The policy engine

`evaluateRule`: what a rule of a policy pack finds in a configuration file. Each key of a rule has its
own check; most of them search the file for a regular expression.

* `PolicyEngine.LATEST_TAG_RE`, …: the expressions.
* `PolicyEngine.ruleFindings`: the checks; `evaluateRule`, `evaluatePolicyRules`, `hasCriticalFindings`.
* **`ruleFindings_ci`**: the files of all CI platforms are checked alike.
-/

namespace DevOps

variable (env : Env)

namespace PolicyEngine

/-! ## Expressions -/

/-- `\s`. -/
def space : Regex := .char env.unicode.isSpace

/-- `\S`. -/
def nonSpace : Regex := .char fun c => !env.unicode.isSpace c

/-- `\d`. -/
def digit : Regex := .char env.unicode.isDecimal

/-- `\b`. -/
def boundary : Regex := .wordBoundary env.unicode.isWord

open Regex in
def LATEST_TAG_RE : Regex :=
  alt (concat [lit [':'], star (space env), ilit "latest".toList, boundary env])
    (concat [ilit "image:".toList, star (space env), plus (nonSpace env), ilit ":latest".toList,
      boundary env])

open Regex in
def IMAGE_DIGEST_RE : Regex :=
  seq (lit "@sha256:".toList)
    (times 64 (char fun c => ('a' ≤ c && c ≤ 'f') || ('0' ≤ c && c ≤ '9')))

open Regex in
def UNPINNED_GHA_RE : Regex :=
  concat [lit "uses:".toList, star (space env),
    plus (char fun c => !env.unicode.isSpace c && c != '@'), lit ['@'],
    plus (char fun c => c != '#' && c != '\n'), notBehind 72 IMAGE_DIGEST_RE]

/-- `(?m)^USER\s+`. -/
def userInstruction : Regex := .concat [.lineStart, .lit "USER".toList, .plus (space env)]

open Regex in
/-- `(?i)key:\s*value`. -/
def keyValue (key value : String) : Regex :=
  concat [ilit key.toList, ilit [':'], star (space env), ilit value.toList]

open Regex in
/-- `(?i)key\s*=\s*value`. -/
def assignment (key value : String) : Regex :=
  concat [ilit key.toList, star (space env), ilit ['='], star (space env), ilit value.toList]

/-- `(?i)text`. -/
def ignoringCase (text : String) : Regex := .ilit text.toList

open Regex in
/-- The image after `image:` or `FROM`; it is the second group. -/
def imageReference : Regex :=
  let part := plus (char fun c => !env.unicode.isSpace c && c != '\'' && c != '"' && c != '/' && c != ':')
  concat [alt (seq (ilit "image:".toList) (star (space env))) (seq (ilit "FROM".toList) (plus (space env))),
    group 1 (opt (char fun c => c == '\'' || c == '"')),
    group 2 (seq part (star (seq (lit ['/']) part)))]

open Regex in
/-- `(?m)^\s*label:`. -/
def labelLine (label : String) : Regex :=
  concat [lineStart, star (space env), lit label.toList, lit [':']]

open Regex in
/-- `(?m)^\s*-\s*uses:\s*(.+)$`. -/
def usesLine : Regex :=
  concat [lineStart, star (space env), lit ['-'], star (space env), lit "uses:".toList,
    star (space env), group 1 (plus dot), lineEnd]

open Regex in
/-- `@[vV]\d+(?:\.\d+)*$`. -/
def versionTag : Regex :=
  concat [lit ['@'], char fun c => c == 'v' || c == 'V', plus (digit env),
    star (seq (lit ['.']) (plus (digit env))), textEnd]

/-- `re.search` finds the expression. -/
def found (r : Regex) (content : String) : Bool := (r.search content.toList).isSome

/-- `text in content`. -/
def contains (text content : String) : Bool := found (.lit text.toList) content

/-! ## Findings -/

/-- `_line_of`. -/
def lineOf (content : String) (matchStart : ℕ) : ℕ := (content.toList.take matchStart).count '\n' + 1

/-- `_matches_resource`. -/
def matchesResource (rule : PolicyRule) (configType : String) : Bool :=
  rule.resourceType = "general" || rule.resourceType = configType

/-- `_finding`. -/
def finding (rule : PolicyRule) (policyPackId : UUID) (title description : String)
    (recommendation : Option String := none) (line : Option ℕ := none) : PolicyFinding :=
  { ruleKey := rule.ruleKey, severity := rule.severity, title, description, policyPackId, line
    recommendation := recommendation.getD
      ((rule.remediation.filter (· ≠ "")).getD "Review and remediate.") }

/-- A finding, if the file fails a check. -/
def findingIf (fails : Bool) (f : PolicyFinding) : List PolicyFinding := if fails then [f] else []

/-- The checks of `require_non_root_container`. -/
def nonRootFindings (rule : PolicyRule) (configType content : String) (policyPackId : UUID) :
    List PolicyFinding :=
  findingIf (configType = "dockerfile" && !found (userInstruction env) content)
      (finding rule policyPackId "Non-root container required"
        "No USER instruction found in Dockerfile.") ++
    findingIf (configType = "kubernetes" && found (keyValue env "runAsNonRoot" "false") content)
      (finding rule policyPackId "Container runs as root" "runAsNonRoot is explicitly false.") ++
    findingIf (configType = "kubernetes" && !found (keyValue env "runAsNonRoot" "true") content &&
        found (.alt (keyValue env "kind" "Deployment") (keyValue env "kind" "Pod")) content)
      (finding rule policyPackId "Non-root security context missing"
        "No runAsNonRoot: true found in Kubernetes manifest.")

/-- The check of `allowed_container_registries`. -/
def registryFindings (rule : PolicyRule) (content : String) (policyPackId : UUID) :
    List PolicyFinding :=
  ((imageReference env).findIter content.toList).flatMap fun m =>
    let imageRef := m.group 2
    findingIf (!rule.configurationJson.registries.any fun registry =>
        registry.toList.isPrefixOf imageRef)
      (finding rule policyPackId "Disallowed container registry"
        ("Image reference '" ++ String.ofList imageRef ++ "' is not in the allow list.")
        none (some (lineOf content m.startIndex)))

/-- The check of `require_pinned_github_actions`, of one `uses` entry. -/
def usesFindings (rule : PolicyRule) (content : String) (policyPackId : UUID) (m : Regex.Match) :
    List PolicyFinding :=
  let usesValue := env.strip (String.ofList (m.group 1))
  let line := some (lineOf content m.startIndex)
  if !contains "@" usesValue || found (UNPINNED_GHA_RE env) ("uses: " ++ usesValue) then
    if contains "@main" usesValue || contains "@master" usesValue || contains ":latest" usesValue then
      [finding rule policyPackId "Unpinned GitHub Action"
        ("Action '" ++ usesValue ++ "' is not pinned to an immutable ref.") none line]
    else if found (versionTag env) usesValue then
      [finding rule policyPackId "Floating GitHub Action tag"
        ("Action '" ++ usesValue ++ "' uses a mutable version tag.") none line]
    else []
  else []

/-- The body of `evaluate_rule`, after the rule has been found to apply. -/
def ruleFindings (rule : PolicyRule) (configType content : String) (policyPackId : UUID) :
    List PolicyFinding :=
  match rule.ruleKey with
  | "require_non_root_container" => nonRootFindings env rule configType content policyPackId
  | "forbid_privileged_container" =>
    findingIf (found (keyValue env "privileged" "true") content)
      (finding rule policyPackId "Privileged container forbidden"
        "privileged: true grants broad host access.")
  | "forbid_latest_image_tag" =>
    match (LATEST_TAG_RE env).search content.toList with
    | none => []
    | some m =>
      [finding rule policyPackId "Mutable image tag is forbidden"
        "The container image uses the latest tag."
        (some "Use a versioned image tag or immutable digest.") (some (lineOf content m.startIndex))]
  | "require_resource_limits" =>
    findingIf (configType = "kubernetes" && !found (ignoringCase "resources:") content)
      (finding rule policyPackId "Resource limits required" "No resources block detected.")
  | "require_liveness_probe" =>
    findingIf (configType = "kubernetes" && !found (ignoringCase "livenessProbe:") content)
      (finding rule policyPackId "Liveness probe required" "No livenessProbe found.")
  | "require_readiness_probe" =>
    findingIf (configType = "kubernetes" && !found (ignoringCase "readinessProbe:") content)
      (finding rule policyPackId "Readiness probe required" "No readinessProbe found.")
  | "require_image_digest" =>
    findingIf ((configType = "dockerfile" || configType = "kubernetes") &&
        !found IMAGE_DIGEST_RE content)
      (finding rule policyPackId "Image digest required"
        "No @sha256 digest found for container images.")
  | "allowed_container_registries" => registryFindings env rule content policyPackId
  | "forbid_host_network" =>
    findingIf (found (keyValue env "hostNetwork" "true") content)
      (finding rule policyPackId "Host networking forbidden" "hostNetwork: true was detected.")
  | "forbid_host_path" =>
    findingIf (found (ignoringCase "hostPath:") content)
      (finding rule policyPackId "Host path volume forbidden" "hostPath volume mount detected.")
  | "required_kubernetes_labels" =>
    if configType ≠ "kubernetes" then []
    else rule.configurationJson.labels.flatMap fun label =>
      findingIf (!found (labelLine env label) content)
        (finding rule policyPackId "Required Kubernetes label missing"
          ("Required label '" ++ label ++ "' was not found."))
  | "forbid_github_write_all" =>
    findingIf (found (.alt (keyValue env "permissions" "write-all") (keyValue env "contents" "write"))
        content)
      (finding rule policyPackId "Dangerous workflow permissions"
        "Broad write permissions increase supply-chain risk.")
  | "require_pinned_github_actions" =>
    ((usesLine env).findIter content.toList).flatMap (usesFindings env rule content policyPackId)
  | "require_terraform_encryption" =>
    findingIf (configType = "terraform" &&
        !found (.alt (assignment env "encrypted" "true") (ignoringCase "kms_key")) content)
      (finding rule policyPackId "Encryption required"
        "No explicit encryption settings were detected.")
  | "forbid_public_cloud_storage" =>
    findingIf (found (.alt (assignment env "acl" "\"public-read\"")
        (assignment env "public_access_block" "false")) content)
      (finding rule policyPackId "Public cloud storage forbidden"
        "Public object storage configuration detected.")
  | _ => []

end PolicyEngine

open PolicyEngine

def evaluateRule (rule : PolicyRule) (configType content : String) (policyPackId : UUID) :
    List PolicyFinding :=
  if !rule.isEnabled || !matchesResource rule configType then []
  else ruleFindings env rule configType content policyPackId

def evaluatePolicyRules (rules : List PolicyRule) (configType content : String)
    (policyPackId : UUID) : List PolicyFinding :=
  rules.flatMap fun rule => evaluateRule env rule configType content policyPackId

def hasCriticalFindings (findings : List PolicyFinding) : Bool :=
  findings.any fun f => f.severity = .critical

/-! ## The files of CI platforms -/

namespace PolicyEngine

/-- A configuration type that no check of a rule asks for. -/
def isCi (configType : String) : Prop :=
  configType ≠ "dockerfile" ∧ configType ≠ "kubernetes" ∧ configType ≠ "terraform"

/-- **The files of all CI platforms are checked alike.** -/
theorem ruleFindings_ci {t t' : String} (ht : isCi t) (ht' : isCi t') (rule : PolicyRule)
    (content : String) (policyPackId : UUID) :
    ruleFindings env rule t content policyPackId = ruleFindings env rule t' content policyPackId := by
  unfold ruleFindings nonRootFindings
  simp only [ht.1, ht.2.1, ht.2.2, ht'.1, ht'.2.1, ht'.2.2, decide_false, Bool.false_and,
    Bool.or_self, ne_eq, not_false_eq_true, if_true]

end PolicyEngine

end DevOps
