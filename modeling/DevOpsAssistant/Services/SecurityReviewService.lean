import DevOpsAssistant.Reviews.GitlabCi
import DevOpsAssistant.Reviews.Jenkins
import DevOpsAssistant.Services.GeneratorHelper

/-!
# Reviews of configuration files

* `ReviewRequest`, `ReviewResponse`.
* `runStaticChecks`, `SecurityReviewService.organizationFindings`: the findings of the checks and of the
  policies of an organization.
* `scoreFromFindings`: the score of a file.
* `Supplement`, `mergeText`: what the text of a language model adds.
* `SecurityReviewService.supplement`, `SecurityReviewService.review`.
-/

namespace DevOps

open Txn

/-- `ReviewConfigType`. -/
inductive ReviewConfigType where
  | dockerfile
  | kubernetes
  | terraform
  | githubActions
  | gitlabCi
  | jenkins
deriving DecidableEq

def ReviewConfigType.value : ReviewConfigType → String
  | .dockerfile => "dockerfile"
  | .kubernetes => "kubernetes"
  | .terraform => "terraform"
  | .githubActions => "github-actions"
  | .gitlabCi => "gitlab-ci"
  | .jenkins => "jenkins"

/-- `ReviewRequest`. -/
structure ReviewRequest where
  type : ReviewConfigType
  content : String
  provider : String
  organizationId : Option UUID
  policyPackIds : List UUID
  content_length : 1 ≤ content.length ∧ content.length ≤ 500000

/-- `ReviewResponse`. -/
structure ReviewResponse where
  score : ℤ
  score_range : 0 ≤ score ∧ score ≤ 100
  summary : String
  findings : List ReviewFinding
  builtInFindings : List ReviewFinding
  organizationPolicyFindings : List ReviewFinding
  llmFindings : List ReviewFinding
  improvedContent : Option String
  disclaimer : String :=
    "AI-assisted review combining static checks and LLM suggestions. " ++
      "Human review required before production use."

def REVIEW_SYSTEM_PROMPT : String := Text.unlines [
  "You review DevOps configuration for security and best practices.",
  "Supported configuration types include dockerfile, kubernetes, terraform,",
  "github-actions, gitlab-ci, and jenkins.",
  "",
  "Deterministic static and organization-policy findings provided in the user prompt are",
  "authoritative. Do not remove, contradict, or downgrade them. Return only supplemental",
  "findings the static checks may have missed.",
  "",
  "Return ONLY valid JSON with keys: summary, findings, improved_content.",
  "findings is an array of objects with: severity, title, description, recommendation, line.",
  "severity must be one of: info, low, medium, high, critical.",
  "improved_content may be null if no rewrite is appropriate.",
  "Never claim you executed, applied, or tested the configuration.",
  "Never echo secret values in summary or findings."]

variable (env : Env) (lib : ReviewLibrary)

/-! ## Static checks -/

namespace StaticChecks

open Regex ReviewChecks
open PolicyEngine (space nonSpace boundary found contains LATEST_TAG_RE keyValue assignment
  ignoringCase userInstruction)

def SECRET_RE : Regex :=
  concat [oneOf [ilit "password".toList, ilit "secret".toList, hyphenated "api" "key",
      ilit "token".toList],
    star (space env), charOf [':', '='], star (space env), opt quote,
    atLeast 6 (nonSpaceNotOf env ['\'', '"'])]

/-- `curl .+\|\s*(ba)?sh`. -/
def curlPipe : Regex :=
  concat [ilit "curl ".toList, plus dot, lit ['|'], star (space env), opt (ilit "ba".toList),
    ilit "sh".toList]

/-- `USER\s+root\b`. -/
def userRoot : Regex := concat [words env "USER" "root", boundary env]

/-- A character at which `str.splitlines` ends a line. -/
def isLineBreak (c : Char) : Bool :=
  c = '\n' || c = '\r' || c.toNat = 0x0b || c.toNat = 0x0c || (0x1c ≤ c.toNat && c.toNat ≤ 0x1e) ||
    c.toNat = 0x85 || c.toNat = 0x2028 || c.toNat = 0x2029

/-- `str.splitlines`; `line` is the line so far, the last character first. -/
def splitLines (line : List Char) : List Char → List (List Char)
  | [] => if line = [] then [] else [line.reverse]
  | '\r' :: '\n' :: cs => line.reverse :: splitLines [] cs
  | c :: cs => if isLineBreak c then line.reverse :: splitLines [] cs else splitLines (c :: line) cs

/-- The checks of a Dockerfile. -/
def dockerfileFindings (content : String) : List StaticFinding :=
  findingIf (!found (userInstruction env) content)
      (finding .high "Container may run as root" "No USER instruction found."
        "Add a non-root USER before CMD/ENTRYPOINT." none none) ++
    findingIf (!found (ignoringCase "HEALTHCHECK") content)
      (finding .low "Missing HEALTHCHECK" "Dockerfile does not define a HEALTHCHECK."
        "Add a HEALTHCHECK for runtime readiness where appropriate." none none)

/-- The checks of a Kubernetes manifest. -/
def kubernetesFindings (content : String) : List StaticFinding :=
  findingIf (found (keyValue env "privileged" "true") content)
      (finding .critical "Privileged container" "privileged: true grants broad host access."
        "Disable privileged mode and drop capabilities." none none) ++
    findingIf (!found (ignoringCase "resources:") content)
      (finding .high "Missing resource limits" "No resources block detected."
        "Set CPU/memory requests and limits." none none) ++
    findingIf (found (keyValue env "type" "LoadBalancer") content)
      (finding .medium "Public network exposure risk"
        "LoadBalancer service type may expose workloads publicly."
        "Confirm exposure requirements and restrict with firewalls/policies." none none)

/-- The checks of a GitHub workflow. -/
def githubActionsFindings (content : String) : List StaticFinding :=
  findingIf (found (alt (keyValue env "permissions" "write-all") (keyValue env "contents" "write"))
      content)
      (finding .high "Dangerous workflow permissions"
        "Broad write permissions increase supply-chain risk."
        "Use least-privilege permissions scoped to needed resources." none none) ++
    findingIf (found (curlPipe env) content)
      (finding .critical "Remote script piped to shell" "Piping curl output to shell is dangerous."
        "Vendor scripts and verify checksums/signatures." none none)

/-- The checks of a Terraform file. -/
def terraformFindings (content : String) : List StaticFinding :=
  findingIf (found (assignment env "acl" "\"public-read\"") content)
      (finding .critical "Public object storage ACL" "public-read ACL can expose sensitive data."
        "Use private ACLs and controlled access policies." none none) ++
    findingIf (!found (alt (assignment env "encrypted" "true") (ignoringCase "kms_key")) content)
      (finding .medium "Missing encryption indicators"
        "No explicit encryption settings were detected."
        "Enable encryption at rest for stateful resources." none none)

/-- The checks that depend on the type of the file. -/
def typeFindings (type : ReviewConfigType) (content : String) : List StaticFinding :=
  match type with
  | .dockerfile => dockerfileFindings env content
  | .kubernetes => kubernetesFindings env content
  | .githubActions => githubActionsFindings env content
  | .terraform => terraformFindings env content
  | .gitlabCi | .jenkins => []

/-- The check of each line, from the first one on. -/
def rootUserFindings (content : String) : List StaticFinding :=
  (splitLines [] content.toList).zipIdx.flatMap fun (line, idx) =>
    findingIf ((userRoot env).search line).isSome
      (finding .high "Explicit root user" "Configuration sets USER root."
        "Run as a non-root user." (some (idx + 1)) none)

/-- The checks of a file that is none of a CI platform with a module of its own. -/
def fileFindings (type : ReviewConfigType) (content : String) : List StaticFinding :=
  findingsAt (SECRET_RE env) content (fun _ line =>
      some (finding .critical "Possible hardcoded secret"
        "A secret-like key/value pattern was detected in the content."
        "Remove secrets and load them from a secret manager or CI store." line none)) ++
    findingIf (found (LATEST_TAG_RE env) content)
      (finding .medium "Unpinned latest image tag"
        "Use of the 'latest' tag reduces reproducibility and auditability."
        "Pin immutable tags or digests." none none) ++
    typeFindings env type content ++ rootUserFindings env content

end StaticChecks

def runStaticChecks (type : ReviewConfigType) (content : String) : Except Exc (List StaticFinding) :=
  match type with
  | .gitlabCi => checkGitlabCi env lib content
  | .jenkins => .ok (checkJenkins env content)
  | _ => .ok (StaticChecks.fileFindings env type content)

/-! ## Scores -/

/-- The severity of a policy as that of a finding. -/
def PolicySeverity.toSeverity : PolicySeverity → Severity
  | .low => .low
  | .medium => .medium
  | .high => .high
  | .critical => .critical

/-- `_policy_to_review_finding`. -/
def policyToReviewFinding (f : PolicyFinding) : ReviewFinding :=
  ⟨f.severity.toSeverity, f.title, f.description, f.recommendation, f.line.map Int.ofNat,
    .organizationPolicy, some f.ruleKey, some f.policyPackId⟩

/-- What a finding costs. -/
def penalty : Severity → ℤ
  | .info => 1
  | .low => 5
  | .medium => 10
  | .high => 20
  | .critical => 30

/-- `_score_from_findings`. -/
def scoreFromFindings (findings : List ReviewFinding) : ℤ :=
  max 0 (min 100 (findings.foldl (fun score f => score - penalty f.severity) 100))

theorem scoreFromFindings_range (findings : List ReviewFinding) :
    0 ≤ scoreFromFindings findings ∧ scoreFromFindings findings ≤ 100 := by
  unfold scoreFromFindings
  omega

/-! ## What a language model adds -/

/-- What a review says besides its deterministic findings. -/
structure Supplement where
  summary : String
  improvedContent : PyValue
  llmFindings : List ReviewFinding

/-- The items that are visited: what is no list is empty, or raises at its first item. -/
def findingItems : PyValue → List PyValue
  | .list items => items
  | _ => []

/-- The findings of the items, up to the first that does not validate: it ends the loop with an
exception, and what has been appended stays. -/
def validFindings : List PyValue → List ReviewFinding
  | [] => []
  | item :: items =>
    match ReviewFinding.modelValidate lib .llm item with
    | some f => f :: validFindings items
    | none => []

/-- What the text of a language model makes of a supplement. -/
def mergeText (base : Supplement) (text : String) : Supplement :=
  match lib.jsonLoads text with
  | some (.dict data) =>
    let summary := PyValue.get data "summary"
    { summary := if summary.truthy then lib.str summary else base.summary
      improvedContent := PyValue.get data "improved_content"
      llmFindings := validFindings lib (findingItems (PyValue.get data "findings")) }
  | _ => base

/-- The findings as a value. -/
def dumpedFindings (findings : List ReviewFinding) : PyValue :=
  .list (findings.map ReviewFinding.modelDump)

/-- `json.dumps([f.model_dump() for f in findings])`; `none` is a `TypeError`. -/
def dumpFindings (findings : List ReviewFinding) : Option String :=
  if (dumpedFindings findings).isJson then some (lib.jsonDumps (dumpedFindings findings)) else none

/-- The prompt of a review, with the findings as a text. -/
def reviewPrompt (payload : ReviewRequest) (content findings : String) : String :=
  "Config type: " ++ payload.type.value ++ "\n" ++
    "Deterministic (static and organization-policy) findings are authoritative; " ++
    "do not remove, contradict, or downgrade them. " ++
    "Only suggest supplemental findings.\n" ++
    "Do not execute, apply, or test this configuration.\n" ++
    "Static findings: " ++ findings ++ "\n\n" ++
    "CONTENT:\n" ++ firstChars 100000 content

/-- The summary without a language model. -/
def staticSummary (payload : ReviewRequest) (builtIn organization : List ReviewFinding) : String :=
  "Static review found " ++ toString builtIn.length ++ " issue(s) and organization policies found " ++
    toString organization.length ++ " issue(s) in " ++ payload.type.value ++ " configuration."

namespace SecurityReviewService

/-- The sanitized content of a request. -/
def contentOf (payload : ReviewRequest) : String := sanitizeText env payload.content (some 500000)

/-- The findings of the policies a request asks for. -/
def organizationFindings (user : User) (payload : ReviewRequest) : Db (List ReviewFinding) :=
  match payload.organizationId with
  | none => pure []
  | some organizationId =>
    if payload.policyPackIds.isEmpty then pure []
    else do
      let _ ← OrganizationAuthService.requirePermission organizationId user.id .policyRead
      let policyFindings ← PolicyService.evaluatePacks env organizationId payload.policyPackIds
        payload.type.value (contentOf env payload)
      return policyFindings.map policyToReviewFinding

/-- The call of the language model. -/
def ask (user : User) (payload : ReviewRequest) (findings : String) : Db (String × String) :=
  LLMGateway.generate env user .configurationReview payload.organizationId
    (reviewPrompt payload (contentOf env payload) findings) (some REVIEW_SYSTEM_PROMPT)
    (some payload.provider) none

/-- The `try` block of `review`: whatever fails is swallowed. -/
def supplement (user : User) (payload : ReviewRequest) (deterministic : List ReviewFinding)
    (base : Supplement) : Db Supplement :=
  orElseBase (do
    match dumpFindings lib deterministic with
    | none => throw (.other "TypeError")
    | some findings =>
      let (raw, _) ← ask env user payload findings
      return mergeText lib base (unfenced env raw)) base

/-- The response of a review. -/
def response (builtIn organization : List ReviewFinding) (added : Supplement) : ReviewResponse where
  score := scoreFromFindings (builtIn ++ organization)
  score_range := scoreFromFindings_range _
  summary := added.summary
  findings := builtIn ++ organization ++ added.llmFindings
  builtInFindings := builtIn
  organizationPolicyFindings := organization
  llmFindings := added.llmFindings
  improvedContent := added.improvedContent.asStr

def review (user : User) (payload : ReviewRequest) : Db ReviewResponse := do
  let checked ← orRaise (runStaticChecks env lib payload.type (contentOf env payload))
  let builtIn := checked.map Subtype.val
  let organization ← organizationFindings env user payload
  let added ← supplement env lib user payload (builtIn ++ organization)
    ⟨staticSummary payload builtIn organization, .none, []⟩
  let _ ← ArtifactRepository.createAnalysis user.id payload.organizationId .review
    (previewText env (contentOf env payload)) .completed none
  AuditService.recordEvent "review.completed" user.id payload.organizationId "review" none
  return response builtIn organization added

end SecurityReviewService

end DevOps
