import DevOpsAssistant.Services.GeneratorHelper

/-!
# The generator of Kubernetes manifests

* `KubernetesRequest`, `KubernetesResponse`.
* `buildManifests`: the documents; `validateYamlDocuments` checks what they have been dumped to.
* `KubernetesGeneratorService.draft`: the manifests; `generate`.
-/

namespace DevOps

open Txn

variable (env : Env)

inductive ServiceType where
  | clusterIP
  | nodePort
  | loadBalancer
deriving DecidableEq

def ServiceType.value : ServiceType → String
  | .clusterIP => "ClusterIP"
  | .nodePort => "NodePort"
  | .loadBalancer => "LoadBalancer"

/-- `^[a-z0-9]([-a-z0-9]*[a-z0-9])?$`. -/
def isApplicationName (name : String) : Bool :=
  let alnum := fun c : Char => c.isLower || c.isDigit
  name.toList.all (fun c => alnum c || c == '-') && name.toList.head?.any alnum &&
    name.toList.getLast?.any alnum

/-- `KubernetesRequest`. -/
structure KubernetesRequest extends GeneratorSaveOptions where
  applicationName : String
  image : String
  replicas : ℕ
  containerPort : ℕ
  serviceType : ServiceType
  includeIngress : Bool
  includeConfigmap : Bool
  includeHpa : Bool
  cpuRequest : String
  cpuLimit : String
  memoryRequest : String
  memoryLimit : String
  applicationName_length : 1 ≤ applicationName.length ∧ applicationName.length ≤ 63
  applicationName_pattern : isApplicationName applicationName = true
  image_length : 1 ≤ image.length ∧ image.length ≤ 255
  replicas_range : 1 ≤ replicas ∧ replicas ≤ 100
  containerPort_range : 1 ≤ containerPort ∧ containerPort ≤ 65535

/-- `KubernetesResponse`. -/
structure KubernetesResponse where
  content : String
  explanation : List String
  warnings : List String
  bestPractices : List String
  policyFindings : List PolicyFinding
  savedArtifactId : Option UUID

namespace KubernetesGenerator

/-- `_labels`. -/
def labels (name : String) : Yaml := .map [
  ("app.kubernetes.io/name", .str name),
  ("app.kubernetes.io/instance", .str name),
  ("app.kubernetes.io/managed-by", .str "ai-devops-assistant")]

def configMap (payload : KubernetesRequest) : Yaml := .map [
  ("apiVersion", .str "v1"),
  ("kind", .str "ConfigMap"),
  ("metadata", .map [
    ("name", .str (payload.applicationName ++ "-config")), ("labels", labels payload.applicationName)]),
  ("data", .map [("APP_ENV", .str "production"), ("LOG_LEVEL", .str "info")])]

/-- A probe of the container. -/
def probe (path : String) (delay period : ℕ) : Yaml := .map [
  ("httpGet", .map [("path", .str path), ("port", .str "http")]),
  ("initialDelaySeconds", .int delay),
  ("periodSeconds", .int period)]

def container (payload : KubernetesRequest) : Yaml := .map [
  ("name", .str payload.applicationName),
  ("image", .str payload.image),
  ("imagePullPolicy", .str "IfNotPresent"),
  ("ports", .seq [.map [("name", .str "http"), ("containerPort", .int payload.containerPort)]]),
  ("envFrom", .seq (if payload.includeConfigmap then
    [.map [("configMapRef", .map [("name", .str (payload.applicationName ++ "-config"))])]] else [])),
  ("resources", .map [
    ("requests", .map [("cpu", .str payload.cpuRequest), ("memory", .str payload.memoryRequest)]),
    ("limits", .map [("cpu", .str payload.cpuLimit), ("memory", .str payload.memoryLimit)])]),
  ("securityContext", .map [
    ("allowPrivilegeEscalation", .bool false),
    ("privileged", .bool false),
    ("readOnlyRootFilesystem", .bool true),
    ("capabilities", .map [("drop", .seq [.str "ALL"])])]),
  ("livenessProbe", probe "/health" 20 20),
  ("readinessProbe", probe "/ready" 10 10)]

def deployment (payload : KubernetesRequest) : Yaml := .map [
  ("apiVersion", .str "apps/v1"),
  ("kind", .str "Deployment"),
  ("metadata", .map [
    ("name", .str payload.applicationName), ("labels", labels payload.applicationName)]),
  ("spec", .map [
    ("replicas", .int payload.replicas),
    ("selector", .map [
      ("matchLabels", .map [("app.kubernetes.io/name", .str payload.applicationName)])]),
    ("strategy", .map [
      ("type", .str "RollingUpdate"),
      ("rollingUpdate", .map [("maxUnavailable", .int 0), ("maxSurge", .int 1)])]),
    ("template", .map [
      ("metadata", .map [("labels", labels payload.applicationName)]),
      ("spec", .map [
        ("securityContext", .map [
          ("runAsNonRoot", .bool true),
          ("runAsUser", .int 1000),
          ("seccompProfile", .map [("type", .str "RuntimeDefault")])]),
        ("containers", .seq [container payload])])])])]

def service (payload : KubernetesRequest) : Yaml := .map [
  ("apiVersion", .str "v1"),
  ("kind", .str "Service"),
  ("metadata", .map [
    ("name", .str payload.applicationName), ("labels", labels payload.applicationName)]),
  ("spec", .map [
    ("type", .str payload.serviceType.value),
    ("selector", .map [("app.kubernetes.io/name", .str payload.applicationName)]),
    ("ports", .seq [.map [
      ("name", .str "http"), ("port", .int payload.containerPort), ("targetPort", .str "http")]])])]

def ingress (payload : KubernetesRequest) : Yaml := .map [
  ("apiVersion", .str "networking.k8s.io/v1"),
  ("kind", .str "Ingress"),
  ("metadata", .map [
    ("name", .str (payload.applicationName ++ "-ingress")),
    ("labels", labels payload.applicationName),
    ("annotations", .map [("kubernetes.io/ingress.class", .str "nginx")])]),
  ("spec", .map [("rules", .seq [.map [
    ("host", .str (payload.applicationName ++ ".example.com")),
    ("http", .map [("paths", .seq [.map [
      ("path", .str "/"),
      ("pathType", .str "Prefix"),
      ("backend", .map [("service", .map [
        ("name", .str payload.applicationName),
        ("port", .map [("number", .int payload.containerPort)])])])]])])]])])]

def hpa (payload : KubernetesRequest) : Yaml := .map [
  ("apiVersion", .str "autoscaling/v2"),
  ("kind", .str "HorizontalPodAutoscaler"),
  ("metadata", .map [
    ("name", .str (payload.applicationName ++ "-hpa")), ("labels", labels payload.applicationName)]),
  ("spec", .map [
    ("scaleTargetRef", .map [
      ("apiVersion", .str "apps/v1"),
      ("kind", .str "Deployment"),
      ("name", .str payload.applicationName)]),
    ("minReplicas", .int (max 1 payload.replicas)),
    ("maxReplicas", .int (max (payload.replicas + 2) 5)),
    ("metrics", .seq [.map [
      ("type", .str "Resource"),
      ("resource", .map [
        ("name", .str "cpu"),
        ("target", .map [("type", .str "Utilization"), ("averageUtilization", .int 70)])])]])])]

/-- `_build_manifests`. -/
def buildManifests (payload : KubernetesRequest) : List Yaml :=
  (if payload.includeConfigmap then [configMap payload] else []) ++
    [deployment payload, service payload] ++
    (if payload.includeIngress then [ingress payload] else []) ++
    (if payload.includeHpa then [hpa payload] else [])

/-- The warnings about the image and the service. -/
def warnings (payload : KubernetesRequest) : List String :=
  (if ":latest".toList.isSuffixOf payload.image.toList ∨ ':' ∉ payload.image.toList then
    ["Image appears unpinned or uses 'latest'. Prefer immutable tags/digests."] else []) ++
  (if payload.serviceType = .loadBalancer then
    ["LoadBalancer may expose the service publicly depending on cloud setup."] else [])

end KubernetesGenerator

/-- The documents that are mappings; documents that are `null` are left out. -/
def parsedDocuments : List Yaml → Option (List (List (String × Yaml)))
  | [] => some []
  | .null :: docs => parsedDocuments docs
  | .map entries :: docs => (parsedDocuments docs).map (entries :: ·)
  | _ :: _ => none

def validateYamlDocuments (content : String) : Db (List (List (String × Yaml))) :=
  match env.safeLoadAll content with
  | none => throw (ValidationAppError "Generated YAML is invalid.")
  | some documents =>
    match parsedDocuments documents with
    | none => throw (ValidationAppError "Each YAML document must be a mapping/object.")
    | some [] => throw (ValidationAppError "No YAML documents found.")
    | some parsed => pure parsed

namespace KubernetesGeneratorService

open KubernetesGenerator

/-- The manifests, as one text. -/
def draft (payload : KubernetesRequest) : Db String := do
  let content := env.safeDumpAll (buildManifests payload)
  let _ ← validateYamlDocuments env content
  return content

def generate (user : User) (payload : KubernetesRequest) : Db KubernetesResponse := do
  let content ← draft env payload
  let (policyFindings, savedArtifactId) ← persist env user payload.toGeneratorSaveOptions .kubernetes
    content (payload.applicationName ++ "-manifests")
  return {
    content, policyFindings, savedArtifactId
    warnings := warnings payload
    explanation := [
      "Generated Deployment, Service, and optional ConfigMap/Ingress/HPA",
      "Includes non-root security context, probes, and resource limits",
      "Manifests are a preview only and were not applied to any cluster"]
    bestPractices := [
      "Pin image digests",
      "Restrict network policies",
      "Store secrets in Secret objects or an external secret manager"] }

end KubernetesGeneratorService

end DevOps
