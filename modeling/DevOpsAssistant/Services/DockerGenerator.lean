import DevOpsAssistant.Services.GeneratorHelper

/-!
# The generator of Dockerfiles

* `DockerfileRequest`, `DockerfileResponse`.
* `deterministicDockerfile`: the file without a language model.
* `DockerGeneratorService.draft`: the file of the model, or the deterministic one; `generate`.
-/

namespace DevOps

open Txn

variable (env : Env)

/-- `DockerfileRequest`. -/
structure DockerfileRequest extends GeneratorSaveOptions where
  language : String
  framework : Option String
  pythonVersion : String
  port : ℕ
  useMultistage : Bool
  runAsNonRoot : Bool
  provider : String
  language_length : 1 ≤ language.length ∧ language.length ≤ 50
  port_range : 1 ≤ port ∧ port ≤ 65535

/-- `DockerfileResponse`. -/
structure DockerfileResponse extends DockerfileDraft where
  policyFindings : List PolicyFinding
  savedArtifactId : Option UUID

/-- The text, or `null`. -/
def Yaml.optStr : Option String → Yaml
  | none => .null
  | some s => .str s

/-- The fields of the save options, as they are dumped. -/
def GeneratorSaveOptions.fields (payload : GeneratorSaveOptions) : List (String × Yaml) := [
  ("save_artifact", .bool payload.saveArtifact),
  ("artifact_name", .optStr payload.artifactName),
  ("artifact_description", .optStr payload.artifactDescription),
  ("organization_id", .optStr (payload.organizationId.map toString)),
  ("policy_pack_ids", .seq (payload.policyPackIds.map fun id => .str (toString id))),
  ("validate_policies", .bool payload.validatePolicies)]

def DOCKERFILE_SYSTEM_PROMPT : String := Text.unlines [
  "You generate production-minded Dockerfiles.",
  "Return ONLY valid JSON with keys:",
  "content, explanation, warnings, best_practices, dockerignore_recommendations.",
  "Prefer multi-stage builds, non-root users, dependency caching, and no secrets."]

namespace DockerGenerator

/-- The file for a language other than Python. -/
def placeholderDockerfile (payload : DockerfileRequest) : DockerfileDraft where
  content := Text.unlines [
    "# AI-generated placeholder Dockerfile for " ++ payload.language,
    "# Review and adapt for your stack.",
    "FROM alpine:3.20",
    "RUN adduser -D appuser",
    "USER appuser",
    "EXPOSE " ++ toString payload.port,
    "CMD [\"sleep\", \"infinity\"]"]
  explanation := ["Generic template for language '" ++ payload.language ++ "'."]
  warnings := ["Non-Python languages use a conservative placeholder template."]
  bestPractices := [
    "Pin base image digests in production",
    "Run as non-root",
    "Do not bake secrets into the image"]
  dockerignoreRecommendations := [".git", ".env", "node_modules", "__pycache__"]

/-- The user the container runs as. -/
def userBlock (payload : DockerfileRequest) : List String :=
  if payload.runAsNonRoot then
    ["RUN useradd --create-home --shell /bin/bash appuser", "USER appuser"]
  else []

/-- The last line. -/
def uvicorn (payload : DockerfileRequest) : String :=
  "CMD [\"uvicorn\", \"app.main:app\", \"--host\", \"0.0.0.0\", \"--port\", \"" ++
    toString payload.port ++ "\"]"

/-- The lines of the file for Python. -/
def pythonLines (payload : DockerfileRequest) : List String :=
  if payload.useMultistage then [
    "# AI-generated Dockerfile — review before production use",
    "FROM python:" ++ payload.pythonVersion ++ "-slim AS builder",
    "WORKDIR /build",
    "ENV PIP_DISABLE_PIP_VERSION_CHECK=1 \\",
    "    PYTHONDONTWRITEBYTECODE=1",
    "COPY requirements.txt .",
    "RUN pip install --prefix=/install -r requirements.txt",
    "",
    "FROM python:" ++ payload.pythonVersion ++ "-slim AS runtime",
    "WORKDIR /app",
    "ENV PYTHONDONTWRITEBYTECODE=1 \\",
    "    PYTHONUNBUFFERED=1 \\",
    "    PATH=/home/appuser/.local/bin:$PATH",
    "COPY --from=builder /install /usr/local",
    "COPY . ."] ++ userBlock payload ++ [
    "EXPOSE " ++ toString payload.port,
    "HEALTHCHECK --interval=30s --timeout=5s --start-period=20s --retries=3 \\",
    "  CMD python -c \"import urllib.request; urllib.request.urlopen('http://127.0.0.1:" ++
      toString payload.port ++ "/health')\" || exit 1",
    uvicorn payload]
  else [
    "# AI-generated Dockerfile — review before production use",
    "FROM python:" ++ payload.pythonVersion ++ "-slim",
    "WORKDIR /app",
    "ENV PYTHONDONTWRITEBYTECODE=1 PYTHONUNBUFFERED=1",
    "COPY requirements.txt .",
    "RUN pip install --no-cache-dir -r requirements.txt",
    "COPY . ."] ++ userBlock payload ++ [
    "EXPOSE " ++ toString payload.port,
    uvicorn payload]

/-- `_deterministic_dockerfile`. -/
def deterministicDockerfile (payload : DockerfileRequest) : DockerfileDraft :=
  if env.lower payload.language ≠ "python" then placeholderDockerfile payload
  else
    { content := stripped env (Text.unlines (pythonLines payload))
      explanation := [
        "Uses slim Python base image",
        "Caches dependency installation via requirements.txt copy",
        "Includes health check when multi-stage/runtime image is used"]
      warnings :=
        if payload.runAsNonRoot then []
        else ["Container may run as root; enable run_as_non_root."]
      bestPractices := [
        "Pin dependency versions in requirements.txt",
        "Never copy .env or credentials into the image",
        "Prefer multi-stage builds to reduce final image size"]
      dockerignoreRecommendations :=
        [".git", ".env", ".venv", "__pycache__", "*.pyc", "tests", ".pytest_cache"] }

/-- `payload.model_dump_json()`. -/
def dumpsRequest (payload : DockerfileRequest) : String :=
  env.dumpsJson (.map (payload.toGeneratorSaveOptions.fields ++ [
    ("language", .str payload.language),
    ("framework", .optStr payload.framework),
    ("python_version", .str payload.pythonVersion),
    ("port", .int payload.port),
    ("use_multistage", .bool payload.useMultistage),
    ("run_as_non_root", .bool payload.runAsNonRoot),
    ("provider", .str payload.provider)]))

end DockerGenerator

namespace DockerGeneratorService

open DockerGenerator

/-- The file of the model, or the deterministic one. -/
def draft (user : User) (payload : DockerfileRequest) : Db DockerfileDraft :=
  let base := deterministicDockerfile env payload
  let prompt := "Improve or validate this Dockerfile generation request. Return JSON only.\n" ++
    "Request: " ++ dumpsRequest env payload ++ "\nBaseline:\n" ++ base.content
  orElseBase (generateParsed env user .dockerfileGeneration payload.toGeneratorSaveOptions prompt
    DOCKERFILE_SYSTEM_PROMPT payload.provider env.loadsDockerfile) base

def generate (user : User) (payload : DockerfileRequest) : Db DockerfileResponse := do
  let result ← draft env user payload
  let (policyFindings, savedArtifactId) ← persist env user payload.toGeneratorSaveOptions .dockerfile
    result.content ("Dockerfile-" ++ payload.language)
  return { result with policyFindings, savedArtifactId }

end DockerGeneratorService

end DevOps
