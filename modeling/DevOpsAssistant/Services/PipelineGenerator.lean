import DevOpsAssistant.Services.GeneratorHelper

/-!
# The generator of CI pipelines

* `Platform`, `PipelineRequest`, `PipelineResponse`.
* `githubActions`, `gitlabCi`, `jenkins`: the files; `PipelineGeneratorService.generate`.
-/

namespace DevOps

open Txn

variable (env : Env)

/-- The platforms of a pipeline. -/
inductive Platform where
  | githubActions
  | gitlabCi
  | jenkins
deriving DecidableEq

/-- The name of a platform. -/
def Platform.value : Platform → String
  | .githubActions => "github-actions"
  | .gitlabCi => "gitlab-ci"
  | .jenkins => "jenkins"

/-- Where a pipeline deploys to. -/
inductive DeployTarget where
  | none
  | kubernetes
  | dockerHost
deriving DecidableEq

/-- `PipelineRequest`. -/
structure PipelineRequest extends GeneratorSaveOptions where
  platform : Platform
  testCommand : String
  buildDockerImage : Bool
  deployTarget : DeployTarget

/-- `PipelineResponse`. -/
structure PipelineResponse where
  content : String
  filename : String
  explanation : List String
  warnings : List String
  bestPractices : List String
  policyFindings : List PolicyFinding
  savedArtifactId : Option UUID

namespace PipelineGenerator

/-- `_github_actions`. -/
def githubActions (payload : PipelineRequest) : String × String :=
  let build := if payload.buildDockerImage then Text.unlines [
      "",
      "      - name: Build Docker image",
      "        run: docker build -t $\x7b\x7b secrets.REGISTRY_IMAGE \x7d\x7d:$\x7b\x7b github.sha \x7d\x7d .",
      "      - name: Push Docker image",
      "        run: |",
      "          echo \"Use registry credentials from CI secrets\"",
      "          # docker push $\x7b\x7b secrets.REGISTRY_IMAGE \x7d\x7d:$\x7b\x7b github.sha \x7d\x7d"]
    else ""
  let deploy := if payload.deployTarget = .kubernetes then Text.unlines [
      "",
      "      - name: Deploy to Kubernetes (placeholder)",
      "        run: |",
      "          echo \"Apply manifests with kubeconfig from secrets — not executed here\"",
      "          # kubectl apply -f k8s/"]
    else ""
  let content := Text.unlines [
      "# AI-generated GitHub Actions workflow — review before use",
      "name: CI",
      "",
      "on:",
      "  push:",
      "    branches: [main]",
      "  pull_request:",
      "",
      "permissions:",
      "  contents: read",
      "",
      "jobs:",
      "  build-test:",
      "    runs-on: ubuntu-latest",
      "    steps:",
      "      - uses: actions/checkout@v4",
      "      - uses: actions/setup-python@v5",
      "        with:",
      "          python-version: \"3.12\"",
      "          cache: pip",
      "      - name: Install dependencies",
      "        run: |",
      "          python -m pip install --upgrade pip",
      "          pip install -r requirements.txt",
      "      - name: Lint",
      "        run: ruff check .",
      "      - name: Unit tests",
      "        run: " ++ payload.testCommand,
      "      - name: Security checks",
      "        run: |",
      "          pip install pip-audit",
      "          pip-audit || true"]
  (stripped env (content ++ build ++ deploy ++ "\n"), ".github/workflows/ci.yml")

/-- The lines of the file for GitLab. -/
def gitlabCiLines (payload : PipelineRequest) : List String := [
  "# AI-generated GitLab CI — review before use",
  "stages:",
  "  - lint",
  "  - test",
  "  - build",
  "  - deploy",
  "",
  "variables:",
  "  PIP_CACHE_DIR: \"$CI_PROJECT_DIR/.cache/pip\"",
  "",
  "cache:",
  "  paths:",
  "    - .cache/pip",
  "",
  "lint:",
  "  stage: lint",
  "  image: python:3.12-slim",
  "  script:",
  "    - pip install ruff",
  "    - ruff check .",
  "",
  "test:",
  "  stage: test",
  "  image: python:3.12-slim",
  "  script:",
  "    - pip install -r requirements.txt",
  "    - " ++ payload.testCommand,
  "",
  "build:",
  "  stage: build",
  "  image: docker:27",
  "  services:",
  "    - docker:27-dind",
  "  script:",
  "    - echo \"Build and push using CI_REGISTRY_* variables from GitLab\"",
  "    - docker build -t \"$CI_REGISTRY_IMAGE:$CI_COMMIT_SHA\" .",
  "    # - docker push \"$CI_REGISTRY_IMAGE:$CI_COMMIT_SHA\"",
  "  rules:",
  "    - if: '$CI_COMMIT_BRANCH == \"main\"'",
  "      when: " ++ (if payload.buildDockerImage then "on_success" else "never"),
  "",
  "deploy:",
  "  stage: deploy",
  "  image: bitnami/kubectl:latest",
  "  script:",
  "    - echo \"Deploy placeholder — provide KUBECONFIG via CI variables\"",
  "    # - kubectl apply -f k8s/",
  "  rules:",
  "    - if: '$CI_COMMIT_BRANCH == \"main\"'",
  "      when: " ++ (if payload.deployTarget ≠ .none then "on_success" else "never")]

/-- `_gitlab_ci`. -/
def gitlabCi (payload : PipelineRequest) : String × String :=
  (stripped env (Text.unlines (gitlabCiLines payload)), ".gitlab-ci.yml")

/-- `_jenkins`. -/
def jenkins (payload : PipelineRequest) : String × String :=
  let content := Text.unlines [
      "// AI-generated Jenkinsfile — review before use",
      "pipeline \x7b",
      "  agent any",
      "  options \x7b",
      "    timestamps()",
      "    disableConcurrentBuilds()",
      "  \x7d",
      "  environment \x7b",
      "    // Credentials must come from Jenkins credentials store",
      "    REGISTRY_CREDS = credentials('registry-credentials')",
      "  \x7d",
      "  stages \x7b",
      "    stage('Install') \x7b",
      "      steps \x7b",
      "        sh 'python -m pip install -r requirements.txt'",
      "      \x7d",
      "    \x7d",
      "    stage('Lint') \x7b",
      "      steps \x7b",
      "        sh 'ruff check .'",
      "      \x7d",
      "    \x7d",
      "    stage('Test') \x7b",
      "      steps \x7b",
      "        sh '" ++ payload.testCommand ++ "'",
      "      \x7d",
      "    \x7d",
      "    stage('Security') \x7b",
      "      steps \x7b",
      "        sh 'pip install pip-audit && pip-audit || true'",
      "      \x7d",
      "    \x7d",
      "    stage('Docker') \x7b",
      "      when \x7b expression \x7b return " ++ (if payload.buildDockerImage then "true" else "false") ++
        " \x7d \x7d",
      "      steps \x7b",
      "        sh 'docker build -t $REGISTRY_IMAGE:$GIT_COMMIT .'",
      "        // sh 'docker push $REGISTRY_IMAGE:$GIT_COMMIT'",
      "      \x7d",
      "    \x7d",
      "    stage('Deploy') \x7b",
      "      when \x7b expression \x7b return " ++ (if payload.deployTarget ≠ .none then "true" else "false") ++
        " \x7d \x7d",
      "      steps \x7b",
      "        echo 'Deploy placeholder — not executed by this assistant'",
      "      \x7d",
      "    \x7d",
      "  \x7d",
      "\x7d"]
  (stripped env content, "Jenkinsfile")

/-- The content and the name of the file. -/
def file (payload : PipelineRequest) : String × String :=
  match payload.platform with
  | .githubActions => githubActions env payload
  | .gitlabCi => gitlabCi env payload
  | .jenkins => jenkins env payload

end PipelineGenerator

namespace PipelineGeneratorService

/-- The file and its name. No language model is asked. -/
def draft (payload : PipelineRequest) : Db (String × String) := pure (PipelineGenerator.file env payload)

def generate (user : User) (payload : PipelineRequest) : Db PipelineResponse := do
  let (content, filename) ← draft env payload
  let (policyFindings, savedArtifactId) ←
    persist env user payload.toGeneratorSaveOptions .pipeline content filename
  return {
    content, filename, policyFindings, savedArtifactId
    explanation := [
      "Includes install, lint, test, and security stages",
      "Docker/deploy steps are placeholders that use CI secret stores"]
    warnings := [
      "Never commit credentials into pipeline files",
      "Review workflow permissions before enabling deployments"]
    bestPractices := [
      "Pin action/image versions",
      "Use least-privilege CI permissions",
      "Require manual approval for production deploys"] }

end PipelineGeneratorService

end DevOps
