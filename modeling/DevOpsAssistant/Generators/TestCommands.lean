import DevOpsAssistant.Services.PipelineGenerator
import DevOpsAssistant.Text.YamlBlock

/-!
# The test command of a pipeline

The generator writes the test command into a line of a YAML file as it stands.

* `YamlLoader`: a loader of YAML; `YamlLoader.Lawful`: what it does with documents in block style.
* `RunsTestCommand`: the file is loaded, and its step runs the test command.
* `githubLines`, `gitlabLines`: the lines of the files, with the command between them.
-/

namespace DevOps

open YamlBlock

/-- A loader of YAML: the document of a text, and the plain texts that it does not take for strings. -/
structure YamlLoader where
  load : String → Option Node
  implicit : String → Bool

/-- The loader reads documents in block style as YAML defines them. -/
structure YamlLoader.Lawful (loader : YamlLoader) : Prop where
  reads : ∀ content node, document content = .ok node → loader.load content = some node
  refuses : ∀ content, document content = .error .malformed → loader.load content = none

/-- The value of `run` in the step `Unit tests`, or the second entry of the script of the job `test`. -/
def unitTest (platform : Platform) (doc : Node) : Option Node :=
  match platform with
  | .githubActions => do
    let job ← (← doc.get? "jobs").get? "build-test"
    let steps ← job.get? "steps"
    let step ← steps.items.find? fun step =>
      (step.get? "name").any fun name => name.text? = some "Unit tests".toList
    step.get? "run"
  | .gitlabCi => do
    let script ← (← doc.get? "test").get? "script"
    script.items[1]?
  | .jenkins => none

variable (env : Env)

/-- The file is loaded, and its test step runs the test command. -/
def RunsTestCommand (loader : YamlLoader) (payload : PipelineRequest) : Prop :=
  ∃ doc node, loader.load (PipelineGenerator.file env payload).1 = some doc ∧
    unitTest payload.platform doc = some node ∧ node.IsString loader.implicit payload.testCommand

/-! ## The lines of the files -/

variable (payload : PipelineRequest)

/-- The lines before the jobs of the file for GitHub. -/
def githubHead : List String := [
  "# AI-generated GitHub Actions workflow — review before use",
  "name: CI",
  "",
  "on:",
  "  push:",
  "    branches: [main]",
  "  pull_request:",
  "",
  "permissions:",
  "  contents: read",
  ""]

/-- The steps before the unit tests. -/
def githubSteps : List String := [
  "      - uses: actions/checkout@v4",
  "      - uses: actions/setup-python@v5",
  "        with:",
  "          python-version: \"3.12\"",
  "          cache: pip",
  "      - name: Install dependencies",
  "        run: |",
  "          python -m pip install --upgrade pip",
  "          pip install -r requirements.txt",
  "      - name: Lint",
  "        run: ruff check ."]

/-- The steps after the unit tests. -/
def githubRest (build kubernetes : Bool) : List String := [
    "      - name: Security checks",
    "        run: |",
    "          pip install pip-audit",
    "          pip-audit || true"] ++
  (if build then [
    "",
    "      - name: Build Docker image",
    "        run: docker build -t $\x7b\x7b secrets.REGISTRY_IMAGE \x7d\x7d:$\x7b\x7b github.sha \x7d\x7d .",
    "      - name: Push Docker image",
    "        run: |",
    "          echo \"Use registry credentials from CI secrets\"",
    "          # docker push $\x7b\x7b secrets.REGISTRY_IMAGE \x7d\x7d:$\x7b\x7b github.sha \x7d\x7d"]
    else []) ++
  if kubernetes then [
    "",
    "      - name: Deploy to Kubernetes (placeholder)",
    "        run: |",
    "          echo \"Apply manifests with kubeconfig from secrets — not executed here\"",
    "          # kubectl apply -f k8s/"]
    else []

/-- The lines of the file for GitHub. -/
def githubLines (command : String) (build kubernetes : Bool) : List String :=
  githubHead ++ "jobs:" :: "  build-test:" :: "    runs-on: ubuntu-latest" :: "    steps:" ::
    (githubSteps ++ "      - name: Unit tests" :: ("        run: " ++ command) ::
      githubRest build kubernetes)

theorem toList_unlines_append (ls ls' : List String) :
    (Text.unlines ls ++ Text.unlines ls') = Text.unlines (ls ++ ls') := by
  apply String.toList_inj.mp
  rw [String.toList_append, Text.toList_unlines, Text.toList_unlines, Text.toList_unlines,
    List.flatMap_append]

variable {env}

/-- Lines with line ends after them lose these. -/
theorem stripped_unlines (hstrip : ∀ s, env.strip s = Text.stripped s) {first last : String}
    {mid : List String} {more : String} (hfirst : ∃ c ∈ first.toList.head?, Text.isSpace c = false)
    (hlast : ∃ c ∈ last.toList.getLast?, Text.isSpace c = false)
    (hmore : ∀ c ∈ more.toList, Text.isSpace c = true) :
    stripped env (Text.unlines (first :: (mid ++ [last])) ++ more) =
      Text.unlines (first :: (mid ++ [last])) := by
  apply String.toList_inj.mp
  have hunlines : (Text.unlines (first :: (mid ++ [last]))).toList =
      (Text.unlines (first :: mid)).toList ++ last.toList ++ ['\n'] := by
    rw [Text.toList_unlines, Text.toList_unlines, ← List.cons_append, List.flatMap_append,
      List.flatMap_singleton, List.append_assoc]
  rw [stripped, hstrip, String.toList_append, Text.stripped, String.toList_ofList,
    String.toList_append, hunlines, List.append_assoc _ ['\n'], Text.strip_append]
  · rfl
  · obtain ⟨c, hc, -⟩ := hlast
    intro hnil
    rw [List.append_eq_nil_iff] at hnil
    rw [hnil.2] at hc
    cases hc
  · obtain ⟨c, hc, hspace⟩ := hfirst
    intro d hd
    rw [Text.toList_unlines, List.flatMap_cons] at hd
    cases hf : first.toList with
    | nil => rw [hf] at hc; cases hc
    | cons e es =>
      rw [hf] at hc hd
      cases hc
      cases hd
      exact hspace
  · obtain ⟨c, hc, hspace⟩ := hlast
    intro d hd
    rw [List.getLast?_append, hc, Option.some_or] at hd
    cases hd
    exact hspace
  · intro c hc
    rcases List.mem_append.mp hc with hc | hc
    · rw [List.mem_singleton.mp hc]
      decide
    · exact hmore c hc

end DevOps
