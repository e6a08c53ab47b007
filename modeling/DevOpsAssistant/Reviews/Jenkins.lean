import DevOpsAssistant.Reviews.Common

/-!
# The review of Jenkinsfiles

The file is searched for expressions; it is not read as a program.

* `Jenkins.AGENT_ANY_RE`, …: the expressions.
* `Jenkins.checkAgentAny`, `Jenkins.checkCredentials`, …: the checks; `checkJenkins`.
-/

namespace DevOps

namespace Jenkins

variable (env : Env)

open Regex ReviewChecks
open PolicyEngine (space boundary found contains)

/-! ## Expressions -/

def AGENT_ANY_RE : Regex := concat [boundary env, words env "agent" "any", boundary env]

/-- `\bname\s*open`. -/
def opened (name : String) (bracket : Char) : Regex :=
  concat [boundary env, ilit name.toList, star (space env), lit [bracket]]

def TIMEOUT_RE : Regex := opened env "timeout" '('

def POST_RE : Regex := opened env "post" '\x7b'

def INPUT_RE : Regex := opened env "input" '('

/-- A variable whose name looks secret-like. -/
def secretVariable : Regex :=
  let name := star (char (isNameChar ['_']))
  concat [lit ['$'], opt (lit ['\x7b']), name,
    oneOf [ilit "PASSWORD".toList, ilit "SECRET".toList, ilit "TOKEN".toList, hyphenated "API" "KEY",
      ilit "PASSWD".toList], name, opt (lit ['\x7d'])]

def SECRET_INTERP_RE : Regex :=
  concat [oneOf [ilit "sh".toList, ilit "bat".toList, ilit "powershell".toList], plus (space env),
    quote, star (charNotOf ['"', '\'', '\n']), secretVariable]

def ECHO_SECRET_RE : Regex :=
  concat [oneOf [ilit "echo".toList, ilit "printenv".toList, ilit "env".toList], plus (space env),
    star dot, secretVariable]

def EVAL_RE : Regex :=
  concat [boundary env, oneOf [ilit "evaluate".toList, ilit "Eval.me".toList,
    concat [ilit "load".toList, star (space env), lit ['(']], ilit "GroovyShell".toList],
    boundary env]

def DEPLOY_CMD_RE : Regex :=
  concat [boundary env, oneOf [words env "kubectl" "apply", words env "helm" "upgrade",
    words env "terraform" "apply", ilit "ansible-playbook".toList], boundary env]

def DOCKER_IMAGE_RE : Regex :=
  concat [alt (concat [ilit "docker".toList, plus (space env),
        oneOf [ilit "pull".toList, ilit "run".toList], plus (space env)])
      (concat [ilit "image".toList, plus (space env), quote]),
    group 1 (plus (nonSpaceNotOf env ['\'', '"']))]

/-! ## Checks -/

def checkAgentAny (content : String) : List StaticFinding :=
  findingAt (AGENT_ANY_RE env) content fun line =>
    finding .info "Unrestricted agent any"
      ("`agent any` allows the pipeline to run on any available executor. " ++
        "Treat as a reliability/isolation signal, not a critical vulnerability.")
      "Prefer labeled agents that match required tools and trust boundaries." line
      (some "jenkins_agent_any")

def checkReliabilityControls (content : String) : List StaticFinding :=
  let isPipeline := contains "pipeline" (env.lower content)
  findingIf (isPipeline && !found (TIMEOUT_RE env) content)
      (finding .low "Missing pipeline timeout"
        "No timeout(...) option was detected in the Jenkinsfile."
        "Add a timeout to prevent runaway builds." none (some "jenkins_missing_timeout")) ++
    findingIf (isPipeline && !found (POST_RE env) content)
      (finding .info "Missing post cleanup block"
        "No post \x7b ... \x7d cleanup block was detected."
        "Add post cleanup for workspace and credential hygiene." none
        (some "jenkins_missing_post"))

def checkCredentials (content : String) : List StaticFinding :=
  scanHardcodedSecrets env content ++
    findingsAt (SECRET_INTERP_RE env) content (fun _ line =>
      some (finding .high "Secret interpolated into shell step"
        ("A secret-like environment variable appears interpolated into a " ++
          "shell/bat/powershell step and may leak via process listings or logs.")
        "Prefer withCredentials bindings and avoid echoing secret values." line
        (some "jenkins_secret_interpolation"))) ++
    findingsAt (ECHO_SECRET_RE env) content fun _ line =>
      some (finding .high "Possible credential logging"
        "A command may print environment variables containing secrets."
        "Never echo credentials; rely on masked bindings." line (some "jenkins_secret_logging"))

def checkDeployWithoutApproval (content : String) : List StaticFinding :=
  if found (INPUT_RE env) content then []
  else findingAt (DEPLOY_CMD_RE env) content fun line =>
    finding .medium "Deployment without input approval"
      ("A deployment or infrastructure apply command was found without an " ++
        "obvious input(...) approval step.")
      "Require an input approval stage before production changes." line
      (some "jenkins_deploy_without_approval")

def checkDynamicGroovy (content : String) : List StaticFinding :=
  findingAt (EVAL_RE env) content fun line =>
    finding .high "Dynamic Groovy evaluation"
      ("Dynamic Groovy evaluation or script loading was detected. " ++
        "This increases script-approval and remote-code risk.")
      "Avoid evaluate/load of untrusted scripts; use approved shared libraries." line
      (some "jenkins_dynamic_groovy")

/-- The finding about a file that looks like no pipeline. -/
def checkStructure (content : String) : List StaticFinding :=
  let text := env.strip content
  findingIf (text ≠ "" && !contains "pipeline" (env.lower text) && !contains "node(" (env.lower text))
    (finding .info "Unrecognized Jenkins pipeline structure"
      ("Content does not clearly look like a declarative pipeline or " ++
        "common scripted node(...) form. Checks still ran on text patterns.")
      "Provide a standard Jenkinsfile for more accurate review." none
      (some "jenkins_unrecognized_syntax"))

def checkDockerImages (content : String) : List StaticFinding :=
  findingsAt (DOCKER_IMAGE_RE env) content fun m line =>
    if ":latest".toList <:+ m.group 1 then
      some (finding .medium "Unpinned latest image tag"
        ("Docker usage references mutable image '" ++ String.ofList (m.group 1) ++ "'.")
        "Pin immutable tags or digests." line (some "forbid_latest_image_tag"))
    else none

end Jenkins

open Jenkins ReviewChecks in
def checkJenkins (env : Env) (content : String) : List StaticFinding :=
  dedupeFindings (checkStructure env content ++ checkCredentials env content ++
    scanDangerousShell env content ++ scanLatestAndUnpinnedImages env content ++
    scanPrivilegedAndDockerSocket env content ++ scanSensitivePaths env content ++
    checkAgentAny env content ++ checkReliabilityControls env content ++
    checkDeployWithoutApproval env content ++ checkDynamicGroovy env content ++
    checkDockerImages env content)

end DevOps
