import DevOpsAssistant.Services.GeneratorHelper
import DevOpsAssistant.Utils.CommandRisk

/-!
# The generator of shell commands

* `ShellCommandRequest`, `ShellCommandResponse`.
* `heuristicCommand`: the command without a language model.
* `ShellCommandService.draft`: the command of the model, or the heuristic one; `generate`.
-/

namespace DevOps

open Txn

variable (env : Env)

inductive OperatingSystem where
  | linux
  | macos
  | windows

inductive Shell where
  | bash
  | zsh
  | sh
  | powershell

def OperatingSystem.value : OperatingSystem → String
  | .linux => "linux"
  | .macos => "macos"
  | .windows => "windows"

def Shell.value : Shell → String
  | .bash => "bash"
  | .zsh => "zsh"
  | .sh => "sh"
  | .powershell => "powershell"

/-- `ShellCommandRequest`. -/
structure ShellCommandRequest extends GeneratorSaveOptions where
  request : String
  operatingSystem : OperatingSystem
  shell : Shell
  provider : String
  request_length : 1 ≤ request.length ∧ request.length ≤ 2000

/-- `ShellCommandResponse`. -/
structure ShellCommandResponse where
  command : String
  explanation : String
  riskLevel : RiskLevel
  warnings : List String
  requiresConfirmation : Bool
  policyFindings : List PolicyFinding
  savedArtifactId : Option UUID

def SHELL_COMMAND_SYSTEM_PROMPT : String := Text.unlines [
  "You generate a single shell command matching the user request.",
  "Return ONLY valid JSON with keys: command, explanation.",
  "Prefer safe, non-destructive commands.",
  "Do not wrap JSON in markdown fences."]

open PolicyEngine in
/-- `_heuristic_command`. -/
def heuristicCommand (payload : ShellCommandRequest) : String × String :=
  let request := env.lower payload.request
  if contains "larger than 1" request && contains "/var" request then
    ("find /var -type f -size +1G 2>/dev/null",
      "Finds files larger than 1GB under /var without modifying anything.")
  else if contains "disk" request && contains "usage" request then
    ("df -h", "Shows mounted filesystem disk usage.")
  else if contains "listening" request && contains "port" request then
    ("ss -tulpn", "Lists listening TCP/UDP sockets.")
  else if contains "docker" request && contains "ps" request then
    ("docker ps --format 'table \x7b\x7b.ID\x7d\x7d\\t\x7b\x7b.Names\x7d\x7d\\t\x7b\x7b.Status\x7d\x7d'",
      "Lists running containers in a readable table.")
  else
    ("echo 'No deterministic command matched; refine your request or review AI output'",
      "Fallback placeholder when no safe heuristic match is available.")

namespace ShellCommandService

/-- The command and its explanation: those of the model where it gives them. -/
def draft (user : User) (payload : ShellCommandRequest) : Db (String × String) :=
  let request := sanitizeText env payload.request (some 2000)
  let (command, explanation) := heuristicCommand env payload
  let prompt := "OS=" ++ payload.operatingSystem.value ++ " shell=" ++ payload.shell.value ++
    "\nRequest: " ++ request ++ "\nReturn a single safe command as JSON."
  orElseBase (do
    let (command', explanation') ← generateParsed env user .shellCommand payload.toGeneratorSaveOptions
      prompt SHELL_COMMAND_SYSTEM_PROMPT payload.provider env.loadsCommand
    return (env.strip (command'.getD command), env.strip (explanation'.getD explanation)))
    (command, explanation)

def generate (user : User) (payload : ShellCommandRequest) : Db ShellCommandResponse := do
  let (command, explanation) ← draft env user payload
  let risk := classifyCommandRisk env command
  let (policyFindings, savedArtifactId) ← persist env user payload.toGeneratorSaveOptions .command
    command "shell-command"
  return { command, explanation, riskLevel := risk.riskLevel, warnings := risk.warnings,
           requiresConfirmation := risk.requiresConfirmation, policyFindings, savedArtifactId }

end ShellCommandService

end DevOps
