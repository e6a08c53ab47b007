import DevOpsAssistant.Services.PolicyEngine

/-!
# The risk of a shell command

`classifyCommandRisk`: the patterns of a command, from the most dangerous on; the first level with a
pattern that matches is the risk.
-/

namespace DevOps

variable (env : Env)

/-- `RiskLevel`. -/
inductive RiskLevel where
  | low
  | medium
  | high
  | critical
deriving DecidableEq

/-- `RiskAssessment`. -/
structure RiskAssessment where
  riskLevel : RiskLevel
  warnings : List String
  requiresConfirmation : Bool

namespace CommandRisk

open Regex PolicyEngine

/-- `\bword\b`. -/
def word (text : String) : Regex := concat [boundary env, lit text.toList, boundary env]

/-- `\s+`. -/
def spaces : Regex := plus (space env)

/-- `[a-zA-Z]*`. -/
def letters : Regex := star (char Char.isAlpha)

/-- `-[a-zA-Z]*c[a-zA-Z]*d`. -/
def flags (c d : Char) : Regex := concat [lit ['-'], letters, lit [c], letters, lit [d]]

/-- Words with white space between them, where case does not count: `(?i)\bw₁\s+…\s+wₙ\b`. -/
def phrase (words : List String) : Regex :=
  concat ([boundary env] ++ (words.map fun w => ilit w.toList).intersperse (spaces env) ++
    [boundary env])

def CRITICAL_PATTERNS : List (Regex × String) := [
  (concat [boundary env, lit "rm".toList, spaces env, alt (flags 'r' 'f') (flags 'f' 'r'), boundary env],
    "Recursive force delete"),
  (concat [boundary env, lit "mkfs".toList, alt (lit ['.']) textEnd], "Disk formatting"),
  (concat [boundary env, lit "dd".toList, spaces env, lit "if=".toList], "Raw disk write"),
  (alt (word env "shutdown") (alt (word env "reboot") (word env "halt")), "System shutdown/reboot"),
  (alt (phrase env ["DROP", "TABLE"]) (phrase env ["DROP", "DATABASE"]),
    "Destructive database operation"),
  (phrase env ["terraform", "destroy"], "Terraform destroy"),
  (alt (phrase env ["kubectl", "delete", "nspace"]) (phrase env ["kubectl", "delete", "ns"]),
    "Kubernetes namespace deletion"),
  (concat [boundary env, ilit "git".toList, spaces env, ilit "push".toList, spaces env, star dot,
    ilit "--force".toList, boundary env], "Force push")]

def HIGH_PATTERNS : List (Regex × String) := [
  (concat [boundary env, lit "chmod".toList, spaces env, lit "-R".toList, spaces env, lit "777".toList,
    boundary env], "World-writable recursive permissions"),
  (concat [boundary env, lit "chown".toList, spaces env, lit "-R".toList, boundary env],
    "Recursive ownership change"),
  (concat [boundary env, lit "sudo".toList, spaces env], "Elevated privileges"),
  (phrase env ["kubectl", "delete"], "Kubernetes delete operation"),
  (phrase env ["docker", "system", "prune"], "Docker prune"),
  (concat [lit ['>'], star (space env), lit "/dev/sd".toList], "Writing to block device"),
  (concat [word env "curl", star dot, lit ['|'], star (space env), opt (lit "ba".toList),
    lit "sh".toList, boundary env], "Pipe remote script to shell")]

def MEDIUM_PATTERNS : List (Regex × String) := [
  (concat [boundary env, lit "rm".toList, spaces env], "File deletion"),
  (alt (word env "kill") (word env "pkill"), "Process termination"),
  (concat [boundary env, lit "systemctl".toList, spaces env,
    alt (lit "stop".toList) (alt (lit "restart".toList) (lit "disable".toList)), boundary env],
    "Service control"),
  (alt (word env "iptables") (word env "ufw"), "Firewall modification")]

/-- The warnings about the patterns of a level that match. -/
def warningsOf (level : String) (patterns : List (Regex × String)) (command : String) : List String :=
  patterns.filterMap fun (pattern, label) =>
    if found pattern command then some (level ++ " risk pattern detected: " ++ label) else none

/-- What is said of a dangerous command. -/
def irreversible : String :=
  "This command can cause irreversible damage. Confirm intent before running."

end CommandRisk

open CommandRisk in
def classifyCommandRisk (command : String) : RiskAssessment :=
  let critical := warningsOf "Critical" (CRITICAL_PATTERNS env) command
  if critical ≠ [] then ⟨.critical, critical ++ [irreversible], true⟩
  else
    let high := warningsOf "High" (HIGH_PATTERNS env) command
    if high ≠ [] then ⟨.high, high ++ [irreversible], true⟩
    else
      let medium := warningsOf "Medium" (MEDIUM_PATTERNS env) command
      if medium ≠ [] then ⟨.medium, medium, false⟩ else ⟨.low, [], false⟩

end DevOps
