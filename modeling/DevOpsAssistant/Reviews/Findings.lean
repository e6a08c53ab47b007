import DevOpsAssistant.Services.PolicyEngine
import DevOpsAssistant.Text.Strings

/-!
# Findings of a review

* `PyValue`: what `json.loads` and `yaml.safe_load` return; `truthy`, `get`, `isJson`.
* `ReviewLibrary`: the library functions the reviews call.
* `ReviewFinding`, `StaticFinding`: findings, and those of the checks that ask no language model.
* `ReviewFinding.modelValidate`, `ReviewFinding.modelDump`: a finding from a value, and a value of it.
* **`isJson_modelDump`**: a finding can be written as JSON unless it names a policy pack.
* `ReviewLibrary.trial`: a library that reads one answer.
-/

namespace DevOps

/-! ## Values -/

/-- A value of Python; a float stands by its `repr`, and so does a value of any type that JSON does not
have, such as a date. -/
inductive PyValue where
  | none
  | bool (b : Bool)
  | int (n : ℤ)
  | float (repr : String)
  | str (s : String)
  | uuid (id : UUID)
  | list (items : List PyValue)
  | dict (entries : List (PyValue × PyValue))
  | other (repr : String) (truth : Bool)

namespace PyValue

/-- `bool(v)`. -/
def truthy : PyValue → Bool
  | none => false
  | bool b => b
  | int n => n ≠ 0
  | float repr => repr ≠ "0.0" && repr ≠ "-0.0"
  | str s => s ≠ ""
  | uuid _ => true
  | list items => !items.isEmpty
  | dict entries => !entries.isEmpty
  | other _ truth => truth

/-- The value is the text `s`. -/
def isText (s : String) : PyValue → Bool
  | str t => t = s
  | _ => false

/-- `entries.get(key)`. -/
def get (entries : List (PyValue × PyValue)) (key : String) : PyValue :=
  ((entries.find? fun e => e.1.isText key).map (·.2)).getD none

/-- `key in entries`. -/
def has (entries : List (PyValue × PyValue)) (key : String) : Bool := entries.any fun e => e.1.isText key

/-- A text, of a value that is one. -/
def asStr : PyValue → Option String
  | str s => some s
  | _ => Option.none

/-- A key that `json.dumps` accepts. -/
def isJsonKey : PyValue → Bool
  | none | bool _ | int _ | float _ | str _ => true
  | _ => false

mutual

/-- `json.dumps` accepts the value. -/
def isJson : PyValue → Bool
  | none | bool _ | int _ | float _ | str _ => true
  | list items => allJson items
  | dict entries => entriesJson entries
  | uuid _ | other _ _ => false

def allJson : List PyValue → Bool
  | [] => true
  | v :: vs => v.isJson && allJson vs

def entriesJson : List (PyValue × PyValue) → Bool
  | [] => true
  | (k, v) :: es => k.isJsonKey && v.isJson && entriesJson es

end

theorem allJson_map {α : Type} (f : α → PyValue) (as : List α) :
    allJson (as.map f) = as.all fun a => (f a).isJson := by
  induction as with
  | nil => rfl
  | cons a as ih => rw [List.map_cons, allJson, ih, List.all_cons]

end PyValue

/-- The library functions the reviews call. -/
structure ReviewLibrary where
  /-- `json.loads`; `none` raises. -/
  jsonLoads : String → Option PyValue
  /-- `json.dumps`, of a value that has a form in JSON. -/
  jsonDumps : PyValue → String
  /-- `yaml.safe_load`, or the exception it raises. -/
  safeLoad : String → Except Exc PyValue
  /-- `str`, of a value it does not raise for. -/
  str : PyValue → String
  /-- What `str` raises: an integer can have too many digits. `json.loads` returns none of these. -/
  strRaises : PyValue → Option Exc
  /-- The validation of an `int` by a model. -/
  validateInt : PyValue → Option ℤ
  /-- The validation of a `UUID` by a model. -/
  validateUuid : PyValue → Option UUID

/-! ## Findings -/

/-- The severity of a finding of a review. -/
inductive Severity where
  | info
  | low
  | medium
  | high
  | critical
deriving DecidableEq

def Severity.value : Severity → String
  | .info => "info"
  | .low => "low"
  | .medium => "medium"
  | .high => "high"
  | .critical => "critical"

def Severity.all : List Severity := [.info, .low, .medium, .high, .critical]

/-- Where a finding comes from. -/
inductive FindingSource where
  | static
  | llm
  | organizationPolicy
deriving DecidableEq

def FindingSource.value : FindingSource → String
  | .static => "static"
  | .llm => "llm"
  | .organizationPolicy => "organization_policy"

/-- `ReviewFinding`. -/
structure ReviewFinding where
  severity : Severity
  title : String
  description : String
  recommendation : String
  line : Option ℤ
  source : FindingSource
  ruleKey : Option String
  policyPackId : Option UUID
deriving DecidableEq

/-- A finding of a check that only reads the file. -/
def StaticFinding : Type := { f : ReviewFinding // f.source = .static ∧ f.policyPackId = none }

namespace ReviewChecks

/-- `finding`. -/
def finding (severity : Severity) (title description recommendation : String) (line : Option ℕ)
    (ruleKey : Option String) : StaticFinding :=
  ⟨⟨severity, title, description, recommendation, line.map Int.ofNat, .static, ruleKey, none⟩, rfl, rfl⟩

/-- `line_of`. -/
def lineOf (content : String) (matchStart : ℕ) : ℕ := (content.toList.take matchStart).count '\n' + 1

end ReviewChecks

namespace ReviewFinding

/-- An optional value as Python has it. -/
def optional {α : Type} (f : α → PyValue) : Option α → PyValue
  | some a => f a
  | none => .none

/-- `model_dump()`. -/
def modelDump (f : ReviewFinding) : PyValue :=
  .dict [(.str "severity", .str f.severity.value), (.str "title", .str f.title),
    (.str "description", .str f.description), (.str "recommendation", .str f.recommendation),
    (.str "line", optional .int f.line), (.str "source", .str f.source.value),
    (.str "rule_key", optional .str f.ruleKey), (.str "policy_pack_id", optional .uuid f.policyPackId)]

variable (lib : ReviewLibrary)

/-- A field that may be missing or `None`. -/
def optionalField {α : Type} (validate : PyValue → Option α) : PyValue → Option (Option α)
  | .none => some none
  | v => (validate v).map some

/-- `model_validate({**item, "source": source})`; `none` raises. -/
def modelValidate (source : FindingSource) : PyValue → Option ReviewFinding
  | .dict item => do
    let severity ← Severity.all.find? fun s => (PyValue.get item "severity").isText s.value
    let title ← (PyValue.get item "title").asStr
    let description ← (PyValue.get item "description").asStr
    let recommendation ← (PyValue.get item "recommendation").asStr
    let line ← optionalField lib.validateInt (PyValue.get item "line")
    let ruleKey ← optionalField PyValue.asStr (PyValue.get item "rule_key")
    let policyPackId ← optionalField lib.validateUuid (PyValue.get item "policy_pack_id")
    return ⟨severity, title, description, recommendation, line, source, ruleKey, policyPackId⟩
  | _ => none

/-- **A finding can be written as JSON** unless it names a policy pack. -/
theorem isJson_modelDump (f : ReviewFinding) : f.modelDump.isJson = f.policyPackId.isNone := by
  have hoptional : ∀ {α : Type} (g : α → PyValue), (∀ a, (g a).isJson = true) → ∀ o : Option α,
      (optional g o).isJson = true := by
    intro α g hg o
    cases o with
    | none => rfl
    | some a => exact hg a
  rw [modelDump, PyValue.isJson]
  simp only [PyValue.entriesJson, PyValue.isJsonKey, hoptional PyValue.int (fun _ => rfl),
    hoptional PyValue.str (fun _ => rfl), PyValue.isJson, Bool.true_and, Bool.and_true]
  cases f.policyPackId <;> rfl

end ReviewFinding

/-! ## One answer -/

/-- An answer with one finding. -/
def trialAnswer : String :=
  "\x7b\"findings\": [\x7b\"severity\": \"low\", \"title\": \"t\", \"description\": \"d\", " ++
    "\"recommendation\": \"r\"\x7d]\x7d"

/-- Its finding, before it is validated. -/
def trialItem : PyValue :=
  .dict [(.str "severity", .str "low"), (.str "title", .str "t"), (.str "description", .str "d"),
    (.str "recommendation", .str "r")]

/-- A library that reads this answer and no other text. -/
def ReviewLibrary.trial : ReviewLibrary where
  jsonLoads text :=
    if text = trialAnswer then some (.dict [(.str "findings", .list [trialItem])]) else none
  jsonDumps _ := "[]"
  safeLoad _ := .ok .none
  str
    | .str s => s
    | _ => ""
  strRaises _ := none
  validateInt _ := none
  validateUuid _ := none

end DevOps
