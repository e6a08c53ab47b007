import DevOpsAssistant.Core.Config
import DevOpsAssistant.Models.Row

/-!
# The database session

* `Query`, `Answer`: what the services ask of their surroundings; `World`: the surroundings.
* `Db`: the programs of the services.
* `selectOf`, `lockOf`, `updateOf`, `deleteOf`, `insertOf`: statements on one table.
* `getDb`: the unit of work of a request.
-/

namespace DevOps

open Txn

/-! ## The surroundings -/

/-- The content of a mail: what it is about, and the token it carries. -/
inductive MailContent where
  | passwordReset (token : RawToken)
  | emailVerification (token : RawToken)
  | emailChangeConfirmation (token : RawToken)
  | organizationInvitation (token : RawToken) (organizationName : String) (role : OrgRole)

/-- One request to a language model. -/
structure LLMCall where
  provider : String
  prompt : String
  systemPrompt : Option String
  maxOutputTokens : ℕ

/-- `CircuitState`. -/
inductive CircuitState where
  | closed
  | opened
  | halfOpen
deriving DecidableEq

/-- The circuit-breaker record of a provider. -/
structure CircuitData where
  state : CircuitState
  failureCount : ℕ
  successCount : ℕ
  lastFailureCategory : Option String
  lastSuccessAt : Option Time
  openedAt : Option Time

/-- The record of a provider that has none. -/
def CircuitData.initial : CircuitData := ⟨.closed, 0, 0, none, none, none⟩

/-- A message published to the Celery broker. -/
structure CeleryMessage where
  backgroundTaskId : UUID
  analysisId : UUID
  userId : UUID
  content : String
  provider : Option String

/-- What the services ask of their surroundings. -/
inductive Query where
  | now
  | sendMail (recipient : String) (content : MailContent)
  | generate (call : LLMCall)
  | validateBaseUrl (provider : String)
  | loadCircuit (provider : String)
  | saveCircuit (provider : String) (data : CircuitData)
  | publish (m : CeleryMessage)

/-- The question sends no message to the workers. -/
def Query.silent : Query → Prop
  | .publish _ => False
  | _ => True

/-- What the surroundings answer; an error is an exception raised at the call. -/
def Answer : Query → Type
  | .now => Time
  | .sendMail _ _ => Except Exc Unit
  | .generate _ => Except Exc String
  | .validateBaseUrl _ => Except Exc Unit
  | .loadCircuit _ => CircuitData
  | .saveCircuit _ _ => Unit
  | .publish _ => Except Exc String

/-- The surroundings: a clock that advances by `ticks n` before its `n`th reading, what mail
servers, language models, name servers and the broker will do, and what they have been sent. -/
structure World where
  time : Time
  readings : ℕ
  ticks : ℕ → ℕ
  mailOutcome : ℕ → Except Exc Unit
  llmOutcome : ℕ → Except Exc String
  baseUrlOutcome : String → Except Exc Unit
  publishOutcome : ℕ → Except Exc String
  mails : List (String × MailContent)
  llmCalls : List LLMCall
  published : List CeleryMessage
  circuits : List (String × CircuitData)

/-- How the surroundings answer. -/
def respond : (q : Query) → World → Answer q × World
  | .now, w =>
    (w.time + w.ticks w.readings,
      { w with time := w.time + w.ticks w.readings, readings := w.readings + 1 })
  | .sendMail recipient content, w =>
    (w.mailOutcome w.mails.length, { w with mails := w.mails ++ [(recipient, content)] })
  | .generate call, w =>
    (w.llmOutcome w.llmCalls.length, { w with llmCalls := w.llmCalls ++ [call] })
  | .validateBaseUrl provider, w => (w.baseUrlOutcome provider, w)
  | .loadCircuit provider, w => ((w.circuits.lookup provider).getD .initial, w)
  | .saveCircuit provider data, w => ((), { w with circuits := (provider, data) :: w.circuits })
  | .publish m, w =>
    (w.publishOutcome w.published.length, { w with published := w.published ++ [m] })

/-- The programs of the services. -/
abbrev Db := Prog Row Answer Exc

/-- The state between requests. -/
abbrev State := Store Row World

/-- Surroundings in which everything works, with a clock that starts at `t`. -/
def World.trial (t : Time) : World where
  time := t
  readings := 0
  ticks _ := 1
  mailOutcome _ := .ok ()
  llmOutcome _ := .ok "ok"
  baseUrlOutcome _ := .ok ()
  publishOutcome _ := .ok "id"
  mails := []
  llmCalls := []
  published := []
  circuits := []

/-- A new deployment: an empty database, no identifier drawn. -/
def State.trial : State := ⟨.empty, 0, World.trial 0⟩

/-! ## Statements -/

/-- `datetime.now(UTC)`. -/
def now : Db Time := Prog.query Query.now

/-- `uuid4()`. -/
def uuid4 : Db UUID := Prog.draw

/-- The value of an answer, or the exception it carries. -/
def orRaise {α : Type} : Except Exc α → Db α
  | .ok a => pure a
  | .error e => throw e

/-- A mail; its delivery may raise. -/
def sendMail (recipient : String) (content : MailContent) : Db Unit := do
  orRaise (← Prog.query (Query.sendMail recipient content))

section Statements

variable {T : Type} [Entity T]

/-- `SELECT`. -/
def selectOf (p : T → Bool) : Db (List T) := do
  let rs ← Prog.selectWhere fun r => (ofRow r).any p
  return rs.filterMap ofRow

/-- `SELECT … FOR UPDATE`. -/
def lockOf (p : T → Bool) : Db (List T) := do
  let rs ← Prog.modifyWhere (fun r => (ofRow r).any p) fun _ => .keep
  return rs.filterMap ofRow

/-- The row after `f` has been applied to it. -/
def updateEffect (f : T → T) (hf : ∀ t, Entity.id (f t) = Entity.id t) (r : Row) : Effect r :=
  match h : (ofRow r : Option T) with
  | some t => .store (toRow (f t)) <| by
      rw [(Entity.ofRow_eq_some r t).mp h]; exact Entity.key_toRow_eq (hf t)
  | none => .keep

/-- `UPDATE`: the rows as they were, each replaced by `f` of it. -/
def updateOf (p : T → Bool) (f : T → T) (hf : ∀ t, Entity.id (f t) = Entity.id t) :
    Db (List T) := do
  let rs ← Prog.modifyWhere (fun r => (ofRow r).any p) (updateEffect f hf)
  return rs.filterMap ofRow

/-- `DELETE`. -/
def deleteOf (p : T → Bool) : Db (List T) := do
  let rs ← Prog.modifyWhere (fun r => (ofRow r).any p) fun _ => .remove
  return rs.filterMap ofRow

/-- `INSERT`, with the unique constraints `clash` besides the primary key. -/
def insertOf (clash : T → Bool) (t : T) : Db Unit := do
  let ok ← Prog.insertRow (fun r => (ofRow r).any clash) (toRow t)
  if ok then return () else throw .integrityError

/-- `scalar_one_or_none`. -/
def scalarOneOrNone : List T → Db (Option T)
  | [] => pure none
  | [t] => pure (some t)
  | _ => throw .multipleResultsFound

end Statements

/-- `get_db`: the session is committed when the request returns and rolled back when it raises. -/
def getDb {α : Type} (p : Db α) : Db α := Prog.unitOfWork p

end DevOps
