import DevOpsAssistant.Models.Accounts

/-!
# Exceptions

The application errors with their codes and HTTP statuses, and the other exceptions that reach the
services from the libraries they call.
-/

namespace DevOps

/-- `ErrorCode`. -/
inductive ErrorCode where
  | appError
  | validationError
  | invalidCredentials
  | unauthorized
  | forbidden
  | notFound
  | conflict
  | llmError
  | rateLimitExceeded
  | quotaExceeded
deriving DecidableEq

/-- The subclasses of `AppError`. -/
inductive ErrorClass where
  | notFound
  | unauthorized
  | forbidden
  | validation
  | conflict
  | llmProvider
  | rateLimit
  | quotaExceeded
deriving DecidableEq

/-- The HTTP status of an application error. -/
def ErrorClass.statusCode : ErrorClass → ℕ
  | .notFound => 404
  | .unauthorized => 401
  | .forbidden => 403
  | .validation => 422
  | .conflict => 409
  | .llmProvider => 502
  | .rateLimit => 429
  | .quotaExceeded => 429

/-- `AppError`. -/
structure AppError where
  cls : ErrorClass
  message : String
  code : ErrorCode
deriving DecidableEq

/-- An exception. -/
inductive Exc where
  | app (e : AppError)
  | integrityError
  | multipleResultsFound
  | assertionError
  | httpError
  | timeoutError
  | softTimeLimitExceeded
  | other (name : String)
deriving DecidableEq

def NotFoundError (message : String) : Exc := .app ⟨.notFound, message, .notFound⟩

def UnauthorizedError (message : String) : Exc := .app ⟨.unauthorized, message, .invalidCredentials⟩

/-- An `UnauthorizedError` raised with an explicit code. -/
def UnauthorizedError.withCode (message : String) (code : ErrorCode) : Exc :=
  .app ⟨.unauthorized, message, code⟩

def ForbiddenError (message : String) : Exc := .app ⟨.forbidden, message, .forbidden⟩

def ValidationAppError (message : String) : Exc := .app ⟨.validation, message, .validationError⟩

def ConflictError (message : String) : Exc := .app ⟨.conflict, message, .conflict⟩

def LLMProviderError (message : String) : Exc := .app ⟨.llmProvider, message, .llmError⟩

def QuotaExceededError (message : String) : Exc := .app ⟨.quotaExceeded, message, .quotaExceeded⟩

/-- The exception is an application error of the class `c`. -/
def Exc.isA (c : ErrorClass) : Exc → Bool
  | .app e => e.cls = c
  | _ => false

/-- A flush raised the exception: the session refuses every statement until it is rolled back. -/
def Exc.poisons : Exc → Bool
  | .integrityError => true
  | .other name => name = "StaleDataError" || name = "PendingRollbackError"
  | _ => false

/-- The HTTP status an exception is answered with. -/
def Exc.statusCode : Exc → ℕ
  | .app e => e.cls.statusCode
  | _ => 500

end DevOps
