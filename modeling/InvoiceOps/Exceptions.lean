/-
The exceptions the services raise, and `str(exc)` for those whose text is
recorded or shown.
-/
import InvoiceOps.Domain.State
import InvoiceOps.Lib.PyDecimal

namespace InvoiceOps

inductive Exn where
  | valueError (message : String)
  | typeError (message : String)
  /-- The `RuntimeError` of `advance`. -/
  | illegalTransition (current target : InvoiceStatus)
  | llmError (message : String)
  | extractionFailed (message : String) (attempts : Nat) (rawResponse : Option String)
  | decimalSignal (s : PyDecimal.Signal)
  | integrityError
  | uploadRejected (statusCode : Nat) (detail : String)
  | httpException (statusCode : Nat) (detail : String)
  /-- `OSError`, or the storage client's error. -/
  | storageError (message : String)
  /-- Any exception of a library that no handler here names. -/
  | other (message : String)

namespace Exn

def str : Exn → String
  | .valueError m | .typeError m | .llmError m | .extractionFailed m _ _ | .storageError m | .other m => m
  | .illegalTransition current target =>
    "illegal transition " ++ current.value ++ " -> " ++ target.value
  | .uploadRejected _ detail | .httpException _ detail => detail
  | .decimalSignal _ | .integrityError => ""

def isIllegalTransition : Exn → Bool
  | .illegalTransition .. => true
  | _ => false

/-- `isinstance(exc, RuntimeError)` -/
def isRuntimeError : Exn → Bool
  | .illegalTransition .. | .llmError _ | .extractionFailed .. => true
  | _ => false

end Exn

end InvoiceOps
