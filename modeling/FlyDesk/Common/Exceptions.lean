/-
FlyDesk/Common/Exceptions.lean

The exceptions that end a call, by class, and the answers they become.
`thirdParty` stands for every exception a driver or library raises of its own
accord, under its class name.
-/
import Mathlib.Tactic.Common

namespace FlyDesk

inductive Exn
  | providerError
  | providerTimeoutError
  | offerNotFoundError
  | bookingInProgressError
  | validationError
  | duplicateKeyError
  | valueError
  | keyError
  | indexError
  | attributeError
  | notImplementedError
  | typeError
  | timeoutError
  | circuitOpenError
  | cancelledError
  | thirdParty (name : String)
deriving DecidableEq, Repr

/-- `isinstance(exc, Exception)`: all but a task's cancellation. -/
def Exn.isException : Exn → Bool
  | .cancelledError => false
  | _ => true

/-- `isinstance(exc, ProviderError)`. -/
def Exn.isProviderError : Exn → Bool
  | .providerError | .providerTimeoutError => true
  | _ => false

/-- `drf_exception_handler`: the status and the code of the answer; `none` leaves
the exception to the framework. -/
def drfExceptionHandler : Exn → Option (ℕ × String)
  | .providerError => some (502, "provider_error")
  | .providerTimeoutError => some (504, "provider_timeout")
  | .offerNotFoundError => some (404, "offer_not_found")
  | .bookingInProgressError => some (409, "booking_in_progress")
  | .validationError => some (400, "validation_error")
  | _ => none

end FlyDesk
