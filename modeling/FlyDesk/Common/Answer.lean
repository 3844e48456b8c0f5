/-
FlyDesk/Common/Answer.lean

How the service answers over HTTP: what a view renders, or what
`drf_exception_handler` makes of the exception that the view raises.
-/
import FlyDesk.Common.Exceptions
import FlyDesk.Lib.Json

namespace FlyDesk

open Lib

/-- The answer to a request: a body with its status, the code of an error, or an
exception that is left to the framework. -/
inductive Answer
  | ok (status : ℕ) (body : Json)
  | error (status : ℕ) (code : String)
  | unhandled

/-- The answer `drf_exception_handler` makes of an exception. -/
def Exn.answer (e : Exn) : Answer :=
  match drfExceptionHandler e with
  | some (status, code) => .error status code
  | none => .unhandled

end FlyDesk
