import Mathlib.Data.List.Basic

/-!
# Exceptions and faults

`HttpException` is the error type of every fallible framework function. A modelled
function may also end in one of the ways a Rust function ends without returning: an
`expect` or an index that fails (`Fault.panic`), or unbounded recursion, which the
model sees as exhausted fuel (`Fault.outOfFuel`).
-/

namespace Caelix

/-- `exception.rs`: status, label, message and per-field errors of a failed call. -/
structure HttpException where
  status : Nat
  error : String
  message : String
  errors : Option (List (String × List String))
  deriving DecidableEq, Repr

namespace HttpException

def new (status : Nat) (error message : String) : HttpException :=
  { status, error, message, errors := none }

/-- `StatusCode::is_client_error`. -/
def isClientError (e : HttpException) : Bool := 400 ≤ e.status && e.status < 500

end HttpException

/-- `BadRequestException::new`. -/
def badRequest (message : String) : HttpException := HttpException.new 400 "Bad Request" message

/-- `PayloadTooLargeException::new`. -/
def payloadTooLarge (message : String) : HttpException :=
  HttpException.new 413 "Payload Too Large" message

/-- `InternalServerErrorException::new`; its source is only logged. -/
def internalServerError : HttpException :=
  HttpException.new 500 "Internal Server Error" "Internal Server Error"

def startupError (message : String) : HttpException :=
  HttpException.new 500 "Internal Server Error" message

/-- How a modelled call ends when it does not return a value. -/
inductive Fault where
  | exception (e : HttpException)
  | panic (message : String)
  | outOfFuel
  deriving DecidableEq, Repr

/-- A startup error raised by the framework itself. -/
def Fault.startup (message : String) : Fault := .exception (startupError message)

end Caelix
