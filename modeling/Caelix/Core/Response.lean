import Caelix.Core.Exception
import Caelix.Core.Json

/-!
# Responses

`HttpResponse` of `response.rs` with a buffered body, `Cookie` of `cookie.rs`, and the
response an exception turns into. `HttpResponse::json` does not fail on a JSON value.
-/

namespace Caelix

abbrev Bytes := List UInt8

/-- The bytes of a header value. -/
abbrev HeaderValue := List UInt8

inductive SameSite where
  | strict
  | lax
  | none
  deriving DecidableEq, Repr

/-- Times are nanoseconds, those of `expires` since the Unix epoch. -/
structure Cookie where
  name : String
  value : String
  httpOnly : Bool
  secure : Bool
  sameSite : SameSite
  path : Option String
  domain : Option String
  maxAge : Option Nat
  expires : Option Int
  deriving DecidableEq, Repr

/-- `Cookie::new`. -/
def Cookie.new (name value : String) : Cookie where
  name := name
  value := value
  httpOnly := true
  secure := true
  sameSite := .lax
  path := some "/"
  domain := .none
  maxAge := .none
  expires := .none

structure HttpResponse where
  status : Nat
  body : Bytes
  contentType : String
  headers : List (String × String)
  cookies : List Cookie
  deriving DecidableEq, Repr

namespace HttpResponse

def new (status : Nat) (body : Bytes) (contentType : String) : HttpResponse :=
  { status, body, contentType, headers := [], cookies := [] }

def json (status : Nat) (body : Json) : HttpResponse :=
  new status body.render.toUTF8.toList "application/json"

/-- `insert_header`: the header is appended. -/
def insertHeader (response : HttpResponse) (name value : String) : HttpResponse :=
  { response with headers := response.headers ++ [(name, value)] }

/-- `insert_cookie`. -/
def insertCookie (response : HttpResponse) (cookie : Cookie) : HttpResponse :=
  { response with cookies := response.cookies ++ [cookie] }

end HttpResponse

/-- `StatusCode::is_server_error`. -/
def HttpException.isServerError (e : HttpException) : Bool := 500 ≤ e.status && e.status < 600

/-- The `errors` member of an error body, when there is one. -/
def errorMembers : Option (List (String × List String)) → List (String × Json)
  | none => []
  | some errors =>
    [("errors", .object (errors.map fun field => (field.1, .array (field.2.map .string))))]

/-- `into_response`: the details of a server error are not shown. -/
def HttpException.intoResponse (e : HttpException) : HttpResponse :=
  let message := if e.isServerError then "Internal Server Error" else e.message
  let errors := if e.isServerError then none else e.errors
  HttpResponse.json e.status (.object
    ([("status", .number (toString e.status)), ("error", .string e.error),
      ("message", .string message)] ++ errorMembers errors))

end Caelix
