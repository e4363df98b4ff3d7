import Mathlib.Algebra.GroupWithZero.Nat
import Caelix.Lib.Table
import Caelix.Core.Response

/-!
# Envelopes

The envelopes of `caelix-microservices`, the context of a handler call and the encoding of
replies. Requests and events are read by `serde_json`, which is a parameter of the
transports; replies are written as JSON texts, since their size matters.

* `byteLength_errorReply`: the size of an error reply, from its texts.
-/

namespace Caelix

abbrev Headers := Table String String

/-- `PROTOCOL_VERSION`. -/
def protocolVersion : Nat := 1

/-- `MINIMUM_RESPONSE_ENVELOPE_BYTES`. -/
def minimumResponseEnvelopeBytes : Nat := 256

theorem minimumResponseEnvelopeBytes_le : minimumResponseEnvelopeBytes ≤ 1024 := by decide

/-- `MicroserviceError`. -/
inductive MicroserviceError where
  | transport (message : String)
  | framework (message : String)
  | configuration (message : String)
  deriving DecidableEq, Repr

/-- `map_err(transport)`. -/
def orTransport {α : Type} (r : Except String α) : Except MicroserviceError α :=
  r.mapError .transport

structure MessageDelivery where
  stream : Option String
  consumer : Option String
  attempt : Nat
  deriving DecidableEq, Repr

/-- `MessageContext`, without the cancellation token. The deadline is in milliseconds since
the epoch. -/
structure MessageContext where
  subject : String
  headers : Headers
  correlationId : Option String
  deadline : Option Nat
  delivery : Option MessageDelivery
  eventId : Option String

structure RequestEnvelope where
  version : Nat
  correlationId : String
  deadlineUnixMillis : Option Nat
  replyChannel : Option String
  headers : Headers
  payload : Json

structure EventEnvelope where
  version : Nat
  eventId : String
  headers : Headers
  payload : Json
  publishedAtUnixMillis : Nat

structure RemoteError where
  code : String
  message : String
  details : Option Json
  retryable : Bool

inductive ResponseBody where
  | success (payload : Json)
  | error (e : RemoteError)

structure ResponseEnvelope where
  version : Nat
  correlationId : String
  body : ResponseBody

/-- What a handler returns. -/
abbrev HandlerResult := Except HttpException (Option Json)

/-- `remote_from_exception`. -/
def remoteFromException (e : HttpException) : RemoteError where
  code := e.error
  message := if e.isClientError then e.message else "Internal Server Error"
  details := none
  retryable := e.isServerError

/-- The body of the reply after a handler has returned. -/
def HandlerResult.body : HandlerResult → ResponseBody
  | .ok payload => .success (payload.getD .null)
  | .error e => .error (remoteFromException e)

/-! ## Replies -/

/-- The fields of an error, with the tag of the body in front of them. -/
def RemoteError.json (e : RemoteError) : Json :=
  .object [("kind", .string "error"), ("code", .string e.code), ("message", .string e.message),
    ("details", e.details.getD .null), ("retryable", .bool e.retryable)]

def ResponseBody.json : ResponseBody → Json
  | .success payload => .object [("kind", .string "success"), ("payload", payload)]
  | .error e => e.json

def ResponseEnvelope.json (envelope : ResponseEnvelope) : Json :=
  .object [("version", .number (toString envelope.version)),
    ("correlation_id", .string envelope.correlationId), ("body", envelope.body.json)]

/-- An envelope whose text is within a limit. -/
structure Encoded (maximum : Nat) where
  envelope : ResponseEnvelope
  fits : envelope.json.byteLength ≤ maximum

def encodeLimited (value : ResponseEnvelope) (maximum : Nat) : Except String (Encoded maximum) :=
  if h : maximum < value.json.byteLength then .error "envelope exceeds configured maximum"
  else .ok ⟨value, Nat.le_of_not_lt h⟩

def errorReply (correlationId code message : String) : ResponseEnvelope where
  version := protocolVersion
  correlationId := correlationId
  body := .error ⟨code, message, none, false⟩

def boundedCommandError (correlationId code message : String) (maximum : Nat) :
    Except String (Encoded maximum) :=
  encodeLimited (errorReply correlationId code message) maximum

/-- `encode_limited(..).or_else(..)`: a reply that is too large is replaced by an error. -/
def encodeReply (correlationId : String) (body : ResponseBody) (maximum : Nat) :
    Except String (Encoded maximum) :=
  match encodeLimited ⟨protocolVersion, correlationId, body⟩ maximum with
  | .ok bytes => .ok bytes
  | .error _ =>
    boundedCommandError correlationId "Protocol" "response envelope exceeds configured maximum"
      maximum

/-! ## Sizes -/

/-- The size of a reply to a request. -/
def replySize (correlationId : String) (body : ResponseBody) : Nat :=
  (ResponseEnvelope.mk protocolVersion correlationId body).json.byteLength

/-- The number of bytes of a string inside quotes. -/
def escapedSize (s : String) : Nat := (s.toList.map Json.escapedLength).sum

theorem byteLength_errorReply (correlationId code message : String) :
    (errorReply correlationId code message).json.byteLength =
      113 + escapedSize correlationId + escapedSize code + escapedSize message := by
  have hFixed : ∀ id code message : Nat, id + 2 + (code + 2) + (message + 2) + 107 =
      113 + id + code + message := by omega
  rw [← hFixed, escapedSize, escapedSize, escapedSize, ← Json.byteLength_quoted,
    ← Json.byteLength_quoted, ← Json.byteLength_quoted]
  simp only [errorReply, ResponseEnvelope.json, ResponseBody.json, RemoteError.json, Json.byteLength,
    Json.render, Json.renderMembers, String.utf8ByteSize_append]
  generalize (Json.quoted correlationId).utf8ByteSize = id
  generalize (Json.quoted code).utf8ByteSize = code
  generalize (Json.quoted message).utf8ByteSize = message
  have hNames : (Json.quoted "version").utf8ByteSize = 9 ∧
      (Json.quoted "correlation_id").utf8ByteSize = 16 ∧ (Json.quoted "body").utf8ByteSize = 6 ∧
      (Json.quoted "kind").utf8ByteSize = 6 ∧ (Json.quoted "error").utf8ByteSize = 7 ∧
      (Json.quoted "code").utf8ByteSize = 6 ∧ (Json.quoted "message").utf8ByteSize = 9 ∧
      (Json.quoted "details").utf8ByteSize = 9 ∧ (Json.quoted "retryable").utf8ByteSize = 11 := by
    decide
  have hMarks : ("\x7b" : String).utf8ByteSize = 1 ∧ ("\x7d" : String).utf8ByteSize = 1 ∧
      (":" : String).utf8ByteSize = 1 ∧ ("," : String).utf8ByteSize = 1 ∧
      ("null" : String).utf8ByteSize = 4 ∧ ("false" : String).utf8ByteSize = 5 ∧
      (toString protocolVersion).utf8ByteSize = 1 := by
    decide
  simp only [hNames, hMarks, Option.getD_none, Json.render]
  omega

end Caelix
