import Caelix.Lib.Interaction
import Caelix.Core.Clock
import Caelix.Microservices.Envelope
import Caelix.Microservices.Subjects

/-!
# The NATS transport

`process_command` and `process_event` of `lib.rs` as processes that call NATS, the clock and
the handler.
-/

namespace Caelix

open Interaction

/-- The options that the handler tasks read, as the setters leave them. -/
structure NatsTransportOptions where
  maxRequestBytes : Nat
  maxResponseBytes : Nat
  maxEventBytes : Nat
  maxEventDeliveries : Int
  deadLetterSubject : Option String
  eventRetryDelay : Duration
  response_le : minimumResponseEnvelopeBytes ≤ maxResponseBytes
  deliveries_pos : 0 < maxEventDeliveries

/-- The default of `max_event_deliveries`. -/
theorem natsDeliveries_pos : (0 : Int) < 5 := by decide

/-- The names of a header map with their values. -/
abbrev HeaderMap := List (String × List String)

structure NatsMessage where
  subject : String
  reply : Option String
  headers : Option HeaderMap
  payload : Bytes

/-- What JetStream tells about a delivery. -/
structure DeliveryInfo where
  stream : String
  consumer : String
  delivered : Int

/-- A JetStream message with the result of `info`. -/
structure JetStreamMessage extends NatsMessage where
  info : Except String DeliveryInfo

inductive AckKind where
  | ack
  | nak (delay : Duration)
  | progress
  | term
  deriving DecidableEq, Repr

/-- The errors of `dispatch_command`. -/
inductive MicroserviceClientError where
  | decode (message : String)
  | protocol (message : String)
  deriving DecidableEq, Repr

structure NatsDeadLetter where
  subject : String
  eventId : String
  payload : Json
  stream : String
  consumer : String
  deliveries : Int
  error : RemoteError

inductive NatsCall where
  /-- Start the handler; the reply is how often a timer that runs beside it fires before it
  returns. -/
  | invoke (handler : MessageHandlerDef) (context : MessageContext) (payload : Json)
  /-- The handler returns. -/
  | returned
  | nowMillis
  | ackWith (kind : AckKind)
  | publish (subject : String) {maximum : Nat} (bytes : Encoded maximum)
  /-- The publication of a dead letter to JetStream. -/
  | publishDeadLetter (subject : String) (deadLetter : NatsDeadLetter)
  /-- The acknowledgement of that publication. -/
  | published

abbrev NatsReply : NatsCall → Type
  | .invoke .. => Nat
  | .returned => HandlerResult
  | .nowMillis => Nat
  | .ackWith _ => Except String Unit
  | .publish .. => Except String Unit
  | .publishDeadLetter .. => Except String Unit
  | .published => Except String Unit

abbrev NatsTask := Routine NatsCall NatsReply MicroserviceError

/-- `propagated_headers`. -/
def propagatedHeaders (envelope : Headers) : Option HeaderMap → Headers
  | none => envelope
  | some headers =>
    headers.foldl (fun result header =>
      match header.2.getLast? with
      | some value => result.insert header.1 value
      | none => result) envelope

/-- `correlation_id_from_headers`. -/
def correlationIdFromHeaders (message : NatsMessage) : Option String := do
  let headers ← message.headers
  let values ← headers.lookup "Caelix-Correlation-Id"
  let correlationId ← values.getLast?
  if correlationId.utf8ByteSize ≤ 128 && !correlationId.isEmpty then some correlationId else none

namespace Nats

/-- A call whose error ends the task. -/
def attempt {α : Type} (p : Proc NatsCall NatsReply (Except String α)) : NatsTask α :=
  ExceptT.mk do
    let reply ← p
    return orTransport reply

def ackWith (kind : AckKind) : NatsTask Unit := attempt (Proc.perform (NatsCall.ackWith kind))

/-! ## Commands -/

/-- The process of a command: its result is the reply, or an error that is not reported. -/
abbrev CommandTask := Routine NatsCall NatsReply MicroserviceClientError

/-- The check of the deadline, which may be missing. -/
def deadlineElapsed : Option Nat → CommandTask Bool
  | none => return false
  | some deadline => do
    let now ← Proc.ask NatsCall.nowMillis
    return deadline < now

/-- `map_err(MicroserviceClientError::Protocol)`. -/
def orProtocol {α : Type} : Except String α → CommandTask α
  | .ok a => return a
  | .error message => throw (.protocol message)

section

variable (options : NatsTransportOptions)

/-- The context of a command. -/
def commandContext (message : NatsMessage) (request : RequestEnvelope) : MessageContext where
  subject := message.subject
  headers := propagatedHeaders request.headers message.headers
  correlationId := some request.correlationId
  deadline := request.deadlineUnixMillis
  delivery := none
  eventId := none

/-- `dispatch_command`. -/
def dispatchCommand (decode : Bytes → Except String RequestEnvelope) (handler : MessageHandlerDef)
    (message : NatsMessage) : CommandTask (Encoded options.maxResponseBytes) :=
  if options.maxRequestBytes < message.payload.length then
    match correlationIdFromHeaders message with
    | some correlationId =>
      orProtocol (boundedCommandError correlationId "Payload Too Large"
        "request envelope exceeds configured maximum" options.maxResponseBytes)
    | none => throw (.protocol "request envelope exceeds configured maximum")
  else
    match decode message.payload with
    | .error error => throw (.decode error)
    | .ok request =>
      if request.correlationId.isEmpty then throw (.protocol "request correlation ID is missing")
      else if request.version ≠ protocolVersion then
        orProtocol (boundedCommandError request.correlationId "Protocol"
          "unsupported request protocol version" options.maxResponseBytes)
      else do
        if ← deadlineElapsed request.deadlineUnixMillis then
          orProtocol (boundedCommandError request.correlationId "Deadline Exceeded"
            "request deadline elapsed before handler invocation" options.maxResponseBytes)
        else do
          -- no timer runs beside the handler of a command
          let _ ← Proc.ask (NatsCall.invoke handler (commandContext message request) request.payload)
          let result ← Proc.ask NatsCall.returned
          orProtocol (encodeReply request.correlationId result.body options.maxResponseBytes)

/-- `process_command`. -/
def processCommand (decode : Bytes → Except String RequestEnvelope) (handler : MessageHandlerDef)
    (message : NatsMessage) : NatsTask Unit := do
  let response ← ExceptT.lift (dispatchCommand options decode handler message).run
  match message.reply, response with
  | some reply, .ok bytes => attempt (Proc.perform (NatsCall.publish reply bytes))
  | _, _ => return ()

/-! ## Events -/

/-- The loop around the invocation of an event handler. -/
def runHandler (handler : MessageHandlerDef) (context : MessageContext) (payload : Json) :
    NatsTask HandlerResult := do
  let ticks ← Proc.ask (NatsCall.invoke handler context payload)
  Proc.times (ackWith .progress) ticks
  Proc.ask NatsCall.returned

/-- The context of an event. -/
def eventContext (message : JetStreamMessage) (info : DeliveryInfo) (event : EventEnvelope) :
    MessageContext where
  subject := message.subject
  headers := propagatedHeaders event.headers message.headers
  correlationId := none
  deadline := none
  delivery := some ⟨some info.stream, some info.consumer, info.delivered.toNat⟩
  eventId := some event.eventId

/-- The publication of a dead letter and its acknowledgement. -/
def publishDeadLetter (subject : String) (deadLetter : NatsDeadLetter) :
    NatsTask (Except String Unit) := do
  match ← Proc.ask (NatsCall.publishDeadLetter subject deadLetter) with
  | .error error => return .error error
  | .ok () => Proc.ask NatsCall.published

/-- The end of `process_event`, after the handler has failed often enough. -/
def deadLetterAndTerm (message : JetStreamMessage) (info : DeliveryInfo) (event : EventEnvelope)
    (error : HttpException) : NatsTask Unit :=
  match options.deadLetterSubject with
  | none => ackWith .term
  | some subject => do
    match ← publishDeadLetter subject
      { subject := message.subject, eventId := event.eventId, payload := event.payload
        stream := info.stream, consumer := info.consumer, deliveries := info.delivered
        error := remoteFromException error } with
    | .error _ => ackWith (.nak options.eventRetryDelay)
    | .ok () => ackWith .term

/-- What `process_event` does with the result of the handler. -/
def completeEvent (message : JetStreamMessage) (info : DeliveryInfo) (event : EventEnvelope) :
    HandlerResult → NatsTask Unit
  | .ok _ => ackWith .ack
  | .error error =>
    if error.isClientError then ackWith .term
    else if options.maxEventDeliveries ≤ info.delivered then
      deadLetterAndTerm options message info event error
    else ackWith (.nak options.eventRetryDelay)

/-- `process_event`. -/
def processEvent (decode : Bytes → Except String EventEnvelope) (handler : MessageHandlerDef)
    (message : JetStreamMessage) : NatsTask Unit :=
  match message.info with
  | .error error => throw (.transport error)
  | .ok info =>
    if options.maxEventBytes < message.payload.length then ackWith .term
    else
      match decode message.payload with
      | .error _ => ackWith .term
      | .ok event =>
        if event.version = protocolVersion ∧ event.eventId ≠ "" then do
          let result ← runHandler handler (eventContext message info event) event.payload
          completeEvent options message info event result
        else ackWith .term

end

end Nats

end Caelix
