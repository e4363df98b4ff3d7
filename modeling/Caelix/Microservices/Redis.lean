import Caelix.Lib.Interaction
import Caelix.Microservices.Envelope
import Caelix.Microservices.Subjects

/-!
# The Redis transport

`process_command_entry` and `process_event_entry` of `redis_transport.rs` as processes that
call Redis, the clock and the handler. The keys of the streams and groups are those of the
consumer loop that started the task. A `StreamEntry` holds its fields as `field` reads them.
-/

namespace Caelix

open Interaction

/-- The options that the handler tasks read, as the setters leave them. -/
structure RedisTransportOptions where
  maxRequestBytes : Nat
  maxResponseBytes : Nat
  maxEventBytes : Nat
  maxEventDeliveries : Nat
  deadLetterStream : Option String
  response_le : minimumResponseEnvelopeBytes ≤ maxResponseBytes
  deliveries_pos : 0 < maxEventDeliveries

/-- The default of `max_event_deliveries`. -/
theorem redisDeliveries_pos : 0 < 5 := by decide

/-- An entry of a stream; `none` where a field is missing or cannot be read. -/
structure StreamEntry where
  id : String
  subject : Option String
  envelope : Option Bytes
  deriving DecidableEq, Repr

/-- The stream, group and consumer of a loop. -/
structure StreamConsumer where
  stream : String
  group : String
  consumer : String
  deriving DecidableEq, Repr

structure DeadLetterEnvelope where
  version : Nat
  subject : String
  event : EventEnvelope
  sourceStream : String
  sourceGroup : String
  consumer : String
  deliveries : Nat
  failedAtUnixMillis : Nat
  error : RemoteError

inductive RedisCall where
  /-- Start the handler; the reply is how often the heartbeat fires before it returns. -/
  | invoke (handler : MessageHandlerDef) (context : MessageContext) (payload : Json)
  /-- The handler returns. -/
  | returned
  | nowMillis
  /-- `XACK`. -/
  | ack (id : String)
  /-- `XACK` and `XDEL`. -/
  | ackDelete (id : String)
  /-- `XCLAIM` with `JUSTID`. -/
  | touchPending (id : String)
  /-- `XPENDING`; the reply is the delivery count of the entry, if it is pending. -/
  | pending (id : String)
  | publish (channel : String) {maximum : Nat} (bytes : Encoded maximum)
  /-- `XADD`. -/
  | addDeadLetter (stream : String) (failure : DeadLetterEnvelope)

abbrev RedisReply : RedisCall → Type
  | .invoke .. => Nat
  | .returned => HandlerResult
  | .nowMillis => Nat
  | .ack _ => Except String Unit
  | .ackDelete _ => Except String Unit
  | .touchPending _ => Except String Unit
  | .pending _ => Except String (Option Nat)
  | .publish .. => Except String Unit
  | .addDeadLetter .. => Except String String

abbrev RedisTask := Routine RedisCall RedisReply MicroserviceError

namespace Redis

/-- A call whose error ends the task. -/
def attempt {α : Type} (p : Proc RedisCall RedisReply (Except String α)) : RedisTask α :=
  ExceptT.mk do
    let reply ← p
    return orTransport reply

def ack (id : String) : RedisTask Unit := attempt (Proc.perform (RedisCall.ack id))

def ackDelete (id : String) : RedisTask Unit := attempt (Proc.perform (RedisCall.ackDelete id))

def touchPending (id : String) : RedisTask Unit :=
  attempt (Proc.perform (RedisCall.touchPending id))

/-- `delivery_attempt`. -/
def deliveryAttempt (timesDelivered : Nat) : Nat := max timesDelivered 1

def pendingAttempt (id : String) : RedisTask Nat := do
  let reply ← attempt (Proc.perform (RedisCall.pending id))
  return (reply.map deliveryAttempt).getD 1

theorem post_pendingAttempt (id : String)
    (Q : History RedisReply → Except MicroserviceError Nat → Prop) :
    (pendingAttempt id).run.Post Q ↔ ∀ reply, Q [⟨.pending id, reply⟩]
      ((orTransport reply).map fun count => (count.map deliveryAttempt).getD 1) := by
  refine forall_congr' fun reply => ?_
  cases reply <;> exact Iff.rfl

/-- The loop around the invocation of a handler. -/
def runHandler (id : String) (handler : MessageHandlerDef) (context : MessageContext)
    (payload : Json) : RedisTask HandlerResult := do
  let ticks ← Proc.ask (RedisCall.invoke handler context payload)
  Proc.times (touchPending id) ticks
  Proc.ask RedisCall.returned

/-- `deadline_elapsed`, on a deadline that may be missing. -/
def deadlineElapsed : Option Nat → RedisTask Bool
  | none => return false
  | some deadline => do
    let now ← Proc.ask RedisCall.nowMillis
    return deadline ≤ now

/-- The publication of a reply, when there is a channel for it. -/
def publishReply {maximum : Nat} (channel : Option String) (bytes : Encoded maximum) :
    RedisTask (Except String Unit) :=
  match channel with
  | some channel => Proc.ask (RedisCall.publish channel bytes)
  | none => return .ok ()

section

variable (options : RedisTransportOptions)

def publishCommandResponseAndComplete (id : String) (request : RequestEnvelope)
    (body : ResponseBody) : RedisTask Unit :=
  match encodeReply request.correlationId body options.maxResponseBytes with
  | .error error => do
    ackDelete id
    throw (.configuration error)
  | .ok bytes => do
    let published ← publishReply request.replyChannel bytes
    ackDelete id
    liftExcept (orTransport published)

def publishCommandErrorAndComplete (id : String) (request : RequestEnvelope)
    (code message : String) : RedisTask Unit :=
  publishCommandResponseAndComplete options id request (.error ⟨code, message, none, false⟩)

/-- A reply channel that `process_command_entry` does not accept. -/
def unusableChannel : Option String → Bool
  | none => true
  | some channel => channel.isEmpty || 256 < channel.utf8ByteSize

/-- The context of a command. -/
def commandContext (handler : MessageHandlerDef) (request : RequestEnvelope) : MessageContext where
  subject := handler.pattern
  headers := request.headers
  correlationId := some request.correlationId
  deadline := request.deadlineUnixMillis
  delivery := none
  eventId := none

/-- `process_command_entry`. -/
def processCommandEntry (decode : Bytes → Except String RequestEnvelope)
    (handler : MessageHandlerDef) (entry : StreamEntry) : RedisTask Unit :=
  match entry.envelope with
  | none => ackDelete entry.id
  | some bytes =>
    if options.maxRequestBytes < bytes.length then ackDelete entry.id
    else
      match decode bytes with
      | .error _ => ackDelete entry.id
      | .ok request =>
        if request.correlationId.isEmpty || 128 < request.correlationId.utf8ByteSize ||
            unusableChannel request.replyChannel then
          ackDelete entry.id
        else if request.version ≠ protocolVersion then
          publishCommandErrorAndComplete options entry.id request "Protocol"
            "unsupported request protocol version"
        else do
          if ← deadlineElapsed request.deadlineUnixMillis then
            publishCommandErrorAndComplete options entry.id request "Deadline Exceeded"
              "request deadline elapsed before handler invocation"
          else do
            let result ← runHandler entry.id handler (commandContext handler request) request.payload
            publishCommandResponseAndComplete options entry.id request result.body

/-- The context of an event. -/
def eventContext (source : StreamConsumer) (subject : String) (event : EventEnvelope)
    (attempt : Nat) : MessageContext where
  subject := subject
  headers := event.headers
  correlationId := none
  deadline := none
  delivery := some ⟨some source.stream, some source.consumer, attempt⟩
  eventId := some event.eventId

/-- The end of `process_event_entry`, after the handler has failed `attempt` times. -/
def deadLetterAndAck (source : StreamConsumer) (id subject : String) (event : EventEnvelope)
    (attempt : Nat) (error : HttpException) : RedisTask Unit :=
  match options.deadLetterStream with
  | none => ack id
  | some stream => do
    let now ← Proc.ask RedisCall.nowMillis
    let publication ← Proc.ask (RedisCall.addDeadLetter stream
      { version := protocolVersion, subject, event, sourceStream := source.stream
        sourceGroup := source.group, consumer := source.consumer, deliveries := attempt
        failedAtUnixMillis := now, error := remoteFromException error })
    match publication with
    | .error _ => return ()
    | .ok _ => ack id

/-- What `process_event_entry` does with the result of the handler. -/
def completeEvent (source : StreamConsumer) (id subject : String) (event : EventEnvelope)
    (attempt : Nat) : HandlerResult → RedisTask Unit
  | .ok _ => ack id
  | .error error =>
    if error.isClientError then ack id
    else if options.maxEventDeliveries ≤ attempt then
      deadLetterAndAck options source id subject event attempt error
    else return ()

/-- An event that `process_event_entry` gives to a handler, with its subject. -/
def readEvent (decode : Bytes → Except String EventEnvelope) (entry : StreamEntry) :
    Option (String × EventEnvelope) :=
  match entry.subject, entry.envelope with
  | some subject, some bytes =>
    if options.maxEventBytes < bytes.length then none
    else
      match decode bytes with
      | .ok event =>
        if event.version = protocolVersion ∧ event.eventId ≠ "" then some (subject, event) else none
      | .error _ => none
  | _, _ => none

/-- `process_event_entry`. -/
def processEventEntry (decode : Bytes → Except String EventEnvelope)
    (handlers : List MessageHandlerDef) (source : StreamConsumer) (entry : StreamEntry) :
    RedisTask Unit :=
  match readEvent options decode entry with
  | none => ack entry.id
  | some (subject, event) =>
    match findEventHandler handlers subject with
    | none => ack entry.id
    | some handler => do
      let attempt ← pendingAttempt entry.id
      let result ← runHandler entry.id handler (eventContext source subject event attempt) event.payload
      completeEvent options source entry.id subject event attempt result

end

end Redis

end Caelix
