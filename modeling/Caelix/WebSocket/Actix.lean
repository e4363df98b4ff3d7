import Caelix.WebSocket.Session

/-!
# WebSocket connections on Actix

`websocket.rs` of the Actix adapter and `actix_ws/session.rs`: the session behind the
transport, the reassembly of fragmented messages and the task of a connection.

* `ActixSession`: a session writes to a channel that the response body reads.
* `LinkStep`: what a call of a session can do to the link (`act_link`).
* `nextFragment`: what a fragment does to the reassembly buffer.
* `Actix.runConnection`: the task of a connection, for the items its stream yields.
-/

namespace Caelix

open Interaction

/-! ## Messages -/

/-- `CloseReason`; a close code of `actix_http` stands for its number. -/
structure CloseReason where
  code : UInt16
  description : Option String
  deriving DecidableEq, Repr

/-- A frame of a fragmented message. -/
inductive Item where
  | firstText (data : Bytes)
  | firstBinary (data : Bytes)
  | continue (data : Bytes)
  | last (data : Bytes)
  deriving DecidableEq, Repr

inductive Message where
  | text (text : String)
  | binary (data : Bytes)
  | continuation (item : Item)
  | ping (data : Bytes)
  | pong (data : Bytes)
  | close (reason : Option CloseReason)
  | nop
  deriving DecidableEq, Repr

/-- The errors of the codec that `protocol_close_code` tells apart. -/
inductive ProtocolErrorKind where
  | overflow
  /-- An `io::Error` of the kind `InvalidData`. -/
  | invalidData
  | other
  deriving DecidableEq, Repr

/-- `ProtocolError`, with the text it displays. -/
structure ProtocolError where
  kind : ProtocolErrorKind
  text : String
  deriving DecidableEq, Repr

/-! ## The session of `actix_ws` -/

def maxControlPayloadBytes : Nat := 125

def maxCloseReasonBytes : Nat := maxControlPayloadBytes - 2

/-- The clones of a session share `closed` and the channel. A clone drops its sender when it
finds `closed` set, and a session drops it at the next call, so `closed` stands for both. -/
structure ActixSession where
  closed : Bool
  /-- The response body still has the other end of the channel. -/
  receiving : Bool
  /-- The messages the channel has taken. -/
  sent : List Message
  deriving DecidableEq

namespace ActixSession

def new : ActixSession where
  closed := false
  receiving := true
  sent := []

/-- Sending to the channel, once there is room in it. -/
def sendMessageInner (s : ActixSession) (message : Message) : Bool × ActixSession :=
  if s.receiving then (true, { s with sent := s.sent ++ [message] }) else (false, s)

/-- `send_message`; the flag says whether it succeeded, its only error is `Closed`. -/
def sendMessage (s : ActixSession) (message : Message) : Bool × ActixSession :=
  if s.closed then (false, s) else s.sendMessageInner message

def text (text : String) (s : ActixSession) : Bool × ActixSession := s.sendMessage (.text text)

def binary (data : Bytes) (s : ActixSession) : Bool × ActixSession := s.sendMessage (.binary data)

def ping (data : Bytes) (s : ActixSession) : Bool × ActixSession :=
  s.sendMessage (.ping (data.take maxControlPayloadBytes))

def pong (data : Bytes) (s : ActixSession) : Bool × ActixSession :=
  s.sendMessage (.pong (data.take maxControlPayloadBytes))

/-- The characters of a text that fit in a number of bytes. -/
def truncate (bytes : Nat) : List Char → List Char
  | [] => []
  | c :: l => if c.utf8Size ≤ bytes then c :: truncate (bytes - c.utf8Size) l else []

/-- A description is cut at the last character boundary within the limit. -/
def shorten (reason : CloseReason) : CloseReason :=
  { reason with description := reason.description.map fun description =>
      if maxCloseReasonBytes < description.utf8ByteSize then
        String.ofList (truncate maxCloseReasonBytes description.toList)
      else description }

def close (reason : Option CloseReason) (s : ActixSession) : Bool × ActixSession :=
  if s.closed then (false, s)
  else sendMessageInner { s with closed := true } (.close (reason.map shorten))

end ActixSession

theorem close_closed (session : ActixSession) (reason : Option CloseReason) :
    (session.close reason).2.closed = true := by
  unfold ActixSession.close ActixSession.sendMessageInner
  split
  · assumption
  · split <;> rfl

theorem close_receiving (session : ActixSession) (reason : Option CloseReason) :
    (session.close reason).2.receiving = session.receiving := by
  unfold ActixSession.close ActixSession.sendMessageInner
  split
  · rfl
  · split <;> rfl

/-- The session of `actix_ws` sends the first Close frame it is given. -/
theorem close_first {session : ActixSession} (hClosed : session.closed = false)
    (hReceiving : session.receiving = true) (reason : Option CloseReason) :
    session.close reason =
      (true, ⟨true, true, session.sent ++ [.close (reason.map ActixSession.shorten)]⟩) := by
  obtain ⟨closed, receiving, sent⟩ := session
  obtain rfl : closed = false := hClosed
  obtain rfl : receiving = true := hReceiving
  rfl

theorem close_again {session : ActixSession} (hClosed : session.closed = true)
    (reason : Option CloseReason) : (session.close reason).2 = session := by
  unfold ActixSession.close
  rw [if_pos hClosed]

/-! ## The transport -/

def toActixClose (frame : WebSocketCloseFrame) : CloseReason where
  code := frame.code.asU16
  description := some frame.reason

def fromActixClose (frame : CloseReason) : Option WebSocketCloseFrame := do
  let code ← WebSocketCloseCode.fromU16 frame.code
  return ⟨code, frame.description.getD ""⟩

/-- `send_error`, of `Closed`. -/
def sendError : HttpException := .new 500 "Internal Server Error" "Session is closed"

/-- A call of the session behind the link. -/
def onActixSession (f : ActixSession → Bool × ActixSession) : LinkAction ActixSession := fun link =>
  let (sent, transport) := f link.transport
  (if sent then .ok () else .error sendError, { link with transport })

def actixTransport : WebSocketTransport ActixSession where
  sendText text := onActixSession (ActixSession.text text)
  sendBinary data := onActixSession (ActixSession.binary data)
  ping data := onActixSession (ActixSession.ping data)
  pong data := onActixSession (ActixSession.pong data)
  close frame link :=
    if frame.any fun frame => !frame.code.isServerSendable then
      (.error (badRequest "invalid websocket close code"), link)
    else onActixSession (ActixSession.close (frame.map toActixClose)) { link with isOpen := false }

/-- A frame that the transport does not reject. -/
def Accepted (frame : Option WebSocketCloseFrame) : Prop :=
  ∀ f, frame = some f → f.code.isServerSendable = true

instance (frame : Option WebSocketCloseFrame) : Decidable (Accepted frame) :=
  match frame with
  | none => isTrue nofun
  | some f => decidable_of_iff (f.code.isServerSendable = true) (by simp [Accepted])

/-- The response body is dropped. -/
inductive HangUp : ActixSession → ActixSession → Prop
  | drop (s : ActixSession) : HangUp s { s with receiving := false }

/-- Connections on Actix. -/
abbrev actixEnvironment : Environment (Connection ActixSession) ConnectionCall ConnectionCall.Reply :=
  connectionEnvironment actixTransport HangUp

def Message.IsClose (message : Message) : Prop := ∃ reason, message = .close reason

/-- What the link goes through. -/
inductive LinkStep : Link ActixSession → Link ActixSession → Prop
  | refused (link : Link ActixSession) : LinkStep link link
  | message {link : Link ActixSession} (message : Message) (hMessage : ¬ message.IsClose)
    (hClosed : link.transport.closed = false) (hReceiving : link.transport.receiving = true) :
    LinkStep link { link with transport.sent := link.transport.sent ++ [message] }
  | close {link : Link ActixSession} (frame : Option WebSocketCloseFrame)
    (hFrame : Accepted frame) :
    LinkStep link ⟨false, (link.transport.close (frame.map toActixClose)).2⟩
  | hangUp (link : Link ActixSession) : LinkStep link { link with transport.receiving := false }

theorem sendMessage_link (message : Message) (hMessage : ¬ message.IsClose)
    (link : Link ActixSession) : LinkStep link (onActixSession (·.sendMessage message) link).2 := by
  change LinkStep link { link with transport := (link.transport.sendMessage message).2 }
  unfold ActixSession.sendMessage ActixSession.sendMessageInner
  split
  · exact .refused link
  · split
    · exact .message message hMessage (by simp_all) (by assumption)
    · exact .refused link

theorem whenOpen_link {f : LinkAction ActixSession} (hf : ∀ link, LinkStep link (f link).2)
    (s : WebSocketSession ActixSession) : LinkStep s.toLink (s.whenOpen f).2.toLink := by
  unfold WebSocketSession.whenOpen
  split
  · exact .refused _
  · exact hf s.toLink

/-- The transport rejects a frame, or closes the session of `actix_ws`. -/
theorem actixTransport_close (frame : Option WebSocketCloseFrame) (link : Link ActixSession) :
    actixTransport.close frame link =
      if Accepted frame then
        onActixSession (ActixSession.close (frame.map toActixClose)) { link with isOpen := false }
      else (.error (badRequest "invalid websocket close code"), link) := by
  cases frame with
  | none => rfl
  | some f =>
    by_cases hSendable : f.code.isServerSendable = true
    · simp [actixTransport, Accepted, hSendable]
    · simp [actixTransport, Accepted, hSendable]

theorem close_link (frame : Option WebSocketCloseFrame) (link : Link ActixSession) :
    LinkStep link (actixTransport.close frame link).2 := by
  rw [actixTransport_close]
  split
  · exact .close frame (by assumption)
  · exact .refused link

theorem act_link (c : SessionCall) (s : WebSocketSession ActixSession) :
    LinkStep s.toLink (s.act actixTransport c).2.toLink := by
  cases c with
  | isOpen => exact .refused _
  | sendText text => exact whenOpen_link (sendMessage_link (.text text) nofun) s
  | sendBinary data => exact whenOpen_link (sendMessage_link (.binary data) nofun) s
  | ping data => exact whenOpen_link (sendMessage_link (.ping _) nofun) s
  | pong data => exact whenOpen_link (sendMessage_link (.pong _) nofun) s
  | close frame => exact close_link frame s.toLink

theorem change_link {s t : Connection ActixSession} (h : actixEnvironment.change s t) :
    LinkStep s.session.toLink t.session.toLink := by
  cases h with
  | act c => exact act_link c s.session
  | drift h =>
    cases h
    exact .hangUp _

/-! ## Fragments -/

inductive Fragment where
  | text (data : Bytes)
  | binary (data : Bytes)
  deriving DecidableEq, Repr

namespace Fragment

def data : Fragment → Bytes
  | text data | binary data => data

def len (fragment : Fragment) : Nat := fragment.data.length

def extend (bytes : Bytes) : Fragment → Fragment
  | text data => text (data ++ bytes)
  | binary data => binary (data ++ bytes)

end Fragment

/-- What becomes of the slot: the message that is complete now, and the new slot. -/
abbrev SlotResult := Except WebSocketCloseCode (Option Fragment × Option Fragment)

def startFragment (slot : Option Fragment) (value : Fragment) (maxSize : Nat) : SlotResult :=
  if slot.isSome then .error .protocol
  else if maxSize < value.len then .error .messageTooBig
  else .ok (none, some value)

/-- `maxSize` is a `usize`, so a sum that overflows exceeds it. -/
def appendFragment (slot : Option Fragment) (data : Bytes) (maxSize : Nat) :
    Except WebSocketCloseCode Fragment :=
  match slot with
  | none => .error .protocol
  | some value =>
    if maxSize < value.len + data.length then .error .messageTooBig else .ok (value.extend data)

/-- The `match` on a continuation item. -/
def nextFragment (maxSize : Nat) (slot : Option Fragment) : Item → SlotResult
  | .firstText data => startFragment slot (.text data) maxSize
  | .firstBinary data => startFragment slot (.binary data) maxSize
  | .continue data => (appendFragment slot data maxSize).map fun value => (none, some value)
  | .last data => (appendFragment slot data maxSize).map fun value => (some value, none)

def protocolCloseCode (error : ProtocolError) : WebSocketCloseCode :=
  match error.kind with
  | .overflow => .messageTooBig
  | .invalidData => .invalidData
  | .other => .protocol

/-! ## The task of a connection -/

/-- A part of the task that may `break` out of the loop with the close frame to report. -/
abbrev ConnectionTask := Routine ConnectionCall ConnectionCall.Reply (Option WebSocketCloseFrame)

namespace ConnectionTask

def isOpen : ConnectionTask Bool := Proc.ask (ConnectionCall.session .isOpen)

def pong (data : Bytes) : ConnectionTask (Except HttpException Unit) :=
  Proc.ask (ConnectionCall.session (.pong data))

def close (frame : Option WebSocketCloseFrame) : ConnectionTask (Except HttpException Unit) :=
  Proc.ask (ConnectionCall.session (.close frame))

def onConnect (request : WebSocketRequest) : ConnectionTask (Except HttpException Unit) :=
  Proc.ask (ConnectionCall.callback (.onConnect request))

def onText (text : String) : ConnectionTask (Except HttpException Unit) :=
  Proc.ask (ConnectionCall.callback (.onText text))

def onBinary (data : Bytes) : ConnectionTask (Except HttpException Unit) :=
  Proc.ask (ConnectionCall.callback (.onBinary data))

def onError (message : String) : ConnectionTask Unit :=
  Proc.ask (ConnectionCall.callback (.onError ⟨message⟩))

end ConnectionTask

open ConnectionTask

/-- `close_with_protocol_error` and `fail_handler`: report an error, ask for a close. -/
def reportAndClose (message : String) (frame : WebSocketCloseFrame) :
    ConnectionTask WebSocketCloseFrame := do
  onError message
  let _ ← close (some frame)
  return frame

def closeWithProtocolError (code : WebSocketCloseCode) (message : String) :
    ConnectionTask WebSocketCloseFrame :=
  reportAndClose message ⟨code, message⟩

def failHandler (message : String) : ConnectionTask WebSocketCloseFrame :=
  reportAndClose message ⟨.internal, "handler failed"⟩

/-- `close_frame = Some(close_with_protocol_error(..)); break`. -/
def violation {α : Type} (code : WebSocketCloseCode) (message : String) : ConnectionTask α := do
  throw (some (← closeWithProtocolError code message))

/-- A callback has returned: its error ends the loop. -/
def handled : Except HttpException Unit → ConnectionTask Unit
  | .ok () => return ()
  | .error error => do throw (some (← failHandler error.message))

/-- A complete message of fragments is delivered. -/
def deliver : Fragment → ConnectionTask Unit
  | .text data =>
    match String.fromUTF8? ⟨data.toArray⟩ with
    | some text => do handled (← onText text)
    | none => violation .invalidData "invalid UTF-8 text message"
  | .binary data => do handled (← onBinary data)

namespace Actix

/-- An item of the stream; the result is the new value of `fragment`. -/
def receive (maxSize : Nat) (fragment : Option Fragment) :
    Except ProtocolError Message → ConnectionTask (Option Fragment)
  | .ok (.text text) =>
    if fragment.isSome then violation .protocol "data frame interleaved with fragmented message"
    else do
      handled (← onText text)
      return fragment
  | .ok (.binary data) =>
    if fragment.isSome then violation .protocol "data frame interleaved with fragmented message"
    else do
      handled (← onBinary data)
      return fragment
  | .ok (.ping data) => do
    match ← pong data with
    | .ok () => return fragment
    | .error _ => throw none
  | .ok (.pong _) => return fragment
  | .ok (.close none) => do
    let _ ← close none
    throw none
  | .ok (.close (some reason)) =>
    match fromActixClose reason with
    | some frame => do
      let _ ← close (some frame)
      throw (some frame)
    | none => violation .protocol "invalid websocket close code"
  | .ok (.continuation item) =>
    match nextFragment maxSize fragment item with
    | .ok (some message, fragment) => do
      deliver message
      return fragment
    | .ok (none, fragment) => return fragment
    | .error code => violation code "invalid fragmented message"
  | .ok .nop => return fragment
  | .error error => do
    onError error.text
    let frame : WebSocketCloseFrame := ⟨protocolCloseCode error, "invalid websocket frame"⟩
    let _ ← close (some frame)
    throw (some frame)

/-- The stream has ended. -/
def streamEnd : ConnectionTask Unit := do
  if ← isOpen then onError "websocket transport closed unexpectedly"
  else return ()

/-- The iterations of the loop that take an item. -/
def receiveAll (maxSize : Nat) :
    Option Fragment → List (Except ProtocolError Message) → ConnectionTask (Option Fragment)
  | fragment, [] => return fragment
  | fragment, item :: items => do
    if ← isOpen then
      let fragment ← receive maxSize fragment item
      receiveAll maxSize fragment items
    else throw none

/-- `while session.is_open()`, over the items that the stream yields before its end. -/
def messageLoop (maxSize : Nat) (items : List (Except ProtocolError Message)) :
    ConnectionTask Unit := do
  let _ ← receiveAll maxSize none items
  if ← isOpen then streamEnd
  else return ()

/-- The end of `run_connection`. -/
def conclude (closeFrame : Option WebSocketCloseFrame) :
    Proc ConnectionCall ConnectionCall.Reply Unit := do
  let closeFrame ← match closeFrame with
    | some frame => pure (some frame)
    | none => Proc.perform ConnectionCall.takeLocalCloseFrame
  let _ ← Proc.perform ConnectionCall.storeClosed
  Proc.perform (ConnectionCall.callback (.onClose closeFrame))

def runConnection (maxSize : Nat) (request : WebSocketRequest)
    (items : List (Except ProtocolError Message)) : Proc ConnectionCall ConnectionCall.Reply Unit := do
  let connected : ConnectionTask Unit := do
    handled (← onConnect request)
    messageLoop maxSize items
  match ← connected.run with
  | .ok () => conclude none
  | .error closeFrame => conclude closeFrame

end Actix

end Caelix
