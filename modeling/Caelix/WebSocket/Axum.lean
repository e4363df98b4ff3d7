import Caelix.WebSocket.Actix

/-!
# WebSocket connections on Axum

`websocket.rs` of the Axum adapter. The socket itself is not part of the repository: which
messages it refuses, and with which text, is a parameter.

The two adapters have the same `fail_handler`, and they treat the result of a handler alike.
-/

namespace Caelix

open Interaction ConnectionTask

structure AxumCloseFrame where
  code : UInt16
  reason : String
  deriving DecidableEq, Repr

inductive AxumMessage where
  | text (text : String)
  | binary (data : Bytes)
  | ping (data : Bytes)
  | pong (data : Bytes)
  | close (frame : Option AxumCloseFrame)
  deriving DecidableEq, Repr

/-- The sending half of a socket: the messages it has taken. -/
structure AxumSocket where
  sent : List AxumMessage
  deriving DecidableEq

/-- The error with which a socket that has taken some messages refuses the next one. -/
abbrev Refuses := List AxumMessage → AxumMessage → Option String

/-- `transport_error`, of the text of an `axum::Error`. -/
def transportError (error : String) : HttpException := .new 500 "Internal Server Error" error

def toAxumClose (frame : WebSocketCloseFrame) : AxumCloseFrame where
  code :=
    if frame.code.isServerSendable then frame.code.asU16 else WebSocketCloseCode.internal.asU16
  reason := frame.reason

def fromAxumClose (frame : AxumCloseFrame) : Option WebSocketCloseFrame := do
  let code ← WebSocketCloseCode.fromU16 frame.code
  return ⟨code, frame.reason⟩

section Transport

variable (refuses : Refuses)

/-- `AxumWebSocketTransport::send`. -/
def axumSend (message : AxumMessage) : LinkAction AxumSocket := fun link =>
  match refuses link.transport.sent message with
  | none => (.ok (), { link with transport.sent := link.transport.sent ++ [message] })
  | some error => (.error (transportError error), link)

def axumTransport : WebSocketTransport AxumSocket where
  sendText text := axumSend refuses (.text text)
  sendBinary data := axumSend refuses (.binary data)
  ping data := axumSend refuses (.ping data)
  pong data := axumSend refuses (.pong data)
  close frame link :=
    let (result, link) := axumSend refuses (.close (frame.map toAxumClose)) link
    (result, { link with isOpen := false })

end Transport

namespace Axum

/-- An item of the receiver. -/
def receive : Except String AxumMessage → ConnectionTask Unit
  | .ok (.text text) => do handled (← onText text)
  | .ok (.binary data) => do handled (← onBinary data)
  | .ok (.ping data) => do
    match ← pong data with
    | .ok () => return ()
    | .error _ => throw none
  | .ok (.pong _) => return ()
  | .ok (.close frame) => do
    let closeFrame := frame.bind fromAxumClose
    let _ ← close closeFrame
    throw closeFrame
  | .error error => do
    onError error
    let closeFrame : WebSocketCloseFrame := ⟨.protocol, "invalid websocket frame"⟩
    let _ ← close (some closeFrame)
    throw (some closeFrame)

/-- `while session.is_open()`, over the items that the receiver yields before its end. -/
def messageLoop : List (Except String AxumMessage) → ConnectionTask Unit
  | [] => do
    let _ ← isOpen
    return ()
  | item :: items => do
    if ← isOpen then
      receive item
      messageLoop items
    else return ()

/-- The end of `run_connection`. -/
def conclude (closeFrame : Option WebSocketCloseFrame) :
    Proc ConnectionCall ConnectionCall.Reply Unit := do
  let _ ← Proc.perform ConnectionCall.storeClosed
  Proc.perform (ConnectionCall.callback (.onClose closeFrame))

def runConnection (request : WebSocketRequest) (items : List (Except String AxumMessage)) :
    Proc ConnectionCall ConnectionCall.Reply Unit := do
  let connected : ConnectionTask Unit := do
    handled (← onConnect request)
    messageLoop items
  match ← connected.run with
  | .ok () => conclude none
  | .error closeFrame => conclude closeFrame

end Axum

end Caelix
