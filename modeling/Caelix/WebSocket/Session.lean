import Mathlib.Data.List.Basic
import Caelix.Core.IpAddress
import Caelix.Core.Response
import Caelix.Lib.Environment

/-!
# WebSocket sessions

`websocket.rs` of the core: close codes and frames, the transport trait, the session that a
gateway is handed, and the callbacks of a gateway.

A transport is a record of functions on its state and on the flag `open`, which it shares
with the session. A call of a session is one step.

* `isServerSendable_of_fromU16`: of the codes that may be received, which may be sent.
* `WebSocketSession.act`: the reply of a session to a call, and the session after it.
* `connectionEnvironment`: a connection whose gateway and other tasks call the session in
  any way.
-/

namespace Caelix

open Interaction

/-! ## Close codes -/

inductive WebSocketCloseCode where
  | normal
  | goingAway
  | protocol
  | unsupported
  | invalidData
  | policy
  | messageTooBig
  | internal
  | restart
  | tryAgainLater
  | mandatoryExtension
  | badGateway
  | other (code : UInt16)
  deriving DecidableEq, Repr

namespace WebSocketCloseCode

def asU16 : WebSocketCloseCode → UInt16
  | normal => 1000
  | goingAway => 1001
  | protocol => 1002
  | unsupported => 1003
  | invalidData => 1007
  | policy => 1008
  | messageTooBig => 1009
  | internal => 1011
  | restart => 1012
  | tryAgainLater => 1013
  | mandatoryExtension => 1010
  | badGateway => 1014
  | other code => code

def fromU16 (code : UInt16) : Option WebSocketCloseCode :=
  match code with
  | 1000 => some normal
  | 1001 => some goingAway
  | 1002 => some protocol
  | 1003 => some unsupported
  | 1007 => some invalidData
  | 1008 => some policy
  | 1009 => some messageTooBig
  | 1010 => some mandatoryExtension
  | 1011 => some internal
  | 1012 => some restart
  | 1013 => some tryAgainLater
  | 1014 => some badGateway
  | code => if 3000 ≤ code ∧ code ≤ 4999 then some (other code) else none

def isValid (code : WebSocketCloseCode) : Bool := (fromU16 code.asU16).isSome

def isServerSendable (code : WebSocketCloseCode) : Bool :=
  code.isValid && code ≠ mandatoryExtension

theorem asU16_of_fromU16 {n : UInt16} {code : WebSocketCloseCode} (h : fromU16 n = some code) :
    code.asU16 = n := by
  unfold fromU16 at h
  split at h
  case h_13 =>
    split at h
    · obtain rfl := Option.some.inj h
      rfl
    · cases h
  all_goals
    obtain rfl := Option.some.inj h
    rfl

end WebSocketCloseCode

structure WebSocketCloseFrame where
  code : WebSocketCloseCode
  reason : String
  deriving DecidableEq, Repr

structure WebSocketRequest where
  path : String
  query : String
  peerAddr : Option (IpAddr × UInt16)
  headers : List (String × String)
  deriving DecidableEq

structure WebSocketError where
  message : String
  deriving DecidableEq, Repr

/-! ## Sessions -/

/-- The flag `open` and the state of the transport that shares it. -/
structure Link (τ : Type) where
  isOpen : Bool
  transport : τ
  deriving DecidableEq

/-- A function of a transport: its result and the link after it. -/
abbrev LinkAction (τ : Type) := Link τ → Except HttpException Unit × Link τ

structure WebSocketTransport (τ : Type) where
  sendText (text : String) : LinkAction τ
  sendBinary (data : Bytes) : LinkAction τ
  ping (data : Bytes) : LinkAction τ
  pong (data : Bytes) : LinkAction τ
  close (frame : Option WebSocketCloseFrame) : LinkAction τ

structure WebSocketSession (τ : Type) extends Link τ where
  closeFrame : Option WebSocketCloseFrame
  deriving DecidableEq

inductive SessionCall where
  | isOpen
  | sendText (text : String)
  | sendBinary (data : Bytes)
  | ping (data : Bytes)
  | pong (data : Bytes)
  | close (frame : Option WebSocketCloseFrame)
  deriving DecidableEq

abbrev SessionCall.Reply : SessionCall → Type
  | isOpen => Bool
  | _ => Except HttpException Unit

namespace WebSocketSession

variable {τ : Type} (transport : WebSocketTransport τ)

/-- `WebSocketSession::new`, of an open connection. -/
def new (state : τ) : WebSocketSession τ where
  isOpen := true
  transport := state
  closeFrame := none

def ensureOpen (s : WebSocketSession τ) : Except HttpException Unit :=
  if s.isOpen then .ok ()
  else .error (.new 500 "Internal Server Error" "websocket session is closed")

def onLink (s : WebSocketSession τ) (f : LinkAction τ) :
    Except HttpException Unit × WebSocketSession τ :=
  let (result, link) := f s.toLink
  (result, { s with toLink := link })

/-- `send_text`, `send_binary`, `ping` and `pong` differ in the function of the transport. -/
def whenOpen (s : WebSocketSession τ) (f : LinkAction τ) :
    Except HttpException Unit × WebSocketSession τ :=
  match s.ensureOpen with
  | .error e => (.error e, s)
  | .ok () => s.onLink f

def close (frame : Option WebSocketCloseFrame) (s : WebSocketSession τ) :
    Except HttpException Unit × WebSocketSession τ :=
  onLink { s with closeFrame := frame } (transport.close frame)

def takeLocalCloseFrame (s : WebSocketSession τ) :
    Option WebSocketCloseFrame × WebSocketSession τ :=
  (s.closeFrame, { s with closeFrame := none })

def act : (c : SessionCall) → WebSocketSession τ → c.Reply × WebSocketSession τ
  | .isOpen, s => (s.isOpen, s)
  | .sendText text, s => s.whenOpen (transport.sendText text)
  | .sendBinary data, s => s.whenOpen (transport.sendBinary data)
  | .ping data, s => s.whenOpen (transport.ping data)
  | .pong data, s => s.whenOpen (transport.pong data)
  | .close frame, s => s.close transport frame

end WebSocketSession

/-! ## Gateways -/

/-- A callback of `WebSocketGateway` with its arguments. -/
inductive Callback where
  | onConnect (request : WebSocketRequest)
  | onText (text : String)
  | onBinary (data : Bytes)
  | onError (error : WebSocketError)
  | onClose (frame : Option WebSocketCloseFrame)
  deriving DecidableEq

namespace Callback

/-- The callbacks for the messages of the peer. -/
def IsMessage : Callback → Prop
  | onText _ | onBinary _ => True
  | onConnect _ | onError _ | onClose _ => False

abbrev Reply : Callback → Type
  | onConnect _ | onText _ | onBinary _ => Except HttpException Unit
  | onError _ | onClose _ => Unit

/-- The error a callback has returned. -/
def failure : (callback : Callback) → callback.Reply → Option HttpException
  | onConnect _, .error e | onText _, .error e | onBinary _, .error e => some e
  | _, _ => none

end Callback

/-- The error of a handler. -/
def failed : Except HttpException Unit → Option HttpException
  | .ok () => none
  | .error e => some e

theorem failure_onConnect (request : WebSocketRequest) (reply : Except HttpException Unit) :
    Callback.failure (.onConnect request) reply = failed reply := by
  cases reply <;> rfl

theorem failure_onText (text : String) (reply : Except HttpException Unit) :
    Callback.failure (.onText text) reply = failed reply := by
  cases reply <;> rfl

theorem failure_onBinary (data : Bytes) (reply : Except HttpException Unit) :
    Callback.failure (.onBinary data) reply = failed reply := by
  cases reply <;> rfl

/-! ## Connections -/

/-- What the task of a connection does with its session and its gateway. -/
inductive ConnectionCall where
  | session (c : SessionCall)
  | takeLocalCloseFrame
  /-- `open.store(false)`. -/
  | storeClosed
  | callback (c : Callback)

abbrev ConnectionCall.Reply : ConnectionCall → Type
  | session c => c.Reply
  | takeLocalCloseFrame => Option WebSocketCloseFrame
  | storeClosed => Unit
  | callback c => c.Reply

/-- Who calls a session: the task of the connection, or a callback or another task. -/
inductive Caller where
  | task
  | other
  deriving DecidableEq

/-- A call of `WebSocketSession::close`, with the link it found. -/
structure CloseRequest (τ : Type) where
  caller : Caller
  frame : Option WebSocketCloseFrame
  link : Link τ
  deriving DecidableEq

/-- A callback, with the link it found, the calls of `close` before it, what `is_open` had
told the task since the callback before it, and the error it returned. -/
structure Invocation (τ : Type) where
  callback : Callback
  link : Link τ
  requests : List (CloseRequest τ)
  found : Option Bool
  error : Option HttpException
  deriving DecidableEq

/-- A session, with a record of the calls of `close`, of the callbacks so far, and of what
`is_open` has told the task since the last one. -/
structure Connection (τ : Type) where
  session : WebSocketSession τ
  requests : List (CloseRequest τ)
  found : Option Bool
  invocations : List (Invocation τ)
  deriving DecidableEq

namespace Connection

variable {τ : Type} (transport : WebSocketTransport τ)

/-- An upgraded connection, before its first callback. -/
def new (state : τ) : Connection τ where
  session := .new state
  requests := []
  found := none
  invocations := []

/-- A call of the session. -/
def act (caller : Caller) (c : SessionCall) (s : Connection τ) : c.Reply × Connection τ :=
  let (reply, session) := s.session.act transport c
  (reply, { s with
    session
    requests := match c with
      | .close frame => s.requests ++ [⟨caller, frame, s.session.toLink⟩]
      | _ => s.requests
    found := match caller, c with
      | .task, .isOpen => some s.session.isOpen
      | _, _ => s.found })

def takeLocalCloseFrame (s : Connection τ) : Option WebSocketCloseFrame × Connection τ :=
  let (frame, session) := s.session.takeLocalCloseFrame
  (frame, { s with session })

def storeClosed (s : Connection τ) : Connection τ :=
  { s with session.isOpen := false }

def invoke (c : Callback) (reply : c.Reply) (s : Connection τ) : Connection τ :=
  { s with
    found := none
    invocations :=
      s.invocations ++ [⟨c, s.session.toLink, s.requests, s.found, c.failure reply⟩] }

/-- The callbacks so far. -/
def callbacks (s : Connection τ) : List Callback := s.invocations.map (·.callback)

end Connection

section Environment

variable {τ : Type} (transport : WebSocketTransport τ) (drift : τ → τ → Prop)

/-- What happens beside the task of a connection: a callback or another task calls the
session, or the state of the transport drifts. -/
inductive ConnectionChange : Connection τ → Connection τ → Prop
  | act (s : Connection τ) (c : SessionCall) : ConnectionChange s (s.act transport .other c).2
  | drift (s : Connection τ) {state : τ} (h : drift s.session.transport state) :
    ConnectionChange s { s with session.transport := state }

inductive ConnectionEffect : Connection τ → (c : ConnectionCall) → Connection τ → c.Reply → Prop
  | session (s : Connection τ) (c : SessionCall) :
    ConnectionEffect s (.session c) (s.act transport .task c).2 (s.act transport .task c).1
  | take (s : Connection τ) :
    ConnectionEffect s .takeLocalCloseFrame s.takeLocalCloseFrame.2 s.takeLocalCloseFrame.1
  | storeClosed (s : Connection τ) : ConnectionEffect s .storeClosed s.storeClosed ()
  | callback (s : Connection τ) (c : Callback) (reply : c.Reply) :
    ConnectionEffect s (.callback c) (s.invoke c reply) reply

def connectionEnvironment : Environment (Connection τ) ConnectionCall ConnectionCall.Reply where
  change := ConnectionChange transport drift
  execute := ConnectionEffect transport

end Environment

end Caelix
