import Caelix.Lib.Drive
import Caelix.WebSocket.Axum

/-!
# The callbacks of both adapters

A gateway that is run on both adapters, with the same events, sees the same callbacks when
the connection ends in a way that both adapters report alike.

* `GatewayModel`: what a gateway does with its session in each callback.
* `LogicalEvent`: what happens on a connection, for either adapter.
* `idealRun`: the callbacks up to the end of a connection on a transport that never fails,
  and how it ends.
* `actix_adapter`, `axum_adapter`: what each adapter makes of that.
* `callbacks_agree_when`: when both make the same of it.

The libraries below the adapters are not part of the repository: the texts of their errors
and what `tungstenite` makes of the code of a Close frame are parameters.
-/

namespace Caelix

open Interaction ConnectionTask Proc

/-! ## Gateways -/

/-- A gateway with a state of its own: the calls of the session that a callback makes, one
after the reply to the other, and what it returns. -/
structure GatewayModel (γ : Type) where
  handle : γ → (c : Callback) → Proc SessionCall SessionCall.Reply (γ × c.Reply)

/-- A connection and its gateway. -/
structure Hosted (γ τ : Type) where
  gateway : γ
  connection : Connection τ

/-- The task has been told whether its session is open. -/
def Hosted.told {γ τ : Type} (h : Hosted γ τ) : Hosted γ τ :=
  { h with connection.found := some h.connection.session.isOpen }

section Host

variable {γ τ : Type} (gateway : GatewayModel γ) (transport : WebSocketTransport τ)

/-- A session answers the calls of a callback. -/
def sessionAnswers : Answers (Connection τ) SessionCall SessionCall.Reply :=
  fun s c => s.act transport .other c

/-- A callback is made: the gateway calls the session, and returns. -/
def callGateway (c : Callback) (h : Hosted γ τ) : c.Reply × Hosted γ τ :=
  let ((gateway, reply), connection) :=
    (gateway.handle h.gateway c).drive (sessionAnswers transport) h.connection
  (reply, {
    gateway
    connection := { connection with
      found := none
      invocations := h.connection.invocations ++ [⟨c, h.connection.session.toLink,
        h.connection.requests, h.connection.found, c.failure reply⟩] } })

def hostAnswers : Answers (Hosted γ τ) ConnectionCall ConnectionCall.Reply
  | h, .session c =>
    let (reply, connection) := h.connection.act transport .task c
    (reply, { h with connection })
  | h, .takeLocalCloseFrame =>
    let (frame, connection) := h.connection.takeLocalCloseFrame
    (frame, { h with connection })
  | h, .storeClosed => ((), { h with connection := h.connection.storeClosed })
  | h, .callback c => callGateway gateway transport c h

/-- The callbacks of a run, from an upgraded connection on. -/
def callbacksOf (p : Proc ConnectionCall ConnectionCall.Reply Unit) (g : γ) (state : τ) :
    List Callback :=
  (p.drive (hostAnswers gateway transport) ⟨g, .new state⟩).2.connection.callbacks

end Host

/-! ## Events -/

/-- A complete message. -/
inductive MessageBody where
  | text (text : String)
  | binary (data : Bytes)
  deriving DecidableEq

def MessageBody.callback : MessageBody → Callback
  | text s => .onText s
  | binary data => .onBinary data

/-- The texts that both transports display for an error. -/
structure ErrorTexts where
  actix : String
  axum : String
  deriving DecidableEq

/-- What `tungstenite` hands on of a Close frame: one with a code that may be received as it
is, another one as a violation of the protocol. -/
structure ReportsCodes (allowed : UInt16 → Bool) (report : AxumCloseFrame → AxumCloseFrame) :
    Prop where
  kept : ∀ frame, allowed frame.code = true → report frame = frame
  replaced : ∀ frame, allowed frame.code = false → (report frame).code = 1002
  protocol : allowed 1002 = true

/-- What happens on a connection, but for what the gateway does. -/
inductive LogicalEvent where
  | message (body : MessageBody)
  | ping (data : Bytes)
  /-- The peer closes, with a code and a reason or without a frame. -/
  | peerClose (frame : Option AxumCloseFrame)
  | transportError (kind : ProtocolErrorKind) (texts : ErrorTexts)
  deriving DecidableEq

namespace LogicalEvent

/-- The item of the Actix stream. -/
def toActix : LogicalEvent → Except ProtocolError Message
  | message (.text text) => .ok (.text text)
  | message (.binary data) => .ok (.binary data)
  | ping data => .ok (.ping data)
  | peerClose frame => .ok (.close (frame.map fun frame => ⟨frame.code, some frame.reason⟩))
  | transportError kind texts => .error ⟨kind, texts.actix⟩

/-- The item of the Axum receiver. -/
def toAxum (report : AxumCloseFrame → AxumCloseFrame) : LogicalEvent → Except String AxumMessage
  | message (.text text) => .ok (.text text)
  | message (.binary data) => .ok (.binary data)
  | ping data => .ok (.ping data)
  | peerClose frame => .ok (.close (frame.map report))
  | transportError _ texts => .error texts.axum

end LogicalEvent

/-- The items of the Actix stream: a connection that nothing ends is lost at last, which the
payload reports as an error. -/
def actixItems (events : List LogicalEvent) (lost : ErrorTexts) :
    List (Except ProtocolError Message) :=
  (events ++ [LogicalEvent.transportError .other lost]).map LogicalEvent.toActix

/-- The items of the Axum receiver: it reports a reset without a closing handshake. -/
def axumItems (report : AxumCloseFrame → AxumCloseFrame) (events : List LogicalEvent)
    (lost : ErrorTexts) : List (Except String AxumMessage) :=
  (events ++ [LogicalEvent.transportError .other lost]).map (LogicalEvent.toAxum report)

/-! ## A transport that never fails -/

/-- Every message is sent; a close clears the flag. -/
def idealTransport : WebSocketTransport Unit where
  sendText _ link := (.ok (), link)
  sendBinary _ link := (.ok (), link)
  ping _ link := (.ok (), link)
  pong _ link := (.ok (), link)
  close _ link := (.ok (), { link with isOpen := false })

def idealAnswers : Answers (WebSocketSession Unit) SessionCall SessionCall.Reply :=
  fun s c => s.act idealTransport c

/-- How a connection ends. -/
inductive Ending where
  | handlerError (error : HttpException)
  | closedByGateway (frame : Option WebSocketCloseFrame)
  | peerClose (frame : Option AxumCloseFrame)
  | transportError (kind : ProtocolErrorKind) (texts : ErrorTexts)
  deriving DecidableEq

namespace Ending

/-- The last callbacks on Actix. -/
def Actix : Ending → List Callback → Prop
  | handlerError error, l =>
    l = [.onError ⟨error.message⟩, .onClose (some ⟨.internal, "handler failed"⟩)]
  | closedByGateway frame, l => l = [.onClose frame]
  | peerClose none, l => l = [.onClose none]
  | peerClose (some frame), l =>
    match fromAxumClose frame with
    | some frame => l = [.onClose (some frame)]
    | none => l = [.onError ⟨"invalid websocket close code"⟩,
        .onClose (some ⟨.protocol, "invalid websocket close code"⟩)]
  | transportError kind texts, l => l = [.onError ⟨texts.actix⟩,
      .onClose (some ⟨protocolCloseCode ⟨kind, texts.actix⟩, "invalid websocket frame"⟩)]

/-- The last callbacks on Axum. -/
def Axum (report : AxumCloseFrame → AxumCloseFrame) : Ending → List Callback → Prop
  | handlerError error, l =>
    l = [.onError ⟨error.message⟩, .onClose (some ⟨.internal, "handler failed"⟩)]
  | closedByGateway _, l => l = [.onClose none]
  | peerClose frame, l => l = [.onClose ((frame.map report).bind fromAxumClose)]
  | transportError _ texts, l =>
    l = [.onError ⟨texts.axum⟩, .onClose (some ⟨.protocol, "invalid websocket frame"⟩)]

/-- The endings that both adapters report alike: a handler that fails, a close of the gateway
without a frame, a close of the peer without a frame or with a code that both libraries let
pass, and a malformed frame for which both have the same text. -/
def Alike (allowed : UInt16 → Bool) : Ending → Prop
  | handlerError _ => True
  | closedByGateway frame => frame = none
  | peerClose frame => ∀ f, frame = some f →
      (WebSocketCloseCode.fromU16 f.code).isSome = true ∧ allowed f.code = true
  | transportError kind texts => kind = .other ∧ texts.actix = texts.axum

variable {allowed : UInt16 → Bool} {report : AxumCloseFrame → AxumCloseFrame}

/-- A frame that `tungstenite` replaces is not reported with its own code. -/
theorem report_ne (hReports : ReportsCodes allowed report) {frame : AxumCloseFrame}
    {code : WebSocketCloseCode} {reason : String}
    (hCode : WebSocketCloseCode.fromU16 frame.code = some code)
    (hAllowed : allowed frame.code = false) :
    some (⟨code, reason⟩ : WebSocketCloseFrame) ≠ fromAxumClose (report frame) := by
  intro hSame
  have hProtocol : fromAxumClose (report frame) = some ⟨.protocol, (report frame).reason⟩ := by
    simp only [fromAxumClose, hReports.replaced frame hAllowed]
    rfl
  obtain ⟨rfl, -⟩ := WebSocketCloseFrame.mk.inj (Option.some.inj (hSame.trans hProtocol))
  have hSent : frame.code = 1002 := (WebSocketCloseCode.asU16_of_fromU16 hCode).symm
  rw [hSent, hReports.protocol] at hAllowed
  cases hAllowed

theorem eq_iff_alike (hReports : ReportsCodes allowed report) {ending : Ending}
    {l l' : List Callback} (h : ending.Actix l) (h' : ending.Axum report l') :
    l = l' ↔ ending.Alike allowed := by
  cases ending with
  | handlerError error =>
    obtain rfl : l = _ := h
    obtain rfl : l' = _ := h'
    simp [Alike]
  | closedByGateway frame =>
    obtain rfl : l = _ := h
    obtain rfl : l' = _ := h'
    simp [Alike]
  | peerClose frame =>
    obtain rfl : l' = _ := h'
    cases frame with
    | none =>
      obtain rfl : l = _ := h
      simp [Alike]
    | some frame =>
      cases hCode : WebSocketCloseCode.fromU16 frame.code with
      | none =>
        have hFrame : fromAxumClose frame = none := by simp [fromAxumClose, hCode]
        rw [Actix, hFrame] at h
        simp [h, hCode, Alike]
      | some code =>
        have hFrame : fromAxumClose frame = some ⟨code, frame.reason⟩ := by
          simp [fromAxumClose, hCode]
        rw [Actix, hFrame] at h
        cases hAllowed : allowed frame.code with
        | true => simp [h, hReports.kept frame hAllowed, hFrame, hCode, hAllowed, Alike]
        | false =>
          have hNe : some (⟨code, frame.reason⟩ : WebSocketCloseFrame) ≠
              fromAxumClose (report frame) := report_ne hReports hCode hAllowed
          simp [h, hNe, hAllowed, Alike]
  | transportError kind texts =>
    obtain rfl : l = _ := h
    obtain rfl : l' = _ := h'
    cases kind <;> simp [Alike, protocolCloseCode]

end Ending

section Ideal

variable {γ : Type} (gateway : GatewayModel γ) (lost : ErrorTexts)

/-- The callbacks between `on_connect` and the end of a connection, and how it ends. -/
def idealRun : γ → WebSocketSession Unit → List LogicalEvent → List Callback × Ending
  | _, s, [] =>
    if s.isOpen then ([], .transportError .other lost) else ([], .closedByGateway s.closeFrame)
  | g, s, event :: events =>
    if s.isOpen then
      match event with
      | .message body =>
        let ((g', reply), s') := (gateway.handle g body.callback).drive idealAnswers s
        match body.callback.failure reply with
        | some error => ([body.callback], .handlerError error)
        | none =>
          let (callbacks, ending) := idealRun g' s' events
          (body.callback :: callbacks, ending)
      | .ping _ => idealRun g s events
      | .peerClose frame => ([], .peerClose frame)
      | .transportError kind texts => ([], .transportError kind texts)
    else ([], .closedByGateway s.closeFrame)

/-- A call to which all transports reply alike, as long as the peer is there: a close is the
first one, and its code may be sent. -/
def SteadyCall (s : WebSocketSession Unit) (c : SessionCall) : Prop :=
  ∀ frame, c = .close frame → s.isOpen = true ∧ Accepted frame

/-- The messages of a run are handled with such calls only. -/
def SteadyRun : γ → WebSocketSession Unit → List LogicalEvent → Prop
  | g, s, .message body :: events => s.isOpen = true →
    (gateway.handle g body.callback).Keeps idealAnswers SteadyCall s ∧
      let ((g', reply), s') := (gateway.handle g body.callback).drive idealAnswers s
      body.callback.failure reply = none → SteadyRun g' s' events
  | g, s, .ping _ :: events => SteadyRun g s events
  | _, _, _ => True

end Ideal

/-! ## Transports that follow the ideal one -/

section Follow

variable {γ τ : Type} {gateway : GatewayModel γ} {transport : WebSocketTransport τ}

/-- A relation to the sessions of a transport that the steady calls keep. -/
def FollowsIdeal (transport : WebSocketTransport τ)
    (On : WebSocketSession Unit → WebSocketSession τ → Prop) : Prop :=
  ∀ s t c, On s t → SteadyCall s c →
    (idealAnswers s c).1 = (t.act transport c).1 ∧ On (idealAnswers s c).2 (t.act transport c).2

/-- A host whose gateway and session are at some point of the ideal run. -/
structure At (On : WebSocketSession Unit → WebSocketSession τ → Prop) (g : γ)
    (s : WebSocketSession Unit) (log : List Callback) (h : Hosted γ τ) : Prop where
  gateway_eq : h.gateway = g
  on : On s h.connection.session
  callbacks_eq : h.connection.callbacks = log

variable {On : WebSocketSession Unit → WebSocketSession τ → Prop} {g : γ}
  {s : WebSocketSession Unit} {log : List Callback} {h : Hosted γ τ}

theorem At.told (hAt : At On g s log h) : At On g s log h.told :=
  ⟨hAt.gateway_eq, hAt.on, hAt.callbacks_eq⟩

theorem callGateway_callbacks (gateway : GatewayModel γ) (transport : WebSocketTransport τ)
    (c : Callback) (h : Hosted γ τ) :
    (callGateway gateway transport c h).2.connection.callbacks = h.connection.callbacks ++ [c] := by
  simp [callGateway, Connection.callbacks]

theorem At.callGateway (hAt : At On g s log h) (hFollows : FollowsIdeal transport On) (c : Callback)
    (hKeeps : (gateway.handle g c).Keeps idealAnswers SteadyCall s) :
    (callGateway gateway transport c h).1 =
        ((gateway.handle g c).drive idealAnswers s).1.2 ∧
      At On ((gateway.handle g c).drive idealAnswers s).1.1
        ((gateway.handle g c).drive idealAnswers s).2 (log ++ [c])
        (callGateway gateway transport c h).2 := by
  obtain ⟨rfl, hOn, rfl⟩ := hAt
  have hStep (s : WebSocketSession Unit) (t : Connection τ) (c : SessionCall)
      (hOn : On s t.session) (hSteady : SteadyCall s c) :
      (idealAnswers s c).1 = (sessionAnswers transport t c).1 ∧
        On (idealAnswers s c).2 (sessionAnswers transport t c).2.session :=
    hFollows s t.session c hOn hSteady
  obtain ⟨hResult, hRelated⟩ := drive_sim (R := fun s (t : Connection τ) => On s t.session) hStep hKeeps hOn
  refine ⟨(congrArg Prod.snd hResult).symm, (congrArg Prod.fst hResult).symm, hRelated,
    callGateway_callbacks gateway transport c h⟩

end Follow

/-! ## The parts that both tasks share -/

section Shared

variable {γ τ : Type} {gateway : GatewayModel γ} {transport : WebSocketTransport τ}
  {h : Hosted γ τ} {α : Type}

theorem isOpen_drive (f : Bool → ConnectionTask α) (h : Hosted γ τ) :
    (isOpen >>= f).run.drive (hostAnswers gateway transport) h =
      (f h.connection.session.isOpen).run.drive (hostAnswers gateway transport) h.told := rfl

theorem callback_drive (c : Callback) (f : c.Reply → ConnectionTask α) (h : Hosted γ τ) :
    (Proc.ask (ConnectionCall.callback c) >>= f : ConnectionTask α).run.drive
        (hostAnswers gateway transport) h =
      (f (callGateway gateway transport c h).1).run.drive (hostAnswers gateway transport)
        (callGateway gateway transport c h).2 := rfl

theorem session_drive (c : SessionCall) (f : c.Reply → ConnectionTask α) (h : Hosted γ τ) :
    (Proc.ask (ConnectionCall.session c) >>= f : ConnectionTask α).run.drive
        (hostAnswers gateway transport) h =
      (f (h.connection.act transport .task c).1).run.drive (hostAnswers gateway transport)
        { h with connection := (h.connection.act transport .task c).2 } := rfl

/-- An error is reported and the loop is left: whatever the gateway does meanwhile, it has
seen one callback more. -/
theorem report_drive (gateway : GatewayModel γ) (transport : WebSocketTransport τ)
    (message : String) (frame : WebSocketCloseFrame) (h : Hosted γ τ) :
    ∃ h', (reportAndClose message frame >>= fun frame => throw (some frame) :
        ConnectionTask α).run.drive (hostAnswers gateway transport) h = (.error (some frame), h') ∧
      h'.connection.callbacks = h.connection.callbacks ++ [.onError ⟨message⟩] := by
  refine ⟨_, rfl, ?_⟩
  exact callGateway_callbacks gateway transport (.onError ⟨message⟩) h

/-- The rest of a loop after a message. -/
theorem handled_drive (rest : ConnectionTask α) (reply : Except HttpException Unit)
    (h : Hosted γ τ) :
    (failed reply = none ∧
      (handled reply >>= fun _ => rest).run.drive (hostAnswers gateway transport) h =
        rest.run.drive (hostAnswers gateway transport) h) ∨
    ∃ e h', failed reply = some e ∧
      (handled reply >>= fun _ => rest).run.drive (hostAnswers gateway transport) h =
        (.error (some ⟨.internal, "handler failed"⟩), h') ∧
      h'.connection.callbacks = h.connection.callbacks ++ [.onError ⟨e.message⟩] := by
  cases reply with
  | ok _ => exact .inl ⟨rfl, rfl⟩
  | error e =>
    refine .inr ⟨e, _, rfl, rfl, ?_⟩
    exact callGateway_callbacks gateway transport (.onError ⟨e.message⟩) h

variable {On : WebSocketSession Unit → WebSocketSession τ → Prop} {g : γ}
  {s : WebSocketSession Unit} {log : List Callback}

/-- A message is delivered: the loop goes on with `rest`, or the handler has failed. -/
theorem message_drive (hAt : At On g s log h) (hFollows : FollowsIdeal transport On) (c : Callback)
    (hKeeps : (gateway.handle g c).Keeps idealAnswers SteadyCall s)
    (reply : c.Reply → Except HttpException Unit) (hFailure : ∀ r, c.failure r = failed (reply r))
    (rest : ConnectionTask α) :
    (c.failure ((gateway.handle g c).drive idealAnswers s).1.2 = none ∧
      ∃ h', (Proc.ask (ConnectionCall.callback c) >>= fun r => handled (reply r) >>= fun _ => rest :
            ConnectionTask α).run.drive (hostAnswers gateway transport) h =
          rest.run.drive (hostAnswers gateway transport) h' ∧
        At On ((gateway.handle g c).drive idealAnswers s).1.1
          ((gateway.handle g c).drive idealAnswers s).2 (log ++ [c]) h') ∨
    ∃ e h', c.failure ((gateway.handle g c).drive idealAnswers s).1.2 = some e ∧
      (Proc.ask (ConnectionCall.callback c) >>= fun r => handled (reply r) >>= fun _ => rest :
          ConnectionTask α).run.drive (hostAnswers gateway transport) h =
        (.error (some ⟨.internal, "handler failed"⟩), h') ∧
      h'.connection.callbacks = log ++ [c] ++ [.onError ⟨e.message⟩] := by
  obtain ⟨hReply, hNext⟩ := hAt.callGateway hFollows c hKeeps
  rw [callback_drive, hFailure, ← hReply, ← hNext.callbacks_eq]
  rcases handled_drive rest (reply (callGateway gateway transport c h).1)
    (callGateway gateway transport c h).2 with ⟨hOk, hRest⟩ | ⟨e, h', hError, hLeft, hLog⟩
  · exact .inl ⟨hOk, _, hRest, ⟨hNext.gateway_eq, hNext.on, rfl⟩⟩
  · exact .inr ⟨e, h', hError, hLeft, hLog⟩

end Shared

/-! ## Adapters -/

/-- The task of an adapter in terms of logical events. -/
structure Adapter where
  loop : List LogicalEvent → ConnectionTask Unit
  conclude : Option WebSocketCloseFrame → Proc ConnectionCall ConnectionCall.Reply Unit
  /-- The last callbacks. -/
  ending : Ending → List Callback → Prop

section Adapters

variable {γ τ : Type} (adapter : Adapter) (gateway : GatewayModel γ)
  (transport : WebSocketTransport τ) (On : WebSocketSession Unit → WebSocketSession τ → Prop)
  (lost : ErrorTexts)

/-- The callbacks of a run when a part of its loop is left. -/
def Adapter.callbacks (x : ConnectionTask Unit) (h : Hosted γ τ) : List Callback :=
  let (r, h) := x.run.drive (hostAnswers gateway transport) h
  let closeFrame := match r with
    | .ok () => none
    | .error closeFrame => closeFrame
  ((adapter.conclude closeFrame).drive (hostAnswers gateway transport) h).2.connection.callbacks

/-- The callbacks of a connection that has ended. -/
def Adapter.Gives (log : List Callback) (ending : Ending) (l : List Callback) : Prop :=
  ∃ last, adapter.ending ending last ∧ l = log ++ last

/-- What an adapter does with each kind of event. -/
structure Adapter.Follows : Prop where
  follows : FollowsIdeal transport On
  closed : ∀ {g s log h} (events : List LogicalEvent), At On g s log h → s.isOpen = false →
    adapter.Gives log (.closedByGateway s.closeFrame)
      (adapter.callbacks gateway transport (adapter.loop events) h)
  lost : ∀ {g s log h}, At On g s log h → s.isOpen = true →
    adapter.Gives log (.transportError .other lost)
      (adapter.callbacks gateway transport (adapter.loop []) h)
  text : ∀ {g s log h} (text : String) (events : List LogicalEvent), At On g s log h →
    s.isOpen = true → (adapter.loop (.message (.text text) :: events)).run.drive
        (hostAnswers gateway transport) h =
      (onText text >>= fun r => handled r >>= fun _ => adapter.loop events).run.drive
        (hostAnswers gateway transport) h.told
  binary : ∀ {g s log h} (data : Bytes) (events : List LogicalEvent), At On g s log h →
    s.isOpen = true → (adapter.loop (.message (.binary data) :: events)).run.drive
        (hostAnswers gateway transport) h =
      (onBinary data >>= fun r => handled r >>= fun _ => adapter.loop events).run.drive
        (hostAnswers gateway transport) h.told
  ping : ∀ {g s log h} (data : Bytes) (events : List LogicalEvent), At On g s log h →
    s.isOpen = true → ∃ h', At On g s log h' ∧
      (adapter.loop (.ping data :: events)).run.drive (hostAnswers gateway transport) h =
        (adapter.loop events).run.drive (hostAnswers gateway transport) h'
  peerClose : ∀ {g s log h} (frame : Option AxumCloseFrame) (events : List LogicalEvent),
    At On g s log h → s.isOpen = true →
      adapter.Gives log (.peerClose frame)
        (adapter.callbacks gateway transport (adapter.loop (.peerClose frame :: events)) h)
  transportError : ∀ {g s log h} (kind : ProtocolErrorKind) (texts : ErrorTexts)
    (events : List LogicalEvent), At On g s log h → s.isOpen = true →
      adapter.Gives log (.transportError kind texts)
        (adapter.callbacks gateway transport (adapter.loop (.transportError kind texts :: events)) h)
  handlerError : ∀ {h : Hosted γ τ} (error : HttpException) (log : List Callback),
    h.connection.callbacks = log ++ [.onError ⟨error.message⟩] →
      adapter.Gives log (.handlerError error)
        ((adapter.conclude (some ⟨.internal, "handler failed"⟩)).drive
          (hostAnswers gateway transport) h).2.connection.callbacks

variable {adapter gateway transport On lost}

variable {g : γ} {s : WebSocketSession Unit} {log : List Callback} {h : Hosted γ τ}

theorem Adapter.callbacks_congr {x y : ConnectionTask Unit} {h h' : Hosted γ τ}
    (hDrive : x.run.drive (hostAnswers gateway transport) h =
      y.run.drive (hostAnswers gateway transport) h') :
    adapter.callbacks gateway transport x h = adapter.callbacks gateway transport y h' := by
  unfold Adapter.callbacks
  rw [hDrive]

theorem Adapter.callbacks_ok {x : ConnectionTask Unit} {h h' : Hosted γ τ}
    (hDrive : x.run.drive (hostAnswers gateway transport) h = (.ok (), h')) :
    adapter.callbacks gateway transport x h =
      ((adapter.conclude none).drive (hostAnswers gateway transport) h').2.connection.callbacks := by
  unfold Adapter.callbacks
  rw [hDrive]

theorem Adapter.callbacks_error {x : ConnectionTask Unit} {h h' : Hosted γ τ}
    {frame : Option WebSocketCloseFrame}
    (hDrive : x.run.drive (hostAnswers gateway transport) h = (.error frame, h')) :
    adapter.callbacks gateway transport x h =
      ((adapter.conclude frame).drive (hostAnswers gateway transport) h').2.connection.callbacks := by
  unfold Adapter.callbacks
  rw [hDrive]

/-- A run that ends with the part of the adapter that concludes it. -/
theorem Adapter.callbacks_of_run (adapter : Adapter) (x : ConnectionTask Unit) (h : Hosted γ τ) :
    ((x.run >>= fun r =>
        match r with
        | .ok () => adapter.conclude none
        | .error closeFrame => adapter.conclude closeFrame).drive
      (hostAnswers gateway transport) h).2.connection.callbacks =
        adapter.callbacks gateway transport x h := by
  rw [drive_bind]
  unfold Adapter.callbacks
  obtain ⟨r, h'⟩ := x.run.drive (hostAnswers gateway transport) h
  cases r <;> rfl

/-- A handler of a message, and the loop after it. -/
theorem Adapter.Follows.message (hFollows : adapter.Follows gateway transport On lost)
    (hAt : At On g s log h) (c : Callback)
    (hKeeps : (gateway.handle g c).Keeps idealAnswers SteadyCall s)
    (reply : c.Reply → Except HttpException Unit) (hFailure : ∀ r, c.failure r = failed (reply r))
    (events : List LogicalEvent) {callbacks : List Callback} {ending : Ending}
    (hRest : ∀ h', c.failure ((gateway.handle g c).drive idealAnswers s).1.2 = none →
      At On ((gateway.handle g c).drive idealAnswers s).1.1
        ((gateway.handle g c).drive idealAnswers s).2 (log ++ [c]) h' →
      adapter.Gives (log ++ [c] ++ callbacks) ending
        (adapter.callbacks gateway transport (adapter.loop events) h')) :
    let run := match c.failure ((gateway.handle g c).drive idealAnswers s).1.2 with
      | some error => ([c], Ending.handlerError error)
      | none => (c :: callbacks, ending)
    adapter.Gives (log ++ run.1) run.2 (adapter.callbacks gateway transport
      (Proc.ask (ConnectionCall.callback c) >>= fun r =>
        handled (reply r) >>= fun _ => adapter.loop events) h) := by
  rcases message_drive hAt hFollows.follows c hKeeps reply hFailure (adapter.loop events) with
    ⟨hOk, h', hDrive, hNext⟩ | ⟨e, h', hError, hDrive, hLog⟩
  · have hGives := hRest h' hOk hNext
    rw [List.append_assoc, List.singleton_append] at hGives
    rw [hOk, callbacks_congr hDrive]
    exact hGives
  · rw [hError, callbacks_error hDrive]
    exact hFollows.handlerError e _ hLog

theorem idealRun_message (hOpen : s.isOpen = true) (body : MessageBody)
    (events : List LogicalEvent) :
    idealRun gateway lost g s (.message body :: events) =
      match body.callback.failure ((gateway.handle g body.callback).drive idealAnswers s).1.2 with
      | some error => ([body.callback], .handlerError error)
      | none =>
        let rest := idealRun gateway lost ((gateway.handle g body.callback).drive idealAnswers s).1.1
          ((gateway.handle g body.callback).drive idealAnswers s).2 events
        (body.callback :: rest.1, rest.2) := by
  rw [idealRun, if_pos hOpen]

theorem idealRun_closed (hOpen : s.isOpen = false) (events : List LogicalEvent) :
    idealRun gateway lost g s events = ([], .closedByGateway s.closeFrame) := by
  cases events <;> simp [idealRun, hOpen]

/-- The callbacks of a run are those of the ideal run, with the ending of the adapter. -/
theorem Adapter.Follows.run (hFollows : adapter.Follows gateway transport On lost)
    (events : List LogicalEvent) (hAt : At On g s log h) (hSteady : SteadyRun gateway g s events) :
    adapter.Gives (log ++ (idealRun gateway lost g s events).1) (idealRun gateway lost g s events).2
      (adapter.callbacks gateway transport (adapter.loop events) h) := by
  induction events generalizing g s log h with
  | nil =>
    cases hOpen : s.isOpen with
    | false =>
      rw [idealRun_closed hOpen, List.append_nil]
      exact hFollows.closed [] hAt hOpen
    | true =>
      rw [idealRun, if_pos hOpen, List.append_nil]
      exact hFollows.lost hAt hOpen
  | cons event events ih =>
    cases hOpen : s.isOpen with
    | false =>
      rw [idealRun_closed hOpen, List.append_nil]
      exact hFollows.closed (event :: events) hAt hOpen
    | true =>
      cases event with
      | message body =>
        obtain ⟨hKeeps, hLater⟩ := hSteady hOpen
        have hRest (h' : Hosted γ τ)
            (hOk : body.callback.failure
              ((gateway.handle g body.callback).drive idealAnswers s).1.2 = none)
            (hNext : At On ((gateway.handle g body.callback).drive idealAnswers s).1.1
              ((gateway.handle g body.callback).drive idealAnswers s).2 (log ++ [body.callback]) h') :=
          ih hNext (hLater hOk)
        rw [idealRun_message hOpen]
        cases body with
        | text text =>
          rw [callbacks_congr (hFollows.text text events hAt hOpen)]
          exact hFollows.message hAt.told (.onText text) hKeeps id (failure_onText text) events hRest
        | binary data =>
          rw [callbacks_congr (hFollows.binary data events hAt hOpen)]
          exact hFollows.message hAt.told (.onBinary data) hKeeps id (failure_onBinary data) events hRest
      | ping data =>
        obtain ⟨h', hNext, hDrive⟩ := hFollows.ping data events hAt hOpen
        rw [callbacks_congr hDrive, idealRun, if_pos hOpen]
        exact ih hNext hSteady
      | peerClose frame =>
        rw [idealRun, if_pos hOpen, List.append_nil]
        exact hFollows.peerClose frame events hAt hOpen
      | transportError kind texts =>
        rw [idealRun, if_pos hOpen, List.append_nil]
        exact hFollows.transportError kind texts events hAt hOpen

end Adapters

/-! ## Actix -/

section OnActix

variable {γ : Type} {gateway : GatewayModel γ}

/-- A session on Actix whose peer is there. -/
structure OnActix (s : WebSocketSession Unit) (t : WebSocketSession ActixSession) : Prop where
  isOpen_eq : t.isOpen = s.isOpen
  closeFrame_eq : t.closeFrame = s.closeFrame
  receiving : t.transport.receiving = true
  closed : s.isOpen = true → t.transport.closed = false

theorem sendMessage_open {session : ActixSession} (hClosed : session.closed = false)
    (hReceiving : session.receiving = true) (message : Message) :
    session.sendMessage message = (true, { session with sent := session.sent ++ [message] }) := by
  unfold ActixSession.sendMessage ActixSession.sendMessageInner
  rw [if_neg (by simp [hClosed]), if_pos hReceiving]

theorem OnActix.whenOpen {s : WebSocketSession Unit} {t : WebSocketSession ActixSession}
    (h : OnActix s t) (message : Message) :
    (s.whenOpen fun link => (.ok (), link)).1 =
        (t.whenOpen (onActixSession (·.sendMessage message))).1 ∧
      OnActix (s.whenOpen fun link => (.ok (), link)).2
        (t.whenOpen (onActixSession (·.sendMessage message))).2 := by
  unfold WebSocketSession.whenOpen WebSocketSession.ensureOpen
  rw [h.isOpen_eq]
  cases hOpen : s.isOpen with
  | false => exact ⟨rfl, h⟩
  | true =>
    simp only [if_true, WebSocketSession.onLink, onActixSession,
      sendMessage_open (h.closed hOpen) h.receiving]
    exact ⟨trivial, ⟨h.isOpen_eq, h.closeFrame_eq, h.receiving, h.closed⟩⟩

theorem actix_follows : FollowsIdeal actixTransport OnActix := by
  intro s t c hOn hSteady
  cases c with
  | isOpen => exact ⟨hOn.isOpen_eq.symm, hOn⟩
  | sendText text => exact hOn.whenOpen (.text text)
  | sendBinary data => exact hOn.whenOpen (.binary data)
  | ping data => exact hOn.whenOpen (.ping _)
  | pong data => exact hOn.whenOpen (.pong _)
  | close frame =>
    obtain ⟨hOpen, hAccepted⟩ := hSteady frame rfl
    have hClose : (t.act actixTransport (.close frame)) =
        WebSocketSession.onLink { t with closeFrame := frame } (actixTransport.close frame) := rfl
    rw [hClose]
    unfold WebSocketSession.onLink
    rw [actixTransport_close, if_pos hAccepted]
    simp only [onActixSession, close_first (hOn.closed hOpen) hOn.receiving]
    exact ⟨rfl, ⟨rfl, rfl, rfl, nofun⟩⟩

def actixAdapter (maxSize : Nat) (lost : ErrorTexts) : Adapter where
  loop events := Actix.messageLoop maxSize (actixItems events lost)
  conclude := Actix.conclude
  ending := Ending.Actix

theorem messageLoop_cons (maxSize : Nat) (item : Except ProtocolError Message)
    (items : List (Except ProtocolError Message)) :
    Actix.messageLoop maxSize (item :: items) = isOpen >>= fun open' =>
      if open' then
        Actix.receive maxSize none item >>= fun slot => Actix.receiveAll maxSize slot items >>= fun _ =>
          isOpen >>= fun open' => if open' then Actix.streamEnd else pure ()
      else throw none := by
  simp only [Actix.messageLoop, Actix.receiveAll, bind_assoc]
  congr 1
  funext open'
  cases open' with
  | false => rfl
  | true => simp only [if_true, bind_assoc]

variable {g : γ} {s : WebSocketSession Unit} {log : List Callback} {h : Hosted γ ActixSession}

/-- An open connection takes its next item. -/
theorem messageLoop_open (maxSize : Nat) (hAt : At OnActix g s log h) (hOpen : s.isOpen = true)
    (item : Except ProtocolError Message) (items : List (Except ProtocolError Message)) :
    (Actix.messageLoop maxSize (item :: items)).run.drive (hostAnswers gateway actixTransport) h =
      (Actix.receive maxSize none item >>= fun slot => Actix.receiveAll maxSize slot items >>= fun _ =>
        isOpen >>= fun open' => if open' then Actix.streamEnd else pure ()).run.drive
          (hostAnswers gateway actixTransport) h.told := by
  rw [messageLoop_cons, isOpen_drive, hAt.on.isOpen_eq, hOpen, if_pos rfl]

theorem actix_conclude (frame : Option WebSocketCloseFrame) (h : Hosted γ ActixSession) :
    ((Actix.conclude frame).drive (hostAnswers gateway actixTransport) h).2.connection.callbacks =
      h.connection.callbacks ++ [.onClose (frame.or h.connection.session.closeFrame)] := by
  cases frame with
  | some frame =>
    exact callGateway_callbacks gateway actixTransport (.onClose (some frame))
      { h with connection := h.connection.storeClosed }
  | none =>
    exact callGateway_callbacks gateway actixTransport (.onClose h.connection.session.closeFrame)
      { h with connection := h.connection.takeLocalCloseFrame.2.storeClosed }

/-- The loop of a closed connection. -/
theorem messageLoop_closed (gateway : GatewayModel γ) (n maxSize : Nat) (lost : ErrorTexts)
    (hOpen : h.connection.session.isOpen = false) (items : List (Except ProtocolError Message)) :
    (actixAdapter n lost).callbacks gateway actixTransport (Actix.messageLoop maxSize items) h =
      h.connection.callbacks ++ [.onClose h.connection.session.closeFrame] := by
  cases items with
  | nil =>
    refine (Adapter.callbacks_ok ?_).trans (actix_conclude none h.told)
    change (isOpen >>= fun open' => if open' then Actix.streamEnd else pure ()).run.drive _ h = _
    rw [isOpen_drive, hOpen]
    rfl
  | cons item items =>
    have hDrive : (Actix.messageLoop maxSize (item :: items)).run.drive
        (hostAnswers gateway actixTransport) h = (.error none, h.told) := by
      rw [messageLoop_cons, isOpen_drive, hOpen]
      rfl
    exact (Adapter.callbacks_error hDrive).trans (actix_conclude none h.told)

/-- The loop is left from an open connection. -/
theorem messageLoop_left (maxSize : Nat) (hAt : At OnActix g s log h) (hOpen : s.isOpen = true)
    {item : Except ProtocolError Message} (items : List (Except ProtocolError Message))
    {frame : Option WebSocketCloseFrame} {h' : Hosted γ ActixSession}
    (hItem : (Actix.receive maxSize none item).run.drive (hostAnswers gateway actixTransport) h.told =
      (.error frame, h')) :
    (Actix.messageLoop maxSize (item :: items)).run.drive (hostAnswers gateway actixTransport) h =
      (.error frame, h') := by
  rw [messageLoop_open maxSize hAt hOpen, drive_bind_except, hItem]

/-- An event that ends the connection. -/
theorem actix_left (maxSize : Nat) (lost : ErrorTexts) (hAt : At OnActix g s log h)
    (hOpen : s.isOpen = true) {event : LogicalEvent} (items : List (Except ProtocolError Message))
    {frame : Option WebSocketCloseFrame} {h' : Hosted γ ActixSession}
    (hItem : (Actix.receive maxSize none event.toActix).run.drive
      (hostAnswers gateway actixTransport) h.told = (.error frame, h')) :
    (actixAdapter maxSize lost).callbacks gateway actixTransport
        (Actix.messageLoop maxSize (event.toActix :: items)) h =
      h'.connection.callbacks ++ [.onClose (frame.or h'.connection.session.closeFrame)] :=
  (Adapter.callbacks_error (messageLoop_left maxSize hAt hOpen _ hItem)).trans
    (actix_conclude frame h')

theorem actix_error (maxSize : Nat) (lost : ErrorTexts) (hAt : At OnActix g s log h)
    (hOpen : s.isOpen = true) (kind : ProtocolErrorKind) (texts : ErrorTexts)
    (items : List (Except ProtocolError Message)) :
    (actixAdapter maxSize lost).Gives log (.transportError kind texts)
      ((actixAdapter maxSize lost).callbacks gateway actixTransport (Actix.messageLoop maxSize
        ((LogicalEvent.transportError kind texts).toActix :: items)) h) := by
  refine ⟨_, rfl, (actix_left maxSize lost hAt hOpen items rfl).trans ?_⟩
  refine (congrArg (· ++ _)
    (callGateway_callbacks gateway actixTransport (.onError ⟨texts.actix⟩) h.told)).trans ?_
  rw [hAt.told.callbacks_eq, List.append_assoc]
  rfl

/-- A session that sends replies to a message with success. -/
theorem ideal_pong (hOpen : s.isOpen = true) (data : Bytes) :
    idealAnswers s (.pong data) = (.ok (), s) := by
  change s.whenOpen (idealTransport.pong data) = _
  unfold WebSocketSession.whenOpen WebSocketSession.ensureOpen
  rw [if_pos hOpen]
  rfl

theorem actix_adapter (maxSize : Nat) (lost : ErrorTexts) :
    (actixAdapter maxSize lost).Follows gateway actixTransport OnActix lost where
  follows := actix_follows
  closed := by
    intro g s log h events hAt hOpen
    have hClosed := messageLoop_closed gateway maxSize maxSize lost
      (hAt.on.isOpen_eq.trans hOpen) (actixItems events lost)
    refine ⟨_, rfl, hClosed.trans ?_⟩
    rw [hAt.callbacks_eq, hAt.on.closeFrame_eq]
  lost := by
    intro g s log h hAt hOpen
    exact actix_error maxSize lost hAt hOpen .other lost []
  text := by
    intro g s log h text events hAt hOpen
    refine (messageLoop_open maxSize hAt hOpen _ _).trans ?_
    simp only [LogicalEvent.toActix, Actix.receive, Option.isSome_none, Bool.false_eq_true, if_false,
      bind_assoc, pure_bind]
    rfl
  binary := by
    intro g s log h data events hAt hOpen
    refine (messageLoop_open maxSize hAt hOpen _ _).trans ?_
    simp only [LogicalEvent.toActix, Actix.receive, Option.isSome_none, Bool.false_eq_true, if_false,
      bind_assoc, pure_bind]
    rfl
  ping := by
    intro g s log h data events hAt hOpen
    obtain ⟨hReply, hOn⟩ := actix_follows s h.connection.session (.pong data) hAt.on nofun
    rw [ideal_pong hOpen] at hReply hOn
    have hOk : (h.told.connection.act actixTransport .task (.pong data)).1 = .ok () := hReply.symm
    refine ⟨{ h with connection := (h.told.connection.act actixTransport .task (.pong data)).2 },
      ⟨hAt.gateway_eq, hOn, hAt.callbacks_eq⟩, ?_⟩
    refine (messageLoop_open maxSize hAt hOpen _ _).trans ?_
    simp only [LogicalEvent.toActix, Actix.receive, bind_assoc]
    refine (session_drive (.pong data) _ h.told).trans ?_
    rw [hOk]
    rfl
  peerClose := by
    intro g s log h frame events hAt hOpen
    cases frame with
    | none =>
      refine ⟨_, rfl, (actix_left maxSize lost hAt hOpen _ rfl).trans ?_⟩
      exact congrArg (· ++ _) hAt.callbacks_eq
    | some frame =>
      have hSame : fromActixClose ⟨frame.code, some frame.reason⟩ = fromAxumClose frame := rfl
      change (actixAdapter maxSize lost).Gives log (.peerClose (some frame)) _
      cases hFrame : fromAxumClose frame with
      | some closeFrame =>
        rw [hFrame] at hSame
        have hItem : Actix.receive maxSize none (LogicalEvent.peerClose (some frame)).toActix =
            (close (some closeFrame) >>= fun _ => throw (some closeFrame)) := by
          rw [LogicalEvent.toActix, Option.map_some, Actix.receive, hSame]
        refine ⟨[.onClose (some closeFrame)], ?_, (actix_left maxSize lost hAt hOpen _
          (congrArg (fun x : ConnectionTask (Option Fragment) => x.run.drive _ h.told) hItem)).trans ?_⟩
        · simp only [actixAdapter, Ending.Actix, hFrame]
        · exact congrArg (· ++ _) hAt.callbacks_eq
      | none =>
        rw [hFrame] at hSame
        have hItem : Actix.receive maxSize none (LogicalEvent.peerClose (some frame)).toActix =
            violation .protocol "invalid websocket close code" := by
          rw [LogicalEvent.toActix, Option.map_some, Actix.receive, hSame]
        obtain ⟨h', hDrive, hLog⟩ := report_drive (α := Option Fragment) gateway actixTransport
          "invalid websocket close code" ⟨.protocol, "invalid websocket close code"⟩ h.told
        refine ⟨[.onError ⟨"invalid websocket close code"⟩,
          .onClose (some ⟨.protocol, "invalid websocket close code"⟩)], ?_,
          (actix_left maxSize lost hAt hOpen _ ((congrArg (fun x : ConnectionTask (Option Fragment) =>
            x.run.drive _ h.told) hItem).trans hDrive)).trans ?_⟩
        · simp only [actixAdapter, Ending.Actix, hFrame]
        · rw [hLog, hAt.told.callbacks_eq, List.append_assoc]
          rfl
  transportError := by
    intro g s log h kind texts events hAt hOpen
    exact actix_error maxSize lost hAt hOpen kind texts _
  handlerError := by
    intro h error log hLog
    refine ⟨_, rfl, ?_⟩
    refine (actix_conclude (some ⟨.internal, "handler failed"⟩) h).trans ?_
    rw [hLog, List.append_assoc]
    rfl

end OnActix

/-! ## Axum -/

section OnAxum

variable {γ : Type} {gateway : GatewayModel γ} {refuses : Refuses}

/-- A session on Axum: as long as it is open, no Close was sent. -/
structure OnAxum (s : WebSocketSession Unit) (t : WebSocketSession AxumSocket) : Prop where
  isOpen_eq : t.isOpen = s.isOpen
  sent : s.isOpen = true → ∀ frame, .close frame ∉ t.transport.sent

/-- The peer is there: a socket takes every message until it has taken a Close. -/
def TakesMessages (refuses : Refuses) : Prop :=
  ∀ sent message, (∀ frame, .close frame ∉ sent) → refuses sent message = none

theorem OnAxum.whenOpen (hTakes : TakesMessages refuses) {s : WebSocketSession Unit}
    {t : WebSocketSession AxumSocket} (h : OnAxum s t) {message : AxumMessage}
    (hMessage : ∀ frame, message ≠ .close frame) :
    (s.whenOpen fun link => (.ok (), link)).1 = (t.whenOpen (axumSend refuses message)).1 ∧
      OnAxum (s.whenOpen fun link => (.ok (), link)).2
        (t.whenOpen (axumSend refuses message)).2 := by
  unfold WebSocketSession.whenOpen WebSocketSession.ensureOpen
  rw [h.isOpen_eq]
  cases hOpen : s.isOpen with
  | false => exact ⟨rfl, h⟩
  | true =>
    have hTaken := hTakes t.transport.sent message (h.sent hOpen)
    simp only [if_true, WebSocketSession.onLink, axumSend, hTaken]
    refine ⟨trivial, h.isOpen_eq, ?_⟩
    intro _ frame hMem
    rcases List.mem_append.mp hMem with hMem | hMem
    · exact h.sent hOpen frame hMem
    · exact hMessage frame (List.mem_singleton.mp hMem).symm

theorem axum_follows (hTakes : TakesMessages refuses) :
    FollowsIdeal (axumTransport refuses) OnAxum := by
  intro s t c hOn hSteady
  cases c with
  | isOpen => exact ⟨hOn.isOpen_eq.symm, hOn⟩
  | sendText text => exact hOn.whenOpen hTakes nofun
  | sendBinary data => exact hOn.whenOpen hTakes nofun
  | ping data => exact hOn.whenOpen hTakes nofun
  | pong data => exact hOn.whenOpen hTakes nofun
  | close frame =>
    obtain ⟨hOpen, -⟩ := hSteady frame rfl
    have hTaken := hTakes t.transport.sent (.close (frame.map toAxumClose)) (hOn.sent hOpen)
    have hClose : t.act (axumTransport refuses) (.close frame) =
        WebSocketSession.onLink { t with closeFrame := frame }
          ((axumTransport refuses).close frame) := rfl
    rw [hClose]
    simp only [WebSocketSession.onLink, axumTransport, axumSend, hTaken]
    exact ⟨rfl, rfl, nofun⟩

def axumAdapter (report : AxumCloseFrame → AxumCloseFrame) (lost : ErrorTexts) : Adapter where
  loop events := Axum.messageLoop (axumItems report events lost)
  conclude := Axum.conclude
  ending := Ending.Axum report

variable {report : AxumCloseFrame → AxumCloseFrame} {lost : ErrorTexts} {g : γ}
  {s : WebSocketSession Unit} {log : List Callback} {h : Hosted γ AxumSocket}

theorem axum_open (hAt : At OnAxum g s log h) (hOpen : s.isOpen = true)
    (item : Except String AxumMessage) (items : List (Except String AxumMessage)) :
    (Axum.messageLoop (item :: items)).run.drive (hostAnswers gateway (axumTransport refuses)) h =
      (Axum.receive item >>= fun _ => Axum.messageLoop items).run.drive
        (hostAnswers gateway (axumTransport refuses)) h.told := by
  rw [Axum.messageLoop, isOpen_drive, hAt.on.isOpen_eq, hOpen, if_pos rfl]

/-- The loop of a closed connection. -/
theorem axum_closed (hAt : At OnAxum g s log h) (hOpen : s.isOpen = false)
    (items : List (Except String AxumMessage)) :
    (Axum.messageLoop items).run.drive (hostAnswers gateway (axumTransport refuses)) h =
      (.ok (), h.told) := by
  cases items with
  | nil => rfl
  | cons item items =>
    rw [Axum.messageLoop, isOpen_drive, hAt.on.isOpen_eq, hOpen]
    rfl

theorem axum_conclude (frame : Option WebSocketCloseFrame) (h : Hosted γ AxumSocket) :
    ((Axum.conclude frame).drive (hostAnswers gateway (axumTransport refuses)) h).2.connection.callbacks =
      h.connection.callbacks ++ [.onClose frame] :=
  callGateway_callbacks gateway (axumTransport refuses) (.onClose frame)
    { h with connection := h.connection.storeClosed }

/-- An event that ends the connection. -/
theorem axum_left (hAt : At OnAxum g s log h) (hOpen : s.isOpen = true)
    {item : Except String AxumMessage} (items : List (Except String AxumMessage))
    {frame : Option WebSocketCloseFrame} {h' : Hosted γ AxumSocket}
    (hItem : (Axum.receive item).run.drive (hostAnswers gateway (axumTransport refuses)) h.told =
      (.error frame, h')) :
    (axumAdapter report lost).callbacks gateway (axumTransport refuses)
        (Axum.messageLoop (item :: items)) h =
      h'.connection.callbacks ++ [.onClose frame] := by
  refine (Adapter.callbacks_error ((axum_open hAt hOpen _ _).trans ?_)).trans (axum_conclude frame h')
  rw [drive_bind_except, hItem]

theorem axum_error (hAt : At OnAxum g s log h) (hOpen : s.isOpen = true) (kind : ProtocolErrorKind)
    (texts : ErrorTexts) (items : List (Except String AxumMessage)) :
    (axumAdapter report lost).Gives log (.transportError kind texts)
      ((axumAdapter report lost).callbacks gateway (axumTransport refuses)
        (Axum.messageLoop (.error texts.axum :: items)) h) := by
  refine ⟨_, rfl, (axum_left hAt hOpen items rfl).trans ?_⟩
  refine (congrArg (· ++ _) (callGateway_callbacks gateway (axumTransport refuses)
    (.onError ⟨texts.axum⟩) h.told)).trans ?_
  rw [hAt.told.callbacks_eq, List.append_assoc]
  rfl

theorem axum_adapter (hTakes : TakesMessages refuses)
    (report : AxumCloseFrame → AxumCloseFrame) (lost : ErrorTexts) :
    (axumAdapter report lost).Follows gateway (axumTransport refuses) OnAxum lost where
  follows := axum_follows hTakes
  closed := by
    intro g s log h events hAt hOpen
    refine ⟨_, rfl, (Adapter.callbacks_ok (axum_closed hAt hOpen _)).trans
      ((axum_conclude none h.told).trans ?_)⟩
    rw [hAt.told.callbacks_eq]
  lost := by
    intro g s log h hAt hOpen
    exact axum_error hAt hOpen .other lost []
  text := by
    intro g s log h text events hAt hOpen
    refine (axum_open hAt hOpen _ _).trans ?_
    simp only [LogicalEvent.toAxum, Axum.receive, bind_assoc]
    rfl
  binary := by
    intro g s log h data events hAt hOpen
    refine (axum_open hAt hOpen _ _).trans ?_
    simp only [LogicalEvent.toAxum, Axum.receive, bind_assoc]
    rfl
  ping := by
    intro g s log h data events hAt hOpen
    obtain ⟨hReply, hOn⟩ := axum_follows hTakes s h.connection.session (.pong data) hAt.on nofun
    rw [ideal_pong hOpen] at hReply hOn
    have hOk : (h.told.connection.act (axumTransport refuses) .task (.pong data)).1 = .ok () :=
      hReply.symm
    refine ⟨{ h with
        connection := (h.told.connection.act (axumTransport refuses) .task (.pong data)).2 },
      ⟨hAt.gateway_eq, hOn, hAt.callbacks_eq⟩, ?_⟩
    refine (axum_open hAt hOpen _ _).trans ?_
    simp only [LogicalEvent.toAxum, Axum.receive, bind_assoc]
    refine (session_drive (.pong data) _ h.told).trans ?_
    rw [hOk]
    rfl
  peerClose := by
    intro g s log h frame events hAt hOpen
    refine ⟨_, rfl, (axum_left hAt hOpen _ rfl).trans ?_⟩
    exact congrArg (· ++ _) hAt.callbacks_eq
  transportError := by
    intro g s log h kind texts events hAt hOpen
    exact axum_error hAt hOpen kind texts _
  handlerError := by
    intro h error log hLog
    refine ⟨_, rfl, (axum_conclude (some ⟨.internal, "handler failed"⟩) h).trans ?_⟩
    rw [hLog, List.append_assoc]
    rfl

end OnAxum

/-! ## Both adapters -/

section Parity

variable {γ : Type} (gateway : GatewayModel γ)

/-- The callbacks on Actix. -/
def actixCallbacks (g : γ) (maxSize : Nat) (request : WebSocketRequest)
    (events : List LogicalEvent) (lost : ErrorTexts) : List Callback :=
  callbacksOf gateway actixTransport
    (Actix.runConnection maxSize request (actixItems events lost)) g .new

/-- The callbacks on Axum. -/
def axumCallbacks (refuses : Refuses) (report : AxumCloseFrame → AxumCloseFrame) (g : γ)
    (request : WebSocketRequest) (events : List LogicalEvent) (lost : ErrorTexts) : List Callback :=
  callbacksOf gateway (axumTransport refuses)
    (Axum.runConnection request (axumItems report events lost)) g ⟨[]⟩

/-- The callbacks before the end of a connection, and how it ends. -/
def idealConnection (g : γ) (request : WebSocketRequest) (events : List LogicalEvent)
    (lost : ErrorTexts) : List Callback × Ending :=
  let ((g', reply), s) := (gateway.handle g (.onConnect request)).drive idealAnswers (.new ())
  match Callback.failure (.onConnect request) reply with
  | some error => ([.onConnect request], .handlerError error)
  | none =>
    let (callbacks, ending) := idealRun gateway lost g' s events
    (.onConnect request :: callbacks, ending)

/-- The handlers of a run close the session at most once, and with a code that may be sent. -/
def SteadyConnection (g : γ) (request : WebSocketRequest) (events : List LogicalEvent) : Prop :=
  (gateway.handle g (.onConnect request)).Keeps idealAnswers SteadyCall (.new ()) ∧
    let ((g', reply), s) := (gateway.handle g (.onConnect request)).drive idealAnswers (.new ())
    Callback.failure (.onConnect request) reply = none → SteadyRun gateway g' s events

/-- A run that both adapters report alike: its handlers close the session at most once, and
with a code that may be sent, and so is its ending. -/
structure AlikeRun (allowed : UInt16 → Bool) (g : γ) (request : WebSocketRequest)
    (events : List LogicalEvent) (lost : ErrorTexts) : Prop where
  steady : SteadyConnection gateway g request events
  ending : (idealConnection gateway g request events lost).2.Alike allowed

variable {lost : ErrorTexts}

/-- The run of an adapter from its first callback on. -/
theorem Adapter.Follows.connection {τ : Type} {adapter : Adapter}
    {transport : WebSocketTransport τ} {On : WebSocketSession Unit → WebSocketSession τ → Prop}
    (hFollows : adapter.Follows gateway transport On lost) {state : τ}
    (hOn : On (.new ()) (.new state)) {g : γ} {request : WebSocketRequest}
    {events : List LogicalEvent} (hSteady : SteadyConnection gateway g request events) :
    adapter.Gives (idealConnection gateway g request events lost).1
      (idealConnection gateway g request events lost).2
      (adapter.callbacks gateway transport (onConnect request >>= fun reply =>
        handled reply >>= fun _ => adapter.loop events) ⟨g, .new state⟩) := by
  obtain ⟨hKeeps, hLater⟩ := hSteady
  have hAt : At On g (.new ()) [] (⟨g, .new state⟩ : Hosted γ τ) := ⟨rfl, hOn, rfl⟩
  exact hFollows.message hAt (.onConnect request) hKeeps id (failure_onConnect request) events
    fun h' hOk hNext => hFollows.run events hNext (hLater hOk)

variable {allowed : UInt16 → Bool} {report : AxumCloseFrame → AxumCloseFrame}

/-- Of the runs with steady handlers, those with an ending that is reported alike. -/
theorem callbacks_eq_iff {refuses : Refuses} (hTakes : TakesMessages refuses)
    (hReports : ReportsCodes allowed report) (g : γ) (maxSize : Nat) (request : WebSocketRequest)
    (events : List LogicalEvent) (lost : ErrorTexts)
    (hSteady : SteadyConnection gateway g request events) :
    actixCallbacks gateway g maxSize request events lost =
        axumCallbacks gateway refuses report g request events lost ↔
      (idealConnection gateway g request events lost).2.Alike allowed := by
  have hActixNew : OnActix (.new ()) (.new .new) := ⟨rfl, rfl, rfl, fun _ => rfl⟩
  have hAxumNew : OnAxum (.new ()) (.new ⟨[]⟩) := ⟨rfl, fun _ _ => List.not_mem_nil⟩
  obtain ⟨last, hLast, hActix⟩ := (actix_adapter maxSize lost).connection gateway hActixNew hSteady
  obtain ⟨last', hLast', hAxum⟩ :=
    (axum_adapter hTakes report lost).connection gateway hAxumNew hSteady
  have hActixRun : actixCallbacks gateway g maxSize request events lost =
      (idealConnection gateway g request events lost).1 ++ last :=
    ((actixAdapter maxSize lost).callbacks_of_run _ _).trans hActix
  have hAxumRun : axumCallbacks gateway refuses report g request events lost =
      (idealConnection gateway g request events lost).1 ++ last' :=
    ((axumAdapter report lost).callbacks_of_run _ _).trans hAxum
  rw [hActixRun, hAxumRun, List.append_cancel_left_eq]
  exact Ending.eq_iff_alike hReports hLast hLast'

/-- Both adapters make the same callbacks in every run that they report alike, and of the runs
with steady handlers in no other. -/
theorem callbacks_agree_when {refuses : Refuses} (hTakes : TakesMessages refuses)
    (hReports : ReportsCodes allowed report) (g : γ) (maxSize : Nat) (request : WebSocketRequest)
    (events : List LogicalEvent) (lost : ErrorTexts) :
    (AlikeRun gateway allowed g request events lost →
      actixCallbacks gateway g maxSize request events lost =
        axumCallbacks gateway refuses report g request events lost) ∧
    (SteadyConnection gateway g request events →
      actixCallbacks gateway g maxSize request events lost =
        axumCallbacks gateway refuses report g request events lost →
      AlikeRun gateway allowed g request events lost) := by
  have hEq := callbacks_eq_iff gateway hTakes hReports g maxSize request events lost
  exact ⟨fun h => (hEq h.steady).mpr h.ending, fun hSteady h => ⟨hSteady, (hEq hSteady).mp h⟩⟩

/-- A gateway that only answers. -/
def quietGateway : GatewayModel Unit where
  handle _ c := .done ((), match c with
    | .onConnect _ | .onText _ | .onBinary _ => .ok ()
    | .onError _ | .onClose _ => ())

/-- A gateway that closes the session at the first text. -/
def closingGateway (frame : Option WebSocketCloseFrame) : GatewayModel Unit where
  handle _ c :=
    match c with
    | .onText _ => .call (.close frame) fun _ => .done ((), .ok ())
    | .onConnect _ | .onBinary _ => .done ((), .ok ())
    | .onError _ | .onClose _ => .done ((), ())

/-- A socket that takes messages until it has taken a Close. -/
def untilClose : Refuses := fun sent _ =>
  if sent.any fun | .close _ => true | _ => false then some "closed" else none

theorem untilClose_takes : TakesMessages untilClose := by
  intro sent message hSent
  refine if_neg ?_
  intro hAny
  obtain ⟨m, hMem, hClose⟩ := List.any_eq_true.mp hAny
  cases m with
  | close frame => exact hSent frame hMem
  | text | binary | ping | pong => cases hClose

/-- `CloseCode::is_allowed` of `tungstenite`. -/
def allowedCode (code : UInt16) : Bool :=
  (1000 ≤ code ∧ code ≤ 1003) ∨ (1007 ≤ code ∧ code ≤ 1013) ∨ (3000 ≤ code ∧ code ≤ 4999)

def reportClose (frame : AxumCloseFrame) : AxumCloseFrame :=
  if allowedCode frame.code then frame else ⟨1002, "Protocol violation"⟩

theorem reportClose_codes : ReportsCodes allowedCode reportClose where
  kept := fun _ hAllowed => if_pos hAllowed
  replaced := by
    intro frame hAllowed
    rw [reportClose, hAllowed]
    rfl
  protocol := by decide

/-- The texts for a connection that is lost. -/
def lostTexts : ErrorTexts where
  actix := "I/O error: payload reached EOF before completing"
  axum := "WebSocket protocol error: Connection reset without closing handshake"

theorem callbacks_agree_when_away :
    actixCallbacks quietGateway () 16 ⟨"/chat", "", none, []⟩
        [.message (.text "hi"), .peerClose (some ⟨1001, "bye"⟩)] lostTexts =
      axumCallbacks quietGateway untilClose reportClose () ⟨"/chat", "", none, []⟩
        [.message (.text "hi"), .peerClose (some ⟨1001, "bye"⟩)] lostTexts := by
  refine (callbacks_agree_when quietGateway untilClose_takes reportClose_codes () 16
    ⟨"/chat", "", none, []⟩ [.message (.text "hi"), .peerClose (some ⟨1001, "bye"⟩)]
    lostTexts).1 ⟨⟨trivial, fun _ _ => ⟨trivial, fun _ => trivial⟩⟩, ?_⟩
  intro frame hFrame
  obtain rfl := Option.some.inj hFrame
  exact ⟨rfl, by decide⟩

/-- The gateway closes with a frame: only Actix hands it to `on_close`. -/
theorem callbacks_differ_on_close :
    ¬ ∀ (gateway : GatewayModel Unit) refuses allowed report g maxSize request events lost,
      TakesMessages refuses → ReportsCodes allowed report →
        actixCallbacks gateway g maxSize request events lost =
          axumCallbacks gateway refuses report g request events lost := by
  intro hClaim
  have hEqual := hClaim (closingGateway (some ⟨.normal, "bye"⟩)) untilClose allowedCode reportClose
    () 16 ⟨"/chat", "", none, []⟩ [.message (.text "hi")] lostTexts untilClose_takes
    reportClose_codes
  exact absurd hEqual (by decide)

end Parity

end Caelix
