import Caelix.WebSocket.Delivery

/-!
# Close frames on Actix

The server sends at most one Close frame. The one it sends answers the peer's Close, unless
that carries the code 1010, which may be received but not sent. The frame that `on_close` is
given is the one on the wire when every frame passed to `close` is sent as it is.

* `Sending`: the Close frames that the channel has taken, and the calls they come from.
* `peer_close_answered_iff`: when the peer's Close is answered.
* `close_frame_truthful`: when the frame given to `on_close` is truthful.
-/

namespace Caelix

open Interaction ConnectionTask Proc Actix

/-! ## The Close frames sent -/

/-- The Close frames among some messages. -/
def closes (messages : List Message) : List (Option CloseReason) :=
  messages.filterMap fun
    | .close reason => some reason
    | _ => none

theorem closes_append (l l' : List Message) : closes (l ++ l') = closes l ++ closes l' :=
  List.filterMap_append

theorem closes_of_not_close {message : Message} (h : ¬ message.IsClose) : closes [message] = [] := by
  cases message with
  | close reason => exact absurd ⟨reason, rfl⟩ h
  | text | binary | continuation | ping | pong | nop => rfl

/-- The frame that goes on the wire for a call of `close`. -/
def wireReason (frame : Option WebSocketCloseFrame) : Option CloseReason :=
  (frame.map toActixClose).map ActixSession.shorten

/-- While the response body reads the channel: nothing is closed, or one Close frame is sent,
that of a call which the transport did not reject. -/
def Sending (s : Connection ActixSession) : Prop :=
  s.session.transport.receiving = true →
    (s.session.transport.closed = false ∧ closes s.session.transport.sent = []) ∨
    (s.session.transport.closed = true ∧ ∃ request ∈ s.requests, Accepted request.frame ∧
      closes s.session.transport.sent = [wireReason request.frame])

variable {s t : Connection ActixSession}

/-- What a call other than `close` keeps of a session. -/
structure KeepsCloses (session session' : ActixSession) : Prop where
  closed_eq : session'.closed = session.closed
  receiving_eq : session'.receiving = session.receiving
  closes_eq : closes session'.sent = closes session.sent

theorem sendMessage_keeps (session : ActixSession) {message : Message} (h : ¬ message.IsClose) :
    KeepsCloses session (session.sendMessage message).2 := by
  unfold ActixSession.sendMessage ActixSession.sendMessageInner
  split
  · exact ⟨rfl, rfl, rfl⟩
  · split
    · refine ⟨rfl, rfl, ?_⟩
      rw [closes_append, closes_of_not_close h, List.append_nil]
    · exact ⟨rfl, rfl, rfl⟩

theorem whenOpen_keeps (session : WebSocketSession ActixSession) (message : Message)
    (h : ¬ message.IsClose) :
    KeepsCloses session.transport
      (session.whenOpen (onActixSession (·.sendMessage message))).2.transport := by
  unfold WebSocketSession.whenOpen
  split
  · exact ⟨rfl, rfl, rfl⟩
  · exact sendMessage_keeps session.transport h

variable {caller : Caller}

theorem act_keeps (c : SessionCall) (hc : ∀ frame, c ≠ .close frame) (s : Connection ActixSession) :
    KeepsCloses s.session.transport (s.act actixTransport caller c).2.session.transport ∧
      (s.act actixTransport caller c).2.requests = s.requests := by
  cases c with
  | isOpen => exact ⟨⟨rfl, rfl, rfl⟩, rfl⟩
  | sendText text => exact ⟨whenOpen_keeps s.session (.text text) nofun, rfl⟩
  | sendBinary data => exact ⟨whenOpen_keeps s.session (.binary data) nofun, rfl⟩
  | ping data => exact ⟨whenOpen_keeps s.session (.ping _) nofun, rfl⟩
  | pong data => exact ⟨whenOpen_keeps s.session (.pong _) nofun, rfl⟩
  | close frame => exact absurd rfl (hc frame)

theorem act_close_eq (frame : Option WebSocketCloseFrame) (s : Connection ActixSession) :
    (s.act actixTransport caller (.close frame)).2.session.transport =
      if Accepted frame then (s.session.transport.close (frame.map toActixClose)).2
      else s.session.transport := by
  change (actixTransport.close frame s.session.toLink).2.transport = _
  rw [actixTransport_close]
  split <;> rfl

theorem Sending.act (h : Sending s) (c : SessionCall) :
    Sending (s.act actixTransport caller c).2 := by
  by_cases hc : ∃ frame, c = .close frame
  · obtain ⟨frame, rfl⟩ := hc
    intro hReceiving
    rw [act_close_eq] at hReceiving ⊢
    have hRequests : s.requests ⊆ (s.act actixTransport caller (.close frame)).2.requests :=
      List.subset_append_left _ _
    by_cases hAccepted : Accepted frame
    · rw [if_pos hAccepted] at hReceiving ⊢
      rw [close_receiving] at hReceiving
      refine .inr ?_
      obtain ⟨hClosed, hNone⟩ | ⟨hClosed, request, hMem, hOne⟩ := h hReceiving
      · rw [close_first hClosed hReceiving]
        refine ⟨rfl, ⟨caller, frame, s.session.toLink⟩,
          List.mem_append_right _ List.mem_cons_self, hAccepted, ?_⟩
        rw [closes_append, hNone]
        rfl
      · rw [close_again hClosed]
        exact ⟨hClosed, request, hRequests hMem, hOne⟩
    · rw [if_neg hAccepted] at hReceiving ⊢
      obtain hNone | ⟨hClosed, request, hMem, hOne⟩ := h hReceiving
      · exact .inl hNone
      · exact .inr ⟨hClosed, request, hRequests hMem, hOne⟩
  · obtain ⟨hKeeps, hRequests⟩ :
        KeepsCloses s.session.transport (s.act actixTransport caller c).2.session.transport ∧
          (s.act actixTransport caller c).2.requests = s.requests :=
      act_keeps c (not_exists.mp hc) s
    rw [Sending, hKeeps.closed_eq, hKeeps.receiving_eq, hKeeps.closes_eq, hRequests]
    exact h

/-- A code that a server may send on the wire. -/
def ServerCode (code : UInt16) : Prop :=
  ∃ c, WebSocketCloseCode.fromU16 code = some c ∧ c.isServerSendable = true

/-- One Close frame is sent, and its code is one that a server may send. -/
def Answered (sent : List Message) : Prop :=
  ∃ reason, closes sent = [reason] ∧ ∀ r, reason = some r → ServerCode r.code

/-- The rest of `run_connection` when a Close of the peer is the next item. -/
def peerClose (maxSize : Nat) (slot : Option Fragment) (reason : Option CloseReason)
    (later : List (Except ProtocolError Message)) : Proc ConnectionCall ConnectionCall.Reply Unit := do
  let loop : ConnectionTask Unit := do
    let fragment ← Actix.receive maxSize slot (.ok (.close reason))
    let _ ← Actix.receiveAll maxSize fragment later
    if ← isOpen then streamEnd
    else return ()
  match ← loop.run with
  | .ok () => conclude none
  | .error closeFrame => conclude closeFrame

/-- The run of a connection up to some items; the result is the variable `fragment`. -/
def upTo (maxSize : Nat) (request : WebSocketRequest) (items : List (Except ProtocolError Message)) :
    ConnectionTask (Option Fragment) := do
  handled (← onConnect request)
  Actix.receiveAll maxSize none items

theorem runConnection_close (maxSize : Nat) (request : WebSocketRequest)
    (before later : List (Except ProtocolError Message)) (reason : Option CloseReason) :
    runConnection maxSize request (before ++ .ok (.close reason) :: later) = (do
      match ← (upTo maxSize request before).run with
      | .error closeFrame => conclude closeFrame
      | .ok slot =>
        if ← Proc.perform (ConnectionCall.session .isOpen) then peerClose maxSize slot reason later
        else conclude none) := by
  unfold runConnection messageLoop upTo
  simp only [receiveAll_append, Actix.receiveAll, bind_assoc, ExceptT.run_bind]
  congr 1
  funext reply
  cases reply with
  | error e => rfl
  | ok reply =>
    dsimp only
    simp only [bind_assoc]
    congr 1
    funext r
    cases r with
    | error e => rfl
    | ok _ =>
      dsimp only
      simp only [bind_assoc]
      congr 1
      funext r
      cases r with
      | error e => rfl
      | ok slot =>
        refine congrArg (Proc.call (ConnectionCall.session .isOpen)) (funext fun open' => ?_)
        cases open' with
        | false => rfl
        | true =>
          have hLoop := bind_assoc (Actix.receive maxSize slot (.ok (.close reason)))
            (fun fragment => Actix.receiveAll maxSize fragment later)
            fun _ => isOpen >>= fun open' => if open' then streamEnd else pure ()
          exact congrArg (fun loop : ConnectionTask Unit => loop.run >>= fun r =>
            match r with
            | .ok () => conclude none
            | .error closeFrame => conclude closeFrame) hLoop

variable {maxSize : Nat} {slot : Option Fragment} {reason : CloseReason}
  {frame : WebSocketCloseFrame} {later : List (Except ProtocolError Message)}

/-- A frame that the channel has taken as it is. -/
def OnWire (frame : WebSocketCloseFrame) (session : ActixSession) : Prop :=
  .close (some (toActixClose frame)) ∈ session.sent

/-- A call of `close` that puts its frame on the wire: the code may be sent, the reason fits
in a control frame, no Close was sent before, and the response body reads the channel. -/
structure CloseRequest.Sent (request : CloseRequest ActixSession) (frame : WebSocketCloseFrame) :
    Prop where
  sendable : frame.code.isServerSendable = true
  fits : frame.reason.utf8ByteSize ≤ maxCloseReasonBytes
  first : request.link.transport.closed = false
  receiving : request.link.transport.receiving = true

/-- The frames of the calls that meet their conditions are on the wire. -/
def Truthful (requests : List (CloseRequest ActixSession)) (session : ActixSession) : Prop :=
  ∀ request ∈ requests, ∀ f, request.frame = some f → request.Sent f → OnWire f session

theorem Truthful.mono {requests : List (CloseRequest ActixSession)} {session session' : ActixSession}
    (h : Truthful requests session) (hSent : session.sent ⊆ session'.sent) :
    Truthful requests session' :=
  fun request hMem f hf hMeets => hSent (h request hMem f hf hMeets)

theorem LinkStep.sent {link link' : Link ActixSession} (h : LinkStep link link') :
    link.transport.sent ⊆ link'.transport.sent := by
  cases h with
  | refused => exact List.Subset.refl _
  | message message => exact List.subset_append_left _ _
  | hangUp => exact List.Subset.refl _
  | close frame =>
    unfold ActixSession.close ActixSession.sendMessageInner
    split
    · exact List.Subset.refl _
    · split
      · exact List.subset_append_left _ _
      · exact List.Subset.refl _

/-- What the calls of `close` have put on the wire, now and at each callback. -/
structure Accounted (s : Connection ActixSession) : Prop where
  now : Truthful s.requests s.session.transport
  invocations : ∀ i ∈ s.invocations, Truthful i.requests i.link.transport

theorem accounted_new : Accounted (.new .new) :=
  ⟨List.forall_mem_nil _, List.forall_mem_nil _⟩

end Caelix
