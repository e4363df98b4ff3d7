import Caelix.WebSocket.CallbackParity
import Caelix.WebSocket.Stream

/-!
# Payload chunks and callbacks

The bytes of a peer may arrive in any chunks. A malformed frame hides the messages that are
decoded together with it, so the chunks make no difference exactly when none of these would
have been heard of.

* `ConnectionOutcome`: the data callbacks of a connection, and the close code it stops with.
* `Unheard`: messages after which a malformed frame is as if it came first.
* `unheard_iff`: what a connection makes of messages and a malformed frame.
* `chunking_independent_iff`: the bytes for which the chunks make no difference.
-/

namespace Caelix

open Framing Interaction ConnectionTask Proc

/-! ## Outcomes -/

structure ConnectionOutcome where
  delivered : List Callback
  closeCodes : List (Option WebSocketCloseCode)
  deriving DecidableEq

/-- `on_text` and `on_binary`. -/
def Callback.isData : Callback → Bool
  | onText _ | onBinary _ => true
  | _ => false

def Callback.closeCode : Callback → Option (Option WebSocketCloseCode)
  | onClose frame => some (frame.map (·.code))
  | _ => none

def outcome (callbacks : List Callback) : ConnectionOutcome where
  delivered := callbacks.filter Callback.isData
  closeCodes := callbacks.filterMap Callback.closeCode

/-- The outcome of a connection for the items of its stream. -/
def itemsOutcome {γ : Type} (gateway : GatewayModel γ) (g : γ) (maxSize : Nat)
    (request : WebSocketRequest) (items : List (Except ProtocolError Message)) : ConnectionOutcome :=
  outcome (callbacksOf gateway actixTransport (Actix.runConnection maxSize request items) g .new)

/-- The outcome of a connection for a payload. -/
def payloadOutcome {σ γ : Type} (http : ActixHttp σ) (gateway : GatewayModel γ) (g : γ)
    (maxSize : Nat) (request : WebSocketRequest) (payload : List PayloadPoll) : ConnectionOutcome :=
  itemsOutcome gateway g maxSize request
    (((MessageStream.new http payload).maxFrameSize http maxSize).items http)

/-! ## What messages amount to -/

/-- What a message does to a connection. -/
inductive Reaction where
  | goes (slot : Option Fragment)
  | delivers (callback : Callback)
  | stops (code : Option WebSocketCloseCode)

def reaction (maxSize : Nat) (slot : Option Fragment) : Message → Reaction
  | .text text => if slot.isSome then .stops (some .protocol) else .delivers (.onText text)
  | .binary data => if slot.isSome then .stops (some .protocol) else .delivers (.onBinary data)
  | .continuation item =>
    match nextFragment maxSize slot item with
    | .ok (none, slot) => .goes slot
    | .ok (some (.text data), _) =>
      match String.fromUTF8? ⟨data.toArray⟩ with
      | some text => .delivers (.onText text)
      | none => .stops (some .invalidData)
    | .ok (some (.binary data), _) => .delivers (.onBinary data)
    | .error code => .stops (some code)
  | .ping _ | .pong _ | .nop => .goes slot
  | .close none => .stops none
  | .close (some reason) => .stops (some (((fromActixClose reason).map (·.code)).getD .protocol))

/-- No message is delivered, and the connection does not stop with another code. -/
def Unheard (maxSize : Nat) (code : WebSocketCloseCode) : Option Fragment → List Message → Prop
  | _, [] => True
  | slot, m :: ms =>
    match reaction maxSize slot m with
    | .goes slot => Unheard maxSize code slot ms
    | .delivers _ => False
    | .stops code' => code' = some code

theorem Unheard.of_prefix {maxSize : Nat} {code : WebSocketCloseCode} {slot : Option Fragment}
    {first ms : List Message} (h : Unheard maxSize code slot ms) (hPrefix : first <+: ms) :
    Unheard maxSize code slot first := by
  obtain ⟨later, rfl⟩ := hPrefix
  induction first generalizing slot with
  | nil => trivial
  | cons m first ih =>
    rw [List.cons_append, Unheard] at h
    rw [Unheard]
    split at h
    · exact ih h
    · cases h
    · exact h

/-! ## Connections -/

section Connections

variable {γ : Type} {gateway : GatewayModel γ} {maxSize : Nat}

/-- A session whose peer is there. -/
structure Usable (s : WebSocketSession ActixSession) : Prop where
  receiving : s.transport.receiving = true
  closed : s.isOpen = true → s.transport.closed = false

/-- A session that is open as well. -/
structure LiveHost (h : Hosted γ ActixSession) : Prop extends Usable h.connection.session where
  isOpen : h.connection.session.isOpen = true

theorem LiveHost.told {h : Hosted γ ActixSession} (hLive : LiveHost h) : LiveHost h.told :=
  ⟨hLive.toUsable, hLive.isOpen⟩

theorem whenOpen_usable {s : WebSocketSession ActixSession} (h : Usable s) (message : Message) :
    Usable (s.whenOpen (onActixSession (·.sendMessage message))).2 := by
  unfold WebSocketSession.whenOpen
  split
  · exact h
  · change Usable { s with transport := (s.transport.sendMessage message).2 }
    unfold ActixSession.sendMessage ActixSession.sendMessageInner
    split
    · exact h
    · split
      · exact ⟨h.receiving, h.closed⟩
      · exact h

theorem act_usable (c : SessionCall) {s : WebSocketSession ActixSession} (h : Usable s) :
    Usable (s.act actixTransport c).2 := by
  cases c with
  | isOpen => exact h
  | sendText text => exact whenOpen_usable h (.text text)
  | sendBinary data => exact whenOpen_usable h (.binary data)
  | ping data => exact whenOpen_usable h (.ping _)
  | pong data => exact whenOpen_usable h (.pong _)
  | close frame =>
    change Usable ⟨(actixTransport.close frame s.toLink).2, frame⟩
    rw [actixTransport_close]
    split
    · exact ⟨(close_receiving _ _).trans h.receiving, nofun⟩
    · exact ⟨h.receiving, h.closed⟩

/-- A callback leaves a session usable. -/
theorem callGateway_usable (gateway : GatewayModel γ) (c : Callback) {h : Hosted γ ActixSession}
    (hUsable : Usable h.connection.session) :
    Usable (callGateway gateway actixTransport c h).2.connection.session :=
  drive_keeps (I := fun s : Connection ActixSession => Usable s.session)
    (fun _ c hUsable => act_usable c hUsable) (gateway.handle h.gateway c) hUsable

/-- Callbacks are not undone. -/
theorem hostAnswers_prefix (gateway : GatewayModel γ) (log : List Callback)
    (h : Hosted γ ActixSession) (c : ConnectionCall)
    (hLog : log <+: h.connection.callbacks) :
    log <+: (hostAnswers gateway actixTransport h c).2.connection.callbacks := by
  cases c with
  | session c => exact hLog
  | takeLocalCloseFrame => exact hLog
  | storeClosed => exact hLog
  | callback c =>
    have hCallbacks := callGateway_callbacks gateway actixTransport c h
    exact hLog.trans (hCallbacks ▸ List.prefix_append _ _)

/-- The callbacks when a part of the loop is left, up to the last one. -/
def concluded (gateway : GatewayModel γ) (x : ConnectionTask Unit) (h : Hosted γ ActixSession) :
    List Callback :=
  (actixAdapter 0 ⟨"", ""⟩).callbacks gateway actixTransport x h

/-- What has been called before stays. -/
theorem concluded_prefix (x : ConnectionTask Unit) (h : Hosted γ ActixSession) :
    h.connection.callbacks <+: concluded gateway x h := by
  have hKeeps := hostAnswers_prefix gateway h.connection.callbacks
  exact drive_keeps hKeeps _ (drive_keeps hKeeps x.run (List.prefix_refl _))

variable {h h' : Hosted γ ActixSession} {slot slot' : Option Fragment}
  {item : Except ProtocolError Message} {items : List (Except ProtocolError Message)}
  {k : Option Fragment → ConnectionTask Unit} {frame : Option WebSocketCloseFrame}

theorem receiveAll_open (hOpen : h.connection.session.isOpen = true) :
    (Actix.receiveAll maxSize slot (item :: items) >>= k).run.drive
        (hostAnswers gateway actixTransport) h =
      (Actix.receive maxSize slot item >>= fun slot =>
        Actix.receiveAll maxSize slot items >>= k).run.drive (hostAnswers gateway actixTransport)
          h.told := by
  rw [Actix.receiveAll, bind_assoc, isOpen_drive, hOpen, if_pos rfl, bind_assoc]

/-- An item that does not end the loop. -/
theorem concluded_goes (hOpen : h.connection.session.isOpen = true)
    (hItem : (Actix.receive maxSize slot item).run.drive (hostAnswers gateway actixTransport) h.told =
      (.ok slot', h')) :
    concluded gateway (Actix.receiveAll maxSize slot (item :: items) >>= k) h =
      concluded gateway (Actix.receiveAll maxSize slot' items >>= k) h' := by
  refine Adapter.callbacks_congr ((receiveAll_open hOpen).trans ?_)
  rw [drive_bind_except, hItem]

/-- An item that ends the loop. -/
theorem concluded_left (hOpen : h.connection.session.isOpen = true)
    (hItem : (Actix.receive maxSize slot item).run.drive (hostAnswers gateway actixTransport) h.told =
      (.error frame, h')) :
    concluded gateway (Actix.receiveAll maxSize slot (item :: items) >>= k) h =
      h'.connection.callbacks ++ [.onClose (frame.or h'.connection.session.closeFrame)] := by
  refine (Adapter.callbacks_error ((receiveAll_open hOpen).trans ?_)).trans (actix_conclude frame h')
  rw [drive_bind_except, hItem]

/-- An item that is delivered. -/
theorem concluded_delivers (hOpen : h.connection.session.isOpen = true) (c : Callback)
    {f : c.Reply → ConnectionTask (Option Fragment)}
    (hItem : Actix.receive maxSize slot item = Proc.ask (ConnectionCall.callback c) >>= f) :
    h.connection.callbacks ++ [c] <+:
      concluded gateway (Actix.receiveAll maxSize slot (item :: items) >>= k) h := by
  have hSame : concluded gateway (Actix.receiveAll maxSize slot (item :: items) >>= k) h =
      concluded gateway (f (callGateway gateway actixTransport c h.told).1 >>= fun slot =>
        Actix.receiveAll maxSize slot items >>= k) (callGateway gateway actixTransport c h.told).2 := by
    refine Adapter.callbacks_congr ((receiveAll_open hOpen).trans ?_)
    rw [hItem, bind_assoc, callback_drive]
  have hLog : (callGateway gateway actixTransport c h.told).2.connection.callbacks =
      h.connection.callbacks ++ [c] := callGateway_callbacks gateway actixTransport c h.told
  rw [hSame, ← hLog]
  exact concluded_prefix _ _

/-! ## One message -/

theorem outcome_append (l l' : List Callback) :
    outcome (l ++ l') = ⟨(outcome l).delivered ++ (outcome l').delivered,
      (outcome l).closeCodes ++ (outcome l').closeCodes⟩ := by
  simp [outcome]

theorem violation_drive (gateway : GatewayModel γ) {α : Type} (code : WebSocketCloseCode)
    (message : String) (h : Hosted γ ActixSession) :
    ∃ h', (violation code message : ConnectionTask α).run.drive (hostAnswers gateway actixTransport) h =
        (.error (some ⟨code, message⟩), h') ∧
      outcome h'.connection.callbacks = outcome h.connection.callbacks := by
  obtain ⟨h', hDrive, hCallbacks⟩ := report_drive (α := α) gateway actixTransport message ⟨code, message⟩ h
  refine ⟨h', hDrive, ?_⟩
  rw [hCallbacks, outcome_append]
  simp [outcome, Callback.isData, Callback.closeCode]

theorem pong_live (hLive : LiveHost h) (data : Bytes) :
    (h.connection.act actixTransport .task (.pong data)).1 = .ok () ∧
      LiveHost { h with connection := (h.connection.act actixTransport .task (.pong data)).2 } := by
  have hSend := sendMessage_open (hLive.closed hLive.isOpen) hLive.receiving
    (.pong (data.take maxControlPayloadBytes))
  have hAct : h.connection.session.act actixTransport (.pong data) =
      h.connection.session.onLink (onActixSession (·.sendMessage (.pong (data.take
        maxControlPayloadBytes)))) := by
    change h.connection.session.whenOpen _ = _
    unfold WebSocketSession.whenOpen WebSocketSession.ensureOpen
    rw [if_pos hLive.isOpen]
    rfl
  unfold Connection.act
  rw [hAct]
  simp only [WebSocketSession.onLink, onActixSession, hSend, if_true]
  exact ⟨trivial, ⟨⟨hLive.receiving, hLive.closed⟩, hLive.isOpen⟩⟩

/-- A message does to the connection what it amounts to. -/
theorem receive_reaction (gateway : GatewayModel γ) (maxSize : Nat) (slot : Option Fragment)
    (hLive : LiveHost h) (m : Message) :
    match reaction maxSize slot m with
    | .goes slot' => ∃ h', LiveHost h' ∧ h'.connection.callbacks = h.connection.callbacks ∧
      (Actix.receive maxSize slot (.ok m)).run.drive (hostAnswers gateway actixTransport) h =
        (.ok slot', h')
    | .delivers c => c.isData = true ∧ ∃ f,
      Actix.receive maxSize slot (.ok m) = Proc.ask (ConnectionCall.callback c) >>= f
    | .stops code => ∃ frame h', frame.map WebSocketCloseFrame.code = code ∧
      frame.or h'.connection.session.closeFrame = frame ∧
      outcome h'.connection.callbacks = outcome h.connection.callbacks ∧
      (Actix.receive maxSize slot (.ok m)).run.drive (hostAnswers gateway actixTransport) h =
        (.error frame, h') := by
  cases m with
  | text text =>
    cases slot with
    | none => exact ⟨rfl, _, rfl⟩
    | some fragment =>
      obtain ⟨h', hDrive, hOutcome⟩ := violation_drive gateway (α := Option Fragment) .protocol
        "data frame interleaved with fragmented message" h
      exact ⟨_, h', rfl, rfl, hOutcome, hDrive⟩
  | binary data =>
    cases slot with
    | none => exact ⟨rfl, _, rfl⟩
    | some fragment =>
      obtain ⟨h', hDrive, hOutcome⟩ := violation_drive gateway (α := Option Fragment) .protocol
        "data frame interleaved with fragmented message" h
      exact ⟨_, h', rfl, rfl, hOutcome, hDrive⟩
  | ping data =>
    obtain ⟨hReply, hNext⟩ := pong_live hLive data
    refine ⟨_, hNext, rfl, ?_⟩
    refine (session_drive (.pong data) _ h).trans ?_
    rw [hReply]
    rfl
  | pong data => exact ⟨h, hLive, rfl, rfl⟩
  | nop => exact ⟨h, hLive, rfl, rfl⟩
  | close reason =>
    cases reason with
    | none =>
      exact ⟨none, { h with connection := (h.connection.act actixTransport .task (.close none)).2 }, rfl,
        rfl, rfl, rfl⟩
    | some reason =>
      simp only [reaction, Actix.receive]
      cases hFrame : fromActixClose reason with
      | none =>
        obtain ⟨h', hDrive, hOutcome⟩ := violation_drive gateway (α := Option Fragment) .protocol
          "invalid websocket close code" h
        exact ⟨_, h', rfl, rfl, hOutcome, hDrive⟩
      | some frame =>
        exact ⟨some frame, { h with connection := (h.connection.act actixTransport .task
          (.close (some frame))).2 }, rfl, rfl, rfl, rfl⟩
  | continuation item =>
    simp only [reaction, Actix.receive]
    cases hNext : nextFragment maxSize slot item with
    | error code =>
      obtain ⟨h', hDrive, hOutcome⟩ := violation_drive gateway (α := Option Fragment) code
        "invalid fragmented message" h
      exact ⟨_, h', rfl, rfl, hOutcome, hDrive⟩
    | ok result =>
      obtain ⟨message, slot'⟩ := result
      cases message with
      | none => exact ⟨h, hLive, rfl, rfl⟩
      | some message =>
        cases message with
        | binary data => exact ⟨rfl, _, bind_assoc _ _ _⟩
        | text data =>
          dsimp only
          simp only [deliver]
          cases hText : String.fromUTF8? ⟨data.toArray⟩ with
          | some text => exact ⟨rfl, _, bind_assoc _ _ _⟩
          | none =>
            obtain ⟨h', hDrive, hOutcome⟩ := violation_drive gateway (α := Unit) .invalidData
              "invalid UTF-8 text message" h
            refine ⟨some ⟨.invalidData, "invalid UTF-8 text message"⟩, h', rfl, rfl, hOutcome, ?_⟩
            dsimp only
            rw [drive_bind_except, hDrive]

/-! ## Messages and a malformed frame -/

/-- A malformed frame stops the connection with its close code. -/
theorem concluded_error (hLive : LiveHost h) (e : ProtocolError) :
    outcome (concluded gateway (Actix.receiveAll maxSize slot [.error e] >>= k) h) =
      ⟨(outcome h.connection.callbacks).delivered,
        (outcome h.connection.callbacks).closeCodes ++ [some (protocolCloseCode e)]⟩ := by
  let reported := (callGateway gateway actixTransport (.onError ⟨e.text⟩) h.told).2
  let frame : WebSocketCloseFrame := ⟨protocolCloseCode e, "invalid websocket frame"⟩
  have hDrive : (Actix.receive maxSize slot (.error e)).run.drive
      (hostAnswers gateway actixTransport) h.told = (.error (some frame), { reported with
        connection := (reported.connection.act actixTransport .task (.close (some frame))).2 }) := rfl
  have hReported : reported.connection.callbacks = h.connection.callbacks ++ [.onError ⟨e.text⟩] :=
    callGateway_callbacks gateway actixTransport (.onError ⟨e.text⟩) h.told
  have hCallbacks : (reported.connection.act actixTransport .task (.close (some frame))).2.callbacks =
      h.connection.callbacks ++ [.onError ⟨e.text⟩] := hReported
  rw [concluded_left hLive.isOpen hDrive, hCallbacks, outcome_append, outcome_append]
  simp [outcome, Callback.isData, Callback.closeCode, frame]

/-- Messages and a malformed frame have the outcome of the malformed frame when they are
unheard. -/
theorem unheard_iff {e : ProtocolError} (ms : List Message) (hLive : LiveHost h) :
    outcome (concluded gateway
        (Actix.receiveAll maxSize slot (ms.map .ok ++ [.error e]) >>= k) h) =
      ⟨(outcome h.connection.callbacks).delivered,
        (outcome h.connection.callbacks).closeCodes ++ [some (protocolCloseCode e)]⟩ ↔
      Unheard maxSize (protocolCloseCode e) slot ms := by
  induction ms generalizing slot h with
  | nil =>
    refine iff_of_true ?_ trivial
    exact concluded_error hLive e
  | cons m ms ih =>
    have hReaction := receive_reaction gateway maxSize slot hLive.told m
    rw [List.map_cons, List.cons_append, Unheard]
    cases hCase : reaction maxSize slot m with
    | goes slot' =>
      rw [hCase] at hReaction
      obtain ⟨h', hLive', hCallbacks, hDrive⟩ := hReaction
      have hSame : h'.connection.callbacks = h.connection.callbacks := hCallbacks
      rw [concluded_goes hLive.isOpen hDrive, ← hSame]
      exact ih hLive'
    | delivers c =>
      rw [hCase] at hReaction
      obtain ⟨hData, f, hReceive⟩ := hReaction
      refine iff_of_false ?_ id
      intro hOutcome
      have hPrefix : h.connection.callbacks ++ [c] <+: concluded gateway (Actix.receiveAll maxSize
          slot (.ok m :: (ms.map .ok ++ [.error e])) >>= k) h :=
        concluded_delivers hLive.isOpen c hReceive
      obtain ⟨later, hLater⟩ := hPrefix
      have hDelivered := congrArg ConnectionOutcome.delivered hOutcome
      rw [← hLater, outcome_append, outcome_append] at hDelivered
      have hLength := congrArg List.length hDelivered
      simp [outcome, hData] at hLength
    | stops code =>
      rw [hCase] at hReaction
      obtain ⟨frame, h', rfl, hFrame, hOutcome, hDrive⟩ := hReaction
      have hSame : outcome h'.connection.callbacks = outcome h.connection.callbacks := hOutcome
      rw [concluded_left hLive.isOpen hDrive, hFrame, outcome_append, hSame]
      simp [outcome, Callback.isData, Callback.closeCode]

/-! ## Whole connections -/

variable {items' : List (Except ProtocolError Message)}

theorem itemsOutcome_eq (gateway : GatewayModel γ) (g : γ) (maxSize : Nat)
    (request : WebSocketRequest) (items : List (Except ProtocolError Message)) :
    itemsOutcome gateway g maxSize request items =
      outcome (concluded gateway (onConnect request >>= fun reply => handled reply >>= fun _ =>
        Actix.messageLoop maxSize items) ⟨g, .new .new⟩) :=
  congrArg outcome ((actixAdapter 0 ⟨"", ""⟩).callbacks_of_run _ _)

/-- Connections that go on alike when `on_connect` has succeeded are alike. -/
theorem itemsOutcome_congr (g : γ) (request : WebSocketRequest)
    (hLoop : ∀ h : Hosted γ ActixSession, LiveHost h →
      outcome (concluded gateway (Actix.messageLoop maxSize items) h) =
        outcome (concluded gateway (Actix.messageLoop maxSize items') h)) :
    itemsOutcome gateway g maxSize request items = itemsOutcome gateway g maxSize request items' := by
  rw [itemsOutcome_eq, itemsOutcome_eq]
  have hConnect (items : List (Except ProtocolError Message)) :
      concluded gateway (onConnect request >>= fun reply => handled reply >>= fun _ =>
          Actix.messageLoop maxSize items) ⟨g, .new .new⟩ =
        concluded gateway (handled (callGateway gateway actixTransport (.onConnect request)
            ⟨g, .new .new⟩).1 >>= fun _ => Actix.messageLoop maxSize items)
          (callGateway gateway actixTransport (.onConnect request) ⟨g, .new .new⟩).2 :=
    Adapter.callbacks_congr (callback_drive (.onConnect request) _ _)
  have hUsable := callGateway_usable gateway (.onConnect request)
    (h := ⟨g, .new .new⟩) ⟨rfl, fun _ => rfl⟩
  rw [hConnect, hConnect]
  generalize callGateway gateway actixTransport (.onConnect request) ⟨g, .new .new⟩ = connected at hUsable ⊢
  obtain ⟨reply, h⟩ := connected
  cases reply with
  | error e => rfl
  | ok _ =>
    change outcome (concluded gateway (Actix.messageLoop maxSize items) h) =
      outcome (concluded gateway (Actix.messageLoop maxSize items') h)
    cases hOpen : h.connection.session.isOpen with
    | true => exact hLoop h ⟨hUsable, hOpen⟩
    | false =>
      unfold concluded
      rw [messageLoop_closed gateway 0 maxSize _ hOpen, messageLoop_closed gateway 0 maxSize _ hOpen]

theorem messageLoop_error (gateway : GatewayModel γ) (maxSize : Nat) (hLive : LiveHost h)
    (e : ProtocolError) :
    outcome (concluded gateway (Actix.messageLoop maxSize [.error e]) h) =
      ⟨(outcome h.connection.callbacks).delivered,
        (outcome h.connection.callbacks).closeCodes ++ [some (protocolCloseCode e)]⟩ :=
  concluded_error hLive e

theorem messageLoop_unheard_iff {e : ProtocolError} (ms : List Message) (hLive : LiveHost h) :
    outcome (concluded gateway (Actix.messageLoop maxSize (ms.map .ok ++ [.error e])) h) =
        outcome (concluded gateway (Actix.messageLoop maxSize [.error e]) h) ↔
      Unheard maxSize (protocolCloseCode e) none ms := by
  rw [messageLoop_error gateway maxSize hLive]
  exact unheard_iff ms hLive

/-- Unheard messages before a malformed frame make no difference. -/
theorem itemsOutcome_unheard (g : γ) (request : WebSocketRequest) {ms : List Message}
    {e e' : ProtocolError} (hUnheard : Unheard maxSize (protocolCloseCode e) none ms)
    (hCode : protocolCloseCode e' = protocolCloseCode e) :
    itemsOutcome gateway g maxSize request (ms.map .ok ++ [.error e]) =
      itemsOutcome gateway g maxSize request [.error e'] := by
  refine itemsOutcome_congr g request ?_
  intro h hLive
  have hError := messageLoop_error gateway maxSize hLive e'
  rw [hCode, ← messageLoop_error gateway maxSize hLive e] at hError
  exact ((messageLoop_unheard_iff ms hLive).mpr hUnheard).trans hError.symm

end Connections

/-! ## A gateway that only answers -/

section Quiet

variable {maxSize : Nat} {request : WebSocketRequest} {e e' : ProtocolError}

/-- A connection after `on_connect`. -/
def quietHost (request : WebSocketRequest) : Hosted Unit ActixSession :=
  (callGateway quietGateway actixTransport (.onConnect request) ⟨(), .new .new⟩).2

theorem quietHost_live (request : WebSocketRequest) : LiveHost (quietHost request) :=
  ⟨⟨rfl, fun _ => rfl⟩, rfl⟩

theorem itemsOutcome_quiet (maxSize : Nat) (request : WebSocketRequest)
    (items : List (Except ProtocolError Message)) :
    itemsOutcome quietGateway () maxSize request items =
      outcome (concluded quietGateway (Actix.messageLoop maxSize items) (quietHost request)) :=
  itemsOutcome_eq quietGateway () maxSize request items

/-- What is heard before a malformed frame makes a difference. -/
theorem unheard_of_quiet {ms : List Message}
    (h : itemsOutcome quietGateway () maxSize request (ms.map .ok ++ [.error e]) =
      itemsOutcome quietGateway () maxSize request [.error e]) :
    Unheard maxSize (protocolCloseCode e) none ms := by
  rw [itemsOutcome_quiet, itemsOutcome_quiet] at h
  exact (messageLoop_unheard_iff ms (quietHost_live request)).mp h

theorem code_of_quiet (h : itemsOutcome quietGateway () maxSize request [.error e] =
    itemsOutcome quietGateway () maxSize request [.error e']) :
    protocolCloseCode e = protocolCloseCode e' := by
  have hLive := quietHost_live request
  rw [itemsOutcome_quiet, itemsOutcome_quiet] at h
  rw [messageLoop_error quietGateway maxSize hLive, messageLoop_error quietGateway maxSize hLive] at h
  have hCodes := List.append_cancel_left (congrArg ConnectionOutcome.closeCodes h)
  exact Option.some.inj (List.head_eq_of_cons_eq hCodes)

end Quiet

/-! ## Chunks -/

section Chunks

variable {σ : Type} (http : ActixHttp σ) (maxSize : Nat) (bytes : Bytes)

/-- The messages of some bytes up to a malformed frame, with the state of the codec and the
bytes from that frame on. -/
def MalformedAfter (ms : List Message) (codec : σ) (left : Bytes) (e : ProtocolError) : Prop :=
  Decodes (decodeNext http) (http.maxSize maxSize http.newCodec) bytes ms codec left ∧
    Framing.Refuses (decodeNext http) codec left e

/-- The chunks in which the bytes arrive make no difference. -/
structure ChunkingIndependent : Prop where
  alike : ∀ {γ : Type} (gateway : GatewayModel γ) (g : γ) (request : WebSocketRequest)
    (payload payload' : List PayloadPoll), Cuts payload bytes → Cuts payload' bytes →
      payloadOutcome http gateway g maxSize request payload =
        payloadOutcome http gateway g maxSize request payload'
  /-- The messages before a malformed frame are delivered before its error is reported. -/
  delivered : ∀ {γ : Type} (gateway : GatewayModel γ) (g : γ) (request : WebSocketRequest)
    (payload : List PayloadPoll), Cuts payload bytes →
      ∀ {ms codec left e}, MalformedAfter http maxSize bytes ms codec left e →
        payloadOutcome http gateway g maxSize request payload =
          itemsOutcome gateway g maxSize request (ms.map .ok ++ [.error e])

/-- The messages before a malformed frame are unheard, and the parts of the frame that are
refused are refused with one close code. -/
def Uniform : Prop :=
  ∀ {ms codec left e}, MalformedAfter http maxSize bytes ms codec left e →
    Unheard maxSize (protocolCloseCode e) none ms ∧
      ∀ {part e'}, part <+: left → Framing.Refuses (decodeNext http) codec part e' →
        protocolCloseCode e' = protocolCloseCode e

variable {http maxSize bytes} {γ : Type} {ms : List Message} {codec : σ} {left : Bytes}
  {e : ProtocolError}

theorem payloadOutcome_eq (hHttp : http.DecodesFrames) {payload : List PayloadPoll}
    (hCuts : Cuts payload bytes) (gateway : GatewayModel γ) (g : γ) (request : WebSocketRequest) :
    payloadOutcome http gateway g maxSize request payload = itemsOutcome gateway g maxSize request
      (feed (decodeNext http) (http.maxSize maxSize http.newCodec) [] (pieces payload)) := by
  rw [payloadOutcome, MessageStream.items_eq_feed hHttp hCuts]

/-- Whatever the chunks, a malformed frame after unheard messages is as if it came first. -/
theorem payloadOutcome_malformed (hHttp : http.DecodesFrames) (hUniform : Uniform http maxSize bytes)
    (hMalformed : MalformedAfter http maxSize bytes ms codec left e) {payload : List PayloadPoll}
    (hCuts : Cuts payload bytes) (gateway : GatewayModel γ) (g : γ) (request : WebSocketRequest) :
    payloadOutcome http gateway g maxSize request payload =
      itemsOutcome gateway g maxSize request [.error e] := by
  obtain ⟨hNonempty, hFlatten⟩ := pieces_flatten hCuts.unbroken
  obtain ⟨hDecodes, hRefuses⟩ := hMalformed
  obtain ⟨hUnheard, hCodes⟩ := hUniform ⟨hDecodes, hRefuses⟩
  rw [← hCuts.bytes_eq, ← hFlatten] at hDecodes
  obtain ⟨given, part, e', hGiven, hPart, hError, hFeed⟩ :=
    feed_refuses (decodeNext_front hHttp) [] (pieces payload) (fun h => absurd h hNonempty)
      hDecodes hRefuses
  have hCode := hCodes hPart hError
  rw [payloadOutcome_eq hHttp hCuts, hFeed]
  refine itemsOutcome_unheard g request ?_ hCode.symm
  rw [hCode]
  exact hUnheard.of_prefix hGiven

/-- A payload whose first poll finds a malformed frame. -/
theorem payloadOutcome_refused (hHttp : http.DecodesFrames) {piece : Bytes}
    (hMalformed : MalformedAfter http maxSize piece ms codec left e) {payload : List PayloadPoll}
    (hCuts : Cuts payload bytes) {later : List Bytes} (hPieces : pieces payload = piece :: later)
    (gateway : GatewayModel γ) (g : γ) (request : WebSocketRequest) :
    payloadOutcome http gateway g maxSize request payload =
      itemsOutcome gateway g maxSize request [.error e] := by
  rw [payloadOutcome_eq hHttp hCuts, hPieces]
  exact congrArg _ (feed_refused (decodeNext_front hHttp) [] hMalformed.1 hMalformed.2 later)

/-- The bytes in one chunk. -/
theorem cuts_whole (bytes : Bytes) :
    Cuts [.chunk bytes] bytes ∧ pieces [.chunk bytes] = [bytes] := by
  refine ⟨⟨by simp, by simp [PayloadPoll.bytes]⟩, ?_⟩
  simp only [pieces, List.append_nil]

/-- The bytes in two chunks, with a poll between them. -/
theorem cuts_twice (first later : Bytes) :
    Cuts [.chunk first, .pending, .chunk later] (first ++ later) ∧
      pieces [.chunk first, .pending, .chunk later] = [first, later] := by
  refine ⟨⟨by simp, by simp [PayloadPoll.bytes]⟩, ?_⟩
  simp only [pieces, List.append_nil]

/-- The chunks make no difference exactly when no message before a malformed frame is heard
of, and the frame is refused with one close code. -/
theorem chunking_independent_iff (hHttp : http.DecodesFrames) (maxSize : Nat) (bytes : Bytes) :
    ChunkingIndependent http maxSize bytes ↔ Uniform http maxSize bytes := by
  have hNext := decodeNext_front hHttp
  constructor
  · intro hIndependent ms codec left e hMalformed
    let request : WebSocketRequest := ⟨"", "", none, []⟩
    obtain ⟨hCuts, hPieces⟩ := cuts_whole bytes
    have hWhole := payloadOutcome_refused hHttp hMalformed hCuts hPieces quietGateway () request
    refine ⟨unheard_of_quiet ((hIndependent.delivered quietGateway () request _ hCuts
      hMalformed).symm.trans hWhole), ?_⟩
    intro part e' hPart hRefused
    obtain ⟨later, rfl⟩ := hPart
    obtain ⟨front, hBytes, hFront⟩ := hMalformed.1.front hNext
    obtain ⟨hCuts', hPieces'⟩ := cuts_twice (front ++ part) later
    rw [List.append_assoc, ← hBytes] at hCuts'
    have hParts := payloadOutcome_refused hHttp ⟨hFront part, hRefused⟩ hCuts' hPieces'
      quietGateway () request
    exact code_of_quiet (hParts.symm.trans
      ((hIndependent.alike quietGateway () request _ _ hCuts' hCuts).trans hWhole))
  · intro hUniform
    refine ⟨?_, ?_⟩
    · intro γ gateway g request payload payload' hCuts hCuts'
      have hEnded := decodeAll_ended hNext (http.maxSize maxSize http.newCodec) bytes
      generalize decodeAll _ _ bytes = d at hEnded
      cases hEnded with
      | waits hDecodes hWaits =>
        have hAll {payload : List PayloadPoll} (hCuts : Cuts payload bytes) := by
          obtain ⟨hNonempty, hFlatten⟩ := pieces_flatten hCuts.unbroken
          rw [← hCuts.bytes_eq, ← hFlatten] at hDecodes
          exact feed_waits hNext [] (pieces payload) (fun h => absurd h hNonempty)
            hDecodes hWaits
        rw [payloadOutcome_eq hHttp hCuts, payloadOutcome_eq hHttp hCuts', hAll hCuts, hAll hCuts']
      | refuses hDecodes hRefuses =>
        rw [payloadOutcome_malformed hHttp hUniform ⟨hDecodes, hRefuses⟩ hCuts,
          payloadOutcome_malformed hHttp hUniform ⟨hDecodes, hRefuses⟩ hCuts']
    · intro γ gateway g request payload hCuts ms codec left e hMalformed
      rw [payloadOutcome_malformed hHttp hUniform hMalformed hCuts]
      exact (itemsOutcome_unheard g request (hUniform hMalformed).1 rfl).symm

end Chunks

/-! ## A codec of short frames -/

/-- A text or binary frame, of its first byte and the bytes from the mask on. -/
def shortFrame (first : UInt8) (masked : Bytes) : Option Frame :=
  let data := (masked.drop 4).mapIdx fun index byte => byte ^^^ masked.getD (index % 4) 0
  if first = 0x81 then some (.text data) else if first = 0x82 then some (.binary data) else none

/-- The text and binary frames of a client that are at most 125 bytes long. -/
def decodeShort : Decoder Unit UInt8 Frame ProtocolError := fun codec buf =>
  match buf with
  | first :: second :: masked =>
    if second &&& 0x80 = 0 ∨ 125 < (second &&& 0x7f).toNat then
      (.error ⟨.other, "invalid frame"⟩, buf, codec)
    else
      let length := 4 + (second &&& 0x7f).toNat
      if masked.length < length then (.ok none, buf, codec)
      else
        match shortFrame first (masked.take length) with
        | some frame => (.ok (some frame), masked.drop length, codec)
        | none => (.error ⟨.other, "invalid opcode"⟩, buf, codec)
  | _ => (.ok none, buf, codec)

def shortFrames : ActixHttp Unit where
  newCodec := ()
  maxSize _ codec := codec
  decode := decodeShort
  invalidLength _ := "invalid length"
  invalidUtf8 _ := "invalid UTF-8"
  payloadError text := text

section Short

variable {first second : UInt8} {masked : Bytes} {codec : Unit}

/-- A second byte of a frame that is not masked, or too long. -/
def InvalidSecond (second : UInt8) : Prop := second &&& 0x80 = 0 ∨ 125 < (second &&& 0x7f).toNat

/-- The header of a short frame. -/
theorem rawHeader_short (hSecond : ¬ InvalidSecond second) (hLength : 4 ≤ masked.length) :
    rawHeader (first :: second :: masked) =
      some ⟨6, (second &&& 0x7f).toNat, some (masked.take 4)⟩ := by
  obtain ⟨hMasked, hShort⟩ := not_or.mp hSecond
  have hLengths : rawLengths (first :: second :: masked) second =
      some (2, (second &&& 0x7f).toNat) := by
    unfold rawLengths
    split
    · omega
    · omega
    · rfl
  simp [rawHeader, hLengths, hMasked, hLength]

theorem decodeShort_invalid (hSecond : InvalidSecond second) (masked : Bytes) :
    decodeShort codec (first :: second :: masked) =
      (.error ⟨.other, "invalid frame"⟩, first :: second :: masked, codec) :=
  if_pos hSecond

/-- What a short frame is decoded to does not depend on what follows it. -/
theorem decodeShort_whole (hSecond : ¬ InvalidSecond second)
    (hLength : masked.length = 4 + (second &&& 0x7f).toNat) (more : Bytes) :
    decodeShort codec (first :: second :: masked ++ more) =
      match shortFrame first masked with
      | some frame => (.ok (some frame), more, codec)
      | none => (.error ⟨.other, "invalid opcode"⟩, first :: second :: masked ++ more, codec) := by
  have hWhole : ¬ (masked ++ more).length < masked.length := by
    rw [List.length_append]
    omega
  unfold InvalidSecond at hSecond
  simp only [decodeShort, List.cons_append, if_neg hSecond, ← hLength, if_neg hWhole,
    List.take_left, List.drop_left]

/-- A buffer is incomplete, or starts with an invalid frame or with a whole one. -/
theorem decodeShort_cases (codec : Unit) (buf : Bytes) :
    decodeShort codec buf = (.ok none, buf, codec) ∨
    (∃ first second masked, buf = first :: second :: masked ∧ InvalidSecond second) ∨
    ∃ first second masked rest, buf = first :: second :: masked ++ rest ∧ ¬ InvalidSecond second ∧
      masked.length = 4 + (second &&& 0x7f).toNat := by
  match buf with
  | [] | [_] => exact .inl rfl
  | first :: second :: masked =>
    by_cases hSecond : InvalidSecond second
    · exact .inr (.inl ⟨first, second, masked, rfl, hSecond⟩)
    · by_cases hLength : masked.length < 4 + (second &&& 0x7f).toNat
      · exact .inl ((if_neg hSecond).trans (if_pos hLength))
      · refine .inr (.inr ⟨first, second, masked.take (4 + (second &&& 0x7f).toNat),
          masked.drop (4 + (second &&& 0x7f).toNat), ?_, hSecond, ?_⟩)
        · simp [List.take_append_drop]
        · rw [List.length_take]
          omega

theorem shortFrames_decodes : shortFrames.DecodesFrames where
  waits := by
    intro codec buf buf' codec' h
    change decodeShort codec buf = _ at h
    rcases decodeShort_cases codec buf with hShort | ⟨first, second, masked, rfl, hSecond⟩ |
      ⟨first, second, masked, rest, rfl, hSecond, hLength⟩
    · cases hShort.symm.trans h
      exact ⟨rfl, rfl⟩
    · cases (decodeShort_invalid hSecond masked).symm.trans h
    · rw [decodeShort_whole hSecond hLength] at h
      split at h
      · cases h
      · cases h
  frame := by
    intro codec buf frame rest codec' h
    change decodeShort codec buf = _ at h
    rcases decodeShort_cases codec buf with hShort | ⟨first, second, masked, rfl, hSecond⟩ |
      ⟨first, second, masked, rest, rfl, hSecond, hLength⟩
    · cases hShort.symm.trans h
    · cases (decodeShort_invalid hSecond masked).symm.trans h
    · rw [decodeShort_whole hSecond hLength] at h
      split at h
      · rename_i frame' hFrame
        cases h
        refine ⟨first :: second :: masked, _, rfl, rawHeader_short hSecond (by omega), ?_, ?_⟩
        · simp only [RawHeader.frameLen, List.length_cons]
          omega
        · intro more
          exact (decodeShort_whole hSecond hLength more).trans (by rw [hFrame])
      · cases h
  refuses := by
    intro codec buf e h more
    change (decodeShort codec buf).1 = _ at h
    change (decodeShort codec (buf ++ more)).1 = _
    rcases decodeShort_cases codec buf with hShort | ⟨first, second, masked, rfl, hSecond⟩ |
      ⟨first, second, masked, rest, rfl, hSecond, hLength⟩
    · rw [hShort] at h
      cases h
    · rw [decodeShort_invalid hSecond] at h
      exact (congrArg Prod.fst (decodeShort_invalid hSecond (masked ++ more))).trans h
    · rw [decodeShort_whole hSecond hLength] at h
      rw [List.append_assoc, decodeShort_whole hSecond hLength]
      cases hFrame : shortFrame first masked with
      | some frame =>
        rw [hFrame] at h
        cases h
      | none =>
        rw [hFrame] at h
        exact h

end Short

/-- A text frame "hi", with a mask of zeros. -/
def hiFrame : Bytes := [0x81, 0x82, 0, 0, 0, 0, 0x68, 0x69]

theorem chunking_independent_hi : ChunkingIndependent shortFrames 16 hiFrame := by
  refine (chunking_independent_iff shortFrames_decodes 16 hiFrame).mpr ?_
  rintro ms codec left e ⟨hDecodes, hRefuses⟩
  have hHi : Decodes (decodeNext shortFrames) () hiFrame [.text "hi"] () [] :=
    .cons (by decide +kernel) (.nil () [])
  exact absurd hRefuses (hHi.not_refuses rfl hDecodes)

/-- A text is delivered only if a poll finds it without the malformed frame after it. -/
theorem chunking_differs :
    ¬ ∀ (http : ActixHttp Unit) maxSize bytes, http.DecodesFrames →
      ChunkingIndependent http maxSize bytes := by
  intro hClaim
  have hAlike := (hClaim shortFrames 16 (hiFrame ++ [0x81, 0x02]) shortFrames_decodes).alike
    quietGateway () ⟨"/chat", "", none, []⟩ _ _ (cuts_twice hiFrame [0x81, 0x02]).1
    (cuts_whole (hiFrame ++ [0x81, 0x02])).1
  exact absurd hAlike (by decide +kernel)

end Caelix
