import Caelix.WebSocket.Messages

/-!
# What a gateway sees of a connection

Whatever the gateway and other tasks do with the session, the gateway sees `on_connect`,
the complete messages in order up to the event that stops the connection, the error of that
event, and `on_close` at last.

* `Stops`: the events that stop a connection.
* `Concluded`: how a connection has gone, from its first callback to its last.
* `receive_spec`: one item, `receiveAll_spec` several in a row.
* `run_connection_concluded`: every complete run.
-/

namespace Caelix

open Interaction ConnectionTask Proc Actix

/-! ## Stopping events -/

/-- Why a connection stops. -/
inductive Stop where
  | violation (code : WebSocketCloseCode) (message : String)
  | handlerError (error : HttpException)
  | transportError (error : ProtocolError)
  | peerClose (frame : Option WebSocketCloseFrame)
  | transportEnd
  | closedLocally
  | pongRefused

namespace Stop

/-- The errors that are reported to the gateway. -/
def errors : Stop → List String
  | violation _ message => [message]
  | handlerError error => [error.message]
  | transportError error => [error.text]
  | transportEnd => ["websocket transport closed unexpectedly"]
  | peerClose _ | closedLocally | pongRefused => []

/-- The close frame of the event itself. -/
def frame : Stop → Option WebSocketCloseFrame
  | violation code message => some ⟨code, message⟩
  | handlerError _ => some ⟨.internal, "handler failed"⟩
  | transportError error => some ⟨protocolCloseCode error, "invalid websocket frame"⟩
  | peerClose frame => frame
  | transportEnd | closedLocally | pongRefused => none

def failure : Stop → Option HttpException
  | handlerError error => some error
  | _ => none

end Stop

/-- An event that stops the connection, before the remaining items. -/
inductive Stops (maxSize : Nat) (slot : Option Fragment) :
    List (Except ProtocolError Message) → Stop → Prop
  | violation {m : Message} {code : WebSocketCloseCode} {message : String}
    (h : Violates maxSize slot m code message) (rest : List (Except ProtocolError Message)) :
    Stops maxSize slot (.ok m :: rest) (.violation code message)
  /-- The callback before these items has failed. -/
  | handlerError (error : HttpException) (rest : List (Except ProtocolError Message)) :
    Stops maxSize slot rest (.handlerError error)
  | transportError (error : ProtocolError) (rest : List (Except ProtocolError Message)) :
    Stops maxSize slot (.error error :: rest) (.transportError error)
  | peerClose {reason : CloseReason} {frame : WebSocketCloseFrame}
    (h : fromActixClose reason = some frame) (rest : List (Except ProtocolError Message)) :
    Stops maxSize slot (.ok (.close (some reason)) :: rest) (.peerClose (some frame))
  | peerCloseEmpty (rest : List (Except ProtocolError Message)) :
    Stops maxSize slot (.ok (.close none) :: rest) (.peerClose none)
  | transportEnd : Stops maxSize slot [] .transportEnd
  | closedLocally (rest : List (Except ProtocolError Message)) :
    Stops maxSize slot rest .closedLocally
  | pongRefused (data : Bytes) (rest : List (Except ProtocolError Message)) :
    Stops maxSize slot (.ok (.ping data) :: rest) .pongRefused

/-- The task itself has not called `close`. -/
def ByOthers (requests : List (CloseRequest ActixSession)) : Prop :=
  ∀ request ∈ requests, request.caller = .other

/-- The session was closed by a call of `close` that was not rejected. -/
def ClosedByCall (requests : List (CloseRequest ActixSession)) (session : ActixSession) : Prop :=
  session.closed = true ∧ ∃ request ∈ requests, Accepted request.frame

/-- What must have happened for the connection to stop so. A connection that stops by itself
was closed by a callback or another task before the next item, and `is_open` has told the task
so since the last callback; a pong is refused by a session that they have closed, or whose
response body is gone. In the other cases the task has called `close` with the frame. -/
def Stop.Grounds (stop : Stop) (requests : List (CloseRequest ActixSession))
    (found : Option Bool) (session : ActixSession) : Prop :=
  match stop with
  | closedLocally => found = some false ∧ ByOthers requests ∧ ClosedByCall requests session
  | pongRefused => ByOthers requests ∧ (ClosedByCall requests session ∨ session.receiving = false)
  | transportEnd => True
  | _ => ∃ request ∈ requests, request.caller = .task ∧ request.frame = stop.frame

variable {maxSize : Nat} {request : WebSocketRequest} {items : List (Except ProtocolError Message)}
  {slot : Option Fragment} {callbacks : List Callback} {errors : List (Option HttpException)}
  {s t : Connection ActixSession}

/-- No frame, or that of a call of `close`. -/
def Connection.Asked (s : Connection ActixSession) (frame : Option WebSocketCloseFrame) : Prop :=
  ∀ f, frame = some f → ∃ request ∈ s.requests, request.frame = some f

/-- A callback for a message of the peer comes after `is_open` has said yes. -/
def Connection.FoundOpen (s : Connection ActixSession) : Prop :=
  ∀ i ∈ s.invocations, i.callback.IsMessage → i.found = some true

/-- The callbacks so far and their errors. -/
structure Log (callbacks : List Callback) (errors : List (Option HttpException))
    (s : Connection ActixSession) : Prop where
  callbacks_eq : s.callbacks = callbacks
  errors_eq : s.invocations.map (·.error) = errors
  found_open : s.FoundOpen
  /-- The transport clears the flag `open` only when it closes the session. -/
  closed : s.session.isOpen = false → s.session.transport.closed = true
  closed_asked : s.session.transport.closed = true → ClosedByCall s.requests s.session.transport
  closeFrame : s.Asked s.session.closeFrame

/-- The task is still in its loop: it has not called `close`. -/
structure InLoop (callbacks : List Callback) (errors : List (Option HttpException))
    (s : Connection ActixSession) : Prop extends Log callbacks errors s where
  by_others : ByOthers s.requests

/-- A connection that has left its loop. -/
structure Stopped (maxSize : Nat) (request : WebSocketRequest)
    (items : List (Except ProtocolError Message)) (stop : Stop) (s : Connection ActixSession) :
    Prop where
  sequence : ∃ taken rest delivered slot, items = taken.map .ok ++ rest ∧
    Taken maxSize taken delivered slot ∧ Stops maxSize slot rest stop ∧
    Log (.onConnect request :: delivered ++ stop.errors.map fun message => .onError ⟨message⟩)
      (List.replicate delivered.length none ++ stop.failure :: stop.errors.map fun _ => none) s
  grounds : stop.Grounds s.requests s.found s.session.transport

/-! ## What happens beside the callbacks -/

/-- The session has been called, but no callback has been made. -/
structure Later (s t : Connection ActixSession) : Prop where
  invocations_eq : t.invocations = s.invocations
  requests : s.requests ⊆ t.requests
  closed : s.session.transport.closed = true → t.session.transport.closed = true
  receiving : s.session.transport.receiving = false → t.session.transport.receiving = false
  open_closed : (s.session.isOpen = false → s.session.transport.closed = true) →
    t.session.isOpen = false → t.session.transport.closed = true
  closed_asked : s.session.transport.closed = false → t.session.transport.closed = true →
    ∃ request ∈ t.requests, Accepted request.frame
  closeFrame : s.Asked s.session.closeFrame → t.Asked t.session.closeFrame

/-- The task has not closed the session meanwhile, and has not asked whether it is open. -/
structure Beside (s t : Connection ActixSession) : Prop extends Later s t where
  by_others : ByOthers s.requests → ByOthers t.requests
  found_eq : t.found = s.found

theorem later_of_link (hLink : LinkStep s.session.toLink t.session.toLink)
    (hInvocations : t.invocations = s.invocations) (hRequests : s.requests ⊆ t.requests)
    (hAsked : s.session.transport.closed = false → t.session.transport.closed = true →
      ∃ request ∈ t.requests, Accepted request.frame)
    (hFrame : s.Asked s.session.closeFrame → t.Asked t.session.closeFrame) : Later s t := by
  obtain ⟨session, requests, found, invocations⟩ := t
  obtain ⟨link, frame⟩ := session
  refine ⟨hInvocations, hRequests, ?_, ?_, ?_, hAsked, hFrame⟩
  all_goals
    dsimp only at hLink ⊢
    cases hLink with
    | refused => exact fun h => h
    | message => exact fun h => h
    | hangUp => first | exact fun h => h | exact fun _ => rfl
    | close frame hFrame => first
      | exact fun _ => close_closed _ _
      | exact fun _ _ => close_closed _ _
      | exact fun h => (close_receiving _ _).trans h

theorem whenOpen_closeFrame (s : WebSocketSession ActixSession) (f : LinkAction ActixSession) :
    (s.whenOpen f).2.closeFrame = s.closeFrame := by
  unfold WebSocketSession.whenOpen
  split <;> rfl

/-- A message that is sent does not close the session. -/
theorem whenOpen_closed (s : WebSocketSession ActixSession) (message : Message) :
    (s.whenOpen (onActixSession (·.sendMessage message))).2.transport.closed =
      s.transport.closed := by
  unfold WebSocketSession.whenOpen
  split
  · rfl
  · change (s.transport.sendMessage message).2.closed = s.transport.closed
    unfold ActixSession.sendMessage ActixSession.sendMessageInner
    split
    · rfl
    · split <;> rfl

/-- The transport closes a session with the frame that it is asked for, if it accepts it. -/
theorem close_accepted {frame : Option WebSocketCloseFrame}
    {session : WebSocketSession ActixSession} (hClosed : session.transport.closed = false)
    (h : (session.close actixTransport frame).2.transport.closed = true) : Accepted frame := by
  by_contra hFrame
  have hLink : (session.close actixTransport frame).2.toLink =
      (actixTransport.close frame session.toLink).2 := rfl
  rw [hLink, actixTransport_close, if_neg hFrame, hClosed] at h
  cases h

theorem act_later (s : Connection ActixSession) (caller : Caller) (c : SessionCall) :
    Later s (s.act actixTransport caller c).2 := by
  have hLink := act_link c s.session
  cases c with
  | close frame =>
    refine later_of_link hLink rfl (List.subset_append_left _ _) ?_ ?_
    · intro hOpen hClosed
      exact ⟨⟨caller, frame, s.session.toLink⟩, List.mem_append_right _ List.mem_cons_self,
        close_accepted hOpen hClosed⟩
    · intro _ f hf
      exact ⟨⟨caller, frame, s.session.toLink⟩, List.mem_append_right _ List.mem_cons_self, hf⟩
  | isOpen =>
    refine later_of_link hLink rfl (List.Subset.refl _) ?_ fun h => h
    intro hOpen hClosed
    exact absurd (hOpen.symm.trans hClosed) nofun
  | sendText text | sendBinary data | ping data | pong data =>
    refine later_of_link hLink rfl (List.Subset.refl _) ?_ ?_
    · intro hOpen hClosed
      exact absurd (hOpen.symm.trans ((whenOpen_closed _ _).symm.trans hClosed)) nofun
    · intro h f hf
      exact h f ((whenOpen_closeFrame _ _).symm.trans hf)

/-- A call that is not the task's, or that neither closes the session nor reads the flag. -/
theorem act_beside (s : Connection ActixSession) {caller : Caller} {c : SessionCall}
    (h : caller = .other ∨ ∃ data, c = .pong data) :
    Beside s (s.act actixTransport caller c).2 := by
  refine ⟨act_later s caller c, ?_, ?_⟩
  · rcases h with rfl | ⟨data, rfl⟩
    · cases c with
      | close frame =>
        intro hOthers request hMem
        rcases List.mem_append.mp hMem with hMem | hMem
        · exact hOthers request hMem
        · rw [List.mem_singleton.mp hMem]
      | isOpen | sendText | sendBinary | ping | pong => exact fun h => h
    · exact fun h => h
  · rcases h with rfl | ⟨data, rfl⟩
    · rfl
    · cases caller <;> rfl

theorem change_later (h : actixEnvironment.change s t) : Beside s t := by
  have hLink := change_link h
  cases h with
  | act c => exact act_beside s (.inl rfl)
  | drift h =>
    refine ⟨later_of_link hLink rfl (List.Subset.refl _) ?_ fun h => h, fun h => h, rfl⟩
    cases h with
    | drop => exact fun hOpen hClosed => absurd (hOpen.symm.trans hClosed) nofun

theorem ClosedByCall.later (h : ClosedByCall s.requests s.session.transport) (hLater : Later s t) :
    ClosedByCall t.requests t.session.transport := by
  obtain ⟨hClosed, request, hMem, hFrame⟩ := h
  exact ⟨hLater.closed hClosed, request, hLater.requests hMem, hFrame⟩

theorem Log.later (h : Log callbacks errors s) (hLater : Later s t) : Log callbacks errors t where
  callbacks_eq := by
    rw [Connection.callbacks, hLater.invocations_eq]
    exact h.callbacks_eq
  errors_eq := by
    rw [hLater.invocations_eq]
    exact h.errors_eq
  found_open := by
    rw [Connection.FoundOpen, hLater.invocations_eq]
    exact h.found_open
  closed := hLater.open_closed h.closed
  closed_asked := by
    intro hClosed
    cases hBefore : s.session.transport.closed with
    | true => exact (h.closed_asked hBefore).later hLater
    | false => exact ⟨hClosed, hLater.closed_asked hBefore hClosed⟩
  closeFrame := hLater.closeFrame h.closeFrame

theorem InLoop.later (h : InLoop callbacks errors s) (hLater : Beside s t) :
    InLoop callbacks errors t :=
  ⟨h.toLog.later hLater.toLater, hLater.by_others h.by_others⟩

theorem Stop.Grounds.later {stop : Stop} (h : stop.Grounds s.requests s.found s.session.transport)
    (hLater : Beside s t) : stop.Grounds t.requests t.found t.session.transport := by
  cases stop with
  | closedLocally =>
    obtain ⟨hFound, hOthers, hClosed⟩ := h
    exact ⟨hLater.found_eq.trans hFound, hLater.by_others hOthers, hClosed.later hLater.toLater⟩
  | pongRefused =>
    obtain ⟨hOthers, hRefused⟩ := h
    exact ⟨hLater.by_others hOthers,
      hRefused.imp (fun hClosed => hClosed.later hLater.toLater) hLater.receiving⟩
  | transportEnd => trivial
  | violation | handlerError | transportError | peerClose =>
    obtain ⟨request, hMem, hTask, hFrame⟩ := h
    exact ⟨request, hLater.requests hMem, hTask, hFrame⟩

theorem Stopped.later {stop : Stop} (h : Stopped maxSize request items stop s) (hLater : Beside s t) :
    Stopped maxSize request items stop t := by
  obtain ⟨⟨taken, rest, delivered, slot, hItems, hTaken, hStops, hLog⟩, hGrounds⟩ := h
  exact ⟨⟨taken, rest, delivered, slot, hItems, hTaken, hStops, hLog.later hLater.toLater⟩,
    hGrounds.later hLater⟩

theorem inLoop_new : InLoop [] [] (.new .new) := ⟨⟨rfl, rfl, nofun, nofun, nofun, nofun⟩, nofun⟩

theorem inLoop_stable : actixEnvironment.Stable (InLoop callbacks errors) :=
  fun _ _ hChange h => h.later (change_later hChange)

theorem stopped_stable {stop : Stop} :
    actixEnvironment.Stable (Stopped maxSize request items stop) :=
  fun _ _ hChange h => h.later (change_later hChange)

theorem InLoop.invoke (h : InLoop callbacks errors s) (c : Callback) (reply : c.Reply)
    (hFound : c.IsMessage → s.found = some true) :
    InLoop (callbacks ++ [c]) (errors ++ [c.failure reply]) (s.invoke c reply) where
  callbacks_eq := by
    rw [← h.callbacks_eq]
    simp [Connection.callbacks, Connection.invoke]
  errors_eq := by
    rw [← h.errors_eq]
    simp [Connection.invoke]
  found_open := by
    intro i hi
    rcases List.mem_append.mp hi with hi | hi
    · exact h.found_open i hi
    · rw [List.mem_singleton.mp hi]
      exact hFound
  closed := h.closed
  closed_asked := h.closed_asked
  closeFrame := h.closeFrame
  by_others := h.by_others

/-! ## The calls of the task -/

theorem isOpen_bind {α : Type} {f : Bool → ConnectionTask α}
    {Q : Except (Option WebSocketCloseFrame) α → Connection ActixSession → Prop}
    (hLog : InLoop callbacks errors s)
    (h : ∀ t open', InLoop callbacks errors t → t.found = some open' →
      (open' = false → ClosedByCall t.requests t.session.transport) →
      (f open').run.Wp actixEnvironment Q t) : (isOpen >>= f).run.Wp actixEnvironment Q s := by
  refine wp_ask_bind inLoop_stable hLog ?_
  intro t u open' hLog hExecute
  cases hExecute with
  | session =>
    refine h _ _ ⟨hLog.toLog.later (act_later t .task .isOpen), hLog.by_others⟩ rfl ?_
    exact fun hOpen => hLog.closed_asked (hLog.closed hOpen)

theorem callback_bind {α : Type} (c : Callback) {f : c.Reply → ConnectionTask α}
    {Q : Except (Option WebSocketCloseFrame) α → Connection ActixSession → Prop}
    (hLog : InLoop callbacks errors s) (hFound : c.IsMessage → s.found = some true)
    (h : ∀ t reply, InLoop (callbacks ++ [c]) (errors ++ [c.failure reply]) t →
      (f reply).run.Wp actixEnvironment Q t) :
    (Proc.ask (ConnectionCall.callback c) >>= f : ConnectionTask α).run.Wp actixEnvironment Q s := by
  have hStable : actixEnvironment.Stable fun s : Connection ActixSession =>
      InLoop callbacks errors s ∧ (c.IsMessage → s.found = some true) := by
    intro s t hChange ⟨hLog, hFound⟩
    have hLater := change_later hChange
    exact ⟨hLog.later hLater, fun hMessage => hLater.found_eq.trans (hFound hMessage)⟩
  refine wp_ask_bind hStable ⟨hLog, hFound⟩ ?_
  intro t u reply ⟨hLog, hFound⟩ hExecute
  cases hExecute with
  | callback => exact h _ reply (hLog.invoke c reply hFound)

theorem close_bind {α : Type} (frame : Option WebSocketCloseFrame)
    {f : Except HttpException Unit → ConnectionTask α}
    {Q : Except (Option WebSocketCloseFrame) α → Connection ActixSession → Prop}
    (hLog : InLoop callbacks errors s)
    (h : ∀ t reply, Log callbacks errors t →
      (∃ request ∈ t.requests, request.caller = .task ∧ request.frame = frame) →
      (f reply).run.Wp actixEnvironment Q t) : (close frame >>= f).run.Wp actixEnvironment Q s := by
  refine wp_ask_bind inLoop_stable hLog ?_
  intro t u reply hLog hExecute
  cases hExecute with
  | session =>
    refine h _ _ (hLog.toLog.later (act_later t .task (.close frame))) ?_
    exact ⟨⟨.task, frame, t.session.toLink⟩, List.mem_append_right _ List.mem_cons_self, rfl, rfl⟩

/-- A pong is refused by a session that does not send any more. -/
theorem pong_refused {data : Bytes} {e : HttpException} {caller : Caller}
    (hClosed : s.session.isOpen = false → s.session.transport.closed = true)
    (h : (s.act actixTransport caller (.pong data)).1 = .error e) :
    s.session.transport.closed = true ∨ s.session.transport.receiving = false := by
  by_contra hUsable
  obtain ⟨hNotClosed, hReceiving⟩ := not_or.mp hUsable
  have hOpen : s.session.isOpen = true := by
    by_contra hOpen
    exact hNotClosed (hClosed (Bool.eq_false_iff.mpr hOpen))
  simp [Connection.act, WebSocketSession.act, WebSocketSession.whenOpen,
    WebSocketSession.ensureOpen, hOpen, WebSocketSession.onLink, actixTransport, onActixSession,
    ActixSession.pong, ActixSession.sendMessage, ActixSession.sendMessageInner, hNotClosed,
    hReceiving] at h

theorem pong_bind {α : Type} (data : Bytes) {f : Except HttpException Unit → ConnectionTask α}
    {Q : Except (Option WebSocketCloseFrame) α → Connection ActixSession → Prop}
    (hLog : InLoop callbacks errors s)
    (h : ∀ t reply, InLoop callbacks errors t → (∀ e, reply = .error e →
      ClosedByCall t.requests t.session.transport ∨ t.session.transport.receiving = false) →
      (f reply).run.Wp actixEnvironment Q t) : (pong data >>= f).run.Wp actixEnvironment Q s := by
  refine wp_ask_bind inLoop_stable hLog ?_
  intro t u reply hLog hExecute
  cases hExecute with
  | session =>
    have hLater : Beside t (t.act actixTransport .task (.pong data)).2 :=
      act_beside t (.inr ⟨data, rfl⟩)
    refine h _ _ (hLog.later hLater) ?_
    intro e hReply
    rcases pong_refused hLog.closed hReply with hClosed | hReceiving
    · exact .inl ((hLog.closed_asked hClosed).later hLater.toLater)
    · exact .inr (hLater.receiving hReceiving)

theorem reportAndClose_bind {α : Type} (message : String) (frame : WebSocketCloseFrame)
    {f : WebSocketCloseFrame → ConnectionTask α}
    {Q : Except (Option WebSocketCloseFrame) α → Connection ActixSession → Prop}
    (hLog : InLoop callbacks errors s)
    (h : ∀ t, Log (callbacks ++ [.onError ⟨message⟩]) (errors ++ [none]) t →
      (∃ request ∈ t.requests, request.caller = .task ∧ request.frame = some frame) →
      (f frame).run.Wp actixEnvironment Q t) :
    (reportAndClose message frame >>= f).run.Wp actixEnvironment Q s := by
  refine callback_bind (.onError ⟨message⟩) hLog nofun ?_
  intro t _ hLog
  refine close_bind (some frame) hLog ?_
  intro u _ hLog hRequest
  exact h u hLog hRequest

/-! ## One item -/

/-- Between two items: `rest` are those to come. -/
def Progress (maxSize : Nat) (request : WebSocketRequest)
    (items rest : List (Except ProtocolError Message)) (slot : Option Fragment)
    (s : Connection ActixSession) : Prop :=
  ∃ taken delivered, items = taken.map .ok ++ rest ∧ Taken maxSize taken delivered slot ∧
    InLoop (.onConnect request :: delivered) (List.replicate (delivered.length + 1) none) s

/-- The loop is left with a close frame to report. -/
def Left (maxSize : Nat) (request : WebSocketRequest) (items : List (Except ProtocolError Message))
    (frame : Option WebSocketCloseFrame) (s : Connection ActixSession) : Prop :=
  ∃ stop, stop.frame = frame ∧ Stopped maxSize request items stop s

/-- A part of the loop goes on with `R`, or leaves the loop. -/
def Goes {α : Type} (maxSize : Nat) (request : WebSocketRequest)
    (items : List (Except ProtocolError Message)) (R : α → Connection ActixSession → Prop) :
    Except (Option WebSocketCloseFrame) α → Connection ActixSession → Prop
  | .ok a => R a
  | .error frame => Left maxSize request items frame

variable {α : Type} {R : α → Connection ActixSession → Prop}
  {rest : List (Except ProtocolError Message)}

theorem progress_stable :
    actixEnvironment.Stable (Progress maxSize request items rest slot) := by
  rintro s t hChange ⟨taken, delivered, hItems, hTaken, hLog⟩
  exact ⟨taken, delivered, hItems, hTaken, hLog.later (change_later hChange)⟩

theorem left_stable (frame : Option WebSocketCloseFrame) :
    actixEnvironment.Stable (Left maxSize request items frame) := by
  rintro s t hChange ⟨stop, hFrame, hStopped⟩
  exact ⟨stop, hFrame, stopped_stable s t hChange hStopped⟩

theorem wp_throw {frame : Option WebSocketCloseFrame} (h : Left maxSize request items frame s) :
    (throw frame : ConnectionTask α).run.Wp actixEnvironment (Goes maxSize request items R) s :=
  wp_pure (left_stable frame) h

theorem wp_return {a : α} (hStable : actixEnvironment.Stable (R a)) (h : R a s) :
    (return a : ConnectionTask α).run.Wp actixEnvironment (Goes maxSize request items R) s :=
  wp_pure hStable h

/-- An event that reports no error and no failure. -/
theorem stopped_of_log {taken : List Message} {delivered : List Callback}
    (hItems : items = taken.map .ok ++ rest) (hTaken : Taken maxSize taken delivered slot)
    {stop : Stop} (hStops : Stops maxSize slot rest stop) (hErrors : stop.errors = [])
    (hFailure : stop.failure = none)
    (hLog : Log (.onConnect request :: delivered) (List.replicate (delivered.length + 1) none) s)
    (hGrounds : stop.Grounds s.requests s.found s.session.transport) :
    Stopped maxSize request items stop s := by
  refine ⟨⟨taken, rest, delivered, slot, hItems, hTaken, hStops, ?_⟩, hGrounds⟩
  rw [hErrors, hFailure, List.map_nil, List.map_nil, List.append_nil, ← List.replicate_succ']
  exact hLog

/-- A session that is not open any more ends the loop. -/
theorem left_closed (h : Progress maxSize request items rest slot s) (hFound : s.found = some false)
    (hClosed : ClosedByCall s.requests s.session.transport) : Left maxSize request items none s := by
  obtain ⟨taken, delivered, hItems, hTaken, hLog⟩ := h
  exact ⟨.closedLocally, rfl, stopped_of_log hItems hTaken (.closedLocally rest) rfl rfl hLog.toLog
    ⟨hFound, hLog.by_others, hClosed⟩⟩

/-- An event that reports an error and asks for a close. -/
theorem Progress.reported (h : Progress maxSize request items rest slot s) {stop : Stop}
    {message : String} {frame : WebSocketCloseFrame} (hStops : Stops maxSize slot rest stop)
    (hErrors : stop.errors = [message]) (hFailure : stop.failure = none)
    (hFrame : stop.frame = some frame)
    (hGrounds : ∀ t : Connection ActixSession,
      (∃ request ∈ t.requests, request.caller = .task ∧ request.frame = some frame) →
        stop.Grounds t.requests t.found t.session.transport) :
    (reportAndClose message frame >>= fun frame => throw (some frame) :
      ConnectionTask α).run.Wp actixEnvironment (Goes maxSize request items R) s := by
  obtain ⟨taken, delivered, hItems, hTaken, hLog⟩ := h
  refine reportAndClose_bind message frame hLog ?_
  intro t hLog hRequest
  refine wp_throw ⟨stop, hFrame, ⟨taken, rest, delivered, slot, hItems, hTaken, hStops, ?_⟩,
    hGrounds t hRequest⟩
  rw [hErrors, hFailure]
  have hErrors : List.replicate (delivered.length + 1) none ++ [none] =
      List.replicate delivered.length none ++ none :: [(none : Option HttpException)] := by
    rw [List.replicate_succ', List.append_assoc]
    rfl
  rw [hErrors] at hLog
  exact hLog

theorem violation_spec (h : Progress maxSize request items rest slot s)
    {code : WebSocketCloseCode} {message : String}
    (hStops : Stops maxSize slot rest (.violation code message)) :
    (violation code message : ConnectionTask α).run.Wp actixEnvironment
      (Goes maxSize request items R) s :=
  h.reported hStops rfl rfl rfl fun _ hRequest => hRequest

/-! ## Complete messages -/

/-- A handler has returned, after the last of the messages delivered. -/
theorem handled_spec {taken : List Message} {delivered : List Callback}
    (hItems : items = taken.map .ok ++ rest) (hTaken : Taken maxSize taken delivered slot)
    (reply : Except HttpException Unit)
    (hLog : InLoop (.onConnect request :: delivered)
      (List.replicate delivered.length none ++ [failed reply]) s) :
    (handled reply).run.Wp actixEnvironment
      (Goes maxSize request items fun _ => Progress maxSize request items rest slot) s := by
  cases reply with
  | ok _ =>
    refine wp_return progress_stable ⟨taken, delivered, hItems, hTaken, ?_⟩
    rw [List.replicate_succ']
    exact hLog
  | error e =>
    refine reportAndClose_bind e.message ⟨.internal, "handler failed"⟩ hLog ?_
    intro t hLog hRequest
    refine wp_throw ⟨.handlerError e, rfl,
      ⟨taken, rest, delivered, slot, hItems, hTaken, .handlerError e rest, ?_⟩, hRequest⟩
    rw [List.append_assoc] at hLog
    exact hLog

variable {item : Except ProtocolError Message} {m : Message}

/-- A callback for the message that the next item completes. -/
theorem message_spec (h : Progress maxSize request items (.ok m :: rest) slot s)
    (hFound : s.found = some true) (c : Callback) {slot' : Option Fragment}
    (hTaken : ∀ taken delivered, Taken maxSize taken delivered slot →
      Taken maxSize (taken ++ [m]) (delivered ++ [c]) slot')
    {f : c.Reply → ConnectionTask Unit} {reply : c.Reply → Except HttpException Unit}
    (hf : ∀ r, f r = handled (reply r)) (hFailure : ∀ r, c.failure r = failed (reply r)) :
    (Proc.ask (ConnectionCall.callback c) >>= f : ConnectionTask Unit).run.Wp actixEnvironment
      (Goes maxSize request items fun _ => Progress maxSize request items rest slot') s := by
  obtain ⟨taken, delivered, hItems, hBefore, hLog⟩ := h
  refine callback_bind c hLog (fun _ => hFound) ?_
  intro t r hLog
  rw [hf]
  have hAfter : items = (taken ++ [m]).map .ok ++ rest := by
    rw [hItems, List.map_append, List.append_assoc]
    rfl
  refine handled_spec hAfter (hTaken taken delivered hBefore) _ ?_
  rw [List.length_append, List.length_singleton, ← hFailure]
  exact hLog

theorem onText_spec (h : Progress maxSize request items (.ok m :: rest) slot s)
    (hFound : s.found = some true) (text : String) {slot' : Option Fragment}
    (hTaken : ∀ taken delivered, Taken maxSize taken delivered slot →
      Taken maxSize (taken ++ [m]) (delivered ++ [.onText text]) slot') :
    (onText text >>= handled).run.Wp actixEnvironment
      (Goes maxSize request items fun _ => Progress maxSize request items rest slot') s :=
  message_spec h hFound (.onText text) hTaken (fun _ => rfl) (failure_onText text)

theorem onBinary_spec (h : Progress maxSize request items (.ok m :: rest) slot s)
    (hFound : s.found = some true) (data : Bytes) {slot' : Option Fragment}
    (hTaken : ∀ taken delivered, Taken maxSize taken delivered slot →
      Taken maxSize (taken ++ [m]) (delivered ++ [.onBinary data]) slot') :
    (onBinary data >>= handled).run.Wp actixEnvironment
      (Goes maxSize request items fun _ => Progress maxSize request items rest slot') s :=
  message_spec h hFound (.onBinary data) hTaken (fun _ => rfl) (failure_onBinary data)

/-- A step of the loop body, before the new value of `fragment` is returned. -/
theorem then_return {x : ConnectionTask Unit} {slot' : Option Fragment}
    (h : x.run.Wp actixEnvironment
      (Goes maxSize request items fun _ => Progress maxSize request items rest slot') s) :
    (x >>= fun _ => return slot').run.Wp actixEnvironment
      (Goes maxSize request items (Progress maxSize request items rest)) s := by
  refine wp_bind_except h left_stable (fun _ _ h => h) ?_
  intro _ t hProgress
  exact wp_return progress_stable hProgress

/-- An item that leaves the messages as they are. -/
theorem Progress.skip (h : Progress maxSize request items (.ok m :: rest) slot s)
    {slot' : Option Fragment}
    (hTaken : ∀ taken delivered, Taken maxSize taken delivered slot →
      Taken maxSize (taken ++ [m]) delivered slot') :
    Progress maxSize request items rest slot' s := by
  obtain ⟨taken, delivered, hItems, hBefore, hLog⟩ := h
  refine ⟨taken ++ [m], delivered, ?_, hTaken taken delivered hBefore, hLog⟩
  rw [hItems, List.map_append, List.append_assoc]
  rfl

theorem Progress.control (h : Progress maxSize request items (.ok m :: rest) slot s)
    (hm : m.IsControl) : Progress maxSize request items rest slot s :=
  h.skip fun _ _ hTaken => hTaken.control hm

theorem deliver_spec {frame : Item}
    (h : Progress maxSize request items (.ok (.continuation frame) :: rest) slot s)
    (hFound : s.found = some true) {message : Fragment} {slot' : Option Fragment}
    (hNext : nextFragment maxSize slot frame = .ok (some message, slot')) :
    (deliver message).run.Wp actixEnvironment
      (Goes maxSize request items fun _ => Progress maxSize request items rest slot') s := by
  obtain ⟨rfl, fragment, last, rfl, rfl, hSize, rfl⟩ := nextFragment_some hNext
  cases fragment with
  | text data =>
    rw [Fragment.extend, deliver]
    have hLength : (data ++ last).length ≤ maxSize := by
      rw [List.length_append]
      exact hSize
    split
    next text hText =>
      refine onText_spec h hFound text ?_
      intro taken delivered hTaken
      cases hTaken with
      | inside hMessages hNew =>
        rw [List.append_assoc]
        exact .between (hMessages.message (.fragmentedText hNew hLength hText))
    next hText => exact violation_spec h (.violation (.notUtf8 hLength hText) rest)
  | binary data =>
    refine onBinary_spec h hFound (data ++ last) ?_
    intro taken delivered hTaken
    have hLength : (data ++ last).length ≤ maxSize := by
      rw [List.length_append]
      exact hSize
    cases hTaken with
    | inside hMessages hNew =>
      rw [List.append_assoc]
      exact .between (hMessages.message (.fragmentedBinary hNew hLength))

theorem receive_spec (h : Progress maxSize request items (item :: rest) slot s)
    (hFound : s.found = some true) :
    (Actix.receive maxSize slot item).run.Wp actixEnvironment
      (Goes maxSize request items (Progress maxSize request items rest)) s := by
  cases item with
  | error error =>
    exact h.reported (.transportError error rest) rfl rfl rfl fun _ hRequest => hRequest
  | ok m =>
    cases m with
    | text text =>
      cases slot with
      | some fragment =>
        exact violation_spec h (.violation (.interleaved fragment (.inl ⟨text, rfl⟩)) rest)
      | none => exact then_return (onText_spec h hFound text fun _ _ hTaken => hTaken.text text)
    | binary data =>
      cases slot with
      | some fragment =>
        exact violation_spec h (.violation (.interleaved fragment (.inr ⟨data, rfl⟩)) rest)
      | none =>
        exact then_return (onBinary_spec h hFound data fun _ _ hTaken => hTaken.binary data)
    | continuation frame =>
      rw [Actix.receive]
      split
      next message slot' hNext => exact then_return (deliver_spec h hFound hNext)
      next slot' hNext =>
        exact wp_return progress_stable (h.skip fun _ _ hTaken => hTaken.frame hNext)
      next code hNext => exact violation_spec h (.violation (violates_of_error hNext) rest)
    | ping data =>
      obtain ⟨taken, delivered, hItems, hTaken, hLog⟩ := h
      refine pong_bind data hLog ?_
      intro t reply hLog hRefused
      have hProgress : Progress maxSize request items (.ok (.ping data) :: rest) slot t :=
        ⟨taken, delivered, hItems, hTaken, hLog⟩
      cases reply with
      | ok _ => exact wp_return progress_stable (hProgress.control (.ping data))
      | error e =>
        exact wp_throw ⟨.pongRefused, rfl, stopped_of_log hItems hTaken (.pongRefused data rest)
          rfl rfl hLog.toLog ⟨hLog.by_others, hRefused e rfl⟩⟩
    | pong data => exact wp_return progress_stable (h.control (.pong data))
    | nop => exact wp_return progress_stable (h.control .nop)
    | close reason =>
      obtain ⟨taken, delivered, hItems, hTaken, hLog⟩ := h
      cases reason with
      | none =>
        refine close_bind none hLog ?_
        intro t _ hLog hRequest
        exact wp_throw ⟨.peerClose none, rfl,
          stopped_of_log hItems hTaken (.peerCloseEmpty rest) rfl rfl hLog hRequest⟩
      | some reason =>
        rw [Actix.receive]
        split
        next frame hFrame =>
          refine close_bind (some frame) hLog ?_
          intro t _ hLog hRequest
          exact wp_throw ⟨.peerClose (some frame), rfl,
            stopped_of_log hItems hTaken (.peerClose hFrame rest) rfl rfl hLog hRequest⟩
        next hFrame =>
          exact violation_spec ⟨taken, delivered, hItems, hTaken, hLog⟩
            (.violation (.closeCode slot hFrame) rest)

/-! ## Whole runs -/

/-- Several items, with `rest` after them. -/
theorem receiveAll_spec {now : List (Except ProtocolError Message)}
    (h : Progress maxSize request items (now ++ rest) slot s) :
    (Actix.receiveAll maxSize slot now).run.Wp actixEnvironment
      (Goes maxSize request items (Progress maxSize request items rest)) s := by
  induction now generalizing slot s with
  | nil => exact wp_return progress_stable h
  | cons item now ih =>
    obtain ⟨taken, delivered, hItems, hTaken, hLog⟩ := h
    refine isOpen_bind hLog ?_
    intro t open' hLog hFound hClosed
    have hProgress : Progress maxSize request items (item :: (now ++ rest)) slot t :=
      ⟨taken, delivered, hItems, hTaken, hLog⟩
    cases open' with
    | false => exact wp_throw (left_closed hProgress hFound (hClosed rfl))
    | true =>
      refine wp_bind_except (receive_spec hProgress hFound) left_stable (fun _ _ h => h) ?_
      intro slot' u hNext
      exact ih hNext

/-- The loop is left when the stream has ended. -/
theorem streamEnd_spec (h : Progress maxSize request items [] slot s) :
    streamEnd.run.Wp actixEnvironment
      (Goes maxSize request items fun _ => Left maxSize request items none) s := by
  obtain ⟨taken, delivered, hItems, hTaken, hLog⟩ := h
  refine isOpen_bind hLog ?_
  intro t open' hLog hFound hClosed
  have hProgress : Progress maxSize request items [] slot t :=
    ⟨taken, delivered, hItems, hTaken, hLog⟩
  cases open' with
  | false => exact wp_return (left_stable none) (left_closed hProgress hFound (hClosed rfl))
  | true =>
    refine callback_bind (f := fun _ => return ()) (.onError _) hLog nofun ?_
    intro u _ hLog
    refine wp_return (left_stable none) ⟨.transportEnd, rfl,
      ⟨taken, [], delivered, slot, hItems, hTaken, .transportEnd, ?_⟩, trivial⟩
    rw [List.replicate_succ', List.append_assoc] at hLog
    exact hLog.toLog

theorem messageLoop_spec (h : Progress maxSize request items items none s) :
    (messageLoop maxSize items).run.Wp actixEnvironment
      (Goes maxSize request items fun _ => Left maxSize request items none) s := by
  have hAll : Progress maxSize request items (items ++ []) none s := by
    rw [List.append_nil]
    exact h
  refine wp_bind_except (receiveAll_spec hAll) left_stable (fun _ _ h => h) ?_
  intro slot t hProgress
  obtain ⟨taken, delivered, hItems, hTaken, hLog⟩ := hProgress
  refine isOpen_bind hLog ?_
  intro u open' hLog hFound hClosed
  have hProgress : Progress maxSize request items [] slot u :=
    ⟨taken, delivered, hItems, hTaken, hLog⟩
  cases open' with
  | false => exact wp_return (left_stable none) (left_closed hProgress hFound (hClosed rfl))
  | true => exact streamEnd_spec hProgress

/-- A complete run: the callbacks before `on_close` are those of the loop, and `on_close` is
the last one; it finds the session closed. Each message was taken from a session that was found
open after the callback before it, and `grounds` says why no other item was taken. -/
structure Concluded (maxSize : Nat) (request : WebSocketRequest)
    (items : List (Except ProtocolError Message)) (taken : List Message)
    (rest : List (Except ProtocolError Message)) (delivered : List Callback)
    (slot : Option Fragment) (stop : Stop) (last : Invocation ActixSession)
    (frame : Option WebSocketCloseFrame) (invocations : List (Invocation ActixSession)) : Prop where
  items_eq : items = taken.map .ok ++ rest
  taken : Taken maxSize taken delivered slot
  stops : Stops maxSize slot rest stop
  callbacks_eq : invocations.map (·.callback) = .onConnect request :: delivered ++
    (stop.errors.map fun message => .onError ⟨message⟩) ++ [.onClose frame]
  /-- Of the callbacks only the last one before the errors may have failed. -/
  errors_eq : invocations.map (·.error) = List.replicate delivered.length none ++
    stop.failure :: (stop.errors.map fun _ => none) ++ [none]
  found_open : ∀ i ∈ invocations, i.callback.IsMessage → i.found = some true
  last_eq : invocations.getLast? = some last
  not_open : last.link.isOpen = false
  grounds : stop.Grounds last.requests last.found last.link.transport
  frame_eq : ∀ f, stop.frame = some f → frame = some f
  /-- An event without a close frame leaves the one of a call of `close`. -/
  frame_local : stop.frame = none → ∀ f, frame = some f →
    ∃ request ∈ last.requests, request.frame = some f

/-- How a run has gone and ended. -/
def Ended (maxSize : Nat) (request : WebSocketRequest) (items : List (Except ProtocolError Message))
    (s : Connection ActixSession) : Prop :=
  ∃ taken rest delivered slot stop last frame,
    Concluded maxSize request items taken rest delivered slot stop last frame s.invocations

variable {stop : Stop} {frame : Option WebSocketCloseFrame}

theorem ended_stable : actixEnvironment.Stable (Ended maxSize request items) := by
  intro s t hChange h
  rw [Ended, (change_later hChange).invocations_eq]
  exact h

/-- No call sets the flag `open`. -/
theorem LinkStep.not_open {link link' : Link ActixSession} (h : LinkStep link link')
    (hOpen : link.isOpen = false) : link'.isOpen = false := by
  cases h with
  | refused | message | hangUp => exact hOpen
  | close => rfl

/-- A connection that only has to call `on_close`. -/
structure Closing (callbacks : List Callback) (errors : List (Option HttpException)) (stop : Stop)
    (frame : Option WebSocketCloseFrame) (s : Connection ActixSession) : Prop where
  callbacks_eq : s.callbacks = callbacks
  errors_eq : s.invocations.map (·.error) = errors
  found_open : s.FoundOpen
  not_open : s.session.isOpen = false
  grounds : stop.Grounds s.requests s.found s.session.transport
  frame_local : stop.frame = none → s.Asked frame

theorem closing_stable : actixEnvironment.Stable (Closing callbacks errors stop frame) := by
  intro s t hChange h
  have hLater := change_later hChange
  refine ⟨?_, ?_, ?_, (change_link hChange).not_open h.not_open, h.grounds.later hLater, ?_⟩
  · rw [Connection.callbacks, hLater.invocations_eq]
    exact h.callbacks_eq
  · rw [hLater.invocations_eq]
    exact h.errors_eq
  · rw [Connection.FoundOpen, hLater.invocations_eq]
    exact h.found_open
  · intro hStop f hf
    obtain ⟨request, hMem, hFrame⟩ := h.frame_local hStop f hf
    exact ⟨request, hLater.requests hMem, hFrame⟩

theorem asked_stable : actixEnvironment.Stable fun s => s.Asked frame := by
  intro s t hChange h f hf
  obtain ⟨request, hMem, hFrame⟩ := h f hf
  exact ⟨request, (change_later hChange).requests hMem, hFrame⟩

/-- The end of `run_connection`, once the frame is chosen. -/
theorem onClose_spec (h : Stopped maxSize request items stop s)
    (hFrame : ∀ f, stop.frame = some f → frame = some f) (hLocal : stop.frame = none → s.Asked frame) :
    (do
      let _ ← Proc.perform ConnectionCall.storeClosed
      Proc.perform (ConnectionCall.callback (.onClose frame)) :
        Proc ConnectionCall ConnectionCall.Reply Unit).Wp actixEnvironment
      (fun _ => Ended maxSize request items) s := by
  intro t hBefore u _ hExecute v hChanges w _ hInvoke x hAfter
  obtain ⟨⟨taken, rest, delivered, slot, hItems, hTaken, hStops, hLog⟩, hGrounds⟩ :=
    stopped_stable.changes _ hBefore h
  cases hExecute with
  | storeClosed =>
    have hAsked (hStop : stop.frame = none) : t.Asked frame :=
      asked_stable.changes _ hBefore (hLocal hStop)
    have hStored : Closing _ _ stop frame t.storeClosed :=
      ⟨hLog.callbacks_eq, hLog.errors_eq, hLog.found_open, rfl, hGrounds, hAsked⟩
    have hClosing := closing_stable.changes _ hChanges hStored
    cases hInvoke with
    | callback =>
      refine ended_stable.changes _ hAfter ⟨taken, rest, delivered, slot, stop, _, frame,
        hItems, hTaken, hStops, ?_, ?_, ?_, List.getLast?_concat, hClosing.not_open,
        hClosing.grounds, hFrame, hClosing.frame_local⟩
      · rw [← hClosing.callbacks_eq]
        simp [Connection.callbacks, Connection.invoke]
      · rw [← hClosing.errors_eq]
        simp [Connection.invoke, Callback.failure]
      · intro i hi
        rcases List.mem_append.mp hi with hi | hi
        · exact hClosing.found_open i hi
        · rw [List.mem_singleton.mp hi]
          exact nofun

theorem conclude_spec (h : Left maxSize request items frame s) :
    (conclude frame).Wp actixEnvironment (fun _ => Ended maxSize request items) s := by
  obtain ⟨stop, hFrame, hStopped⟩ := h
  cases frame with
  | some frame =>
    refine onClose_spec hStopped ?_ ?_
    · intro f hf
      rw [← hFrame, hf]
    · intro hNone
      rw [hFrame] at hNone
      cases hNone
  | none =>
    refine wp_perform_bind stopped_stable hStopped ?_
    intro t u frame hStopped hExecute
    obtain ⟨⟨_, _, _, _, _, _, _, hLog⟩, _⟩ := id hStopped
    cases hExecute with
    | take =>
      refine onClose_spec (hStopped.later ?_) ?_ fun _ => hLog.closeFrame
      · refine ⟨⟨rfl, List.Subset.refl _, fun h => h, fun h => h, fun h => h, ?_, fun _ => nofun⟩,
          fun h => h, rfl⟩
        exact fun hOpen hClosed => absurd (hOpen.symm.trans hClosed) nofun
      · intro f hf
        rw [hFrame] at hf
        cases hf

theorem runConnection_wp (maxSize : Nat) (request : WebSocketRequest)
    (items : List (Except ProtocolError Message)) :
    (runConnection maxSize request items).Wp actixEnvironment
      (fun _ => Ended maxSize request items) (.new .new) := by
  have hConnected : (onConnect request >>= fun reply => handled reply >>= fun _ =>
      messageLoop maxSize items : ConnectionTask Unit).run.Wp actixEnvironment
        (Goes maxSize request items fun _ => Left maxSize request items none) (.new .new) := by
    refine callback_bind (.onConnect request) inLoop_new nofun ?_
    intro t reply hLog
    rw [failure_onConnect] at hLog
    refine wp_bind_except (handled_spec (List.nil_append items).symm (.between .nil) reply hLog)
      left_stable (fun _ _ h => h) ?_
    intro _ u hProgress
    exact messageLoop_spec hProgress
  refine wp_bind hConnected ?_
  intro r t hr
  cases r with
  | ok _ => exact conclude_spec hr
  | error frame => exact conclude_spec hr

/-- The loop goes on with the buffer that the items before have left. -/
theorem receiveAll_append (now later : List (Except ProtocolError Message)) :
    Actix.receiveAll maxSize slot (now ++ later) =
      Actix.receiveAll maxSize slot now >>= fun fragment => Actix.receiveAll maxSize fragment later := by
  induction now generalizing slot with
  | nil => rfl
  | cons item now ih =>
    simp only [List.cons_append, Actix.receiveAll, bind_assoc]
    congr 1
    funext open'
    cases open' with
    | false => rfl
    | true => simp only [if_true, bind_assoc, ih]

/-- Every run of a connection: the reassembly buffer stays within `maxSize` after any items,
and a complete run calls the gateway for the complete messages up to the stopping event, for
the error of that event, and for the end of the connection. -/
theorem run_connection_concluded (maxSize : Nat) (request : WebSocketRequest)
    (items : List (Except ProtocolError Message)) :
    (∀ now fragment s, now <+: items →
      (onConnect request >>= fun reply => handled reply >>= fun _ =>
        Actix.receiveAll maxSize none now).run.Exec actixEnvironment (.new .new) (.ok (some fragment)) s →
      fragment.len ≤ maxSize) ∧
    ∀ s, (runConnection maxSize request items).Exec actixEnvironment (.new .new) () s →
      ∃ taken rest delivered slot stop last frame,
        Concluded maxSize request items taken rest delivered slot stop last frame s.invocations := by
  refine ⟨?_, fun s h => h.wp (runConnection_wp maxSize request items)⟩
  intro now fragment s _ hExec
  have hNow : (onConnect request >>= fun reply => handled reply >>= fun _ =>
      Actix.receiveAll maxSize none now : ConnectionTask (Option Fragment)).run.Wp actixEnvironment
        (Goes maxSize request (now ++ []) (Progress maxSize request (now ++ []) [])) (.new .new) := by
    refine callback_bind (.onConnect request) inLoop_new nofun ?_
    intro t reply hLog
    rw [failure_onConnect] at hLog
    refine wp_bind_except (handled_spec (List.nil_append (now ++ [])).symm (.between .nil) reply hLog)
      left_stable (fun _ _ h => h) ?_
    intro _ u hProgress
    exact receiveAll_spec hProgress
  obtain ⟨taken, delivered, -, hTaken, -⟩ := hExec.wp hNow
  exact hTaken.len_le

/-- A gateway that closes its session at the first message does not see the second. -/
theorem run_connection_concluded_closed :
    ∃ s, (runConnection 16 ⟨"/chat", "", none, []⟩ [.ok (.text "hi"), .ok (.text "again")]).Exec
      actixEnvironment (.new .new) () s ∧
    s.callbacks = [.onConnect ⟨"/chat", "", none, []⟩, .onText "hi",
      .onClose (some ⟨.normal, "bye"⟩)] ∧
    ∃ taken rest delivered slot stop last frame,
      Concluded 16 ⟨"/chat", "", none, []⟩ [.ok (.text "hi"), .ok (.text "again")] taken rest
        delivered slot stop last frame s.invocations := by
  have hExec : ∃ r s, (runConnection 16 ⟨"/chat", "", none, []⟩
      [.ok (.text "hi"), .ok (.text "again")]).Exec actixEnvironment (.new .new) r s ∧
      s.callbacks = [.onConnect ⟨"/chat", "", none, []⟩, .onText "hi",
        .onClose (some ⟨.normal, "bye"⟩)] := by
    refine exists_call (ConnectionEffect.callback _ _ (Except.ok ())) ?_
    refine exists_call (ConnectionEffect.session _ _) ?_
    refine exists_call (ConnectionEffect.callback _ _ (Except.ok ())) ?_
    refine exists_change (ConnectionChange.act _ (.close (some ⟨.normal, "bye"⟩))) ?_
    refine exists_call (ConnectionEffect.session _ _) ?_
    refine exists_call (ConnectionEffect.take _) ?_
    refine exists_call (ConnectionEffect.storeClosed _) ?_
    refine exists_call (ConnectionEffect.callback _ _ ()) ?_
    exact exists_done rfl
  obtain ⟨_, s, hExec, hCallbacks⟩ := hExec
  exact ⟨s, hExec, hCallbacks, (run_connection_concluded 16 _ _).2 s hExec⟩

end Caelix
