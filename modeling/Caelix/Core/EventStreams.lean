import Caelix.Lib.Runs
import Caelix.Lib.Table
import Caelix.Core.Events

/-!
# Event streams

`EventBus` with the channels of its subscribers: `register`, `subscribe` and `emit`, with
the maps from event types to erased handlers and channels, which are created when they are
first needed. A subscriber reads its stream in steps of its own; one that is further behind
than the capacity of a channel is moved on.

* `event_bus_delivers`: what emits run and subscribers receive, in every sequence of uses.
-/

namespace Caelix

/-- `EVENT_BROADCAST_CAPACITY`. -/
def eventBroadcastCapacity : Nat := 256

/-- A `TypedHandler<E, H>` behind `dyn ErasedHandler`; `eventType` is `E`. -/
structure ErasedHandler where
  eventType : TypeId
  handler : TypedHandler
  deriving DecidableEq, Repr

/-- An `EventChannel<E>` behind `dyn Any`, with all events that were sent over it. -/
structure EventChannel (V : Type) where
  eventType : TypeId
  sent : List V

/-- `broadcast::Receiver`: the position of the next event. -/
structure Receiver where
  position : Nat
  deriving DecidableEq, Repr

/-- The stream of `subscribe`. -/
inductive EventStream where
  | live (receiver : Receiver)
  | once (error : Option HttpException)

variable {V : Type}

/-- `handle_erased`: the handler that is called, if it is one for the type of the event. -/
def ErasedHandler.handleErased (h : ErasedHandler) (eventType : TypeId) (event : V)
    (outcome : Except HttpException Unit) :
    Option (TypedHandler × V) × Except HttpException Unit :=
  if eventType = h.eventType then (some (h.handler, event), outcome)
  else (none, .error (startupError "event type mismatch"))

/-- The handlers and channels of the bus. -/
structure EventMaps (V : Type) where
  handlers : Table TypeId (List ErasedHandler)
  broadcasts : Table TypeId (EventChannel V)

namespace EventMaps

def new : EventMaps V := ⟨∅, ∅⟩

def register (bus : EventMaps V) (eventType : TypeId) (handler : ProviderValue) : EventMaps V :=
  let registered := (bus.handlers.lookup eventType).getD []
  { bus with handlers := bus.handlers.insert eventType (registered ++ [⟨eventType, ⟨handler⟩⟩]) }

/-- The downcast of a channel. -/
def downcast (channel : EventChannel V) (eventType : TypeId) :
    Except HttpException (EventChannel V) :=
  if channel.eventType = eventType then .ok channel
  else .error (startupError "event broadcast type mismatch")

def ensureSender (bus : EventMaps V) (eventType : TypeId) :
    EventMaps V × Except HttpException (EventChannel V) :=
  match bus.broadcasts.lookup eventType with
  | some channel => (bus, downcast channel eventType)
  | none =>
    let channel := ⟨eventType, []⟩
    ({ bus with broadcasts := bus.broadcasts.insert eventType channel }, downcast channel eventType)

def existingSender (bus : EventMaps V) (eventType : TypeId) :
    Except HttpException (Option (EventChannel V)) :=
  match bus.broadcasts.lookup eventType with
  | none => .ok none
  | some channel => (downcast channel eventType).map some

def subscribe (bus : EventMaps V) (eventType : TypeId) : EventMaps V × EventStream :=
  match bus.ensureSender eventType with
  | (bus, .ok channel) => (bus, .live ⟨channel.sent.length⟩)
  | (bus, .error e) => (bus, .once (some e))

/-- The handler loop of `emit`. The outcome of the handler in each place is given. -/
def runErased (eventType : TypeId) (event : V) (outcome : Nat → Except HttpException Unit) :
    Nat → List ErasedHandler → List (TypedHandler × V) × Except HttpException Unit
  | _, [] => ([], .ok ())
  | i, handler :: later =>
    match handler.handleErased eventType event (outcome i) with
    | (called, .ok ()) =>
      let (invoked, result) := runErased eventType event outcome (i + 1) later
      (called.toList ++ invoked, result)
    | (called, .error e) => (called.toList, .error e)

/-- `tx.send(event)`. -/
def send (bus : EventMaps V) (eventType : TypeId) (channel : EventChannel V) (event : V) :
    EventMaps V :=
  let channel := { channel with sent := channel.sent ++ [event] }
  { bus with broadcasts := bus.broadcasts.insert eventType channel }

def emit (bus : EventMaps V) (eventType : TypeId) (event : V)
    (outcome : Nat → Except HttpException Unit) :
    EventMaps V × List (TypedHandler × V) × Except HttpException Unit :=
  let handlers := (bus.handlers.lookup eventType).getD []
  match runErased eventType event outcome 0 handlers with
  | (invoked, .error e) => (bus, invoked, .error e)
  | (invoked, .ok ()) =>
    match bus.existingSender eventType with
    | .error e => (bus, invoked, .error e)
    | .ok none => (bus, invoked, .ok ())
    | .ok (some channel) => (bus.send eventType channel event, invoked, .ok ())

end EventMaps

namespace Receiver

/-- The events that a receiver has not been given yet. -/
def unread (receiver : Receiver) (sent : List V) : List V := sent.drop receiver.position

/-- One poll of the stream. A receiver that lags is moved to the oldest event that the
channel still has, and is polled again. -/
def poll (receiver : Receiver) (sent : List V) : Receiver × Option V :=
  let position :=
    if eventBroadcastCapacity < sent.length - receiver.position then
      sent.length - eventBroadcastCapacity
    else receiver.position
  match sent[position]? with
  | some event => (⟨position + 1⟩, some event)
  | none => (receiver, none)

end Receiver

/-! ## Sequences of uses -/

/-- One use of the bus. The streams of each type are numbered in the order of `subscribe`. -/
inductive BusUse (V : Type) where
  | register (eventType : TypeId) (handler : ProviderValue)
  | subscribe (eventType : TypeId)
  | emit (eventType : TypeId) (event : V) (outcome : Nat → Except HttpException Unit)
  | next (eventType : TypeId) (stream : Nat)

def BusUse.eventType : BusUse V → TypeId
  | .register eventType _ | .subscribe eventType | .emit eventType _ _ | .next eventType _ =>
    eventType

inductive BusReply (V : Type) where
  | done
  | emitted (invoked : List (TypedHandler × V)) (result : Except HttpException Unit)
  /-- What a poll gives; there may be nothing yet. -/
  | item (item : Option (Except HttpException V))

/-- The bus and the streams that it has returned. -/
structure BusState (V : Type) where
  bus : EventMaps V
  streams : TypeId → List (EventStream)

namespace BusState

def new : BusState V := ⟨.new, fun _ => []⟩

/-- The events sent over the channel of a type. -/
def sent (s : BusState V) (eventType : TypeId) : List V :=
  match s.bus.broadcasts.lookup eventType with
  | none => []
  | some channel => channel.sent

/-- One poll of a stream. -/
def pollStream (s : BusState V) (eventType : TypeId) :
    EventStream → EventStream × Option (Except HttpException V)
  | .once error => (.once none, error.map .error)
  | .live receiver =>
    let (receiver, event) := receiver.poll (s.sent eventType)
    (.live receiver, event.map .ok)

def step : BusUse V → BusState V → BusReply V × BusState V
  | .register eventType handler, s => (.done, { s with bus := s.bus.register eventType handler })
  | .subscribe eventType, s =>
    let (bus, stream) := s.bus.subscribe eventType
    let streams := Function.update s.streams eventType (s.streams eventType ++ [stream])
    (.done, ⟨bus, streams⟩)
  | .emit eventType event outcome, s =>
    let (bus, invoked, result) := s.bus.emit eventType event outcome
    (.emitted invoked result, { s with bus })
  | .next eventType i, s =>
    match (s.streams eventType)[i]? with
    | none => (.item none, s)
    | some stream =>
      let (stream, item) := s.pollStream eventType stream
      let streams := Function.update s.streams eventType ((s.streams eventType).set i stream)
      (.item item, { s with streams })

end BusState

/-- The state after some uses of a new bus. -/
def stateAfter (uses : List (BusUse V)) : BusState V := (Runs.run BusState.step uses .new).2

/-- What a use replies after some others. -/
def replyAfter (before : List (BusUse V)) (use : BusUse V) : BusReply V :=
  (BusState.step use (stateAfter before)).1

/-- The uses with their replies. -/
def history (uses : List (BusUse V)) : List (BusUse V × BusReply V) :=
  uses.zip (Runs.run BusState.step uses .new).1

/-! ## What the bus is for -/

/-- The handlers registered for a type, in order. -/
def registered (eventType : TypeId) (uses : List (BusUse V)) : List TypedHandler :=
  uses.filterMap fun
    | .register e handler => if e = eventType then some ⟨handler⟩ else none
    | _ => none

/-- The events of a type whose emit has succeeded, in order. -/
def published (eventType : TypeId) (history : List (BusUse V × BusReply V)) : List V :=
  history.filterMap fun
    | (.emit e event _, .emitted _ (.ok ())) => if e = eventType then some event else none
    | _ => none

/-- The events that the polls of a stream have given, in order. -/
def taken (eventType : TypeId) (stream : Nat) (history : List (BusUse V × BusReply V)) : List V :=
  history.filterMap fun
    | (.next e i, .item (some (.ok event))) => if e = eventType ∧ i = stream then some event else none
    | _ => none

/-- The published events that a stream has not given yet, in order. -/
def due (eventType : TypeId) (stream : Nat) (history : List (BusUse V × BusReply V)) : List V :=
  (published eventType history).drop (taken eventType stream history).length

def isSubscribe (eventType : TypeId) : BusUse V → Bool
  | .subscribe e => e == eventType
  | _ => false

/-- The handlers are called in order, up to and including the first one that fails, whose
error is the result. -/
inductive Attempted (handlers : List TypedHandler) (event : V)
    (outcome : Nat → Except HttpException Unit) :
    List (TypedHandler × V) → Except HttpException Unit → Prop where
  | all (hAll : ∀ i < handlers.length, outcome i = .ok ()) :
    Attempted handlers event outcome (handlers.map fun handler => (handler, event)) (.ok ())
  | failed (n : Nat) (e : HttpException) (hn : n < handlers.length) (hFail : outcome n = .error e)
      (hBefore : ∀ i < n, outcome i = .ok ()) :
    Attempted handlers event outcome
      ((handlers.take (n + 1)).map fun handler => (handler, event)) (.error e)

/-- No receiver is further behind than the capacity of its channel. -/
def BusState.Keeping (s : BusState V) : Prop :=
  ∀ eventType receiver, .live receiver ∈ s.streams eventType →
    (receiver.unread (s.sent eventType)).length ≤ eventBroadcastCapacity

/-- No subscriber lags at any time. -/
def NoLag (uses : List (BusUse V)) : Prop :=
  ∀ before after, uses = before ++ after → (stateAfter before).Keeping

/-- What a sequence of uses of a new bus does. -/
structure Delivers (uses : List (BusUse V)) : Prop where
  emits : ∀ before eventType event outcome after,
    uses = before ++ .emit eventType event outcome :: after →
      ∃ invoked result, replyAfter before (.emit eventType event outcome) = .emitted invoked result ∧
        Attempted (registered eventType before) event outcome invoked result
  failed : ∀ before eventType event outcome after invoked e,
    uses = before ++ .emit eventType event outcome :: after →
      replyAfter before (.emit eventType event outcome) = .emitted invoked (.error e) →
        stateAfter (before ++ [.emit eventType event outcome]) = stateAfter before
  streams : ∀ before eventType after, uses = before ++ .subscribe eventType :: after →
    ∃ receiver, ((stateAfter uses).streams eventType)[before.countP (isSubscribe eventType)]? =
        some (.live receiver) ∧
      taken eventType (before.countP (isSubscribe eventType))
          ((history uses).drop (before.length + 1)) ++
          receiver.unread ((stateAfter uses).sent eventType) =
        published eventType ((history uses).drop (before.length + 1))
  /-- A poll gives the first event that was published since the stream was subscribed to and
  that the stream has not given yet, if there is one. -/
  polls : ∀ before eventType between after,
    uses = before ++ .subscribe eventType ::
        (between ++ .next eventType (before.countP (isSubscribe eventType)) :: after) →
      replyAfter (before ++ .subscribe eventType :: between)
          (.next eventType (before.countP (isSubscribe eventType))) =
        .item ((due eventType (before.countP (isSubscribe eventType))
          ((history (before ++ .subscribe eventType :: between)).drop
            (before.length + 1))).head?.map .ok)
  independent : ∀ eventType,
    ((history uses).filter fun x => x.1.eventType == eventType).map Prod.snd =
      (history (uses.filter fun use => use.eventType == eventType)).map Prod.snd

/-! ## One event type -/

/-- Two states in which an event type has the same handlers, channel and streams. -/
structure SameTopic (eventType : TypeId) (s t : BusState V) : Prop where
  handlers : s.bus.handlers.lookup eventType = t.bus.handlers.lookup eventType
  broadcasts : s.bus.broadcasts.lookup eventType = t.bus.broadcasts.lookup eventType
  streams : s.streams eventType = t.streams eventType

namespace EventMaps

theorem ensureSender_fst (bus : EventMaps V) {eventType e : TypeId} (h : e ≠ eventType) :
    (bus.ensureSender eventType).1.handlers = bus.handlers ∧
      (bus.ensureSender eventType).1.broadcasts.lookup e = bus.broadcasts.lookup e := by
  unfold ensureSender
  cases bus.broadcasts.lookup eventType with
  | some channel => exact ⟨rfl, rfl⟩
  | none => exact ⟨rfl, AList.lookup_insert_ne h⟩

theorem subscribe_fst (bus : EventMaps V) (eventType : TypeId) :
    (bus.subscribe eventType).1 = (bus.ensureSender eventType).1 := by
  unfold subscribe
  cases bus.ensureSender eventType with
  | mk after channel =>
    cases channel with
    | error e => rfl
    | ok channel => rfl

/-- An emit leaves the handlers and the channels of other types as they are. -/
theorem emit_frame (bus : EventMaps V) {eventType e : TypeId} (h : e ≠ eventType) (event : V)
    (outcome : Nat → Except HttpException Unit) :
    (bus.emit eventType event outcome).1.handlers = bus.handlers ∧
      (bus.emit eventType event outcome).1.broadcasts.lookup e = bus.broadcasts.lookup e := by
  unfold emit
  dsimp only
  split
  · exact ⟨rfl, rfl⟩
  · split
    · exact ⟨rfl, rfl⟩
    · exact ⟨rfl, rfl⟩
    · exact ⟨rfl, AList.lookup_insert_ne h⟩

end EventMaps

namespace BusState

/-- A use for one event type does not touch another one. -/
theorem step_frame (use : BusUse V) {eventType : TypeId} (h : eventType ≠ use.eventType)
    (s : BusState V) : SameTopic eventType (step use s).2 s := by
  cases use with
  | register e handler => exact ⟨AList.lookup_insert_ne h, rfl, rfl⟩
  | subscribe e =>
    have hSender := EventMaps.ensureSender_fst s.bus h
    rw [← EventMaps.subscribe_fst] at hSender
    exact ⟨by rw [step]; exact congrArg _ hSender.1, hSender.2, Function.update_of_ne h _ _⟩
  | emit e event outcome =>
    obtain ⟨hHandlers, hChannel⟩ := EventMaps.emit_frame s.bus h event outcome
    exact ⟨by rw [step]; exact congrArg _ hHandlers, hChannel, rfl⟩
  | next e i =>
    rw [step]
    cases (s.streams e)[i]? with
    | none => exact ⟨rfl, rfl, rfl⟩
    | some stream => exact ⟨rfl, rfl, Function.update_of_ne h _ _⟩

/-- A poll leaves the bus as it is. -/
theorem step_next_bus (s : BusState V) (eventType : TypeId) (i : Nat) :
    (step (.next eventType i) s).2.bus = s.bus := by
  rw [step]
  cases (s.streams eventType)[i]? with
  | none => rfl
  | some stream => rfl

theorem sent_congr {eventType : TypeId} {s t : BusState V} (h : SameTopic eventType s t) :
    s.sent eventType = t.sent eventType := by
  unfold sent
  rw [h.broadcasts]

end BusState

namespace EventMaps

variable {bus bus' : EventMaps V} {eventType : TypeId}

theorem subscribe_congr (h : bus.broadcasts.lookup eventType = bus'.broadcasts.lookup eventType) :
    (bus.subscribe eventType).2 = (bus'.subscribe eventType).2 ∧
      (bus.subscribe eventType).1.broadcasts.lookup eventType =
        (bus'.subscribe eventType).1.broadcasts.lookup eventType := by
  rw [subscribe_fst, subscribe_fst]
  unfold subscribe ensureSender
  rw [h]
  cases hChannel : bus'.broadcasts.lookup eventType with
  | some channel =>
    dsimp only
    cases downcast channel eventType with
    | error e => exact ⟨rfl, h⟩
    | ok channel => exact ⟨rfl, h⟩
  | none =>
    dsimp only
    cases downcast (⟨eventType, []⟩ : EventChannel V) eventType with
    | error e => exact ⟨rfl, by rw [AList.lookup_insert, AList.lookup_insert]⟩
    | ok channel => exact ⟨rfl, by rw [AList.lookup_insert, AList.lookup_insert]⟩

theorem emit_congr (hHandlers : bus.handlers.lookup eventType = bus'.handlers.lookup eventType)
    (h : bus.broadcasts.lookup eventType = bus'.broadcasts.lookup eventType) (event : V)
    (outcome : Nat → Except HttpException Unit) :
    (bus.emit eventType event outcome).2 = (bus'.emit eventType event outcome).2 ∧
      (bus.emit eventType event outcome).1.broadcasts.lookup eventType =
        (bus'.emit eventType event outcome).1.broadcasts.lookup eventType := by
  unfold emit existingSender
  rw [hHandlers, h]
  dsimp only
  cases runErased eventType event outcome 0 ((bus'.handlers.lookup eventType).getD []) with
  | mk invoked result =>
    cases result with
    | error e => exact ⟨rfl, h⟩
    | ok u =>
      cases hChannel : bus'.broadcasts.lookup eventType with
      | none => exact ⟨rfl, h⟩
      | some channel =>
        dsimp only
        cases downcast channel eventType with
        | error e => exact ⟨rfl, h⟩
        | ok channel => exact ⟨rfl, by simp only [send, Except.map, AList.lookup_insert]⟩

/-- An emit leaves the handlers as they are. -/
theorem emit_handlers (bus : EventMaps V) (eventType : TypeId) (event : V)
    (outcome : Nat → Except HttpException Unit) :
    (bus.emit eventType event outcome).1.handlers = bus.handlers := by
  unfold emit
  dsimp only
  split
  · rfl
  · split
    · rfl
    · rfl
    · rfl

theorem subscribe_handlers (bus : EventMaps V) (eventType : TypeId) :
    (bus.subscribe eventType).1.handlers = bus.handlers := by
  rw [subscribe_fst]
  unfold ensureSender
  cases bus.broadcasts.lookup eventType with
  | some channel => rfl
  | none => rfl

end EventMaps

namespace BusState

/-- What a use does to its event type depends on this type only. -/
theorem step_congr (use : BusUse V) {s t : BusState V} (h : SameTopic use.eventType s t) :
    (step use s).1 = (step use t).1 ∧ SameTopic use.eventType (step use s).2 (step use t).2 := by
  cases use with
  | register e handler =>
    refine ⟨rfl, ?_, h.broadcasts, h.streams⟩
    have hHandlers := h.handlers
    dsimp only [BusUse.eventType] at hHandlers
    simp only [step, EventMaps.register, BusUse.eventType]
    rw [AList.lookup_insert, AList.lookup_insert, hHandlers]
  | subscribe e =>
    obtain ⟨hStream, hChannel⟩ := EventMaps.subscribe_congr h.broadcasts
    refine ⟨rfl, ?_, hChannel, ?_⟩
    · rw [step, step]
      dsimp only
      rw [EventMaps.subscribe_handlers, EventMaps.subscribe_handlers]
      exact h.handlers
    · have hStreams := h.streams
      dsimp only [BusUse.eventType] at hStreams hStream
      simp only [step, BusUse.eventType]
      rw [Function.update_self, Function.update_self, hStreams, hStream]
  | emit e event outcome =>
    obtain ⟨hReply, hChannel⟩ := EventMaps.emit_congr h.handlers h.broadcasts event outcome
    refine ⟨?_, ?_, hChannel, h.streams⟩
    · exact congrArg (fun x => BusReply.emitted x.1 x.2) hReply
    · rw [step, step]
      dsimp only
      rw [EventMaps.emit_handlers, EventMaps.emit_handlers]
      exact h.handlers
  | next e i =>
    have hStreams := h.streams
    have hSent := sent_congr h
    dsimp only [BusUse.eventType] at hStreams hSent
    rw [step, step, hStreams]
    cases (t.streams e)[i]? with
    | none => exact ⟨rfl, h.handlers, h.broadcasts, h.streams⟩
    | some stream =>
      have hPoll : s.pollStream e stream = t.pollStream e stream := by
        unfold pollStream
        rw [hSent]
      dsimp only
      rw [hPoll]
      exact ⟨rfl, h.handlers, h.broadcasts, by simp [BusUse.eventType]⟩

end BusState

/-! ## The handler loop -/

/-- With handlers of the type of the event, the loop calls them in order. -/
theorem attempted_runErased (eventType : TypeId) (event : V)
    (outcome : Nat → Except HttpException Unit) (handlers : List TypedHandler) (start : Nat) :
    Attempted handlers event (fun i => outcome (start + i))
      (EventMaps.runErased eventType event outcome start (handlers.map (ErasedHandler.mk eventType))).1
      (EventMaps.runErased eventType event outcome start
        (handlers.map (ErasedHandler.mk eventType))).2 := by
  induction handlers generalizing start with
  | nil => exact .all nofun
  | cons handler later ih =>
    rw [List.map_cons, EventMaps.runErased, ErasedHandler.handleErased, if_pos rfl]
    cases hFirst : outcome start with
    | error e =>
      exact .failed 0 e (Nat.succ_pos _) hFirst nofun
    | ok u =>
      have hLater := ih (start + 1)
      dsimp only
      generalize EventMaps.runErased eventType event outcome (start + 1)
        (later.map (ErasedHandler.mk eventType)) = x at hLater
      obtain ⟨invoked, result⟩ := x
      have hShift : ∀ i, outcome (start + 1 + i) = outcome (start + (i + 1)) := by
        intro i
        rw [Nat.add_assoc, Nat.add_comm 1 i]
      cases hLater with
      | all hAll =>
        refine .all ?_
        intro i hi
        cases i with
        | zero => exact hFirst
        | succ i => exact (hShift i).symm.trans (hAll i (Nat.lt_of_succ_lt_succ hi))
      | failed n e hn hFail hBefore =>
        refine .failed (n + 1) e (Nat.succ_lt_succ hn) ((hShift n).symm.trans hFail) ?_
        intro i hi
        cases i with
        | zero => exact hFirst
        | succ i => exact (hShift i).symm.trans (hBefore i (Nat.lt_of_succ_lt_succ hi))

namespace EventMaps

/-- What the maps of the bus hold after some uses. -/
structure Holds (bus : EventMaps V) (uses : List (BusUse V)) : Prop where
  handlers : ∀ eventType, (bus.handlers.lookup eventType).getD [] =
    (registered eventType uses).map (ErasedHandler.mk eventType)
  channels : ∀ eventType channel, bus.broadcasts.lookup eventType = some channel →
    channel.eventType = eventType

variable {bus : EventMaps V} {uses : List (BusUse V)}

theorem Holds.downcast (h : bus.Holds uses) {eventType : TypeId} {channel : EventChannel V}
    (hChannel : bus.broadcasts.lookup eventType = some channel) :
    EventMaps.downcast channel eventType = .ok channel := by
  rw [EventMaps.downcast, if_pos (h.channels _ _ hChannel)]

/-- The channel of a type that is subscribed to. -/
theorem Holds.subscribe (h : bus.Holds uses) (eventType : TypeId) :
    ∃ channel, (bus.subscribe eventType).2 = .live ⟨channel.sent.length⟩ ∧
      (bus.subscribe eventType).1.broadcasts.lookup eventType = some channel ∧
      channel.eventType = eventType ∧
      (∀ old, bus.broadcasts.lookup eventType = some old → old = channel) ∧
      (bus.broadcasts.lookup eventType = none → channel.sent = []) := by
  unfold EventMaps.subscribe ensureSender
  cases hChannel : bus.broadcasts.lookup eventType with
  | some channel =>
    dsimp only
    rw [h.downcast hChannel]
    exact ⟨channel, rfl, hChannel, h.channels _ _ hChannel,
      fun old hOld => (Option.some.inj hOld).symm, nofun⟩
  | none =>
    dsimp only
    rw [EventMaps.downcast, if_pos rfl]
    exact ⟨_, rfl, AList.lookup_insert _, rfl, nofun, fun _ => rfl⟩

/-- What an emit does, from the outcome of its loop. -/
theorem Holds.emit (h : bus.Holds uses) (eventType : TypeId) (event : V)
    (outcome : Nat → Except HttpException Unit) :
    ∃ invoked result, (bus.emit eventType event outcome).2 = (invoked, result) ∧
      Attempted (registered eventType uses) event outcome invoked result ∧
      (∀ e, result = .error e → (bus.emit eventType event outcome).1 = bus) ∧
      (result = .ok () → (bus.emit eventType event outcome).1.broadcasts.lookup eventType =
        (bus.broadcasts.lookup eventType).map fun channel =>
          { channel with sent := channel.sent ++ [event] }) := by
  have hLoop := attempted_runErased eventType event outcome (registered eventType uses) 0
  simp only [Nat.zero_add] at hLoop
  unfold EventMaps.emit existingSender
  rw [h.handlers]
  dsimp only
  generalize runErased eventType event outcome 0
    ((registered eventType uses).map (ErasedHandler.mk eventType)) = x at hLoop ⊢
  obtain ⟨invoked, result⟩ := x
  cases result with
  | error e => exact ⟨invoked, .error e, rfl, hLoop, fun _ _ => rfl, nofun⟩
  | ok u =>
    cases hChannel : bus.broadcasts.lookup eventType with
    | none => exact ⟨invoked, .ok (), rfl, hLoop, nofun, fun _ => hChannel⟩
    | some channel =>
      dsimp only
      rw [h.downcast hChannel]
      exact ⟨invoked, .ok (), rfl, hLoop, nofun, fun _ => AList.lookup_insert _⟩

end EventMaps

/-! ## The handlers alone -/

namespace EventMaps

/-- The bus without its channels. -/
def toBus (bus : EventMaps V) : EventBus where
  handlers eventType := ((bus.handlers.lookup eventType).getD []).map ErasedHandler.handler

theorem toBus_register (bus : EventMaps V) (eventType : TypeId) (handler : ProviderValue) :
    (bus.register eventType handler).toBus = bus.toBus.register eventType handler := by
  unfold toBus EventBus.register register
  congr 1
  funext e
  by_cases he : e = eventType
  · subst he
    rw [AList.lookup_insert, Function.update_self]
    simp
  · rw [AList.lookup_insert_ne he, Function.update_of_ne he]

/-- The loops of both models call the same handlers. -/
theorem runErased_eq (eventType : TypeId) (event : V) (outcome : Nat → Except HttpException Unit)
    (handlers : List TypedHandler) (start : Nat) :
    let x := runErased eventType event outcome start (handlers.map (ErasedHandler.mk eventType))
    let y := EventBus.runHandlers (fun _ i => (outcome i, i + 1)) handlers start
    x.1.map Prod.fst = y.1 ∧ x.2 = y.2.1 := by
  induction handlers generalizing start with
  | nil => exact ⟨rfl, rfl⟩
  | cons handler later ih =>
    obtain ⟨hCalled, hResult⟩ := ih (start + 1)
    dsimp only at hCalled hResult ⊢
    rw [List.map_cons, runErased, ErasedHandler.handleErased, if_pos rfl, EventBus.runHandlers]
    cases outcome start with
    | error e => exact ⟨rfl, rfl⟩
    | ok u => exact ⟨congrArg (handler :: ·) hCalled, hResult⟩

/-- An emit calls the handlers that the bus without channels calls. -/
theorem Holds.emit_toBus {bus : EventMaps V} {uses : List (BusUse V)} (h : bus.Holds uses)
    (eventType : TypeId) (event : V) (outcome : Nat → Except HttpException Unit) :
    (bus.emit eventType event outcome).2.1.map Prod.fst =
      (bus.toBus.emit (fun _ i => (outcome i, i + 1)) eventType 0).1 := by
  have hHandlers : bus.toBus.handlers eventType = registered eventType uses := by
    unfold toBus
    dsimp only
    rw [h.handlers, List.map_map]
    exact List.map_id _
  have hLoop := (runErased_eq eventType event outcome (registered eventType uses) 0).1
  rw [EventBus.emit, hHandlers, ← hLoop, ← h.handlers]
  unfold EventMaps.emit
  dsimp only
  split
  · next hRun => rw [hRun]
  · next hRun =>
    rw [hRun]
    split
    · rfl
    · rfl
    · rfl

end EventMaps

/-! ## Along a sequence of uses -/

theorem registered_snoc (eventType : TypeId) (uses : List (BusUse V)) (use : BusUse V) :
    registered eventType (uses ++ [use]) = registered eventType uses ++ registered eventType [use] :=
  List.filterMap_append

/-- A use that is no registration keeps what the maps hold. -/
theorem EventMaps.Holds.keep {uses : List (BusUse V)} {s : BusState V} (h : s.bus.Holds uses)
    {use : BusUse V} (hHandlers : (BusState.step use s).2.bus.handlers = s.bus.handlers)
    (hNew : ∀ eventType, registered eventType [use] = [])
    (hOwn : ∀ channel, (BusState.step use s).2.bus.broadcasts.lookup use.eventType = some channel →
      channel.eventType = use.eventType) :
    (BusState.step use s).2.bus.Holds (uses ++ [use]) := by
  constructor
  · intro eventType
    rw [hHandlers, registered_snoc, hNew, List.append_nil]
    exact h.handlers eventType
  · intro eventType channel hChannel
    by_cases hType : eventType = use.eventType
    · subst hType
      exact hOwn channel hChannel
    · refine h.channels eventType channel ?_
      rw [← hChannel]
      exact (BusState.step_frame use hType s).broadcasts.symm

/-- The maps after one more use. -/
theorem holds_step {uses : List (BusUse V)} {s : BusState V} (h : s.bus.Holds uses)
    (use : BusUse V) : (BusState.step use s).2.bus.Holds (uses ++ [use]) := by
  cases use with
  | register e handler =>
    refine ⟨?_, h.channels⟩
    intro eventType
    rw [registered_snoc, List.map_append, ← h.handlers]
    simp only [BusState.step, EventMaps.register]
    by_cases hType : eventType = e
    · subst hType
      rw [AList.lookup_insert]
      simp [registered]
    · rw [AList.lookup_insert_ne hType]
      simp [registered, Ne.symm hType]
  | subscribe e =>
    obtain ⟨new, -, hNew, hTag, -, -⟩ := h.subscribe e
    refine h.keep (EventMaps.subscribe_handlers s.bus e) (fun _ => rfl) ?_
    intro channel hChannel
    obtain rfl := Option.some.inj (hNew.symm.trans hChannel)
    exact hTag
  | emit e event outcome =>
    obtain ⟨invoked, result, -, -, hError, hOk⟩ := h.emit e event outcome
    refine h.keep (EventMaps.emit_handlers s.bus e event outcome) (fun _ => rfl) ?_
    intro channel hChannel
    simp only [BusState.step] at hChannel
    cases result with
    | error failure =>
      rw [hError failure rfl] at hChannel
      exact h.channels e channel hChannel
    | ok u =>
      rw [BusUse.eventType, hOk rfl] at hChannel
      obtain ⟨old, hOld, rfl⟩ := Option.map_eq_some_iff.mp hChannel
      exact h.channels e old hOld
  | next e i =>
    have hBus := BusState.step_next_bus s e i
    refine h.keep (congrArg EventMaps.handlers hBus) (fun _ => rfl) ?_
    rw [hBus]
    exact h.channels e

theorem stateAfter_snoc (uses : List (BusUse V)) (use : BusUse V) :
    stateAfter (uses ++ [use]) = (BusState.step use (stateAfter uses)).2 := Runs.run_snoc_snd _ _ _

theorem holds_stateAfter (uses : List (BusUse V)) : (stateAfter uses).bus.Holds uses := by
  refine Runs.run_keeps (I := fun uses (s : BusState V) => s.bus.Holds uses) ?_ uses ?_
  · exact ⟨fun _ => rfl, nofun⟩
  · intro done use later _ h
    exact holds_step h use

/-- The streams of a type are those that have been subscribed to. -/
theorem length_streams (uses : List (BusUse V)) (eventType : TypeId) :
    ((stateAfter uses).streams eventType).length = uses.countP (isSubscribe eventType) := by
  refine Runs.run_keeps (I := fun uses (s : BusState V) => (s.streams eventType).length =
    uses.countP (isSubscribe eventType)) rfl uses ?_
  intro done use later _ h
  rw [List.countP_append, List.countP_singleton, ← h]
  generalize (Runs.run BusState.step done BusState.new).2 = s
  by_cases hType : eventType = use.eventType
  · cases use with
    | register e handler => rfl
    | emit e event outcome => rfl
    | subscribe e =>
      dsimp only [BusUse.eventType] at hType
      subst hType
      simp [BusState.step, isSubscribe]
    | next e i =>
      dsimp only [BusUse.eventType] at hType
      subst hType
      rw [BusState.step]
      cases (s.streams eventType)[i]? with
      | none => rfl
      | some stream => simp [isSubscribe]
  · rw [(BusState.step_frame use hType s).streams]
    cases use with
    | subscribe e =>
      have hOther : (e == eventType) = false := beq_false_of_ne (Ne.symm hType)
      simp [isSubscribe, hOther]
    | register e handler => rfl
    | emit e event outcome => rfl
    | next e i => rfl

/-! ## What a subscriber receives -/

/-- The stream `k` of a type has given, with what it has not read yet, the events that were
published in `history`. -/
def Reads (eventType : TypeId) (k : Nat) (history : List (BusUse V × BusReply V))
    (s : BusState V) : Prop :=
  ∃ receiver channel, (s.streams eventType)[k]? = some (.live receiver) ∧
    s.bus.broadcasts.lookup eventType = some channel ∧ receiver.position ≤ channel.sent.length ∧
    taken eventType k history ++ receiver.unread channel.sent = published eventType history

theorem taken_snoc (eventType : TypeId) (k : Nat) (history : List (BusUse V × BusReply V))
    (x : BusUse V × BusReply V) :
    taken eventType k (history ++ [x]) = taken eventType k history ++ taken eventType k [x] :=
  List.filterMap_append

theorem published_snoc (eventType : TypeId) (history : List (BusUse V × BusReply V))
    (x : BusUse V × BusReply V) :
    published eventType (history ++ [x]) = published eventType history ++ published eventType [x] :=
  List.filterMap_append

/-- What other streams give is not counted. -/
theorem taken_next {eventType e : TypeId} {k i : Nat} (h : ¬ (e = eventType ∧ i = k))
    (reply : BusReply V) : taken eventType k [(.next e i, reply)] = [] := by
  cases reply with
  | done => rfl
  | emitted invoked result => rfl
  | item item =>
    cases item with
    | none => rfl
    | some item =>
      cases item with
      | error e => rfl
      | ok event => simp [taken, h]

/-- A use of another type is not seen in the history. -/
theorem unseen {eventType : TypeId} {use : BusUse V} (h : eventType ≠ use.eventType) (k : Nat)
    (reply : BusReply V) :
    taken eventType k [(use, reply)] = [] ∧ published eventType [(use, reply)] = [] := by
  cases use with
  | register e handler => exact ⟨rfl, rfl⟩
  | subscribe e => exact ⟨rfl, rfl⟩
  | emit e event outcome =>
    refine ⟨rfl, ?_⟩
    have hType : e ≠ eventType := Ne.symm h
    cases reply with
    | done => rfl
    | item item => rfl
    | emitted invoked result =>
      cases result with
      | error e => rfl
      | ok u => simp [published, hType]
  | next e i =>
    have hType : e ≠ eventType := Ne.symm h
    exact ⟨taken_next (fun hBoth => hType hBoth.1) reply, rfl⟩

/-- A receiver that keeps up is given the first event that it has not read. -/
theorem Receiver.poll_eq {receiver : Receiver} {sent : List V}
    (h : (receiver.unread sent).length ≤ eventBroadcastCapacity) :
    receiver.poll sent =
      match receiver.unread sent with
      | [] => (receiver, none)
      | event :: _ => (⟨receiver.position + 1⟩, some event) := by
  unfold Receiver.unread at h ⊢
  unfold Receiver.poll
  rw [List.length_drop] at h
  rw [if_neg (Nat.not_lt_of_le h)]
  dsimp only
  cases hNext : sent[receiver.position]? with
  | none => rw [List.drop_eq_nil_of_le (List.getElem?_eq_none_iff.mp hNext)]
  | some event =>
    obtain ⟨hLt, rfl⟩ := List.getElem?_eq_some_iff.mp hNext
    rw [List.drop_eq_getElem_cons hLt]

variable {eventType : TypeId} {k : Nat} {past : List (BusUse V × BusReply V)} {s : BusState V}
  {uses : List (BusUse V)}

/-- While no subscriber lags, a poll of a live stream takes the first event it has not read. -/
theorem poll_live {receiver : Receiver} {channel : EventChannel V}
    (hStream : (s.streams eventType)[k]? = some (.live receiver))
    (hChannel : s.bus.broadcasts.lookup eventType = some channel) (hKeeping : s.Keeping) :
    s.pollStream eventType (.live receiver) =
      match receiver.unread channel.sent with
      | [] => (.live receiver, none)
      | event :: _ => (.live ⟨receiver.position + 1⟩, some (.ok event)) := by
  have hSent : s.sent eventType = channel.sent := by
    unfold BusState.sent
    rw [hChannel]
  have hUnread := hKeeping eventType receiver (List.mem_of_getElem? hStream)
  rw [hSent] at hUnread
  unfold BusState.pollStream
  dsimp only
  rw [hSent, Receiver.poll_eq hUnread]
  cases receiver.unread channel.sent <;> rfl

/-- A poll of the stream itself. -/
theorem reads_next (h : Reads eventType k past s) (hKeeping : s.Keeping) :
    Reads eventType k (past ++ [(.next eventType k, (BusState.step (.next eventType k) s).1)])
      (BusState.step (.next eventType k) s).2 := by
  obtain ⟨receiver, channel, hStream, hChannel, hPosition, hRead⟩ := h
  have hLt : k < (s.streams eventType).length := (List.getElem?_eq_some_iff.mp hStream).1
  simp only [BusState.step]
  rw [hStream]
  dsimp only
  rw [poll_live hStream hChannel hKeeping]
  cases hNext : receiver.unread channel.sent with
  | nil =>
    refine ⟨receiver, channel, ?_, hChannel, hPosition, ?_⟩
    · simp [hLt]
    · rw [taken_snoc, published_snoc, ← hRead]
      simp [taken, published, hNext]
  | cons event later =>
    have hMore : receiver.position < channel.sent.length := by
      have hLength := congrArg List.length hNext
      rw [Receiver.unread, List.length_drop, List.length_cons] at hLength
      omega
    refine ⟨⟨receiver.position + 1⟩, channel, ?_, hChannel, hMore, ?_⟩
    · simp [hLt]
    · have hLater : Receiver.unread ⟨receiver.position + 1⟩ channel.sent = later := by
        unfold Receiver.unread at hNext ⊢
        rw [← List.drop_drop, hNext]
        rfl
      rw [taken_snoc, published_snoc, ← hRead, hLater]
      simp [taken, published, hNext]

/-- A use that gives and publishes nothing, and leaves the stream and its channel. -/
theorem Reads.skip (h : Reads eventType k past s) {use : BusUse V} {reply : BusReply V}
    {t : BusState V} (hStreams : (t.streams eventType)[k]? = (s.streams eventType)[k]?)
    (hBroadcasts : t.bus.broadcasts.lookup eventType = s.bus.broadcasts.lookup eventType)
    (hTaken : taken eventType k [(use, reply)] = [])
    (hPublished : published eventType [(use, reply)] = []) :
    Reads eventType k (past ++ [(use, reply)]) t := by
  obtain ⟨receiver, channel, hStream, hChannel, hPosition, hRead⟩ := h
  refine ⟨receiver, channel, hStreams.trans hStream, hBroadcasts.trans hChannel, hPosition, ?_⟩
  rw [taken_snoc, published_snoc, ← hRead, hTaken, hPublished, List.append_nil, List.append_nil]

/-- An emit publishes its event exactly when it succeeds. -/
theorem reads_emit (h : Reads eventType k past s) (hHolds : s.bus.Holds uses) (event : V)
    (outcome : Nat → Except HttpException Unit) :
    Reads eventType k
      (past ++ [(.emit eventType event outcome,
        (BusState.step (.emit eventType event outcome) s).1)])
      (BusState.step (.emit eventType event outcome) s).2 := by
  obtain ⟨invoked, result, hReply, -, hError, hOk⟩ := hHolds.emit eventType event outcome
  simp only [BusState.step]
  generalize s.bus.emit eventType event outcome = x at hReply hError hOk ⊢
  obtain ⟨after, reply⟩ := x
  cases hReply
  cases result with
  | error e =>
    obtain rfl : after = s.bus := hError e rfl
    exact h.skip rfl rfl rfl rfl
  | ok u =>
    obtain ⟨receiver, channel, hStream, hChannel, hPosition, hRead⟩ := h
    rw [hChannel] at hOk
    refine ⟨receiver, _, hStream, hOk rfl, ?_, ?_⟩
    · rw [List.length_append]
      omega
    · rw [taken_snoc, published_snoc, ← hRead]
      unfold Receiver.unread
      rw [List.drop_append_of_le_length hPosition]
      simp [taken, published]

/-- A new stream of the type comes after those that there are. -/
theorem reads_subscribed (h : Reads eventType k past s) (hHolds : s.bus.Holds uses) :
    Reads eventType k
      (past ++ [(.subscribe eventType, (BusState.step (.subscribe eventType) s).1)])
      (BusState.step (.subscribe eventType) s).2 := by
  obtain ⟨receiver, channel, hStream, hChannel, -⟩ := id h
  obtain ⟨new, -, hNew, -, hSame, -⟩ := hHolds.subscribe eventType
  obtain rfl := hSame channel hChannel
  refine h.skip ?_ (hNew.trans hChannel.symm) rfl rfl
  have hLt := (List.getElem?_eq_some_iff.mp hStream).1
  simp only [BusState.step, Function.update_self]
  rw [List.getElem?_append_left hLt]

/-- Every use keeps what a stream has given in step with what was published. -/
theorem reads_step (h : Reads eventType k past s) (hHolds : s.bus.Holds uses)
    (hKeeping : s.Keeping) (use : BusUse V) :
    Reads eventType k (past ++ [(use, (BusState.step use s).1)]) (BusState.step use s).2 := by
  by_cases hType : eventType = use.eventType
  · cases use with
    | register e handler => exact h.skip rfl rfl rfl rfl
    | subscribe e =>
      dsimp only [BusUse.eventType] at hType
      subst hType
      exact reads_subscribed h hHolds
    | emit e event outcome =>
      dsimp only [BusUse.eventType] at hType
      subst hType
      exact reads_emit h hHolds event outcome
    | next e i =>
      dsimp only [BusUse.eventType] at hType
      subst hType
      by_cases hi : i = k
      · subst hi
        exact reads_next h hKeeping
      · -- another stream of the type
        have hUnseen : ∀ reply, taken eventType k [(.next eventType i, reply)] = ([] : List V) :=
          taken_next fun hBoth => hi hBoth.2
        rw [BusState.step]
        cases hOther : (s.streams eventType)[i]? with
        | none => exact h.skip rfl rfl (hUnseen _) rfl
        | some stream => exact h.skip (by simp [hi]) rfl (hUnseen _) rfl
  · obtain ⟨-, hBroadcasts, hStreams⟩ := BusState.step_frame use hType s
    obtain ⟨hTaken, hPublished⟩ := unseen hType k (BusState.step use s).1
    exact h.skip (by rw [hStreams]) hBroadcasts hTaken hPublished

/-! ## The bus -/

/-- A subscriber that has just subscribed has nothing to read. -/
theorem reads_subscribe (before : List (BusUse V)) (eventType : TypeId) :
    Reads eventType (before.countP (isSubscribe eventType)) []
      (BusState.step (.subscribe eventType) (stateAfter before)).2 := by
  obtain ⟨channel, hStream, hChannel, -, -, -⟩ := (holds_stateAfter before).subscribe eventType
  refine ⟨⟨channel.sent.length⟩, channel, ?_, hChannel, Nat.le_refl _, ?_⟩
  · simp only [BusState.step, Function.update_self]
    rw [hStream, ← length_streams, List.getElem?_concat_length]
  · exact List.drop_length

/-- The uses after a subscription, with their replies. -/
theorem history_drop (before : List (BusUse V)) (use : BusUse V) (after : List (BusUse V)) :
    (history (before ++ use :: after)).drop (before.length + 1) =
      after.zip (Runs.run BusState.step after (stateAfter (before ++ [use]))).1 := by
  have hSplit : before ++ use :: after = (before ++ [use]) ++ after := by simp
  have hLength : ((before ++ [use]).zip (Runs.run BusState.step (before ++ [use]) .new).1).length =
      before.length + 1 := by
    rw [List.length_zip, Runs.length_run, Nat.min_self, List.length_append, List.length_singleton]
  unfold history
  rw [hSplit, Runs.zip_run_append, List.drop_left' hLength]
  rfl

theorem reads_after {before after : List (BusUse V)} {eventType : TypeId}
    (hLag : NoLag (before ++ .subscribe eventType :: after)) :
    Reads eventType (before.countP (isSubscribe eventType))
      ((history (before ++ .subscribe eventType :: after)).drop (before.length + 1))
      (stateAfter (before ++ .subscribe eventType :: after)) := by
  have hSplit : ∀ done, stateAfter ((before ++ [.subscribe eventType]) ++ done) =
      (Runs.run BusState.step done (stateAfter (before ++ [.subscribe eventType]))).2 := by
    intro done
    unfold stateAfter
    rw [Runs.run_append]
  have hEnd : stateAfter (before ++ .subscribe eventType :: after) =
      (Runs.run BusState.step after (stateAfter (before ++ [.subscribe eventType]))).2 := by
    rw [← hSplit, List.append_assoc, List.singleton_append]
  rw [history_drop, hEnd]
  refine Runs.run_keeps (I := fun done s => Reads eventType (before.countP (isSubscribe eventType))
    (done.zip (Runs.run BusState.step done (stateAfter (before ++ [.subscribe eventType]))).1) s)
    ?_ after ?_
  · rw [stateAfter_snoc]
    exact reads_subscribe before eventType
  · intro done use later hAfter h
    have hHolds := holds_stateAfter ((before ++ [.subscribe eventType]) ++ done)
    have hKeeping : (stateAfter ((before ++ [.subscribe eventType]) ++ done)).Keeping := by
      refine hLag _ (use :: later) ?_
      rw [hAfter]
      simp
    rw [hSplit] at hHolds hKeeping
    rw [Runs.zip_run_append]
    exact reads_step h hHolds hKeeping use

theorem NoLag.of_append {uses later : List (BusUse V)} (h : NoLag (uses ++ later)) : NoLag uses := by
  intro before after hUses
  refine h before (after ++ later) ?_
  rw [hUses, List.append_assoc]

/-- What a stream that keeps up gives next. -/
theorem Reads.next (h : Reads eventType k past s) (hKeeping : s.Keeping) :
    (BusState.step (.next eventType k) s).1 =
      .item ((due eventType k past).head?.map .ok) := by
  obtain ⟨receiver, channel, hStream, hChannel, -, hRead⟩ := h
  have hDue : due eventType k past = receiver.unread channel.sent := by
    rw [due, ← hRead, List.drop_left]
  rw [hDue, BusState.step, hStream]
  dsimp only
  rw [poll_live hStream hChannel hKeeping]
  cases receiver.unread channel.sent with
  | nil => rfl
  | cons event later => rfl

theorem history_snd (uses : List (BusUse V)) :
    (history uses).map Prod.snd = (Runs.run BusState.step uses .new).1 := by
  unfold history
  rw [List.map_snd_zip]
  exact Nat.le_of_eq (Runs.length_run uses _)

/-- Every sequence of registrations, subscriptions, emits and polls, over any event types and
with any outcomes of the handlers, in which no subscriber lags. -/
theorem event_bus_delivers (uses : List (BusUse V)) (hLag : NoLag uses) : Delivers uses where
  emits before eventType event outcome after _ := by
    obtain ⟨invoked, result, hReply, hAttempted, -, -⟩ :=
      (holds_stateAfter before).emit eventType event outcome
    refine ⟨invoked, result, ?_, hAttempted⟩
    exact congrArg (fun x => BusReply.emitted x.1 x.2) hReply
  failed before eventType event outcome after invoked e _ hFailed := by
    obtain ⟨invoked', result, hReply, -, hError, -⟩ :=
      (holds_stateAfter before).emit eventType event outcome
    have hResult : result = .error e := by
      have hSame := congrArg (fun x => BusReply.emitted x.1 x.2) hReply
      cases hFailed.symm.trans hSame
      rfl
    rw [stateAfter_snoc, BusState.step]
    dsimp only
    rw [hError e hResult]
  streams before eventType after hUses := by
    subst hUses
    obtain ⟨receiver, channel, hStream, hChannel, -, hRead⟩ := reads_after hLag
    refine ⟨receiver, hStream, ?_⟩
    unfold BusState.sent
    rw [hChannel]
    exact hRead
  polls before eventType between after hUses := by
    have hSplit : uses = (before ++ .subscribe eventType :: between) ++
        .next eventType (before.countP (isSubscribe eventType)) :: after := by
      rw [hUses, List.append_assoc]
      rfl
    have hReads := reads_after (NoLag.of_append (hSplit ▸ hLag))
    exact hReads.next (hLag _ _ hSplit)
  independent eventType := by
    have hSkip : ∀ (use : BusUse V) (s t : BusState V), (use.eventType == eventType) = false →
        SameTopic eventType s t → SameTopic eventType (BusState.step use s).2 t := by
      intro use s t hOther h
      have hFrame := BusState.step_frame use (Ne.symm (ne_of_beq_false hOther)) s
      exact ⟨hFrame.handlers.trans h.handlers, hFrame.broadcasts.trans h.broadcasts,
        hFrame.streams.trans h.streams⟩
    have hTake : ∀ (use : BusUse V) (s t : BusState V), (use.eventType == eventType) = true →
        SameTopic eventType s t → (BusState.step use s).1 = (BusState.step use t).1 ∧
          SameTopic eventType (BusState.step use s).2 (BusState.step use t).2 := by
      intro use s t hOn h
      obtain rfl := eq_of_beq hOn
      exact BusState.step_congr use h
    rw [history_snd]
    exact Runs.run_filter hSkip hTake uses ⟨rfl, rfl, rfl⟩

/-! ## A sequence of uses -/

/-- A use sends at most one event. -/
theorem length_sent_step {uses : List (BusUse V)} {s : BusState V} (h : s.bus.Holds uses)
    (use : BusUse V) (eventType : TypeId) :
    ((BusState.step use s).2.sent eventType).length ≤ (s.sent eventType).length + 1 := by
  by_cases hType : eventType = use.eventType
  · cases use with
    | register e handler => exact Nat.le_succ _
    | subscribe e =>
      dsimp only [BusUse.eventType] at hType
      subst hType
      obtain ⟨channel, -, hChannel, -, hSame, hNew⟩ := h.subscribe eventType
      unfold BusState.sent
      simp only [BusState.step]
      rw [hChannel]
      cases hOld : s.bus.broadcasts.lookup eventType with
      | none =>
        dsimp only
        rw [hNew hOld]
        exact Nat.zero_le _
      | some old =>
        rw [hSame old hOld]
        exact Nat.le_succ _
    | emit e event outcome =>
      dsimp only [BusUse.eventType] at hType
      subst hType
      obtain ⟨invoked, result, -, -, hError, hOk⟩ := h.emit eventType event outcome
      unfold BusState.sent
      simp only [BusState.step]
      cases result with
      | error e =>
        rw [hError e rfl]
        exact Nat.le_succ _
      | ok u =>
        rw [hOk rfl]
        cases s.bus.broadcasts.lookup eventType with
        | none => exact Nat.zero_le _
        | some channel => exact Nat.le_of_eq List.length_append
    | next e i =>
      unfold BusState.sent
      rw [BusState.step_next_bus]
      exact Nat.le_succ _
  · unfold BusState.sent
    rw [(BusState.step_frame use hType s).broadcasts]
    exact Nat.le_succ _

/-- In a short sequence no subscriber can lag. -/
theorem noLag_of_length {uses : List (BusUse V)} (h : uses.length ≤ eventBroadcastCapacity) :
    NoLag uses := by
  intro before after hUses eventType receiver _
  have hSent : ((stateAfter before).sent eventType).length ≤ before.length := by
    refine Runs.run_keeps (I := fun uses (s : BusState V) => (s.sent eventType).length ≤ uses.length)
      (Nat.le_refl _) before ?_
    intro done use later _ hDone
    have hStep := length_sent_step (holds_stateAfter done) use eventType
    rw [List.length_append, List.length_singleton]
    exact Nat.le_trans hStep (Nat.succ_le_succ hDone)
  have hLength := congrArg List.length hUses
  rw [List.length_append] at hLength
  unfold Receiver.unread
  rw [List.length_drop]
  omega

/-- Two types; the second emit of the first one fails in its second handler. -/
def pingUses : List (BusUse Nat) :=
  [.emit 7 0 fun _ => .ok (), .register 7 ⟨20, 0⟩, .subscribe 7, .subscribe 8,
    .register 7 ⟨21, 0⟩, .emit 7 3 fun _ => .ok (),
    .emit 7 9 fun i => if i = 1 then .error internalServerError else .ok (), .emit 8 5 fun _ => .ok (),
    .next 7 0]

theorem event_bus_delivers_ping :
    (∃ receiver, ((stateAfter pingUses).streams 7)[0]? = some (.live receiver) ∧
      taken 7 0 ((history pingUses).drop 3) ++ receiver.unread ((stateAfter pingUses).sent 7) = [3]) ∧
    replyAfter (pingUses.take 8) (.next 7 0) = .item (some (.ok 3)) := by
  have hDelivers := event_bus_delivers pingUses (noLag_of_length (by decide))
  refine ⟨hDelivers.streams [.emit 7 0 fun _ => .ok (), .register 7 ⟨20, 0⟩] 7 _ rfl, ?_⟩
  exact hDelivers.polls [.emit 7 0 fun _ => .ok (), .register 7 ⟨20, 0⟩] 7
    ((pingUses.take 8).drop 3) [] rfl

end Caelix
