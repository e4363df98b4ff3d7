import Caelix.Microservices.Commands

/-!
# Events on both transports

What the event tasks of the two transports tell their broker, on any complete run: whether
the delivery is finished or left for redelivery, and whether a dead-letter copy is made.

* `eventDecision`: the decision that both should take.
* `Redis.event_decision`, `Nats.event_decision`: each transport takes it.
* `event_decision_agrees`: so they agree, and neither finishes a delivery whose
  dead-letter copy could not be stored.
-/

namespace Caelix

open Interaction

/-- What becomes of a delivery. -/
structure EventDecision where
  finished : Bool
  deadLettered : Bool
  deriving DecidableEq, Repr

/-- An envelope that is not dropped. -/
def validEvent (maximum : Nat) (decode : Bytes → Except String EventEnvelope) (bytes : Bytes) : Bool :=
  bytes.length ≤ maximum && match decode bytes with
    | .ok event => event.version = protocolVersion && event.eventId ≠ ""
    | .error _ => false

/-- The decision on a delivery, from the result of its handler. -/
def eventDecision (valid : Bool) (result : HandlerResult) (attempt maximum : Nat)
    (configured stored : Bool) : EventDecision :=
  if !valid then ⟨true, false⟩
  else
    match result with
    | .ok _ => ⟨true, false⟩
    | .error error =>
      if error.isClientError then ⟨true, false⟩
      else if attempt < maximum then ⟨false, false⟩
      else if configured then ⟨stored, true⟩ else ⟨true, false⟩

/-- A copy that could not be stored leaves the delivery to the broker. -/
theorem eventDecision_stored {valid configured stored : Bool} {result : HandlerResult}
    {attempt maximum : Nat}
    (h : (eventDecision valid result attempt maximum configured stored).deadLettered = true) :
    (eventDecision valid result attempt maximum configured stored).finished = stored := by
  unfold eventDecision at h ⊢
  split at h
  · cases h
  · rename_i hValid
    rw [if_neg hValid]
    cases result with
    | ok _ => cases h
    | error e =>
      dsimp only at h ⊢
      split_ifs at h ⊢ with hClient hAttempt hConfigured
      rfl

def RedisCall.decision : RedisCall → EventDecision
  | .ack _ => ⟨true, false⟩
  | .addDeadLetter .. => ⟨false, true⟩
  | _ => ⟨false, false⟩

def NatsCall.decision : NatsCall → EventDecision
  | .ackWith .ack | .ackWith .term => ⟨true, false⟩
  | .publishDeadLetter .. => ⟨false, true⟩
  | _ => ⟨false, false⟩

/-- The decision that the calls of a run tell the broker. -/
def decisionOf {Call : Type} {Reply : Call → Type} (decision : Call → EventDecision)
    (history : History Reply) : EventDecision where
  finished := history.any fun e => (decision e.1).finished
  deadLettered := history.any fun e => (decision e.1).deadLettered

/-- Calls that decide nothing may stand before the others. -/
theorem decisionOf_append {Call : Type} {Reply : Call → Type} {decision : Call → EventDecision}
    {before : History Reply} (h : ∀ e ∈ before, decision e.1 = ⟨false, false⟩)
    (history : History Reply) :
    decisionOf decision (before ++ history) = decisionOf decision history := by
  have hFinished : (before.any fun e => (decision e.1).finished) = false :=
    List.any_eq_false.mpr fun e he => by rw [h e he]; exact Bool.false_ne_true
  have hDeadLettered : (before.any fun e => (decision e.1).deadLettered) = false :=
    List.any_eq_false.mpr fun e he => by rw [h e he]; exact Bool.false_ne_true
  simp only [decisionOf, List.any_append, hFinished, hDeadLettered, Bool.false_or]

namespace Redis

/-- The replies to an event task on its delivery number `attempt`, when the dead-letter
copy can be stored or not. Other calls may fail. -/
def Answers (attempt : Nat) (result : HandlerResult) (stored : Bool) :
    (c : RedisCall) → RedisReply c → Prop
  | .pending _, x => ∃ count, x = .ok count ∧ (count.map deliveryAttempt).getD 1 = attempt
  | .touchPending _, x => x = .ok ()
  | .returned, x => x = result
  | .addDeadLetter .., x => x.isOk = stored
  | _, _ => True

variable {options : RedisTransportOptions} {attempt : Nat} {result : HandlerResult} {stored : Bool}

theorem completeEvent_decision (stored : Bool) (source : StreamConsumer) (id subject : String)
    (event : EventEnvelope) :
    (completeEvent options source id subject event attempt result).run.Post fun later _ =>
      (∀ e ∈ later, Answers attempt result stored e.1 e.2) →
      decisionOf RedisCall.decision later = eventDecision true result attempt
        options.maxEventDeliveries options.deadLetterStream.isSome stored := by
  cases result with
  | ok payload => exact fun acked _ => rfl
  | error error =>
    unfold completeEvent eventDecision
    dsimp only
    rw [Bool.not_true, if_neg Bool.false_ne_true]
    by_cases hClient : error.isClientError = true
    · rw [if_pos hClient, if_pos hClient]
      exact fun acked _ => rfl
    · rw [if_neg hClient, if_neg hClient]
      by_cases hAttempt : options.maxEventDeliveries ≤ attempt
      · rw [if_pos hAttempt, if_neg (Nat.not_lt_of_le hAttempt), deadLetterAndAck]
        cases options.deadLetterStream with
        | none => exact fun acked _ => rfl
        | some stream =>
          intro now publication
          cases publication with
          | error e =>
            intro hReplies
            have hStored := hReplies _ (List.mem_cons_of_mem _ List.mem_cons_self)
            rw [← show false = stored from hStored]
            rfl
          | ok entry =>
            intro acked hReplies
            have hStored := hReplies _ (List.mem_cons_of_mem _ List.mem_cons_self)
            rw [← show true = stored from hStored]
            rfl
      · rw [if_neg hAttempt, if_pos (Nat.lt_of_not_le hAttempt)]
        exact fun _ => rfl

theorem readEvent_cases (options : RedisTransportOptions)
    (decode : Bytes → Except String EventEnvelope) {entry : StreamEntry} {subject : String}
    {bytes : Bytes} (hSubject : entry.subject = some subject) (hEnvelope : entry.envelope = some bytes) :
    (validEvent options.maxEventBytes decode bytes = true ∧
      ∃ event, readEvent options decode entry = some (subject, event)) ∨
    (validEvent options.maxEventBytes decode bytes = false ∧ readEvent options decode entry = none) := by
  unfold validEvent
  simp only [readEvent, hSubject, hEnvelope]
  by_cases hSize : bytes.length ≤ options.maxEventBytes
  · rw [if_neg (Nat.not_lt_of_le hSize)]
    cases decode bytes with
    | error e => exact .inr ⟨by simp, rfl⟩
    | ok event =>
      by_cases hEvent : event.version = protocolVersion ∧ event.eventId ≠ ""
      · exact .inl ⟨by simp [hSize, hEvent], event, if_pos hEvent⟩
      · exact .inr ⟨by simpa using fun _ => not_and.mp hEvent, if_neg hEvent⟩
  · exact .inr ⟨by simp [hSize], if_pos (Nat.lt_of_not_le hSize)⟩

/-- Before the handler returns nothing is decided. -/
theorem handlerRan_decision {id : String} {handler : MessageHandlerDef} {context : MessageContext}
    {payload : Json} {history : History RedisReply} {r : Except MicroserviceError HandlerResult}
    (h : HandlerRan id handler context payload history r) :
    ∀ e ∈ history, e.1.decision = ⟨false, false⟩ := by
  obtain ⟨ticks, beats, hTouches, hHistory⟩ := h
  have hBeats : ∀ e ∈ beats, e.1.decision = ⟨false, false⟩ := by
    intro e he
    rw [hTouches e he]
    rfl
  intro e he
  rcases hHistory with ⟨result, rfl, -⟩ | ⟨error, rfl, -⟩
  · rcases List.mem_append.mp he with he | he
    · rcases List.mem_cons.mp he with rfl | he
      · rfl
      · exact hBeats e he
    · rw [List.mem_singleton.mp he]
      rfl
  · rcases List.mem_cons.mp he with rfl | he
    · rfl
    · exact hBeats e he

/-- Where heartbeats succeed the handler returns. -/
theorem HandlerRan.returned {id : String} {handler : MessageHandlerDef} {context : MessageContext}
    {payload : Json} {history : History RedisReply} {r : Except MicroserviceError HandlerResult}
    (h : HandlerRan id handler context payload history r)
    (hReplies : ∀ e ∈ history, Answers attempt result stored e.1 e.2) : r = .ok result := by
  obtain ⟨ticks, beats, -, ⟨x, rfl, rfl⟩ | ⟨error, rfl, hFailed, -⟩⟩ := h
  · exact congrArg _ (hReplies ⟨.returned, x⟩ (by simp))
  · cases hReplies _ (List.mem_cons_of_mem _ hFailed)

/-- `process_event_entry` decides by the contract. -/
theorem event_decision {decode : Bytes → Except String EventEnvelope}
    {handlers : List MessageHandlerDef} {source : StreamConsumer} {entry : StreamEntry}
    {subject : String} {bytes : Bytes} {handler : MessageHandlerDef}
    (hSubject : entry.subject = some subject) (hEnvelope : entry.envelope = some bytes)
    (hHandler : findEventHandler handlers subject = some handler) :
    (processEventEntry options decode handlers source entry).run.Post fun history _ =>
      (∀ e ∈ history, Answers attempt result stored e.1 e.2) →
      decisionOf RedisCall.decision history =
        eventDecision (validEvent options.maxEventBytes decode bytes) result attempt
          options.maxEventDeliveries options.deadLetterStream.isSome stored := by
  unfold processEventEntry
  rcases readEvent_cases options decode hSubject hEnvelope with ⟨hValid, event, hRead⟩ | ⟨hValid, hRead⟩
  · rw [hRead, hValid]
    dsimp only
    rw [hHandler]
    dsimp only
    rw [Proc.post_bind_except, post_pendingAttempt]
    intro reply
    cases reply with
    | error e =>
      intro hReplies
      obtain ⟨count, hCount, -⟩ := hReplies _ List.mem_cons_self
      cases hCount
    | ok count =>
      dsimp only [orTransport, Except.mapError, Except.map]
      rw [Proc.post_bind_except]
      refine Proc.post_mono (runHandler_post _ _ _ _) ?_
      intro before r hRan
      cases r with
      | error e =>
        intro hReplies
        have hBefore := fun e he => hReplies e (List.mem_cons_of_mem _ he)
        cases hRan.returned hBefore
      | ok x =>
        refine Proc.post_mono (completeEvent_decision stored source entry.id subject event) ?_
        intro later _ hDecision hReplies
        have hBefore : ∀ e ∈ before, Answers attempt result stored e.1 e.2 := fun e he =>
          hReplies e (List.mem_append_right [_] (List.mem_append_left later he))
        obtain ⟨_, hCount, rfl⟩ := hReplies _ List.mem_cons_self
        obtain rfl := Except.ok.inj hCount
        obtain rfl := Except.ok.inj (hRan.returned hBefore)
        have hNothing : ∀ e ∈ (⟨.pending entry.id, .ok count⟩ :: before : History RedisReply),
            e.1.decision = ⟨false, false⟩ :=
          List.forall_mem_cons.mpr ⟨rfl, handlerRan_decision hRan⟩
        refine (decisionOf_append hNothing later).trans (hDecision fun e he => hReplies e ?_)
        exact List.mem_append_right [_] (List.mem_append_right before he)
  · rw [hRead, hValid]
    exact fun acked _ => rfl

end Redis

namespace Nats

/-- The replies to an event task, when the dead-letter copy can be stored or not: it is
stored when its publication and the acknowledgement succeed. Other calls may fail. -/
def Answers (result : HandlerResult) (stored : Bool) : (c : NatsCall) → NatsReply c → Prop
  | .ackWith .progress, x => x = .ok ()
  | .returned, x => x = result
  | .publishDeadLetter .., x => stored = true → x = .ok ()
  | .published, x => x.isOk = stored
  | _, _ => True

variable {options : NatsTransportOptions} {maximum attempt : Nat} {result : HandlerResult}
  {stored : Bool} {message : JetStreamMessage} {info : DeliveryInfo}

theorem completeEvent_decision (stored : Bool) (event : EventEnvelope)
    (hMaximum : options.maxEventDeliveries = maximum) (hDelivered : info.delivered = attempt) :
    (completeEvent options message info event result).run.Post fun later _ =>
      (∀ e ∈ later, Answers result stored e.1 e.2) →
      decisionOf NatsCall.decision later = eventDecision true result attempt maximum
        options.deadLetterSubject.isSome stored := by
  cases result with
  | ok payload => exact fun acked _ => rfl
  | error error =>
    unfold completeEvent eventDecision
    dsimp only
    have hReached : options.maxEventDeliveries ≤ info.delivered ↔ maximum ≤ attempt := by
      rw [hMaximum, hDelivered, Int.ofNat_le]
    rw [Bool.not_true, if_neg Bool.false_ne_true]
    by_cases hClient : error.isClientError = true
    · rw [if_pos hClient, if_pos hClient]
      exact fun acked _ => rfl
    · rw [if_neg hClient, if_neg hClient]
      by_cases hAttempt : maximum ≤ attempt
      · rw [if_pos (hReached.mpr hAttempt), if_neg (Nat.not_lt_of_le hAttempt), deadLetterAndTerm]
        cases options.deadLetterSubject with
        | none => exact fun acked _ => rfl
        | some subject =>
          intro publication
          cases publication with
          | error e =>
            intro acked hReplies
            have hStored := hReplies _ List.mem_cons_self
            cases stored with
            | false => rfl
            | true => cases hStored rfl
          | ok _ =>
            intro acknowledgement
            cases acknowledgement with
            | error e =>
              intro acked hReplies
              have hStored := hReplies _ (List.mem_cons_of_mem _ List.mem_cons_self)
              rw [← show false = stored from hStored]
              rfl
            | ok _ =>
              intro acked hReplies
              have hStored := hReplies _ (List.mem_cons_of_mem _ List.mem_cons_self)
              rw [← show true = stored from hStored]
              rfl
      · rw [if_neg (mt hReached.mp hAttempt), if_pos (Nat.lt_of_not_le hAttempt)]
        exact fun acked _ => rfl

/-- Before the handler returns nothing is decided. -/
theorem runHandler_decision (handler : MessageHandlerDef) (context : MessageContext) (payload : Json)
    (result : HandlerResult) (stored : Bool) :
    (runHandler handler context payload).run.Post fun before r =>
      (∀ e ∈ before, e.1.decision = ⟨false, false⟩) ∧
        ((∀ e ∈ before, Answers result stored e.1 e.2) → r = .ok result) := by
  unfold runHandler
  rw [Proc.post_bind_except, Proc.post_ask]
  intro ticks
  dsimp only
  rw [Proc.post_bind_except]
  refine Proc.post_mono
    (Proc.post_times_call (c := NatsCall.ackWith .progress) (fun _ => Iff.rfl) ticks) ?_
  rintro beats r ⟨hProgress, hBeats⟩
  have hDecision : ∀ e ∈ beats, e.1.decision = ⟨false, false⟩ := by
    intro e he
    rw [hProgress e he]
    rfl
  rcases hBeats with rfl | ⟨reply, error, hReply, hFailed, rfl⟩
  · intro x
    refine ⟨?_, fun hReplies => congrArg _ (hReplies ⟨.returned, x⟩ (by simp))⟩
    intro e he
    rcases List.mem_append.mp he with he | he
    · rw [List.mem_singleton.mp he]
      rfl
    · rcases List.mem_append.mp he with he | he
      · exact hDecision e he
      · rw [List.mem_singleton.mp he]
        rfl
  · refine ⟨List.forall_mem_cons.mpr ⟨rfl, hDecision⟩, fun hReplies => ?_⟩
    obtain rfl : reply = .ok () := hReplies ⟨.ackWith .progress, reply⟩ (List.mem_cons_of_mem _ hReply)
    cases hFailed

/-- `process_event` decides by the contract. -/
theorem event_decision {decode : Bytes → Except String EventEnvelope} {handler : MessageHandlerDef}
    (hInfo : message.info = .ok info) (hMaximum : options.maxEventDeliveries = maximum)
    (hDelivered : info.delivered = attempt) :
    (processEvent options decode handler message).run.Post fun history _ =>
      (∀ e ∈ history, Answers result stored e.1 e.2) →
      decisionOf NatsCall.decision history =
        eventDecision (validEvent options.maxEventBytes decode message.payload) result attempt
          maximum options.deadLetterSubject.isSome stored := by
  have hDropped : validEvent options.maxEventBytes decode message.payload = false →
      (ackWith .term).run.Post fun history _ => (∀ e ∈ history, Answers result stored e.1 e.2) →
        decisionOf NatsCall.decision history =
          eventDecision (validEvent options.maxEventBytes decode message.payload) result attempt
            maximum options.deadLetterSubject.isSome stored := by
    intro hInvalid
    rw [hInvalid]
    exact fun acked _ => rfl
  unfold processEvent
  rw [hInfo]
  dsimp only
  by_cases hSize : message.payload.length ≤ options.maxEventBytes
  · rw [if_neg (Nat.not_lt_of_le hSize)]
    cases hDecoded : decode message.payload with
    | error e => exact hDropped (by simp [validEvent, hDecoded])
    | ok event =>
      dsimp only
      by_cases hEvent : event.version = protocolVersion ∧ event.eventId ≠ ""
      · have hValid : validEvent options.maxEventBytes decode message.payload = true := by
          simp [validEvent, hDecoded, hSize, hEvent]
        rw [if_pos hEvent, Proc.post_bind_except, hValid]
        refine Proc.post_mono (runHandler_decision _ _ _ result stored) ?_
        rintro before r ⟨hNothing, hReturned⟩
        cases r with
        | error e =>
          intro hReplies
          cases hReturned hReplies
        | ok x =>
          refine Proc.post_mono (completeEvent_decision stored event hMaximum hDelivered) ?_
          intro later _ hDecision hReplies
          obtain rfl := Except.ok.inj (hReturned fun e he => hReplies e (List.mem_append_left _ he))
          rw [decisionOf_append hNothing]
          exact hDecision fun e he => hReplies e (List.mem_append_right _ he)
      · rw [if_neg hEvent]
        exact hDropped (by simpa [validEvent, hDecoded] using fun _ => not_and.mp hEvent)
  · rw [if_pos (Nat.lt_of_not_le hSize)]
    exact hDropped (by simp [validEvent, hSize])

end Nats

/-- The two tasks of an event, with the same envelope, result of the handler, delivery
number, limits and outcome of the dead-letter publication, on any complete runs. -/
theorem event_decision_agrees (decode : Bytes → Except String EventEnvelope) (result : HandlerResult)
    (attempt : Nat) (stored : Bool) (redisOptions : RedisTransportOptions)
    (natsOptions : NatsTransportOptions) (handlers : List MessageHandlerDef)
    (source : StreamConsumer) (entry : StreamEntry) (subject : String) (handler : MessageHandlerDef)
    (natsHandler : MessageHandlerDef) (message : JetStreamMessage) (info : DeliveryInfo)
    (redisHistory : History RedisReply) (natsHistory : History NatsReply)
    (redisResult natsResult : Except MicroserviceError Unit)
    (hBytes : redisOptions.maxEventBytes = natsOptions.maxEventBytes)
    (hMaximum : natsOptions.maxEventDeliveries = redisOptions.maxEventDeliveries)
    (hConfigured : redisOptions.deadLetterStream.isSome = natsOptions.deadLetterSubject.isSome)
    (hSubject : entry.subject = some subject) (hEnvelope : entry.envelope = some message.payload)
    (hHandler : findEventHandler handlers subject = some handler)
    (hInfo : message.info = .ok info) (hDelivered : info.delivered = attempt)
    (hRedis : Proc.Run (Redis.processEventEntry redisOptions decode handlers source entry).run
      redisHistory (.done redisResult))
    (hRedisReplies : ∀ e ∈ redisHistory, Redis.Answers attempt result stored e.1 e.2)
    (hNats : Proc.Run (Nats.processEvent natsOptions decode natsHandler message).run
      natsHistory (.done natsResult))
    (hNatsReplies : ∀ e ∈ natsHistory, Nats.Answers result stored e.1 e.2) :
    decisionOf RedisCall.decision redisHistory = decisionOf NatsCall.decision natsHistory ∧
    ((decisionOf RedisCall.decision redisHistory).deadLettered = true → stored = false →
      (decisionOf RedisCall.decision redisHistory).finished = false ∧
        (decisionOf NatsCall.decision natsHistory).finished = false) := by
  have hRedisDecision := hRedis.post (Redis.event_decision hSubject hEnvelope hHandler) hRedisReplies
  have hNatsDecision := hNats.post (Nats.event_decision hInfo hMaximum hDelivered) hNatsReplies
  rw [← hBytes, ← hConfigured] at hNatsDecision
  rw [hRedisDecision, hNatsDecision]
  refine ⟨rfl, fun hDeadLettered hStored => ?_⟩
  have hFinished := (eventDecision_stored hDeadLettered).trans hStored
  exact ⟨hFinished, hFinished⟩

/-- A broker that does not store the dead letter of a fifth delivery. -/
def redisOutage (result : HandlerResult) : ∀ c, RedisReply c
  | .invoke .. => 1
  | .returned => result
  | .nowMillis => 7
  | .ack _ => .ok ()
  | .ackDelete _ => .ok ()
  | .touchPending _ => .ok ()
  | .pending _ => .ok (some 5)
  | .publish .. => .ok ()
  | .addDeadLetter .. => .error "connection lost"

def natsOutage (result : HandlerResult) : ∀ c, NatsReply c
  | .invoke .. => 1
  | .returned => result
  | .nowMillis => 7
  | .ackWith _ => .ok ()
  | .publish .. => .ok ()
  | .publishDeadLetter .. => .ok ()
  | .published => .error "no response"

theorem Redis.answers_outage (result : HandlerResult) (c : RedisCall) :
    Redis.Answers 5 result false c (redisOutage result c) := by
  cases c with
  | pending id => exact ⟨some 5, rfl, rfl⟩
  | returned => rfl
  | touchPending id => rfl
  | addDeadLetter stream failure => rfl
  | _ => trivial

theorem Nats.answers_outage (result : HandlerResult) (c : NatsCall) :
    Nats.Answers result false c (natsOutage result c) := by
  cases c with
  | ackWith kind => cases kind <;> trivial
  | returned => rfl
  | publishDeadLetter subject deadLetter => exact nofun
  | published => rfl
  | _ => trivial

def placedHandler : MessageHandlerDef := ⟨.event, "order.placed"⟩

def placedEvent : EventEnvelope where
  version := 1
  eventId := "e-1"
  headers := ∅
  payload := .null
  publishedAtUnixMillis := 5

def placedEntry : StreamEntry := ⟨"1-0", some "order.placed", some []⟩

def placedInfo : DeliveryInfo := ⟨"events", "orders", 5⟩

def placedMessage : JetStreamMessage := ⟨⟨"order.placed", none, none, []⟩, .ok placedInfo⟩

def eventRedis : RedisTransportOptions where
  maxRequestBytes := 1024
  maxResponseBytes := 1024
  maxEventBytes := 1024
  maxEventDeliveries := 5
  deadLetterStream := some "failed"
  response_le := minimumResponseEnvelopeBytes_le
  deliveries_pos := redisDeliveries_pos

def eventNats : NatsTransportOptions where
  maxRequestBytes := 1024
  maxResponseBytes := 1024
  maxEventBytes := 1024
  maxEventDeliveries := 5
  deadLetterSubject := some "failed"
  eventRetryDelay := 0
  response_le := minimumResponseEnvelopeBytes_le
  deliveries_pos := natsDeliveries_pos

/-- The last delivery of a failing event, without a copy in the dead-letter stream. -/
theorem event_decision_agrees_outage : ∃ redisHistory redisResult natsHistory natsResult,
    Proc.Run (Redis.processEventEntry eventRedis (fun _ => .ok placedEvent) [placedHandler]
      ⟨"events", "orders", "replica"⟩ placedEntry).run redisHistory (.done redisResult) ∧
    Proc.Run (Nats.processEvent eventNats (fun _ => .ok placedEvent) placedHandler placedMessage).run
      natsHistory (.done natsResult) ∧
    decisionOf RedisCall.decision redisHistory = decisionOf NatsCall.decision natsHistory := by
  obtain ⟨redisHistory, redisResult, hRedis, hRedisReplies⟩ := Proc.exists_run
    (Redis.processEventEntry eventRedis (fun _ => .ok placedEvent) [placedHandler]
      ⟨"events", "orders", "replica"⟩ placedEntry).run (redisOutage (.error (.new 500 "" "")))
  obtain ⟨natsHistory, natsResult, hNats, hNatsReplies⟩ := Proc.exists_run
    (Nats.processEvent eventNats (fun _ => .ok placedEvent) placedHandler placedMessage).run
    (natsOutage (.error (.new 500 "" "")))
  have hRedisAnswers : ∀ e ∈ redisHistory,
      Redis.Answers 5 (.error (.new 500 "" "")) false e.1 e.2 := by
    intro e he
    rw [hRedisReplies e he]
    exact Redis.answers_outage _ _
  have hNatsAnswers : ∀ e ∈ natsHistory, Nats.Answers (.error (.new 500 "" "")) false e.1 e.2 := by
    intro e he
    rw [hNatsReplies e he]
    exact Nats.answers_outage _ _
  refine ⟨redisHistory, redisResult, natsHistory, natsResult, hRedis, hNats, ?_⟩
  exact (event_decision_agrees _ _ 5 false eventRedis eventNats [placedHandler] _ placedEntry
    "order.placed" placedHandler placedHandler placedMessage placedInfo _ _ _ _ rfl rfl rfl rfl rfl
    (by decide) rfl rfl hRedis hRedisAnswers hNats hNatsAnswers).1

end Caelix
