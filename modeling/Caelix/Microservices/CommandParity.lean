import Caelix.Microservices.Commands

/-!
# Commands on both transports

What a client sees of a request on the two transports, on any run of their tasks at the
same reading of the clock.

* `outcome_eq_iff`: the transports agree unless the deadline is the current millisecond,
  the correlation id is longer than Redis accepts, or an error reply does not fit.
-/

namespace Caelix

open Interaction

inductive CommandOutcome where
  | invoked
  | protocolError
  | deadlineError
  | dropped
  deriving DecidableEq, Repr

/-- What a reply tells about its request. -/
def ResponseBody.outcome : ResponseBody → CommandOutcome
  | .success _ => .invoked
  | .error e => if e.code = "Deadline Exceeded" then .deadlineError else .protocolError

def RedisCall.outcome : RedisCall → Option CommandOutcome
  | .invoke .. => some .invoked
  | .publish _ bytes => some bytes.envelope.body.outcome
  | _ => none

def NatsCall.outcome : NatsCall → Option CommandOutcome
  | .invoke .. => some .invoked
  | .publish _ bytes => some bytes.envelope.body.outcome
  | _ => none

/-- The first invocation or reply of a run decides. -/
def outcomeOf {Call : Type} {Reply : Call → Type} (outcome : Call → Option CommandOutcome)
    (history : History Reply) : CommandOutcome :=
  (history.findSome? fun e => outcome e.1).getD .dropped

/-- The size of an error reply. -/
def errorSize (correlationId code message : String) : Nat :=
  (errorReply correlationId code message).json.byteLength

def protocolSize (id : String) : Nat := errorSize id "Protocol" "unsupported request protocol version"

def deadlineSize (id : String) : Nat :=
  errorSize id "Deadline Exceeded" "request deadline elapsed before handler invocation"

def fallbackSize (id : String) : Nat :=
  errorSize id "Protocol" "response envelope exceeds configured maximum"

/-- Where the transports agree on a decoded request. -/
def SameOutcome (redisLimit natsLimit now : Nat) (request : RequestEnvelope) : Prop :=
  request.correlationId = "" ∨
  if request.correlationId.utf8ByteSize ≤ 128 then
    if request.version ≠ protocolVersion then
      protocolSize request.correlationId ≤ redisLimit ↔ protocolSize request.correlationId ≤ natsLimit
    else
      ∀ deadline ∈ request.deadlineUnixMillis, deadline ≠ now ∧ (deadline < now →
        (deadlineSize request.correlationId ≤ redisLimit ∧
          deadlineSize request.correlationId ≤ natsLimit) ∨
        (natsLimit < deadlineSize request.correlationId ∧
          redisLimit < fallbackSize request.correlationId))
  else if request.version ≠ protocolVersion then natsLimit < protocolSize request.correlationId
  else ∃ deadline ∈ request.deadlineUnixMillis, deadline < now ∧
    natsLimit < deadlineSize request.correlationId

/-! ## Decisions -/

/-- The outcome of a plan, from the outcome of a reply. -/
def CommandPlan.outcome (reply : ResponseBody → CommandOutcome) : CommandPlan → CommandOutcome
  | .reply body => reply body
  | .invoke => .invoked

/-- A reply that is dropped when it is too large. -/
def limitedOutcome (limit : Nat) (id : String) (body : ResponseBody) : CommandOutcome :=
  if replySize id body ≤ limit then body.outcome else .dropped

/-- A reply that is replaced when it is too large. -/
def replacedOutcome (limit : Nat) (id : String) (body : ResponseBody) : CommandOutcome :=
  if replySize id body ≤ limit then body.outcome
  else if fallbackSize id ≤ limit then .protocolError else .dropped

def redisDecision (limit now : Nat) (request : RequestEnvelope) : CommandOutcome :=
  if request.correlationId = "" ∨ 128 < request.correlationId.utf8ByteSize then .dropped
  else (commandPlan request (request.deadlineUnixMillis.any fun d => d ≤ now)).outcome
    (replacedOutcome limit request.correlationId)

def natsDecision (limit now : Nat) (request : RequestEnvelope) : CommandOutcome :=
  if request.correlationId = "" then .dropped
  else (commandPlan request (request.deadlineUnixMillis.any fun d => d < now)).outcome
    (limitedOutcome limit request.correlationId)

theorem escapedSize_texts : escapedSize "Protocol" = 8 ∧
    escapedSize "unsupported request protocol version" = 36 ∧
    escapedSize "response envelope exceeds configured maximum" = 44 ∧
    escapedSize "Deadline Exceeded" = 17 ∧
    escapedSize "request deadline elapsed before handler invocation" = 50 := by
  decide

theorem protocolSize_eq (id : String) : protocolSize id = 157 + escapedSize id := by
  rw [protocolSize, errorSize, byteLength_errorReply, escapedSize_texts.1, escapedSize_texts.2.1]
  omega

theorem fallbackSize_eq (id : String) : fallbackSize id = 165 + escapedSize id := by
  rw [fallbackSize, errorSize, byteLength_errorReply, escapedSize_texts.1, escapedSize_texts.2.2.1]
  omega

theorem deadlineSize_eq (id : String) : deadlineSize id = 180 + escapedSize id := by
  rw [deadlineSize, errorSize, byteLength_errorReply, escapedSize_texts.2.2.2.1,
    escapedSize_texts.2.2.2.2]
  omega

def protocolBody : ResponseBody :=
  .error ⟨"Protocol", "unsupported request protocol version", none, false⟩

def deadlineBody : ResponseBody :=
  .error ⟨"Deadline Exceeded", "request deadline elapsed before handler invocation", none, false⟩

theorem limitedOutcome_protocol (limit : Nat) (id : String) :
    limitedOutcome limit id protocolBody =
      if protocolSize id ≤ limit then .protocolError else .dropped := rfl

theorem limitedOutcome_deadline (limit : Nat) (id : String) :
    limitedOutcome limit id deadlineBody =
      if deadlineSize id ≤ limit then .deadlineError else .dropped := rfl

theorem replacedOutcome_deadline (limit : Nat) (id : String) :
    replacedOutcome limit id deadlineBody =
      if deadlineSize id ≤ limit then .deadlineError
      else if fallbackSize id ≤ limit then .protocolError else .dropped := rfl

/-- The replacement of a protocol error is larger than the error. -/
theorem replacedOutcome_protocol (limit : Nat) (id : String) :
    replacedOutcome limit id protocolBody =
      if protocolSize id ≤ limit then .protocolError else .dropped := by
  have hReplaced : replacedOutcome limit id protocolBody =
      if protocolSize id ≤ limit then .protocolError
      else if fallbackSize id ≤ limit then .protocolError else .dropped := rfl
  rw [hReplaced]
  by_cases hFits : protocolSize id ≤ limit
  · rw [if_pos hFits, if_pos hFits]
  · have hLarger : ¬ fallbackSize id ≤ limit := by
      rw [protocolSize_eq] at hFits
      rw [fallbackSize_eq]
      omega
    rw [if_neg hFits, if_neg hFits, if_neg hLarger]

theorem commandPlan_outcome (reply : ResponseBody → CommandOutcome) (request : RequestEnvelope)
    (elapsed : Bool) : (commandPlan request elapsed).outcome reply =
      if request.version ≠ protocolVersion then reply protocolBody
      else if elapsed then reply deadlineBody else .invoked := by
  unfold commandPlan
  split
  · rfl
  · split <;> rfl

/-- A request that Redis takes. -/
theorem taken_eq_iff {redisLimit natsLimit now : Nat} {id : String} {deadline : Nat} :
    ((if deadline ≤ now then replacedOutcome redisLimit id deadlineBody else .invoked) =
      if deadline < now then limitedOutcome natsLimit id deadlineBody else .invoked) ↔
    deadline ≠ now ∧ (deadline < now →
      (deadlineSize id ≤ redisLimit ∧ deadlineSize id ≤ natsLimit) ∨
        (natsLimit < deadlineSize id ∧ redisLimit < fallbackSize id)) := by
  rw [replacedOutcome_deadline, limitedOutcome_deadline]
  have hSizes : fallbackSize id ≤ deadlineSize id := by
    rw [fallbackSize_eq, deadlineSize_eq]
    omega
  rcases Nat.lt_trichotomy deadline now with hLt | hEq | hGt
  · rw [if_pos (Nat.le_of_lt hLt), if_pos hLt]
    by_cases hNats : deadlineSize id ≤ natsLimit
    · rw [if_pos hNats]
      by_cases hRedis : deadlineSize id ≤ redisLimit
      · simp [hRedis, hNats, hLt, Nat.ne_of_lt hLt]
      · by_cases hFallback : fallbackSize id ≤ redisLimit
        · simp [hRedis, hNats, hFallback, hLt]
        · simp [hRedis, hNats, hFallback, hLt]
    · rw [if_neg hNats]
      by_cases hRedis : deadlineSize id ≤ redisLimit
      · have hFallback : fallbackSize id ≤ redisLimit := hSizes.trans hRedis
        simp [hRedis, hNats, hFallback, hLt]
      · by_cases hFallback : fallbackSize id ≤ redisLimit
        · simp [hRedis, hNats, hFallback, hLt]
        · simp [hRedis, hNats, hFallback, hLt, Nat.ne_of_lt hLt, Nat.lt_of_not_le hNats,
            Nat.lt_of_not_le hFallback]
  · rw [if_pos (Nat.le_of_eq hEq), if_neg (Nat.not_lt_of_le (Nat.le_of_eq hEq.symm))]
    simp only [hEq, ne_eq, not_true, false_and, iff_false]
    split
    · nofun
    · split <;> nofun
  · rw [if_neg (Nat.not_le_of_lt hGt), if_neg (Nat.not_lt_of_lt hGt)]
    exact iff_of_true rfl ⟨Nat.ne_of_gt hGt, fun hLt => absurd hLt (Nat.not_lt_of_lt hGt)⟩

theorem decision_eq_iff (redisLimit natsLimit now : Nat) (request : RequestEnvelope) :
    redisDecision redisLimit now request = natsDecision natsLimit now request ↔
      SameOutcome redisLimit natsLimit now request := by
  unfold redisDecision natsDecision SameOutcome
  by_cases hEmpty : request.correlationId = ""
  · simp [hEmpty]
  · simp only [hEmpty, false_or, if_false, commandPlan_outcome]
    by_cases hLength : request.correlationId.utf8ByteSize ≤ 128
    · rw [if_neg (Nat.not_lt_of_le hLength), if_pos hLength]
      by_cases hVersion : request.version ≠ protocolVersion
      · rw [if_pos hVersion, if_pos hVersion, if_pos hVersion, replacedOutcome_protocol,
          limitedOutcome_protocol]
        by_cases hRedis : protocolSize request.correlationId ≤ redisLimit
        · by_cases hNats : protocolSize request.correlationId ≤ natsLimit
          · simp [hRedis, hNats]
          · simp [hRedis, hNats]
        · by_cases hNats : protocolSize request.correlationId ≤ natsLimit
          · simp [hRedis, hNats]
          · simp [hRedis, hNats]
      · rw [if_neg hVersion, if_neg hVersion, if_neg hVersion]
        cases hDeadline : request.deadlineUnixMillis with
        | none => simp
        | some deadline =>
          simp only [Option.any_some, decide_eq_true_eq, Option.mem_def, Option.some.injEq,
            forall_eq']
          exact taken_eq_iff
    · rw [if_pos (Nat.lt_of_not_le hLength), if_neg hLength]
      by_cases hVersion : request.version ≠ protocolVersion
      · rw [if_pos hVersion, if_pos hVersion, limitedOutcome_protocol]
        by_cases hNats : protocolSize request.correlationId ≤ natsLimit
        · simp [hNats]
        · simp [hNats, Nat.lt_of_not_le hNats]
      · rw [if_neg hVersion, if_neg hVersion]
        cases hDeadline : request.deadlineUnixMillis with
        | none => simp
        | some deadline =>
          simp only [Option.any_some, decide_eq_true_eq, Option.mem_def, Option.some.injEq,
            exists_eq_left', limitedOutcome_deadline]
          by_cases hLt : deadline < now
          · by_cases hNats : deadlineSize request.correlationId ≤ natsLimit
            · simp [hLt, hNats]
            · simp [hLt, hNats, Nat.lt_of_not_le hNats]
          · simp [hLt]

/-! ## Runs -/

section Outcome

variable {Call : Type} {Reply : Call → Type} {outcome : Call → Option CommandOutcome}

/-- Calls that a client does not see come first. -/
theorem outcomeOf_append {before : History Reply} (h : ∀ e ∈ before, outcome e.1 = none)
    (later : History Reply) : outcomeOf outcome (before ++ later) = outcomeOf outcome later := by
  have hNone : before.findSome? (fun e => outcome e.1) = none := List.findSome?_eq_none_iff.mpr h
  rw [outcomeOf, List.findSome?_append, hNone, Option.none_or]
  rfl

theorem outcomeOf_clock {nowMillis : Call} (hCall : outcome nowMillis = none)
    {clock : History Reply} (h : ∀ e ∈ clock, e.1 = nowMillis) (later : History Reply) :
    outcomeOf outcome (clock ++ later) = outcomeOf outcome later := by
  refine outcomeOf_append (fun e he => ?_) later
  rw [h e he, hCall]

end Outcome

theorem encodeLimited_cases (id : String) (body : ResponseBody) (limit : Nat) :
    (replySize id body ≤ limit ∧ ∃ bytes, encodeLimited ⟨protocolVersion, id, body⟩ limit = .ok bytes ∧
      bytes.envelope.body = body) ∨
    (limit < replySize id body ∧ ∃ e, encodeLimited ⟨protocolVersion, id, body⟩ limit = .error e) := by
  unfold encodeLimited
  by_cases h : limit < replySize id body
  · exact .inr ⟨h, _, dif_pos h⟩
  · exact .inl ⟨Nat.le_of_not_lt h, _, dif_neg h, rfl⟩

theorem limitedOutcome_of_encoded (id : String) (body : ResponseBody) (limit : Nat) :
    limitedOutcome limit id body =
      match encodeLimited ⟨protocolVersion, id, body⟩ limit with
      | .ok bytes => bytes.envelope.body.outcome
      | .error _ => .dropped := by
  rcases encodeLimited_cases id body limit with ⟨hFits, bytes, hEncoded, hBody⟩ | ⟨hLarge, e, hEncoded⟩
  · rw [hEncoded, limitedOutcome, if_pos hFits, ← hBody]
  · rw [hEncoded, limitedOutcome, if_neg (Nat.not_le_of_lt hLarge)]

theorem replacedOutcome_of_encoded (id : String) (body : ResponseBody) (limit : Nat) :
    replacedOutcome limit id body =
      match encodeReply id body limit with
      | .ok bytes => bytes.envelope.body.outcome
      | .error _ => .dropped := by
  unfold encodeReply
  rcases encodeLimited_cases id body limit with ⟨hFits, bytes, hEncoded, hBody⟩ | ⟨hLarge, e, hEncoded⟩
  · rw [hEncoded, replacedOutcome, if_pos hFits, ← hBody]
  · rw [hEncoded, replacedOutcome, if_neg (Nat.not_le_of_lt hLarge)]
    exact limitedOutcome_of_encoded id
      (.error ⟨"Protocol", "response envelope exceeds configured maximum", none, false⟩) limit

namespace Redis

variable {options : RedisTransportOptions} {decode : Bytes → Except String RequestEnvelope}
  {handler : MessageHandlerDef} {entry : StreamEntry} {history : History RedisReply}
  {r : Except MicroserviceError Unit}

theorem completed_outcome {id channel correlationId : String} {body : ResponseBody}
    (h : Completed options id channel correlationId body history r) :
    outcomeOf RedisCall.outcome history =
      replacedOutcome options.maxResponseBytes correlationId body := by
  rw [replacedOutcome_of_encoded]
  unfold Completed at h
  cases hReply : encodeReply correlationId body options.maxResponseBytes with
  | ok bytes =>
    rw [hReply] at h
    obtain ⟨published, acked, rfl, -⟩ := h
    rfl
  | error e =>
    rw [hReply] at h
    obtain ⟨acked, rfl, -⟩ := h
    rfl

theorem handlerRan_outcome {id : String} {context : MessageContext} {payload : Json}
    {before : History RedisReply} {result : Except MicroserviceError HandlerResult}
    (h : HandlerRan id handler context payload before result) (later : History RedisReply) :
    outcomeOf RedisCall.outcome (before ++ later) = .invoked := by
  obtain ⟨ticks, beats, -, ⟨result, rfl, -⟩ | ⟨e, rfl, -, -⟩⟩ := h
  · rfl
  · rfl

theorem accepted_outcome {request : RequestEnvelope} {channel : String} {now : Nat}
    (h : Accepts options decode entry request channel)
    (hRun : Proc.Run (processCommandEntry options decode handler entry).run history (.done r))
    (hClock : ReadsClock now history) : outcomeOf RedisCall.outcome history =
      (commandPlan request (request.deadlineUnixMillis.any fun d => d ≤ now)).outcome
        (replacedOutcome options.maxResponseBytes request.correlationId) := by
  obtain ⟨clock, later, rfl, hReadings, hCarried⟩ := run_carriedOut h hRun hClock
  rw [outcomeOf_clock rfl hReadings]
  cases hPlan : commandPlan request (request.deadlineUnixMillis.any fun d => d ≤ now) with
  | reply body =>
    rw [hPlan] at hCarried
    exact completed_outcome hCarried
  | invoke =>
    rw [hPlan] at hCarried
    obtain ⟨before, later, result, rfl, hRan, -⟩ := hCarried
    exact handlerRan_outcome hRan later

/-- The outcome of a run on an envelope within the size limit. -/
theorem command_outcome {bytes : Bytes} {now : Nat} (hEnvelope : entry.envelope = some bytes)
    (hSize : bytes.length ≤ options.maxRequestBytes)
    (hChannel : ∀ request, decode bytes = .ok request → unusableChannel request.replyChannel = false)
    (hRun : Proc.Run (processCommandEntry options decode handler entry).run history (.done r))
    (hClock : ReadsClock now history) : outcomeOf RedisCall.outcome history =
      match decode bytes with
      | .ok request => redisDecision options.maxResponseBytes now request
      | .error _ => .dropped := by
  have hDropped : processCommandEntry options decode handler entry = ackDelete entry.id →
      outcomeOf RedisCall.outcome history = .dropped := by
    intro hEntry
    rw [hEntry] at hRun
    have hAcked : ∃ acked, history = [⟨.ackDelete entry.id, acked⟩] :=
      hRun.post ((post_ackDelete _ _).mpr fun acked => ⟨acked, rfl⟩ :
        (ackDelete entry.id).run.Post fun history _ => ∃ acked, history = [⟨.ackDelete entry.id, acked⟩])
    obtain ⟨acked, rfl⟩ := hAcked
    rfl
  cases hDecode : decode bytes with
  | error e =>
    apply hDropped
    unfold processCommandEntry
    rw [hEnvelope]
    dsimp only
    rw [if_neg (Nat.not_lt_of_le hSize), hDecode]
  | ok request =>
    dsimp only
    unfold redisDecision
    by_cases hId : request.correlationId = "" ∨ 128 < request.correlationId.utf8ByteSize
    · rw [if_pos hId]
      apply hDropped
      unfold processCommandEntry
      rw [hEnvelope]
      dsimp only
      rw [if_neg (Nat.not_lt_of_le hSize), hDecode]
      dsimp only
      rw [if_pos (by simpa using Or.inl hId)]
    · rw [if_neg hId]
      have hUsable := hChannel request hDecode
      cases hReply : request.replyChannel with
      | none =>
        rw [hReply] at hUsable
        cases hUsable
      | some channel =>
        rw [hReply, unusableChannel, Bool.or_eq_false_iff] at hUsable
        refine accepted_outcome ⟨⟨bytes, hEnvelope, hSize, hDecode⟩, fun h => hId (.inl h),
          Nat.le_of_not_lt fun h => hId (.inr h), hReply, ?_, ?_⟩ hRun hClock
        · simpa using hUsable.1
        · simpa using hUsable.2

end Redis

namespace Nats

variable {options : NatsTransportOptions} {decode : Bytes → Except String RequestEnvelope}
  {handler : MessageHandlerDef} {message : NatsMessage} {history : History NatsReply}
  {r : Except MicroserviceError Unit}

theorem sent_outcome {reply id : String} {body : ResponseBody} {maximum : Nat}
    (h : Sent reply (encodeLimited ⟨protocolVersion, id, body⟩ maximum) history r) :
    outcomeOf NatsCall.outcome history = limitedOutcome maximum id body := by
  rw [limitedOutcome_of_encoded]
  unfold Sent at h
  cases hEncoded : encodeLimited ⟨protocolVersion, id, body⟩ maximum with
  | ok bytes =>
    rw [hEncoded] at h
    obtain ⟨published, rfl, -⟩ := h
    rfl
  | error e =>
    rw [hEncoded] at h
    rw [h.1]
    rfl

theorem accepted_outcome {request : RequestEnvelope} {reply : String} {now : Nat}
    (h : Accepts options decode message request reply)
    (hRun : Proc.Run (processCommand options decode handler message).run history (.done r))
    (hClock : ReadsClock now history) : outcomeOf NatsCall.outcome history =
      (commandPlan request (request.deadlineUnixMillis.any fun d => d < now)).outcome
        (limitedOutcome options.maxResponseBytes request.correlationId) := by
  obtain ⟨clock, later, sent, encoded, rfl, hReadings, hSent, hDispatched⟩ := run_dispatched h hRun hClock
  rw [outcomeOf_clock rfl hReadings]
  cases hPlan : commandPlan request (request.deadlineUnixMillis.any fun d => d < now) with
  | reply body =>
    rw [hPlan] at hDispatched
    obtain ⟨rfl, rfl⟩ := hDispatched
    exact sent_outcome hSent
  | invoke =>
    rw [hPlan] at hDispatched
    obtain ⟨ticks, result, rfl, -⟩ := hDispatched
    rfl

theorem not_dispatched_outcome {e : MicroserviceClientError}
    (hDispatch : dispatchCommand options decode handler message = throw e)
    (hRun : Proc.Run (processCommand options decode handler message).run history (.done r)) :
    outcomeOf NatsCall.outcome history = .dropped := by
  have hEmpty : (processCommand options decode handler message).run.Post fun history _ =>
      history = [] := by
    unfold processCommand
    rw [hDispatch]
    cases message.reply <;> rfl
  rw [hRun.post hEmpty]
  rfl

/-- The outcome of a run on an envelope within the size limit. -/
theorem command_outcome {reply : String} {now : Nat}
    (hSize : message.payload.length ≤ options.maxRequestBytes) (hReply : message.reply = some reply)
    (hRun : Proc.Run (processCommand options decode handler message).run history (.done r))
    (hClock : ReadsClock now history) : outcomeOf NatsCall.outcome history =
      match decode message.payload with
      | .ok request => natsDecision options.maxResponseBytes now request
      | .error _ => .dropped := by
  cases hDecode : decode message.payload with
  | error e =>
    refine not_dispatched_outcome (e := .decode e) ?_ hRun
    rw [dispatchCommand, if_neg (Nat.not_lt_of_le hSize), hDecode]
  | ok request =>
    dsimp only
    unfold natsDecision
    by_cases hId : request.correlationId = ""
    · rw [if_pos hId]
      refine not_dispatched_outcome (e := .protocol "request correlation ID is missing") ?_ hRun
      rw [dispatchCommand, if_neg (Nat.not_lt_of_le hSize), hDecode]
      dsimp only
      rw [if_pos (by simp [hId])]
    · rw [if_neg hId]
      exact accepted_outcome ⟨hSize, hDecode, hId, hReply⟩ hRun hClock

end Nats

/-- On an envelope within the size limits that arrives with a usable reply channel, at the
same reading of the clock, the transports agree exactly as `SameOutcome` says. -/
theorem outcome_eq_iff {redis : RedisTransportOptions} {nats : NatsTransportOptions}
    {decode : Bytes → Except String RequestEnvelope} {handler : MessageHandlerDef}
    {entry : StreamEntry} {message : NatsMessage} {reply : String} {now : Nat}
    (hEnvelope : entry.envelope = some message.payload)
    (hRedisSize : message.payload.length ≤ redis.maxRequestBytes)
    (hNatsSize : message.payload.length ≤ nats.maxRequestBytes)
    (hChannel : ∀ request, decode message.payload = .ok request →
      Redis.unusableChannel request.replyChannel = false)
    (hReply : message.reply = some reply)
    {redisHistory : History RedisReply} {redisResult : Except MicroserviceError Unit}
    (hRedis : Proc.Run (Redis.processCommandEntry redis decode handler entry).run redisHistory
      (.done redisResult)) (hRedisClock : Redis.ReadsClock now redisHistory)
    {natsHistory : History NatsReply} {natsResult : Except MicroserviceError Unit}
    (hNats : Proc.Run (Nats.processCommand nats decode handler message).run natsHistory
      (.done natsResult)) (hNatsClock : Nats.ReadsClock now natsHistory) :
    outcomeOf RedisCall.outcome redisHistory = outcomeOf NatsCall.outcome natsHistory ↔
      ∀ request, decode message.payload = .ok request →
        SameOutcome redis.maxResponseBytes nats.maxResponseBytes now request := by
  rw [Redis.command_outcome hEnvelope hRedisSize hChannel hRedis hRedisClock,
    Nats.command_outcome hNatsSize hReply hNats hNatsClock]
  cases hDecode : decode message.payload with
  | error e => exact iff_of_true rfl nofun
  | ok request =>
    dsimp only
    rw [decision_eq_iff]
    exact ⟨fun h _ he => Except.ok.inj he ▸ h, fun h => h request rfl⟩

/-! ## A request -/

def smallRedis : RedisTransportOptions where
  maxRequestBytes := 1024
  maxResponseBytes := 256
  maxEventBytes := 1024
  maxEventDeliveries := 5
  deadLetterStream := none
  response_le := by decide
  deliveries_pos := by decide

def smallNats : NatsTransportOptions where
  maxRequestBytes := 1024
  maxResponseBytes := 256
  maxEventBytes := 1024
  maxEventDeliveries := 5
  deadLetterSubject := none
  eventRetryDelay := 0
  response_le := by decide
  deliveries_pos := by decide

/-- An environment in which every call succeeds. -/
def redisReplies (now : Nat) (result : HandlerResult) : ∀ c, RedisReply c
  | .invoke .. => 0
  | .returned => result
  | .nowMillis => now
  | .ack _ => .ok ()
  | .ackDelete _ => .ok ()
  | .touchPending _ => .ok ()
  | .pending _ => .ok (some 1)
  | .publish .. => .ok ()
  | .addDeadLetter .. => .ok "0-1"

def natsReplies (now : Nat) (result : HandlerResult) : ∀ c, NatsReply c
  | .invoke .. => 0
  | .returned => result
  | .nowMillis => now
  | .ackWith _ => .ok ()
  | .publish .. => .ok ()
  | .publishDeadLetter .. => .ok ()
  | .published => .ok ()

theorem Redis.readsClock_replies {now : Nat} {result : HandlerResult} {history : History RedisReply}
    (h : ∀ e ∈ history, e.2 = redisReplies now result e.1) : Redis.ReadsClock now history :=
  fun n hn => h ⟨.nowMillis, n⟩ hn

theorem Nats.readsClock_replies {now : Nat} {result : HandlerResult} {history : History NatsReply}
    (h : ∀ e ∈ history, e.2 = natsReplies now result e.1) : Nats.ReadsClock now history :=
  fun n hn => h ⟨.nowMillis, n⟩ hn

def pingRequest : RequestEnvelope where
  version := 1
  correlationId := "r-1"
  deadlineUnixMillis := some 10
  replyChannel := some "replies"
  headers := ∅
  payload := .null

def pingHandler : MessageHandlerDef := ⟨.command, "ping"⟩

def pingEntry : StreamEntry := ⟨"1-0", some "ping", some []⟩

def pingMessage : NatsMessage := ⟨"ping", some "replies", none, []⟩

theorem ping_channel (request : RequestEnvelope)
    (h : (.ok pingRequest : Except String RequestEnvelope) = .ok request) :
    Redis.unusableChannel request.replyChannel = false := by
  obtain rfl := Except.ok.inj h
  decide

/-- Before its deadline the request is given to the handler on both transports. -/
theorem outcome_eq_iff_in_time : ∃ redisHistory redisResult natsHistory natsResult,
    Proc.Run (Redis.processCommandEntry smallRedis (fun _ => .ok pingRequest) pingHandler pingEntry).run
      redisHistory (.done redisResult) ∧
    Proc.Run (Nats.processCommand smallNats (fun _ => .ok pingRequest) pingHandler pingMessage).run
      natsHistory (.done natsResult) ∧
    outcomeOf RedisCall.outcome redisHistory = outcomeOf NatsCall.outcome natsHistory := by
  obtain ⟨redisHistory, redisResult, hRedis, hRedisReplies⟩ := Proc.exists_run
    (Redis.processCommandEntry smallRedis (fun _ => .ok pingRequest) pingHandler pingEntry).run
    (redisReplies 7 (.ok none))
  obtain ⟨natsHistory, natsResult, hNats, hNatsReplies⟩ := Proc.exists_run
    (Nats.processCommand smallNats (fun _ => .ok pingRequest) pingHandler pingMessage).run
    (natsReplies 7 (.ok none))
  refine ⟨redisHistory, redisResult, natsHistory, natsResult, hRedis, hNats, ?_⟩
  refine (outcome_eq_iff rfl (by decide) (by decide) ping_channel rfl hRedis
    (Redis.readsClock_replies hRedisReplies) hNats (Nats.readsClock_replies hNatsReplies)).mpr ?_
  intro request h
  obtain rfl := Except.ok.inj h
  refine .inr ?_
  rw [if_pos (by decide), if_neg (by decide)]
  intro deadline hDeadline
  obtain rfl := Option.some.inj hDeadline
  exact ⟨by decide, fun hLt => absurd hLt (by decide)⟩

/-- At its deadline the request is refused on Redis and given to the handler on NATS. -/
theorem outcome_differs_at_deadline : ∃ redisHistory redisResult natsHistory natsResult,
    Proc.Run (Redis.processCommandEntry smallRedis (fun _ => .ok pingRequest) pingHandler pingEntry).run
      redisHistory (.done redisResult) ∧ Redis.ReadsClock 10 redisHistory ∧
    Proc.Run (Nats.processCommand smallNats (fun _ => .ok pingRequest) pingHandler pingMessage).run
      natsHistory (.done natsResult) ∧ Nats.ReadsClock 10 natsHistory ∧
    outcomeOf RedisCall.outcome redisHistory ≠ outcomeOf NatsCall.outcome natsHistory := by
  obtain ⟨redisHistory, redisResult, hRedis, hRedisReplies⟩ := Proc.exists_run
    (Redis.processCommandEntry smallRedis (fun _ => .ok pingRequest) pingHandler pingEntry).run
    (redisReplies 10 (.ok none))
  obtain ⟨natsHistory, natsResult, hNats, hNatsReplies⟩ := Proc.exists_run
    (Nats.processCommand smallNats (fun _ => .ok pingRequest) pingHandler pingMessage).run
    (natsReplies 10 (.ok none))
  have hRedisClock := Redis.readsClock_replies hRedisReplies
  have hNatsClock := Nats.readsClock_replies hNatsReplies
  refine ⟨redisHistory, redisResult, natsHistory, natsResult, hRedis, hRedisClock, hNats, hNatsClock, ?_⟩
  rw [Redis.command_outcome rfl (by decide) ping_channel hRedis hRedisClock,
    Nats.command_outcome (by decide) rfl hNats hNatsClock]
  intro hSame
  rcases (decision_eq_iff _ _ _ _).mp hSame with hEmpty | hAgree
  · exact absurd hEmpty (by decide)
  · rw [if_pos (by decide), if_neg (by decide)] at hAgree
    exact (hAgree 10 rfl).1 rfl

end Caelix
