import Caelix.Microservices.CommandParity

/-!
# Bounded replies

Every reply is at most as large as the configured maximum, since a larger one is not sent.
Whether there is one depends on the correlation id, which every reply repeats.

* `bounded_reply_iff`: a request that passes the checks of a transport is answered, and
  does not end the consumer, exactly when a reply fits.
-/

namespace Caelix

open Interaction

/-- The body of the reply to a request, from the result of its handler. -/
def replyBody (request : RequestEnvelope) (elapsed : Bool) (result : HandlerResult) : ResponseBody :=
  match commandPlan request elapsed with
  | .reply body => body
  | .invoke => result.body

theorem encodeReply_ok_iff {id : String} {body : ResponseBody} {limit : Nat} :
    (∃ bytes, encodeReply id body limit = .ok bytes) ↔
      replySize id body ≤ limit ∨ fallbackSize id ≤ limit := by
  unfold encodeReply
  rcases encodeLimited_cases id body limit with ⟨hFits, bytes, hEncoded, -⟩ | ⟨hLarge, e, hEncoded⟩
  · rw [hEncoded]
    exact iff_of_true ⟨bytes, rfl⟩ (.inl hFits)
  · rw [hEncoded, or_iff_right (Nat.not_le_of_lt hLarge)]
    rcases encodeLimited_cases id (.error ⟨"Protocol",
      "response envelope exceeds configured maximum", none, false⟩) limit with
      ⟨hFits, bytes, hFallback, -⟩ | ⟨hLarge, e, hFallback⟩
    · exact iff_of_true ⟨bytes, hFallback⟩ hFits
    · refine iff_of_false ?_ (Nat.not_le_of_lt hLarge)
      rintro ⟨bytes, hOk⟩
      exact absurd (hFallback.symm.trans hOk) nofun

theorem encodeLimited_ok_iff {id : String} {body : ResponseBody} {limit : Nat} :
    (∃ bytes, encodeLimited ⟨protocolVersion, id, body⟩ limit = .ok bytes) ↔
      replySize id body ≤ limit := by
  rcases encodeLimited_cases id body limit with ⟨hFits, bytes, hEncoded, -⟩ | ⟨hLarge, e, hEncoded⟩
  · exact iff_of_true ⟨bytes, hEncoded⟩ hFits
  · refine iff_of_false ?_ (Nat.not_le_of_lt hLarge)
    rintro ⟨bytes, hOk⟩
    exact absurd (hEncoded.symm.trans hOk) nofun

namespace Redis

/-- A reply within the maximum is published. -/
def Answered (maximum : Nat) (history : History RedisReply) : Prop :=
  ∃ channel, ∃ bytes : Encoded maximum, ∃ published, ⟨.publish channel bytes, published⟩ ∈ history

/-- The handler returns `result` in a history. -/
def Returns (result : HandlerResult) (history : History RedisReply) : Prop :=
  ∀ x, ⟨.returned, x⟩ ∈ history → x = result

/-- No heartbeat fails in a history. -/
def HeartbeatsSucceed (history : History RedisReply) : Prop :=
  ∀ id e, ⟨.touchPending id, .error e⟩ ∉ history

variable {options : RedisTransportOptions} {decode : Bytes → Except String RequestEnvelope}
  {handler : MessageHandlerDef} {entry : StreamEntry} {request : RequestEnvelope}
  {channel : String} {history : History RedisReply} {r : Except MicroserviceError Unit}

/-- What `process_command_entry` should do: answer, and not end the consumer. -/
def Served (maximum : Nat) (history : History RedisReply) (r : Except MicroserviceError Unit) : Prop :=
  Answered maximum history ∧ ∀ e, r ≠ .error (.configuration e)

theorem orTransport_ne {α : Type} (r : Except String α) (e : String) :
    orTransport r ≠ .error (.configuration e) := by
  cases r <;> exact nofun

/-- Without a reply that fits the request is only removed. -/
theorem completed_overflow {id correlationId : String} {body : ResponseBody}
    (h : Completed options id channel correlationId body history r)
    (hLarge : ¬ replySize correlationId body ≤ options.maxResponseBytes)
    (hFallback : ¬ fallbackSize correlationId ≤ options.maxResponseBytes) :
    ∃ e acked, history = [⟨.ackDelete id, acked⟩] ∧
      r = (do orTransport acked; .error (.configuration e)) := by
  unfold Completed at h
  cases hReply : encodeReply correlationId body options.maxResponseBytes with
  | ok bytes => exact absurd (encodeReply_ok_iff.mp ⟨bytes, hReply⟩) (not_or.mpr ⟨hLarge, hFallback⟩)
  | error e =>
    rw [hReply] at h
    exact ⟨e, h⟩

/-- A run that comes to such a reply reads the clock, and removes the request. -/
theorem run_overflow (h : Accepts options decode entry request channel)
    (hRun : Proc.Run (processCommandEntry options decode handler entry).run history (.done r))
    {now : Nat} (hClock : ReadsClock now history) {body : ResponseBody}
    (hPlan : ∀ elapsed, commandPlan request elapsed = .reply body)
    (hLarge : ¬ replySize request.correlationId body ≤ options.maxResponseBytes)
    (hFallback : ¬ fallbackSize request.correlationId ≤ options.maxResponseBytes) :
    ∃ clock e acked, history = clock ++ [⟨.ackDelete entry.id, acked⟩] ∧
      (∀ e ∈ clock, e.1 = .nowMillis) ∧ r = (do orTransport acked; .error (.configuration e)) := by
  obtain ⟨clock, later, rfl, hReadings, hCarried⟩ := run_carriedOut h hRun hClock
  rw [hPlan] at hCarried
  obtain ⟨e, acked, rfl, hr⟩ := completed_overflow hCarried.reply hLarge hFallback
  exact ⟨clock, e, acked, rfl, hReadings, hr⟩

theorem completed_served {id correlationId : String} {body : ResponseBody}
    (h : Completed options id channel correlationId body history r) (before : History RedisReply)
    (hBefore : ¬ Answered options.maxResponseBytes before) :
    Served options.maxResponseBytes (before ++ history) r ↔
      replySize correlationId body ≤ options.maxResponseBytes ∨
        fallbackSize correlationId ≤ options.maxResponseBytes := by
  rw [← encodeReply_ok_iff]
  unfold Completed at h
  cases hReply : encodeReply correlationId body options.maxResponseBytes with
  | ok bytes =>
    rw [hReply] at h
    obtain ⟨published, acked, rfl, rfl⟩ := h
    refine iff_of_true ⟨⟨channel, bytes, published, by simp⟩, fun e => ?_⟩ ⟨bytes, rfl⟩
    cases acked with
    | ok _ => exact orTransport_ne published e
    | error _ => exact nofun
  | error e =>
    rw [hReply] at h
    obtain ⟨acked, rfl, -⟩ := h
    refine iff_of_false ?_ nofun
    rintro ⟨⟨channel, bytes, published, hMem⟩, -⟩
    rcases List.mem_append.mp hMem with hMem | hMem
    · exact hBefore ⟨channel, bytes, published, hMem⟩
    · cases List.mem_singleton.mp hMem

theorem not_answered {maximum : Nat} (h : ∀ e ∈ history, ∀ channel, ∀ bytes : Encoded maximum,
    e.1 ≠ .publish channel bytes) : ¬ Answered maximum history := by
  rintro ⟨channel, bytes, published, hMem⟩
  exact h _ hMem channel bytes rfl

theorem served_iff {now : Nat} {result : HandlerResult}
    (h : Accepts options decode entry request channel)
    (hRun : Proc.Run (processCommandEntry options decode handler entry).run history (.done r))
    (hClock : ReadsClock now history) (hReturns : Returns result history)
    (hBeats : HeartbeatsSucceed history) :
    Served options.maxResponseBytes history r ↔
      replySize request.correlationId
          (replyBody request (request.deadlineUnixMillis.any fun d => d ≤ now) result) ≤
        options.maxResponseBytes ∨
      fallbackSize request.correlationId ≤ options.maxResponseBytes := by
  obtain ⟨clock, later, rfl, hReadings, hCarried⟩ := run_carriedOut h hRun hClock
  have hClockCall : ∀ e ∈ clock, ∀ channel, ∀ bytes : Encoded options.maxResponseBytes,
      e.1 ≠ .publish channel bytes := by
    intro e he channel bytes hCall
    rw [hReadings e he] at hCall
    cases hCall
  unfold replyBody
  cases hPlan : commandPlan request (request.deadlineUnixMillis.any fun d => d ≤ now) with
  | reply body =>
    rw [hPlan] at hCarried
    exact completed_served hCarried clock (not_answered hClockCall)
  | invoke =>
    rw [hPlan] at hCarried
    obtain ⟨before, later, returned, rfl, ⟨ticks, beats, hTouches, hRan⟩, hLast⟩ := hCarried
    rcases hRan with ⟨x, rfl, rfl⟩ | ⟨e, rfl, hFailed, -⟩
    · obtain rfl : x = result := hReturns x (by simp)
      rw [← List.append_assoc]
      refine completed_served hLast _ (not_answered ?_)
      intro e he channel bytes hCall
      rcases List.mem_append.mp he with he | he
      · exact hClockCall e he channel bytes hCall
      · rcases List.mem_append.mp he with he | he
        · rcases List.mem_cons.mp he with rfl | he
          · cases hCall
          · rw [hTouches e he] at hCall
            cases hCall
        · rw [List.mem_singleton.mp he] at hCall
          cases hCall
    · exact absurd (by simp [hFailed]) (hBeats entry.id e)

end Redis

namespace Nats

/-- A reply within the maximum is published. -/
def Answered (maximum : Nat) (history : History NatsReply) : Prop :=
  ∃ reply, ∃ bytes : Encoded maximum, ∃ published, ⟨.publish reply bytes, published⟩ ∈ history

/-- The handler returns `result` in a history. -/
def Returns (result : HandlerResult) (history : History NatsReply) : Prop :=
  ∀ x, ⟨.returned, x⟩ ∈ history → x = result

/-- The size condition of `process_command`: only a reply after the handler is replaced. -/
def Fits (maximum : Nat) (request : RequestEnvelope) (elapsed : Bool) (result : HandlerResult) :
    Prop :=
  match commandPlan request elapsed with
  | .reply body => replySize request.correlationId body ≤ maximum
  | .invoke => replySize request.correlationId result.body ≤ maximum ∨
      fallbackSize request.correlationId ≤ maximum

variable {options : NatsTransportOptions} {decode : Bytes → Except String RequestEnvelope}
  {handler : MessageHandlerDef} {message : NatsMessage} {request : RequestEnvelope}
  {reply : String} {history : History NatsReply} {r : Except MicroserviceError Unit}

theorem sent_answered {maximum : Nat} {encoded : Except String (Encoded maximum)}
    (h : Sent reply encoded history r) (before : History NatsReply)
    (hBefore : ¬ Answered maximum before) :
    Answered maximum (before ++ history) ↔ ∃ bytes, encoded = .ok bytes := by
  unfold Sent at h
  cases encoded with
  | ok bytes =>
    obtain ⟨published, rfl, -⟩ := h
    exact iff_of_true ⟨reply, bytes, published, by simp⟩ ⟨bytes, rfl⟩
  | error e =>
    obtain ⟨rfl, -⟩ := h
    rw [List.append_nil]
    exact iff_of_false hBefore nofun

theorem answered_iff {now : Nat} {result : HandlerResult}
    (h : Accepts options decode message request reply)
    (hRun : Proc.Run (processCommand options decode handler message).run history (.done r))
    (hClock : ReadsClock now history) (hReturns : Returns result history) :
    Answered options.maxResponseBytes history ↔
      Fits options.maxResponseBytes request (request.deadlineUnixMillis.any fun d => d < now)
        result := by
  obtain ⟨clock, later, sent, encoded, rfl, hReadings, hSent, hDispatched⟩ := run_dispatched h hRun hClock
  have hClockCall : ∀ e ∈ clock, ∀ reply, ∀ bytes : Encoded options.maxResponseBytes,
      e.1 ≠ .publish reply bytes := by
    intro e he reply bytes hCall
    rw [hReadings e he] at hCall
    cases hCall
  unfold Fits
  rw [← List.append_assoc]
  cases hPlan : commandPlan request (request.deadlineUnixMillis.any fun d => d < now) with
  | reply body =>
    rw [hPlan] at hDispatched
    obtain ⟨rfl, rfl⟩ := hDispatched
    rw [sent_answered hSent]
    · exact encodeLimited_ok_iff
    · rintro ⟨reply, bytes, published, hMem⟩
      rw [List.append_nil] at hMem
      exact hClockCall _ hMem reply bytes rfl
  | invoke =>
    rw [hPlan] at hDispatched
    obtain ⟨ticks, x, rfl, rfl⟩ := hDispatched
    obtain rfl : x = result := hReturns x (by simp)
    rw [sent_answered hSent]
    · exact encodeReply_ok_iff
    · rintro ⟨reply, bytes, published, hMem⟩
      rcases List.mem_append.mp hMem with hMem | hMem
      · exact hClockCall _ hMem reply bytes rfl
      · simp at hMem

end Nats

/-- A request that passes the checks of its transport, at a reading of the clock and with a
result of its handler: it is answered, without an error that ends the consumer, exactly
when the reply fits or, where the transport tries one, the error that replaces it. -/
theorem bounded_reply_iff (decode : Bytes → Except String RequestEnvelope)
    (handler : MessageHandlerDef) (request : RequestEnvelope) (now : Nat) (result : HandlerResult) :
    (∀ (options : RedisTransportOptions) (entry : StreamEntry) (channel : String)
      (history : History RedisReply) (r : Except MicroserviceError Unit),
      Redis.Accepts options decode entry request channel →
      Proc.Run (Redis.processCommandEntry options decode handler entry).run history (.done r) →
      Redis.ReadsClock now history → Redis.Returns result history →
      Redis.HeartbeatsSucceed history →
      (Redis.Served options.maxResponseBytes history r ↔
        replySize request.correlationId
            (replyBody request (request.deadlineUnixMillis.any fun d => d ≤ now) result) ≤
          options.maxResponseBytes ∨
        fallbackSize request.correlationId ≤ options.maxResponseBytes)) ∧
    ∀ (options : NatsTransportOptions) (message : NatsMessage) (reply : String)
      (history : History NatsReply) (r : Except MicroserviceError Unit),
      Nats.Accepts options decode message request reply →
      Proc.Run (Nats.processCommand options decode handler message).run history (.done r) →
      Nats.ReadsClock now history → Nats.Returns result history →
      (Nats.Answered options.maxResponseBytes history ↔
        Nats.Fits options.maxResponseBytes request
          (request.deadlineUnixMillis.any fun d => d < now) result) := by
  refine ⟨?_, ?_⟩
  · intro options entry channel history r h hRun hClock hReturns hBeats
    exact Redis.served_iff h hRun hClock hReturns hBeats
  · intro options message reply history r h hRun hClock hReturns
    exact Nats.answered_iff h hRun hClock hReturns

/-! ## Requests -/

theorem Redis.returns_replies {now : Nat} {result : HandlerResult} {history : History RedisReply}
    (h : ∀ e ∈ history, e.2 = redisReplies now result e.1) : Redis.Returns result history :=
  fun x hx => h ⟨.returned, x⟩ hx

theorem Redis.heartbeatsSucceed_replies {now : Nat} {result : HandlerResult}
    {history : History RedisReply} (h : ∀ e ∈ history, e.2 = redisReplies now result e.1) :
    Redis.HeartbeatsSucceed history := by
  intro id e he
  cases h ⟨.touchPending id, .error e⟩ he

theorem Nats.returns_replies {now : Nat} {result : HandlerResult} {history : History NatsReply}
    (h : ∀ e ∈ history, e.2 = natsReplies now result e.1) : Nats.Returns result history :=
  fun x hx => h ⟨.returned, x⟩ hx

theorem Redis.accepts_ping {request : RequestEnvelope} (hChannel : request.replyChannel = some "replies")
    (hNe : request.correlationId ≠ "") (hLe : request.correlationId.utf8ByteSize ≤ 128) :
    Redis.Accepts smallRedis (fun _ => .ok request) pingEntry request "replies" where
  envelope := ⟨[], rfl, by decide, rfl⟩
  id_ne := hNe
  id_le := hLe
  channel_eq := hChannel
  channel_ne := by decide
  channel_le := by decide

theorem Nats.accepts_ping {request : RequestEnvelope} (hNe : request.correlationId ≠ "") :
    Nats.Accepts smallNats (fun _ => .ok request) pingMessage request "replies" where
  size_le := by decide
  decoded := rfl
  id_ne := hNe
  reply_eq := rfl

/-- A request with an id that fits in an error reply is answered on both transports. -/
theorem bounded_reply_iff_ping : ∃ redisHistory redisResult natsHistory natsResult,
    Proc.Run (Redis.processCommandEntry smallRedis (fun _ => .ok pingRequest) pingHandler pingEntry).run
      redisHistory (.done redisResult) ∧ Redis.Served 256 redisHistory redisResult ∧
    Proc.Run (Nats.processCommand smallNats (fun _ => .ok pingRequest) pingHandler pingMessage).run
      natsHistory (.done natsResult) ∧ Nats.Answered 256 natsHistory := by
  obtain ⟨redisHistory, redisResult, hRedis, hRedisReplies⟩ := Proc.exists_run
    (Redis.processCommandEntry smallRedis (fun _ => .ok pingRequest) pingHandler pingEntry).run
    (redisReplies 7 (.ok none))
  obtain ⟨natsHistory, natsResult, hNats, hNatsReplies⟩ := Proc.exists_run
    (Nats.processCommand smallNats (fun _ => .ok pingRequest) pingHandler pingMessage).run
    (natsReplies 7 (.ok none))
  have hFallback : fallbackSize pingRequest.correlationId ≤ 256 := by
    rw [fallbackSize_eq]
    decide
  have hBounded := bounded_reply_iff (fun _ => .ok pingRequest) pingHandler pingRequest 7 (.ok none)
  have hRedisAccepts : Redis.Accepts smallRedis _ pingEntry pingRequest "replies" :=
    Redis.accepts_ping rfl (by decide) (by decide)
  have hNatsAccepts : Nats.Accepts smallNats _ pingMessage pingRequest "replies" :=
    Nats.accepts_ping (by decide)
  refine ⟨redisHistory, redisResult, natsHistory, natsResult, hRedis, ?_, hNats, ?_⟩
  · exact (hBounded.1 _ _ _ _ _ hRedisAccepts hRedis (Redis.readsClock_replies hRedisReplies)
      (Redis.returns_replies hRedisReplies)
      (Redis.heartbeatsSucceed_replies hRedisReplies)).mpr (.inr hFallback)
  · exact (hBounded.2 _ _ _ _ _ hNatsAccepts hNats (Nats.readsClock_replies hNatsReplies)
      (Nats.returns_replies hNatsReplies)).mpr (.inr hFallback)

/-- An id of 17 control characters, each of which takes six bytes in a reply. -/
def controlId : String := String.ofList (List.replicate 17 '\x01')

/-- A request of an unsupported version with that id. -/
def controlRequest : RequestEnvelope := { pingRequest with version := 2, correlationId := controlId }

theorem escapedSize_controlId : escapedSize controlId = 102 := by
  rw [escapedSize, controlId, String.toList_ofList, List.map_replicate]
  rfl

/-- No reply to it fits into 256 bytes: the Redis task returns a configuration error, and
neither transport sends anything. -/
theorem bounded_reply_overflow : ∃ redisHistory e natsHistory natsResult,
    Proc.Run (Redis.processCommandEntry smallRedis (fun _ => .ok controlRequest) pingHandler
      pingEntry).run redisHistory (.done (.error (.configuration e))) ∧
    ¬ Redis.Answered 256 redisHistory ∧
    Proc.Run (Nats.processCommand smallNats (fun _ => .ok controlRequest) pingHandler
      pingMessage).run natsHistory (.done natsResult) ∧
    ¬ Nats.Answered 256 natsHistory := by
  have hLarge : ∀ maximum, maximum = 256 →
      ¬ replySize controlRequest.correlationId protocolBody ≤ maximum := by
    intro maximum hMaximum
    have hProtocol : replySize controlRequest.correlationId protocolBody = protocolSize controlId := rfl
    rw [hProtocol, protocolSize_eq, escapedSize_controlId, hMaximum]
    decide
  have hFallback : ∀ maximum, maximum = 256 →
      ¬ fallbackSize controlRequest.correlationId ≤ maximum := by
    intro maximum hMaximum
    have hId : controlRequest.correlationId = controlId := rfl
    rw [hId, fallbackSize_eq, escapedSize_controlId, hMaximum]
    decide
  have hPlan : ∀ elapsed, commandPlan controlRequest elapsed = .reply protocolBody :=
    fun _ => if_pos (by decide)
  obtain ⟨redisHistory, redisResult, hRedis, hRedisReplies⟩ := Proc.exists_run
    (Redis.processCommandEntry smallRedis (fun _ => .ok controlRequest) pingHandler pingEntry).run
    (redisReplies 7 (.ok none))
  obtain ⟨natsHistory, natsResult, hNats, hNatsReplies⟩ := Proc.exists_run
    (Nats.processCommand smallNats (fun _ => .ok controlRequest) pingHandler pingMessage).run
    (natsReplies 7 (.ok none))
  have hRedisAccepts : Redis.Accepts smallRedis _ pingEntry controlRequest "replies" :=
    Redis.accepts_ping rfl (by decide) (by decide)
  have hNatsAccepts : Nats.Accepts smallNats _ pingMessage controlRequest "replies" :=
    Nats.accepts_ping (by decide)
  have hNothing : ¬ Nats.Answered 256 natsHistory := by
    intro hAnswered
    have hFits := (Nats.answered_iff hNatsAccepts hNats (Nats.readsClock_replies hNatsReplies)
      (Nats.returns_replies hNatsReplies)).mp hAnswered
    rw [Nats.Fits, hPlan] at hFits
    exact hLarge _ rfl hFits
  obtain ⟨clock, e, acked, rfl, hReadings, rfl⟩ := Redis.run_overflow hRedisAccepts hRedis
    (Redis.readsClock_replies hRedisReplies) hPlan (hLarge _ rfl) (hFallback _ rfl)
  obtain rfl : acked = .ok () := hRedisReplies ⟨.ackDelete pingEntry.id, acked⟩ (by simp)
  refine ⟨_, e, natsHistory, natsResult, hRedis, ?_, hNats, hNothing⟩
  apply Redis.not_answered
  intro x hx channel bytes hCall
  rcases List.mem_append.mp hx with hx | hx
  · rw [hReadings x hx] at hCall
    cases hCall
  · rw [List.mem_singleton.mp hx] at hCall
    cases hCall

end Caelix
