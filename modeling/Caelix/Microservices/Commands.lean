import Caelix.Microservices.Nats
import Caelix.Microservices.Redis

/-!
# Runs of command tasks

What a run of `process_command_entry` or `process_command` looks like on a request that
passes the checks of its envelope: the plan for the request, at a reading of the clock,
and the calls that carry it out.
-/

namespace Caelix

open Interaction

/-- What is done with a request: a reply without the handler, or an invocation. -/
inductive CommandPlan where
  | reply (body : ResponseBody)
  | invoke

/-- The plan for a request whose deadline has elapsed or not. -/
def commandPlan (request : RequestEnvelope) (elapsed : Bool) : CommandPlan :=
  if request.version ≠ protocolVersion then
    .reply (.error ⟨"Protocol", "unsupported request protocol version", none, false⟩)
  else if elapsed then
    .reply (.error ⟨"Deadline Exceeded", "request deadline elapsed before handler invocation",
      none, false⟩)
  else .invoke

namespace Redis

variable {options : RedisTransportOptions} {request : RequestEnvelope} {channel : String}

/-- A request that `process_command_entry` does not drop. -/
structure Accepts (options : RedisTransportOptions) (decode : Bytes → Except String RequestEnvelope)
    (entry : StreamEntry) (request : RequestEnvelope) (channel : String) : Prop where
  envelope : ∃ bytes, entry.envelope = some bytes ∧ bytes.length ≤ options.maxRequestBytes ∧
    decode bytes = .ok request
  id_ne : request.correlationId ≠ ""
  id_le : request.correlationId.utf8ByteSize ≤ 128
  channel_eq : request.replyChannel = some channel
  channel_ne : channel ≠ ""
  channel_le : channel.utf8ByteSize ≤ 256

/-- The end of a command task that sends a reply, or finds none that fits. -/
def Completed (options : RedisTransportOptions) (id channel correlationId : String)
    (body : ResponseBody) (history : History RedisReply) (r : Except MicroserviceError Unit) : Prop :=
  match encodeReply correlationId body options.maxResponseBytes with
  | .ok bytes => ∃ published acked,
      history = [⟨.publish channel bytes, published⟩, ⟨.ackDelete id, acked⟩] ∧
        r = (do orTransport acked; orTransport published)
  | .error e => ∃ acked, history = [⟨.ackDelete id, acked⟩] ∧
      r = (do orTransport acked; .error (.configuration e))

theorem post_ackDelete (id : String) (Q : History RedisReply → Except MicroserviceError Unit → Prop) :
    (ackDelete id).run.Post Q ↔ ∀ r, Q [⟨.ackDelete id, r⟩] (orTransport r) := Iff.rfl

theorem publishCommandResponse_post (id : String) (hChannel : request.replyChannel = some channel)
    (body : ResponseBody) :
    (publishCommandResponseAndComplete options id request body).run.Post
      (Completed options id channel request.correlationId body) := by
  unfold publishCommandResponseAndComplete
  cases hReply : encodeReply request.correlationId body options.maxResponseBytes with
  | error e =>
    dsimp only
    rw [Proc.post_bind_except, post_ackDelete]
    intro acked
    cases acked with
    | ok _ =>
      unfold Completed
      rw [hReply]
      exact ⟨_, rfl, rfl⟩
    | error e' =>
      unfold Completed
      rw [hReply]
      exact ⟨_, rfl, rfl⟩
  | ok bytes =>
    dsimp only
    rw [hChannel, Proc.post_bind_except, publishReply, Proc.post_ask]
    intro published
    dsimp only
    rw [Proc.post_bind_except, post_ackDelete]
    intro acked
    cases acked with
    | ok _ =>
      unfold Completed
      rw [hReply]
      cases published <;> exact ⟨_, _, rfl, rfl⟩
    | error e' =>
      unfold Completed
      rw [hReply]
      exact ⟨_, _, rfl, rfl⟩

/-- A run of the handler: it returns, or a heartbeat fails. -/
def HandlerRan (id : String) (handler : MessageHandlerDef) (context : MessageContext)
    (payload : Json) (history : History RedisReply) (r : Except MicroserviceError HandlerResult) :
    Prop :=
  ∃ ticks beats, (∀ e ∈ beats, e.1 = .touchPending id) ∧
    ((∃ result, history = ⟨.invoke handler context payload, ticks⟩ :: beats ++ [⟨.returned, result⟩] ∧
        r = .ok result) ∨
      ∃ e, history = ⟨.invoke handler context payload, ticks⟩ :: beats ∧
        ⟨.touchPending id, .error e⟩ ∈ beats ∧ r = .error (.transport e))

theorem heartbeats_post (id : String) (ticks : Nat) :
    (Proc.times (touchPending id) ticks).run.Post fun beats r =>
      (∀ e ∈ beats, e.1 = .touchPending id) ∧
        (r = .ok () ∨ ∃ e, ⟨.touchPending id, .error e⟩ ∈ beats ∧ r = .error (.transport e)) := by
  refine Proc.post_mono (Proc.post_times_call (c := .touchPending id) (fun _ => Iff.rfl) ticks) ?_
  rintro beats r ⟨hBeats, hDone | ⟨reply, error, hReply, hFailed, rfl⟩⟩
  · exact ⟨hBeats, .inl hDone⟩
  · cases reply with
    | ok _ => cases hFailed
    | error e =>
      obtain rfl := Except.error.inj hFailed
      exact ⟨hBeats, .inr ⟨e, hReply, rfl⟩⟩

theorem runHandler_post (id : String) (handler : MessageHandlerDef) (context : MessageContext)
    (payload : Json) :
    (runHandler id handler context payload).run.Post (HandlerRan id handler context payload) := by
  unfold runHandler
  rw [Proc.post_bind_except, Proc.post_ask]
  intro ticks
  dsimp only
  rw [Proc.post_bind_except]
  refine Proc.post_mono (heartbeats_post id ticks) ?_
  rintro beats r ⟨hBeats, rfl | ⟨e, he, rfl⟩⟩
  · intro result
    exact ⟨ticks, beats, hBeats, .inl ⟨result, rfl, rfl⟩⟩
  · exact ⟨ticks, beats, hBeats, .inr ⟨e, rfl, he, rfl⟩⟩

/-- The clock reads `now` in a history. -/
def ReadsClock (now : Nat) (history : History RedisReply) : Prop :=
  ∀ n, ⟨.nowMillis, n⟩ ∈ history → n = now

theorem deadlineElapsed_post (deadline : Option Nat) (now : Nat) :
    (deadlineElapsed deadline).run.Post fun clock r => (∀ e ∈ clock, e.1 = .nowMillis) ∧
      (ReadsClock now clock → r = .ok (deadline.any fun d => d ≤ now)) ∧ ∃ elapsed, r = .ok elapsed := by
  cases deadline with
  | none => exact ⟨List.forall_mem_nil _, fun _ => rfl, _, rfl⟩
  | some d =>
    intro n
    refine ⟨by simp, fun hClock => ?_, _, rfl⟩
    obtain rfl : n = now := hClock n (by simp)
    rfl

/-- The calls that carry out a plan. -/
def CarriedOut (options : RedisTransportOptions) (id channel : String) (handler : MessageHandlerDef)
    (request : RequestEnvelope) (history : History RedisReply) (r : Except MicroserviceError Unit) :
    CommandPlan → Prop
  | .reply body => Completed options id channel request.correlationId body history r
  | .invoke => ∃ before later result, history = before ++ later ∧
      HandlerRan id handler (commandContext handler request) request.payload before result ∧
      match result with
      | .ok result => Completed options id channel request.correlationId result.body later r
      | .error e => later = [] ∧ r = .error e

theorem CarriedOut.reply {id : String} {handler : MessageHandlerDef} {body : ResponseBody}
    {history : History RedisReply} {r : Except MicroserviceError Unit}
    (h : CarriedOut options id channel handler request history r (.reply body)) :
    Completed options id channel request.correlationId body history r := h

theorem processCommandEntry_post {decode : Bytes → Except String RequestEnvelope}
    {handler : MessageHandlerDef} {entry : StreamEntry}
    (h : Accepts options decode entry request channel) (now : Nat) :
    (processCommandEntry options decode handler entry).run.Post fun history r =>
      ReadsClock now history → ∃ clock later, history = clock ++ later ∧
        (∀ e ∈ clock, e.1 = .nowMillis) ∧
        CarriedOut options entry.id channel handler request later r
          (commandPlan request (request.deadlineUnixMillis.any fun d => d ≤ now)) := by
  obtain ⟨bytes, hEnvelope, hSize, hDecode⟩ := h.envelope
  have hUsable : (request.correlationId.isEmpty || 128 < request.correlationId.utf8ByteSize ||
      unusableChannel request.replyChannel) = false := by
    rw [h.channel_eq, unusableChannel]
    simp [h.id_ne, h.channel_ne, h.id_le, h.channel_le]
  unfold processCommandEntry
  rw [hEnvelope]
  dsimp only
  rw [if_neg (Nat.not_lt_of_le hSize), hDecode]
  dsimp only
  rw [hUsable, if_neg Bool.false_ne_true, commandPlan]
  by_cases hVersion : request.version ≠ protocolVersion
  · rw [if_pos hVersion]
    refine Proc.post_mono (publishCommandResponse_post entry.id h.channel_eq _) ?_
    intro history r hCompleted _
    refine ⟨[], history, rfl, List.forall_mem_nil _, ?_⟩
    rw [if_pos hVersion]
    exact hCompleted
  · rw [if_neg hVersion, Proc.post_bind_except]
    refine Proc.post_mono (deadlineElapsed_post request.deadlineUnixMillis now) ?_
    rintro clock _ ⟨hClock, hElapsed, elapsed, rfl⟩
    dsimp only
    rw [if_neg hVersion]
    cases elapsed with
    | true =>
      rw [if_pos rfl]
      refine Proc.post_mono (publishCommandResponse_post entry.id h.channel_eq _) ?_
      intro history r hCompleted hReads
      have hNow := hElapsed fun n hn => hReads n (List.mem_append_left _ hn)
      refine ⟨clock, history, rfl, hClock, ?_⟩
      rw [← Except.ok.inj hNow, if_pos rfl]
      exact hCompleted
    | false =>
      rw [if_neg Bool.false_ne_true, Proc.post_bind_except]
      refine Proc.post_mono (runHandler_post _ _ _ _) ?_
      intro before result hRan
      have hPlan : ∀ later, ReadsClock now (clock ++ (before ++ later)) →
          request.deadlineUnixMillis.any (fun d => d ≤ now) = false := by
        intro later hReads
        exact (Except.ok.inj (hElapsed fun n hn => hReads n (List.mem_append_left _ hn))).symm
      cases result with
      | error e =>
        intro hReads
        rw [← List.append_nil before] at hReads
        refine ⟨clock, before, rfl, hClock, ?_⟩
        rw [hPlan [] hReads, if_neg Bool.false_ne_true]
        exact ⟨before, [], _, (List.append_nil before).symm, hRan, rfl, rfl⟩
      | ok result =>
        refine Proc.post_mono (publishCommandResponse_post entry.id h.channel_eq _) ?_
        intro later r hCompleted hReads
        refine ⟨clock, before ++ later, rfl, hClock, ?_⟩
        rw [hPlan later hReads, if_neg Bool.false_ne_true]
        exact ⟨before, later, _, rfl, hRan, hCompleted⟩

/-- A complete run at one reading of the clock. -/
theorem run_carriedOut {decode : Bytes → Except String RequestEnvelope}
    {handler : MessageHandlerDef} {entry : StreamEntry} {history : History RedisReply}
    {r : Except MicroserviceError Unit} {now : Nat} (h : Accepts options decode entry request channel)
    (hRun : Proc.Run (processCommandEntry options decode handler entry).run history (.done r))
    (hClock : ReadsClock now history) : ∃ clock later, history = clock ++ later ∧
      (∀ e ∈ clock, e.1 = .nowMillis) ∧
      CarriedOut options entry.id channel handler request later r
        (commandPlan request (request.deadlineUnixMillis.any fun d => d ≤ now)) :=
  hRun.post (processCommandEntry_post h now) hClock

end Redis

namespace Nats

variable {options : NatsTransportOptions} {request : RequestEnvelope} {reply : String}

/-- A request that `process_command` answers or gives to the handler. -/
structure Accepts (options : NatsTransportOptions) (decode : Bytes → Except String RequestEnvelope)
    (message : NatsMessage) (request : RequestEnvelope) (reply : String) : Prop where
  size_le : message.payload.length ≤ options.maxRequestBytes
  decoded : decode message.payload = .ok request
  id_ne : request.correlationId ≠ ""
  reply_eq : message.reply = some reply

/-- The end of a command task: an encoded reply is sent, an error is not reported. -/
def Sent {maximum : Nat} (reply : String) (encoded : Except String (Encoded maximum))
    (history : History NatsReply) (r : Except MicroserviceError Unit) : Prop :=
  match encoded with
  | .ok bytes => ∃ published, history = [⟨.publish reply bytes, published⟩] ∧
      r = orTransport published
  | .error _ => history = [] ∧ r = .ok ()

/-- The clock reads `now` in a history. -/
def ReadsClock (now : Nat) (history : History NatsReply) : Prop :=
  ∀ n, ⟨.nowMillis, n⟩ ∈ history → n = now

theorem deadlineElapsed_post (deadline : Option Nat) (now : Nat) :
    (deadlineElapsed deadline).run.Post fun clock r => (∀ e ∈ clock, e.1 = .nowMillis) ∧
      (ReadsClock now clock → r = .ok (deadline.any fun d => d < now)) ∧ ∃ elapsed, r = .ok elapsed := by
  cases deadline with
  | none => exact ⟨List.forall_mem_nil _, fun _ => rfl, _, rfl⟩
  | some d =>
    intro n
    refine ⟨by simp, fun hClock => ?_, _, rfl⟩
    obtain rfl : n = now := hClock n (by simp)
    rfl

theorem orProtocol_post {α : Type} (encoded : Except String α)
    (Q : History NatsReply → Except MicroserviceClientError α → Prop) :
    (orProtocol encoded).run.Post Q ↔ Q [] (encoded.mapError .protocol) := by
  cases encoded <;> exact Iff.rfl

/-- The calls that carry out a plan, and the reply. -/
def Dispatched (options : NatsTransportOptions) (handler : MessageHandlerDef) (message : NatsMessage)
    (request : RequestEnvelope) (history : History NatsReply)
    (encoded : Except String (Encoded options.maxResponseBytes)) : CommandPlan → Prop
  | .reply body => history = [] ∧
      encoded = encodeLimited ⟨protocolVersion, request.correlationId, body⟩ options.maxResponseBytes
  | .invoke => ∃ ticks result,
      history = [⟨.invoke handler (commandContext message request) request.payload, ticks⟩,
        ⟨.returned, result⟩] ∧
      encoded = encodeReply request.correlationId result.body options.maxResponseBytes

theorem dispatchCommand_post {decode : Bytes → Except String RequestEnvelope}
    {handler : MessageHandlerDef} {message : NatsMessage}
    (h : Accepts options decode message request reply) (now : Nat) :
    (dispatchCommand options decode handler message).run.Post fun history response =>
      ReadsClock now history → ∃ clock later encoded, history = clock ++ later ∧
        (∀ e ∈ clock, e.1 = .nowMillis) ∧ response = encoded.mapError .protocol ∧
        Dispatched options handler message request later encoded
          (commandPlan request (request.deadlineUnixMillis.any fun d => d < now)) := by
  have hId : request.correlationId.isEmpty = false := by simp [h.id_ne]
  unfold dispatchCommand
  rw [if_neg (Nat.not_lt_of_le h.size_le), h.decoded]
  dsimp only
  rw [hId, if_neg Bool.false_ne_true, commandPlan]
  by_cases hVersion : request.version ≠ protocolVersion
  · rw [if_pos hVersion, orProtocol_post]
    intro _
    refine ⟨[], [], _, rfl, List.forall_mem_nil _, rfl, ?_⟩
    rw [if_pos hVersion]
    exact ⟨rfl, rfl⟩
  · rw [if_neg hVersion, Proc.post_bind_except]
    refine Proc.post_mono (deadlineElapsed_post request.deadlineUnixMillis now) ?_
    rintro clock _ ⟨hClock, hElapsed, elapsed, rfl⟩
    dsimp only
    rw [if_neg hVersion]
    cases elapsed with
    | true =>
      rw [if_pos rfl, orProtocol_post]
      intro hReads
      have hNow := hElapsed fun n hn => hReads n (List.mem_append_left _ hn)
      refine ⟨clock, [], _, rfl, hClock, rfl, ?_⟩
      rw [← Except.ok.inj hNow, if_pos rfl]
      exact ⟨rfl, rfl⟩
    | false =>
      rw [if_neg Bool.false_ne_true, Proc.post_bind_except, Proc.post_ask]
      intro ticks
      dsimp only
      rw [Proc.post_bind_except, Proc.post_ask]
      intro result
      dsimp only
      rw [orProtocol_post]
      intro hReads
      have hNow := hElapsed fun n hn => hReads n (List.mem_append_left _ hn)
      refine ⟨clock, _, _, rfl, hClock, rfl, ?_⟩
      rw [← Except.ok.inj hNow, if_neg Bool.false_ne_true]
      exact ⟨ticks, result, rfl, rfl⟩

theorem processCommand_post {decode : Bytes → Except String RequestEnvelope}
    {handler : MessageHandlerDef} {message : NatsMessage}
    (h : Accepts options decode message request reply) (now : Nat) :
    (processCommand options decode handler message).run.Post fun history r =>
      ReadsClock now history → ∃ clock later sent encoded, history = clock ++ (later ++ sent) ∧
        (∀ e ∈ clock, e.1 = .nowMillis) ∧ Sent reply encoded sent r ∧
        Dispatched options handler message request later encoded
          (commandPlan request (request.deadlineUnixMillis.any fun d => d < now)) := by
  unfold processCommand
  rw [Proc.post_bind_except, Proc.post_lift]
  refine Proc.post_mono (dispatchCommand_post h now) ?_
  intro history response hDispatched
  dsimp only
  rw [h.reply_eq]
  have hEnd : ∀ sent r, (∀ encoded : Except String (Encoded options.maxResponseBytes),
      response = encoded.mapError .protocol → Sent reply encoded sent r) →
      ReadsClock now (history ++ sent) → ∃ clock later sent' encoded,
        history ++ sent = clock ++ (later ++ sent') ∧ (∀ e ∈ clock, e.1 = .nowMillis) ∧
        Sent reply encoded sent' r ∧ Dispatched options handler message request later encoded
          (commandPlan request (request.deadlineUnixMillis.any fun d => d < now)) := by
    intro sent r hSent hReads
    obtain ⟨clock, later, encoded, rfl, hClock, hResponse, hPlan⟩ :=
      hDispatched fun n hn => hReads n (List.mem_append_left _ hn)
    exact ⟨clock, later, sent, encoded, List.append_assoc .., hClock, hSent encoded hResponse, hPlan⟩
  cases response with
  | ok bytes =>
    intro published
    refine hEnd _ _ ?_
    intro encoded hEncoded
    cases encoded with
    | ok bytes' =>
      obtain rfl := Except.ok.inj hEncoded
      exact ⟨published, rfl, rfl⟩
    | error e => cases hEncoded
  | error e =>
    refine hEnd [] _ ?_
    intro encoded hEncoded
    cases encoded with
    | ok bytes => cases hEncoded
    | error e' => exact ⟨rfl, rfl⟩

/-- A complete run at one reading of the clock. -/
theorem run_dispatched {decode : Bytes → Except String RequestEnvelope}
    {handler : MessageHandlerDef} {message : NatsMessage} {history : History NatsReply}
    {r : Except MicroserviceError Unit} {now : Nat} (h : Accepts options decode message request reply)
    (hRun : Proc.Run (processCommand options decode handler message).run history (.done r))
    (hClock : ReadsClock now history) : ∃ clock later sent encoded,
      history = clock ++ (later ++ sent) ∧ (∀ e ∈ clock, e.1 = .nowMillis) ∧
      Sent reply encoded sent r ∧ Dispatched options handler message request later encoded
        (commandPlan request (request.deadlineUnixMillis.any fun d => d < now)) :=
  hRun.post (processCommand_post h now) hClock

end Nats

end Caelix
