import Caelix.Microservices.CommandBroker
import Caelix.Microservices.Commands

/-!
# Delivery of commands on Redis

Any number of clients and replicas share the stream of a command, its consumer groups and
the channels of the replies. Every call to Redis may fail, before or after it takes effect,
every client and every task may stop at any point, and subscriptions may be lost.

* `command_deleted_only_if`: an entry that is deleted has no request that can be answered,
  or its reply has been published, or no reply fits.
* `command_not_repeated`: an entry that is completed is not handed out again.
* `request_answered`: a client is given what a handler has returned for its own request.
-/

namespace Caelix

open Interaction Relation

namespace Redis

/-! ## The task -/

section

variable (options : RedisTransportOptions) (decode : Bytes → Except String RequestEnvelope)
  (handler : MessageHandlerDef) (entry : StreamEntry)

/-- The request has a deadline that the clock has not reached, or none. -/
def InTime (request : RequestEnvelope) (history : History RedisReply) : Prop :=
  ∀ deadline, request.deadlineUnixMillis = some deadline →
    ∃ now, ⟨.nowMillis, now⟩ ∈ history ∧ now < deadline

/-- Why a reply has its body. -/
inductive RepliesWith (request : RequestEnvelope) (history : History RedisReply) : ResponseBody → Prop
  | unsupported (h : request.version ≠ protocolVersion) : RepliesWith request history
      (.error ⟨"Protocol", "unsupported request protocol version", none, false⟩)
  | late {deadline now : Nat} (hDeadline : request.deadlineUnixMillis = some deadline)
      (hNow : ⟨.nowMillis, now⟩ ∈ history) (h : deadline ≤ now) : RepliesWith request history
      (.error ⟨"Deadline Exceeded", "request deadline elapsed before handler invocation", none, false⟩)
  | returned {ticks : Nat} {result : HandlerResult} (hVersion : request.version = protocolVersion)
      (hTime : InTime request history)
      (h : [⟨.invoke handler (commandContext handler request) request.payload, ticks⟩,
        ⟨.returned, result⟩].Sublist history) : RepliesWith request history result.body

/-- Why a task may complete its entry. -/
inductive Disposed (history : History RedisReply) : Prop
  | unusable (h : ∀ request channel, ¬ Accepts options decode entry request channel)
  | answered {request : RequestEnvelope} {channel : String} {body : ResponseBody}
      {bytes : Encoded options.maxResponseBytes} {published : Except String Unit}
      (hAccepts : Accepts options decode entry request channel)
      (hBody : RepliesWith handler request history body)
      (hBytes : encodeReply request.correlationId body options.maxResponseBytes = .ok bytes)
      (h : ⟨.publish channel bytes, published⟩ ∈ history)
  | unanswerable {request : RequestEnvelope} {channel error : String} {body : ResponseBody}
      (hAccepts : Accepts options decode entry request channel)
      (hBody : RepliesWith handler request history body)
      (h : encodeReply request.correlationId body options.maxResponseBytes = .error error)

/-- What a task may do after some calls. -/
def CommandGuard (history : History RedisReply) : RedisCall → Prop
  | .ackDelete id => id = entry.id ∧ Disposed options decode handler entry history
  | @RedisCall.publish channel maximum bytes => ∃ request body,
      Accepts options decode entry request channel ∧ RepliesWith handler request history body ∧
        encodeReply request.correlationId body maximum = .ok bytes
  | _ => True

end

variable {options : RedisTransportOptions} {decode : Bytes → Except String RequestEnvelope}
  {handler : MessageHandlerDef} {entry : StreamEntry} {request : RequestEnvelope} {channel : String}
  {body : ResponseBody} {history before : History RedisReply}

theorem InTime.append (h : InTime request history) (later : History RedisReply) :
    InTime request (history ++ later) := by
  intro deadline hDeadline
  obtain ⟨now, hNow, hBefore⟩ := h deadline hDeadline
  exact ⟨now, List.mem_append_left _ hNow, hBefore⟩

theorem RepliesWith.append (h : RepliesWith handler request history body) (later : History RedisReply) :
    RepliesWith handler request (history ++ later) body := by
  cases h with
  | unsupported h => exact .unsupported h
  | late hDeadline hNow h => exact .late hDeadline (List.mem_append_left _ hNow) h
  | returned hVersion hTime h =>
    exact .returned hVersion (hTime.append later) (h.trans (List.sublist_append_left ..))

theorem guards_ackDelete (id : String) (P : History RedisReply → RedisCall → Prop) :
    (ackDelete id).run.Guards P ↔ P [] (.ackDelete id) :=
  and_iff_left fun _ => trivial

/-- The end of a task that has the body of its reply. -/
theorem publishCommandResponse_guards (hAccepts : Accepts options decode entry request channel)
    (hBody : RepliesWith handler request before body) :
    (publishCommandResponseAndComplete options entry.id request body).run.Guards fun later =>
      CommandGuard options decode handler entry (before ++ later) := by
  unfold publishCommandResponseAndComplete
  cases hReply : encodeReply request.correlationId body options.maxResponseBytes with
  | error e =>
    dsimp only
    rw [Proc.guards_bind_except, guards_ackDelete]
    refine ⟨⟨rfl, .unanswerable hAccepts (hBody.append _) hReply⟩, Proc.post_mono (Proc.post_true _) ?_⟩
    intro later r _
    cases r <;> trivial
  | ok bytes =>
    dsimp only
    rw [hAccepts.channel_eq, publishReply, Proc.guards_ask_bind]
    refine ⟨⟨request, body, hAccepts, hBody.append _, hReply⟩, fun published => ?_⟩
    have hCall : (⟨.publish channel bytes, published⟩ : Interaction.Event RedisReply) ∈
        before ++ [⟨.publish channel bytes, published⟩] :=
      List.mem_append_right _ List.mem_cons_self
    rw [Proc.guards_bind_except, guards_ackDelete]
    refine ⟨⟨rfl, .answered hAccepts (hBody.append _) hReply hCall⟩, ?_⟩
    refine Proc.post_mono (Proc.post_true _) ?_
    intro later r _
    cases r with
    | error e => trivial
    | ok _ => cases published <;> trivial

theorem not_accepts_envelope (h : entry.envelope = none) (request : RequestEnvelope)
    (channel : String) : ¬ Accepts options decode entry request channel := by
  rintro ⟨⟨bytes, hEnvelope, -, -⟩, -, -, -, -, -⟩
  cases h.symm.trans hEnvelope

theorem not_accepts_size {bytes : Bytes} (hEnvelope : entry.envelope = some bytes)
    (h : options.maxRequestBytes < bytes.length) (request : RequestEnvelope) (channel : String) :
    ¬ Accepts options decode entry request channel := by
  rintro ⟨⟨bytes', hEnvelope', hSize, -⟩, -, -, -, -, -⟩
  obtain rfl := Option.some.inj (hEnvelope.symm.trans hEnvelope')
  exact absurd h (Nat.not_lt_of_le hSize)

theorem Accepts.decoded {bytes : Bytes} (hEnvelope : entry.envelope = some bytes)
    (h : Accepts options decode entry request channel) : decode bytes = .ok request := by
  obtain ⟨bytes', hEnvelope', -, hDecode⟩ := h.envelope
  obtain rfl := Option.some.inj (hEnvelope.symm.trans hEnvelope')
  exact hDecode

/-- The checks of the envelope find what `Accepts` says. -/
theorem accepts_of_usable {bytes : Bytes} (hEnvelope : entry.envelope = some bytes)
    (hSize : ¬ options.maxRequestBytes < bytes.length) (hDecode : decode bytes = .ok request)
    (h : ¬ (request.correlationId.isEmpty || 128 < request.correlationId.utf8ByteSize ||
      unusableChannel request.replyChannel) = true) :
    ∃ channel, Accepts options decode entry request channel := by
  cases hChannel : request.replyChannel with
  | none => simp [hChannel, unusableChannel] at h
  | some channel =>
    simp only [hChannel, unusableChannel, Bool.or_eq_true, decide_eq_true_eq, not_or,
      String.isEmpty_iff, Nat.not_lt] at h
    exact ⟨channel, ⟨bytes, hEnvelope, Nat.le_of_not_lt hSize, hDecode⟩, h.1.1, h.1.2, hChannel,
      h.2.1, h.2.2⟩

theorem not_accepts_unusable {bytes : Bytes} (hEnvelope : entry.envelope = some bytes)
    (hDecode : decode bytes = .ok request)
    (h : (request.correlationId.isEmpty || 128 < request.correlationId.utf8ByteSize ||
      unusableChannel request.replyChannel) = true) (other : RequestEnvelope) (channel : String) :
    ¬ Accepts options decode entry other channel := by
  intro hAccepts
  obtain rfl := Except.ok.inj (hDecode.symm.trans (hAccepts.decoded hEnvelope))
  rw [hAccepts.channel_eq, unusableChannel] at h
  have hId := Nat.not_lt_of_le hAccepts.id_le
  have hChannel := Nat.not_lt_of_le hAccepts.channel_le
  simp [hAccepts.id_ne, hAccepts.channel_ne, hId, hChannel] at h

/-- The part of `process_command_entry` after the checks of the envelope. -/
def answerRequest (options : RedisTransportOptions) (handler : MessageHandlerDef) (id : String)
    (request : RequestEnvelope) : RedisTask Unit :=
  if request.version ≠ protocolVersion then
    publishCommandErrorAndComplete options id request "Protocol" "unsupported request protocol version"
  else do
    if ← deadlineElapsed request.deadlineUnixMillis then
      publishCommandErrorAndComplete options id request "Deadline Exceeded"
        "request deadline elapsed before handler invocation"
    else do
      let result ← runHandler id handler (commandContext handler request) request.payload
      publishCommandResponseAndComplete options id request result.body

/-- A task only completes its entry, or answers the request that it carries. -/
theorem processCommandEntry_cases (options : RedisTransportOptions)
    (decode : Bytes → Except String RequestEnvelope) (handler : MessageHandlerDef)
    (entry : StreamEntry) :
    ((∀ request channel, ¬ Accepts options decode entry request channel) ∧
      processCommandEntry options decode handler entry = ackDelete entry.id) ∨
    ∃ request channel, Accepts options decode entry request channel ∧
      processCommandEntry options decode handler entry =
        answerRequest options handler entry.id request := by
  unfold processCommandEntry
  cases hEnvelope : entry.envelope with
  | none => exact .inl ⟨not_accepts_envelope hEnvelope, rfl⟩
  | some bytes =>
    dsimp only
    by_cases hSize : options.maxRequestBytes < bytes.length
    · exact .inl ⟨not_accepts_size hEnvelope hSize, if_pos hSize⟩
    · rw [if_neg hSize]
      cases hDecode : decode bytes with
      | error e =>
        refine .inl ⟨fun request channel h => ?_, rfl⟩
        cases hDecode.symm.trans (h.decoded hEnvelope)
      | ok request =>
        dsimp only
        by_cases hUsable : (request.correlationId.isEmpty || 128 < request.correlationId.utf8ByteSize ||
            unusableChannel request.replyChannel) = true
        · exact .inl ⟨not_accepts_unusable hEnvelope hDecode hUsable, if_pos hUsable⟩
        · obtain ⟨channel, hAccepts⟩ := accepts_of_usable hEnvelope hSize hDecode hUsable
          exact .inr ⟨request, channel, hAccepts, if_neg hUsable⟩

theorem deadlineElapsed_inTime :
    (deadlineElapsed request.deadlineUnixMillis).run.Post fun history r =>
      (r = .ok false → InTime request history) ∧
      (r = .ok true → ∃ deadline now, request.deadlineUnixMillis = some deadline ∧
        ⟨.nowMillis, now⟩ ∈ history ∧ deadline ≤ now) ∧ ∃ elapsed, r = .ok elapsed := by
  cases hDeadline : request.deadlineUnixMillis with
  | none =>
    refine ⟨fun _ deadline h => ?_, nofun, _, rfl⟩
    cases hDeadline.symm.trans h
  | some d =>
    intro now
    refine ⟨fun h deadline hSome => ⟨now, List.mem_cons_self, ?_⟩,
      fun h => ⟨d, now, rfl, List.mem_cons_self, ?_⟩, _, rfl⟩
    · obtain rfl := Option.some.inj (hDeadline.symm.trans hSome)
      exact Nat.lt_of_not_le (of_decide_eq_false (Except.ok.inj h))
    · exact of_decide_eq_true (Except.ok.inj h)

/-- The handler loop publishes and completes nothing. -/
theorem runHandler_guards (id : String) (context : MessageContext) (payload : Json) :
    (runHandler id handler context payload).run.Guards fun _ c =>
      ∀ before, CommandGuard options decode handler entry before c := by
  have hTouch : (touchPending id).run.Guards fun _ c =>
      ∀ before, CommandGuard options decode handler entry before c :=
    ⟨fun _ => trivial, fun _ => trivial⟩
  refine Proc.guards_bind_calls ⟨fun _ => trivial, fun _ => trivial⟩ fun ticks => ?_
  refine Proc.guards_bind_calls (Proc.guards_times hTouch ticks) fun _ => ?_
  exact ⟨fun _ => trivial, fun _ => trivial⟩

theorem answerRequest_guards (hAccepts : Accepts options decode entry request channel) :
    (answerRequest options handler entry.id request).run.Guards
      (CommandGuard options decode handler entry) := by
  unfold answerRequest
  by_cases hVersion : request.version ≠ protocolVersion
  · rw [if_pos hVersion]
    have hBody : RepliesWith handler request [] _ := .unsupported hVersion
    exact publishCommandResponse_guards hAccepts hBody
  · rw [if_neg hVersion, Proc.guards_bind_except]
    constructor
    · cases request.deadlineUnixMillis with
      | none => trivial
      | some deadline => exact ⟨trivial, fun _ => trivial⟩
    · refine Proc.post_mono deadlineElapsed_inTime ?_
      rintro clock _ ⟨hInTime, hLate, elapsed, rfl⟩
      dsimp only
      cases elapsed with
      | true =>
        rw [if_pos rfl]
        obtain ⟨deadline, now, hDeadline, hNow, hElapsed⟩ := hLate rfl
        exact publishCommandResponse_guards hAccepts (.late hDeadline hNow hElapsed)
      | false =>
        rw [if_neg Bool.false_ne_true, Proc.guards_bind_except]
        refine ⟨Proc.guards_mono (runHandler_guards _ _ _) fun later c h => h _, ?_⟩
        refine Proc.post_mono (runHandler_post _ _ _ _) ?_
        intro before r hRan
        cases r with
        | error e => trivial
        | ok result =>
          obtain ⟨ticks, beats, -, ⟨x, rfl, hResult⟩ | ⟨e, -, -, hResult⟩⟩ := hRan
          · obtain rfl := Except.ok.inj hResult
            have hCalls := (List.sublist_append_right beats [⟨.returned, result⟩]).cons_cons
              (⟨.invoke handler (commandContext handler request) request.payload, ticks⟩ :
                Interaction.Event RedisReply)
            have hReturned := RepliesWith.returned (not_not.mp hVersion) ((hInTime rfl).append _)
              (hCalls.trans (List.sublist_append_right clock _))
            refine Proc.guards_mono (publishCommandResponse_guards hAccepts hReturned) ?_
            intro later c h
            rwa [List.append_assoc] at h
          · cases hResult

/-- A task completes its own entry, and publishes a reply to its own request. -/
theorem processCommandEntry_guards :
    (processCommandEntry options decode handler entry).run.Guards
      (CommandGuard options decode handler entry) := by
  rcases processCommandEntry_cases options decode handler entry with
    ⟨hUnusable, hEq⟩ | ⟨request, channel, hAccepts, hEq⟩
  · rw [hEq, guards_ackDelete]
    exact ⟨rfl, .unusable hUnusable⟩
  · rw [hEq]
    exact answerRequest_guards hAccepts

/-- `id` is completed in every run that ends well. -/
def CompletesOnOk (id : String) (p : RedisTask Unit) : Prop :=
  p.run.Post fun history r => r = .ok () → ⟨.ackDelete id, .ok ()⟩ ∈ history

theorem completesOnOk_ackDelete (id : String) : CompletesOnOk id (ackDelete id) := by
  intro acked hOk
  cases acked with
  | ok _ => exact List.mem_cons_self
  | error e => cases hOk

theorem CompletesOnOk.bind {α : Type} {id : String} {p : RedisTask α} {next : α → RedisTask Unit}
    (h : ∀ a, CompletesOnOk id (next a)) : CompletesOnOk id (p >>= next) := by
  unfold CompletesOnOk
  rw [Proc.post_bind_except]
  refine Proc.post_mono (Proc.post_true _) ?_
  intro before r _
  cases r with
  | error e => exact nofun
  | ok a =>
    refine Proc.post_mono (h a) ?_
    intro later r hLater hOk
    exact List.mem_append_right _ (hLater hOk)

theorem completesOnOk_publish (id : String) (request : RequestEnvelope) (body : ResponseBody) :
    CompletesOnOk id (publishCommandResponseAndComplete options id request body) := by
  unfold publishCommandResponseAndComplete
  cases encodeReply request.correlationId body options.maxResponseBytes with
  | error e => exact .bind fun _ => nofun
  | ok bytes =>
    refine .bind fun published => ?_
    unfold CompletesOnOk
    rw [Proc.post_bind_except]
    refine Proc.post_mono (completesOnOk_ackDelete id) ?_
    intro history r hAcked
    cases r with
    | error e => exact nofun
    | ok _ =>
      have hMem : ⟨.ackDelete id, .ok ()⟩ ∈ history ++ [] := List.mem_append_left _ (hAcked rfl)
      cases published <;> exact fun _ => hMem

/-- A task that ends well has completed its entry. -/
theorem processCommandEntry_ok :
    CompletesOnOk entry.id (processCommandEntry options decode handler entry) := by
  rcases processCommandEntry_cases options decode handler entry with
    ⟨-, hEq⟩ | ⟨request, channel, -, hEq⟩
  · rw [hEq]
    exact completesOnOk_ackDelete entry.id
  · rw [hEq, answerRequest]
    by_cases hVersion : request.version ≠ protocolVersion
    · rw [if_pos hVersion]
      exact completesOnOk_publish entry.id request _
    · rw [if_neg hVersion]
      refine .bind fun elapsed => ?_
      cases elapsed with
      | true => exact completesOnOk_publish entry.id request _
      | false => exact .bind fun result => completesOnOk_publish entry.id request _

end Redis

/-! ## Clients and replicas -/

section

variable {R : Type}

/-- A task as a process of the system. -/
abbrev asTask (p : RedisTask Unit) : Proc RpcCall RpcReply (RpcResult R) :=
  Proc.embed (.left RedisReply ClientReply) .task p.run

abbrev asRequest (p : ClientTask R) : Proc RpcCall RpcReply (RpcResult R) :=
  Proc.embed (.right RedisReply ClientReply) .request p.run

/-- The process of a job. -/
def rpc (codec : EnvelopeCodec) (stableName : String → String) :
    RpcJob R → Proc RpcCall RpcReply (RpcResult R)
  | .task t => asTask
    (Redis.processCommandEntry t.replica.options codec.decodeRequest t.replica.handler t.entry)
  | .request q => asRequest
    (RedisClient.requestInner q.options codec stableName q.fromValue q.subject q.payload)

/-- The clients and replicas of a stream, in any interleaving of their steps. -/
abbrev RpcSystem (codec : EnvelopeCodec) (stableName : String → String) :=
  Workers.State CommandBroker (rpc (R := R) codec stableName)

/-- A state that they reach from the empty stream. -/
abbrev RpcReachable (codec : EnvelopeCodec) (stableName : String → String) (stream : String) :=
  Workers.Reachable (CommandBroker.server codec stableName stream R) (rpc codec stableName) .empty

/-- The calls of a task among those of the system. -/
def taskHistory (history : History RedisReply) : History RpcReply :=
  history.map (Embedding.left RedisReply ClientReply).event

def requestHistory (history : History ClientReply) : History RpcReply :=
  history.map (Embedding.right RedisReply ClientReply).event

/-- What a job may do after some calls. -/
inductive RpcGuard (codec : EnvelopeCodec) (stableName : String → String) :
    RpcJob R → History RpcReply → RpcCall → Prop
  | task {t : CommandTask} {history : History RedisReply} {c : RedisCall}
      (h : Redis.CommandGuard t.replica.options codec.decodeRequest t.replica.handler t.entry history c) :
      RpcGuard codec stableName (.task t) (taskHistory history) (.inl c)
  | request {q : ClientRequest R} {history : History ClientReply} {c : ClientCall}
      (h : RedisClient.RequestGuard q.options codec stableName q.subject q.payload history c) :
      RpcGuard codec stableName (.request q) (requestHistory history) (.inr c)

variable {codec : EnvelopeCodec} {stableName : String → String} {stream : String}
  {s t : RpcSystem (R := R) codec stableName}

theorem rpc_guards (job : RpcJob R) : (rpc codec stableName job).Guards
    (RpcGuard codec stableName job) := by
  cases job with
  | task t =>
    refine Proc.guards_mono (Proc.guards_embed Redis.processCommandEntry_guards) ?_
    rintro _ _ ⟨history, c, rfl, rfl, h⟩
    exact .task h
  | request q =>
    refine Proc.guards_mono (Proc.guards_embed RedisClient.requestInner_guards) ?_
    rintro _ _ ⟨history, c, rfl, rfl, h⟩
    exact .request h

/-- A call of a task that has been executed, with the calls before it. -/
theorem executed_task (h : RpcReachable codec stableName stream s) {c : RedisCall}
    (hCall : .inl c ∈ s.executed.map Prod.snd) : ∃ n w t history, s.worker n = some w ∧
      w.job = .task t ∧ taskHistory history <+: w.history ∧ (n, .inl c) ∈ s.executed ∧
      Redis.CommandGuard t.replica.options codec.decodeRequest t.replica.handler t.entry history c ∧
      t.entry ∈ s.server.entries ∧ commandStream stableName t.replica.handler.pattern = stream := by
  obtain ⟨⟨n, _⟩, hExecuted, rfl⟩ := List.mem_map.mp hCall
  obtain ⟨w, before, hWorker, hBefore, hGuard⟩ :=
    Workers.reachable_guarded rpc_guards h n _ (.inr hExecuted)
  have hJobs := (Workers.reachable_jobs CommandBroker.jobInvariant h).worker n w hWorker
  cases hJob : w.job with
  | task t =>
    rw [hJob] at hGuard
    obtain ⟨hEntry, hStream⟩ := hJobs t hJob
    cases hGuard with
    | task hGuard => exact ⟨n, w, t, _, hWorker, hJob, hBefore, hExecuted, hGuard, hEntry, hStream⟩
  | request q =>
    rw [hJob] at hGuard
    cases hGuard

theorem executed_request (h : RpcReachable codec stableName stream s) {c : ClientCall}
    (hCall : .inr c ∈ s.executed.map Prod.snd) : ∃ n w q history, s.worker n = some w ∧
      w.job = .request q ∧ requestHistory history <+: w.history ∧
      RedisClient.RequestGuard q.options codec stableName q.subject q.payload history c := by
  obtain ⟨⟨n, _⟩, hExecuted, rfl⟩ := List.mem_map.mp hCall
  obtain ⟨w, before, hWorker, hBefore, hGuard⟩ :=
    Workers.reachable_guarded rpc_guards h n _ (.inr hExecuted)
  cases hJob : w.job with
  | task t =>
    rw [hJob] at hGuard
    cases hGuard
  | request q =>
    rw [hJob] at hGuard
    cases hGuard with
    | request hGuard => exact ⟨n, w, q, _, hWorker, hJob, hBefore, hGuard⟩

/-- The history of a task is one of its own process. -/
theorem task_history {w : Workers.Worker (rpc codec stableName)} {task : CommandTask}
    (hJob : w.job = .task (R := R) task) {before : History RedisReply}
    (h : taskHistory before <+: w.history) :
    ∃ history, w.history = taskHistory history ∧ before <+: history := by
  have hRun := w.run
  rw [hJob] at hRun
  obtain ⟨history, q, -, hHistory, -⟩ := Proc.run_embed hRun
  refine ⟨history, hHistory, ?_⟩
  rw [hHistory] at h
  exact (List.prefix_map_iff_of_injective Embedding.left_event_injective).mp h

theorem request_history {w : Workers.Worker (rpc codec stableName)} {q : ClientRequest R}
    (hJob : w.job = .request q) {before : History ClientReply}
    (h : requestHistory before <+: w.history) :
    ∃ history, w.history = requestHistory history ∧ before <+: history := by
  have hRun := w.run
  rw [hJob] at hRun
  obtain ⟨history, r, -, hHistory, -⟩ := Proc.run_embed hRun
  refine ⟨history, hHistory, ?_⟩
  rw [hHistory] at h
  exact (List.prefix_map_iff_of_injective Embedding.right_event_injective).mp h

theorem Redis.Disposed.append {options : RedisTransportOptions}
    {decode : Bytes → Except String RequestEnvelope} {handler : MessageHandlerDef} {entry : StreamEntry}
    {before history : History RedisReply} (h : Redis.Disposed options decode handler entry before)
    (hPrefix : before <+: history) : Redis.Disposed options decode handler entry history := by
  obtain ⟨later, rfl⟩ := hPrefix
  cases h with
  | unusable h => exact .unusable h
  | answered hAccepts hBody hBytes h =>
    exact .answered hAccepts (hBody.append later) hBytes (List.mem_append_left _ h)
  | unanswerable hAccepts hBody h => exact .unanswerable hAccepts (hBody.append later) h

/-- In every state that clients and replicas reach, an entry that has been deleted carries no
request that can be answered, or the task that has deleted it has published the reply to it,
which it owes to its checks or to the result of the handler, or no reply fits. -/
theorem command_deleted_only_if (codec : EnvelopeCodec) (stableName : String → String)
    (stream : String) (s : RpcSystem (R := R) codec stableName)
    (h : RpcReachable codec stableName stream s) (entry : StreamEntry)
    (hEntry : entry ∈ s.server.entries) (hDeleted : entry.id ∈ s.server.deleted) :
    ∃ n w task history, s.worker n = some w ∧ w.job = .task task ∧ task.entry = entry ∧
      w.history = taskHistory history ∧ (n, .inl (.ackDelete entry.id)) ∈ s.executed ∧
      Redis.Disposed task.replica.options codec.decodeRequest task.replica.handler entry history := by
  have hCall := (Workers.reachable_server CommandBroker.deleted_executed (by simp [CommandBroker.empty]) h
    entry.id).mp hDeleted
  obtain ⟨n, w, task, before, hWorker, hJob, hBefore, hExecuted, ⟨hId, hDisposed⟩, hTask, -⟩ :=
    executed_task h hCall
  obtain rfl := CommandBroker.eq_of_id hEntry hTask hId
  obtain ⟨history, hHistory, hPrefix⟩ := task_history hJob hBefore
  exact ⟨n, w, task, history, hWorker, hJob, rfl, hHistory, hExecuted, hDisposed.append hPrefix⟩

/-- The calls that say that an entry is completed. -/
def Completed (w : Workers.Worker (rpc (R := R) codec stableName)) (task : CommandTask) : Prop :=
  ⟨.inl (.ackDelete task.entry.id), .ok ()⟩ ∈ w.history ∨ w.rest = .done (.task (.ok ()))

theorem Completed.acknowledged {w : Workers.Worker (rpc codec stableName)} {task : CommandTask}
    (hJob : w.job = .task (R := R) task) (h : Completed w task) :
    ⟨.inl (.ackDelete task.entry.id), .ok ()⟩ ∈ w.history := by
  refine h.elim id fun hDone => ?_
  have hRun := w.run
  rw [hJob, hDone] at hRun
  obtain ⟨history, r, hRun, hHistory, hResult⟩ := Proc.run_embed_done hRun
  obtain rfl := RpcResult.task.inj hResult
  rw [hHistory]
  exact List.mem_map_of_mem (hRun.post Redis.processCommandEntry_ok rfl)

/-- A task on an entry. -/
def RpcJob.carries (id : String) : RpcJob R → Bool
  | .task t => t.entry.id == id
  | .request _ => false

theorem assign_carries {b after : CommandBroker} {job : RpcJob R} {id : String}
    (hDeleted : id ∈ b.deleted) (h : CommandBroker.Assign stableName stream b job after) :
    job.carries id = false := by
  cases h with
  | request _ => rfl
  | task _ hTask =>
    refine beq_false_of_ne ?_
    rintro rfl
    exact (CommandBroker.assignTask_entry hTask).2 hDeleted

/-- After a task has been told that its entry is completed, or has ended well, the entry is not
handed out again: a task that has it was there, or the entry was on its way to the replica,
and no more tasks start than entries were on their way. -/
theorem command_not_repeated (codec : EnvelopeCodec) (stableName : String → String)
    (stream : String) (s t : RpcSystem (R := R) codec stableName)
    (h : RpcReachable codec stableName stream s) (n : Nat)
    (w : Workers.Worker (rpc codec stableName)) (task : CommandTask) (hWorker : s.worker n = some w)
    (hJob : w.job = .task task) (hCompleted : Completed w task)
    (hLater : ReflTransGen (Workers.Step (CommandBroker.server codec stableName stream R)) s t) :
    (∀ job ∈ t.assigned, job.carries task.entry.id → job ∈ s.assigned) ∧
    (∀ m v, t.worker m = some v → v.job.carries task.entry.id →
      (∃ u, s.worker m = some u ∧ u.job = v.job) ∨ v.job ∈ s.assigned) ∧
    ∀ ms : List Nat, ms.Nodup → (∀ m ∈ ms, Workers.Started (·.carries task.entry.id) s t m) →
      ms.length + t.assigned.countP (·.carries task.entry.id) ≤
        s.assigned.countP (·.carries task.entry.id) := by
  have hAnswered := Workers.reachable_answered h n w hWorker _ (hCompleted.acknowledged hJob)
  have hExecuted := hAnswered.resolve_left fun ⟨e, he⟩ => nomatch he
  have hDeleted := (Workers.reachable_server CommandBroker.deleted_executed
    (by simp [CommandBroker.empty]) h task.entry.id).mpr (List.mem_map_of_mem hExecuted)
  have hStable : Workers.Stable (CommandBroker.server codec stableName stream R)
      fun b => task.entry.id ∈ b.deleted := CommandBroker.stable_deleted task.entry.id
  refine ⟨?_, fun m v hm hCarries => ?_, fun ms hNodup hStarted => ?_⟩
  · exact (Workers.steps_assigned hStable assign_carries hDeleted hLater).2
  · exact Workers.steps_worker hStable assign_carries hDeleted hLater hm hCarries
  · exact Workers.steps_started hStable assign_carries hDeleted hLater hNodup hStarted

/-! ## Replies -/

theorem encodeReply_success {id : String} {body : ResponseBody} {maximum : Nat}
    {bytes : Encoded maximum} {payload : Json} (h : encodeReply id body maximum = .ok bytes)
    (hSuccess : bytes.envelope.body = .success payload) : body = .success payload := by
  unfold encodeReply at h
  have hBody : ∀ envelope : ResponseEnvelope, encodeLimited envelope maximum = .ok bytes →
      bytes.envelope = envelope := by
    intro envelope hEncoded
    unfold encodeLimited at hEncoded
    split at hEncoded
    · cases hEncoded
    · cases hEncoded
      rfl
  split at h
  · rename_i bytes' hEncoded
    obtain rfl := Except.ok.inj h
    rw [hBody _ hEncoded] at hSuccess
    exact hSuccess
  · rw [hBody _ h] at hSuccess
    cases hSuccess

theorem readResponse_ok {options : RedisClientOptions} {fromValue : Json → Except String R}
    {id : String} {message : ReplyMessage} {value : R}
    (h : RedisClient.readResponse options fromValue id message = .ok value) :
    ∃ response payload, message.response = .ok response ∧
      response.body = .success payload ∧ fromValue payload = .ok value := by
  unfold RedisClient.readResponse at h
  split_ifs at h
  cases hDecode : message.response with
  | error e =>
    rw [hDecode] at h
    cases h
  | ok response =>
    rw [hDecode] at h
    dsimp only at h
    split_ifs at h
    cases hBody : response.body with
    | error e =>
      rw [hBody] at h
      cases h
    | success payload =>
      rw [hBody] at h
      dsimp only at h
      cases hValue : fromValue payload with
      | error e =>
        rw [hValue] at h
        cases h
      | ok value' =>
        rw [hValue] at h
        cases h
        exact ⟨response, payload, rfl, hBody, hValue⟩

/-- A reply that tells of success is the result of the handler. -/
theorem repliesWith_success {handler : MessageHandlerDef} {request : RequestEnvelope}
    {history : History RedisReply} {body : ResponseBody} {payload : Json}
    (h : Redis.RepliesWith handler request history body) (hBody : body = .success payload) :
    ∃ ticks result, [⟨.invoke handler (Redis.commandContext handler request) request.payload, ticks⟩,
      ⟨.returned, .ok result⟩].Sublist history ∧ payload = result.getD .null ∧
      Redis.InTime request history := by
  cases h with
  | unsupported _ => cases hBody
  | late _ _ _ => cases hBody
  | @returned ticks result _ hTime h =>
    cases result with
    | error e => cases hBody
    | ok result =>
      refine ⟨ticks, result, h, ?_, hTime⟩
      exact (ResponseBody.success.inj hBody).symm

theorem replyChannel_injective {id other : String} (h : replyChannel id = replyChannel other) :
    id = other :=
  (String.append_right_inj _).mp h

/-- The request in an entry, when it asks for a reply on the channel of a client. -/
theorem entry_request (hCodec : codec.ReadsBack) (h : RpcReachable codec stableName stream s)
    {entry : StreamEntry} (hEntry : entry ∈ s.server.entries) {options : RedisTransportOptions}
    {request : RequestEnvelope} {id : String}
    (hAccepts : Redis.Accepts options codec.decodeRequest entry request (replyChannel id)) :
    ∃ n w q calls deadline sent, s.worker n = some w ∧ w.job = .request q ∧
      w.history = requestHistory calls ∧ ⟨.newUuid, id⟩ ∈ calls ∧
      RedisClient.OwnDeadline q.options.rpcTimeout deadline calls ∧
      stream = commandStream stableName q.subject ∧ q.payload = .ok sent ∧
      request = RedisClient.commandRequest id deadline (sent.mapNumbers codec.readNumber) := by
  obtain ⟨bytes, hEnvelope, -, hDecode⟩ := hAccepts.envelope
  rcases Workers.reachable_server CommandBroker.entry_origin (by nofun) h entry hEntry with
    hForeign | ⟨trim, bytes', hAdded, hCall⟩
  · exact absurd hAccepts.channel_eq (hForeign bytes request id hEnvelope hDecode)
  · obtain rfl := Option.some.inj (hEnvelope.symm.trans hAdded)
    obtain ⟨n, w, q, before, hWorker, hJob, hBefore, hStream, -, -, sent, hSent⟩ :=
      executed_request h hCall
    obtain ⟨calls, hCalls, hPrefix⟩ := request_history hJob hBefore
    have hRead := hCodec.request hSent.encoded hDecode
    have hChannel := hAccepts.channel_eq
    rw [hRead, hSent.fields] at hChannel
    have hId : sent.correlationId = id := replyChannel_injective (Option.some.inj hChannel)
    refine ⟨n, w, q, calls, sent.deadlineUnixMillis, sent.payload, hWorker, hJob, hCalls, ?_,
      hSent.deadline.mono hPrefix, hStream, hSent.payload, ?_⟩
    · exact hPrefix.subset (hId ▸ hSent.drawn)
    · rw [hRead, ← hId]
      exact congrArg (fun r : RequestEnvelope =>
        { r with payload := sent.payload.mapNumbers codec.readNumber }) hSent.fields

/-- What a client is given for its request is what a handler of its subject has returned for
its payload before its deadline, in a task that has published the reply. -/
theorem request_answered (codec : EnvelopeCodec) (hCodec : codec.ReadsBack)
    (stableName : String → String) (stream : String)
    (s : RpcSystem (R := R) codec stableName) (h : RpcReachable codec stableName stream s) (n : Nat)
    (w : Workers.Worker (rpc codec stableName)) (q : ClientRequest R) (value : R)
    (hWorker : s.worker n = some w) (hJob : w.job = .request q)
    (hDone : w.rest = .done (.request (.ok value))) :
    ∃ calls id deadline sent payload m v task history ticks result received,
      w.history = requestHistory calls ∧ ⟨.newUuid, id⟩ ∈ calls ∧
      RedisClient.OwnDeadline q.options.rpcTimeout deadline calls ∧
      q.payload = .ok sent ∧ codec.ReadAs sent payload ∧
      s.worker m = some v ∧ v.job = .task task ∧ v.history = taskHistory history ∧
      commandStream stableName task.replica.handler.pattern = commandStream stableName q.subject ∧
      [⟨.invoke task.replica.handler (Redis.commandContext task.replica.handler
        (RedisClient.commandRequest id deadline payload)) payload, ticks⟩,
        ⟨.returned, .ok result⟩].Sublist history ∧
      Redis.InTime (RedisClient.commandRequest id deadline payload) history ∧
      codec.ReadAs (result.getD .null) received ∧ q.fromValue received = .ok value := by
  have hRun := w.run
  rw [hJob, hDone] at hRun
  obtain ⟨mine, r, hRun, hMine, hResult⟩ := Proc.run_embed_done hRun
  obtain rfl := RpcResult.request.inj hResult
  obtain ⟨id, message, hDrawn, hMessage, hRead⟩ := hRun.post RedisClient.requestInner_post value rfl
  have hDrawn : ⟨.inr .newUuid, id⟩ ∈ w.history := hMine ▸ List.mem_map_of_mem hDrawn
  -- the message has been published by a task
  have hReceived := Workers.reachable_replies CommandBroker.waits_published CommandBroker.message_origin
    (by rintro _ _ ⟨l, h, -⟩; cases h) h hWorker (hMine ▸ List.mem_map_of_mem hMessage)
  obtain ⟨maximum, encoded, hPublish, rfl⟩ := (hReceived.resolve_left nofun) _ _ rfl
  obtain ⟨m, v, task, before, hm, hTask, hBefore, -, ⟨request, body, hAccepts, hBody, hEncoded⟩, hEntry,
    hStream⟩ := executed_task h hPublish
  -- for an entry that this client has added
  obtain ⟨k, u, q', calls, deadline, sent, hk, hOwner, hCalls, hTheirs, hDeadline, hSubject, hSent, rfl⟩ :=
    entry_request hCodec h hEntry hAccepts
  have hTheirDrawn : ⟨.inr .newUuid, id⟩ ∈ u.history := hCalls ▸ List.mem_map_of_mem hTheirs
  obtain rfl := Workers.reachable_tokens CommandBroker.drawnId_tokens h hWorker hk hDrawn hTheirDrawn
    rfl rfl
  obtain rfl := Option.some.inj (hWorker.symm.trans hk)
  obtain rfl := RpcJob.request.inj (hJob.symm.trans hOwner)
  -- with the result of the handler
  obtain ⟨response, received, hDecode, hSuccess, hValue⟩ := readResponse_ok hRead
  obtain ⟨reply, hReply, rfl⟩ := hCodec.response hDecode hSuccess
  obtain ⟨ticks, result, hReturned, rfl, hTime⟩ :=
    repliesWith_success hBody (encodeReply_success hEncoded hReply)
  obtain ⟨history, hHistory, later, rfl⟩ := task_history hTask hBefore
  exact ⟨calls, id, deadline, sent, _, m, v, task, _, ticks, result, _, hCalls, hTheirs, hDeadline, hSent,
    hCodec.readAs sent, hm, hTask, hHistory, hStream.trans hSubject,
    hReturned.trans (List.sublist_append_left ..), hTime.append later, hCodec.readAs _, hValue⟩

end

/-! ## A command and its reply -/

def greetId : String := "2f1b6c0e-8a4d-4c5e-9b7f-3d2a1c0e5f60"

def greetRequest : RequestEnvelope := RedisClient.commandRequest greetId (some 5005) .null

/-- The text of the request, which has ASCII characters only. -/
@[irreducible]
def greetText : Bytes :=
  ("\x7b\"version\":1,\"correlation_id\":\"" ++ greetId ++ "\",\"deadline_unix_millis\":5005," ++
    "\"reply_channel\":\"" ++ replyChannel greetId ++
    "\",\"headers\":\x7b\x7d,\"payload\":null\x7d").toList.map fun c => UInt8.ofNat c.toNat

theorem greetText_length : greetText.length ≤ 1024 := by
  unfold greetText
  rewrite [List.length_map]
  decide +kernel

def readGreet (bytes : Bytes) : Except String RequestEnvelope :=
  if bytes = greetText then .ok greetRequest else .error "expected value"

theorem readGreet_text : readGreet greetText = .ok greetRequest := by
  rw [readGreet, if_pos rfl]

/-- A codec for this request only. -/
def greetCodec : EnvelopeCodec where
  encodeRequest
    | ⟨1, id, some 5005, some channel, headers, .null⟩ =>
      if id = greetId ∧ channel = replyChannel greetId ∧ headers.entries.isEmpty then .ok greetText
      else .error "unsupported"
    | _ => .error "unsupported"
  decodeRequest := readGreet
  encodeEvent _ := .error "unsupported"
  decodeEvent _ := .error "expected value"
  readBack := .ok
  readNumber := id

theorem greetCodec_readsBack : greetCodec.ReadsBack where
  integer _ := rfl
  request := by
    intro request read bytes h hRead
    unfold greetCodec at h
    dsimp only at h
    split at h
    · rename_i id channel headers
      split_ifs at h with hSame
      obtain ⟨rfl, rfl, hEmpty⟩ := hSame
      obtain rfl : headers = ∅ := AList.ext (List.isEmpty_iff.mp hEmpty)
      cases h
      exact Except.ok.inj (hRead.symm.trans readGreet_text)
    · cases h
  event := by
    intro event read bytes h
    cases h
  response := by
    intro envelope read payload hRead hBody
    cases hRead
    exact ⟨payload, hBody, (Json.mapNumbers_eq_self payload fun _ _ => rfl).symm⟩

def greetHandler : MessageHandlerDef := ⟨.command, "greet"⟩

def greetEntry : StreamEntry := ⟨"1-0", none, some greetText⟩

def greetCall : ClientRequest Json where
  options := ⟨Duration.fromSecs 5, 1024, 1024, 1024, "caelix:events", none⟩
  subject := "greet"
  payload := .ok .null
  fromValue := .ok

def greetReplica (consumer : String) : CommandReplica where
  options :=
    { maxRequestBytes := 1024, maxResponseBytes := 1024, maxEventBytes := 1024
      maxEventDeliveries := 5, deadLetterStream := none
      response_le := minimumResponseEnvelopeBytes_le, deliveries_pos := redisDeliveries_pos }
  handler := greetHandler
  group := "service"
  consumer := consumer

def greetTask : CommandTask := ⟨greetReplica "replica", greetEntry⟩

/-- Another replica of the service reclaims the entry. -/
def lateTask : CommandTask := ⟨greetReplica "another", greetEntry⟩

theorem greet_accepts :
    Redis.Accepts greetTask.replica.options greetCodec.decodeRequest greetEntry greetRequest
      (replyChannel greetId) where
  envelope := ⟨greetText, rfl, greetText_length, readGreet_text⟩
  id_ne := by decide +kernel
  id_le := by decide +kernel
  channel_eq := rfl
  channel_ne := by decide +kernel
  channel_le := by decide +kernel

theorem greet_program : Redis.processCommandEntry greetTask.replica.options greetCodec.decodeRequest
    greetHandler greetEntry =
      Redis.answerRequest greetTask.replica.options greetHandler "1-0" greetRequest := by
  rcases Redis.processCommandEntry_cases greetTask.replica.options greetCodec.decodeRequest greetHandler
    greetEntry with ⟨hUnusable, -⟩ | ⟨request, channel, hAccepts, hEq⟩
  · exact absurd greet_accepts (hUnusable _ _)
  · rw [hEq, Except.ok.inj ((hAccepts.decoded rfl).symm.trans (greet_accepts.decoded rfl))]
    rfl

theorem greet_reply : ∃ bytes : Encoded 1024, encodeReply greetId (.success .null) 1024 = .ok bytes ∧
    bytes.envelope = ⟨protocolVersion, greetId, .success .null⟩ := by
  have hFits : ¬ 1024 < (ResponseEnvelope.mk protocolVersion greetId (.success .null)).json.byteLength := by
    decide +kernel
  refine ⟨⟨_, Nat.le_of_not_lt hFits⟩, ?_, rfl⟩
  unfold encodeReply encodeLimited
  rw [dif_neg hFits]

def greetName (subject : String) : String := subject

abbrev GreetSystem := RpcSystem (R := Json) greetCodec greetName

abbrev GreetReachable := RpcReachable (R := Json) greetCodec greetName "caelix:commands:greet"

abbrev greetServer := CommandBroker.server greetCodec greetName "caelix:commands:greet" Json

abbrev greetProgram : RpcJob Json → Proc RpcCall RpcReply (RpcResult Json) := rpc greetCodec greetName

/-- What is left of the request after it has been sent. -/
abbrev greetRest : Proc RpcCall RpcReply (RpcResult Json) :=
  asRequest (RedisClient.awaitResponse greetCall.options greetCall.fromValue greetId)

/-- The broker after the client has sent its request. -/
def sentBroker : CommandBroker :=
  (({ CommandBroker.empty with drawn := [greetId] } : CommandBroker).setChannel (replyChannel greetId)
    (some [])).append greetEntry (by simp [CommandBroker.setChannel, CommandBroker.empty])

theorem greet_text : encodeWithin (greetCodec.encodeRequest
    (RedisClient.commandRequest greetId (some 5005) .null)) 1024 = .ok greetText := by
  have hEncoded : greetCodec.encodeRequest (RedisClient.commandRequest greetId (some 5005) .null) =
      .ok greetText := by
    simp [greetCodec, RedisClient.commandRequest, protocolVersion]
  rw [hEncoded]
  exact if_neg (Nat.not_lt_of_le greetText_length)

theorem greet_sent : Workers.Served greetServer (.request greetCall) .empty
    (greetProgram (.request greetCall)) sentBroker greetRest := by
  have hSubject : ¬ (!validNatsSubject greetCall.subject) = true := by decide +kernel
  unfold greetProgram rpc RedisClient.requestInner
  dsimp only
  rw [if_neg hSubject]
  show Workers.Served greetServer (.request greetCall) _ (.call (.inr .newUuid) _) _ _
  refine .cons (r := greetId) ⟨List.not_mem_nil, rfl⟩ ?_
  show Workers.Served greetServer (.request greetCall) _ (.call (.inr .connectPubsub) _) _ _
  refine .cons (r := Except.ok ()) ⟨rfl, rfl⟩ ?_
  show Workers.Served greetServer (.request greetCall) _ (.call (.inr (.subscribe _)) _) _ _
  refine .cons (r := Except.ok ()) ⟨rfl, rfl⟩ ?_
  show Workers.Served greetServer (.request greetCall) _ (.call (.inr .elapsed) _) _ _
  refine .cons (r := (0 : Nat)) rfl ?_
  show Workers.Served greetServer (.request greetCall) _ (.call (.inr .nowMillis) _) _ _
  refine .cons (r := (5 : Nat)) rfl ?_
  show Workers.Served greetServer (.request greetCall) _ (asRequest (do
    let bytes ← RedisClient.orProtocol (encodeWithin (greetCodec.encodeRequest
      (RedisClient.commandRequest greetId (some 5005) .null)) 1024)
    let _ ← RedisClient.attempt (Proc.perform (ClientCall.add "caelix:commands:greet" none none bytes))
    RedisClient.awaitResponse greetCall.options greetCall.fromValue greetId :
      ClientTask Json)) _ _
  rw [greet_text]
  show Workers.Served greetServer (.request greetCall) _ (.call (.inr (.add _ _ _ _)) _) _ _
  refine .cons (r := Except.ok "1-0") ?_ (.nil _ _)
  unfold greetServer CommandBroker.server
  dsimp only [CommandBroker.Execute]
  rw [CommandBroker.ExecuteClient, if_pos rfl]
  exact ⟨"1-0", _, rfl, rfl⟩

/-- The handler is started in time and returns nothing. -/
theorem greet_handled (b : CommandBroker) (late : RedisTask Unit)
    (next : HandlerResult → RedisTask Unit) :
    Workers.Served greetServer (.task greetTask) b
      (asTask (R := Json) do
        if ← Redis.deadlineElapsed (some 5005) then late
        else do
          let result ← Redis.runHandler "1-0" greetHandler
            (Redis.commandContext greetHandler greetRequest) greetRequest.payload
          next result) b
      (asTask (next (.ok none))) := by
  show Workers.Served greetServer (.task greetTask) _ (.call (.inl .nowMillis) _) _ _
  refine .cons (r := (6 : Nat)) ⟨_, rfl, rfl⟩ ?_
  show Workers.Served greetServer (.task greetTask) _ (.call (.inl (.invoke _ _ _)) _) _ _
  refine .cons (r := (0 : Nat)) ⟨_, rfl, rfl⟩ ?_
  show Workers.Served greetServer (.task greetTask) _ (.call (.inl .returned) _) _ _
  exact .cons (r := (.ok none : HandlerResult)) ⟨_, rfl, rfl⟩ (.nil _ _)

theorem greet_served (b : CommandBroker) {bytes : Encoded 1024}
    (hBytes : encodeReply greetId (.success .null) 1024 = .ok bytes) :
    Workers.Served greetServer (.task greetTask) b (greetProgram (.task greetTask))
      ((b.publish (replyChannel greetId) (greetCodec.message bytes)).complete "service" "1-0")
      (.done (.task (.ok ()))) := by
  have hVersion : ¬ greetRequest.version ≠ protocolVersion := not_not.mpr rfl
  unfold greetProgram rpc
  dsimp only
  rw [show Redis.processCommandEntry greetTask.replica.options greetCodec.decodeRequest
    greetTask.replica.handler greetTask.entry = _ from greet_program, Redis.answerRequest,
    if_neg hVersion]
  refine (greet_handled b _ _).trans ?_
  rw [Redis.publishCommandResponseAndComplete, show encodeReply greetRequest.correlationId
    (HandlerResult.body (.ok none)) greetTask.replica.options.maxResponseBytes = .ok bytes from hBytes]
  show Workers.Served greetServer (.task greetTask) _ (.call (.inl (.publish _ _)) _) _ _
  refine .cons (r := Except.ok ()) ⟨_, rfl, rfl, rfl⟩ ?_
  show Workers.Served greetServer (.task greetTask) _ (.call (.inl (.ackDelete _)) _) _ _
  exact .cons (r := Except.ok ()) ⟨_, rfl, rfl, rfl⟩ (.nil _ _)

/-- The client reads the reply. -/
theorem greet_read (b : CommandBroker) {bytes : Encoded 1024}
    (hEnvelope : bytes.envelope = ⟨protocolVersion, greetId, .success .null⟩)
    (hChannel : b.channel (replyChannel greetId) = some [greetCodec.message bytes]) :
    Workers.Served greetServer (.request greetCall) b greetRest
      (b.setChannel (replyChannel greetId) (some [])) (.done (.request (.ok .null))) := by
  have hRead : RedisClient.readResponse greetCall.options greetCall.fromValue greetId
      (greetCodec.message bytes) = .ok .null := by
    have hSize : ¬ greetCall.options.maxResponseBytes < bytes.envelope.json.byteLength :=
      Nat.not_lt_of_le bytes.fits
    unfold RedisClient.readResponse EnvelopeCodec.message
    dsimp only
    rw [if_neg hSize]
    simp [greetCodec, hEnvelope, greetCall, Except.mapError]
  show Workers.Served greetServer (.request greetCall) _ (.call (.inr (.nextMessage _)) _) _ _
  refine .cons (r := some (.ok (greetCodec.message bytes))) (.inr ⟨_, _, hChannel, rfl, rfl⟩) ?_
  show Workers.Served greetServer (.request greetCall) _ (asRequest (liftExcept
    (RedisClient.readResponse greetCall.options greetCall.fromValue greetId
      (greetCodec.message bytes)))) _ _
  rw [hRead]
  exact .nil _ _

/-- The client has read the reply to its request. The entry has been reclaimed meanwhile, and is
on its way to another replica. -/
structure Greeted (s : GreetSystem) (w v : Workers.Worker greetProgram) : Prop where
  reachable : GreetReachable s
  client : Workers.At s 0 (.request greetCall) (.done (.request (.ok .null))) w
  replica : Workers.At s 1 (.task greetTask) (.done (.task (.ok ()))) v
  entry : greetEntry ∈ s.server.entries
  deleted : greetEntry.id ∈ s.server.deleted
  assigned : s.assigned = [.task lateTask]
  free : s.worker 2 = none

/-- The entry is read by one replica and reclaimed by the other. -/
theorem exists_reclaimed : ∃ read reclaimed, CommandBroker.AssignTask sentBroker greetTask read ∧
    CommandBroker.AssignTask read lateTask reclaimed ∧ greetEntry ∈ reclaimed.entries ∧
    reclaimed.channel (replyChannel greetId) = some [] := by
  refine ⟨_, _, .read (n := 0) (Nat.le_refl 0) rfl ?_ List.not_mem_nil,
    .reclaim (p := ⟨"replica", 1⟩) List.mem_cons_self List.not_mem_nil ?_, List.mem_cons_self, ?_⟩
  · exact fun k _ _ hk _ => absurd hk (Nat.not_lt_zero k)
  · simp [CommandBroker.setGroup, lateTask, greetTask, greetReplica]
  · rw [CommandBroker.setPending, CommandBroker.setGroup_channel, CommandBroker.setGroup_channel,
      sentBroker, CommandBroker.append_channel, CommandBroker.setChannel_self]

/-- The client sends its request, a replica answers it, and the client reads the reply. -/
theorem exists_greeted : ∃ s w v, Greeted s w v := by
  obtain ⟨bytes, hBytes, hEnvelope⟩ := greet_reply
  obtain ⟨read, reclaimed, hRead, hReclaim, hStored, hSubscribed⟩ := exists_reclaimed
  have hStart : GreetReachable (.initial greetProgram .empty) := .refl
  have hRequest : greetServer.assign .empty (.request greetCall) .empty := .request greetCall
  obtain ⟨s, w, hReach, hServer, hClient, hFirst⟩ := Workers.exists_started hStart hRequest (n := 0) rfl
  obtain ⟨t, w, hReach, hSent, hClient, hSecond⟩ :=
    Workers.exists_served hReach hClient (hServer ▸ greet_sent)
  have hFree : ∀ m, m ≠ 0 → t.worker m = none :=
    fun m hm => (hSecond.worker m hm).trans (hFirst.worker m hm)
  have hNone : t.assigned = [] := hSecond.assigned.trans hFirst.assigned
  -- a replica has the entry, and another reclaims it
  have hTask : greetServer.assign t.server (.task greetTask) read := .task rfl (hSent ▸ hRead)
  obtain ⟨s, v, hReach, hServer, hReplica, hThird⟩ :=
    Workers.exists_started hReach hTask (hFree 1 (by decide))
  have hClient := hClient.of_eq (hThird.worker 0 (by decide))
  have hLate : greetServer.assign s.server (.task lateTask) reclaimed := .task rfl (hServer ▸ hReclaim)
  obtain ⟨x, hReach, hServer, hAssigned, hSame⟩ := Workers.exists_assigned hReach hLate
  have hClient := hClient.of_eq (congrFun hSame 0)
  have hReplica := hReplica.of_eq (congrFun hSame 1)
  -- the first one answers it
  obtain ⟨y, v, hReach, hReplied, hReplica, hFourth⟩ :=
    Workers.exists_served hReach hReplica (greet_served x.server hBytes)
  have hClient := hClient.of_eq (hFourth.worker 0 (by decide))
  have hChannel : y.server.channel (replyChannel greetId) = some [greetCodec.message bytes] := by
    rw [hReplied, hServer, CommandBroker.complete_channel, CommandBroker.publish,
      CommandBroker.setChannel_self, hSubscribed]
    rfl
  obtain ⟨u, w, hReach, hServed, hClient, hFifth⟩ :=
    Workers.exists_served hReach hClient (greet_read y.server hEnvelope hChannel)
  have hReplica := hReplica.of_eq (hFifth.worker 1 (by decide))
  refine ⟨u, w, v, hReach, hClient, hReplica, ?_, ?_, ?_, ?_⟩
  · rw [hServed, hReplied]
    exact hServer ▸ hStored
  · rw [hServed, hReplied]
    exact List.mem_cons_self
  · rw [hFifth.assigned, hFourth.assigned, hAssigned, hThird.assigned, hNone]
    rfl
  · rw [hFifth.worker 2 (by decide), hFourth.worker 2 (by decide), hSame, hThird.worker 2 (by decide)]
    exact hFree 2 (by decide)

/-- The entry of the command has been answered. -/
theorem command_deleted_only_if_greet : ∃ s : GreetSystem,
    greetEntry.id ∈ s.server.deleted ∧ ∃ n w task history, s.worker n = some w ∧
      w.job = .task task ∧ task.entry = greetEntry ∧ w.history = taskHistory history ∧
      (n, .inl (.ackDelete greetEntry.id)) ∈ s.executed ∧
      Redis.Disposed task.replica.options greetCodec.decodeRequest task.replica.handler greetEntry
        history := by
  obtain ⟨s, w, v, h⟩ := exists_greeted
  exact ⟨s, h.deleted, command_deleted_only_if _ _ _ s h.reachable greetEntry h.entry h.deleted⟩

/-- The task of the other replica starts after the entry is completed: it was on its way, and it
is the last one. -/
theorem command_not_repeated_greet : ∃ (s t : GreetSystem) (late : Workers.Worker greetProgram),
    greetEntry.id ∈ s.server.deleted ∧ s.worker 2 = none ∧ t.worker 2 = some late ∧
    late.job = .task lateTask ∧ late.job ∈ s.assigned ∧
    1 + t.assigned.countP (·.carries greetEntry.id) ≤ s.assigned.countP (·.carries greetEntry.id) := by
  obtain ⟨s, w, v, h⟩ := exists_greeted
  have hAssigned : s.assigned = [] ++ .task lateTask :: [] := h.assigned
  obtain ⟨t, hStep, hStarted, -⟩ := Workers.exists_arrived hAssigned h.free
  have hCarries : RpcJob.carries greetEntry.id (.task (R := Json) lateTask) = true := beq_self_eq_true _
  obtain ⟨-, hWorkers, hCount⟩ := command_not_repeated _ _ _ s _ h.reachable 1 v greetTask
    h.replica.worker h.replica.job_eq (.inr h.replica.rest) (.single hStep)
  have hLate := hWorkers 2 _ hStarted hCarries
  refine ⟨s, t, _, h.deleted, h.free, hStarted, rfl, hLate.resolve_left ?_, ?_⟩
  · rintro ⟨u, hu, -⟩
    cases h.free.symm.trans hu
  · refine hCount [2] (List.nodup_singleton 2) fun m hm => ?_
    obtain rfl := List.mem_singleton.mp hm
    exact ⟨h.free, _, hStarted, hCarries⟩

/-- The client is given the result of the handler. -/
theorem request_answered_greet : ∃ (s : GreetSystem) (w : Workers.Worker greetProgram),
    s.worker 0 = some w ∧ w.job = .request greetCall ∧
    ∃ calls id deadline sent payload m v task history ticks result received,
      w.history = requestHistory calls ∧ ⟨.newUuid, id⟩ ∈ calls ∧
      RedisClient.OwnDeadline greetCall.options.rpcTimeout deadline calls ∧
      greetCall.payload = .ok sent ∧ greetCodec.ReadAs sent payload ∧
      s.worker m = some v ∧ v.job = .task task ∧ v.history = taskHistory history ∧
      commandStream greetName task.replica.handler.pattern = commandStream greetName greetCall.subject ∧
      [⟨.invoke task.replica.handler (Redis.commandContext task.replica.handler
        (RedisClient.commandRequest id deadline payload)) payload, ticks⟩,
        ⟨.returned, .ok result⟩].Sublist history ∧
      Redis.InTime (RedisClient.commandRequest id deadline payload) history ∧
      greetCodec.ReadAs (result.getD .null) received ∧ greetCall.fromValue received = .ok .null := by
  obtain ⟨s, w, v, h⟩ := exists_greeted
  have hAnswered := request_answered _ greetCodec_readsBack _ _ s h.reachable 0 w greetCall .null
    h.client.worker h.client.job_eq h.client.rest
  exact ⟨s, w, h.client.worker, h.client.job_eq, hAnswered⟩

end Caelix
