import Caelix.Microservices.Commands
import Caelix.Microservices.ConsumerGroup

/-!
# Delivery of events on Redis

Any number of replicas read, reclaim and process the entries of a consumer group. Every call
to Redis may fail, before or after it takes effect, and every task may stop at any point; a
call of a stopped task may still take effect.

* `processEventEntry_guards`: when a task acknowledges its entry there is a reason to.
* `event_acknowledged_only_if`: so an entry that is no longer pending cannot be delivered,
  or a processing has settled it.
-/

namespace Caelix

open Interaction

namespace Redis

/-! ## The task -/

section

variable (options : RedisTransportOptions) (decode : Bytes → Except String EventEnvelope)
  (handlers : List MessageHandlerDef)

/-- An entry that no handler can be given. -/
def Undeliverable (entry : StreamEntry) : Prop :=
  entry.subject = none ∨ entry.envelope = none ∨
  (∃ bytes, entry.envelope = some bytes ∧
    (options.maxEventBytes < bytes.length ∨ (∃ e, decode bytes = .error e) ∨
      ∃ event, decode bytes = .ok event ∧ (event.version ≠ protocolVersion ∨ event.eventId = ""))) ∨
  ∃ subject, entry.subject = some subject ∧ ∀ handler ∈ handlers,
    ¬(handler.kind = .event ∧ natsPatternMatches handler.pattern subject = true)

/-- An event with its handler. -/
def Matched (entry : StreamEntry) (subject : String) (event : EventEnvelope)
    (handler : MessageHandlerDef) : Prop :=
  readEvent options decode entry = some (subject, event) ∧
    findEventHandler handlers subject = some handler

/-- The calls of a processing that read the attempt number, start the handler and wait for
its result; heartbeats come between them. -/
def processed (source : StreamConsumer) (id subject : String) (event : EventEnvelope)
    (handler : MessageHandlerDef) (count : Option Nat) (ticks : Nat) (result : HandlerResult) :
    History RedisReply :=
  [⟨.pending id, .ok count⟩,
    ⟨.invoke handler (eventContext source subject event ((count.map deliveryAttempt).getD 1))
      event.payload, ticks⟩,
    ⟨.returned, result⟩]

/-- The calls of a processing that settle its event. -/
inductive Settled (source : StreamConsumer) (id subject : String) (event : EventEnvelope)
    (handler : MessageHandlerDef) (history : History RedisReply) : Prop
  | completed {count : Option Nat} {ticks : Nat} {payload : Option Json}
      (h : (processed source id subject event handler count ticks (.ok payload)).Sublist history)
  | rejected {count : Option Nat} {ticks : Nat} {error : HttpException}
      (h : (processed source id subject event handler count ticks (.error error)).Sublist history)
      (hClient : error.isClientError = true)
  | exhausted {count : Option Nat} {ticks : Nat} {error : HttpException}
      (h : (processed source id subject event handler count ticks (.error error)).Sublist history)
      (hServer : ¬ error.isClientError = true)
      (hAttempt : options.maxEventDeliveries ≤ (count.map deliveryAttempt).getD 1)
      (hStored : ∀ stream, options.deadLetterStream = some stream → ∃ failure stored,
        failure.subject = subject ∧ failure.event = event ∧
        ⟨.addDeadLetter stream failure, .ok stored⟩ ∈ history)

/-- Why a task may acknowledge its entry. -/
def Acknowledgeable (source : StreamConsumer) (entry : StreamEntry) (history : History RedisReply) :
    Prop :=
  Undeliverable options decode handlers entry ∨
    ∃ subject event handler, Matched options decode handlers entry subject event handler ∧
      Settled options source entry.id subject event handler history

end

variable {options : RedisTransportOptions} {decode : Bytes → Except String EventEnvelope}
  {handlers : List MessageHandlerDef} {source : StreamConsumer} {entry : StreamEntry}
  {id subject : String} {event : EventEnvelope} {handler : MessageHandlerDef}

theorem Settled.mono {history later : History RedisReply} (hPrefix : history <+: later)
    (h : Settled options source id subject event handler history) :
    Settled options source id subject event handler later := by
  cases h with
  | completed h => exact .completed (h.trans hPrefix.sublist)
  | rejected h hClient => exact .rejected (h.trans hPrefix.sublist) hClient
  | exhausted h hServer hAttempt hStored =>
    refine .exhausted (h.trans hPrefix.sublist) hServer hAttempt fun stream hStream => ?_
    obtain ⟨failure, stored, hSubject, hEvent, hMem⟩ := hStored stream hStream
    exact ⟨failure, stored, hSubject, hEvent, hPrefix.subset hMem⟩

theorem readEvent_none (h : readEvent options decode entry = none) :
    Undeliverable options decode handlers entry := by
  cases hSubject : entry.subject with
  | none => exact .inl hSubject
  | some subject =>
    cases hEnvelope : entry.envelope with
    | none => exact .inr (.inl hEnvelope)
    | some bytes =>
      refine .inr (.inr (.inl ⟨bytes, hEnvelope, ?_⟩))
      by_cases hSize : options.maxEventBytes < bytes.length
      · exact .inl hSize
      · right
        cases hDecode : decode bytes with
        | error e => exact .inl ⟨e, rfl⟩
        | ok event =>
          refine .inr ⟨event, rfl, ?_⟩
          simp only [readEvent, hSubject, hEnvelope, if_neg hSize, hDecode] at h
          by_contra hValid
          rw [not_or] at hValid
          rw [if_pos ⟨not_not.mp hValid.1, hValid.2⟩] at h
          cases h

theorem readEvent_subject (h : readEvent options decode entry = some (subject, event)) :
    entry.subject = some subject := by
  unfold readEvent at h
  split at h
  · rename_i hSubject _
    split_ifs at h
    split at h
    · split_ifs at h
      cases h
      exact hSubject
    · cases h
  · cases h

theorem findEventHandler_none (hSubject : entry.subject = some subject)
    (h : findEventHandler handlers subject = none) :
    Undeliverable options decode handlers entry := by
  refine .inr (.inr (.inr ⟨subject, hSubject, fun handler hHandler hMatches => ?_⟩))
  have hNone := List.find?_eq_none.mp h handler hHandler
  exact hNone (by simp [hMatches])

/-- An acknowledgement of `id` for a reason. -/
def AckFor (id : String) (reason : History RedisReply → Prop) (history : History RedisReply)
    (c : RedisCall) : Prop :=
  ∀ other, c = .ack other → other = id ∧ reason history

theorem guards_ack (id : String) (P : History RedisReply → RedisCall → Prop) :
    (ack id).run.Guards P ↔ P [] (.ack id) :=
  and_iff_left fun _ => trivial

theorem guards_pendingAttempt (id : String) (P : History RedisReply → RedisCall → Prop) :
    (pendingAttempt id).run.Guards P ↔ P [] (.pending id) := by
  refine and_iff_left fun reply => ?_
  cases reply <;> trivial

/-- A call that acknowledges nothing. -/
def NotAck (c : RedisCall) : Prop := ∀ id, c ≠ .ack id

theorem notAck_touchPending (id : String) : NotAck (.touchPending id) := nofun

/-- The handler loop acknowledges nothing. -/
theorem guards_runHandler (id : String) (handler : MessageHandlerDef) (context : MessageContext)
    (payload : Json) : (runHandler id handler context payload).run.Guards fun _ => NotAck := by
  have hTouch : (touchPending id).run.Guards fun _ => NotAck :=
    ⟨notAck_touchPending id, fun _ => trivial⟩
  refine Proc.guards_bind_calls ⟨nofun, fun _ => trivial⟩ fun ticks => ?_
  refine Proc.guards_bind_calls (Proc.guards_times hTouch ticks) fun _ => ?_
  exact ⟨nofun, fun _ => trivial⟩

/-- The calls up to the result are among those of a processing. -/
theorem HandlerRan.processed {count : Option Nat} {before : History RedisReply}
    {result : HandlerResult}
    (h : HandlerRan id handler (eventContext source subject event ((count.map deliveryAttempt).getD 1))
      event.payload before (.ok result)) :
    ∃ ticks, (processed source id subject event handler count ticks result).Sublist
      (⟨.pending id, .ok count⟩ :: before) := by
  obtain ⟨ticks, beats, -, ⟨x, rfl, hResult⟩ | ⟨e, -, -, hResult⟩⟩ := h
  · obtain rfl := Except.ok.inj hResult
    exact ⟨ticks, ((List.sublist_append_right beats _).cons_cons _).cons_cons _⟩
  · cases hResult

theorem completeEvent_guards {count : Option Nat} {ticks : Nat} {result : HandlerResult}
    {before : History RedisReply}
    (h : (Redis.processed source id subject event handler count ticks result).Sublist before) :
    (completeEvent options source id subject event ((count.map deliveryAttempt).getD 1) result).run.Guards
      fun later => AckFor id (Settled options source id subject event handler) (before ++ later) := by
  have hBefore := fun later => h.trans (List.sublist_append_left before later)
  cases result with
  | ok payload =>
    rw [completeEvent, guards_ack]
    rintro other ⟨⟩
    exact ⟨rfl, .completed (hBefore [])⟩
  | error error =>
    unfold completeEvent
    dsimp only
    by_cases hClient : error.isClientError = true
    · rw [if_pos hClient, guards_ack]
      rintro other ⟨⟩
      exact ⟨rfl, .rejected (hBefore []) hClient⟩
    · rw [if_neg hClient]
      by_cases hAttempt : options.maxEventDeliveries ≤ (count.map deliveryAttempt).getD 1
      · rw [if_pos hAttempt, deadLetterAndAck]
        cases hDeadLetter : options.deadLetterStream with
        | none =>
          dsimp only
          rw [guards_ack]
          rintro other ⟨⟩
          refine ⟨rfl, .exhausted (hBefore []) hClient hAttempt fun stream hStream => ?_⟩
          cases hDeadLetter.symm.trans hStream
        | some stream =>
          refine ⟨nofun, fun now => ⟨nofun, fun publication => ?_⟩⟩
          cases publication with
          | error e => trivial
          | ok stored =>
            refine ⟨?_, fun _ => trivial⟩
            rintro other ⟨⟩
            refine ⟨rfl, .exhausted (hBefore _) hClient hAttempt fun stream' hStream => ?_⟩
            obtain rfl := Option.some.inj (hDeadLetter.symm.trans hStream)
            exact ⟨_, stored, rfl, rfl, List.mem_append_right _ (List.mem_cons_of_mem _ List.mem_cons_self)⟩
      · rw [if_neg hAttempt]
        trivial

/-- A task acknowledges its own entry, and for a reason. -/
theorem processEventEntry_guards (options : RedisTransportOptions)
    (decode : Bytes → Except String EventEnvelope) (handlers : List MessageHandlerDef)
    (source : StreamConsumer) (entry : StreamEntry) :
    (processEventEntry options decode handlers source entry).run.Guards
      (AckFor entry.id (Acknowledgeable options decode handlers source entry)) := by
  unfold processEventEntry
  cases hRead : readEvent options decode entry with
  | none =>
    dsimp only
    rw [guards_ack]
    rintro other ⟨⟩
    exact ⟨rfl, .inl (readEvent_none hRead)⟩
  | some read =>
    obtain ⟨subject, event⟩ := read
    dsimp only
    cases hHandler : findEventHandler handlers subject with
    | none =>
      dsimp only
      rw [guards_ack]
      rintro other ⟨⟩
      exact ⟨rfl, .inl (findEventHandler_none (readEvent_subject hRead) hHandler)⟩
    | some handler =>
      dsimp only
      rw [Proc.guards_bind_except, guards_pendingAttempt, post_pendingAttempt]
      refine ⟨nofun, fun reply => ?_⟩
      cases reply with
      | error e => trivial
      | ok count =>
        dsimp only [orTransport, Except.mapError, Except.map]
        rw [Proc.guards_bind_except]
        constructor
        · refine Proc.guards_mono (guards_runHandler _ _ _ _) ?_
          intro history c hNotAck other hAck
          exact absurd hAck (hNotAck other)
        · refine Proc.post_mono (runHandler_post _ _ _ _) ?_
          intro before r hRan
          cases r with
          | error e => trivial
          | ok result =>
            obtain ⟨ticks, hProcessed⟩ := hRan.processed
            refine Proc.guards_mono (completeEvent_guards hProcessed) ?_
            intro later c hReason other hAck
            obtain ⟨hId, hSettled⟩ := hReason other hAck
            exact ⟨hId, .inr ⟨subject, event, handler, ⟨hRead, hHandler⟩, hSettled⟩⟩

/-! ## The replicas -/

/-- The task of an entry on the replica that has it. -/
def eventTask (options : RedisTransportOptions) (decode : Bytes → Except String EventEnvelope)
    (handlers : List MessageHandlerDef) (stream group : String) (task : EventTask) :
    Proc RedisCall RedisReply (Except MicroserviceError Unit) :=
  (processEventEntry options decode handlers ⟨stream, group, task.consumer⟩ task.entry).run

/-- The replicas of a service, in any interleaving of their steps. -/
abbrev Replicas (options : RedisTransportOptions) (decode : Bytes → Except String EventEnvelope)
    (handlers : List MessageHandlerDef) (stream group : String) :=
  Workers.State EventGroup (eventTask options decode handlers stream group)

/-- A dead letter whose reply came back is stored. -/
theorem stored_deadLetter {stream group : String} {s : Replicas options decode handlers stream group}
    (h : Workers.Reachable EventGroup.server (eventTask options decode handlers stream group) .empty s)
    {n : Nat} {w : Workers.Worker (eventTask options decode handlers stream group)}
    (hWorker : s.worker n = some w) {failure : DeadLetterEnvelope} {stored name : String}
    (hMem : ⟨.addDeadLetter name failure, .ok stored⟩ ∈ w.history) :
    (name, failure) ∈ s.server.deadLetters := by
  have hCalls := Workers.reachable_server EventGroup.deadLetter_executed (by nofun) h
  rcases Workers.reachable_answered h n w hWorker _ hMem with hFailure | hExecuted
  · obtain ⟨e, he⟩ := hFailure
    cases he
  · exact hCalls name failure (List.mem_map_of_mem hExecuted)

/-- In every state that replicas reach, an entry of the group that has been acknowledged
cannot be given to a handler, or a processing of it has settled its event; a dead letter
that settles an event is stored. -/
theorem event_acknowledged_only_if (options : RedisTransportOptions)
    (decode : Bytes → Except String EventEnvelope) (handlers : List MessageHandlerDef)
    (stream group : String) (s : Replicas options decode handlers stream group)
    (h : Workers.Reachable EventGroup.server (eventTask options decode handlers stream group) .empty s)
    (entry : StreamEntry) (hAck : s.server.Acknowledged entry) :
    Undeliverable options decode handlers entry ∨
    ∃ n w subject event handler, s.worker n = some w ∧ w.job.entry = entry ∧
      Matched options decode handlers entry subject event handler ∧
      Settled options ⟨stream, group, w.job.consumer⟩ entry.id subject event handler w.history ∧
      ∀ name failure stored, ⟨.addDeadLetter name failure, .ok stored⟩ ∈ w.history →
        (name, failure) ∈ s.server.deadLetters := by
  have hCall := Workers.reachable_server EventGroup.acknowledged_executed (by nofun) h entry hAck
  obtain ⟨⟨n, _⟩, hExecuted, rfl⟩ := List.mem_map.mp hCall
  have hGuards : ∀ task : EventTask, (eventTask options decode handlers stream group task).Guards
      (AckFor task.entry.id
        (Acknowledgeable options decode handlers ⟨stream, group, task.consumer⟩ task.entry)) :=
    fun task => processEventEntry_guards options decode handlers _ task.entry
  obtain ⟨w, before, hWorker, hBefore, hAckFor⟩ :=
    Workers.reachable_guarded hGuards h n _ (.inr hExecuted)
  obtain ⟨hId, hReason⟩ := hAckFor entry.id rfl
  have hTask := (Workers.reachable_jobs EventGroup.jobInvariant h).worker n w hWorker
  obtain rfl := EventGroup.eq_of_id (EventGroup.mem_entries hAck) hTask hId
  rcases hReason with hUndeliverable | ⟨subject, event, handler, hMatched, hSettled⟩
  · exact .inl hUndeliverable
  · refine .inr ⟨n, w, subject, event, handler, hWorker, rfl, hMatched, hSettled.mono hBefore, ?_⟩
    exact fun name failure stored hMem => stored_deadLetter h hWorker hMem

/-! ## A delivery -/

/-- A replica can read any event that has a handler and acknowledge it when the handler has
returned. -/
theorem exists_acknowledged (stream group : String)
    (h : Matched options decode handlers entry subject event handler) :
    ∃ s, Workers.Reachable EventGroup.server (eventTask options decode handlers stream group) .empty s ∧
      s.server.Acknowledged entry := by
  have hTask : eventTask options decode handlers stream group ⟨"replica", entry⟩ = (do
      let attempt ← pendingAttempt entry.id
      let result ← runHandler entry.id handler
        (eventContext ⟨stream, group, "replica"⟩ subject event attempt) event.payload
      completeEvent options ⟨stream, group, "replica"⟩ entry.id subject event attempt result :
        RedisTask Unit).run := by
    unfold eventTask processEventEntry
    rw [h.1]
    dsimp only
    rw [h.2]
  have hFresh : entry.id ∉ EventGroup.empty.entries.map (·.id) := List.not_mem_nil
  have hAppended : Workers.Reachable EventGroup.server
      (eventTask options decode handlers stream group) .empty
      { Workers.State.initial _ EventGroup.empty with server := EventGroup.empty.append entry hFresh } :=
    .tail .refl (.change ⟨entry, hFresh, rfl⟩)
  have hRead : EventGroup.Assign (EventGroup.empty.append entry hFresh) ⟨"replica", entry⟩ _ :=
    .read Nat.zero_lt_one rfl
  obtain ⟨s, w, hReach, hServer, ⟨hWorker, hJob, hRunning, hRest⟩, -⟩ :=
    Workers.exists_started hAppended hRead (n := 0) rfl
  rw [hTask] at hRest
  have hCount : (s.server.pending entry.id).map (·.timesDelivered) = some 1 := by
    rw [hServer]
    exact congrArg _ (Function.update_self ..)
  have hTaken : entry ∈ s.server.entries.take s.server.read := by
    rw [hServer]
    exact List.mem_cons_self
  have hPending : EventGroup.Execute s.server w.job (.pending entry.id) s.server (.ok (some 1)) :=
    ⟨rfl, congrArg _ hCount.symm⟩
  obtain ⟨t, v, hReach, hServer, hWorker, -, hRunning, hRest⟩ :=
    Workers.exists_call hReach hWorker hRunning hRest hPending
  rw [← hServer] at hTaken
  have hInvoke : EventGroup.Execute t.server v.job (.invoke handler
      (eventContext ⟨stream, group, "replica"⟩ subject event 1) event.payload) t.server 0 := rfl
  obtain ⟨t', v', hReach, hServer, hWorker, -, hRunning, hRest⟩ :=
    Workers.exists_call hReach hWorker hRunning hRest (r := (0 : Nat)) hInvoke
  rw [← hServer] at hTaken
  have hReturned : EventGroup.Execute t'.server v'.job .returned t'.server (.ok none) := rfl
  obtain ⟨t, v, hReach, hServer, hWorker, -, hRunning, hRest⟩ :=
    Workers.exists_call hReach hWorker hRunning hRest (r := (Except.ok none : HandlerResult)) hReturned
  rw [← hServer] at hTaken
  have hAck : EventGroup.Execute t.server v.job (.ack entry.id) (t.server.setPending entry.id none)
      (.ok ()) := ⟨rfl, rfl⟩
  obtain ⟨t', v', hReach, hServer, -⟩ := Workers.exists_call hReach hWorker hRunning hRest hAck
  refine ⟨t', hReach, ?_⟩
  rw [hServer]
  exact ⟨hTaken, Function.update_self ..⟩

def helloHandler : MessageHandlerDef := ⟨.event, "hello"⟩

def helloEntry : StreamEntry := ⟨"1-0", some "hello", some []⟩

def helloEvent : EventEnvelope where
  version := 1
  eventId := "e-1"
  headers := ∅
  payload := .null
  publishedAtUnixMillis := 5

def helloOptions : RedisTransportOptions where
  maxRequestBytes := 1024
  maxResponseBytes := 1024
  maxEventBytes := 1024
  maxEventDeliveries := 5
  deadLetterStream := none
  response_le := minimumResponseEnvelopeBytes_le
  deliveries_pos := redisDeliveries_pos

/-- An event whose handler has returned. -/
theorem event_acknowledged_only_if_hello : ∃ s : Replicas helloOptions (fun _ => .ok helloEvent)
      [helloHandler] "events" "billing",
    s.server.Acknowledged helloEntry ∧
    (Undeliverable helloOptions (fun _ => .ok helloEvent) [helloHandler] helloEntry ∨
    ∃ n w subject event handler, s.worker n = some w ∧ w.job.entry = helloEntry ∧
      Matched helloOptions (fun _ => .ok helloEvent) [helloHandler] helloEntry subject event handler ∧
      Settled helloOptions ⟨"events", "billing", w.job.consumer⟩ helloEntry.id subject event handler
        w.history ∧
      ∀ name failure stored, ⟨.addDeadLetter name failure, .ok stored⟩ ∈ w.history →
        (name, failure) ∈ s.server.deadLetters) := by
  have hMatched : Matched helloOptions (fun _ => .ok helloEvent) [helloHandler] helloEntry "hello"
      helloEvent helloHandler := ⟨rfl, by decide⟩
  obtain ⟨s, hReach, hAck⟩ := exists_acknowledged "events" "billing" hMatched
  exact ⟨s, hAck, event_acknowledged_only_if _ _ _ _ _ s hReach helloEntry hAck⟩

end Redis

end Caelix
