import Caelix.Core.Clock
import Caelix.Microservices.Redis
import Caelix.Microservices.SubjectSets

/-!
# The Redis client

`RedisClient::request_inner` and `RedisClient::emit` of `redis_transport.rs` as processes that
call Redis and the clock. The timeout around a request may stop it at any of its calls.
`serde_json` is a parameter, an `EnvelopeCodec`; `ReadsBack` says what is relied on of its texts.

* `requestInner_guards`: an entry that a request adds carries the request.
* `requestInner_post`: a result comes from a message on the channel of the request.
-/

namespace Caelix

open Interaction

namespace Json

mutual

/-- A value with the literal of every number replaced. -/
def mapNumbers (f : String → String) : Json → Json
  | null => null
  | bool value => bool value
  | number literal => number (f literal)
  | string value => string value
  | array items => array (mapItems f items)
  | object members => object (mapMembers f members)

def mapItems (f : String → String) : List Json → List Json
  | [] => []
  | item :: items => mapNumbers f item :: mapItems f items

def mapMembers (f : String → String) : List (String × Json) → List (String × Json)
  | [] => []
  | (name, value) :: members => (name, mapNumbers f value) :: mapMembers f members

end

mutual

/-- The literals of the numbers in a value. -/
def numbers : Json → List String
  | null | bool _ | string _ => []
  | number literal => [literal]
  | array items => itemNumbers items
  | object members => memberNumbers members

def itemNumbers : List Json → List String
  | [] => []
  | item :: items => numbers item ++ itemNumbers items

def memberNumbers : List (String × Json) → List String
  | [] => []
  | (_, value) :: members => numbers value ++ memberNumbers members

end

mutual

theorem mapNumbers_eq_self {f : String → String} :
    (value : Json) → (∀ literal ∈ value.numbers, f literal = literal) → value.mapNumbers f = value
  | null, _ | bool _, _ | string _, _ => rfl
  | number literal, h => congrArg number (h literal List.mem_cons_self)
  | array items, h => congrArg array (mapItems_eq_self items h)
  | object members, h => congrArg object (mapMembers_eq_self members h)

theorem mapItems_eq_self {f : String → String} :
    (items : List Json) → (∀ literal ∈ itemNumbers items, f literal = literal) →
      mapItems f items = items
  | [], _ => rfl
  | item :: items, h => by
    rw [mapItems, mapNumbers_eq_self item fun l hl => h l (List.mem_append_left _ hl),
      mapItems_eq_self items fun l hl => h l (List.mem_append_right _ hl)]

theorem mapMembers_eq_self {f : String → String} : (members : List (String × Json)) →
    (∀ literal ∈ memberNumbers members, f literal = literal) → mapMembers f members = members
  | [], _ => rfl
  | (name, value) :: members, h => by
    rw [mapMembers, mapNumbers_eq_self value fun l hl => h l (List.mem_append_left _ hl),
      mapMembers_eq_self members fun l hl => h l (List.mem_append_right _ hl)]

end

/-- The literals that are written for a `u64` or an `i64`. -/
def IsInteger (literal : String) : Prop :=
  (∃ n : UInt64, literal = toString n) ∨ ∃ n : Int64, literal = toString n

end Json

/-- A message on a channel: its size, and what `serde_json::from_slice` reads from it. -/
structure ReplyMessage where
  size : Nat
  response : Except String ResponseEnvelope

/-- `serde_json` on envelopes. A payload that is no `Value`, as with a repeated key, is an error. -/
structure EnvelopeCodec where
  encodeRequest : RequestEnvelope → Except String Bytes
  decodeRequest : Bytes → Except String RequestEnvelope
  encodeEvent : EventEnvelope → Except String Bytes
  decodeEvent : Bytes → Except String EventEnvelope
  /-- What is read from the text of a response. -/
  readBack : ResponseEnvelope → Except String ResponseEnvelope
  /-- The literal that is written for the number which a literal is read as. -/
  readNumber : String → String

/-- What is relied on of `serde_json`. It does not read every text that it writes: one that is
nested too deep is refused. What it reads is what was written, with the floats that it reads. -/
structure EnvelopeCodec.ReadsBack (codec : EnvelopeCodec) : Prop where
  integer : ∀ {literal}, Json.IsInteger literal → codec.readNumber literal = literal
  request : ∀ {request read bytes}, codec.encodeRequest request = .ok bytes →
    codec.decodeRequest bytes = .ok read →
      read = { request with payload := request.payload.mapNumbers codec.readNumber }
  event : ∀ {event read bytes}, codec.encodeEvent event = .ok bytes →
    codec.decodeEvent bytes = .ok read →
      read = { event with payload := event.payload.mapNumbers codec.readNumber }
  response : ∀ {envelope read payload}, codec.readBack envelope = .ok read →
    read.body = .success payload →
      ∃ sent, envelope.body = .success sent ∧ payload = sent.mapNumbers codec.readNumber

/-- A value as it is read from the text of another. -/
structure EnvelopeCodec.ReadAs (codec : EnvelopeCodec) (sent read : Json) : Prop where
  eq : read = sent.mapNumbers codec.readNumber
  exact : (∀ literal ∈ sent.numbers, Json.IsInteger literal) → read = sent

theorem EnvelopeCodec.ReadsBack.readAs {codec : EnvelopeCodec} (h : codec.ReadsBack) (sent : Json) :
    codec.ReadAs sent (sent.mapNumbers codec.readNumber) :=
  ⟨rfl, fun hIntegers => Json.mapNumbers_eq_self sent fun l hl => h.integer (hIntegers l hl)⟩

/-- The message that a reply is published as. -/
def EnvelopeCodec.message (codec : EnvelopeCodec) {maximum : Nat} (e : Encoded maximum) :
    ReplyMessage :=
  ⟨e.envelope.json.byteLength, codec.readBack e.envelope⟩

/-- The options that `RedisClient` reads. -/
structure RedisClientOptions where
  rpcTimeout : Duration
  maxRequestBytes : Nat
  maxResponseBytes : Nat
  maxEventBytes : Nat
  eventStream : String
  approximateMaxEventEntries : Option Nat

/-- `MicroserviceClientError`, as a client sees it. -/
inductive RequestError where
  | timeout
  | decode (message : String)
  | protocol (message : String)
  | transport (message : String)
  | remote (error : RemoteError)

inductive ClientCall where
  /-- `Uuid::new_v4`. -/
  | newUuid
  /-- A connection for a subscription. -/
  | connectPubsub
  | subscribe (channel : String)
  /-- The time since the start of the request. -/
  | elapsed
  | nowMillis
  /-- `XADD`, with a subject when it is an event. -/
  | add (stream : String) (trim : Option Nat) (subject : Option String) (envelope : Bytes)
  /-- The next message of a subscription; `none` when it has ended. -/
  | nextMessage (channel : String)

abbrev ClientReply : ClientCall → Type
  | .newUuid => String
  | .connectPubsub => Except String Unit
  | .subscribe _ => Except String Unit
  | .elapsed => Duration
  | .nowMillis => Nat
  | .add .. => Except String String
  | .nextMessage _ => Option (Except String ReplyMessage)

abbrev ClientTask := Routine ClientCall ClientReply RequestError

/-- The `stable_name` of a text is the start of its digest. -/
def commandStream (stableName : String → String) (subject : String) : String :=
  "caelix:commands:" ++ stableName subject

def replyChannel (correlationId : String) : String := "caelix:reply:" ++ correlationId

/-- `encode_limited`, from the text of the envelope. -/
def encodeWithin (text : Except String Bytes) (maximum : Nat) : Except String Bytes := do
  let bytes ← text
  if maximum < bytes.length then .error "envelope exceeds configured maximum" else .ok bytes

namespace RedisClient

/-- A call whose error ends the process. -/
def attempt {α : Type} (p : Proc ClientCall ClientReply (Except String α)) : ClientTask α :=
  ExceptT.mk do
    let reply ← p
    return reply.mapError .transport

def orDecode {α : Type} (r : Except String α) : ClientTask α :=
  ExceptT.mk (pure (r.mapError .decode))

def orProtocol {α : Type} (r : Except String α) : ClientTask α :=
  ExceptT.mk (pure (r.mapError .protocol))

/-- `checked_add` of a timeout in milliseconds. -/
def deadlineAt (now : Nat) (timeout : Duration) : Option Nat :=
  let deadline := now + timeout / 1000000 % 2 ^ 64
  if deadline < 2 ^ 64 then some deadline else none

/-- `deadline_millis`. -/
def deadlineMillis (timeout : Duration) : ClientTask (Option Nat) := do
  let now ← Proc.ask ClientCall.nowMillis
  return deadlineAt now timeout

/-- The request that a client sends. -/
def commandRequest (correlationId : String) (deadline : Option Nat) (payload : Json) :
    RequestEnvelope where
  version := protocolVersion
  correlationId := correlationId
  deadlineUnixMillis := deadline
  replyChannel := some (replyChannel correlationId)
  headers := ∅
  payload := payload

section

variable {R : Type} (options : RedisClientOptions) (codec : EnvelopeCodec)

/-- The end of `request_inner`, from the message on the reply channel. -/
def readResponse (fromValue : Json → Except String R) (correlationId : String)
    (message : ReplyMessage) : Except RequestError R :=
  if options.maxResponseBytes < message.size then
    .error (.protocol "response envelope exceeds configured maximum")
  else
    match message.response with
    | .error e => .error (.decode e)
    | .ok response =>
      if response.version ≠ protocolVersion then
        .error (.protocol "unsupported response protocol version")
      else if response.correlationId ≠ correlationId then
        .error (.protocol "response correlation ID does not match request")
      else
        match response.body with
        | .success payload => (fromValue payload).mapError .decode
        | .error e => .error (.remote e)

/-- The reply to a request. -/
def awaitResponse (fromValue : Json → Except String R) (correlationId : String) : ClientTask R := do
  match ← Proc.ask (ClientCall.nextMessage (replyChannel correlationId)) with
  | none => throw (.transport "Redis reply subscription ended")
  | some payload => do
    let message ← orDecode payload
    liftExcept (readResponse options fromValue correlationId message)

/-- `request_inner`. -/
def requestInner (stableName : String → String) (fromValue : Json → Except String R)
    (subject : String) (payload : Except String Json) : ClientTask R :=
  if !validNatsSubject subject then
    throw (.protocol "command subject must contain non-empty dot-separated tokens without wildcards")
  else do
    let correlationId ← Proc.ask ClientCall.newUuid
    attempt (Proc.perform ClientCall.connectPubsub)
    attempt (Proc.perform (ClientCall.subscribe (replyChannel correlationId)))
    let elapsed ← Proc.ask ClientCall.elapsed
    let deadline ← deadlineMillis (options.rpcTimeout - elapsed)
    let payload ← orDecode payload
    let bytes ← orProtocol (encodeWithin
      (codec.encodeRequest (commandRequest correlationId deadline payload)) options.maxRequestBytes)
    let _ ← attempt (Proc.perform (ClientCall.add (commandStream stableName subject) none none bytes))
    awaitResponse options fromValue correlationId

/-- `emit`. -/
def emit (subject : String) (payload : Except String Json) : ClientTask Unit :=
  if !validNatsSubject subject then
    throw (.protocol "event subject must contain non-empty dot-separated tokens without wildcards")
  else do
    let eventId ← Proc.ask ClientCall.newUuid
    let payload ← orDecode payload
    let now ← Proc.ask ClientCall.nowMillis
    let bytes ← orProtocol (encodeWithin
      (codec.encodeEvent ⟨protocolVersion, eventId, ∅, payload, now⟩) options.maxEventBytes)
    let _ ← attempt (Proc.perform (ClientCall.add options.eventStream
      options.approximateMaxEventEntries (some subject) bytes))
    return ()

end

/-! ## Steps of a process -/

section

variable {α β : Type} {p : Proc ClientCall ClientReply (Except String α)} {g : α → ClientTask β}
  {P : History ClientReply → ClientCall → Prop} {Q : History ClientReply → Except RequestError β → Prop}

theorem post_attempt {Q : History ClientReply → Except RequestError α → Prop} :
    (attempt p).run.Post Q ↔ p.Post fun history r => Q history (r.mapError .transport) := by
  have hBind : (attempt p).run.Post Q ↔
      p.Post fun history r => Q (history ++ []) (r.mapError .transport) := Proc.post_bind
  rw [hBind]
  simp only [List.append_nil]

theorem guards_attempt : (attempt p).run.Guards P ↔ p.Guards P := by
  have hBind : (attempt p).run.Guards P ↔ p.Guards P ∧ p.Post fun _ _ => True := Proc.guards_bind
  rw [hBind, and_iff_left (Proc.post_true p)]

theorem post_attempt_bind (h : p.Post fun history r =>
      match r with
      | .ok a => (g a).run.Post fun later b => Q (history ++ later) b
      | .error e => Q history (.error (.transport e))) : (attempt p >>= g).run.Post Q := by
  rw [Proc.post_bind_except, post_attempt]
  refine Proc.post_mono h ?_
  intro history r hNext
  cases r <;> exact hNext

theorem guards_attempt_bind (hCall : p.Guards P) (h : p.Post fun history r =>
      ∀ a, r = .ok a → (g a).run.Guards fun later => P (history ++ later)) :
    (attempt p >>= g).run.Guards P := by
  rw [Proc.guards_bind_except, guards_attempt, post_attempt]
  refine ⟨hCall, Proc.post_mono h ?_⟩
  intro history r hNext
  cases r with
  | ok a => exact hNext a rfl
  | error _ => trivial

theorem post_orDecode_bind {r : Except String α} (hOk : ∀ a, r = .ok a → (g a).run.Post Q)
    (hError : ∀ e, Q [] (.error (.decode e))) : (orDecode r >>= g).run.Post Q := by
  cases r with
  | ok a => exact hOk a rfl
  | error e => exact hError e

theorem guards_orDecode_bind {r : Except String α} (h : ∀ a, r = .ok a → (g a).run.Guards P) :
    (orDecode r >>= g).run.Guards P := by
  cases r with
  | ok a => exact h a rfl
  | error e => trivial

theorem post_orProtocol_bind {r : Except String α} (hOk : ∀ a, r = .ok a → (g a).run.Post Q)
    (hError : ∀ e, Q [] (.error (.protocol e))) : (orProtocol r >>= g).run.Post Q := by
  cases r with
  | ok a => exact hOk a rfl
  | error e => exact hError e

theorem guards_orProtocol_bind {r : Except String α} (h : ∀ a, r = .ok a → (g a).run.Guards P) :
    (orProtocol r >>= g).run.Guards P := by
  cases r with
  | ok a => exact h a rfl
  | error e => trivial

end

/-! ## Runs of a request -/

section

variable {R : Type} {options : RedisClientOptions} {codec : EnvelopeCodec}
  {stableName : String → String} {fromValue : Json → Except String R} {subject : String}
  {payload : Except String Json}

/-- The deadline that a client has computed from the time that is left for its request. -/
def OwnDeadline (timeout : Duration) (deadline : Option Nat) (history : History ClientReply) : Prop :=
  ∃ elapsed now, [⟨.elapsed, elapsed⟩, ⟨.nowMillis, now⟩].Sublist history ∧
    deadline = deadlineAt now (timeout - elapsed)

theorem OwnDeadline.mono {timeout : Duration} {deadline : Option Nat}
    {before history : History ClientReply} (h : OwnDeadline timeout deadline before)
    (hBefore : before <+: history) : OwnDeadline timeout deadline history := by
  obtain ⟨elapsed, now, hReadings, hDeadline⟩ := h
  exact ⟨elapsed, now, hReadings.trans hBefore.sublist, hDeadline⟩

/-- The text of a request whose correlation id has been drawn. -/
structure RequestText (options : RedisClientOptions) (codec : EnvelopeCodec)
    (payload : Except String Json) (request : RequestEnvelope) (bytes : Bytes)
    (history : History ClientReply) : Prop where
  drawn : ⟨.newUuid, request.correlationId⟩ ∈ history
  deadline : OwnDeadline options.rpcTimeout request.deadlineUnixMillis history
  payload : payload = .ok request.payload
  fields : request = commandRequest request.correlationId request.deadlineUnixMillis request.payload
  encoded : codec.encodeRequest request = .ok bytes

/-- What a request adds, and that it subscribes to its own channel. -/
def RequestGuard (options : RedisClientOptions) (codec : EnvelopeCodec)
    (stableName : String → String) (subject : String) (payload : Except String Json)
    (history : History ClientReply) : ClientCall → Prop
  | .add stream trim field bytes => stream = commandStream stableName subject ∧ trim = none ∧
      field = none ∧ ∃ request, RequestText options codec payload request bytes history
  | .subscribe channel => ∃ id, channel = replyChannel id ∧ ⟨.newUuid, id⟩ ∈ history
  | _ => True

theorem encodeWithin_ok {text : Except String Bytes} {maximum : Nat} {bytes : Bytes}
    (h : encodeWithin text maximum = .ok bytes) : text = .ok bytes ∧ bytes.length ≤ maximum := by
  unfold encodeWithin at h
  cases text with
  | error e => cases h
  | ok bytes' =>
    by_cases hSize : maximum < bytes'.length
    · rw [show (_ >>= _ : Except String Bytes) = _ from if_pos hSize] at h
      cases h
    · rw [show (_ >>= _ : Except String Bytes) = _ from if_neg hSize] at h
      cases h
      exact ⟨rfl, Nat.le_of_not_lt hSize⟩

theorem guards_awaitResponse {id : String} {P : History ClientReply → ClientCall → Prop}
    (h : P [] (.nextMessage (replyChannel id))) :
    (awaitResponse options fromValue id).run.Guards P := by
  unfold awaitResponse
  rw [Proc.guards_ask_bind]
  refine ⟨h, fun reply => ?_⟩
  cases reply with
  | none => trivial
  | some payload =>
    refine guards_orDecode_bind fun message _ => ?_
    cases readResponse options fromValue id message <;> trivial

theorem requestInner_guards :
    (requestInner options codec stableName fromValue subject payload).run.Guards
      (RequestGuard options codec stableName subject payload) := by
  unfold requestInner
  by_cases hSubject : (!validNatsSubject subject) = true
  · rw [if_pos hSubject]
    trivial
  · rw [if_neg hSubject, Proc.guards_ask_bind]
    refine ⟨trivial, fun id => guards_attempt_bind ((Proc.guards_perform _ _).mpr trivial) ?_⟩
    intro connected _ _
    refine guards_attempt_bind ((Proc.guards_perform _ _).mpr ⟨id, rfl, List.mem_cons_self⟩) ?_
    intro subscribed _ _
    rw [Proc.guards_ask_bind]
    refine ⟨trivial, fun elapsed => ?_⟩
    rw [Proc.guards_bind_except]
    refine ⟨⟨trivial, fun _ => trivial⟩, fun now => ?_⟩
    refine guards_orDecode_bind fun value hValue => guards_orProtocol_bind fun bytes hBytes => ?_
    refine guards_attempt_bind ((Proc.guards_perform _ _).mpr ⟨rfl, rfl, rfl,
      commandRequest id (deadlineAt now (options.rpcTimeout - elapsed)) value, ?_⟩) ?_
    · refine ⟨List.mem_cons_self, ⟨elapsed, now, ?_, rfl⟩, hValue, rfl, (encodeWithin_ok hBytes).1⟩
      -- the clock has been read last
      exact (((List.Sublist.refl _).cons _).cons _).cons _
    · exact fun added _ _ => guards_awaitResponse trivial

theorem awaitResponse_post {id : String} :
    (awaitResponse options fromValue id).run.Post fun history r => ∀ value, r = .ok value →
      ∃ message, ⟨.nextMessage (replyChannel id), some (.ok message)⟩ ∈ history ∧
        readResponse options fromValue id message = .ok value := by
  unfold awaitResponse
  rw [Proc.post_ask_bind]
  intro reply
  cases reply with
  | none => exact fun _ h => nomatch h
  | some payload =>
    refine post_orDecode_bind (fun message hMessage => ?_) fun _ _ h => nomatch h
    subst hMessage
    cases hRead : readResponse options fromValue id message with
    | error e => exact fun _ h => nomatch h
    | ok value =>
      rintro _ ⟨⟩
      exact ⟨message, List.mem_cons_self, hRead⟩

/-- A result is read from a message on the channel of the request. -/
theorem requestInner_post :
    (requestInner options codec stableName fromValue subject payload).run.Post fun history r =>
      ∀ value, r = .ok value → ∃ id message, ⟨.newUuid, id⟩ ∈ history ∧
        ⟨.nextMessage (replyChannel id), some (.ok message)⟩ ∈ history ∧
        readResponse options fromValue id message = .ok value := by
  unfold requestInner
  by_cases hSubject : (!validNatsSubject subject) = true
  · rw [if_pos hSubject]
    exact nofun
  · rw [if_neg hSubject, Proc.post_ask_bind]
    refine fun id => post_attempt_bind ((Proc.post_perform _ _).mpr fun connected => ?_)
    cases connected with
    | error e => exact nofun
    | ok _ =>
    refine post_attempt_bind ((Proc.post_perform _ _).mpr fun subscribed => ?_)
    cases subscribed with
    | error e => exact nofun
    | ok _ =>
    dsimp only
    rw [Proc.post_ask_bind]
    intro elapsed
    rw [Proc.post_bind_except]
    refine fun now => post_orDecode_bind (fun value hValue => ?_) fun e => nofun
    refine post_orProtocol_bind (fun bytes hBytes => ?_) fun e => nofun
    refine post_attempt_bind ((Proc.post_perform _ _).mpr fun added => ?_)
    cases added with
    | error e => exact nofun
    | ok _ =>
    refine Proc.post_mono awaitResponse_post ?_
    intro later r hAwait value hOk
    obtain ⟨message, hMessage, hRead⟩ := hAwait value hOk
    refine ⟨id, message, List.mem_cons_self, ?_, hRead⟩
    simp [hMessage]

end

end RedisClient

end Caelix
