import Caelix.Microservices.EventDelivery
import Caelix.Microservices.RedisClient

/-!
# Events from a client to a handler

What `process_event_entry` reads from an entry of `emit` is the event, so an event that a
client has emitted is settled by a processing of this event, unless its text is one that
`serde_json` writes and refuses to read.

* `emit_guards`: the entry that `emit` adds carries the event.
* `emitted_event_settled`: an emitted event that can be read is not acknowledged before a
  handler has had it.
-/

namespace Caelix

open Interaction

namespace RedisClient

variable {options : RedisClientOptions} {codec : EnvelopeCodec} {subject : String}
  {payload : Except String Json}

/-- The event that a client has emitted. -/
structure EventText (options : RedisClientOptions) (codec : EnvelopeCodec)
    (payload : Except String Json) (event : EventEnvelope) (bytes : Bytes)
    (history : History ClientReply) : Prop where
  drawn : ⟨.newUuid, event.eventId⟩ ∈ history
  version : event.version = protocolVersion
  payload : payload = .ok event.payload
  encoded : codec.encodeEvent event = .ok bytes
  size_le : bytes.length ≤ options.maxEventBytes

/-- What `emit` adds. -/
def EmitGuard (options : RedisClientOptions) (codec : EnvelopeCodec) (subject : String)
    (payload : Except String Json) (history : History ClientReply) : ClientCall → Prop
  | .add stream trim field bytes => stream = options.eventStream ∧
      trim = options.approximateMaxEventEntries ∧ field = some subject ∧
      ∃ event, EventText options codec payload event bytes history
  | _ => True

theorem emit_guards :
    (emit options codec subject payload).run.Guards (EmitGuard options codec subject payload) := by
  unfold emit
  by_cases hSubject : (!validNatsSubject subject) = true
  · rw [if_pos hSubject]
    trivial
  · rw [if_neg hSubject, Proc.guards_ask_bind]
    refine ⟨trivial, fun id => guards_orDecode_bind fun value hValue => ?_⟩
    rw [Proc.guards_ask_bind]
    refine ⟨trivial, fun now => guards_orProtocol_bind fun bytes hBytes => ?_⟩
    obtain ⟨hEncoded, hSize⟩ := encodeWithin_ok hBytes
    refine guards_attempt_bind ((Proc.guards_perform _ _).mpr ⟨rfl, rfl, rfl,
      ⟨protocolVersion, id, ∅, value, now⟩, ?_⟩) ?_
    · exact ⟨List.mem_cons_self, rfl, hValue, hEncoded, hSize⟩
    · exact fun added _ _ => trivial

end RedisClient

namespace Redis

/-- What is read from the entry of an emitted event. -/
theorem readEvent_emitted {client : RedisClientOptions} {codec : EnvelopeCodec} {subject : String}
    {payload : Except String Json} {event read : EventEnvelope} {bytes : Bytes}
    {history : History ClientReply} {entry : StreamEntry} {options : RedisTransportOptions}
    (hCodec : codec.ReadsBack) (h : RedisClient.EventText client codec payload event bytes history)
    (hId : event.eventId ≠ "") (hSubject : entry.subject = some subject)
    (hEnvelope : entry.envelope = some bytes) (hSize : bytes.length ≤ options.maxEventBytes)
    (hDecode : codec.decodeEvent bytes = .ok read) :
    readEvent options codec.decodeEvent entry = some (subject,
      { event with payload := event.payload.mapNumbers codec.readNumber }) := by
  have hRead := hCodec.event h.encoded hDecode
  unfold readEvent
  rw [hSubject, hEnvelope]
  dsimp only
  rw [if_neg (Nat.not_lt_of_le hSize), hDecode, hRead]
  exact if_pos ⟨h.version, hId⟩

/-- An entry that can be read and has a handler can be delivered. -/
theorem not_undeliverable {options : RedisTransportOptions} {decode : Bytes → Except String EventEnvelope}
    {handlers : List MessageHandlerDef} {entry : StreamEntry} {subject : String} {event : EventEnvelope}
    (hRead : readEvent options decode entry = some (subject, event))
    (hHandled : ∃ handler ∈ handlers, handler.kind = .event ∧
      natsPatternMatches handler.pattern subject = true) :
    ¬ Undeliverable options decode handlers entry := by
  have hSubject := readEvent_subject hRead
  unfold readEvent at hRead
  rw [hSubject] at hRead
  rintro (hNone | hNone | ⟨bytes, hEnvelope, hUnread⟩ | ⟨other, hOther, hUnhandled⟩)
  · cases hNone.symm.trans hSubject
  · rw [hNone] at hRead
    cases hRead
  · rw [hEnvelope] at hRead
    dsimp only at hRead
    split_ifs at hRead with hSize
    rcases hUnread with hLarge | ⟨e, hError⟩ | ⟨event', hDecode, hInvalid⟩
    · exact hSize hLarge
    · rw [hError] at hRead
      cases hRead
    · rw [hDecode] at hRead
      dsimp only at hRead
      split_ifs at hRead with hValid
      exact hInvalid.elim (fun h => h hValid.1) fun h => hValid.2 h
  · obtain rfl := Option.some.inj (hSubject.symm.trans hOther)
    obtain ⟨handler, hHandler, hMatches⟩ := hHandled
    exact hUnhandled handler hHandler hMatches

/-- An event that a client has emitted is acknowledged only if its text cannot be read, or after
a processing has given it to a handler of its subject and has settled it. -/
theorem emitted_event_settled (client : RedisClientOptions) (codec : EnvelopeCodec)
    (hCodec : codec.ReadsBack) (subject : String)
    (payload : Except String Json) (history : History ClientReply)
    (result : Except RequestError Unit) (options : RedisTransportOptions)
    (handlers : List MessageHandlerDef) (stream group : String)
    (s : Replicas options codec.decodeEvent handlers stream group) (entry : StreamEntry)
    (trim : Option Nat) (bytes : Bytes)
    (hRun : Proc.Run (RedisClient.emit client codec subject payload).run history (.done result))
    (hAdded : ⟨.add stream trim entry.subject bytes, .ok entry.id⟩ ∈ history)
    (hEnvelope : entry.envelope = some bytes)
    (hIds : ∀ id, ⟨.newUuid, id⟩ ∈ history → id ≠ "")
    (hSize : bytes.length ≤ options.maxEventBytes)
    (hHandled : ∃ handler ∈ handlers, handler.kind = .event ∧
      natsPatternMatches handler.pattern subject = true)
    (hReachable : Workers.Reachable EventGroup.server
      (eventTask options codec.decodeEvent handlers stream group) .empty s)
    (hAck : s.server.Acknowledged entry) :
    (∃ e, codec.decodeEvent bytes = .error e) ∨
    ∃ n w event handler sent, s.worker n = some w ∧ w.job.entry = entry ∧
      findEventHandler handlers subject = some handler ∧ payload = .ok sent ∧
      codec.ReadAs sent event.payload ∧ ⟨.newUuid, event.eventId⟩ ∈ history ∧
      Settled options ⟨stream, group, w.job.consumer⟩ entry.id subject event handler w.history := by
  obtain ⟨before, later, rfl, -, -, hSubject, event, hEvent⟩ :=
    hRun.guards_mem RedisClient.emit_guards hAdded
  have hDrawn : ⟨.newUuid, event.eventId⟩ ∈ before ++ later := List.mem_append_left _ hEvent.drawn
  cases hDecode : codec.decodeEvent bytes with
  | error e => exact .inl ⟨e, rfl⟩
  | ok read =>
    have hRead := readEvent_emitted hCodec hEvent (hIds _ hDrawn) hSubject hEnvelope hSize hDecode
    rcases event_acknowledged_only_if options codec.decodeEvent handlers stream group s hReachable entry
      hAck with hUndeliverable | ⟨n, w, subject', event', handler, hWorker, hJob, ⟨hRead', hHandler⟩,
        hSettled, -⟩
    · exact absurd hUndeliverable (not_undeliverable hRead hHandled)
    · cases hRead.symm.trans hRead'
      exact .inr ⟨n, w, { event with payload := event.payload.mapNumbers codec.readNumber }, handler,
        event.payload, hWorker, hJob, hHandler, hEvent.payload, hCodec.readAs event.payload, hDrawn,
        hSettled⟩

/-! ## An event -/

def paidId : String := "9c5e2a7d-41b8-4f63-8e0a-b6d7c1f29e34"

def paidEvent : EventEnvelope := ⟨protocolVersion, paidId, ∅, .null, 5⟩

/-- The text of the event, which has ASCII characters only. -/
@[irreducible]
def paidText : Bytes :=
  ("\x7b\"version\":1,\"event_id\":\"" ++ paidId ++ "\",\"headers\":\x7b\x7d,\"payload\":null," ++
    "\"published_at_unix_millis\":5\x7d").toList.map fun c => UInt8.ofNat c.toNat

theorem paidText_length : paidText.length ≤ 1024 := by
  unfold paidText
  rewrite [List.length_map]
  decide +kernel

def readPaid (bytes : Bytes) : Except String EventEnvelope :=
  if bytes = paidText then .ok paidEvent else .error "expected value"

theorem readPaid_text : readPaid paidText = .ok paidEvent := by
  rw [readPaid, if_pos rfl]

/-- A codec for this event only. -/
def paidCodec : EnvelopeCodec where
  encodeRequest _ := .error "unsupported"
  decodeRequest _ := .error "expected value"
  encodeEvent
    | ⟨1, id, headers, .null, 5⟩ =>
      if id = paidId ∧ headers.entries.isEmpty then .ok paidText else .error "unsupported"
    | _ => .error "unsupported"
  decodeEvent := readPaid
  readBack := .ok
  readNumber := id

theorem paidCodec_readsBack : paidCodec.ReadsBack where
  integer _ := rfl
  request := by
    intro request read bytes h
    cases h
  event := by
    intro event read bytes h hRead
    unfold paidCodec at h
    dsimp only at h
    split at h
    · rename_i id headers
      split_ifs at h with hSame
      obtain ⟨rfl, hEmpty⟩ := hSame
      obtain rfl : headers = ∅ := AList.ext (List.isEmpty_iff.mp hEmpty)
      cases h
      exact Except.ok.inj (hRead.symm.trans readPaid_text)
    · cases h
  response := by
    intro envelope read payload hRead hBody
    cases hRead
    exact ⟨payload, hBody, (Json.mapNumbers_eq_self payload fun _ _ => rfl).symm⟩

def paidEntry : StreamEntry := ⟨"1-0", some "hello", some paidText⟩

def paidClient : RedisClientOptions := ⟨Duration.fromSecs 5, 1024, 1024, 1024, "events", none⟩

def paidHistory : History ClientReply :=
  [⟨.newUuid, paidId⟩, ⟨.nowMillis, (5 : Nat)⟩, ⟨.add "events" none (some "hello") paidText, .ok "1-0"⟩]

theorem paid_run : Proc.Run (RedisClient.emit paidClient paidCodec "hello" (.ok .null)).run paidHistory
    (.done (.ok ())) := by
  have hSubject : ¬ (!validNatsSubject "hello") = true := by decide +kernel
  have hText : encodeWithin (paidCodec.encodeEvent paidEvent) 1024 = .ok paidText := by
    have hEncoded : paidCodec.encodeEvent paidEvent = .ok paidText := by
      simp [paidCodec, paidEvent, protocolVersion]
    rw [hEncoded]
    exact if_neg (Nat.not_lt_of_le paidText_length)
  unfold RedisClient.emit
  rw [if_neg hSubject]
  refine .cons (.cons ?_)
  show Proc.Run (do
    let bytes ← RedisClient.orProtocol (encodeWithin (paidCodec.encodeEvent paidEvent) 1024)
    let _ ← RedisClient.attempt (Proc.perform (ClientCall.add "events" none (some "hello") bytes))
    return () : ClientTask Unit).run _ _
  rw [hText]
  exact .cons (.nil _)

/-- A handler has had the event that a client has emitted. -/
theorem emitted_event_settled_hello :
    ∃ s : Replicas helloOptions readPaid [helloHandler] "events" "billing",
    s.server.Acknowledged paidEntry ∧
    ∃ n w event handler sent, s.worker n = some w ∧ w.job.entry = paidEntry ∧
      findEventHandler [helloHandler] "hello" = some handler ∧
      (.ok .null : Except String Json) = .ok sent ∧
      paidCodec.ReadAs sent event.payload ∧ ⟨.newUuid, event.eventId⟩ ∈ paidHistory ∧
      Settled helloOptions ⟨"events", "billing", w.job.consumer⟩ paidEntry.id "hello" event handler
        w.history := by
  have hRead : readEvent helloOptions readPaid paidEntry = some ("hello", paidEvent) := by
    have hSize : ¬ helloOptions.maxEventBytes < paidText.length := Nat.not_lt_of_le paidText_length
    unfold readEvent
    dsimp only [paidEntry]
    rw [if_neg hSize, readPaid_text]
    exact if_pos ⟨rfl, by decide⟩
  obtain ⟨s, hReach, hAck⟩ := exists_acknowledged "events" "billing"
    (⟨hRead, by decide⟩ :
      Matched helloOptions readPaid [helloHandler] paidEntry "hello" paidEvent helloHandler)
  have hSettled := emitted_event_settled paidClient paidCodec paidCodec_readsBack "hello" (.ok .null)
    paidHistory (.ok ()) helloOptions [helloHandler] "events" "billing" s paidEntry none paidText paid_run
    (by simp [paidHistory, paidEntry]) rfl ?_ paidText_length ?_ hReach hAck
  · refine ⟨s, hAck, hSettled.resolve_left ?_⟩
    rintro ⟨e, hError⟩
    cases readPaid_text.symm.trans hError
  · intro id hId
    have hPaid : id = paidId := by simpa [paidHistory] using hId
    rw [hPaid]
    decide
  · exact ⟨helloHandler, List.mem_singleton_self _, rfl, by decide⟩

end Redis

end Caelix
