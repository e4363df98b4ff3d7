import Caelix.Lib.Fallible
import Caelix.Lib.Framing
import Caelix.WebSocket.Actix

/-!
# The message stream of a connection on Actix

`MessageStream` of `actix_ws/stream.rs`. The codec of `actix_http` and the texts of its errors
are not part of the repository: they are a parameter.

* `validateRawCloseReason`: the check of a close reason before the codec.
* `MessageStream.pollNext`: reading what is there, and decoding it.
* `MessageStream.items`: what a stream yields until its end or its first error.
* `DecodesFrames`, `decodeNext_front`: the codec takes whole frames from the front of its
  buffer, and so does the loop around it.
* `items_eq_feed`: a stream yields what comes of the pieces its polls find.
-/

namespace Caelix

open Framing

/-! ## The codec -/

inductive Frame where
  | text (data : Bytes)
  | binary (data : Bytes)
  | continuation (item : Item)
  | ping (data : Bytes)
  | pong (data : Bytes)
  | close (reason : Option CloseReason)
  deriving DecidableEq, Repr

/-- What `actix_http` provides. -/
structure ActixHttp (σ : Type) where
  /-- `Codec::new`. -/
  newCodec : σ
  /-- `Codec::max_size`. -/
  maxSize : Nat → σ → σ
  /-- `Codec::decode`. -/
  decode : Decoder σ UInt8 Frame ProtocolError
  /-- The text of `ProtocolError::InvalidLength`. -/
  invalidLength : Nat → String
  /-- The text of a `ProtocolError::Io` for bytes that are not UTF-8. -/
  invalidUtf8 : Bytes → String
  /-- The text of a `ProtocolError::Io` for an error of the payload. -/
  payloadError : String → String

variable {σ : Type} (http : ActixHttp σ)

/-! ## Raw close reasons -/

def fromBeBytes (bytes : Bytes) : Nat := bytes.foldl (fun n byte => 256 * n + byte.toNat) 0

/-- The header of a frame: its length, that of the payload, and the mask. -/
structure RawHeader where
  headerLen : Nat
  payloadLen : Nat
  mask : Option Bytes
  deriving DecidableEq, Repr

namespace RawHeader

def frameLen (header : RawHeader) : Nat := header.headerLen + header.payloadLen

/-- A byte of the payload, without the mask. -/
def unmask (header : RawHeader) (index : Nat) (byte : UInt8) : UInt8 :=
  match header.mask with
  | none => byte
  | some mask => byte ^^^ mask.getD (index % 4) 0

end RawHeader

/-- The length of the header without the mask, and that of the payload. -/
def rawLengths (buf : Bytes) (second : UInt8) : Option (Nat × Nat) :=
  match (second &&& 0x7f).toNat with
  | 126 => if buf.length < 4 then none else some (4, fromBeBytes ((buf.drop 2).take 2))
  | 127 => if buf.length < 10 then none else some (10, fromBeBytes ((buf.drop 2).take 8))
  | length => some (2, length)

/-- The header of the frame at the front of a buffer, once it is complete. -/
def rawHeader (buf : Bytes) : Option RawHeader := do
  let second ← buf[1]?
  let (headerLen, payloadLen) ← rawLengths buf second
  if second &&& 0x80 = 0 then return ⟨headerLen, payloadLen, none⟩
  else if buf.length < headerLen + 4 then none
  else return ⟨headerLen + 4, payloadLen, some ((buf.drop headerLen).take 4)⟩

/-- The reason of a Close frame, without the mask. -/
def rawReason (buf : Bytes) (header : RawHeader) : Bytes :=
  let payload := (buf.drop header.headerLen).take header.payloadLen
  (payload.drop 2).mapIdx fun index byte => header.unmask (index + 2) byte

def validateRawCloseReason (buf : Bytes) : Except ProtocolError Unit :=
  if buf.length < 2 ∨ buf.headD 0 &&& 0x0f ≠ 0x08 then .ok ()
  else
    match rawHeader buf with
    | none => .ok ()
    | some header =>
      if buf.length < header.frameLen then .ok ()
      else if header.payloadLen = 1 then .error ⟨.other, http.invalidLength 1⟩
      else if header.payloadLen ≤ 2 then .ok ()
      else
        match String.fromUTF8? ⟨(rawReason buf header).toArray⟩ with
        | some _ => .ok ()
        | none => .error ⟨.invalidData, http.invalidUtf8 (rawReason buf header)⟩

/-! ## The stream -/

def toMessage : Frame → Except ProtocolError Message
  | .text data =>
    match String.fromUTF8? ⟨data.toArray⟩ with
    | some text => .ok (.text text)
    | none => .error ⟨.invalidData, http.invalidUtf8 data⟩
  | .binary data => .ok (.binary data)
  | .ping data => .ok (.ping data)
  | .pong data => .ok (.pong data)
  | .close reason => .ok (.close reason)
  | .continuation item => .ok (.continuation item)

/-- An iteration of the loop that creates messages. -/
def decodeNext : Decoder σ UInt8 Message ProtocolError := fun codec buf =>
  match validateRawCloseReason http buf with
  | .error e => (.error e, buf, codec)
  | .ok () =>
    match http.decode codec buf with
    | (.error e, buf, codec) => (.error e, buf, codec)
    | (.ok none, buf, codec) => (.ok none, buf, codec)
    | (.ok (some frame), buf, codec) => ((toMessage http frame).map some, buf, codec)

/-- What polling the payload gives; no more of it is its end. -/
inductive PayloadPoll where
  | chunk (bytes : Bytes)
  | failed (text : String)
  | pending
  deriving DecidableEq, Repr

inductive Poll (α : Type) where
  | ready (a : α)
  | pending
  deriving DecidableEq, Repr

structure MessageStream (σ : Type) where
  payload : List PayloadPoll
  /-- The polls until the response body is gone, if the stream is going to see that. -/
  connectionClosed : Option Nat
  messages : List Message
  buf : Bytes
  codec : σ
  closing : Bool
  deriving DecidableEq

/-- How reading stops, with the buffer and the payload then. -/
inductive Read where
  | pending (buf : Bytes) (payload : List PayloadPoll)
  | ended (buf : Bytes)
  | failed (text : String) (buf : Bytes) (payload : List PayloadPoll)
  deriving DecidableEq, Repr

/-- Reading until there is nothing left to read. -/
def readPayload (buf : Bytes) : List PayloadPoll → Read
  | [] => .ended buf
  | .pending :: payload => .pending buf payload
  | .failed text :: payload => .failed text buf payload
  | .chunk bytes :: payload => readPayload (buf ++ bytes) payload

namespace MessageStream

/-- A stream whose response body stays until the payload ends. -/
def new (payload : List PayloadPoll) : MessageStream σ where
  payload
  connectionClosed := none
  messages := []
  buf := []
  codec := http.newCodec
  closing := false

def maxFrameSize (maxSize : Nat) (s : MessageStream σ) : MessageStream σ :=
  { s with codec := http.maxSize maxSize s.codec }

/-- The response body may be gone. -/
def pollConnectionClosed (s : MessageStream σ) : MessageStream σ :=
  match s.connectionClosed with
  | none => s
  | some 0 => { s with closing := true, connectionClosed := none }
  | some (n + 1) => { s with connectionClosed := some n }

/-- Creating messages, and returning the first. -/
def decodeMessages (s : MessageStream σ) :
    Poll (Option (Except ProtocolError Message)) × MessageStream σ :=
  let d := decodeAll (decodeNext http) s.codec s.buf
  let s := { s with messages := d.messages, buf := d.buf, codec := d.state }
  match d.error with
  | some e => (.ready (some (.error e)), s)
  | none =>
    match s.messages with
    | m :: messages => (.ready (some (.ok m)), { s with messages })
    | [] => if s.closing then (.ready none, s) else (.pending, s)

def pollNext (s : MessageStream σ) :
    Poll (Option (Except ProtocolError Message)) × MessageStream σ :=
  match s.messages with
  | m :: messages => (.ready (some (.ok m)), { s with messages })
  | [] =>
    if s.closing then s.decodeMessages http
    else
      let s := s.pollConnectionClosed
      match readPayload s.buf s.payload with
      | .failed text buf payload =>
        (.ready (some (.error ⟨.other, http.payloadError text⟩)), { s with buf, payload, closing := true })
      | .ended buf => { s with buf, payload := [], closing := true }.decodeMessages http
      | .pending buf payload => { s with buf, payload }.decodeMessages http

/-- `recv`, again and again until the end of the stream or an error. -/
def recvUpTo : Nat → MessageStream σ → List (Except ProtocolError Message)
  | 0, _ => []
  | n + 1, s =>
    match s.pollNext http with
    | (.pending, s) => recvUpTo n s
    | (.ready none, _) => []
    | (.ready (some (.error e)), _) => [.error e]
    | (.ready (some (.ok m)), s) => .ok m :: recvUpTo n s

end MessageStream

def PayloadPoll.bytes : PayloadPoll → Bytes
  | chunk bytes => bytes
  | failed _ | pending => []

namespace MessageStream

/-- The polls that a stream can answer before its end. -/
def size (s : MessageStream σ) : Nat :=
  s.payload.length + (s.payload.flatMap PayloadPoll.bytes).length + s.buf.length +
    s.messages.length

/-- What a stream yields until its end or its first error. -/
def items (s : MessageStream σ) : List (Except ProtocolError Message) :=
  s.recvUpTo http (s.size + 2)

end MessageStream

/-! ## Whole frames -/

/-- The codec takes whole frames from the front of its buffer. -/
structure ActixHttp.DecodesFrames : Prop where
  waits : ∀ {codec buf buf' codec'}, http.decode codec buf = (.ok none, buf', codec') →
    buf' = buf ∧ codec' = codec
  frame : ∀ {codec buf frame rest codec'},
    http.decode codec buf = (.ok (some frame), rest, codec') →
    ∃ front header, buf = front ++ rest ∧ rawHeader front = some header ∧
      header.frameLen = front.length ∧
      ∀ more, http.decode codec (front ++ more) = (.ok (some frame), more, codec')
  refuses : ∀ {codec buf e}, Framing.Refuses http.decode codec buf e →
    ∀ more, Framing.Refuses http.decode codec (buf ++ more) e

variable {http} {buf : Bytes} {header : RawHeader}

theorem take_drop_append {start length : Nat} (h : start + length ≤ buf.length) (more : Bytes) :
    ((buf ++ more).drop start).take length = (buf.drop start).take length := by
  rw [List.drop_append_of_le_length (by omega),
    List.take_append_of_le_length (by rw [List.length_drop]; omega)]

theorem rawLengths_append {second : UInt8} {lengths : Nat × Nat}
    (h : rawLengths buf second = some lengths) (more : Bytes) :
    rawLengths (buf ++ more) second = some lengths := by
  unfold rawLengths at h ⊢
  split at h
  · split at h
    · cases h
    · rename_i hLength
      rw [take_drop_append (by omega), if_neg (by rw [List.length_append]; omega)]
      exact h
  · split at h
    · cases h
    · rename_i hLength
      rw [take_drop_append (by omega), if_neg (by rw [List.length_append]; omega)]
      exact h
  · exact h

theorem rawHeader_append (h : rawHeader buf = some header) (more : Bytes) :
    rawHeader (buf ++ more) = some header := by
  unfold rawHeader at h ⊢
  obtain ⟨second, hSecond, h⟩ := Option.bind_eq_some_iff.mp h
  obtain ⟨⟨headerLen, payloadLen⟩, hLengths, h⟩ := Option.bind_eq_some_iff.mp h
  have hSecond' : (buf ++ more)[1]? = some second := by
    obtain ⟨hLength, -⟩ := List.getElem?_eq_some_iff.mp hSecond
    rw [List.getElem?_append_left hLength, hSecond]
  rw [hSecond', Option.bind_eq_bind, Option.bind_some, rawLengths_append hLengths,
    Option.bind_eq_bind, Option.bind_some]
  dsimp only at h ⊢
  split at h
  · rw [if_pos (by assumption)]
    exact h
  · rw [if_neg (by assumption)]
    split at h
    · cases h
    · rename_i hLength
      rw [take_drop_append (by omega), if_neg (by rw [List.length_append]; omega)]
      exact h

theorem rawHeader_length (h : rawHeader buf = some header) : 2 ≤ buf.length := by
  obtain ⟨second, hSecond, -⟩ := Option.bind_eq_some_iff.mp h
  obtain ⟨hLength, -⟩ := List.getElem?_eq_some_iff.mp hSecond
  exact hLength

/-- Once a frame is there, the check depends on it alone. -/
theorem validateRawCloseReason_append (h : rawHeader buf = some header)
    (hWhole : header.frameLen ≤ buf.length) (more : Bytes) :
    validateRawCloseReason http (buf ++ more) = validateRawCloseReason http buf := by
  have hLength := rawHeader_length h
  have hHead : (buf ++ more).headD 0 = buf.headD 0 := by
    cases buf with
    | nil => cases h
    | cons first rest => rfl
  have hReason : rawReason (buf ++ more) header = rawReason buf header := by
    rw [rawReason, rawReason, take_drop_append hWhole]
  unfold validateRawCloseReason
  rw [hHead, rawHeader_append h, h, List.length_append]
  dsimp only
  rw [hReason, if_neg (by omega : ¬ buf.length + more.length < header.frameLen),
    if_neg (by omega : ¬ buf.length < header.frameLen)]
  have hShort : (buf.length + more.length < 2 ∨ buf.headD 0 &&& 0x0f ≠ 0x08) ↔
      (buf.length < 2 ∨ buf.headD 0 &&& 0x0f ≠ 0x08) := by
    constructor
    · exact fun h => h.imp_left fun h => by omega
    · exact fun h => h.imp_left fun h => by omega
  simp only [hShort]

/-- The check fails on a whole frame only. -/
theorem validateRawCloseReason_error {e : ProtocolError}
    (h : validateRawCloseReason http buf = .error e) :
    ∃ header, rawHeader buf = some header ∧ header.frameLen ≤ buf.length := by
  unfold validateRawCloseReason at h
  split at h
  · cases h
  · split at h
    · cases h
    · rename_i header hHeader
      split at h
      · cases h
      · exact ⟨header, hHeader, by omega⟩

/-! ## The loop that creates messages -/

theorem decodeNext_message {codec codec' : σ} {rest : Bytes} {message : Message} :
    decodeNext http codec buf = (.ok (some message), rest, codec') ↔
      validateRawCloseReason http buf = .ok () ∧ ∃ frame,
        http.decode codec buf = (.ok (some frame), rest, codec') ∧
        toMessage http frame = .ok message := by
  unfold decodeNext
  cases hValid : validateRawCloseReason http buf with
  | error e => simp
  | ok _ =>
    rcases hDecode : http.decode codec buf with ⟨result, left, state⟩
    match result with
    | .error e => simp
    | .ok none => simp
    | .ok (some frame) =>
      cases hMessage : toMessage http frame with
      | error e => simp [Except.map, hMessage]
      | ok m => simp [Except.map, hMessage, and_comm, and_left_comm]

theorem decodeNext_refuses {codec : σ} {e : ProtocolError} :
    Framing.Refuses (decodeNext http) codec buf e ↔ validateRawCloseReason http buf = .error e ∨
      validateRawCloseReason http buf = .ok () ∧ (Framing.Refuses http.decode codec buf e ∨
        ∃ frame rest codec', http.decode codec buf = (.ok (some frame), rest, codec') ∧
          toMessage http frame = .error e) := by
  unfold Framing.Refuses decodeNext
  cases hValid : validateRawCloseReason http buf with
  | error e => simp
  | ok _ =>
    rcases hDecode : http.decode codec buf with ⟨result, left, state⟩
    match result with
    | .error e => simp
    | .ok none => simp
    | .ok (some frame) =>
      cases hMessage : toMessage http frame with
      | error e => simp [Except.map, hMessage]
      | ok m => simp [Except.map, hMessage]

theorem decodeNext_front (hHttp : http.DecodesFrames) : FrontDecoder (decodeNext http) where
  waits := by
    intro codec buf buf' codec' h
    unfold decodeNext at h
    split at h
    · cases h
    · split at h
      · cases h
      · rename_i left state hDecode
        obtain ⟨-, rfl, rfl⟩ := Prod.mk.inj h |>.imp_right Prod.mk.inj
        exact hHttp.waits hDecode
      · rename_i frame left state hDecode
        obtain ⟨hMap, -⟩ := Prod.mk.inj h
        obtain ⟨m, -, hSome⟩ := Fallible.map_ok hMap
        cases hSome
  frame := by
    intro codec buf message rest codec' h
    obtain ⟨hValid, frame, hDecode, hMessage⟩ := decodeNext_message.mp h
    obtain ⟨front, header, rfl, hHeader, hLength, hFront⟩ := hHttp.frame hDecode
    refine ⟨front, ?_, rfl, ?_⟩
    · rintro rfl
      cases hHeader
    · intro more
      refine decodeNext_message.mpr ⟨?_, frame, hFront more, hMessage⟩
      rw [validateRawCloseReason_append hHeader (Nat.le_of_eq hLength)] at hValid ⊢
      exact hValid
  refuses := by
    intro codec buf e h more
    cases hValid : validateRawCloseReason http (buf ++ more) with
    | error e' => exact ⟨e', decodeNext_refuses.mpr (.inl hValid)⟩
    | ok _ =>
      refine ⟨e, decodeNext_refuses.mpr (.inr ⟨hValid, ?_⟩)⟩
      rcases decodeNext_refuses.mp h with hInvalid | ⟨-, hRefuses | ⟨frame, rest, codec', hDecode, hMessage⟩⟩
      · obtain ⟨header, hHeader, hWhole⟩ := validateRawCloseReason_error hInvalid
        rw [validateRawCloseReason_append hHeader hWhole, hInvalid] at hValid
        cases hValid
      · exact .inl (hHttp.refuses hRefuses more)
      · obtain ⟨front, header, rfl, -, -, hFront⟩ := hHttp.frame hDecode
        refine .inr ⟨frame, rest ++ more, codec', ?_, hMessage⟩
        rw [List.append_assoc]
        exact hFront (rest ++ more)

/-! ## The polls -/

/-- The bytes that each poll finds, the last at the end of the payload. -/
def pieces : List PayloadPoll → List Bytes
  | [] => [[]]
  | .chunk bytes :: payload =>
    match pieces payload with
    | [] => []
    | piece :: rest => (bytes ++ piece) :: rest
  | .pending :: payload => [] :: pieces payload
  | .failed _ :: _ => []

/-- A payload that cuts some bytes into chunks. -/
structure Cuts (payload : List PayloadPoll) (bytes : Bytes) : Prop where
  unbroken : ∀ text, .failed text ∉ payload
  bytes_eq : payload.flatMap PayloadPoll.bytes = bytes

theorem pieces_flatten {payload : List PayloadPoll} (h : ∀ text, .failed text ∉ payload) :
    pieces payload ≠ [] ∧ (pieces payload).flatten = payload.flatMap PayloadPoll.bytes := by
  induction payload with
  | nil => exact ⟨List.cons_ne_nil _ _, rfl⟩
  | cons poll payload ih =>
    obtain ⟨hNonempty, hFlatten⟩ := ih fun text hMem => h text (List.mem_cons_of_mem _ hMem)
    cases poll with
    | failed text => exact absurd List.mem_cons_self (h text)
    | pending => exact ⟨List.cons_ne_nil _ _, hFlatten⟩
    | chunk bytes =>
      obtain ⟨piece, rest, hPieces⟩ := List.exists_cons_of_ne_nil hNonempty
      rw [pieces, hPieces, List.flatMap_cons, ← hFlatten, hPieces]
      exact ⟨List.cons_ne_nil _ _, List.append_assoc _ _ _⟩

/-- Reading takes the first piece. -/
theorem readPayload_pieces {payload : List PayloadPoll} (h : ∀ text, .failed text ∉ payload)
    (buf : Bytes) :
    (∃ piece, readPayload buf payload = .ended (buf ++ piece) ∧ pieces payload = [piece] ∧
      piece = payload.flatMap PayloadPoll.bytes) ∨
    ∃ piece rest, readPayload buf payload = .pending (buf ++ piece) rest ∧
      pieces payload = piece :: pieces rest ∧ rest.length < payload.length ∧
      payload.flatMap PayloadPoll.bytes = piece ++ rest.flatMap PayloadPoll.bytes ∧
      ∀ text, .failed text ∉ rest := by
  induction payload generalizing buf with
  | nil => exact .inl ⟨[], by rw [List.append_nil]; rfl, rfl, rfl⟩
  | cons poll payload ih =>
    have hRest : ∀ text, .failed text ∉ payload := fun text hMem =>
      h text (List.mem_cons_of_mem _ hMem)
    cases poll with
    | failed text => exact absurd List.mem_cons_self (h text)
    | pending =>
      exact .inr ⟨[], payload, by rw [List.append_nil]; rfl, rfl, Nat.lt_succ_self _, rfl, hRest⟩
    | chunk bytes =>
      rw [readPayload, pieces]
      rcases ih hRest (buf ++ bytes) with ⟨piece, hRead, hPieces, rfl⟩ |
        ⟨piece, rest, hRead, hPieces, hLength, hBytes, hUnbroken⟩
      · refine .inl ⟨bytes ++ payload.flatMap PayloadPoll.bytes, ?_, by rw [hPieces], rfl⟩
        rw [hRead, List.append_assoc]
      · refine .inr ⟨bytes ++ piece, rest, ?_, by rw [hPieces], Nat.lt_succ_of_lt hLength, ?_, hUnbroken⟩
        · rw [hRead, List.append_assoc]
        · rw [List.flatMap_cons, hBytes, List.append_assoc]
          rfl

namespace MessageStream

/-- After the payload the queue is emptied. -/
theorem recvUpTo_closing (hHttp : http.DecodesFrames) {codec : σ}
    (hWaits : Waits (decodeNext http) codec buf) (payload : List PayloadPoll)
    (closed : Option Nat) {messages : List Message} {n : Nat} (hFuel : messages.length < n) :
    recvUpTo http n ⟨payload, closed, messages, buf, codec, true⟩ = messages.map .ok := by
  induction messages generalizing n with
  | nil =>
    obtain ⟨n, rfl⟩ := Nat.exists_eq_add_of_lt hFuel
    have hDecoded := decodeAll_waits (decodeNext_front hHttp) hWaits
    simp [recvUpTo, pollNext, decodeMessages, hDecoded]
  | cons m messages ih =>
    cases n with
    | zero => cases hFuel
    | succ n =>
      rw [recvUpTo, pollNext]
      exact congrArg _ (ih (Nat.lt_of_succ_lt_succ hFuel))

/-- A stream yields its queue and what comes of the pieces. -/
theorem recvUpTo_eq (hHttp : http.DecodesFrames) {payload : List PayloadPoll}
    (hUnbroken : ∀ text, .failed text ∉ payload) (messages : List Message) (buf : Bytes) (codec : σ)
    {n : Nat} (hFuel : payload.length + (payload.flatMap PayloadPoll.bytes).length + buf.length +
      messages.length + 1 < n) :
    recvUpTo http n ⟨payload, none, messages, buf, codec, false⟩ =
      messages.map .ok ++ feed (decodeNext http) codec buf (pieces payload) := by
  have hFront := decodeNext_front hHttp
  induction n generalizing payload messages buf codec with
  | zero => cases hFuel
  | succ n ih =>
    cases messages with
    | cons m messages =>
      rw [List.length_cons] at hFuel
      rw [recvUpTo, pollNext]
      exact congrArg _ (ih hUnbroken messages buf codec (by omega))
    | nil =>
      rw [List.length_nil] at hFuel
      rw [List.map_nil, List.nil_append]
      rcases readPayload_pieces hUnbroken buf with ⟨piece, hRead, hPieces, rfl⟩ |
        ⟨piece, rest, hRead, hPieces, hLength, hBytes, hUnbroken'⟩
      · have hEnded := decodeAll_ended hFront codec (buf ++ payload.flatMap PayloadPoll.bytes)
        rw [recvUpTo, pollNext, hPieces]
        simp only [pollConnectionClosed, hRead, decodeMessages, feed, Bool.false_eq_true, if_false]
        generalize decodeAll _ codec _ = d at hEnded ⊢
        cases hEnded with
        | refuses => rfl
        | @waits ms _ _ hDecodes hEnd =>
          have hDecoded := hDecodes.length_le hFront
          rw [List.length_append] at hDecoded
          cases ms with
          | nil => rfl
          | cons m ms =>
            rw [List.length_cons] at hDecoded
            have hFuel' : ms.length < n := by omega
            have hRest := recvUpTo_closing hHttp hEnd [] none hFuel'
            exact (congrArg _ hRest).trans (List.append_nil _).symm
      · have hEnded := decodeAll_ended hFront codec (buf ++ piece)
        rw [hBytes, List.length_append] at hFuel
        rw [recvUpTo, pollNext, hPieces]
        simp only [pollConnectionClosed, hRead, decodeMessages, feed, Bool.false_eq_true, if_false]
        generalize decodeAll _ codec _ = d at hEnded ⊢
        cases hEnded with
        | refuses => rfl
        | @waits ms _ left hDecodes hEnd =>
          have hDecoded := hDecodes.length_le hFront
          rw [List.length_append] at hDecoded
          cases ms with
          | nil =>
            rw [List.length_nil] at hDecoded
            exact ih hUnbroken' [] left _ (by rw [List.length_nil]; omega)
          | cons m ms =>
            rw [List.length_cons] at hDecoded
            exact congrArg _ (ih hUnbroken' ms left _ (by omega))

/-- A new stream yields what comes of the pieces of its payload. -/
theorem items_eq_feed (hHttp : http.DecodesFrames) {payload : List PayloadPoll} {bytes : Bytes}
    (hCuts : Cuts payload bytes) (maxSize : Nat) :
    ((new http payload).maxFrameSize http maxSize).items http =
      feed (decodeNext http) (http.maxSize maxSize http.newCodec) [] (pieces payload) :=
  recvUpTo_eq hHttp hCuts.unbroken [] [] _ (Nat.lt_succ_self _)

end MessageStream

end Caelix
