import Caelix.Core.Throttle
import Caelix.Lib.Checked
import Caelix.WebSocket.Stream

/-!
# The inspection of raw Close frames

`validate_raw_close_reason` of `actix_ws/stream.rs`, with the operations that may panic on a
platform whose words have 64 bits.

* `BytesMut.validateRawCloseReason`: the body, which indexes, slices and adds.
* `validateRawCloseReason_run`: it never panics, and returns what `validateRawCloseReason` does.
* `RawFrame`: a frame on the wire, with any encoding of its length.
* `rawHeader_toBytes`, `exists_rawFrame`: headers are read from exactly these frames.
* `raw_close_inspection`: what the inspection finds, for every buffer.
-/

namespace Caelix

open Checked

/-- A buffer: no allocation exceeds `isize::MAX` bytes. -/
structure BytesMut where
  bytes : Bytes
  length_lt : bytes.length < 2 ^ 63

variable {σ : Type} (http : ActixHttp σ)

/-! ## The code -/

/-- A part of the body of `validate_raw_close_reason`. -/
abbrev CloseInspection := Body (Except ProtocolError Unit)

/-- `usize::try_from` of a `u64`. -/
def usizeTryFrom (n : Nat) : Option Nat := if n < 2 ^ 64 then some n else none

namespace BytesMut

/-- `header_len` and `payload_len`, before the mask. -/
def payloadLen (overflow : ProtocolError) (buf : BytesMut) : CloseInspection (Nat × Nat) := do
  let second ← index buf.bytes 1
  match (second &&& 0x7f).toNat with
  | 126 =>
    returnIf (buf.bytes.length < 4) (.ok ())
    let high ← index buf.bytes 2
    let low ← index buf.bytes 3
    return (4, fromBeBytes [high, low])
  | 127 =>
    returnIf (buf.bytes.length < 10) (.ok ())
    let length := fromBeBytes (← chunk 8 (← slice buf.bytes 2 10))
    match usizeTryFrom length with
    | some length => return (10, length)
    | none => throw (.returns (.error overflow))
  | length => if length ≤ 125 then return (2, length) else panicked .unreachable

/-- `mask`, and `header_len` with it. -/
def maskKey (buf : BytesMut) (headerLen : Nat) : CloseInspection (Nat × Option Bytes) := do
  let masked := (← index buf.bytes 1) &&& 0x80 ≠ 0
  if masked then
    let stop ← add 64 headerLen 4
    returnIf (buf.bytes.length < stop) (.ok ())
    let mask ← chunk 4 (← slice buf.bytes headerLen stop)
    return (stop, some mask)
  else
    return (headerLen, none)

/-- A byte of the reason, without the mask. -/
def reasonByte (mask : Option Bytes) : UInt8 × Nat → CloseInspection UInt8
  | (byte, i) =>
    match mask with
    | none => return byte
    | some mask => do
      let shifted ← add 64 i 2
      return byte ^^^ (← index mask (shifted % 4))

/-- The part of the body after the header is read. -/
def inspectPayload (buf : BytesMut) (headerLen payloadLen : Nat) (mask : Option Bytes) :
    CloseInspection (Except ProtocolError Unit) := do
  returnIf (buf.bytes.length < saturatingAdd headerLen payloadLen) (.ok ())
  returnIf (payloadLen = 1) (.error ⟨.other, http.invalidLength 1⟩)
  returnIf (payloadLen ≤ 2) (.ok ())
  let payload ← slice buf.bytes headerLen (← add 64 headerLen payloadLen)
  let reason ← (← slice payload 2 payload.length).zipIdx.mapM (reasonByte mask)
  match String.fromUTF8? ⟨reason.toArray⟩ with
  | some _ => return .ok ()
  | none => return .error ⟨.invalidData, http.invalidUtf8 reason⟩

def validateRawCloseReason (overflow : ProtocolError) (buf : BytesMut) :
    Except Panic (Except ProtocolError Unit) :=
  run do
    returnIf (buf.bytes.length < 2) (.ok ())
    returnIf ((← index buf.bytes 0) &&& 0x0f ≠ 0x08) (.ok ())
    let (headerLen, payloadLen) ← buf.payloadLen overflow
    let (headerLen, mask) ← buf.maskKey headerLen
    buf.inspectPayload http headerLen payloadLen mask

end BytesMut

/-! ## It never panics -/

theorem fromBeBytes_lt (bytes : Bytes) : fromBeBytes bytes < 256 ^ bytes.length := by
  have hFold : ∀ (bytes : Bytes) (n : Nat),
      bytes.foldl (fun n byte => 256 * n + byte.toNat) n < (n + 1) * 256 ^ bytes.length := by
    intro bytes
    induction bytes with
    | nil =>
      intro n
      simp
    | cons byte bytes ih =>
      intro n
      have hByte : byte.toNat < 256 := UInt8.toNat_lt byte
      calc
        _ < (256 * n + byte.toNat + 1) * 256 ^ bytes.length := ih _
        _ ≤ ((n + 1) * 256) * 256 ^ bytes.length := Nat.mul_le_mul_right _ (by omega)
        _ = (n + 1) * 256 ^ (byte :: bytes).length := by
          rw [List.length_cons, Nat.pow_succ, Nat.mul_assoc, Nat.mul_comm 256]
  simpa [fromBeBytes] using hFold bytes 0

variable {http} {buf : BytesMut}

theorem payloadLen_eq (overflow : ProtocolError) (h : 1 < buf.bytes.length) :
    buf.payloadLen overflow = orReturn (.ok ()) (rawLengths buf.bytes buf.bytes[1]) := by
  have hLow : (buf.bytes[1] &&& 0x7f).toNat ≤ 127 := by
    rw [UInt8.toNat_and]
    exact Nat.and_le_right
  rw [BytesMut.payloadLen, index_ok h, ok_bind, rawLengths]
  generalize (buf.bytes[1] &&& 0x7f).toNat = length at hLow
  split
  · by_cases hShort : buf.bytes.length < 4
    · rw [returnIf_pos hShort]
      simp only [if_pos hShort]
      rfl
    · have hBytes : (buf.bytes.drop 2).take 2 = [buf.bytes[2], buf.bytes[3]] := by
        rw [List.drop_eq_getElem_cons (by omega), List.drop_eq_getElem_cons (by omega)]
        rfl
      rw [returnIf_neg hShort, index_ok (by omega), ok_bind, index_ok (by omega), ok_bind]
      simp only [if_neg hShort, hBytes]
      rfl
  · by_cases hShort : buf.bytes.length < 10
    · rw [returnIf_pos hShort]
      simp only [if_pos hShort]
      rfl
    · have hChunk : ((buf.bytes.drop 2).take 8).length = 8 := by
        rw [List.length_take, List.length_drop]
        omega
      have hFits : usizeTryFrom (fromBeBytes ((buf.bytes.drop 2).take 8)) =
          some (fromBeBytes ((buf.bytes.drop 2).take 8)) := by
        have hLt := fromBeBytes_lt ((buf.bytes.drop 2).take 8)
        rw [hChunk] at hLt
        exact if_pos (by omega)
      rw [returnIf_neg hShort, slice_ok (by omega) (by omega), ok_bind, chunk_ok hChunk, ok_bind]
      simp only [if_neg hShort, hFits]
      rfl
  · rename_i h126 h127
    have hLength : length ≤ 125 := by
      have h126 : length ≠ 126 := h126
      have h127 : length ≠ 127 := h127
      omega
    simp only [if_pos hLength]
    rfl

/-- The mask and the length of the header with it, for a length of the header without it. -/
def rawMask (buf : Bytes) (second : UInt8) (headerLen : Nat) : Option (Nat × Option Bytes) :=
  if second &&& 0x80 = 0 then some (headerLen, none)
  else if buf.length < headerLen + 4 then none
  else some (headerLen + 4, some ((buf.drop headerLen).take 4))

theorem rawHeader_eq {buf : Bytes} (h : 1 < buf.length) :
    rawHeader buf = (rawLengths buf buf[1]).bind fun lengths =>
      (rawMask buf buf[1] lengths.1).map fun mask => ⟨mask.1, lengths.2, mask.2⟩ := by
  rw [rawHeader, List.getElem?_eq_getElem h, Option.bind_eq_bind, Option.bind_some]
  apply congrArg (Option.bind (rawLengths buf buf[1]))
  funext lengths
  obtain ⟨headerLen, payloadLen⟩ := lengths
  dsimp only [rawMask]
  by_cases hMasked : buf[1] &&& 0x80 = 0
  · rw [if_pos hMasked, if_pos hMasked]
    rfl
  · rw [if_neg hMasked, if_neg hMasked]
    by_cases hShort : buf.length < headerLen + 4
    · rw [if_pos hShort, if_pos hShort]
      rfl
    · rw [if_neg hShort, if_neg hShort]
      rfl

theorem rawLengths_le {buf : Bytes} {second : UInt8} {lengths : Nat × Nat}
    (h : rawLengths buf second = some lengths) : lengths.1 ≤ 10 := by
  unfold rawLengths at h
  split at h
  · split at h
    · cases h
    · cases h
      exact (by decide : 4 ≤ 10)
  · split at h
    · cases h
    · cases h
      exact Nat.le_refl 10
  · cases h
    exact (by decide : 2 ≤ 10)

theorem maskKey_eq {headerLen : Nat} (h : 1 < buf.bytes.length) (hHeader : headerLen ≤ 10) :
    buf.maskKey headerLen = orReturn (.ok ()) (rawMask buf.bytes buf.bytes[1] headerLen) := by
  rw [BytesMut.maskKey, index_ok h, ok_bind, rawMask]
  by_cases hMasked : buf.bytes[1] &&& 0x80 = 0
  · simp only [hMasked, ne_eq, not_true_eq_false, if_false, if_true]
    rfl
  · simp only [hMasked, ne_eq, not_false_eq_true, if_false, if_true]
    rw [add_ok (by omega), ok_bind]
    by_cases hShort : buf.bytes.length < headerLen + 4
    · rw [returnIf_pos hShort, if_pos hShort]
      rfl
    · have hChunk : ((buf.bytes.drop headerLen).take (headerLen + 4 - headerLen)).length = 4 := by
        rw [List.length_take, List.length_drop]
        omega
      rw [returnIf_neg hShort, if_neg hShort, slice_ok (by omega) (by omega), ok_bind,
        chunk_ok hChunk, ok_bind, Nat.add_sub_cancel_left]
      rfl

theorem rawMask_length {buf : Bytes} {second : UInt8} {headerLen : Nat} {mask : Bytes}
    {masked : Nat × Option Bytes} (h : rawMask buf second headerLen = some masked)
    (hMask : masked.2 = some mask) : mask.length = 4 := by
  unfold rawMask at h
  split at h
  · cases h
    cases hMask
  · split at h
    · cases h
    · cases h
      cases hMask
      rw [List.length_take, List.length_drop]
      omega

theorem reasonByte_eq {header : RawHeader}
    (hMask : ∀ mask, header.mask = some mask → mask.length = 4) (byte : UInt8) {i : Nat} (hIndex : i < 2 ^ 63) :
    BytesMut.reasonByte header.mask (byte, i) = .ok (header.unmask (i + 2) byte) := by
  unfold BytesMut.reasonByte RawHeader.unmask
  cases hKey : header.mask with
  | none => rfl
  | some mask =>
    have hLength := hMask mask hKey
    have hMod : (i + 2) % 4 < 4 := Nat.mod_lt _ (by decide)
    dsimp only
    have hGet : mask.getD ((i + 2) % 4) 0 = mask[(i + 2) % 4] := by
      rw [List.getD_eq_getElem?_getD, List.getElem?_eq_getElem, Option.getD_some]
    rw [add_ok (by omega), ok_bind, index_ok (by omega), ok_bind, hGet]
    rfl

/-- The bytes of the reason, in a loop. -/
theorem reason_eq {header : RawHeader} (hMask : ∀ mask, header.mask = some mask → mask.length = 4) :
    ((((buf.bytes.drop header.headerLen).take header.payloadLen).drop 2).zipIdx.mapM
      (BytesMut.reasonByte header.mask)) = .ok (rawReason buf.bytes header) := by
  rw [rawReason, List.mapIdx_eq_zipIdx_map]
  apply mapM_eq_ok
  rintro ⟨byte, i⟩ hMem
  have hLength := buf.length_lt
  have hIndex : i < (((buf.bytes.drop header.headerLen).take header.payloadLen).drop 2).length := by
    simpa using (List.mem_zipIdx hMem).2.1
  rw [List.length_drop, List.length_take, List.length_drop] at hIndex
  exact reasonByte_eq hMask byte (by omega)

theorem lt_saturatingAdd_iff {n a b : Nat} (h : n < 2 ^ 63) :
    n < saturatingAdd a b ↔ n < a + b := by
  unfold saturatingAdd u64Max
  omega

/-- What is found once the header is there. -/
theorem inspectPayload_run (header : RawHeader)
    (hMask : ∀ mask, header.mask = some mask → mask.length = 4) :
    run (buf.inspectPayload http header.headerLen header.payloadLen header.mask) =
      .ok (if buf.bytes.length < header.frameLen then .ok ()
        else if header.payloadLen = 1 then .error ⟨.other, http.invalidLength 1⟩
        else if header.payloadLen ≤ 2 then .ok ()
        else
          match String.fromUTF8? ⟨(rawReason buf.bytes header).toArray⟩ with
          | some _ => .ok ()
          | none => .error ⟨.invalidData, http.invalidUtf8 (rawReason buf.bytes header)⟩) := by
  have hLength := buf.length_lt
  have hFrame : header.frameLen = header.headerLen + header.payloadLen := rfl
  rw [BytesMut.inspectPayload, run_returnIf_bind]
  by_cases hWhole : buf.bytes.length < header.frameLen
  · rw [if_pos ((lt_saturatingAdd_iff hLength).mpr hWhole), if_pos hWhole]
  rw [if_neg (fun h => hWhole ((lt_saturatingAdd_iff hLength).mp h)), if_neg hWhole,
    run_returnIf_bind]
  by_cases hOne : header.payloadLen = 1
  · rw [if_pos hOne, if_pos hOne]
  rw [if_neg hOne, if_neg hOne, run_returnIf_bind]
  by_cases hTwo : header.payloadLen ≤ 2
  · rw [if_pos hTwo, if_pos hTwo]
  have hPayload : ((buf.bytes.drop header.headerLen).take header.payloadLen).length =
      header.payloadLen := by
    rw [List.length_take, List.length_drop]
    omega
  have hAll : (((buf.bytes.drop header.headerLen).take header.payloadLen).drop 2).take
      (header.payloadLen - 2) =
        ((buf.bytes.drop header.headerLen).take header.payloadLen).drop 2 := by
    apply List.take_of_length_le
    rw [List.length_drop, hPayload]
  rw [if_neg hTwo, if_neg hTwo, add_ok (by omega), ok_bind, slice_ok (by omega) (by omega),
    ok_bind, Nat.add_sub_cancel_left, hPayload, slice_ok (by omega) (by omega), ok_bind, hAll,
    reason_eq hMask, ok_bind]
  cases String.fromUTF8? ⟨(rawReason buf.bytes header).toArray⟩ with
  | none => rfl
  | some text => rfl

/-- The inspection never panics. -/
theorem validateRawCloseReason_run (overflow : ProtocolError) (buf : BytesMut) :
    buf.validateRawCloseReason http overflow = .ok (validateRawCloseReason http buf.bytes) := by
  unfold BytesMut.validateRawCloseReason validateRawCloseReason
  rw [run_returnIf_bind]
  by_cases hShort : buf.bytes.length < 2
  · rw [if_pos hShort, if_pos (Or.inl hShort)]
  have hHead : buf.bytes.headD 0 = buf.bytes[0] := by
    rw [List.headD_eq_head?_getD, List.head?_eq_getElem?, List.getElem?_eq_getElem,
      Option.getD_some]
  rw [if_neg hShort, index_ok (by omega), ok_bind, run_returnIf_bind]
  by_cases hOpcode : buf.bytes[0] &&& 0x0f ≠ 0x08
  · rw [if_pos hOpcode, if_pos (Or.inr (hHead ▸ hOpcode))]
  rw [if_neg hOpcode, if_neg (by rw [hHead]; exact not_or.mpr ⟨hShort, hOpcode⟩),
    payloadLen_eq overflow (by omega), run_orReturn_bind, rawHeader_eq (by omega)]
  cases hLengths : rawLengths buf.bytes buf.bytes[1] with
  | none => rfl
  | some lengths =>
    dsimp only [Option.bind_some]
    rw [maskKey_eq (by omega) (rawLengths_le hLengths), run_orReturn_bind]
    cases hMask : rawMask buf.bytes buf.bytes[1] lengths.1 with
    | none => rfl
    | some masked =>
      exact inspectPayload_run ⟨masked.1, lengths.2, masked.2⟩
        fun mask h => rawMask_length hMask h

/-! ## Frames on the wire -/

/-- A payload length in one of its encodings, not always the shortest. -/
inductive PayloadLength where
  | short (n : Nat) (h : n ≤ 125)
  | medium (bytes : Bytes) (h : bytes.length = 2)
  | long (bytes : Bytes) (h : bytes.length = 8)

namespace PayloadLength

def value : PayloadLength → Nat
  | short n _ => n
  | medium bytes _ => fromBeBytes bytes
  | long bytes _ => fromBeBytes bytes

/-- The low seven bits of the second byte. -/
def code : PayloadLength → UInt8
  | short n _ => UInt8.ofNat n
  | medium _ _ => 126
  | long _ _ => 127

/-- The bytes after the second. -/
def extended : PayloadLength → Bytes
  | short _ _ => []
  | medium bytes _ => bytes
  | long bytes _ => bytes

theorem code_eq (length : PayloadLength) : ∃ n < 128, length.code = UInt8.ofNat n := by
  cases length with
  | short n h => exact ⟨n, by omega, rfl⟩
  | medium bytes h => exact ⟨126, by decide, rfl⟩
  | long bytes h => exact ⟨127, by decide, rfl⟩

end PayloadLength

/-- A frame with its payload before masking. -/
structure RawFrame where
  first : UInt8
  length : PayloadLength
  mask : Option Bytes
  mask_length : ∀ key ∈ mask, key.length = 4
  payload : Bytes
  payload_length : payload.length = length.value

namespace RawFrame

def header (f : RawFrame) : RawHeader where
  headerLen := 2 + f.length.extended.length + (f.mask.elim 0 List.length)
  payloadLen := f.length.value
  mask := f.mask

def second (f : RawFrame) : UInt8 :=
  match f.mask with
  | none => f.length.code
  | some _ => 0x80 ||| f.length.code

def IsClose (f : RawFrame) : Prop := f.first &&& 0x0f = 0x08

/-- The payload with the mask, which is what it is without it. -/
def masked (f : RawFrame) : Bytes :=
  f.payload.mapIdx fun i byte => f.header.unmask i byte

def toBytes (f : RawFrame) : Bytes :=
  f.first :: f.second :: (f.length.extended ++ (f.mask.getD [] ++ f.masked))

end RawFrame

/-! ### Writing a frame -/

section Frames

variable (f : RawFrame) (rest : Bytes)

theorem second_code : f.second &&& 0x7f = f.length.code := by
  have hAll : ∀ n : Fin 128, UInt8.ofNat n.val &&& 0x7f = UInt8.ofNat n.val ∧
      (0x80 ||| UInt8.ofNat n.val) &&& 0x7f = UInt8.ofNat n.val := by decide +kernel
  obtain ⟨n, hn, hCode⟩ := f.length.code_eq
  obtain ⟨hPlain, hMasked⟩ := hAll ⟨n, hn⟩
  unfold RawFrame.second
  rw [hCode]
  cases f.mask with
  | none => exact hPlain
  | some key => exact hMasked

theorem second_masked : f.second &&& 0x80 = 0 ↔ f.mask = none := by
  have hAll : ∀ n : Fin 128, UInt8.ofNat n.val &&& 0x80 = 0 ∧
      (0x80 ||| UInt8.ofNat n.val) &&& 0x80 ≠ 0 := by decide +kernel
  obtain ⟨n, hn, hCode⟩ := f.length.code_eq
  obtain ⟨hPlain, hMasked⟩ := hAll ⟨n, hn⟩
  unfold RawFrame.second
  rw [hCode]
  cases f.mask with
  | none => exact iff_of_true hPlain rfl
  | some key => exact iff_of_false hMasked nofun

theorem rawLengths_code {second : UInt8} {length : PayloadLength}
    (h : second &&& 0x7f = length.code) (first : UInt8) (more : Bytes) :
    rawLengths (first :: second :: (length.extended ++ more)) second =
      some (2 + length.extended.length, length.value) := by
  unfold rawLengths
  rw [h]
  cases length with
  | short n hn =>
    have hCode : (PayloadLength.short n hn).code.toNat = n := UInt8.toNat_ofNat_of_lt' (by
      change n < 256
      omega)
    rw [hCode]
    split
    · omega
    · omega
    · rfl
  | medium bytes hBytes =>
    have hTake : (bytes ++ more).take 2 = bytes := List.take_left' hBytes
    change (if _ then none else some (4, fromBeBytes ((bytes ++ more).take 2))) = _
    rw [hTake, if_neg]
    · simp only [PayloadLength.extended, PayloadLength.value, hBytes]
    · simp only [List.length_cons, PayloadLength.extended, List.length_append]
      omega
  | long bytes hBytes =>
    have hTake : (bytes ++ more).take 8 = bytes := List.take_left' hBytes
    change (if _ then none else some (10, fromBeBytes ((bytes ++ more).take 8))) = _
    rw [hTake, if_neg]
    · simp only [PayloadLength.extended, PayloadLength.value, hBytes]
    · simp only [List.length_cons, PayloadLength.extended, List.length_append]
      omega

theorem rawMask_key {second : UInt8} {mask : Option Bytes} (h : second &&& 0x80 = 0 ↔ mask = none)
    (hMask : ∀ key ∈ mask, key.length = 4) (front more : Bytes) :
    rawMask (front ++ (mask.getD [] ++ more)) second front.length =
      some (front.length + mask.elim 0 List.length, mask) := by
  unfold rawMask
  cases mask with
  | none => rw [if_pos (h.mpr rfl)]; rfl
  | some key =>
    have hKey := hMask key rfl
    have hTake : (key ++ more).take 4 = key := List.take_left' hKey
    rw [if_neg (fun h0 => by cases h.mp h0), if_neg, List.drop_left, Option.getD_some, hTake,
      Option.elim_some, hKey]
    rw [List.length_append, Option.getD_some, List.length_append]
    omega

/-- The header of a frame is read from its bytes. -/
theorem rawHeader_toBytes : rawHeader (f.toBytes ++ rest) = some f.header := by
  have hLengths := rawLengths_code (second_code f) f.first (f.mask.getD [] ++ (f.masked ++ rest))
  have hMask := rawMask_key (second_masked f) f.mask_length
    (f.first :: f.second :: f.length.extended) (f.masked ++ rest)
  have hFront : 2 + f.length.extended.length =
      (f.first :: f.second :: f.length.extended).length := by
    rw [List.length_cons, List.length_cons]
    omega
  have hBytes : f.toBytes ++ rest =
      f.first :: f.second :: (f.length.extended ++ (f.mask.getD [] ++ (f.masked ++ rest))) := by
    simp only [RawFrame.toBytes, List.cons_append, List.append_assoc]
  rw [hBytes, rawHeader_eq (by simp)]
  simp only [List.getElem_cons_succ, List.getElem_cons_zero]
  rw [hLengths, Option.bind_some]
  dsimp only
  rw [hFront]
  simp only [List.cons_append] at hMask
  rw [hMask, ← hFront]
  rfl

theorem length_key (mask : Option Bytes) : (mask.getD []).length = mask.elim 0 List.length := by
  cases mask with
  | none => rfl
  | some key => rfl

theorem length_toBytes : f.toBytes.length = f.header.frameLen := by
  simp only [RawHeader.frameLen, RawFrame.header, RawFrame.toBytes, RawFrame.masked,
    List.length_cons, List.length_append, List.length_mapIdx, f.payload_length, length_key]
  omega

theorem unmask_unmask (header : RawHeader) (i : Nat) (byte : UInt8) :
    header.unmask i (header.unmask i byte) = byte := by
  unfold RawHeader.unmask
  cases header.mask with
  | none => rfl
  | some mask =>
    dsimp only
    rw [UInt8.xor_assoc, UInt8.xor_self, UInt8.xor_zero]

theorem mapIdx_unmask_unmask (header : RawHeader) (bytes : Bytes) :
    (bytes.mapIdx header.unmask).mapIdx header.unmask = bytes := by
  apply List.ext_getElem?
  intro i
  have hSame : header.unmask i ∘ header.unmask i = id := funext (unmask_unmask header i)
  rw [List.getElem?_mapIdx, List.getElem?_mapIdx, Option.map_map, hSame, Option.map_id_fun, id]

theorem drop_headerLen : (f.toBytes ++ rest).drop f.header.headerLen = f.masked ++ rest := by
  have hFront : f.toBytes ++ rest =
      (f.first :: f.second :: (f.length.extended ++ f.mask.getD [])) ++ (f.masked ++ rest) := by
    simp only [RawFrame.toBytes, List.cons_append, List.append_assoc]
  have hLength : f.header.headerLen =
      (f.first :: f.second :: (f.length.extended ++ f.mask.getD [])).length := by
    rw [List.length_cons, List.length_cons, List.length_append, length_key]
    change 2 + f.length.extended.length + f.mask.elim 0 List.length = _
    omega
  rw [hFront, hLength, List.drop_left]

/-- The mask goes on over the two bytes of the code. -/
theorem rawReason_toBytes : rawReason (f.toBytes ++ rest) f.header = f.payload.drop 2 := by
  have hLength : f.masked.length = f.header.payloadLen := by
    rw [RawFrame.masked, List.length_mapIdx, f.payload_length]
    rfl
  have hUnmask := mapIdx_unmask_unmask f.header f.payload
  rw [rawReason, drop_headerLen, List.take_left' hLength, ← hUnmask]
  apply List.ext_getElem?
  intro i
  rw [List.getElem?_mapIdx, List.getElem?_drop, List.getElem?_drop, List.getElem?_mapIdx,
    RawFrame.masked, Nat.add_comm i 2]

/-! ### Reading a frame -/

theorem length_take_of_not_lt (front : Bytes) {tail : Bytes} {n : Nat}
    (h : ¬ (front ++ tail).length < front.length + n) : (tail.take n).length = n := by
  rw [List.length_append] at h
  rw [List.length_take]
  omega

theorem rawLengths_some {first second : UInt8} {tail : Bytes} {lengths : Nat × Nat}
    (h : rawLengths (first :: second :: tail) second = some lengths) :
    ∃ length : PayloadLength, ∃ more, tail = length.extended ++ more ∧
      second &&& 0x7f = length.code ∧ lengths = (2 + length.extended.length, length.value) := by
  have hLow : (second &&& 0x7f).toNat ≤ 127 := by
    rw [UInt8.toNat_and]
    exact Nat.and_le_right
  unfold rawLengths at h
  split at h
  · rename_i hCode
    split at h
    · cases h
    · rename_i hLong
      have hTake : (tail.take 2).length = 2 :=
        length_take_of_not_lt [first, second] hLong
      refine ⟨.medium (tail.take 2) hTake, tail.drop 2, (List.take_append_drop 2 tail).symm,
        UInt8.toNat_inj.mp hCode, ?_⟩
      cases h
      rw [PayloadLength.extended, hTake]
      rfl
  · rename_i hCode
    split at h
    · cases h
    · rename_i hLong
      have hTake : (tail.take 8).length = 8 :=
        length_take_of_not_lt [first, second] hLong
      refine ⟨.long (tail.take 8) hTake, tail.drop 8, (List.take_append_drop 8 tail).symm,
        UInt8.toNat_inj.mp hCode, ?_⟩
      cases h
      rw [PayloadLength.extended, hTake]
      rfl
  · rename_i h126 h127
    have h126 : (second &&& 0x7f).toNat ≠ 126 := h126
    have h127 : (second &&& 0x7f).toNat ≠ 127 := h127
    exact ⟨.short _ (by omega), tail, rfl, (UInt8.ofNat_toNat).symm, (Option.some.inj h).symm⟩

theorem rawMask_some (front : Bytes) {second : UInt8} {tail : Bytes} {masked : Nat × Option Bytes}
    (h : rawMask (front ++ tail) second front.length = some masked) :
    ∃ more, tail = masked.2.getD [] ++ more ∧ (∀ key ∈ masked.2, key.length = 4) ∧
      (second &&& 0x80 = 0 ↔ masked.2 = none) ∧
      masked.1 = front.length + masked.2.elim 0 List.length := by
  unfold rawMask at h
  split at h
  · rename_i hPlain
    cases h
    exact ⟨tail, rfl, nofun, iff_of_true hPlain rfl, rfl⟩
  · rename_i hMasked
    split at h
    · cases h
    · rename_i hLong
      have hTake : (tail.take 4).length = 4 := length_take_of_not_lt front hLong
      cases h
      rw [List.drop_left]
      refine ⟨tail.drop 4, (List.take_append_drop 4 tail).symm, ?_, iff_of_false hMasked nofun, ?_⟩
      · intro key hKey
        cases hKey
        exact hTake
      · rw [Option.elim_some, hTake]

/-- The second byte is its high bit and its low bits. -/
theorem second_eq (byte : UInt8) :
    (byte &&& 0x80 = 0 → byte = byte &&& 0x7f) ∧
      (byte &&& 0x80 ≠ 0 → byte = 0x80 ||| (byte &&& 0x7f)) := by
  have hAll : ∀ n : Fin 256,
      (UInt8.ofNat n.val &&& 0x80 = 0 → UInt8.ofNat n.val = UInt8.ofNat n.val &&& 0x7f) ∧
      (UInt8.ofNat n.val &&& 0x80 ≠ 0 →
        UInt8.ofNat n.val = 0x80 ||| (UInt8.ofNat n.val &&& 0x7f)) := by decide +kernel
  have hByte := hAll ⟨byte.toNat, UInt8.toNat_lt byte⟩
  rwa [UInt8.ofNat_toNat] at hByte

theorem RawFrame.second_unique {byte : UInt8} (hCode : byte &&& 0x7f = f.length.code)
    (hMask : byte &&& 0x80 = 0 ↔ f.mask = none) : f.second = byte := by
  obtain ⟨hPlain, hMasked⟩ := second_eq byte
  unfold RawFrame.second
  rw [← hCode]
  cases hKey : f.mask with
  | none => exact (hPlain (hMask.mpr hKey)).symm
  | some key => exact (hMasked fun h0 => by cases hKey.symm.trans (hMask.mp h0)).symm

/-- A header whose frame is complete is that of a frame at the front. -/
theorem exists_rawFrame {buf : Bytes} {header : RawHeader} (h : rawHeader buf = some header)
    (hWhole : header.frameLen ≤ buf.length) :
    ∃ f : RawFrame, f.toBytes <+: buf ∧ f.header = header := by
  have hLength := rawHeader_length h
  match buf with
  | first :: second :: tail =>
    rw [rawHeader_eq (by omega)] at h
    obtain ⟨lengths, hLengths, h⟩ := Option.bind_eq_some_iff.mp h
    obtain ⟨masked, hMasked, rfl⟩ := Option.map_eq_some_iff.mp h
    obtain ⟨length, tail, rfl, hCode, rfl⟩ := rawLengths_some hLengths
    have hFront : 2 + length.extended.length = (first :: second :: length.extended).length := by
      rw [List.length_cons, List.length_cons]
      omega
    dsimp only at hMasked
    rw [hFront] at hMasked
    obtain ⟨tail, rfl, hKey, hPlain, hHeader⟩ :=
      rawMask_some (first :: second :: length.extended) hMasked
    obtain ⟨headerLen, mask⟩ := masked
    dsimp only at hKey hPlain hHeader hWhole ⊢
    have hTake : (tail.take length.value).length = length.value := by
      have hKeyLength := length_key mask
      simp only [RawHeader.frameLen, List.length_cons, List.length_append] at hWhole hHeader
      rw [List.length_take]
      omega
    let f : RawFrame :=
      { first, length, mask
        mask_length := hKey
        payload := (tail.take length.value).mapIdx (RawHeader.mk headerLen length.value mask).unmask
        payload_length := by rw [List.length_mapIdx, hTake] }
    have hSame : f.header = ⟨headerLen, length.value, mask⟩ := by
      rw [hHeader, ← hFront]
      rfl
    have hSecond : f.second = second := f.second_unique hCode hPlain
    have hMasked : f.masked = tail.take length.value := by
      rw [RawFrame.masked, hSame]
      exact mapIdx_unmask_unmask ⟨headerLen, length.value, mask⟩ _
    refine ⟨f, ⟨tail.drop length.value, ?_⟩, hSame⟩
    calc
      f.toBytes ++ tail.drop length.value
      _ = first :: second :: (length.extended ++
          (mask.getD [] ++ (tail.take length.value ++ tail.drop length.value))) := by
        rw [RawFrame.toBytes, hSecond, hMasked]
        simp only [List.cons_append, List.append_assoc]
        rfl
      _ = _ := by rw [List.take_append_drop]

end Frames

/-! ## What is found -/

/-- Valid UTF-8. -/
def Utf8 (bytes : Bytes) : Prop := ByteArray.IsValidUTF8 ⟨bytes.toArray⟩

theorem utf8_of_length {bytes : Bytes} (h : bytes.length ≤ 2) : Utf8 (bytes.drop 2) := by
  rw [List.drop_eq_nil_of_le h]
  exact ByteArray.isValidUTF8_empty

theorem fromUTF8?_of_utf8 {bytes : Bytes} (h : Utf8 bytes) :
    ∃ text, String.fromUTF8? ⟨bytes.toArray⟩ = some text :=
  ⟨_, dif_pos h⟩

theorem fromUTF8?_of_not_utf8 {bytes : Bytes} (h : ¬ Utf8 bytes) :
    String.fromUTF8? ⟨bytes.toArray⟩ = none :=
  dif_neg h

/-- The result for a buffer with a complete frame at the front. -/
theorem validateRawCloseReason_frame (http : ActixHttp σ) {f : RawFrame} (hClose : f.IsClose)
    (rest : Bytes) :
    (f.payload.length = 1 ∧
      validateRawCloseReason http (f.toBytes ++ rest) = .error ⟨.other, http.invalidLength 1⟩) ∨
    (f.payload.length ≠ 1 ∧ Utf8 (f.payload.drop 2) ∧
      validateRawCloseReason http (f.toBytes ++ rest) = .ok ()) ∨
    (f.payload.length ≠ 1 ∧ ¬ Utf8 (f.payload.drop 2) ∧
      validateRawCloseReason http (f.toBytes ++ rest) =
        .error ⟨.invalidData, http.invalidUtf8 (f.payload.drop 2)⟩) := by
  have hWhole : ¬ (f.toBytes ++ rest).length < f.header.frameLen := by
    rw [List.length_append, length_toBytes]
    omega
  have hFront :
      ¬ ((f.toBytes ++ rest).length < 2 ∨ (f.toBytes ++ rest).headD 0 &&& 0x0f ≠ 0x08) := by
    rintro (hShort | hOpcode)
    · simp only [RawFrame.toBytes, List.cons_append, List.length_cons] at hShort
      omega
    · exact hOpcode hClose
  have hLength : f.header.payloadLen = f.payload.length := f.payload_length.symm
  unfold validateRawCloseReason
  rw [if_neg hFront, rawHeader_toBytes]
  dsimp only
  rw [if_neg hWhole, hLength, rawReason_toBytes]
  by_cases hOne : f.payload.length = 1
  · exact Or.inl ⟨hOne, if_pos hOne⟩
  rw [if_neg hOne]
  by_cases hTwo : f.payload.length ≤ 2
  · exact Or.inr (Or.inl ⟨hOne, utf8_of_length hTwo, if_pos hTwo⟩)
  rw [if_neg hTwo]
  by_cases hUtf8 : Utf8 (f.payload.drop 2)
  · refine Or.inr (Or.inl ⟨hOne, hUtf8, ?_⟩)
    obtain ⟨text, hText⟩ := fromUTF8?_of_utf8 hUtf8
    rw [hText]
  · refine Or.inr (Or.inr ⟨hOne, hUtf8, ?_⟩)
    rw [fromUTF8?_of_not_utf8 hUtf8]

/-- A failing check has seen a complete Close frame. -/
theorem validateRawCloseReason_ok {buf : Bytes}
    (h : ∀ f : RawFrame, f.toBytes <+: buf → ¬ f.IsClose) :
    validateRawCloseReason http buf = .ok () := by
  cases hResult : validateRawCloseReason http buf with
  | ok done => rfl
  | error e =>
    obtain ⟨header, hHeader, hWhole⟩ := validateRawCloseReason_error hResult
    obtain ⟨f, ⟨rest, rfl⟩, -⟩ := exists_rawFrame hHeader hWhole
    have hOpcode : (f.toBytes ++ rest).headD 0 &&& 0x0f ≠ 0x08 := h f ⟨rest, rfl⟩
    rw [validateRawCloseReason, if_pos (Or.inr hOpcode)] at hResult
    cases hResult

/-- The inspection never panics. It fails exactly on a complete Close frame whose payload is one
byte, or whose reason is not valid UTF-8. -/
theorem raw_close_inspection {σ : Type} (http : ActixHttp σ) (overflow : ProtocolError)
    (buf : BytesMut) :
    ∃ result, buf.validateRawCloseReason http overflow = .ok result ∧
      ((∀ f : RawFrame, f.toBytes <+: buf.bytes → ¬ f.IsClose) → result = .ok ()) ∧
      ∀ f : RawFrame, f.toBytes <+: buf.bytes → f.IsClose →
        ((∃ e, result = .error e) ↔ f.payload.length = 1 ∨ ¬ Utf8 (f.payload.drop 2)) ∧
        (result = .error ⟨.other, http.invalidLength 1⟩ ↔ f.payload.length = 1) ∧
        (result = .error ⟨.invalidData, http.invalidUtf8 (f.payload.drop 2)⟩ ↔
          ¬ Utf8 (f.payload.drop 2)) := by
  refine ⟨_, validateRawCloseReason_run overflow buf, validateRawCloseReason_ok, ?_⟩
  rintro f ⟨rest, hBytes⟩ hClose
  rw [← hBytes]
  rcases validateRawCloseReason_frame http hClose rest with ⟨hOne, h⟩ | ⟨hOne, hUtf8, h⟩ |
    ⟨hOne, hUtf8, h⟩
  · have hValid : Utf8 (f.payload.drop 2) := utf8_of_length (by omega)
    simp [h, hOne, hValid]
  · simp [h, hOne, hUtf8]
  · simp [h, hOne, hUtf8]

end Caelix
