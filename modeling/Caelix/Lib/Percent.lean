import Mathlib.Tactic.IntervalCases

/-!
# Percent-encoding

Texts as the bytes of their UTF-8 form, each either kept as an ASCII character or written as
`%` with two hexadecimal digits. A `%` that no two digits follow stands for itself.

* `decode_encode`: decoding undoes encoding, whichever bytes are kept.
* `encode_forall`: the characters of an encoded text.
-/

namespace Percent

def digitChar (n : Nat) : Char := if n < 10 then Char.ofNat (48 + n) else Char.ofNat (55 + n)

def digitValue (c : Char) : Option Nat :=
  if '0' ≤ c ∧ c ≤ '9' then some (c.toNat - 48)
  else if 'A' ≤ c ∧ c ≤ 'F' then some (c.toNat - 55)
  else if 'a' ≤ c ∧ c ≤ 'f' then some (c.toNat - 87)
  else none

/-- The bytes that are kept: ASCII characters other than `%`. -/
structure Kept where
  keep : UInt8 → Bool
  ascii : ∀ b, keep b = true → b.toNat < 128 ∧ b.toNat ≠ 37

def encodeByte (kept : Kept) (b : UInt8) : List Char :=
  if kept.keep b then [Char.ofNat b.toNat]
  else ['%', digitChar (b.toNat / 16), digitChar (b.toNat % 16)]

def encode (kept : Kept) (s : String) : String :=
  String.ofList (s.toByteArray.data.toList.flatMap (encodeByte kept))

def decodeBytes : List Char → List UInt8
  | '%' :: c :: d :: later =>
    match digitValue c, digitValue d with
    | some m, some n => UInt8.ofNat (16 * m + n) :: decodeBytes later
    | _, _ => 37 :: decodeBytes (c :: d :: later)
  | c :: later => String.utf8EncodeChar c ++ decodeBytes later
  | [] => []

def decode (s : String) : Option String := String.fromUTF8? ⟨(decodeBytes s.toList).toArray⟩

theorem digitValue_digitChar {n : Nat} (h : n < 16) : digitValue (digitChar n) = some n := by
  interval_cases n <;> decide

theorem decodeBytes_cons {c : Char} (h : c ≠ '%') (later : List Char) :
    decodeBytes (c :: later) = String.utf8EncodeChar c ++ decodeBytes later := by
  rw [decodeBytes.eq_def]
  split
  · next hc => cases hc; exact absurd rfl h
  · next hc => cases hc; rfl
  · next hc => cases hc

theorem decodeBytes_encodeByte (kept : Kept) (b : UInt8) (later : List Char) :
    decodeBytes (encodeByte kept b ++ later) = b :: decodeBytes later := by
  unfold encodeByte
  by_cases hKeep : kept.keep b = true
  · obtain ⟨hAscii, hPercent⟩ := kept.ascii b hKeep
    have hChar : ∀ n : Fin 128, n.val ≠ 37 → Char.ofNat n.val ≠ '%' ∧
        String.utf8EncodeChar (Char.ofNat n.val) = [UInt8.ofNat n.val] := by decide +kernel
    obtain ⟨hne, hBytes⟩ := hChar ⟨b.toNat, hAscii⟩ hPercent
    rw [if_pos hKeep, List.singleton_append, decodeBytes_cons hne, hBytes, UInt8.ofNat_toNat]
    rfl
  · have hSmall : b.toNat < 256 := UInt8.toNat_lt b
    have hHigh : b.toNat / 16 < 16 := by omega
    have hLow : b.toNat % 16 < 16 := by omega
    have hByte : 16 * (b.toNat / 16) + b.toNat % 16 = b.toNat := by omega
    rw [if_neg hKeep]
    simp only [List.cons_append, List.nil_append, decodeBytes]
    rw [digitValue_digitChar hHigh, digitValue_digitChar hLow]
    dsimp only
    rw [hByte, UInt8.ofNat_toNat]

theorem decodeBytes_encode (kept : Kept) (bytes : List UInt8) :
    decodeBytes (bytes.flatMap (encodeByte kept)) = bytes := by
  induction bytes with
  | nil => rfl
  | cons b bytes ih => rw [List.flatMap_cons, decodeBytes_encodeByte, ih]

theorem decode_encode (kept : Kept) (s : String) : decode (encode kept s) = some s := by
  unfold decode encode
  rw [String.toList_ofList, decodeBytes_encode]
  unfold String.fromUTF8?
  have hValid : (⟨s.toByteArray.data.toList.toArray⟩ : ByteArray) = s.toByteArray := rfl
  rw [hValid, dif_pos s.isValidUTF8]
  rfl

/-- The characters of an encoded text are kept ones, `%` and digits. -/
theorem encode_forall {kept : Kept} {P : Char → Prop} (hKept : ∀ b, kept.keep b = true →
    P (Char.ofNat b.toNat)) (hPercent : P '%') (hDigit : ∀ n < 16, P (digitChar n)) (s : String) :
    ∀ c ∈ (encode kept s).toList, P c := by
  intro c hc
  unfold encode at hc
  rw [String.toList_ofList] at hc
  obtain ⟨b, -, hb⟩ := List.mem_flatMap.mp hc
  have hSmall : b.toNat < 256 := UInt8.toNat_lt b
  unfold encodeByte at hb
  by_cases hKeep : kept.keep b = true
  · rw [if_pos hKeep, List.mem_singleton] at hb
    rw [hb]
    exact hKept b hKeep
  · rw [if_neg hKeep] at hb
    rcases List.mem_cons.mp hb with rfl | hb
    · exact hPercent
    · rcases List.mem_cons.mp hb with rfl | hb
      · exact hDigit _ (by omega)
      · rw [List.mem_singleton] at hb
        rw [hb]
        exact hDigit _ (by omega)

end Percent
