import Caelix.Lib.Fallible
import Caelix.WebSocket.Actix

/-!
# The messages in a sequence of items

The items of a connection are a sequence of complete messages, in which control items may
stand anywhere. A fragmented message has the data of its frames one after another.

* `Complete`, `Messages`: the items of a complete message, and of several in a row.
* `Taken`: what the items so far amount to.
* `Violates`: how an item breaks the sequence, with the close code for it.
* `Taken.frame`, `nextFragment_some`, `violates_of_error`: the reassembly of the code
  follows the sequence.
-/

namespace Caelix

/-! ## Messages -/

/-- Items that may stand between the frames of a message. -/
inductive Message.IsControl : Message → Prop
  | ping (data : Bytes) : IsControl (.ping data)
  | pong (data : Bytes) : IsControl (.pong data)
  | nop : IsControl .nop

/-- The data of a frame that continues a message. -/
def Message.continued : Message → Bytes
  | .continuation (.continue data) => data
  | _ => []

/-- Frames that continue a message, and control items. -/
def Continues (items : List Message) : Prop :=
  ∀ m ∈ items, m.IsControl ∨ ∃ data, m = .continuation (.continue data)

/-- A message whose last frame is missing: its first frame and those after it. -/
inductive Unfinished (maxSize : Nat) : List Message → Fragment → Prop
  | text (first : Bytes) {items : List Message} (hItems : Continues items)
    (hSize : (first ++ items.flatMap Message.continued).length ≤ maxSize) :
    Unfinished maxSize (.continuation (.firstText first) :: items)
      (.text (first ++ items.flatMap Message.continued))
  | binary (first : Bytes) {items : List Message} (hItems : Continues items)
    (hSize : (first ++ items.flatMap Message.continued).length ≤ maxSize) :
    Unfinished maxSize (.continuation (.firstBinary first) :: items)
      (.binary (first ++ items.flatMap Message.continued))

inductive Complete (maxSize : Nat) : List Message → Callback → Prop
  | text (text : String) : Complete maxSize [.text text] (.onText text)
  | binary (data : Bytes) : Complete maxSize [.binary data] (.onBinary data)
  | fragmentedText {items : List Message} {data last : Bytes} {text : String}
    (h : Unfinished maxSize items (.text data)) (hSize : (data ++ last).length ≤ maxSize)
    (hText : String.fromUTF8? ⟨(data ++ last).toArray⟩ = some text) :
    Complete maxSize (items ++ [.continuation (.last last)]) (.onText text)
  | fragmentedBinary {items : List Message} {data last : Bytes}
    (h : Unfinished maxSize items (.binary data)) (hSize : (data ++ last).length ≤ maxSize) :
    Complete maxSize (items ++ [.continuation (.last last)]) (.onBinary (data ++ last))

/-- Complete messages one after another, with the callbacks for them. -/
inductive Messages (maxSize : Nat) : List Message → List Callback → Prop
  | nil : Messages maxSize [] []
  | control {items : List Message} {callbacks : List Callback} {m : Message}
    (h : Messages maxSize items callbacks) (hControl : m.IsControl) :
    Messages maxSize (items ++ [m]) callbacks
  | message {items new : List Message} {callbacks : List Callback} {c : Callback}
    (h : Messages maxSize items callbacks) (hNew : Complete maxSize new c) :
    Messages maxSize (items ++ new) (callbacks ++ [c])

/-- What the items so far amount to. -/
inductive Taken (maxSize : Nat) : List Message → List Callback → Option Fragment → Prop
  | between {items : List Message} {callbacks : List Callback}
    (h : Messages maxSize items callbacks) : Taken maxSize items callbacks none
  | inside {items new : List Message} {callbacks : List Callback} {fragment : Fragment}
    (h : Messages maxSize items callbacks) (hNew : Unfinished maxSize new fragment) :
    Taken maxSize (items ++ new) callbacks (some fragment)

variable {maxSize : Nat} {items : List Message} {callbacks : List Callback} {fragment : Fragment}
  {slot : Option Fragment} {m : Message} {data : Bytes}

theorem Unfinished.len_le (h : Unfinished maxSize items fragment) : fragment.len ≤ maxSize := by
  cases h with
  | text first hItems hSize => exact hSize
  | binary first hItems hSize => exact hSize

theorem Taken.len_le (h : Taken maxSize items callbacks (some fragment)) :
    fragment.len ≤ maxSize := by
  cases h with
  | inside h hNew => exact hNew.len_le

theorem Continues.snoc (h : Continues items)
    (hm : m.IsControl ∨ ∃ data, m = .continuation (.continue data)) : Continues (items ++ [m]) := by
  intro m' hm'
  rcases List.mem_append.mp hm' with hm' | hm'
  · exact h m' hm'
  · rw [List.mem_singleton.mp hm']
    exact hm

/-- One more item inside a message. -/
theorem Unfinished.snoc (h : Unfinished maxSize items fragment)
    (hm : m.IsControl ∨ ∃ data, m = .continuation (.continue data))
    (hSize : fragment.len + m.continued.length ≤ maxSize) :
    Unfinished maxSize (items ++ [m]) (fragment.extend m.continued) := by
  cases h with
  | @text first items hItems _ =>
    have hData : first ++ (items ++ [m]).flatMap Message.continued =
        first ++ items.flatMap Message.continued ++ m.continued := by simp
    have hLength : (first ++ (items ++ [m]).flatMap Message.continued).length ≤ maxSize := by
      rw [hData, List.length_append]
      exact hSize
    rw [Fragment.extend, ← hData]
    exact .text first (hItems.snoc hm) hLength
  | @binary first items hItems _ =>
    have hData : first ++ (items ++ [m]).flatMap Message.continued =
        first ++ items.flatMap Message.continued ++ m.continued := by simp
    have hLength : (first ++ (items ++ [m]).flatMap Message.continued).length ≤ maxSize := by
      rw [hData, List.length_append]
      exact hSize
    rw [Fragment.extend, ← hData]
    exact .binary first (hItems.snoc hm) hLength

theorem Message.IsControl.continued_eq (h : m.IsControl) : m.continued = [] := by
  cases h <;> rfl

theorem Fragment.extend_nil (fragment : Fragment) : fragment.extend [] = fragment := by
  cases fragment <;> simp [Fragment.extend]

theorem Taken.control (h : Taken maxSize items callbacks slot) (hm : m.IsControl) :
    Taken maxSize (items ++ [m]) callbacks slot := by
  cases h with
  | between h => exact .between (h.control hm)
  | @inside items new _ fragment h hNew =>
    rw [List.append_assoc]
    refine .inside h ?_
    have hSnoc := hNew.snoc (.inl hm) (by
      rw [hm.continued_eq]
      exact hNew.len_le)
    rwa [hm.continued_eq, Fragment.extend_nil] at hSnoc

theorem Taken.text (h : Taken maxSize items callbacks none) (text : String) :
    Taken maxSize (items ++ [.text text]) (callbacks ++ [.onText text]) none := by
  cases h with
  | between h => exact .between (h.message (.text text))

theorem Taken.binary (h : Taken maxSize items callbacks none) (data : Bytes) :
    Taken maxSize (items ++ [.binary data]) (callbacks ++ [.onBinary data]) none := by
  cases h with
  | between h => exact .between (h.message (.binary data))

/-! ## Violations -/

/-- An item breaks the sequence: the close code for it, and the text that is reported. -/
inductive Violates (maxSize : Nat) : Option Fragment → Message → WebSocketCloseCode → String → Prop
  /-- A frame continues no message. -/
  | orphan {item : Item} (hItem : ∃ data, item = .continue data ∨ item = .last data) :
    Violates maxSize none (.continuation item) .protocol "invalid fragmented message"
  /-- A fragmented message starts inside another. -/
  | nested (fragment : Fragment) {item : Item}
    (hItem : ∃ data, item = .firstText data ∨ item = .firstBinary data) :
    Violates maxSize (some fragment) (.continuation item) .protocol "invalid fragmented message"
  /-- A whole message is inside a fragmented one. -/
  | interleaved (fragment : Fragment) {m : Message}
    (hItem : (∃ text, m = .text text) ∨ ∃ data, m = .binary data) :
    Violates maxSize (some fragment) m .protocol "data frame interleaved with fragmented message"
  | firstTooBig {item : Item} {data : Bytes} (hItem : item = .firstText data ∨ item = .firstBinary data)
    (hSize : maxSize < data.length) :
    Violates maxSize none (.continuation item) .messageTooBig "invalid fragmented message"
  | tooBig (fragment : Fragment) {item : Item} {data : Bytes}
    (hItem : item = .continue data ∨ item = .last data)
    (hSize : maxSize < fragment.len + data.length) :
    Violates maxSize (some fragment) (.continuation item) .messageTooBig "invalid fragmented message"
  | notUtf8 {data last : Bytes} (hSize : (data ++ last).length ≤ maxSize)
    (hText : String.fromUTF8? ⟨(data ++ last).toArray⟩ = none) :
    Violates maxSize (some (.text data)) (.continuation (.last last)) .invalidData
      "invalid UTF-8 text message"
  | closeCode (slot : Option Fragment) {reason : CloseReason} (h : fromActixClose reason = none) :
    Violates maxSize slot (.close (some reason)) .protocol "invalid websocket close code"

theorem startFragment_ok_iff {value : Fragment} {message slot' : Option Fragment} :
    startFragment slot value maxSize = .ok (message, slot') ↔
      slot = none ∧ value.len ≤ maxSize ∧ message = none ∧ slot' = some value := by
  unfold startFragment
  cases slot with
  | some fragment => simp
  | none =>
    by_cases hSize : maxSize < value.len
    · simp [hSize, Nat.not_le.mpr hSize]
    · simp [hSize, Nat.not_lt.mp hSize, eq_comm]

theorem startFragment_error_iff {value : Fragment} {code : WebSocketCloseCode} :
    startFragment slot value maxSize = .error code ↔
      slot.isSome ∧ code = .protocol ∨ slot = none ∧ maxSize < value.len ∧ code = .messageTooBig := by
  unfold startFragment
  cases slot with
  | some fragment => simp [eq_comm]
  | none =>
    by_cases hSize : maxSize < value.len
    · simp [hSize, eq_comm]
    · simp [hSize]

theorem appendFragment_ok_iff {value : Fragment} :
    appendFragment slot data maxSize = .ok value ↔
      ∃ fragment, slot = some fragment ∧ fragment.len + data.length ≤ maxSize ∧
        value = fragment.extend data := by
  unfold appendFragment
  cases slot with
  | none => simp
  | some fragment =>
    by_cases hSize : maxSize < fragment.len + data.length
    · simp [hSize, Nat.not_le.mpr hSize]
    · simp [hSize, Nat.not_lt.mp hSize, eq_comm]

theorem appendFragment_error_iff {code : WebSocketCloseCode} :
    appendFragment slot data maxSize = .error code ↔ slot = none ∧ code = .protocol ∨
      ∃ fragment, slot = some fragment ∧ maxSize < fragment.len + data.length ∧
        code = .messageTooBig := by
  unfold appendFragment
  cases slot with
  | none => simp [eq_comm]
  | some fragment =>
    by_cases hSize : maxSize < fragment.len + data.length
    · simp [hSize, eq_comm]
    · simp [hSize]

/-- A frame that completes no message. -/
theorem Taken.frame (h : Taken maxSize items callbacks slot) {item : Item} {slot' : Option Fragment}
    (hNext : nextFragment maxSize slot item = .ok (none, slot')) :
    Taken maxSize (items ++ [.continuation item]) callbacks slot' := by
  cases item with
  | firstText data =>
    obtain ⟨rfl, hSize, -, rfl⟩ := startFragment_ok_iff.mp hNext
    cases h with
    | between h =>
      have hFirst : Unfinished maxSize [.continuation (.firstText data)] (.text (data ++ [])) :=
        .text data (List.forall_mem_nil _) ((List.append_nil data).symm ▸ hSize)
      rw [List.append_nil] at hFirst
      exact .inside h hFirst
  | firstBinary data =>
    obtain ⟨rfl, hSize, -, rfl⟩ := startFragment_ok_iff.mp hNext
    cases h with
    | between h =>
      have hFirst : Unfinished maxSize [.continuation (.firstBinary data)] (.binary (data ++ [])) :=
        .binary data (List.forall_mem_nil _) ((List.append_nil data).symm ▸ hSize)
      rw [List.append_nil] at hFirst
      exact .inside h hFirst
  | «continue» data =>
    obtain ⟨value, hValue, hSlot⟩ := Fallible.map_ok hNext
    obtain ⟨-, rfl⟩ := Prod.mk.inj hSlot
    obtain ⟨fragment, rfl, hSize, rfl⟩ := appendFragment_ok_iff.mp hValue
    cases h with
    | inside h hNew =>
      rw [List.append_assoc]
      exact .inside h (hNew.snoc (.inr ⟨data, rfl⟩) hSize)
  | last data =>
    obtain ⟨value, -, hSlot⟩ := Fallible.map_ok hNext
    cases (Prod.mk.inj hSlot).1

/-- A frame that completes a message. -/
theorem nextFragment_some {item : Item} {message : Fragment} {slot' : Option Fragment}
    (hNext : nextFragment maxSize slot item = .ok (some message, slot')) :
    slot' = none ∧ ∃ fragment last, slot = some fragment ∧ item = .last last ∧
      fragment.len + last.length ≤ maxSize ∧ message = fragment.extend last := by
  cases item with
  | firstText data | firstBinary data =>
    obtain ⟨-, -, hNone, -⟩ := startFragment_ok_iff.mp hNext
    cases hNone
  | «continue» data =>
    obtain ⟨value, -, hSlot⟩ := Fallible.map_ok hNext
    cases (Prod.mk.inj hSlot).1
  | last data =>
    obtain ⟨value, hValue, hSlot⟩ := Fallible.map_ok hNext
    obtain ⟨hMessage, rfl⟩ := Prod.mk.inj hSlot
    obtain rfl := Option.some.inj hMessage
    obtain ⟨fragment, rfl, hSize, rfl⟩ := appendFragment_ok_iff.mp hValue
    exact ⟨rfl, fragment, data, rfl, rfl, hSize, rfl⟩

/-- A frame that breaks the sequence. -/
theorem violates_of_error {item : Item} {code : WebSocketCloseCode}
    (hNext : nextFragment maxSize slot item = .error code) :
    Violates maxSize slot (.continuation item) code "invalid fragmented message" := by
  cases item with
  | firstText data =>
    obtain ⟨hSome, rfl⟩ | ⟨rfl, hSize, rfl⟩ := startFragment_error_iff.mp hNext
    · obtain ⟨fragment, rfl⟩ := Option.isSome_iff_exists.mp hSome
      exact .nested fragment ⟨data, .inl rfl⟩
    · exact .firstTooBig (.inl rfl) hSize
  | firstBinary data =>
    obtain ⟨hSome, rfl⟩ | ⟨rfl, hSize, rfl⟩ := startFragment_error_iff.mp hNext
    · obtain ⟨fragment, rfl⟩ := Option.isSome_iff_exists.mp hSome
      exact .nested fragment ⟨data, .inr rfl⟩
    · exact .firstTooBig (.inr rfl) hSize
  | «continue» data =>
    obtain ⟨rfl, rfl⟩ | ⟨fragment, rfl, hSize, rfl⟩ :=
      appendFragment_error_iff.mp (Fallible.map_error hNext)
    · exact .orphan ⟨data, .inl rfl⟩
    · exact .tooBig fragment (.inl rfl) hSize
  | last data =>
    obtain ⟨rfl, rfl⟩ | ⟨fragment, rfl, hSize, rfl⟩ :=
      appendFragment_error_iff.mp (Fallible.map_error hNext)
    · exact .orphan ⟨data, .inr rfl⟩
    · exact .tooBig fragment (.inr rfl) hSize

end Caelix
