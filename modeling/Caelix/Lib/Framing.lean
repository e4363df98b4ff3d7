import Mathlib.Data.List.Basic

/-!
# Frames at the front of a buffer

A decoder takes frames from the front of a buffer, which grows as pieces of a stream arrive.

* `Decodes`: the frames at the front of a buffer, and what is left.
* `FrontDecoder`: decoding a frame depends on no more than the bytes of the frame.
* `decodeAll`: decoding until the decoder waits or refuses.
* `feed`: decoding after each piece. A refusal hides the frames decoded with it.
* `feed_waits`, `feed_refuses`: what is left of the frames of a stream that is cut in pieces.
-/

namespace Framing

variable {σ β μ ε : Type}

/-- A frame, none yet or an error; with the buffer and the state after it. -/
abbrev Decoder (σ β μ ε : Type) := σ → List β → Except ε (Option μ) × List β × σ

section Frames

variable (next : Decoder σ β μ ε)

/-- The first frames of a buffer, with the state and the buffer after them. -/
inductive Decodes : σ → List β → List μ → σ → List β → Prop
  | nil (s : σ) (buf : List β) : Decodes s buf [] s buf
  | cons {s s' t : σ} {buf rest left : List β} {m : μ} {ms : List μ}
    (h : next s buf = (.ok (some m), rest, s')) (hRest : Decodes s' rest ms t left) :
    Decodes s buf (m :: ms) t left

def Waits (s : σ) (buf : List β) : Prop := (next s buf).1 = .ok none

def Refuses (s : σ) (buf : List β) (e : ε) : Prop := (next s buf).1 = .error e

structure FrontDecoder : Prop where
  waits : ∀ {s buf buf' s'}, next s buf = (.ok none, buf', s') → buf' = buf ∧ s' = s
  /-- What follows a frame does not matter. -/
  frame : ∀ {s buf m rest s'}, next s buf = (.ok (some m), rest, s') →
    ∃ front, front ≠ [] ∧ buf = front ++ rest ∧
      ∀ more, next s (front ++ more) = (.ok (some m), more, s')
  /-- A malformed frame does not become well formed. -/
  refuses : ∀ {s buf e}, Refuses next s buf e → ∀ more, ∃ e', Refuses next s (buf ++ more) e'

end Frames

variable {next : Decoder σ β μ ε} {s t u : σ} {buf left left' : List β} {ms ms' : List μ} {e : ε}

theorem Decodes.trans (h : Decodes next s buf ms t left)
    (h' : Decodes next t left ms' u left') : Decodes next s buf (ms ++ ms') u left' := by
  induction h with
  | nil => exact h'
  | cons hNext _ ih => exact .cons hNext (ih h')

/-- The frames are there whatever follows them. -/
theorem Decodes.front (hNext : FrontDecoder next) (h : Decodes next s buf ms t left) :
    ∃ front, buf = front ++ left ∧ ∀ more, Decodes next s (front ++ more) ms t more := by
  induction h with
  | nil => exact ⟨[], rfl, fun more => .nil _ more⟩
  | cons hFrame _ ih =>
    obtain ⟨front, -, rfl, hFront⟩ := hNext.frame hFrame
    obtain ⟨front', rfl, hFront'⟩ := ih
    refine ⟨front ++ front', (List.append_assoc _ _ _).symm, ?_⟩
    intro more
    rw [List.append_assoc]
    exact .cons (hFront _) (hFront' more)

theorem Decodes.append (hNext : FrontDecoder next) (h : Decodes next s buf ms t left)
    (more : List β) : Decodes next s (buf ++ more) ms t (left ++ more) := by
  obtain ⟨front, rfl, hFront⟩ := h.front hNext
  rw [List.append_assoc]
  exact hFront (left ++ more)

/-- The frames decoded first are the first of all that are decoded. -/
theorem Decodes.rest (h : Decodes next s buf ms t left) (h' : Decodes next s buf ms' u left')
    (hEnd : ∀ m rest s', next u left' ≠ (.ok (some m), rest, s')) :
    ∃ later, ms' = ms ++ later ∧ Decodes next t left later u left' := by
  induction h generalizing ms' with
  | nil => exact ⟨ms', rfl, h'⟩
  | cons hFrame _ ih =>
    cases h' with
    | nil => exact absurd hFrame (hEnd _ _ _)
    | cons hFrame' hRest' =>
      have hSame := hFrame.symm.trans hFrame'
      simp only [Prod.mk.injEq, Except.ok.injEq, Option.some.injEq] at hSame
      obtain ⟨rfl, rfl, rfl⟩ := hSame
      obtain ⟨later, rfl, hLater⟩ := ih hRest'
      exact ⟨later, rfl, hLater⟩

/-- A frame takes a byte at least. -/
theorem Decodes.length_le (hNext : FrontDecoder next) (h : Decodes next s buf ms t left) :
    ms.length + left.length ≤ buf.length := by
  induction h with
  | nil => simp
  | cons hFrame _ ih =>
    obtain ⟨front, hFront, rfl, -⟩ := hNext.frame hFrame
    have hPos := List.length_pos_of_ne_nil hFront
    rw [List.length_cons, List.length_append]
    omega

theorem Waits.no_frame (h : Waits next s buf) (m : μ) (rest : List β) (s' : σ) :
    next s buf ≠ (.ok (some m), rest, s') := by
  intro hFrame
  rw [Waits, hFrame] at h
  cases h

theorem Refuses.no_frame (h : Refuses next s buf e) (m : μ) (rest : List β) (s' : σ) :
    next s buf ≠ (.ok (some m), rest, s') := by
  intro hFrame
  rw [Refuses, hFrame] at h
  cases h

/-- Frames whose rest is incomplete are not followed by a malformed one. -/
theorem Decodes.not_refuses (h : Decodes next s buf ms t left) (hWaits : Waits next t left)
    (h' : Decodes next s buf ms' u left') : ¬ Refuses next u left' e := by
  intro hRefuses
  obtain ⟨later, -, hLater⟩ := h.rest h' hRefuses.no_frame
  cases hLater with
  | nil =>
    rw [Waits, hRefuses] at hWaits
    cases hWaits
  | cons hFrame => exact hWaits.no_frame _ _ _ hFrame

/-! ## Decoding all that is there -/

/-- The frames decoded, the error at the end of them, and the buffer and the state then. -/
structure Decoded (σ β μ ε : Type) where
  messages : List μ
  error : Option ε
  buf : List β
  state : σ

/-- As many frames as the fuel allows. -/
def decodeUpTo (next : Decoder σ β μ ε) : Nat → σ → List β → Decoded σ β μ ε
  | 0, s, buf => ⟨[], none, buf, s⟩
  | n + 1, s, buf =>
    match next s buf with
    | (.error e, buf, s) => ⟨[], some e, buf, s⟩
    | (.ok none, buf, s) => ⟨[], none, buf, s⟩
    | (.ok (some m), buf, s) =>
      let d := decodeUpTo next n s buf
      { d with messages := m :: d.messages }

/-- A frame takes a byte at least. -/
def decodeAll (next : Decoder σ β μ ε) (s : σ) (buf : List β) : Decoded σ β μ ε :=
  decodeUpTo next (buf.length + 1) s buf

/-- Decoding goes on until the decoder waits or refuses. -/
inductive Decoded.Ended (next : Decoder σ β μ ε) (s : σ) (buf : List β) : Decoded σ β μ ε → Prop
  | waits {ms : List μ} {t : σ} {left : List β} (h : Decodes next s buf ms t left)
    (hEnd : Waits next t left) : Ended next s buf ⟨ms, none, left, t⟩
  | refuses {ms : List μ} {t u : σ} {left rest : List β} {e : ε}
    (h : Decodes next s buf ms t left) (hEnd : Refuses next t left e) :
    Ended next s buf ⟨ms, some e, rest, u⟩

theorem decodeUpTo_ended (hNext : FrontDecoder next) {n : Nat} (hFuel : buf.length < n) :
    (decodeUpTo next n s buf).Ended next s buf := by
  induction n generalizing s buf with
  | zero => omega
  | succ n ih =>
    rw [decodeUpTo]
    split
    · rename_i e rest s' hStep
      exact .refuses (.nil s buf) (congrArg Prod.fst hStep)
    · rename_i rest s' hStep
      obtain ⟨rfl, rfl⟩ := hNext.waits hStep
      exact .waits (.nil s' rest) (congrArg Prod.fst hStep)
    · rename_i m rest s' hStep
      have hLength : rest.length < n := by
        obtain ⟨front, hFront, rfl, -⟩ := hNext.frame hStep
        have hPos := List.length_pos_of_ne_nil hFront
        rw [List.length_append] at hFuel
        omega
      have hEnded := ih (s := s') hLength
      generalize decodeUpTo next n s' rest = d at hEnded ⊢
      cases hEnded with
      | waits h hEnd => exact .waits (.cons hStep h) hEnd
      | refuses h hEnd => exact .refuses (.cons hStep h) hEnd

theorem decodeAll_ended (hNext : FrontDecoder next) (s : σ) (buf : List β) :
    (decodeAll next s buf).Ended next s buf :=
  decodeUpTo_ended hNext (Nat.lt_succ_self _)

theorem decodeAll_waits (hNext : FrontDecoder next) (h : Waits next s buf) :
    decodeAll next s buf = ⟨[], none, buf, s⟩ := by
  rcases hStep : next s buf with ⟨result, rest, s'⟩
  rw [Waits, hStep] at h
  obtain rfl : result = .ok none := h
  obtain ⟨rfl, rfl⟩ := hNext.waits hStep
  simp only [decodeAll, decodeUpTo, hStep]

/-! ## Pieces of a stream -/

/-- What comes of the pieces: all the frames that have arrived are decoded after each. -/
def feed (next : Decoder σ β μ ε) : σ → List β → List (List β) → List (Except ε μ)
  | _, _, [] => []
  | s, buf, piece :: pieces =>
    let d := decodeAll next s (buf ++ piece)
    match d.error with
    | some e => [.error e]
    | none => d.messages.map .ok ++ feed next d.state d.buf pieces

/-- The pieces of a stream without a malformed frame give all its frames. -/
theorem feed_waits (hNext : FrontDecoder next) (buf : List β) (pieces : List (List β))
    (hWaiting : pieces = [] → Waits next s buf)
    (h : Decodes next s (buf ++ pieces.flatten) ms t left) (hWaits : Waits next t left) :
    feed next s buf pieces = ms.map .ok := by
  induction pieces generalizing s buf ms with
  | nil =>
    rw [List.flatten_nil, List.append_nil] at h
    cases h with
    | nil => rfl
    | cons hFrame => exact absurd hFrame ((hWaiting rfl).no_frame _ _ _)
  | cons piece pieces ih =>
    rw [List.flatten_cons, ← List.append_assoc] at h
    have hEnded := decodeAll_ended hNext s (buf ++ piece)
    rw [feed]
    generalize decodeAll next s (buf ++ piece) = d at hEnded ⊢
    cases hEnded with
    | waits hFirst hEnd =>
      obtain ⟨later, rfl, hLater⟩ :=
        (hFirst.append hNext pieces.flatten).rest h hWaits.no_frame
      rw [List.map_append]
      exact congrArg _ (ih _ (fun _ => hEnd) hLater)
    | refuses hFirst hEnd =>
      obtain ⟨e', hRefused⟩ := hNext.refuses hEnd pieces.flatten
      exact absurd hRefused (h.not_refuses hWaits (hFirst.append hNext pieces.flatten))

/-- A malformed frame hides the frames that are decoded with it. -/
theorem feed_refused (hNext : FrontDecoder next) (buf : List β) {piece : List β}
    (h : Decodes next s (buf ++ piece) ms t left) (hRefuses : Refuses next t left e)
    (pieces : List (List β)) : feed next s buf (piece :: pieces) = [.error e] := by
  have hEnded := decodeAll_ended hNext s (buf ++ piece)
  rw [feed]
  generalize decodeAll next s (buf ++ piece) = d at hEnded ⊢
  cases hEnded with
  | waits hAll hEnd => exact absurd hRefuses (hAll.not_refuses hEnd h)
  | refuses hAll hEnd =>
    obtain ⟨later, -, hLater⟩ := h.rest hAll hEnd.no_frame
    cases hLater with
    | nil =>
      rw [Refuses, hRefuses] at hEnd
      rw [Except.error.inj hEnd]
    | cons hFrame => exact absurd hFrame (hRefuses.no_frame _ _ _)

/-- The pieces of a stream with a malformed frame give some of the frames before it, and the
error of some part of it. -/
theorem feed_refuses (hNext : FrontDecoder next) (buf : List β) (pieces : List (List β))
    (hWaiting : pieces = [] → Waits next s buf)
    (h : Decodes next s (buf ++ pieces.flatten) ms t left)
    (hRefuses : Refuses next t left e) :
    ∃ given part e', given <+: ms ∧ part <+: left ∧ Refuses next t part e' ∧
      feed next s buf pieces = given.map .ok ++ [.error e'] := by
  induction pieces generalizing s buf ms with
  | nil =>
    rw [List.flatten_nil, List.append_nil] at h
    cases h with
    | nil =>
      have hStuck := hWaiting rfl
      rw [Waits, hRefuses] at hStuck
      cases hStuck
    | cons hFrame => exact absurd hFrame ((hWaiting rfl).no_frame _ _ _)
  | cons piece pieces ih =>
    rw [List.flatten_cons, ← List.append_assoc] at h
    have hEnded := decodeAll_ended hNext s (buf ++ piece)
    rw [feed]
    generalize decodeAll next s (buf ++ piece) = d at hEnded ⊢
    cases hEnded with
    | @waits first _ _ hFirst hEnd =>
      obtain ⟨later, rfl, hLater⟩ :=
        (hFirst.append hNext pieces.flatten).rest h hRefuses.no_frame
      obtain ⟨given, part, e', hGiven, hPart, hError, hFeed⟩ := ih _ (fun _ => hEnd) hLater
      refine ⟨first ++ given, part, e', ?_, hPart, hError, ?_⟩
      · exact (List.prefix_append_right_inj first).mpr hGiven
      · rw [List.map_append, List.append_assoc]
        exact congrArg _ hFeed
    | @refuses first _ _ left' _ e' hFirst hEnd =>
      obtain ⟨later, rfl, hLater⟩ :=
        (hFirst.append hNext pieces.flatten).rest h hRefuses.no_frame
      obtain ⟨e'', hRefused⟩ := hNext.refuses hEnd pieces.flatten
      cases hLater with
      | nil => exact ⟨[], left', e', List.nil_prefix, List.prefix_append _ _, hEnd, rfl⟩
      | cons hFrame => exact absurd hFrame (hRefused.no_frame _ _ _)

end Framing
