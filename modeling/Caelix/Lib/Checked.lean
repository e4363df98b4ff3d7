import Mathlib.Algebra.Group.Int.Defs
import Mathlib.Algebra.Group.Nat.Defs
import Mathlib.Data.List.Basic

/-!
# Bodies of functions that may panic

The body of a function gives a value, returns early, or panics: where an index is out of
range, and where a value does not fit its machine word.

* `run`: a call of a function. An early return is its result.
* `add`, `signed`, `index`, `slice`, `chunk`: the operations of machine words and slices.
* `run_returnIf_bind`, `run_orReturn_bind`: checks that return early, and values that may be missing.
* `mapM_eq_ok`: a loop none of whose steps stops.
-/

namespace Checked

inductive Panic where
  | overflow
  | outOfRange
  | wrongLength
  | unreachable
  deriving DecidableEq, Repr

/-- How a body stops before its end. -/
inductive Exit (ρ : Type) where
  | panics (panic : Panic)
  | returns (result : ρ)

/-- A part of the body of a function that returns a `ρ`. -/
abbrev Body (ρ α : Type) := Except (Exit ρ) α

variable {ρ α β : Type}

def panicked (panic : Panic) : Body ρ α := .error (.panics panic)

def run : Body ρ ρ → Except Panic ρ
  | .ok result => .ok result
  | .error (.returns result) => .ok result
  | .error (.panics panic) => .error panic

@[simp] theorem run_ok (result : ρ) : run (.ok result) = .ok result := rfl

theorem ok_bind (a : α) (next : α → Body ρ β) : (Except.ok a >>= next) = next a := rfl

/-! ## Early returns -/

def returnIf (c : Prop) [Decidable c] (result : ρ) : Body ρ Unit :=
  if c then .error (.returns result) else .ok ()

/-- An early return where there is no value. -/
def orReturn (result : ρ) : Option α → Body ρ α
  | none => .error (.returns result)
  | some a => .ok a

section EarlyReturns

variable {c : Prop} [Decidable c] {result : ρ}

theorem returnIf_pos (h : c) (next : Unit → Body ρ α) :
    (returnIf c result >>= next) = .error (.returns result) := by
  rw [returnIf, if_pos h]
  rfl

theorem returnIf_neg (h : ¬ c) (next : Unit → Body ρ α) :
    (returnIf c result >>= next) = next () := by
  rw [returnIf, if_neg h]
  rfl

theorem run_returnIf_bind (next : Unit → Body ρ ρ) :
    run (returnIf c result >>= next) = if c then .ok result else run (next ()) := by
  by_cases h : c
  · rw [returnIf_pos h, if_pos h]
    rfl
  · rw [returnIf_neg h, if_neg h]

theorem run_orReturn_bind (value : Option α) (next : α → Body ρ ρ) :
    run (orReturn result value >>= next) =
      match value with
      | none => .ok result
      | some a => run (next a) := by
  cases value with
  | none => rfl
  | some a => rfl

end EarlyReturns

/-! ## Machine words and slices -/

/-- The sum of two words of `bits` bits. -/
def add (bits m n : Nat) : Body ρ Nat :=
  if m + n < 2 ^ bits then .ok (m + n) else panicked .overflow

/-- The value of an operation on signed words of `bits` bits. -/
def signed (bits : Nat) (n : Int) : Body ρ Int :=
  if -2 ^ (bits - 1) ≤ n ∧ n < 2 ^ (bits - 1) then .ok n else panicked .overflow

def index (l : List α) (n : Nat) : Body ρ α :=
  match l[n]? with
  | some a => .ok a
  | none => panicked .outOfRange

/-- `l[start..stop]`. -/
def slice (l : List α) (start stop : Nat) : Body ρ (List α) :=
  if start ≤ stop ∧ stop ≤ l.length then .ok ((l.drop start).take (stop - start))
  else panicked .outOfRange

/-- A slice as an array of a known length. -/
def chunk (length : Nat) (l : List α) : Body ρ (List α) :=
  if l.length = length then .ok l else panicked .wrongLength

variable {l : List α} {bits m n start stop length : Nat}

theorem add_ok (h : m + n < 2 ^ bits) : (add bits m n : Body ρ Nat) = .ok (m + n) :=
  if_pos h

theorem signed_ok {i : Int} (hLow : -2 ^ (bits - 1) ≤ i) (hHigh : i < 2 ^ (bits - 1)) :
    (signed bits i : Body ρ Int) = .ok i :=
  if_pos ⟨hLow, hHigh⟩

theorem index_ok (h : n < l.length) : (index l n : Body ρ α) = .ok l[n] := by
  rw [index, List.getElem?_eq_getElem h]

theorem slice_ok (hOrder : start ≤ stop) (hStop : stop ≤ l.length) :
    (slice l start stop : Body ρ (List α)) = .ok ((l.drop start).take (stop - start)) :=
  if_pos ⟨hOrder, hStop⟩

theorem chunk_ok (h : l.length = length) : (chunk length l : Body ρ (List α)) = .ok l :=
  if_pos h

/-! ## Loops -/

theorem mapM_eq_ok {f : α → Body ρ β} {g : α → β} (h : ∀ a ∈ l, f a = .ok (g a)) :
    l.mapM f = .ok (l.map g) := by
  induction l with
  | nil => rfl
  | cons a l ih =>
    rw [List.mapM_cons, h a List.mem_cons_self, ok_bind,
      ih fun b hb => h b (List.mem_cons_of_mem _ hb), ok_bind]
    rfl

end Checked
