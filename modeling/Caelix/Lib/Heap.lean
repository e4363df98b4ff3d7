import Mathlib.Order.Lattice
import Mathlib.Data.List.MinMax

/-!
# Heaps

A heap is the list of its elements, in any order; `peek` is the least of them and `pop`
takes it out.

* `peek_eq_some_iff`, `perm_pop`: the least element and what is left without it.
-/

/-- The elements of a priority queue. -/
abbrev Heap (α : Type) := List α

namespace Heap

variable {α : Type} [LinearOrder α] {h : Heap α} {a : α}

def peek (h : Heap α) : Option α := h.argmin id

def pop (h : Heap α) : Heap α :=
  match peek h with
  | none => []
  | some a => h.erase a

theorem peek_eq_none_iff : peek h = none ↔ h = [] := List.argmin_eq_none

theorem peek_mem (hPeek : peek h = some a) : a ∈ h := List.argmin_mem hPeek

theorem peek_le (hPeek : peek h = some a) {b : α} (hb : b ∈ h) : a ≤ b :=
  List.le_of_mem_argmin (f := id) hb hPeek

theorem perm_pop (hPeek : peek h = some a) : h.Perm (a :: pop h) := by
  rw [pop, hPeek]
  exact List.perm_cons_erase (peek_mem hPeek)

theorem mem_pop_of_ne (hPeek : peek h = some a) {b : α} (hb : b ∈ h) (hne : b ≠ a) : b ∈ pop h := by
  rcases List.mem_cons.mp ((perm_pop hPeek).mem_iff.mp hb) with rfl | hPop
  · exact absurd rfl hne
  · exact hPop

theorem length_pop (hPeek : peek h = some a) : (pop h).length + 1 = h.length :=
  (perm_pop hPeek).length_eq.symm

end Heap
