import Mathlib.Data.List.Basic

/-!
# Bounded channels

A first-in first-out queue of at most so many items. A sender that finds it full is refused, and
one receiver takes items from the front. A channel remembers all items sent and received.

* `Channel`: what was sent is what was received and then the queue, which keeps its bound.
* `trySend`, `tryRecv`: the two operations, with what they change.
-/

structure Channel (α : Type) (capacity : Nat) where
  sent : List α
  received : List α
  queue : List α
  bounded : queue.length ≤ capacity
  fifo : sent = received ++ queue

namespace Channel

variable {α : Type} {capacity : Nat}

def empty : Channel α capacity := ⟨[], [], [], Nat.zero_le _, rfl⟩

def isFull (c : Channel α capacity) : Bool := c.queue.length = capacity

/-- The channel with one more item, unless it is full. -/
def trySend (c : Channel α capacity) (a : α) : Option (Channel α capacity) :=
  if h : c.queue.length < capacity then
    some
      { c with
        sent := c.sent ++ [a]
        queue := c.queue ++ [a]
        bounded := by rw [List.length_append]; exact h
        fifo := by rw [c.fifo, List.append_assoc] }
  else none

/-- The first item, if there is one. -/
def tryRecv (c : Channel α capacity) : Option (α × Channel α capacity) :=
  match h : c.queue with
  | [] => none
  | a :: rest =>
    some (a,
      { c with
        received := c.received ++ [a]
        queue := rest
        bounded := by
          have hBound := c.bounded
          rw [h, List.length_cons] at hBound
          exact Nat.le_of_succ_le hBound
        fifo := by rw [c.fifo, h, List.append_assoc, List.singleton_append] })

theorem trySend_some {c c' : Channel α capacity} {a : α} (h : c.trySend a = some c') :
    c'.sent = c.sent ++ [a] ∧ c'.received = c.received ∧ c'.queue = c.queue ++ [a] := by
  unfold trySend at h
  split_ifs at h
  cases h
  exact ⟨rfl, rfl, rfl⟩

theorem tryRecv_some {c c' : Channel α capacity} {a : α} (h : c.tryRecv = some (a, c')) :
    c'.sent = c.sent ∧ c'.received = c.received ++ [a] ∧ c.queue = a :: c'.queue := by
  unfold tryRecv at h
  split at h
  · cases h
  · rename_i first rest hQueue
    cases h
    exact ⟨rfl, rfl, hQueue⟩

theorem tryRecv_none {c : Channel α capacity} : c.tryRecv = none ↔ c.queue = [] := by
  unfold tryRecv
  split
  · rename_i hQueue
    exact iff_of_true rfl hQueue
  · rename_i first rest hQueue
    refine iff_of_false (fun h => nomatch h) ?_
    rw [hQueue]
    exact List.cons_ne_nil _ _

end Channel
