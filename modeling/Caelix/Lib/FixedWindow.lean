import Mathlib.Data.List.TakeWhile
import Mathlib.Order.Basic
import Mathlib.Order.Lattice

/-!
# Fixed windows

Hits are counted in windows. A window is opened by the first hit at or after the end of
the previous one and stays open until its own end: `stop t` is the end of a window that is
opened at `t`.

* `after_eq_last`: the counter that the hits leave behind, one hit at a time, counts the
  hits of the last window.
* `windows_append`: later hits do not change the windows before the last one.
* `after_append_of_open`, `hit_of_closed`: hits before the end of the window, and after it.
-/

namespace FixedWindow

variable {T : Type} [LinearOrder T]

/-- The hits counted in the open window, and its end. -/
structure Counter (T : Type) where
  hits : Nat
  stop : T

/-- A window with the hit that opens it. -/
structure Window (T : Type) where
  start : T
  later : List T

def Window.hits (w : Window T) : Nat := w.later.length + 1

section

variable (stop : T → T)

/-- Count a hit. -/
def hit (t : T) : Option (Counter T) → Counter T
  | none => ⟨1, stop t⟩
  | some c => if t < c.stop then ⟨c.hits + 1, c.stop⟩ else ⟨1, stop t⟩

/-- The counter after a sequence of hits. -/
def after (ts : List T) : Option (Counter T) := ts.foldl (fun s t => some (hit stop t s)) none

/-- The windows of a sequence of hits. -/
def windows : List T → List (Window T)
  | [] => []
  | t :: ts =>
    ⟨t, ts.takeWhile fun u => u < stop t⟩ :: windows (ts.dropWhile fun u => u < stop t)
termination_by ts => ts.length
decreasing_by
  rw [List.length_cons]
  exact Nat.lt_succ_of_le (List.dropWhile_sublist _).length_le

end

variable {stop : T → T} {c : Counter T} {t : T}

theorem hit_of_open (h : t < c.stop) : hit stop t (some c) = ⟨c.hits + 1, c.stop⟩ := if_pos h

theorem hit_of_closed (h : c.stop ≤ t) : hit stop t (some c) = ⟨1, stop t⟩ := if_neg (not_lt.mpr h)

theorem after_snoc (ts : List T) (t : T) :
    after stop (ts ++ [t]) = some (hit stop t (after stop ts)) := by
  rw [after, List.foldl_append]
  rfl

theorem foldl_open (ts : List T) (h : ∀ t ∈ ts, t < c.stop) :
    ts.foldl (fun s t => some (hit stop t s)) (some c) = some ⟨c.hits + ts.length, c.stop⟩ := by
  induction ts generalizing c with
  | nil => rfl
  | cons t ts ih =>
    have hRest := ih (c := ⟨c.hits + 1, c.stop⟩) fun u hu => h u (List.mem_cons_of_mem _ hu)
    rw [List.foldl_cons, hit_of_open (h t (List.mem_cons_self ..)), hRest, List.length_cons,
      Nat.add_assoc, Nat.add_comm 1]

/-- Hits before the end of the open window are counted in it. -/
theorem after_append_of_open {ts us : List T} (hAfter : after stop ts = some c)
    (h : ∀ u ∈ us, u < c.stop) : after stop (ts ++ us) = some ⟨c.hits + us.length, c.stop⟩ := by
  rw [after, List.foldl_append]
  rw [after] at hAfter
  rw [hAfter]
  exact foldl_open us h

/-- A list whose first hit is at or after the end of the window is counted from scratch. -/
theorem foldl_closed {ts : List T} (hne : ts ≠ []) (h : ∀ t ∈ ts.head?, c.stop ≤ t) :
    ts.foldl (fun s t => some (hit stop t s)) (some c) = after stop ts := by
  cases ts with
  | nil => exact absurd rfl hne
  | cons t ts =>
    rw [after, List.foldl_cons, List.foldl_cons, hit_of_closed (h t rfl)]
    rfl

theorem le_head_dropWhile {ts : List T} {e : T} :
    ∀ t ∈ (ts.dropWhile fun u => u < e).head?, e ≤ t := by
  intro t ht
  have hNot := List.head?_dropWhile_not (fun u => decide (u < e)) ts
  rw [Option.mem_def.mp ht] at hNot
  simpa using hNot

/-- The windows list the hits, in order. -/
theorem flatMap_windows (stop : T → T) (ts : List T) :
    (windows stop ts).flatMap (fun w => w.start :: w.later) = ts := by
  induction ts using windows.induct stop with
  | case1 =>
    rw [windows]
    rfl
  | case2 t ts ih =>
    rw [windows, List.flatMap_cons, ih, List.cons_append, List.takeWhile_append_dropWhile]

theorem start_mem {ts : List T} {w : Window T} (hw : w ∈ windows stop ts) : w.start ∈ ts := by
  rw [← flatMap_windows stop ts]
  exact List.mem_flatMap.mpr ⟨w, hw, List.mem_cons_self ..⟩

/-- Later hits extend the last window and open new ones after it. -/
theorem windows_append {ts : List T} {closed : List (Window T)} {w : Window T}
    (h : windows stop ts = closed ++ [w]) (us : List T) :
    ∃ extra opened, windows stop (ts ++ us) = closed ++ ⟨w.start, w.later ++ extra⟩ :: opened := by
  induction ts using windows.induct stop generalizing closed with
  | case1 =>
    rw [windows] at h
    exact absurd h (by simp)
  | case2 t ts ih =>
    rw [windows] at h
    rw [List.cons_append, windows, List.takeWhile_append, List.dropWhile_append]
    have hTake : (ts.takeWhile fun u => u < stop t).length = ts.length ↔
        (ts.dropWhile fun u => u < stop t) = [] := by
      have hSplit := congrArg List.length (ts.takeWhile_append_dropWhile (p := fun u => u < stop t))
      rw [List.length_append] at hSplit
      rw [← List.length_eq_zero_iff]
      omega
    by_cases hRest : (ts.dropWhile fun u => u < stop t) = []
    · rw [hRest, windows] at h
      obtain ⟨rfl, rfl⟩ : closed = [] ∧ w = ⟨t, ts.takeWhile fun u => u < stop t⟩ := by
        cases closed with
        | nil => exact ⟨rfl, by simpa using h.symm⟩
        | cons v vs => simp at h
      have hAll : (ts.takeWhile fun u => u < stop t) = ts :=
        (List.takeWhile_prefix _).eq_of_length (hTake.mpr hRest)
      rw [if_pos (hTake.mpr hRest), hRest, hAll]
      exact ⟨_, _, rfl⟩
    · rw [if_neg (fun hLength => hRest (hTake.mp hLength)), if_neg (by simpa using hRest)]
      cases closed with
      | nil =>
        have hNone : windows stop (ts.dropWhile fun u => u < stop t) = [] := by
          simpa using congrArg List.tail h
        have hFlat := flatMap_windows stop (ts.dropWhile fun u => u < stop t)
        rw [hNone] at hFlat
        exact absurd hFlat.symm hRest
      | cons v closed =>
        obtain ⟨rfl, hTail⟩ := List.cons.inj h
        obtain ⟨extra, opened, hLater⟩ := ih hTail
        exact ⟨extra, opened, by rw [hLater, List.cons_append]⟩

/-- The counter counts the hits of the last window. -/
theorem after_eq_last (ts : List T) :
    after stop ts = (windows stop ts).getLast?.map fun w => ⟨w.hits, stop w.start⟩ := by
  induction ts using windows.induct stop with
  | case1 =>
    rw [windows]
    rfl
  | case2 t ts ih =>
    have hOpen : ∀ u ∈ ts.takeWhile (fun u => u < stop t), u < stop t := fun u hu =>
      of_decide_eq_true (List.mem_takeWhile_imp (p := fun u => decide (u < stop t)) hu)
    have hSplit : ts = (ts.takeWhile fun u => u < stop t) ++ ts.dropWhile fun u => u < stop t :=
      (List.takeWhile_append_dropWhile ..).symm
    have hFirst : after stop (t :: ts) =
        (ts.dropWhile fun u => u < stop t).foldl (fun s t => some (hit stop t s))
          (some ⟨1 + (ts.takeWhile fun u => u < stop t).length, stop t⟩) := by
      have hStart : after stop (t :: ts) =
          ts.foldl (fun s t => some (hit stop t s)) (some ⟨1, stop t⟩) := rfl
      rw [hStart, ← foldl_open (c := ⟨1, stop t⟩) _ hOpen, ← List.foldl_append]
      exact congrArg _ hSplit
    rw [hFirst, windows]
    by_cases hRest : (ts.dropWhile fun u => u < stop t) = []
    · rw [hRest, windows]
      simp [Window.hits, Nat.add_comm]
    · rw [foldl_closed hRest le_head_dropWhile, ih]
      cases hWindows : windows stop (ts.dropWhile fun u => u < stop t) with
      | nil =>
        cases hDrop : ts.dropWhile fun u => u < stop t with
        | nil => exact absurd hDrop hRest
        | cons u us =>
          rw [hDrop, windows] at hWindows
          cases hWindows
      | cons w ws => rw [List.getLast?_cons_cons]

end FixedWindow
