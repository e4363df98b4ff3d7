import Mathlib.Data.List.Induction
import Caelix.Lib.Runs
import Caelix.Core.ThrottleIndexes

/-!
# Concurrent increments

Calls of `increment` for one key with one window. A call reads the clock and then waits
for the lock; other calls may read the clock or update the store in between, so a call may
reach a bucket that was created at a later reading than its own.

* `respectsWindow_iff`: the results respect the window exactly when no call reads the clock
  before its bucket starts (and no count saturates, and the window is not empty).
-/

namespace Caelix

open Table

/-- A scheduling decision: a new call reads the clock, some time after the last decision,
or the lock goes to one of the calls that wait for it. -/
inductive Turn
  | read (elapsed : Duration)
  | update (call : Nat) (order : BucketOrder)

/-- The clock, the readings of the calls that wait, and the store. `created` numbers the
buckets of the key. -/
structure Callers where
  time : Instant
  waiting : List Instant
  store : MemoryThrottleStore
  created : Nat

/-- What a call returned, and the number of its bucket. -/
structure Counted where
  bucket : Nat
  count : Nat
  retryAfter : Duration
  deriving DecidableEq, Repr

namespace Callers

/-- The record of a call that updates the store; `created` is the number of its bucket. -/
def answered (created : Nat) : Except Fault ThrottleStoreRecord → Option Counted
  | .ok record => some ⟨created, record.count, record.retryAfter⟩
  | .error _ => none

section

variable (clock : Clock) (key : String) (window : Duration)

def turn : Turn → Callers → Option Counted × Callers
  | .read elapsed, s =>
    (none, { s with time := s.time + elapsed, waiting := s.waiting ++ [s.time + elapsed] })
  | .update call order, s =>
    match s.waiting[call]? with
    | none => (none, s)
    | some now =>
      let x := s.store.increment clock order now key window
      let created := if (s.store.state.live now key).isSome then s.created else s.created + 1
      (answered created x.1,
        { s with waiting := s.waiting.eraseIdx call, store := x.2, created })

/-- The calls on a new store, in the order of a schedule. -/
def results (capacity : Nat) (turns : List Turn) : List (Option Counted) × Callers :=
  Runs.run (turn clock key window) turns ⟨0, [], .withCapacity capacity, 0⟩

def returned (capacity : Nat) (turns : List Turn) : List Counted :=
  (results clock key window capacity turns).1.filterMap id

end

/-- The counts returned from one bucket. -/
def countsOf (bucket : Nat) (log : List Counted) : List Nat :=
  (log.filter fun x => x.bucket = bucket).map Counted.count

/-- Every bucket counts 1, 2, ... and every call waits for at most a window. -/
def RespectsWindow (window : Duration) (log : List Counted) : Prop :=
  (∀ bucket, countsOf bucket log = List.range' 1 (countsOf bucket log).length) ∧
    ∀ x ∈ log, 0 < x.retryAfter ∧ x.retryAfter ≤ window

/-- The call that gets the lock reads the clock in the window of its bucket, and the count
of the bucket can grow; a call that creates a bucket does so for a window that is not empty. -/
def InTime (clock : Clock) (key : String) (window : Duration) (s : Callers) : Turn → Prop
  | .read _ => True
  | .update call _ => ∀ now, s.waiting[call]? = some now →
    match s.store.state.live now key with
    | some bucket => bucket.expiresAt ≤ now + window ∧ bucket.count < u64Max
    | none => 0 < window ∨ clock.latest < now + window

end Callers

open Callers MemoryThrottleState

/-! ## Logs -/

theorem countsOf_append (bucket : Nat) (l l' : List Counted) :
    countsOf bucket (l ++ l') = countsOf bucket l ++ countsOf bucket l' := by
  simp [countsOf]

theorem countsOf_singleton (bucket : Nat) (x : Counted) :
    countsOf bucket [x] = if x.bucket = bucket then [x.count] else [] := by
  unfold countsOf
  by_cases h : x.bucket = bucket
  · simp [h]
  · simp [h]

theorem snoc_eq_range'_iff {l : List Nat} {n : Nat} :
    l ++ [n] = List.range' 1 (l ++ [n]).length ↔
      l = List.range' 1 l.length ∧ n = l.length + 1 := by
  rw [List.length_append, List.length_singleton, List.range'_concat, Nat.one_mul, Nat.add_comm 1]
  refine ⟨fun h => ?_, fun ⟨hl, hn⟩ => ?_⟩
  · obtain ⟨hl, hn⟩ := List.append_inj' h rfl
    exact ⟨hl, List.head_eq_of_cons_eq hn⟩
  · rw [← hl, hn]

/-- One more call: it counts on from its bucket's last count, and waits for at most a window. -/
theorem respectsWindow_snoc {window : Duration} {log : List Counted} {x : Counted} :
    RespectsWindow window (log ++ [x]) ↔ RespectsWindow window log ∧
      x.count = (countsOf x.bucket log).length + 1 ∧ 0 < x.retryAfter ∧ x.retryAfter ≤ window := by
  have hOwn : countsOf x.bucket (log ++ [x]) = countsOf x.bucket log ++ [x.count] := by
    rw [countsOf_append, countsOf_singleton, if_pos rfl]
  have hOther : ∀ bucket, bucket ≠ x.bucket → countsOf bucket (log ++ [x]) = countsOf bucket log := by
    intro bucket hBucket
    rw [countsOf_append, countsOf_singleton, if_neg (Ne.symm hBucket), List.append_nil]
  refine ⟨fun ⟨hCounts, hWaits⟩ => ?_, fun ⟨⟨hCounts, hWaits⟩, hCount, hWait⟩ => ⟨?_, ?_⟩⟩
  · have hLast := hCounts x.bucket
    rw [hOwn, snoc_eq_range'_iff] at hLast
    refine ⟨⟨fun bucket => ?_, fun y hy => hWaits y (List.mem_append_left _ hy)⟩, hLast.2,
      hWaits x (by simp)⟩
    by_cases hBucket : bucket = x.bucket
    · rw [hBucket]
      exact hLast.1
    · rw [← hOther bucket hBucket]
      exact hCounts bucket
  · intro bucket
    by_cases hBucket : bucket = x.bucket
    · rw [hBucket, hOwn]
      exact snoc_eq_range'_iff.mpr ⟨hCounts x.bucket, hCount⟩
    · rw [hOther bucket hBucket]
      exact hCounts bucket
  · intro y hy
    rcases List.mem_append.mp hy with hy | hy
    · exact hWaits y hy
    · rw [List.mem_singleton.mp hy]
      exact hWait

/-! ## One turn -/

/-- The bucket of the key has the count of the calls it has answered. -/
structure Coherent (key : String) (log : List Counted) (s : Callers) : Prop where
  capacity : 0 < s.store.capacity
  only : s.store.state.Only key
  known : ∀ x ∈ log, x.bucket ≤ s.created
  count : ∀ b, s.store.state.buckets.lookup key = some b →
    b.count = min (countsOf s.created log).length u64Max

variable {clock : Clock} {key : String} {window : Duration} {log : List Counted} {s : Callers}

theorem countsOf_fresh (h : Coherent key log s) : countsOf (s.created + 1) log = [] := by
  unfold countsOf
  rw [List.map_eq_nil_iff, List.filter_eq_nil_iff]
  intro x hx
  have hKnown := h.known x hx
  rw [decide_eq_true_eq]
  omega

theorem turn_update {call : Nat} {order : BucketOrder} {now : Instant}
    (hWaiting : s.waiting[call]? = some now) {result : Except Fault ThrottleStoreRecord}
    {state : MemoryThrottleState} (hIncrement : s.store.state.increment clock order
      s.store.capacity now key window = (result, state)) :
    turn clock key window (.update call order) s =
      (answered (if (s.store.state.live now key).isSome then s.created else s.created + 1) result,
        { time := s.time
          waiting := s.waiting.eraseIdx call
          store := { s.store with state }
          created := if (s.store.state.live now key).isSome then s.created else s.created + 1 }) := by
  unfold turn MemoryThrottleStore.increment
  dsimp only
  rw [hWaiting]
  dsimp only
  rw [hIncrement]

theorem min_min_succ (n : Nat) : min (min n u64Max + 1) u64Max = min (n + 1) u64Max := by
  omega

theorem one_eq_min : 1 = min ([] ++ [1] : List Nat).length u64Max := by
  decide

/-- A hit on a live bucket, in numbers. -/
theorem inTime_hit {now stop window n : Nat} (h : now < stop) :
    (min (min n u64Max + 1) u64Max = n + 1 ∧ 0 < stop - now ∧ stop - now ≤ window) ↔
      (stop ≤ now + window ∧ min n u64Max < u64Max) := by
  omega

/-- The first hit on a bucket, in numbers. -/
theorem inTime_fresh {now window latest : Nat} (h : now + window ≤ latest) :
    (1 = ([] : List Nat).length + 1 ∧ 0 < now + window - now ∧ now + window - now ≤ window) ↔
      (0 < window ∨ latest < now + window) := by
  rw [List.length_nil]
  omega

theorem update_effect (h : Coherent key log s) {call : Nat} (order : BucketOrder) {now : Instant}
    (hWaiting : s.waiting[call]? = some now) :
    Coherent key (log ++ (turn clock key window (.update call order) s).1.toList)
        (turn clock key window (.update call order) s).2 ∧
      (RespectsWindow window (log ++ (turn clock key window (.update call order) s).1.toList) ↔
        RespectsWindow window log ∧ InTime clock key window s (.update call order)) := by
  have hInTime : InTime clock key window s (.update call order) ↔
      match s.store.state.live now key with
      | some bucket => bucket.expiresAt ≤ now + window ∧ bucket.count < u64Max
      | none => 0 < window ∨ clock.latest < now + window := by
    refine ⟨fun h => h now hWaiting, fun h now' hNow' => ?_⟩
    obtain rfl : now = now' := Option.some.inj (hWaiting.symm.trans hNow')
    exact h
  rw [hInTime]
  cases hLive : s.store.state.live now key with
  | some b =>
    have hBucket := Option.filter_eq_some_iff.mp hLive
    have hLater : now < b.expiresAt := of_decide_eq_true hBucket.2
    have hCount := h.count b hBucket.1
    obtain ⟨state, b', hIncrement, hOnly, hLookup, hHit⟩ :=
      h.only.increment_effect order h.capacity fun hNone => absurd (hLive.symm.trans hNone) nofun
    have hTurn := turn_update hWaiting hIncrement
    rw [hLive] at hTurn hHit
    simp only [Option.isSome_some, if_true, answered, nextHit] at hTurn hHit
    rw [hTurn, Option.toList_some]
    refine ⟨⟨h.capacity, hOnly, ?_, ?_⟩, ?_⟩
    · intro x hx
      rcases List.mem_append.mp hx with hx | hx
      · exact h.known x hx
      · rw [List.mem_singleton.mp hx]
    · intro found hFound
      obtain rfl : b' = found := Option.some.inj (hLookup.symm.trans hFound)
      rw [(Prod.mk.inj hHit).1, hCount, countsOf_append, countsOf_singleton, if_pos rfl,
        List.length_append, saturatingAdd]
      exact min_min_succ _
    · rw [respectsWindow_snoc]
      dsimp only
      rw [hCount, saturatingAdd]
      exact and_congr_right fun _ => inTime_hit hLater
  | none =>
    by_cases hRange : now + window ≤ clock.latest
    · obtain ⟨state, b, hIncrement, hOnly, hLookup, hHit⟩ :=
        h.only.increment_effect order h.capacity fun _ => hRange
      have hTurn := turn_update hWaiting hIncrement
      rw [hLive] at hTurn hHit
      simp only [Option.isSome_none, Bool.false_eq_true, if_false, answered, nextHit] at hTurn hHit
      rw [hTurn, Option.toList_some]
      refine ⟨⟨h.capacity, hOnly, ?_, ?_⟩, ?_⟩
      · intro x hx
        rcases List.mem_append.mp hx with hx | hx
        · exact Nat.le_succ_of_le (h.known x hx)
        · rw [List.mem_singleton.mp hx]
      · intro found hFound
        obtain rfl : b = found := Option.some.inj (hLookup.symm.trans hFound)
        rw [(Prod.mk.inj hHit).1, countsOf_append, countsOf_singleton, if_pos rfl, countsOf_fresh h]
        exact one_eq_min
      · rw [respectsWindow_snoc]
        dsimp only
        rw [countsOf_fresh h]
        exact and_congr_right fun _ => inTime_fresh hRange
    · have hNone : (s.store.state.swept now).buckets.lookup key = none :=
        (h.only.1.swept_lookup now key).trans hLive
      have hRefused : s.store.state.increment clock order s.store.capacity now key window = _ :=
        increment_refused hNone (Clock.checkedAdd_eq_none_iff.mpr (Nat.lt_of_not_le hRange))
      have hTurn := turn_update hWaiting hRefused
      rw [hLive] at hTurn
      simp only [Option.isSome_none, Bool.false_eq_true, if_false, answered] at hTurn
      rw [hTurn, Option.toList_none, List.append_nil]
      refine ⟨⟨h.capacity, h.only.swept now, ?_, ?_⟩, ?_⟩
      · exact fun x hx => Nat.le_succ_of_le (h.known x hx)
      · intro found hFound
        exact absurd (hNone.symm.trans hFound) nofun
      · exact (and_iff_left (.inr (Nat.lt_of_not_le hRange))).symm

/-- What a turn returns, and when it respects the window. -/
theorem turn_effect (h : Coherent key log s) (t : Turn) :
    Coherent key (log ++ (turn clock key window t s).1.toList) (turn clock key window t s).2 ∧
      (RespectsWindow window (log ++ (turn clock key window t s).1.toList) ↔
        RespectsWindow window log ∧ InTime clock key window s t) := by
  cases t with
  | read elapsed =>
    rw [turn, Option.toList_none, List.append_nil]
    exact ⟨⟨h.capacity, h.only, h.known, h.count⟩, (and_iff_left trivial).symm⟩
  | update call order =>
    cases hWaiting : s.waiting[call]? with
    | none =>
      have hIdle : turn clock key window (.update call order) s = (none, s) := by
        unfold turn
        dsimp only
        rw [hWaiting]
      have hVacuous : InTime clock key window s (.update call order) := by
        intro now hNow
        rw [hWaiting] at hNow
        cases hNow
      rw [hIdle, Option.toList_none, List.append_nil]
      exact ⟨h, (and_iff_left hVacuous).symm⟩
    | some now => exact update_effect h order hWaiting

/-! ## Runs -/

theorem filterMap_id_snoc (out : List (Option Counted)) (x : Option Counted) :
    (out ++ [x]).filterMap id = out.filterMap id ++ x.toList := by
  rw [List.filterMap_append]
  cases x <;> rfl

theorem coherent_start (key : String) (capacity : Nat) :
    Coherent key [] ⟨0, [], .withCapacity capacity, 0⟩ where
  capacity := Nat.lt_of_lt_of_le Nat.zero_lt_one (Nat.le_max_right ..)
  only := only_default key
  known := nofun
  count := nofun

theorem respectsWindow_nil (window : Duration) : RespectsWindow window [] :=
  ⟨fun _ => rfl, nofun⟩

/-- In every interleaving of the calls, the counts of each bucket are 1, 2, ... and every
call waits for at most a window, exactly when every call that updates the store does so in
time. -/
theorem respectsWindow_iff (clock : Clock) (key : String) (window : Duration) (capacity : Nat)
    (turns : List Turn) :
    RespectsWindow window (returned clock key window capacity turns) ↔
      ∀ done t later, turns = done ++ t :: later →
        InTime clock key window (results clock key window capacity done).2 t := by
  refine Runs.run_iff (I := fun out s => Coherent key (out.filterMap id) s)
    (P := fun out => RespectsWindow window (out.filterMap id))
    (C := fun t s => InTime clock key window s t)
    (respectsWindow_nil window) (coherent_start key capacity) ?_ turns
  intro t out s h
  rw [filterMap_id_snoc]
  exact turn_effect h t

/-- A call reads the clock, another one reads it later and is first to get the lock: the
bucket ends one window after the second reading. -/
theorem respectsWindow_overtaken :
    ¬ RespectsWindow 10 (returned Clock.full "key" 10 1
      [.read 0, .read 5, .update 1 .stored, .update 0 .stored]) := by
  intro h
  have hMem : ⟨1, 2, 15⟩ ∈ returned Clock.full "key" 10 1
      [.read 0, .read 5, .update 1 .stored, .update 0 .stored] := by decide
  exact absurd (h.2 _ hMem).2 (by decide)

end Caelix
