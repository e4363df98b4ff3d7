import Caelix.Lib.Runs
import Caelix.Core.ThrottleIndexes

/-!
# The throttle store as a list of buckets

The reference keeps the live buckets in a list, the last created one at the end, and
counts the buckets it has created. Until the 64-bit generation wraps around, the store
gives the same results.

* `CreationOrder`: the buckets listed by generation, the queue sorted by generation, and
  every bucket in it.
* `evictOldest_first`: the loop over the queue finds the bucket with the least generation,
  whatever stale entries come before it.
* `memoryThrottle_refines`: the results of every run, and the buckets after it.
-/

namespace Caelix

open Table

/-! ## The reference -/

structure WindowBucket where
  key : String
  count : Nat
  expiresAt : Instant
  deriving DecidableEq, Repr

structure WindowStore where
  created : Nat
  buckets : List WindowBucket
  deriving DecidableEq, Repr

/-- A call of `increment`, its clock reading, and the order in which the map lists its
entries during the call. -/
structure ThrottleCall where
  key : String
  window : Duration
  now : Instant
  order : BucketOrder

namespace WindowStore

def empty : WindowStore := ⟨0, []⟩

/-- The buckets that are left when the expired ones are removed. -/
def live (now : Instant) (store : WindowStore) : List WindowBucket :=
  store.buckets.filter fun b => now < b.expiresAt

/-- One more hit on the bucket of a key. -/
def hit (key : String) (buckets : List WindowBucket) : List WindowBucket :=
  buckets.map fun b => if b.key = key then { b with count := saturatingAdd b.count 1 } else b

/-- The buckets that stay when one more is to be created. -/
def makeRoom (capacity : Nat) (buckets : List WindowBucket) : List WindowBucket :=
  if capacity ≤ buckets.length then buckets.tail else buckets

def increment (clock : Clock) (capacity : Nat) (c : ThrottleCall) (store : WindowStore) :
    Except Fault ThrottleStoreRecord × WindowStore :=
  let live := store.live c.now
  match live.find? fun b => b.key = c.key with
  | some b =>
    (.ok ⟨saturatingAdd b.count 1, b.expiresAt - c.now⟩, { store with buckets := hit c.key live })
  | none =>
    match clock.checkedAdd c.now c.window with
    | none =>
      (.error (.startup "throttle window exceeds the clock range"), { store with buckets := live })
    | some expiresAt =>
      (.ok ⟨1, expiresAt - c.now⟩,
        ⟨store.created + 1, makeRoom capacity live ++ [⟨c.key, 1, expiresAt⟩]⟩)

theorem makeRoom_subset {capacity : Nat} {buckets : List WindowBucket} {b : WindowBucket}
    (hb : b ∈ makeRoom capacity buckets) : b ∈ buckets := by
  unfold makeRoom at hb
  split at hb
  · exact List.mem_of_mem_tail hb
  · exact hb

/-- The first hit on a bucket that was just created. -/
theorem hit_fresh {key : String} {expiresAt : Instant} {buckets : List WindowBucket}
    (hOthers : ∀ b ∈ buckets, b.key ≠ key) :
    hit key (buckets ++ [⟨key, 0, expiresAt⟩]) = buckets ++ [⟨key, 1, expiresAt⟩] := by
  have hSame : hit key buckets = buckets := by
    refine (List.map_congr_left ?_).trans (List.map_id _)
    intro b hb
    rw [if_neg (hOthers b hb), id]
  have hOne : saturatingAdd 0 1 = 1 := by decide
  have hLast : hit key [⟨key, 0, expiresAt⟩] = [⟨key, 1, expiresAt⟩] := by
    rw [hit, List.map_singleton, if_pos rfl, hOne]
  rw [← hLast]
  conv_rhs => rw [← hSame]
  exact List.map_append

section Increment

variable {clock : Clock} {capacity : Nat} {c : ThrottleCall} {store : WindowStore}

theorem increment_hit {b : WindowBucket}
    (hFind : (store.live c.now).find? (fun b => b.key = c.key) = some b) :
    store.increment clock capacity c =
      (.ok ⟨saturatingAdd b.count 1, b.expiresAt - c.now⟩,
        { store with buckets := hit c.key (store.live c.now) }) := by
  simp [increment, hFind]

theorem increment_refused (hFind : (store.live c.now).find? (fun b => b.key = c.key) = none)
    (hClock : clock.checkedAdd c.now c.window = none) :
    store.increment clock capacity c =
      (.error (.startup "throttle window exceeds the clock range"),
        { store with buckets := store.live c.now }) := by
  simp only [increment, hFind, hClock]

theorem increment_fresh {expiresAt : Instant}
    (hFind : (store.live c.now).find? (fun b => b.key = c.key) = none)
    (hClock : clock.checkedAdd c.now c.window = some expiresAt) :
    store.increment clock capacity c =
      (.ok ⟨1, expiresAt - c.now⟩,
        ⟨store.created + 1,
          makeRoom capacity (store.live c.now) ++ [⟨c.key, 1, expiresAt⟩]⟩) := by
  simp only [increment, hFind, hClock]

end Increment

/-- No call lowers the number of buckets created. -/
theorem created_le (clock : Clock) (capacity : Nat) (c : ThrottleCall) (store : WindowStore) :
    store.created ≤ (store.increment clock capacity c).2.created := by
  unfold increment
  dsimp only
  split
  · exact le_rfl
  · split
    · exact le_rfl
    · exact Nat.le_succ _

end WindowStore

def MemoryThrottleStore.call (clock : Clock) (c : ThrottleCall) (store : MemoryThrottleStore) :
    Except Fault ThrottleStoreRecord × MemoryThrottleStore :=
  store.increment clock c.order c.now c.key c.window

/-! ## Buckets in the order of their creation -/

/-- What the reference keeps of a bucket. -/
def windowBucket (e : Σ _ : String, MemoryBucket) : WindowBucket :=
  ⟨e.1, e.2.count, e.2.expiresAt⟩

/-- `l` lists the buckets of the state by generation, and the reference holds them in that
order. -/
structure CreationOrder (s : MemoryThrottleState) (store : WindowStore)
    (l : List (Σ _ : String, MemoryBucket)) : Prop where
  indexed : s.Indexed
  perm : l.Perm s.buckets.entries
  order : l.Pairwise fun e f => e.2.generation < f.2.generation
  queued : ∀ e ∈ l, (e.2.generation, e.1) ∈ s.insertionOrder
  queue : s.insertionOrder.Pairwise fun x y => x.1 < y.1
  recent : ∀ x ∈ s.insertionOrder, x.1 ≤ s.nextGeneration
  created : s.nextGeneration = store.created
  buckets : store.buckets = l.map windowBucket

section Parts

variable {s : MemoryThrottleState} {store : WindowStore} {l : List (Σ _ : String, MemoryBucket)}

/-- The sweep at the start of a call. -/
theorem CreationOrder.swept (h : CreationOrder s store l) (now : Instant) :
    CreationOrder (s.swept now) { store with buckets := store.live now }
      (l.filter fun e => now < e.2.expiresAt) where
  indexed := h.indexed.swept now
  perm := by
    refine perm_of_lookup (retain_perm h.perm fun _ bucket => now < bucket.expiresAt) ?_
    intro key
    rw [h.indexed.swept_lookup, lookup_retain]
    rfl
  order := h.order.sublist List.filter_sublist
  queued e he := by
    rw [h.indexed.swept_insertionOrder]
    exact h.queued e (List.mem_of_mem_filter he)
  queue := by
    rw [h.indexed.swept_insertionOrder]
    exact h.queue
  recent := by
    rw [h.indexed.swept_insertionOrder, h.indexed.swept_nextGeneration]
    exact h.recent
  created := by
    rw [h.indexed.swept_nextGeneration]
    exact h.created
  buckets := by
    rw [WindowStore.live, h.buckets, List.filter_map]
    rfl

theorem isCurrent_iff (hPerm : l.Perm s.buckets.entries) {key : String} {generation : Nat} :
    MemoryThrottleState.isCurrent s.buckets key generation = true ↔
      ∃ bucket, (⟨key, bucket⟩ : Σ _ : String, MemoryBucket) ∈ l ∧
        bucket.generation = generation := by
  unfold MemoryThrottleState.isCurrent
  rw [Option.any_eq_true]
  simp only [decide_eq_true_eq, lookup_eq_some_iff, hPerm.mem_iff]

/-- The loop over the queue drops stale entries up to that of the oldest bucket, and
evicts this bucket. -/
theorem evictOldest_first {e : Σ _ : String, MemoryBucket} {queue : List (Nat × String)}
    (hPerm : (e :: l).Perm s.buckets.entries)
    (hOrder : (e :: l).Pairwise fun e f => e.2.generation < f.2.generation)
    (hQueued : ∀ f ∈ e :: l, (f.2.generation, f.1) ∈ queue)
    (hQueue : queue.Pairwise fun x y => x.1 < y.1) :
    (MemoryThrottleState.evictOldest s.buckets queue).1 = s.buckets.erase e.1 ∧
    (MemoryThrottleState.evictOldest s.buckets queue).2 <:+ queue ∧
    ∀ f ∈ l, (f.2.generation, f.1) ∈ (MemoryThrottleState.evictOldest s.buckets queue).2 := by
  induction queue with
  | nil => cases hQueued e (List.mem_cons_self ..)
  | cons x queue ih =>
    obtain ⟨generation, oldest⟩ := x
    have hLater := List.pairwise_cons.mp hQueue
    have hOlder := (List.pairwise_cons.mp hOrder).1
    rw [MemoryThrottleState.evictOldest]
    by_cases hCurrent : MemoryThrottleState.isCurrent s.buckets oldest generation = true
    · obtain ⟨bucket, hMem, hGeneration⟩ := (isCurrent_iff hPerm).mp hCurrent
      -- Only the oldest bucket can have an entry at the head of the queue.
      have hFirst : (⟨oldest, bucket⟩ : Σ _ : String, MemoryBucket) = e := by
        rcases List.mem_cons.mp hMem with hEq | hTail
        · exact hEq
        · have hLt := hOlder _ hTail
          rcases List.mem_cons.mp (hQueued e (List.mem_cons_self ..)) with hHead | hTail
          · exact absurd (congrArg Prod.fst hHead) (by grind)
          · exact absurd (hLater.1 _ hTail) (by grind)
      rw [if_pos hCurrent]
      refine ⟨by rw [← hFirst], List.suffix_cons _ _, ?_⟩
      intro f hf
      rcases List.mem_cons.mp (hQueued f (List.mem_cons_of_mem _ hf)) with hHead | hTail
      · have hLt := hOlder f hf
        have hSame := congrArg Prod.fst hHead
        exact absurd hSame (by grind)
      · exact hTail
    · rw [if_neg hCurrent]
      have hRest : ∀ f ∈ e :: l, (f.2.generation, f.1) ∈ queue := by
        intro f hf
        rcases List.mem_cons.mp (hQueued f hf) with hHead | hTail
        · cases hHead
          exact absurd ((isCurrent_iff hPerm).mpr ⟨f.2, hf, rfl⟩) hCurrent
        · exact hTail
      obtain ⟨hErase, hSuffix, hKept⟩ := ih hRest hLater.2
      exact ⟨hErase, hSuffix.trans (List.suffix_cons _ _), hKept⟩

/-- Room for a bucket of a new key, when the store holds at least one at its capacity. -/
theorem CreationOrder.makeRoom (h : CreationOrder s store l) (capacity : Nat) {key : String}
    (hNew : s.contains key = false) :
    CreationOrder (s.makeRoom (max capacity 1) key)
      { store with buckets := WindowStore.makeRoom capacity store.buckets }
      (if capacity ≤ l.length then l.tail else l) := by
  unfold WindowStore.makeRoom
  have hLength : store.buckets.length = l.length := by rw [h.buckets, List.length_map]
  have hSize : size s.buckets = l.length := size_of_perm h.perm
  by_cases hFull : max capacity 1 ≤ l.length
  · have hCapacity : capacity ≤ l.length := (Nat.le_max_left ..).trans hFull
    rw [hLength, if_pos hCapacity, if_pos hCapacity,
      MemoryThrottleState.makeRoom_of_full hNew (hSize ▸ hFull)]
    cases l with
    | nil => simp at hFull
    | cons e l =>
      obtain ⟨hErase, hSuffix, hKept⟩ := evictOldest_first h.perm h.order h.queued h.queue
      have hErased : l.Perm (s.buckets.erase e.1).entries := by
        have hPerm := erase_perm h.perm e.1
        rwa [← kerase_eq_filter (nodupKeys_of_perm h.perm), List.kerase_cons_eq rfl] at hPerm
      refine ⟨?_, ?_, (List.pairwise_cons.mp h.order).2, hKept, h.queue.sublist hSuffix.sublist,
        fun x hx => h.recent x (hSuffix.subset hx), h.created, ?_⟩
      · have hRoom : (s.makeRoom (max capacity 1) key).Indexed := h.indexed.makeRoom
        rwa [MemoryThrottleState.makeRoom_of_full hNew (hSize ▸ hFull)] at hRoom
      · show l.Perm (MemoryThrottleState.evictOldest s.buckets s.insertionOrder).1.entries
        rw [hErase]
        exact hErased
      · rw [h.buckets]
        rfl
  · have hRoom : (if capacity ≤ l.length then l.tail else l) = l := by
      by_cases hCapacity : capacity ≤ l.length
      · have hEmpty : l = [] := List.length_eq_zero_iff.mp (by omega)
        rw [hEmpty]
        simp
      · rw [if_neg hCapacity]
    have hStore : (if capacity ≤ store.buckets.length then store.buckets.tail else store.buckets) =
        store.buckets := by
      rw [hLength, h.buckets, ← List.map_tail, ← apply_ite (List.map windowBucket), hRoom]
    rw [MemoryThrottleState.makeRoom_of_room (by omega), hRoom, hStore]
    exact h

theorem CreationOrder.insertBucket (h : CreationOrder s store l) {key : String}
    (hNew : s.contains key = false) (hRoom : store.created + 1 < 2 ^ 64) (expiresAt : Instant) :
    CreationOrder (s.insertBucket key expiresAt)
      ⟨store.created + 1, store.buckets ++ [⟨key, 0, expiresAt⟩]⟩
      (l ++ [⟨key, ⟨0, expiresAt, store.created + 1⟩⟩]) := by
  have hNext : wrappingAdd s.nextGeneration 1 = store.created + 1 := by
    rw [wrappingAdd, h.created, Nat.mod_eq_of_lt hRoom]
  have hAbsent : key ∉ s.buckets := by
    rw [← AList.lookup_eq_none]
    exact Option.not_isSome_iff_eq_none.mp (Bool.eq_false_iff.mp hNew)
  have hInserted : s.insertBucket key expiresAt =
      { buckets := s.buckets.insert key ⟨0, expiresAt, store.created + 1⟩
        expirations := MemoryBucket.expiration key ⟨0, expiresAt, store.created + 1⟩ :: s.expirations
        insertionOrder := s.insertionOrder ++ [(store.created + 1, key)]
        nextGeneration := store.created + 1 } := by
    rw [MemoryThrottleState.insertBucket, hNext]
  have hRecent : ∀ x ∈ s.insertionOrder, x.1 < store.created + 1 := fun x hx => by
    have := h.recent x hx
    rw [h.created] at this
    omega
  refine ⟨h.indexed.insertBucket expiresAt, ?_, ?_, ?_, ?_, ?_, ?_, ?_⟩
  · rw [hInserted, AList.entries_insert_of_notMem hAbsent]
    exact List.perm_append_comm.trans (h.perm.cons _)
  · refine List.pairwise_append.mpr ⟨h.order, List.pairwise_singleton .., ?_⟩
    intro e he f hf
    rw [List.mem_singleton.mp hf]
    exact hRecent _ (h.queued e he)
  · intro e he
    rw [hInserted]
    rcases List.mem_append.mp he with he | he
    · exact List.mem_append_left _ (h.queued e he)
    · rw [List.mem_singleton.mp he]
      exact List.mem_append_right _ (List.mem_singleton_self _)
  · rw [hInserted]
    refine List.pairwise_append.mpr ⟨h.queue, List.pairwise_singleton .., ?_⟩
    intro x hx y hy
    rw [List.mem_singleton.mp hy]
    exact hRecent x hx
  · intro x hx
    rw [hInserted] at hx ⊢
    rcases List.mem_append.mp hx with hx | hx
    · exact Nat.le_of_lt (hRecent x hx)
    · rw [List.mem_singleton.mp hx]
  · rw [hInserted]
  · rw [h.buckets, List.map_append]
    rfl

theorem CreationOrder.compactExpirations (h : CreationOrder s store l) (order : BucketOrder)
    (capacity : Nat) : CreationOrder (s.compactExpirations order capacity) store l where
  indexed := h.indexed.compactExpirations
  perm := by simpa using h.perm
  order := h.order
  queued := by simpa using h.queued
  queue := by simpa using h.queue
  recent := by simpa using h.recent
  created := by simpa using h.created
  buckets := h.buckets

/-- The rebuilt queue lists the live buckets by generation. -/
theorem CreationOrder.compactInsertions (h : CreationOrder s store l) (order : BucketOrder)
    (capacity : Nat) : CreationOrder (s.compactInsertions order capacity) store l := by
  have hIndexed : (s.compactInsertions order capacity).Indexed := h.indexed.compactInsertions
  unfold MemoryThrottleState.compactInsertions at hIndexed ⊢
  split
  · next hLong =>
    rw [if_pos hLong] at hIndexed
    let entry : (Σ _ : String, MemoryBucket) → Nat × String := fun e => (e.2.generation, e.1)
    have hSorted : (((order.visit s.buckets).map entry).insertionSort fun a b => a.1 ≤ b.1).Perm
        (l.map entry) :=
      (List.perm_insertionSort _ _).trans (((order.perm _).trans h.perm.symm).map entry)
    have hMem : ∀ x, x ∈ ((order.visit s.buckets).map entry).insertionSort (fun a b => a.1 ≤ b.1) ↔
        ∃ e ∈ l, entry e = x := by
      intro x
      rw [hSorted.mem_iff, List.mem_map]
    have hNodup : ((((order.visit s.buckets).map entry).insertionSort
        fun a b => a.1 ≤ b.1).map Prod.fst).Nodup := by
      rw [(hSorted.map Prod.fst).nodup_iff, List.map_map]
      exact (List.pairwise_map.mpr h.order).imp Nat.ne_of_lt
    have hLe := List.pairwise_insertionSort (fun a b : Nat × String => a.1 ≤ b.1)
      ((order.visit s.buckets).map entry)
    refine ⟨hIndexed, h.perm, h.order, ?_, ?_, ?_, h.created, h.buckets⟩
    · intro e he
      exact (hMem _).mpr ⟨e, he, rfl⟩
    · refine (hLe.and (List.pairwise_map.mp hNodup)).imp ?_
      intro a b hab
      exact Nat.lt_of_le_of_ne hab.1 hab.2
    · intro x hx
      obtain ⟨e, he, rfl⟩ := (hMem x).mp hx
      exact h.recent _ (h.queued e he)
  · exact h

theorem CreationOrder.compact (h : CreationOrder s store l) (order : BucketOrder)
    (capacity : Nat) : CreationOrder (s.compact order capacity) store l :=
  (h.compactExpirations order capacity).compactInsertions order capacity

theorem CreationOrder.counted (h : CreationOrder s store l) {key : String} {bucket : MemoryBucket}
    (hBucket : s.buckets.lookup key = some bucket) :
    CreationOrder (s.counted key bucket)
      { store with buckets := WindowStore.hit key store.buckets }
      (l.map fun e =>
        if e.1 = key then ⟨key, { bucket with count := saturatingAdd bucket.count 1 }⟩ else e) := by
  have hKeys : ∀ e ∈ l, e.1 = key → e.2 = bucket := by
    intro e he hKey
    have hFound : s.buckets.lookup e.1 = some e.2 :=
      lookup_eq_some_iff.mpr (h.perm.mem_iff.mp he)
    rw [hKey, hBucket] at hFound
    exact (Option.some.inj hFound).symm
  have hEntry : ∀ e ∈ l, ∀ f : Σ _ : String, MemoryBucket,
      f = (if e.1 = key then ⟨key, { bucket with count := saturatingAdd bucket.count 1 }⟩ else e) →
        f.1 = e.1 ∧ f.2.generation = e.2.generation := by
    intro e he f hf
    by_cases hKey : e.1 = key
    · rw [hf, if_pos hKey, hKeys e he hKey]
      exact ⟨hKey.symm, rfl⟩
    · rw [hf, if_neg hKey]
      exact ⟨rfl, rfl⟩
  refine ⟨h.indexed.counted hBucket, update_perm h.perm hBucket _, ?_, ?_, h.queue, h.recent,
    h.created, ?_⟩
  · rw [List.pairwise_map]
    refine h.order.imp_of_mem ?_
    intro e f he hf hLt
    rw [(hEntry e he _ rfl).2, (hEntry f hf _ rfl).2]
    exact hLt
  · intro f hf
    obtain ⟨e, he, rfl⟩ := List.mem_map.mp hf
    rw [(hEntry e he _ rfl).1, (hEntry e he _ rfl).2]
    exact h.queued e he
  · rw [WindowStore.hit, h.buckets, List.map_map, List.map_map]
    refine List.map_congr_left ?_
    intro e he
    by_cases hKey : e.1 = key
    · simp [windowBucket, hKey, hKeys e he hKey]
    · simp [windowBucket, hKey]

end Parts

/-! ## Calls and runs -/

/-- The state holds the buckets of the reference. -/
def Refines (capacity : Nat) (store : MemoryThrottleStore) (reference : WindowStore) : Prop :=
  store.capacity = max capacity 1 ∧ ∃ l, CreationOrder store.state reference l

theorem refines_withCapacity (capacity : Nat) :
    Refines capacity (.withCapacity capacity) .empty :=
  ⟨rfl, [], ⟨MemoryThrottleState.indexed_default, .refl _, .nil, nofun, .nil, nofun, rfl, rfl⟩⟩

theorem refines_call {clock : Clock} {capacity : Nat} {c : ThrottleCall}
    {store : MemoryThrottleStore} {reference : WindowStore}
    (h : Refines capacity store reference)
    (hCreated : (reference.increment clock capacity c).2.created < 2 ^ 64) :
    (store.call clock c).1 = (reference.increment clock capacity c).1 ∧
      Refines capacity (store.call clock c).2 (reference.increment clock capacity c).2 := by
  obtain ⟨hCapacity, l, h⟩ := h
  have hSwept := h.swept c.now
  have hFind : (reference.live c.now).find? (fun b => b.key = c.key) =
      ((store.state.swept c.now).buckets.lookup c.key).map fun bucket =>
        windowBucket ⟨c.key, bucket⟩ := by
    rw [lookup_of_perm hSwept.perm, ← find_map WindowBucket.key fun _ => rfl, ← hSwept.buckets]
  unfold MemoryThrottleStore.call MemoryThrottleStore.increment
  rw [hCapacity]
  cases hBucket : (store.state.swept c.now).buckets.lookup c.key with
  | some bucket =>
    rw [hBucket] at hFind
    rw [MemoryThrottleState.increment_hit hBucket, WindowStore.increment_hit hFind]
    have hCounted := (hSwept.compact c.order (max capacity 1)).counted
      (by rw [MemoryThrottleState.compact_buckets, hBucket])
    exact ⟨rfl, rfl, _, hCounted⟩
  | none =>
    rw [hBucket] at hFind
    cases hClock : clock.checkedAdd c.now c.window with
    | none =>
      rw [MemoryThrottleState.increment_refused hBucket hClock,
        WindowStore.increment_refused hFind hClock]
      exact ⟨rfl, rfl, _, hSwept⟩
    | some expiresAt =>
      rw [WindowStore.increment_fresh hFind hClock] at hCreated ⊢
      rw [MemoryThrottleState.increment_fresh hBucket hClock]
      have hNew := MemoryThrottleState.contains_eq_false hBucket
      have hRoom := hSwept.makeRoom capacity hNew
      have hStill : ((store.state.swept c.now).makeRoom (max capacity 1) c.key).contains c.key =
          false := by
        rcases MemoryThrottleState.makeRoom_lookup (max capacity 1) c.key
          (store.state.swept c.now) c.key with hSame | hNone
        · exact MemoryThrottleState.contains_eq_false (hSame.trans hBucket)
        · exact MemoryThrottleState.contains_eq_false hNone
      have hInserted := (hRoom.insertBucket hStill hCreated expiresAt).compact c.order (max capacity 1)
      have hCounted := hInserted.counted
        (by rw [MemoryThrottleState.compact_buckets]; exact AList.lookup_insert _)
      have hOthers : ∀ b ∈ WindowStore.makeRoom capacity (reference.live c.now), b.key ≠ c.key := by
        intro b hb
        have hNone := List.find?_eq_none.mp hFind b (WindowStore.makeRoom_subset hb)
        simpa using hNone
      dsimp only at hCounted
      rw [WindowStore.hit_fresh hOthers] at hCounted
      exact ⟨rfl, rfl, _, hCounted⟩

/-- Along every run of calls that creates fewer than `2 ^ 64` buckets, the store gives the
results of the list of buckets, and holds its buckets afterwards. -/
theorem memoryThrottle_refines (clock : Clock) (capacity : Nat) (calls : List ThrottleCall)
    (hCreated : (Runs.run (WindowStore.increment clock capacity) calls .empty).2.created < 2 ^ 64) :
    let reached := Runs.run (MemoryThrottleStore.call clock) calls (.withCapacity capacity)
    let reference := Runs.run (WindowStore.increment clock capacity) calls .empty
    reached.1 = reference.1 ∧
      (reached.2.state.buckets.entries.map windowBucket).Perm reference.2.buckets := by
  intro reached reference
  have hSim : reached.1 = reference.1 ∧ Refines capacity reached.2 reference.2 := by
    refine Runs.run_sim (I := fun _ => Refines capacity) (refines_withCapacity capacity) calls ?_
    intro done c later hCalls h
    refine refines_call h (Nat.lt_of_le_of_lt ?_ hCreated)
    rw [hCalls, Runs.run_append]
    exact Runs.le_run WindowStore.created (WindowStore.created_le clock capacity) later _
  obtain ⟨hResults, -, l, h⟩ := hSim
  refine ⟨hResults, ?_⟩
  rw [h.buckets]
  exact (h.perm.map windowBucket).symm

/-- A store of one bucket: the second key evicts the first. -/
def evictionCalls : List ThrottleCall :=
  [⟨"old", 60, 0, .stored⟩, ⟨"new", 60, 1, .stored⟩, ⟨"old", 60, 2, .stored⟩,
    ⟨"old", 60, 3, .stored⟩]

theorem memoryThrottle_refines_eviction :
    (Runs.run (MemoryThrottleStore.call Clock.full) evictionCalls (.withCapacity 1)).1 =
      [.ok ⟨1, 60⟩, .ok ⟨1, 60⟩, .ok ⟨1, 60⟩, .ok ⟨2, 59⟩] :=
  (memoryThrottle_refines Clock.full 1 evictionCalls (by decide)).1

end Caelix
