import Caelix.Core.ThrottleReference

/-!
# The indexes of the throttle store stay small

Stale entries stay in the heap and in the queue until a call meets them or a compaction
rebuilds the index. Between calls neither index holds more than twice the capacity, and
the entry of a live bucket is in both.

* `Bounded`: what holds between calls.
* `evictOldest_victim`: as long as every bucket is queued, the loop over the queue removes one.
* `memoryThrottle_bounded`: every run of calls, and the eviction that a next call makes.
-/

namespace Caelix

open Table

namespace MemoryThrottleState

/-- Every bucket has its entry in the queue. -/
def Queued (buckets : Table String MemoryBucket) (queue : List (Nat × String)) : Prop :=
  ∀ key bucket, buckets.lookup key = some bucket → (bucket.generation, key) ∈ queue

/-- What holds of the buckets and their indexes between calls. -/
structure Bounded (capacity : Nat) (s : MemoryThrottleState) : Prop where
  buckets : size s.buckets ≤ capacity
  expirations : s.expirations.length ≤ 2 * capacity
  insertionOrder : s.insertionOrder.length ≤ 2 * capacity
  indexed : s.Indexed
  queued : Queued s.buckets s.insertionOrder

theorem bounded_default (capacity : Nat) : Bounded capacity .default where
  buckets := Nat.zero_le _
  expirations := Nat.zero_le _
  insertionOrder := Nat.zero_le _
  indexed := indexed_default
  queued _ _ h := by cases h

section Parts

variable {s : MemoryThrottleState} {capacity : Nat} {now : Instant} {key : String}
  {order : BucketOrder}

/-! ## The sweep -/

theorem expire_length_le (now : Instant) (rounds : Nat) (s : MemoryThrottleState) :
    (expire now rounds s).expirations.length ≤ s.expirations.length := by
  induction rounds generalizing s with
  | zero => exact le_rfl
  | succ rounds ih =>
    rw [expire_succ]
    cases hPeek : Heap.peek s.expirations with
    | none => exact le_rfl
    | some x =>
      dsimp only
      split
      · exact le_rfl
      · have hPop := Heap.length_pop hPeek
        have hRest := ih (dropExpired now x s)
        have hDropped : (dropExpired now x s).expirations = Heap.pop s.expirations := rfl
        rw [hDropped] at hRest
        omega

/-- The sweep leaves only live buckets. -/
theorem Indexed.swept_live (h : s.Indexed) {bucket : MemoryBucket}
    (hBucket : (s.swept now).buckets.lookup key = some bucket) :
    s.buckets.lookup key = some bucket ∧ now < bucket.expiresAt := by
  rw [h.swept_lookup, live, Option.filter_eq_some_iff] at hBucket
  exact ⟨hBucket.1, of_decide_eq_true hBucket.2⟩

theorem Bounded.swept (h : s.Bounded capacity) (now : Instant) : (s.swept now).Bounded capacity where
  buckets := (h.indexed.size_swept_le now).trans h.buckets
  expirations := (expire_length_le now _ s).trans h.expirations
  insertionOrder := by
    rw [h.indexed.swept_insertionOrder]
    exact h.insertionOrder
  indexed := h.indexed.swept now
  queued := by
    intro key bucket hBucket
    rw [h.indexed.swept_insertionOrder]
    exact h.queued key bucket (h.indexed.swept_live hBucket).1

/-! ## Room for one more bucket -/

theorem isCurrent_iff_lookup {buckets : Table String MemoryBucket} {generation : Nat} :
    isCurrent buckets key generation = true ↔
      ∃ bucket, buckets.lookup key = some bucket ∧ bucket.generation = generation := by
  rw [isCurrent, Option.any_eq_true]
  simp only [decide_eq_true_eq]

/-- The loop over the queue drops entries of no bucket until it meets that of a bucket,
which it evicts; the entries of the other buckets stay. -/
theorem evictOldest_victim {buckets : Table String MemoryBucket} {queue : List (Nat × String)}
    (hQueued : Queued buckets queue) (hSome : 0 < size buckets) :
    ∃ victim bucket, buckets.lookup victim = some bucket ∧
      (evictOldest buckets queue).1 = buckets.erase victim ∧
      (evictOldest buckets queue).2.length ≤ queue.length ∧
      Queued (buckets.erase victim) (evictOldest buckets queue).2 := by
  induction queue with
  | nil =>
    have hEmpty : size buckets = 0 := by
      refine size_eq_zero ?_
      intro key
      rw [Option.eq_none_iff_forall_not_mem]
      intro bucket hBucket
      cases hQueued key bucket hBucket
    omega
  | cons x later ih =>
    obtain ⟨generation, oldest⟩ := x
    rw [evictOldest]
    by_cases hCurrent : isCurrent buckets oldest generation = true
    · rw [if_pos hCurrent]
      obtain ⟨bucket, hBucket, -⟩ := isCurrent_iff_lookup.mp hCurrent
      refine ⟨oldest, bucket, hBucket, rfl, Nat.le_succ _, ?_⟩
      intro other found hFound
      have hOther : other ≠ oldest := by
        rintro rfl
        rw [AList.lookup_erase] at hFound
        cases hFound
      rw [AList.lookup_erase_ne hOther] at hFound
      rcases List.mem_cons.mp (hQueued other found hFound) with hHead | hLater
      · exact absurd (congrArg Prod.snd hHead) hOther
      · exact hLater
    · rw [if_neg hCurrent]
      -- The entry is stale, so no bucket loses its own.
      have hRest : Queued buckets later := by
        intro other found hFound
        rcases List.mem_cons.mp (hQueued other found hFound) with hHead | hLater
        · cases hHead
          exact absurd (isCurrent_iff_lookup.mpr ⟨found, hFound, rfl⟩) hCurrent
        · exact hLater
      obtain ⟨victim, bucket, hVictim, hErased, hLength, hKept⟩ := ih hRest
      exact ⟨victim, bucket, hVictim, hErased, hLength.trans (Nat.le_succ _), hKept⟩

/-- A full store evicts one bucket for a new key. -/
theorem Bounded.makeRoom_victim (h : s.Bounded capacity) (hCapacity : 0 < capacity)
    (hNew : s.contains key = false) (hFull : capacity ≤ size s.buckets) :
    ∃ victim bucket, s.buckets.lookup victim = some bucket ∧
      (s.makeRoom capacity key).buckets = s.buckets.erase victim ∧
      (s.makeRoom capacity key).insertionOrder.length ≤ s.insertionOrder.length ∧
      Queued (s.buckets.erase victim) (s.makeRoom capacity key).insertionOrder := by
  rw [makeRoom_of_full hNew hFull]
  exact evictOldest_victim h.queued (by omega)

theorem Bounded.makeRoom (h : s.Bounded capacity) (hCapacity : 0 < capacity)
    (hNew : s.contains key = false) :
    (s.makeRoom capacity key).Bounded capacity ∧
      size (s.makeRoom capacity key).buckets < capacity := by
  by_cases hFull : capacity ≤ size s.buckets
  · obtain ⟨victim, bucket, hVictim, hErased, hLength, hKept⟩ := h.makeRoom_victim hCapacity hNew hFull
    have hSize := size_erase hVictim
    have hBuckets := h.buckets
    rw [← hErased] at hSize hKept
    refine ⟨⟨by omega, ?_, hLength.trans h.insertionOrder, h.indexed.makeRoom, hKept⟩, by omega⟩
    rw [makeRoom_expirations]
    exact h.expirations
  · have hRoom : size s.buckets < capacity := Nat.lt_of_not_le hFull
    rw [makeRoom_of_room hRoom]
    exact ⟨h, hRoom⟩

/-! ## A new bucket and the compactions -/

/-- The invariant before the compactions: an index may be too long. -/
structure Uncompacted (capacity : Nat) (s : MemoryThrottleState) : Prop where
  buckets : size s.buckets ≤ capacity
  indexed : s.Indexed
  queued : Queued s.buckets s.insertionOrder

theorem Bounded.uncompacted (h : s.Bounded capacity) : s.Uncompacted capacity :=
  ⟨h.buckets, h.indexed, h.queued⟩

theorem Bounded.insertBucket (h : s.Bounded capacity) (hRoom : size s.buckets < capacity)
    (expiresAt : Instant) : (s.insertBucket key expiresAt).Uncompacted capacity where
  buckets := by
    have hOthers := size_erase_le s.buckets key
    rw [MemoryThrottleState.insertBucket, size_insert]
    omega
  indexed := h.indexed.insertBucket expiresAt
  queued := by
    intro other bucket hBucket
    by_cases hKey : other = key
    · subst hKey
      rw [MemoryThrottleState.insertBucket, AList.lookup_insert] at hBucket
      cases hBucket
      exact List.mem_append_right _ (List.mem_singleton_self _)
    · rw [MemoryThrottleState.insertBucket, AList.lookup_insert_ne hKey] at hBucket
      exact List.mem_append_left _ (h.queued other bucket hBucket)

theorem length_visit (order : BucketOrder) (buckets : Table String MemoryBucket) :
    (order.visit buckets).length = size buckets := (order.perm buckets).length_eq

theorem saturatingMul_two_le (capacity : Nat) : saturatingMul capacity 2 ≤ 2 * capacity := by
  rw [Nat.mul_comm]
  exact Nat.min_le_left ..

theorem compactExpirations_length (h : size s.buckets ≤ capacity) :
    (compactExpirations order capacity s).expirations.length ≤ 2 * capacity := by
  unfold compactExpirations
  split
  · show ((order.visit s.buckets).map _).length ≤ _
    rw [List.length_map, length_visit]
    omega
  · next hShort => exact (Nat.le_of_not_lt hShort).trans (saturatingMul_two_le capacity)

theorem compactInsertions_length (h : size s.buckets ≤ capacity) :
    (compactInsertions order capacity s).insertionOrder.length ≤ 2 * capacity := by
  unfold compactInsertions
  split
  · show (List.insertionSort _ ((order.visit s.buckets).map _)).length ≤ _
    rw [List.length_insertionSort, List.length_map, length_visit]
    omega
  · next hShort => exact (Nat.le_of_not_lt hShort).trans (saturatingMul_two_le capacity)

/-- A rebuilt queue holds the entry of every bucket. -/
theorem compactInsertions_queued (h : Queued s.buckets s.insertionOrder) :
    Queued s.buckets (compactInsertions order capacity s).insertionOrder := by
  unfold compactInsertions
  split
  · intro key bucket hBucket
    rw [List.mem_insertionSort]
    refine List.mem_map.mpr ⟨⟨key, bucket⟩, ?_, rfl⟩
    exact (order.perm s.buckets).mem_iff.mpr (lookup_eq_some_iff.mp hBucket)
  · exact h

theorem Uncompacted.compact (h : s.Uncompacted capacity) :
    (s.compact order capacity).Bounded capacity where
  buckets := by
    rw [compact_buckets]
    exact h.buckets
  expirations := by
    rw [MemoryThrottleState.compact, compactInsertions_expirations]
    exact compactExpirations_length h.buckets
  insertionOrder := by
    refine compactInsertions_length ?_
    rw [compactExpirations_buckets]
    exact h.buckets
  indexed := h.indexed.compact
  queued := by
    have hKept : Queued (s.compactExpirations order capacity).buckets
        (s.compactExpirations order capacity).insertionOrder := by
      rw [compactExpirations_buckets, compactExpirations_insertionOrder]
      exact h.queued
    rw [MemoryThrottleState.compact, compactInsertions_buckets]
    exact compactInsertions_queued hKept

theorem Bounded.counted (h : s.Bounded capacity) {bucket : MemoryBucket}
    (hBucket : s.buckets.lookup key = some bucket) : (s.counted key bucket).Bounded capacity where
  buckets := by
    rw [MemoryThrottleState.counted, size_insert, size_erase hBucket]
    exact h.buckets
  expirations := h.expirations
  insertionOrder := h.insertionOrder
  indexed := h.indexed.counted hBucket
  queued := by
    intro other found hFound
    by_cases hKey : other = key
    · subst hKey
      rw [MemoryThrottleState.counted, AList.lookup_insert] at hFound
      cases hFound
      exact h.queued other bucket hBucket
    · rw [MemoryThrottleState.counted, AList.lookup_insert_ne hKey] at hFound
      exact h.queued other found hFound

/-! ## Calls -/

/-- A call keeps the bounds, and neither of its `expect`s fails. -/
theorem Bounded.increment (h : s.Bounded capacity) (hCapacity : 0 < capacity) (clock : Clock)
    (order : BucketOrder) (now : Instant) (key : String) (window : Duration) :
    (s.increment clock order capacity now key window).2.Bounded capacity ∧
      ∀ message, (s.increment clock order capacity now key window).1 ≠ .error (.panic message) := by
  have hSwept := h.swept now
  cases hBucket : (s.swept now).buckets.lookup key with
  | some bucket =>
    rw [increment_hit hBucket]
    refine ⟨hSwept.uncompacted.compact.counted ?_, by simp⟩
    rw [compact_buckets, hBucket]
  | none =>
    cases hClock : clock.checkedAdd now window with
    | none =>
      rw [increment_refused hBucket hClock]
      refine ⟨hSwept, ?_⟩
      intro message hPanic
      cases hPanic
    | some expiresAt =>
      obtain ⟨hRoom, hSize⟩ := hSwept.makeRoom hCapacity (contains_eq_false hBucket)
      rw [increment_fresh hBucket hClock]
      refine ⟨(hRoom.insertBucket hSize expiresAt).compact.counted ?_, by simp⟩
      rw [compact_buckets]
      exact AList.lookup_insert _

/-- A call on a full store for a key without a live bucket evicts a live bucket. -/
theorem Bounded.victim (h : s.Bounded capacity) (hCapacity : 0 < capacity) (now : Instant)
    (hNew : (s.swept now).contains key = false) (hFull : capacity ≤ size (s.swept now).buckets) :
    ∃ victim bucket, s.buckets.lookup victim = some bucket ∧ now < bucket.expiresAt ∧
      ((s.swept now).makeRoom capacity key).buckets = (s.swept now).buckets.erase victim := by
  obtain ⟨victim, bucket, hVictim, hErased, -, -⟩ :=
    (h.swept now).makeRoom_victim hCapacity hNew hFull
  obtain ⟨hStored, hLive⟩ := h.indexed.swept_live hVictim
  exact ⟨victim, bucket, hStored, hLive, hErased⟩

end Parts

end MemoryThrottleState

/-! ## Runs -/

/-- What holds of a store between calls. -/
def BoundedStore (capacity : Nat) (store : MemoryThrottleStore) : Prop :=
  store.capacity = max capacity 1 ∧ store.state.Bounded (max capacity 1)

theorem boundedStore_withCapacity (capacity : Nat) : BoundedStore capacity (.withCapacity capacity) :=
  ⟨rfl, MemoryThrottleState.bounded_default _⟩

/-- The result of a call is not a panic. -/
def NoPanic (result : Except Fault ThrottleStoreRecord) : Prop :=
  ∀ message, result ≠ .error (.panic message)

theorem max_one_pos (capacity : Nat) : 0 < max capacity 1 :=
  Nat.lt_of_lt_of_le Nat.one_pos (Nat.le_max_right ..)

theorem BoundedStore.call {capacity : Nat} (clock : Clock) (c : ThrottleCall)
    (store : MemoryThrottleStore) (h : BoundedStore capacity store) :
    BoundedStore capacity (store.call clock c).2 ∧ NoPanic (store.call clock c).1 := by
  obtain ⟨hCapacity, hBounded⟩ := h
  obtain ⟨hKept, hNoPanic⟩ :=
    hBounded.increment (max_one_pos capacity) clock c.order c.now c.key c.window
  unfold MemoryThrottleStore.call MemoryThrottleStore.increment BoundedStore
  rw [hCapacity]
  exact ⟨⟨rfl, hKept⟩, hNoPanic⟩

/-- After every run of calls the buckets and both indexes are bounded and the entries of
every bucket are in the indexes; no call of the run panics; and a next call on a full store
finds a live bucket to evict. The readings of the clock need not even be in order. -/
theorem memoryThrottle_bounded (clock : Clock) (capacity : Nat) (calls : List ThrottleCall) :
    let reached := Runs.run (MemoryThrottleStore.call clock) calls (.withCapacity capacity)
    reached.2.capacity = max capacity 1 ∧ reached.2.state.Bounded (max capacity 1) ∧
      (∀ result ∈ reached.1, ∀ message, result ≠ .error (.panic message)) ∧
      ∀ next : ThrottleCall,
        let s := reached.2.state.swept next.now
        s.contains next.key = false → max capacity 1 ≤ size s.buckets →
          ∃ victim bucket, reached.2.state.buckets.lookup victim = some bucket ∧
            next.now < bucket.expiresAt ∧
            (s.makeRoom (max capacity 1) next.key).buckets = s.buckets.erase victim := by
  intro reached
  obtain ⟨⟨hCapacity, hBounded⟩, hResults⟩ :=
    Runs.run_ensures (I := BoundedStore capacity) (Q := NoPanic) (BoundedStore.call clock) calls
      (boundedStore_withCapacity capacity)
  refine ⟨hCapacity, hBounded, hResults, ?_⟩
  intro next s hNew hFull
  exact hBounded.victim (max_one_pos capacity) next.now hNew hFull

end Caelix
