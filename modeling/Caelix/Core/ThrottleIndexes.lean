import Caelix.Core.Throttle

/-!
# What an increment does to the buckets

The heap holds an entry for every live bucket (`Indexed`); with that alone, a call first
removes exactly the expired buckets and then acts on the bucket of its key.

* `expire_spec`: the loop over the heap.
* `increment_hit`, `increment_refused`, `increment_fresh`: the three ways a call can end, in
  terms of the buckets that are live at its reading.
-/

namespace Caelix

open Table

namespace MemoryThrottleState

/-- Every bucket has its entry in the heap. -/
def Indexed (s : MemoryThrottleState) : Prop :=
  ∀ key bucket, s.buckets.lookup key = some bucket → bucket.expiration key ∈ s.expirations

theorem indexed_default : default.Indexed := by
  intro key bucket h
  cases h

theorem expiresAt_le {x y : Expiration} (h : x ≤ y) : x.expiresAt ≤ y.expiresAt := by
  rcases Prod.Lex.le_iff.mp h with hLt | ⟨hEq, -⟩
  · exact Nat.le_of_lt hLt
  · exact Nat.le_of_eq hEq

/-- The bucket of a key, if it is live at a reading. -/
def live (now : Instant) (s : MemoryThrottleState) (key : String) : Option MemoryBucket :=
  (s.buckets.lookup key).filter fun bucket => now < bucket.expiresAt

/-- Taking one expired entry from the heap, and the bucket it stands for. -/
def dropExpired (now : Instant) (x : Expiration) (s : MemoryThrottleState) : MemoryThrottleState :=
  let expired := (s.buckets.lookup x.key).any fun bucket =>
    bucket.generation = x.generation && bucket.expiresAt ≤ now
  { s with
    expirations := Heap.pop s.expirations
    buckets := if expired then s.buckets.erase x.key else s.buckets }

theorem dropExpired_lookup (now : Instant) (x : Expiration) (s : MemoryThrottleState) (key : String) :
    (dropExpired now x s).buckets.lookup key = s.buckets.lookup key ∨
      x.key = key ∧ (dropExpired now x s).buckets.lookup key = none ∧
        ∃ bucket, s.buckets.lookup key = some bucket ∧ bucket.expiresAt ≤ now := by
  unfold dropExpired
  dsimp only
  split
  · next hExpired =>
    by_cases hKey : key = x.key
    · subst hKey
      refine .inr ⟨rfl, AList.lookup_erase .., ?_⟩
      rw [Option.any_eq_true] at hExpired
      obtain ⟨bucket, hBucket, hOld⟩ := hExpired
      rw [Bool.and_eq_true, decide_eq_true_eq, decide_eq_true_eq] at hOld
      exact ⟨bucket, hBucket, hOld.2⟩
    · exact .inl (AList.lookup_erase_ne hKey)
  · exact .inl rfl

theorem dropExpired_live {now : Instant} {x : Expiration} {s : MemoryThrottleState} (key : String) :
    (dropExpired now x s).live now key = s.live now key := by
  unfold live
  rcases dropExpired_lookup now x s key with h | ⟨-, hNone, bucket, hBucket, hOld⟩
  · rw [h]
  · rw [hNone, hBucket, Option.filter_none, Option.filter_some, if_neg]
    simpa using hOld

theorem Indexed.dropExpired {now : Instant} {x : Expiration} {s : MemoryThrottleState}
    (h : s.Indexed) (hPeek : Heap.peek s.expirations = some x) (hx : x.expiresAt ≤ now) :
    (dropExpired now x s).Indexed := by
  intro key bucket hBucket
  have hOld : s.buckets.lookup key = some bucket := by
    rcases dropExpired_lookup now x s key with hSame | ⟨-, hNone, -⟩
    · rw [← hSame, hBucket]
    · rw [hNone] at hBucket
      cases hBucket
  refine Heap.mem_pop_of_ne hPeek (h key bucket hOld) ?_
  intro hEq
  -- The entry taken from the heap would be that of a bucket which is then removed.
  subst hEq
  have hRemoved : ((s.buckets.lookup key).any fun b =>
      b.generation = bucket.generation && b.expiresAt ≤ now) = true := by
    rw [hOld, Option.any_some, Bool.and_eq_true, decide_eq_true_eq, decide_eq_true_eq]
    exact ⟨rfl, hx⟩
  have hErased : (MemoryThrottleState.dropExpired now (bucket.expiration key) s).buckets =
      s.buckets.erase key := if_pos hRemoved
  rw [hErased, AList.lookup_erase] at hBucket
  cases hBucket

theorem expire_succ {now : Instant} {rounds : Nat} {s : MemoryThrottleState} :
    expire now (rounds + 1) s =
      match Heap.peek s.expirations with
      | none => s
      | some x => if now < x.expiresAt then s else expire now rounds (dropExpired now x s) := rfl

/-- When the heap has no expired entry, every bucket is live. -/
theorem Indexed.live_eq {now : Instant} {s : MemoryThrottleState} (h : s.Indexed)
    (hLater : ∀ x ∈ s.expirations, now < x.expiresAt) (key : String) :
    s.live now key = s.buckets.lookup key := by
  unfold live
  cases hBucket : s.buckets.lookup key with
  | none => rfl
  | some bucket =>
    have hLt : now < bucket.expiresAt := hLater _ (h key bucket hBucket)
    rw [Option.filter_some, if_pos (by simpa using hLt)]

/-- The loop over the heap leaves exactly the live buckets, and the queue as it was. -/
theorem expire_spec {now : Instant} {rounds : Nat} {s : MemoryThrottleState} (h : s.Indexed)
    (hRounds : s.expirations.length ≤ rounds) :
    (expire now rounds s).Indexed ∧
    (∀ key, (expire now rounds s).buckets.lookup key = s.live now key) ∧
    (expire now rounds s).insertionOrder = s.insertionOrder ∧
    (expire now rounds s).nextGeneration = s.nextGeneration := by
  induction rounds generalizing s with
  | zero =>
    have hEmpty : s.expirations = [] := List.length_eq_zero_iff.mp (Nat.le_zero.mp hRounds)
    refine ⟨h, fun key => (h.live_eq ?_ key).symm, rfl, rfl⟩
    intro x hx
    rw [hEmpty] at hx
    cases hx
  | succ rounds ih =>
    rw [expire_succ]
    cases hPeek : Heap.peek s.expirations with
    | none =>
      refine ⟨h, fun key => (h.live_eq ?_ key).symm, rfl, rfl⟩
      intro x hx
      rw [Heap.peek_eq_none_iff.mp hPeek] at hx
      cases hx
    | some x =>
      dsimp only
      by_cases hLater : now < x.expiresAt
      · rw [if_pos hLater]
        refine ⟨h, fun key => (h.live_eq ?_ key).symm, rfl, rfl⟩
        intro y hy
        exact Nat.lt_of_lt_of_le hLater (expiresAt_le (Heap.peek_le hPeek hy))
      · rw [if_neg hLater]
        have hPop := Heap.length_pop hPeek
        have hLength : (dropExpired now x s).expirations.length ≤ rounds := by
          show (Heap.pop s.expirations).length ≤ rounds
          omega
        obtain ⟨hIndexed, hLive, hQueue, hNext⟩ :=
          ih (h.dropExpired hPeek (Nat.le_of_not_lt hLater)) hLength
        exact ⟨hIndexed, fun key => (hLive key).trans (dropExpired_live key), hQueue, hNext⟩

/-! ## The other parts of a call -/

section Parts

variable {s : MemoryThrottleState} {key : String} {bucket : MemoryBucket} {order : BucketOrder}
  {capacity : Nat}

theorem contains_iff : s.contains key = true ↔ ∃ bucket, s.buckets.lookup key = some bucket :=
  Option.isSome_iff_exists

theorem contains_of_lookup (h : s.buckets.lookup key = some bucket) : s.contains key = true :=
  contains_iff.mpr ⟨bucket, h⟩

theorem contains_eq_false (h : s.buckets.lookup key = none) : s.contains key = false := by
  rw [contains, h, Option.isSome_none]

theorem makeRoom_of_contains (h : s.contains key = true) : makeRoom capacity key s = s := by
  rw [makeRoom, h]
  rfl

theorem makeRoom_of_room (h : size s.buckets < capacity) : makeRoom capacity key s = s := by
  have hNot : decide (capacity ≤ size s.buckets) = false := decide_eq_false (Nat.not_le_of_lt h)
  rw [makeRoom, hNot, Bool.and_false]
  rfl

theorem makeRoom_of_full (hNew : s.contains key = false) (h : capacity ≤ size s.buckets) :
    makeRoom capacity key s =
      { s with
        buckets := (evictOldest s.buckets s.insertionOrder).1
        insertionOrder := (evictOldest s.buckets s.insertionOrder).2 } := by
  rw [makeRoom, hNew, decide_eq_true h]
  rfl

@[simp] theorem compactExpirations_buckets :
    (compactExpirations order capacity s).buckets = s.buckets := by
  unfold compactExpirations
  split <;> rfl

@[simp] theorem compactExpirations_insertionOrder :
    (compactExpirations order capacity s).insertionOrder = s.insertionOrder := by
  unfold compactExpirations
  split <;> rfl

@[simp] theorem compactExpirations_nextGeneration :
    (compactExpirations order capacity s).nextGeneration = s.nextGeneration := by
  unfold compactExpirations
  split <;> rfl

@[simp] theorem compactInsertions_buckets :
    (compactInsertions order capacity s).buckets = s.buckets := by
  unfold compactInsertions
  split <;> rfl

@[simp] theorem compactInsertions_expirations :
    (compactInsertions order capacity s).expirations = s.expirations := by
  unfold compactInsertions
  split <;> rfl

@[simp] theorem compactInsertions_nextGeneration :
    (compactInsertions order capacity s).nextGeneration = s.nextGeneration := by
  unfold compactInsertions
  split <;> rfl

theorem Indexed.compactExpirations (h : s.Indexed) :
    (s.compactExpirations order capacity).Indexed := by
  unfold MemoryThrottleState.compactExpirations
  split
  · intro key bucket hBucket
    refine List.mem_map.mpr ⟨⟨key, bucket⟩, ?_, rfl⟩
    exact (order.perm s.buckets).mem_iff.mpr (lookup_eq_some_iff.mp hBucket)
  · exact h

theorem Indexed.compactInsertions (h : s.Indexed) :
    (s.compactInsertions order capacity).Indexed := by
  intro key bucket hBucket
  rw [compactInsertions_buckets] at hBucket
  rw [compactInsertions_expirations]
  exact h key bucket hBucket

/-- The two compactions at the end of a call. -/
def compact (order : BucketOrder) (capacity : Nat) (s : MemoryThrottleState) : MemoryThrottleState :=
  compactInsertions order capacity (compactExpirations order capacity s)

@[simp] theorem compact_buckets : (compact order capacity s).buckets = s.buckets := by
  simp [compact]

@[simp] theorem compact_nextGeneration :
    (compact order capacity s).nextGeneration = s.nextGeneration := by
  simp [compact]

theorem Indexed.compact (h : s.Indexed) : (s.compact order capacity).Indexed :=
  h.compactExpirations.compactInsertions

theorem Indexed.insertBucket (h : s.Indexed) (expiresAt : Instant) :
    (s.insertBucket key expiresAt).Indexed := by
  intro other bucket hBucket
  by_cases hKey : other = key
  · subst hKey
    rw [MemoryThrottleState.insertBucket, AList.lookup_insert] at hBucket
    cases hBucket
    exact List.mem_cons_self ..
  · rw [MemoryThrottleState.insertBucket, AList.lookup_insert_ne hKey] at hBucket
    exact List.mem_cons_of_mem _ (h other bucket hBucket)

/-- The state with one more hit on a bucket. -/
def counted (key : String) (bucket : MemoryBucket) (s : MemoryThrottleState) : MemoryThrottleState :=
  { s with buckets := s.buckets.insert key { bucket with count := saturatingAdd bucket.count 1 } }

theorem countHit_of_lookup (now : Instant) (h : s.buckets.lookup key = some bucket) :
    countHit now key s =
      (.ok ⟨saturatingAdd bucket.count 1, bucket.expiresAt.saturatingDurationSince now⟩,
        s.counted key bucket) := by
  rw [countHit, h]
  rfl

theorem Indexed.counted (h : s.Indexed) (hBucket : s.buckets.lookup key = some bucket) :
    (s.counted key bucket).Indexed := by
  intro other found hFound
  by_cases hKey : other = key
  · subst hKey
    rw [MemoryThrottleState.counted, AList.lookup_insert] at hFound
    cases hFound
    exact h other bucket hBucket
  · rw [MemoryThrottleState.counted, AList.lookup_insert_ne hKey] at hFound
    exact h other found hFound

end Parts

/-! ## The three ways a call can end -/

section Increment

variable {clock : Clock} {order : BucketOrder} {capacity : Nat} {now : Instant} {key : String}
  {window : Duration} {s : MemoryThrottleState}

/-- The state in which a call at a reading looks for its bucket. -/
def swept (now : Instant) (s : MemoryThrottleState) : MemoryThrottleState :=
  expire now s.expirations.length s

theorem Indexed.swept (h : s.Indexed) (now : Instant) : (s.swept now).Indexed :=
  (expire_spec h le_rfl).1

theorem Indexed.swept_lookup (h : s.Indexed) (now : Instant) (key : String) :
    (s.swept now).buckets.lookup key = s.live now key := (expire_spec h le_rfl).2.1 key

theorem Indexed.swept_insertionOrder (h : s.Indexed) (now : Instant) :
    (s.swept now).insertionOrder = s.insertionOrder := (expire_spec h le_rfl).2.2.1

theorem Indexed.swept_nextGeneration (h : s.Indexed) (now : Instant) :
    (s.swept now).nextGeneration = s.nextGeneration := (expire_spec h le_rfl).2.2.2

theorem increment_eq : s.increment clock order capacity now key window =
    match newExpiresAt clock now key window (s.swept now) with
    | .error e => (.error e, s.swept now)
    | .ok expiresAt =>
      match ensureBucket key expiresAt (makeRoom capacity key (s.swept now)) with
      | .error e => (.error e, makeRoom capacity key (s.swept now))
      | .ok s => countHit now key (s.compact order capacity) := rfl

theorem increment_hit {bucket : MemoryBucket}
    (hBucket : (s.swept now).buckets.lookup key = some bucket) :
    s.increment clock order capacity now key window =
      (.ok ⟨saturatingAdd bucket.count 1, bucket.expiresAt.saturatingDurationSince now⟩,
        ((s.swept now).compact order capacity).counted key bucket) := by
  have hContains := contains_of_lookup hBucket
  have hCompact : ((s.swept now).compact order capacity).buckets.lookup key = some bucket := by
    rw [compact_buckets, hBucket]
  rw [← countHit_of_lookup now hCompact]
  rw [increment_eq, newExpiresAt, if_pos hContains, makeRoom_of_contains hContains]
  dsimp only
  rw [ensureBucket, if_pos hContains]

theorem increment_refused (hNew : (s.swept now).buckets.lookup key = none)
    (hClock : clock.checkedAdd now window = none) :
    s.increment clock order capacity now key window =
      (.error (.startup "throttle window exceeds the clock range"), s.swept now) := by
  have hContains := contains_eq_false hNew
  rw [increment_eq, newExpiresAt, hContains, hClock]
  rfl

/-- Making room never brings back the bucket of a key. -/
theorem evictOldest_lookup {buckets : Table String MemoryBucket} (queue : List (Nat × String))
    (other : String) :
    (evictOldest buckets queue).1.lookup other = buckets.lookup other ∨
      (evictOldest buckets queue).1.lookup other = none := by
  induction queue with
  | nil => exact .inl rfl
  | cons x later ih =>
    obtain ⟨generation, oldest⟩ := x
    rw [evictOldest]
    split
    · by_cases hKey : other = oldest
      · exact .inr (hKey ▸ AList.lookup_erase ..)
      · exact .inl (AList.lookup_erase_ne hKey)
    · exact ih

theorem makeRoom_lookup (capacity : Nat) (key : String) (s : MemoryThrottleState) (other : String) :
    (makeRoom capacity key s).buckets.lookup other = s.buckets.lookup other ∨
      (makeRoom capacity key s).buckets.lookup other = none := by
  unfold makeRoom
  split
  · exact evictOldest_lookup s.insertionOrder other
  · exact .inl rfl

theorem makeRoom_expirations : (makeRoom capacity key s).expirations = s.expirations := by
  unfold makeRoom
  split <;> rfl

theorem Indexed.makeRoom (h : s.Indexed) : (s.makeRoom capacity key).Indexed := by
  intro other bucket hBucket
  rw [makeRoom_expirations]
  rcases makeRoom_lookup capacity key s other with hSame | hNone
  · exact h other bucket (hSame ▸ hBucket)
  · rw [hNone] at hBucket
    cases hBucket

theorem increment_fresh {expiresAt : Instant} (hNew : (s.swept now).buckets.lookup key = none)
    (hClock : clock.checkedAdd now window = some expiresAt) :
    s.increment clock order capacity now key window =
      (.ok ⟨1, expiresAt.saturatingDurationSince now⟩,
        ((((s.swept now).makeRoom capacity key).insertBucket key expiresAt).compact order
          capacity).counted key
            ⟨0, expiresAt, wrappingAdd ((s.swept now).makeRoom capacity key).nextGeneration 1⟩) := by
  have hContains := contains_eq_false hNew
  have hRoom : ((s.swept now).makeRoom capacity key).contains key = false := by
    refine contains_eq_false ?_
    rcases makeRoom_lookup capacity key (s.swept now) key with h | h
    · rw [h, hNew]
    · exact h
  have hInserted : ((((s.swept now).makeRoom capacity key).insertBucket key expiresAt).compact order
      capacity).buckets.lookup key =
        some ⟨0, expiresAt, wrappingAdd ((s.swept now).makeRoom capacity key).nextGeneration 1⟩ := by
    rw [compact_buckets]
    exact AList.lookup_insert _
  have hOne : saturatingAdd 0 1 = 1 := by decide
  have hHit := countHit_of_lookup now hInserted
  rw [hOne] at hHit
  rw [← hHit]
  rw [increment_eq, newExpiresAt, hContains, hClock]
  dsimp only
  rw [if_neg Bool.false_ne_true]
  dsimp only
  rw [ensureBucket, hRoom, if_neg Bool.false_ne_true]

theorem Indexed.size_swept_le (h : s.Indexed) (now : Instant) :
    size (s.swept now).buckets ≤ size s.buckets := by
  have hLive : (s.swept now).buckets.entries.Perm
      (retain (fun _ bucket => decide (now < bucket.expiresAt)) s.buckets).entries := by
    refine perm_of_lookup (.refl _) ?_
    intro key
    rw [h.swept_lookup, lookup_retain]
    rfl
  rw [size_of_perm hLive.symm]
  exact size_retain_le _ _

/-- What a call counts, when its bucket at its reading is `old`. -/
def nextHit (now : Instant) (window : Duration) : Option MemoryBucket → Nat × Instant
  | some bucket => (saturatingAdd bucket.count 1, bucket.expiresAt)
  | none => (1, now + window)

/-- A call with room for its bucket counts one hit for its key and, besides that, only
removes expired buckets. -/
theorem increment_effect (order : BucketOrder) (key : String) (h : s.Indexed)
    (hRoom : s.live now key = none → size (s.swept now).buckets < capacity)
    (hClock : s.live now key = none → now + window ≤ clock.latest) :
    ∃ s' bucket, s.increment clock order capacity now key window =
        (.ok ⟨(nextHit now window (s.live now key)).1,
          (nextHit now window (s.live now key)).2 - now⟩, s') ∧
      s'.Indexed ∧ s'.buckets.lookup key = some bucket ∧
      (bucket.count, bucket.expiresAt) = nextHit now window (s.live now key) ∧
      ∀ other, other ≠ key → s'.buckets.lookup other = s.live now other := by
  have hSwept := h.swept now
  have hLookup := h.swept_lookup now
  cases hLive : s.live now key with
  | some bucket =>
    have hBucket : (s.swept now).buckets.lookup key = some bucket := (hLookup key).trans hLive
    have hCompact : ((s.swept now).compact order capacity).buckets.lookup key = some bucket := by
      rw [compact_buckets, hBucket]
    refine ⟨_, _, increment_hit hBucket, hSwept.compact.counted hCompact,
      AList.lookup_insert _, rfl, ?_⟩
    intro other hOther
    refine (AList.lookup_insert_ne hOther).trans ?_
    rw [compact_buckets, hLookup]
  | none =>
    have hBucket : (s.swept now).buckets.lookup key = none := (hLookup key).trans hLive
    have hRange : clock.checkedAdd now window = some (now + window) :=
      Clock.checkedAdd_eq_some_iff.mpr ⟨hClock hLive, rfl⟩
    have hSame : makeRoom capacity key (s.swept now) = s.swept now := makeRoom_of_room (hRoom hLive)
    have hFresh : s.increment clock order capacity now key window = _ :=
      increment_fresh hBucket hRange
    rw [hSame] at hFresh
    refine ⟨_, _, hFresh, (hSwept.insertBucket _).compact.counted ?_, AList.lookup_insert _, ?_, ?_⟩
    · rw [compact_buckets]
      exact AList.lookup_insert _
    · rfl
    · intro other hOther
      refine (AList.lookup_insert_ne hOther).trans ?_
      rw [compact_buckets]
      exact (AList.lookup_insert_ne hOther).trans (hLookup other)

/-! ## A store for one key -/

/-- No other key has a bucket. -/
def Only (key : String) (s : MemoryThrottleState) : Prop :=
  s.Indexed ∧ ∀ other, other ≠ key → s.buckets.lookup other = none

theorem only_default (key : String) : default.Only key :=
  ⟨indexed_default, fun _ _ => rfl⟩

theorem Only.size_le (h : s.Only key) : size s.buckets ≤ 1 :=
  size_le_one fun other hOther => h.2 other hOther

theorem Only.swept (h : s.Only key) (now : Instant) : (s.swept now).Only key := by
  refine ⟨h.1.swept now, ?_⟩
  intro other hOther
  rw [h.1.swept_lookup, live, h.2 other hOther, Option.filter_none]

theorem Only.size_swept (h : s.Only key) (hLive : s.live now key = none) :
    size (s.swept now).buckets = 0 := by
  refine size_eq_zero ?_
  intro other
  by_cases hKey : other = key
  · rw [hKey, h.1.swept_lookup, hLive]
  · exact (h.swept now).2 other hKey

/-- A call for the key never evicts a bucket. -/
theorem Only.increment_effect (order : BucketOrder) (h : s.Only key) (hCapacity : 0 < capacity)
    (hClock : s.live now key = none → now + window ≤ clock.latest) :
    ∃ s' bucket, s.increment clock order capacity now key window =
        (.ok ⟨(nextHit now window (s.live now key)).1,
          (nextHit now window (s.live now key)).2 - now⟩, s') ∧
      s'.Only key ∧ s'.buckets.lookup key = some bucket ∧
      (bucket.count, bucket.expiresAt) = nextHit now window (s.live now key) := by
  have hRoom : s.live now key = none → size (s.swept now).buckets < capacity := by
    intro hLive
    rw [h.size_swept hLive]
    exact hCapacity
  obtain ⟨s', bucket, hIncrement, hIndexed, hBucket, hCounted, hOthers⟩ :=
    MemoryThrottleState.increment_effect order key h.1 hRoom hClock
  refine ⟨s', bucket, hIncrement, ⟨hIndexed, ?_⟩, hBucket, hCounted⟩
  intro other hOther
  rw [hOthers other hOther, live, h.2 other hOther, Option.filter_none]

end Increment

end MemoryThrottleState

end Caelix
