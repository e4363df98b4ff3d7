import Mathlib.Data.Prod.Lex
import Mathlib.Data.List.Sort
import Mathlib.Data.String.Basic
import Caelix.Lib.Heap
import Caelix.Lib.Table
import Caelix.Core.Clock
import Caelix.Core.Exception

/-!
# The in-memory throttle store

`MemoryThrottleStore` of `throttle.rs`: the live buckets, a heap of their expirations and a
queue of their creations. An index entry outlives its bucket when the bucket is evicted or,
in the queue, when it expires; a generation tells a bucket from an older one of the same
key. `order` is the order in which the hash map lists its entries during a call.

* `expire_lookup`: whatever the indexes hold besides the live buckets, the loop over the
  heap removes exactly the buckets that have expired.
-/

namespace Caelix

open Table

structure ThrottleStoreRecord where
  count : Nat
  retryAfter : Duration
  deriving DecidableEq, Repr

structure MemoryBucket where
  count : Nat
  expiresAt : Instant
  generation : Nat
  deriving DecidableEq, Repr

/-- `(Instant, u64, String)`, in the order of the tuples. -/
abbrev Expiration := Instant ×ₗ Nat ×ₗ String

def MemoryBucket.expiration (key : String) (bucket : MemoryBucket) : Expiration :=
  toLex (bucket.expiresAt, toLex (bucket.generation, key))

namespace Expiration

def expiresAt (x : Expiration) : Instant := (ofLex x).1

def generation (x : Expiration) : Nat := (ofLex (ofLex x).2).1

def key (x : Expiration) : String := (ofLex (ofLex x).2).2

end Expiration

abbrev BucketOrder := Iteration String MemoryBucket

structure MemoryThrottleState where
  buckets : Table String MemoryBucket
  expirations : Heap Expiration
  insertionOrder : List (Nat × String)
  nextGeneration : Nat

/-- `u64::MAX`. -/
def u64Max : Nat := 2 ^ 64 - 1

/-- `u64::saturating_add`. -/
def saturatingAdd (a b : Nat) : Nat := min (a + b) u64Max

/-- `u64::wrapping_add`. -/
def wrappingAdd (a b : Nat) : Nat := (a + b) % 2 ^ 64

/-- `usize::saturating_mul`, on a 64-bit platform. -/
def saturatingMul (a b : Nat) : Nat := min (a * b) u64Max

namespace MemoryThrottleState

/-- `MemoryThrottleState::default`. -/
def default : MemoryThrottleState := ⟨∅, [], [], 0⟩

def contains (s : MemoryThrottleState) (key : String) : Bool := (s.buckets.lookup key).isSome

/-- The bucket of a key is the one a generation stands for. -/
def isCurrent (buckets : Table String MemoryBucket) (key : String) (generation : Nat) : Bool :=
  (buckets.lookup key).any fun bucket => bucket.generation = generation

/-- The loop over the heap; `rounds` is enough when it is the size of the heap. -/
def expire (now : Instant) : Nat → MemoryThrottleState → MemoryThrottleState
  | 0, s => s
  | rounds + 1, s =>
    match Heap.peek s.expirations with
    | none => s
    | some x =>
      if now < x.expiresAt then s
      else
        let expired := (s.buckets.lookup x.key).any fun bucket =>
          bucket.generation = x.generation && bucket.expiresAt ≤ now
        expire now rounds
          { s with
            expirations := Heap.pop s.expirations
            buckets := if expired then s.buckets.erase x.key else s.buckets }

/-- The loop over the queue that evicts the oldest live bucket. -/
def evictOldest (buckets : Table String MemoryBucket) :
    List (Nat × String) → Table String MemoryBucket × List (Nat × String)
  | [] => (buckets, [])
  | (generation, oldest) :: later =>
    if isCurrent buckets oldest generation then (buckets.erase oldest, later)
    else evictOldest buckets later

def makeRoom (capacity : Nat) (key : String) (s : MemoryThrottleState) : MemoryThrottleState :=
  if !s.contains key && capacity ≤ size s.buckets then
    let x := evictOldest s.buckets s.insertionOrder
    { s with buckets := x.1, insertionOrder := x.2 }
  else s

def insertBucket (key : String) (expiresAt : Instant) (s : MemoryThrottleState) :
    MemoryThrottleState :=
  let generation := wrappingAdd s.nextGeneration 1
  let bucket : MemoryBucket := ⟨0, expiresAt, generation⟩
  { buckets := s.buckets.insert key bucket
    expirations := bucket.expiration key :: s.expirations
    insertionOrder := s.insertionOrder ++ [(generation, key)]
    nextGeneration := generation }

def compactExpirations (order : BucketOrder) (capacity : Nat) (s : MemoryThrottleState) :
    MemoryThrottleState :=
  if saturatingMul capacity 2 < s.expirations.length then
    { s with expirations := (order.visit s.buckets).map fun e => e.2.expiration e.1 }
  else s

def compactInsertions (order : BucketOrder) (capacity : Nat) (s : MemoryThrottleState) :
    MemoryThrottleState :=
  if saturatingMul capacity 2 < s.insertionOrder.length then
    let active := (order.visit s.buckets).map fun e => (e.2.generation, e.1)
    { s with insertionOrder := active.insertionSort fun a b => a.1 ≤ b.1 }
  else s

/-- The update of the bucket at the end of `increment`. -/
def countHit (now : Instant) (key : String) (s : MemoryThrottleState) :
    Except Fault ThrottleStoreRecord × MemoryThrottleState :=
  match s.buckets.lookup key with
  | none => (.error (.panic "throttle bucket was just inserted"), s)
  | some bucket =>
    let counted := { bucket with count := saturatingAdd bucket.count 1 }
    (.ok ⟨counted.count, counted.expiresAt.saturatingDurationSince now⟩,
      { s with buckets := s.buckets.insert key counted })

/-- The expiry of the bucket that a call creates, if it creates one. -/
def newExpiresAt (clock : Clock) (now : Instant) (key : String) (window : Duration)
    (s : MemoryThrottleState) : Except Fault (Option Instant) :=
  if s.contains key then .ok none
  else
    match clock.checkedAdd now window with
    | none => .error (.startup "throttle window exceeds the clock range")
    | some expiresAt => .ok (some expiresAt)

def ensureBucket (key : String) (expiresAt : Option Instant) (s : MemoryThrottleState) :
    Except Fault MemoryThrottleState :=
  if s.contains key then .ok s
  else
    match expiresAt with
    | none => .error (.panic "new throttle bucket must have an expiration")
    | some expiresAt => .ok (insertBucket key expiresAt s)

/-- What `increment` does under the lock. -/
def increment (clock : Clock) (order : BucketOrder) (capacity : Nat) (now : Instant)
    (key : String) (window : Duration) (s : MemoryThrottleState) :
    Except Fault ThrottleStoreRecord × MemoryThrottleState :=
  let s := expire now s.expirations.length s
  match newExpiresAt clock now key window s with
  | .error e => (.error e, s)
  | .ok expiresAt =>
    let s := makeRoom capacity key s
    match ensureBucket key expiresAt s with
    | .error e => (.error e, s)
    | .ok s => countHit now key (compactInsertions order capacity (compactExpirations order capacity s))

end MemoryThrottleState

structure MemoryThrottleStore where
  capacity : Nat
  state : MemoryThrottleState

/-- `with_capacity`. -/
def MemoryThrottleStore.withCapacity (capacity : Nat) : MemoryThrottleStore :=
  ⟨max capacity 1, .default⟩

def MemoryThrottleStore.increment (clock : Clock) (order : BucketOrder) (now : Instant)
    (key : String) (window : Duration) (store : MemoryThrottleStore) :
    Except Fault ThrottleStoreRecord × MemoryThrottleStore :=
  let x := store.state.increment clock order store.capacity now key window
  (x.1, { store with state := x.2 })

end Caelix
