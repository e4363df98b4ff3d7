import Mathlib
import Caelix.Lib.FixedWindow
import Caelix.Lib.Runs
import Caelix.Core.ThrottleCheck
import Caelix.Core.ThrottleIndexes

/-!
# Quotas

What a run of `Throttle::check` grants to each client, method and route, on a
`MemoryThrottleStore` that never reaches its capacity.

* `Mirrors`: for one triple, the store's bucket is the counter of the key's own readings,
  whatever was checked for other keys in between.
* `quota_of_triple`: each check is answered by its position in its window.
-/

namespace Caelix

open Table FixedWindow

/-- A call of `check` with its two clock readings, and the order in which the store's map
lists its entries during the call. -/
structure QuotaCheck (Ctx : Type) where
  context : Ctx
  method : String
  route : String
  policy : ThrottlePolicy
  validatedAt : Instant
  now : Instant
  order : BucketOrder

/-- Client, method and route. -/
abbrev Triple := String × String × String

section Checks

variable {Ctx : Type} (options : ThrottleOptions Ctx) (clock : Clock)

/-- The triple a check counts for, if its client can be identified. -/
def QuotaCheck.triple (c : QuotaCheck Ctx) : Option Triple :=
  match options.tracker c.context with
  | .ok client => some (client, c.method, c.route)
  | .error _ => none

def QuotaCheck.check (c : QuotaCheck Ctx) (store : MemoryThrottleStore) :
    Except Fault (Option HttpResponse) × MemoryThrottleStore :=
  Throttle.check options (MemoryThrottleStore.increment clock c.order c.now) clock c.validatedAt
    c.context c.method c.route c.policy store

/-- The readings of the checks of a triple. -/
def readings (q : Triple) (checks : List (QuotaCheck Ctx)) : List Instant :=
  (checks.filter fun c => c.triple options = some q).map QuotaCheck.now

/-- The store after some checks. -/
def storeAfter (capacity : Nat) (checks : List (QuotaCheck Ctx)) : MemoryThrottleStore :=
  (Runs.run (QuotaCheck.check options clock) checks (.withCapacity capacity)).2

/-- Checks under one policy for each route: the clock does not go back, and it can
represent the windows. -/
structure QuotaChecks (policyOf : String → ThrottlePolicy) (checks : List (QuotaCheck Ctx)) :
    Prop where
  fixed : ∀ c ∈ checks, c.policy = policyOf c.route
  ordered : (checks.flatMap fun c => [c.validatedAt, c.now]).Pairwise (· ≤ ·)
  accepted : ∀ c ∈ checks, validatePolicy clock c.now c.policy = .ok ()

/-- The run of these checks, when the store never reaches its capacity. -/
structure QuotaRun (capacity : Nat) (policyOf : String → ThrottlePolicy)
    (checks : List (QuotaCheck Ctx)) : Prop extends QuotaChecks clock policyOf checks where
  room : ∀ done later, checks = done ++ later →
    size (storeAfter options clock capacity done).state.buckets <
      (storeAfter options clock capacity done).capacity

/-- The answer to the check that is the last one in a window so far. -/
def windowAnswer (policy : ThrottlePolicy) (w : Window Instant) (now : Instant) :
    Except Fault (Option HttpResponse) :=
  if w.hits ≤ policy.limit ∨ policy.limit = u64Max then .ok none
  else .ok (some (rejection options.retryAfterHeader
    (if options.retryAfterHeader then secondsUp (w.start + policy.window - now) else 0)))

end Checks

/-! ## Rounding -/

theorem retryAfterSeconds_of_lt {remaining : Nat} (h : remaining < 2 ^ 63 * nanosPerSec) :
    retryAfterSeconds remaining = some (secondsUp remaining) := by
  have hWide : 2 ^ 63 * nanosPerSec ≤ u64Max * nanosPerSec :=
    Nat.mul_le_mul_right _ (by decide)
  rw [retryAfterSeconds_eq, if_pos (h.le.trans hWide)]

theorem remaining_le (remaining : Nat) : remaining ≤ secondsUp remaining * nanosPerSec := by
  unfold secondsUp nanosPerSec
  omega

/-! ## One key -/

section Run

variable {Ctx : Type} {options : ThrottleOptions Ctx} {clock : Clock} {capacity : Nat}
  {policyOf : String → ThrottlePolicy} {checks : List (QuotaCheck Ctx)}

theorem readings_append (q : Triple) (l l' : List (QuotaCheck Ctx)) :
    readings options q (l ++ l') = readings options q l ++ readings options q l' := by
  simp [readings]

theorem readings_singleton (q : Triple) (c : QuotaCheck Ctx) :
    readings options q [c] = if c.triple options = some q then [c.now] else [] := by
  unfold readings
  by_cases h : c.triple options = some q
  · simp [h]
  · simp [h]

/-- The end of a window of a route. -/
def windowEnd (policyOf : String → ThrottlePolicy) (q : Triple) (t : Instant) : Instant :=
  t + (policyOf q.2.2).window

/-- The bucket of a triple, at a reading, shows the counter of the triple's own checks. -/
def Shows (bucket : Option MemoryBucket) (counter : Option (Counter Instant)) (now : Instant) :
    Prop :=
  (bucket.filter fun b => now < b.expiresAt).map (fun b => (b.count, b.expiresAt)) =
    (counter.filter fun c => now < c.stop).map fun c => (min c.hits u64Max, c.stop)

/-- After the checks `done`: at every later reading the live bucket of the triple is the
counter of its own readings. -/
def Mirrors (options : ThrottleOptions Ctx) (policyOf : String → ThrottlePolicy) (q : Triple)
    (done : List (QuotaCheck Ctx)) (store : MemoryThrottleStore) : Prop :=
  store.state.Indexed ∧ ∀ now, (∀ c ∈ done, c.now ≤ now) →
    Shows (store.state.buckets.lookup (throttleKey q.1 q.2.1 q.2.2))
      (after (windowEnd policyOf q) (readings options q done)) now

theorem filter_live (bucket : Option MemoryBucket) {now later : Instant} (h : now ≤ later) :
    (bucket.filter fun b => now < b.expiresAt).filter (fun b => later < b.expiresAt) =
      bucket.filter fun b => later < b.expiresAt := by
  cases bucket with
  | none => rfl
  | some b =>
    by_cases hNow : now < b.expiresAt
    · rw [Option.filter_some (a := b), if_pos (decide_eq_true hNow)]
    · have hLater : ¬ later < b.expiresAt := fun hLater => hNow (Nat.lt_of_le_of_lt h hLater)
      rw [Option.filter_some (a := b), if_neg (by simpa using hNow), Option.filter_none,
        Option.filter_some, if_neg (by simpa using hLater)]

/-- The check counts one more hit on what its bucket shows. -/
theorem nextHit_shows {bucket : Option MemoryBucket} {counter : Option (Counter Instant)}
    {now : Instant} {window : Duration} {stop : Instant → Instant} (hStop : stop now = now + window)
    (h : Shows bucket counter now) :
    MemoryThrottleState.nextHit now window (bucket.filter fun b => now < b.expiresAt) =
      (min (hit stop now counter).hits u64Max, (hit stop now counter).stop) := by
  unfold Shows at h
  cases hLive : bucket.filter fun b => decide (now < b.expiresAt) with
  | none =>
    rw [hLive] at h
    have hClosed : hit stop now counter = ⟨1, now + window⟩ := by
      cases counter with
      | none => rw [hit, hStop]
      | some c =>
        by_cases hOpen : now < c.stop
        · rw [Option.filter_some, if_pos (decide_eq_true hOpen)] at h
          cases h
        · rw [hit_of_closed (Nat.le_of_not_lt hOpen), hStop]
    rw [hClosed]
    rfl
  | some b =>
    rw [hLive] at h
    cases counter with
    | none => cases h
    | some c =>
      by_cases hOpen : now < c.stop
      · rw [Option.filter_some, if_pos (decide_eq_true hOpen), Option.map_some, Option.map_some,
          Option.some.injEq, Prod.mk.injEq] at h
        rw [hit_of_open hOpen, MemoryThrottleState.nextHit, saturatingAdd, h.1, h.2]
        have hCount : min (min c.hits u64Max + 1) u64Max = min (c.hits + 1) u64Max := by omega
        rw [hCount]
      · rw [Option.filter_some, if_neg (by simpa using hOpen)] at h
        cases h

theorem check_of_tracker {c : QuotaCheck Ctx} {store : MemoryThrottleStore} {client : String}
    (hValid : validatePolicy clock c.validatedAt c.policy = .ok ())
    (hClient : options.tracker c.context = .ok client) {record : ThrottleStoreRecord}
    {s : MemoryThrottleState}
    (hIncrement : store.state.increment clock c.order store.capacity c.now
      (throttleKey client c.method c.route) c.policy.window = (.ok record, s)) :
    c.check options clock store =
      (answerCheck options.retryAfterHeader c.policy record, { store with state := s }) := by
  unfold QuotaCheck.check Throttle.check MemoryThrottleStore.increment
  rw [hValid, hClient]
  dsimp only
  rw [hIncrement]

theorem check_of_error {c : QuotaCheck Ctx} {store : MemoryThrottleStore} {e : HttpException}
    (hClient : options.tracker c.context = .error e) : (c.check options clock store).2 = store := by
  unfold QuotaCheck.check Throttle.check
  rw [hClient]
  cases validatePolicy clock c.validatedAt c.policy <;> rfl

/-- One check: its answer, if it counts for the triple, and the counter afterwards. -/
theorem tracks_check {q : Triple} {done : List (QuotaCheck Ctx)} {store : MemoryThrottleStore}
    {c : QuotaCheck Ctx} (h : Mirrors options policyOf q done store)
    (hPolicy : c.policy = policyOf c.route)
    (hValid : validatePolicy clock c.validatedAt c.policy = .ok ())
    (hRange : c.now + c.policy.window ≤ clock.latest)
    (hNow : ∀ earlier ∈ done, earlier.now ≤ c.now)
    (hRoom : size store.state.buckets < store.capacity) :
    Mirrors options policyOf q (done ++ [c]) (c.check options clock store).2 ∧
      (c.triple options = some q →
        (c.check options clock store).1 = answerCheck options.retryAfterHeader c.policy
          ⟨min (hit (windowEnd policyOf q) c.now
              (after (windowEnd policyOf q) (readings options q done))).hits u64Max,
            (hit (windowEnd policyOf q) c.now
              (after (windowEnd policyOf q) (readings options q done))).stop - c.now⟩) := by
  obtain ⟨hIndexed, hShows⟩ := h
  have hEarlier : ∀ now, (∀ a ∈ done ++ [c], a.now ≤ now) → (∀ a ∈ done, a.now ≤ now) ∧ c.now ≤ now :=
    fun now h => ⟨fun a ha => h a (List.mem_append_left _ ha),
      h c (List.mem_append_right _ (List.mem_singleton_self c))⟩
  cases hClient : options.tracker c.context with
  | error e =>
    have hNone : c.triple options ≠ some q := by simp [QuotaCheck.triple, hClient]
    refine ⟨?_, fun hq => absurd hq hNone⟩
    rw [check_of_error hClient]
    refine ⟨hIndexed, ?_⟩
    intro now hLater
    rw [readings_append, readings_singleton, if_neg hNone, List.append_nil]
    exact hShows now (hEarlier now hLater).1
  | ok client =>
    have hTriple : c.triple options = some (client, c.method, c.route) := by
      simp [QuotaCheck.triple, hClient]
    obtain ⟨s', bucket, hIncrement, hIndexed', hBucket, hCounted, hOthers⟩ :=
      MemoryThrottleState.increment_effect c.order (throttleKey client c.method c.route) hIndexed
        (fun _ => Nat.lt_of_le_of_lt (hIndexed.size_swept_le c.now) hRoom) (fun _ => hRange)
    rw [check_of_tracker hValid hClient hIncrement]
    by_cases hq : c.triple options = some q
    · obtain rfl : q = (client, c.method, c.route) := Option.some.inj (hq.symm.trans hTriple)
      have hStop : windowEnd policyOf (client, c.method, c.route) c.now =
          c.now + c.policy.window := by rw [windowEnd, hPolicy]
      have hHit := nextHit_shows hStop (hShows c.now hNow)
      rw [MemoryThrottleState.live] at hCounted ⊢
      rw [hHit] at hCounted ⊢
      refine ⟨⟨hIndexed', ?_⟩, fun _ => rfl⟩
      intro now hLater
      rw [readings_append, readings_singleton, if_pos hq, after_snoc]
      unfold Shows
      dsimp only
      rw [hBucket, Option.filter_some, Option.filter_some, (Prod.mk.inj hCounted).2]
      split
      · rw [Option.map_some, Option.map_some, hCounted]
      · rfl
    · refine ⟨⟨hIndexed', ?_⟩, fun hq' => absurd hq' hq⟩
      have hKey : throttleKey q.1 q.2.1 q.2.2 ≠ throttleKey client c.method c.route := by
        intro hEq
        obtain ⟨h₁, h₂, h₃⟩ := throttleKey_injective hEq
        apply hq
        rw [hTriple, ← h₁, ← h₂, ← h₃]
      intro now hLater
      rw [readings_append, readings_singleton, if_neg hq, List.append_nil]
      have hShown := hShows now (hEarlier now hLater).1
      unfold Shows at hShown ⊢
      dsimp only
      rw [hOthers _ hKey, MemoryThrottleState.live, filter_live _ (hEarlier now hLater).2]
      exact hShown

theorem QuotaChecks.earlier (h : QuotaChecks clock policyOf checks)
    {done later : List (QuotaCheck Ctx)} {c : QuotaCheck Ctx} (hChecks : checks = done ++ c :: later) :
    (∀ earlier ∈ done, earlier.now ≤ c.now) ∧ c.validatedAt ≤ c.now ∧
      ∀ after ∈ later, c.now ≤ after.now := by
  have hOrdered := h.ordered
  rw [hChecks, List.flatMap_append, List.flatMap_cons, List.pairwise_append,
    List.pairwise_append] at hOrdered
  obtain ⟨-, ⟨hOwn, -, hLater⟩, hEarlier⟩ := hOrdered
  refine ⟨?_, ?_, ?_⟩
  · intro a ha
    exact hEarlier a.now (List.mem_flatMap.mpr ⟨a, ha, by simp⟩) c.now (by simp)
  · simpa using hOwn
  · intro a ha
    exact hLater c.now (by simp) a.now (List.mem_flatMap.mpr ⟨a, ha, by simp⟩)

/-- What a check of the run meets: its policy is valid at both readings, its window can be
represented, and it comes after all earlier checks. -/
theorem QuotaChecks.valid (h : QuotaChecks clock policyOf checks)
    {done later : List (QuotaCheck Ctx)} {c : QuotaCheck Ctx} (hChecks : checks = done ++ c :: later) :
    validatePolicy clock c.validatedAt c.policy = .ok () ∧
      c.now + c.policy.window ≤ clock.latest := by
  have hMem : c ∈ checks := by rw [hChecks]; simp
  obtain ⟨hLimit, hWindow, hRange⟩ := validatePolicy_ok_iff.mp (h.accepted c hMem)
  have hReading := (h.earlier hChecks).2.1
  refine ⟨validatePolicy_ok_iff.mpr ⟨hLimit, hWindow, ?_⟩, hRange⟩
  exact (Nat.add_le_add_right hReading _).trans hRange

/-- Along the run, every triple is tracked. -/
theorem QuotaRun.tracks (h : QuotaRun options clock capacity policyOf checks) (q : Triple)
    {done later : List (QuotaCheck Ctx)} (hChecks : checks = done ++ later) :
    Mirrors options policyOf q done (storeAfter options clock capacity done) := by
  have hStart : Mirrors options policyOf q [] (.withCapacity capacity) :=
    ⟨MemoryThrottleState.indexed_default, fun _ _ => rfl⟩
  refine Runs.run_keeps (I := Mirrors options policyOf q) hStart done ?_
  intro before c rest hDone hTracks
  have hSplit : checks = before ++ c :: (rest ++ later) := by
    rw [hChecks, hDone, List.append_assoc, List.cons_append]
  obtain ⟨hValid, hRange⟩ := h.valid hSplit
  exact (tracks_check hTracks (h.fixed c (by rw [hSplit]; simp)) hValid hRange
    (h.earlier hSplit).1 (h.room before _ hSplit)).1

/-! ## Answers -/

theorem min_le_iff {hits limit : Nat} (hLimit : limit ≤ u64Max) :
    min hits u64Max ≤ limit ↔ hits ≤ limit ∨ limit = u64Max := by
  omega

theorem remaining_lt {start window now : Nat} (h : start + window ≤ clock.latest) :
    start + window - now < 2 ^ 63 * nanosPerSec :=
  Nat.lt_of_le_of_lt (Nat.sub_le ..) (Nat.lt_of_le_of_lt h clock.latest_lt)

theorem answerCheck_of_le {policy : ThrottlePolicy} {header : Bool} {record : ThrottleStoreRecord}
    (h : record.count ≤ policy.limit) : answerCheck header policy record = .ok none := if_pos h

theorem answerCheck_of_lt {policy : ThrottlePolicy} {header : Bool} {record : ThrottleStoreRecord}
    (h : ¬ record.count ≤ policy.limit) (hBound : record.retryAfter < 2 ^ 63 * nanosPerSec) :
    answerCheck header policy record =
      .ok (some (rejection header (if header then secondsUp record.retryAfter else 0))) := by
  unfold answerCheck
  rw [if_neg h]
  cases header with
  | false => rw [if_neg Bool.false_ne_true, if_neg Bool.false_ne_true]
  | true =>
    rw [retryAfterSeconds_of_lt hBound]
    simp only [if_true]

/-- The answer to a check, from the window its reading falls into. -/
theorem answerCheck_window {policy : ThrottlePolicy} {now : Nat} {w : Window Instant}
    (hRange : w.start + policy.window ≤ clock.latest) :
    answerCheck options.retryAfterHeader policy
        ⟨min w.hits u64Max, w.start + policy.window - now⟩ = windowAnswer options policy w now := by
  have hCount : min w.hits u64Max ≤ policy.limit ↔ _ := min_le_iff policy.limit_le
  unfold windowAnswer
  by_cases hAccept : w.hits ≤ policy.limit ∨ policy.limit = u64Max
  · rw [if_pos hAccept, answerCheck_of_le (hCount.mpr hAccept)]
  · rw [if_neg hAccept, answerCheck_of_lt (fun h => hAccept (hCount.mp h)) (remaining_lt hRange)]

theorem windowAnswer_of_lt {policy : ThrottlePolicy} {now : Nat} {w : Window Instant}
    (hHits : policy.limit < w.hits) (hLimit : policy.limit < u64Max) :
    windowAnswer options policy w now = .ok (some (rejection options.retryAfterHeader
      (if options.retryAfterHeader then secondsUp (w.start + policy.window - now) else 0))) := by
  have hReject : ¬ (w.hits ≤ policy.limit ∨ policy.limit = u64Max) := by omega
  rw [windowAnswer, if_neg hReject]

theorem windowAnswer_with_header {policy : ThrottlePolicy} {now : Nat} {w : Window Instant}
    {seconds : Nat} (hHits : policy.limit < w.hits) (hLimit : policy.limit < u64Max)
    (hHeader : options.retryAfterHeader = true)
    (hSeconds : secondsUp (w.start + policy.window - now) = seconds) :
    windowAnswer options policy w now = .ok (some (rejection true seconds)) := by
  rw [windowAnswer_of_lt hHits hLimit, hHeader, if_pos rfl, hSeconds]

theorem windowAnswer_without_header {policy : ThrottlePolicy} {now : Nat} {w : Window Instant}
    (hHits : policy.limit < w.hits) (hLimit : policy.limit < u64Max)
    (hHeader : options.retryAfterHeader = false) :
    windowAnswer options policy w now = .ok (some (rejection false 0)) := by
  rw [windowAnswer_of_lt hHits hLimit, hHeader, if_neg Bool.false_ne_true]

theorem mem_readings {q : Triple} {l : List (QuotaCheck Ctx)} {t : Instant}
    (h : t ∈ readings options q l) : ∃ c ∈ l, c.triple options = some q ∧ c.now = t := by
  obtain ⟨c, hc, rfl⟩ := List.mem_map.mp h
  obtain ⟨hMem, hTriple⟩ := List.mem_filter.mp hc
  exact ⟨c, hMem, of_decide_eq_true hTriple, rfl⟩

theorem route_of_triple {c : QuotaCheck Ctx} {q : Triple} (h : c.triple options = some q) :
    c.route = q.2.2 := by
  unfold QuotaCheck.triple at h
  split at h
  · rw [← Option.some.inj h]
  · cases h

/-- The windows that the checks of a triple open end within the range of the clock. -/
theorem QuotaChecks.windowEnd_le (h : QuotaChecks clock policyOf checks) {q : Triple} {t : Instant}
    (ht : t ∈ readings options q checks) : windowEnd policyOf q t ≤ clock.latest := by
  obtain ⟨c, hc, hTriple, rfl⟩ := mem_readings ht
  have hRange := (validatePolicy_ok_iff.mp (h.accepted c hc)).2.2
  rw [h.fixed c hc, route_of_triple hTriple] at hRange
  exact hRange

/-- The answer to a check, from the counter of its triple. -/
theorem QuotaRun.answer_hit (h : QuotaRun options clock capacity policyOf checks) {q : Triple}
    {done later : List (QuotaCheck Ctx)} {c : QuotaCheck Ctx} (hChecks : checks = done ++ c :: later)
    (hq : c.triple options = some q) {n : Counter Instant}
    (hAfter : after (windowEnd policyOf q) (readings options q (done ++ [c])) = some n) :
    (c.check options clock (storeAfter options clock capacity done)).1 =
      answerCheck options.retryAfterHeader (policyOf q.2.2) ⟨min n.hits u64Max, n.stop - c.now⟩ := by
  have hPolicy : c.policy = policyOf c.route := h.fixed c (by rw [hChecks]; simp)
  obtain ⟨hValid, hRange⟩ := h.valid hChecks
  have hAnswer := (tracks_check (h.tracks q hChecks) hPolicy hValid hRange (h.earlier hChecks).1
    (h.room done _ hChecks)).2 hq
  rw [readings_append, readings_singleton, if_pos hq, after_snoc] at hAfter
  rw [hAnswer, Option.some.inj hAfter, hPolicy, route_of_triple hq]

/-- A check falls into the last window of the readings so far, and this window decides. -/
theorem QuotaRun.answer (h : QuotaRun options clock capacity policyOf checks) {q : Triple}
    {done later : List (QuotaCheck Ctx)} {c : QuotaCheck Ctx} (hChecks : checks = done ++ c :: later)
    (hq : c.triple options = some q) :
    ∃ closed w, windows (windowEnd policyOf q) (readings options q (done ++ [c])) = closed ++ [w] ∧
      (c.check options clock (storeAfter options clock capacity done)).1 =
        windowAnswer options (policyOf q.2.2) w c.now := by
  have hLast : after (windowEnd policyOf q) (readings options q (done ++ [c])) = _ := after_eq_last _
  cases hWindows : (windows (windowEnd policyOf q) (readings options q (done ++ [c]))).getLast? with
  | none =>
    rw [hWindows, readings_append, readings_singleton, if_pos hq, after_snoc] at hLast
    cases hLast
  | some w =>
    rw [hWindows] at hLast
    obtain ⟨closed, hClosed⟩ := List.getLast?_eq_some_iff.mp hWindows
    refine ⟨closed, w, hClosed, ?_⟩
    rw [h.answer_hit hChecks hq hLast]
    have hStart : w.start ∈ readings options q checks := by
      have hMem : w.start ∈ readings options q (done ++ [c]) := start_mem (by rw [hClosed]; simp)
      rw [hChecks, ← List.singleton_append, ← List.append_assoc, readings_append]
      exact List.mem_append_left _ hMem
    exact answerCheck_window (h.windowEnd_le hStart)

/-- The first check after the end of the last window opens a new one, and is accepted. -/
theorem QuotaRun.answer_fresh (h : QuotaRun options clock capacity policyOf checks) {q : Triple}
    {done later : List (QuotaCheck Ctx)} {c : QuotaCheck Ctx} (hChecks : checks = done ++ c :: later)
    (hq : c.triple options = some q) {n : Counter Instant}
    (hAfter : after (windowEnd policyOf q) (readings options q done) = some n)
    (hClosed : n.stop ≤ c.now) :
    (c.check options clock (storeAfter options clock capacity done)).1 = .ok none := by
  have hFirst : after (windowEnd policyOf q) (readings options q (done ++ [c])) =
      some ⟨1, windowEnd policyOf q c.now⟩ := by
    rw [readings_append, readings_singleton, if_pos hq, after_snoc, hAfter, hit_of_closed hClosed]
  have hMem : c ∈ checks := by rw [hChecks]; simp
  have hLimit := (validatePolicy_ok_iff.mp (h.accepted c hMem)).1
  rw [h.fixed c hMem, route_of_triple hq] at hLimit
  rw [h.answer_hit hChecks hq hFirst, answerCheck_of_le]
  exact (Nat.min_le_left ..).trans hLimit

/-- The quota of a client, method and route: a check is answered by its position in its
window among the checks of the same triple, and once the announced seconds have passed, the
first check is accepted. -/
theorem quota_of_triple (h : QuotaRun options clock capacity policyOf checks) {q : Triple}
    {done later : List (QuotaCheck Ctx)} {c : QuotaCheck Ctx} (hChecks : checks = done ++ c :: later)
    (hq : c.triple options = some q) :
    ∃ closed w, windows (windowEnd policyOf q) (readings options q (done ++ [c])) = closed ++ [w] ∧
      (∃ extra opened, windows (windowEnd policyOf q) (readings options q checks) =
        closed ++ ⟨w.start, w.later ++ extra⟩ :: opened) ∧
      (c.check options clock (storeAfter options clock capacity done)).1 =
        windowAnswer options (policyOf q.2.2) w c.now ∧
      ∀ between d rest, later = between ++ d :: rest → d.triple options = some q →
        c.now + secondsUp (windowEnd policyOf q w.start - c.now) * nanosPerSec ≤ d.now →
        (∀ e ∈ between, e.triple options = some q → e.now < windowEnd policyOf q w.start) →
        (d.check options clock (storeAfter options clock capacity (done ++ c :: between))).1 =
          .ok none := by
  obtain ⟨closed, w, hWindows, hAnswer⟩ := h.answer hChecks hq
  refine ⟨closed, w, hWindows, ?_, hAnswer, ?_⟩
  · have hAll : readings options q checks =
        readings options q (done ++ [c]) ++ readings options q later := by
      rw [← readings_append, List.append_assoc, List.singleton_append, hChecks]
    rw [hAll]
    exact windows_append hWindows _
  · intro between d rest hLater hd hWait hBetween
    have hSplit : checks = (done ++ c :: between) ++ d :: rest := by
      rw [hChecks, hLater, List.append_assoc, List.cons_append]
    have hCounter : after (windowEnd policyOf q) (readings options q (done ++ [c])) =
        some ⟨w.hits, windowEnd policyOf q w.start⟩ := by
      rw [after_eq_last, hWindows, List.getLast?_concat]
      rfl
    have hOpen : ∀ t ∈ readings options q between, t < windowEnd policyOf q w.start := by
      intro t ht
      obtain ⟨e, he, hTriple, rfl⟩ := mem_readings ht
      exact hBetween e he hTriple
    have hExtended := after_append_of_open hCounter hOpen
    rw [← readings_append, List.append_assoc, List.singleton_append] at hExtended
    refine h.answer_fresh hSplit hd hExtended ?_
    have hEnd := remaining_le (windowEnd policyOf q w.start - c.now)
    exact (Nat.sub_le_iff_le_add'.mp hEnd).trans hWait

/-! ## Checks of one triple -/

theorem triple_eq_some_iff {c : QuotaCheck Ctx} {q : Triple} :
    c.triple options = some q ↔
      options.tracker c.context = .ok q.1 ∧ c.method = q.2.1 ∧ c.route = q.2.2 := by
  unfold QuotaCheck.triple
  cases hClient : options.tracker c.context with
  | error e => simp
  | ok client =>
    obtain ⟨client', method, route⟩ := q
    simp

/-- A store below its capacity with no bucket but that of one key. -/
def Single (capacity : Nat) (key : String) (store : MemoryThrottleStore) : Prop :=
  store.capacity = max capacity 1 ∧ store.state.Only key

theorem single_check {q : Triple} {c : QuotaCheck Ctx} {store : MemoryThrottleStore}
    (h : Single capacity (throttleKey q.1 q.2.1 q.2.2) store) (hq : c.triple options = some q)
    (hValid : validatePolicy clock c.validatedAt c.policy = .ok ())
    (hRange : c.now + c.policy.window ≤ clock.latest) :
    Single capacity (throttleKey q.1 q.2.1 q.2.2) (c.check options clock store).2 := by
  obtain ⟨hCapacity, hOnly⟩ := h
  obtain ⟨hClient, hMethod, hRoute⟩ := triple_eq_some_iff.mp hq
  have hPos : 0 < store.capacity := by
    rw [hCapacity]
    exact Nat.lt_of_lt_of_le Nat.zero_lt_one (Nat.le_max_right ..)
  rw [← hMethod, ← hRoute] at hOnly ⊢
  obtain ⟨s', bucket, hIncrement, hOnly', -⟩ :=
    hOnly.increment_effect c.order hPos fun _ => hRange
  rw [check_of_tracker hValid hClient hIncrement]
  exact ⟨hCapacity, hOnly'⟩

/-- Checks of one triple leave room for one more bucket in a store for two. -/
theorem QuotaChecks.single (h : QuotaChecks clock policyOf checks) {q : Triple}
    (hq : ∀ c ∈ checks, c.triple options = some q) (hCapacity : 2 ≤ capacity) :
    QuotaRun options clock capacity policyOf checks where
  toQuotaChecks := h
  room := by
    intro done later hChecks
    have hStart : Single capacity (throttleKey q.1 q.2.1 q.2.2)
        (MemoryThrottleStore.withCapacity capacity) :=
      ⟨rfl, MemoryThrottleState.only_default _⟩
    have hSingle : Single capacity (throttleKey q.1 q.2.1 q.2.2)
        (storeAfter options clock capacity done) := by
      refine Runs.run_keeps (I := fun _ => Single capacity (throttleKey q.1 q.2.1 q.2.2)) hStart done ?_
      intro before c rest hDone hBefore
      have hSplit : checks = before ++ c :: (rest ++ later) := by
        rw [hChecks, hDone, List.append_assoc, List.cons_append]
      obtain ⟨hValid, hRange⟩ := h.valid hSplit
      exact single_check hBefore (hq c (by rw [hSplit]; simp)) hValid hRange
    rw [hSingle.1]
    have hSize := hSingle.2.size_le
    omega

end Run

/-! ## Checks of one client -/

def clientOptions (retryAfterHeader : Bool) : ThrottleOptions String where
  policy := ⟨1, Duration.fromSecs 2, by decide⟩
  retryAfterHeader := retryAfterHeader
  tracker := .ok

def clientCheck (policy : ThrottlePolicy) (now : Instant) : QuotaCheck String where
  context := "192.0.2.1"
  method := "GET"
  route := "/"
  policy := policy
  validatedAt := now
  now := now
  order := .stored

def clientTriple : Triple := ("192.0.2.1", "GET", "/")

theorem clientCheck_triple (header : Bool) (policy : ThrottlePolicy) (now : Instant) :
    (clientCheck policy now).triple (clientOptions header) = some clientTriple := rfl

theorem readings_clientCheck (header : Bool) (policy : ThrottlePolicy) (times : List Instant) :
    readings (clientOptions header) clientTriple (times.map (clientCheck policy)) = times := by
  induction times with
  | nil => rfl
  | cons t times ih =>
    rw [List.map_cons, ← List.singleton_append, readings_append, readings_singleton,
      if_pos (clientCheck_triple ..), ih]
    rfl

theorem clientRun (header : Bool) {policy : ThrottlePolicy} {times : List Instant}
    (hLimit : 0 < policy.limit) (hWindow : 0 < policy.window) (hOrdered : times.Pairwise (· ≤ ·))
    (hRange : ∀ t ∈ times, t + policy.window ≤ Clock.full.latest) :
    QuotaRun (clientOptions header) Clock.full 2 (fun _ => policy) (times.map (clientCheck policy)) := by
  have hChecks : QuotaChecks Clock.full (fun _ => policy) (times.map (clientCheck policy)) := by
    refine ⟨?_, ?_, ?_⟩
    · simp [clientCheck]
    · rw [List.flatMap_map, List.pairwise_flatMap]
      exact ⟨fun t _ => by simp [clientCheck], hOrdered.imp fun h => by simpa [clientCheck] using h⟩
    · intro c hc
      obtain ⟨t, ht, rfl⟩ := List.mem_map.mp hc
      exact validatePolicy_ok_iff.mpr ⟨hLimit, hWindow, hRange t ht⟩
  refine hChecks.single (q := clientTriple) ?_ le_rfl
  intro c hc
  obtain ⟨t, -, rfl⟩ := List.mem_map.mp hc
  exact clientCheck_triple ..

/-- Two checks in one window, the second rejected for two seconds, and a third one then. -/
theorem quota_of_triple_retried :
    let check := clientCheck ⟨1, Duration.fromSecs 2, by decide⟩
    let stored := storeAfter (clientOptions true) Clock.full 2
    ((check 500000000).check (clientOptions true) Clock.full (stored [check 0])).1 =
        .ok (some (rejection true 2)) ∧
      ((check 2500000000).check (clientOptions true) Clock.full
        (stored [check 0, check 500000000])).1 = .ok none := by
  intro check stored
  have hRun : QuotaRun (clientOptions true) Clock.full 2 _ ([0, 500000000, 2500000000].map check) :=
    clientRun true (by decide) (by decide) (by decide) (by decide)
  have hSplit : [0, 500000000, 2500000000].map check =
      [check 0] ++ check 500000000 :: [check 2500000000] := rfl
  obtain ⟨closed, w, hWindows, -, hAnswer, hLater⟩ :=
    quota_of_triple hRun hSplit (clientCheck_triple true _ 500000000)
  have hReadings : readings (clientOptions true) clientTriple ([check 0] ++ [check 500000000]) =
      [0, 500000000] := readings_clientCheck true _ [0, 500000000]
  rw [hReadings] at hWindows
  have hw : w = ⟨0, [500000000]⟩ := by
    have hLast := congrArg List.getLast? hWindows
    simpa [windows, windowEnd, Duration.fromSecs, nanosPerSec] using hLast.symm
  subst hw
  refine ⟨?_, hLater [] _ [] rfl rfl (by decide) fun e he => absurd he List.not_mem_nil⟩
  have hSeconds : secondsUp (0 + Duration.fromSecs 2 - 500000000) = 2 := by decide
  exact hAnswer.trans (windowAnswer_with_header (by decide) (by decide) rfl hSeconds)

/-- Checks of one client at one moment fall into one window. -/
theorem windows_replicate (policyOf : String → ThrottlePolicy) (q : Triple)
    (hWindow : 0 < (policyOf q.2.2).window) (n : Nat) :
    windows (windowEnd policyOf q) (List.replicate (n + 1) 0) = [⟨0, List.replicate n 0⟩] := by
  have hOpen : ∀ t ∈ List.replicate n (0 : Instant), decide (t < windowEnd policyOf q 0) = true := by
    intro t ht
    rw [List.eq_of_mem_replicate ht]
    exact decide_eq_true (Nat.lt_of_lt_of_le hWindow (Nat.le_add_left ..))
  rw [List.replicate_succ, windows, List.takeWhile_eq_self_iff.mpr hOpen,
    List.dropWhile_eq_nil_iff.mpr hOpen, windows]

theorem hits_replicate (n : Nat) (t : Instant) : (Window.mk t (List.replicate n t)).hits = n + 1 := by
  rw [Window.hits, List.length_replicate]

theorem burst (header : Bool) {policy : ThrottlePolicy} (hLimit : 0 < policy.limit)
    (hWindow : 0 < policy.window) (hRange : policy.window ≤ Clock.full.latest) (n : Nat) :
    let checks := (List.replicate n 0).map (clientCheck policy)
    let c := clientCheck policy 0
    QuotaRun (clientOptions header) Clock.full 2 (fun _ => policy) (checks ++ [c]) ∧
      windows (windowEnd (fun _ => policy) clientTriple)
        (readings (clientOptions header) clientTriple (checks ++ [c])) = [⟨0, List.replicate n 0⟩] ∧
      (c.check (clientOptions header) Clock.full
        (storeAfter (clientOptions header) Clock.full 2 checks)).1 =
          windowAnswer (clientOptions header) policy ⟨0, List.replicate n 0⟩ 0 := by
  intro checks c
  have hTimes : checks ++ [c] = (List.replicate (n + 1) 0).map (clientCheck policy) := by
    rw [List.replicate_succ', List.map_append, List.map_singleton]
  have hRun : QuotaRun (clientOptions header) Clock.full 2 (fun _ => policy) (checks ++ [c]) := by
    rw [hTimes]
    refine clientRun header hLimit hWindow (List.pairwise_replicate.mpr (.inr (Nat.le_refl 0))) ?_
    intro t ht
    rw [List.eq_of_mem_replicate ht, Nat.zero_add]
    exact hRange
  have hWindows : windows (windowEnd (fun _ => policy) clientTriple)
      (readings (clientOptions header) clientTriple (checks ++ [c])) = [⟨0, List.replicate n 0⟩] := by
    rw [hTimes, readings_clientCheck]
    exact windows_replicate _ _ hWindow n
  obtain ⟨closed, w, hLast, hAnswer⟩ := hRun.answer rfl (clientCheck_triple header policy 0)
  obtain ⟨rfl, hw⟩ : closed = [] ∧ w = ⟨0, List.replicate n 0⟩ := by
    rw [hWindows] at hLast
    cases closed with
    | nil => exact ⟨rfl, by simpa using hLast.symm⟩
    | cons v vs => simp at hLast
  exact ⟨hRun, hWindows, hw ▸ hAnswer⟩

def allowAll : ThrottlePolicy := ⟨u64Max, Duration.fromSecs 1, Nat.le_refl _⟩

/-- Where the quota does not hold. The count saturates: under a limit of `u64::MAX`, the
check after the last one that the limit allows is accepted. And without the
`retry_after_header` option, a rejection does not carry the header. -/
theorem quota_exceptions :
    (∃ checks c w, QuotaRun (clientOptions true) Clock.full 2 (fun _ => allowAll) (checks ++ [c]) ∧
      windows (windowEnd (fun _ => allowAll) clientTriple)
        (readings (clientOptions true) clientTriple (checks ++ [c])) = [w] ∧
      allowAll.limit < w.hits ∧
      (c.check (clientOptions true) Clock.full
        (storeAfter (clientOptions true) Clock.full 2 checks)).1 = .ok none) ∧
    ∃ policy checks c response,
      QuotaRun (clientOptions false) Clock.full 2 (fun _ => policy) (checks ++ [c]) ∧
      (c.check (clientOptions false) Clock.full
        (storeAfter (clientOptions false) Clock.full 2 checks)).1 = .ok (some response) ∧
      response.headers = [] := by
  refine ⟨?_, ?_⟩
  · have hBurst := burst true (by decide : 0 < allowAll.limit) (by decide) (by decide)
    have hLast : ∀ n, n = u64Max → allowAll.limit < (Window.mk 0 (List.replicate n 0)).hits := by
      intro n hn
      rw [hits_replicate, hn]
      exact Nat.lt_succ_of_le allowAll.limit_le
    have hAccepted : ∀ w, windowAnswer (clientOptions true) allowAll w 0 = .ok none :=
      fun w => if_pos (.inr rfl)
    obtain ⟨n, hn⟩ : ∃ n, n = u64Max := ⟨_, rfl⟩
    exact ⟨_, _, _, (hBurst n).1, (hBurst n).2.1, hLast n hn, (hBurst n).2.2.trans (hAccepted _)⟩
  · let policy : ThrottlePolicy := ⟨1, Duration.fromSecs 2, by decide⟩
    have hBurst := burst false (by decide : 0 < policy.limit) (by decide) (by decide) 1
    have hRejected : windowAnswer (clientOptions false) policy ⟨0, List.replicate 1 0⟩ 0 =
        .ok (some (rejection false 0)) :=
      windowAnswer_without_header (by decide) (by decide) rfl
    exact ⟨policy, _, _, rejection false 0, hBurst.1, hBurst.2.2.trans hRejected, rfl⟩

end Caelix
