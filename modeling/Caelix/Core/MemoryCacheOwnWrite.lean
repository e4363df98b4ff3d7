import Caelix.Core.MemoryCacheReference

/-!
# Reading back what was just written

A `set` first drops what has expired, then adds its entry and evicts the oldest entries
while there are too many. The readings of the clock may repeat, so the entry just written
can be one of several oldest ones, and which of them goes depends on the order in which the
hash map lists its entries.

* `run_bounded`: no run leaves more entries in the store than its limit.
* `read_back_iff`: a `set` keeps its own entry, in every order of the map, exactly when
  there is room for it or some other entry is strictly older.
-/

namespace Caelix

open Table

namespace MemoryCacheStore

/-! ## One round of eviction -/

section Oldest

variable {order : CacheOrder} {entries : CacheEntries} {key : String}

theorem mem_visit (key : String) (entry : CacheEntry) :
    ⟨key, entry⟩ ∈ order.visit entries ↔ entries.lookup key = some entry := by
  rw [(order.perm entries).mem_iff, lookup_eq_some_iff]

theorem oldestKey_none (h : oldestKey order entries = none) : size entries = 0 := by
  unfold oldestKey at h
  rw [Option.map_eq_none_iff, List.argmin_eq_none] at h
  rw [size, ← (order.perm entries).length_eq, h]
  rfl

theorem oldestKey_some (h : oldestKey order entries = some key) :
    ∃ entry, entries.lookup key = some entry ∧
      ∀ other entry', entries.lookup other = some entry' → entry.insertedAt ≤ entry'.insertedAt := by
  unfold oldestKey at h
  obtain ⟨e, hMin, rfl⟩ := Option.map_eq_some_iff.mp h
  refine ⟨e.2, (mem_visit _ _).mp (List.argmin_mem hMin), ?_⟩
  intro other entry' hOther
  exact List.le_of_mem_argmin (f := fun e : Σ _ : String, CacheEntry => e.2.insertedAt)
    ((mem_visit other entry').mpr hOther) hMin

/-- Of several oldest entries, the one that the map lists first is chosen. -/
theorem oldestKey_listed_first {e : Σ _ : String, CacheEntry} {l : List (Σ _ : String, CacheEntry)}
    (hFirst : order.visit entries = e :: l)
    (hOldest : ∀ other ∈ l, e.2.insertedAt ≤ other.2.insertedAt) :
    oldestKey order entries = some e.1 := by
  classical
  unfold oldestKey
  rw [hFirst]
  cases hMin : (e :: l).argmin fun e => e.2.insertedAt with
  | none => cases List.argmin_eq_none.mp hMin
  | some m =>
    have hLe : e.2.insertedAt ≤ m.2.insertedAt := by
      rcases List.mem_cons.mp (List.argmin_mem hMin) with rfl | hLater
      · exact Nat.le_refl _
      · exact hOldest m hLater
    have hIndex := List.index_of_argmin hMin (List.mem_cons_self ..) hLe
    rw [List.idxOf_cons_self, Nat.le_zero] at hIndex
    rw [List.idxOf_eq_zero_iff_head_eq (List.cons_ne_nil _ _)] at hIndex
    rw [← hIndex]
    rfl

end Oldest

/-! ## The loop -/

section Loop

variable {order : CacheOrder} {maxEntries rounds : Nat} {entries : CacheEntries}

theorem evictLoop_done (h : size entries ≤ maxEntries) :
    evictLoop order maxEntries rounds entries = entries := by
  cases rounds with
  | zero => rfl
  | succ rounds => rw [evictLoop, if_neg (by omega)]

/-- One entry too many: the oldest one goes. -/
theorem evictLoop_one {key : String} (h : size entries = maxEntries + 1)
    (hKey : oldestKey order entries = some key) :
    evictLoop order maxEntries (rounds + 1) entries = entries.erase key := by
  obtain ⟨entry, hStored, _⟩ := oldestKey_some hKey
  have hLeft := size_erase hStored
  rw [evictLoop, if_pos (by omega), hKey]
  exact evictLoop_done (by omega)

theorem size_evictLoop_le (h : size entries ≤ rounds + maxEntries) :
    size (evictLoop order maxEntries rounds entries) ≤ maxEntries := by
  induction rounds generalizing entries with
  | zero =>
    rw [Nat.zero_add] at h
    exact h
  | succ rounds ih =>
    rw [evictLoop]
    by_cases hFull : maxEntries < size entries
    · rw [if_pos hFull]
      cases hKey : oldestKey order entries with
      | none =>
        have hEmpty := oldestKey_none hKey
        omega
      | some key =>
        obtain ⟨entry, hStored, _⟩ := oldestKey_some hKey
        have hLeft := size_erase hStored
        exact ih (by omega)
    · rw [if_neg hFull]
      exact Nat.le_of_not_lt hFull

theorem size_evictToCapacity_le (options : MemoryCacheOptions) :
    size (evictToCapacity order options entries) ≤ options.maxEntries := by
  unfold evictToCapacity
  by_cases hZero : options.maxEntries = 0
  · rw [if_pos hZero]
    exact Nat.zero_le _
  · rw [if_neg hZero]
    exact size_evictLoop_le (Nat.le_add_right ..)

end Loop

/-! ## Every reachable store -/

/-- What holds of the store after any calls: no more entries than the limit. -/
structure Bounded (options : MemoryCacheOptions) (store : MemoryCacheStore) : Prop where
  sameOptions : store.options = options
  size_le : size store.entries ≤ options.maxEntries

section Reachable

variable {clock : Clock} {options : MemoryCacheOptions} {store : MemoryCacheStore}

theorem Bounded.erase (h : Bounded options store) (key : String) :
    Bounded options { store with entries := store.entries.erase key } :=
  ⟨h.sameOptions, (size_erase_le ..).trans h.size_le⟩

theorem Bounded.get (h : Bounded options store) (now : Instant) (key : String) :
    Bounded options (store.get now key).2 := by
  unfold MemoryCacheStore.get
  cases store.entries.lookup key with
  | none => exact h
  | some entry =>
    cases hExpired : entry.isExpired now with
    | true =>
      simp only [if_pos hExpired]
      exact h.erase key
    | false =>
      simp only [hExpired]
      exact h

theorem Bounded.set (h : Bounded options store) (order : CacheOrder) (now : Instant) (key : String)
    (value : Json) (ttl : Option Duration) :
    Bounded options (store.set clock order now key value ttl).2 := by
  unfold MemoryCacheStore.set
  by_cases hLarge : store.options.maxValueBytes < value.byteLength
  · rw [if_pos hLarge]
    exact h
  · rw [if_neg hLarge]
    refine ⟨h.sameOptions, ?_⟩
    rw [h.sameOptions]
    exact size_evictToCapacity_le options

theorem Bounded.call (h : Bounded options store) (c : CacheCall) :
    Bounded options (store.call clock c).2 := by
  unfold MemoryCacheStore.call
  cases c.op with
  | get key => exact h.get c.now key
  | set key value ttl => exact h.set c.order c.now key value ttl
  | delete key => exact h.erase key
  | clear => exact ⟨h.sameOptions, Nat.zero_le _⟩

theorem run_bounded (clock : Clock) (options : MemoryCacheOptions) (calls : List CacheCall) :
    Bounded options (Runs.run (MemoryCacheStore.call clock) calls (.withOptions options)).2 := by
  refine Runs.run_keeps (I := fun _ => Bounded options) ⟨rfl, Nat.zero_le _⟩ calls ?_
  intro _ c _ _ h
  exact h.call c

end Reachable

/-! ## Writing an entry -/

/-- What is left beside the entry of a key when it is written. -/
def others (now : Instant) (key : String) (store : MemoryCacheStore) : CacheEntries :=
  (removeExpired now store.entries).erase key

/-- There is room for one more entry, or an older one to evict. -/
def CanAdd (now : Instant) (key : String) (store : MemoryCacheStore) : Prop :=
  size (store.others now key) < store.options.maxEntries ∨
    ∃ other entry, (store.others now key).lookup other = some entry ∧ entry.insertedAt < now

section Write

variable {clock : Clock} {options : MemoryCacheOptions} {store : MemoryCacheStore} {now : Instant}
  {key : String} {value : Json} {ttl : Option Duration}

theorem Bounded.others_le (h : Bounded options store) (now : Instant) (key : String) :
    size (store.others now key) ≤ store.options.maxEntries := by
  rw [h.sameOptions]
  exact ((size_erase_le ..).trans (size_retain_le ..)).trans h.size_le

/-- The entries before eviction. -/
def inserted (clock : Clock) (now : Instant) (key : String) (value : Json) (ttl : Option Duration)
    (store : MemoryCacheStore) : CacheEntries :=
  (removeExpired now store.entries).insert key
    (CacheEntry.new clock now value (ttl.or store.options.defaultTtl))

theorem set_entries (hFits : ¬ store.options.maxValueBytes < value.byteLength)
    (order : CacheOrder) :
    (store.set clock order now key value ttl).2.entries =
      evictToCapacity order store.options (store.inserted clock now key value ttl) := by
  rw [MemoryCacheStore.set, if_neg hFits]
  rfl

theorem size_inserted :
    size (store.inserted clock now key value ttl) = size (store.others now key) + 1 :=
  size_insert ..

theorem lookup_inserted_self : (store.inserted clock now key value ttl).lookup key =
    some (CacheEntry.new clock now value (ttl.or store.options.defaultTtl)) :=
  AList.lookup_insert _

theorem lookup_inserted_other {other : String} (h : other ≠ key) :
    (store.inserted clock now key value ttl).lookup other =
      (store.others now key).lookup other := by
  rw [inserted, others, AList.lookup_insert_ne h, AList.lookup_erase_ne h]

theorem lookup_others_self : (store.others now key).lookup key = none := AList.lookup_erase _ _

/-- In the order that lists the entry of the key first, the others come after it. -/
theorem visit_inserted (clock : Clock) (store : MemoryCacheStore) (now : Instant) (key : String)
    (value : Json) (ttl : Option Duration) : ∃ l, (Iteration.first key).visit (store.inserted clock now key value ttl) =
    ⟨key, CacheEntry.new clock now value (ttl.or store.options.defaultTtl)⟩ :: l := by
  unfold inserted Iteration.first
  simp only [AList.entries_insert]
  rw [List.filter_cons_of_pos (by simp)]
  exact ⟨_, rfl⟩

/-- A full store loses one entry, which is one of the oldest. -/
theorem evictToCapacity_full {order : CacheOrder} (hEntries : 0 < store.options.maxEntries)
    (hFull : size (store.others now key) = store.options.maxEntries) {oldest : String}
    (hOldest : oldestKey order (store.inserted clock now key value ttl) = some oldest) :
    evictToCapacity order store.options (store.inserted clock now key value ttl) =
      (store.inserted clock now key value ttl).erase oldest := by
  have hSize : size (store.inserted clock now key value ttl) = store.options.maxEntries + 1 := by
    rw [size_inserted, hFull]
  rw [evictToCapacity, if_neg (by omega), hSize]
  exact evictLoop_one hSize hOldest

theorem kept (hEntries : 0 < store.options.maxEntries)
    (hSize : size (store.others now key) ≤ store.options.maxEntries) (h : store.CanAdd now key)
    (order : CacheOrder) :
    (evictToCapacity order store.options (store.inserted clock now key value ttl)).lookup key =
      some (CacheEntry.new clock now value (ttl.or store.options.defaultTtl)) := by
  by_cases hRoom : size (store.others now key) < store.options.maxEntries
  · rw [evictToCapacity, if_neg (by omega), evictLoop_done (by rw [size_inserted]; omega)]
    exact lookup_inserted_self
  · have hFull : size (store.others now key) = store.options.maxEntries := by omega
    obtain ⟨older, entry, hOlder, hBefore⟩ := h.resolve_left hRoom
    have hNotKey : older ≠ key := by
      rintro rfl
      rw [lookup_others_self] at hOlder
      cases hOlder
    cases hOldest : oldestKey order (store.inserted clock now key value ttl) with
    | none =>
      have hEmpty := oldestKey_none hOldest
      rw [size_inserted] at hEmpty
      omega
    | some oldest =>
      obtain ⟨_, hStored, hLeast⟩ := oldestKey_some hOldest
      -- The new entry carries the reading of this call, so it is not the oldest.
      have hOther : key ≠ oldest := by
        rintro rfl
        have hLe := hLeast older entry (by rw [lookup_inserted_other hNotKey, hOlder])
        rw [lookup_inserted_self] at hStored
        obtain rfl := Option.some.inj hStored
        exact Nat.not_le_of_lt hBefore hLe
      rw [evictToCapacity_full hEntries hFull hOldest, AList.lookup_erase_ne hOther]
      exact lookup_inserted_self

/-- When nothing older is left in a full store, some order of the map drops the new entry. -/
theorem not_kept (hEntries : 0 < store.options.maxEntries)
    (hSize : size (store.others now key) ≤ store.options.maxEntries)
    (h : ¬ store.CanAdd now key) :
    (evictToCapacity (.first key) store.options
      (store.inserted clock now key value ttl)).lookup key = none := by
  obtain ⟨hFull, hNoOlder⟩ := not_or.mp h
  obtain ⟨l, hVisit⟩ := visit_inserted clock store now key value ttl
  have hOldest : oldestKey (.first key) (store.inserted clock now key value ttl) = some key := by
    refine oldestKey_listed_first hVisit ?_
    intro e he
    have hListed : ⟨e.1, e.2⟩ ∈ (Iteration.first key).visit
        (store.inserted clock now key value ttl) := hVisit ▸ List.mem_cons_of_mem _ he
    have hStored := (mem_visit e.1 e.2).mp hListed
    by_cases hKey : e.1 = key
    · rw [hKey, lookup_inserted_self] at hStored
      rw [← Option.some.inj hStored]
    · rw [lookup_inserted_other hKey] at hStored
      exact Nat.le_of_not_lt fun hOlder => hNoOlder ⟨e.1, e.2, hStored, hOlder⟩
  rw [evictToCapacity_full hEntries (by omega) hOldest]
  exact AList.lookup_erase _ _

end Write

/-! ## Reading it back -/

/-- An entry can be read until its time is over. -/
theorem get_new {clock : Clock} {store : MemoryCacheStore} {now later : Instant} {key : String}
    {value : Json} {ttl : Option Duration}
    (hStored : store.entries.lookup key = some (CacheEntry.new clock now value ttl))
    (hLater : ∀ d, ttl = some d → later < now + d) :
    (store.get later key).1 = .ok (some value) := by
  have hLive : (CacheEntry.new clock now value ttl).isExpired later = false := by
    unfold CacheEntry.isExpired
    rw [Option.any_eq_false]
    intro t ht
    obtain ⟨d, hd, hAdd⟩ := Option.bind_eq_some_iff.mp ht
    obtain ⟨_, rfl⟩ := Clock.checkedAdd_eq_some_iff.mp hAdd
    exact decide_eq_false (Nat.not_le_of_lt (hLater d hd))
  unfold MemoryCacheStore.get
  rw [hStored]
  simp only [hLive]
  rfl

end MemoryCacheStore

/-- After any calls, a `set` that is accepted keeps its own entry and a `get` reads it back
until it expires, in every order in which the map may list its entries, exactly when there
is room for the entry or another live entry was inserted strictly before it. The readings of
the earlier calls may be any. -/
theorem read_back_iff (clock : Clock) (options : MemoryCacheOptions) (calls : List CacheCall)
    (now : Instant) (key : String) (value : Json) (ttl : Option Duration)
    (hEntries : 0 < options.maxEntries) (hFits : value.byteLength ≤ options.maxValueBytes)
    (hTtl : ttl.or options.defaultTtl ≠ some 0) :
    let store := (Runs.run (MemoryCacheStore.call clock) calls (.withOptions options)).2
    (∀ order, ∀ later, now ≤ later → (∀ d, ttl.or options.defaultTtl = some d → later < now + d) →
      let written := store.set clock order now key value ttl
      written.1 = .ok () ∧
      written.2.entries.lookup key =
        some (CacheEntry.new clock now value (ttl.or options.defaultTtl)) ∧
      (written.2.get later key).1 = .ok (some value)) ↔
    store.CanAdd now key := by
  intro store
  have hBounded := MemoryCacheStore.run_bounded clock options calls
  have hOptions : store.options = options := hBounded.sameOptions
  rw [← hOptions] at hEntries hFits hTtl ⊢
  have hAccepted : ¬ store.options.maxValueBytes < value.byteLength := Nat.not_lt_of_le hFits
  have hSize := hBounded.others_le now key
  constructor
  · intro h
    by_contra hCannot
    have hNow : ∀ d, ttl.or store.options.defaultTtl = some d → now < now + d := by
      intro d hd
      have hPositive : d ≠ 0 := fun hZero => hTtl (hZero ▸ hd)
      exact Nat.lt_add_of_pos_right (Nat.pos_of_ne_zero hPositive)
    obtain ⟨_, hStored, _⟩ := h (.first key) now (Nat.le_refl now) hNow
    rw [MemoryCacheStore.set_entries hAccepted,
      MemoryCacheStore.not_kept hEntries hSize hCannot] at hStored
    cases hStored
  · intro hCan order later _ hLater
    have hStored : (store.set clock order now key value ttl).2.entries.lookup key =
        some (CacheEntry.new clock now value (ttl.or store.options.defaultTtl)) := by
      rw [MemoryCacheStore.set_entries hAccepted]
      exact MemoryCacheStore.kept hEntries hSize hCan order
    refine ⟨?_, hStored, MemoryCacheStore.get_new hStored hLater⟩
    rw [MemoryCacheStore.set, if_neg hAccepted]

/-- One entry, written at reading 5, in a store of one entry. -/
def tiedCalls : List CacheCall := [⟨.set "first" .null none, 5, .stored⟩]

/-- A write at a later reading is kept. -/
theorem read_back_later :
    let store :=
      (Runs.run (MemoryCacheStore.call Clock.full) tiedCalls (.withOptions sessionOptions)).2
    ∀ order,
      let written := store.set Clock.full order 6 "second" (.bool true) none
      (written.2.get 7 "second").1 = .ok (some (.bool true)) := by
  intro store order
  have hOlder : store.CanAdd 6 "second" :=
    .inr ⟨"first", CacheEntry.new Clock.full 5 .null none, rfl, by decide⟩
  have hKept := (read_back_iff Clock.full sessionOptions tiedCalls 6 "second" (.bool true) none
    (by decide) (by decide) (by decide)).mpr hOlder
  exact (hKept order 7 (by decide) (fun _ hd => by cases hd)).2.2

/-- A write at the same reading is lost when the map lists it first. -/
theorem read_back_tie :
    let store :=
      (Runs.run (MemoryCacheStore.call Clock.full) tiedCalls (.withOptions sessionOptions)).2
    let written := store.set Clock.full (.first "second") 5 "second" (.bool true) none
    written.1 = .ok () ∧ (written.2.get 5 "second").1 = .ok none :=
  ⟨rfl, rfl⟩

end Caelix
