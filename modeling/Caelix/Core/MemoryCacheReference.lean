import Caelix.Lib.Runs
import Caelix.Core.MemoryCache

/-!
# The cache as a list in the order of the last write

The reference keeps its entries in a list, the last written one at the end. A `set` drops
what has expired and the old entry of the key, appends the new entry and keeps the newest
`maxEntries`; a `get` that meets an expired entry drops it.

* `evictLoop_newest`: the repeated search for the oldest entry leaves the newest ones, in
  every order in which the map may list its entries.
* `memoryCache_refines`: on every run with strictly increasing readings the store answers
  as the reference does and holds the same entries.
-/

namespace Caelix

open Table

/-! ## The reference -/

structure Written where
  key : String
  value : Json
  expiresAt : Option Instant

namespace Written

def expired (now : Instant) (w : Written) : Bool := w.expiresAt.any fun t => t ≤ now

/-- The live entry of a key; an expired one is dropped. -/
def get (now : Instant) (key : String) (l : List Written) : Option Json × List Written :=
  match l.find? fun w => w.key = key with
  | none => (none, l)
  | some w => if w.expired now then (none, l.filter fun w => w.key ≠ key) else (some w.value, l)

def keepNewest (n : Nat) (l : List Written) : List Written := l.drop (l.length - n)

def set (maxEntries : Nat) (now : Instant) (w : Written) (l : List Written) : List Written :=
  keepNewest maxEntries
    (((l.filter fun w => !w.expired now).filter fun old => old.key ≠ w.key) ++ [w])

def delete (key : String) (l : List Written) : List Written := l.filter fun w => w.key ≠ key

end Written

/-! ## Calls -/

inductive CacheOp where
  | get (key : String)
  | set (key : String) (value : Json) (ttl : Option Duration)
  | delete (key : String)
  | clear

/-- A call, its clock reading, and the order in which the map lists its entries. -/
structure CacheCall where
  op : CacheOp
  now : Instant
  order : CacheOrder

/-- What a call returns; calls that return no value return `none`. -/
abbrev CacheReply := Except HttpException (Option Json)

def MemoryCacheStore.call (clock : Clock) (c : CacheCall) (store : MemoryCacheStore) :
    CacheReply × MemoryCacheStore :=
  match c.op with
  | .get key => store.get c.now key
  | .set key value ttl =>
    let x := store.set clock c.order c.now key value ttl
    (x.1.map fun _ => none, x.2)
  | .delete key => let x := store.delete key; (x.1.map fun _ => none, x.2)
  | .clear => let x := store.clear; (x.1.map fun _ => none, x.2)

/-- The instant at which an entry written now ends, if it ends at all. -/
def writtenUntil (clock : Clock) (options : MemoryCacheOptions) (now : Instant)
    (ttl : Option Duration) : Option Instant :=
  (ttl.or options.defaultTtl).bind (clock.checkedAdd now)

def Written.call (clock : Clock) (options : MemoryCacheOptions) (c : CacheCall)
    (l : List Written) : CacheReply × List Written :=
  match c.op with
  | .get key => let x := Written.get c.now key l; (.ok x.1, x.2)
  | .set key value ttl =>
    if options.maxValueBytes < value.byteLength then
      (.error (MemoryCacheStore.tooLarge options), l)
    else
      (.ok none, Written.set options.maxEntries c.now
        ⟨key, value, writtenUntil clock options c.now ttl⟩ l)
  | .delete key => (.ok none, Written.delete key l)
  | .clear => (.ok none, [])

/-! ## Eviction -/

/-- Entries in the order in which they were written. -/
def WriteOrder (l : List (Σ _ : String, CacheEntry)) : Prop :=
  l.Pairwise fun e f => e.2.insertedAt < f.2.insertedAt

theorem oldestKey_head {order : CacheOrder} {entries : CacheEntries}
    {e : Σ _ : String, CacheEntry} {l : List (Σ _ : String, CacheEntry)}
    (hPerm : (e :: l).Perm entries.entries) (hOrder : WriteOrder (e :: l)) :
    MemoryCacheStore.oldestKey order entries = some e.1 := by
  have hVisit : (order.visit entries).Perm (e :: l) := (order.perm entries).trans hPerm.symm
  have hHead : e ∈ order.visit entries := hVisit.mem_iff.mpr (List.mem_cons_self ..)
  unfold MemoryCacheStore.oldestKey
  cases hMin : (order.visit entries).argmin fun e => e.2.insertedAt with
  | none =>
    rw [List.argmin_eq_none.mp hMin] at hHead
    cases hHead
  | some m =>
    have hLe : m.2.insertedAt ≤ e.2.insertedAt :=
      List.le_of_mem_argmin (f := fun e : Σ _ : String, CacheEntry => e.2.insertedAt) hHead hMin
    rcases List.mem_cons.mp (hVisit.mem_iff.mp (List.argmin_mem hMin)) with rfl | hLater
    · rfl
    · have hLt := (List.pairwise_cons.mp hOrder).1 m hLater
      exact absurd hLe (Nat.not_le_of_lt hLt)

/-- The loop leaves the newest entries, when it may run once for each entry over the limit. -/
theorem evictLoop_newest {order : CacheOrder} {maxEntries rounds : Nat} {entries : CacheEntries}
    {l : List (Σ _ : String, CacheEntry)} (hPerm : l.Perm entries.entries)
    (hOrder : WriteOrder l) (hRounds : l.length ≤ rounds + maxEntries) :
    (l.drop (l.length - maxEntries)).Perm
      (MemoryCacheStore.evictLoop order maxEntries rounds entries).entries := by
  induction rounds generalizing entries l with
  | zero =>
    have hNone : l.length - maxEntries = 0 := by omega
    rw [hNone, List.drop_zero]
    exact hPerm
  | succ rounds ih =>
    rw [MemoryCacheStore.evictLoop, size_of_perm hPerm]
    by_cases hFull : maxEntries < l.length
    · rw [if_pos hFull]
      cases l with
      | nil => simp at hFull
      | cons e l =>
        rw [oldestKey_head hPerm hOrder]
        have hErased : l.Perm (entries.erase e.1).entries := by
          have hKeys := nodupKeys_of_perm hPerm
          have hErase := erase_perm hPerm e.1
          rwa [← kerase_eq_filter hKeys, List.kerase_cons_eq rfl] at hErase
        rw [List.length_cons] at hRounds hFull ⊢
        rw [Nat.succ_sub (by omega), List.drop_succ_cons]
        exact ih hErased (List.pairwise_cons.mp hOrder).2 (by omega)
    · have hNone : l.length - maxEntries = 0 := by omega
      rw [if_neg hFull, hNone, List.drop_zero]
      exact hPerm

theorem evictToCapacity_newest {order : CacheOrder} {options : MemoryCacheOptions}
    {entries : CacheEntries} {l : List (Σ _ : String, CacheEntry)}
    (hPerm : l.Perm entries.entries) (hOrder : WriteOrder l) :
    (l.drop (l.length - options.maxEntries)).Perm
      (MemoryCacheStore.evictToCapacity order options entries).entries := by
  unfold MemoryCacheStore.evictToCapacity
  by_cases hZero : options.maxEntries = 0
  · rw [if_pos hZero, hZero, Nat.sub_zero, List.drop_length]
    exact .refl _
  · rw [if_neg hZero]
    refine evictLoop_newest hPerm hOrder ?_
    rw [size_of_perm hPerm]
    omega

/-! ## The relation between the store and the reference -/

/-- What the reference keeps of an entry. -/
def written (e : Σ _ : String, CacheEntry) : Written := ⟨e.1, e.2.value, e.2.expiresAt⟩

/-- After the calls `done`, `l` lists the entries of the store in the order of their last
write, and the reference holds them in that order. -/
structure InWriteOrder (options : MemoryCacheOptions) (done : List CacheCall)
    (store : MemoryCacheStore) (ref : List Written) (l : List (Σ _ : String, CacheEntry)) :
    Prop where
  sameOptions : store.options = options
  perm : l.Perm store.entries.entries
  order : WriteOrder l
  readings : ∀ e ∈ l, e.2.insertedAt ∈ done.map CacheCall.now
  ref : ref = l.map written
  bounded : l.length ≤ options.maxEntries

def Represents (options : MemoryCacheOptions) (done : List CacheCall) (store : MemoryCacheStore)
    (ref : List Written) : Prop :=
  ∃ l, InWriteOrder options done store ref l

theorem filter_written (l : List (Σ _ : String, CacheEntry)) (p : Written → Bool) :
    (l.map written).filter p = (l.filter fun e => p (written e)).map written :=
  List.filter_map ..

section Step

variable {options : MemoryCacheOptions} {done : List CacheCall} {store : MemoryCacheStore}
  {ref : List Written} {l : List (Σ _ : String, CacheEntry)}

theorem InWriteOrder.erase (h : InWriteOrder options done store ref l) (key : String) :
    InWriteOrder options done { store with entries := store.entries.erase key }
      (ref.filter fun w => w.key ≠ key) (l.filter fun e => e.1 ≠ key) where
  sameOptions := h.sameOptions
  perm := erase_perm h.perm key
  order := List.Pairwise.sublist List.filter_sublist h.order
  readings e he := h.readings e (List.mem_of_mem_filter he)
  ref := by
    rw [h.ref, filter_written]
    rfl
  bounded := (List.length_filter_le _ _).trans h.bounded

theorem InWriteOrder.snoc (h : InWriteOrder options done store ref l) (c : CacheCall) :
    InWriteOrder options (done ++ [c]) store ref l :=
  { h with
    readings := by
      intro e he
      rw [List.map_append]
      exact List.mem_append_left _ (h.readings e he) }

theorem InWriteOrder.get (h : InWriteOrder options done store ref l) (now : Instant)
    (key : String) :
    (store.get now key).1 = .ok (Written.get now key ref).1 ∧
      Represents options done (store.get now key).2 (Written.get now key ref).2 := by
  have hFind : ref.find? (fun w => w.key = key) =
      (store.entries.lookup key).map fun entry => written ⟨key, entry⟩ := by
    rw [h.ref, find_map Written.key fun _ => rfl, lookup_of_perm h.perm]
  unfold MemoryCacheStore.get Written.get
  rw [hFind]
  cases store.entries.lookup key with
  | none => exact ⟨rfl, l, h⟩
  | some entry =>
    have hExpired : (written ⟨key, entry⟩).expired now = entry.isExpired now := rfl
    rw [Option.map_some]
    simp only [hExpired]
    cases entry.isExpired now with
    | true => exact ⟨rfl, _, h.erase key⟩
    | false => exact ⟨rfl, l, h⟩

/-- A `set` of a value within the limit, at a reading after all earlier ones. -/
theorem InWriteOrder.set (h : InWriteOrder options done store ref l) {c : CacheCall}
    (hNow : ∀ earlier ∈ done, earlier.now < c.now) (clock : Clock) (key : String) (value : Json)
    (ttl : Option Duration) (hFits : ¬ options.maxValueBytes < value.byteLength) :
    Represents options (done ++ [c]) (store.set clock c.order c.now key value ttl).2
      (Written.set options.maxEntries c.now ⟨key, value, writtenUntil clock options c.now ttl⟩
        ref) := by
  let kept := l.filter fun e => !e.2.isExpired c.now
  let entry := CacheEntry.new clock c.now value (ttl.or options.defaultTtl)
  let appended := (kept.filter fun e => e.1 ≠ key) ++ [⟨key, entry⟩]
  have hKept : kept.Perm (MemoryCacheStore.removeExpired c.now store.entries).entries :=
    retain_perm h.perm fun _ entry => !entry.isExpired c.now
  have hAppended : appended.Perm
      ((MemoryCacheStore.removeExpired c.now store.entries).insert key entry).entries :=
    insert_perm hKept key entry
  have hEarlier : ∀ e ∈ kept.filter fun e => e.1 ≠ key, e ∈ l := fun e he =>
    List.mem_of_mem_filter (List.mem_of_mem_filter he)
  have hOrder : WriteOrder appended := by
    refine List.pairwise_append.mpr ⟨?_, List.pairwise_singleton .., ?_⟩
    · exact (h.order.sublist List.filter_sublist).sublist List.filter_sublist
    · intro e he f hf
      obtain ⟨earlier, hDone, hReading⟩ := List.mem_map.mp (h.readings e (hEarlier e he))
      rw [List.mem_singleton.mp hf, ← hReading]
      exact hNow earlier hDone
  have hReadings : ∀ e ∈ appended, e.2.insertedAt ∈ (done ++ [c]).map CacheCall.now := by
    intro e he
    rw [List.map_append]
    rcases List.mem_append.mp he with he | he
    · exact List.mem_append_left _ (h.readings e (hEarlier e he))
    · rw [List.mem_singleton.mp he]
      exact List.mem_append_right _ (List.mem_singleton_self _)
  have hRef : Written.set options.maxEntries c.now
      ⟨key, value, writtenUntil clock options c.now ttl⟩ ref =
        (appended.drop (appended.length - options.maxEntries)).map written := by
    have hList : ((ref.filter fun w => !w.expired c.now).filter fun old => old.key ≠ key) ++
        [⟨key, value, writtenUntil clock options c.now ttl⟩] = appended.map written := by
      rw [h.ref, filter_written, filter_written, List.map_append]
      rfl
    rw [Written.set, Written.keepNewest, hList, List.map_drop, List.length_map]
  refine ⟨appended.drop (appended.length - options.maxEntries), ?_⟩
  refine ⟨?_, ?_, hOrder.sublist (List.drop_sublist _ _),
    fun e he => hReadings e (List.mem_of_mem_drop he), hRef, ?_⟩
  · rw [MemoryCacheStore.set, h.sameOptions, if_neg hFits]
  · rw [MemoryCacheStore.set, h.sameOptions, if_neg hFits]
    exact evictToCapacity_newest hAppended hOrder
  · rw [List.length_drop]
    omega

end Step

theorem represents_call {clock : Clock} {options : MemoryCacheOptions} {done : List CacheCall}
    {c : CacheCall} (hNow : ∀ earlier ∈ done, earlier.now < c.now) {store : MemoryCacheStore}
    {ref : List Written} (h : Represents options done store ref) :
    (store.call clock c).1 = (Written.call clock options c ref).1 ∧
      Represents options (done ++ [c]) (store.call clock c).2 (Written.call clock options c ref).2 := by
  obtain ⟨l, h⟩ := h
  unfold MemoryCacheStore.call Written.call
  cases c.op with
  | get key => exact (h.snoc c).get c.now key
  | set key value ttl =>
    by_cases hFits : options.maxValueBytes < value.byteLength
    · have hTooLarge : store.set clock c.order c.now key value ttl =
          (.error (MemoryCacheStore.tooLarge options), store) := by
        rw [MemoryCacheStore.set, h.sameOptions, if_pos hFits]
      simp only [hTooLarge, if_pos hFits]
      exact ⟨rfl, l, h.snoc c⟩
    · have hOk : (store.set clock c.order c.now key value ttl).1 = .ok () := by
        rw [MemoryCacheStore.set, h.sameOptions, if_neg hFits]
      simp only [hOk, if_neg hFits]
      exact ⟨rfl, h.set hNow clock key value ttl hFits⟩
  | delete key => exact ⟨rfl, _, (h.snoc c).erase key⟩
  | clear =>
    exact ⟨rfl, [], ⟨h.sameOptions, .refl _, .nil, nofun, rfl, Nat.zero_le _⟩⟩

/-! ## Runs -/

theorem represents_withOptions (options : MemoryCacheOptions) :
    Represents options [] (.withOptions options) [] :=
  ⟨[], ⟨rfl, .refl _, .nil, nofun, rfl, Nat.zero_le _⟩⟩

/-- A store and the reference, after the same calls with strictly increasing readings. -/
theorem represents_run (clock : Clock) (options : MemoryCacheOptions) (calls : List CacheCall)
    (hIncreasing : (calls.map CacheCall.now).Pairwise (· < ·)) :
    (Runs.run (MemoryCacheStore.call clock) calls (.withOptions options)).1 =
        (Runs.run (Written.call clock options) calls []).1 ∧
      Represents options calls (Runs.run (MemoryCacheStore.call clock) calls (.withOptions options)).2
        (Runs.run (Written.call clock options) calls []).2 := by
  refine Runs.run_sim (I := Represents options) (represents_withOptions options) calls ?_
  intro done c later hCalls h
  refine represents_call ?_ h
  intro earlier hDone
  rw [hCalls, List.map_append, List.map_cons, List.pairwise_append] at hIncreasing
  exact hIncreasing.2.2 _ (List.mem_map_of_mem hDone) _ (List.mem_cons_self ..)

theorem Represents.contents {options : MemoryCacheOptions} {done : List CacheCall}
    {store : MemoryCacheStore} {ref : List Written} (h : Represents options done store ref) :
    (store.entries.entries.map written).Perm ref := by
  obtain ⟨l, h⟩ := h
  rw [h.ref]
  exact (h.perm.map written).symm

theorem Represents.len_le {options : MemoryCacheOptions} {done : List CacheCall}
    {store : MemoryCacheStore} {ref : List Written} (h : Represents options done store ref) :
    store.len ≤ options.maxEntries := by
  obtain ⟨l, h⟩ := h
  rw [MemoryCacheStore.len, size_of_perm h.perm]
  exact h.bounded

/-- A value is only returned while its entry is live. -/
theorem get_live {now : Instant} {key : String} {store : MemoryCacheStore} {value : Json}
    (h : (store.get now key).1 = .ok (some value)) :
    ∃ entry, store.entries.lookup key = some entry ∧ entry.value = value ∧
      entry.isExpired now = false := by
  unfold MemoryCacheStore.get at h
  cases hLookup : store.entries.lookup key with
  | none =>
    rw [hLookup] at h
    cases h
  | some entry =>
    rw [hLookup] at h
    cases hExpired : entry.isExpired now with
    | true => simp [hExpired] at h
    | false =>
      refine ⟨entry, rfl, ?_, hExpired⟩
      simpa [hExpired] using h

theorem set_tooLarge (clock : Clock) (order : CacheOrder) (now : Instant) (key : String)
    {value : Json} (ttl : Option Duration) {store : MemoryCacheStore}
    (h : store.options.maxValueBytes < value.byteLength) :
    store.set clock order now key value ttl =
      (.error (MemoryCacheStore.tooLarge store.options), store) := by
  rw [MemoryCacheStore.set, if_pos h]

/-- On every run with strictly increasing readings the store answers as the list in the
order of the last write does, holds the same entries and no more of them than the limit; a
`get` returns no expired entry, and a `set` of an oversized value fails without a trace. -/
theorem memoryCache_refines (clock : Clock) (options : MemoryCacheOptions)
    (calls : List CacheCall) (hIncreasing : (calls.map CacheCall.now).Pairwise (· < ·)) :
    let reached := Runs.run (MemoryCacheStore.call clock) calls (.withOptions options)
    let reference := Runs.run (Written.call clock options) calls []
    reached.1 = reference.1 ∧
    (reached.2.entries.entries.map written).Perm reference.2 ∧
    reached.2.len ≤ options.maxEntries ∧
    (∀ now key value, (reached.2.get now key).1 = .ok (some value) →
      ∃ entry, reached.2.entries.lookup key = some entry ∧ entry.value = value ∧
        entry.isExpired now = false) ∧
    ∀ order now key value ttl, options.maxValueBytes < value.byteLength →
      reached.2.set clock order now key value ttl =
        (.error (MemoryCacheStore.tooLarge options), reached.2) := by
  intro reached reference
  obtain ⟨hReplies, hRepresents⟩ := represents_run clock options calls hIncreasing
  have hOptions : reached.2.options = options := by
    obtain ⟨l, h⟩ := hRepresents
    exact h.sameOptions
  refine ⟨hReplies, hRepresents.contents, hRepresents.len_le, fun _ _ _ => get_live, ?_⟩
  intro order now key value ttl hLarge
  rw [← hOptions] at hLarge ⊢
  exact set_tooLarge clock order now key ttl hLarge

/-- A store of one entry: the second write evicts the first. -/
def sessionOptions : MemoryCacheOptions := { MemoryCacheOptions.default with maxEntries := 1 }

def sessionCalls : List CacheCall :=
  [⟨.set "first" .null none, 1, .stored⟩, ⟨.set "second" (.bool true) none, 2, .stored⟩,
    ⟨.get "first", 3, .stored⟩, ⟨.get "second", 4, .stored⟩]

theorem memoryCache_refines_session :
    (Runs.run (MemoryCacheStore.call Clock.full) sessionCalls (.withOptions sessionOptions)).1 =
      [.ok none, .ok none, .ok none, .ok (some (.bool true))] :=
  (memoryCache_refines Clock.full sessionOptions sessionCalls (by decide)).1

end Caelix
