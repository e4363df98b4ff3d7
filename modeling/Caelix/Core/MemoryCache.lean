import Mathlib.Data.List.MinMax
import Caelix.Lib.Table
import Caelix.Core.Clock
import Caelix.Core.Exception
import Caelix.Core.Json

/-!
# The in-memory cache

`MemoryCacheStore` of `cache.rs`. Every call reads the clock once; `order` is the order in
which the hash map lists its entries during the call. The lock around the entries is never
poisoned, since nothing panics while it is held, and `serde_json::to_vec` does not fail on
a JSON value.
-/

namespace Caelix

open Table

structure CacheEntry where
  value : Json
  insertedAt : Instant
  expiresAt : Option Instant

/-- `CacheEntry::new`. -/
def CacheEntry.new (clock : Clock) (now : Instant) (value : Json) (ttl : Option Duration) :
    CacheEntry where
  value := value
  insertedAt := now
  expiresAt := ttl.bind (clock.checkedAdd now)

def CacheEntry.isExpired (now : Instant) (entry : CacheEntry) : Bool :=
  entry.expiresAt.any fun expiresAt => expiresAt ≤ now

structure MemoryCacheOptions where
  maxEntries : Nat
  maxValueBytes : Nat
  defaultTtl : Option Duration

/-- `MemoryCacheOptions::default`. -/
def MemoryCacheOptions.default : MemoryCacheOptions where
  maxEntries := 1024
  maxValueBytes := 1024 * 1024
  defaultTtl := none

abbrev CacheEntries := Table String CacheEntry

abbrev CacheOrder := Iteration String CacheEntry

structure MemoryCacheStore where
  options : MemoryCacheOptions
  entries : CacheEntries

namespace MemoryCacheStore

/-- `with_options`. -/
def withOptions (options : MemoryCacheOptions) : MemoryCacheStore := ⟨options, ∅⟩

def len (store : MemoryCacheStore) : Nat := size store.entries

def removeExpired (now : Instant) (entries : CacheEntries) : CacheEntries :=
  retain (fun _ entry => !entry.isExpired now) entries

/-- `entries.iter().min_by_key(|(_, entry)| entry.inserted_at)`. -/
def oldestKey (order : CacheOrder) (entries : CacheEntries) : Option String :=
  ((order.visit entries).argmin fun e => e.2.insertedAt).map Sigma.fst

/-- The loop of `evict_to_capacity`; `rounds` is enough when it is the number of entries. -/
def evictLoop (order : CacheOrder) (maxEntries : Nat) : Nat → CacheEntries → CacheEntries
  | 0, entries => entries
  | rounds + 1, entries =>
    if maxEntries < size entries then
      match oldestKey order entries with
      | none => entries
      | some key => evictLoop order maxEntries rounds (entries.erase key)
    else entries

def evictToCapacity (order : CacheOrder) (options : MemoryCacheOptions) (entries : CacheEntries) :
    CacheEntries :=
  if options.maxEntries = 0 then ∅
  else evictLoop order options.maxEntries (size entries) entries

def get (now : Instant) (key : String) (store : MemoryCacheStore) :
    Except HttpException (Option Json) × MemoryCacheStore :=
  match store.entries.lookup key with
  | none => (.ok none, store)
  | some entry =>
    if entry.isExpired now then (.ok none, { store with entries := store.entries.erase key })
    else (.ok (some entry.value), store)

/-- The error of `set` for a value over the configured limit. -/
def tooLarge (options : MemoryCacheOptions) : HttpException :=
  HttpException.new 413 "Payload Too Large"
    ("cache value exceeds the configured limit of " ++ toString options.maxValueBytes ++ " bytes")

def set (clock : Clock) (order : CacheOrder) (now : Instant) (key : String) (value : Json)
    (ttl : Option Duration) (store : MemoryCacheStore) :
    Except HttpException Unit × MemoryCacheStore :=
  if store.options.maxValueBytes < value.byteLength then
    (.error (tooLarge store.options), store)
  else
    let ttl := ttl.or store.options.defaultTtl
    let entries := removeExpired now store.entries
    let entries := entries.insert key (CacheEntry.new clock now value ttl)
    (.ok (), { store with entries := evictToCapacity order store.options entries })

def delete (key : String) (store : MemoryCacheStore) :
    Except HttpException Unit × MemoryCacheStore :=
  (.ok (), { store with entries := store.entries.erase key })

def clear (store : MemoryCacheStore) : Except HttpException Unit × MemoryCacheStore :=
  (.ok (), { store with entries := ∅ })

end MemoryCacheStore

end Caelix
