import Mathlib.Algebra.Group.Nat.Defs
import Mathlib.Data.Nat.Basic

/-!
# Clock readings and durations

An `Instant` is the number of nanoseconds since the origin of the monotonic clock, a
`Duration` a number of nanoseconds. `std` keeps the seconds of an `Instant` in a signed
64-bit integer; a `Clock` says which instant is the last one it can represent.
-/

namespace Caelix

abbrev Instant := Nat

abbrev Duration := Nat

def nanosPerSec : Nat := 1000000000

/-- `Duration::MAX`. -/
def Duration.max : Duration := 2 ^ 64 * nanosPerSec - 1

/-- `Duration::from_secs`. -/
def Duration.fromSecs (seconds : Nat) : Duration := seconds * nanosPerSec

/-- `Duration::as_secs`. -/
def Duration.asSecs (d : Duration) : Nat := d / nanosPerSec

/-- `Duration::subsec_nanos`. -/
def Duration.subsecNanos (d : Duration) : Nat := d % nanosPerSec

/-- The range of the monotonic clock. -/
structure Clock where
  latest : Instant
  latest_lt : latest < 2 ^ 63 * nanosPerSec

/-- The clock of a platform whose instants use the whole range. -/
def Clock.full : Clock := ⟨2 ^ 63 * nanosPerSec - 1, by decide⟩

/-- `Instant::checked_add`. -/
def Clock.checkedAdd (clock : Clock) (now : Instant) (d : Duration) : Option Instant :=
  if now + d ≤ clock.latest then some (now + d) else none

/-- `Instant::saturating_duration_since`. -/
def Instant.saturatingDurationSince (later earlier : Instant) : Duration := later - earlier

theorem Clock.checkedAdd_eq_some_iff {clock : Clock} {now : Instant} {d : Duration} {t : Instant} :
    clock.checkedAdd now d = some t ↔ now + d ≤ clock.latest ∧ t = now + d := by
  unfold Clock.checkedAdd
  by_cases h : now + d ≤ clock.latest
  · simp [h, eq_comm]
  · simp [h]

theorem Clock.checkedAdd_eq_none_iff {clock : Clock} {now : Instant} {d : Duration} :
    clock.checkedAdd now d = none ↔ clock.latest < now + d := by
  unfold Clock.checkedAdd
  by_cases h : now + d ≤ clock.latest
  · simp [h]
  · simp [h, Nat.lt_of_not_le h]

end Caelix
