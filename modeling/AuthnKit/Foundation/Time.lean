import Mathlib

/-!
# AuthnKit — durations and clocks

The three time types of the standard library, as nanosecond counts that carry their range:

* **`Duration`** — unsigned 64-bit seconds plus nanoseconds; subtraction saturates at zero.
* **`Instant`** — the monotonic clock, signed 64-bit seconds; adding a duration may leave the
  range, which aborts the caller, so addition is `checkedAdd`.
* **`SystemTime`** — the wall clock, signed 64-bit seconds around the epoch; the distance to an
  earlier reading is an error (`durationSince`), and addition may leave the range as well.
-/

namespace AuthnKit

@[ext]
structure Duration where
  nanos : ℕ
  lt_max : nanos < 2 ^ 64 * 1000000000
  deriving DecidableEq

namespace Duration

def zero : Duration := ⟨0, by decide⟩

def fromSecs (secs : UInt64) : Duration :=
  ⟨secs.toNat * 1000000000, by have := secs.toNat_lt; omega⟩

def asSecs (d : Duration) : ℕ := d.nanos / 1000000000

def isZero (d : Duration) : Bool := d.nanos == 0

def saturatingSub (a b : Duration) : Duration := ⟨a.nanos - b.nanos, by have := a.lt_max; omega⟩

protected def min (a b : Duration) : Duration :=
  ⟨min a.nanos b.nanos, by have := a.lt_max; omega⟩

instance : LT Duration := ⟨fun a b => a.nanos < b.nanos⟩

instance (a b : Duration) : Decidable (a < b) := inferInstanceAs (Decidable (a.nanos < b.nanos))

theorem lt_def {a b : Duration} : a < b ↔ a.nanos < b.nanos := Iff.rfl

@[simp] theorem zero_nanos : zero.nanos = 0 := rfl

@[simp] theorem isZero_iff {d : Duration} : d.isZero = true ↔ d.nanos = 0 := by
  simp [isZero]

@[simp] theorem saturatingSub_nanos (a b : Duration) :
    (a.saturatingSub b).nanos = a.nanos - b.nanos := rfl

@[simp] theorem min_nanos (a b : Duration) : (a.min b).nanos = min a.nanos b.nanos := rfl

end Duration

@[ext]
structure Instant where
  nanos : ℕ
  lt_max : nanos < 2 ^ 63 * 1000000000
  deriving DecidableEq

namespace Instant

instance : LT Instant := ⟨fun a b => a.nanos < b.nanos⟩

instance : LE Instant := ⟨fun a b => a.nanos ≤ b.nanos⟩

instance (a b : Instant) : Decidable (a < b) := inferInstanceAs (Decidable (a.nanos < b.nanos))

instance (a b : Instant) : Decidable (a ≤ b) := inferInstanceAs (Decidable (a.nanos ≤ b.nanos))

theorem lt_def {a b : Instant} : a < b ↔ a.nanos < b.nanos := Iff.rfl

theorem le_def {a b : Instant} : a ≤ b ↔ a.nanos ≤ b.nanos := Iff.rfl

theorem zero_lt_max : 0 < 2 ^ 63 * 1000000000 := by decide

/-- `Instant + Duration`; `none` is the overflow on which the operator panics. -/
def checkedAdd (i : Instant) (d : Duration) : Option Instant :=
  if h : i.nanos + d.nanos < 2 ^ 63 * 1000000000 then some ⟨i.nanos + d.nanos, h⟩ else none

/-- `now.duration_since(earlier)` on the monotonic clock, which saturates at zero. -/
def since (now earlier : Instant) : Duration :=
  ⟨now.nanos - earlier.nanos, by have := now.lt_max; omega⟩

/-- Elapsed time is truncated subtraction, as the monotonic clock saturates at zero. -/
@[simp] theorem since_nanos (now earlier : Instant) :
    (now.since earlier).nanos = now.nanos - earlier.nanos := rfl

theorem checkedAdd_eq_some {i j : Instant} {d : Duration} :
    i.checkedAdd d = some j ↔ j.nanos = i.nanos + d.nanos := by
  unfold checkedAdd
  constructor
  · intro h
    split at h
    · rw [← Option.some.inj h]
    · exact absurd h (by simp)
  · intro h
    have hj := j.lt_max
    rw [dif_pos (by omega)]
    congr 1
    exact Instant.ext h.symm

end Instant

@[ext]
structure SystemTime where
  /-- Nanoseconds since the Unix epoch. -/
  nanos : ℤ
  le_nanos : -(2 ^ 63 * 1000000000) ≤ nanos
  nanos_lt : nanos < 2 ^ 63 * 1000000000
  deriving DecidableEq

namespace SystemTime

/-- `UNIX_EPOCH`. -/
def epoch : SystemTime := ⟨0, by decide, by decide⟩

/-- `SystemTime + Duration`; `none` is the overflow on which the operator panics. -/
def checkedAdd (t : SystemTime) (d : Duration) : Option SystemTime :=
  if h : t.nanos + d.nanos < 2 ^ 63 * 1000000000 then
    some ⟨t.nanos + d.nanos, by have := t.le_nanos; omega, h⟩
  else none

/-- `later.duration_since(earlier).ok()`: `none` when `later` is in fact earlier. -/
def durationSince (later earlier : SystemTime) : Option Duration :=
  if earlier.nanos ≤ later.nanos then
    some ⟨(later.nanos - earlier.nanos).toNat,
      by have := later.nanos_lt; have := earlier.le_nanos; omega⟩
  else none

/-- Where `later` is not before `earlier`, there is a duration, and it is their difference. -/
theorem durationSince_of_le {later earlier : SystemTime} (h : earlier.nanos ≤ later.nanos) :
    ∃ d, later.durationSince earlier = some d
      ∧ (d.nanos : ℤ) = later.nanos - earlier.nanos := by
  unfold durationSince
  rw [if_pos h]
  exact ⟨_, rfl, Int.toNat_of_nonneg (by omega)⟩

/-- Where `later` is in fact earlier there is no duration: the standard library's error, dropped by
`ok`. -/
theorem durationSince_of_lt {later earlier : SystemTime} (h : later.nanos < earlier.nanos) :
    later.durationSince earlier = none := by
  unfold durationSince
  rw [if_neg (by omega)]

theorem checkedAdd_eq_some {t u : SystemTime} {d : Duration} :
    t.checkedAdd d = some u ↔ u.nanos = t.nanos + d.nanos := by
  unfold checkedAdd
  constructor
  · intro h
    split at h
    · rw [← Option.some.inj h]
    · exact absurd h (by simp)
  · intro h
    have hu := u.nanos_lt
    rw [dif_pos (by omega)]
    congr 1
    exact SystemTime.ext h.symm

/-- Adding overflows exactly from second `2 ^ 63` on, the range of the platform's `time_t`. -/
theorem checkedAdd_eq_none {t : SystemTime} {d : Duration} :
    t.checkedAdd d = none ↔ 2 ^ 63 * 1000000000 ≤ t.nanos + d.nanos := by
  unfold checkedAdd
  split
  next h => simp; omega
  next h => simp; omega

end SystemTime

end AuthnKit
