/-!
Durations and points in time, both counted in nanoseconds. A duration is at most
2^64 seconds less a nanosecond. A clock holds its seconds in a signed 64-bit
number, so not every sum of an instant and a duration is an instant. A wait whose
deadline is not one has no deadline and never runs out. Timers have millisecond
resolution.
-/
namespace Switchboard

def nanosPerMilli : Nat := 1000000

def nanosPerSecond : Nat := 1000000000

structure Duration where
  nanos : Nat
  bounded : nanos < UInt64.size * nanosPerSecond := by decide
deriving DecidableEq

namespace Duration

/-- The longest duration. -/
def longest : Duration := ⟨UInt64.size * nanosPerSecond - 1, by decide⟩

/-- A count of nanoseconds, cut off at the longest duration. -/
def ofNanos (n : Nat) : Duration :=
  if h : n < UInt64.size * nanosPerSecond then ⟨n, h⟩ else longest

def ofMicros (n : Nat) : Duration := ofNanos (n * 1000)

def ofMillis (n : Nat) : Duration := ofNanos (n * nanosPerMilli)

def ofSeconds (n : Nat) : Duration := ofNanos (n * nanosPerSecond)

def isZero (d : Duration) : Bool := decide (d.nanos = 0)

/-- Whole milliseconds, the rest cut off, at most the largest 64-bit number. -/
def wholeMillis (d : Duration) : Nat := min (d.nanos / nanosPerMilli) (UInt64.size - 1)

theorem nanos_ofNanos {n : Nat} (h : n < UInt64.size * nanosPerSecond) :
    (ofNanos n).nanos = n := by
  rw [ofNanos, dif_pos h]

end Duration

/-- A point in time, counted from the start of the clock. -/
structure Instant where
  nanos : Nat
deriving DecidableEq

namespace Instant

/-- The first count of nanoseconds that no clock can hold. -/
def limit : Nat := UInt64.size / 2 * nanosPerSecond

/-- The sum, if the clock can hold it. -/
def add? (t : Instant) (d : Duration) : Option Instant :=
  if t.nanos + d.nanos < limit then some ⟨t.nanos + d.nanos⟩ else none

/-- A timer rounds its deadline up, and the clock down, to whole milliseconds. -/
def reached (now deadline : Instant) : Bool :=
  decide ((deadline.nanos + (nanosPerMilli - 1)) / nanosPerMilli ≤ now.nanos / nanosPerMilli)

/-- Whether a wait is over by its deadline, if it has one. -/
def passed (now : Instant) : Option Instant → Bool
  | some deadline => now.reached deadline
  | none => false

@[simp] theorem passed_none (now : Instant) : now.passed none = false := rfl

@[simp] theorem passed_some (now deadline : Instant) :
    now.passed (some deadline) = now.reached deadline := rfl

def advance (t : Instant) (d : Duration) : Instant := ⟨t.nanos + d.nanos⟩

theorem add?_eq_some_iff {t u : Instant} {d : Duration} :
    t.add? d = some u ↔ t.nanos + d.nanos < limit ∧ u = ⟨t.nanos + d.nanos⟩ := by
  rw [add?, Option.ite_none_right_eq_some, Option.some.injEq, eq_comm (a := u)]

/-- A timer is over once a whole millisecond has come at or after its deadline. -/
theorem reached_iff {now deadline : Instant} : now.reached deadline = true ↔
    ∃ ms, deadline.nanos ≤ ms * nanosPerMilli ∧ ms * nanosPerMilli ≤ now.nanos := by
  unfold reached nanosPerMilli
  rw [decide_eq_true_iff]
  constructor
  · intro h
    exact ⟨now.nanos / 1000000, by omega, by omega⟩
  · rintro ⟨ms, hlow, hhigh⟩
    omega

theorem passed_add?_iff {start now : Instant} {d : Duration} :
    now.passed (start.add? d) = true ↔ start.nanos + d.nanos < limit ∧
      ∃ ms, start.nanos + d.nanos ≤ ms * nanosPerMilli ∧ ms * nanosPerMilli ≤ now.nanos := by
  by_cases hlimit : start.nanos + d.nanos < limit
  · rw [add?_eq_some_iff.mpr ⟨hlimit, rfl⟩, passed_some, reached_iff]
    exact ⟨fun hover => ⟨hlimit, hover⟩, And.right⟩
  · rw [add?, if_neg hlimit]
    exact ⟨nofun, fun hover => absurd hover.1 hlimit⟩

/-- Whether a wait is over is a matter of its length at any time that the clock can hold. -/
theorem passed_add?_iff_of_lt {start now : Instant} {d : Duration} (h : now.nanos < limit) :
    now.passed (start.add? d) = true ↔
      ∃ ms, start.nanos + d.nanos ≤ ms * nanosPerMilli ∧ ms * nanosPerMilli ≤ now.nanos := by
  rw [passed_add?_iff]
  refine ⟨And.right, fun hover => ⟨?_, hover⟩⟩
  obtain ⟨ms, hlow, hhigh⟩ := hover
  omega

theorem reached_mono {now later deadline : Instant} (h : now.reached deadline = true)
    (hle : now.nanos ≤ later.nanos) : later.reached deadline = true :=
  decide_eq_true (Nat.le_trans (of_decide_eq_true h) (Nat.div_le_div_right hle))

theorem passed_mono {now later : Instant} {deadline? : Option Instant}
    (h : now.passed deadline? = true) (hle : now.nanos ≤ later.nanos) :
    later.passed deadline? = true := by
  cases deadline? with
  | none => cases h
  | some deadline => exact reached_mono h hle

/-- A wait that takes time is not over when it begins. -/
theorem passed_add?_self {d : Duration} (h : d.isZero = false) (now : Instant) :
    now.passed (now.add? d) = false := by
  have hpos : d.nanos ≠ 0 := of_decide_eq_false h
  refine Bool.eq_false_iff.mpr fun hpassed => ?_
  obtain ⟨-, ms, hlow, hhigh⟩ := passed_add?_iff.mp hpassed
  omega

end Instant

end Switchboard
