import ResilientCalls.Decimal.Power

/-!
# Durations

A span of time in whole nanoseconds, up to the largest that 64-bit seconds and a fraction of a
second can hold.
-/

namespace ResilientCalls

/-- The largest number of nanoseconds: `2 ^ 64` seconds less one nanosecond. -/
def Duration.maxNanos : Nat := twoTo 64 * tenTo 9 - 1

/-- A span of time. -/
structure Duration where
  nanos : Nat
  /-- No span is longer than the largest one. -/
  nanos_le : nanos ≤ Duration.maxNanos
deriving DecidableEq

namespace Duration

/-- The span of that many nanoseconds, if there is one. -/
def ofNanos? (n : Nat) : Option Duration :=
  if h : n ≤ maxNanos then some ⟨n, h⟩ else none

def zero : Duration := ⟨0, Nat.zero_le _⟩

def max : Duration := ⟨maxNanos, Nat.le_refl _⟩

instance : Inhabited Duration := ⟨zero⟩

/-- A number of nanoseconds below `2 ^ 64`. -/
def ofNanos (n : Nat) (h : n < twoTo 64) : Duration :=
  ⟨n, Nat.le_trans (Nat.le_of_lt h) (by decide)⟩

def isZero (d : Duration) : Bool := d.nanos == 0

instance : LE Duration := ⟨fun a b => a.nanos ≤ b.nanos⟩

instance (a b : Duration) : Decidable (a ≤ b) := inferInstanceAs (Decidable (a.nanos ≤ b.nanos))

/-- The shorter of two spans. -/
def atMost (d cap : Duration) : Duration := if d ≤ cap then d else cap

theorem isZero_iff {d : Duration} : d.isZero = true ↔ d = zero := by
  cases d; simp [isZero, zero]

theorem atMost_le (d cap : Duration) : d.atMost cap ≤ cap := by
  unfold atMost
  split
  · assumption
  · exact Nat.le_refl _

/-- What is left of a span when some nanoseconds of it have passed. -/
def remaining (d : Duration) (passed : Nat) : Duration :=
  ⟨d.nanos - passed, Nat.le_trans (Nat.sub_le _ _) d.nanos_le⟩

/-- A clock counts seconds in 63 bits, so a wait that is longer never elapses. -/
def elapses (d : Duration) : Bool := d.nanos < twoTo 63 * tenTo 9

/-! ## Text -/

/-- A fraction of `width` digits without its trailing zeros, after a point. -/
def fraction (width n : Nat) : String :=
  let digits := Nat.toDigits 10 n
  let padded := List.replicate (width - digits.length) '0' ++ digits
  if n = 0 then "" else "." ++ String.ofList (padded.reverse.dropWhile (· == '0')).reverse

/-- The span in the largest unit that has a whole part. -/
def toText (d : Duration) : String :=
  let inUnit (width : Nat) (unit : String) : String :=
    toString (d.nanos / tenTo width) ++ fraction width (d.nanos % tenTo width) ++ unit
  if d.nanos ≥ tenTo 9 then inUnit 9 "s"
  else if d.nanos ≥ tenTo 6 then inUnit 6 "ms"
  else if d.nanos ≥ tenTo 3 then inUnit 3 "µs"
  else toString d.nanos ++ "ns"

end Duration

/-! ## Moments -/

/-- A moment in nanoseconds since the start, which may never come. -/
abbrev Moment := Option Nat

namespace Moment

/-- The moment at which a bounded wait that begins now is over. -/
def afterWait (now : Nat) (bound : Option Duration) : Moment :=
  match bound with
  | some d => if d.elapses then some (now + d.nanos) else none
  | none => none

/-- The earlier of two moments. -/
def earlier : Moment → Moment → Moment
  | some a, some b => some (min a b)
  | some a, none => some a
  | none, b => b

/-- Whether the first moment comes, and comes before the second. -/
def isBefore : Moment → Moment → Bool
  | some a, some b => a < b
  | some _, none => true
  | none, _ => false

end Moment

end ResilientCalls
