import LoyaltyPoints.Binary64

/-! # Time: lengths of time

    A length of time is a number of nanoseconds; the seconds of a representable one fit 64 bits.
    Seconds given as a floating-point number are rounded to the nearest nanosecond, a tie to the
    even one. -/

namespace LoyaltyPoints

/-- A length of time. -/
structure Duration where
  /-- Its nanoseconds. -/
  nanos : Nat
deriving DecidableEq, Repr, Inhabited

namespace Duration

/-- Nanoseconds in a second. -/
def perSecond : Nat := 1000000000

/-- Nanoseconds in a millisecond. -/
def perMilli : Nat := 1000000

/-- The length of `secs` seconds and `nanos` nanoseconds. -/
def ofParts (secs nanos : Nat) : Duration := ⟨secs * perSecond + nanos⟩

/-- A number of seconds. -/
def ofSecs (n : Nat) : Duration := ⟨n * perSecond⟩

/-- A number of milliseconds. -/
def ofMillis (n : Nat) : Duration := ⟨n * perMilli⟩

/-- The whole seconds. -/
def secs (d : Duration) : Nat := d.nanos / perSecond

/-- The nanoseconds beside the whole seconds. -/
def subsecNanos (d : Duration) : Nat := d.nanos % perSecond

/-- The milliseconds a sleep of this length takes: a begun millisecond counts. -/
def sleepMillis (d : Duration) : Nat := (d.nanos + (perMilli - 1)) / perMilli

/-- The shorter of two. -/
def min (a b : Duration) : Duration := if b.nanos < a.nanos then b else a

/-- The seconds as a floating-point number. -/
def toSeconds (d : Duration) : Binary64 :=
  (Binary64.ofNat d.secs).add ((Binary64.ofNat d.subsecNanos).div (Binary64.ofNat perSecond))

/-- The length of so many seconds, unless they are negative, not a number, or more than 64 bits of
    seconds hold. -/
def ofSeconds? : Binary64 → Option Duration
  | .nan => none
  | .infinite _ => none
  | .finite negative m e =>
    if m = 0 then some ⟨0⟩
    else if negative then none
    else
      let (a, b) := Binary64.scaled m e
      if Nat.pow 2 64 * b ≤ a then none else some ⟨Decimal.divHalfEven (a * perSecond) b⟩

end Duration

end LoyaltyPoints
