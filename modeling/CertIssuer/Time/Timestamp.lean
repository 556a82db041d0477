import CertIssuer.Time.Span

/-!
# Points in time

A point in time in UTC: the seconds since 1970-01-01T00:00:00Z and the nanoseconds of the second.
A leap second is the continuation of the second before it, so its nanoseconds run from 10^9 on.
The range is that of the dates from -262143-01-01 to 262142-12-31.
-/

namespace CertIssuer

structure Timestamp where
  seconds : Int
  nanos : Nat
  deriving DecidableEq, Repr, Inhabited

namespace Timestamp

/-- The last whole second of the range. -/
def maxSeconds : Int := 8210266876799

/-- The first second of the range. -/
def minSeconds : Int := -8334601228800

instance : LE Timestamp :=
  ⟨fun a b => a.seconds < b.seconds ∨ (a.seconds = b.seconds ∧ a.nanos ≤ b.nanos)⟩
instance : LT Timestamp :=
  ⟨fun a b => a.seconds < b.seconds ∨ (a.seconds = b.seconds ∧ a.nanos < b.nanos)⟩
instance (a b : Timestamp) : Decidable (a ≤ b) :=
  inferInstanceAs (Decidable (a.seconds < b.seconds ∨ (a.seconds = b.seconds ∧ a.nanos ≤ b.nanos)))
instance (a b : Timestamp) : Decidable (a < b) :=
  inferInstanceAs (Decidable (a.seconds < b.seconds ∨ (a.seconds = b.seconds ∧ a.nanos < b.nanos)))

theorem le_iff (a b : Timestamp) :
    a ≤ b ↔ a.seconds < b.seconds ∨ (a.seconds = b.seconds ∧ a.nanos ≤ b.nanos) := Iff.rfl

/-- The later of two points in time. -/
instance : Max Timestamp := ⟨fun a b => if a ≤ b then b else a⟩

/-- The second of the day. -/
def secondOfDay (t : Timestamp) : Nat := (t.seconds % 86400).toNat

/-- Whether a point lies within a leap second. -/
def inLeapSecond (t : Timestamp) : Bool := Span.perSecond ≤ t.nanos

/-! ### Differences -/

/-- The seconds that leap seconds add to the difference of two points: a leap second counts only
when the other point has a later second of its day. -/
def leapAdjustment (a b : Timestamp) : Int :=
  if b.secondOfDay < a.secondOfDay then (if b.inLeapSecond then 1 else 0)
  else if a.secondOfDay < b.secondOfDay then (if a.inLeapSecond then -1 else 0)
  else 0

/-- The nanoseconds from `b` to `a`. -/
def nanosFrom (a b : Timestamp) : Int :=
  (a.seconds - b.seconds + leapAdjustment a b) * Span.perSecond + ((a.nanos : Int) - b.nanos)

/-- The span from `since` to `now`, zero when `since` is later. -/
def elapsed (now since : Timestamp) : Span := ⟨(now.nanosFrom since).toNat⟩

/-- The span from `since` to `now`, zero when `since` is unknown. -/
def elapsedSince (now : Timestamp) (since : Option Timestamp) : Span :=
  match since with
  | some t => now.elapsed t
  | none => Span.zero

/-! ### Sums -/

/-- The point a span later. A leap second is left once the sum passes its end. -/
def plus (t : Timestamp) (d : Span) : Timestamp :=
  let nanos := t.nanos + d.subsecond
  if t.inLeapSecond then
    if d.seconds = 0 ∧ nanos < 2 * Span.perSecond then ⟨t.seconds, nanos⟩
    else
      let nanos := nanos - Span.perSecond
      ⟨t.seconds + d.seconds + (nanos / Span.perSecond : Nat), nanos % Span.perSecond⟩
  else ⟨t.seconds + d.seconds + (nanos / Span.perSecond : Nat), nanos % Span.perSecond⟩

/-- Whether a point lies in the range. -/
def inRange (t : Timestamp) : Bool := minSeconds ≤ t.seconds && t.seconds ≤ maxSeconds

/-- The point a span later, if it lies in the range. -/
def plus? (t : Timestamp) (d : Span) : Option Timestamp :=
  let later := t.plus d
  if later.inRange then some later else none

/-- The point with its fraction of a second cut to microseconds. -/
def truncateMicros (t : Timestamp) : Timestamp := ⟨t.seconds, t.nanos / 1000 * 1000⟩

end Timestamp

end CertIssuer
