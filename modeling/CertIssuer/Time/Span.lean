import CertIssuer.Text.Digits

/-!
# Spans of time

A span is a number of nanoseconds. Its order is that of the numbers.
-/

namespace CertIssuer

/-- A length of time, never negative. -/
structure Span where
  nanos : Nat
  deriving DecidableEq, Repr, Inhabited

namespace Span

/-- Nanoseconds in a second. -/
def perSecond : Nat := 1000000000

def zero : Span := ⟨0⟩

def ofSeconds (n : Nat) : Span := ⟨n * perSecond⟩

/-- The whole seconds of a span. -/
def seconds (d : Span) : Nat := d.nanos / perSecond

/-- The nanoseconds after the whole seconds. -/
def subsecond (d : Span) : Nat := d.nanos % perSecond

instance : LE Span := ⟨fun a b => a.nanos ≤ b.nanos⟩
instance : LT Span := ⟨fun a b => a.nanos < b.nanos⟩
instance (a b : Span) : Decidable (a ≤ b) := inferInstanceAs (Decidable (a.nanos ≤ b.nanos))
instance (a b : Span) : Decidable (a < b) := inferInstanceAs (Decidable (a.nanos < b.nanos))
instance : Max Span := ⟨fun a b => if a ≤ b then b else a⟩
instance : Min Span := ⟨fun a b => if a ≤ b then a else b⟩
instance : Add Span := ⟨fun a b => ⟨a.nanos + b.nanos⟩⟩

theorem le_iff (a b : Span) : a ≤ b ↔ a.nanos ≤ b.nanos := Iff.rfl

theorem lt_iff (a b : Span) : a < b ↔ a.nanos < b.nanos := Iff.rfl

theorem nanos_max (a b : Span) : (max a b).nanos = max a.nanos b.nanos := by
  show (if a.nanos ≤ b.nanos then b else a).nanos = _
  by_cases h : a.nanos ≤ b.nanos
  · rw [if_pos h, Nat.max_eq_right h]
  · rw [if_neg h, Nat.max_eq_left (by omega)]

theorem nanos_min (a b : Span) : (min a b).nanos = min a.nanos b.nanos := by
  show (if a.nanos ≤ b.nanos then a else b).nanos = _
  by_cases h : a.nanos ≤ b.nanos
  · rw [if_pos h, Nat.min_eq_left h]
  · rw [if_neg h, Nat.min_eq_right (by omega)]

theorem seconds_ofSeconds (n : Nat) : (ofSeconds n).seconds = n := by
  simp [ofSeconds, seconds, perSecond]

/-- Brings a span between two bounds; the upper one counts when they cross. -/
def clamp (d low high : Span) : Span := min (max d low) high

/-- Hours, minutes and whole seconds, each with its unit; the rest of a second is dropped. -/
def text (d : Span) : String :=
  let s := d.seconds
  s!"{s / 3600}h{s % 3600 / 60}m{s % 60}s"

/-- A number of units with a fraction of so many places, without the zeros at its end. -/
def decimalText (whole fraction places : Nat) : String :=
  let fraction := ((Text.paddedDigits places fraction).reverse.dropWhile (· = '0')).reverse
  String.ofList (Text.digits whole ++ if fraction.isEmpty then [] else '.' :: fraction)

/-- The exact length in the largest unit that it fills. -/
def exactText (d : Span) : String :=
  let of (unit places : Nat) (name : String) :=
    decimalText (d.nanos / unit) (d.nanos % unit) places ++ name
  if perSecond ≤ d.nanos then of perSecond 9 "s"
  else if 1000000 ≤ d.nanos then of 1000000 6 "ms"
  else if 1000 ≤ d.nanos then of 1000 3 "µs"
  else of 1 0 "ns"

end Span

end CertIssuer
