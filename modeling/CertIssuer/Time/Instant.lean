import CertIssuer.Time.Span

/-!
# Instants

Points on a clock that never goes back, as the time since its start. The clock counts seconds up to
2^63 - 1, and a sum beyond that is not defined.
-/

namespace CertIssuer

/-- A point on the clock. -/
structure Instant where
  sinceStart : Span
  deriving DecidableEq, Repr

namespace Instant

/-- The greatest number of seconds that the clock counts. -/
def maxSeconds : Nat := 9223372036854775807

def start : Instant := ⟨.zero⟩

instance : LT Instant := ⟨fun a b => a.sinceStart < b.sinceStart⟩
instance (a b : Instant) : Decidable (a < b) := inferInstanceAs (Decidable (a.sinceStart < b.sinceStart))

/-- The instant a span later, if the clock reaches it. -/
def plus? (i : Instant) (d : Span) : Option Instant :=
  let later := i.sinceStart + d
  if later.seconds ≤ maxSeconds then some ⟨later⟩ else none

end Instant

end CertIssuer
