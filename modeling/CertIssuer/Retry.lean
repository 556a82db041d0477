import CertIssuer.Time.Span

/-!
# Retry schedule

The delay before the next attempt follows from how long something has been failing: it is that
time itself, brought between a base and a ceiling. So the attempts double their distance until
the ceiling, and a restarted process goes on with the same schedule.

The schedule is `RetryPolicy` with `requeue_after` and `is_exhausted`.
-/

namespace CertIssuer

structure RetryPolicy where
  /-- The least delay. -/
  base : Span := .ofSeconds 5
  /-- The greatest delay, unless the base is greater. -/
  maxInterval : Span := .ofSeconds 300
  /-- How long failing is tolerated. -/
  maxDuration : Span := .ofSeconds 3600
  deriving DecidableEq, Repr

namespace RetryPolicy

/-- The greatest delay that is ever asked for. -/
def ceiling (p : RetryPolicy) : Span := max p.maxInterval p.base

/-- The delay before the next attempt after failing for some time. -/
def requeueAfter (p : RetryPolicy) (elapsed : Span) : Span := elapsed.clamp p.base p.ceiling

/-- Whether failing has gone on for too long. -/
def isExhausted (p : RetryPolicy) (elapsed : Span) : Bool := p.maxDuration ≤ elapsed

end RetryPolicy

end CertIssuer
