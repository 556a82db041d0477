import CertIssuer.Reconcile.Pass

/-!
# After a pass

How a pass is counted, and when its resource is looked at again. A lost race for a status is
repeated at once, since the next pass reads what won. Any other failure is repeated after the base
of the retry schedule.

The counting is that of `timed`, and what comes next is said by `Requeue::into_action` and
`error_policy`.
-/

namespace CertIssuer.Reconcile

/-- How a pass ended. -/
inductive Outcome where
  | success
  | conflict
  | error
  deriving DecidableEq, Repr

namespace Outcome

def text : Outcome → String
  | success => "success"
  | conflict => "conflict"
  | error => "error"

def ofResult {α : Type} : Except ControllerError α → Outcome
  | .ok _ => success
  | .error (.conflict _) => conflict
  | .error _ => error

end Outcome

/-- The delay before the next pass; none when it waits for a change. -/
def nextPass? (settings : Settings) : Except ControllerError Requeue → Option Span
  | .ok .awaitChange => none
  | .ok (.after delay) => some delay
  | .error (.conflict _) => some .zero
  | .error _ => some settings.retry.base

end CertIssuer.Reconcile
