import CertIssuer.Signing.Order

/-!
# Failed calls

The ways in which a call to the authority's web interface fails, and what they mean for signing. A
failure is transient when the same call may succeed later; what the authority has answered on
purpose is not.

They are `CommandError` with `is_transient`, and the conversion of it into a `SignerError`.
-/

namespace CertIssuer.Authority

inductive CallError where
  /-- No answer arrived, or the call could not be made. -/
  | http (text : String)
  | api (status : Nat) (text : String)
  | authentication (text : String)
  | serialization (text : String)
  /-- The authority has accepted an enrollment but its answer cannot be read. -/
  | unreadableEnrollment (text : String)
  | invalidRequest (text : String)
  /-- The authority has answered an enrollment without a certificate. -/
  | disposition (disposition text : String)
  | configuration (text : String)
  deriving DecidableEq, Repr

namespace CallError

def message : CallError → String
  | http text => s!"HTTP error: {text}"
  | api status text => s!"CA API error {status}: {text}"
  | authentication text => s!"Authentication failed: {text}"
  | serialization text => s!"Serialization error: {text}"
  | unreadableEnrollment text => s!"Enrollment answered but unreadable: {text}"
  | invalidRequest text => s!"Invalid request: {text}"
  | disposition d text => s!"Enrollment not issued ({d}): {text}"
  | configuration text => s!"Configuration error: {text}"

/-- Whether the same call may succeed later. -/
def isTransient : CallError → Bool
  | http _ => true
  | serialization _ => true
  | authentication _ => true
  | api status _ => 500 ≤ status || status == 408 || status == 429
  | _ => false

/-- What a failed call means for signing. -/
def toSignerError (e : CallError) : SignerError :=
  match e with
  | configuration text => .config text
  | e => if e.isTransient then .transient e.message else .permanent e.message

end CallError

end CertIssuer.Authority
