import CertIssuer.Text.Quoted

/-!
# Errors

Two families. A `ControllerError` ends a pass and is retried by whoever started the pass. An
`IssuerConfigError` is a problem of an issuer's secrets that is reported on the issuer and waits
for a change of it.

The families are `ControllerError` and `ConfigError`.
-/

namespace CertIssuer

/-- Why a pass, or the process, could not go on. -/
inductive ControllerError where
  /-- The API server answered with a failure. -/
  | api (code : Nat) (reason message : String)
  /-- The API server could not be asked, or its answer could not be read. -/
  | client
  /-- Somebody else has written the object since it was read. -/
  | conflict (target : String)
  | invalidConfig (text : String)
  | serialization
  | leaderElection (text : String)
  | watch (text : String)
  deriving DecidableEq, Repr

namespace ControllerError

/-- The text of an error; a failure of the client or of an encoding has none of its own here. -/
def message : ControllerError → String
  | api _ _ text => s!"Kubernetes error: {text}"
  | client => "Kubernetes error"
  | conflict target => s!"Conflict writing status of {target}"
  | invalidConfig text => s!"Invalid configuration: {text}"
  | serialization => "Serialization error"
  | leaderElection text => s!"Leader election failed: {text}"
  | watch text => s!"Resource watch failed: {text}"

/-- A failure of the API server to write a target: the code 409 is a conflict. -/
def ofWrite (target : String) : ControllerError → ControllerError
  | api code reason text => if code = 409 then conflict target else api code reason text
  | error => error

end ControllerError

/-- Why an issuer's secrets cannot be used. -/
inductive IssuerConfigError where
  | secretNotFound (namespaceName name : String)
  | namespaceNotAllowed (requested allowed : String)
  | invalidSpec (text : String)
  deriving DecidableEq, Repr

namespace IssuerConfigError

def message : IssuerConfigError → String
  | secretNotFound ns name => s!"secret {ns}/{name} not found"
  | namespaceNotAllowed requested allowed =>
    s!"secret namespace {Text.quoted requested} is not allowed, secrets must be in " ++
      s!"{Text.quoted allowed} unless access is granted at cluster level"
  | invalidSpec text => s!"invalid issuer spec: {text}"

/-- Whether the problem ends once somebody creates the secret. -/
def isNotFound : IssuerConfigError → Bool
  | secretNotFound _ _ => true
  | _ => false

end IssuerConfigError

end CertIssuer
