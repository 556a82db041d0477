import CertIssuer.Error
import CertIssuer.Resource.Issuer
import CertIssuer.Text.Blank

/-!
# Where an issuer's secrets are

The secrets of an issuer lie in its own namespace, those of a cluster issuer in the namespace set
aside for them. Another namespace that the spec asks for counts only under access at cluster level.

The rule is `resolve_secret_namespace`.
-/

namespace CertIssuer

/-- The namespace in which an issuer of a kind has its secrets unless it asks for another. -/
def baseSecretNamespace (kind : IssuerKind) (issuerNamespace : Option String)
    (clusterNamespace : String) : Except IssuerConfigError String :=
  match kind, issuerNamespace with
  | .namespaced, some ns => .ok ns
  | .namespaced, none => .error (.invalidSpec "namespaced Issuer without a namespace")
  | .cluster, _ => .ok clusterNamespace

/-- The namespace that an issuer's secrets are read from. -/
def resolveSecretNamespace (kind : IssuerKind) (issuerNamespace requested : Option String)
    (clusterNamespace : String) (clusterAccess : Bool) : Except IssuerConfigError String := do
  let base ← baseSecretNamespace kind issuerNamespace clusterNamespace
  match requested.bind Text.trimmed? with
  | none => .ok base
  | some requested =>
    if requested = base then .ok base
    else if clusterAccess then .ok requested
    else .error (.namespaceNotAllowed requested base)

end CertIssuer
