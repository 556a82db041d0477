import CertIssuer.Retry

/-!
# Settings

What the operator chooses for all passes.

They are `ReconcilerSettings`, with `watches_secrets_in`.
-/

namespace CertIssuer

structure Settings where
  /-- Where the secrets of cluster issuers are. -/
  clusterResourceNamespace : String := "cert-manager"
  /-- Whether an issuer may name a namespace of its own for its secrets. -/
  secretAccessAtClusterLevel : Bool := false
  /-- Whether a request waits for an approver. -/
  checkApproved : Bool := true
  /-- The deadline of a call to the certificate authority. -/
  authorityTimeout : Span := .ofSeconds 30
  /-- The time between two checks of an issuer that is ready. -/
  healthCheckInterval : Span := .ofSeconds 60
  retry : RetryPolicy := {}
  deriving DecidableEq, Repr

/-- Whether a change of a secret in a namespace is noticed. -/
def Settings.watchesSecretsIn (s : Settings) (ns : String) : Bool :=
  s.secretAccessAtClusterLevel || ns == s.clusterResourceNamespace

end CertIssuer
