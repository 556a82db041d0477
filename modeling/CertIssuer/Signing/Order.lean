import CertIssuer.Resource.Secret
import CertIssuer.Time.Span

/-!
# What goes to a signer and what comes back

The order for a certificate, the certificates that answer it, and the ways in which signing fails.

They are `IssuerSecrets`, `SignRequest`, `SignedCertificate` (by `split_chain`) and `SignerError`.
-/

namespace CertIssuer

/-- The secrets that an issuer names, as they were read. -/
structure IssuerSecrets where
  credentials : SecretData
  ca : Option SecretData
  deriving DecidableEq

/-- What is to be signed. -/
structure SignOrder where
  csr : Text.Bytes
  duration : Option Span
  usages : List String
  isCA : Bool
  metadata : List (String × String)
  deriving DecidableEq

/-- What was signed: the chain from the leaf on, and the certificate at its end, empty when there
is but one. -/
structure SignedCertificate where
  chain : String
  ca : String
  deriving DecidableEq, Repr

/-- Splits a chain, leaf first, into the certificate at its end and those before it. A lone
certificate is the chain. -/
def SignedCertificate.ofChain (certificates : List String) : SignedCertificate :=
  match certificates with
  | [] => ⟨"", ""⟩
  | [leaf] => ⟨leaf, ""⟩
  | _ => ⟨String.join certificates.dropLast, certificates.getLast?.getD ""⟩

/-- Why nothing was signed. -/
inductive SignerError where
  /-- A later attempt may succeed. -/
  | transient (text : String)
  /-- The authority has answered and will not sign. -/
  | permanent (text : String)
  /-- The issuer's spec or secrets do not lead to the authority. -/
  | config (text : String)
  deriving DecidableEq, Repr

def SignerError.message : SignerError → String
  | transient text => s!"transient CA error: {text}"
  | permanent text => s!"CA rejected the request: {text}"
  | config text => s!"invalid issuer configuration: {text}"

end CertIssuer
