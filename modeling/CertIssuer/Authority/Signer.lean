import CertIssuer.Authority.Client

/-!
# Signing with the authority

From an issuer's spec and secrets to a client, to a signer that submits orders as enrollments, and
to a checker that probes the interface. Both are put together anew for each use.

The parts are `client_config`, `certificate_authority`, `CommandSigner`, `CommandHealthChecker`, and
the builders `command_signer_builder` and `command_health_checker_builder`.
-/

namespace CertIssuer.Authority

/-- The key of the trusted certificates in the secret that the spec names for them. -/
def bundleKey : String := "ca.crt"

/-- The trusted certificates of an issuer's secrets. -/
def caBundle (secrets : IssuerSecrets) : Except SignerError (Option String) :=
  match secrets.ca with
  | none => .ok none
  | some data => do
    match ← secretText data bundleKey with
    | some bundle => return some bundle
    | none => throw (.config ("CA secret has no " ++ Text.quoted bundleKey ++ " key"))

/-- The configuration of the client of an issuer. -/
def clientConfig (spec : IssuerSpec) (secrets : IssuerSecrets) (timeout : Span) :
    Except SignerError ClientConfig := do
  if Text.isBlankText spec.hostname then throw (.config "spec.hostname is required")
  let credentials ← Credentials.ofSecret spec secrets.credentials
  let bundle ← caBundle secrets
  return {
    hostname := spec.hostname
    apiPath := spec.apiPath
    credentials := credentials
    caBundle := bundle
    timeout := timeout }

/-- The name of the authority that signs, after its host where the spec states one. -/
def certificateAuthority (spec : IssuerSpec) : String :=
  match spec.certificateAuthorityHostname.filter (!·.isEmpty) with
  | some host => host ++ "\\" ++ spec.certificateAuthorityLogicalName
  | none => spec.certificateAuthorityLogicalName

/-- What a failed call means for the one who asked for it. -/
def signerResult {α : Type} : Except CallError α → Except SignerError α
  | .ok a => .ok a
  | .error e => .error e.toSignerError

/-! ### The signer -/

/-- What a signer adds to each order. -/
structure Signer where
  template : String
  certificateAuthority : String
  deriving DecidableEq, Repr

namespace Signer

def ofSpec (spec : IssuerSpec) : Except SignerError Signer := do
  if Text.isBlankText spec.certificateTemplate then
    throw (.config "spec.certificateTemplate is required")
  if Text.isBlankText spec.certificateAuthorityLogicalName then
    throw (.config "spec.certificateAuthorityLogicalName is required")
  return ⟨spec.certificateTemplate, Authority.certificateAuthority spec⟩

/-- The enrollment that an order becomes. -/
def enrollment (s : Signer) (order : SignOrder) : Except SignerError Enrollment :=
  match Text.toText? order.csr with
  | none => .error (.permanent "CSR is not valid PEM text")
  | some csr => .ok ⟨csr, s.template, s.certificateAuthority, order.metadata⟩

/-- What an answered enrollment is for the one who ordered. -/
def signed (answer : Except CallError IssuedCertificate) : Except SignerError SignedCertificate :=
  (signerResult answer).map fun issued => .ofChain issued.certificates

end Signer

/-! ### The checker -/

/-- What the outcome of a probe means: whatever the authority answers, it may be different later. -/
def checkResult (answer : Except CallError Unit) : Except SignerError Unit :=
  match signerResult answer with
  | .error (.permanent text) => .error (.transient text)
  | result => result

/-! ### Putting together -/

/-- The client of an issuer. -/
def buildClient (spec : IssuerSpec) (secrets : IssuerSecrets) (timeout : Span) :
    Except SignerError Client := do
  signerResult (Client.ofConfig (← clientConfig spec secrets timeout))

/-- The client and the signer of an issuer. -/
def buildSigner (spec : IssuerSpec) (secrets : IssuerSecrets) (timeout : Span) :
    Except SignerError (Client × Signer) := do
  let client ← buildClient spec secrets timeout
  return (client, ← Signer.ofSpec spec)

/-- The client that checks an issuer. -/
def buildChecker (spec : IssuerSpec) (secrets : IssuerSecrets) (timeout : Span) :
    Except SignerError Client :=
  buildClient spec secrets timeout

/-! ### Use -/

/-- Has an order signed. -/
def signOver (client : Client) (s : Signer) (order : SignOrder) :
    Call (Except SignerError SignedCertificate) :=
  match s.enrollment order with
  | .error e => return .error e
  | .ok e =>
    tryCatch (do return Signer.signed (.ok (← client.enroll e))) fun
      | .failed e => return Signer.signed (.error e)
      | .clockOverflow => throw .clockOverflow

/-- Has the interface probed. -/
def checkOver (client : Client) : Call (Except SignerError Unit) :=
  tryCatch (do return checkResult (.ok (← client.checkConnection))) fun
    | .failed e => return checkResult (.error e)
    | .clockOverflow => throw .clockOverflow

end CertIssuer.Authority
