import CertIssuer.Authority.Error
import CertIssuer.Authority.Pem
import CertIssuer.Json.Decode
import CertIssuer.Json.Parser
import CertIssuer.Time.Rfc3339

/-!
# Enrollments

The request for a certificate as the web interface takes it, and the reading of its answer. An
answer yields certificates only when its disposition says that they were issued; then there is at
least one.

The forms are `EnrollmentBody`, `EnrollmentResponse` and `CertificateInformation`; `decode` is
`decode_enrollment` and `conclude` is `issued_from_information`. An answer that cannot be read is
reported with one text, whatever is wrong with it.
-/

namespace CertIssuer.Authority

structure Enrollment where
  csr : String
  template : String
  certificateAuthority : String
  metadata : List (String × String)
  deriving DecidableEq, Repr

/-- The body of the call that submits an enrollment. -/
def Enrollment.body (e : Enrollment) (date : Timestamp) : Json := .ofMembers [
  ("CSR", some (.string e.csr)),
  ("Timestamp", some (.string date.textSeconds)),
  ("Template", some (.string e.template)),
  ("CertificateAuthority", some (.string e.certificateAuthority)),
  ("IncludeChain", some (.bool true)),
  ("Metadata",
    if e.metadata.isEmpty then none
    else some (.object (e.metadata.map fun (name, value) => (name, .string value))))]

/-- What the authority says about a certificate. -/
structure CertificateInformation where
  serialNumber : Option String := none
  thumbprint : Option String := none
  certificateId : Option Nat := none
  requestId : Option Nat := none
  certificates : List String := []
  disposition : String := ""
  dispositionMessage : Option String := none
  deriving DecidableEq, Repr

namespace CertificateInformation

def parts : List String :=
  ["SerialNumber", "Thumbprint", "KeyfactorID", "KeyfactorRequestId", "Certificates",
    "RequestDisposition", "DispositionMessage"]

def ofJson? (value : Json) : Option CertificateInformation := do
  let ms ← value.record? parts
  return {
    serialNumber := ← ms.optional "SerialNumber" Json.text?
    thumbprint := ← ms.optional "Thumbprint" Json.text?
    certificateId := ← ms.optional "KeyfactorID" Json.unsigned64?
    requestId := ← ms.optional "KeyfactorRequestId" Json.unsigned64?
    certificates := ← ms.withDefault "Certificates" [] (Json.listOf? Json.text?)
    disposition := ← ms.withDefault "RequestDisposition" "" Json.text?
    dispositionMessage := ← ms.optional "DispositionMessage" Json.text? }

/-- The information in the body of an answer. -/
def ofBody? (body : String) : Option CertificateInformation := do
  let ms ← (← Json.parse? body).record? ["CertificateInformation"]
  ms.required "CertificateInformation" ofJson?

end CertificateInformation

/-- A certificate that was issued, leaf first. -/
structure IssuedCertificate where
  certificates : List String
  serialNumber : Option String
  thumbprint : Option String
  certificateId : Option Nat
  requestId : Option Nat
  deriving DecidableEq, Repr

namespace Enrollment

/-- Whether a disposition says that a certificate was issued, in letters of either case. -/
def isIssued (disposition : String) : Bool :=
  disposition.toList.map Char.toUpper == "ISSUED".toList

/-- The certificates that an answer holds, or why there are none. -/
def conclude (info : CertificateInformation) : Except CallError IssuedCertificate :=
  if isIssued info.disposition then
    let certificates := info.certificates.flatMap Pem.ofEntry
    if certificates.isEmpty then
      .error (.disposition info.disposition "enrollment issued but no certificate returned")
    else
      .ok {
        certificates := certificates
        serialNumber := info.serialNumber
        thumbprint := info.thumbprint
        certificateId := info.certificateId
        requestId := info.requestId }
  else .error (.disposition info.disposition (info.dispositionMessage.getD ""))

/-- The reading of the body of an answer. -/
def decode (body : String) : Except CallError IssuedCertificate :=
  match CertificateInformation.ofBody? body with
  | none => .error (.unreadableEnrollment "unexpected body")
  | some info => conclude info

end Enrollment

end CertIssuer.Authority
