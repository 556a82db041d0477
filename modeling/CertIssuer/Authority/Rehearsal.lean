import CertIssuer.Authority.Signer

/-!
# A rehearsal of the authority

A stand-in for the web interface. It issues a fixed chain, fails where it has been told to, and
remembers what reached it.

It is `MockCommandClient` with its `MockFailure`.
-/

namespace CertIssuer.Authority

/-- How a rehearsed call fails. -/
inductive RehearsedFailure where
  | status (code : Nat)
  | unauthorized
  | disposition (text : String)
  | unreadable
  deriving DecidableEq, Repr

def RehearsedFailure.error : RehearsedFailure → CallError
  | status code => .api code s!"mock status {code}"
  | unauthorized => .authentication "mock 401"
  | disposition text => .disposition text "mock disposition"
  | unreadable => .unreadableEnrollment "mock garbled body"

structure Rehearsal where
  /-- How every probe fails. -/
  healthFailure : Option RehearsedFailure := none
  /-- How the next enrollments fail. -/
  enrollFailures : List RehearsedFailure := []
  /-- What successful enrollments return. -/
  chain : List String := [
    "-----BEGIN CERTIFICATE-----\nTEVBRg==\n-----END CERTIFICATE-----\n",
    "-----BEGIN CERTIFICATE-----\nUk9PVA==\n-----END CERTIFICATE-----\n"]
  /-- What was submitted, failed or not. -/
  enrollments : List Enrollment := []
  healthChecks : Nat := 0

namespace Rehearsal

def checkConnection (r : Rehearsal) : Except CallError Unit × Rehearsal :=
  let r := { r with healthChecks := r.healthChecks + 1 }
  match r.healthFailure with
  | some failure => (.error failure.error, r)
  | none => (.ok (), r)

def enroll (r : Rehearsal) (e : Enrollment) : Except CallError IssuedCertificate × Rehearsal :=
  let r := { r with enrollments := r.enrollments ++ [e] }
  match r.enrollFailures with
  | failure :: rest => (.error failure.error, { r with enrollFailures := rest })
  | [] =>
    (.ok {
      certificates := r.chain
      serialNumber := some "01"
      thumbprint := none
      certificateId := some 1
      requestId := some 1 }, r)

/-- Has an order signed. -/
def sign (r : Rehearsal) (s : Signer) (order : SignOrder) :
    Except SignerError SignedCertificate × Rehearsal :=
  match s.enrollment order with
  | .error e => (.error e, r)
  | .ok e =>
    let (answer, r) := r.enroll e
    (Signer.signed answer, r)

/-- Probes the interface. -/
def check (r : Rehearsal) : Except SignerError Unit × Rehearsal :=
  let (answer, r) := r.checkConnection
  (checkResult answer, r)

end Rehearsal

end CertIssuer.Authority
