import CertIssuer.Reconcile.Secrets
import CertIssuer.Resource.Annotation
import CertIssuer.Scheme
import CertIssuer.Text.Base64

/-!
# Passes over a certificate request

A request goes from no condition to `Pending`, and from there to `Issued`, `Denied` or `Failed`,
where it stays. A pass stops at the approval gate, waits for the issuer and for its secrets, and
has the request signed.

A request is only signed while it is pending, and the status that follows an answer of the
authority is written unconditionally, so that a lost race does not make the request be sent again.

The pass is `CertificateRequestReconciler::reconcile`; `issue`, `approvedAt`, `setReady`, `pending`,
`fail` and `write` are its `issue`, `approved_at`, `set_ready`, `pending`, `fail` and `write`, and
`conclude` is the end of its `issue`.
-/

namespace CertIssuer.Reconcile

/-- A request in the hands of a pass: what was read and when, and the status as it is now to be. -/
structure Work where
  request : CertificateRequest
  status : RequestStatus
  now : Timestamp

namespace Work

/-- The work with `Ready` set. -/
def setReady (w : Work) (status : ConditionStatus) (reason message : String) : Work :=
  let conditions := (w.status.conditions.set Condition.ready status reason message
    w.request.metadata.generation w.now).2
  { w with status := { w.status with conditions := conditions } }

/-- The work of a pass that begins: a request without `Ready` is pending. -/
def start (request : CertificateRequest) (now : Timestamp) : Work :=
  let w : Work := ⟨request, request.currentStatus, now⟩
  if w.status.readyCondition?.isNone then
    w.setReady .isFalse Reason.pending "Initialising Ready condition"
  else w

/-- Writes the status if it is not what was read. -/
def write (w : Work) (precondition : Precondition) : Pass Unit :=
  if w.status = w.request.currentStatus then pure ()
  else Pass.writeRequest w.request w.status precondition

/-! ### Ends of a pass -/

/-- The work with the request not ready for a reason that may go away. -/
def waiting (w : Work) (reason message : String) : Work := w.setReady .isFalse reason message

/-- Ends with the request not ready, to be looked at again after a delay. -/
def pending (w : Work) (reason message : String) (delay : Span) : Pass Requeue := do
  (w.waiting reason message).write .resourceVersion
  return .after delay

/-- The work with the request closed without a certificate. -/
def closed (w : Work) (reason message : String) : Work :=
  let w := w.setReady .isFalse reason message
  { w with status := { w.status with failureTime := some w.now } }

/-- Ends with the request failed for good. -/
def fail (w : Work) (message : String) (precondition : Precondition) : Pass Requeue := do
  (w.closed Reason.failed message).write precondition
  return .awaitChange

/-- Ends with the request denied. -/
def deny (w : Work) : Pass Requeue := do
  (w.closed Reason.denied "The CertificateRequest was denied by an approval controller").write
    .resourceVersion
  return .awaitChange

/-- The work with the certificate that was signed. -/
def withCertificate (w : Work) (signed : SignedCertificate) : Work :=
  let encoded (pem : String) : String := Text.Base64.encode (Text.toBytes pem)
  let status : RequestStatus := { w.status with
    certificate := some (encoded signed.chain)
    ca := if signed.ca.isEmpty then none else some (encoded signed.ca)
    failureTime := none }
  { w with status := status }.setReady .isTrue Reason.issued "Signed"

/-- Ends with the request issued. -/
def issued (w : Work) (signed : SignedCertificate) : Pass Requeue := do
  (w.withCertificate signed).write .unconditional
  Pass.ask .recordIssued
  return .awaitChange

/-! ### Since when the request could be signed -/

/-- When the request was approved, if approval is checked. -/
def approvedAt (w : Work) (settings : Settings) : Option Timestamp :=
  if !settings.checkApproved then none
  else do
    let approved ← w.status.conditions.get? Condition.approved
    if approved.status = .isTrue then approved.lastTransitionTime else none

end Work

/-- When an issuer became ready. -/
def readyAt (issuer : Issuer) : Option Timestamp := do
  let ready ← issuer.status.readyCondition?
  if ready.status = .isTrue then ready.lastTransitionTime else none

/-- The latest of the times that are known. -/
def latest (times : List (Option Timestamp)) : Option Timestamp :=
  times.foldl (fun best t =>
    match best, t with
    | some b, some t => some (max b t)
    | none, t => t
    | b, none => b) none

namespace Work

/-- For how long the request could have been signed: waiting for the approver or for the issuer
does not count. -/
def signingElapsed (w : Work) (settings : Settings) (issuer : Issuer) : Span :=
  w.now.elapsedSince
    (latest [w.request.metadata.creationTime?, w.approvedAt settings, readyAt issuer])

/-! ### The order -/

/-- What is to be signed, or why the request cannot be. -/
def order? (w : Work) : Except String SignOrder := do
  let spec := w.request.spec
  let csr ← match Text.Base64.decode (Text.trim spec.request) with
    | .ok [] => .error "spec.request is empty"
    | .ok csr => .ok csr
    | .error e => .error ("spec.request is not valid base64: " ++ e.message)
  let duration ← match spec.requestedDuration with
    | .ok duration => .ok duration
    | .error e => .error e.message
  return {
    csr := csr
    duration := duration
    usages := spec.usages
    isCA := spec.isCA
    metadata := enrollmentMetadata w.request.metadata.allAnnotations }

/-! ### Steps of a pass -/

/-- Ends a pass after an answer of the signer. -/
def conclude (w : Work) (settings : Settings) (elapsed : Span)
    (answer : Except SignerError SignedCertificate) : Pass Requeue :=
  match answer with
  | .ok signed => w.issued signed
  | .error (.permanent text) => w.fail ("CA rejected the request: " ++ text) .unconditional
  | .error e =>
    if settings.retry.isExhausted elapsed then
      w.fail ("giving up after " ++ elapsed.text ++ ": " ++ e.message) .unconditional
    else
      w.pending Reason.pending ("signing failed, will retry: " ++ e.message)
        (settings.retry.requeueAfter elapsed)

/-- What counts as the answer of a signer that did not answer in time. -/
def timedOut (settings : Settings) : Except SignerError SignedCertificate :=
  .error (.transient ("signing timed out after " ++ settings.authorityTimeout.text))

/-- Has a signer built and used. -/
def sign (w : Work) (settings : Settings) (issuer : Issuer) (secrets : IssuerSecrets)
    (order : SignOrder) (backoff : Span) : Pass Requeue := do
  match ← Pass.ask (.buildSigner issuer.spec secrets) with
  | .error e =>
    w.pending Reason.pending ("failed to build signer: " ++ e.message) backoff
  | .ok () =>
    let answer ← Pass.ask (.sign issuer.spec secrets order)
    w.conclude settings (w.signingElapsed settings issuer) (answer.getD (timedOut settings))

/-- Reads the secrets of an issuer that is ready and goes on to sign. -/
def signWith (w : Work) (settings : Settings) (issuer : Issuer) (backoff : Span) :
    Pass Requeue := do
  match ← loadSecrets settings issuer with
  | .error e => w.pending Reason.pending ("issuer secrets unavailable: " ++ e.message) backoff
  | .ok secrets =>
    match w.order? with
    | .error text => w.fail text .resourceVersion
    | .ok order => w.sign settings issuer secrets order backoff

/-- The issuer that a request names, of a kind. -/
def issuerKey (w : Work) (kind : IssuerKind) : IssuerKey where
  kind := kind
  «namespace» := match kind with
    | .namespaced => some w.request.namespace
    | .cluster => none
  name := w.request.spec.issuerRef.name

/-- Looks up the issuer and goes on when it is ready. -/
def issue (w : Work) (settings : Settings) (kind : IssuerKind) : Pass Requeue := do
  let elapsed := w.now.elapsedSince w.request.metadata.creationTime?
  let backoff := settings.retry.requeueAfter elapsed
  match ← Pass.getIssuer (w.issuerKey kind) with
  | none =>
    let name := w.request.spec.issuerRef.name
    w.pending Reason.issuerNotReady (kind.text ++ " " ++ name ++ " not found") backoff
  | some issuer =>
    if issuer.status.isReady then w.signWith settings issuer backoff
    else w.pending Reason.issuerNotReady (issuer.displayName ++ " is not Ready") backoff

end Work

/-- The kind of issuer that a request names; none when it is not one of ours. -/
def issuerKindOf? (scheme : Scheme) (request : CertificateRequest) : Option IssuerKind :=
  scheme.issuerKind? request.spec.issuerRef.group request.spec.issuerRef.kind

/-- Goes through the approval gate. -/
def gatePass (settings : Settings) (kind : IssuerKind) (w : Work) : Pass Requeue :=
  match w.status.gate settings.checkApproved with
  | .proceed => w.issue settings kind
  | .awaitApproval => do
    w.write .resourceVersion
    return .awaitChange
  | .denied => w.deny

/-- A pass over the request of a name. -/
def requestPass (settings : Settings) (scheme : Scheme) (ns name : String) : Pass Requeue := do
  match ← Pass.getRequest ns name with
  | none => return .awaitChange
  | some request =>
    match issuerKindOf? scheme request with
    | none => return .awaitChange
    | some kind =>
      if request.currentStatus.isTerminal then return .awaitChange
      else
        let now ← Pass.now
        gatePass settings kind (Work.start request now)

end CertIssuer.Reconcile
