import CertIssuer.Resource.Condition
import CertIssuer.Resource.Metadata
import CertIssuer.Time.UnitText

/-!
# Certificate requests

The resource by which a certificate is asked for. A request is terminal once it holds a
certificate or its `Ready` reason says that it was issued, denied or has failed. The approval gate
lets a request proceed that an approver has approved and nobody has denied.

The parts are `CertificateRequestSpec`, `ObjectReference` and `CertificateRequestStatus`
(`is_terminal`, `requested_duration`); `gate` is `approval_gate`.
-/

namespace CertIssuer

/-! ### Spec -/

/-- The issuer that a request names. -/
structure ObjectReference where
  name : String
  kind : Option String
  group : Option String
  deriving DecidableEq, Repr

namespace ObjectReference

def ofJson? (value : Json) : Option ObjectReference := do
  let ms ← value.record? ["name", "kind", "group"]
  return {
    name := ← ms.required "name" Json.text?
    kind := ← ms.optional "kind" Json.text?
    group := ← ms.optional "group" Json.text? }

def toJson (r : ObjectReference) : Json := .ofMembers [
  ("name", some (.string r.name)),
  ("kind", r.kind.map .string),
  ("group", r.group.map .string)]

end ObjectReference

structure RequestSpec where
  request : String
  duration : Option String
  issuerRef : ObjectReference
  usages : List String
  isCA : Bool
  username : Option String
  deriving DecidableEq, Repr

namespace RequestSpec

/-- The lifetime asked for, if any. -/
def requestedDuration (s : RequestSpec) : Except InvalidSpan (Option Span) :=
  match s.duration with
  | none => .ok none
  | some text => (Span.parse text).map some

def ofJson? (value : Json) : Option RequestSpec := do
  let ms ← value.record? ["request", "duration", "issuerRef", "usages", "isCA", "username"]
  return {
    request := ← ms.required "request" Json.text?
    duration := ← ms.optional "duration" Json.text?
    issuerRef := ← ms.required "issuerRef" ObjectReference.ofJson?
    usages := ← ms.withDefault "usages" [] (Json.listOf? Json.text?)
    isCA := ← ms.withDefault "isCA" false Json.bool?
    username := ← ms.optional "username" Json.text? }

def toJson (s : RequestSpec) : Json := .ofMembers [
  ("request", some (.string s.request)),
  ("duration", s.duration.map .string),
  ("issuerRef", some s.issuerRef.toJson),
  ("usages", Json.ofList? .string s.usages),
  ("isCA", some (.bool s.isCA)),
  ("username", s.username.map .string)]

end RequestSpec

/-! ### Status -/

/-- What the approver's conditions say about going on. -/
inductive ApprovalGate where
  | proceed
  | awaitApproval
  | denied
  deriving DecidableEq, Repr

structure RequestStatus where
  conditions : Conditions := []
  certificate : Option String := none
  ca : Option String := none
  failureTime : Option Timestamp := none
  deriving DecidableEq, Repr

namespace RequestStatus

def readyCondition? (s : RequestStatus) : Option Condition := s.conditions.get? Condition.ready

def readyReason? (s : RequestStatus) : Option String := s.readyCondition?.bind (·.reason)

def isApproved (s : RequestStatus) : Bool := s.conditions.isTrue Condition.approved

def isDenied (s : RequestStatus) : Bool := s.conditions.isTrue Condition.denied

/-- The reasons after which nothing is left to do. -/
def finalReasons : List String := [Reason.issued, Reason.denied, Reason.failed]

/-- Whether the status is the last one that this controller gives. -/
def isTerminal (s : RequestStatus) : Bool :=
  s.certificate.isSome || s.readyReason?.any (finalReasons.contains ·)

/-- The gate, open without a look when approval is not checked. -/
def gate (s : RequestStatus) (checkApproved : Bool) : ApprovalGate :=
  if !checkApproved then .proceed
  else if s.isDenied then .denied
  else if s.isApproved then .proceed
  else .awaitApproval

def ofJson? (value : Json) : Option RequestStatus := do
  let ms ← value.record? ["conditions", "certificate", "ca", "failureTime"]
  return {
    conditions := ← ms.withDefault "conditions" [] (Json.listOf? Condition.ofJson?)
    certificate := ← ms.optional "certificate" Json.text?
    ca := ← ms.optional "ca" Json.text?
    failureTime := ← ms.optional "failureTime" Timestamp.ofJson? }

def toJson (s : RequestStatus) : Json := .ofMembers [
  ("conditions", Json.ofList? Condition.toJson s.conditions),
  ("certificate", s.certificate.map .string),
  ("ca", s.ca.map .string),
  ("failureTime", s.failureTime.map Timestamp.toJson)]

end RequestStatus

/-! ### Stored objects -/

structure CertificateRequest where
  metadata : Metadata
  spec : RequestSpec
  status : Option RequestStatus

namespace CertificateRequest

def group : String := "cert-manager.io"

def apiVersion : String := group ++ "/v1"

def kind : String := "CertificateRequest"

def ofJson? (value : Json) : Option CertificateRequest := do
  let ms ← value.members
  return {
    metadata := ← ms.required "metadata" Metadata.ofJson?
    spec := ← ms.required "spec" RequestSpec.ofJson?
    status := ← ms.optional "status" RequestStatus.ofJson? }

def toJson (r : CertificateRequest) : Json := .ofMembers [
  ("apiVersion", some (.string apiVersion)),
  ("kind", some (.string kind)),
  ("metadata", some r.metadata.toJson),
  ("spec", some r.spec.toJson),
  ("status", r.status.map RequestStatus.toJson)]

/-- The namespace, empty when unset. -/
def «namespace» (r : CertificateRequest) : String := r.metadata.namespace.getD ""

def name (r : CertificateRequest) : String := r.metadata.anyName

/-- The status, empty when unset. -/
def currentStatus (r : CertificateRequest) : RequestStatus := r.status.getD {}

end CertificateRequest

end CertIssuer
