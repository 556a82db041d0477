import CertIssuer.ApiServer.Path
import CertIssuer.Dialogue
import CertIssuer.Error
import CertIssuer.Json.Parser
import CertIssuer.Net.Http
import CertIssuer.Resource.Secret
import CertIssuer.StatusPatch
import CertIssuer.Time.Instant

/-!
# Sessions with the API server

Reads and status writes as calls of the API server. A session is a dialogue with the server and
with two clocks, and it may pause.

A reply with a status from 400 to 599 is a failure. Its body tells the code and the reason; a body
that does not is replaced by the status of the reply. An object is missing exactly when the reason
is `NotFound`, whatever the code.

The calls are those of `KubeResourceStore` and `KubeConfigClient`; a write that fails is told as by
`ControllerError::from_write`.
-/

namespace CertIssuer.ApiServer

structure Call where
  method : Net.Method
  path : String
  contentType : Option String := none
  body : Option Json := none

structure Reply where
  status : Nat
  body : String
  deriving DecidableEq, Repr

inductive Question where
  /-- The server's reply to a call, if one arrives. -/
  | call (c : Call)
  /-- The date. -/
  | now
  /-- The clock that never goes back. -/
  | clock
  | pause (d : Span)

def Question.Answer : Question → Type
  | call _ => Option Reply
  | now => Timestamp
  | clock => Instant
  | pause _ => Unit

end ApiServer

/-- A dialogue with the API server that may end with an error. -/
abbrev Session := ExceptT ControllerError (Dialogue ApiServer.Question ApiServer.Question.Answer)

namespace ApiServer

def ask (q : Question) : Session q.Answer := ExceptT.lift (Dialogue.question q)

/-! ### Replies -/

/-- What a failure is called whose body does not tell. -/
def unreadableReason : String := "Failed to parse error data"

/-- The failure that a body tells. -/
def failure? (body : String) : Option ControllerError := do
  let ms ← (← Json.parse? body).record? ["status", "message", "reason", "code"]
  let _ ← ms.required "status" Json.text?
  let message ← ms.withDefault "message" "" Json.text?
  let reason ← ms.withDefault "reason" "" Json.text?
  let code ← ms.required "code" (Json.intWithin? 0 65535)
  return .api code.toNat reason message

/-- The body of a reply, or the failure that it is. -/
def Reply.read (r : Reply) : Except ControllerError String :=
  if 400 ≤ r.status ∧ r.status < 600 then
    .error ((failure? r.body).getD (.api r.status unreadableReason (Text.quoted r.body)))
  else .ok r.body

/-- The object in the body of a reply. -/
def Reply.decode {α : Type} (r : Reply) (read : Json → Option α) : Except ControllerError α := do
  match (Json.parse? (← r.read)).bind read with
  | some a => return a
  | none => throw .client

/-! ### Calls -/

/-- Characters that no path holds. -/
def isForeign (c : Char) : Bool :=
  c.toNat ≤ 32 || c == '<' || c == '>' || c == '\x60'

/-- Calls the server about an object of a name and reads the object in its reply. -/
def exchange {α : Type} (name : String) (c : Call) (read : Json → Option α) : Session α := do
  if name.isEmpty || c.path.toList.any isForeign then throw .client
  match ← ask (.call c) with
  | some reply => ExceptT.mk (pure (reply.decode read))
  | none => throw .client

/-- Whether a failure means that the object is missing. -/
def isMissing : ControllerError → Bool
  | .api _ reason _ => reason == "NotFound"
  | _ => false

/-- Reads an object, which may be missing. -/
def get? {α : Type} (collection name : String) (read : Json → Option α) : Session (Option α) :=
  tryCatch (some <$> exchange name ⟨.get, collection ++ "/" ++ name, none, none⟩ read) fun e =>
    if isMissing e then return none else throw e

/-- Writes the status of an object; `target` names it in a conflict. -/
def patchStatus {α : Type} (collection name : String) (patch : Json) (target : String)
    (read : Json → Option α) : Session Unit :=
  let call : Call :=
    ⟨.patch, collection ++ "/" ++ name ++ "/status", some "application/merge-patch+json", some patch⟩
  tryCatch (do let _ ← exchange name call read) fun e => throw (e.ofWrite target)

/-! ### Objects -/

/-- The collection of an issuer; one of a namespace must have it. -/
def issuerCollection (key : IssuerKey) (complaint : String) : Session String :=
  match key.kind, key.namespace with
  | .namespaced, some ns => return (Collection.issuers .namespaced).within ns
  | .namespaced, none => throw (.invalidConfig ("Issuer " ++ key.name ++ complaint))
  | .cluster, _ => return (Collection.issuers .cluster).everywhere

def getIssuer (key : IssuerKey) : Session (Option Issuer) := do
  let collection ← issuerCollection key " looked up without a namespace"
  let found ← get? collection key.name (IssuerObject.ofJson? key.kind)
  return found.map Issuer.ofObject

def writeIssuer (issuer : Issuer) (status : IssuerStatus) : Session Unit := do
  let collection ← issuerCollection issuer.key " has no namespace"
  patchStatus collection issuer.name (statusPatch status.toJson issuer.resourceVersion)
    issuer.displayName (IssuerObject.ofJson? issuer.kind)

def getRequest (ns name : String) : Session (Option CertificateRequest) :=
  get? (Collection.requests.within ns) name CertificateRequest.ofJson?

def writeRequest (request : CertificateRequest) (status : RequestStatus)
    (precondition : Precondition) : Session Unit :=
  patchStatus (Collection.requests.within request.namespace) request.name
    (statusPatch status.toJson (precondition.pinned request))
    (CertificateRequest.kind ++ " " ++ request.namespace ++ "/" ++ request.name)
    CertificateRequest.ofJson?

def getSecret (key : Secret.Key) : Session (Option SecretData) :=
  get? (Collection.secrets.within key.namespace) key.name Secret.ofJson?

end ApiServer

end CertIssuer
