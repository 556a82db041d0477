import CertIssuer.Error
import CertIssuer.Resource.CertificateRequest
import CertIssuer.Resource.Issuer
import CertIssuer.Resource.Secret
import CertIssuer.StatusPatch

/-!
# A cluster in memory

The objects, the clock and the versions of a cluster, what other parties do to it, and the reads
and status writes that passes make. A write that is pinned to a version conflicts when the stored
object has another, or when the next such write was told to.

Every change of an object is noted, for those who watch.
-/

namespace CertIssuer.World

/-- A change that somebody who watches the cluster would see. -/
inductive Notice where
  | issuer (key : IssuerKey)
  | request («namespace» name : String)
  | secret (key : Secret.Key)
  deriving DecidableEq, Repr

structure Cluster where
  now : Timestamp
  /-- The last number that was used as a version. -/
  lastVersion : Nat := 100
  issuers : List Issuer := []
  requests : List CertificateRequest := []
  secrets : List (Secret.Key × SecretData) := []
  failNextWrite : Bool := false
  failNextRead : Bool := false
  failNextLookup : Bool := false
  /-- The changes of objects, the latest first. -/
  notices : List Notice := []

/-- What happens to a cluster from outside. -/
inductive Change where
  | putIssuer (issuer : Issuer)
  | editIssuer (key : IssuerKey) (spec : IssuerSpec)
  | touchIssuer (key : IssuerKey)
  | deleteIssuer (key : IssuerKey)
  | putRequest (request : CertificateRequest)
  | touchRequest («namespace» name : String)
  | deleteRequest («namespace» name : String)
  | setCondition («namespace» name : String) (type : String) (status : ConditionStatus)
      (reason message : String) (time : Option Timestamp)
  | putSecret (key : Secret.Key) (data : SecretData)
  | removeSecret (key : Secret.Key)
  | advance (span : Span)
  | setTime (time : Timestamp)
  | failNextWrite
  | failNextRead
  | failNextLookup

namespace Cluster

/-! ### Objects -/

def issuer? (c : Cluster) (key : IssuerKey) : Option Issuer := c.issuers.find? (·.key = key)

/-- Whether a request has a namespace and a name. -/
def isNamed (ns name : String) (r : CertificateRequest) : Bool :=
  r.namespace == ns && r.name == name

def request? (c : Cluster) (ns name : String) : Option CertificateRequest :=
  c.requests.find? (isNamed ns name)

def secret? (c : Cluster) (key : Secret.Key) : Option SecretData :=
  (c.secrets.find? (·.1 = key)).map (·.2)

/-- Puts an item in place of the one that it replaces, or else at the end. -/
def replace {α : Type} (replaces : α → Bool) (item : α) (items : List α) : List α :=
  if items.any replaces then items.map fun other => if replaces other then item else other
  else items ++ [item]

def note (c : Cluster) (n : Notice) : Cluster := { c with notices := n :: c.notices }

def storeIssuer (c : Cluster) (i : Issuer) : Cluster :=
  { c with issuers := replace (·.key = i.key) i c.issuers }.note (.issuer i.key)

def storeRequest (c : Cluster) (r : CertificateRequest) : Cluster :=
  { c with requests := replace (isNamed r.namespace r.name) r c.requests }.note
    (.request r.namespace r.name)

/-- The cluster after the next version is taken. -/
def bump (c : Cluster) : Cluster := { c with lastVersion := c.lastVersion + 1 }

/-- The version taken last. -/
def version (c : Cluster) : String := toString c.lastVersion

/-- A request with another version. -/
def withVersion (r : CertificateRequest) (version : String) : CertificateRequest :=
  { r with metadata := { r.metadata with resourceVersion := some version } }

/-! ### Changes from outside -/

/-- Takes a version, and changes an issuer if it is there. -/
def changeIssuer (c : Cluster) (key : IssuerKey) (change : Issuer → Issuer) : Cluster :=
  let c := c.bump
  match c.issuer? key with
  | some i => c.storeIssuer { change i with resourceVersion := some c.version }
  | none => c

/-- Takes a version, and changes a request if it is there. -/
def changeRequest (c : Cluster) (ns name : String)
    (change : CertificateRequest → CertificateRequest) : Cluster :=
  let c := c.bump
  match c.request? ns name with
  | some r => c.storeRequest (withVersion (change r) c.version)
  | none => c

def deleteIssuer (c : Cluster) (key : IssuerKey) : Cluster :=
  if (c.issuer? key).isSome then
    { c with issuers := c.issuers.filter (·.key ≠ key) }.note (.issuer key)
  else c

def deleteRequest (c : Cluster) (ns name : String) : Cluster :=
  if (c.request? ns name).isSome then
    { c with requests := c.requests.filter (!isNamed ns name ·) }.note (.request ns name)
  else c

def removeSecret (c : Cluster) (key : Secret.Key) : Cluster :=
  if (c.secret? key).isSome then
    { c with secrets := c.secrets.filter (·.1 ≠ key) }.note (.secret key)
  else c

/-- The request after an approver has set a condition. -/
def decide (r : CertificateRequest) (type : String) (status : ConditionStatus)
    (reason message : String) (time : Timestamp) : CertificateRequest :=
  let s := r.currentStatus
  let conditions := (s.conditions.set type status reason message none time).2
  { r with status := some { s with conditions := conditions } }

def apply (c : Cluster) : Change → Cluster
  | .putIssuer i => c.storeIssuer i
  | .editIssuer key spec =>
    c.changeIssuer key fun i => { i with spec := spec, generation := some (i.generation.getD 0 + 1) }
  | .touchIssuer key => c.changeIssuer key id
  | .deleteIssuer key => c.deleteIssuer key
  | .putRequest r => c.storeRequest r
  | .touchRequest ns name => c.changeRequest ns name id
  | .deleteRequest ns name => c.deleteRequest ns name
  | .setCondition ns name type status reason message time =>
    c.changeRequest ns name (decide · type status reason message (time.getD c.now))
  | .putSecret key data =>
    { c with secrets := replace (·.1 = key) (key, data) c.secrets }.note (.secret key)
  | .removeSecret key => c.removeSecret key
  | .advance span => { c with now := c.now.plus span }
  | .setTime time => { c with now := time }
  | .failNextWrite => { c with failNextWrite := true }
  | .failNextRead => { c with failNextRead := true }
  | .failNextLookup => { c with failNextLookup := true }

/-- The cluster after several changes. -/
def applyAll (c : Cluster) (changes : List Change) : Cluster := changes.foldl apply c

/-! ### Reads and writes of a pass -/

/-- A read, unless the next one was told to fail. -/
def read {α : Type} (c : Cluster) (value : α) : Except ControllerError α × Cluster :=
  if c.failNextRead then
    (.error (.watch "store read failed"), { c with failNextRead := false })
  else (.ok value, c)

def lookUp (c : Cluster) (key : Secret.Key) :
    Except ControllerError (Option SecretData) × Cluster :=
  if c.failNextLookup then
    (.error (.watch "secret lookup failed"), { c with failNextLookup := false })
  else (.ok (c.secret? key), c)

/-- The name of a request in messages. -/
def requestTarget (r : CertificateRequest) : String :=
  "CertificateRequest " ++ r.namespace ++ "/" ++ r.name

/-- The failure to write what is not there. -/
def notFound (target : String) : ControllerError := .api 404 "NotFound" (target ++ " not found")

/-- Whether a pinned write is refused. -/
def isRefused (c : Cluster) (expected stored : Option String) : Bool :=
  c.failNextWrite || expected != stored

def writeIssuer (c : Cluster) (i : Issuer) (status : IssuerStatus) :
    Except ControllerError Unit × Cluster :=
  match c.issuer? i.key with
  | none => (.error (notFound i.displayName), c)
  | some stored =>
    if c.isRefused i.resourceVersion stored.resourceVersion then
      (.error (.conflict i.displayName), { c with failNextWrite := false })
    else
      let c := c.bump
      (.ok (), c.storeIssuer { stored with status := status, resourceVersion := some c.version })

def writeRequest (c : Cluster) (r : CertificateRequest) (status : RequestStatus)
    (precondition : Precondition) : Except ControllerError Unit × Cluster :=
  match c.request? r.namespace r.name with
  | none => (.error (notFound (requestTarget r)), c)
  | some stored =>
    let refused := match precondition with
      | .resourceVersion => c.isRefused r.metadata.resourceVersion stored.metadata.resourceVersion
      | .unconditional => false
    if refused then
      (.error (.conflict (requestTarget r)), { c with failNextWrite := false })
    else
      let c := c.bump
      (.ok (), c.storeRequest (withVersion { stored with status := some status } c.version))

end Cluster

end CertIssuer.World
