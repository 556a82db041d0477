import CertIssuer.Report
import CertIssuer.World.Controllers

/-!
# Traces

What has happened in a practised world, written as JSON.
-/

namespace CertIssuer.Scenario

/-! ### Values -/

/-- Bytes: the text that they spell, or else their base64. -/
def bytesJson (bytes : Text.Bytes) : Json :=
  match Text.toText? bytes with
  | some s => .string s
  | none => .object [("b64", .string (Text.Base64.encode bytes))]

def secretJson (d : SecretData) : Json := .object (d.map fun (key, value) => (key, bytesJson value))

def orNull {α : Type} (write : α → Json) : Option α → Json
  | some a => write a
  | none => .null

def textsJson (l : List String) : Json := .array (l.map .string)

def mapJson (entries : List (String × String)) : Json :=
  .object (entries.map fun (name, value) => (name, .string value))

def enrollmentJson (e : Authority.Enrollment) : Json := .object [
  ("csr", .string e.csr), ("template", .string e.template),
  ("certificateAuthority", .string e.certificateAuthority), ("metadata", mapJson e.metadata)]

def orderJson (o : SignOrder) : Json := .object [
  ("csr", bytesJson o.csr), ("duration", orNull Span.toJson o.duration),
  ("usages", textsJson o.usages), ("isCA", .bool o.isCA), ("metadata", mapJson o.metadata)]

/-! ### Events -/

def eventJson : World.Event → Json
  | .lookUp key => .object [("lookup", .string key.text)]
  | .build forSigning hostname secrets => .object [
      ("build", .string (if forSigning then "signer" else "health")),
      ("hostname", .string hostname), ("credentials", secretJson secrets.credentials),
      ("caSecret", orNull secretJson secrets.ca)]
  | .check => .object [("check", .bool true)]
  | .sign order => .object [("sign", orderJson order)]
  | .enroll e => .object [("enroll", enrollmentJson e)]
  | .write target precondition =>
    .object [("write", .string target), ("precondition", .string precondition.text)]
  | .conflict target => .object [("conflict", .string target)]
  | .reconcile request => .object [("reconcile", .string request)]

def requeueJson : Requeue → Json
  | .awaitChange => .string "await"
  | .after d => .object [("after", d.toJson)]

/-! ### Records of controllers -/

/-- An ordered list without repetitions. -/
def distinct : List String → List String
  | [] => []
  | [a] => [a]
  | a :: b :: rest => if a = b then distinct (b :: rest) else a :: distinct (b :: rest)

/-- The texts of a list, ordered, each of them once. -/
def orderedSet (l : List String) : List String := distinct (l.mergeSort fun a b => a ≤ b)

/-- The events that occurred, each of them once, in the order of their texts. -/
def eventSetJson (events : List World.Event) : Json :=
  let values := events.map fun e => (eventJson e).sorted
  let shown := values.map fun v => (v.print, v)
  .array ((orderedSet (shown.map (·.1))).filterMap fun t => (shown.find? (·.1 = t)).map (·.2))

/-- The status of every object by its name. -/
def statusesJson (c : World.Cluster) : Json :=
  .object (c.issuers.map (fun i => (i.displayName, i.status.toJson)) ++
    c.requests.map fun r => (World.Cluster.requestTarget r, orNull RequestStatus.toJson r.status))

/-- What the controllers have done since the last time. -/
def recordJson (c : World.Controllers) : Json × World.Controllers :=
  let (events, ended, c) := c.takeRecord
  let results := ended.map fun (controller, outcome) => controller ++ "/" ++ outcome.text
  (.object [
    ("events", eventSetJson events), ("results", textsJson (orderedSet results)),
    ("statuses", statusesJson c.practice.cluster)], c)

end CertIssuer.Scenario
