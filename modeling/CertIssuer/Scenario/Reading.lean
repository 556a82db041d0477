import CertIssuer.Json.Decode
import CertIssuer.Json.MergePatch
import CertIssuer.Resource.Issuer
import CertIssuer.Resource.Secret
import CertIssuer.Settings

/-!
# Reading scenarios

A scenario tells in JSON what happens to a practised world. Unlike a resource it is read leniently:
an absent member, null and a member of another type mean the same, and most members have a default.
-/

namespace CertIssuer.Scenario

/-! ### Members -/

/-- The member of an object; null counts as absent. -/
def field (v : Json) (name : String) : Option Json :=
  match v with
  | .object ms =>
    match Json.memberValue? name ms with
    | some .null => none
    | found => found
  | _ => none

/-- The member of an object, null when absent. -/
def whole (v : Json) (name : String) : Json := (field v name).getD .null

def text (v : Json) (name : String) : Option String := (field v name).bind Json.text?

def textOr (v : Json) (name absent : String) : String := (text v name).getD absent

def flag (v : Json) (name : String) : Bool := ((field v name).bind Json.bool?).getD false

def items (v : Json) (name : String) : List Json :=
  match field v name with
  | some (.array vs) => vs
  | _ => []

def texts (v : Json) (name : String) : List String := (items v name).filterMap Json.text?

def textMap (v : Json) (name : String) : List (String × String) :=
  match field v name with
  | some (.object ms) => ms.filterMap fun (key, value) => (Json.text? value).map (key, ·)
  | _ => []

def number (v : Json) (name : String) : Option Int :=
  match field v name with
  | some (.int n) => some n
  | _ => none

def naturalOr (v : Json) (name : String) (absent : Nat) : Nat :=
  match number v name with
  | some n => n.toNat
  | none => absent

/-! ### Values -/

/-- A span: whole seconds, or an object of seconds and nanoseconds. -/
def span? (v : Json) : Option Span :=
  match v with
  | .int n => if 0 ≤ n then some (.ofSeconds n.toNat) else none
  | .object _ => some ⟨naturalOr v "secs" 0 * Span.perSecond + naturalOr v "nanos" 0⟩
  | _ => none

def spanOr (v : Json) (name : String) (absent : Span) : Span :=
  ((field v name).bind span?).getD absent

def time (v : Json) (name : String) : Option Timestamp := (text v name).bind Timestamp.parse?

/-- Bytes: the text that they spell, or an object with their base64. -/
def bytes? : Json → Option Text.Bytes
  | .string s => some (Text.toBytes s)
  | v => (text v "b64").bind fun s => (Text.Base64.decode s).toOption

def secretData? : Json → Option SecretData
  | .object ms => ms.foldlM (fun d (key, value) => do return d.insert key (← bytes? value)) []
  | _ => none

/-- The contents of a secret, which may be absent. -/
def optionalSecret (v : Json) (name : String) : Option (Option SecretData) :=
  match field v name with
  | some data => (secretData? data).map some
  | none => some none

/-- The contents of a secret, empty when absent. -/
def secretOf (v : Json) (name : String) : Option SecretData :=
  (optionalSecret v name).map (·.getD [])

/-! ### Issuers -/

def kindOf (v : Json) : Option IssuerKind :=
  match text v "kind" with
  | some "Issuer" => some .namespaced
  | some "ClusterIssuer" => some .cluster
  | _ => none

def issuerKeyOf (v : Json) : Option IssuerKey := do
  return ⟨← kindOf v, text v "namespace", ← text v "name"⟩

/-- The spec that others are laid over. -/
def usualSpec : List (String × Json) := [
  ("hostname", .string "ca.example.com"),
  ("commandSecretName", .string "command-credentials"),
  ("certificateTemplate", .string "WebServer"),
  ("certificateAuthorityLogicalName", .string "Issuing-CA")]

/-- A spec: the usual one with some members replaced. -/
def specOf (v : Json) : Option IssuerSpec :=
  match whole v "spec" with
  | .null => IssuerSpec.ofJson? (.object usualSpec)
  | .object changes =>
    IssuerSpec.ofJson? (.object
      (changes.foldl (fun ms (name, value) => Json.setMember name value ms) usualSpec))
  | other => IssuerSpec.ofJson? other

def issuerOf (v : Json) : Option Issuer := do
  let status ← match field v "status" with
    | some s => IssuerStatus.ofJson? s
    | none => some {}
  return {
    kind := ← kindOf v
    name := ← text v "name"
    «namespace» := text v "namespace"
    generation := number v "generation"
    resourceVersion := text v "resourceVersion"
    spec := ← specOf v
    status := status }

/-! ### Settings -/

def retryPolicyOf (v : Json) : RetryPolicy :=
  let usual : RetryPolicy := {}
  { base := spanOr v "base" usual.base
    maxInterval := spanOr v "maxInterval" usual.maxInterval
    maxDuration := spanOr v "maxDuration" usual.maxDuration }

def settingsOf (v : Json) : Settings :=
  let usual : Settings := {}
  { clusterResourceNamespace := textOr v "clusterResourceNamespace" usual.clusterResourceNamespace
    secretAccessAtClusterLevel := flag v "clusterAccess"
    checkApproved := ((field v "checkApproved").bind Json.bool?).getD usual.checkApproved
    authorityTimeout := spanOr v "caTimeout" usual.authorityTimeout
    healthCheckInterval := spanOr v "healthCheckInterval" usual.healthCheckInterval
    retry := retryPolicyOf (whole v "retry") }

end CertIssuer.Scenario
