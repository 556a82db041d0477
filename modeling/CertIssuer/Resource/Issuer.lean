import CertIssuer.Resource.Condition
import CertIssuer.Resource.Metadata

/-!
# Issuers

The two kinds of issuer, what an issuer's spec says about the certificate authority behind it, and
the form in which the controllers see an issuer of either kind.

They are `IssuerKind`, `IssuerSpec`, `ClusterIssuerSpec` and `IssuerStatus`; the form that the
controllers see is `IssuerResource`.
-/

namespace CertIssuer

/-- An issuer belongs to a namespace or to the whole cluster. -/
inductive IssuerKind where
  | namespaced
  | cluster
  deriving DecidableEq, Repr

namespace IssuerKind

/-- The API group of both kinds. -/
def group : String := "command-issuer.keyfactor.com"

def version : String := "v1alpha1"

def apiVersion : String := group ++ "/" ++ version

def text : IssuerKind → String
  | namespaced => "Issuer"
  | cluster => "ClusterIssuer"

/-- The name of the kind in URLs. -/
def plural : IssuerKind → String
  | namespaced => "issuers"
  | cluster => "clusterissuers"

/-- The kind of a name; the empty name means the namespaced one. -/
def parse? : String → Option IssuerKind
  | "" => some namespaced
  | "Issuer" => some namespaced
  | "ClusterIssuer" => some cluster
  | _ => none

theorem parse?_text (k : IssuerKind) : parse? k.text = some k := by cases k <;> rfl

end IssuerKind

/-! ### Spec and status -/

/-- How to reach the certificate authority and what to ask of it. -/
structure IssuerSpec where
  hostname : String
  apiPath : String
  commandSecretName : String
  caSecretName : Option String
  secretNamespace : Option String
  certificateTemplate : String
  certificateAuthorityLogicalName : String
  certificateAuthorityHostname : Option String
  scopes : Option String
  audience : Option String
  deriving DecidableEq, Repr

namespace IssuerSpec

/-- The path of the API when the spec names none. -/
def defaultApiPath : String := "KeyfactorAPI"

def parts : List String :=
  ["hostname", "apiPath", "commandSecretName", "caSecretName", "secretNamespace",
    "certificateTemplate", "certificateAuthorityLogicalName", "certificateAuthorityHostname",
    "scopes", "audience"]

def ofMembers? (ms : Json.Members) : Option IssuerSpec := do
  return {
    hostname := ← ms.required "hostname" Json.text?
    apiPath := ← ms.withDefault "apiPath" defaultApiPath Json.text?
    commandSecretName := ← ms.required "commandSecretName" Json.text?
    caSecretName := ← ms.optional "caSecretName" Json.text?
    secretNamespace := ← ms.optional "secretNamespace" Json.text?
    certificateTemplate := ← ms.required "certificateTemplate" Json.text?
    certificateAuthorityLogicalName := ← ms.required "certificateAuthorityLogicalName" Json.text?
    certificateAuthorityHostname := ← ms.optional "certificateAuthorityHostname" Json.text?
    scopes := ← ms.optional "scopes" Json.text?
    audience := ← ms.optional "audience" Json.text? }

def ofJson? (value : Json) : Option IssuerSpec := do ofMembers? (← value.record? parts)

/-- The spec of a cluster issuer has the same parts, but no array form. -/
def ofClusterJson? (value : Json) : Option IssuerSpec := do ofMembers? (← value.members)

def ofKindJson? : IssuerKind → Json → Option IssuerSpec
  | .namespaced => ofJson?
  | .cluster => ofClusterJson?

def toJson (s : IssuerSpec) : Json := .ofMembers [
  ("hostname", some (.string s.hostname)),
  ("apiPath", some (.string s.apiPath)),
  ("commandSecretName", some (.string s.commandSecretName)),
  ("caSecretName", s.caSecretName.map .string),
  ("secretNamespace", s.secretNamespace.map .string),
  ("certificateTemplate", some (.string s.certificateTemplate)),
  ("certificateAuthorityLogicalName", some (.string s.certificateAuthorityLogicalName)),
  ("certificateAuthorityHostname", s.certificateAuthorityHostname.map .string),
  ("scopes", s.scopes.map .string),
  ("audience", s.audience.map .string)]

end IssuerSpec

structure IssuerStatus where
  conditions : Conditions := []
  deriving DecidableEq, Repr

namespace IssuerStatus

def readyCondition? (s : IssuerStatus) : Option Condition := s.conditions.get? Condition.ready

def isReady (s : IssuerStatus) : Bool := s.conditions.isTrue Condition.ready

def ofJson? (value : Json) : Option IssuerStatus := do
  let ms ← value.record? ["conditions"]
  return { conditions := ← ms.withDefault "conditions" [] (Json.listOf? Condition.ofJson?) }

def toJson (s : IssuerStatus) : Json :=
  .ofMembers [("conditions", Json.ofList? Condition.toJson s.conditions)]

end IssuerStatus

/-! ### Stored objects -/

/-- An issuer as the API server stores it. -/
structure IssuerObject where
  kind : IssuerKind
  metadata : Metadata
  spec : IssuerSpec
  status : Option IssuerStatus

namespace IssuerObject

/-- The object of a kind; what the text itself says about its kind is ignored. -/
def ofJson? (kind : IssuerKind) (value : Json) : Option IssuerObject := do
  let ms ← value.members
  return {
    kind := kind
    metadata := ← ms.required "metadata" Metadata.ofJson?
    spec := ← ms.required "spec" (IssuerSpec.ofKindJson? kind)
    status := ← ms.optional "status" IssuerStatus.ofJson? }

def toJson (o : IssuerObject) : Json := .ofMembers [
  ("apiVersion", some (.string IssuerKind.apiVersion)),
  ("kind", some (.string o.kind.text)),
  ("metadata", some o.metadata.toJson),
  ("spec", some o.spec.toJson),
  ("status", o.status.map IssuerStatus.toJson)]

end IssuerObject

/-! ### The view of the controllers -/

/-- Which issuer is meant; a cluster issuer has no namespace. -/
structure IssuerKey where
  kind : IssuerKind
  «namespace» : Option String
  name : String
  deriving DecidableEq, Repr

/-- The kind and the name, with the namespace if there is one. -/
def IssuerKey.displayName (k : IssuerKey) : String :=
  match k.namespace with
  | some ns => k.kind.text ++ " " ++ ns ++ "/" ++ k.name
  | none => k.kind.text ++ " " ++ k.name

/-- An issuer of either kind; an unset status is an empty one. -/
structure Issuer where
  kind : IssuerKind
  name : String
  «namespace» : Option String
  generation : Option Int
  resourceVersion : Option String
  spec : IssuerSpec
  status : IssuerStatus
  deriving DecidableEq, Repr

namespace Issuer

def ofObject (o : IssuerObject) : Issuer where
  kind := o.kind
  name := o.metadata.anyName
  «namespace» := match o.kind with
    | .namespaced => o.metadata.namespace
    | .cluster => none
  generation := o.metadata.generation
  resourceVersion := o.metadata.resourceVersion
  spec := o.spec
  status := o.status.getD {}

def key (i : Issuer) : IssuerKey := ⟨i.kind, i.namespace, i.name⟩

def displayName (i : Issuer) : String := i.key.displayName

end Issuer

end CertIssuer
