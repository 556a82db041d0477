import CertIssuer.Definition.Schema
import CertIssuer.Scheme

/-!
# Manifests

The definitions by which a cluster learns the kinds that this controller owns: the names of a kind,
whether it belongs to namespaces, what its table shows, and the schema of its spec and status.

They are what `crdgen` prints for the kinds of `Scheme::crds`.
-/

namespace CertIssuer

/-! ### Schemas of the resources -/

/-- A text between the marks that set off names in a sentence. -/
def codeMarked (s : String) : String := "\x60" ++ s ++ "\x60"

def ConditionStatus.schema : Schema :=
  .choice ([isTrue, isFalse, unknown].map ConditionStatus.text)

def Condition.schema : Schema := .record [
  ⟨"lastTransitionTime", "Last time " ++ codeMarked "status" ++ " changed", .nullable, .moment⟩,
  ⟨"message", "Human-readable details", .nullable, .text⟩,
  ⟨"observedGeneration", "Resource generation this condition was computed from", .nullable,
    .integer⟩,
  ⟨"reason", "Machine-readable reason for the last transition", .nullable, .text⟩,
  ⟨"status", "True, False or Unknown", .required, ConditionStatus.schema⟩,
  ⟨"type", "Condition type, e.g. " ++ codeMarked Condition.ready, .required, .text⟩]

def IssuerStatus.schema : Schema := .record [
  ⟨"conditions",
    "Conditions, at most one per type. Only " ++ codeMarked Condition.ready ++ " is written.",
    .optional, .list "A single status condition." Condition.schema⟩]

def IssuerSpec.schema : Schema := .record [
  ⟨"apiPath", "Path prefix of the CA REST API", .defaulted (.string IssuerSpec.defaultApiPath),
    .text⟩,
  ⟨"audience", "OAuth audience", .nullable, .text⟩,
  ⟨"caSecretName",
    "Optional secret holding " ++ codeMarked "ca.crt" ++ ", trusted when connecting to the CA",
    .nullable, .text⟩,
  ⟨"certificateAuthorityHostname", "Hostname of the issuing CA, if it differs from the API host",
    .nullable, .text⟩,
  ⟨"certificateAuthorityLogicalName", "Logical name of the issuing CA", .required, .text⟩,
  ⟨"certificateTemplate", "Certificate template used for enrollment", .required, .text⟩,
  ⟨"commandSecretName",
    "Secret holding the API credentials (basic-auth or OAuth client credentials)", .required,
    .text⟩,
  ⟨"hostname", "Hostname of the CA API, with or without scheme", .required, .text⟩,
  ⟨"scopes", "Space separated OAuth scopes", .nullable, .text⟩,
  ⟨"secretNamespace",
    "Namespace of the referenced secrets. Only honored when the controller\nhas cluster-wide secret access.",
    .nullable, .text⟩]

namespace IssuerKind

/-- The name of what describes an issuer of the kind. -/
def specName : IssuerKind → String
  | namespaced => "IssuerSpec"
  | cluster => "ClusterIssuerSpec"

def specAbout : IssuerKind → String
  | namespaced => "CA connection parameters shared by Issuer and ClusterIssuer."
  | cluster => "Cluster-scoped issuer; same schema as [" ++ codeMarked namespaced.specName ++ "]."

def schema (k : IssuerKind) : Schema := .record [
  ⟨"spec", k.specAbout, .required, IssuerSpec.schema⟩,
  ⟨"status", "Observed state of an Issuer or ClusterIssuer.", .nullable, IssuerStatus.schema⟩]

/-! ### Definitions -/

/-- The name of the kind for one resource. -/
def singular : IssuerKind → String
  | namespaced => "issuer"
  | cluster => "clusterissuer"

/-- What the kind belongs to. -/
def scope : IssuerKind → String
  | namespaced => "Namespaced"
  | cluster => "Cluster"

/-- A column of the kind's table, which shows a member of the condition `Ready`. -/
def column (title member : String) : Json := .object [
  ("name", .string title), ("type", .string "string"),
  ("jsonPath",
    .string (".status.conditions[?(@.type==\"" ++ Condition.ready ++ "\")]." ++ member))]

def names (k : IssuerKind) : Json := .object [
  ("kind", .string k.text), ("plural", .string k.plural), ("singular", .string k.singular),
  ("shortNames", .array []), ("categories", .array [])]

/-- The only version, which is both served and stored. -/
def versionJson (k : IssuerKind) : Json :=
  let about := "Auto-generated derived type for " ++ k.specName ++ " via "
    ++ codeMarked "CustomResource"
  .object [
    ("name", .string version), ("served", .bool true), ("storage", .bool true),
    ("additionalPrinterColumns", .array [column "Ready" "status", column "Reason" "reason"]),
    ("schema", .object [("openAPIV3Schema", k.schema.toJson k.text about)]),
    ("subresources", .object [("status", .object [])])]

/-- The definition of the kind. -/
def manifest (k : IssuerKind) : Json := .object [
  ("apiVersion", .string "apiextensions.k8s.io/v1"),
  ("kind", .string "CustomResourceDefinition"),
  ("metadata", .object [("name", .string (ResourceKind.issuer k).definitionName)]),
  ("spec", .object [
    ("group", .string group), ("names", k.names), ("scope", .string k.scope),
    ("versions", .array [k.versionJson])])]

end IssuerKind

/-- The definition of a kind; requests are defined by those whose kind they are. -/
def ResourceKind.manifest? : ResourceKind → Option Json
  | issuer kind => some kind.manifest
  | certificateRequest => none

/-- The definitions of the owned kinds, in the order of registration. -/
def Scheme.manifests (s : Scheme) : List Json := s.owned.filterMap ResourceKind.manifest?

end CertIssuer
