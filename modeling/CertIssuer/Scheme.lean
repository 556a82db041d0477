import CertIssuer.Resource.CertificateRequest
import CertIssuer.Resource.Issuer

/-!
# The scheme

Which kinds of resource the process knows, and which of them it owns. It tells whether the issuer
that a request names is one of ours. A kind is registered at most once.

The scheme is `Scheme` with `register`, `recognizes`, `issuer_kind` and `crds`.
-/

namespace CertIssuer

/-- A kind of resource. -/
inductive ResourceKind where
  | issuer (kind : IssuerKind)
  | certificateRequest
  deriving DecidableEq, Repr

namespace ResourceKind

def group : ResourceKind → String
  | issuer _ => IssuerKind.group
  | certificateRequest => CertificateRequest.group

def text : ResourceKind → String
  | issuer kind => kind.text
  | certificateRequest => CertificateRequest.kind

/-- The name of the kind in URLs. -/
def plural : ResourceKind → String
  | issuer kind => kind.plural
  | certificateRequest => "certificaterequests"

/-- The name under which the kind is defined in a cluster. -/
def definitionName (k : ResourceKind) : String := k.plural ++ "." ++ k.group

/-- The kind of a name. -/
def ofText? : String → Option ResourceKind
  | "Issuer" => some (issuer .namespaced)
  | "ClusterIssuer" => some (issuer .cluster)
  | "CertificateRequest" => some certificateRequest
  | _ => none

end ResourceKind

/-- A kind was registered a second time. -/
structure DuplicateKind where
  kind : ResourceKind
  deriving DecidableEq, Repr

def DuplicateKind.message (e : DuplicateKind) : String :=
  s!"kind {e.kind.group}/{e.kind.text} is already registered"

structure Scheme.Entry where
  kind : ResourceKind
  owned : Bool
  deriving DecidableEq, Repr

/-- The registered kinds, in the order of registration. -/
structure Scheme where
  entries : List Scheme.Entry := []
  deriving DecidableEq, Repr

namespace Scheme

/-- Whether a kind of that group and name is registered. -/
def recognizes (s : Scheme) (group kind : String) : Bool :=
  s.entries.any fun e => e.kind.group == group && e.kind.text == kind

def register (s : Scheme) (kind : ResourceKind) (owned : Bool) : Except DuplicateKind Scheme :=
  if s.recognizes kind.group kind.text then .error ⟨kind⟩
  else .ok ⟨s.entries ++ [⟨kind, owned⟩]⟩

/-- Both kinds of issuer, owned, and the requests, which belong to somebody else. -/
def standard : Scheme where
  entries := [⟨.issuer .namespaced, true⟩, ⟨.issuer .cluster, true⟩, ⟨.certificateRequest, false⟩]

/-- The kind of issuer that a reference means; none when another controller is responsible. -/
def issuerKind? (s : Scheme) (group kind : Option String) : Option IssuerKind := do
  if group.getD "" ≠ IssuerKind.group then none
  else
    let kind ← IssuerKind.parse? (kind.getD "")
    if s.recognizes IssuerKind.group kind.text then some kind else none

/-- The owned kinds, in the order of registration. -/
def owned (s : Scheme) : List ResourceKind := (s.entries.filter (·.owned)).map (·.kind)

end Scheme

end CertIssuer
