import CertIssuer.Json.MergePatch
import CertIssuer.Resource.CertificateRequest
import CertIssuer.Resource.Issuer

/-!
# Status patches

A status is written as a merge patch that carries the status and, where a version is pinned, the
version that the stored object must still have.

The patch is made by `status_patch`, under a `Precondition`.
-/

namespace CertIssuer

/-- Whether a write of a request's status insists on the version that was read. -/
inductive Precondition where
  | resourceVersion
  | unconditional
  deriving DecidableEq, Repr

def Precondition.text : Precondition → String
  | resourceVersion => "ResourceVersion"
  | unconditional => "Unconditional"

/-- The patch that writes a status. -/
def statusPatch (status : Json) (version : Option String) : Json := .ofMembers [
  ("status", some status),
  ("metadata", version.map fun v => .object [("resourceVersion", .string v)])]

/-- The version that a write of a request's status is pinned to. -/
def Precondition.pinned (p : Precondition) (request : CertificateRequest) : Option String :=
  match p with
  | resourceVersion => request.metadata.resourceVersion
  | unconditional => none

end CertIssuer
