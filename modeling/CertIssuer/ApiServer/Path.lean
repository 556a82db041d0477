import CertIssuer.Resource.CertificateRequest
import CertIssuer.Resource.Issuer
import CertIssuer.Resource.Lease
import CertIssuer.Settings

/-!
# Paths of the API server

Every kind of object has a collection, and an object is reached through the collection of its
namespace, or through that of the whole cluster.

The paths that are watched are those of `Watcher::secrets_api`, `watch_issuers`,
`watch_cluster_issuers` and `watch_certificate_requests`.
-/

namespace CertIssuer.ApiServer

/-- The collections of a kind of object. -/
structure Collection where
  /-- The path of the group and version. -/
  root : String
  /-- The name of the kind in paths. -/
  plural : String
  deriving DecidableEq, Repr

namespace Collection

def issuers (kind : IssuerKind) : Collection := ⟨"/apis/" ++ IssuerKind.apiVersion, kind.plural⟩

def requests : Collection := ⟨"/apis/" ++ CertificateRequest.apiVersion, "certificaterequests"⟩

def secrets : Collection := ⟨"/api/v1", "secrets"⟩

def leases : Collection := ⟨"/apis/" ++ Lease.apiVersion, "leases"⟩

/-- The collection of the whole cluster. -/
def everywhere (c : Collection) : String := c.root ++ "/" ++ c.plural

/-- The collection of a namespace. -/
def within (c : Collection) (ns : String) : String :=
  c.root ++ "/namespaces/" ++ ns ++ "/" ++ c.plural

end Collection

/-- The collections that are watched, in the order of their paths. -/
def watchedPaths (settings : Settings) : List String :=
  let secrets :=
    if settings.secretAccessAtClusterLevel then Collection.secrets.everywhere
    else Collection.secrets.within settings.clusterResourceNamespace
  [secrets, Collection.requests.everywhere, (Collection.issuers .cluster).everywhere,
    (Collection.issuers .namespaced).everywhere]

end CertIssuer.ApiServer
