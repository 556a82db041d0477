import CertIssuer.Resource.Metadata

/-!
# Leases

The object on which replicas agree who leads. Its numbers have 32 bits and its times are written
to the microsecond.
-/

namespace CertIssuer

structure LeaseSpec where
  acquireTime : Option Timestamp := none
  holderIdentity : Option String := none
  leaseDurationSeconds : Option Int := none
  leaseTransitions : Option Int := none
  renewTime : Option Timestamp := none

structure Lease where
  metadata : Metadata
  spec : Option LeaseSpec

def LeaseSpec.ofJson? (value : Json) : Option LeaseSpec := do
  let ms ← value.members
  return {
    acquireTime := ← ms.optional "acquireTime" Metadata.time?
    holderIdentity := ← ms.optional "holderIdentity" Json.text?
    leaseDurationSeconds := ← ms.optional "leaseDurationSeconds" Json.int32?
    leaseTransitions := ← ms.optional "leaseTransitions" Json.int32?
    renewTime := ← ms.optional "renewTime" Metadata.time? }

def LeaseSpec.toJson (s : LeaseSpec) : Json := .ofMembers [
  ("acquireTime", s.acquireTime.map fun t => .string t.textMicros),
  ("holderIdentity", s.holderIdentity.map .string),
  ("leaseDurationSeconds", s.leaseDurationSeconds.map .int),
  ("leaseTransitions", s.leaseTransitions.map .int),
  ("renewTime", s.renewTime.map fun t => .string t.textMicros)]

namespace Lease

def apiVersion : String := "coordination.k8s.io/v1"

def ofJson? (value : Json) : Option Lease := do
  let ms ← value.members
  ms.agrees "apiVersion" apiVersion
  ms.agrees "kind" "Lease"
  return {
    metadata := (← ms.optional "metadata" Metadata.ofJson?).getD {}
    spec := ← ms.optional "spec" LeaseSpec.ofJson? }

def toJson (l : Lease) : Json := .ofMembers [
  ("apiVersion", some (.string apiVersion)),
  ("kind", some (.string "Lease")),
  ("metadata", some l.metadata.toJson),
  ("spec", l.spec.map LeaseSpec.toJson)]

end Lease

end CertIssuer
