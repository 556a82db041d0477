import CertIssuer.Json.Decode
import CertIssuer.Time.Rfc3339

/-!
# Object metadata

What every stored object carries beside its spec and status. All of it is optional. The creation
time is written to the whole second.
-/

namespace CertIssuer

structure OwnerReference where
  apiVersion : String
  blockOwnerDeletion : Option Bool
  controller : Option Bool
  kind : String
  name : String
  uid : String

/-- Which fields a manager of the object set last. -/
structure ManagedFields where
  apiVersion : Option String
  fieldsType : Option String
  fieldsV1 : Option Json
  manager : Option String
  operation : Option String
  subresource : Option String
  time : Option Timestamp

structure Metadata where
  annotations : Option (List (String × String)) := none
  creationTimestamp : Option Timestamp := none
  deletionGracePeriodSeconds : Option Int := none
  deletionTimestamp : Option Timestamp := none
  finalizers : Option (List String) := none
  generateName : Option String := none
  generation : Option Int := none
  labels : Option (List (String × String)) := none
  managedFields : Option (List ManagedFields) := none
  name : Option String := none
  «namespace» : Option String := none
  ownerReferences : Option (List OwnerReference) := none
  resourceVersion : Option String := none
  selfLink : Option String := none
  uid : Option String := none

/-! ### Reading -/

/-- A point in time from its text. -/
def Metadata.time? : Json → Option Timestamp
  | .string s => Timestamp.parse? s
  | _ => none

def OwnerReference.ofJson? (value : Json) : Option OwnerReference := do
  let ms ← value.members
  return {
    apiVersion := (← ms.optional "apiVersion" Json.text?).getD ""
    blockOwnerDeletion := ← ms.optional "blockOwnerDeletion" Json.bool?
    controller := ← ms.optional "controller" Json.bool?
    kind := (← ms.optional "kind" Json.text?).getD ""
    name := (← ms.optional "name" Json.text?).getD ""
    uid := (← ms.optional "uid" Json.text?).getD "" }

def ManagedFields.ofJson? (value : Json) : Option ManagedFields := do
  let ms ← value.members
  return {
    apiVersion := ← ms.optional "apiVersion" Json.text?
    fieldsType := ← ms.optional "fieldsType" Json.text?
    fieldsV1 := ← ms.optional "fieldsV1" some
    manager := ← ms.optional "manager" Json.text?
    operation := ← ms.optional "operation" Json.text?
    subresource := ← ms.optional "subresource" Json.text?
    time := ← ms.optional "time" Metadata.time? }

namespace Metadata

def ofJson? (value : Json) : Option Metadata := do
  let ms ← value.members
  return {
    annotations := ← ms.optional "annotations" (Json.mapOf? Json.text?)
    creationTimestamp := ← ms.optional "creationTimestamp" time?
    deletionGracePeriodSeconds := ← ms.optional "deletionGracePeriodSeconds" Json.int64?
    deletionTimestamp := ← ms.optional "deletionTimestamp" time?
    finalizers := ← ms.optional "finalizers" (Json.listOf? Json.text?)
    generateName := ← ms.optional "generateName" Json.text?
    generation := ← ms.optional "generation" Json.int64?
    labels := ← ms.optional "labels" (Json.mapOf? Json.text?)
    managedFields := ← ms.optional "managedFields" (Json.listOf? ManagedFields.ofJson?)
    name := ← ms.optional "name" Json.text?
    «namespace» := ← ms.optional "namespace" Json.text?
    ownerReferences := ← ms.optional "ownerReferences" (Json.listOf? OwnerReference.ofJson?)
    resourceVersion := ← ms.optional "resourceVersion" Json.text?
    selfLink := ← ms.optional "selfLink" Json.text?
    uid := ← ms.optional "uid" Json.text? }

/-! ### Writing -/

/-- A point in time, to the whole second. -/
def timeJson (t : Timestamp) : Json := .string t.textSeconds

def textMapJson (entries : List (String × String)) : Json :=
  .object (entries.map fun (name, value) => (name, .string value))

end Metadata

def OwnerReference.toJson (o : OwnerReference) : Json := .ofMembers [
  ("apiVersion", some (.string o.apiVersion)),
  ("blockOwnerDeletion", o.blockOwnerDeletion.map .bool),
  ("controller", o.controller.map .bool),
  ("kind", some (.string o.kind)),
  ("name", some (.string o.name)),
  ("uid", some (.string o.uid))]

def ManagedFields.toJson (m : ManagedFields) : Json := .ofMembers [
  ("apiVersion", m.apiVersion.map .string),
  ("fieldsType", m.fieldsType.map .string),
  ("fieldsV1", m.fieldsV1),
  ("manager", m.manager.map .string),
  ("operation", m.operation.map .string),
  ("subresource", m.subresource.map .string),
  ("time", m.time.map Metadata.timeJson)]

namespace Metadata

def toJson (m : Metadata) : Json := .ofMembers [
  ("annotations", m.annotations.map textMapJson),
  ("creationTimestamp", m.creationTimestamp.map timeJson),
  ("deletionGracePeriodSeconds", m.deletionGracePeriodSeconds.map .int),
  ("deletionTimestamp", m.deletionTimestamp.map timeJson),
  ("finalizers", m.finalizers.map fun fs => .array (fs.map .string)),
  ("generateName", m.generateName.map .string),
  ("generation", m.generation.map .int),
  ("labels", m.labels.map textMapJson),
  ("managedFields", m.managedFields.map fun fs => .array (fs.map ManagedFields.toJson)),
  ("name", m.name.map .string),
  ("namespace", m.namespace.map .string),
  ("ownerReferences", m.ownerReferences.map fun os => .array (os.map OwnerReference.toJson)),
  ("resourceVersion", m.resourceVersion.map .string),
  ("selfLink", m.selfLink.map .string),
  ("uid", m.uid.map .string)]

/-- The name, or the name to be completed, or the empty name. -/
def anyName (m : Metadata) : String := (m.name.orElse fun _ => m.generateName).getD ""

/-- The annotations, none when unset. -/
def allAnnotations (m : Metadata) : List (String × String) := m.annotations.getD []

end Metadata

end CertIssuer
