import CertIssuer.Json.Decode
import CertIssuer.Time.Rfc3339

/-!
# Conditions

The conditions in the status of a resource. The first entry of a type is the one that counts.
`Conditions.set` leaves exactly one entry of the type it sets, in the place of the first, and
keeps the transition time while the status stays the same.

`get?`, `isTrue` and `set` are `find_condition`, `is_condition_true` and `set_condition`.
-/

namespace CertIssuer

/-- The three answers a condition gives. -/
inductive ConditionStatus where
  | isTrue
  | isFalse
  | unknown
  deriving DecidableEq, Repr

structure Condition where
  type : String
  status : ConditionStatus
  reason : Option String := none
  message : Option String := none
  observedGeneration : Option Int := none
  lastTransitionTime : Option Timestamp := none
  deriving DecidableEq, Repr

abbrev Conditions := List Condition

/-! ### Types -/

namespace Condition

/-- The condition that this controller writes. -/
def ready : String := "Ready"

/-- The conditions that an approver writes. -/
def approved : String := "Approved"
def denied : String := "Denied"

end Condition

/-! ### Reasons of the condition `Ready` -/

namespace Reason

def verified : String := "Verified"
def secretNotFound : String := "SecretNotFound"
def configError : String := "ConfigError"
def healthCheckFailed : String := "HealthCheckFailed"
def pending : String := "Pending"
def issuerNotReady : String := "IssuerNotReady"
def issued : String := "Issued"
def denied : String := "Denied"
def failed : String := "Failed"

end Reason

/-! ### Looking up and setting -/

namespace Conditions

/-- The first entry of a type. -/
def get? (cs : Conditions) (type : String) : Option Condition := cs.find? (·.type = type)

/-- Whether the first entry of a type says `True`. -/
def isTrue (cs : Conditions) (type : String) : Bool :=
  match get? cs type with
  | some c => c.status = .isTrue
  | none => false

/-- How many entries of a type there are. -/
def count (cs : Conditions) (type : String) : Nat := cs.countP (·.type = type)

/-- Puts the entry in place of the first one of its type and drops the others of that type. -/
def replaceFirst (updated : Condition) : Conditions → Conditions
  | [] => []
  | c :: rest =>
    if c.type = updated.type then updated :: rest.filter (·.type ≠ updated.type)
    else c :: replaceFirst updated rest

/-- The list with the entry as the only one of its type. -/
def put (cs : Conditions) (updated : Condition) : Conditions :=
  if (get? cs updated.type).isSome then replaceFirst updated cs else cs ++ [updated]

/-- The transition time of a type after it is set to a status at `now`. -/
def transitionTime (cs : Conditions) (type : String) (status : ConditionStatus) (now : Timestamp) :
    Timestamp :=
  match get? cs type with
  | some previous =>
    if previous.status = status then previous.lastTransitionTime.getD now else now
  | none => now

/-- The entry that stands for a type after it is set. -/
def entry (cs : Conditions) (type : String) (status : ConditionStatus) (reason message : String)
    (generation : Option Int) (now : Timestamp) : Condition where
  type := type
  status := status
  reason := some reason
  message := some message
  observedGeneration := generation
  lastTransitionTime := some (transitionTime cs type status now)

/-- Whether the entry is already the only one of its type. -/
def holds (cs : Conditions) (c : Condition) : Bool :=
  count cs c.type = 1 && get? cs c.type = some c

/-- Sets a type: the new list, and whether it differs from the old one. -/
def set (cs : Conditions) (type : String) (status : ConditionStatus) (reason message : String)
    (generation : Option Int) (now : Timestamp) : Bool × Conditions :=
  let updated := entry cs type status reason message generation now
  if holds cs updated then (false, cs) else (true, put cs updated)

end Conditions

/-! ### JSON -/

namespace ConditionStatus

def text : ConditionStatus → String
  | isTrue => "True"
  | isFalse => "False"
  | unknown => "Unknown"

def parse? : String → Option ConditionStatus
  | "True" => some isTrue
  | "False" => some isFalse
  | "Unknown" => some unknown
  | _ => none

theorem parse?_text (s : ConditionStatus) : parse? s.text = some s := by cases s <;> rfl

/-- A status is its name, or an object with its name alone for null. -/
def ofJson? : Json → Option ConditionStatus
  | .string s => parse? s
  | .object [(s, .null)] => parse? s
  | _ => none

end ConditionStatus

/-- A point in time from its text. -/
def Timestamp.ofJson? : Json → Option Timestamp
  | .string s => Timestamp.parse? s
  | _ => none

def Timestamp.toJson (t : Timestamp) : Json := .string t.text

namespace Condition

/-- The names of the parts, in order. -/
def parts : List String :=
  ["type", "status", "reason", "message", "observedGeneration", "lastTransitionTime"]

def ofJson? (value : Json) : Option Condition := do
  let ms ← value.record? parts
  return {
    type := ← ms.required "type" Json.text?
    status := ← ms.required "status" ConditionStatus.ofJson?
    reason := ← ms.optional "reason" Json.text?
    message := ← ms.optional "message" Json.text?
    observedGeneration := ← ms.optional "observedGeneration" Json.int64?
    lastTransitionTime := ← ms.optional "lastTransitionTime" Timestamp.ofJson? }

def toJson (c : Condition) : Json := .ofMembers [
  ("type", some (.string c.type)),
  ("status", some (.string c.status.text)),
  ("reason", c.reason.map .string),
  ("message", c.message.map .string),
  ("observedGeneration", c.observedGeneration.map .int),
  ("lastTransitionTime", c.lastTransitionTime.map Timestamp.toJson)]

end Condition

/-- A list as JSON, left out when empty. -/
def Json.ofList? {α : Type} (toJson : α → Json) (items : List α) : Option Json :=
  if items.isEmpty then none else some (.array (items.map toJson))

end CertIssuer
