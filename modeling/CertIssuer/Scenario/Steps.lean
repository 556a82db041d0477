import CertIssuer.Scenario.Reading
import CertIssuer.World.Authority

/-!
# Steps of a scenario

What a step of a scenario does: it changes the cluster, or prepares what the authority will answer.
-/

namespace CertIssuer.Scenario

/-! ### Changes of the cluster -/

/-- The namespace of a request or a secret, empty when absent. -/
def namespaceOf (v : Json) : String := textOr v "namespace" ""

/-- The change of the cluster that a step makes, if it makes one. -/
def changeOf (v : Json) : Option World.Change := do
  match ← text v "do" with
  | "put_issuer" => return .putIssuer (← issuerOf v)
  | "edit_issuer" => return .editIssuer (← issuerKeyOf v) (← specOf v)
  | "touch_issuer" => return .touchIssuer (← issuerKeyOf v)
  | "delete_issuer" => return .deleteIssuer (← issuerKeyOf v)
  | "put_request" => return .putRequest (← CertificateRequest.ofJson? (whole v "request"))
  | "touch_request" => return .touchRequest (namespaceOf v) (← text v "name")
  | "delete_request" => return .deleteRequest (namespaceOf v) (← text v "name")
  | "set_condition" =>
    let status ← ConditionStatus.parse? (← text v "status")
    return .setCondition (namespaceOf v) (← text v "name") (← text v "type") status
      (textOr v "reason" "approver") (textOr v "message" "") (time v "at")
  | "put_secret" => return .putSecret ⟨namespaceOf v, ← text v "name"⟩ (← secretOf v "data")
  | "remove_secret" => return .removeSecret ⟨namespaceOf v, ← text v "name"⟩
  | "advance" => return .advance (← span? (whole v "by"))
  | "set_time" => return .setTime (← time v "now")
  | "fail_next_write" => return .failNextWrite
  | "fail_next_read" => return .failNextRead
  | "fail_next_lookup" => return .failNextLookup
  | _ => none

/-! ### Preparing the authority -/

/-- What may be absent, or has to be read. -/
def ifPresent {α : Type} (v : Json) (name : String) (read : Json → Option α) : Option (Option α) :=
  match field v name with
  | some value => (read value).map some
  | none => some none

def signerErrorOf (v : Json) : Option SignerError := do
  let message := textOr v "message" ""
  match ← text v "error" with
  | "Transient" => some (.transient message)
  | "Permanent" => some (.permanent message)
  | "Config" => some (.config message)
  | _ => none

def preparedOf {α : Type} (v : Json) (outcome : α) : Option (World.Prepared α) := do
  return ⟨outcome, spanOr v "delay" .zero, ← (items v "during").mapM changeOf⟩

def signOutcomeOf (v : Json) : Option (Except SignerError SignedCertificate) :=
  match field v "ok" with
  | some s => do return .ok ⟨← text s "chain", ← text s "ca"⟩
  | none => (signerErrorOf v).map .error

/-- A script after a step that prepares an outcome. -/
def prepareScript (s : World.Script) (v : Json) : Option World.Script := do
  match ← text v "do" with
  | "push_sign" =>
    let plan ← preparedOf v (← signOutcomeOf (whole v "result"))
    return { s with signing := s.signing ++ [plan] }
  | "set_health" =>
    let outcome := match ← ifPresent v "failure" signerErrorOf with
      | some e => .error e
      | none => .ok ()
    return { s with health := ← preparedOf v outcome }
  | "set_build_error" => return { s with buildFailure := ← ifPresent v "failure" signerErrorOf }
  | _ => none

def rehearsedFailureOf : Json → Option Authority.RehearsedFailure
  | .string "unauthorized" => some .unauthorized
  | .string "unreadable" => some .unreadable
  | v =>
    match text v "disposition" with
    | some d => some (.disposition d)
    | none => (number v "status").map fun n => .status n.toNat

/-- A rehearsal after a step that prepares an outcome. -/
def prepareRehearsal (r : Authority.Rehearsal) (v : Json) : Option Authority.Rehearsal := do
  match ← text v "do" with
  | "push_enroll_failure" | "mock_enroll_failure" =>
    let failure ← rehearsedFailureOf (whole v "failure")
    return { r with enrollFailures := r.enrollFailures ++ [failure] }
  | "set_health_failure" | "mock_health_failure" =>
    return { r with healthFailure := ← ifPresent v "failure" rehearsedFailureOf }
  | "set_chain" | "mock_chain" => return { r with chain := texts v "certificates" }
  | _ => none

/-- An authority after a step that prepares it. Nothing can be prepared for one that is out of
reach. -/
def prepareAuthority (a : World.Authority) (v : Json) : Option World.Authority :=
  match a with
  | .scripted s => (prepareScript s v).map .scripted
  | .rehearsed r => (prepareRehearsal r v).map .rehearsed
  | .unreachable => if text v "do" = some "respond" then some .unreachable else none

end CertIssuer.Scenario
