import CertIssuer.Reconcile.Secrets

/-!
# Passes over an issuer

A pass reads the issuer and its secrets, has a checker built and run, and publishes the outcome as
the condition `Ready`. Missing secrets and bad settings wait for a change, except that a secret
whose changes are not noticed is looked for again. An authority that fails is asked again after
the time that the issuer has been failing for.

The pass is `IssuerReconciler::reconcile`; `evaluate` and `checkFailed` are its `evaluate` and
`health_check_failed`.
-/

namespace CertIssuer.Reconcile

/-- What a pass concludes about an issuer. -/
structure Verdict where
  status : ConditionStatus
  reason : String
  message : String
  requeue : Requeue
  deriving DecidableEq, Repr

namespace Verdict

def verified (settings : Settings) : Verdict where
  status := .isTrue
  reason := Reason.verified
  message := "Issuer verified against the CA"
  requeue := .after settings.healthCheckInterval

/-- When to look again after a problem with the secrets. -/
def secretsRequeue (settings : Settings) : IssuerConfigError → Requeue
  | .secretNotFound ns _ =>
    if settings.watchesSecretsIn ns then .awaitChange else .after settings.retry.maxInterval
  | _ => .awaitChange

def badSecrets (settings : Settings) (e : IssuerConfigError) : Verdict where
  status := .isFalse
  reason := if e.isNotFound then Reason.secretNotFound else Reason.configError
  message := e.message
  requeue := secretsRequeue settings e

def badConfig (text : String) : Verdict where
  status := .isFalse
  reason := Reason.configError
  message := text
  requeue := .awaitChange

/-- Since when an issuer has not been ready. -/
def failingSince (issuer : Issuer) : Option Timestamp := do
  let ready ← issuer.status.readyCondition?
  if ready.status = .isFalse then ready.lastTransitionTime else none

def checkFailed (settings : Settings) (issuer : Issuer) (now : Timestamp) (text : String) :
    Verdict where
  status := .isFalse
  reason := Reason.healthCheckFailed
  message := text
  requeue := .after (settings.retry.requeueAfter (now.elapsedSince (failingSince issuer)))

end Verdict

/-- Has a checker built and run. -/
def checkIssuer (settings : Settings) (issuer : Issuer) (secrets : IssuerSecrets)
    (now : Timestamp) : Pass Verdict := do
  match ← Pass.ask (.buildChecker issuer.spec secrets) with
  | .error (.config text) => return .badConfig text
  | .error e => return .checkFailed settings issuer now e.message
  | .ok () =>
    match ← Pass.ask (.check issuer.spec secrets) with
    | some (.ok ()) => return .verified settings
    | some (.error e) =>
      return .checkFailed settings issuer now ("health check failed: " ++ e.message)
    | none =>
      return .checkFailed settings issuer now
        ("health check timed out after " ++ settings.authorityTimeout.text)

def evaluate (settings : Settings) (issuer : Issuer) (now : Timestamp) : Pass Verdict := do
  match ← loadSecrets settings issuer with
  | .error e => return .badSecrets settings e
  | .ok secrets => checkIssuer settings issuer secrets now

/-- The conditions with a verdict as `Ready`, and whether that changes them. -/
def Verdict.publish (v : Verdict) (issuer : Issuer) (now : Timestamp) : Bool × Conditions :=
  issuer.status.conditions.set Condition.ready v.status v.reason v.message issuer.generation now

theorem Verdict.publish_of_unchanged {v : Verdict} {issuer : Issuer} {now : Timestamp}
    (h : (v.publish issuer now).1 = false) :
    (v.publish issuer now).2 = issuer.status.conditions := by
  simp only [publish, Conditions.set] at h ⊢
  split at h
  · next hholds => rw [if_pos hholds]
  · cases h

/-- A pass over the issuer of a key. -/
def issuerPass (settings : Settings) (key : IssuerKey) : Pass Requeue := do
  match ← Pass.getIssuer key with
  | none => return .awaitChange
  | some issuer =>
    let now ← Pass.now
    let verdict ← evaluate settings issuer now
    let (changed, conditions) := verdict.publish issuer now
    if changed then Pass.writeIssuer issuer { issuer.status with conditions := conditions }
    return verdict.requeue

end CertIssuer.Reconcile
