import CertIssuer.Reconcile.Pass
import CertIssuer.SecretScope

/-!
# Reading an issuer's secrets

The secret with the credentials is required; the one with the trusted certificates is read when
the spec names it. Both lie in the namespace that the issuer's secrets are confined to.

The reader is `load_issuer_secrets`.
-/

namespace CertIssuer.Reconcile

/-- A secret that must exist. -/
def requiredSecret (ns name : String) : Pass (Except IssuerConfigError SecretData) := do
  match ← Pass.getSecret ⟨ns, name⟩ with
  | some data => return .ok data
  | none => return .error (.secretNotFound ns name)

/-- The secrets that a spec names, in a namespace. -/
def secretsIn (ns : String) (spec : IssuerSpec) : Pass (Except IssuerConfigError IssuerSecrets) := do
  match Text.trimmed? spec.commandSecretName with
  | none => return .error (.invalidSpec "spec.commandSecretName is required")
  | some name =>
    match ← requiredSecret ns name with
    | .error e => return .error e
    | .ok credentials =>
      match spec.caSecretName.bind Text.trimmed? with
      | none => return .ok ⟨credentials, none⟩
      | some name =>
        match ← requiredSecret ns name with
        | .error e => return .error e
        | .ok ca => return .ok ⟨credentials, some ca⟩

/-- The namespace of an issuer's secrets under the settings. -/
def secretNamespace (settings : Settings) (issuer : Issuer) : Except IssuerConfigError String :=
  resolveSecretNamespace issuer.kind issuer.namespace issuer.spec.secretNamespace
    settings.clusterResourceNamespace settings.secretAccessAtClusterLevel

/-- The secrets of an issuer. A failed read ends the pass; any other problem is the issuer's. -/
def loadSecrets (settings : Settings) (issuer : Issuer) :
    Pass (Except IssuerConfigError IssuerSecrets) := do
  match secretNamespace settings issuer with
  | .error e => return .error e
  | .ok ns => secretsIn ns issuer.spec

end CertIssuer.Reconcile
