import CertIssuer.Proofs.Dialogue.Course
import CertIssuer.Proofs.Request.Survey

/-!
# Secrets that resolve

What must have been looked up and found for the secrets of an issuer to resolve, said of the spec
alone: the secret with the credentials, and the one with the trusted certificates when the spec
names one, both in the namespace that the issuer's secrets are confined to.
-/

namespace CertIssuer.Reconcile

open Pass

/-- A secret was looked up and was there. -/
def Found (heard : List Hearing) (ns name : String) (data : SecretData) : Prop :=
  (⟨.secret ⟨ns, name⟩, .ok (some data)⟩ : Hearing) ∈ heard

inductive ResolvedIn (ns : String) (spec : IssuerSpec) (heard : List Hearing) :
    IssuerSecrets → Prop
  | credentials {name : String} {credentials : SecretData} :
    Text.trimmed? spec.commandSecretName = some name → Found heard ns name credentials →
      spec.caSecretName.bind Text.trimmed? = none → ResolvedIn ns spec heard ⟨credentials, none⟩
  | withCa {name caName : String} {credentials ca : SecretData} :
    Text.trimmed? spec.commandSecretName = some name → Found heard ns name credentials →
      spec.caSecretName.bind Text.trimmed? = some caName → Found heard ns caName ca →
        ResolvedIn ns spec heard ⟨credentials, some ca⟩

/-- The secrets of an issuer are where they must be, and this is what they hold. -/
def Resolved (settings : Settings) (issuer : Issuer) (heard : List Hearing)
    (secrets : IssuerSecrets) : Prop :=
  ∃ ns, secretNamespace settings issuer = .ok ns ∧ ResolvedIn ns issuer.spec heard secrets

theorem ResolvedIn.mono {ns : String} {spec : IssuerSpec} {heard heard' : List Hearing}
    {secrets : IssuerSecrets} (h : ResolvedIn ns spec heard secrets) (hsub : heard ⊆ heard') :
    ResolvedIn ns spec heard' secrets := by
  cases h with
  | credentials hname hfound hca => exact .credentials hname (hsub hfound) hca
  | withCa hname hfound hca hfoundCa => exact .withCa hname (hsub hfound) hca (hsub hfoundCa)

theorem Resolved.mono {settings : Settings} {issuer : Issuer} {heard heard' : List Hearing}
    {secrets : IssuerSecrets} (h : Resolved settings issuer heard secrets)
    (hsub : heard ⊆ heard') : Resolved settings issuer heard' secrets := by
  obtain ⟨ns, hns, hin⟩ := h
  exact ⟨ns, hns, hin.mono hsub⟩

/-! ### Courses of a look-up -/

variable {heard : List Hearing}

theorem goes_requiredSecret {ns name : String} {data : SecretData}
    (h : (requiredSecret ns name).Goes heard (.ok (.ok data))) :
    heard = [⟨.secret ⟨ns, name⟩, .ok (some data)⟩] := by
  obtain ⟨first, second, found, rfl, hfirst, hsecond⟩ := goes_bind_ok.mp h
  have hlook := goes_getSecret.mp hfirst
  cases found with
  | none =>
    obtain ⟨-, hdata⟩ := goes_pure.mp hsecond
    cases hdata
  | some d =>
    obtain ⟨rfl, hdata⟩ := goes_pure.mp hsecond
    cases hdata
    rw [hlook, List.append_nil]

theorem goes_secretsIn {ns : String} {spec : IssuerSpec} {secrets : IssuerSecrets}
    (h : (secretsIn ns spec).Goes heard (.ok (.ok secrets))) :
    ResolvedIn ns spec heard secrets := by
  unfold secretsIn at h
  cases hname : Text.trimmed? spec.commandSecretName with
  | none =>
    simp only [hname] at h
    obtain ⟨-, hsecrets⟩ := goes_pure.mp h
    cases hsecrets
  | some name =>
    simp only [hname] at h
    obtain ⟨first, rest, loaded, rfl, hfirst, hrest⟩ := goes_bind_ok.mp h
    cases loaded with
    | error e =>
      obtain ⟨-, hsecrets⟩ := goes_pure.mp hrest
      cases hsecrets
    | ok credentials =>
      have hfound : Found (first ++ rest) ns name credentials := by
        simp [Found, goes_requiredSecret hfirst]
      cases hca : spec.caSecretName.bind Text.trimmed? with
      | none =>
        simp only [hca] at hrest
        obtain ⟨rfl, hsecrets⟩ := goes_pure.mp hrest
        cases hsecrets
        exact .credentials hname hfound hca
      | some caName =>
        simp only [hca] at hrest
        obtain ⟨second, last, loaded, rfl, hsecond, hlast⟩ := goes_bind_ok.mp hrest
        cases loaded with
        | error e =>
          obtain ⟨-, hsecrets⟩ := goes_pure.mp hlast
          cases hsecrets
        | ok ca =>
          have hfoundCa : Found (first ++ (second ++ last)) ns caName ca := by
            simp [Found, goes_requiredSecret hsecond]
          obtain ⟨-, hsecrets⟩ := goes_pure.mp hlast
          cases hsecrets
          exact .withCa hname hfound hca hfoundCa

theorem resolved_of_loadSecrets {settings : Settings} {issuer : Issuer} {secrets : IssuerSecrets}
    (h : (loadSecrets settings issuer).Goes heard (.ok (.ok secrets))) :
    Resolved settings issuer heard secrets := by
  unfold loadSecrets at h
  cases hns : secretNamespace settings issuer with
  | error e =>
    simp only [hns] at h
    obtain ⟨-, hsecrets⟩ := goes_pure.mp h
    cases hsecrets
  | ok ns =>
    simp only [hns] at h
    exact ⟨ns, hns, goes_secretsIn h⟩

/-- Loading secrets looks secrets up, and nothing else. -/
theorem secret_of_loadSecrets {settings : Settings} {issuer : Issuer}
    {r : Except ControllerError (Except IssuerConfigError IssuerSecrets)}
    (h : (loadSecrets settings issuer).Goes heard r) {e : Hearing} (he : e ∈ heard) :
    ∃ k, e.question = .secret k := by
  have hasks : Within (fun q => ∃ k, q = .secret k) (fun _ => True)
      (loadSecrets settings issuer) := loadSecrets_asks fun _ _ _ _ => ⟨_, rfl⟩
  exact hasks.goes h e he

end CertIssuer.Reconcile
