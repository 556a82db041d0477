import CertIssuer.Proofs.Request.Rehearsal
import CertIssuer.Proofs.Secrets.Lookup

/-!
# Secrets are confined

Without access at cluster level a pass reads secrets from one namespace, which does not hang on
what the spec of the issuer asks for: that of the issuer itself, or the one set aside for cluster
issuers. What lies elsewhere has no part in what a pass asks, writes and returns.
-/

namespace CertIssuer.Reconcile

open Pass

/-- A lookup finds an issuer of the kind, and in the namespace, that was asked for. -/
def FindsAsked (world : (q : Question) → q.Answer) : Prop :=
  ∀ key issuer, world (.issuer key) = .ok (some issuer) →
    issuer.kind = key.kind ∧ (key.kind = .namespaced → issuer.namespace = key.namespace)

/-- The namespace that belongs to an issuer: its own, or the one for cluster issuers. -/
def secretHome (settings : Settings) (key : IssuerKey) : Option String :=
  match key.kind with
  | .namespaced => key.namespace
  | .cluster => some settings.clusterResourceNamespace

/-- What a pass is over. -/
inductive Target where
  | issuer (key : IssuerKey)
  | request (scheme : Scheme) (ns name : String)

namespace Target

variable (settings : Settings) (world : (q : Question) → q.Answer)

def pass : Target → Pass Requeue
  | issuer key => issuerPass settings key
  | request scheme ns name => requestPass settings scheme ns name

/-- The issuer whose secrets a pass reads: the one that it is over, or that its request names. -/
def issuerKey? : Target → Option IssuerKey
  | issuer key => some key
  | request scheme ns name =>
    match world (.request ns name) with
    | .ok (some r) => (issuerKindOf? scheme r).map (CertificateRequest.issuerKey r)
    | _ => none

def home (t : Target) : Option String := (t.issuerKey? world).bind (secretHome settings)

end Target

/-! ### Where secrets are read -/

theorem resolve_of_confined {kind : IssuerKind} {issuerNamespace requested : Option String}
    {clusterNamespace ns : String}
    (h : resolveSecretNamespace kind issuerNamespace requested clusterNamespace false = .ok ns) :
    baseSecretNamespace kind issuerNamespace clusterNamespace = .ok ns := by
  simp only [resolveSecretNamespace] at h
  cases hbase : baseSecretNamespace kind issuerNamespace clusterNamespace with
  | error e =>
    rw [hbase] at h
    cases h
  | ok base =>
    rw [hbase] at h
    cases hrequested : requested.bind Text.trimmed? with
    | none => simpa [hrequested, bind, Except.bind] using h
    | some other =>
      by_cases hsame : other = base
      · simpa [hrequested, hsame, bind, Except.bind] using h
      · simp [hrequested, hsame, bind, Except.bind] at h

section Confined

variable {settings : Settings} (hlocal : settings.secretAccessAtClusterLevel = false)
  {world : (q : Question) → q.Answer} (hworld : FindsAsked world)

include hlocal hworld

theorem home_of_concerns {key : IssuerKey} {issuer : Issuer} {k : Secret.Key}
    (hfound : world (.issuer key) = .ok (some issuer)) (h : Concerns settings issuer k) :
    secretHome settings key = some k.namespace := by
  obtain ⟨hkind, hns⟩ := hworld key issuer hfound
  have hbase : baseSecretNamespace issuer.kind issuer.namespace settings.clusterResourceNamespace =
      .ok k.namespace := by
    have hresolved := h.1
    rw [secretNamespace, hlocal] at hresolved
    exact resolve_of_confined hresolved
  rw [hkind] at hbase
  unfold secretHome
  cases hcase : key.kind with
  | cluster =>
    rw [hcase] at hbase
    exact congrArg some (Except.ok.inj hbase)
  | namespaced =>
    rw [hcase, hns hcase] at hbase
    cases hkey : key.namespace with
    | none =>
      rw [hkey] at hbase
      cases hbase
    | some ns =>
      rw [hkey] at hbase
      exact congrArg some (Except.ok.inj hbase)

theorem home_of_asked (t : Target) {k : Secret.Key}
    (h : .secret k ∈ asked world (t.pass settings)) : t.home settings world = some k.namespace := by
  cases t with
  | issuer key =>
    obtain ⟨issuer, hfound, hload⟩ := (secret_asked_issuerPass settings world).mp h
    exact home_of_concerns hlocal hworld hfound (loadSecrets_concerns settings issuer world hload)
  | request scheme ns name =>
    obtain ⟨r, kind, issuer, hstored, hkind, hfound, hload⟩ :=
      secret_asked_requestPass settings world h
    have hhome : (Target.request scheme ns name).home settings world =
        secretHome settings (CertificateRequest.issuerKey r kind) := by
      simp [Target.home, Target.issuerKey?, hstored, hkind]
    rw [hhome]
    exact home_of_concerns hlocal hworld hfound (loadSecrets_concerns settings issuer world hload)

/-- Without access at cluster level, a pass looks up secrets in the namespace that belongs to its
issuer and nowhere else. Of two worlds that differ in secrets elsewhere it asks the same questions,
those that write, build and call the authority included, and it comes to the same result. -/
theorem secrets_confined (t : Target) :
    (∀ k, .secret k ∈ asked world (t.pass settings) →
      t.home settings world = some k.namespace) ∧
    ∀ world' : (q : Question) → q.Answer,
      (∀ q, (∀ k, q = .secret k → t.home settings world = some k.namespace) →
        world' q = world q) →
      asked world' (t.pass settings) = asked world (t.pass settings) ∧
        result world' (t.pass settings) = result world (t.pass settings) := by
  have hhome : ∀ k, .secret k ∈ asked world (t.pass settings) →
      t.home settings world = some k.namespace := fun _ h => home_of_asked hlocal hworld t h
  refine ⟨hhome, fun world' hagree => ?_⟩
  -- the worlds need to agree on what the pass asks in one of them only
  refine Dialogue.asked_congr fun q hq => hagree q ?_
  rintro k rfl
  exact hhome k hq

end Confined

/-- A world with one request, one issuer that asks for its own namespace in a roundabout way, and a
store of secrets. -/
def storeWorld (store : Secret.Key → Option SecretData) : (q : Question) → q.Answer
  | .issuer key =>
    let spec := { sampleIssuer.spec with
      caSecretName := some "bundle"
      secretNamespace := some " apps " }
    .ok (if key = sampleIssuer.key then some { sampleIssuer with spec := spec } else none)
  | .request ns name =>
    .ok (if ns = "apps" ∧ name = "web" then some (sampleRequest "Y3Ny" {}).1 else none)
  | .secret k => .ok (store k)
  | q => sampleWorld (.ok ⟨"chain", "root"⟩) q

theorem findsAsked_storeWorld (store : Secret.Key → Option SecretData) :
    FindsAsked (storeWorld store) := by
  intro key issuer hfound
  have hissuer := Except.ok.inj hfound
  by_cases hkey : key = sampleIssuer.key
  · rw [if_pos hkey] at hissuer
    rw [hkey, ← Option.some.inj hissuer]
    exact ⟨rfl, fun _ => rfl⟩
  · rw [if_neg hkey] at hissuer
    cases hissuer

def lookedUp (qs : List Question) : List Secret.Key :=
  qs.filterMap fun
    | .secret k => some k
    | _ => none

/-- A pass that reads both secrets of its issuer is the same whether or not there are others. -/
theorem secrets_confined_elsewhere :
    let t : Target := .request .standard "apps" "web"
    let own := storeWorld fun k => if k.namespace = "apps" then some [] else none
    let all := storeWorld fun _ => some []
    lookedUp (asked own (t.pass sampleSettings)) =
      [⟨"apps", "credentials"⟩, ⟨"apps", "bundle"⟩] ∧
    t.home sampleSettings own = some "apps" ∧
    asked all (t.pass sampleSettings) = asked own (t.pass sampleSettings) ∧
    result all (t.pass sampleSettings) = result own (t.pass sampleSettings) := by
  intro t own all
  have hhome : t.home sampleSettings own = some "apps" := by decide +kernel
  refine ⟨by decide +kernel, hhome, ?_⟩
  refine (secrets_confined rfl (findsAsked_storeWorld _) t).2 all fun q hq => ?_
  cases q with
  | secret k =>
    have hk : k.namespace = "apps" := Option.some.inj ((hq k rfl).symm.trans hhome)
    exact congrArg Except.ok (if_pos hk).symm
  | _ => rfl

end CertIssuer.Reconcile
