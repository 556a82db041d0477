import CertIssuer.Proofs.Request.Rehearsal
import CertIssuer.Proofs.Secrets.Lookup

/-!
# Which issuers are woken

A pass over an issuer may end without a time at which it is to be repeated. The issuer is then
looked at again when it changes itself, or when a secret that it uses does and that is noticed. A
missing secret whose coming would not be noticed is looked for again by the clock. Secrets from
which no checker can be built are not: where their changes are not noticed, the issuer is left as it
is.
-/

namespace CertIssuer.Reconcile

open Pass

section Awaits

variable {settings : Settings} {issuer : Issuer} {world : (q : Question) → q.Answer} {v : Verdict}

theorem refused_of_awaits {secrets : IssuerSecrets} {now : Timestamp}
    (h : result world (checkIssuer settings issuer secrets now) = .ok v)
    (hawaits : v.requeue = .awaitChange) :
    ∃ text, world (.buildChecker issuer.spec secrets) = .error (.config text) := by
  obtain ⟨built, hbuilt, h⟩ := (result_bind_eq_ok world).mp h
  have hworld : world (.buildChecker issuer.spec secrets) = built := Except.ok.inj hbuilt
  cases built with
  | error e =>
    cases e with
    | config text => exact ⟨text, hworld⟩
    | transient text | permanent text =>
      cases h
      cases hawaits
  | ok u =>
    obtain ⟨checked, -, h⟩ := (result_bind_eq_ok world).mp h
    match checked with
    | some (.ok ()) | some (.error e) | none =>
      cases h
      cases hawaits

/-- A verdict that waits for a change comes of what was looked up, or of contents that were
refused, or nothing was looked up. -/
theorem evaluate_awaits {now : Timestamp} (h : result world (evaluate settings issuer now) = .ok v)
    (hawaits : v.requeue = .awaitChange) {ns : String}
    (hns : secretNamespace settings issuer = .ok ns) :
    settings.watchesSecretsIn ns = true ∨
      (∀ k, .secret k ∉ asked world (loadSecrets settings issuer)) ∨
      ∃ secrets text, result world (loadSecrets settings issuer) = .ok (.ok secrets) ∧
        world (.buildChecker issuer.spec secrets) = .error (.config text) := by
  obtain ⟨loaded, hload, h⟩ := (result_bind_eq_ok world).mp h
  cases loadSecrets_loading settings issuer world hload hns with
  | found secrets hlooked =>
    obtain ⟨text, hrefused⟩ := refused_of_awaits h hawaits
    exact .inr (.inr ⟨secrets, text, hload, hrefused⟩)
  | missing name =>
    left
    have hv : Verdict.badSecrets settings (.secretNotFound ns name) = v := Except.ok.inj h
    rw [← hv] at hawaits
    simp only [Verdict.badSecrets, Verdict.secretsRequeue] at hawaits
    split at hawaits
    · next hwatched => exact hwatched
    · cases hawaits
  | unnamed text hnone => exact .inr (.inl hnone)

theorem issuerPass_verdict {key : IssuerKey} {requeue : Requeue}
    (hfound : world (.issuer key) = .ok (some issuer))
    (h : result world (issuerPass settings key) = .ok requeue) :
    ∃ v, result world (evaluate settings issuer (world .now)) = .ok v ∧ v.requeue = requeue := by
  obtain ⟨found, hread, h⟩ := (result_bind_eq_ok world).mp h
  have hissuer : found = some issuer := Except.ok.inj (hread.symm.trans hfound)
  subst hissuer
  obtain ⟨now, hnow, h⟩ := (result_bind_eq_ok world).mp h
  cases hnow
  obtain ⟨v, hv, h⟩ := (result_bind_eq_ok world).mp h
  refine ⟨v, hv, ?_⟩
  dsimp only at h
  split at h
  · obtain ⟨-, -, h⟩ := (result_bind_eq_ok world).mp h
    exact Except.ok.inj h
  · exact Except.ok.inj h

end Awaits

/-- No checker could be built from secrets whose changes are not noticed. -/
def RefusedUnnoticed (settings : Settings) (world : (q : Question) → q.Answer) (issuer : Issuer) :
    Prop :=
  ∃ ns secrets text, secretNamespace settings issuer = .ok ns ∧
    settings.watchesSecretsIn ns = false ∧
    result world (loadSecrets settings issuer) = .ok (.ok secrets) ∧
    world (.buildChecker issuer.spec secrets) = .error (.config text)

/-- When a pass over an issuer leaves it to be woken by a change, a change of any secret that the
pass looked up concerns the issuer. These changes are noticed unless no checker could be built from
secrets outside of the namespaces that are watched. -/
theorem noticed_unless_refused {settings : Settings} {world : (q : Question) → q.Answer}
    {key : IssuerKey} {issuer : Issuer} (hfound : world (.issuer key) = .ok (some issuer))
    (hawaits : result world (issuerPass settings key) = .ok .awaitChange) :
    (∀ k, .secret k ∈ asked world (issuerPass settings key) →
      Watch.issuerUsesSecret issuer.kind issuer.namespace issuer.spec k settings = true) ∧
    ((∀ k, .secret k ∈ asked world (issuerPass settings key) →
        settings.watchesSecretsIn k.namespace = true) ↔
      ¬ RefusedUnnoticed settings world issuer) := by
  have hlooked : ∀ k, .secret k ∈ asked world (issuerPass settings key) ↔
      .secret k ∈ asked world (loadSecrets settings issuer) := by
    intro k
    rw [secret_asked_issuerPass]
    constructor
    · rintro ⟨other, hother, hk⟩
      have hsame : other = issuer := Option.some.inj (Except.ok.inj (hother.symm.trans hfound))
      exact hsame ▸ hk
    · exact fun hk => ⟨issuer, hfound, hk⟩
  have hconcerns : ∀ k, .secret k ∈ asked world (issuerPass settings key) →
      Concerns settings issuer k :=
    fun k hk => loadSecrets_concerns settings issuer world ((hlooked k).mp hk)
  refine ⟨fun k hk => (issuerUsesSecret_iff settings issuer k).mpr (hconcerns k hk), ?_⟩
  constructor
  · rintro hwatched ⟨ns, secrets, text, hns, hunwatched, hload, -⟩
    -- secrets that were loaded were looked up, and where the issuer's secrets lie
    obtain ⟨k, hk, rfl⟩ : ∃ k, .secret k ∈ asked world (loadSecrets settings issuer) ∧
        k.namespace = ns := by
      cases loadSecrets_loading settings issuer world hload hns with
      | found _ hfirst => exact ⟨_, hfirst, rfl⟩
    rw [hwatched k ((hlooked k).mpr hk)] at hunwatched
    cases hunwatched
  · intro hrefused k hk
    obtain ⟨v, hv, hrequeue⟩ := issuerPass_verdict hfound hawaits
    have hns : secretNamespace settings issuer = .ok k.namespace := (hconcerns k hk).1
    rcases evaluate_awaits hv hrequeue hns with hwatched | hnone | ⟨secrets, text, hload, hbuild⟩
    · exact hwatched
    · exact absurd ((hlooked k).mp hk) (hnone k)
    · cases hwatched : settings.watchesSecretsIn k.namespace with
      | true => rfl
      | false => exact absurd ⟨_, secrets, text, hns, hwatched, hload, hbuild⟩ hrefused

/-- A world with an issuer whose secret is of no use. -/
def refusingWorld : (q : Question) → q.Answer
  | .buildChecker _ _ => .error (.config "no credentials")
  | q => sampleWorld (.ok ⟨"chain", "root"⟩) q

/-- The issuer is told that its secret is of no use, and sleeps through the repair of it. -/
theorem refused_sleeps :
    result refusingWorld (issuerPass sampleSettings sampleIssuer.key) = .ok .awaitChange ∧
    ∃ k, .secret k ∈ asked refusingWorld (issuerPass sampleSettings sampleIssuer.key) ∧
      Watch.issuerUsesSecret sampleIssuer.kind sampleIssuer.namespace sampleIssuer.spec k
        sampleSettings = true ∧
      sampleSettings.watchesSecretsIn k.namespace = false := by
  have hawaits : result refusingWorld (issuerPass sampleSettings sampleIssuer.key) =
      .ok .awaitChange := by rfl
  have hfound : refusingWorld (.issuer sampleIssuer.key) = .ok (some sampleIssuer) := rfl
  obtain ⟨huses, hiff⟩ := noticed_unless_refused hfound hawaits
  have hrefused : RefusedUnnoticed sampleSettings refusingWorld sampleIssuer :=
    ⟨"apps", ⟨[], none⟩, "no credentials", rfl, by decide, rfl, rfl⟩
  obtain ⟨k, hsleeps⟩ := Classical.not_forall.mp fun hwatched => hiff.mp hwatched hrefused
  obtain ⟨hk, hunwatched⟩ := Classical.not_imp.mp hsleeps
  exact ⟨hawaits, k, hk, huses k hk, by simpa using hunwatched⟩

end CertIssuer.Reconcile
