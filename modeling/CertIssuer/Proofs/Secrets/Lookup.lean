import CertIssuer.Proofs.Request.SigningGate
import CertIssuer.Reconcile.Issuer
import CertIssuer.Watch.Routing

/-!
# Which secrets are looked up

What `loadSecrets` asks for in a world, and what its result tells about that. A secret that is
looked up is one that a change of concerns the issuer. A secret that is missing lies where the
issuer's secrets lie, and any other problem is found before anything is looked up. A pass of either
kind looks up the secrets of the issuer that it has read, and no others.
-/

namespace CertIssuer.Reconcile

open Pass

variable (settings : Settings) (issuer : Issuer) (world : (q : Question) → q.Answer)

/-- The spec of an issuer names the secret, and it lies where the issuer's secrets lie. -/
def Concerns (k : Secret.Key) : Prop :=
  secretNamespace settings issuer = .ok k.namespace ∧ Watch.namesSecret issuer.spec k.name = true

theorem issuerUsesSecret_iff (k : Secret.Key) :
    Watch.issuerUsesSecret issuer.kind issuer.namespace issuer.spec k settings = true ↔
      Concerns settings issuer k := by
  unfold Watch.issuerUsesSecret Concerns secretNamespace
  cases resolveSecretNamespace issuer.kind issuer.namespace issuer.spec.secretNamespace
      settings.clusterResourceNamespace settings.secretAccessAtClusterLevel with
  | error e => simp
  | ok ns => simp

theorem namesSecret_of_names {spec : IssuerSpec} {name : String} (h : Names spec name) :
    Watch.namesSecret spec name = true := by
  rcases h with hcredentials | hca
  · simp [Watch.namesSecret, Text.trim_of_trimmed? hcredentials]
  · obtain ⟨ca, hca, hname⟩ := Option.bind_eq_some_iff.mp hca
    simp [Watch.namesSecret, hca, Text.trim_of_trimmed? hname]

theorem loadSecrets_asks_concerned :
    Within (fun q => ∃ k, q = .secret k ∧ Concerns settings issuer k) (fun _ => True)
      (loadSecrets settings issuer) :=
  loadSecrets_asks fun ns name hns hname => ⟨⟨ns, name⟩, rfl, hns, namesSecret_of_names hname⟩

theorem loadSecrets_concerns {k : Secret.Key}
    (h : .secret k ∈ asked world (loadSecrets settings issuer)) : Concerns settings issuer k := by
  obtain ⟨k', hk', hconcerns⟩ := (loadSecrets_asks_concerned settings issuer).asked world _ h
  cases hk'
  exact hconcerns

/-! ### A secret that must exist -/

section Required

variable (ns name : String)

theorem asked_requiredSecret : asked world (requiredSecret ns name) = [.secret ⟨ns, name⟩] := by
  rw [requiredSecret, asked_bind, asked_getSecret, result_getSecret]
  cases world (.secret ⟨ns, name⟩) with
  | error e => rfl
  | ok found => cases found <;> rfl

variable {ns name world} in
theorem eq_of_requiredSecret {e : IssuerConfigError}
    (h : result world (requiredSecret ns name) = .ok (.error e)) : e = .secretNotFound ns name := by
  obtain ⟨found, -, hfound⟩ := (result_bind_eq_ok world).mp h
  cases found with
  | none =>
    cases hfound
    rfl
  | some data => cases hfound

end Required

/-! ### All secrets of an issuer -/

/-- What comes of looking secrets up, given where they lie. -/
inductive Loading (ns : String) (looked : Secret.Key → Prop) :
    Except IssuerConfigError IssuerSecrets → Prop
  | found {name : String} (secrets : IssuerSecrets) :
      looked ⟨ns, name⟩ → Loading ns looked (.ok secrets)
  | missing (name : String) : Loading ns looked (.error (.secretNotFound ns name))
  | unnamed (text : String) : (∀ k, ¬ looked k) → Loading ns looked (.error (.invalidSpec text))

theorem secretsIn_loading {ns : String} {spec : IssuerSpec}
    {loaded : Except IssuerConfigError IssuerSecrets}
    (h : result world (secretsIn ns spec) = .ok loaded) :
    Loading ns (fun k => .secret k ∈ asked world (secretsIn ns spec)) loaded := by
  unfold secretsIn at h ⊢
  cases hcredentials : Text.trimmed? spec.commandSecretName with
  | none =>
    simp only [hcredentials] at h
    cases h
    exact .unnamed _ (by simp)
  | some name =>
    simp only [hcredentials, result_bind_eq_ok] at h
    obtain ⟨credentials, hread, h⟩ := h
    cases credentials with
    | error e =>
      cases h
      rw [eq_of_requiredSecret hread]
      exact .missing name
    | ok credentials =>
      have hlooked : .secret ⟨ns, name⟩ ∈ asked world (requiredSecret ns name) := by
        simp [asked_requiredSecret]
      cases hca : spec.caSecretName.bind Text.trimmed? with
      | none =>
        simp only [hca] at h
        cases h
        exact .found _ ((mem_asked_bind world).mpr (.inl hlooked))
      | some caName =>
        simp only [hca, result_bind_eq_ok] at h
        obtain ⟨ca, hreadCa, h⟩ := h
        cases ca with
        | error e =>
          cases h
          rw [eq_of_requiredSecret hreadCa]
          exact .missing caName
        | ok ca =>
          cases h
          exact .found _ ((mem_asked_bind world).mpr (.inl hlooked))

theorem loadSecrets_loading {loaded : Except IssuerConfigError IssuerSecrets}
    (h : result world (loadSecrets settings issuer) = .ok loaded) {ns : String}
    (hns : secretNamespace settings issuer = .ok ns) :
    Loading ns (fun k => .secret k ∈ asked world (loadSecrets settings issuer)) loaded := by
  have hload : loadSecrets settings issuer = secretsIn ns issuer.spec := by
    simp only [loadSecrets, hns]
  rw [hload] at h ⊢
  exact secretsIn_loading world h

/-! ### Passes -/

/-- The questions of a check of an issuer. -/
def Question.IsCheck : Question → Prop
  | .buildChecker _ _ | .check _ _ => True
  | _ => False

theorem checkIssuer_within (secrets : IssuerSecrets) (now : Timestamp) :
    Within Question.IsCheck (fun _ => True) (checkIssuer settings issuer secrets now) := by
  refine (within_ask trivial).bind fun built _ => ?_
  cases built with
  | error e => cases e <;> exact within_pure trivial
  | ok u =>
    refine (within_ask trivial).bind fun checked _ => ?_
    match checked with
    | some (.ok ()) => exact within_pure trivial
    | some (.error e) => exact within_pure trivial
    | none => exact within_pure trivial

theorem secret_asked_evaluate {now : Timestamp} {k : Secret.Key} :
    .secret k ∈ asked world (evaluate settings issuer now) ↔
      .secret k ∈ asked world (loadSecrets settings issuer) := by
  simp only [evaluate, mem_asked_bind, or_iff_left_iff_imp]
  rintro ⟨loaded, -, h⟩
  cases loaded with
  | error e => simp at h
  | ok secrets =>
    exact ((checkIssuer_within settings issuer secrets now).asked world _ h).elim

theorem secret_asked_issuerPass {key : IssuerKey} {k : Secret.Key} :
    .secret k ∈ asked world (issuerPass settings key) ↔
      ∃ issuer, world (.issuer key) = .ok (some issuer) ∧
        .secret k ∈ asked world (loadSecrets settings issuer) := by
  simp only [issuerPass, mem_asked_bind, asked_getIssuer, result_getIssuer, List.mem_singleton,
    reduceCtorEq, false_or]
  constructor
  · rintro ⟨found, hfound, h⟩
    cases found with
    | none => simp at h
    | some issuer =>
      refine ⟨issuer, hfound, ?_⟩
      simp only [mem_asked_bind, asked_now, List.mem_singleton, reduceCtorEq, false_or,
        secret_asked_evaluate] at h
      obtain ⟨now, -, h | ⟨v, -, h⟩⟩ := h
      · exact h
      · split at h
        · simp only [mem_asked_bind, asked_writeIssuer, asked_pure, List.mem_singleton,
            reduceCtorEq, List.not_mem_nil, and_false, exists_false, or_self] at h
        · exact absurd h List.not_mem_nil
  · rintro ⟨issuer, hfound, h⟩
    refine ⟨some issuer, hfound, ?_⟩
    simp only [mem_asked_bind, secret_asked_evaluate]
    exact .inr ⟨_, rfl, .inl h⟩

theorem act_asks {finding : Finding} {q : Question} (h : q ∈ asked world (act settings finding)) :
    q.IsSign ∨ q.IsClosing := by
  cases finding with
  | idle => simp [act] at h
  | exit w e => exact .inr ((take_within e w).asked world q h)
  | order w issuer secrets order =>
    simp only [act, mem_asked_bind, asked_ask, List.mem_singleton] at h
    rcases h with rfl | ⟨answer, -, h⟩
    · exact .inl trivial
    · exact .inr ((take_within _ w).asked world q h)

theorem secret_asked_seekSecrets {w : Work} {backoff : Span} {k : Secret.Key}
    (h : .secret k ∈ asked world (w.seekSecrets settings issuer backoff)) :
    .secret k ∈ asked world (loadSecrets settings issuer) := by
  simp only [Work.seekSecrets, mem_asked_bind] at h
  rcases h with h | ⟨loaded, -, h⟩
  · exact h
  · exfalso
    cases loaded with
    | error e => simp at h
    | ok secrets =>
      cases horder : w.order? with
      | error text => simp [horder] at h
      | ok order =>
        simp only [horder, Work.seekSigner, mem_asked_bind, asked_ask, List.mem_singleton,
          reduceCtorEq, false_or] at h
        obtain ⟨built, -, h⟩ := h
        cases built <;> simp at h

theorem secret_asked_seekIssuer {w : Work} {kind : IssuerKind} {k : Secret.Key}
    (h : .secret k ∈ asked world (w.seekIssuer settings kind)) :
    ∃ issuer, world (.issuer (w.issuerKey kind)) = .ok (some issuer) ∧
      .secret k ∈ asked world (loadSecrets settings issuer) := by
  simp only [Work.seekIssuer, mem_asked_bind, asked_getIssuer, result_getIssuer,
    List.mem_singleton, reduceCtorEq, false_or] at h
  obtain ⟨found, hfound, h⟩ := h
  cases found with
  | none => simp at h
  | some issuer =>
    refine ⟨issuer, hfound, ?_⟩
    by_cases hready : issuer.status.isReady
    · simp only [if_pos hready] at h
      exact secret_asked_seekSecrets settings issuer world h
    · simp [if_neg hready] at h

theorem secret_asked_surveyOf {request : CertificateRequest} {scheme : Scheme} {k : Secret.Key}
    (h : .secret k ∈ asked world (surveyOf settings scheme (some request))) :
    ∃ kind issuer, issuerKindOf? scheme request = some kind ∧
      world (.issuer (CertificateRequest.issuerKey request kind)) = .ok (some issuer) ∧
      .secret k ∈ asked world (loadSecrets settings issuer) := by
  simp only [surveyOf] at h
  cases hkind : issuerKindOf? scheme request with
  | none => simp [hkind] at h
  | some kind =>
    by_cases hterminal : request.currentStatus.isTerminal
    · simp [hkind, hterminal] at h
    · simp only [hkind, if_neg hterminal, mem_asked_bind, asked_now, List.mem_singleton,
        reduceCtorEq, false_or, Work.seekApproval] at h
      obtain ⟨now, -, h⟩ := h
      split at h
      · obtain ⟨issuer, hfound, h⟩ := secret_asked_seekIssuer settings world h
        rw [start_issuerKey] at hfound
        exact ⟨kind, issuer, rfl, hfound, h⟩
      · simp at h
      · simp at h

theorem secret_asked_requestPass {scheme : Scheme} {ns name : String} {k : Secret.Key}
    (h : .secret k ∈ asked world (requestPass settings scheme ns name)) :
    ∃ request kind issuer, world (.request ns name) = .ok (some request) ∧
      issuerKindOf? scheme request = some kind ∧
      world (.issuer (CertificateRequest.issuerKey request kind)) = .ok (some issuer) ∧
      .secret k ∈ asked world (loadSecrets settings issuer) := by
  simp only [requestPass_eq, survey, mem_asked_bind, asked_getRequest, result_getRequest,
    List.mem_singleton, reduceCtorEq, false_or] at h
  rcases h with ⟨found, hfound, h⟩ | ⟨finding, -, h⟩
  · cases found with
    | none => simp [surveyOf_none] at h
    | some request =>
      obtain ⟨kind, issuer, hkind, hissuer, h⟩ := secret_asked_surveyOf settings world h
      exact ⟨request, kind, issuer, hfound, hkind, hissuer, h⟩
  · rcases act_asks settings world h with h | h <;> exact h.elim

end CertIssuer.Reconcile
