import CertIssuer.Proofs.Dialogue.Course
import CertIssuer.Proofs.Request.Rehearsal
import CertIssuer.Proofs.Secrets.Lookup

/-!
# What is watched is what is read

Whether a change concerns a resource is decided without a pass over it, from the resource alone. The
decision agrees with what passes read: a change of an issuer concerns the requests whose passes look
that issuer up, and a change of a secret concerns the issuers whose secrets are looked up there.
-/

namespace CertIssuer.Reconcile

open Pass

variable {settings : Settings} {scheme : Scheme} {ns name : String} {heard : List Hearing}

/-! ### The issuer of a request -/

/-- What a pass may ask once it has looked its issuer up. -/
def Question.IsPursuit : Question → Prop
  | .secret _ | .buildSigner _ _ | .sign _ _ _ | .writeRequest _ _ _ | .recordIssued => True
  | _ => False

theorem take_pursues (e : Exit) (w : Work) :
    Within Question.IsPursuit (fun _ => True) (e.take w) := by
  refine (take_within e w).widen fun q hq => ?_
  cases q with
  | writeRequest _ _ _ | recordIssued => trivial
  | _ => exact hq.elim

theorem signWith_pursues (w : Work) (settings : Settings) (issuer : Issuer) (backoff : Span) :
    Within Question.IsPursuit (fun _ => True) (w.signWith settings issuer backoff) := by
  refine (loadSecrets_asks fun _ _ _ _ => trivial).bind fun loaded _ => ?_
  cases loaded with
  | error e => exact take_pursues (.retry _ backoff) w
  | ok secrets =>
    cases horder : w.order? with
    | error text => exact take_pursues (.fail text .resourceVersion) w
    | ok order =>
      refine (within_ask trivial).bind fun built _ => ?_
      cases built with
      | error e => exact take_pursues (.retry _ backoff) w
      | ok u =>
        refine (within_ask trivial).bind fun answer _ => ?_
        rw [conclude_eq]
        exact take_pursues _ w

theorem goes_issue {w : Work} {kind : IssuerKind} {r : Except ControllerError Requeue}
    (h : (w.issue settings kind).Goes heard r) :
    ∃ a rest, heard = ⟨.issuer (w.issuerKey kind), a⟩ :: rest ∧
      ∀ x ∈ rest, x.question.IsPursuit := by
  rcases goes_bind.mp h with ⟨e, hlook, -⟩ | ⟨first, rest, found, rfl, hlook, hrest⟩
  · exact ⟨_, [], goes_getIssuer.mp hlook, by simp⟩
  rw [goes_getIssuer.mp hlook]
  refine ⟨_, rest, rfl, ?_⟩
  cases found with
  | none =>
    rw [pending_issuer_eq] at hrest
    exact (take_pursues _ w).goes hrest
  | some issuer =>
    by_cases hready : issuer.status.isReady = true
    · simp only [if_pos hready] at hrest
      exact (signWith_pursues w settings issuer _).goes hrest
    · simp only [if_neg hready, pending_issuer_eq] at hrest
      exact (take_pursues _ w).goes hrest

/-- How a pass goes when approval is not checked: it reads its request, and unless there is nothing
to do it looks up the issuer that the request names. -/
theorem goes_unchecked {r : Except ControllerError Requeue} {request : CertificateRequest}
    (hcheck : settings.checkApproved = false)
    (h : (requestPass settings scheme ns name).Goes heard r)
    (hread : (⟨.request ns name, .ok (some request)⟩ : Hearing) ∈ heard) :
    (issuerKindOf? scheme request = none ∨ request.currentStatus.isTerminal = true) ∧
        heard = [⟨.request ns name, .ok (some request)⟩] ∨
      ∃ kind now a rest, issuerKindOf? scheme request = some kind ∧
        request.currentStatus.isTerminal = false ∧
        heard = ⟨.request ns name, .ok (some request)⟩ :: ⟨.now, now⟩ ::
          ⟨.issuer (CertificateRequest.issuerKey request kind), a⟩ :: rest ∧
        ∀ x ∈ rest, x.question.IsPursuit := by
  rcases goes_bind.mp h with ⟨e, hlook, -⟩ | ⟨first, rest, found, rfl, hlook, hrest⟩
  · rw [goes_getRequest.mp hlook] at hread
    cases List.mem_singleton.mp hread
  rw [goes_getRequest.mp hlook] at hread ⊢
  cases found with
  | none =>
    obtain ⟨rfl, -⟩ := goes_pure.mp hrest
    cases List.mem_singleton.mp hread
  | some request' =>
    dsimp only at hrest
    cases hkind : issuerKindOf? scheme request' with
    | none =>
      simp only [hkind] at hrest
      obtain ⟨rfl, -⟩ := goes_pure.mp hrest
      cases List.mem_singleton.mp hread
      exact .inl ⟨.inl hkind, rfl⟩
    | some kind =>
      cases hterminal : request'.currentStatus.isTerminal with
      | true =>
        simp only [hkind, hterminal, if_true] at hrest
        obtain ⟨rfl, -⟩ := goes_pure.mp hrest
        cases List.mem_singleton.mp hread
        exact .inl ⟨.inr hterminal, rfl⟩
      | false =>
        simp only [hkind, hterminal, Bool.false_eq_true, if_false] at hrest
        obtain ⟨now, last, rfl, hgate⟩ := goes_now_bind.mp hrest
        have hopen : (Work.start request' now).status.gate settings.checkApproved = .proceed := by
          simp [RequestStatus.gate, hcheck]
        simp only [gatePass, hopen] at hgate
        obtain ⟨a, pursuit, rfl, hpursuit⟩ := goes_issue hgate
        rw [start_issuerKey] at hread ⊢
        have hsame : request' = request := by
          rcases List.mem_cons.mp hread with heq | hread
          · injection heq with _ hanswer
            exact (Option.some.inj (Except.ok.inj hanswer)).symm
          rcases List.mem_cons.mp hread with heq | hread
          · cases heq
          rcases List.mem_cons.mp hread with heq | hread
          · cases heq
          exact (hpursuit _ hread).elim
        subst hsame
        exact .inr ⟨kind, now, a, pursuit, hkind, hterminal, rfl, hpursuit⟩

section References

variable {request : CertificateRequest} {key : IssuerKey}

theorem references_of_open {kind : IssuerKind} (hkind : issuerKindOf? scheme request = some kind)
    (hpending : request.currentStatus.isTerminal = false)
    (hns : request.metadata.namespace ≠ none) (hkey : key.kind = .cluster → key.namespace = none) :
    Watch.requestReferencesIssuer scheme request key = true ↔
      key = CertificateRequest.issuerKey request kind := by
  obtain ⟨kind', ns', name'⟩ := key
  obtain ⟨ns, hns⟩ := Option.ne_none_iff_exists'.mp hns
  cases kind' with
  | namespaced =>
    cases kind with
    | namespaced =>
      simp only [Watch.requestReferencesIssuer, hkind, hpending, hns, CertificateRequest.issuerKey,
        CertificateRequest.namespace, Bool.and_eq_true, beq_iff_eq, beq_self_eq_true,
        Bool.not_false, and_true, Option.getD_some, IssuerKey.mk.injEq, true_and]
      exact ⟨fun h => ⟨h.2.symm, h.1.symm⟩, fun h => ⟨h.2.symm, h.1.symm⟩⟩
    | cluster => simp [Watch.requestReferencesIssuer, hkind, CertificateRequest.issuerKey]
  | cluster =>
    have hnone : ns' = none := hkey rfl
    cases kind with
    | namespaced => simp [Watch.requestReferencesIssuer, hkind, CertificateRequest.issuerKey]
    | cluster =>
      simp only [Watch.requestReferencesIssuer, hkind, hpending, hnone,
        CertificateRequest.issuerKey, Bool.and_eq_true, beq_iff_eq, beq_self_eq_true,
        Bool.not_false, and_true, IssuerKey.mk.injEq, true_and]
      exact eq_comm

theorem not_references (h : issuerKindOf? scheme request = none ∨
    request.currentStatus.isTerminal = true) :
    Watch.requestReferencesIssuer scheme request key = false := by
  rcases h with hforeign | hterminal
  · simp [Watch.requestReferencesIssuer, hforeign]
  · simp [Watch.requestReferencesIssuer, hterminal]

theorem references_iff_looked_up {r : Except ControllerError Requeue}
    (hcheck : settings.checkApproved = false) (hns : request.metadata.namespace ≠ none)
    (hkey : key.kind = .cluster → key.namespace = none)
    (h : (requestPass settings scheme ns name).Goes heard r)
    (hread : (⟨.request ns name, .ok (some request)⟩ : Hearing) ∈ heard) :
    Watch.requestReferencesIssuer scheme request key = true ↔
      ∃ a, (⟨.issuer key, a⟩ : Hearing) ∈ heard := by
  rcases goes_unchecked hcheck h hread with
    ⟨hnone, rfl⟩ | ⟨kind, now, a, rest, hkind, hpending, rfl, hrest⟩
  · refine iff_of_false (by simp [not_references hnone]) ?_
    rintro ⟨a, ha⟩
    cases List.mem_singleton.mp ha
  · rw [references_of_open hkind hpending hns hkey]
    constructor
    · rintro rfl
      exact ⟨a, by simp⟩
    · rintro ⟨a', ha'⟩
      rcases List.mem_cons.mp ha' with heq | ha'
      · cases heq
      rcases List.mem_cons.mp ha' with heq | ha'
      · cases heq
      rcases List.mem_cons.mp ha' with heq | ha'
      · injection heq with hquestion _
        cases hquestion
        rfl
      exact (hrest _ ha').elim

end References

/-! ### The secrets of an issuer -/

variable {issuer : Issuer}

theorem uses_of_heard {r : Except ControllerError (Except IssuerConfigError IssuerSecrets)}
    {k : Secret.Key} {a : Except ControllerError (Option SecretData)}
    (h : (loadSecrets settings issuer).Goes heard r)
    (ha : (⟨.secret k, a⟩ : Hearing) ∈ heard) : Concerns settings issuer k := by
  obtain ⟨k', hk', hconcerns⟩ := (loadSecrets_asks_concerned settings issuer).goes h _ ha
  cases hk'
  exact hconcerns

theorem trimmed?_of_ne {s : String} (h : Text.trim s ≠ "") :
    Text.trimmed? s = some (Text.trim s) := by
  simp [Text.trimmed?, h]

/-- A secret that the spec names is looked up where all secrets are there. -/
theorem asked_of_concerns {k : Secret.Key} {world : (q : Question) → q.Answer}
    (hcredentials : Text.trim issuer.spec.commandSecretName ≠ "") (hname : k.name ≠ "")
    (h : Concerns settings issuer k) (hworld : ∀ k, world (.secret k) = .ok (some [])) :
    .secret k ∈ asked world (loadSecrets settings issuer) := by
  obtain ⟨hns, hnames⟩ := h
  have hfound : ∀ name, result world (requiredSecret k.namespace name) = .ok (.ok []) := by
    intro name
    rw [requiredSecret, result_bind, result_getSecret, hworld]
    rfl
  simp only [loadSecrets, hns, secretsIn, trimmed?_of_ne hcredentials, mem_asked_bind,
    asked_requiredSecret, List.mem_singleton]
  simp only [Watch.namesSecret, Bool.or_eq_true, beq_iff_eq] at hnames
  rcases hnames with hnames | hnames
  · rw [hnames]
    exact .inl rfl
  · obtain ⟨ca, hca, htrim⟩ := Option.map_eq_some_iff.mp hnames
    have hca' : issuer.spec.caSecretName.bind Text.trimmed? = some k.name := by
      rw [hca, Option.bind_some, trimmed?_of_ne (htrim ▸ hname), htrim]
    refine .inr ⟨_, hfound _, ?_⟩
    simp only [hca', mem_asked_bind, asked_requiredSecret, List.mem_singleton]
    exact .inl trivial

/-! ### Routes and reads -/

/-- An issuer is watched for the requests whose passes look it up, a secret that is looked up is
watched for the issuer, and a secret that is watched is looked up when the secrets are such. -/
theorem routes_agree_with_reads (settings : Settings) (scheme : Scheme) :
    (∀ ns name request key heard r, settings.checkApproved = false →
      request.metadata.namespace ≠ none → (key.kind = .cluster → key.namespace = none) →
      (requestPass settings scheme ns name).Goes heard r →
      (⟨.request ns name, .ok (some request)⟩ : Hearing) ∈ heard →
      (Watch.requestReferencesIssuer scheme request key = true ↔
        ∃ a, (⟨.issuer key, a⟩ : Hearing) ∈ heard)) ∧
    ∀ issuer : Issuer,
      (∀ k a heard r, (loadSecrets settings issuer).Goes heard r →
        (⟨.secret k, a⟩ : Hearing) ∈ heard →
        Watch.issuerUsesSecret issuer.kind issuer.namespace issuer.spec k settings = true) ∧
      ∀ k, Text.trim issuer.spec.commandSecretName ≠ "" → k.name ≠ "" →
        Watch.issuerUsesSecret issuer.kind issuer.namespace issuer.spec k settings = true →
        ∃ store : Secret.Key → Option SecretData, ∀ world : (q : Question) → q.Answer,
          (∀ k, world (.secret k) = .ok (store k)) →
            .secret k ∈ asked world (loadSecrets settings issuer) := by
  refine ⟨fun ns name request key heard r hcheck hns hkey h hread =>
    references_iff_looked_up hcheck hns hkey h hread, fun issuer => ⟨?_, ?_⟩⟩
  · intro k a heard r h ha
    exact (issuerUsesSecret_iff settings issuer k).mpr (uses_of_heard h ha)
  · intro k hcredentials hname huses
    have hconcerns := (issuerUsesSecret_iff settings issuer k).mp huses
    exact ⟨fun _ => some [], fun world => asked_of_concerns hcredentials hname hconcerns⟩

/-- A world in which there is a request for an issuer that is ready. -/
def plainWorld : (q : Question) → q.Answer
  | .request _ _ => .ok (some (sampleRequest "Y3Ny" {}).1)
  | q => sampleWorld (.ok ⟨"chain", "root"⟩) q

theorem routes_agree_with_reads_plain :
    Watch.requestReferencesIssuer .standard (sampleRequest "Y3Ny" {}).1 sampleIssuer.key = true ∧
    Watch.issuerUsesSecret sampleIssuer.kind sampleIssuer.namespace sampleIssuer.spec
      ⟨"apps", "credentials"⟩ sampleSettings = true ∧
    ∃ store : Secret.Key → Option SecretData, ∀ world : (q : Question) → q.Answer,
      (∀ k, world (.secret k) = .ok (store k)) →
        .secret ⟨"apps", "credentials"⟩ ∈
          asked world (loadSecrets sampleSettings sampleIssuer) := by
  obtain ⟨hissuers, hsecrets⟩ := routes_agree_with_reads sampleSettings .standard
  obtain ⟨huses, hlooked⟩ := hsecrets sampleIssuer
  have hpass := goes_heardIn plainWorld (requestPass sampleSettings .standard "apps" "web")
  have hread : (⟨.request "apps" "web", .ok (some (sampleRequest "Y3Ny" {}).1)⟩ : Hearing) ∈
      heardIn plainWorld (requestPass sampleSettings .standard "apps" "web") :=
    List.mem_of_getElem? (i := 0) rfl
  have hlookup : (⟨.issuer sampleIssuer.key, .ok (some sampleIssuer)⟩ : Hearing) ∈
      heardIn plainWorld (requestPass sampleSettings .standard "apps" "web") :=
    List.mem_of_getElem? (i := 2) rfl
  have hload := goes_heardIn plainWorld (loadSecrets sampleSettings sampleIssuer)
  have hsecret : (⟨.secret ⟨"apps", "credentials"⟩, .ok (some [])⟩ : Hearing) ∈
      heardIn plainWorld (loadSecrets sampleSettings sampleIssuer) :=
    List.mem_of_getElem? (i := 0) rfl
  have hused := huses _ _ _ _ hload hsecret
  have hns : (sampleRequest "Y3Ny" {}).1.metadata.namespace ≠ none := Option.some_ne_none _
  have hkey : sampleIssuer.key.kind = .cluster → sampleIssuer.key.namespace = none :=
    fun h => nomatch h
  refine ⟨?_, hused, hlooked _ (by decide) (by decide) hused⟩
  exact (hissuers _ _ _ _ _ _ rfl hns hkey hpass hread).mpr ⟨_, hlookup⟩

end CertIssuer.Reconcile
