import CertIssuer.Authority.Signer
import CertIssuer.Proofs.Quiescence
import CertIssuer.Proofs.Request.Requeue

/-!
# Checkers and signers

A checker and a signer are built from the same client, and a signer also from the names of a
certificate template and of an authority. No checker asks for these, so an issuer that lacks one of
them is verified all the same, and its requests wait for a signer that is never built.
-/

namespace CertIssuer

namespace Authority

/-- The spec does not say which certificate template, or which authority, is to be used. -/
def Unaddressed (spec : IssuerSpec) : Prop :=
  Text.isBlankText spec.certificateTemplate = true ∨
    Text.isBlankText spec.certificateAuthorityLogicalName = true

section Builders

variable {spec : IssuerSpec} {secrets : IssuerSecrets} {timeout : Span}

theorem ofSpec_of_unaddressed (h : Unaddressed spec) :
    ∃ text, Signer.ofSpec spec = .error (.config text) := by
  cases htemplate : Text.isBlankText spec.certificateTemplate with
  | true =>
    simp only [Signer.ofSpec, htemplate, if_true]
    exact ⟨_, rfl⟩
  | false =>
    have hname : Text.isBlankText spec.certificateAuthorityLogicalName = true := by
      rcases h with h | h
      · rw [htemplate] at h
        cases h
      · exact h
    simp only [Signer.ofSpec, htemplate, hname, if_true]
    exact ⟨_, rfl⟩

theorem ofSpec_of_addressed (h : ¬ Unaddressed spec) : ∃ s, Signer.ofSpec spec = .ok s := by
  obtain ⟨htemplate, hname⟩ := not_or.mp h
  simp only [Signer.ofSpec, htemplate, hname]
  exact ⟨_, rfl⟩

theorem buildSigner_of_error {e : SignerError}
    (h : buildChecker spec secrets timeout = .error e) :
    buildSigner spec secrets timeout = .error e := by
  have hclient : buildClient spec secrets timeout = .error e := h
  rw [buildSigner, hclient]
  rfl

theorem buildSigner_of_ok {client : Client}
    (h : buildChecker spec secrets timeout = .ok client) :
    buildSigner spec secrets timeout = (Signer.ofSpec spec).map fun s => (client, s) := by
  have hclient : buildClient spec secrets timeout = .ok client := h
  rw [buildSigner, hclient]
  cases hs : Signer.ofSpec spec with
  | error e => simp [bind, Except.bind, Except.map]
  | ok s => simp [bind, Except.bind, Except.map, pure, Except.pure]

/-- A checker is built, but what a signer needs beside it is not there. -/
def Overlooked (timeout : Span) (spec : IssuerSpec) (secrets : IssuerSecrets) : Prop :=
  (∃ client, buildChecker spec secrets timeout = .ok client) ∧ Unaddressed spec

theorem built_iff_not_overlooked :
    ((∃ client, buildChecker spec secrets timeout = .ok client) →
      ∃ built, buildSigner spec secrets timeout = .ok built) ↔
        ¬ Overlooked timeout spec secrets := by
  constructor
  · rintro hbuilds ⟨⟨client, hclient⟩, hblank⟩
    obtain ⟨built, hbuilt⟩ := hbuilds ⟨client, hclient⟩
    obtain ⟨text, htext⟩ := ofSpec_of_unaddressed hblank
    rw [buildSigner_of_ok hclient, htext] at hbuilt
    cases hbuilt
  · rintro hsound ⟨client, hclient⟩
    obtain ⟨s, hs⟩ := ofSpec_of_addressed fun hblank => hsound ⟨⟨client, hclient⟩, hblank⟩
    rw [buildSigner_of_ok hclient, hs]
    exact ⟨_, rfl⟩

/-- A refusal to build a signer is not for want of a client exactly when a checker overlooks it. -/
theorem overlooked_iff_of_refused {e : SignerError}
    (h : buildSigner spec secrets timeout = .error e) :
    Overlooked timeout spec secrets ↔ buildChecker spec secrets timeout ≠ .error e := by
  cases hchecker : buildChecker spec secrets timeout with
  | error e' =>
    rw [buildSigner_of_error hchecker] at h
    cases h
    refine iff_of_false ?_ (by simp)
    rintro ⟨⟨client, hclient⟩, -⟩
    rw [hchecker] at hclient
    cases hclient
  | ok client =>
    refine iff_of_true ⟨⟨client, hchecker⟩, ?_⟩ nofun
    by_contra haddressed
    obtain ⟨s, hs⟩ := ofSpec_of_addressed haddressed
    rw [buildSigner_of_ok hchecker, hs] at h
    cases h

end Builders

end Authority

namespace Reconcile

open Pass

/-- A world in which checkers and signers are built as the process builds them. -/
structure Builds (timeout : Span) (world : (q : Question) → q.Answer) : Prop where
  signer (spec : IssuerSpec) (secrets : IssuerSecrets) : world (.buildSigner spec secrets) =
    (Authority.buildSigner spec secrets timeout).map fun _ => ()
  checker (spec : IssuerSpec) (secrets : IssuerSecrets) : world (.buildChecker spec secrets) =
    (Authority.buildChecker spec secrets timeout).map fun _ => ()

/-! ### What is said of the issuer -/

section Issuer

variable {timeout : Span} {settings : Settings} {world : (q : Question) → q.Answer}
  {issuer : Issuer} {secrets : IssuerSecrets} {text : String} {now : Timestamp}

theorem error_of_map {α β : Type} {x : Except SignerError α} {f : α → β} {e : SignerError}
    (h : x.map f = .error e) : x = .error e := by
  cases x with
  | error e' =>
    cases h
    rfl
  | ok a => cases h

theorem evaluate_of_loaded
    (hload : result world (loadSecrets settings issuer) = .ok (.ok secrets)) :
    result world (evaluate settings issuer now) =
      result world (checkIssuer settings issuer secrets now) := by
  simp only [evaluate, result_bind, hload]

theorem checkIssuer_of_refused
    (h : world (.buildChecker issuer.spec secrets) = .error (.config text)) :
    result world (checkIssuer settings issuer secrets now) = .ok (.badConfig text) := by
  simp only [checkIssuer, result_bind, result_ask, h, result_pure]

theorem reason_of_built (h : world (.buildChecker issuer.spec secrets) = .ok ()) {v : Verdict}
    (hv : result world (checkIssuer settings issuer secrets now) = .ok v) :
    v.reason ≠ Reason.configError := by
  have hreason : v.reason = Reason.verified ∨ v.reason = Reason.healthCheckFailed := by
    simp only [checkIssuer, result_bind, result_ask, h] at hv
    cases hchecked : (world (.check issuer.spec secrets) : Option (Except SignerError Unit)) with
    | none =>
      simp only [hchecked, result_pure, Except.ok.injEq] at hv
      exact .inr (hv ▸ rfl)
    | some answer =>
      cases answer with
      | error e =>
        simp only [hchecked, result_pure, Except.ok.injEq] at hv
        exact .inr (hv ▸ rfl)
      | ok u =>
        simp only [hchecked, result_pure, Except.ok.injEq] at hv
        exact .inl (hv ▸ rfl)
  rcases hreason with hreason | hreason
  · rw [hreason]
    decide
  · rw [hreason]
    decide

theorem verified_of_passed (h : world (.buildChecker issuer.spec secrets) = .ok ())
    (hcheck : world (.check issuer.spec secrets) = some (.ok ())) :
    result world (checkIssuer settings issuer secrets now) = .ok (.verified settings) := by
  simp only [checkIssuer, result_bind, result_ask, h, hcheck, result_pure]

/-- A refusal to build a signer is reported on the issuer unless the checker overlooks it. -/
theorem reported_iff_not_overlooked (hbuilds : Builds timeout world)
    (hload : result world (loadSecrets settings issuer) = .ok (.ok secrets))
    (hrefused : world (.buildSigner issuer.spec secrets) = .error (.config text)) :
    result world (evaluate settings issuer now) = .ok (.badConfig text) ↔
      ¬ Authority.Overlooked timeout issuer.spec secrets := by
  have hsigner : Authority.buildSigner issuer.spec secrets timeout = .error (.config text) :=
    error_of_map ((hbuilds.signer _ _).symm.trans hrefused)
  rw [Authority.overlooked_iff_of_refused hsigner, not_not, evaluate_of_loaded hload]
  have hworld := hbuilds.checker issuer.spec secrets
  constructor
  · intro hreported
    cases hchecker : Authority.buildChecker issuer.spec secrets timeout with
    | error e =>
      rw [Authority.buildSigner_of_error hchecker] at hsigner
      exact congrArg Except.error (Except.error.inj hsigner)
    | ok client =>
      rw [hchecker] at hworld
      exact absurd rfl (reason_of_built hworld hreported)
  · intro hchecker
    rw [hchecker] at hworld
    exact checkIssuer_of_refused hworld

end Issuer

/-! ### What becomes of its requests -/

/-- A request that could be signed if only a signer could be built. -/
structure Unsignable (settings : Settings) (scheme : Scheme) (world : (q : Question) → q.Answer)
    (issuer : Issuer) (secrets : IssuerSecrets) (r : CertificateRequest) (kind : IssuerKind) :
    Prop where
  ours : issuerKindOf? scheme r = some kind
  pending : r.currentStatus.isTerminal = false
  approved : r.currentStatus.gate settings.checkApproved = .proceed
  named : world (.issuer (CertificateRequest.issuerKey r kind)) = .ok (some issuer)
  ready : issuer.status.isReady = true
  loaded : result world (loadSecrets settings issuer) = .ok (.ok secrets)
  csr : ∃ csr, Text.Base64.decode (Text.trim r.spec.request) = .ok csr ∧ csr ≠ []
  duration : ∃ duration, r.spec.requestedDuration = .ok duration

/-- A pass leaves the request pending for want of a signer. -/
structure LeavesPending (x : Pass Requeue) (text : String) (world : (q : Question) → q.Answer) :
    Prop where
  unsigned : ∀ q ∈ asked world x, ¬ q.IsSign
  status : ∀ r status p, .writeRequest r status p ∈ asked world x →
    ∃ ready, status.readyCondition? = some ready ∧ ready.status = .isFalse ∧
      ready.reason = some Reason.pending ∧ ready.message = some ("failed to build signer: " ++ text)
  repeated : ∀ requeue, result world x = .ok requeue → ∃ delay, requeue = .after delay

/-- The exit of work for which no signer could be built. -/
abbrev Work.unbuilt (w : Work) (settings : Settings) (e : SignerError) : Exit :=
  .retry ("failed to build signer: " ++ e.message) (w.patience settings)

section Requests

variable {settings : Settings} {scheme : Scheme} {world : (q : Question) → q.Answer}
  {issuer : Issuer} {secrets : IssuerSecrets} {r : CertificateRequest} {kind : IssuerKind}
  {e : SignerError} {ns name : String}

theorem requeue_of_take {x : Work} {exit : Exit} {requeue : Requeue}
    (h : result world (exit.take x) = .ok requeue) : requeue = exit.requeue := by
  have hgoes := goes_heardIn world (exit.take x)
  rw [h] at hgoes
  exact (goes_take hgoes).1

theorem Unsignable.sought (h : Unsignable settings scheme world issuer secrets r kind)
    (hrefused : world (.buildSigner issuer.spec secrets) = .error e) :
    result world ((Work.start r (clock world)).seekApproval settings kind) =
      .ok (.exit (Work.start r (clock world))
        ((Work.start r (clock world)).unbuilt settings e)) := by
  obtain ⟨order, horder⟩ : ∃ order, (Work.start r (clock world)).order? = .ok order := by
    rw [exists_order_iff, start_request]
    exact ⟨h.csr, h.duration⟩
  have hgate : (Work.start r (clock world)).status.gate settings.checkApproved = .proceed :=
    (gate_start r _ _).trans h.approved
  have hnamed := h.named
  rw [← start_issuerKey r (clock world)] at hnamed
  simp only [Work.seekApproval, hgate, Work.seekIssuer, result_bind, result_getIssuer, hnamed,
    h.ready, if_true, Work.seekSecrets, h.loaded, horder, Work.seekSigner, result_ask, hrefused]
  rfl

theorem Unsignable.survey (h : Unsignable settings scheme world issuer secrets r kind)
    (hrefused : world (.buildSigner issuer.spec secrets) = .error e)
    (hfound : world (.request ns name) = .ok (some r)) :
    result world (survey settings scheme ns name) =
      .ok (.exit (Work.start r (clock world))
        ((Work.start r (clock world)).unbuilt settings e)) := by
  rw [result_survey hfound, result_surveyOf h.ours h.pending, h.sought hrefused]

theorem Unsignable.same {world' : (q : Question) → q.Answer} {r' : CertificateRequest}
    (h : Unsignable settings scheme world issuer secrets r kind)
    (hsupply : SameSupply world world') (hrestated : r.Restated r')
    (hpending : r'.currentStatus.isTerminal = false)
    (hgate : r'.currentStatus.gate settings.checkApproved =
      r.currentStatus.gate settings.checkApproved) :
    Unsignable settings scheme world' issuer secrets r' kind := by
  have hkey : CertificateRequest.issuerKey r' kind = CertificateRequest.issuerKey r kind := by
    cases kind <;> simp only [CertificateRequest.issuerKey, hrestated.spec, hrestated.namespace_eq]
  refine ⟨?_, hpending, hgate.trans h.approved, ?_, h.ready, ?_, ?_, ?_⟩
  · exact (hrestated.kind_eq scheme).trans h.ours
  · rw [hkey, hsupply.issuer, h.named]
  · rw [loadSecrets_congr hsupply.secret rfl rfl, h.loaded]
  · rw [hrestated.spec]
    exact h.csr
  · rw [hrestated.spec]
    exact h.duration

theorem Unsignable.leavesPending (h : Unsignable settings scheme world issuer secrets r kind)
    (hrefused : world (.buildSigner issuer.spec secrets) = .error e)
    (hfound : world (.request ns name) = .ok (some r)) :
    LeavesPending (requestPass settings scheme ns name) e.message world := by
  have hsurvey := h.survey hrefused hfound
  refine ⟨fun q hq hsign => ?_, fun r' status p hwrite => ?_, fun requeue hrequeue => ?_⟩
  · have hlook : ¬ q.IsLook := fun hlook => not_isSign_of_isLook hlook hsign
    obtain ⟨finding, hfinding, hq⟩ := acted_of_asked hq hlook
    cases hsurvey.symm.trans hfinding
    have hclosing := (take_within _ _).asked world q hq
    cases q with
    | sign _ _ _ => exact hclosing
    | _ => exact hsign
  · obtain ⟨finding, hfinding, hwrite⟩ := acted_of_asked hwrite id
    cases hsurvey.symm.trans hfinding
    cases write_of_take hwrite trivial
    exact ⟨_, readyCondition?_setReady _ _ _ _, rfl, rfl, rfl⟩
  · rw [requestPass_eq] at hrequeue
    obtain ⟨finding, hfinding, hact⟩ := (result_bind_eq_ok world).mp hrequeue
    cases hsurvey.symm.trans hfinding
    exact ⟨_, requeue_of_take hact⟩

theorem Unsignable.visit {r' : CertificateRequest}
    (h : Unsignable settings scheme world issuer secrets r kind)
    (hrefused : world (.buildSigner issuer.spec secrets) = .error e)
    (hvisit : RequestVisit settings scheme ns name world r r') :
    r'.currentStatus.isTerminal = false ∧
      r'.currentStatus.gate settings.checkApproved =
        r.currentStatus.gate settings.checkApproved := by
  cases hvisit with
  | kept _ _ => exact ⟨h.pending, rfl⟩
  | @written status p _ hfound hwrite _ _ hpatched =>
    obtain ⟨finding, hfinding, hwrite⟩ := acted_of_asked hwrite id
    cases (h.survey hrefused hfound).symm.trans hfinding
    have hwritten := write_of_take hwrite trivial
    rw [start_request] at hwritten
    cases hwritten
    have hstart : (Work.start r (clock world)).IsStartOf r := ⟨h.pending, _, rfl⟩
    have hcertificate : (Work.start r (clock world)).status.certificate = none := by
      rw [start_certificate, RequestStatus.certificate_eq_none h.pending]
    rw [hstart.patched_eq rfl hpatched]
    exact ⟨waiting_isTerminal hcertificate (by decide) _,
      (gate_work _ _ _).trans (gate_start r _ _)⟩

theorem Unsignable.visits {worlds : List ((q : Question) → q.Answer)} {r' : CertificateRequest}
    (h : Unsignable settings scheme world issuer secrets r kind)
    (hrefused : world (.buildSigner issuer.spec secrets) = .error e)
    (hsupply : ∀ world' ∈ worlds, SameSupply world world')
    (hvisits : Visits (RequestVisit settings scheme ns name) worlds r r') :
    r'.currentStatus.isTerminal = false ∧ ∀ world' ∈ worlds,
      LeavesPending (requestPass settings scheme ns name) e.message world' := by
  -- on the visits: what makes the request unsignable is read off any of the worlds
  have hkept := hvisits.keeps (fun a => Unsignable settings scheme world issuer secrets a kind)
    (LeavesPending (requestPass settings scheme ns name) e.message)
    (fun world' hworld a b ha hvisit => ?_) h
  · exact ⟨hkept.1.pending, hkept.2⟩
  · have hsame := hsupply world' hworld
    have hrefused' : world' (.buildSigner issuer.spec secrets) = .error e :=
      (hsame.signer _ _).trans hrefused
    have hhere : Unsignable settings scheme world' issuer secrets a kind :=
      ha.same hsame (.refl a) ha.pending rfl
    obtain ⟨hpending, hgate⟩ := hhere.visit hrefused' hvisit
    have hthere : SameSupply world world := ⟨fun _ => rfl, fun _ => rfl, fun _ _ => rfl⟩
    exact ⟨hhere.leavesPending hrefused' hvisit.found,
      ha.same hthere hvisit.restated hpending hgate⟩

end Requests

/-- A signer is built wherever a checker is, unless the spec leaves open what to sign with. What the
signer is refused for is reported on the issuer unless it is that; and then the issuer is verified
if its authority can be reached, and its requests stay pending through any number of passes. -/
theorem verified_signs_unless_overlooked (timeout : Span) :
    (∀ spec secrets,
      ((∃ client, Authority.buildChecker spec secrets timeout = .ok client) →
        ∃ built, Authority.buildSigner spec secrets timeout = .ok built) ↔
          ¬ Authority.Overlooked timeout spec secrets) ∧
    ∀ settings world issuer secrets text, Builds timeout world →
      result world (loadSecrets settings issuer) = .ok (.ok secrets) →
      world (.buildSigner issuer.spec secrets) = .error (.config text) →
      (∀ now, result world (evaluate settings issuer now) = .ok (.badConfig text) ↔
        ¬ Authority.Overlooked timeout issuer.spec secrets) ∧
      (Authority.Overlooked timeout issuer.spec secrets →
        world (.check issuer.spec secrets) = some (.ok ()) →
        ∀ now, result world (evaluate settings issuer now) = .ok (.verified settings)) ∧
      ∀ scheme ns name r kind worlds r',
        Unsignable settings scheme world issuer secrets r kind →
        (∀ world' ∈ worlds, SameSupply world world') →
        Visits (RequestVisit settings scheme ns name) worlds r r' →
        r'.currentStatus.isTerminal = false ∧ ∀ world' ∈ worlds,
          LeavesPending (requestPass settings scheme ns name) (SignerError.config text).message
            world' := by
  refine ⟨fun spec secrets => Authority.built_iff_not_overlooked, ?_⟩
  intro settings world issuer secrets text hbuilds hload hrefused
  refine ⟨fun now => reported_iff_not_overlooked hbuilds hload hrefused, ?_, ?_⟩
  · rintro ⟨⟨client, hclient⟩, -⟩ hcheck now
    have hworld : world (.buildChecker issuer.spec secrets) = .ok () := by
      rw [hbuilds.checker, hclient]
      rfl
    rw [evaluate_of_loaded hload]
    exact verified_of_passed hworld hcheck
  · intro scheme ns name r kind worlds r' hunsignable hsupply hvisits
    exact hunsignable.visits hrefused hsupply hvisits

/-- An issuer without the name of a certificate template. -/
def untemplated : Issuer :=
  { sampleIssuer with spec := { sampleIssuer.spec with certificateTemplate := " " } }

def basicSecret : SecretData :=
  [("username", Text.toBytes "svc"), ("password", Text.toBytes "pw")]

/-- A world that builds as the process does, at some second. -/
def buildingWorld (r : CertificateRequest) (n : Nat) : (q : Question) → q.Answer
  | .now => (⟨n, 0⟩ : Timestamp)
  | .request _ _ => .ok (some r)
  | .issuer _ => .ok (some untemplated)
  | .secret _ => .ok (some basicSecret)
  | .buildSigner spec secrets =>
    (Authority.buildSigner spec secrets (.ofSeconds 30)).map fun _ => ()
  | .buildChecker spec secrets =>
    (Authority.buildChecker spec secrets (.ofSeconds 30)).map fun _ => ()
  | q => sampleWorld (.ok ⟨"chain", "root"⟩) q

/-- The issuer is verified, and a day later its request is still pending. -/
theorem untemplated_verified :
    Authority.Overlooked (.ofSeconds 30) untemplated.spec ⟨basicSecret, none⟩ ∧
    result (buildingWorld (sampleRequest "Y3Ny" {}).1 0)
      (evaluate sampleSettings untemplated ⟨0, 0⟩) = .ok (.verified sampleSettings) ∧
    LeavesPending (requestPass sampleSettings .standard "apps" "web")
      "invalid issuer configuration: spec.certificateTemplate is required"
      (buildingWorld (sampleRequest "Y3Ny" {}).1 86400) := by
  have hbuilds : Builds (.ofSeconds 30) (buildingWorld (sampleRequest "Y3Ny" {}).1 0) :=
    ⟨fun _ _ => rfl, fun _ _ => rfl⟩
  have hrefused : buildingWorld (sampleRequest "Y3Ny" {}).1 0
      (.buildSigner untemplated.spec ⟨basicSecret, none⟩) =
        .error (.config "spec.certificateTemplate is required") := by rfl
  have hover : Authority.Overlooked (.ofSeconds 30) untemplated.spec ⟨basicSecret, none⟩ :=
    ⟨⟨_, by rfl⟩, .inl (by decide)⟩
  obtain ⟨-, hpasses⟩ := verified_signs_unless_overlooked (.ofSeconds 30)
  obtain ⟨-, hverified, hpending⟩ :=
    hpasses sampleSettings _ untemplated ⟨basicSecret, none⟩ _ hbuilds rfl hrefused
  have hunsignable : Unsignable sampleSettings .standard
      (buildingWorld (sampleRequest "Y3Ny" {}).1 0) untemplated ⟨basicSecret, none⟩
      (sampleRequest "Y3Ny" {}).1 .namespaced :=
    ⟨rfl, rfl, rfl, rfl, rfl, rfl, ⟨Text.toBytes "csr", by rfl, by decide⟩, ⟨none, rfl⟩⟩
  have hsupply : ∀ world ∈ [buildingWorld (sampleRequest "Y3Ny" {}).1 86400],
      SameSupply (buildingWorld (sampleRequest "Y3Ny" {}).1 0) world :=
    List.forall_mem_singleton.mpr ⟨fun _ => rfl, fun _ => rfl, fun _ _ => rfl⟩
  obtain ⟨r', hvisit⟩ : ∃ r', RequestVisit sampleSettings .standard "apps" "web"
      (buildingWorld (sampleRequest "Y3Ny" {}).1 86400) (sampleRequest "Y3Ny" {}).1 r' :=
    exists_requestVisit rfl
  have hleft := hpending .standard "apps" "web" _ .namespaced _ _ hunsignable hsupply
    (.next hvisit (.none _))
  exact ⟨hover, hverified hover rfl _, hleft.2 _ List.mem_cons_self⟩

end Reconcile

end CertIssuer
