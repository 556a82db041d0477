import CertIssuer.Proofs.Issuer.Accuracy
import CertIssuer.Proofs.Issuer.Wakefulness
import CertIssuer.Proofs.Request.Quiescence

/-!
# Passes come to rest

A pass writes what it finds to be so, and the next pass finds the same: it reads the condition that
was written and would write it again with the transition time it has. So as long as issuers, secrets
and the outcome of checks stay, an issuer is written once, and so is a request until it is signed
(`passes_come_to_rest`).
-/

namespace CertIssuer.Reconcile

open Pass

/-- Two worlds show the same secrets, build the same checkers, and have them come out the same. -/
structure SameChecks (world world' : (q : Question) → q.Answer) : Prop where
  secret (k : Secret.Key) : world' (.secret k) = world (.secret k)
  checker (spec : IssuerSpec) (secrets : IssuerSecrets) :
    world' (.buildChecker spec secrets) = world (.buildChecker spec secrets)
  check (spec : IssuerSpec) (secrets : IssuerSecrets) :
    world' (.check spec secrets) = world (.check spec secrets)

/-- Two verdicts that differ at most in the time of the next pass. -/
structure Verdict.Agrees (v v' : Verdict) : Prop where
  status : v'.status = v.status
  reason : v'.reason = v.reason
  message : v'.message = v.message

section Again

variable {world world' : (q : Question) → q.Answer} (hsame : SameChecks world world')
  {settings : Settings} {i i' : Issuer} {now now' : Timestamp} {v : Verdict}

include hsame

theorem checkIssuer_again (hspec : i'.spec = i.spec) {secrets : IssuerSecrets}
    (h : result world (checkIssuer settings i secrets now) = .ok v) :
    ∃ v', result world' (checkIssuer settings i' secrets now') = .ok v' ∧ v.Agrees v' := by
  have hbuild : world' (.buildChecker i'.spec secrets) = world (.buildChecker i.spec secrets) := by
    rw [hspec]
    exact hsame.checker i.spec secrets
  have hcheck : world' (.check i'.spec secrets) = world (.check i.spec secrets) := by
    rw [hspec]
    exact hsame.check i.spec secrets
  simp only [checkIssuer, result_bind, result_ask, hbuild] at h ⊢
  match hbuilt : world (.buildChecker i.spec secrets) with
  | .error (.config text) | .error (.transient text) | .error (.permanent text) =>
    simp only [hbuilt] at h ⊢
    cases h
    exact ⟨_, rfl, rfl, rfl, rfl⟩
  | .ok () =>
    simp only [hbuilt, result_bind, result_ask, hcheck] at h ⊢
    match hchecked : world (.check i.spec secrets) with
    | some (.ok ()) | some (.error e) | none =>
      simp only [hchecked] at h ⊢
      cases h
      exact ⟨_, rfl, rfl, rfl, rfl⟩

theorem evaluate_again (hspec : i'.spec = i.spec)
    (hns : secretNamespace settings i' = secretNamespace settings i)
    (h : result world (evaluate settings i now) = .ok v) :
    ∃ v', result world' (evaluate settings i' now') = .ok v' ∧ v.Agrees v' := by
  have hload := loadSecrets_congr hsame.secret hns hspec
  simp only [evaluate, result_bind, hload] at h ⊢
  cases hloaded : result world (loadSecrets settings i) with
  | error e =>
    rw [hloaded] at h
    cases h
  | ok loaded =>
    cases loaded with
    | error e =>
      simp only [hloaded] at h ⊢
      cases h
      exact ⟨_, rfl, rfl, rfl, rfl⟩
    | ok secrets =>
      simp only [hloaded] at h ⊢
      exact checkIssuer_again hsame hspec h

end Again

/-! ### Passes over an issuer -/

section Pass

variable {settings : Settings} {key : IssuerKey} {world : (q : Question) → q.Answer}
  {i i' : Issuer} {v : Verdict} {requeue : Requeue}

/-- The status of an issuer with a verdict published. -/
abbrev Verdict.statusAt (v : Verdict) (i : Issuer) (now : Timestamp) : IssuerStatus :=
  { i.status with conditions := (v.publish i now).2 }

theorem writes_of_verdict (hfound : world (.issuer key) = .ok (some i))
    (hv : result world (evaluate settings i (clock world)) = .ok v) (status : IssuerStatus) :
    .writeIssuer i status ∈ asked world (issuerPass settings key) ↔
      (v.publish i (clock world)).1 = true ∧ status = v.statusAt i (clock world) := by
  have hclock : result world Pass.now = .ok (clock world) := rfl
  simp only [issuerPass, mem_asked_bind, asked_getIssuer, result_getIssuer, List.mem_singleton,
    reduceCtorEq, false_or, hfound, Except.ok.injEq, exists_eq_left', asked_now, hclock, hv,
    not_write_of_evaluate]
  cases hchanged : (v.publish i (clock world)).1 with
  | false => simp
  | true =>
    simp only [if_true, mem_asked_bind, asked_writeIssuer, asked_pure, List.mem_singleton,
      List.not_mem_nil, and_false, exists_false, or_false, true_and, Question.writeIssuer.injEq]

theorem accepted_of_verdict (hfound : world (.issuer key) = .ok (some i))
    (hv : result world (evaluate settings i (clock world)) = .ok v)
    (h : result world (issuerPass settings key) = .ok requeue)
    (hchanged : (v.publish i (clock world)).1 = true) :
    world (.writeIssuer i (v.statusAt i (clock world))) = .ok () := by
  have hclock : result world Pass.now = .ok (clock world) := rfl
  simp only [issuerPass, result_bind_eq_ok, result_getIssuer, hfound, Except.ok.injEq,
    exists_eq_left', hclock, hv, hchanged, if_true] at h
  obtain ⟨u, haccepted, -⟩ := h
  exact haccepted

/-- What a visit that ends well leaves of an issuer is the issuer with the verdict published. -/
theorem conditions_of_visit (hvisit : IssuerVisit settings key world i i')
    (hv : result world (evaluate settings i (clock world)) = .ok v)
    (h : result world (issuerPass settings key) = .ok requeue) :
    i'.status.conditions = (v.publish i (clock world)).2 := by
  have hwrites := writes_of_verdict hvisit.found hv
  cases hvisit with
  | kept hfound hrefused =>
    cases hchanged : (v.publish i (clock world)).1 with
    | false => exact (Verdict.publish_of_unchanged hchanged).symm
    | true =>
      have hwrite := (hwrites _).mpr ⟨hchanged, rfl⟩
      exact absurd (accepted_of_verdict hfound hv h hchanged) (hrefused _ hwrite)
  | written version hfound hwrite _ =>
    obtain ⟨-, rfl⟩ := (hwrites _).mp hwrite
    rfl

theorem IssuerVisit.restated (hvisit : IssuerVisit settings key world i i') :
    ∃ version status, i' = { i with resourceVersion := version, status := status } := by
  cases hvisit with
  | kept _ _ => exact ⟨_, _, rfl⟩
  | written version _ _ _ => exact ⟨version, _, rfl⟩

/-- A verdict that was published once is not published again. -/
theorem unwritten_of_visit (hvisit : IssuerVisit settings key world i i')
    (h : result world (issuerPass settings key) = .ok requeue)
    {world' : (q : Question) → q.Answer} (hsame : SameChecks world world')
    (hfound : world' (.issuer key) = .ok (some i')) (other : Issuer) (status : IssuerStatus) :
    .writeIssuer other status ∉ asked world' (issuerPass settings key) := by
  intro hwrite
  obtain ⟨rfl, -⟩ := write_of_issuerPass rfl hfound hwrite
  obtain ⟨v, hv, -⟩ := issuerPass_verdict hvisit.found h
  obtain ⟨version, stored, hrestated⟩ := hvisit.restated
  have hspec : other.spec = i.spec := by rw [hrestated]
  have hns : secretNamespace settings other = secretNamespace settings i := by
    rw [hrestated]
    rfl
  have hgeneration : other.generation = i.generation := by rw [hrestated]
  obtain ⟨v', hv', hagrees⟩ : ∃ v', result world' (evaluate settings other (clock world')) =
      .ok v' ∧ v.Agrees v' := evaluate_again hsame hspec hns hv
  have hconditions := conditions_of_visit hvisit hv h
  have hunchanged : (v'.publish other (clock world')).1 = false := by
    rw [Verdict.publish, hconditions, hagrees.status, hagrees.reason, hagrees.message,
      hgeneration, Verdict.publish, Conditions.set_again]
  obtain ⟨hchanged, -⟩ := (writes_of_verdict hfound hv' status).mp hwrite
  rw [hunchanged] at hchanged
  cases hchanged

theorem issuer_visits_at_rest {worlds : List ((q : Question) → q.Answer)} {i'' : Issuer}
    (hvisit : IssuerVisit settings key world i i')
    (h : result world (issuerPass settings key) = .ok requeue)
    (hvisits : Visits (IssuerVisit settings key) worlds i' i'')
    (hsame : ∀ world' ∈ worlds, SameChecks world world') :
    i'' = i' ∧ ∀ world' ∈ worlds, ∀ other status,
      .writeIssuer other status ∉ asked world' (issuerPass settings key) := by
  refine hvisits.keeps (· = i') _ (fun world' hworld a b ha hnext => ?_) rfl
  subst ha
  have hunwritten := unwritten_of_visit hvisit h (hsame world' hworld) hnext.found
  refine ⟨hunwritten, ?_⟩
  cases hnext with
  | kept _ _ => rfl
  | written _ _ hwrite _ => exact absurd hwrite (hunwritten _ _)

end Pass

/-! ### Coming to rest -/

/-- A pass over a request that ends well without asking the signer leaves the request as it stays:
in any later worlds with the same issuers, secrets and signers, passes only look. A pass over an issuer
that ends well leaves the issuer as it stays while its secrets are the same and its checks come out
the same. The clock is free in all of them. -/
theorem passes_come_to_rest (settings : Settings) :
    (∀ scheme ns name world r r' requeue,
      RequestVisit settings scheme ns name world r r' →
      result world (requestPass settings scheme ns name) = .ok requeue →
      (∀ q ∈ asked world (requestPass settings scheme ns name), ¬ q.IsSign) →
      ∀ worlds r'', (∀ world' ∈ worlds, SameSupply world world') →
        Visits (RequestVisit settings scheme ns name) worlds r' r'' →
        r'' = r' ∧ ∀ world' ∈ worlds,
          ∀ q ∈ asked world' (requestPass settings scheme ns name), q.IsLook) ∧
    ∀ key world i i' requeue,
      IssuerVisit settings key world i i' →
      result world (issuerPass settings key) = .ok requeue →
      ∀ worlds i'', (∀ world' ∈ worlds, SameChecks world world') →
        Visits (IssuerVisit settings key) worlds i' i'' →
        i'' = i' ∧ ∀ world' ∈ worlds, ∀ other status,
          .writeIssuer other status ∉ asked world' (issuerPass settings key) := by
  constructor
  · intro scheme ns name world r r' requeue hvisit h hsilent worlds r'' hsupply hvisits
    have hrest : ∀ world' ∈ worlds, AtRest settings scheme world' r' :=
      fun world' hworld => atRest_of_visit hvisit h hsilent (hsupply world' hworld)
    exact visits_at_rest hvisits hrest
  · intro key world i i' requeue hvisit h worlds i'' hsame hvisits
    exact issuer_visits_at_rest hvisit h hvisits hsame

/-- A request with two entries of `Ready`, neither of which says since when. -/
def doubledRequest : CertificateRequest :=
  (sampleRequest "Y3Ny" { conditions := [
    { type := Condition.ready, status := .isFalse },
    { type := "Reviewed", status := .unknown },
    { type := Condition.ready, status := .unknown }] }).1

/-- A world at some second, in which no check comes to an end. -/
def slowWorld (r : CertificateRequest) (i : Issuer) (n : Nat) : (q : Question) → q.Answer
  | .now => (⟨n, 0⟩ : Timestamp)
  | .request _ _ => .ok (some r)
  | .issuer _ => .ok (some i)
  | .check _ _ => none
  | q => sampleWorld (.ok ⟨"chain", "root"⟩) q

/-- The request after a pass at second 7. -/
def restedRequest : CertificateRequest :=
  { doubledRequest with status := some { conditions := [
    { type := Condition.ready, status := .isFalse, reason := some Reason.issuerNotReady
      message := some "Issuer apps/ca is not Ready", lastTransitionTime := some ⟨7, 0⟩ },
    { type := "Reviewed", status := .unknown }] } }

/-- The issuer after a pass at second 7. -/
def restedIssuer : Issuer :=
  { doubledIssuer with
    resourceVersion := some "2"
    status := { conditions := [
      { type := Condition.ready, status := .isFalse, reason := some Reason.healthCheckFailed
        message := some "health check timed out after 0h0m30s", observedGeneration := some 2
        lastTransitionTime := some ⟨7, 0⟩ },
      { type := "Reviewed", status := .unknown }] } }

theorem restedRequest_kept (n : Nat)
    (hasked : asked (slowWorld restedRequest doubledIssuer n)
      (requestPass sampleSettings .standard "apps" "web") =
        [.request "apps" "web", .now, .issuer sampleIssuer.key]) :
    RequestVisit sampleSettings .standard "apps" "web" (slowWorld restedRequest doubledIssuer n)
      restedRequest restedRequest := by
  refine .kept rfl fun status p hwrite => ?_
  rw [hasked] at hwrite
  simp at hwrite

theorem restedIssuer_kept (n : Nat)
    (hasked : asked (slowWorld doubledRequest restedIssuer n)
      (issuerPass sampleSettings sampleIssuer.key) =
        [.issuer sampleIssuer.key, .now, .secret ⟨"apps", "credentials"⟩,
          .buildChecker sampleIssuer.spec ⟨[], none⟩, .check sampleIssuer.spec ⟨[], none⟩]) :
    IssuerVisit sampleSettings sampleIssuer.key (slowWorld doubledRequest restedIssuer n)
      restedIssuer restedIssuer := by
  refine .kept rfl fun status hwrite => ?_
  rw [hasked] at hwrite
  simp at hwrite

/-- A request waits for an issuer whose check does not come to an end. Each of them is written once,
and then it stays through visits a minute and a day later. -/
theorem passes_come_to_rest_waiting :
    (Visits (RequestVisit sampleSettings .standard "apps" "web")
        [slowWorld doubledRequest doubledIssuer 7, slowWorld restedRequest doubledIssuer 67,
          slowWorld restedRequest doubledIssuer 86407] doubledRequest restedRequest ∧
      ∀ q ∈ asked (slowWorld restedRequest doubledIssuer 86407)
        (requestPass sampleSettings .standard "apps" "web"), q.IsLook) ∧
    Visits (IssuerVisit sampleSettings sampleIssuer.key)
        [slowWorld doubledRequest doubledIssuer 7, slowWorld doubledRequest restedIssuer 67,
          slowWorld doubledRequest restedIssuer 86407] doubledIssuer restedIssuer ∧
      ∀ other status, .writeIssuer other status ∉
        asked (slowWorld doubledRequest restedIssuer 86407)
          (issuerPass sampleSettings sampleIssuer.key) := by
  obtain ⟨hrequest, hissuer⟩ := passes_come_to_rest sampleSettings
  constructor
  · have hwrite : .writeRequest doubledRequest restedRequest.currentStatus .resourceVersion ∈
        asked (slowWorld doubledRequest doubledIssuer 7)
          (requestPass sampleSettings .standard "apps" "web") :=
      List.mem_of_getElem? (i := 3) rfl
    have hfirst : RequestVisit sampleSettings .standard "apps" "web"
        (slowWorld doubledRequest doubledIssuer 7) doubledRequest restedRequest :=
      .written rfl hwrite rfl ⟨rfl, _, _, rfl⟩ (.inl rfl)
    have hlater : Visits (RequestVisit sampleSettings .standard "apps" "web")
        [slowWorld restedRequest doubledIssuer 67, slowWorld restedRequest doubledIssuer 86407]
        restedRequest restedRequest :=
      .next (restedRequest_kept 67 rfl) (.next (restedRequest_kept 86407 rfl) (.none _))
    have hsilent : ∀ q ∈ asked (slowWorld doubledRequest doubledIssuer 7)
        (requestPass sampleSettings .standard "apps" "web"), ¬ q.IsSign := by
      have hasked : asked (slowWorld doubledRequest doubledIssuer 7)
          (requestPass sampleSettings .standard "apps" "web") =
        [.request "apps" "web", .now, .issuer sampleIssuer.key,
          .writeRequest doubledRequest restedRequest.currentStatus .resourceVersion] := rfl
      rw [hasked]
      simp [Question.IsSign]
    have hsupply : ∀ world ∈ [slowWorld restedRequest doubledIssuer 67,
        slowWorld restedRequest doubledIssuer 86407],
        SameSupply (slowWorld doubledRequest doubledIssuer 7) world := by
      simp only [List.forall_mem_cons, List.not_mem_nil, false_implies, implies_true, and_true]
      exact ⟨⟨fun _ => rfl, fun _ => rfl, fun _ _ => rfl⟩,
        ⟨fun _ => rfl, fun _ => rfl, fun _ _ => rfl⟩⟩
    have hrests := hrequest _ _ _ _ _ _ _ hfirst rfl hsilent _ _ hsupply hlater
    exact ⟨.next hfirst hlater, hrests.2 _ (by simp)⟩
  · have hwrite : .writeIssuer doubledIssuer restedIssuer.status ∈
        asked (slowWorld doubledRequest doubledIssuer 7)
          (issuerPass sampleSettings sampleIssuer.key) :=
      List.mem_of_getElem? (i := 5) rfl
    have hfirst : IssuerVisit sampleSettings sampleIssuer.key
        (slowWorld doubledRequest doubledIssuer 7) doubledIssuer restedIssuer :=
      .written (some "2") rfl hwrite rfl
    have hlater : Visits (IssuerVisit sampleSettings sampleIssuer.key)
        [slowWorld doubledRequest restedIssuer 67, slowWorld doubledRequest restedIssuer 86407]
        restedIssuer restedIssuer :=
      .next (restedIssuer_kept 67 rfl) (.next (restedIssuer_kept 86407 rfl) (.none _))
    have hchecks : ∀ world ∈ [slowWorld doubledRequest restedIssuer 67,
        slowWorld doubledRequest restedIssuer 86407],
        SameChecks (slowWorld doubledRequest doubledIssuer 7) world := by
      simp only [List.forall_mem_cons, List.not_mem_nil, false_implies, implies_true, and_true]
      exact ⟨⟨fun _ => rfl, fun _ _ => rfl, fun _ _ => rfl⟩,
        ⟨fun _ => rfl, fun _ _ => rfl, fun _ _ => rfl⟩⟩
    have hrests := hissuer _ _ _ _ _ hfirst rfl _ _ hchecks hlater
    exact ⟨.next hfirst hlater, hrests.2 _ (by simp)⟩

end CertIssuer.Reconcile
