import CertIssuer.Proofs.Request.Approver
import CertIssuer.Proofs.Request.Lifecycle
import CertIssuer.Proofs.Resource.PatchedObject
import CertIssuer.Proofs.Secrets.Lookup

/-!
# What is stored when a pass writes

A pass writes a status by a patch of the object that it read. When nobody else writes, the object
that is stored afterwards is the one that was read, under the patch. The status of an issuer is
replaced by what was written. The status of a request is merged with it, and since absent parts are
not written, a request that is issued keeps the time of an earlier failure, and the certificate
authority of an earlier answer if the new answer names none.
-/

namespace CertIssuer

namespace Reconcile

open Pass

/-! ### Times and numbers of what is written -/

/-- Work whose status, time and generation have a text. -/
structure Work.Valid (x : Work) : Prop where
  status : x.status.Valid
  now : x.now.Valid
  generation : ∀ n ∈ x.request.metadata.generation, Json.int64? (.int n) = some n

namespace Work.Valid

variable {x : Work} (h : x.Valid)

include h

theorem setReady (status : ConditionStatus) (reason message : String) :
    (x.setReady status reason message).Valid where
  status := ⟨h.status.conditions.set h.now h.generation, h.status.failureTime⟩
  now := h.now
  generation := h.generation

theorem work (e : Exit) : (e.work x).status.Valid := by
  cases e with
  | awaitApproval => exact h.status
  | awaitIssuer message delay => exact (h.setReady _ _ _).status
  | retry message delay => exact (h.setReady _ _ _).status
  | deny =>
    refine ⟨(h.setReady _ _ _).status.conditions, fun t ht => ?_⟩
    cases ht
    exact h.now
  | fail message p =>
    refine ⟨(h.setReady _ _ _).status.conditions, fun t ht => ?_⟩
    cases ht
    exact h.now
  | issue signed => exact ⟨(h.setReady _ _ _).status.conditions, nofun⟩

end Work.Valid

theorem valid_start {value : Json} {r : CertificateRequest}
    (h : CertificateRequest.ofJson? value = some r) {now : Timestamp} (hnow : now.Valid) :
    (Work.start r now).Valid := by
  have hread : (⟨r, r.currentStatus, now⟩ : Work).Valid :=
    ⟨CertificateRequest.valid_currentStatus h, hnow, CertificateRequest.valid_generation h⟩
  simp only [Work.start]
  split
  · exact hread.setReady _ _ _
  · exact hread

/-! ### The writes of a pass -/

section Writes

variable {world : (q : Question) → q.Answer} {settings : Settings} {q : Question}
  {now : Timestamp} (hnow : world .now = now)

theorem write_of_take {e : Exit} {x : Work} (h : q ∈ asked world (e.take x)) (hq : q.IsWrite) :
    q = .writeRequest x.request (e.work x).status e.precondition := by
  simp only [Exit.take, mem_asked_bind] at h
  rcases h with h | ⟨-, -, h⟩
  · unfold Work.write at h
    split at h
    · cases h
    · rw [List.mem_singleton.mp h, work_request]
  · exfalso
    cases hissue : e.isIssue with
    | false => simp [hissue] at h
    | true =>
      simp only [hissue, if_true] at h
      have hcount : q = .recordIssued := List.mem_singleton.mp h
      subst hcount
      exact hq

theorem write_of_act {finding : Finding} {x : Work} (hby : finding.IsBy x)
    (h : q ∈ asked world (act settings finding)) (hq : q.IsWrite) :
    ∃ e : Exit, q = .writeRequest x.request (e.work x).status e.precondition := by
  cases finding with
  | idle => exact hby.elim
  | exit w e =>
    obtain ⟨rfl, -⟩ := hby
    exact ⟨e, write_of_take h hq⟩
  | order w issuer secrets order =>
    obtain ⟨rfl, -⟩ := hby
    simp only [act, mem_asked_bind, asked_ask, List.mem_singleton] at h
    rcases h with rfl | ⟨answer, -, h⟩
    · exact hq.elim
    · exact ⟨_, write_of_take h hq⟩

include hnow

theorem isBy_of_survey {scheme : Scheme} {ns name : String} {r : CertificateRequest}
    (hfound : world (.request ns name) = .ok (some r)) {finding : Finding}
    (h : result world (survey settings scheme ns name) = .ok finding) :
    finding = .idle ∨
      (Work.start r now).IsStartOf r ∧ finding.IsBy (Work.start r now) := by
  obtain ⟨found, hread, h⟩ := (result_bind_eq_ok world).mp h
  have hsome : found = some r := Except.ok.inj (hread.symm.trans hfound)
  subst hsome
  simp only [surveyOf] at h
  cases hkind : issuerKindOf? scheme r with
  | none =>
    rw [hkind] at h
    cases h
    exact .inl rfl
  | some kind =>
    simp only [hkind] at h
    by_cases hterminal : r.currentStatus.isTerminal
    · rw [if_pos hterminal] at h
      cases h
      exact .inl rfl
    · rw [if_neg hterminal] at h
      obtain ⟨time, htime, h⟩ := (result_bind_eq_ok world).mp h
      have hsame : now = time := hnow.symm.trans (Except.ok.inj htime)
      subst hsame
      exact .inr ⟨⟨by simpa using hterminal, _, rfl⟩, (seekApproval_within _ _ _).result world h⟩

/-- What a pass over a request writes is what an exit makes of the request that was read. -/
theorem write_of_requestPass {scheme : Scheme} {ns name : String} {r : CertificateRequest}
    (hfound : world (.request ns name) = .ok (some r))
    (h : q ∈ asked world (requestPass settings scheme ns name)) (hq : q.IsWrite) :
    (Work.start r now).IsStartOf r ∧ ∃ e : Exit,
      q = .writeRequest r (e.work (Work.start r now)).status e.precondition := by
  rw [requestPass_eq, mem_asked_bind] at h
  rcases h with h | ⟨finding, hsurvey, h⟩
  · have hlook := (survey_within settings scheme ns name).asked world q h
    exact absurd hq (not_isWrite_of_isLook hlook)
  · rcases isBy_of_survey hnow hfound hsurvey with rfl | ⟨hstart, hby⟩
    · cases h
    · obtain ⟨e, he⟩ := write_of_act hby h hq
      rw [start_request] at he
      exact ⟨hstart, e, he⟩

omit hnow in
theorem not_write_of_evaluate {issuer i : Issuer} {status : IssuerStatus} :
    .writeIssuer i status ∉ asked world (evaluate settings issuer now) := by
  simp only [evaluate, mem_asked_bind, not_or]
  refine ⟨fun h => (loadSecrets_within settings issuer).asked world _ h, ?_⟩
  rintro ⟨loaded, -, h⟩
  cases loaded with
  | error e => simp at h
  | ok secrets => exact (checkIssuer_within settings issuer secrets now).asked world _ h

/-- What a pass over an issuer writes is what a verdict makes of the issuer that was read. -/
theorem write_of_issuerPass {key : IssuerKey} {issuer i : Issuer} {status : IssuerStatus}
    (hfound : world (.issuer key) = .ok (some issuer))
    (h : .writeIssuer i status ∈ asked world (issuerPass settings key)) :
    i = issuer ∧ ∃ v : Verdict,
      status = { issuer.status with conditions := (v.publish issuer now).2 } := by
  simp only [issuerPass, mem_asked_bind, asked_getIssuer, result_getIssuer, List.mem_singleton,
    reduceCtorEq, false_or] at h
  obtain ⟨found, hread, h⟩ := h
  have hsome : found = some issuer := Except.ok.inj (hread.symm.trans hfound)
  subst hsome
  simp only [mem_asked_bind, asked_now, List.mem_singleton, reduceCtorEq, false_or,
    not_write_of_evaluate] at h
  obtain ⟨time, htime, v, -, h⟩ := h
  have hsame : now = time := hnow.symm.trans (Except.ok.inj htime)
  subst hsame
  split at h
  · simp only [mem_asked_bind, asked_writeIssuer, asked_pure, List.mem_singleton,
      List.not_mem_nil, and_false, exists_false, or_false] at h
    cases h
    exact ⟨rfl, v, rfl⟩
  · cases h

end Writes

/-! ### What is kept -/

theorem merge_eq_patch_iff {old patch : RequestStatus} (hconditions : patch.conditions ≠ [])
    (hcertificate : old.certificate = none) :
    old.merge patch = patch ↔ (old.ca.isSome → patch.ca.isSome) ∧
      (old.failureTime.isSome → patch.failureTime.isSome) := by
  have hor : ∀ {α : Type} (a b : Option α), a.or b = a ↔ (b.isSome → a.isSome) := by
    intro α a b
    cases a <;> cases b <;> simp
  obtain ⟨conditions, certificate, ca, failureTime⟩ := patch
  simp only [RequestStatus.merge, RequestStatus.mk.injEq, hcertificate, Option.or_none, true_and,
    hor]
  refine and_iff_right ?_
  exact if_neg (by simpa using hconditions)

section Kept

variable {r : CertificateRequest} {x : Work} (hx : x.IsStartOf r)

include hx

theorem failureTime_of_work {e : Exit} (he : e.isIssue = false)
    (h : r.currentStatus.failureTime.isSome) : (e.work x).status.failureTime.isSome := by
  obtain ⟨-, now, rfl⟩ := hx
  cases e with
  | deny => rfl
  | fail message p => rfl
  | issue signed => cases he
  | _ => exact (start_failureTime r now).symm ▸ h

theorem ca_of_work {e : Exit} (he : e.isIssue = false) (h : r.currentStatus.ca.isSome) :
    (e.work x).status.ca.isSome := by
  obtain ⟨-, now, rfl⟩ := hx
  rw [(work_certificate he _).2, start_ca]
  exact h

variable {old : RequestStatus} (hold : old = r.currentStatus ∨ old = {})

include hold

/-- A status with a certificate leaves the time of a failure, and the authority if it names none.
Any other status replaces what was stored. -/
theorem merge_eq_iff (e : Exit) :
    old.merge (e.work x).status = (e.work x).status ↔
      ((e.work x).status.certificate.isSome →
        old.failureTime = none ∧ (old.ca.isSome → (e.work x).status.ca.isSome)) := by
  have hcertificate : old.certificate = none := by
    rcases hold with rfl | rfl
    · exact RequestStatus.certificate_eq_none hx.1
    · rfl
  rw [merge_eq_patch_iff (hx.conditions_ne_nil e) hcertificate]
  -- only issuing clears the time of a failure; every other exit keeps what it started from
  cases he : e.isIssue with
  | true =>
    have hissued := issue_certificate he x
    have hfailure : (e.work x).status.failureTime = none := by
      cases e with
      | issue signed => rfl
      | _ => cases he
    simp [hissued, hfailure, and_comm]
  | false =>
    have hnone : (e.work x).status.certificate = none := by
      cases hsome : (e.work x).status.certificate with
      | none => rfl
      | some certificate =>
        rw [hx.isIssue_of_certificate hsome] at he
        cases he
    simp only [hnone, Option.isSome_none, Bool.false_eq_true, false_implies, iff_true]
    rcases hold with rfl | rfl
    · exact ⟨ca_of_work hx he, failureTime_of_work hx he⟩
    · exact ⟨nofun, nofun⟩

end Kept

/-! ### What is stored -/

/-- When nobody else writes, a pass over a request stores the status that it writes merged into the
one that was there, and a pass over an issuer stores what it writes. The status of a request is
replaced, unless a certificate is written while the time of a failure is stored, or an authority
that the new status does not name. A coherent status has neither before it is terminal. -/
theorem stored_status_merged {world : (q : Question) → q.Answer} {now : Timestamp}
    (hnow : world .now = now) (hvalid : now.Valid) (settings : Settings) :
    (∀ scheme ns name value request, CertificateRequest.ofJson? value = some request →
      world (.request ns name) = .ok (some request) → ∀ r status p,
      .writeRequest r status p ∈ asked world (requestPass settings scheme ns name) →
        ∃ old, RequestStatus.ofJson? (value.standing "status") = some old ∧
          (old = request.currentStatus ∨ old = {}) ∧
          CertificateRequest.ofJson?
              (Json.mergePatch (statusPatch status.toJson (p.pinned r)) (some value)) =
            some { request with status := some (old.merge status) } ∧
          (old.merge status = status ↔ (status.certificate.isSome →
            old.failureTime = none ∧ (old.ca.isSome → status.ca.isSome))) ∧
          (request.currentStatus.Coherent → old.merge status = status)) ∧
    ∀ key kind value object, IssuerObject.ofJson? kind value = some object →
      world (.issuer key) = .ok (some (Issuer.ofObject object)) → ∀ i status,
      .writeIssuer i status ∈ asked world (issuerPass settings key) →
        IssuerObject.ofJson? kind
            (Json.mergePatch (statusPatch status.toJson i.resourceVersion) (some value)) =
          some { object with status := some status } := by
  constructor
  · intro scheme ns name value request hread hfound r status p hwrite
    obtain ⟨hx, e, hwritten⟩ := write_of_requestPass hnow hfound hwrite trivial
    cases hwritten
    have hpatch := (valid_start hread hvalid).work e
    -- a pinned patch names the version that was read, and so leaves the metadata
    have hversion : ∀ v ∈ e.precondition.pinned request,
        request.metadata.resourceVersion = some v := by
      intro v hv
      cases hp : e.precondition with
      | resourceVersion =>
        rw [hp] at hv
        exact hv
      | unconditional =>
        rw [hp] at hv
        cases hv
    obtain ⟨old, hold, hcurrent, hstored⟩ :=
      CertificateRequest.ofJson?_statusPatch hread hpatch hversion
    have hiff := merge_eq_iff hx hcurrent e
    refine ⟨old, hold, hcurrent, hstored, hiff, fun hcoherent => ?_⟩
    obtain ⟨-, hca, hfailure⟩ := hcoherent.blank hx.1
    have hblank : old.failureTime = none ∧ old.ca = none := by
      rcases hcurrent with rfl | rfl
      · exact ⟨hfailure, hca⟩
      · exact ⟨rfl, rfl⟩
    rw [hiff, hblank.1, hblank.2]
    exact fun _ => ⟨rfl, nofun⟩
  · intro key kind value object hread hfound i status hwrite
    obtain ⟨rfl, v, rfl⟩ := write_of_issuerPass hnow hfound hwrite
    have hgeneration := IssuerObject.valid_generation hread
    exact IssuerObject.ofJson?_statusPatch hread
      ((IssuerObject.valid_conditions hread).set hvalid hgeneration)
      (Conditions.set_ne_nil _ _ _ _ _ _ _) fun v hv => hv

/-- A request with the time of a failure, but no condition that says that it failed. -/
def failedRequest : CertificateRequest :=
  (sampleRequest "Y3Ny" { failureTime := some ⟨0, 0⟩ }).1

def sampleIssuerObject : IssuerObject where
  kind := .namespaced
  metadata := { name := some "ca", «namespace» := some "apps" }
  spec := sampleIssuer.spec
  status := some sampleIssuer.status

def failedWorld : (q : Question) → q.Answer
  | .request _ _ => .ok (some failedRequest)
  | q => sampleWorld (.ok ⟨"chain", "root"⟩) q

/-- The request is issued and keeps the time of its failure, while its issuer is stored as it is
written. -/
theorem failure_outlives_issue :
    (∃ status old : RequestStatus, .writeRequest failedRequest status .unconditional ∈
        asked failedWorld (requestPass sampleSettings .standard "apps" "web") ∧
      status.failureTime = none ∧
      CertificateRequest.ofJson?
          (Json.mergePatch (statusPatch status.toJson none) (some failedRequest.toJson)) =
        some { failedRequest with status := some (old.merge status) } ∧
      (old.merge status).failureTime = some ⟨0, 0⟩ ∧ old.merge status ≠ status) ∧
    ∃ status : IssuerStatus, .writeIssuer sampleIssuer status ∈
        asked failedWorld (issuerPass sampleSettings sampleIssuer.key) ∧
      IssuerObject.ofJson? .namespaced
          (Json.mergePatch (statusPatch status.toJson none) (some sampleIssuerObject.toJson)) =
        some { sampleIssuerObject with status := some status } := by
  have hnow : failedWorld .now = (⟨0, 0⟩ : Timestamp) := rfl
  have hvalid : (⟨0, 0⟩ : Timestamp).Valid := ⟨by decide, by decide, by decide⟩
  obtain ⟨hrequest, hissuer⟩ := stored_status_merged hnow hvalid sampleSettings
  constructor
  · have hread : CertificateRequest.ofJson? failedRequest.toJson = some failedRequest := by rfl
    have hwrite : _ ∈ asked failedWorld (requestPass sampleSettings .standard "apps" "web") :=
      List.mem_of_getElem? (i := 6) rfl
    obtain ⟨old, hold, -, hstored, hiff, -⟩ := hrequest _ _ _ _ _ hread rfl _ _ _ hwrite
    have hfailed : old = { failureTime := some ⟨0, 0⟩ } := Option.some.inj (hold.symm.trans rfl)
    subst hfailed
    refine ⟨_, _, hwrite, rfl, hstored, rfl, fun hsame => ?_⟩
    cases (hiff.mp hsame rfl).1
  · have hread : IssuerObject.ofJson? .namespaced sampleIssuerObject.toJson =
        some sampleIssuerObject := by rfl
    have hwrite : _ ∈ asked failedWorld (issuerPass sampleSettings sampleIssuer.key) :=
      List.mem_of_getElem? (i := 5) rfl
    exact ⟨_, hwrite, hissuer _ _ _ _ hread rfl _ _ hwrite⟩

end Reconcile

end CertIssuer
