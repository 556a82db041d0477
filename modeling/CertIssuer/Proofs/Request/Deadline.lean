import CertIssuer.Proofs.Authority.Deadline
import CertIssuer.Proofs.Request.Quiescence
import CertIssuer.Proofs.Request.Requeue

/-!
# Requests that are signed against a deadline

A pass stops waiting for a signing call at the deadline, wherever the call has come to. A call that
is stopped counts as one that has failed for now, even when the authority has already said that it
carried out the enrollment: the request stays open, and the same order is placed once more.
-/

namespace CertIssuer.Reconcile

open Authority (SigningCall)
open Pass

variable {settings : Settings} {scheme : Scheme} {ns name : String}
  {world : (q : Question) → q.Answer} {r r' : CertificateRequest} {requeue : Requeue}
  {kind : IssuerKind} {issuer : Issuer} {secrets : IssuerSecrets} {order : SignOrder}

/-! ### Passes that have something signed -/

theorem issuer_of_order {w w' : Work}
    (h : result world (w.seekApproval settings kind) = .ok (.order w' issuer secrets order)) :
    world (.issuer (w.issuerKey kind)) = .ok (some issuer) := by
  have hgoes := goes_heardIn world (w.seekApproval settings kind)
  rw [h] at hgoes
  have hmet : w.meets kind issuer ∈ heardIn world (w.seekApproval settings kind) := by
    generalize heardIn world (w.seekApproval settings kind) = heard at hgoes
    cases sought_of_goes hgoes
    exact List.mem_cons_self
  exact (Dialogue.answer_of_heardIn hmet).symm

/-- A request that is signed was open, and looking around has come to the order. -/
theorem order_of_asked (hfound : world (.request ns name) = .ok (some r))
    (hkind : issuerKindOf? scheme r = some kind)
    (hissuer : world (.issuer (CertificateRequest.issuerKey r kind)) = .ok (some issuer))
    (hasked : .sign issuer.spec secrets order ∈
      asked world (requestPass settings scheme ns name)) :
    r.currentStatus.isTerminal = false ∧
      result world ((Work.start r (clock world)).seekApproval settings kind) =
        .ok (.order (Work.start r (clock world)) issuer secrets order) := by
  obtain ⟨finding, hfinding, hasked⟩ := acted_of_asked hasked id
  rw [result_survey hfound] at hfinding
  have hopen : r.currentStatus.isTerminal = false := by
    cases hterminal : r.currentStatus.isTerminal with
    | false => rfl
    | true =>
      simp only [surveyOf, hkind, hterminal, if_true] at hfinding
      cases hfinding
      cases hasked
  refine ⟨hopen, ?_⟩
  rw [result_surveyOf hkind hopen] at hfinding
  have hby : finding.IsBy (Work.start r (clock world)) :=
    (seekApproval_within _ settings kind).result world hfinding
  cases finding with
  | idle => cases hasked
  | exit w e => exact ((take_within e w).asked world _ hasked).elim
  | order w met found placed =>
    obtain rfl := hby.1
    have hmet := issuer_of_order hfinding
    rw [start_issuerKey, hissuer] at hmet
    cases hmet
    rcases List.mem_cons.mp hasked with hsame | hclosing
    · cases hsame
      exact hfinding
    · exact ((take_within _ _).asked world _ hclosing).elim

/-- The status that is left is the one of the exit that the answer leads to. -/
theorem patched_of_sign (hvisit : RequestVisit settings scheme ns name world r r')
    (h : result world (requestPass settings scheme ns name) = .ok requeue)
    (hkind : issuerKindOf? scheme r = some kind) (hopen : r.currentStatus.isTerminal = false)
    (hsought : result world ((Work.start r (clock world)).seekApproval settings kind) =
      .ok (.order (Work.start r (clock world)) issuer secrets order))
    {e : Exit}
    (he : e = exitAfter settings ((Work.start r (clock world)).signingElapsed settings issuer)
      ((world (.sign issuer.spec secrets order)).getD (Work.timedOut settings))) :
    r.currentStatus.Patched (e.work (Work.start r (clock world))).status r'.currentStatus := by
  have hsurvey : result world (survey settings scheme ns name) =
      .ok (.order (Work.start r (clock world)) issuer secrets order) := by
    rw [result_survey hvisit.found, result_surveyOf hkind hopen, hsought]
  have htook : result world (e.take (Work.start r (clock world))) = .ok requeue := by
    rw [requestPass_eq, result_bind, hsurvey] at h
    rw [he]
    exact h
  refine patched_of_visit hvisit hsurvey (start_request r _) htook fun q hwrite => ?_
  have hasked : asked world (act settings
      (.order (Work.start r (clock world)) issuer secrets order)) =
      .sign issuer.spec secrets order :: asked world (e.take (Work.start r (clock world))) := by
    rw [he]
    rfl
  rw [hasked, List.mem_cons]
  refine or_iff_right ?_
  rintro rfl
  exact hwrite

/-! ### After the visit -/

theorem atRest_of_terminal (h : r.currentStatus.isTerminal = true) :
    AtRest settings scheme world r := by
  intro kind _ hopen
  rw [h] at hopen
  cases hopen

theorem Work.IsStartOf.open_of_retry {x : Work} (hx : x.IsStartOf r) {message : String}
    {delay : Span} {new : RequestStatus}
    (hnew : r.currentStatus.Patched ((Exit.retry message delay).work x).status new) :
    new.isTerminal = false := by
  have hnone : x.status.certificate = none := by
    obtain ⟨hopen, now, rfl⟩ := hx
    rw [start_certificate, RequestStatus.certificate_eq_none hopen]
  have hleft : new = (x.waiting Reason.pending message).status := hx.patched_eq rfl hnew
  rw [hleft]
  exact waiting_isTerminal hnone (by decide) message

/-- What was ordered once is ordered again while the request is open. -/
theorem sign_again (hvisit : RequestVisit settings scheme ns name world r r')
    (hkind : issuerKindOf? scheme r = some kind)
    (hsought : result world ((Work.start r (clock world)).seekApproval settings kind) =
      .ok (.order (Work.start r (clock world)) issuer secrets order))
    {e : Exit} (hleft : r'.currentStatus = (e.work (Work.start r (clock world))).status)
    (hopen' : r'.currentStatus.isTerminal = false) {world' : (q : Question) → q.Answer}
    (hsupply : SameSupply world world') (hfound' : world' (.request ns name) = .ok (some r')) :
    .sign issuer.spec secrets order ∈ asked world' (requestPass settings scheme ns name) := by
  have hrestated := hvisit.restated
  have hkind' : issuerKindOf? scheme r' = some kind := (hrestated.kind_eq scheme).trans hkind
  have hresumes : (Work.start r (clock world)).Resumes settings (Work.start r' (clock world')) :=
    resumes_of_left hrestated hleft
  have hagain := seekApproval_again hsupply hresumes kind
  rw [hsought] at hagain
  have hsurvey : result world' (survey settings scheme ns name) =
      .ok (.order (Work.start r' (clock world')) issuer secrets order) := by
    rw [result_survey hfound', result_surveyOf hkind' hopen', hagain]
    rfl
  rw [requestPass_eq, mem_asked_bind]
  exact .inr ⟨_, hsurvey, List.mem_cons_self⟩

/-! ### The deadline -/

/-- An acknowledged call ends the request, or it was stopped while there is time to try again. -/
theorem exit_of_acknowledged (call : SigningCall order) {k : Nat}
    (hacknowledged : call.AcknowledgedBy k) {elapsed : Span} {e : Exit}
    (he : e = exitAfter settings elapsed ((call.answerAfter k).getD (Work.timedOut settings))) :
    e.IsFinal ∧ (call.moments.length ≤ k ∨ settings.retry.isExhausted elapsed = true) ∨
      (∃ message delay, e = .retry message delay) ∧
        ¬ (call.moments.length ≤ k ∨ settings.retry.isExhausted elapsed = true) := by
  by_cases hcome : call.moments.length ≤ k
  · have hfinal := call.final_of_acknowledged hacknowledged
    rw [SigningCall.answerAfter, if_pos hcome] at he
    rw [he]
    exact .inl ⟨(exitAfter_isFinal settings elapsed hfinal).1, .inl hcome⟩
  · rw [SigningCall.answerAfter, if_neg hcome] at he
    have hstopped : e = if settings.retry.isExhausted elapsed then
        .fail ("giving up after " ++ elapsed.text ++ ": " ++
          (SignerError.transient ("signing timed out after " ++
            settings.authorityTimeout.text)).message) .unconditional
      else .retry ("signing failed, will retry: " ++
          (SignerError.transient ("signing timed out after " ++
            settings.authorityTimeout.text)).message)
        (settings.retry.requeueAfter elapsed) := he
    by_cases hexhausted : settings.retry.isExhausted elapsed = true
    · rw [if_pos hexhausted] at hstopped
      rw [hstopped]
      exact .inl ⟨⟨Reason.failed, by decide, rfl⟩, .inr hexhausted⟩
    · rw [if_neg hexhausted] at hstopped
      exact .inr ⟨⟨_, _, hstopped⟩, not_or.mpr ⟨hcome, hexhausted⟩⟩

/-- A visit whose signing call was acknowledged before it was stopped closes the request exactly
when the call had come to its end or the time for retries is over. A request that is closed is never
signed again, and one that is open has the same order placed once more by the next pass that finds
the same issuers and secrets. -/
theorem acknowledged_closed_iff (settings : Settings) (scheme : Scheme) (ns name : String)
    (call : SigningCall order) {k : Nat} (hacknowledged : call.AcknowledgedBy k)
    (hvisit : RequestVisit settings scheme ns name world r r')
    (h : result world (requestPass settings scheme ns name) = .ok requeue)
    (hkind : issuerKindOf? scheme r = some kind)
    (hissuer : world (.issuer (CertificateRequest.issuerKey r kind)) = .ok (some issuer))
    (hasked : .sign issuer.spec secrets order ∈ asked world (requestPass settings scheme ns name))
    (hanswer : world (.sign issuer.spec secrets order) = call.answerAfter k) :
    (r'.currentStatus.isTerminal = true ↔ call.moments.length ≤ k ∨
      settings.retry.isExhausted
        ((Work.start r (clock world)).signingElapsed settings issuer) = true) ∧
    (r'.currentStatus.isTerminal = true → ∀ worlds r'',
      Visits (RequestVisit settings scheme ns name) worlds r' r'' →
      ∀ world' ∈ worlds, ∀ q ∈ asked world' (requestPass settings scheme ns name), ¬ q.IsSign) ∧
    (r'.currentStatus.isTerminal = false → ∀ world', SameSupply world world' →
      world' (.request ns name) = .ok (some r') →
      .sign issuer.spec secrets order ∈ asked world' (requestPass settings scheme ns name)) := by
  obtain ⟨hopen, hsought⟩ := order_of_asked hvisit.found hkind hissuer hasked
  have hstart : (Work.start r (clock world)).IsStartOf r := ⟨hopen, _, rfl⟩
  obtain ⟨e, he⟩ : ∃ e, e = exitAfter settings
      ((Work.start r (clock world)).signingElapsed settings issuer)
      ((call.answerAfter k).getD (Work.timedOut settings)) := ⟨_, rfl⟩
  have hpatched : r.currentStatus.Patched (e.work (Work.start r (clock world))).status
      r'.currentStatus :=
    patched_of_sign hvisit h hkind hopen hsought (by rw [he, hanswer])
  have hends := exit_of_acknowledged call hacknowledged he
  refine ⟨?_, ?_, ?_⟩
  · rcases hends with ⟨hfinal, hover⟩ | ⟨⟨message, delay, rfl⟩, hgoing⟩
    · exact iff_of_true (hstart.written_isTerminal hpatched hfinal) hover
    · refine iff_of_false ?_ hgoing
      rw [hstart.open_of_retry hpatched]
      exact Bool.false_ne_true
  · intro hterminal worlds r'' hvisits world' hworld q hq
    have hrest := visits_at_rest hvisits fun _ _ => atRest_of_terminal hterminal
    exact not_isSign_of_isLook (hrest.2 world' hworld q hq)
  · intro hopen' world' hsupply hfound'
    rcases hends with ⟨hfinal, -⟩ | ⟨⟨message, delay, rfl⟩, -⟩
    · rw [hstart.written_isTerminal hpatched hfinal] at hopen'
      cases hopen'
    · have hleft := hstart.patched_eq rfl hpatched
      exact sign_again hvisit hkind hsought hleft hopen' hsupply hfound'

/-- A call that can be stopped right after the status of its enrollment. -/
theorem exists_stopped_call :
    ∃ call : SigningCall Authority.plainOrder,
      call.AcknowledgedBy 5 ∧ call.answerAfter 5 = none := by
  have hcourse := Authority.plainSigning.goes_transcript (Authority.grantThen 200) none ()
  have hends : ((Authority.plainSigning.run.run none).hold
      (Authority.grantThen 200) ()).1.1.isOk = true := by
    decide +kernel
  have hacknowledges : ∃ m ∈ (((Authority.plainSigning.run.run none).transcript
      (Authority.grantThen 200) ()).flatMap Authority.momentsOf).take 5,
      m.acknowledges = true := by
    decide +kernel
  have hlonger : 5 < (((Authority.plainSigning.run.run none).transcript
      (Authority.grantThen 200) ()).flatMap Authority.momentsOf).length := by
    decide +kernel
  obtain ⟨m, hm, hack⟩ := hacknowledges
  cases hresult : ((Authority.plainSigning.run.run none).hold
      (Authority.grantThen 200) ()).1.1 with
  | error stop =>
    rw [hresult] at hends
    cases hends
  | ok result =>
    rw [hresult] at hcourse
    refine ⟨⟨_, _, _, _, _, result, hcourse⟩, ⟨m, ?_, hack⟩, if_neg ?_⟩
    · rw [SigningCall.moments, List.take_append]
      exact List.mem_append_left _ hm
    · rw [SigningCall.moments, List.length_append, Nat.not_le]
      exact Nat.lt_of_lt_of_le hlonger (Nat.le_add_right _ _)

/-- A world in which no signing call comes to an end in time. -/
def stoppedWorld (r : CertificateRequest) : (q : Question) → q.Answer
  | .request _ _ => .ok (some r)
  | .sign _ _ _ => none
  | q => sampleWorld (.ok ⟨"chain", "root"⟩) q

/-- The request after a pass whose signing call was stopped. -/
def stoppedRequest : CertificateRequest :=
  { (sampleRequest "Y3Ny" {}).1 with status := some { conditions := [
    { type := Condition.ready, status := .isFalse, reason := some Reason.pending
      message := some
        "signing failed, will retry: transient CA error: signing timed out after 0h0m30s"
      lastTransitionTime := some ⟨0, 0⟩ }] } }

/-- The authority has said that it carried out the enrollment, and the request is sent again. -/
theorem acknowledged_closed_iff_stopped :
    (∃ call : SigningCall Authority.plainOrder,
      call.AcknowledgedBy 5 ∧ call.answerAfter 5 = none) ∧
    RequestVisit sampleSettings .standard "apps" "web" (stoppedWorld (sampleRequest "Y3Ny" {}).1)
      (sampleRequest "Y3Ny" {}).1 stoppedRequest ∧
    .sign sampleIssuer.spec ⟨[], none⟩ Authority.plainOrder ∈ asked (stoppedWorld stoppedRequest)
      (requestPass sampleSettings .standard "apps" "web") := by
  obtain ⟨call, hacknowledged, hstopped⟩ := exists_stopped_call
  have hasked : .sign sampleIssuer.spec ⟨[], none⟩ Authority.plainOrder ∈
      asked (stoppedWorld (sampleRequest "Y3Ny" {}).1)
        (requestPass sampleSettings .standard "apps" "web") :=
    List.mem_of_getElem? (i := 5) rfl
  have hwrite : .writeRequest (sampleRequest "Y3Ny" {}).1 stoppedRequest.currentStatus
      .resourceVersion ∈ asked (stoppedWorld (sampleRequest "Y3Ny" {}).1)
        (requestPass sampleSettings .standard "apps" "web") :=
    List.mem_of_getElem? (i := 6) rfl
  have hvisit : RequestVisit sampleSettings .standard "apps" "web"
      (stoppedWorld (sampleRequest "Y3Ny" {}).1) (sampleRequest "Y3Ny" {}).1 stoppedRequest :=
    .written rfl hwrite rfl ⟨rfl, _, _, rfl⟩ (.inl rfl)
  have hsupply : SameSupply (stoppedWorld (sampleRequest "Y3Ny" {}).1)
      (stoppedWorld stoppedRequest) := ⟨fun _ => rfl, fun _ => rfl, fun _ _ => rfl⟩
  obtain ⟨-, -, hagain⟩ := acknowledged_closed_iff sampleSettings .standard "apps" "web" call
    hacknowledged hvisit rfl rfl rfl hasked hstopped.symm
  have hopen : stoppedRequest.currentStatus.isTerminal = false := by decide
  exact ⟨⟨call, hacknowledged, hstopped⟩, hvisit, hagain hopen _ hsupply rfl⟩

end CertIssuer.Reconcile
