import CertIssuer.Proofs.Request.Course
import CertIssuer.Proofs.Request.SigningGate
import CertIssuer.Proofs.Visits

/-!
# Requests that come to rest

A pass that does not have its request signed leaves a status that the next pass finds right. What
it decides hangs on the request, the issuer and the secrets, and on whether a signer can be built;
the clock goes into the delay before the next pass, and into the times of a status when they are
first set.
-/

namespace CertIssuer.Reconcile

open Pass

/-- Two worlds show the same issuers and secrets, and build the same signers. -/
structure SameSupply (world world' : (q : Question) → q.Answer) : Prop where
  issuer (key : IssuerKey) : world' (.issuer key) = world (.issuer key)
  secret (k : Secret.Key) : world' (.secret k) = world (.secret k)
  signer (spec : IssuerSpec) (secrets : IssuerSecrets) :
    world' (.buildSigner spec secrets) = world (.buildSigner spec secrets)

/-! ### The same finding at another time -/

namespace Exit

/-- The exit with another delay. -/
def delayed (delay : Span) : Exit → Exit
  | awaitIssuer message _ => .awaitIssuer message delay
  | retry message _ => .retry message delay
  | e => e

theorem work_delayed (e : Exit) (delay : Span) (x : Work) :
    (e.delayed delay).work x = e.work x := by
  cases e <;> rfl

theorem isIssue_delayed (e : Exit) (delay : Span) : (e.delayed delay).isIssue = e.isIssue := by
  cases e <;> rfl

end Exit

/-- The finding of other work that is looked at again after another delay. -/
def Finding.renewed (w : Work) (delay : Span) : Finding → Finding
  | idle => idle
  | exit _ e => exit w (e.delayed delay)
  | order _ issuer secrets o => order w issuer secrets o

/-- Work on the same request, of which the gate says the same. -/
structure Work.Resumes (settings : Settings) (w w' : Work) : Prop where
  request : w.request.Restated w'.request
  gate : w'.status.gate settings.checkApproved = w.status.gate settings.checkApproved

namespace Work.Resumes

variable {settings : Settings} {w w' : Work}

theorem issuerKey (h : w.Resumes settings w') (kind : IssuerKind) :
    w'.issuerKey kind = w.issuerKey kind := by
  simp only [Work.issuerKey, h.request.spec, h.request.namespace_eq]

theorem order? (h : w.Resumes settings w') : w'.order? = w.order? := by
  simp only [Work.order?, h.request.spec, h.request.annotations_eq]

end Work.Resumes

theorem loadSecrets_congr {world world' : (q : Question) → q.Answer} {settings : Settings}
    {issuer issuer' : Issuer} (hsecret : ∀ k, world' (.secret k) = world (.secret k))
    (hns : secretNamespace settings issuer' = secretNamespace settings issuer)
    (hspec : issuer'.spec = issuer.spec) :
    result world' (loadSecrets settings issuer') = result world (loadSecrets settings issuer) := by
  have hload : loadSecrets settings issuer' = loadSecrets settings issuer := by
    simp only [loadSecrets, hns, hspec]
  rw [hload]
  have hlooks : Within (fun q => ∃ k, q = .secret k) (fun _ => True)
      (loadSecrets settings issuer) := loadSecrets_asks fun ns name _ _ => ⟨⟨ns, name⟩, rfl⟩
  refine (Dialogue.asked_congr fun q hq => ?_).2
  obtain ⟨k, rfl⟩ := hlooks.asked world q hq
  exact hsecret k

section Again

variable {world world' : (q : Question) → q.Answer} (hsupply : SameSupply world world')
  {settings : Settings} {w w' : Work}

include hsupply

theorem seekSigner_again (issuer : Issuer) (secrets : IssuerSecrets) (order : SignOrder)
    (backoff backoff' : Span) :
    result world' (w'.seekSigner issuer secrets order backoff') =
      (result world (w.seekSigner issuer secrets order backoff)).map
        (Finding.renewed w' backoff') := by
  simp only [Work.seekSigner, result_bind, result_ask, hsupply.signer]
  cases world (.buildSigner issuer.spec secrets) with
  | error e => rfl
  | ok u => rfl

variable (hresumes : w.Resumes settings w')

include hresumes

theorem seekSecrets_again (issuer : Issuer) (backoff backoff' : Span) :
    result world' (w'.seekSecrets settings issuer backoff') =
      (result world (w.seekSecrets settings issuer backoff)).map
        (Finding.renewed w' backoff') := by
  have hload : result world' (loadSecrets settings issuer) =
      result world (loadSecrets settings issuer) := loadSecrets_congr hsupply.secret rfl rfl
  simp only [Work.seekSecrets, result_bind, hload]
  cases result world (loadSecrets settings issuer) with
  | error e => rfl
  | ok loaded =>
    cases loaded with
    | error e => rfl
    | ok secrets =>
      simp only [hresumes.order?]
      cases w.order? with
      | error text => rfl
      | ok order => exact seekSigner_again hsupply issuer secrets order backoff backoff'

theorem seekIssuer_again (kind : IssuerKind) :
    result world' (w'.seekIssuer settings kind) =
      (result world (w.seekIssuer settings kind)).map
        (Finding.renewed w' (w'.patience settings)) := by
  simp only [Work.seekIssuer, result_bind, result_getIssuer, hresumes.issuerKey, hsupply.issuer]
  cases world (.issuer (w.issuerKey kind)) with
  | error e => rfl
  | ok found =>
    cases found with
    | none =>
      simp only [hresumes.request.spec]
      rfl
    | some issuer =>
      by_cases hready : issuer.status.isReady = true
      · simp only [hready, if_true]
        exact seekSecrets_again hsupply hresumes issuer _ _
      · simp only [hready]
        rfl

/-- Looking around again comes to the same, but for the delay. -/
theorem seekApproval_again (kind : IssuerKind) :
    result world' (w'.seekApproval settings kind) =
      (result world (w.seekApproval settings kind)).map
        (Finding.renewed w' (w'.patience settings)) := by
  simp only [Work.seekApproval, hresumes.gate]
  cases w.status.gate settings.checkApproved with
  | proceed => exact seekIssuer_again hsupply hresumes kind
  | awaitApproval => rfl
  | denied => rfl

end Again

/-! ### The status that is left -/

theorem start_of_ready {r : CertificateRequest} (h : r.currentStatus.readyCondition?.isSome)
    (now : Timestamp) : Work.start r now = ⟨r, r.currentStatus, now⟩ := by
  have hsome : ¬ r.currentStatus.readyCondition?.isNone := by
    simpa [Option.isNone_iff_eq_none, Option.isSome_iff_ne_none] using h
  exact if_neg hsome

theorem gate_work (e : Exit) (x : Work) (check : Bool) :
    (e.work x).status.gate check = x.status.gate check := by
  cases e with
  | awaitApproval => rfl
  | issue signed => exact gate_setReady _ _ _ _ check
  | deny | fail _ _ => exact gate_setReady x _ _ _ check
  | awaitIssuer _ _ | retry _ _ => exact gate_setReady x _ _ _ check

/-- An exit that does not end the request finds right what it has left, at any time. -/
theorem work_again {e : Exit} (he : ¬ e.IsFinal) {x x' : Work}
    (hstatus : x'.status = (e.work x).status)
    (hgeneration : x'.request.metadata.generation = x.request.metadata.generation) :
    (e.work x').status = x'.status := by
  have hwaiting : ∀ reason message, x'.status = (x.waiting reason message).status →
      (x'.waiting reason message).status = x'.status := by
    intro reason message hwait
    have hconditions : x'.status.conditions = (x.status.conditions.set Condition.ready .isFalse
        reason message x.request.metadata.generation x.now).2 := by
      rw [hwait]
      rfl
    have hset : (x'.status.conditions.set Condition.ready .isFalse reason message
        x'.request.metadata.generation x'.now).2 = x'.status.conditions := by
      rw [hgeneration, hconditions, Conditions.set_again]
    simp only [Work.waiting, Work.setReady, hset]
  cases e with
  | awaitApproval => rfl
  | awaitIssuer message delay => exact hwaiting _ _ hstatus
  | retry message delay => exact hwaiting _ _ hstatus
  | deny => exact absurd ⟨Reason.denied, by decide, rfl⟩ he
  | fail message p => exact absurd ⟨Reason.failed, by decide, rfl⟩ he
  | issue signed => exact absurd ⟨Reason.issued, by decide, rfl⟩ he

section Patched

variable {r : CertificateRequest} {x : Work} (hx : x.IsStartOf r)

include hx

/-- Merged or not, what an exit writes that is not the issuing one is what is stored. -/
theorem Work.IsStartOf.patched_eq {e : Exit} (he : e.isIssue = false) {new : RequestStatus}
    (h : r.currentStatus.Patched (e.work x).status new) : new = (e.work x).status := by
  rcases h with rfl | rfl
  · rfl
  · have hcertificate := RequestStatus.certificate_eq_none hx.1
    rw [merge_eq_patch_iff (hx.conditions_ne_nil e) hcertificate]
    exact ⟨ca_of_work hx he, failureTime_of_work hx he⟩

end Patched

/-- The next work on a request goes on from what an exit has left. -/
theorem resumes_of_left {settings : Settings} {r r' : CertificateRequest} {now now' : Timestamp}
    {e : Exit} (hrestated : r.Restated r')
    (hleft : r'.currentStatus = (e.work (.start r now)).status) :
    (Work.start r now).Resumes settings (Work.start r' now') where
  request := by
    rw [start_request, start_request]
    exact hrestated
  gate := by rw [gate_start, hleft, gate_work]

/-! ### Passes -/

section Pass

variable {settings : Settings} {scheme : Scheme} {ns name : String}
  {world : (q : Question) → q.Answer} {r : CertificateRequest} {requeue : Requeue}

/-- What is no look is asked in acting on what the survey has found. -/
theorem acted_of_asked {q : Question} (h : q ∈ asked world (requestPass settings scheme ns name))
    (hq : ¬ q.IsLook) :
    ∃ finding, result world (survey settings scheme ns name) = .ok finding ∧
      q ∈ asked world (act settings finding) := by
  rw [requestPass_eq, mem_asked_bind] at h
  rcases h with hlook | hacted
  · exact absurd ((survey_within settings scheme ns name).asked world q hlook) hq
  · exact hacted

theorem result_survey (hfound : world (.request ns name) = .ok (some r)) :
    result world (survey settings scheme ns name) =
      result world (surveyOf settings scheme (some r)) := by
  rw [survey, result_bind, result_getRequest, hfound]

theorem result_surveyOf {kind : IssuerKind} (hkind : issuerKindOf? scheme r = some kind)
    (hopen : r.currentStatus.isTerminal = false) :
    result world (surveyOf settings scheme (some r)) =
      result world ((Work.start r (clock world)).seekApproval settings kind) := by
  simp only [surveyOf, hkind, hopen, Bool.false_eq_true, if_false]
  rfl

/-- There is nothing to write: the pass has no work, or it comes to the status that is stored. -/
def AtRest (settings : Settings) (scheme : Scheme) (world : (q : Question) → q.Answer)
    (r : CertificateRequest) : Prop :=
  ∀ kind, issuerKindOf? scheme r = some kind → r.currentStatus.isTerminal = false →
    ∃ e : Exit, e.isIssue = false ∧
      result world ((Work.start r (clock world)).seekApproval settings kind) =
        .ok (.exit (Work.start r (clock world)) e) ∧
      (e.work (Work.start r (clock world))).status = r.currentStatus

theorem asked_take_of_same {e : Exit} {x : Work} (he : e.isIssue = false)
    (hsame : (e.work x).status = x.request.currentStatus) : asked world (e.take x) = [] := by
  have hwrite : (e.work x).write e.precondition = pure () := by
    unfold Work.write
    rw [work_request]
    exact if_pos hsame
  rw [Exit.take, hwrite, he]
  rfl

theorem AtRest.looks (h : AtRest settings scheme world r)
    (hfound : world (.request ns name) = .ok (some r)) :
    ∀ q ∈ asked world (requestPass settings scheme ns name), q.IsLook := by
  intro q hq
  by_contra hlook
  obtain ⟨finding, hfinding, hq⟩ := acted_of_asked hq hlook
  rw [result_survey hfound] at hfinding
  cases hkind : issuerKindOf? scheme r with
  | none =>
    simp only [surveyOf, hkind] at hfinding
    cases hfinding
    cases hq
  | some kind =>
    cases hopen : r.currentStatus.isTerminal with
    | true =>
      simp only [surveyOf, hkind, hopen, if_true] at hfinding
      cases hfinding
      cases hq
    | false =>
      obtain ⟨e, he, hexit, hsame⟩ := h kind hkind hopen
      rw [result_surveyOf hkind hopen, hexit] at hfinding
      cases hfinding
      have hnone : asked world (e.take (Work.start r (clock world))) = [] :=
        asked_take_of_same he (by rw [hsame, start_request])
      rw [act, hnone] at hq
      cases hq

/-- A pass that ends well has had its write accepted, if there was anything to write. -/
theorem write_of_take_ok {e : Exit} {x : Work} (h : result world (e.take x) = .ok requeue) :
    (e.work x).status = x.request.currentStatus ∨
      .writeRequest x.request (e.work x).status e.precondition ∈ asked world (e.take x) ∧
        world (.writeRequest x.request (e.work x).status e.precondition) = .ok () := by
  by_cases hsame : (e.work x).status = x.request.currentStatus
  · exact .inl hsame
  have hwrite : (e.work x).write e.precondition =
      Pass.writeRequest x.request (e.work x).status e.precondition := by
    unfold Work.write
    rw [work_request]
    exact if_neg hsame
  rw [Exit.take, hwrite] at h ⊢
  obtain ⟨u, haccepted, -⟩ := (result_bind_eq_ok world).mp h
  refine .inr ⟨?_, haccepted⟩
  exact (mem_asked_bind world).mpr (.inl List.mem_cons_self)

/-- A pass that ends well without the signer has taken an exit, if it had any work. -/
theorem exit_of_ok (hfound : world (.request ns name) = .ok (some r))
    (h : result world (requestPass settings scheme ns name) = .ok requeue)
    (hsilent : ∀ q ∈ asked world (requestPass settings scheme ns name), ¬ q.IsSign)
    {kind : IssuerKind} (hkind : issuerKindOf? scheme r = some kind)
    (hopen : r.currentStatus.isTerminal = false) :
    ∃ e : Exit, e.IsEarly ∧
      result world ((Work.start r (clock world)).seekApproval settings kind) =
        .ok (.exit (Work.start r (clock world)) e) ∧
      result world (e.take (Work.start r (clock world))) = .ok requeue := by
  rw [requestPass_eq] at h hsilent
  obtain ⟨finding, hfinding, hact⟩ := (result_bind_eq_ok world).mp h
  have hsought : result world ((Work.start r (clock world)).seekApproval settings kind) =
      .ok finding := by
    rw [← hfinding, result_survey hfound, result_surveyOf hkind hopen]
  have hby : finding.IsBy (Work.start r (clock world)) :=
    (seekApproval_within _ settings kind).result world hsought
  cases finding with
  | idle => exact hby.elim
  | exit w e =>
    obtain ⟨rfl, he⟩ := hby
    exact ⟨e, he, hsought, hact⟩
  | order w issuer secrets order =>
    have hasked : .sign issuer.spec secrets order ∈
        asked world (survey settings scheme ns name >>= act settings) :=
      (mem_asked_bind world).mpr (.inr ⟨_, hfinding, List.mem_cons_self⟩)
    exact absurd trivial (hsilent _ hasked)

variable {r' : CertificateRequest}

/-- A visit that ends well leaves the status of the exit that its pass has taken. -/
theorem patched_of_visit (hvisit : RequestVisit settings scheme ns name world r r')
    {finding : Finding} (hfinding : result world (survey settings scheme ns name) = .ok finding)
    {e : Exit} {x : Work} (hx : x.request = r) (htook : result world (e.take x) = .ok requeue)
    (hwrites : ∀ q : Question, q.IsWrite →
      (q ∈ asked world (act settings finding) ↔ q ∈ asked world (e.take x))) :
    r.currentStatus.Patched (e.work x).status r'.currentStatus := by
  cases hvisit with
  | kept _ hrefused =>
    rcases write_of_take_ok htook with hsame | ⟨hwrite, haccepted⟩
    · rw [hsame, hx]
      exact .inl rfl
    · rw [hx] at hwrite haccepted
      refine absurd haccepted (hrefused _ e.precondition ?_)
      rw [requestPass_eq, mem_asked_bind]
      exact .inr ⟨_, hfinding, (hwrites (.writeRequest r _ _) trivial).mpr hwrite⟩
  | @written status p _ _ hwrite _ _ hpatched =>
    obtain ⟨_, hsame, hwrite⟩ := acted_of_asked hwrite id
    cases hfinding.symm.trans hsame
    have hwritten := write_of_take ((hwrites (.writeRequest r status p) trivial).mp hwrite) trivial
    rw [hx] at hwritten
    cases hwritten
    exact hpatched

theorem eq_of_terminal (hvisit : RequestVisit settings scheme ns name world r r')
    (hterminal : r.currentStatus.isTerminal = true) : r' = r := by
  cases hvisit with
  | kept _ _ => rfl
  | written hfound hwrite _ _ _ =>
    obtain ⟨⟨hopen, -⟩, -⟩ := write_of_requestPass rfl hfound hwrite trivial
    rw [hterminal] at hopen
    cases hopen

theorem eq_of_looks (hvisit : RequestVisit settings scheme ns name world r r')
    (hlooks : ∀ q ∈ asked world (requestPass settings scheme ns name), q.IsLook) : r' = r := by
  cases hvisit with
  | kept _ _ => rfl
  | written _ hwrite _ _ _ => exact (hlooks _ hwrite).elim

/-- A visit that ends well without the signer leaves the request at rest, for as long as there are
the same issuers and secrets. -/
theorem atRest_of_visit (hvisit : RequestVisit settings scheme ns name world r r')
    (h : result world (requestPass settings scheme ns name) = .ok requeue)
    (hsilent : ∀ q ∈ asked world (requestPass settings scheme ns name), ¬ q.IsSign)
    {world' : (q : Question) → q.Answer} (hsupply : SameSupply world world') :
    AtRest settings scheme world' r' := by
  intro kind hkind' hopen'
  have hrestated := hvisit.restated
  have hkind : issuerKindOf? scheme r = some kind := (hrestated.kind_eq scheme).symm.trans hkind'
  have hopen : r.currentStatus.isTerminal = false := by
    cases hterminal : r.currentStatus.isTerminal with
    | false => rfl
    | true =>
      rw [eq_of_terminal hvisit hterminal, hterminal] at hopen'
      cases hopen'
  obtain ⟨e, he, hsought, htook⟩ := exit_of_ok hvisit.found h hsilent hkind hopen
  have hstart : (Work.start r (clock world)).IsStartOf r := ⟨hopen, _, rfl⟩
  have hsurvey : result world (survey settings scheme ns name) =
      .ok (.exit (Work.start r (clock world)) e) := by
    rw [result_survey hvisit.found, result_surveyOf hkind hopen, hsought]
  have hleft : r'.currentStatus = (e.work (Work.start r (clock world))).status :=
    hstart.patched_eq he.1
      (patched_of_visit hvisit hsurvey (start_request r _) htook fun _ _ => Iff.rfl)
  have hcontinues : ¬ e.IsFinal := by
    rintro ⟨reason, hreason, hexit⟩
    have hwork := work_readyReason? hexit (Work.start r (clock world))
    rw [← hleft] at hwork
    exact RequestStatus.readyReason?_ne_final hopen' hreason hwork
  have hstart' : Work.start r' (clock world') = ⟨r', r'.currentStatus, clock world'⟩ :=
    start_of_ready (by rw [hleft]; exact work_ready (start_ready r _) e) _
  have hresumes : (Work.start r (clock world)).Resumes settings (Work.start r' (clock world')) :=
    resumes_of_left hrestated hleft
  have hagain := seekApproval_again hsupply hresumes kind
  rw [hsought] at hagain
  refine ⟨_, (e.isIssue_delayed _).trans he.1, hagain, ?_⟩
  rw [Exit.work_delayed]
  have hstatus : (Work.start r' (clock world')).status = r'.currentStatus := by rw [hstart']
  rw [← hstatus]
  refine work_again hcontinues (hstatus.trans hleft) ?_
  rw [start_request, start_request, hrestated.generation_eq]

/-- A request at rest stays as it is through any visits. -/
theorem visits_at_rest {worlds : List ((q : Question) → q.Answer)} {r'' : CertificateRequest}
    (hvisits : Visits (RequestVisit settings scheme ns name) worlds r r'')
    (hrest : ∀ world ∈ worlds, AtRest settings scheme world r) :
    r'' = r ∧ ∀ world ∈ worlds,
      ∀ q ∈ asked world (requestPass settings scheme ns name), q.IsLook := by
  refine hvisits.keeps (· = r) _ (fun world hworld a b ha hvisit => ?_) rfl
  subst ha
  have hlooks := (hrest world hworld).looks hvisit.found
  exact ⟨hlooks, eq_of_looks hvisit hlooks⟩

end Pass

end CertIssuer.Reconcile
