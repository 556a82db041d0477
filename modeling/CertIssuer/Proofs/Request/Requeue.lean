import CertIssuer.Proofs.Request.Course
import CertIssuer.Proofs.Request.Rehearsal
import CertIssuer.Proofs.Request.SigningGate
import CertIssuer.Proofs.Retry

/-!
# When a request is looked at again

Every exit of a pass chooses a status for the request and a time for the next pass. The two agree:
a pass waits for a change exactly when nothing is left to do before one, and any request that is not
finished is looked at again within the bounds of the retry schedule (`awaits_iff_settled`).
-/

namespace CertIssuer.Reconcile

open Pass

variable {settings : Settings} {scheme : Scheme} {ns name : String} {kind : IssuerKind} {w : Work}
  {heard : List Hearing} {requeue : Requeue} {request : CertificateRequest} {e : Exit}

/-- There is nothing to do for a request before it changes. -/
inductive Settled (settings : Settings) (scheme : Scheme) (ns name : String)
    (heard : List Hearing) : Prop
  | missing : (⟨.request ns name, .ok none⟩ : Hearing) ∈ heard →
      Settled settings scheme ns name heard
  | foreign {request : CertificateRequest} :
      (⟨.request ns name, .ok (some request)⟩ : Hearing) ∈ heard →
      scheme.issuerKind? request.spec.issuerRef.group request.spec.issuerRef.kind = none →
        Settled settings scheme ns name heard
  | terminal {request : CertificateRequest} :
      (⟨.request ns name, .ok (some request)⟩ : Hearing) ∈ heard →
      request.currentStatus.isTerminal = true → Settled settings scheme ns name heard
  | finished {status : RequestStatus} : statusLeft heard = some status →
      status.isTerminal = true → Settled settings scheme ns name heard
  | unapproved {request : CertificateRequest} :
      (⟨.request ns name, .ok (some request)⟩ : Hearing) ∈ heard →
      request.currentStatus.gate settings.checkApproved = .awaitApproval →
        Settled settings scheme ns name heard

/-- The request waits, and is looked at again in time. -/
def Retried (settings : Settings) (heard : List Hearing) (requeue : Requeue) : Prop :=
  ∃ delay status ready, requeue = .after delay ∧ settings.retry.base ≤ delay ∧
    delay ≤ max settings.retry.base settings.retry.maxInterval ∧
    statusLeft heard = some status ∧ status.readyCondition? = some ready ∧
    ready.status = .isFalse ∧
    (ready.reason = some Reason.pending ∨ ready.reason = some Reason.issuerNotReady)

/-! ### Delays -/

/-- A delay of the exit lies within the bounds of the schedule. -/
def Exit.Timely (settings : Settings) (e : Exit) : Prop :=
  ∀ delay, e.requeue = .after delay → ∃ elapsed, delay = settings.retry.requeueAfter elapsed

theorem sought_timely (h : Sought settings kind w heard (.exit w e)) : e.Timely settings := by
  intro delay hdelay
  cases h with
  | awaitApproval | deny | unreadable => cases hdelay
  | noIssuer | notReady | noSecrets | noSigner =>
    cases hdelay
    exact ⟨_, rfl⟩

theorem exitAfter_timely (elapsed : Span) (answer : Except SignerError SignedCertificate) :
    (exitAfter settings elapsed answer).Timely settings := by
  intro delay hdelay
  cases answer with
  | ok signed => cases hdelay
  | error e =>
    cases e with
    | permanent text => cases hdelay
    | transient text | config text =>
      simp only [exitAfter] at hdelay
      split at hdelay
      · cases hdelay
      · cases hdelay
        exact ⟨_, rfl⟩

/-! ### The gate -/

theorem sought_gate (h : Sought settings kind w heard (.exit w e)) :
    e = .awaitApproval ↔ w.status.gate settings.checkApproved = .awaitApproval := by
  cases h with
  | awaitApproval hgate => exact iff_of_true rfl hgate
  | deny hgate | noIssuer hgate | notReady hgate => simp [hgate]
  | noSecrets hclear | unreadable hclear | noSigner hclear => simp [hclear.gate]

theorem exitAfter_ne_awaitApproval (elapsed : Span)
    (answer : Except SignerError SignedCertificate) :
    exitAfter settings elapsed answer ≠ .awaitApproval := by
  intro h
  cases answer with
  | ok signed => cases h
  | error e =>
    cases e with
    | permanent text => cases h
    | transient text | config text =>
      simp only [exitAfter] at h
      split at h <;> cases h

/-! ### What a pass leaves -/

theorem waiting_isTerminal {reason : String} (hw : w.status.certificate = none)
    (hreason : reason ∉ RequestStatus.finalReasons) (message : String) :
    (w.waiting reason message).status.isTerminal = false := by
  have hready := readyReason?_setReady w .isFalse reason message
  simp [RequestStatus.isTerminal, Work.waiting, hready, hw, hreason]

/-! ### Passes -/

/-- The questions after the work has begun and before the exit is taken. -/
def Question.IsBetween (q : Question) : Prop := q.IsSeeking ∨ q.IsSign

theorem between_of_sought {finding : Finding} (h : Sought settings kind w heard finding) :
    ∀ x ∈ heard, x.question.IsBetween :=
  fun x hx => .inl (sought_asks h x hx)

theorem between_of_order {finding : Finding} (h : Sought settings kind w heard finding)
    (spec : IssuerSpec) (secrets : IssuerSecrets) (order : SignOrder)
    (answer : Option (Except SignerError SignedCertificate)) :
    ∀ x ∈ heard ++ [⟨.sign spec secrets order, answer⟩], x.question.IsBetween :=
  List.forall_mem_append.mpr ⟨between_of_sought h, List.forall_mem_singleton.mpr (.inr trivial)⟩

theorem status?_of_between {x : Hearing} (h : x.question.IsBetween) : Hearing.status? x = none := by
  obtain ⟨q, a⟩ := x
  cases q with
  | issuer _ | secret _ | buildSigner _ _ | sign _ _ _ => rfl
  | _ => rcases h with h | h <;> exact h.elim

/-- What is known of a pass that has taken an exit. -/
structure Took (settings : Settings) (scheme : Scheme) (ns name : String) (heard : List Hearing)
    (request : CertificateRequest) (now : Timestamp) (e : Exit) : Prop where
  read : ∀ a, (⟨.request ns name, a⟩ : Hearing) ∈ heard ↔ a = .ok (some request)
  ours : issuerKindOf? scheme request ≠ none
  pending : request.currentStatus.isTerminal = false
  gate : e = .awaitApproval ↔
    request.currentStatus.gate settings.checkApproved = .awaitApproval
  left : statusLeft heard = some (e.work (.start request now)).status
  timely : e.Timely settings

section Took

variable {now : Timestamp} {before closing : List Hearing}

theorem statusLeft_of_take (hbefore : ∀ x ∈ before, x.question.IsBetween)
    (h : (e.take (.start request now)).Goes closing (.ok requeue)) :
    statusLeft (⟨.request ns name, .ok (some request)⟩ :: ⟨.now, now⟩ :: (before ++ closing)) =
      some (e.work (.start request now)).status := by
  have hnone : before.filterMap Hearing.status? = [] :=
    List.filterMap_eq_nil_iff.mpr fun x hx => status?_of_between (hbefore x hx)
  show (request.currentStatus :: (before ++ closing).filterMap Hearing.status?).getLast? = _
  rw [List.filterMap_append, hnone, List.nil_append]
  rcases (goes_take h).2 with hwritten | ⟨hunwritten, hsame⟩
  · rw [hwritten]
    rfl
  · rw [hunwritten, hsame, start_request]
    rfl

theorem read_of_take {a : Except ControllerError (Option CertificateRequest)}
    (hbefore : ∀ x ∈ before, x.question.IsBetween) (h : (e.take w).Goes closing (.ok requeue))
    (ha : (⟨.request ns name, a⟩ : Hearing) ∈ (⟨.request ns name, .ok (some request)⟩ ::
      ⟨.now, now⟩ :: (before ++ closing) : List Hearing)) : a = .ok (some request) := by
  rcases List.mem_cons.mp ha with heq | ha
  · injection heq with _ hanswer
  rcases List.mem_cons.mp ha with heq | ha
  · cases heq
  rcases List.mem_append.mp ha with ha | ha
  · rcases hbefore _ ha with h | h <;> exact h.elim
  · exact ((take_within e w).goes h _ ha).elim

theorem took_of_take (hkind : issuerKindOf? scheme request = some kind)
    (hpending : request.currentStatus.isTerminal = false)
    (hgate : e = .awaitApproval ↔
      (Work.start request now).status.gate settings.checkApproved = .awaitApproval)
    (htimely : e.Timely settings) (hbefore : ∀ x ∈ before, x.question.IsBetween)
    (h : (e.take (.start request now)).Goes closing (.ok requeue)) :
    Took settings scheme ns name
      (⟨.request ns name, .ok (some request)⟩ :: ⟨.now, now⟩ :: (before ++ closing))
      request now e where
  read a := by
    refine ⟨read_of_take hbefore h, ?_⟩
    rintro rfl
    exact List.mem_cons_self
  ours := by simp [hkind]
  pending := hpending
  gate := by rw [hgate, gate_start]
  left := statusLeft_of_take hbefore h
  timely := htimely

end Took

/-- A pass that ends well has nothing to do, or has taken an exit. -/
theorem took_of_course (h : RequestCourse settings scheme ns name heard requeue) :
    Settled settings scheme ns name heard ∧ requeue = .awaitChange ∨
      ∃ request now e, Took settings scheme ns name heard request now e ∧
        requeue = e.requeue := by
  cases h with
  | missing => exact .inl ⟨.missing (by simp), rfl⟩
  | foreign hkind => exact .inl ⟨.foreign (by simp) hkind, rfl⟩
  | terminal hterminal => exact .inl ⟨.terminal (by simp) hterminal, rfl⟩
  | @exit request kind now e seeking closing _ hkind hpending hsought hclosing =>
    exact .inr ⟨request, now, e, took_of_take hkind hpending (sought_gate hsought)
      (sought_timely hsought) (between_of_sought hsought) hclosing, (goes_take hclosing).1⟩
  | @sign request kind now issuer secrets order answer seeking closing _ hkind hpending hsought
      hclosing =>
    have hgate : (Work.start request now).status.gate settings.checkApproved ≠ .awaitApproval := by
      simp [(clear_of_order hsought).gate]
    have htook : Took settings scheme ns name _ request now _ := took_of_take hkind hpending
      (iff_of_false (exitAfter_ne_awaitApproval _ _) hgate) (exitAfter_timely _ _)
      (between_of_order hsought issuer.spec secrets order answer) hclosing
    rw [List.append_assoc] at htook
    exact .inr ⟨request, now, _, htook, (goes_take hclosing).1⟩

theorem Took.not_settled {now : Timestamp}
    (h : Took settings scheme ns name heard request now e) (he : e ≠ .awaitApproval)
    (hleft : (e.work (.start request now)).status.isTerminal = false) :
    ¬ Settled settings scheme ns name heard := by
  rintro (hmissing | ⟨hread, hforeign⟩ | ⟨hread, hterminal⟩ | ⟨hstatus, hterminal⟩ |
    ⟨hread, hgate⟩)
  · cases (h.read _).mp hmissing
  · cases (h.read _).mp hread
    exact h.ours hforeign
  · cases (h.read _).mp hread
    exact absurd (hterminal.symm.trans h.pending) nofun
  · cases h.left.symm.trans hstatus
    exact absurd (hterminal.symm.trans hleft) nofun
  · cases (h.read _).mp hread
    exact he (h.gate.mpr hgate)

/-- Not settled, and the reason of `Ready` says what is waited for. -/
theorem Took.waits {now : Timestamp} {reason message : String} {delay : Span}
    (h : Took settings scheme ns name heard request now e)
    (hwork : e.work (.start request now) = (Work.start request now).waiting reason message)
    (hrequeue : e.requeue = .after delay)
    (hreason : reason = Reason.pending ∨ reason = Reason.issuerNotReady) :
    ¬ Settled settings scheme ns name heard ∧ Retried settings heard e.requeue := by
  have hcertificate : (Work.start request now).status.certificate = none := by
    rw [start_certificate, RequestStatus.certificate_eq_none h.pending]
  have hnotFinal : reason ∉ RequestStatus.finalReasons := by
    rcases hreason with rfl | rfl <;> decide
  have hopen : (e.work (.start request now)).status.isTerminal = false := by
    rw [hwork]
    exact waiting_isTerminal hcertificate hnotFinal message
  constructor
  · refine h.not_settled ?_ hopen
    rintro rfl
    cases hrequeue
  · obtain ⟨elapsed, rfl⟩ := h.timely delay hrequeue
    obtain ⟨hlow, hhigh⟩ := settings.retry.requeueAfter_bounds elapsed
    have hready : (e.work (.start request now)).status.readyCondition? =
        some (readyEntry (.start request now) .isFalse reason message) := by
      rw [hwork]
      exact readyCondition?_setReady _ _ _ _
    refine ⟨_, _, _, hrequeue, hlow, hhigh, h.left, hready, rfl, ?_⟩
    rcases hreason with rfl | rfl
    · exact .inl rfl
    · exact .inr rfl

theorem Took.ends {now : Timestamp} (h : Took settings scheme ns name heard request now e)
    (he : e.IsFinal) : Settled settings scheme ns name heard := by
  obtain ⟨reason, hreason, he⟩ := he
  exact .finished h.left (RequestStatus.isTerminal_of_reason (work_readyReason? he _) hreason)

/-- A pass that ends well waits for a change exactly when the request is settled, and otherwise the
request is looked at again in time. -/
theorem awaits_iff_settled (settings : Settings) (scheme : Scheme) (ns name : String)
    {heard : List Hearing} {requeue : Requeue}
    (h : (requestPass settings scheme ns name).Goes heard (.ok requeue)) :
    (requeue = .awaitChange ↔ Settled settings scheme ns name heard) ∧
      (¬ Settled settings scheme ns name heard → Retried settings heard requeue) := by
  rcases took_of_course (requestCourse_of_goes h) with
    ⟨hsettled, rfl⟩ | ⟨request, now, e, htook, rfl⟩
  · exact ⟨iff_of_true rfl hsettled, fun hnot => absurd hsettled hnot⟩
  have hstops : e.requeue = .awaitChange → Settled settings scheme ns name heard →
      (e.requeue = .awaitChange ↔ Settled settings scheme ns name heard) ∧
        (¬ Settled settings scheme ns name heard → Retried settings heard e.requeue) :=
    fun hrequeue hsettled => ⟨iff_of_true hrequeue hsettled, fun hnot => absurd hsettled hnot⟩
  cases e with
  | awaitApproval => exact hstops rfl (.unapproved ((htook.read _).mpr rfl) (htook.gate.mp rfl))
  | deny => exact hstops rfl (htook.ends ⟨Reason.denied, by decide, rfl⟩)
  | fail message p => exact hstops rfl (htook.ends ⟨Reason.failed, by decide, rfl⟩)
  | issue signed => exact hstops rfl (htook.ends ⟨Reason.issued, by decide, rfl⟩)
  | awaitIssuer message delay =>
    obtain ⟨hnot, hretried⟩ := htook.waits rfl rfl (.inr rfl)
    exact ⟨iff_of_false nofun hnot, fun _ => hretried⟩
  | retry message delay =>
    obtain ⟨hnot, hretried⟩ := htook.waits rfl rfl (.inl rfl)
    exact ⟨iff_of_false nofun hnot, fun _ => hretried⟩

/-- A world in which the authority is out of order. -/
def brokenWorld : (q : Question) → q.Answer
  | .request _ _ => .ok (some (sampleRequest "Y3Ny" {}).1)
  | q => sampleWorld (.error (.transient "out of order")) q

theorem awaits_iff_settled_broken :
    ∃ heard, Retried sampleSettings heard (.after (.ofSeconds 5)) ∧
      ¬ Settled sampleSettings .standard "apps" "web" heard := by
  have hresult : result brokenWorld (requestPass sampleSettings .standard "apps" "web") =
      .ok (.after (.ofSeconds 5)) := by rfl
  have hgoes := goes_heardIn brokenWorld (requestPass sampleSettings .standard "apps" "web")
  rw [hresult] at hgoes
  obtain ⟨hiff, hretried⟩ := awaits_iff_settled sampleSettings .standard "apps" "web" hgoes
  have hnot : ¬ Settled sampleSettings .standard "apps" "web" _ :=
    fun hsettled => nomatch hiff.mpr hsettled
  exact ⟨_, hretried hnot, hnot⟩

end CertIssuer.Reconcile
