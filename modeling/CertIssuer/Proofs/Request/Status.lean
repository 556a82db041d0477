import CertIssuer.Proofs.Conditions
import CertIssuer.Proofs.Request.Survey

/-!
# The status that an exit leaves

What each exit of a pass makes of the status that was read: which `Ready` it has, what becomes of
the certificates, and what is stored when the status is written, be it that the written status
replaces the stored one or that it is merged into it.
-/

namespace CertIssuer

namespace RequestStatus

/-! ### Patches -/

/-- The status after a merge patch: what the patch leaves out stays. -/
def merge (old patch : RequestStatus) : RequestStatus where
  conditions := if patch.conditions.isEmpty then old.conditions else patch.conditions
  certificate := patch.certificate.or old.certificate
  ca := patch.ca.or old.ca
  failureTime := patch.failureTime.or old.failureTime

/-- A status gives way to a patch, wholly or in what the patch names. -/
def Patched (old patch new : RequestStatus) : Prop := new = patch ∨ new = old.merge patch

section Patched

variable {old patch new : RequestStatus} (h : old.Patched patch new)

include h

theorem Patched.conditions (hpatch : patch.conditions ≠ []) :
    new.conditions = patch.conditions := by
  rcases h with rfl | rfl
  · rfl
  · simp [merge, hpatch]

theorem Patched.certificate (hold : old.certificate = none) :
    new.certificate = patch.certificate := by
  rcases h with rfl | rfl
  · rfl
  · simp [merge, hold]

theorem Patched.ca (hpatch : patch.ca = old.ca) : new.ca = old.ca := by
  rcases h with rfl | rfl
  · exact hpatch
  · simp [merge, hpatch]

theorem Patched.eq (hpatch : patch.conditions ≠ []) (hcertificate : old.certificate = none)
    (hca : old.ca = none) (hfailure : old.failureTime = none) : new = patch := by
  rcases h with rfl | rfl
  · rfl
  · simp [merge, hpatch, hcertificate, hca, hfailure]

end Patched

theorem conditions_ne_nil {s : RequestStatus} (h : s.readyCondition?.isSome) :
    s.conditions ≠ [] := by
  intro hnil
  simp [readyCondition?, hnil, Conditions.get?] at h

theorem certificate_eq_none {s : RequestStatus} (h : s.isTerminal = false) :
    s.certificate = none := by
  simp only [isTerminal, Bool.or_eq_false_iff] at h
  simpa using h.1

theorem isTerminal_of_reason {s : RequestStatus} {reason : String}
    (h : s.readyReason? = some reason) (hreason : reason ∈ finalReasons) : s.isTerminal = true := by
  simp [isTerminal, h, hreason]

theorem readyReason?_ne_final {s : RequestStatus} {reason : String} (h : s.isTerminal = false)
    (hreason : reason ∈ finalReasons) : s.readyReason? ≠ some reason := by
  intro hs
  rw [isTerminal_of_reason hs hreason] at h
  cases h

/-! ### Certificates that stay -/

/-- The certificates are the same, or there was none and now there is one. -/
def Extends (old new : RequestStatus) : Prop :=
  new.certificate = old.certificate ∧ new.ca = old.ca ∨
    old.certificate = none ∧ new.certificate.isSome

namespace Extends

variable {s t u : RequestStatus}

theorem refl (s : RequestStatus) : Extends s s := .inl ⟨rfl, rfl⟩

theorem of_own (h : t.own = s.own) : Extends s t := .inl ⟨certificate_congr h, ca_congr h⟩

theorem trans (hst : Extends s t) (htu : Extends t u) : Extends s u := by
  rcases hst with ⟨hcertificate, hca⟩ | ⟨hnone, hsome⟩
  · rcases htu with ⟨hcertificate', hca'⟩ | ⟨hnone', hsome'⟩
    · exact .inl ⟨hcertificate'.trans hcertificate, hca'.trans hca⟩
    · exact .inr ⟨hcertificate ▸ hnone', hsome'⟩
  · rcases htu with ⟨hcertificate', -⟩ | ⟨-, hsome'⟩
    · exact .inr ⟨hnone, hcertificate' ▸ hsome⟩
    · exact .inr ⟨hnone, hsome'⟩

theorem eq_of_isSome (h : Extends s t) (hs : s.certificate.isSome) :
    t.certificate = s.certificate ∧ t.ca = s.ca := by
  rcases h with hsame | ⟨hnone, -⟩
  · exact hsame
  · simp [hnone] at hs

theorem ca_eq_of_none (h : Extends s t) (ht : t.certificate = none) : t.ca = s.ca := by
  rcases h with ⟨-, hca⟩ | ⟨-, hsome⟩
  · exact hca
  · simp [ht] at hsome

/-- An authority that came with a certificate stays with it. -/
theorem isSome_of_ca (h : Extends s t) (hs : s.ca.isSome → s.certificate.isSome)
    (ht : t.ca.isSome) : t.certificate.isSome := by
  rcases h with ⟨hcertificate, hca⟩ | ⟨-, hsome⟩
  · rw [hcertificate]
    exact hs (hca ▸ ht)
  · exact hsome

end Extends

end RequestStatus

namespace Reconcile

open RequestStatus

/-! ### Setting `Ready` -/

section SetReady

variable (x : Work) (status : ConditionStatus) (reason message : String)

@[simp] theorem setReady_certificate :
    (x.setReady status reason message).status.certificate = x.status.certificate := rfl

@[simp] theorem setReady_ca : (x.setReady status reason message).status.ca = x.status.ca := rfl

@[simp] theorem setReady_failureTime :
    (x.setReady status reason message).status.failureTime = x.status.failureTime := rfl

def readyEntry : Condition :=
  Conditions.entry x.status.conditions Condition.ready status reason message
    x.request.metadata.generation x.now

theorem filter_setReady :
    (x.setReady status reason message).status.conditions.filter (·.type = Condition.ready) =
      [readyEntry x status reason message] :=
  Conditions.filter_set_self _ _ _ _ _ _ _

theorem readyCondition?_setReady :
    (x.setReady status reason message).status.readyCondition? =
      some (readyEntry x status reason message) :=
  Conditions.get?_set_self _ _ _ _ _ _ _

@[simp] theorem readyReason?_setReady :
    (x.setReady status reason message).status.readyReason? = some reason := by
  rw [readyReason?, readyCondition?_setReady]
  rfl

end SetReady

/-! ### The start of the work -/

section Start

variable (r : CertificateRequest) (now : Timestamp)

theorem start_certificate :
    (Work.start r now).status.certificate = r.currentStatus.certificate := by
  simp only [Work.start]
  split <;> rfl

theorem start_ca : (Work.start r now).status.ca = r.currentStatus.ca := by
  simp only [Work.start]
  split <;> rfl

theorem start_failureTime :
    (Work.start r now).status.failureTime = r.currentStatus.failureTime := by
  simp only [Work.start]
  split <;> rfl

theorem start_ready : (Work.start r now).status.readyCondition?.isSome := by
  simp only [Work.start]
  cases hready : r.currentStatus.readyCondition? with
  | none => simp [readyCondition?_setReady]
  | some c => simp [hready]

end Start

/-! ### Exits -/

namespace Exit

def reason? : Exit → Option String
  | awaitApproval => none
  | deny => some Reason.denied
  | awaitIssuer _ _ => some Reason.issuerNotReady
  | retry _ _ => some Reason.pending
  | fail _ _ => some Reason.failed
  | issue _ => some Reason.issued

def IsFinal (e : Exit) : Prop := ∃ reason ∈ finalReasons, e.reason? = some reason

end Exit

theorem work_readyReason? {e : Exit} {reason : String} (h : e.reason? = some reason) (x : Work) :
    (e.work x).status.readyReason? = some reason := by
  cases e with
  | awaitApproval => cases h
  | _ => exact (readyReason?_setReady _ _ _ _).trans h

theorem work_ready {x : Work} (hx : x.status.readyCondition?.isSome) (e : Exit) :
    (e.work x).status.readyCondition?.isSome := by
  cases e with
  | awaitApproval => exact hx
  | _ => simp [Exit.work, Work.closed, Work.waiting, Work.withCertificate, readyCondition?,
      Work.setReady]

theorem work_certificate {e : Exit} (he : e.isIssue = false) (x : Work) :
    (e.work x).status.certificate = x.status.certificate ∧ (e.work x).status.ca = x.status.ca := by
  cases e with
  | issue signed => cases he
  | _ => exact ⟨rfl, rfl⟩

theorem isFinal_of_isIssue {e : Exit} (he : e.isIssue = true) : e.IsFinal := by
  cases e with
  | issue signed => exact ⟨Reason.issued, by decide, rfl⟩
  | _ => cases he

theorem issue_certificate {e : Exit} (he : e.isIssue = true) (x : Work) :
    (e.work x).status.certificate.isSome := by
  cases e with
  | issue signed => rfl
  | _ => cases he

/-- An answer for good leads to an exit that ends the request whatever others have written. -/
theorem exitAfter_isFinal (settings : Settings) (elapsed : Span)
    {a : Except SignerError SignedCertificate}
    (ha : (∃ signed, a = .ok signed) ∨ ∃ text, a = .error (.permanent text)) :
    (exitAfter settings elapsed a).IsFinal ∧
      (exitAfter settings elapsed a).precondition = .unconditional := by
  rcases ha with ⟨signed, rfl⟩ | ⟨text, rfl⟩
  · exact ⟨⟨Reason.issued, by decide, rfl⟩, rfl⟩
  · exact ⟨⟨Reason.failed, by decide, rfl⟩, rfl⟩

theorem eq_ok_of_exitAfter {settings : Settings} {elapsed : Span}
    {a : Except SignerError SignedCertificate}
    (h : (exitAfter settings elapsed a).isIssue = true) : ∃ signed, a = .ok signed := by
  cases a with
  | ok signed => exact ⟨signed, rfl⟩
  | error e =>
    cases e with
    | permanent text => cases h
    | _ =>
      simp only [exitAfter] at h
      split at h <;> cases h

/-! ### Work on a request that was not terminal -/

section IsStartOf

variable {r : CertificateRequest} {x : Work} (hx : x.IsStartOf r)

include hx

theorem Work.IsStartOf.request : x.request = r := by
  obtain ⟨-, now, rfl⟩ := hx
  exact start_request r now

theorem Work.IsStartOf.conditions_ne_nil (e : Exit) : (e.work x).status.conditions ≠ [] := by
  obtain ⟨-, now, rfl⟩ := hx
  exact RequestStatus.conditions_ne_nil (work_ready (start_ready r now) e)

theorem Work.IsStartOf.not_isFinal {e : Exit} (h : (e.work x).status = x.request.currentStatus) :
    ¬ e.IsFinal := by
  rintro ⟨reason, hreason, he⟩
  have hwork := work_readyReason? he x
  rw [h, hx.request] at hwork
  exact readyReason?_ne_final hx.1 hreason hwork

theorem Work.IsStartOf.isIssue_eq_false {e : Exit}
    (h : (e.work x).status = x.request.currentStatus) : e.isIssue = false := by
  cases he : e.isIssue with
  | false => rfl
  | true => exact absurd (isFinal_of_isIssue he) (hx.not_isFinal h)

theorem Work.IsStartOf.isIssue_of_certificate {e : Exit} {certificate : String}
    (h : (e.work x).status.certificate = some certificate) : e.isIssue = true := by
  cases he : e.isIssue with
  | true => rfl
  | false =>
    obtain ⟨hpending, now, rfl⟩ := hx
    rw [(work_certificate he _).1, start_certificate, certificate_eq_none hpending] at h
    cases h

theorem Work.IsStartOf.issued_iff (e : Exit) :
    (e.work x).status.readyReason? = some Reason.issued ↔ e.isIssue = true := by
  cases e with
  | awaitApproval =>
    -- this exit leaves the status as the work began it, so `Ready` may be new or may be old
    obtain ⟨hpending, now, rfl⟩ := hx
    refine iff_of_false ?_ Bool.false_ne_true
    simp only [Exit.work, Work.start]
    split
    · simp [Reason.pending, Reason.issued]
    · exact readyReason?_ne_final hpending (by decide)
  | issue signed => exact iff_of_true (work_readyReason? rfl x) rfl
  | _ =>
    refine iff_of_false ?_ Bool.false_ne_true
    rw [work_readyReason? rfl x]
    decide

section Written

variable {e : Exit} {old new : RequestStatus} (hnew : old.Patched (e.work x).status new)

include hnew

theorem Work.IsStartOf.written_conditions : new.conditions = (e.work x).status.conditions :=
  hnew.conditions (hx.conditions_ne_nil e)

theorem Work.IsStartOf.written_isTerminal (he : e.IsFinal) : new.isTerminal = true := by
  obtain ⟨reason, hreason, he⟩ := he
  have hreason' : new.readyReason? = (e.work x).status.readyReason? := by
    simp only [readyReason?, readyCondition?, hx.written_conditions hnew]
  exact isTerminal_of_reason (hreason'.trans (work_readyReason? he x)) hreason

theorem Work.IsStartOf.written_extends (hold : old.own = r.currentStatus.own) :
    Extends old new := by
  have hnone : old.certificate = none := by
    rw [certificate_congr hold]
    exact certificate_eq_none hx.1
  -- merged or not, an old status without a certificate shows none through the patch
  have hcertificate : new.certificate = (e.work x).status.certificate := hnew.certificate hnone
  cases he : e.isIssue with
  | true =>
    have hsome := issue_certificate he x
    rw [← hcertificate] at hsome
    exact .inr ⟨hnone, hsome⟩
  | false =>
    obtain ⟨hworkCertificate, hworkCa⟩ := work_certificate he x
    obtain ⟨hpending, now, rfl⟩ := hx
    refine .inl ⟨?_, hnew.ca ?_⟩
    · rw [hcertificate, hworkCertificate, start_certificate, certificate_congr hold]
    · rw [hworkCa, start_ca, ca_congr hold]

end Written

end IsStartOf

end Reconcile

end CertIssuer
