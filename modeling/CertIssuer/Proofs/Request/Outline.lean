import CertIssuer.Proofs.Dialogue.Interference
import CertIssuer.Proofs.Request.Survey

/-!
# Outlines of a pass

While others change the state, a pass over a request goes from point to point: it has just opened,
a request was read, an exit is to be taken, a certificate is to be counted, nothing is left to do.
An outline has an assertion for each of these points. When every answer leads from one assertion to
the next, and others keep them, a pass that opens with the first assertion ends with the last one
(`Valid.secures`).
-/

namespace CertIssuer.Reconcile

open Dialogue (Surroundings later_keeps)
open Pass

/-- What is asserted at the points of a pass. -/
structure Outline (σ : Type) where
  opened : σ → Prop
  looking : CertificateRequest → σ → Prop
  closing : Exit → Work → σ → Prop
  counting : σ → Prop
  idle : σ → Prop

namespace Outline

variable {σ : Type} (w : Surroundings Question Question.Answer σ) (G : σ → σ → Prop)
  (ns name : String)

/-- The assertions follow from one another, and each answer changes the state as `G` says. -/
structure Valid (o : Outline σ) : Prop where
  opened_move {s t : σ} : o.opened s → w.moves s t → o.opened t
  looking_move {r : CertificateRequest} {s t : σ} : o.looking r s → w.moves s t → o.looking r t
  closing_move {e : Exit} {x : Work} {s t : σ} : o.closing e x s → w.moves s t → o.closing e x t
  counting_move {s t : σ} : o.counting s → w.moves s t → o.counting t
  idle_move {s t : σ} : o.idle s → w.moves s t → o.idle t
  read {s t : σ} {a : Except ControllerError (Option CertificateRequest)} :
    o.opened s → w.answers s (.request ns name) a t →
      G s t ∧ o.idle t ∧ ∀ r, a = .ok (some r) → o.looking r t
  look {r : CertificateRequest} {s t : σ} {q : Question} {a : q.Answer} :
    o.looking r s → q.IsLook → w.answers s q a t → G s t ∧ o.looking r t
  rest {r : CertificateRequest} {s : σ} : o.looking r s → o.idle s
  exit {r : CertificateRequest} {x : Work} {e : Exit} {s : σ} :
    o.looking r s → x.IsStartOf r → e.IsEarly → o.closing e x s
  sign {r : CertificateRequest} {x : Work} {spec : IssuerSpec} {secrets : IssuerSecrets}
      {order : SignOrder} {s t : σ} {a : Option (Except SignerError SignedCertificate)}
      (settings : Settings) (elapsed : Span) :
    o.looking r s → x.IsStartOf r → x.order? = .ok order →
      w.answers s (.sign spec secrets order) a t →
        G s t ∧ o.closing (exitAfter settings elapsed (a.getD (Work.timedOut settings))) x t
  skip {e : Exit} {x : Work} {s : σ} : o.closing e x s →
    (e.work x).status = x.request.currentStatus → e.isIssue = false ∧ o.idle s
  written {e : Exit} {x : Work} {s t : σ} : o.closing e x s →
    w.answers s (.writeRequest x.request (e.work x).status e.precondition) (.ok ()) t →
      G s t ∧ if e.isIssue then o.counting t else o.idle t
  refused {e : Exit} {x : Work} {s t : σ} {err : ControllerError} : o.closing e x s →
    w.answers s (.writeRequest x.request (e.work x).status e.precondition) (.error err) t →
      G s t ∧ o.idle t
  count {s t : σ} : o.counting s → w.answers s .recordIssued () t → G s t ∧ o.idle t

end Outline

/-! ### Exits -/

namespace Outline.Valid

variable {σ : Type} {w : Surroundings Question Question.Answer σ} {G : σ → σ → Prop}
  {ns name : String} {o : Outline σ} (v : o.Valid w G ns name)

include v

theorem idle_later {s t : σ} (hs : o.idle s) (hst : w.Later s t) : o.idle t :=
  later_keeps (fun _ _ => v.idle_move) hs hst

/-- The end of a pass: the certificate is counted if one was issued. -/
theorem counted {e : Exit} {s : σ} (hs : if e.isIssue then o.counting s else o.idle s) :
    (do if e.isIssue then Pass.ask .recordIssued
        return e.requeue : Pass Requeue).run.Secures w G (fun _ => o.idle) s := by
  cases hissue : e.isIssue with
  | false =>
    simp only [hissue, Bool.false_eq_true, if_false] at hs
    exact fun t hst => v.idle_later hs hst
  | true =>
    simp only [hissue, if_true] at hs
    intro t hst a u ha
    have ht : o.counting t := later_keeps (fun _ _ => v.counting_move) hs hst
    obtain ⟨hg, hu⟩ := v.count ht ha
    exact ⟨hg, fun t' hut => v.idle_later hu hut⟩

theorem take {e : Exit} {x : Work} {s : σ} (hs : o.closing e x s) :
    (e.take x).run.Secures w G (fun _ => o.idle) s := by
  unfold Exit.take Work.write
  rw [work_request]
  by_cases hsame : (e.work x).status = x.request.currentStatus
  · obtain ⟨hissue, hidle⟩ := v.skip hs hsame
    rw [if_pos hsame, pure_bind]
    exact v.counted (by simpa [hissue] using hidle)
  · rw [if_neg hsame, run_bind]
    intro t hst a u ha
    have ht : o.closing e x t := later_keeps (fun _ _ => v.closing_move) hs hst
    cases a with
    | ok _ =>
      obtain ⟨hg, hu⟩ := v.written ht ha
      exact ⟨hg, v.counted hu⟩
    | error err =>
      obtain ⟨hg, hu⟩ := v.refused ht ha
      exact ⟨hg, fun t' hut => v.idle_later hu hut⟩

/-! ### Passes -/

theorem act {r : CertificateRequest} {finding : Finding} {s : σ} (settings : Settings)
    (hfinding : finding.IsOf r) (hs : o.looking r s) :
    (act settings finding).run.Secures w G (fun _ => o.idle) s := by
  cases finding with
  | idle => exact fun t hst => v.idle_later (v.rest hs) hst
  | exit x e => exact v.take (v.exit hs hfinding.1 hfinding.2)
  | order x issuer secrets order =>
    intro t hst a u ha
    have ht : o.looking r t := later_keeps (fun _ _ => v.looking_move) hs hst
    have hsign := v.sign settings (x.signingElapsed settings issuer) ht hfinding.1 hfinding.2 ha
    exact ⟨hsign.1, v.take hsign.2⟩

theorem secures (settings : Settings) (scheme : Scheme) {s : σ} (hs : o.opened s) :
    (requestPass settings scheme ns name).run.Secures w G (fun _ => o.idle) s := by
  rw [requestPass_eq, survey, bind_assoc, run_bind]
  intro t hst a u ha
  have ht : o.opened t := later_keeps (fun _ _ => v.opened_move) hs hst
  obtain ⟨hg, hidle, hlooking⟩ := v.read ht ha
  refine ⟨hg, ?_⟩
  have hend : ∀ t', w.Later u t' → o.idle t' := fun t' hut => v.idle_later hidle hut
  cases a with
  | error err => exact hend
  | ok found =>
    cases found with
    | none => exact hend
    | some r =>
      -- what the survey asks leaves its assertion alone, whatever it finds in the end
      have hwithin := surveyOf_within settings scheme r
      unfold Pass.Within at hwithin
      have hsurvey : (surveyOf settings scheme (some r)).run.Secures w G
          (fun result t => (∀ f, result = .ok f → Finding.IsOf r f) ∧ o.looking r t) u :=
        hwithin.secures (fun _ _ => v.looking_move) (fun _ _ _ _ hq hr => v.look hr hq)
          (hlooking r rfl)
      refine secures_bind hsurvey (fun f t hpost => v.act settings (hpost.1 f rfl) hpost.2) ?_
      intro err t hpost t' htt'
      exact v.idle_later (v.rest hpost.2) htt'

end Outline.Valid

end CertIssuer.Reconcile
