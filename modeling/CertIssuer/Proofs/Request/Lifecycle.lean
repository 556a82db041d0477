import CertIssuer.Proofs.Request.Rehearsal

/-!
# The life of a request

The parts of a request's status fit together: its `Ready` condition, its certificates and its time
of failure tell of the same stage. Every exit of a pass updates some of these parts. Whatever is
answered, whichever writes are refused and whoever else writes meanwhile, the stored status always
fits together, and once it is terminal no pass touches the object again.
-/

namespace CertIssuer

namespace RequestStatus

def readyReasons : List String :=
  [Reason.pending, Reason.issuerNotReady, Reason.issued, Reason.denied, Reason.failed]

/-- The parts of a status tell of the same stage. -/
structure Coherent (s : RequestStatus) : Prop where
  single : s.conditions.count Condition.ready ≤ 1
  reason : ∀ c, s.readyCondition? = some c → ∃ reason ∈ readyReasons, c.reason = some reason
  isTrue_iff : s.conditions.isTrue Condition.ready = true ↔ s.readyReason? = some Reason.issued
  issued_iff : s.readyReason? = some Reason.issued ↔ s.certificate.isSome
  ca : s.ca.isSome → s.certificate.isSome
  failure_iff : s.failureTime.isSome ↔
    s.readyReason? = some Reason.denied ∨ s.readyReason? = some Reason.failed

theorem isTrue_ready (s : RequestStatus) :
    s.conditions.isTrue Condition.ready = true ↔
      ∃ c, s.readyCondition? = some c ∧ c.status = .isTrue := by
  simp only [Conditions.isTrue, readyCondition?]
  cases Conditions.get? s.conditions Condition.ready <;> simp

/-- A status that others have written to stays coherent. -/
theorem Coherent.congr {s t : RequestStatus} (h : s.Coherent) (hown : t.own = s.own) :
    t.Coherent := by
  have hready : t.readyCondition? = s.readyCondition? := readyCondition?_congr hown
  have hreason : t.readyReason? = s.readyReason? := congrArg (·.bind (·.reason)) hready
  have hcount : t.conditions.count Condition.ready = s.conditions.count Condition.ready := by
    have hlength : t.own.conditions.length = s.own.conditions.length := by rw [hown]
    rw [Conditions.count_eq_length, Conditions.count_eq_length]
    exact hlength
  have hfailure : t.own.failureTime = s.own.failureTime := by rw [hown]
  have hfailure' : t.failureTime = s.failureTime := hfailure
  constructor
  case single => rw [hcount]; exact h.single
  case reason => rw [hready]; exact h.reason
  case isTrue_iff => rw [isTrue_ready, hready, ← isTrue_ready, hreason]; exact h.isTrue_iff
  case issued_iff => rw [hreason, certificate_congr hown]; exact h.issued_iff
  case ca => rw [ca_congr hown, certificate_congr hown]; exact h.ca
  case failure_iff => rw [hreason, hfailure']; exact h.failure_iff

theorem coherent_empty : Coherent {} where
  single := Nat.zero_le 1
  reason := nofun
  isTrue_iff := by decide
  issued_iff := by decide
  ca := nofun
  failure_iff := by decide

/-- A status with one entry of `Ready` is coherent when the other parts follow from its reason. -/
theorem coherent_of_ready {s : RequestStatus} {c : Condition} {reason : String}
    (hready : s.conditions.filter (·.type = Condition.ready) = [c]) (hc : c.reason = some reason)
    (hreason : reason ∈ readyReasons) (htrue : c.status = .isTrue ↔ reason = Reason.issued)
    (hissued : reason = Reason.issued ↔ s.certificate.isSome)
    (hca : s.ca.isSome → s.certificate.isSome)
    (hfailure : s.failureTime.isSome ↔ reason = Reason.denied ∨ reason = Reason.failed) :
    s.Coherent := by
  have hcondition : s.readyCondition? = some c := by
    rw [readyCondition?, Conditions.get?_eq_head?, hready, List.head?_cons]
  have hs : s.readyReason? = some reason := by rw [readyReason?, hcondition, Option.bind_some, hc]
  have hiff : ∀ other, s.readyReason? = some other ↔ reason = other := by
    intro other
    rw [hs, Option.some_inj]
  constructor
  case single => rw [Conditions.count_eq_length, hready]; exact Nat.le_refl 1
  case reason =>
    intro c' hc'
    rw [hcondition, Option.some_inj] at hc'
    exact ⟨reason, hreason, hc' ▸ hc⟩
  case isTrue_iff =>
    rw [isTrue_ready, hcondition, hiff, ← htrue]
    simp
  case issued_iff => rw [hiff]; exact hissued
  case ca => exact hca
  case failure_iff => rw [hiff, hiff]; exact hfailure

/-- Before the end there is no certificate and no failure. -/
theorem Coherent.blank {s : RequestStatus} (h : s.Coherent) (hopen : s.isTerminal = false) :
    s.certificate = none ∧ s.ca = none ∧ s.failureTime = none := by
  have hcertificate := certificate_eq_none hopen
  refine ⟨hcertificate, ?_, ?_⟩
  · have hca := h.ca
    rw [hcertificate] at hca
    simpa using hca
  · have hfailure := h.failure_iff
    rw [or_iff_right (readyReason?_ne_final hopen (by decide)),
      iff_false_right (readyReason?_ne_final hopen (by decide))] at hfailure
    simpa using hfailure

end RequestStatus

namespace Reconcile

open RequestStatus
open Dialogue (Step Run)

/-! ### Exits -/

section Exits

variable {x : Work} (hcertificate : x.status.certificate = none) (hca : x.status.ca = none)

include hcertificate hca

theorem waiting_coherent (reason message : String) (hreason : reason ∈ readyReasons)
    (hwaits : reason ∉ finalReasons) (hfailure : x.status.failureTime = none) :
    (x.waiting reason message).status.Coherent := by
  have hne : ∀ other ∈ finalReasons, reason ≠ other := by
    rintro other hother rfl
    exact hwaits hother
  refine coherent_of_ready (filter_setReady x .isFalse reason message) rfl hreason ?_ ?_ ?_ ?_
  · exact iff_of_false nofun (hne _ (by decide))
  · exact iff_of_false (hne _ (by decide)) (by simp [Work.waiting, hcertificate])
  · simp [Work.waiting, hca]
  · refine iff_of_false (by simp [Work.waiting, hfailure]) ?_
    rintro (h | h)
    · exact hne _ (by decide) h
    · exact hne _ (by decide) h

theorem closed_coherent (reason message : String)
    (hreason : reason = Reason.denied ∨ reason = Reason.failed) :
    (x.closed reason message).status.Coherent := by
  have hne : reason ≠ Reason.issued := by
    rcases hreason with rfl | rfl <;> decide
  have hmem : reason ∈ readyReasons := by
    rcases hreason with rfl | rfl <;> decide
  refine coherent_of_ready (filter_setReady x .isFalse reason message) rfl hmem ?_ ?_ ?_ ?_
  · exact iff_of_false nofun hne
  · exact iff_of_false hne (by simp [Work.closed, hcertificate])
  · simp [Work.closed, hca]
  · exact iff_of_true rfl hreason

omit hcertificate hca in
theorem withCertificate_coherent (signed : SignedCertificate) :
    (x.withCertificate signed).status.Coherent := by
  refine coherent_of_ready (filter_setReady _ .isTrue Reason.issued "Signed") rfl (by decide) ?_ ?_
    ?_ ?_
  · exact iff_of_true rfl rfl
  · exact iff_of_true rfl rfl
  · exact fun _ => rfl
  · exact iff_of_false nofun (by decide)

end Exits

/-- Every exit of a pass over a coherent request that was not terminal leaves a coherent status. -/
theorem Work.IsStartOf.work_coherent {r : CertificateRequest} {x : Work} (hx : x.IsStartOf r)
    (hr : r.currentStatus.Coherent) (e : Exit) : (e.work x).status.Coherent := by
  obtain ⟨hopen, now, rfl⟩ := hx
  obtain ⟨hcertificate, hca, hfailure⟩ := hr.blank hopen
  have hcertificate' : (Work.start r now).status.certificate = none :=
    (start_certificate r now).trans hcertificate
  have hca' : (Work.start r now).status.ca = none := (start_ca r now).trans hca
  have hfailure' : (Work.start r now).status.failureTime = none :=
    (start_failureTime r now).trans hfailure
  cases e with
  | awaitApproval =>
    -- nothing is added here to what the beginning of the work may have set
    simp only [Exit.work, Work.start]
    split
    · exact waiting_coherent (x := ⟨r, r.currentStatus, now⟩) hcertificate hca _ _ (by decide)
        (by decide) hfailure
    · exact hr
  | deny => exact closed_coherent hcertificate' hca' _ _ (.inl rfl)
  | awaitIssuer message delay =>
    exact waiting_coherent hcertificate' hca' _ _ (by decide) (by decide) hfailure'
  | retry message delay =>
    exact waiting_coherent hcertificate' hca' _ _ (by decide) (by decide) hfailure'
  | fail message p => exact closed_coherent hcertificate' hca' _ _ (.inr rfl)
  | issue signed => exact withCertificate_coherent signed

/-- A coherent status that was not terminal is written as the exit has it, merged or not. -/
theorem Work.IsStartOf.written_eq {r : CertificateRequest} {x : Work} (hx : x.IsStartOf r)
    {e : Exit} {old new : RequestStatus} (hold : old.Coherent)
    (hown : old.own = r.currentStatus.own) (hnew : old.Patched (e.work x).status new) :
    new = (e.work x).status := by
  obtain ⟨hcertificate, hca, hfailure⟩ := hold.blank ((isTerminal_congr hown).trans hx.1)
  exact hnew.eq (hx.conditions_ne_nil e) hcertificate hca hfailure

/-! ### The outline -/

namespace Life

variable {ns name : String}

def outline (ns name : String) : Outline (Slot ns name) where
  opened s := s.status.Coherent
  looking r s := s.status.Coherent ∧ s.Shows r
  closing _ x s := s.status.Coherent ∧ ∃ r, x.IsStartOf r ∧ s.Shows r
  counting s := s.status.Coherent
  idle s := s.status.Coherent

/-- An answer leaves the status coherent, and the object alone when its status is terminal. -/
def Guarantee (s t : Slot ns name) : Prop :=
  t.status.Coherent ∧ (s.status.isTerminal = true → t.object = s.object)

theorem guarantee_of_object {s t : Slot ns name} (h : s.status.Coherent)
    (ht : t.object = s.object) : Guarantee s t := by
  refine ⟨?_, fun _ => ht⟩
  rw [Slot.status, ht]
  exact h

theorem valid (v : Service) (ns name : String) :
    (outline ns name).Valid (v.surroundings Slot.Edited) Guarantee ns name where
  opened_move h hst := h.congr hst.status_own
  looking_move h hst := ⟨h.1.congr hst.status_own, h.2.edited hst⟩
  closing_move h hst := by
    obtain ⟨hs, r, hx, hshows⟩ := h
    exact ⟨hs.congr hst.status_own, r, hx, hshows.edited hst⟩
  counting_move h hst := h.congr hst.status_own
  idle_move h hst := h.congr hst.status_own
  read := by
    intro s t a h ha
    obtain rfl := Service.eq_of_read ha
    refine ⟨guarantee_of_object h rfl, h, ?_⟩
    rintro r rfl
    exact ⟨h, Service.shows_of_read ha⟩
  look := by
    intro r s t q a h hq ha
    rw [Service.eq_of_look hq ha]
    exact ⟨guarantee_of_object h.1 rfl, h.1, h.2.heard q a⟩
  rest h := h.1
  exit h hx _ := ⟨h.1, _, hx, h.2⟩
  sign := by
    intro r x spec secrets order s t a settings elapsed h hx _ ha
    rw [Service.eq_of_sign ha]
    exact ⟨guarantee_of_object h.1 rfl, h.1, r, hx, h.2.heard _ _⟩
  skip := by
    intro e x s h hsame
    obtain ⟨hs, r, hx, -⟩ := h
    exact ⟨hx.isIssue_eq_false hsame, hs⟩
  written := by
    intro e x s t h ha
    obtain ⟨hs, r, hx, hshows⟩ := h
    obtain ⟨-, u, hu, rfl⟩ := Service.takes_of_written (hshows.named_work hx) ha
    -- others may have edited the object since it was read, and `x` was begun on what was read
    have hnew : u.status = (e.work x).status := hx.written_eq hs hshows.own hu.patched
    have hr : r.currentStatus.Coherent := hs.congr hshows.own.symm
    have hcoherent : u.status.Coherent := hnew ▸ hx.work_coherent hr e
    have hopen : s.status.isTerminal = false := (isTerminal_congr hshows.own).trans hx.1
    refine ⟨⟨hcoherent, fun hterminal => ?_⟩, ?_⟩
    · rw [hopen] at hterminal
      cases hterminal
    · split
      · exact hcoherent
      · exact hcoherent
  refused := by
    intro e x s t err h ha
    obtain ⟨hs, r, hx, hshows⟩ := h
    obtain ⟨-, rfl⟩ := Service.refuses_of_error (hshows.named_work hx) ha
    exact ⟨guarantee_of_object hs rfl, hs⟩
  count := by
    intro s t h ha
    rw [Service.eq_of_count ha]
    exact ⟨guarantee_of_object h rfl, h⟩

section Run

variable {v : Service} {s : Slot ns name} (hs : s.status.Coherent) {S T : SlotScene ns name}
  (hS : Run (v.surroundings Slot.Edited) Opens ⟨s, none⟩ S)

include hs hS

theorem sound : S.Sound (v.surroundings Slot.Edited) Guarantee fun t => t.status.Coherent :=
  (valid v ns name).sound (fun _ h => h) hs hS

theorem coherent : S.state.status.Coherent :=
  (valid v ns name).keeps (P := fun t => t.status.Coherent) (fun _ h => h) hs .refl hS
    (fun _ _ hg _ => hg.1) (fun _ _ hst h => h.congr hst.status_own) (fun _ h => h) hs

theorem own_of_isTerminal (hterminal : S.state.status.isTerminal = true)
    (hT : Run (v.surroundings Slot.Edited) Opens S T) :
    T.state.status.own = S.state.status.own := by
  refine (valid v ns name).keeps (P := fun t => t.status.own = S.state.status.own)
    (fun _ h => h) hs hS hT ?_ (fun _ _ hst h => hst.status_own.trans h) (fun _ h => h) rfl
  intro t u hg h
  have hobject := hg.2 ((isTerminal_congr h).trans hterminal)
  rw [Slot.status, hobject]
  exact h

end Run

end Life

/-- Over any run of passes over an object that passes have not written to, whatever is refused and
whoever else writes, the status is coherent at every point, also within a pass. Once it is terminal,
the part that passes write stays, and no pass changes the object. -/
theorem status_coherent {ns name : String} (v : Service) (s : Slot ns name)
    (hs : s.status.own = {}) {S : SlotScene ns name}
    (hS : Run (v.surroundings Slot.Edited) Opens ⟨s, none⟩ S) :
    S.state.status.Coherent ∧
    (S.state.status.isTerminal = true → ∀ T, Run (v.surroundings Slot.Edited) Opens S T →
      T.state.status.own = S.state.status.own ∧
      ∀ U, Step (v.surroundings Slot.Edited) Opens T U →
        U.state.object = T.state.object ∨ T.state.Edited U.state) := by
  have hcoherent : s.status.Coherent := coherent_empty.congr hs
  refine ⟨Life.coherent hcoherent hS, fun hterminal T hT => ?_⟩
  have hown := Life.own_of_isTerminal hcoherent hS hterminal hT
  refine ⟨hown, fun U hU => ?_⟩
  have hsound := Life.sound hcoherent (hS.trans hT)
  cases hU with
  | start hopen =>
    obtain ⟨_, _, -, rfl⟩ := hopen
    exact .inl rfl
  | hear ha => exact .inl ((hsound _ .refl _ _ ha).1.2 ((isTerminal_congr hown).trans hterminal))
  | finish => exact .inl rfl
  | move hmove => exact .inr hmove

/-- A request that the authority turns down stays failed. -/
theorem status_coherent_failed :
    ∃ S : SlotScene "apps" "web",
      Run (Service.lenient.surroundings Slot.Edited) Opens
        ⟨.fresh (sampleRequest "Y3Ny" {}) 1 0, none⟩ S ∧
      S.state.status.Coherent ∧ S.state.status.failureTime.isSome ∧
      ∀ T, Run (Service.lenient.surroundings Slot.Edited) Opens S T →
        T.state.status.own = S.state.status.own := by
  have hrun := run_afterPass (sampleWorld (.error (.permanent "no"))) sampleSettings .standard
    (later_touching .lenient) (.fresh (sampleRequest "Y3Ny" {}) 1 0)
  obtain ⟨hcoherent, hlater⟩ := status_coherent .lenient _ rfl hrun
  exact ⟨_, hrun, hcoherent, by decide +kernel,
    fun T hT => (hlater (by decide +kernel) T hT).1⟩

end Reconcile

end CertIssuer
