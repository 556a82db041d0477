import CertIssuer.Proofs.Request.Rehearsal

/-!
# A request is answered at most once

Passes over one request, one after the other, while others write to the request what passes do not
write. The status that follows an answer of the authority is written without a precondition, so the
request is terminal before another pass can look at it. Over a whole run at most one order is
answered for good, nothing is signed after that, and the certificate stays.
-/

namespace CertIssuer.Reconcile

open Dialogue (Scene Run)

/-! ### Exchanges -/

namespace Exchange

/-- The signer answered for good: with a certificate, or that it never will. -/
def isAnswered : Exchange → Bool
  | ⟨.sign _ _ _, some (.ok _)⟩ => true
  | ⟨.sign _ _ _, some (.error (.permanent _))⟩ => true
  | _ => false

/-- A status was written by which the request is issued. -/
def isIssuing : Exchange → Bool
  | ⟨.writeRequest _ status _, .ok ()⟩ => status.readyReason? = some Reason.issued
  | _ => false

theorem isSign_of_isAnswered {e : Exchange} (h : e.isAnswered = true) : e.isSign = true := by
  obtain ⟨q, a⟩ := e
  cases q with
  | sign spec secrets order => rfl
  | _ => cases h

theorem getD_of_isAnswered {spec : IssuerSpec} {secrets : IssuerSecrets} {order : SignOrder}
    {a : Option (Except SignerError SignedCertificate)}
    (h : isAnswered ⟨.sign spec secrets order, a⟩ = true)
    (late : Except SignerError SignedCertificate) :
    (∃ signed, a.getD late = .ok signed) ∨ ∃ text, a.getD late = .error (.permanent text) := by
  cases a with
  | none => cases h
  | some answer =>
    cases answer with
    | ok signed => exact .inl ⟨signed, rfl⟩
    | error e =>
      cases e with
      | permanent text => exact .inr ⟨text, rfl⟩
      | _ => cases h

theorem isAnswered_eq_false {e : Exchange} (h : e.isSign = false) : e.isAnswered = false := by
  cases hanswered : e.isAnswered with
  | false => rfl
  | true =>
    rw [isSign_of_isAnswered hanswered] at h
    cases h

theorem isIssuing_look {q : Question} {a : q.Answer} (hq : q.IsLook) :
    isIssuing ⟨q, a⟩ = false := by
  cases q with
  | writeRequest r status p => exact hq.elim
  | _ => rfl

end Exchange

/-! ### Passes one after the other -/

/-- Nothing is signed after an answer for good, and no pass has anything signed twice. -/
structure Orderly (passes : List (List Exchange)) : Prop where
  last : passes.flatten.Pairwise fun later earlier =>
    earlier.isAnswered = true → later.isSign = false
  single : ∀ p ∈ passes, p.countP Exchange.isSign ≤ 1

namespace Orderly

variable {p : List Exchange} {ps : List (List Exchange)} {e : Exchange}

theorem begun (h : Orderly ps) : Orderly ([] :: ps) where
  last := h.last
  single := by
    intro p hp
    rcases List.mem_cons.mp hp with rfl | hp
    · exact Nat.zero_le 1
    · exact h.single p hp

theorem cons (h : Orderly (p :: ps))
    (hlast : ∀ e' ∈ (p :: ps).flatten, e'.isAnswered = true → e.isSign = false)
    (hsingle : (e :: p).countP Exchange.isSign ≤ 1) : Orderly ((e :: p) :: ps) where
  last := List.pairwise_cons.mpr ⟨hlast, h.last⟩
  single := by
    intro p' hp'
    rcases List.mem_cons.mp hp' with rfl | hp'
    · exact hsingle
    · exact h.single p' (List.mem_cons_of_mem p hp')

theorem other (h : Orderly (p :: ps)) (he : e.isSign = false) : Orderly ((e :: p) :: ps) := by
  refine h.cons (fun _ _ _ => he) ?_
  rw [List.countP_cons_of_neg (by simp [he])]
  exact h.single p List.mem_cons_self

theorem sign (h : Orderly (p :: ps)) (hopen : (p :: ps).flatten.any Exchange.isAnswered = false)
    (hp : p.countP Exchange.isSign = 0) : Orderly ((e :: p) :: ps) := by
  refine h.cons ?_ ?_
  · intro e' he' hanswered
    exact absurd hanswered (by simpa using List.any_eq_false.mp hopen e' he')
  · rw [List.countP_cons, hp]
    split <;> omega

theorem answered_le_one {ps : List (List Exchange)} (h : Orderly ps) :
    ps.flatten.countP Exchange.isAnswered ≤ 1 := by
  have hlast := h.last
  generalize ps.flatten = es at hlast
  induction es with
  | nil => exact Nat.zero_le 1
  | cons e es ih =>
    obtain ⟨he, hes⟩ := List.pairwise_cons.mp hlast
    rw [List.countP_cons]
    by_cases hanswered : e.isAnswered = true
    · -- an earlier answer for good would have ruled out the order that `e` answers
      have hnone : es.countP Exchange.isAnswered = 0 := by
        refine List.countP_eq_zero.mpr fun e' he' hanswered' => ?_
        have hsign := he e' he' hanswered'
        rw [Exchange.isSign_of_isAnswered hanswered] at hsign
        cases hsign
      simp [hanswered, hnone]
    · simpa [hanswered] using ih hes

end Orderly

/-! ### What holds between passes -/

namespace Slot

variable {ns name : String}

def isAnswered (s : Slot ns name) : Bool := s.exchanges.any Exchange.isAnswered

def issuings (s : Slot ns name) : Nat := s.exchanges.countP Exchange.isIssuing

theorem isAnswered_heard (s : Slot ns name) (q : Question) (a : q.Answer) :
    (s.heard q a).isAnswered = (Exchange.isAnswered ⟨q, a⟩ || s.isAnswered) := rfl

theorem issuings_heard (s : Slot ns name) (q : Question) (a : q.Answer) :
    (s.heard q a).issuings = s.issuings + if Exchange.isIssuing ⟨q, a⟩ then 1 else 0 :=
  List.countP_cons

/-- The object is there, and it is terminal once an order was answered for good. -/
structure Kept (first : Nat) (s : Slot ns name) : Prop where
  orderly : Orderly s.passes
  present : s.object.isSome
  counted : s.issued = first + s.issuings
  closed : s.isAnswered = true → s.status.isTerminal = true

section Kept

variable {first : Nat} {s t : Slot ns name} (h : s.Kept first)

include h

theorem Kept.edited (hst : s.Edited t) : t.Kept first := by
  have hterminal : t.status.isTerminal = s.status.isTerminal :=
    RequestStatus.isTerminal_congr hst.status_own
  obtain ⟨r, r', -, -, -, rfl⟩ := hst
  exact ⟨h.orderly, rfl, h.counted, fun hanswered => hterminal.trans (h.closed hanswered)⟩

theorem Kept.heard {q : Question} {a : q.Answer} (hsign : Exchange.isSign ⟨q, a⟩ = false)
    (hissuing : Exchange.isIssuing ⟨q, a⟩ = false) : (s.heard q a).Kept first where
  orderly := h.orderly.other hsign
  present := h.present
  counted := by
    rw [issuings_heard, hissuing]
    exact h.counted
  closed := by
    rw [isAnswered_heard, Exchange.isAnswered_eq_false hsign]
    exact h.closed

theorem Kept.not_isAnswered {r : CertificateRequest} (hshows : s.Shows r)
    (hr : r.currentStatus.isTerminal = false) : s.isAnswered = false := by
  cases hanswered : s.isAnswered with
  | false => rfl
  | true =>
    have hterminal := h.closed hanswered
    rw [RequestStatus.isTerminal_congr hshows.own, hr] at hterminal
    cases hterminal

end Kept

end Slot

/-! ### The outline -/

namespace Once

variable {ns name : String}

/-- Before an exit is taken: an order that was answered for good makes the exit final. -/
structure Closing (first : Nat) (e : Exit) (x : Work) (s : Slot ns name) : Prop where
  orderly : Orderly s.passes
  counted : s.issued = first + s.issuings
  started : ∃ r, x.IsStartOf r ∧ s.Shows r
  final : s.isAnswered = true → e.IsFinal ∧ e.precondition = .unconditional

structure Counting (first : Nat) (s : Slot ns name) : Prop where
  orderly : Orderly s.passes
  present : s.object.isSome
  counted : s.issued + 1 = first + s.issuings
  closed : s.status.isTerminal = true

def outline (ns name : String) (first : Nat) : Outline (Slot ns name) where
  opened s := s.Kept first ∧ s.pass.countP Exchange.isSign = 0
  looking r s := s.Kept first ∧ s.pass.countP Exchange.isSign = 0 ∧ s.Shows r
  closing := Closing first
  counting := Counting first
  idle := Slot.Kept first

/-- What an answer may change: the passes stay orderly, and the certificates stay. -/
def Guarantee (s t : Slot ns name) : Prop :=
  Orderly t.passes ∧ s.status.Extends t.status

theorem Closing.edited {first : Nat} {e : Exit} {x : Work} {s t : Slot ns name}
    (h : Closing first e x s) (hst : s.Edited t) : Closing first e x t := by
  obtain ⟨r, hx, hshows⟩ := h.started
  have hshows' := hshows.edited hst
  obtain ⟨_, _, -, -, -, rfl⟩ := hst
  exact ⟨h.orderly, h.counted, ⟨r, hx, hshows'⟩, h.final⟩

theorem Counting.edited {first : Nat} {s t : Slot ns name} (h : Counting first s)
    (hst : s.Edited t) : Counting first t := by
  have hclosed : t.status.isTerminal = true :=
    (RequestStatus.isTerminal_congr hst.status_own).trans h.closed
  obtain ⟨_, _, -, -, -, rfl⟩ := hst
  exact ⟨h.orderly, rfl, h.counted, hclosed⟩

section Steps

variable {first : Nat} {s t : Slot ns name}

theorem guarantee_heard {q : Question} {a : q.Answer} (h : Orderly s.passes)
    (hsign : Exchange.isSign ⟨q, a⟩ = false) : Guarantee s (s.heard q a) :=
  ⟨h.other hsign, .refl _⟩

theorem signed {r : CertificateRequest} {x : Work} (spec : IssuerSpec) (secrets : IssuerSecrets)
    (order : SignOrder) (a : Option (Except SignerError SignedCertificate)) (settings : Settings)
    (elapsed : Span) (h : s.Kept first) (hfirst : s.pass.countP Exchange.isSign = 0)
    (hshows : s.Shows r) (hx : x.IsStartOf r) :
    Guarantee s (s.heard (.sign spec secrets order) a) ∧
      Closing first (exitAfter settings elapsed (a.getD (Work.timedOut settings))) x
        (s.heard (.sign spec secrets order) a) := by
  have hopen : s.isAnswered = false := h.not_isAnswered hshows hx.1
  have horderly : Orderly (s.heard (.sign spec secrets order) a).passes :=
    h.orderly.sign hopen hfirst
  refine ⟨⟨horderly, .refl _⟩, horderly, h.counted, ⟨r, hx, hshows.heard _ _⟩, ?_⟩
  intro hanswered
  -- nothing was answered for good before, so that it was this order
  have hnow : (Exchange.isAnswered ⟨.sign spec secrets order, a⟩ || s.isAnswered) = true :=
    hanswered
  rw [hopen, Bool.or_false] at hnow
  exact exitAfter_isFinal settings elapsed (Exchange.getD_of_isAnswered hnow _)

theorem Closing.not_isAnswered {e : Exit} {x : Work} (h : Closing first e x s)
    (he : e.IsFinal → e.precondition ≠ .unconditional) : s.isAnswered = false := by
  cases hanswered : s.isAnswered with
  | false => rfl
  | true =>
    obtain ⟨hfinal, hunconditional⟩ := h.final hanswered
    exact absurd hunconditional (he hfinal)

/-- With no answer for good, nothing else has to hold between passes. -/
theorem Closing.kept {e : Exit} {x : Work} (h : Closing first e x s)
    (hopen : s.isAnswered = false) : s.Kept first := by
  obtain ⟨r, -, hshows⟩ := h.started
  refine ⟨h.orderly, hshows.present, h.counted, ?_⟩
  rw [hopen]
  intro hanswered
  cases hanswered

theorem Closing.written {e : Exit} {x : Work} (h : Closing first e x s)
    (ht : s.Takes (e.work x).status t) :
    let u := t.heard (.writeRequest x.request (e.work x).status e.precondition) (.ok ())
    Guarantee s u ∧ if e.isIssue then Counting first u else u.Kept first := by
  obtain ⟨r, hx, hshows⟩ := h.started
  have hpatched := ht.patched
  have hextends := hx.written_extends hpatched hshows.own
  have hissuing : Exchange.isIssuing
      ⟨.writeRequest x.request (e.work x).status e.precondition, .ok ()⟩ = e.isIssue := by
    rw [Bool.eq_iff_iff, ← hx.issued_iff e]
    exact decide_eq_true_iff
  have hissuings : (t.heard (.writeRequest x.request (e.work x).status e.precondition)
      (.ok ())).issuings = t.issuings + if e.isIssue then 1 else 0 := by
    rw [← hissuing]
    exact Slot.issuings_heard t _ _
  obtain ⟨stored, new, -, -, rfl⟩ := ht
  refine ⟨⟨h.orderly.other rfl, hextends⟩, ?_⟩
  cases hissue : e.isIssue with
  | true =>
    refine ⟨h.orderly.other rfl, rfl, ?_, ?_⟩
    · rw [hissuings, hissue, if_pos rfl]
      exact (congrArg (· + 1) h.counted).trans (Nat.add_assoc _ _ _)
    · exact hx.written_isTerminal hpatched (isFinal_of_isIssue hissue)
  | false =>
    refine ⟨h.orderly.other rfl, rfl, ?_, ?_⟩
    · rw [hissuings, hissue]
      exact h.counted
    · intro hanswered
      exact hx.written_isTerminal hpatched (h.final hanswered).1

end Steps

theorem valid (ns name : String) (first : Nat) :
    (outline ns name first).Valid (Service.strict.surroundings Slot.Edited) Guarantee ns name where
  opened_move h hst := by
    refine ⟨h.1.edited hst, ?_⟩
    obtain ⟨_, _, -, -, -, rfl⟩ := hst
    exact h.2
  looking_move h hst := by
    refine ⟨h.1.edited hst, ?_, h.2.2.edited hst⟩
    obtain ⟨_, _, -, -, -, rfl⟩ := hst
    exact h.2.1
  closing_move h hst := h.edited hst
  counting_move h hst := h.edited hst
  idle_move h hst := h.edited hst
  read := by
    intro s t a h ha
    obtain rfl := Service.eq_of_read ha
    have hkept : (s.heard (.request ns name) a).Kept first := h.1.heard rfl rfl
    refine ⟨guarantee_heard h.1.orderly rfl, hkept, ?_⟩
    rintro r rfl
    exact ⟨hkept, h.2, Service.shows_of_read ha⟩
  look := by
    intro r s t q a h hq ha
    rw [Service.eq_of_look hq ha]
    have hsign : Exchange.isSign ⟨q, a⟩ = false := Exchange.isSign_look hq
    refine ⟨guarantee_heard h.1.orderly hsign, h.1.heard hsign (Exchange.isIssuing_look hq), ?_,
      h.2.2.heard q a⟩
    rw [Slot.pass_heard, List.countP_cons_of_neg (by simp [hsign])]
    exact h.2.1
  rest h := h.1
  exit := by
    intro r x e s h hx he
    have hopen := h.1.not_isAnswered h.2.2 hx.1
    refine ⟨h.1.orderly, h.1.counted, ⟨r, hx, h.2.2⟩, ?_⟩
    rw [hopen]
    intro hanswered
    cases hanswered
  sign := by
    intro r x spec secrets order s t a settings elapsed h hx _ ha
    rw [Service.eq_of_sign ha]
    exact signed spec secrets order a settings elapsed h.1 h.2.1 h.2.2 hx
  skip := by
    intro e x s h hsame
    obtain ⟨r, hx, -⟩ := h.started
    have hfinal : ¬ e.IsFinal := hx.not_isFinal hsame
    exact ⟨hx.isIssue_eq_false hsame, h.kept (h.not_isAnswered fun he => absurd he hfinal)⟩
  written := by
    intro e x s t h ha
    obtain ⟨r, hx, hshows⟩ := h.started
    obtain ⟨-, u, hu, rfl⟩ := Service.takes_of_written (hshows.named_work hx) ha
    exact h.written hu
  refused := by
    intro e x s t err h ha
    obtain ⟨r, hx, hshows⟩ := h.started
    obtain ⟨hrefuses, rfl⟩ := Service.refuses_of_error (hshows.named_work hx) ha
    -- a write without a precondition is refused by an empty slot only
    have hguarded : e.precondition ≠ .unconditional := by
      intro hunconditional
      rcases hrefuses with ⟨hnone, -⟩ | ⟨-, hstale, -⟩
      · have hpresent := hshows.present
        rw [hnone] at hpresent
        cases hpresent
      · rw [hunconditional] at hstale
        exact hstale (.inl rfl)
    have hkept := h.kept (h.not_isAnswered fun _ => hguarded)
    exact ⟨guarantee_heard h.orderly rfl, hkept.heard rfl rfl⟩
  count := by
    intro s t h ha
    rw [Service.eq_of_count ha]
    exact ⟨⟨h.orderly.other rfl, .refl _⟩, h.orderly.other rfl, h.present, h.counted,
      fun _ => h.closed⟩

theorem kept_fresh (r : Stored ns name) (version issued : Nat) :
    (Slot.fresh r version issued).Kept issued where
  orderly := ⟨.nil, by simp [Slot.passes, Slot.fresh]⟩
  present := rfl
  counted := rfl
  closed := nofun

theorem kept_begun {first : Nat} (s : Slot ns name) (h : s.Kept first) :
    (outline ns name first).opened s.begun :=
  ⟨⟨h.orderly.begun, h.present, h.counted, h.closed⟩, rfl⟩

section Run

variable {r : Stored ns name} {version issued : Nat} {S T : SlotScene ns name}
  (hS : Run (Service.strict.surroundings Slot.Edited) Opens ⟨.fresh r version issued, none⟩ S)

include hS

theorem sound : S.Sound (Service.strict.surroundings Slot.Edited) Guarantee (Slot.Kept issued) :=
  (valid ns name issued).sound kept_begun (kept_fresh r version issued) hS

theorem orderly : Orderly S.state.passes := by
  refine (valid ns name issued).keeps (P := fun s => Orderly s.passes) kept_begun
    (kept_fresh r version issued) .refl hS (fun _ _ hg _ => hg.1) ?_ (fun _ h => h.begun)
    (kept_fresh r version issued).orderly
  rintro s t ⟨_, _, -, -, -, rfl⟩ h
  exact h

theorem extends_run (hT : Run (Service.strict.surroundings Slot.Edited) Opens S T) :
    S.state.status.Extends T.state.status :=
  (valid ns name issued).keeps (P := fun s => S.state.status.Extends s.status) kept_begun
    (kept_fresh r version issued) hS hT (fun _ _ hg h => h.trans hg.2)
    (fun _ _ hst h => h.trans (.of_own hst.status_own)) (fun _ h => h) (.refl _)

end Run

end Once

/-- Over any run of passes over one object, at most one order is answered for good, nothing is
signed after it, and no pass has anything signed twice. Between passes, as many certificates were
counted as statuses were written by which the request is issued. From any point of the run on, the
certificate stays once it is there, and the certificate of the authority changes only when the
certificate comes. -/
theorem answered_at_most_once {ns name : String} (r : Stored ns name) (version issued : Nat)
    {S : SlotScene ns name}
    (hS : Run (Service.strict.surroundings Slot.Edited) Opens ⟨.fresh r version issued, none⟩ S) :
    S.state.exchanges.countP Exchange.isAnswered ≤ 1 ∧
    (S.state.exchanges.Pairwise fun later earlier =>
      earlier.isAnswered = true → later.isSign = false) ∧
    (∀ p ∈ S.state.passes, p.countP Exchange.isSign ≤ 1) ∧
    (S.talk = none →
      S.state.issued = issued + S.state.exchanges.countP Exchange.isIssuing) ∧
    ∀ T, Run (Service.strict.surroundings Slot.Edited) Opens S T →
      (S.state.status.certificate.isSome →
        T.state.status.certificate = S.state.status.certificate ∧
          T.state.status.ca = S.state.status.ca) ∧
      (T.state.status.certificate = none → T.state.status.ca = S.state.status.ca) ∧
      ((r.1.currentStatus.ca.isSome → r.1.currentStatus.certificate.isSome) →
        S.state.status.ca.isSome → T.state.status.ca = S.state.status.ca) := by
  have horderly := Once.orderly hS
  refine ⟨horderly.answered_le_one, horderly.last, horderly.single, ?_, fun T hT => ?_⟩
  · intro hrest
    have hsound := Once.sound hS
    rw [Scene.Sound, hrest] at hsound
    exact hsound.counted
  · have hfirst : r.1.currentStatus.Extends S.state.status := Once.extends_run .refl hS
    have hlater := Once.extends_run hS hT
    refine ⟨hlater.eq_of_isSome, hlater.ca_eq_of_none, fun hwith hca => ?_⟩
    exact (hlater.eq_of_isSome (hfirst.isSome_of_ca hwith hca)).2

theorem answered_at_most_once_touched :
    ∃ S : SlotScene "apps" "web",
      Run (Service.strict.surroundings Slot.Edited) Opens
        ⟨.fresh (sampleRequest "Y3Ny" {}) 1 0, none⟩ S ∧
      S.state.version = 3 ∧ S.state.exchanges.countP Exchange.isIssuing = 1 ∧
      S.state.issued = 0 + 1 ∧
      ∀ T, Run (Service.strict.surroundings Slot.Edited) Opens S T →
        T.state.status.certificate = some "Y2hhaW4=" ∧ T.state.status.ca = some "cm9vdA==" := by
  have hrun := run_afterPass (sampleWorld (.ok ⟨"chain", "root"⟩)) sampleSettings .standard
    (later_touching .strict) (.fresh (sampleRequest "Y3Ny" {}) 1 0)
  have honce := answered_at_most_once (sampleRequest "Y3Ny" {}) 1 0 hrun
  refine ⟨_, hrun, by decide +kernel, by decide +kernel, honce.2.2.2.1 rfl, fun T hT => ?_⟩
  obtain ⟨hcertificate, hca⟩ := (honce.2.2.2.2 T hT).1 (by decide +kernel)
  rw [hcertificate, hca]
  decide +kernel

/-- Somebody else may have left a certificate of an authority without a certificate. It gives way
to the one that comes with the certificate. -/
theorem ca_gives_way :
    ¬ ∀ (r : Stored "apps" "web") (version issued : Nat) (S T : SlotScene "apps" "web"),
      Run (Service.strict.surroundings Slot.Edited) Opens ⟨.fresh r version issued, none⟩ S →
      Run (Service.strict.surroundings Slot.Edited) Opens S T →
      ∀ ca, S.state.status.ca = some ca → T.state.status.ca = some ca := by
  intro h
  have hrun := run_afterPass (sampleWorld (.ok ⟨"chain", "root"⟩)) sampleSettings .standard
    (later_touching .strict) (.fresh (sampleRequest "Y3Ny" { ca := some "b2xk" }) 1 0)
  have hca := h _ 1 0 _ _ .refl hrun "b2xk" rfl
  revert hca
  decide +kernel

end CertIssuer.Reconcile
