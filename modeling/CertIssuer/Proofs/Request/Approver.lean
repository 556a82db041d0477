import CertIssuer.Proofs.Request.Landing

/-!
# The conditions of others

A pass sets `Ready` and no other condition, but it writes the list of conditions as a whole, with
the others as they were when it read the request. A write that is pinned to the version that was
read cannot take anything back. The write after an answer of the authority is not pinned: what an
approver has written since the pass began is undone by it.
-/

namespace CertIssuer

namespace RequestStatus

/-- The conditions that passes only read, in their order. -/
def others (s : RequestStatus) : Conditions := s.conditions.filter (·.type ≠ Condition.ready)

end RequestStatus

namespace Reconcile

open RequestStatus
open Dialogue (Step Run)

/-! ### Exits leave them alone -/

theorem others_setReady (x : Work) (status : ConditionStatus) (reason message : String) :
    (x.setReady status reason message).status.others = x.status.others :=
  Conditions.filter_set_other _ _ _ _ _ _ _ fun c hc => by simp [hc]

theorem others_start (r : CertificateRequest) (now : Timestamp) :
    (Work.start r now).status.others = r.currentStatus.others := by
  simp only [Work.start]
  split
  · exact others_setReady _ _ _ _
  · rfl

theorem others_work (e : Exit) (x : Work) : (e.work x).status.others = x.status.others := by
  cases e with
  | awaitApproval => rfl
  | _ => exact others_setReady _ _ _ _

theorem Work.IsStartOf.written_others {r : CertificateRequest} {x : Work} (hx : x.IsStartOf r)
    {e : Exit} {old new : RequestStatus} (hnew : old.Patched (e.work x).status new) :
    new.others = r.currentStatus.others := by
  have hwork : new.others = (e.work x).status.others :=
    congrArg (List.filter _) (hx.written_conditions hnew)
  obtain ⟨-, now, rfl⟩ := hx
  rw [hwork, others_work, others_start]

/-! ### The outline -/

namespace Approver

variable {ns name : String}

/-- A request was read in a pass. Its version tells whether the object is still the same. -/
structure Recalls (r : CertificateRequest) (s : Slot ns name) : Prop where
  named : r.namespace = ns ∧ r.name = name
  read : (⟨.request ns name, .ok (some r)⟩ : Exchange) ∈ s.pass
  version : ∃ v ≤ s.version, r.metadata.resourceVersion = some (toString v) ∧
    (v = s.version → s.status = r.currentStatus)

theorem Recalls.replaced {r : CertificateRequest} {s t : Slot ns name} (h : Recalls r s)
    (hst : s.Replaced t) : Recalls r t := by
  obtain ⟨object, rfl⟩ := hst
  obtain ⟨v, hle, hversion, -⟩ := h.version
  -- an edit moves the version on, so that nothing is to be shown of the status
  have hlt : v < (s.put object).version := Nat.lt_succ_of_le hle
  exact ⟨h.named, h.read, v, Nat.le_of_lt hlt, hversion, fun hv => absurd hv (Nat.ne_of_lt hlt)⟩

theorem Recalls.heard {r : CertificateRequest} {s : Slot ns name} (h : Recalls r s) (q : Question)
    (a : q.Answer) : Recalls r (s.heard q a) :=
  ⟨h.named, List.mem_cons_of_mem _ h.read, h.version⟩

theorem recalls_of_read {v : Service} {others : Slot ns name → Slot ns name → Prop}
    {s t : Slot ns name} {r : CertificateRequest}
    (h : (v.surroundings others).answers s (.request ns name) (.ok (some r)) t) : Recalls r t := by
  have hnamed := (Service.shows_of_read h).named
  obtain ⟨stored, hobject, rfl⟩ := Service.read_of_ok h
  rw [Service.eq_of_read h]
  refine ⟨hnamed, List.mem_cons_self, s.version, Nat.le_refl _, rfl, fun _ => ?_⟩
  change s.status = _
  rw [Slot.status, hobject]
  rfl

/-- A write that is pinned to the version that was read finds the object as it was read. -/
theorem Recalls.eq_of_accepts {r : CertificateRequest} {s : Slot ns name} (h : Recalls r s)
    (haccepts : Service.strict.Accepts s r .resourceVersion) : s.status = r.currentStatus := by
  obtain ⟨v, -, hversion, hsame⟩ := h.version
  have hpinned : some (toString v) = none ∨ some (toString v) = some s.resourceVersion := by
    rw [← hversion]
    exact haccepts
  rcases hpinned with hnone | hsome
  · cases hnone
  · exact hsame (Text.toString_inj (Option.some.inj hsome))

/-- Before an exit is taken: its write is pinned, unless the authority was asked. -/
structure Closing (e : Exit) (x : Work) (s : Slot ns name) : Prop where
  started : x.IsStartOf x.request
  recalls : Recalls x.request s
  asked : e.precondition = .unconditional → ∃ exchange ∈ s.pass, exchange.isSign = true

def outline (ns name : String) : Outline (Slot ns name) where
  opened _ := True
  looking := Recalls
  closing := Closing
  counting _ := True
  idle _ := True

/-- What a write makes of the conditions of others. -/
structure Rewrites (r : CertificateRequest) (p : Precondition) (s t : Slot ns name) : Prop where
  read : (⟨.request ns name, .ok (some r)⟩ : Exchange) ∈ s.pass
  written : ∃ stored new, s.object = some stored ∧ t.object = some (stored.withStatus new) ∧
    new.others = r.currentStatus.others
  pinned : p = .resourceVersion → s.status = r.currentStatus
  asked : p = .unconditional → ∃ exchange ∈ s.pass, exchange.isSign = true

def Guarantee (s t : Slot ns name) : Prop :=
  ∀ r status p, t.pass = ⟨.writeRequest r status p, .ok ()⟩ :: s.pass → Rewrites r p s t

theorem guarantee_of_pass {s t : Slot ns name} {q : Question} {a : q.Answer}
    (ht : t.pass = ⟨q, a⟩ :: s.pass) (hq : ¬ q.IsWrite) : Guarantee s t := by
  intro r status p hpass
  exact absurd hpass (ne_write_of_pass ht hq)

theorem Closing.written {e : Exit} {x : Work} {s t : Slot ns name} (h : Closing e x s)
    (ha : (Service.strict.surroundings Slot.Replaced).answers s
      (.writeRequest x.request (e.work x).status e.precondition) (.ok ()) t) :
    Rewrites x.request e.precondition s t := by
  obtain ⟨haccepts, u, ⟨stored, new, hobject, hnew, rfl⟩, rfl⟩ :=
    Service.takes_of_written h.recalls.named ha
  refine ⟨h.recalls.read, ⟨stored, new, hobject, rfl, h.started.written_others hnew⟩, ?_, h.asked⟩
  intro hpinned
  rw [hpinned] at haccepts
  exact h.recalls.eq_of_accepts haccepts

theorem valid (ns name : String) :
    (outline ns name).Valid (Service.strict.surroundings Slot.Replaced) Guarantee ns name where
  opened_move _ _ := trivial
  looking_move h hst := h.replaced hst
  closing_move h hst := by
    obtain ⟨object, rfl⟩ := hst
    exact ⟨h.started, h.recalls.replaced ⟨object, rfl⟩, h.asked⟩
  counting_move _ _ := trivial
  idle_move _ _ := trivial
  read := by
    intro s t a _ ha
    have ht := Service.eq_of_read ha
    refine ⟨guarantee_of_pass (by rw [ht]; rfl) id, trivial, ?_⟩
    rintro r rfl
    exact recalls_of_read ha
  look := by
    intro r s t q a h hq ha
    rw [Service.eq_of_look hq ha]
    exact ⟨guarantee_of_pass rfl (not_isWrite_of_isLook hq), h.heard q a⟩
  rest _ := trivial
  exit := by
    intro r x e s h hx he
    have hrequest : x.request = r := hx.request
    refine ⟨hrequest.symm ▸ hx, hrequest.symm ▸ h, ?_⟩
    rw [he.2]
    intro hunconditional
    cases hunconditional
  sign := by
    intro r x spec secrets order s t a settings elapsed h hx _ ha
    rw [Service.eq_of_sign ha]
    have hrequest : x.request = r := hx.request
    refine ⟨guarantee_of_pass rfl id, hrequest.symm ▸ hx, hrequest.symm ▸ h.heard _ _, fun _ => ?_⟩
    exact ⟨_, List.mem_cons_self, rfl⟩
  skip := by
    intro e x s h hsame
    exact ⟨h.started.isIssue_eq_false hsame, trivial⟩
  written := by
    intro e x s t h ha
    refine ⟨?_, by split <;> trivial⟩
    intro r status p hpass
    have hrewrites := h.written ha
    obtain ⟨u, -, rfl⟩ := ha
    have hhead := (List.cons.inj hpass).1
    cases hhead
    exact hrewrites
  refused := by
    intro e x s t err h ha
    obtain ⟨-, rfl⟩ := Service.refuses_of_error h.recalls.named ha
    refine ⟨?_, trivial⟩
    intro r status p hpass
    have hhead := (List.cons.inj hpass).1
    cases hhead
  count := by
    intro s t h ha
    rw [Service.eq_of_count ha]
    exact ⟨guarantee_of_pass rfl id, trivial⟩

end Approver

/-- In any run in which others edit, delete and create the object, a write leaves the conditions of
others as the pass has read them. They stay as they are stored exactly when nobody has changed them
since. A write that comes before any answer of the authority is pinned to the version that was read,
and always leaves them. -/
theorem others_kept_iff {ns name : String} (s : Slot ns name) {S T : SlotScene ns name}
    (hS : Run (Service.strict.surroundings Slot.Replaced) Opens ⟨s, none⟩ S)
    (hT : Step (Service.strict.surroundings Slot.Replaced) Opens S T) {r : CertificateRequest}
    {status : RequestStatus} {p : Precondition}
    (hwrite : T.state.pass = ⟨.writeRequest r status p, .ok ()⟩ :: S.state.pass) :
    (⟨.request ns name, .ok (some r)⟩ : Exchange) ∈ S.state.pass ∧
    T.state.status.others = r.currentStatus.others ∧
    (T.state.status.others = S.state.status.others ↔
      S.state.status.others = r.currentStatus.others) ∧
    (p = .resourceVersion → T.state.status.others = S.state.status.others) ∧
    (p = .unconditional → ∃ e ∈ S.state.pass, e.isSign = true) := by
  have hsound := (Approver.valid ns name).sound (fun _ _ => trivial) trivial hS
  -- only an answer makes the pass longer by one exchange
  cases hT with
  | start hopen =>
    obtain ⟨_, _, -, rfl⟩ := hopen
    cases hwrite
  | finish => exact absurd hwrite (List.cons_ne_self _ _).symm
  | move hmove =>
    obtain ⟨_, rfl⟩ := hmove
    exact absurd hwrite (List.cons_ne_self _ _).symm
  | @hear s t q next a ha =>
    have hrewrites := (hsound _ .refl _ _ ha).1 r status p hwrite
    obtain ⟨stored, new, -, hobject, hnew⟩ := hrewrites.written
    have hothers : t.status.others = r.currentStatus.others := by
      rw [Slot.status, hobject]
      exact hnew
    refine ⟨hrewrites.read, hothers, ?_, ?_, hrewrites.asked⟩
    · rw [hothers, eq_comm]
    · intro hpinned
      rw [hothers, hrewrites.pinned hpinned]

def sampleApproval : RequestStatus where
  conditions := [{ type := Condition.approved, status := .isTrue }]

/-- While the authority is busy, an approver denies the request. -/
def denying (q : Question) (s : Slot "apps" "web") : Slot "apps" "web" :=
  match q, s.object with
  | .sign _ _ _, some r =>
    s.put (some (r.withStatus { r.1.currentStatus with
      conditions :=
        r.1.currentStatus.conditions ++ [{ type := Condition.denied, status := .isTrue }] }))
  | _, _ => s

theorem later_denying (v : Service) (q : Question) (s : Slot "apps" "web") :
    (v.surroundings Slot.Replaced).Later s (denying q s) := by
  unfold denying
  split
  · exact .single ⟨_, rfl⟩
  · exact .refl

/-- The write of a certificate takes back a denial that came while the authority was busy. -/
theorem denial_taken_back :
    ∃ S T : SlotScene "apps" "web",
      Run (Service.strict.surroundings Slot.Replaced) Opens
        ⟨.fresh (sampleRequest "Y3Ny" sampleApproval) 1 0, none⟩ S ∧
      Step (Service.strict.surroundings Slot.Replaced) Opens S T ∧
      S.state.status.isDenied = true ∧ T.state.status.isDenied = false ∧
      T.state.status.others = sampleApproval.others ∧
      T.state.status.others ≠ S.state.status.others := by
  have hS := run_partScene (sampleWorld (.ok ⟨"chain", "root"⟩)) {} .standard
    (later_denying .strict) 6 (.fresh (sampleRequest "Y3Ny" sampleApproval) 1 0)
  have hT : Step (Service.strict.surroundings Slot.Replaced) Opens _ _ :=
    step_partScene (sampleWorld (.ok ⟨"chain", "root"⟩)) denying {} .standard (n := 6)
      (s := .fresh (sampleRequest "Y3Ny" sampleApproval) 1 0) rfl fun _ => rfl
  obtain ⟨-, hothers, hiff, -, -⟩ := others_kept_iff _ hS hT rfl
  refine ⟨_, _, hS, hT, by decide +kernel, by decide +kernel, hothers, ?_⟩
  exact fun hkept => absurd (hiff.mp hkept) (by decide +kernel)

end Reconcile

end CertIssuer
