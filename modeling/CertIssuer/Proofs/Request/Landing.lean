import CertIssuer.Proofs.Request.Rehearsal

/-!
# Where a certificate lands

A status is written to whatever object has the name of the request that was read. While a pass waits
for the authority, the object may be deleted and another one created in its place. The write after
the answer is not pinned to a version, so the certificate lands on the other object, whatever its
spec asks for.
-/

namespace CertIssuer.Reconcile

open Dialogue (Step Run)

def Question.IsWrite : Question → Prop
  | .writeRequest _ _ _ => True
  | _ => False

theorem not_isWrite_of_isLook {q : Question} (h : q.IsLook) : ¬ q.IsWrite := by
  cases q with
  | writeRequest r status p => exact h.elim
  | _ => exact id

/-- What is no write does not make a pass longer by a write. -/
theorem ne_write_of_pass {ns name : String} {s t : Slot ns name} {q : Question} {a : q.Answer}
    (ht : t.pass = ⟨q, a⟩ :: s.pass) (hq : ¬ q.IsWrite) {r : CertificateRequest}
    {status : RequestStatus} {p : Precondition} :
    t.pass ≠ ⟨.writeRequest r status p, .ok ()⟩ :: s.pass := by
  intro hpass
  rw [ht] at hpass
  have hhead := (List.cons.inj hpass).1
  cases hhead
  exact hq trivial

/-- Among some exchanges, the authority answered the request of a text with a certificate. -/
def AnsweredWith (es : List Exchange) (request certificate : String) : Prop :=
  ∃ spec secrets order signed,
    (⟨.sign spec secrets order, some (.ok signed)⟩ : Exchange) ∈ es ∧
      Text.Base64.decode (Text.trim request) = .ok order.csr ∧
      certificate = Text.Base64.encode (Text.toBytes signed.chain)

/-- A pass that read a request had one order signed, for that request, and was answered with a
certificate. -/
structure Earned (ns name : String) (es : List Exchange) (r : CertificateRequest)
    (certificate : String) : Prop where
  named : r.namespace = ns ∧ r.name = name
  read : (⟨.request ns name, .ok (some r)⟩ : Exchange) ∈ es
  once : es.countP Exchange.isSign = 1
  answered : AnsweredWith es r.spec.request certificate

theorem eq_of_countP_eq_one {es : List Exchange} (h : es.countP Exchange.isSign = 1)
    {e e' : Exchange} (he : e ∈ es) (hsign : e.isSign = true) (he' : e' ∈ es)
    (hsign' : e'.isSign = true) : e = e' := by
  rw [List.countP_eq_length_filter] at h
  obtain ⟨only, honly⟩ := List.length_eq_one_iff.mp h
  have hmem : ∀ d ∈ es, d.isSign = true → d = only := by
    intro d hd hdsign
    have hfilter : d ∈ es.filter Exchange.isSign := List.mem_filter.mpr ⟨hd, hdsign⟩
    rw [honly] at hfilter
    exact List.mem_singleton.mp hfilter
  rw [hmem e he hsign, hmem e' he' hsign']

/-- A certificate that was earned is the answer to another text exactly when that text spells the
same request. -/
theorem Earned.answeredWith_iff {ns name : String} {es : List Exchange} {r : CertificateRequest}
    {certificate : String} (h : Earned ns name es r certificate) (other : String) :
    AnsweredWith es other certificate ↔
      Text.Base64.decode (Text.trim other) =
        Text.Base64.decode (Text.trim r.spec.request) := by
  obtain ⟨spec, secrets, order, signed, hmem, hdecode, hcertificate⟩ := h.answered
  constructor
  · rintro ⟨spec', secrets', order', signed', hmem', hdecode', -⟩
    have hsame := eq_of_countP_eq_one h.once hmem' rfl hmem rfl
    cases hsame
    rw [hdecode', hdecode]
  · intro hother
    exact ⟨spec, secrets, order, signed, hmem, hother.trans hdecode, hcertificate⟩

/-! ### The outline -/

namespace Landing

variable {ns name : String}

/-- Before an exit is taken: a certificate that it writes was earned. -/
structure Closing (e : Exit) (x : Work) (s : Slot ns name) : Prop where
  started : x.IsStartOf x.request
  named : x.request.namespace = ns ∧ x.request.name = name
  earned : ∀ certificate, (e.work x).status.certificate = some certificate →
    Earned ns name s.pass x.request certificate

def outline (ns name : String) : Outline (Slot ns name) where
  opened s := s.pass = []
  looking r s := (r.namespace = ns ∧ r.name = name) ∧
    (⟨.request ns name, .ok (some r)⟩ : Exchange) ∈ s.pass ∧ s.pass.countP Exchange.isSign = 0
  closing := Closing
  counting _ := True
  idle _ := True

/-- Of a certificate that is written, the pass before the write has earned it. -/
def Guarantee (s t : Slot ns name) : Prop :=
  ∀ r status p certificate, t.pass = ⟨.writeRequest r status p, .ok ()⟩ :: s.pass →
    status.certificate = some certificate → Earned ns name s.pass r certificate

theorem guarantee_of_pass {s t : Slot ns name} {q : Question} {a : q.Answer}
    (ht : t.pass = ⟨q, a⟩ :: s.pass) (hq : ¬ q.IsWrite) : Guarantee s t := by
  intro r status p certificate hpass
  exact absurd hpass (ne_write_of_pass ht hq)

theorem signed {s : Slot ns name} {r : CertificateRequest} {x : Work} {spec : IssuerSpec}
    {secrets : IssuerSecrets} {order : SignOrder}
    (a : Option (Except SignerError SignedCertificate)) (settings : Settings) (elapsed : Span)
    (h : (outline ns name).looking r s) (hx : x.IsStartOf r) (horder : x.order? = .ok order) :
    Closing (exitAfter settings elapsed (a.getD (Work.timedOut settings))) x
      (s.heard (.sign spec secrets order) a) := by
  obtain ⟨hnamed, hread, hfirst⟩ := h
  have hrequest : x.request = r := hx.request
  refine ⟨hrequest.symm ▸ hx, hrequest ▸ hnamed, fun certificate hcertificate => ?_⟩
  obtain ⟨signed, hsigned⟩ := eq_ok_of_exitAfter (hx.isIssue_of_certificate hcertificate)
  cases a with
  | none => cases hsigned
  | some answer =>
    have hanswer : answer = .ok signed := hsigned
    subst hanswer
    have hencoded : certificate = Text.Base64.encode (Text.toBytes signed.chain) :=
      (Option.some.inj hcertificate).symm
    refine ⟨hrequest ▸ hnamed, ?_, ?_, spec, secrets, order, signed, ?_,
      (order?_eq_ok_iff.mp horder).1, hencoded⟩
    · rw [hrequest]
      exact List.mem_cons_of_mem _ hread
    · exact (List.countP_cons_of_pos rfl).trans (congrArg (· + 1) hfirst)
    · exact List.mem_cons_self

theorem valid (v : Service) (ns name : String) :
    (outline ns name).Valid (v.surroundings Slot.Replaced) Guarantee ns name where
  opened_move := by
    rintro s t h ⟨_, rfl⟩
    exact h
  looking_move := by
    rintro r s t h ⟨_, rfl⟩
    exact h
  closing_move := by
    rintro e x s t h ⟨_, rfl⟩
    exact ⟨h.started, h.named, h.earned⟩
  counting_move _ _ := trivial
  idle_move _ _ := trivial
  read := by
    intro s t a h ha
    obtain rfl := Service.eq_of_read ha
    refine ⟨guarantee_of_pass rfl id, trivial, ?_⟩
    rintro r rfl
    refine ⟨(Service.shows_of_read ha).named, List.mem_cons_self, ?_⟩
    change List.countP Exchange.isSign (_ :: s.pass) = 0
    rw [show s.pass = [] from h]
    rfl
  look := by
    intro r s t q a h hq ha
    rw [Service.eq_of_look hq ha]
    refine ⟨guarantee_of_pass rfl (not_isWrite_of_isLook hq), h.1, List.mem_cons_of_mem _ h.2.1, ?_⟩
    · rw [Slot.pass_heard, List.countP_cons_of_neg (by simp [Exchange.isSign_look hq])]
      exact h.2.2
  rest _ := trivial
  exit := by
    intro r x e s h hx he
    refine ⟨hx.request.symm ▸ hx, hx.request ▸ h.1, fun certificate hcertificate => ?_⟩
    have hissue := hx.isIssue_of_certificate hcertificate
    rw [he.1] at hissue
    cases hissue
  sign := by
    intro r x spec secrets order s t a settings elapsed h hx horder ha
    rw [Service.eq_of_sign ha]
    exact ⟨guarantee_of_pass rfl id, signed a settings elapsed h hx horder⟩
  skip := by
    intro e x s h hsame
    exact ⟨h.started.isIssue_eq_false hsame, trivial⟩
  written := by
    intro e x s t h ha
    obtain ⟨-, u, hu, rfl⟩ := Service.takes_of_written h.named ha
    obtain ⟨_, _, -, -, rfl⟩ := hu
    refine ⟨?_, by split <;> trivial⟩
    intro r status p certificate hpass hcertificate
    have hhead := (List.cons.inj hpass).1
    cases hhead
    exact h.earned certificate hcertificate
  refused := by
    intro e x s t err h ha
    obtain ⟨-, rfl⟩ := Service.refuses_of_error h.named ha
    refine ⟨?_, trivial⟩
    intro r status p certificate hpass
    have hhead := (List.cons.inj hpass).1
    cases hhead
  count := by
    intro s t h ha
    rw [Service.eq_of_count ha]
    exact ⟨guarantee_of_pass rfl id, trivial⟩

end Landing

/-- In any run in which others edit, delete and create the object, a certificate that a pass writes
was earned for the request that the pass read. It is the answer to the request of the object that it
lands on exactly when that object asks for the same. -/
theorem certificate_lands_iff {ns name : String} (v : Service) (s : Slot ns name)
    {S T : SlotScene ns name} (hS : Run (v.surroundings Slot.Replaced) Opens ⟨s, none⟩ S)
    (hT : Step (v.surroundings Slot.Replaced) Opens S T) {r : CertificateRequest}
    {status : RequestStatus} {p : Precondition} {certificate : String}
    (hwrite : T.state.pass = ⟨.writeRequest r status p, .ok ()⟩ :: S.state.pass)
    (hcertificate : status.certificate = some certificate) :
    ∃ stored new, S.state.object = some stored ∧ T.state.object = some (stored.withStatus new) ∧
      new.certificate = some certificate ∧ Earned ns name S.state.pass r certificate ∧
      (AnsweredWith S.state.pass stored.1.spec.request certificate ↔
        Text.Base64.decode (Text.trim stored.1.spec.request) =
          Text.Base64.decode (Text.trim r.spec.request)) := by
  have hsound := (Landing.valid v ns name).sound (fun _ _ => rfl) trivial hS
  -- only an answer makes the pass longer by one exchange
  cases hT with
  | start hopen =>
    obtain ⟨_, _, -, rfl⟩ := hopen
    cases hwrite
  | finish => exact absurd hwrite (List.cons_ne_self _ _).symm
  | move hmove =>
    obtain ⟨_, rfl⟩ := hmove
    exact absurd hwrite (List.cons_ne_self _ _).symm
  | @hear s t q next a ha =>
    have hearned := (hsound _ .refl _ _ ha).1 r status p certificate hwrite hcertificate
    have hexchange : (⟨q, a⟩ : Exchange) = ⟨.writeRequest r status p, .ok ()⟩ := by
      obtain ⟨u, -, rfl⟩ := ha
      exact (List.cons.inj hwrite).1
    cases hexchange
    obtain ⟨-, u, ⟨stored, new, hobject, hnew, rfl⟩, rfl⟩ :=
      Service.takes_of_written hearned.named ha
    refine ⟨stored, new, hobject, rfl, ?_, hearned, hearned.answeredWith_iff _⟩
    rcases hnew with rfl | rfl
    · exact hcertificate
    · simp [RequestStatus.merge, hcertificate]

/-- While the authority is busy, the object gives way to one that asks for something else. -/
def giveWay (q : Question) (s : Slot "apps" "web") : Slot "apps" "web" :=
  match q with
  | .sign _ _ _ => s.put (some (sampleRequest "Y3NyIEI=" {}))
  | _ => s

theorem later_giveWay (v : Service) (q : Question) (s : Slot "apps" "web") :
    (v.surroundings Slot.Replaced).Later s (giveWay q s) := by
  unfold giveWay
  split
  · exact .single ⟨_, rfl⟩
  · exact .refl

/-- The certificate for one request lands on another one. -/
theorem certificate_lands_elsewhere :
    ∃ (S T : SlotScene "apps" "web") (stored : Stored "apps" "web") (certificate : String),
      Run (Service.strict.surroundings Slot.Replaced) Opens
        ⟨.fresh (sampleRequest "Y3NyIEE=" {}) 1 0, none⟩ S ∧
      Step (Service.strict.surroundings Slot.Replaced) Opens S T ∧
      T.state.object = some stored ∧ stored.1.spec.request = "Y3NyIEI=" ∧
      stored.1.currentStatus.certificate = some certificate ∧
      AnsweredWith S.state.pass "Y3NyIEE=" certificate ∧
      ¬ AnsweredWith S.state.pass "Y3NyIEI=" certificate := by
  have hS := run_partScene (sampleWorld (.ok ⟨"chain", "root"⟩)) sampleSettings .standard
    (later_giveWay .strict) 6 (.fresh (sampleRequest "Y3NyIEE=" {}) 1 0)
  have hT : Step (Service.strict.surroundings Slot.Replaced) Opens _ _ :=
    step_partScene (sampleWorld (.ok ⟨"chain", "root"⟩)) giveWay sampleSettings .standard (n := 6)
      (s := .fresh (sampleRequest "Y3NyIEE=" {}) 1 0) rfl fun _ => rfl
  obtain ⟨stored, new, hobject, hlanded, hcertificate, hearned, hiff⟩ :=
    certificate_lands_iff .strict _ hS hT rfl rfl
  have hstored : stored = sampleRequest "Y3NyIEI=" {} := (Option.some.inj hobject).symm
  subst hstored
  refine ⟨_, _, _, _, hS, hT, hlanded, rfl, hcertificate, hearned.answered, ?_⟩
  have hother : Text.Base64.decode (Text.trim "Y3NyIEI=") ≠
      Text.Base64.decode (Text.trim "Y3NyIEE=") :=
    fun hsame => absurd (congrArg Except.toOption hsame) (by decide +kernel)
  exact fun hanswered => hother (hiff.mp hanswered)

end CertIssuer.Reconcile
