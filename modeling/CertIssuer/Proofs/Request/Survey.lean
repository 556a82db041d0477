import CertIssuer.Proofs.Request.Phases

/-!
# What a survey finds

The first phase of a pass leaves everything as it is, and whatever it is answered, the work that it
hands on was begun on the request that it read (`surveyOf_within`). An exit only writes and counts
(`take_within`), so that a pass has something signed exactly when its survey comes to an order.
-/

namespace CertIssuer.Reconcile

/-- The questions of a survey. None of them changes an object or has anything signed. -/
def Question.IsLook : Question → Prop
  | .now | .issuer _ | .request _ _ | .secret _ | .buildSigner _ _ => True
  | _ => False

/-- The work of a pass over a request that was not terminal when it was read. -/
def Work.IsStartOf (request : CertificateRequest) (w : Work) : Prop :=
  request.currentStatus.isTerminal = false ∧ ∃ now, w = Work.start request now

theorem start_request (request : CertificateRequest) (now : Timestamp) :
    (Work.start request now).request = request := by
  simp only [Work.start]
  split <;> rfl

/-- An order is made of a text that spells some bytes and of a lifetime that can be read. -/
theorem order?_eq_ok_iff {w : Work} {order : SignOrder} :
    w.order? = .ok order ↔
      Text.Base64.decode (Text.trim w.request.spec.request) = .ok order.csr ∧ order.csr ≠ [] ∧
        w.request.spec.requestedDuration = .ok order.duration ∧
        order.usages = w.request.spec.usages ∧ order.isCA = w.request.spec.isCA ∧
        order.metadata = enrollmentMetadata w.request.metadata.allAnnotations := by
  obtain ⟨csr, duration, usages, isCA, metadata⟩ := order
  cases hcsr : Text.Base64.decode (Text.trim w.request.spec.request) with
  | error e => simp [Work.order?, hcsr, bind, Except.bind]
  | ok bytes =>
    cases bytes with
    | nil =>
      simp only [Work.order?, hcsr, bind, Except.bind, reduceCtorEq, Except.ok.injEq, false_iff]
      rintro ⟨rfl, hnonempty, -⟩
      exact hnonempty rfl
    | cons b rest =>
      cases hduration : w.request.spec.requestedDuration with
      | error e => simp [Work.order?, hcsr, hduration, bind, Except.bind]
      | ok lifetime =>
        simp only [Work.order?, hcsr, hduration, bind, Except.bind, pure, Except.pure,
          Except.ok.injEq, SignOrder.mk.injEq]
        constructor
        · rintro ⟨rfl, rfl, rfl, rfl, rfl⟩
          exact ⟨rfl, List.cons_ne_nil _ _, rfl, rfl, rfl, rfl⟩
        · rintro ⟨rfl, -, rfl, rfl, rfl, rfl⟩
          exact ⟨rfl, rfl, rfl, rfl, rfl⟩

/-- What comes of looking around with some work. -/
def Finding.IsBy (w : Work) : Finding → Prop
  | .idle => False
  | .exit w' e => w' = w ∧ e.IsEarly
  | .order w' _ _ o => w' = w ∧ w.order? = .ok o

def Finding.IsOf (request : CertificateRequest) : Finding → Prop
  | .idle => True
  | .exit w e => w.IsStartOf request ∧ e.IsEarly
  | .order w _ _ o => w.IsStartOf request ∧ w.order? = .ok o

theorem Finding.IsBy.isOf {finding : Finding} {request : CertificateRequest} {w : Work}
    (h : finding.IsBy w) (hw : w.IsStartOf request) : finding.IsOf request := by
  cases finding with
  | idle => exact h.elim
  | exit w' e =>
    obtain ⟨rfl, he⟩ := h
    exact ⟨hw, he⟩
  | order w' issuer secrets order =>
    obtain ⟨rfl, horder⟩ := h
    exact ⟨hw, horder⟩

open Pass

/-! ### Whatever is answered -/

/-- A spec names a secret, in one role or the other. -/
def Names (spec : IssuerSpec) (name : String) : Prop :=
  Text.trimmed? spec.commandSecretName = some name ∨
    spec.caSecretName.bind Text.trimmed? = some name

section Secrets

variable {Asks : Question → Prop} {ns : String}

theorem requiredSecret_asks {name : String} (h : Asks (.secret ⟨ns, name⟩)) :
    Within Asks (fun _ => True) (requiredSecret ns name) := by
  refine (within_getSecret h).bind fun found _ => ?_
  cases found <;> exact within_pure trivial

theorem secretsIn_asks {spec : IssuerSpec}
    (hsecret : ∀ name, Names spec name → Asks (.secret ⟨ns, name⟩)) :
    Within Asks (fun _ => True) (secretsIn ns spec) := by
  unfold secretsIn
  cases hname : Text.trimmed? spec.commandSecretName with
  | none => exact within_pure trivial
  | some name =>
    refine (requiredSecret_asks (hsecret name (.inl hname))).bind fun credentials _ => ?_
    cases credentials with
    | error e => exact within_pure trivial
    | ok credentials =>
      cases hca : spec.caSecretName.bind Text.trimmed? with
      | none => exact within_pure trivial
      | some name =>
        refine (requiredSecret_asks (hsecret name (.inr hca))).bind fun ca _ => ?_
        cases ca <;> exact within_pure trivial

/-- The secrets that an issuer names are looked up where they must lie, and nothing else is asked
for. -/
theorem loadSecrets_asks {settings : Settings} {issuer : Issuer}
    (hsecret : ∀ ns name, secretNamespace settings issuer = .ok ns → Names issuer.spec name →
      Asks (.secret ⟨ns, name⟩)) :
    Within Asks (fun _ => True) (loadSecrets settings issuer) := by
  unfold loadSecrets
  cases hns : secretNamespace settings issuer with
  | error e => exact within_pure trivial
  | ok ns => exact secretsIn_asks fun name => hsecret ns name hns

end Secrets

theorem loadSecrets_within (settings : Settings) (issuer : Issuer) :
    Within Question.IsLook (fun _ => True) (loadSecrets settings issuer) :=
  loadSecrets_asks fun _ _ _ _ => trivial

section Seek

variable (w : Work)

theorem seekSigner_within {order : SignOrder} (horder : w.order? = .ok order) (issuer : Issuer)
    (secrets : IssuerSecrets) (backoff : Span) :
    Within Question.IsLook (Finding.IsBy w)
      (w.seekSigner issuer secrets order backoff) := by
  refine (within_ask trivial).bind fun built _ => ?_
  cases built with
  | error e => exact within_pure ⟨rfl, rfl, rfl⟩
  | ok u => exact within_pure ⟨rfl, horder⟩

theorem seekSecrets_within (settings : Settings) (issuer : Issuer) (backoff : Span) :
    Within Question.IsLook (Finding.IsBy w) (w.seekSecrets settings issuer backoff) := by
  refine (loadSecrets_within settings issuer).bind fun loaded _ => ?_
  cases loaded with
  | error e => exact within_pure ⟨rfl, rfl, rfl⟩
  | ok secrets =>
    cases horder : w.order? with
    | error text => exact within_pure ⟨rfl, rfl, rfl⟩
    | ok order => exact seekSigner_within w horder issuer secrets backoff

theorem seekIssuer_within (settings : Settings) (kind : IssuerKind) :
    Within Question.IsLook (Finding.IsBy w) (w.seekIssuer settings kind) := by
  refine (within_getIssuer trivial).bind fun found _ => ?_
  cases found with
  | none => exact within_pure ⟨rfl, rfl, rfl⟩
  | some issuer =>
    by_cases hready : issuer.status.isReady
    · simp only [if_pos hready]
      exact seekSecrets_within w settings issuer _
    · simp only [if_neg hready]
      exact within_pure ⟨rfl, rfl, rfl⟩

theorem seekApproval_within (settings : Settings) (kind : IssuerKind) :
    Within Question.IsLook (Finding.IsBy w) (w.seekApproval settings kind) := by
  unfold Work.seekApproval
  cases w.status.gate settings.checkApproved with
  | proceed => exact seekIssuer_within w settings kind
  | awaitApproval => exact within_pure ⟨rfl, rfl, rfl⟩
  | denied => exact within_pure ⟨rfl, rfl, rfl⟩

end Seek

theorem surveyOf_none (settings : Settings) (scheme : Scheme) :
    surveyOf settings scheme none = pure .idle := rfl

theorem surveyOf_within (settings : Settings) (scheme : Scheme) (request : CertificateRequest) :
    Within Question.IsLook (Finding.IsOf request) (surveyOf settings scheme (some request)) := by
  simp only [surveyOf]
  cases issuerKindOf? scheme request with
  | none => exact within_pure trivial
  | some kind =>
    by_cases hterminal : request.currentStatus.isTerminal
    · simp only [if_pos hterminal]
      exact within_pure trivial
    · simp only [if_neg hterminal]
      refine (within_ask trivial).bind fun now _ => ?_
      have hstart : (Work.start request now).IsStartOf request :=
        ⟨by simpa using hterminal, now, rfl⟩
      exact (seekApproval_within _ settings kind).mono fun _ hfinding => hfinding.isOf hstart

theorem survey_within (settings : Settings) (scheme : Scheme) (ns name : String) :
    Within Question.IsLook (fun _ => True) (survey settings scheme ns name) := by
  refine (within_getRequest trivial).bind fun found _ => ?_
  cases found with
  | none => exact within_pure trivial
  | some request => exact (surveyOf_within settings scheme request).mono fun _ _ => trivial

/-! ### Exits -/

theorem work_request (e : Exit) (x : Work) : (e.work x).request = x.request := by
  cases e <;> rfl

def Question.IsClosing : Question → Prop
  | .writeRequest _ _ _ | .recordIssued => True
  | _ => False

theorem write_within (w : Work) (p : Precondition) :
    Within Question.IsClosing (fun _ => True) (w.write p) := by
  unfold Work.write
  split
  · exact within_pure trivial
  · exact within_writeRequest trivial

theorem take_within (e : Exit) (w : Work) :
    Within Question.IsClosing (fun _ => True) (e.take w) := by
  unfold Exit.take
  refine (write_within _ _).bind fun _ _ => ?_
  cases e.isIssue with
  | false => exact within_pure trivial
  | true => exact (within_ask trivial).bind fun _ _ => within_pure trivial

end CertIssuer.Reconcile
