import CertIssuer.Proofs.Conditions
import CertIssuer.Proofs.Request.Survey

/-!
# When a pass has something signed

A world that answers every question in one way holds still for a pass. `Cleared` lists what such a
world must show before a request may be signed; the main statement is that a pass asks the signer
exactly then, and that it asks for nothing but the request itself when that is all it needs to see.
-/

namespace CertIssuer.Reconcile

open Pass

variable (settings : Settings) (scheme : Scheme) (world : (q : Question) → q.Answer)

def Question.IsSign : Question → Prop
  | .sign _ _ _ => True
  | _ => False

/-- The issuer that a request names: in its own namespace, or of the whole cluster. -/
def CertificateRequest.issuerKey (request : CertificateRequest) : IssuerKind → IssuerKey
  | .namespaced => ⟨.namespaced, some request.namespace, request.spec.issuerRef.name⟩
  | .cluster => ⟨.cluster, none, request.spec.issuerRef.name⟩

/-- The first condition of a type says `True`. -/
def Says (conditions : Conditions) (type : String) : Prop :=
  ∃ c, conditions.find? (·.type = type) = some c ∧ c.status = .isTrue

/-- Nothing that the world shows stands in the way of signing. -/
structure Cleared (ns name : String) (request : CertificateRequest) (kind : IssuerKind)
    (issuer : Issuer) (secrets : IssuerSecrets) : Prop where
  stored : world (.request ns name) = .ok (some request)
  ours : scheme.issuerKind? request.spec.issuerRef.group request.spec.issuerRef.kind = some kind
  pending : request.currentStatus.isTerminal = false
  approved : settings.checkApproved = false ∨
    Says request.currentStatus.conditions Condition.approved ∧
      ¬ Says request.currentStatus.conditions Condition.denied
  named : world (.issuer (CertificateRequest.issuerKey request kind)) = .ok (some issuer)
  ready : Says issuer.status.conditions Condition.ready
  loaded : result world (loadSecrets settings issuer) = .ok (.ok secrets)
  csr : ∃ csr, Text.Base64.decode (Text.trim request.spec.request) = .ok csr ∧ csr ≠ []
  duration : ∃ duration, request.spec.requestedDuration = .ok duration
  signer : world (.buildSigner issuer.spec secrets) = .ok ()

/-! ### The gates one by one -/

theorem says_iff (conditions : Conditions) (type : String) :
    Says conditions type ↔ conditions.isTrue type = true := by
  unfold Says Conditions.isTrue Conditions.get?
  cases conditions.find? (·.type = type) <;> simp

theorem gate_eq_proceed_iff (s : RequestStatus) (check : Bool) :
    s.gate check = .proceed ↔ check = false ∨
      Says s.conditions Condition.approved ∧ ¬ Says s.conditions Condition.denied := by
  simp only [says_iff, RequestStatus.gate, RequestStatus.isDenied, RequestStatus.isApproved]
  cases check with
  | false => simp
  | true =>
    by_cases hdenied : s.conditions.isTrue Condition.denied = true
    · simp [hdenied]
    · by_cases happroved : s.conditions.isTrue Condition.approved = true
      · simp [hdenied, happroved]
      · simp [hdenied, happroved]

theorem exists_order_iff (w : Work) :
    (∃ order, w.order? = .ok order) ↔
      (∃ csr, Text.Base64.decode (Text.trim w.request.spec.request) = .ok csr ∧ csr ≠ []) ∧
        ∃ duration, w.request.spec.requestedDuration = .ok duration := by
  constructor
  · rintro ⟨order, horder⟩
    obtain ⟨hcsr, hnonempty, hduration, -⟩ := order?_eq_ok_iff.mp horder
    exact ⟨⟨order.csr, hcsr, hnonempty⟩, order.duration, hduration⟩
  · rintro ⟨⟨csr, hcsr, hnonempty⟩, duration, hduration⟩
    exact ⟨⟨csr, duration, _, _, _⟩,
      order?_eq_ok_iff.mpr ⟨hcsr, hnonempty, hduration, rfl, rfl, rfl⟩⟩

theorem gate_setReady (x : Work) (status : ConditionStatus) (reason message : String)
    (check : Bool) :
    (x.setReady status reason message).status.gate check = x.status.gate check := by
  have hother : ∀ type, type ≠ Condition.ready →
      (x.setReady status reason message).status.conditions.isTrue type =
        x.status.conditions.isTrue type :=
    fun type htype => Conditions.isTrue_set_of_ne _ _ _ _ _ _ _ htype
  have hdenied : (x.setReady status reason message).status.isDenied = x.status.isDenied :=
    hother _ (by decide)
  have happroved : (x.setReady status reason message).status.isApproved = x.status.isApproved :=
    hother _ (by decide)
  simp only [RequestStatus.gate, hdenied, happroved]

theorem gate_start (request : CertificateRequest) (now : Timestamp) (check : Bool) :
    (Work.start request now).status.gate check = request.currentStatus.gate check := by
  simp only [Work.start]
  split
  · exact gate_setReady _ _ _ _ check
  · rfl

theorem start_issuerKey (request : CertificateRequest) (now : Timestamp) (kind : IssuerKind) :
    (Work.start request now).issuerKey kind = CertificateRequest.issuerKey request kind := by
  have hkey : ∀ w : Work, w.issuerKey kind = CertificateRequest.issuerKey w.request kind := by
    intro w
    cases kind <;> rfl
  rw [hkey, start_request]

/-! ### Surveys that come to an order -/

def Orders (x : Pass Finding) : Prop :=
  ∃ w issuer secrets order, result world x = .ok (.order w issuer secrets order)

theorem orders_bind_iff {α : Type} (x : Pass α) (f : α → Pass Finding) :
    Orders world (x >>= f) ↔ ∃ a, result world x = .ok a ∧ Orders world (f a) := by
  simp only [Orders, result_bind_eq_ok]
  constructor
  · rintro ⟨w, issuer, secrets, order, a, ha, hf⟩
    exact ⟨a, ha, w, issuer, secrets, order, hf⟩
  · rintro ⟨a, ha, w, issuer, secrets, order, hf⟩
    exact ⟨w, issuer, secrets, order, a, ha, hf⟩

theorem not_orders_idle : ¬ Orders world (pure .idle) := by
  simp [Orders]

theorem not_orders_exit (w : Work) (e : Exit) : ¬ Orders world (pure (.exit w e)) := by
  simp [Orders]

theorem orders_order (w : Work) (issuer : Issuer) (secrets : IssuerSecrets) (order : SignOrder) :
    Orders world (pure (.order w issuer secrets order)) :=
  ⟨w, issuer, secrets, order, rfl⟩

theorem seekSigner_orders_iff (w : Work) (issuer : Issuer) (secrets : IssuerSecrets)
    (order : SignOrder) (backoff : Span) :
    Orders world (w.seekSigner issuer secrets order backoff) ↔
      world (.buildSigner issuer.spec secrets) = .ok () := by
  have hask : result world (ask (.buildSigner issuer.spec secrets)) =
      .ok (world (.buildSigner issuer.spec secrets)) := rfl
  simp only [Work.seekSigner, orders_bind_iff, hask, Except.ok.injEq, exists_eq_left']
  cases world (.buildSigner issuer.spec secrets) with
  | error e => simp [not_orders_exit]
  | ok u => exact iff_of_true (orders_order world w issuer secrets order) rfl

theorem seekSecrets_orders_iff (w : Work) (issuer : Issuer) (backoff : Span) :
    Orders world (w.seekSecrets settings issuer backoff) ↔
      ∃ secrets, result world (loadSecrets settings issuer) = .ok (.ok secrets) ∧
        (∃ order, w.order? = .ok order) ∧ world (.buildSigner issuer.spec secrets) = .ok () := by
  simp only [Work.seekSecrets, orders_bind_iff]
  constructor
  · rintro ⟨loaded, hload, horders⟩
    cases loaded with
    | error e => exact absurd horders (not_orders_exit world _ _)
    | ok secrets =>
      cases horder : w.order? with
      | error text =>
        simp only [horder] at horders
        exact absurd horders (not_orders_exit world _ _)
      | ok order =>
        simp only [horder, seekSigner_orders_iff] at horders
        exact ⟨secrets, hload, ⟨order, rfl⟩, horders⟩
  · rintro ⟨secrets, hload, ⟨order, horder⟩, hbuild⟩
    refine ⟨.ok secrets, hload, ?_⟩
    simpa only [horder, seekSigner_orders_iff] using hbuild

theorem seekIssuer_orders_iff (w : Work) (kind : IssuerKind) :
    Orders world (w.seekIssuer settings kind) ↔
      ∃ issuer, world (.issuer (w.issuerKey kind)) = .ok (some issuer) ∧
        issuer.status.isReady = true ∧ ∃ secrets,
          result world (loadSecrets settings issuer) = .ok (.ok secrets) ∧
          (∃ order, w.order? = .ok order) ∧
          world (.buildSigner issuer.spec secrets) = .ok () := by
  have hget : result world (getIssuer (w.issuerKey kind)) = world (.issuer (w.issuerKey kind)) :=
    rfl
  simp only [Work.seekIssuer, orders_bind_iff, hget]
  constructor
  · rintro ⟨found, hfound, horders⟩
    cases found with
    | none => exact absurd horders (not_orders_exit world _ _)
    | some issuer =>
      by_cases hready : issuer.status.isReady = true
      · simp only [if_pos hready, seekSecrets_orders_iff] at horders
        exact ⟨issuer, hfound, hready, horders⟩
      · simp only [if_neg hready] at horders
        exact absurd horders (not_orders_exit world _ _)
  · rintro ⟨issuer, hfound, hready, hsecrets⟩
    refine ⟨some issuer, hfound, ?_⟩
    simpa only [if_pos hready, seekSecrets_orders_iff] using hsecrets

theorem seekApproval_orders_iff (w : Work) (kind : IssuerKind) :
    Orders world (w.seekApproval settings kind) ↔
      w.status.gate settings.checkApproved = .proceed ∧
        Orders world (w.seekIssuer settings kind) := by
  unfold Work.seekApproval
  cases w.status.gate settings.checkApproved with
  | proceed => simp
  | awaitApproval => simp [not_orders_exit]
  | denied => simp [not_orders_exit]

theorem surveyOf_orders_iff (request : CertificateRequest) :
    Orders world (surveyOf settings scheme (some request)) ↔
      ∃ kind, issuerKindOf? scheme request = some kind ∧
        request.currentStatus.isTerminal = false ∧
        ∃ now : Timestamp, result world Pass.now = .ok now ∧
          Orders world ((Work.start request now).seekApproval settings kind) := by
  simp only [surveyOf]
  cases issuerKindOf? scheme request with
  | none => simp [not_orders_idle]
  | some kind =>
    cases request.currentStatus.isTerminal with
    | true => simp [not_orders_idle]
    | false => simp [orders_bind_iff]

/-- What is asked of the work of a pass, said of the request that it read. -/
theorem start_orders_iff (request : CertificateRequest) (now : Timestamp) (kind : IssuerKind) :
    Orders world ((Work.start request now).seekApproval settings kind) ↔
      (settings.checkApproved = false ∨
        Says request.currentStatus.conditions Condition.approved ∧
          ¬ Says request.currentStatus.conditions Condition.denied) ∧
      ∃ issuer, world (.issuer (CertificateRequest.issuerKey request kind)) = .ok (some issuer) ∧
        Says issuer.status.conditions Condition.ready ∧ ∃ secrets,
          result world (loadSecrets settings issuer) = .ok (.ok secrets) ∧
          ((∃ csr, Text.Base64.decode (Text.trim request.spec.request) = .ok csr ∧ csr ≠ []) ∧
            ∃ duration, request.spec.requestedDuration = .ok duration) ∧
          world (.buildSigner issuer.spec secrets) = .ok () := by
  rw [seekApproval_orders_iff, seekIssuer_orders_iff, gate_start, gate_eq_proceed_iff,
    start_issuerKey]
  simp only [exists_order_iff, start_request, says_iff]
  rfl

theorem survey_orders_iff (ns name : String) :
    Orders world (survey settings scheme ns name) ↔ ∃ request kind issuer secrets,
      Cleared settings scheme world ns name request kind issuer secrets := by
  have hget : result world (getRequest ns name) = world (.request ns name) := rfl
  simp only [survey, orders_bind_iff, hget]
  constructor
  · rintro ⟨found, hfound, horders⟩
    cases found with
    | none => exact absurd horders (not_orders_idle world)
    | some request =>
      obtain ⟨kind, hkind, hpending, now, -, hstart⟩ := (surveyOf_orders_iff _ _ _ _).mp horders
      obtain ⟨hgate, issuer, hnamed, hready, secrets, hload, ⟨hcsr, hduration⟩, hbuild⟩ :=
        (start_orders_iff _ _ _ _ _).mp hstart
      exact ⟨request, kind, issuer, secrets, hfound, hkind, hpending, hgate, hnamed, hready, hload,
        hcsr, hduration, hbuild⟩
  · rintro ⟨request, kind, issuer, secrets, h⟩
    have hstart : Orders world ((Work.start request (world .now)).seekApproval settings kind) :=
      (start_orders_iff _ _ _ _ _).mpr ⟨h.approved, issuer, h.named, h.ready, secrets, h.loaded,
        ⟨h.csr, h.duration⟩, h.signer⟩
    exact ⟨some request, h.stored,
      (surveyOf_orders_iff _ _ _ _).mpr ⟨kind, h.ours, h.pending, _, rfl, hstart⟩⟩

/-! ### Passes -/

/-- After its survey a pass asks the signer if there is an order, and closes. -/
theorem asked_act (finding : Finding) :
    (∃ q ∈ asked world (act settings finding), q.IsSign) ↔
      ∃ w issuer secrets order, finding = .order w issuer secrets order := by
  cases finding with
  | idle => simp [act]
  | exit w e =>
    simp only [act, reduceCtorEq, exists_false, iff_false]
    rintro ⟨q, hq, hsign⟩
    have hclosing : q.IsClosing := (take_within e w).asked world q hq
    cases q with
    | sign spec secrets order => exact hclosing
    | _ => exact hsign
  | order w issuer secrets order =>
    refine iff_of_true ⟨.sign issuer.spec secrets order, ?_, trivial⟩
      ⟨w, issuer, secrets, order, rfl⟩
    exact List.mem_cons_self

theorem not_isSign_of_isLook {q : Question} (h : q.IsLook) : ¬ q.IsSign := by
  cases q with
  | sign spec secrets order => exact h.elim
  | _ => exact id

theorem asks_sign_iff_orders (ns name : String) :
    (∃ q ∈ asked world (requestPass settings scheme ns name), q.IsSign) ↔
      Orders world (survey settings scheme ns name) := by
  have hlook : ∀ q ∈ asked world (survey settings scheme ns name), ¬ q.IsSign := fun q hq =>
    not_isSign_of_isLook ((survey_within settings scheme ns name).asked world q hq)
  -- the survey itself never asks the signer, so the question is asked in acting on its finding
  rw [requestPass_eq, asked_bind]
  simp only [List.mem_append, or_and_right, exists_or]
  rw [or_iff_right (by simpa using hlook)]
  unfold Orders
  cases result world (survey settings scheme ns name) with
  | error e => simp
  | ok finding => simp [asked_act]

/-! ### Surveys that stop at once -/

/-- A stored request that names an issuer of ours and is not terminal. -/
def IsOpen (ns name : String) : Prop :=
  ∃ request kind, world (.request ns name) = .ok (some request) ∧
    scheme.issuerKind? request.spec.issuerRef.group request.spec.issuerRef.kind = some kind ∧
    request.currentStatus.isTerminal = false

theorem isOpen_iff {ns name : String} {found : Option CertificateRequest}
    (hfound : world (.request ns name) = .ok found) :
    IsOpen scheme world ns name ↔ ∃ request kind, found = some request ∧
      issuerKindOf? scheme request = some kind ∧ request.currentStatus.isTerminal = false := by
  constructor
  · rintro ⟨request, kind, hstored, hopen⟩
    exact ⟨request, kind, Except.ok.inj (hfound.symm.trans hstored), hopen⟩
  · rintro ⟨request, kind, rfl, hopen⟩
    exact ⟨request, kind, hfound, hopen⟩

theorem not_isOpen_of_error {ns name : String} {e : ControllerError}
    (hfound : world (.request ns name) = .error e) : ¬ IsOpen scheme world ns name := by
  rintro ⟨request, kind, hstored, -⟩
  have hsame : (Except.error e : Except ControllerError (Option CertificateRequest)) =
      .ok (some request) := hfound.symm.trans hstored
  cases hsame

theorem asked_requestPass (ns name : String)
    (read : Except ControllerError (Option CertificateRequest))
    (hread : world (.request ns name) = read) :
    asked world (requestPass settings scheme ns name) =
      .request ns name :: match read with
        | .ok found => asked world (surveyOf settings scheme found >>= act settings)
        | .error _ => [] := by
  have hresult : result world (getRequest ns name) = read := hread
  have hasked : asked world (getRequest ns name) = [.request ns name] := rfl
  rw [requestPass_eq, survey, bind_assoc, asked_bind, hasked, hresult]
  cases read <;> rfl

/-- The survey of a request that is not open asks nothing, and any other asks for the time. -/
theorem asked_surveyOf_eq_nil_iff (found : Option CertificateRequest) :
    asked world (surveyOf settings scheme found >>= act settings) = [] ↔
      ¬ ∃ request kind, found = some request ∧ issuerKindOf? scheme request = some kind ∧
        request.currentStatus.isTerminal = false := by
  cases found with
  | none => simp [surveyOf_none, act]
  | some request =>
    simp only [surveyOf]
    cases hkind : issuerKindOf? scheme request with
    | none => simp [act, hkind]
    | some kind =>
      cases hterminal : request.currentStatus.isTerminal with
      | true => simp [act, hterminal]
      | false =>
        have hnow : asked world Pass.now = [.now] := rfl
        simp [asked_bind, hnow, hkind, hterminal]

/-! ### The gate -/

/-- A pass asks the signer exactly when all that it reads is clear for that, and when there is no
open request it asks for nothing but the request. -/
theorem asks_sign_iff_cleared (ns name : String) :
    ((∃ q ∈ asked world (requestPass settings scheme ns name), q.IsSign) ↔
      ∃ request kind issuer secrets,
        Cleared settings scheme world ns name request kind issuer secrets) ∧
    (asked world (requestPass settings scheme ns name) = [.request ns name] ↔
      ¬ IsOpen scheme world ns name) := by
  refine ⟨(asks_sign_iff_orders _ _ _ _ _).trans (survey_orders_iff _ _ _ _ _), ?_⟩
  cases hfound : world (.request ns name) with
  | error e =>
    rw [asked_requestPass settings scheme world ns name _ hfound]
    simp [not_isOpen_of_error scheme world hfound]
  | ok found =>
    rw [asked_requestPass settings scheme world ns name _ hfound, isOpen_iff scheme world hfound,
      ← asked_surveyOf_eq_nil_iff settings scheme world found]
    simp

end CertIssuer.Reconcile
