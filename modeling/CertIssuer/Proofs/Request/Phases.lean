import CertIssuer.Proofs.Dialogue.Within
import CertIssuer.Reconcile.Request

/-!
# The phases of a pass over a request

A pass over a request first looks around, then may have the request signed, and at last may write
its status. The first phase only reads and has a signer built; what comes of it is a `Finding`. The
ways in which the last phase can go are the values of `Exit`. `requestPass_eq` says that a pass is
these phases one after the other.
-/

namespace CertIssuer.Reconcile

/-! ### Exits -/

/-- How a pass that has begun its work ends. -/
inductive Exit where
  | awaitApproval
  | deny
  | awaitIssuer (message : String) (delay : Span)
  | retry (message : String) (delay : Span)
  | fail (message : String) (precondition : Precondition)
  | issue (signed : SignedCertificate)

namespace Exit

def work (w : Work) : Exit → Work
  | awaitApproval => w
  | deny => w.closed Reason.denied "The CertificateRequest was denied by an approval controller"
  | awaitIssuer message _ => w.waiting Reason.issuerNotReady message
  | retry message _ => w.waiting Reason.pending message
  | fail message _ => w.closed Reason.failed message
  | issue signed => w.withCertificate signed

def precondition : Exit → Precondition
  | fail _ p => p
  | issue _ => .unconditional
  | _ => .resourceVersion

def requeue : Exit → Requeue
  | awaitIssuer _ delay => .after delay
  | retry _ delay => .after delay
  | _ => .awaitChange

def isIssue : Exit → Bool
  | issue _ => true
  | _ => false

def take (e : Exit) (w : Work) : Pass Requeue := do
  (e.work w).write e.precondition
  if e.isIssue then Pass.ask .recordIssued
  return e.requeue

/-- The exits that come before any answer of the authority. -/
def IsEarly (e : Exit) : Prop := e.isIssue = false ∧ e.precondition = .resourceVersion

end Exit

theorem pending_issuer_eq (w : Work) (message : String) (delay : Span) :
    w.pending Reason.issuerNotReady message delay = (Exit.awaitIssuer message delay).take w := rfl

theorem pending_eq (w : Work) (message : String) (delay : Span) :
    w.pending Reason.pending message delay = (Exit.retry message delay).take w := rfl

theorem fail_eq (w : Work) (message : String) (p : Precondition) :
    w.fail message p = (Exit.fail message p).take w := rfl

/-- The exit that an answer of the signer leads to. -/
def exitAfter (settings : Settings) (elapsed : Span) :
    Except SignerError SignedCertificate → Exit
  | .ok signed => .issue signed
  | .error (.permanent text) => .fail ("CA rejected the request: " ++ text) .unconditional
  | .error e =>
    if settings.retry.isExhausted elapsed then
      .fail ("giving up after " ++ elapsed.text ++ ": " ++ e.message) .unconditional
    else
      .retry ("signing failed, will retry: " ++ e.message) (settings.retry.requeueAfter elapsed)

theorem conclude_eq (w : Work) (settings : Settings) (elapsed : Span)
    (answer : Except SignerError SignedCertificate) :
    w.conclude settings elapsed answer = (exitAfter settings elapsed answer).take w := by
  unfold Work.conclude exitAfter
  cases answer with
  | ok signed => rfl
  | error e =>
    cases e with
    | permanent text => rfl
    | transient text => dsimp only; split <;> rfl
    | config text => dsimp only; split <;> rfl

/-! ### Findings -/

/-- What comes of looking around: nothing to do, an exit, or an order for the signer. -/
inductive Finding where
  | idle
  | exit (work : Work) (exit : Exit)
  | order (work : Work) (issuer : Issuer) (secrets : IssuerSecrets) (order : SignOrder)

def act (settings : Settings) : Finding → Pass Requeue
  | .idle => return .awaitChange
  | .exit w e => e.take w
  | .order w issuer secrets order => do
    let answer ← Pass.ask (.sign issuer.spec secrets order)
    let elapsed := w.signingElapsed settings issuer
    (exitAfter settings elapsed (answer.getD (Work.timedOut settings))).take w

namespace Work

/-! ### Looking around -/

def seekSigner (w : Work) (issuer : Issuer) (secrets : IssuerSecrets) (order : SignOrder)
    (backoff : Span) : Pass Finding := do
  match ← Pass.ask (.buildSigner issuer.spec secrets) with
  | .error e => return .exit w (.retry ("failed to build signer: " ++ e.message) backoff)
  | .ok () => return .order w issuer secrets order

def seekSecrets (w : Work) (settings : Settings) (issuer : Issuer) (backoff : Span) :
    Pass Finding := do
  match ← loadSecrets settings issuer with
  | .error e => return .exit w (.retry ("issuer secrets unavailable: " ++ e.message) backoff)
  | .ok secrets =>
    match w.order? with
    | .error text => return .exit w (.fail text .resourceVersion)
    | .ok order => w.seekSigner issuer secrets order backoff

def seekIssuer (w : Work) (settings : Settings) (kind : IssuerKind) : Pass Finding := do
  let backoff := settings.retry.requeueAfter (w.now.elapsedSince w.request.metadata.creationTime?)
  match ← Pass.getIssuer (w.issuerKey kind) with
  | none =>
    let name := w.request.spec.issuerRef.name
    return .exit w (.awaitIssuer (kind.text ++ " " ++ name ++ " not found") backoff)
  | some issuer =>
    if issuer.status.isReady then w.seekSecrets settings issuer backoff
    else return .exit w (.awaitIssuer (issuer.displayName ++ " is not Ready") backoff)

def seekApproval (w : Work) (settings : Settings) (kind : IssuerKind) : Pass Finding :=
  match w.status.gate settings.checkApproved with
  | .proceed => w.seekIssuer settings kind
  | .awaitApproval => return .exit w .awaitApproval
  | .denied => return .exit w .deny

end Work

def surveyOf (settings : Settings) (scheme : Scheme) : Option CertificateRequest → Pass Finding
  | none => return .idle
  | some request =>
    match issuerKindOf? scheme request with
    | none => return .idle
    | some kind =>
      if request.currentStatus.isTerminal then return .idle
      else do
        let now ← Pass.now
        (Work.start request now).seekApproval settings kind

def survey (settings : Settings) (scheme : Scheme) (ns name : String) : Pass Finding := do
  surveyOf settings scheme (← Pass.getRequest ns name)

/-! ### The phases make up a pass -/

theorem sign_eq (w : Work) (settings : Settings) (issuer : Issuer) (secrets : IssuerSecrets)
    (order : SignOrder) (backoff : Span) :
    w.sign settings issuer secrets order backoff =
      w.seekSigner issuer secrets order backoff >>= act settings := by
  simp only [Work.sign, Work.seekSigner, bind_assoc]
  congr 1
  funext built
  cases built with
  | error e => simp [pending_eq, act]
  | ok u => simp [conclude_eq, act]

theorem signWith_eq (w : Work) (settings : Settings) (issuer : Issuer) (backoff : Span) :
    w.signWith settings issuer backoff =
      w.seekSecrets settings issuer backoff >>= act settings := by
  simp only [Work.signWith, Work.seekSecrets, bind_assoc]
  congr 1
  funext loaded
  cases loaded with
  | error e => simp [pending_eq, act]
  | ok secrets =>
    cases w.order? with
    | error text => simp [fail_eq, act]
    | ok order => simp [sign_eq]

theorem issue_eq (w : Work) (settings : Settings) (kind : IssuerKind) :
    w.issue settings kind = w.seekIssuer settings kind >>= act settings := by
  simp only [Work.issue, Work.seekIssuer, bind_assoc]
  congr 1
  funext found
  cases found with
  | none => simp [pending_issuer_eq, act]
  | some issuer =>
    by_cases hready : issuer.status.isReady
    · simp [hready, signWith_eq]
    · simp [hready, pending_issuer_eq, act]

theorem gatePass_eq (w : Work) (settings : Settings) (kind : IssuerKind) :
    gatePass settings kind w = w.seekApproval settings kind >>= act settings := by
  unfold gatePass Work.seekApproval
  cases w.status.gate settings.checkApproved with
  | proceed => exact issue_eq w settings kind
  | awaitApproval => rfl
  | denied => rfl

theorem requestPass_eq (settings : Settings) (scheme : Scheme) (ns name : String) :
    requestPass settings scheme ns name = survey settings scheme ns name >>= act settings := by
  simp only [requestPass, survey, bind_assoc]
  congr 1
  funext found
  cases found with
  | none => simp [surveyOf, act]
  | some request =>
    cases hkind : issuerKindOf? scheme request with
    | none => simp [surveyOf, act, hkind]
    | some kind =>
      by_cases hterminal : request.currentStatus.isTerminal
      · simp [surveyOf, act, hkind, hterminal]
      · simp [surveyOf, hkind, hterminal, gatePass_eq]

end CertIssuer.Reconcile
