import CertIssuer.Proofs.Dialogue.Crowd
import CertIssuer.Reconcile.Issuer
import CertIssuer.Reconcile.Request

/-!
# Traffic around an issuer

Any number of passes over one issuer and over certificate requests, under way at once. The store
gives whatever it keeps of the issuer a version of its own. It takes a status for the issuer from
passes alone, and only when the status is pinned to the version that is stored, or to none. Others
edit the rest of the issuer, delete it, and create it anew. Whatever else a pass asks may be
answered in any way, and replies may be lost.

The issuer is shut from when a pass has stored that it is not ready until a pass that has read it
since then hears that a check has succeeded. Of each pass a trail is kept.
-/

namespace CertIssuer.Readiness

open Reconcile Dialogue

variable {ι : Type}

/-- What a pass has done since it began. -/
structure Trail where
  /-- It has read the issuer while the issuer was shut. -/
  turned : Bool := false
  signed : Bool := false
  /-- The status of the request as it was read, or as it was written. -/
  left : Option RequestStatus := none
  refusal : Option ControllerError := none

structure Traffic (ι : Type) where
  issuer : Option Issuer
  /-- The versions that were given out. -/
  versions : List String
  shut : Bool
  /-- Whether each pass has read the issuer since it began and since the issuer was shut last. -/
  current : ι → Bool
  trail : ι → Trail

namespace Traffic

/-- The traffic after an issuer was stored under a version that was not given out before. -/
def put (s : Traffic ι) (issuer : Issuer) (version : String) : Traffic ι :=
  { s with
    issuer := some { issuer with resourceVersion := some version }
    versions := version :: s.versions }

def store (s : Traffic ι) (old : Issuer) (status : IssuerStatus) (version : String) : Traffic ι :=
  { s.put { old with status := status } version with
    shut := s.shut || !status.isReady
    current := fun i => s.current i && status.isReady }

/-- The traffic after a pass has heard that a check has succeeded. -/
def verify (s : Traffic ι) (i : ι) : Traffic ι := { s with shut := s.shut && !s.current i }

variable [DecidableEq ι]

def mark (s : Traffic ι) (i : ι) (trail : Trail) : Traffic ι :=
  { s with trail := Function.update s.trail i trail }

def begin (s : Traffic ι) (i : ι) : Traffic ι :=
  { s.mark i {} with current := Function.update s.current i false }

def read (s : Traffic ι) (i : ι) : Traffic ι :=
  { s.mark i { s.trail i with turned := s.shut } with
    current := Function.update s.current i true }

/-- The store takes a status for an issuer as it was read. -/
def Accepts (s : Traffic ι) (key : IssuerKey) (old issuer : Issuer) : Prop :=
  s.issuer = some old ∧ issuer.key = key ∧
    (issuer.resourceVersion = none ∨ issuer.resourceVersion = old.resourceVersion)

/-- The questions whose answers change nothing that is looked at here. -/
def IsAside : Question → Prop
  | .now | .secret _ | .buildSigner _ _ | .buildChecker _ _ | .recordIssued => True
  | _ => False

inductive Answers (key : IssuerKey) (i : ι) :
    Traffic ι → (q : Question) → q.Answer → Traffic ι → Prop
  | issuer {s : Traffic ι} : Answers key i s (.issuer key) (.ok s.issuer) (s.read i)
  | noIssuer {s : Traffic ι} {k : IssuerKey} {e : ControllerError} :
    Answers key i s (.issuer k) (.error e) s
  | otherIssuer {s : Traffic ι} {k : IssuerKey} {r : Except ControllerError (Option Issuer)} :
    k ≠ key → Answers key i s (.issuer k) r s
  | request {s : Traffic ι} {ns name : String} {found : Option CertificateRequest} :
    Answers key i s (.request ns name) (.ok found)
      (s.mark i { s.trail i with left := found.map CertificateRequest.currentStatus })
  | noRequest {s : Traffic ι} {ns name : String} {e : ControllerError} :
    Answers key i s (.request ns name) (.error e) s
  | verified {s : Traffic ι} {spec : IssuerSpec} {secrets : IssuerSecrets} :
    Answers key i s (.check spec secrets) (some (.ok ())) (s.verify i)
  | unverified {s : Traffic ι} {spec : IssuerSpec} {secrets : IssuerSecrets}
    {r : Option (Except SignerError Unit)} :
    r ≠ some (.ok ()) → Answers key i s (.check spec secrets) r s
  | signed {s : Traffic ι} {spec : IssuerSpec} {secrets : IssuerSecrets} {order : SignOrder}
    {r : Option (Except SignerError SignedCertificate)} :
    Answers key i s (.sign spec secrets order) r (s.mark i { s.trail i with signed := true })
  | stored {s : Traffic ι} {old issuer : Issuer} {status : IssuerStatus} {version : String}
    {r : Except ControllerError Unit} :
    s.Accepts key old issuer → version ∉ s.versions →
      Answers key i s (.writeIssuer issuer status) r (s.store old status version)
  | refused {s : Traffic ι} {issuer : Issuer} {status : IssuerStatus} {e : ControllerError} :
    Answers key i s (.writeIssuer issuer status) (.error e) s
  | written {s : Traffic ι} {request : CertificateRequest} {status : RequestStatus}
    {p : Precondition} :
    Answers key i s (.writeRequest request status p) (.ok ())
      (s.mark i { s.trail i with left := some status })
  | unwritten {s : Traffic ι} {request : CertificateRequest} {status : RequestStatus}
    {p : Precondition} {e : ControllerError} :
    Answers key i s (.writeRequest request status p) (.error e)
      (s.mark i { s.trail i with refusal := some e })
  | aside {s : Traffic ι} {q : Question} {r : q.Answer} : IsAside q → Answers key i s q r s

omit [DecidableEq ι] in
/-- What others do to the issuer. Its status is left to the passes. -/
inductive Moves : Traffic ι → Traffic ι → Prop
  | edit {s : Traffic ι} {old new : Issuer} {version : String} :
    s.issuer = some old → new.status = old.status → version ∉ s.versions →
      Moves s (s.put new version)
  | create {s : Traffic ι} {new : Issuer} {version : String} :
    s.issuer = none → new.status = {} → version ∉ s.versions → Moves s (s.put new version)
  | delete {s : Traffic ι} : Moves s { s with issuer := none }

omit [DecidableEq ι] in
structure Fresh (s : Traffic ι) : Prop where
  version : ∀ issuer ∈ s.issuer, ∃ v ∈ s.versions, issuer.resourceVersion = some v
  «open» : s.shut = false
  trail : ∀ i, s.trail i = {}

end Traffic

inductive Errand where
  | issuer
  | request («namespace» name : String)

def Errand.pass (key : IssuerKey) (settings : Settings) (scheme : Scheme) :
    Errand → Dialogue Question Question.Answer (Except ControllerError Requeue)
  | issuer => (issuerPass settings key).run
  | request ns name => (requestPass settings scheme ns name).run

/-- The traffic in which each party does its errand, again and again. -/
def traffic [DecidableEq ι] (key : IssuerKey) (errand : ι → Errand) :
    Manners ι Question Question.Answer (Except ControllerError Requeue) (Traffic ι) where
  answers := Traffic.Answers key
  opens i s d t := (∃ settings scheme, d = (errand i).pass key settings scheme) ∧ t = s.begin i
  closes _ s _ t := t = s
  moves := Traffic.Moves

/-! ### What is promised -/

def AwaitsIssuer (status : RequestStatus) : Prop :=
  ∃ c, status.readyCondition? = some c ∧ c.status = .isFalse ∧
    c.reason = some Reason.issuerNotReady

/-- A pass ends with its request waiting for the issuer, to be looked at again after a delay, or
with the error that came of writing that. -/
def Trail.Ends (trail : Trail) (r : Except ControllerError Requeue) : Prop :=
  (∃ delay, r = .ok (.after delay) ∧ ∃ status ∈ trail.left, AwaitsIssuer status) ∨
    ∃ e ∈ trail.refusal, r = .error e

end CertIssuer.Readiness
