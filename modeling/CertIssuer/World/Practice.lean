import CertIssuer.Reconcile.Issuer
import CertIssuer.Reconcile.Request
import CertIssuer.World.Authority

/-!
# Passes in a practised world

A world of a cluster in memory and an authority to practise with, in which passes are held. It
keeps a record of what a pass has done.
-/

namespace CertIssuer.World

open Reconcile

/-- What is recorded of a pass. -/
inductive Event where
  | lookUp (key : Secret.Key)
  | build (forSigning : Bool) (hostname : String) (secrets : IssuerSecrets)
  | check
  | sign (order : SignOrder)
  | enroll (enrollment : CertIssuer.Authority.Enrollment)
  | write (target : String) (precondition : Precondition)
  | conflict (target : String)
  | reconcile (request : String)

/-- A world. -/
structure Practice where
  cluster : Cluster
  authority : Authority
  settings : Settings
  scheme : Scheme := .standard
  /-- How many certificates have been issued. -/
  issued : Nat := 0
  /-- What passes have done, the latest first. -/
  events : List Event := []
  /-- What reached a rehearsal, the latest first. -/
  calls : List Event := []

namespace Practice

def record (p : Practice) (e : Event) : Practice := { p with events := e :: p.events }

def recordCall (p : Practice) (e : Event) : Practice := { p with calls := e :: p.calls }

/-! ### Answers of the cluster -/

def readIssuer (p : Practice) (key : IssuerKey) :
    Except ControllerError (Option Issuer) × Practice :=
  let (answer, c) := p.cluster.read (p.cluster.issuer? key)
  (answer, { p with cluster := c })

def readRequest (p : Practice) (ns name : String) :
    Except ControllerError (Option CertificateRequest) × Practice :=
  let (answer, c) := p.cluster.read (p.cluster.request? ns name)
  (answer, { p with cluster := c })

def lookUp (p : Practice) (key : Secret.Key) :
    Except ControllerError (Option SecretData) × Practice :=
  let (answer, c) := p.cluster.lookUp key
  (answer, { p with cluster := c }.record (.lookUp key))

/-- The world after a write, with a record of how it went. -/
def written (p : Practice) (target : String) (precondition : Precondition)
    (outcome : Except ControllerError Unit × Cluster) : Except ControllerError Unit × Practice :=
  let p := { p with cluster := outcome.2 }
  match outcome.1 with
  | .ok () => (.ok (), p.record (.write target precondition))
  | .error (.conflict target) => (.error (.conflict target), p.record (.conflict target))
  | .error e => (.error e, p)

/-! ### Answers of the authority -/

/-- The outcome of a prepared call; what happens meanwhile happens also when nobody waits. -/
def prepared {α : Type} (p : Practice) (plan : Prepared α) : Option α × Practice :=
  let p := { p with cluster := p.cluster.applyAll plan.during }
  (if inTime plan.delay p.settings.authorityTimeout then some plan.outcome else none, p)

/-- The value of a call that the end of the clock did not stop. -/
def unstopped {α : Type} (outcome : Except CertIssuer.Authority.Stop (Except SignerError α)) :
    Option (Except SignerError α) :=
  match outcome with
  | .ok result => some result
  | .error _ => none

def build (p : Practice) (forSigning : Bool) (spec : IssuerSpec) (secrets : IssuerSecrets) :
    Except SignerError Unit × Practice :=
  let timeout := p.settings.authorityTimeout
  match p.authority with
  | .scripted script => (script.build, p.record (.build forSigning spec.hostname secrets))
  | .rehearsed _ =>
    (do
      let _ ← CertIssuer.Authority.clientConfig spec secrets timeout
      if forSigning then
        let _ ← CertIssuer.Authority.Signer.ofSpec spec, p)
  | .unreachable =>
    (if forSigning then (CertIssuer.Authority.buildSigner spec secrets timeout).map fun _ => ()
      else (CertIssuer.Authority.buildChecker spec secrets timeout).map fun _ => (), p)

def sign (p : Practice) (spec : IssuerSpec) (secrets : IssuerSecrets) (order : SignOrder) :
    Option (Except SignerError SignedCertificate) × Practice :=
  match p.authority with
  | .scripted script =>
    let (plan, script) := script.takeSigning
    ({ p with authority := .scripted script }.record (.sign order)).prepared plan
  | .rehearsed r =>
    match CertIssuer.Authority.Signer.ofSpec spec with
    | .error e => (some (.error e), p)
    | .ok s =>
      let (answer, r') := r.sign s order
      let p := { p with authority := .rehearsed r' }
      let submitted := r'.enrollments.drop r.enrollments.length
      (some answer, submitted.foldl (fun p e => p.recordCall (.enroll e)) p)
  | .unreachable =>
    match CertIssuer.Authority.buildSigner spec secrets p.settings.authorityTimeout with
    | .error e => (some (.error e), p)
    | .ok (client, s) =>
      let call := CertIssuer.Authority.signOver client s order
      (unstopped (withoutPeer p.cluster.now call), p)

def check (p : Practice) (spec : IssuerSpec) (secrets : IssuerSecrets) :
    Option (Except SignerError Unit) × Practice :=
  match p.authority with
  | .scripted script => (p.record .check).prepared script.health
  | .rehearsed r =>
    let (answer, r) := r.check
    (some answer, { p with authority := .rehearsed r }.recordCall .check)
  | .unreachable =>
    match CertIssuer.Authority.buildChecker spec secrets p.settings.authorityTimeout with
    | .error e => (some (.error e), p)
    | .ok client =>
      (unstopped (withoutPeer p.cluster.now (CertIssuer.Authority.checkOver client)), p)

/-! ### Holding a pass -/

/-- The world's answer to a question of a pass. -/
def answer : (q : Question) → Practice → q.Answer × Practice
  | .now, p => (p.cluster.now, p)
  | .issuer key, p => p.readIssuer key
  | .request ns name, p => p.readRequest ns name
  | .secret key, p => p.lookUp key
  | .buildSigner spec secrets, p => p.build true spec secrets
  | .sign spec secrets order, p => p.sign spec secrets order
  | .buildChecker spec secrets, p => p.build false spec secrets
  | .check spec secrets, p => p.check spec secrets
  | .writeIssuer i status, p =>
    p.written i.displayName .resourceVersion (p.cluster.writeIssuer i status)
  | .writeRequest r status precondition, p =>
    p.written (Cluster.requestTarget r) precondition (p.cluster.writeRequest r status precondition)
  | .recordIssued, p => ((), { p with issued := p.issued + 1 })

/-- Holds a pass. -/
def hold {α : Type} (p : Practice) (pass : Pass α) : Except ControllerError α × Practice :=
  Dialogue.hold answer pass.run p

def reconcileIssuer (p : Practice) (key : IssuerKey) :
    Except ControllerError Requeue × Practice :=
  p.hold (issuerPass p.settings key)

def reconcileRequest (p : Practice) (ns name : String) :
    Except ControllerError Requeue × Practice :=
  p.hold (requestPass p.settings p.scheme ns name)

/-- A change from outside. -/
def change (p : Practice) (c : Change) : Practice := { p with cluster := p.cluster.apply c }

/-- What has been recorded since the last time, in order; the record begins anew. -/
def takeEvents (p : Practice) : List Event × Practice :=
  (p.events.reverse ++ p.calls.reverse, { p with events := [], calls := [] })

end Practice

end CertIssuer.World
