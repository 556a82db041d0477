import CertIssuer.ApiServer.Session
import CertIssuer.Election.Leadership

/-!
# Candidates

A candidate reads the Lease, decides, and writes the next record pinned to the version that it
read. Losing the race for that write is no failure. It tries again and again until it holds the
Lease, and then it renews, until a round tells it to step down.

A candidate is a `LeaderElector`. A round is its `try_acquire_or_renew`, repeated by `acquire` until
it holds the Lease and by the task of `spawn_renewal` from then on.
-/

namespace CertIssuer.Election

structure Candidate where
  «namespace» : String
  /-- The name of the Lease. -/
  lease : String
  identity : String
  deriving DecidableEq, Repr

/-! ### Rounds -/

/-- A failure to write the Lease: a lost race leaves it to somebody else. -/
def lostRace? : ControllerError → Session Bool
  | .api code reason text => if code = 409 then return false else throw (.api code reason text)
  | e => throw e

namespace Candidate

/-- The collection of the Lease. -/
def collection (c : Candidate) : String := ApiServer.Collection.leases.within c.namespace

/-- The call that stores a Lease: a new one, or one in place of that which was read. -/
def storing (c : Candidate) (existing : Option Lease) (lease : Lease) : ApiServer.Call :=
  match existing with
  | none => ⟨.post, c.collection, some "application/json", some lease.toJson⟩
  | some _ =>
    ⟨.put, c.collection ++ "/" ++ c.lease, some "application/json", some lease.toJson⟩

/-- Stores a record, and tells whether it was stored. -/
def store (c : Candidate) (existing : Option Lease) (next : Record) : Session Bool := do
  let version := existing.bind (·.metadata.resourceVersion)
  match next.toLease? c.lease c.namespace version with
  | none => throw .serialization
  | some lease =>
    tryCatch (do
      let _ ← ApiServer.exchange c.lease (c.storing existing lease) Lease.ofJson?
      return true) lostRace?

/-- One round: whether the candidate holds the Lease after it. -/
def round (c : Candidate) : Session Bool := do
  let existing ← ApiServer.get? c.collection c.lease Lease.ofJson?
  let current := existing.map Record.ofLease
  let now ← ApiServer.ask .now
  match decide? current c.identity now with
  | none => throw .serialization
  | some decision =>
    match next? decision current c.identity now with
    | none => return false
    | some next => c.store existing next

/-- How a round ended. -/
def outcome (c : Candidate) :
    Dialogue ApiServer.Question ApiServer.Question.Answer (RoundOutcome ControllerError) := do
  match ← c.round.run with
  | .ok true => return .held
  | .ok false => return .lost
  | .error e => return .failed e

/-! ### Acquiring -/

/-- Tries up to a number of times, and tells whether the candidate holds the Lease. -/
def acquire (c : Candidate) :
    Nat → Dialogue ApiServer.Question ApiServer.Question.Answer Bool
  | 0 => return false
  | attempts + 1 => do
    match ← c.outcome with
    | .held => return true
    | _ =>
      let _ ← Dialogue.question (ApiServer.Question.pause retryPeriod)
      c.acquire attempts

end Candidate

/-! ### Renewing -/

/-- A term of leadership: when the Lease was renewed last. -/
structure Term where
  renewed : Instant
  deriving DecidableEq, Repr

namespace Term

/-- For how long the Lease has not been renewed. -/
def sinceRenewed (t : Term) (now : Instant) : Span :=
  ⟨now.sinceStart.nanos - t.renewed.sinceStart.nanos⟩

/-- The term after a round that ends at an instant, and the reason to end it, if there is one. -/
def next {ε : Type} (t : Term) (outcome : RoundOutcome ε) (now : Instant) :
    Term × Option (StepDown ε) :=
  let t := match outcome with
    | .held => ⟨now⟩
    | _ => t
  (t, stepDown? outcome (t.sinceRenewed now))

end Term

/-- Renews a number of times, and tells why the candidate has to step down, if it has to. -/
def Candidate.renew (c : Candidate) (t : Term) :
    Nat → Dialogue ApiServer.Question ApiServer.Question.Answer (Option (StepDown ControllerError))
  | 0 => return none
  | rounds + 1 => do
    let _ ← Dialogue.question (ApiServer.Question.pause retryPeriod)
    let outcome ← c.outcome
    let now ← Dialogue.question ApiServer.Question.clock
    match t.next outcome now with
    | (_, some reason) => return some reason
    | (t, none) => c.renew t rounds

end CertIssuer.Election
