import CertIssuer.Reconcile.Outcome
import CertIssuer.Watch.Routing
import CertIssuer.World.Practice

/-!
# Controllers in a practised world

Three controllers watch a cluster in memory: one for each kind of issuer and one for the requests.
A change wakes the objects that it concerns. Each controller takes its objects one by one, in the
order in which they were woken, and an object that waits is not woken twice. The controllers of
issuers come first.

After a pass an object may have a timer, and a new pass replaces it. Timers run on a time of their
own, which moves only when no object waits.

They are the controllers of `Watcher`, each as `run_controller` runs it.
-/

namespace CertIssuer.World

open Reconcile

/-- What a controller works on. -/
inductive Task where
  | issuer (key : IssuerKey)
  | request («namespace» name : String)
  deriving DecidableEq, Repr

namespace Task

/-- The name of the controller that has a task. -/
def controller : Task → String
  | issuer ⟨.namespaced, _, _⟩ => "issuer"
  | issuer ⟨.cluster, _, _⟩ => "clusterissuer"
  | request _ _ => "certificaterequest"

/-- The turn of the controller that has a task. -/
def turn : Task → Nat
  | issuer ⟨.namespaced, _, _⟩ => 0
  | issuer ⟨.cluster, _, _⟩ => 1
  | request _ _ => 2

end Task

structure Timer where
  task : Task
  due : Span
  deriving DecidableEq, Repr

structure Controllers where
  practice : Practice
  /-- The objects that wait, in the order in which they were woken. -/
  waiting : List Task := []
  timers : List Timer := []
  /-- The time of the timers. -/
  elapsed : Span := .zero
  /-- How passes have ended, by controller, the latest first. -/
  ended : List (String × Outcome) := []

namespace Controllers

/-! ### Waking -/

/-- The requests that an issuer's change concerns. -/
def dependents (c : Controllers) (key : IssuerKey) : List Task :=
  (c.practice.cluster.requests.filter
    (Watch.requestReferencesIssuer c.practice.scheme · key)).map fun r => .request r.namespace r.name

/-- The issuers that a secret's change concerns, if such a change is noticed. -/
def readers (c : Controllers) (key : Secret.Key) : List Task :=
  let settings := c.practice.settings
  if settings.watchesSecretsIn key.namespace then
    (c.practice.cluster.issuers.filter fun i =>
      Watch.issuerUsesSecret i.kind i.namespace i.spec key settings).map fun i => .issuer i.key
  else []

/-- The objects that a change concerns. -/
def concerned (c : Controllers) : Notice → List Task
  | .issuer key => .issuer key :: c.dependents key
  | .request ns name => [.request ns name]
  | .secret key => c.readers key

def wake (c : Controllers) (t : Task) : Controllers :=
  if c.waiting.contains t then c else { c with waiting := c.waiting ++ [t] }

/-- Wakes what the changes of the cluster concern; the record of changes begins anew. -/
def takeNotices (c : Controllers) : Controllers :=
  let tasks := c.practice.cluster.notices.reverse.flatMap c.concerned
  let cluster := { c.practice.cluster with notices := [] }
  tasks.foldl wake { c with practice := { c.practice with cluster := cluster } }

/-! ### Passes -/

/-- Whether the object of a task is there. -/
def isStored (c : Controllers) : Task → Bool
  | .issuer key => (c.practice.cluster.issuer? key).isSome
  | .request ns name => (c.practice.cluster.request? ns name).isSome

/-- Holds the pass of a task. -/
def pass (p : Practice) : Task → Except ControllerError Requeue × Practice
  | .issuer key => p.reconcileIssuer key
  | .request ns name =>
    (p.record (.reconcile ("CertificateRequest " ++ ns ++ "/" ++ name))).reconcileRequest ns name

/-- Has an object looked at again after a delay. -/
def schedule (c : Controllers) (t : Task) (delay : Span) : Controllers :=
  if delay = .zero then c.wake t else { c with timers := c.timers ++ [⟨t, c.elapsed + delay⟩] }

/-- Holds the pass of a task, if its object is there, and wakes what it concerns. -/
def perform (c : Controllers) (t : Task) : Controllers :=
  let c := { c with timers := c.timers.filter (·.task ≠ t) }
  if !c.isStored t then c
  else
    let (result, practice) := pass c.practice t
    let c := { c with
      practice := practice
      ended := (t.controller, Outcome.ofResult result) :: c.ended }
    let c := c.takeNotices
    match nextPass? practice.settings result with
    | some delay => c.schedule t delay
    | none => c

/-! ### Running -/

/-- The first task of the controller whose turn it is. -/
def next? (waiting : List Task) : Option Task :=
  waiting.foldl (fun best t =>
    match best with
    | some b => if t.turn < b.turn then some t else best
    | none => some t) none

/-- The timer that is due first. -/
def earliest? (timers : List Timer) : Option Timer :=
  timers.foldl (fun best t =>
    match best with
    | some b => if t.due < b.due then some t else best
    | none => some t) none

/-- Works until no object waits and no timer is due before a limit; `fuel` bounds the steps. -/
def run (limit : Span) : Nat → Controllers → Controllers
  | 0, c => c
  | fuel + 1, c =>
    match next? c.waiting with
    | some t => run limit fuel ({ c with waiting := c.waiting.erase t }.perform t)
    | none =>
      match earliest? c.timers with
      | none => { c with elapsed := limit }
      | some timer =>
        if timer.due ≤ limit then
          run limit fuel ({ c with
            timers := c.timers.erase timer
            elapsed := max c.elapsed timer.due }.wake timer.task)
        else { c with elapsed := limit }

/-- More steps than a practised world takes between two changes from outside. -/
def patience : Nat := 1000000

/-- How long the controllers run after a change. -/
def settling : Span := ⟨20000000⟩

def runFor (c : Controllers) (d : Span) : Controllers := run (c.elapsed + d) patience c

/-- Lets the controllers answer a change from outside. -/
def change (c : Controllers) (change : Change) : Controllers :=
  ({ c with practice := c.practice.change change }.takeNotices).runFor settling

/-- Lets the controllers go on after the authority was prepared. -/
def prepare (c : Controllers) (authority : Authority) : Controllers :=
  { c with practice := { c.practice with authority := authority } }.runFor settling

/-- Lets time go by. -/
def wait (c : Controllers) (d : Span) : Controllers :=
  let c := { c with practice := c.practice.change (.advance d) }
  (c.runFor d).runFor settling

/-- What passes have done and how they have ended since the last time; the records begin anew. -/
def takeRecord (c : Controllers) : List Event × List (String × Outcome) × Controllers :=
  let (events, practice) := c.practice.takeEvents
  (events, c.ended.reverse, { c with practice := practice, ended := [] })

end Controllers

end CertIssuer.World
