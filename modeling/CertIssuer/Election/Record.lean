import CertIssuer.Resource.Lease

/-!
# The election record

What a Lease says about leadership, and the rule by which a candidate acts on it. A holder keeps
the Lease while it renews in time; a Lease that nobody holds, or whose time is over, is taken over
and counts one more change of holder. A renewal moves the renewal time alone.

The record drops what a Lease cannot carry: times are cut to microseconds and the validity to whole
seconds. A Lease whose times lie outside the years 0 to 9999 is read as one without them.

The record is `LeaseRecord` (`from_lease`, `to_lease`, `expires_at`); `decide?` is `lease_decision`
and `next?` is `next_record`.
-/

namespace CertIssuer

namespace Election

/-- How long a Lease is valid after a renewal. -/
def leaseDuration : Span := .ofSeconds 15

/-- A holder that has not renewed for longer than this steps down. -/
def renewDeadline : Span := .ofSeconds 10

/-- The time between two attempts. -/
def retryPeriod : Span := .ofSeconds 2

/-- The name of the Lease. -/
def leaseName : String := "b68cef20.keyfactor.com"

structure Record where
  holder : Option String := none
  acquired : Option Timestamp := none
  renewed : Option Timestamp := none
  duration : Span := leaseDuration
  transitions : Int := 0
  deriving DecidableEq, Repr

namespace Record

/-! ### From and to a Lease -/

/-- A stored time, cut to microseconds; none outside the years 0 to 9999. -/
def storedTime? (t : Timestamp) : Option Timestamp :=
  let year := (Calendar.ofDays (t.seconds / 86400)).year
  if 0 ≤ year ∧ year ≤ 9999 then some t.truncateMicros else none

/-- The validity that a Lease states; a negative one is not heeded. -/
def storedDuration (seconds : Option Int) : Span :=
  match seconds with
  | some n => if 0 ≤ n then .ofSeconds n.toNat else leaseDuration
  | none => leaseDuration

def ofLease (lease : Lease) : Record :=
  match lease.spec with
  | none => {}
  | some spec => {
      holder := spec.holderIdentity
      acquired := spec.acquireTime.bind storedTime?
      renewed := spec.renewTime.bind storedTime?
      duration := storedDuration spec.leaseDurationSeconds
      transitions := spec.leaseTransitions.getD 0 }

/-- The largest number of 32 bits with a sign. -/
def maxInt32 : Int := 2147483647

/-- The Lease that carries a record, pinned to a version where one is given. None when the
validity does not fit. -/
def toLease? (r : Record) (name ns : String) (version : Option String) : Option Lease :=
  if maxInt32 < r.duration.seconds then none
  else some {
    metadata := { name := some name, «namespace» := some ns, resourceVersion := version }
    spec := some {
      acquireTime := r.acquired.map Timestamp.truncateMicros
      holderIdentity := r.holder
      leaseDurationSeconds := some r.duration.seconds
      leaseTransitions := some r.transitions
      renewTime := r.renewed.map Timestamp.truncateMicros } }

/-! ### Expiry -/

/-- When a Lease lapses: never known without a renewal, at a point in time, or at one that the
calendar does not reach. -/
inductive Expiry where
  | unknown
  | at (t : Timestamp)
  | unreachable
  deriving DecidableEq, Repr

/-- The longest validity that counts, in nanoseconds: 2^63 - 1 milliseconds. -/
def maxValidity : Nat := 9223372036854775807 * 1000000

/-- The validity that counts: one that is too long counts as none. -/
def validity (r : Record) : Span := if r.duration.nanos ≤ maxValidity then r.duration else .zero

def expiry (r : Record) : Expiry :=
  match r.renewed with
  | none => .unknown
  | some t =>
    match t.plus? r.validity with
    | some t => .at t
    | none => .unreachable

end Record

/-! ### Decision -/

/-- What a candidate does with the Lease that it has read. -/
inductive Decision where
  | create
  | renew
  | takeOver
  | wait
  deriving DecidableEq, Repr

namespace Decision

def text : Decision → String
  | create => "Create"
  | renew => "Renew"
  | takeOver => "TakeOver"
  | wait => "Wait"

end Decision

/-- The holder that a record names; the empty name is nobody. -/
def Record.holder? (r : Record) : Option String := r.holder.filter (!·.isEmpty)

/-- The next step of a candidate; none when it depends on a point beyond the calendar. -/
def decide? (current : Option Record) (identity : String) (now : Timestamp) : Option Decision :=
  match current with
  | none => some .create
  | some record =>
    match record.holder? with
    | none => some .takeOver
    | some holder =>
      if holder = identity then some .renew
      else
        match record.expiry with
        | .unknown => some .takeOver
        | .at t => if now < t then some .wait else some .takeOver
        | .unreachable => none

/-- The record of a term that begins now. -/
def freshTerm (identity : String) (now : Timestamp) (transitions : Int) : Record where
  holder := some identity
  acquired := some now
  renewed := some now
  duration := leaseDuration
  transitions := transitions

/-- One more change of holder; the count stays at its largest value. -/
def nextTransitions (n : Int) : Int := if n < Record.maxInt32 then n + 1 else Record.maxInt32

/-- The record to write after a decision; none when the candidate waits. -/
def next? (decision : Decision) (current : Option Record) (identity : String) (now : Timestamp) :
    Option Record :=
  match decision with
  | .wait => none
  | .create => some (freshTerm identity now 0)
  | .takeOver =>
    match current with
    | some r => some (freshTerm identity now (nextTransitions r.transitions))
    | none => some (freshTerm identity now 0)
  | .renew =>
    let held := current.getD (freshTerm identity now 0)
    some { held with renewed := some now, duration := leaseDuration }

end Election

end CertIssuer
