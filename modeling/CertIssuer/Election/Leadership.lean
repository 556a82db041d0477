import CertIssuer.Election.Record

/-!
# Giving up leadership

When a holder steps down, and how the rest of the process learns of it. A round that finds another
holder ends the term at once. A round that fails is tolerated until the last renewal is longer ago
than the deadline.

The news travels through a cell that holds the latest value published. A reader looks at the value,
and waits for an unseen one while the value says that the process leads.

The rule is `step_down_reason`, and the reader is `leadership_lost`.
-/

namespace CertIssuer.Election

/-! ### Stepping down -/

/-- How a round of renewal ended: with the Lease, without it, or with a failed call. -/
inductive RoundOutcome (ε : Type) where
  | held
  | lost
  | failed (error : ε)

/-- Why a holder steps down. -/
inductive StepDown (ε : Type) where
  | heldByAnother
  | notRenewed (since : Span) (error : ε)
  | leadershipLost

namespace StepDown

variable {ε : Type}

def message (errorText : ε → String) : StepDown ε → String
  | heldByAnother => "Lease is held by another replica"
  | notRenewed since error => s!"Lease not renewed for {since.seconds}s: {errorText error}"
  | leadershipLost => "leadership lost"

end StepDown

/-- The reason to step down after a round, if there is one. -/
def stepDown? {ε : Type} (outcome : RoundOutcome ε) (since : Span) : Option (StepDown ε) :=
  match outcome with
  | .held => none
  | .lost => some .heldByAnother
  | .failed error => if renewDeadline < since then some (.notRenewed since error) else none

/-! ### The published value -/

/-- A cell with the latest value, whether the reader has seen it, and whether the publisher is
still there. -/
structure Cell where
  value : Bool
  seen : Bool
  «open» : Bool
  deriving DecidableEq, Repr

/-- What the publisher does. -/
inductive Publish where
  | send (value : Bool)
  | close
  deriving DecidableEq, Repr

namespace Cell

/-- A cell whose first value counts as seen. -/
def start (value : Bool) : Cell := ⟨value, true, true⟩

/-- The cell after the publisher has acted; nothing is sent after its end. -/
def publish (c : Cell) : Publish → Cell
  | .send value => if c.open then { c with value := value, seen := false } else c
  | .close => { c with «open» := false }

end Cell

/-! ### The reader -/

/-- Where the reader is: about to look at the value, waiting for an unseen one, or done, since
leadership is lost. -/
inductive Reader where
  | looking
  | waiting
  | finished
  deriving DecidableEq, Repr

/-- One step of the reader. A look sees the value and ends on `false`. Waiting ends with an unseen
value, or for good when there is none and the publisher is gone. -/
def Reader.step : Reader → Cell → Reader × Cell
  | .looking, c =>
    let seen := { c with seen := true }
    if c.value then (.waiting, seen) else (.finished, seen)
  | .waiting, c =>
    if !c.seen then (.looking, c)
    else if !c.open then (.finished, c)
    else (.waiting, c)
  | .finished, c => (.finished, c)

/-- The reader after as many steps as it can take before it waits: a look, a wait and the next
look. -/
def Reader.settle (r : Reader) (c : Cell) : Reader × Cell :=
  let (r, c) := r.step c
  let (r, c) := r.step c
  let (r, c) := r.step c
  r.step c

/-- The reader and the cell after the publisher's acts, where the reader settles after each. -/
def Reader.follow (state : Reader × Cell) : List Publish → Reader × Cell
  | [] => state
  | act :: rest => follow (state.1.settle (state.2.publish act)) rest

/-- Whether a reader of a cell that begins with a value has reported the loss of leadership after
the publisher's acts. -/
def reportsLoss (initial : Bool) (acts : List Publish) : Bool :=
  (Reader.follow (Reader.looking.settle (Cell.start initial)) acts).1 = .finished

end CertIssuer.Election
