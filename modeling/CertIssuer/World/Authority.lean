import CertIssuer.Authority.Rehearsal
import CertIssuer.World.Cluster

/-!
# Authorities to practise with

What stands behind the signers and checkers of a practised world: a list of prepared outcomes, a
rehearsal of the web interface, or the real client with a peer that cannot be reached.
-/

namespace CertIssuer.World

/-- An outcome, how long it takes, and what happens to the cluster meanwhile. -/
structure Prepared (α : Type) where
  outcome : α
  delay : Span := .zero
  during : List Change := []

/-- Prepared outcomes: those of signing are used up one by one, the others stay. -/
structure Script where
  signing : List (Prepared (Except SignerError SignedCertificate)) := []
  health : Prepared (Except SignerError Unit) := ⟨.ok (), .zero, []⟩
  buildFailure : Option SignerError := none

namespace Script

/-- What is signed when nothing was prepared. -/
def defaultSigning : Prepared (Except SignerError SignedCertificate) where
  outcome := .ok ⟨"LEAF\n", "ROOT\n"⟩

/-- Takes the next outcome of signing. -/
def takeSigning (s : Script) : Prepared (Except SignerError SignedCertificate) × Script :=
  match s.signing with
  | next :: rest => (next, { s with signing := rest })
  | [] => (defaultSigning, s)

def build (s : Script) : Except SignerError Unit :=
  match s.buildFailure with
  | some e => .error e
  | none => .ok ()

end Script

inductive Authority where
  | scripted (script : Script)
  | rehearsed (rehearsal : CertIssuer.Authority.Rehearsal)
  | unreachable

/-! ### A peer that cannot be reached -/

/-- The answers of surroundings in which no request is answered. -/
def noPeer (now : Timestamp) : (q : CertIssuer.Authority.CallQuestion) → Unit → q.Answer × Unit
  | .clock, s => (Instant.start, s)
  | .date, s => (now, s)
  | .exchange _, s => (Net.Exchange.noReply, s)

/-- The outcome of a call without a peer. -/
def withoutPeer {α : Type} (now : Timestamp) (call : CertIssuer.Authority.Call α) :
    Except CertIssuer.Authority.Stop α :=
  (Dialogue.hold (noPeer now) (call.run.run none) ()).1.1

/-- Whole milliseconds, rounded up: the grain of the clock that deadlines are measured with. -/
def milliseconds (d : Span) : Nat := (d.nanos + 999999) / 1000000

/-- Whether a call of some length ends within a deadline. -/
def inTime (delay deadline : Span) : Bool := milliseconds delay ≤ milliseconds deadline

end CertIssuer.World
