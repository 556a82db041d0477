import CertIssuer.Election.Candidate

/-!
# A prepared API server

An API server that answers calls by replies prepared in advance, and without one by the failure of
a server that is not available. It remembers the calls. The date moves only when a reply is given,
by what was prepared with it, and the other clock stands still.
-/

namespace CertIssuer.World

open ApiServer

/-- A prepared reply, and how far the date moves when it is given. -/
structure PreparedReply where
  reply : Reply
  advance : Span := .zero

structure Server where
  now : Timestamp
  replies : List PreparedReply := []
  /-- The calls, the latest first. -/
  calls : List Call := []

namespace Server

/-- The reply when none was prepared. -/
def unavailable : Reply where
  status := 503
  body := (Json.object [
    ("kind", .string "Status"), ("status", .string "Failure"),
    ("message", .string "no reply prepared"), ("reason", .string "ServiceUnavailable"),
    ("code", .ofNat 503)]).print

/-- Takes the next reply. -/
def takeReply (s : Server) : Reply × Server :=
  match s.replies with
  | [] => (unavailable, s)
  | next :: rest =>
    (next.reply, { s with replies := rest, now := s.now.plus next.advance })

/-- The answers to a session. -/
def answer : (q : Question) → Server → q.Answer × Server
  | .call c, s =>
    let (reply, s) := { s with calls := c :: s.calls }.takeReply
    (some reply, s)
  | .now, s => (s.now, s)
  | .clock, s => (Instant.start, s)
  | .pause _, s => ((), s)

def hold {α : Type} (s : Server) (d : Dialogue Question Question.Answer α) : α × Server :=
  d.hold answer s

/-- The calls since the last time, in order; the record begins anew. -/
def takeCalls (s : Server) : List Call × Server := (s.calls.reverse, { s with calls := [] })

end Server

end CertIssuer.World
