import CertIssuer.Net.Address

/-!
# Endpoints

An address with a port, as `127.0.0.1:8080` or `[::1]:8080`. An address of eight groups may name
its zone by a number after a percent sign.
-/

namespace CertIssuer.Net

structure Endpoint where
  address : Address
  zone : Nat
  port : Nat
  deriving DecidableEq, Repr

namespace Endpoint

/-- A number in decimal, up to a bound. -/
def number (bound : Nat) : Reader Nat := fun cs =>
  let ds := cs.takeWhile Text.isDigit
  if ds.isEmpty || bound < Text.ofDigits ds then none
  else some (Text.ofDigits ds, cs.drop ds.length)

/-- A colon and a port. -/
def portNumber : Reader Nat := fun cs => do
  let (_, cs) ← mark ':' cs
  number 65535 cs

/-- The zone after a percent sign; zero when there is none. -/
def zone? : Reader Nat := fun cs =>
  match cs with
  | '%' :: rest => number 4294967295 rest
  | _ => some (0, cs)

def withOctets (cs : List Char) : Option Endpoint := do
  let (os, cs) ← octets cs
  let (p, cs) ← portNumber cs
  if cs.isEmpty then some ⟨.v4 os, 0, p⟩ else none

def withGroups (cs : List Char) : Option Endpoint := do
  let (_, cs) ← mark '[' cs
  let (gs, cs) ← eightGroups cs
  let (zone, cs) ← zone? cs
  let (_, cs) ← mark ']' cs
  let (p, cs) ← portNumber cs
  if cs.isEmpty then some ⟨.v6 gs, zone, p⟩ else none

/-- The endpoint that a text states. -/
def parse? (text : String) : Option Endpoint :=
  (withOctets text.toList).orElse fun _ => withGroups text.toList

/-- The text of an endpoint, in its one canonical form. -/
def text (e : Endpoint) : String :=
  let host := match e.address with
    | .v4 os => octetsText os
    | .v6 gs =>
      let zone := if e.zone = 0 then [] else '%' :: Text.digits e.zone
      ['['] ++ mappedText gs ++ zone ++ [']']
  String.ofList (host ++ [':'] ++ Text.digits e.port)

/-- Every address of the machine. -/
def anyHost (port : Nat) : Endpoint := ⟨.v4 [0, 0, 0, 0], 0, port⟩

end Endpoint

end CertIssuer.Net
