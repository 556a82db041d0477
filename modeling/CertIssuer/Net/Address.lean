import CertIssuer.Text.Digits
import CertIssuer.Text.Quoted

/-!
# Internet addresses

Addresses of four octets and of eight groups of sixteen bits, and their texts. An octet is written
without leading zeros. Of the groups, the longest run of two or more zeros may be left out once,
and the last two may be written as four octets.
-/

namespace CertIssuer.Net

inductive Address where
  | v4 (octets : List Nat)
  | v6 (groups : List Nat)
  deriving DecidableEq, Repr

/-! ### Reading -/

/-- A reader takes characters from the front and gives what it read with the rest. -/
abbrev Reader (α : Type) := List Char → Option (α × List Char)

/-- The value of a hexadecimal digit. -/
def hexValue? (c : Char) : Option Nat :=
  if '0' ≤ c ∧ c ≤ '9' then some (c.toNat - 48)
  else if 'a' ≤ c ∧ c ≤ 'f' then some (c.toNat - 87)
  else if 'A' ≤ c ∧ c ≤ 'F' then some (c.toNat - 55)
  else none

/-- One given character. -/
def mark (c : Char) : Reader Unit
  | d :: rest => if d = c then some ((), rest) else none
  | [] => none

/-- One to three digits without a leading zero, up to 255. -/
def octet : Reader Nat := fun cs =>
  let ds := cs.takeWhile Text.isDigit
  if ds.isEmpty || 3 < ds.length || (1 < ds.length && ds.head? = some '0') then none
  else if 255 < Text.ofDigits ds then none
  else some (Text.ofDigits ds, cs.drop ds.length)

/-- Four octets with points between them. -/
def octets : Reader (List Nat) := fun cs => do
  let (a, cs) ← octet cs
  let (_, cs) ← mark '.' cs
  let (b, cs) ← octet cs
  let (_, cs) ← mark '.' cs
  let (c, cs) ← octet cs
  let (_, cs) ← mark '.' cs
  let (d, cs) ← octet cs
  return ([a, b, c, d], cs)

/-- One to four hexadecimal digits. -/
def group : Reader Nat := fun cs =>
  let ds := cs.takeWhile fun c => (hexValue? c).isSome
  if ds.isEmpty || 4 < ds.length then none
  else some (ds.foldl (fun n c => n * 16 + (hexValue? c).getD 0) 0, cs.drop ds.length)

/-- A colon, unless nothing has been read yet, and then what a reader takes. -/
def afterColon {α : Type} (isFirst : Bool) (read : Reader α) : Reader α := fun cs =>
  if isFirst then read cs else (mark ':' cs).bind fun (_, cs) => read cs

/-- Up to `room` groups with colons between them; the last two may be octets. Also tells whether
they are. -/
def groups (isFirst : Bool) : Nat → List Char → List Nat × Bool × List Char
  | 0, cs => ([], false, cs)
  | room + 1, cs =>
    match if 0 < room then afterColon isFirst octets cs else none with
    | some ([a, b, c, d], cs) => ([a * 256 + b, c * 256 + d], true, cs)
    | _ =>
      match afterColon isFirst group cs with
      | none => ([], false, cs)
      | some (g, cs) =>
        let (gs, embedded, cs) := groups false room cs
        (g :: gs, embedded, cs)

/-- Eight groups, of which a run of zeros may be written as two colons. -/
def eightGroups : Reader (List Nat) := fun cs => do
  let (head, embedded, cs) := groups true 8 cs
  if head.length = 8 then return (head, cs)
  if embedded then none
  let (_, cs) ← mark ':' cs
  let (_, cs) ← mark ':' cs
  let (tail, _, cs) := groups true (7 - head.length) cs
  return (head ++ List.replicate (8 - head.length - tail.length) 0 ++ tail, cs)

/-! ### Writing -/

def octetsText (os : List Nat) : List Char :=
  ['.'].intercalate (os.map Text.digits)

/-- The length of the run of zeros in front. -/
def zeroRun (gs : List Nat) : Nat := (gs.takeWhile (· = 0)).length

/-- The start and the length of the longest run of zeros, the first of equals; `start` is the
position of the first group. -/
def longestZeros (start : Nat) : List Nat → Nat × Nat
  | [] => (start, 0)
  | g :: rest =>
    let here := zeroRun (g :: rest)
    let later := longestZeros (start + 1) rest
    if later.2 ≤ here then (start, here) else later

def groupText (g : Nat) : List Char := Text.hexDigits 4 g

def groupsJoined (gs : List Nat) : List Char := [':'].intercalate (gs.map groupText)

/-- The groups in hexadecimal, with the longest run of zeros left out. -/
def groupsText (gs : List Nat) : List Char :=
  let (start, length) := longestZeros 0 gs
  if length < 2 then groupsJoined gs
  else groupsJoined (gs.take start) ++ [':', ':'] ++ groupsJoined (gs.drop (start + length))

/-- The groups, those of an address that stands for four octets with the octets at the end. -/
def mappedText (gs : List Nat) : List Char :=
  match gs with
  | [0, 0, 0, 0, 0, 0xffff, a, b] =>
    [':', ':', 'f', 'f', 'f', 'f', ':'] ++ octetsText [a / 256, a % 256, b / 256, b % 256]
  | _ => groupsText gs

end CertIssuer.Net
