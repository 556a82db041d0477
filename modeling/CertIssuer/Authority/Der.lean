import CertIssuer.Text.Utf8

/-!
# Elements of DER

The distinguished encoding of a value: a tag, the length in the fewest bytes, and the content.
Tags of more than one byte are refused.
-/

namespace CertIssuer.Authority.Der

open Text

/-- A reader takes bytes from the front and gives what it read with the rest. -/
abbrev Reader (α : Type) := Bytes → Option (α × Bytes)

/-- The number that bytes spell, the greatest first. -/
def bigEndian (bytes : Bytes) : Nat := bytes.foldl (fun n b => n * 256 + b.toNat) 0

/-- A length: below 128 in one byte, else in one to four bytes after their number. -/
def length : Reader Nat
  | [] => none
  | b :: rest =>
    if b.toNat < 128 then some (b.toNat, rest)
    else
      let width := b.toNat - 128
      let digits := rest.take width
      let n := bigEndian digits
      let least := if width = 1 then 128 else Nat.pow 256 (width - 1)
      if 0 < width ∧ width ≤ 4 ∧ digits.length = width ∧ least ≤ n then some (n, rest.drop width)
      else none

/-- An element: its tag and its content, which is shorter than a limit. -/
def element (limit : Nat) : Reader (UInt8 × Bytes)
  | [] => none
  | tag :: rest => do
    if tag.toNat % 32 = 31 then none
    let (n, rest) ← length rest
    if n < limit ∧ n ≤ rest.length then some ((tag, rest.take n), rest.drop n) else none

/-- The greatest length that counts inside a certificate. -/
def maxLength : Nat := 4294967295

/-- The content of an element of a given tag. -/
def expect (tag : UInt8) : Reader Bytes := fun bytes => do
  let ((found, content), rest) ← element maxLength bytes
  if found = tag then some (content, rest) else none

/-- Reads all of the bytes. -/
def whole {α : Type} (read : Reader α) (bytes : Bytes) : Option α := do
  let (a, rest) ← read bytes
  if rest.isEmpty then some a else none

/-! ### Tags -/

def boolean : UInt8 := 0x01
def integer : UInt8 := 0x02
def bitString : UInt8 := 0x03
def octetString : UInt8 := 0x04
def identifier : UInt8 := 0x06
def sequence : UInt8 := 0x30

/-- The tag of a part that is told from others by a number. -/
def part (n : UInt8) : UInt8 := 0xA0 + n

end CertIssuer.Authority.Der
