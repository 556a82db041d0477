import CertIssuer.Authority.Der
import CertIssuer.Authority.Pem
import CertIssuer.Text.Base64

/-!
# Trusted certificates

Whether a certificate block can be trusted as the root of a connection: its base64 is a certificate
of version 3 or 1 in DER, its two statements of the signature algorithm agree, and of its
extensions none occurs twice and none is both critical and unknown.
-/

namespace CertIssuer.Authority.RootCertificate

open Text Der

/-! ### The bytes of a block -/

/-- The lines of a text. -/
def lines (line : List Char) : List Char → List (List Char)
  | [] => if line.isEmpty then [] else [line]
  | '\n' :: cs => line :: lines [] cs
  | c :: cs => lines (line ++ [c]) cs

def beginStem : List Char := "-----BEGIN ".toList

/-- The label of a line that begins a section: what stands before its last five dashes. -/
def sectionLabel? (line : List Char) : Option (List Char) :=
  let blankEnd (c : Char) : Bool := c == '\r' || c == ' '
  let tail := (line.reverse.takeWhile fun c => c == '-' || blankEnd c)
  if tail.count '-' = 5 then
    let beforeDashes := (tail.reverse.dropWhile blankEnd).length
    some ((line.take (line.length - beforeDashes)).drop beginStem.length)
  else none

/-- What is between the line that begins a section and the one that ends it; `label` is that of the
section begun last. -/
def sectionBody (label : Option (List Char)) (body : List Char) : List (List Char) →
    Option (List Char)
  | [] => none
  | line :: rest =>
    if beginStem.isPrefixOf line then
      match sectionLabel? line with
      | some label => sectionBody (some label) body rest
      | none => none
    else
      match label with
      | none => sectionBody none body rest
      | some l =>
        if ("-----END ".toList ++ l ++ "-----".toList).isPrefixOf line then some body
        else sectionBody label (body ++ line) rest

/-- Whether a character counts for nothing in base64. -/
def isFiller (c : Char) : Bool := c == ' ' || (9 ≤ c.toNat && c.toNat ≤ 13)

/-- The bytes that a block stands for. -/
def bytesOf? (block : String) : Option Bytes := do
  let body ← sectionBody none [] (lines [] block.toList)
  (Base64.decode (String.ofList (body.filter (!isFiller ·)))).toOption

/-! ### The certificate -/

/-- The extensions that are known by the last byte of their number. -/
def knownExtensions : List UInt8 := [15, 17, 19, 30, 31, 37]

/-- An extension: the last byte of its number, if it is one of the standard ones. An unknown one
must not be critical. -/
def extension (content : Bytes) : Option (Option UInt8) := do
  let (id, rest) ← expect identifier content
  let (critical, rest) ← match rest with
    | 0x01 :: _ => do
      let (value, rest) ← expect boolean rest
      if value = [0xFF] then some (true, rest) else if value = [0] then some (false, rest) else none
    | _ => some (false, rest)
  let value ← whole (expect octetString) rest
  match id with
  | [0x55, 0x1D, n] =>
    if knownExtensions.contains n then
      if n = 15 ∨ (whole (expect sequence) value).isSome then some (some n) else none
    else if critical then none
    else some none
  | _ => if critical then none else some none

/-- Extensions one after another, none of the known ones twice; `fuel` bounds their number. -/
def extensions (seen : List UInt8) : Nat → Bytes → Option Unit
  | _, [] => some ()
  | 0, _ => none
  | fuel + 1, bytes => do
    let (content, rest) ← expect sequence bytes
    match ← extension content with
    | some n => if seen.contains n then none else extensions (n :: seen) fuel rest
    | none => extensions seen fuel rest

/-- What follows the version and the serial number: four more parts after the algorithm. -/
def body (algorithm : Bytes) : Reader Unit := fun bytes => do
  let (_, bytes) ← expect integer bytes
  let (stated, bytes) ← expect sequence bytes
  if stated ≠ algorithm then none
  let (_, bytes) ← expect sequence bytes
  let (_, bytes) ← expect sequence bytes
  let (_, bytes) ← expect sequence bytes
  let (_, bytes) ← expect sequence bytes
  return ((), bytes)

/-- The extensions at the end, if there are any. -/
def tail? (bytes : Bytes) : Option Unit :=
  if bytes.isEmpty then some ()
  else do
    let tagged ← whole (expect (part 3)) bytes
    let all ← whole (expect sequence) tagged
    extensions [] all.length all

/-- The part of a certificate that is signed. -/
def signedPart (algorithm tbs : Bytes) : Option Unit :=
  match expect (part 0) tbs with
  | some ([0x02, 0x01, 0x02], rest) => do
    let (_, rest) ← body algorithm rest
    tail? rest
  | some _ => none
  | none => do
    let (_, rest) ← body algorithm tbs
    if rest.isEmpty then some () else none

/-- A certificate: the signed part, the algorithm and the signature. -/
def certificate (bytes : Bytes) : Option Unit := do
  let content ← whole (expect sequence) bytes
  let ((tag, tbs), rest) ← element 0xFFFF content
  if tag ≠ sequence then none
  let (algorithm, rest) ← expect sequence rest
  let signature ← whole (expect bitString) rest
  if signature.head? ≠ some 0 then none
  signedPart algorithm tbs

/-- Whether a certificate block can be trusted. -/
def isUsable (block : String) : Bool := ((bytesOf? block).bind certificate).isSome

end CertIssuer.Authority.RootCertificate
