import CertIssuer.Text.Utf8

/-!
# Base64

The standard alphabet of RFC 4648 with required padding. Reading is strict: every symbol is in the
alphabet, padding completes the last group of four and nothing follows it, and the bits that the
last symbol does not use are zero. Of several faults the one that a reader of whole groups meets
first is reported: a stray last byte, then the groups before the last one from left to right, then
the last group.
-/

namespace CertIssuer.Text.Base64

/-- Why a text is not base64; offsets count bytes. -/
inductive Error where
  | invalidSymbol (offset : Nat) (byte : UInt8)
  | invalidLastSymbol (offset : Nat) (byte : UInt8)
  | invalidLength (length : Nat)
  | invalidPadding
  deriving DecidableEq, Repr

def Error.message : Error → String
  | .invalidSymbol offset byte => s!"Invalid symbol {byte.toNat}, offset {offset}."
  | .invalidLastSymbol offset byte => s!"Invalid last symbol {byte.toNat}, offset {offset}."
  | .invalidLength length => s!"Invalid input length: {length}"
  | .invalidPadding => "Invalid padding"

/-! ### The alphabet -/

/-- The padding byte, an equals sign. -/
def pad : UInt8 := 61

/-- The byte that stands for a six-bit value. -/
def symbol (n : Nat) : UInt8 :=
  if n < 26 then (65 + n).toUInt8
  else if n < 52 then (97 + (n - 26)).toUInt8
  else if n < 62 then (48 + (n - 52)).toUInt8
  else if n = 62 then 43
  else 47

/-- The six-bit value that a byte stands for. -/
def value? (b : UInt8) : Option Nat :=
  let n := b.toNat
  if 65 ≤ n ∧ n ≤ 90 then some (n - 65)
  else if 97 ≤ n ∧ n ≤ 122 then some (n - 97 + 26)
  else if 48 ≤ n ∧ n ≤ 57 then some (n - 48 + 52)
  else if n = 43 then some 62
  else if n = 47 then some 63
  else none

theorem value?_symbol : ∀ n < 64, value? (symbol n) = some n := by decide

theorem value?_pad : value? pad = none := by decide

/-! ### Writing -/

/-- The symbols of a byte string, four for each group of three bytes. -/
def encodeBytes : Bytes → Bytes
  | [] => []
  | [a] =>
    let n := a.toNat
    [symbol (n / 4), symbol (n % 4 * 16), pad, pad]
  | [a, b] =>
    let n := a.toNat * 256 + b.toNat
    [symbol (n / 1024), symbol (n / 16 % 64), symbol (n % 16 * 4), pad]
  | a :: b :: c :: rest =>
    let n := a.toNat * 65536 + b.toNat * 256 + c.toNat
    symbol (n / 262144) :: symbol (n / 4096 % 64) :: symbol (n / 64 % 64) :: symbol (n % 64) ::
      encodeBytes rest

/-- The base64 text of a byte string. -/
def encode (bytes : Bytes) : String :=
  String.ofList ((encodeBytes bytes).map fun b => Char.ofNat b.toNat)

/-! ### Reading -/

/-- The six-bit value at an offset. -/
def valueAt (offset : Nat) (b : UInt8) : Except Error Nat :=
  match value? b with
  | some v => .ok v
  | none => .error (.invalidSymbol offset b)

/-- The three bytes of a 24-bit number. -/
def threeBytes (n : Nat) : Bytes :=
  [(n / 65536).toUInt8, (n / 256).toUInt8, n.toUInt8]

/-- The bytes of whole groups that hold no padding; `offset` is that of the first symbol. -/
def decodeGroups (offset : Nat) : Bytes → Except Error Bytes
  | a :: b :: c :: d :: rest => do
    let a ← valueAt offset a
    let b ← valueAt (offset + 1) b
    let c ← valueAt (offset + 2) c
    let d ← valueAt (offset + 3) d
    let tail ← decodeGroups (offset + 4) rest
    return threeBytes (a * 262144 + b * 4096 + c * 64 + d) ++ tail
  | _ => .ok []

/-- What has been read of the last group: its values, its last symbol, and how many padding bytes
followed. -/
structure LastGroup where
  values : List Nat := []
  lastSymbol : UInt8 := 0
  padding : Nat := 0

/-- The symbols and the padding of the last group; `index` counts from the start of the group at
`offset`. -/
def scanLast (offset index : Nat) (seen : LastGroup) : Bytes → Except Error LastGroup
  | [] => .ok seen
  | b :: rest =>
    if b = pad then
      if index < 2 then .error (.invalidSymbol (offset + index) b)
      else scanLast offset (index + 1) { seen with padding := seen.padding + 1 } rest
    else if seen.padding > 0 then .error (.invalidSymbol (offset + seen.values.length) pad)
    else do
      let v ← valueAt (offset + index) b
      scanLast offset (index + 1) { seen with values := seen.values ++ [v], lastSymbol := b } rest

/-- The bytes of the last group, which begins at `offset`. -/
def decodeLast (offset : Nat) (group : Bytes) : Except Error Bytes := do
  let seen ← scanLast offset 0 {} group
  let length := seen.values.length
  if offset + group.length ≠ 0 ∧ length < 2 then throw (.invalidLength (offset + length))
  if (seen.padding + length) % 4 ≠ 0 then throw .invalidPadding
  let unused := .error (.invalidLastSymbol (offset + length - 1) seen.lastSymbol)
  match seen.values with
  | [a, b] => if b % 16 = 0 then return [(a * 4 + b / 16).toUInt8] else unused
  | [a, b, c] =>
    if c % 4 = 0 then return [(a * 4 + b / 16).toUInt8, (b * 16 + c / 4).toUInt8] else unused
  | [a, b, c, d] => return threeBytes (a * 262144 + b * 4096 + c * 64 + d)
  | _ => return []

/-- The length of the groups before the last one. -/
def bodyLength (length : Nat) : Nat :=
  if length % 4 = 0 then length - 4 else length - length % 4

/-- The bytes that a base64 text stands for. -/
def decodeBytes (input : Bytes) : Except Error Bytes := do
  let length := input.length
  if length % 4 = 1 then
    if let some last := input.getLast? then
      if last ≠ pad ∧ (value? last).isNone then throw (.invalidSymbol (length - 1) last)
  let body := bodyLength length
  let front ← decodeGroups 0 (input.take body)
  let back ← decodeLast body (input.drop body)
  return front ++ back

/-- The bytes that a base64 text stands for. -/
def decode (text : String) : Except Error Bytes := decodeBytes (toBytes text)

end CertIssuer.Text.Base64
