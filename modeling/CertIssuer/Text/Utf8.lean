/-!
# UTF-8

Byte strings as lists of bytes, and the two readings of them as text: `toText?` refuses bytes that
are not UTF-8, and `toTextLossy` puts U+FFFD in place of each longest piece that begins a
character and cannot end it.
-/

namespace CertIssuer.Text

/-- A string of bytes. -/
abbrev Bytes := List UInt8

/-- The UTF-8 bytes of a text. -/
def toBytes (s : String) : Bytes := s.toUTF8.data.toList

/-- The text that the bytes spell, if they are UTF-8. -/
def toText? (bytes : Bytes) : Option String := String.fromUTF8? ⟨bytes.toArray⟩

theorem toText?_toBytes (s : String) : toText? (toBytes s) = some s := by
  simp only [toText?, toBytes, Array.toArray_toList]
  simp [String.fromUTF8?, String.fromUTF8, s.isValidUTF8]

/-! ### Lossy reading -/

/-- A character whose first bytes have been read: the bits so far, the number of bytes that are
still owed, and the bounds of the next one. -/
structure Unfinished where
  bits : Nat
  owed : Nat
  low : Nat
  high : Nat

/-- What stands for bytes that are no character. -/
def replacement : Char := '\ufffd'

/-- The state after a first byte: a finished character, or one that owes bytes. -/
def firstByte (b : UInt8) : Char ⊕ Unfinished :=
  let n := b.toNat
  if n < 0x80 then .inl (Char.ofNat n)
  else if 0xC2 ≤ n ∧ n ≤ 0xDF then .inr ⟨n - 0xC0, 1, 0x80, 0xBF⟩
  else if n = 0xE0 then .inr ⟨0, 2, 0xA0, 0xBF⟩
  else if n = 0xED then .inr ⟨0xD, 2, 0x80, 0x9F⟩
  else if 0xE1 ≤ n ∧ n ≤ 0xEF then .inr ⟨n - 0xE0, 2, 0x80, 0xBF⟩
  else if n = 0xF0 then .inr ⟨0, 3, 0x90, 0xBF⟩
  else if 0xF1 ≤ n ∧ n ≤ 0xF3 then .inr ⟨n - 0xF0, 3, 0x80, 0xBF⟩
  else if n = 0xF4 then .inr ⟨4, 3, 0x80, 0x8F⟩
  else .inl replacement

/-- The characters of the bytes that follow `pending`. -/
def lossyFrom : Option Unfinished → Bytes → List Char
  | none, [] => []
  | some _, [] => [replacement]
  | none, b :: rest =>
    match firstByte b with
    | .inl c => c :: lossyFrom none rest
    | .inr p => lossyFrom (some p) rest
  | some p, b :: rest =>
    if p.low ≤ b.toNat ∧ b.toNat ≤ p.high then
      let bits := p.bits * 64 + (b.toNat - 0x80)
      if p.owed ≤ 1 then Char.ofNat bits :: lossyFrom none rest
      else lossyFrom (some ⟨bits, p.owed - 1, 0x80, 0xBF⟩) rest
    else
      replacement ::
        match firstByte b with
        | .inl c => c :: lossyFrom none rest
        | .inr q => lossyFrom (some q) rest

/-- The text that the bytes spell, with U+FFFD where they spell none. -/
def toTextLossy (bytes : Bytes) : String := String.ofList (lossyFrom none bytes)

end CertIssuer.Text
