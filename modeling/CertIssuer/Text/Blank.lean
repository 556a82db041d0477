/-!
# White space

The characters with the Unicode property `White_Space`, and the trimming of texts by that
property. The zero-width space and the byte order mark are not white space.

`trim` removes white space at both ends and nothing else; what it leaves neither begins nor ends
with white space.
-/

namespace CertIssuer.Text

/-- The Unicode property `White_Space`. -/
def isBlank (c : Char) : Bool :=
  let n := c.toNat
  (9 ≤ n && n ≤ 13) || n == 32 || n == 0x85 || n == 0xA0 || n == 0x1680 ||
    (0x2000 ≤ n && n ≤ 0x200A) || n == 0x2028 || n == 0x2029 || n == 0x202F || n == 0x205F ||
    n == 0x3000

/-! ### Trimming -/

/-- The characters without the white space before them. -/
def trimStart (cs : List Char) : List Char := cs.dropWhile isBlank

/-- The characters without the white space after them. -/
def trimEnd (cs : List Char) : List Char := (cs.reverse.dropWhile isBlank).reverse

/-- The characters between the outermost ones that are not white space. -/
def trimChars (cs : List Char) : List Char := trimEnd (trimStart cs)

/-- A text without the white space at its ends. -/
def trim (s : String) : String := String.ofList (trimChars s.toList)

/-- Whether a text holds nothing but white space. -/
def isBlankText (s : String) : Bool := s.toList.all isBlank

/-- A text trimmed, or nothing when it is blank. -/
def trimmed? (s : String) : Option String :=
  let t := trim s
  if t.isEmpty then none else some t

theorem trim_of_trimmed? {s t : String} (h : trimmed? s = some t) : trim s = t := by
  simp only [trimmed?] at h
  split at h
  · cases h
  · exact Option.some.inj h

end CertIssuer.Text
