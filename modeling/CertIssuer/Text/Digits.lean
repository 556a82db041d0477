/-!
# Decimal digits

Unsigned numbers in decimal: reading a run of ASCII digits, and writing with a least width.
-/

namespace CertIssuer.Text

/-- Whether a character is one of `0` to `9`. -/
def isDigit (c : Char) : Bool := '0' ≤ c && c ≤ '9'

/-- The value of a digit. -/
def digitValue (c : Char) : Nat := c.toNat - '0'.toNat

/-- The number that a run of digits spells. -/
def ofDigits (cs : List Char) : Nat := cs.foldl (fun n c => n * 10 + digitValue c) 0

/-- The digits of a number, in the order of writing. -/
def digits (n : Nat) : List Char := (Nat.toDigits 10 n)

theorem ofDigits_digits (n : Nat) : ofDigits (digits n) = n := by
  have hfold : ofDigits (digits n) = Nat.ofDigitChars 10 (Nat.toDigits 10 n) 0 := by
    unfold ofDigits digits Nat.ofDigitChars
    congr 1
    funext sum c
    rw [Nat.mul_comm]
    rfl
  rw [hfold, Nat.ofDigitChars_toDigits (by decide) (by decide)]

theorem toString_inj {m n : Nat} (h : toString m = toString n) : m = n := by
  have hdigits : Nat.toDigits 10 m = Nat.toDigits 10 n := by
    have hlist := congrArg String.toList h
    simpa only [Nat.toString_eq_repr, Nat.toList_repr] using hlist
  calc
    m = ofDigits (digits m) := (ofDigits_digits m).symm
    _ = ofDigits (digits n) := congrArg ofDigits hdigits
    _ = n := ofDigits_digits n

/-- The digits of a number, with zeros before them up to a width. -/
def paddedDigits (width n : Nat) : List Char :=
  let ds := digits n
  List.replicate (width - ds.length) '0' ++ ds

/-- An unsigned number: one or more digits, perhaps after a plus sign, not above `max`. -/
def unsigned? (max : Nat) (s : String) : Option Nat :=
  let cs := match s.toList with
    | '+' :: rest => rest
    | cs => cs
  if cs.isEmpty || !cs.all isDigit then none
  else
    let n := ofDigits cs
    if n ≤ max then some n else none

/-- The largest number of 64 bits. -/
def maxUnsigned64 : Nat := 18446744073709551615

end CertIssuer.Text
