/-!
# Binary floating point with 53 significant bits

The non-negative numbers of the binary64 format. Each finite one is a whole number of quanta of
2^-1074, which is how it is kept here; beyond the largest finite one lies infinity. Every operation
gives the number nearest to the exact result, and of two equally near ones the one whose last bit
is zero.
-/

namespace CertIssuer

/-- A non-negative binary64 number: its quanta, or infinity. -/
inductive Binary64 where
  | finite (quanta : Nat)
  | infinite
  deriving DecidableEq, Repr

namespace Binary64

/-- The quanta of the number one. -/
def one : Nat := Nat.pow 2 1074

/-- The whole number nearest to `n / d`, the even one of two. -/
def roundQuotient (n d : Nat) : Nat :=
  let q := n / d
  let r := n % d
  if 2 * r < d then q
  else if d < 2 * r then q + 1
  else if q % 2 = 0 then q
  else q + 1

/-- How many low bits of a whole number are beyond its 53 leading ones. -/
def excessBits (q : Nat) : Nat := q.log2 - 52

/-- The number nearest to `n / d` quanta. -/
def nearest (n d : Nat) : Binary64 :=
  let unit := Nat.pow 2 (excessBits (n / d))
  let quanta := roundQuotient n (d * unit) * unit
  if quanta < Nat.pow 2 1024 * one then finite quanta else infinite

/-- The number nearest to a decimal with so many places after its point. -/
def ofDecimal (digits places : Nat) : Binary64 := nearest (digits * one) (Nat.pow 10 places)

def ofNat (n : Nat) : Binary64 := ofDecimal n 0

def add : Binary64 → Binary64 → Binary64
  | finite a, finite b => nearest (a + b) 1
  | _, _ => infinite

/-- The product with a number that is not zero. -/
def mul : Binary64 → Binary64 → Binary64
  | finite a, finite b => nearest (a * b) one
  | _, _ => infinite

end Binary64

end CertIssuer
