import CertIssuer.Number.Binary64
import CertIssuer.Text.Digits

/-!
# The shortest decimal of a binary number

The decimal with the fewest digits that reads back as a number, and of two such decimals the
nearer one. The grids of decimals are tried from the coarsest to the finest; if a point of a grid
reads back as the number, so does one of the number's two neighbours on that grid. The text is
positional, without an exponent.
-/

namespace CertIssuer.Binary64

/-- A decimal: a whole number of units of `10 ^ exponent`. -/
structure Decimal where
  units : Nat
  exponent : Int
  deriving DecidableEq, Repr

namespace Decimal

/-- The power of ten that the units are multiplied by. -/
def up (exponent : Int) : Nat := Nat.pow 10 exponent.toNat

/-- The power of ten that the units are divided by. -/
def down (exponent : Int) : Nat := Nat.pow 10 (-exponent).toNat

/-- The binary number nearest to a decimal. -/
def read (d : Decimal) : Binary64 := nearest (d.units * up d.exponent * one) (down d.exponent)

/-- The digits in positional notation. -/
def text (d : Decimal) : List Char :=
  let places := (-d.exponent).toNat
  let ds := Text.paddedDigits (places + 1) (d.units * up d.exponent)
  let whole := ds.length - places
  if places = 0 then ds else ds.take whole ++ ['.'] ++ ds.drop whole

end Decimal

/-- The neighbours of a number of quanta on the grid of an exponent, the nearer one first. -/
def neighbours (quanta : Nat) (exponent : Int) : List Decimal :=
  let num := quanta * Decimal.down exponent
  let den := one * Decimal.up exponent
  let below := num / den
  let floor : Decimal := ⟨below, exponent⟩
  let ceiling : Decimal := ⟨below + 1, exponent⟩
  if 2 * (num % den) ≤ den then [floor, ceiling] else [ceiling, floor]

/-- The first decimal that reads back as a number, on the grids from an exponent down; `fuel`
bounds the number of grids. -/
def shortestFrom (quanta : Nat) : Nat → Int → Decimal
  | 0, exponent => ⟨quanta / one, exponent⟩
  | fuel + 1, exponent =>
    match (neighbours quanta exponent).find? (·.read = finite quanta) with
    | some d => d
    | none => shortestFrom quanta fuel (exponent - 1)

/-- The number of grids on which a number is looked for: no binary number needs more places. -/
def gridCount (start : Nat) : Nat := start + 1100

/-- The shortest decimal of a number of quanta. -/
def shortest (quanta : Nat) : Decimal :=
  let start := (Text.digits (quanta / one)).length
  shortestFrom quanta (gridCount start) start

/-- The text of a number. -/
def text : Binary64 → String
  | finite quanta => if quanta = 0 then "0" else String.ofList (shortest quanta).text
  | infinite => "inf"

/-- The seconds of a span, rounded as a whole number of seconds and a fraction, and then as their
sum. -/
def ofSpanParts (seconds nanos : Nat) : Binary64 := (ofNat seconds).add (ofDecimal nanos 9)

end CertIssuer.Binary64
