import CertIssuer.Text.Blank
import CertIssuer.Text.Digits
import CertIssuer.Text.Quoted
import CertIssuer.Number.Binary64
import CertIssuer.Time.Span

/-!
# Spans written with units

The text in which a certificate request states a lifetime: numbers, each followed by a unit, as in
`2160h0m0s`, `90m` or `1.5h`. A number is a run of ASCII digits with at most one point and at least
one digit. The units are `h`, `m`, `s`, `ms`, `us`, `µs` (with U+00B5) and `ns`. A lone `0` is the
empty span. Blanks around the whole text are ignored; nothing else is allowed.

The components are added up in seconds, in binary floating point, from left to right, and the sum
is rounded to whole nanoseconds.

The reader is `parse_go_duration`.
-/

namespace CertIssuer

/-- A text that states no span; it is kept as it was given. -/
structure InvalidSpan where
  input : String
  deriving DecidableEq, Repr

def InvalidSpan.message (e : InvalidSpan) : String := s!"invalid duration {Text.quoted e.input}"

namespace Span.UnitText

/-! ### Components -/

/-- Whether a character belongs to a number. -/
def inNumber (c : Char) : Bool := Text.isDigit c || c == '.'

/-- The value of a number: its digits, and the point at most once. -/
def number? (cs : List Char) : Option Binary64 :=
  let (whole, rest) := cs.span Text.isDigit
  let places := rest.drop 1
  if (whole ++ places).isEmpty || !places.all Text.isDigit then none
  else some (.ofDecimal (Text.ofDigits (whole ++ places)) places.length)

/-- The seconds in a unit. -/
def unit? (cs : List Char) : Option Binary64 :=
  match String.ofList cs with
  | "h" => some (.ofNat 3600)
  | "m" => some (.ofNat 60)
  | "s" => some (.ofNat 1)
  | "ms" => some (.ofDecimal 1 3)
  | "us" => some (.ofDecimal 1 6)
  | "\u00b5s" => some (.ofDecimal 1 6)
  | "ns" => some (.ofDecimal 1 9)
  | _ => none

/-- The seconds of the components added to `total`; `fuel` bounds the number of components. -/
def sum? (total : Binary64) : Nat → List Char → Option Binary64
  | _, [] => some total
  | 0, _ => none
  | fuel + 1, cs => do
    let value ← number? (cs.takeWhile inNumber)
    let rest := cs.dropWhile inNumber
    let unit ← unit? (rest.takeWhile (!inNumber ·))
    sum? (total.add (value.mul unit)) fuel (rest.dropWhile (!inNumber ·))

/-! ### The whole text -/

/-- The span of a number of seconds, in whole nanoseconds; none from 2^64 seconds on. -/
def ofSeconds? : Binary64 → Option Span
  | .finite quanta =>
    if quanta < 18446744073709551616 * Binary64.one then
      some ⟨Binary64.roundQuotient (quanta * perSecond) Binary64.one⟩
    else none
  | .infinite => none

/-- The span that the trimmed characters state. Each component takes at least one of them. -/
def ofChars? (cs : List Char) : Option Span :=
  if cs.isEmpty then none
  else if cs = ['0'] then some zero
  else (sum? (.finite 0) cs.length cs).bind ofSeconds?

end Span.UnitText

/-- The span that a text with units states. -/
def Span.parse (input : String) : Except InvalidSpan Span :=
  match Span.UnitText.ofChars? (Text.trimChars input.toList) with
  | some d => .ok d
  | none => .error ⟨input⟩

end CertIssuer
