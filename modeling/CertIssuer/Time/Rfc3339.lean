import CertIssuer.Text.Blank
import CertIssuer.Text.Digits
import CertIssuer.Time.Calendar
import CertIssuer.Time.Timestamp

/-!
# Time texts

Points in time as text, in the profile of RFC 3339. They are written in UTC with `Z`, and with the
fewest of 0, 3, 6 or 9 digits of the second's fraction that lose nothing. Reading is lenient: `T`,
`t` or a blank stands between date and time, white space may precede each number, a sign allows a
year of any length, further digits of the fraction are dropped, and the offset is `Z`, `z`, `UTC`
or hours and minutes.
-/

namespace CertIssuer.Timestamp

open Text

/-! ### Writing -/

/-- Four digits, or a sign and at least four digits outside the years 0 to 9999. -/
def yearText (year : Int) : List Char :=
  if 0 ≤ year ∧ year ≤ 9999 then paddedDigits 4 year.toNat
  else (if year < 0 then '-' else '+') :: paddedDigits 4 year.natAbs

/-- The date and the time to the whole second. A leap second is the second 60. -/
def dateTimeText (t : Timestamp) : List Char :=
  let date := Calendar.ofDays (t.seconds / 86400)
  let second := t.secondOfDay
  yearText date.year ++ ['-'] ++ paddedDigits 2 date.month ++ ['-'] ++ paddedDigits 2 date.day ++
    ['T'] ++ paddedDigits 2 (second / 3600) ++ [':'] ++ paddedDigits 2 (second / 60 % 60) ++
    [':'] ++ paddedDigits 2 (second % 60 + if t.inLeapSecond then 1 else 0)

/-- The nanoseconds after the last whole second. -/
def fraction (t : Timestamp) : Nat := t.nanos % Span.perSecond

/-- The point and the fraction with the fewest of 3, 6 or 9 digits, if it is not zero. -/
def fractionText (n : Nat) : List Char :=
  if n = 0 then []
  else if n % 1000000 = 0 then '.' :: paddedDigits 3 (n / 1000000)
  else if n % 1000 = 0 then '.' :: paddedDigits 6 (n / 1000)
  else '.' :: paddedDigits 9 n

/-- The text that loses nothing. -/
def text (t : Timestamp) : String :=
  String.ofList (dateTimeText t ++ fractionText t.fraction ++ ['Z'])

/-- The text to the whole second. -/
def textSeconds (t : Timestamp) : String := String.ofList (dateTimeText t ++ ['Z'])

/-- The text with six digits of the fraction. -/
def textMicros (t : Timestamp) : String :=
  String.ofList (dateTimeText t ++ '.' :: paddedDigits 6 (t.fraction / 1000) ++ ['Z'])

/-! ### Reading -/

/-- A number of one to `width` digits, after white space. -/
def digitsUpTo? (width : Nat) (cs : List Char) : Option (Nat × List Char) :=
  let cs := trimStart cs
  let ds := (cs.take width).takeWhile isDigit
  if ds.isEmpty then none else some (ofDigits ds, cs.drop ds.length)

/-- A year: up to four digits, or a sign and any number of digits. -/
def year? (cs : List Char) : Option (Int × List Char) :=
  match trimStart cs with
  | '-' :: rest => do
    let ds := rest.takeWhile isDigit
    if ds.isEmpty then none else some (-(ofDigits ds : Int), rest.drop ds.length)
  | '+' :: rest => do
    let ds := rest.takeWhile isDigit
    if ds.isEmpty then none else some ((ofDigits ds : Int), rest.drop ds.length)
  | cs => (digitsUpTo? 4 cs).map fun (n, rest) => ((n : Int), rest)

/-- A given character, after white space. -/
def mark? (c : Char) (cs : List Char) : Option (List Char) :=
  match trimStart cs with
  | d :: rest => if d = c then some rest else none
  | [] => none

/-- The nanoseconds that the digits after the point state; those after the ninth are dropped. -/
def fraction? (cs : List Char) : Option (Nat × List Char) :=
  match cs with
  | '.' :: rest =>
    let ds := rest.takeWhile isDigit
    let kept := ds.take 9
    if ds.isEmpty then none
    else some (ofDigits kept * Nat.pow 10 (9 - kept.length), rest.drop ds.length)
  | _ => some (0, cs)

/-- The sign of an offset: one for east, minus one for west. -/
def sign? : Char → Option Int
  | '+' => some 1
  | '-' => some (-1)
  | '\u2212' => some (-1)
  | _ => none

/-- The hours and minutes after the sign of an offset, in seconds. -/
def offsetSeconds? (cs : List Char) : Option (Nat × List Char) :=
  match cs with
  | h :: k :: rest =>
    if isDigit h && isDigit k then
      match rest.dropWhile fun c => c == ':' || isBlank c with
      | m :: n :: rest =>
        if isDigit m && isDigit n && m < '6' then
          some (ofDigits [h, k] * 3600 + ofDigits [m, n] * 60, rest)
        else none
      | _ => none
    else none
  | _ => none

/-- The offset from UTC in seconds. -/
def offset? (cs : List Char) : Option (Int × List Char) :=
  match cs with
  | [] => none
  | c :: rest =>
    if (cs.take 3).map Char.toUpper = ['U', 'T', 'C'] then some (0, cs.drop 3)
    else if c = 'Z' ∨ c = 'z' then some (0, rest)
    else do
      let sign ← sign? c
      let (seconds, rest) ← offsetSeconds? rest
      if seconds < 86400 then some (sign * seconds, rest) else none

/-- The point at a date, a time of the day and an offset. The second 60 is a leap second. -/
def assemble? (date : Calendar.Date) (hour minute second nanos : Nat) (offset : Int) :
    Option Timestamp :=
  if date.isValid && hour < 24 && minute < 60 && second ≤ 60 then
    let leap := second == 60
    let ofDay : Nat := hour * 3600 + minute * 60 + if leap then 59 else second
    let t : Timestamp :=
      ⟨Calendar.toDays date * 86400 + ofDay - offset, nanos + if leap then Span.perSecond else 0⟩
    let shifted : Timestamp := ⟨t.seconds + offset, 0⟩
    if t.inRange && shifted.inRange then some t else none
  else none

/-- The point in time that a text states. -/
def parse? (text : String) : Option Timestamp := do
  let (year, cs) ← year? text.toList
  let cs ← mark? '-' cs
  let (month, cs) ← digitsUpTo? 2 cs
  let cs ← mark? '-' cs
  let (day, cs) ← digitsUpTo? 2 cs
  let cs ← match cs with
    | c :: rest => if c = 'T' ∨ c = 't' ∨ c = ' ' then some rest else none
    | [] => none
  let (hour, cs) ← digitsUpTo? 2 cs
  let cs ← mark? ':' cs
  let (minute, cs) ← digitsUpTo? 2 cs
  let cs ← mark? ':' cs
  let (second, cs) ← digitsUpTo? 2 cs
  let (nanos, cs) ← fraction? cs
  let (offset, cs) ← offset? (trimStart cs)
  if (trimStart cs).isEmpty then assemble? ⟨year, month, day⟩ hour minute second nanos offset
  else none

end CertIssuer.Timestamp
