import CertIssuer.Text.Printable

/-!
# Quoted texts

The form in which messages show a text that came from outside: between double quotes, with the
quote, the backslash and the common control characters after a backslash, and every other
character without a picture of its own by its number in braces.
-/

namespace CertIssuer.Text

/-- A digit of a lower-case hexadecimal number. -/
def hexDigit (n : Nat) : Char :=
  if n < 10 then Char.ofNat (48 + n) else Char.ofNat (87 + n)

/-- The hexadecimal digits of a number, without leading zeros; `fuel` bounds their count. -/
def hexDigits : Nat → Nat → List Char
  | 0, _ => []
  | fuel + 1, n => (if n < 16 then [] else hexDigits fuel (n / 16)) ++ [hexDigit (n % 16)]

/-- The form of one character inside quotes. -/
def quotedChar (c : Char) : List Char :=
  if c = '"' then ['\\', '"']
  else if c = '\\' then ['\\', '\\']
  else if c = '\n' then ['\\', 'n']
  else if c = '\r' then ['\\', 'r']
  else if c = '\t' then ['\\', 't']
  else if c = '\x00' then ['\\', '0']
  else if isPrintable c then [c]
  else ['\\', 'u', '\x7b'] ++ hexDigits 8 c.toNat ++ ['\x7d']

/-- A text between double quotes. -/
def quoted (s : String) : String :=
  String.ofList ('"' :: s.toList.flatMap quotedChar ++ ['"'])

/-- A list of texts, each quoted, in brackets. -/
def quotedList (items : List String) : String :=
  "[" ++ String.intercalate ", " (items.map quoted) ++ "]"

end CertIssuer.Text
