import CertIssuer.Json.Value

/-!
# Reading JSON text

The grammar of RFC 8259. Each reader takes the characters that are left and gives what it read
with those after it. The depth of nesting is not limited. A string holds no bare control character
and no half of a surrogate pair; a text with such a string is refused, also when the string stands
in a member that nothing reads.
-/

namespace CertIssuer.Json

/-- The characters after the blanks in front. -/
def skipBlanks (cs : List Char) : List Char :=
  cs.dropWhile fun c => c = ' ' || c = '\t' || c = '\n' || c = '\r'

/-! ### Strings -/

def hexValue? (c : Char) : Option Nat :=
  if '0' ≤ c ∧ c ≤ '9' then some (c.toNat - 48)
  else if 'a' ≤ c ∧ c ≤ 'f' then some (c.toNat - 87)
  else if 'A' ≤ c ∧ c ≤ 'F' then some (c.toNat - 55)
  else none

def hexFour? (a b c d : Char) : Option Nat := do
  return (← hexValue? a) * 4096 + (← hexValue? b) * 256 + (← hexValue? c) * 16 + (← hexValue? d)

/-- The character that a backslash and a letter stand for. -/
def simpleEscape? : Char → Option Char
  | '"' => some '"'
  | '\\' => some '\\'
  | '/' => some '/'
  | 'b' => some '\x08'
  | 'f' => some '\x0c'
  | 'n' => some '\n'
  | 'r' => some '\r'
  | 't' => some '\t'
  | _ => none

/-- The characters up to the closing quote, and those after it. -/
def stringBody : List Char → Option (List Char × List Char)
  | [] => none
  | '"' :: rest => some ([], rest)
  | '\\' :: 'u' :: a :: b :: c :: d :: rest => do
    let n ← hexFour? a b c d
    if n < 0xD800 ∨ 0xDFFF < n then
      let (text, rest) ← stringBody rest
      return (Char.ofNat n :: text, rest)
    else if 0xDBFF < n then none
    else
      match rest with
      | '\\' :: 'u' :: e :: f :: g :: h :: rest =>
        let low ← hexFour? e f g h
        if low < 0xDC00 ∨ 0xDFFF < low then none
        else
          let (text, rest) ← stringBody rest
          return (Char.ofNat (0x10000 + (n - 0xD800) * 1024 + (low - 0xDC00)) :: text, rest)
      | _ => none
  | '\\' :: e :: rest => do
    let c ← simpleEscape? e
    let (text, rest) ← stringBody rest
    return (c :: text, rest)
  | c :: rest =>
    if c.toNat < 32 ∨ c = '\\' then none
    else do
      let (text, rest) ← stringBody rest
      return (c :: text, rest)

/-! ### Numbers -/

/-- Splits off the digits in front. -/
def spanDigits (cs : List Char) : List Char × List Char := cs.span Text.isDigit

/-- The digits before the point: a lone zero, or digits that do not begin with one. -/
def wholePart? (cs : List Char) : Option (List Char × List Char) :=
  match cs with
  | '0' :: rest => some (['0'], rest)
  | _ =>
    let (ds, rest) := spanDigits cs
    if ds.isEmpty then none else some (ds, rest)

/-- The point and the digits after it, if there is a point. -/
def fraction? (cs : List Char) : Option (List Char × List Char) :=
  match cs with
  | '.' :: rest =>
    let (ds, rest) := spanDigits rest
    if ds.isEmpty then none else some ('.' :: ds, rest)
  | _ => some ([], cs)

/-- The exponent, if there is one. -/
def exponent? (cs : List Char) : Option (List Char × List Char) :=
  match cs with
  | e :: rest =>
    if e = 'e' ∨ e = 'E' then
      let (sign, rest) := match rest with
        | '+' :: rest => (['+'], rest)
        | '-' :: rest => (['-'], rest)
        | _ => ([], rest)
      let (ds, rest) := spanDigits rest
      if ds.isEmpty then none else some (e :: sign ++ ds, rest)
    else some ([], cs)
  | [] => some ([], [])

/-- The value of a number literal: an integer when it is a whole number of 64 bits. -/
def ofLiteral (negative : Bool) (whole tail : List Char) : Json :=
  let literal := String.ofList ((if negative then ['-'] else []) ++ whole ++ tail)
  let n := Text.ofDigits whole
  if !tail.isEmpty then real literal
  else if negative then
    if 0 < n ∧ n ≤ 9223372036854775808 then int (-(n : Int)) else real literal
  else if n < 18446744073709551616 then int n
  else real literal

def number? (cs : List Char) : Option (Json × List Char) := do
  let (negative, cs) := match cs with
    | '-' :: rest => (true, rest)
    | _ => (false, cs)
  let (whole, cs) ← wholePart? cs
  let (point, cs) ← fraction? cs
  let (exponent, cs) ← exponent? cs
  return (ofLiteral negative whole (point ++ exponent), cs)

/-! ### Values -/

/-- The characters after a given word. -/
def afterWord? (word : String) (cs : List Char) : Option (List Char) :=
  if word.toList.isPrefixOf cs then some (cs.drop word.length) else none

mutual

/-- A value, after blanks; `fuel` bounds the number of steps. -/
def value? : Nat → List Char → Option (Json × List Char)
  | 0, _ => none
  | fuel + 1, cs =>
    match skipBlanks cs with
    | '"' :: rest => do
      let (text, rest) ← stringBody rest
      return (string (String.ofList text), rest)
    | '[' :: rest =>
      match skipBlanks rest with
      | ']' :: rest => some (array [], rest)
      | rest => do
        let (items, rest) ← items? fuel rest
        return (array items, rest)
    | '\x7b' :: rest =>
      match skipBlanks rest with
      | '\x7d' :: rest => some (object [], rest)
      | rest => do
        let (members, rest) ← members? fuel rest
        return (object members, rest)
    | 'n' :: rest => (afterWord? "ull" rest).map (null, ·)
    | 't' :: rest => (afterWord? "rue" rest).map (bool true, ·)
    | 'f' :: rest => (afterWord? "alse" rest).map (bool false, ·)
    | cs => number? cs

/-- One or more values with commas between them, and the closing bracket. -/
def items? : Nat → List Char → Option (List Json × List Char)
  | 0, _ => none
  | fuel + 1, cs => do
    let (item, rest) ← value? fuel cs
    match skipBlanks rest with
    | ',' :: rest =>
      let (items, rest) ← items? fuel rest
      return (item :: items, rest)
    | ']' :: rest => return ([item], rest)
    | _ => none

/-- One or more members with commas between them, and the closing brace. -/
def members? : Nat → List Char → Option (List (String × Json) × List Char)
  | 0, _ => none
  | fuel + 1, cs => do
    match skipBlanks cs with
    | '"' :: rest =>
      let (name, rest) ← stringBody rest
      match skipBlanks rest with
      | ':' :: rest =>
        let (value, rest) ← value? fuel rest
        let member := (String.ofList name, value)
        match skipBlanks rest with
        | ',' :: rest =>
          let (members, rest) ← members? fuel rest
          return (member :: members, rest)
        | '\x7d' :: rest => return ([member], rest)
        | _ => none
      | _ => none
    | _ => none

end

/-- The value that a whole text spells. Every step takes a character, so the length bounds them. -/
def parse? (text : String) : Option Json := do
  let cs := text.toList
  let (value, rest) ← value? (cs.length + 1) cs
  if (skipBlanks rest).isEmpty then some value else none

end CertIssuer.Json
