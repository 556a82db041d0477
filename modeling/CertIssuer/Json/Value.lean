import CertIssuer.Text.Digits

/-!
# JSON values and their text

A JSON value. A whole number that fits 64 bits, signed or unsigned, is kept as an integer; every
other number is kept by its literal, since nothing here computes with it. An object is its list of
members in the order of writing.

`print` writes a value without blanks. `sorted` orders the members of every object by name and, of
members with one name, keeps the last.
-/

namespace CertIssuer

inductive Json where
  | null
  | bool (value : Bool)
  | int (value : Int)
  | real (literal : String)
  | string (value : String)
  | array (items : List Json)
  | object (members : List (String × Json))
  deriving BEq, Inhabited, Repr

namespace Json

/-! ### Writing -/

/-- Four lower-case hexadecimal digits. -/
def hexFour (n : Nat) : List Char :=
  let digit (k : Nat) : Char := if k < 10 then Char.ofNat (48 + k) else Char.ofNat (87 + k)
  [digit (n / 4096 % 16), digit (n / 256 % 16), digit (n / 16 % 16), digit (n % 16)]

/-- The form of one character inside a JSON string. -/
def escaped (c : Char) : List Char :=
  if c = '"' then ['\\', '"']
  else if c = '\\' then ['\\', '\\']
  else if c = '\n' then ['\\', 'n']
  else if c = '\r' then ['\\', 'r']
  else if c = '\t' then ['\\', 't']
  else if c = '\x08' then ['\\', 'b']
  else if c = '\x0c' then ['\\', 'f']
  else if c.toNat < 32 then ['\\', 'u'] ++ hexFour c.toNat
  else [c]

def printString (s : String) : String :=
  String.ofList ('"' :: s.toList.flatMap escaped ++ ['"'])

mutual

/-- The text of a value, without blanks. -/
def print : Json → String
  | null => "null"
  | bool value => if value then "true" else "false"
  | int value => toString value
  | real literal => literal
  | string value => printString value
  | array items => "[" ++ printItems items ++ "]"
  | object members => "\x7b" ++ printMembers members ++ "\x7d"

def printItems : List Json → String
  | [] => ""
  | [item] => print item
  | item :: rest => print item ++ "," ++ printItems rest

def printMembers : List (String × Json) → String
  | [] => ""
  | [(name, value)] => printString name ++ ":" ++ print value
  | (name, value) :: rest =>
    printString name ++ ":" ++ print value ++ "," ++ printMembers rest

end

/-! ### Order of members -/

/-- Puts a member in its place among members ordered by name, replacing one of that name. -/
def insertSorted (name : String) (value : Json) : List (String × Json) → List (String × Json)
  | [] => [(name, value)]
  | (other, old) :: rest =>
    if name = other then (name, value) :: rest
    else if name < other then (name, value) :: (other, old) :: rest
    else (other, old) :: insertSorted name value rest

mutual

/-- The value with the members of every object ordered by name, the last of equals kept. -/
def sorted : Json → Json
  | array items => array (sortedItems items)
  | object members => object (sortedMembers [] members)
  | value => value

def sortedItems : List Json → List Json
  | [] => []
  | item :: rest => sorted item :: sortedItems rest

/-- The members put one by one into `done`. -/
def sortedMembers (done : List (String × Json)) : List (String × Json) → List (String × Json)
  | [] => done
  | (name, value) :: rest => sortedMembers (insertSorted name (sorted value) done) rest

end

/-! ### Building -/

/-- An object of the members that are present. -/
def ofMembers (members : List (String × Option Json)) : Json :=
  object (members.filterMap fun (name, value) => value.map (name, ·))

/-- A text, or null. -/
def ofText? : Option String → Json
  | some s => string s
  | none => null

def ofNat (n : Nat) : Json := int n

end Json

end CertIssuer
