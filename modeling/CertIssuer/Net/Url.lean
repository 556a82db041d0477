import CertIssuer.Net.Address
import CertIssuer.Text.Utf8

/-!
# Web addresses

The reading of a web address and its one canonical text. The scheme and the host are in lower case,
the port is left out where the scheme implies it, dots are resolved in the path, and characters
that may not stand bare are written as percent and two digits. A user name and a password in the
address are dropped, since they travel in a header.

An address that cannot be read is `malformed`; one of a scheme that is not for the web is
`foreign`. Hosts outside ASCII are kept as they are, in lower case where ASCII has one.
-/

namespace CertIssuer.Net

structure Url where
  scheme : String
  host : List Char
  port : Option Nat
  path : List (List Char)
  query : Option (List Char)
  fragment : Option (List Char)
  deriving DecidableEq, Repr

namespace Url

/-- Why an address cannot be used. -/
inductive Problem where
  | malformed
  | foreign (text : String)
  deriving DecidableEq, Repr

/-! ### Characters -/

def isControl (c : Char) : Bool := c.toNat < 32 || c.toNat == 127

/-- An upper-case hexadecimal digit. -/
def upperHex (n : Nat) : Char :=
  if n < 10 then Char.ofNat (48 + n) else Char.ofNat (55 + n)

/-- The bytes of a character, each as percent and two digits. -/
def percentEncoded (c : Char) : List Char :=
  (Text.toBytes (String.singleton c)).flatMap fun b =>
    ['%', upperHex (b.toNat / 16), upperHex (b.toNat % 16)]

/-- Writes the characters of a set, the controls and all beyond ASCII by their bytes. -/
def encoded (set : List Char) (cs : List Char) : List Char :=
  cs.flatMap fun c =>
    if isControl c || 127 < c.toNat || set.contains c then percentEncoded c else [c]

def pathSet : List Char := [' ', '"', '#', '<', '>', '?', '\x60', '\x7b', '\x7d']

def querySet : List Char := [' ', '"', '#', '<', '>', '\x27']

def fragmentSet : List Char := [' ', '"', '<', '>', '\x60']

/-! ### Parts -/

def isSlash (c : Char) : Bool := c == '/' || c == '\\'

/-- The port that a scheme implies; none for a scheme that is not for the web. -/
def schemePort? : String → Option Nat
  | "http" => some 80
  | "https" => some 443
  | "ws" => some 80
  | "wss" => some 443
  | "ftp" => some 21
  | _ => none

/-- The scheme in lower case, and what follows its colon. -/
def scheme? (cs : List Char) : Option (String × List Char) :=
  let inScheme (c : Char) : Bool := c.isAlphanum || c == '+' || c == '-' || c == '.'
  let name := cs.takeWhile inScheme
  match cs.drop name.length with
  | ':' :: rest =>
    if name.head?.any Char.isAlpha then some (String.ofList (name.map Char.toLower), rest) else none
  | _ => none

/-- Characters that no host holds. -/
def forbiddenInHost : List Char :=
  [' ', '#', '/', ':', '<', '>', '?', '@', '[', '\\', ']', '^', '|', '%']

/-- A number of a host: decimal, octal after a zero, or hexadecimal after `0x`. -/
def hostNumber? (cs : List Char) : Option Nat :=
  let read (base : Nat) (ds : List Char) : Option Nat :=
    ds.foldlM (fun n c => do
      let d ← hexValue? c
      if d < base then some (n * base + d) else none) 0
  match cs with
  | [] => none
  | '0' :: x :: ds =>
    if x = 'x' ∨ x = 'X' then read 16 ds else read 8 (x :: ds)
  | ds => read 10 ds

/-- The labels of a host between its points, without an empty last one. -/
def labels (cs : List Char) : List (List Char) :=
  let ls := (cs.splitBy fun a b => a != '.' && b != '.').filter (· ≠ ['.'])
  if cs.isEmpty then [] else ls

/-- Whether the last label of a host is a number. -/
def endsInNumber (cs : List Char) : Bool :=
  match (labels cs).getLast? with
  | some l => l.all Text.isDigit || (['0', 'x'].isPrefixOf l && (hostNumber? l).isSome)
  | none => false

/-- The octets of a host of one to four numbers, of which the last fills what is left. -/
def numericHost? (cs : List Char) : Option (List Nat) := do
  let numbers ← (labels cs).mapM hostNumber?
  let count := numbers.length
  let last ← numbers.getLast?
  let front := numbers.dropLast
  if 4 < count || front.any (255 < ·) || Nat.pow 256 (5 - count) ≤ last then none
  else
    let n := front.foldl (fun n k => n * 256 + k) 0 * Nat.pow 256 (5 - count) + last
    some [n / 16777216, n / 65536 % 256, n / 256 % 256, n % 256]

/-- The bytes of a host with percent and two digits resolved. -/
def percentDecoded : List Char → List Char
  | '%' :: a :: b :: rest =>
    match hexValue? a, hexValue? b with
    | some x, some y =>
      if x * 16 + y < 128 then Char.ofNat (x * 16 + y) :: percentDecoded rest
      else '%' :: percentDecoded (a :: b :: rest)
    | _, _ => '%' :: percentDecoded (a :: b :: rest)
  | c :: rest => c :: percentDecoded rest
  | [] => []

/-- The canonical host. -/
def host? (cs : List Char) : Option (List Char) :=
  match cs with
  | [] => none
  | '[' :: rest =>
    if rest.getLast? = some ']' then
      match eightGroups rest.dropLast with
      | some (gs, []) => some (['['] ++ groupsText gs ++ [']'])
      | _ => none
    else none
  | _ =>
    let cs := (percentDecoded cs).map Char.toLower
    if cs.any (fun c => isControl c || forbiddenInHost.contains c) then none
    else if endsInNumber cs then (numericHost? cs).map octetsText
    else some cs

/-- The port after a colon; an empty one is as none, and so is the one that is implied. -/
def port? (implied : Nat) (cs : List Char) : Option (Option Nat) :=
  if cs.isEmpty then some none
  else if !cs.all Text.isDigit then none
  else
    let n := Text.ofDigits cs
    if 65535 < n then none else some (if n = implied then none else some n)

/-- The text after the last `@`. -/
def afterUserInfo (cs : List Char) : List Char := (cs.reverse.takeWhile (· ≠ '@')).reverse

/-- Splits a host from a port. A colon within brackets belongs to the host. -/
def splitPort (cs : List Char) : List Char × List Char :=
  match cs with
  | '[' :: _ =>
    let host := cs.takeWhile (· ≠ ']')
    let rest := cs.drop host.length
    (host ++ rest.take 1, rest.drop 1)
  | _ => (cs.takeWhile (· ≠ ':'), cs.dropWhile (· ≠ ':'))

/-- The host and the port of the part between the slashes and the path. -/
def authority? (implied : Nat) (cs : List Char) : Option (List Char × Option Nat) := do
  let (host, rest) := splitPort (afterUserInfo cs)
  let host ← host? host
  let port ← match rest with
    | [] => some none
    | ':' :: digits => port? implied digits
    | _ => none
  return (host, port)

/-- The segments of a path between its slashes. -/
def segments (current : List Char) : List Char → List (List Char)
  | [] => [current]
  | c :: cs => if isSlash c then current :: segments [] cs else segments (current ++ [c]) cs

/-- Whether a segment means the same place. -/
def isSame (s : List Char) : Bool := s == ['.'] || s.map Char.toLower == ['%', '2', 'e']

/-- Whether a segment means the place above. -/
def isAbove (s : List Char) : Bool :=
  let s := s.map Char.toLower
  s == ['.', '.'] || s == ['.', '%', '2', 'e'] || s == ['%', '2', 'e', '.'] ||
    s == ['%', '2', 'e', '%', '2', 'e']

/-- The segments without dots; `done` are those before, the last one first. -/
def resolve (done : List (List Char)) : List (List Char) → List (List Char)
  | [] => done.reverse
  | [s] =>
    if isAbove s then resolve ([] :: done.drop 1) []
    else if isSame s then resolve ([] :: done) []
    else resolve (s :: done) []
  | s :: rest =>
    if isAbove s then resolve (done.drop 1) rest
    else if isSame s then resolve done rest
    else resolve (s :: done) rest

/-- The resolved segments of a path, which begins with a slash or is empty. -/
def pathSegments (cs : List Char) : List (List Char) :=
  let cs := match cs with
    | c :: rest => if isSlash c then rest else c :: rest
    | [] => []
  resolve [] ((segments [] cs).map (encoded pathSet))

/-- The characters that count: no blanks at the ends, no tabs and line ends at all. -/
def cleaned (text : String) : List Char :=
  let isEnd (c : Char) : Bool := c.toNat ≤ 32
  let cs := text.toList.dropWhile isEnd
  let cs := (cs.reverse.dropWhile isEnd).reverse
  cs.filter fun c => c != '\t' && c != '\n' && c != '\r'

/-- The address of a scheme for the web, from what follows the colon. -/
def ofRest? (scheme : String) (implied : Nat) (cs : List Char) : Option Url := do
  let cs := cs.dropWhile isSlash
  let isEnd (c : Char) : Bool := isSlash c || c == '?' || c == '#'
  let (host, port) ← authority? implied (cs.takeWhile (!isEnd ·))
  let cs := cs.dropWhile (!isEnd ·)
  let pathChars := cs.takeWhile fun c => c != '?' && c != '#'
  let cs := cs.drop pathChars.length
  let (query, cs) := match cs with
    | '?' :: rest =>
      let q := rest.takeWhile (· ≠ '#')
      (some (encoded querySet q), rest.drop q.length)
    | _ => (none, cs)
  let fragment := match cs with
    | '#' :: rest => some (encoded fragmentSet rest)
    | _ => none
  return ⟨scheme, host, port, pathSegments pathChars, query, fragment⟩

/-! ### The whole address -/

def text (u : Url) : String :=
  let port := match u.port with
    | some n => ':' :: Text.digits n
    | none => []
  let path := u.path.flatMap ('/' :: ·)
  let query := (u.query.map ('?' :: ·)).getD []
  let fragment := (u.fragment.map ('#' :: ·)).getD []
  u.scheme ++ "://" ++ String.ofList (u.host ++ port ++ path ++ query ++ fragment)

/-- The web address that a text states. -/
def parse (text : String) : Except Problem Url :=
  let cs := cleaned text
  match scheme? cs with
  | none => .error .malformed
  | some (scheme, rest) =>
    match schemePort? scheme with
    | none => .error (.foreign (scheme ++ ":" ++ String.ofList (encoded [] rest)))
    | some implied =>
      match ofRest? scheme implied rest with
      | none => .error .malformed
      | some url =>
        if scheme = "http" ∨ scheme = "https" then .ok url else .error (.foreign url.text)

end Url

end CertIssuer.Net
