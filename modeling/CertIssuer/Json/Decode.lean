import CertIssuer.Json.Value

/-!
# Reading records out of JSON

What the parts of a resource are read with. A record is an object whose unknown members are
ignored and in which no known member occurs twice; it may also be written as an array of its parts
in their declared order, where parts with a default may be left off at the end.

A part is required, or optional (absent and null mean the same), or has a default (absent only).
-/

namespace CertIssuer.Json

/-- The members of a record. -/
abbrev Members := List (String × Json)

/-- The members of an object. -/
def members : Json → Option Members
  | object ms => some ms
  | _ => none

/-- The members of a record whose parts have these names, from its object or its array form. -/
def record? (names : List String) : Json → Option Members
  | object ms => some ms
  | array items => if items.length ≤ names.length then some (names.zip items) else none
  | _ => none

/-! ### Parts -/

namespace Members

/-- The member of a name, if there is one; a name that occurs twice is refused. -/
def find? (ms : Members) (name : String) : Option (Option Json) :=
  match ms.filter (fun m => m.1 = name) with
  | [] => some none
  | [(_, value)] => some (some value)
  | _ => none

def required {α : Type} (ms : Members) (name : String) (read : Json → Option α) : Option α :=
  match find? ms name with
  | some (some value) => read value
  | _ => none

def optional {α : Type} (ms : Members) (name : String) (read : Json → Option α) :
    Option (Option α) :=
  match find? ms name with
  | some none => some none
  | some (some null) => some none
  | some (some value) => (read value).map some
  | none => none

def withDefault {α : Type} (ms : Members) (name : String) (default : α)
    (read : Json → Option α) : Option α :=
  match find? ms name with
  | some none => some default
  | some (some value) => read value
  | none => none

/-- A member that is absent or a given text. -/
def agrees (ms : Members) (name expected : String) : Option Unit :=
  match find? ms name with
  | some none => some ()
  | some (some (string s)) => if s = expected then some () else none
  | _ => none

end Members

/-! ### Leaves -/

def text? : Json → Option String
  | string s => some s
  | _ => none

def bool? : Json → Option Bool
  | bool b => some b
  | _ => none

/-- A whole number between two bounds. -/
def intWithin? (low high : Int) : Json → Option Int
  | int n => if low ≤ n ∧ n ≤ high then some n else none
  | _ => none

/-- A whole number of 64 bits with a sign. -/
def int64? : Json → Option Int := intWithin? (-9223372036854775808) 9223372036854775807

/-- A whole number of 32 bits with a sign. -/
def int32? : Json → Option Int := intWithin? (-2147483648) 2147483647

/-- A whole number of 64 bits without a sign. -/
def unsigned64? (value : Json) : Option Nat := (intWithin? 0 18446744073709551615 value).map Int.toNat

def listOf? {α : Type} (read : Json → Option α) : Json → Option (List α)
  | array items => items.mapM read
  | _ => none

/-- The values of an object by name, in the order of names; of two equal names the last counts. -/
def mapOf? {α : Type} (read : Json → Option α) (value : Json) : Option (List (String × α)) := do
  let ms ← members value.sorted
  ms.mapM fun (name, value) => (read value).map (name, ·)

end CertIssuer.Json
