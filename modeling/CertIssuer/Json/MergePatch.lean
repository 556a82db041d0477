import CertIssuer.Json.Value

/-!
# Merge patches

Applying a JSON merge patch (RFC 7396). A patch that is an object changes the members it names and
leaves the others: null removes a member, an object patches the member in turn, and any other
value replaces it. A patch that is no object replaces the whole value.
-/

namespace CertIssuer.Json

/-- The members without those of a name. -/
def eraseMember (name : String) (members : List (String × Json)) : List (String × Json) :=
  members.filter fun m => m.1 ≠ name

/-- The value of the first member of a name. -/
def memberValue? (name : String) (members : List (String × Json)) : Option Json :=
  (members.find? fun m => m.1 = name).map (·.2)

/-- Gives a member a value: in its place if the name is there, else at the end. -/
def setMember (name : String) (value : Json) : List (String × Json) → List (String × Json)
  | [] => [(name, value)]
  | (other, old) :: rest =>
    if other = name then (name, value) :: rest else (other, old) :: setMember name value rest

/-- The members that a value offers to an object patch: none if it is no object. -/
def patchable : Option Json → List (String × Json)
  | some (object members) => members
  | _ => []

mutual

/-- The value after a patch; an absent value is patched like one that is no object. -/
def mergePatch (patch : Json) (target : Option Json) : Json :=
  match patch with
  | object changes => object (mergeMembers changes (patchable target))
  | value => value

def mergeMembers (changes : List (String × Json)) (members : List (String × Json)) :
    List (String × Json) :=
  match changes with
  | [] => members
  | (name, null) :: rest => mergeMembers rest (eraseMember name members)
  | (name, change) :: rest =>
    mergeMembers rest (setMember name (mergePatch change (memberValue? name members)) members)

end

end CertIssuer.Json
