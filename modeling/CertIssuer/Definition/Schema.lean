import CertIssuer.Json.Value

/-!
# Schemas

What the API server is told of the values that a kind of resource may hold: the type of a value, a
sentence about it, and which parts of a record must be present.
-/

namespace CertIssuer

/-- Whether a part of a record may be left out, and what holds if it is. -/
inductive Presence where
  | required
  | optional
  /-- May be left out or null. -/
  | nullable
  | defaulted (value : Json)
  deriving BEq, Repr

/-- A part of a record whose values are described by a `σ`. -/
structure Schema.Part (σ : Type) where
  name : String
  about : String
  presence : Presence
  schema : σ

/-- The values that are admitted in one place. -/
inductive Schema where
  | text
  /-- One of these texts. -/
  | choice (texts : List String)
  /-- A whole number of 64 bits with a sign. -/
  | integer
  | moment
  /-- A list, with a sentence about its items. -/
  | list (about : String) (item : Schema)
  /-- A record; its parts stand in the order of their names. -/
  | record (parts : List (Schema.Part Schema))

namespace Presence

def members : Presence → List (String × Json)
  | required => []
  | optional => []
  | nullable => [("nullable", .bool true)]
  | defaulted value => [("default", value)]

def isRequired : Presence → Bool
  | required => true
  | _ => false

end Presence

namespace Schema

/-- The names of the parts that must be present; none are written when there are none. -/
def requiredMember (parts : List (Part Schema)) : List (String × Json) :=
  match parts.filter (·.presence.isRequired) with
  | [] => []
  | needed => [("required", .array (needed.map fun p => .string p.name))]

mutual

/-- What is said of a value, apart from the sentence about it. -/
def members : Schema → List (String × Json)
  | text => [("type", .string "string")]
  | choice texts => [("type", .string "string"), ("enum", .array (texts.map .string))]
  | integer => [("type", .string "integer"), ("format", .string "int64")]
  | moment => [("type", .string "string"), ("format", .string "date-time")]
  | list about item => [
      ("type", .string "array"), ("items", .object (("description", .string about) :: members item))]
  | record parts =>
    [("type", .string "object"), ("properties", .object (properties parts))]
      ++ requiredMember parts

def properties : List (Part Schema) → List (String × Json)
  | [] => []
  | part :: rest => property part :: properties rest

def property : Part Schema → String × Json
  | ⟨name, about, presence, schema⟩ =>
    (name, .object (("description", .string about) :: members schema ++ presence.members))

end

/-- The schema of a whole resource, under a title. -/
def toJson (title about : String) (s : Schema) : Json :=
  .object (("title", .string title) :: ("description", .string about) :: s.members)

end Schema

end CertIssuer
