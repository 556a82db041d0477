import CertIssuer.Resource.Issuer

/-!
# What a request's metadata tells the controller

The creation time, and the annotations that are handed on to the certificate authority.

The two are read by `creation_time` and `enrollment_metadata`.
-/

namespace CertIssuer

/-- Annotations whose names begin like this are handed on, under the rest of the name. -/
def enrollmentAnnotationStem : String := IssuerKind.group ++ "/"

/-- The field that an annotation's name stands for. -/
def enrollmentField? (name : String) : Option String :=
  let stem := enrollmentAnnotationStem.toList
  if stem.isPrefixOf name.toList then
    let field := name.toList.drop stem.length
    if field.isEmpty then none else some (String.ofList field)
  else none

/-- The fields and values handed on, in the order of the annotations. -/
def enrollmentMetadata (annotations : List (String × String)) : List (String × String) :=
  annotations.filterMap fun (name, value) => (enrollmentField? name).map (·, value)

/-- The creation time, to the whole second; none outside the years 0 to 9999. -/
def Metadata.creationTime? (m : Metadata) : Option Timestamp := do
  let t ← m.creationTimestamp
  let year := (Calendar.ofDays (t.seconds / 86400)).year
  if 0 ≤ year ∧ year ≤ 9999 then
    some ⟨t.seconds, if t.inLeapSecond then Span.perSecond else 0⟩
  else none

end CertIssuer
