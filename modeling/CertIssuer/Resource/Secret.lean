import CertIssuer.Json.Decode
import CertIssuer.Resource.Metadata
import CertIssuer.Text.Base64

/-!
# Secrets

The contents of a secret: byte strings by key, in the order of the keys.

`ofJson?` merges the two forms of the contents as `secret_data` does.
-/

namespace CertIssuer

/-- Byte strings by key, in the order of the keys. -/
abbrev SecretData := List (String × Text.Bytes)

namespace SecretData

def get? (d : SecretData) (key : String) : Option Text.Bytes :=
  (d.find? (·.1 = key)).map (·.2)

/-- Puts a value under a key, replacing the value there. -/
def insert (key : String) (value : Text.Bytes) : SecretData → SecretData
  | [] => [(key, value)]
  | (other, old) :: rest =>
    if key = other then (key, value) :: rest
    else if key < other then (key, value) :: (other, old) :: rest
    else (other, old) :: insert key value rest

def keys (d : SecretData) : List String := d.map (·.1)

end SecretData

namespace Secret

/-- Which secret is meant. -/
structure Key where
  «namespace» : String
  name : String
  deriving DecidableEq, Repr

def Key.text (k : Key) : String := k.namespace ++ "/" ++ k.name

/-- A byte string in base64; null is the empty one. -/
def bytes? : Json → Option Text.Bytes
  | .string s => (Text.Base64.decode s).toOption
  | .null => some []
  | _ => none

/-- The contents of a secret object: its data, overlaid by its plain texts. -/
def ofJson? (value : Json) : Option SecretData := do
  let ms ← value.members
  ms.agrees "apiVersion" "v1"
  ms.agrees "kind" "Secret"
  let _ ← ms.optional "metadata" Metadata.ofJson?
  let _ ← ms.optional "immutable" Json.bool?
  let _ ← ms.optional "type" Json.text?
  let data ← ms.optional "data" (Json.mapOf? bytes?)
  let plain ← ms.optional "stringData" (Json.mapOf? Json.text?)
  return (plain.getD []).foldl (fun d (key, text) => d.insert key (Text.toBytes text))
    (data.getD [])

end Secret

end CertIssuer
