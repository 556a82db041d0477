import CertIssuer.Text.Blank
import CertIssuer.Text.Utf8

/-!
# The namespace of the process

The namespace set aside for the secrets of cluster issuers is given on the command line, or is the
one that the process itself runs in, which its service account states in a file.

It is found by `namespace_from_file` and `resolve_cluster_resource_namespace`.
-/

namespace CertIssuer.HomeNamespace

/-- What was found at the place of the file. -/
inductive Source where
  | missing
  | unreadable
  | content (bytes : Text.Bytes)

/-- Why the namespace is not known. -/
inductive Error where
  | notInCluster
  | read
  | empty
  deriving DecidableEq, Repr

def Error.message : Error → String
  | notInCluster => "not running in-cluster, please supply --cluster-resource-namespace"
  | read => "unexpected error while reading in-cluster namespace"
  | empty => "in-cluster namespace file is empty"

/-- The namespace that the file states. -/
def ofFile : Source → Except Error String
  | .missing => .error .notInCluster
  | .unreadable => .error .read
  | .content bytes =>
    match Text.toText? bytes with
    | none => .error .read
    | some text =>
      match Text.trimmed? text with
      | some ns => .ok ns
      | none => .error .empty

/-- The namespace of the option, or else that of the file. -/
def resolve (option : Option String) (file : Source) : Except Error String :=
  match option.bind Text.trimmed? with
  | some ns => .ok ns
  | none => ofFile file

end CertIssuer.HomeNamespace
