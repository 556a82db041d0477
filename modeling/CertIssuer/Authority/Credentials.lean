import CertIssuer.Resource.Issuer
import CertIssuer.Resource.Secret
import CertIssuer.Signing.Order
import CertIssuer.Text.Quoted

/-!
# Credentials

What the process shows to the authority: a name and a password, or a client identity that is
exchanged for a token. The secret of an issuer holds either; a name and a password win.
`describe` shows credentials without what is secret.

They are `Credentials`, and `ofSecret` is `credentials_from_secret` with `secretText` for
`secret_string`.
-/

namespace CertIssuer.Authority

inductive Credentials where
  | basic (username password : String)
  | oauth (clientId clientSecret tokenUrl : String) (scopes : List String)
      (audience : Option String)
  deriving DecidableEq, Repr

namespace Credentials

/-! ### Showing -/

/-- What stands for a secret. -/
def redacted : String := Text.quoted "<redacted>"

/-- The text of a value with named parts. -/
def labelled (name : String) (parts : List (String × String)) : String :=
  name ++ " \x7b " ++ String.intercalate ", " (parts.map fun (n, v) => n ++ ": " ++ v) ++ " \x7d"

def optionText : Option String → String
  | some s => "Some(" ++ Text.quoted s ++ ")"
  | none => "None"

def describe : Credentials → String
  | basic username _ =>
    labelled "Basic" [("username", Text.quoted username), ("password", redacted)]
  | oauth clientId _ tokenUrl scopes audience =>
    labelled "OAuth" [
      ("client_id", Text.quoted clientId),
      ("client_secret", redacted),
      ("token_url", Text.quoted tokenUrl),
      ("scopes", Text.quotedList scopes),
      ("audience", optionText audience)]

end Credentials

/-- The names of the keys of the credentials, and whether there are trusted certificates. -/
def describeSecrets (s : IssuerSecrets) : String :=
  Credentials.labelled "IssuerSecrets" [
    ("credential_keys", Text.quotedList s.credentials.keys),
    ("ca", toString s.ca.isSome)]

/-! ### Reading a secret -/

/-- The text under a key, trimmed; none when it is missing or blank. -/
def secretText (data : SecretData) (key : String) : Except SignerError (Option String) :=
  match data.get? key with
  | none => .ok none
  | some bytes =>
    match Text.toText? bytes with
    | none => .error (.config ("secret key " ++ Text.quoted key ++ " is not valid UTF-8"))
    | some text => .ok (Text.trimmed? text)

/-- Whether a character stands between two scopes. -/
def isScopeMark (c : Char) : Bool := c == ' ' || c == ','

/-- The pieces of a text between blanks and commas; `piece` is what has been read of the first. -/
def scopePieces (piece : List Char) : List Char → List (List Char)
  | [] => if piece.isEmpty then [] else [piece]
  | c :: cs =>
    if isScopeMark c then (if piece.isEmpty then [] else [piece]) ++ scopePieces [] cs
    else scopePieces (piece ++ [c]) cs

/-- The scopes that a text lists. -/
def scopesOf (text : String) : List String := (scopePieces [] text.toList).map String.ofList

namespace Credentials

/-- The credentials by client identity, if all parts are there. -/
def oauthOfSecret (spec : IssuerSpec) (data : SecretData) :
    Except SignerError (Option Credentials) := do
  let clientId ← secretText data "client_id"
  let clientSecret ← secretText data "client_secret"
  let tokenUrl ← secretText data "token_url"
  match clientId, clientSecret, tokenUrl with
  | some clientId, some clientSecret, some tokenUrl =>
    let scopes := scopesOf (spec.scopes.getD "")
    let audience := spec.audience.filter (!·.isEmpty)
    return some (.oauth clientId clientSecret tokenUrl scopes audience)
  | _, _, _ => return none

/-- Why a secret holds no credentials. -/
def incomplete (username password : Option String) : SignerError :=
  if username.isSome || password.isSome then
    .config "basic auth secret needs both \"username\" and \"password\""
  else
    .config ("credential secret must contain \"username\"/\"password\" or " ++
      "\"client_id\"/\"client_secret\"/\"token_url\"")

/-- The credentials that a secret holds. -/
def ofSecret (spec : IssuerSpec) (data : SecretData) : Except SignerError Credentials := do
  let username ← secretText data "username"
  let password ← secretText data "password"
  match username, password with
  | some username, some password => return .basic username password
  | _, _ =>
    match ← oauthOfSecret spec data with
    | some credentials => return credentials
    | none => throw (incomplete username password)

end Credentials

end CertIssuer.Authority
