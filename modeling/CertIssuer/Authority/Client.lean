import CertIssuer.Authority.Credentials
import CertIssuer.Authority.Enrollment
import CertIssuer.Authority.RootCertificate
import CertIssuer.Dialogue
import CertIssuer.Net.Http
import CertIssuer.Text.Base64
import CertIssuer.Time.Instant

/-!
# The client of the authority's web interface

A client probes the interface and submits enrollments. It shows a name and a password, or a token
that it asks for and keeps until shortly before the token expires or the authority refuses it.

A call is a dialogue over a state, the kept token. It asks for the time and for exchanges with the
peer. It ends with a value, with a failure, or because a time lies beyond the end of the clock.

`Client.ofConfig` is `CommandClient::new`, `checkConnection` and `enroll` are `check_connection` and
`enroll_csr`, and the tokens are those of `Authenticator` (`authorize`, `access_token`,
`invalidate`). `describe` is the derived text of a `CommandClientConfig`.

A token answer is read whole (`tokenAnswer?`, for `TokenResponse`): one whose bytes are not UTF-8 is
refused, also where they stand in a member that nothing reads.
-/

namespace CertIssuer.Authority

/-! ### Configuration -/

structure ClientConfig where
  hostname : String
  apiPath : String
  credentials : Credentials
  caBundle : Option String := none
  timeout : Span := .ofSeconds 30
  deriving DecidableEq, Repr

/-- The characters without the slashes after them. -/
def dropSlashesEnd (cs : List Char) : List Char := (cs.reverse.dropWhile (· = '/')).reverse

/-- The address that all paths of an interface begin with. -/
def baseUrl (hostname apiPath : String) : String :=
  let host := dropSlashesEnd (Text.trimChars hostname.toList)
  let schemes := ["http://".toList, "https://".toList]
  let host := if schemes.any (·.isPrefixOf host) then host else "https://".toList ++ host
  let path := dropSlashesEnd ((Text.trimChars apiPath.toList).dropWhile (· = '/'))
  String.ofList (if path.isEmpty then host else host ++ ['/'] ++ path)

namespace ClientConfig

/-- The parts of a configuration, without what is secret. -/
def describe (c : ClientConfig) : String :=
  Credentials.labelled "CommandClientConfig" [
    ("hostname", Text.quoted c.hostname),
    ("api_path", Text.quoted c.apiPath),
    ("credentials", c.credentials.describe),
    ("ca_bundle_pem", Credentials.optionText c.caBundle),
    ("timeout", c.timeout.exactText)]

end ClientConfig

/-- The text of a failure to put a request together. -/
def builderError : String := "builder error"

/-- A client: where the interface is, and what is shown to it. -/
structure Client where
  base : String
  credentials : Credentials
  deriving DecidableEq, Repr

/-- Whether the certificates that a bundle holds can be trusted. -/
def checkBundle (bundle : String) : Except CallError Unit :=
  match Pem.splitCertificates bundle with
  | [] => .error (.configuration "CA bundle contains no PEM certificates")
  | blocks => if blocks.all RootCertificate.isUsable then .ok () else .error (.http builderError)

/-- The client of a configuration. -/
def Client.ofConfig (c : ClientConfig) : Except CallError Client := do
  if Text.isBlankText c.hostname then throw (.configuration "hostname is empty")
  match c.caBundle with
  | some bundle => checkBundle bundle
  | none => pure ()
  return ⟨baseUrl c.hostname c.apiPath, c.credentials⟩

/-! ### Calls -/

/-- A token and when it expires, if it does. -/
structure Token where
  value : String
  expiresAt : Option Instant
  deriving DecidableEq, Repr

/-- What a call asks of its surroundings: the clock, the date, and an exchange with the peer. -/
inductive CallQuestion where
  | clock
  | date
  | exchange (request : Net.Request)

def CallQuestion.Answer : CallQuestion → Type
  | clock => Instant
  | date => Timestamp
  | exchange _ => Net.Exchange

/-- Why a call ends without a value. -/
inductive Stop where
  | failed (error : CallError)
  | clockOverflow
  deriving DecidableEq, Repr

/-- A call, over the token that is kept. -/
abbrev Call := ExceptT Stop (StateT (Option Token) (Dialogue CallQuestion CallQuestion.Answer))

namespace Call

def ask (q : CallQuestion) : Call q.Answer :=
  ExceptT.lift (StateT.lift (Dialogue.question q))

def fail {α : Type} (e : CallError) : Call α := throw (.failed e)

/-- A point on the clock that must exist. -/
def reach (i : Option Instant) : Call Instant :=
  match i with
  | some i => pure i
  | none => throw .clockOverflow

def keptToken : Call (Option Token) := ExceptT.lift get

def keepToken (t : Option Token) : Call Unit := ExceptT.lift (set t)

/-- Sends a request to an address, or says why that cannot be done. -/
def exchange (method : Net.Method) (address : String) (headers : List (String × String))
    (body : Net.Body) : Call (Except String Net.Reply) :=
  match Net.Url.parse address with
  | .error .malformed => return .error builderError
  | .error (.foreign text) => return .error (builderError ++ " for url (" ++ text ++ ")")
  | .ok url =>
    if headers.all fun h => h.2.toList.all Net.inHeader then do
      match ← ask (.exchange ⟨method, url, headers, body⟩) with
      | .reply r => return .ok r
      | .noReply => return .error ("error sending request for url (" ++ url.text ++ ")")
    else return .error builderError

end Call

/-! ### Tokens -/

/-- How long before its end a token is no longer used. -/
def tokenSlack : Span := .ofSeconds 30

/-- The text of a failure to read a body. -/
def decodingError : String := "error decoding response body"

/-- The token and the seconds it is good for, from the body of an answer. -/
def tokenAnswer? (body : Net.ReplyBody) : Option (String × Option Nat) :=
  match body with
  | .cut => none
  | .complete bytes => do
    let value ← Json.parse? (← Text.toText? bytes)
    let ms ← value.record? ["access_token", "expires_in"]
    return (← ms.required "access_token" Json.text?, ← ms.optional "expires_in" Json.unsigned64?)

/-- The form that a token is asked for with. -/
def tokenForm (clientId clientSecret : String) (scopes : List String) (audience : Option String) :
    List (String × String) :=
  [("grant_type", "client_credentials"), ("client_id", clientId),
    ("client_secret", clientSecret)] ++
    (if scopes.isEmpty then [] else [("scope", String.intercalate " " scopes)]) ++
    (audience.map fun a => ("audience", a)).toList

namespace Token

/-- Whether a token can still be used. -/
def isFresh (t : Token) : Call Bool := do
  match t.expiresAt with
  | none => return true
  | some expiry =>
    let now ← Call.ask .clock
    return (← Call.reach (now.plus? tokenSlack)) < expiry

/-- Asks for a token and keeps it. -/
def request (address : String) (form : List (String × String)) : Call String := do
  match ← Call.exchange .post address [] (.form form) with
  | .error text => Call.fail (.authentication ("token request failed: " ++ text))
  | .ok reply =>
    if !reply.isSuccess then
      Call.fail (.authentication
        ("token endpoint returned " ++ Net.statusLine reply.status ++ ": " ++ reply.text))
    match tokenAnswer? reply.body with
    | none => Call.fail (.authentication ("invalid token response: " ++ decodingError))
    | some (value, expiresIn) =>
      let expiresAt ← match expiresIn with
        | none => pure none
        | some seconds => do
          let now ← Call.ask .clock
          some <$> Call.reach (now.plus? (.ofSeconds seconds))
      Call.keepToken (some ⟨value, expiresAt⟩)
      return value

/-- The token to show: the one that is kept while it is fresh, or else a new one. -/
def current (address : String) (form : List (String × String)) : Call String := do
  match ← Call.keptToken with
  | none => request address form
  | some kept => if ← kept.isFresh then return kept.value else request address form

end Token

/-! ### The two calls -/

namespace Client

/-- The header that shows who is calling. -/
def authorization (c : Client) : Call String :=
  match c.credentials with
  | .basic username password =>
    return "Basic " ++ Text.Base64.encode (Text.toBytes (username ++ ":" ++ password))
  | .oauth clientId clientSecret tokenUrl scopes audience => do
    let token ← Token.current tokenUrl (tokenForm clientId clientSecret scopes audience)
    return "Bearer " ++ token

/-- Headers of every call. -/
def commonHeaders (authorization : String) : List (String × String) :=
  [("authorization", authorization), ("accept", "application/json"),
    ("x-keyfactor-requested-with", "APIClient"), ("x-keyfactor-api-version", "1")]

/-- Sends a request to the interface. A refusal of the credentials drops the kept token. -/
def send (c : Client) (method : Net.Method) (path : String) (headers : List (String × String))
    (body : Net.Body) : Call Net.Reply := do
  let authorization ← c.authorization
  match ← Call.exchange method (c.base ++ path) (commonHeaders authorization ++ headers) body with
  | .error text => Call.fail (.http text)
  | .ok reply =>
    if reply.status = 401 ∨ reply.status = 403 then
      Call.keepToken none
      Call.fail (.authentication (Net.statusLine reply.status ++ ": " ++ reply.text))
    if !reply.isSuccess then Call.fail (.api reply.status reply.text)
    return reply

/-- Asks whether the interface can be reached with the credentials. -/
def checkConnection (c : Client) : Call Unit := do
  let _ ← c.send .get "/Status/Endpoints" [] .empty

/-- Submits an enrollment. -/
def enroll (c : Client) (e : Enrollment) : Call IssuedCertificate := do
  if Text.isBlankText e.csr then Call.fail (.invalidRequest "CSR is empty")
  let date ← Call.ask .date
  let headers := [("x-certificateformat", "PEM"), ("content-type", "application/json")]
  let reply ← c.send .post "/Enrollment/CSR" headers (.json (e.body date))
  match reply.body with
  | .cut => Call.fail (.unreadableEnrollment decodingError)
  | .complete bytes =>
    match Enrollment.decode (Text.toTextLossy bytes) with
    | .ok issued => return issued
    | .error e => Call.fail e

end Client

end CertIssuer.Authority
