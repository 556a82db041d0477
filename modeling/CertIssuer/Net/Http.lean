import CertIssuer.Json.Value
import CertIssuer.Net.Url
import CertIssuer.Text.Utf8

/-!
# Web requests

A request to a peer, what may become of it, and the standard phrases of status codes.
-/

namespace CertIssuer.Net

inductive Method where
  | get
  | head
  | post
  | put
  | patch
  | delete
  deriving DecidableEq, Repr

def Method.text : Method → String
  | get => "GET"
  | head => "HEAD"
  | post => "POST"
  | put => "PUT"
  | patch => "PATCH"
  | delete => "DELETE"

/-- What a request carries. -/
inductive Body where
  | empty
  | form (fields : List (String × String))
  | json (value : Json)

structure Request where
  method : Method
  url : Url
  headers : List (String × String)
  body : Body

/-- The body of a reply; it may break off. -/
inductive ReplyBody where
  | complete (bytes : Text.Bytes)
  | cut

structure Reply where
  status : Nat
  body : ReplyBody

/-- What becomes of a request: a reply, or none before the deadline. -/
inductive Exchange where
  | reply (r : Reply)
  | noReply

namespace Reply

/-- Whether the status says that the request was carried out. -/
def isSuccess (r : Reply) : Bool := 200 ≤ r.status && r.status < 300

/-- The body as text, empty when it breaks off. -/
def text (r : Reply) : String :=
  match r.body with
  | .complete bytes => Text.toTextLossy bytes
  | .cut => ""

end Reply

/-- A character that may stand in the value of a header. -/
def inHeader (c : Char) : Bool := c == '\t' || (32 ≤ c.toNat && c.toNat ≠ 127)

/-! ### Status codes -/

/-- The standard phrase of a status code. -/
def standardPhrase? : Nat → Option String
  | 100 => some "Continue"
  | 101 => some "Switching Protocols"
  | 102 => some "Processing"
  | 103 => some "Early Hints"
  | 200 => some "OK"
  | 201 => some "Created"
  | 202 => some "Accepted"
  | 203 => some "Non Authoritative Information"
  | 204 => some "No Content"
  | 205 => some "Reset Content"
  | 206 => some "Partial Content"
  | 207 => some "Multi-Status"
  | 208 => some "Already Reported"
  | 226 => some "IM Used"
  | 300 => some "Multiple Choices"
  | 301 => some "Moved Permanently"
  | 302 => some "Found"
  | 303 => some "See Other"
  | 304 => some "Not Modified"
  | 305 => some "Use Proxy"
  | 307 => some "Temporary Redirect"
  | 308 => some "Permanent Redirect"
  | 400 => some "Bad Request"
  | 401 => some "Unauthorized"
  | 402 => some "Payment Required"
  | 403 => some "Forbidden"
  | 404 => some "Not Found"
  | 405 => some "Method Not Allowed"
  | 406 => some "Not Acceptable"
  | 407 => some "Proxy Authentication Required"
  | 408 => some "Request Timeout"
  | 409 => some "Conflict"
  | 410 => some "Gone"
  | 411 => some "Length Required"
  | 412 => some "Precondition Failed"
  | 413 => some "Payload Too Large"
  | 414 => some "URI Too Long"
  | 415 => some "Unsupported Media Type"
  | 416 => some "Range Not Satisfiable"
  | 417 => some "Expectation Failed"
  | 418 => some "I'm a teapot"
  | 421 => some "Misdirected Request"
  | 422 => some "Unprocessable Entity"
  | 423 => some "Locked"
  | 424 => some "Failed Dependency"
  | 425 => some "Too Early"
  | 426 => some "Upgrade Required"
  | 428 => some "Precondition Required"
  | 429 => some "Too Many Requests"
  | 431 => some "Request Header Fields Too Large"
  | 451 => some "Unavailable For Legal Reasons"
  | 500 => some "Internal Server Error"
  | 501 => some "Not Implemented"
  | 502 => some "Bad Gateway"
  | 503 => some "Service Unavailable"
  | 504 => some "Gateway Timeout"
  | 505 => some "HTTP Version Not Supported"
  | 506 => some "Variant Also Negotiates"
  | 507 => some "Insufficient Storage"
  | 508 => some "Loop Detected"
  | 510 => some "Not Extended"
  | 511 => some "Network Authentication Required"
  | _ => none

/-- A status code with its phrase. -/
def statusLine (status : Nat) : String :=
  s!"{status} {(standardPhrase? status).getD unknownStatus}"
where
  unknownStatus : String := "<unknown status code>"

end CertIssuer.Net
