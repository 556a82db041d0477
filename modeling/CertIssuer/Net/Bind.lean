import CertIssuer.Error
import CertIssuer.Net.Endpoint
import CertIssuer.Text.Blank

/-!
# Where to listen

The value of a bind option: an endpoint, a colon and a port for every address of the machine, or
`0` or nothing to listen nowhere.

It is read by `parse_bind_address`.
-/

namespace CertIssuer.Net

/-- The endpoint to listen on, if any. -/
def bindEndpoint (value : String) : Except ControllerError (Option Endpoint) :=
  let value := Text.trim value
  let refused := "invalid bind address " ++ Text.quoted value
  if value = "" ∨ value = "0" then .ok none
  else
    match value.toList with
    | ':' :: port =>
      match Text.unsigned? 65535 (String.ofList port) with
      | some port => .ok (some (.anyHost port))
      | none => .error (.invalidConfig refused)
    | _ =>
      match Endpoint.parse? value with
      | some endpoint => .ok (some endpoint)
      | none => .error (.invalidConfig (refused ++ ": invalid socket address syntax"))

end CertIssuer.Net
