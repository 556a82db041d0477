import CertIssuer.Definition.Manifest
import CertIssuer.HomeNamespace
import CertIssuer.Net.Bind
import CertIssuer.Report

/-!
# The command

`command-issuer definitions` prints the definitions of the owned kinds, one document each. Every
other command line is read as the options of the controller, which are checked and shown together
with the settings that they give.
-/

namespace CertIssuer.Command

/-- Where the namespace of the service account stands. -/
def namespaceFile : String := "/var/run/secrets/kubernetes.io/serviceaccount/namespace"

def usage : String :=
  "usage: command-issuer [--option[=value]]...\n       command-issuer definitions\noptions:\n"
    ++ String.join (CommandLine.slots.map fun (name, _) => "  --" ++ name ++ "\n")

def version : String := "command-issuer 0.1.0"

/-- What is written, and whether it is good news. -/
structure Output where
  text : String
  status : UInt32
  deriving DecidableEq, Repr

namespace Output

def shown (text : String) : Output := ⟨text, 0⟩

def failed (text : String) : Output := ⟨text, 1⟩

/-- The command line itself is wrong. -/
def refused (text : String) : Output := ⟨text, 2⟩

end Output

def definitions : Output :=
  .shown (String.join (Scheme.standard.manifests.map fun m => "---\n" ++ m.print ++ "\n"))

def refusal : CommandLine.Refusal → Output
  | .displayHelp => .shown usage
  | .displayVersion => .shown (version ++ "\n")
  | r => .refused ("command-issuer: " ++ r.text ++ "\n" ++ usage)

/-- Checks both addresses to listen on, then shows the options in a namespace. -/
def report (o : CommandLine.Options) (home : HomeNamespace.Source) : Output :=
  match HomeNamespace.resolve (some o.clusterResourceNamespace) home with
  | .error e => .failed (e.message ++ "\n")
  | .ok ns =>
    match Net.bindEndpoint o.metricsBindAddress, Net.bindEndpoint o.healthProbeBindAddress with
    | .error e, _ => .failed (e.message ++ "\n")
    | _, .error e => .failed (e.message ++ "\n")
    | .ok _, .ok _ => .shown ((Json.object (o.report ns)).print ++ "\n")

/-- What a command line gives, once it is known what stands in the file of the namespace. -/
def answer (arguments : List String) (home : HomeNamespace.Source) : Output :=
  if arguments = ["definitions"] then definitions
  else
    match CommandLine.parse arguments with
    | .error r => refusal r
    | .ok o => report o home

/-- Reads the file of the namespace, which exists only inside a cluster. -/
def readHome : IO HomeNamespace.Source := do
  try
    let bytes ← IO.FS.readBinFile namespaceFile
    return .content bytes.toList
  catch
    | .noFileOrDirectory .. => return .missing
    | _ => return .unreadable

end CertIssuer.Command

def main (arguments : List String) : IO UInt32 := do
  let output := CertIssuer.Command.answer arguments (← CertIssuer.Command.readHome)
  let stream ← if output.status = 0 then IO.getStdout else IO.getStderr
  stream.putStr output.text
  return output.status
