import CertIssuer.Server.Metrics

/-!
# Pages

The pages by which the process can be observed: whether it is alive and ready, and its metrics. A
page is found by its exact path, without regard to a query, and is only read.

They are the pages of `probe_router` and `metrics_router`.
-/

namespace CertIssuer.Server

/-- What is answered to a request for a page. -/
structure Page where
  status : Nat
  contentType : Option String := none
  body : String := ""
  deriving DecidableEq, Repr

/-- The path of a target. -/
def pathOf (target : String) : String :=
  String.ofList (target.toList.takeWhile fun c => c != '?' && c != '#')

/-- The page of a target, without its body for `HEAD`. -/
def answer (pages : List (String × Page)) (method target : String) : Page :=
  match pages.find? (·.1 = pathOf target) with
  | none => ⟨404, none, ""⟩
  | some (_, page) =>
    if method = "GET" then page
    else if method = "HEAD" then { page with body := "" }
    else ⟨405, none, ""⟩

def plainText : String := "text/plain; charset=utf-8"

/-- The pages for probes. -/
def probePages (ready : Bool) : List (String × Page) := [
  ("/healthz", ⟨200, some plainText, "ok"⟩),
  ("/readyz",
    if ready then ⟨200, some plainText, "ok"⟩ else ⟨503, some plainText, "not ready"⟩)]

/-- The page with the metrics. -/
def metricsPages (m : Metrics) : List (String × Page) := [
  ("/metrics", ⟨200, some "text/plain; version=0.0.4", m.render⟩)]

end CertIssuer.Server
