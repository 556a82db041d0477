import CertIssuer.CommandLine
import CertIssuer.Json.Value

/-!
# Reports

The options of the command line, and the settings that they give, as JSON.
-/

namespace CertIssuer

/-- A span by its seconds and the nanoseconds after them. -/
def Span.toJson (d : Span) : Json :=
  .object [("secs", .ofNat d.seconds), ("nanos", .ofNat d.subsecond)]

def RetryPolicy.toJson (p : RetryPolicy) : Json := .object [
  ("base", p.base.toJson), ("maxInterval", p.maxInterval.toJson),
  ("maxDuration", p.maxDuration.toJson)]

def Settings.toJson (s : Settings) : Json := .object [
  ("clusterResourceNamespace", .string s.clusterResourceNamespace),
  ("clusterAccess", .bool s.secretAccessAtClusterLevel),
  ("checkApproved", .bool s.checkApproved),
  ("caTimeout", s.authorityTimeout.toJson),
  ("healthCheckInterval", s.healthCheckInterval.toJson),
  ("retry", s.retry.toJson)]

namespace CommandLine.Options

/-- The values of the options by name. -/
def members (o : Options) : List (String × Json) := [
  ("metricsBindAddress", .string o.metricsBindAddress),
  ("healthProbeBindAddress", .string o.healthProbeBindAddress),
  ("leaderElect", .bool o.leaderElect),
  ("leaderElectionNamespace", .ofText? o.leaderElectionNamespace),
  ("clusterResourceNamespace", .string o.clusterResourceNamespace),
  ("disableApprovedCheck", .bool o.disableApprovedCheck),
  ("secretAccessGrantedAtClusterLevel", .bool o.secretAccessAtClusterLevel),
  ("caRequestTimeout", .ofNat o.authorityTimeout),
  ("maxRetryInterval", .ofNat o.maxRetryInterval),
  ("maxRetryDuration", .ofNat o.maxRetryDuration),
  ("healthCheckInterval", .ofNat o.healthCheckInterval)]

/-- The options, and the settings that they give in a namespace for cluster issuers. -/
def report (o : Options) (clusterNamespace : String) : List (String × Json) :=
  o.members ++ [("settings", (o.settings clusterNamespace).toJson)]

end CommandLine.Options

end CertIssuer
