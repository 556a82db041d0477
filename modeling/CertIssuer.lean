import CertIssuer.Text.Blank
import CertIssuer.Text.Base64
import CertIssuer.Text.Quoted
import CertIssuer.Text.Digits
import CertIssuer.Json.Parser
import CertIssuer.Json.Decode
import CertIssuer.Json.MergePatch
import CertIssuer.Time.UnitText
import CertIssuer.Time.Rfc3339
import CertIssuer.Resource.Issuer
import CertIssuer.Resource.CertificateRequest
import CertIssuer.Resource.Secret
import CertIssuer.Dialogue
import CertIssuer.Election.Leadership
import CertIssuer.Error
import CertIssuer.Settings
import CertIssuer.SecretScope
import CertIssuer.Resource.Annotation
import CertIssuer.Reconcile.Issuer
import CertIssuer.Reconcile.Request
import CertIssuer.Net.Bind
import CertIssuer.HomeNamespace
import CertIssuer.CommandLine
import CertIssuer.Authority.Pem
import CertIssuer.Authority.Error
import CertIssuer.Authority.Credentials
import CertIssuer.Authority.RootCertificate
import CertIssuer.Net.Url
import CertIssuer.Authority.Signer
import CertIssuer.World.Practice
import CertIssuer.World.Controllers
import CertIssuer.World.Server
import CertIssuer.Server.Pages
import CertIssuer.Scenario.Steps
import CertIssuer.Scenario.Trace
import CertIssuer.Main
import CertIssuer.Proofs.Dialogue.Interference
import CertIssuer.Proofs.Dialogue.Minutes
import CertIssuer.Proofs.Conditions
import CertIssuer.Proofs.Request.SigningGate
import CertIssuer.Proofs.Request.AtMostOnce
import CertIssuer.Proofs.Request.Landing
import CertIssuer.Proofs.Request.Lifecycle
import CertIssuer.Proofs.Secrets.Lookup
import CertIssuer.Proofs.Secrets.Confinement
import CertIssuer.Proofs.Secrets.Resolution
import CertIssuer.Proofs.Issuer.Wakefulness
import CertIssuer.Proofs.Request.Approver
import CertIssuer.Proofs.Json.Members
import CertIssuer.Proofs.Resource.StatusJson
import CertIssuer.Proofs.Resource.RoundTrip
import CertIssuer.Proofs.Replacement
import CertIssuer.Proofs.Dialogue.Course
import CertIssuer.Proofs.Dialogue.Crowd
import CertIssuer.Proofs.Authority.Calls
import CertIssuer.Proofs.Authority.Classification
import CertIssuer.Proofs.ApiServer.Session
import CertIssuer.Proofs.Resource.LeaseJson
import CertIssuer.Proofs.Election.Record
import CertIssuer.Proofs.Election.Contest
import CertIssuer.Proofs.Election.Safety
import CertIssuer.Proofs.Time.Epoch
import CertIssuer.Proofs.Election.StepDown
import CertIssuer.Proofs.Readiness.Traffic
import CertIssuer.Proofs.Readiness.ShutIssuer
import CertIssuer.Proofs.Issuer.Course
import CertIssuer.Proofs.Issuer.Slot
import CertIssuer.Proofs.Issuer.Accuracy
import CertIssuer.Proofs.Request.Course
import CertIssuer.Proofs.Request.Marks
import CertIssuer.Proofs.Request.Requeue
import CertIssuer.Proofs.Request.Budget
import CertIssuer.Proofs.Watch.Routing
import CertIssuer.Proofs.Quiescence
import CertIssuer.Proofs.Builders
import CertIssuer.Proofs.Request.Deadline
import CertIssuer.Proofs.Failures
import CertIssuer.Proofs.Request.Chain
import CertIssuer.Proofs.Authority.KeptToken
import CertIssuer.Proofs.Secrets.Concealment
import CertIssuer.Proofs.Conditions.History
import CertIssuer.Proofs.Conditions.Placement
import CertIssuer.Proofs.Issuer.Outage
import CertIssuer.Proofs.Authority.Complete
import CertIssuer.Proofs.Authority.ClockEnd
import CertIssuer.Proofs.Authority.Bundle
import CertIssuer.Proofs.Authority.Truncation
import CertIssuer.Proofs.Time.UnitText
import CertIssuer.Proofs.Time.WholeSeconds
import CertIssuer.Proofs.Request.Enrollment
import CertIssuer.Proofs.Authority.Credentials
import CertIssuer.Proofs.Election.Storage
import CertIssuer.Proofs.Retry
import CertIssuer.Proofs.Election.Notice
import CertIssuer.Proofs.Authority.Armor
import CertIssuer.Proofs.Election.Rounds
