import CertIssuer.Dialogue
import CertIssuer.Error
import CertIssuer.Settings
import CertIssuer.Signing.Order
import CertIssuer.StatusPatch

/-!
# Passes

A pass looks at one resource and decides what comes next. It is a dialogue with the world: it asks
for the time, reads resources and secrets, has signers and checkers built and used, and writes
statuses. A failed read or write ends it with an error.

The questions are the methods of `ResourceStore`, `ConfigClient`, `Clock`, `Signer`, `HealthChecker`
and their builders.
-/

namespace CertIssuer

namespace Reconcile

/-- What a pass asks of the world. -/
inductive Question where
  | now
  | issuer (key : IssuerKey)
  | request («namespace» name : String)
  | secret (key : Secret.Key)
  | buildSigner (spec : IssuerSpec) (secrets : IssuerSecrets)
  | sign (spec : IssuerSpec) (secrets : IssuerSecrets) (order : SignOrder)
  | buildChecker (spec : IssuerSpec) (secrets : IssuerSecrets)
  | check (spec : IssuerSpec) (secrets : IssuerSecrets)
  | writeIssuer (issuer : Issuer) (status : IssuerStatus)
  | writeRequest (request : CertificateRequest) (status : RequestStatus)
      (precondition : Precondition)
  | recordIssued

/-- What the world answers. A call to the authority gives nothing when its deadline passes. -/
def Question.Answer : Question → Type
  | now => Timestamp
  | issuer _ => Except ControllerError (Option Issuer)
  | request _ _ => Except ControllerError (Option CertificateRequest)
  | secret _ => Except ControllerError (Option SecretData)
  | buildSigner _ _ => Except SignerError Unit
  | sign _ _ _ => Option (Except SignerError SignedCertificate)
  | buildChecker _ _ => Except SignerError Unit
  | check _ _ => Option (Except SignerError Unit)
  | writeIssuer _ _ => Except ControllerError Unit
  | writeRequest _ _ _ => Except ControllerError Unit
  | recordIssued => Unit

end Reconcile

/-- A pass, which may end with an error. -/
abbrev Pass := ExceptT ControllerError (Dialogue Reconcile.Question Reconcile.Question.Answer)

namespace Pass

open Reconcile

/-- Asks a question that is always answered. -/
def ask (q : Question) : Pass q.Answer := ExceptT.lift (Dialogue.question q)

/-- Asks for the time. -/
def now : Pass Timestamp := ask .now

def getIssuer (key : IssuerKey) : Pass (Option Issuer) := ExceptT.mk (Dialogue.question (Question.issuer key))

def getRequest (ns name : String) : Pass (Option CertificateRequest) :=
  ExceptT.mk (Dialogue.question (Question.request ns name))

def getSecret (key : Secret.Key) : Pass (Option SecretData) :=
  ExceptT.mk (Dialogue.question (Question.secret key))

def writeIssuer (issuer : Issuer) (status : IssuerStatus) : Pass Unit :=
  ExceptT.mk (Dialogue.question (Question.writeIssuer issuer status))

def writeRequest (request : CertificateRequest) (status : RequestStatus)
    (precondition : Precondition) : Pass Unit :=
  ExceptT.mk (Dialogue.question (Question.writeRequest request status precondition))

end Pass

/-- When a resource is looked at again: when something changes, or after a delay. -/
inductive Requeue where
  | awaitChange
  | after (delay : Span)
  deriving DecidableEq, Repr

end CertIssuer
