import CertIssuer.Reconcile.Request

/-!
# Routing

Which resources a change of another one concerns. A secret concerns the issuers that read it, and
an issuer concerns the requests that name it and are not finished.

The rules are `issuer_uses_secret` and `request_references_issuer`.
-/

namespace CertIssuer.Watch

/-- Whether an issuer's spec names a secret, in either role. -/
def namesSecret (spec : IssuerSpec) (name : String) : Bool :=
  Text.trim spec.commandSecretName == name || spec.caSecretName.map Text.trim == some name

/-- Whether a change of a secret concerns an issuer of a kind, namespace and spec. -/
def issuerUsesSecret (kind : IssuerKind) (issuerNamespace : Option String) (spec : IssuerSpec)
    (secret : Secret.Key) (settings : Settings) : Bool :=
  match resolveSecretNamespace kind issuerNamespace spec.secretNamespace
      settings.clusterResourceNamespace settings.secretAccessAtClusterLevel with
  | .ok ns => ns == secret.namespace && namesSecret spec secret.name
  | .error _ => false

/-- Whether a change of an issuer concerns a request. -/
def requestReferencesIssuer (scheme : Scheme) (request : CertificateRequest) (key : IssuerKey) :
    Bool :=
  request.spec.issuerRef.name == key.name &&
    Reconcile.issuerKindOf? scheme request == some key.kind &&
    !request.currentStatus.isTerminal &&
    match key.kind with
    | .namespaced => request.metadata.namespace == key.namespace
    | .cluster => true

end CertIssuer.Watch
