import CertIssuer.Proofs.Resource.StatusJson
import CertIssuer.Resource.CertificateRequest

/-!
# Resources read back

The spec and the status of every resource, and what they are made of, read back as they were written
(`encodings_lossless`). Parts are left out when they are absent or empty, and each part that may be
left out is read with the default that stands for it. Whatever was read can be written again without
loss: its times and numbers are such as a text can give.
-/

namespace CertIssuer

open Json.Members

/-- An encoding reads back as the value that was written, and a value that was read stays the same
when it is written and read once more. -/
structure Json.Lossless {α : Type} (write : α → Json) (read : Json → Option α)
    (Valid : α → Prop) : Prop where
  read_write : ∀ a, Valid a → read (write a) = some a
  reread : ∀ value a, read value = some a → Valid a ∧ read (write a) = some a

theorem Json.Lossless.of_valid {α : Type} {write : α → Json} {read : Json → Option α}
    {Valid : α → Prop} (hwrite : ∀ a, Valid a → read (write a) = some a)
    (hvalid : ∀ value a, read value = some a → Valid a) : Json.Lossless write read Valid where
  read_write := hwrite
  reread value a h := ⟨hvalid value a h, hwrite a (hvalid value a h)⟩

/-- A list that is left out when it is empty reads back, since the empty one is the default. -/
theorem Json.withDefault_ofList? {α : Type} {read : Json → Option α} (write : α → Json)
    {name : String} {parts : List (String × Option Json)} (hnodup : (parts.map (·.1)).Nodup)
    {items : List α} (h : (name, Json.ofList? write items) ∈ parts)
    (hread : ∀ a ∈ items, read (write a) = some a) :
    (Json.present parts).withDefault name [] (Json.listOf? read) = some items := by
  cases items with
  | nil =>
    rw [withDefault, Json.find?_present hnodup h]
    rfl
  | cons first rest =>
    rw [withDefault, Json.find?_present hnodup h]
    exact Json.listOf?_map hread

section Texts

variable {parts : List (String × Option Json)} (hnodup : (parts.map (·.1)).Nodup) {name : String}

include hnodup

theorem Json.required_text {text : String} (h : (name, some (.string text)) ∈ parts) :
    (Json.present parts).required name Json.text? = some text :=
  required_present .string hnodup h rfl

theorem Json.optional_text {text : Option String} (h : (name, text.map .string) ∈ parts) :
    (Json.present parts).optional name Json.text? = some text := by
  refine optional_present .string hnodup h ?_ fun _ _ => rfl
  rintro text ⟨⟩

end Texts

/-! ### Statuses -/

theorem IssuerStatus.ofJson?_toJson {s : IssuerStatus} (h : s.conditions.Valid) :
    IssuerStatus.ofJson? s.toJson = some s := by
  have hnodup : (s.written.map (·.1)).Nodup := by simp [written]
  have hconditions : (Json.present s.written).withDefault "conditions" []
      (Json.listOf? Condition.ofJson?) = some s.conditions :=
    Json.withDefault_ofList? Condition.toJson hnodup (by simp [written]) h.ofList
  simp only [IssuerStatus.ofJson?, toJson_eq, Json.record?, Option.bind_eq_bind, Option.bind_some,
    hconditions]
  rfl

theorem RequestStatus.ofJson?_toJson {s : RequestStatus} (h : s.Valid) :
    RequestStatus.ofJson? s.toJson = some s := by
  have hnodup : (s.written.map (·.1)).Nodup := by simp [written]
  have hconditions : (Json.present s.written).withDefault "conditions" []
      (Json.listOf? Condition.ofJson?) = some s.conditions :=
    Json.withDefault_ofList? Condition.toJson hnodup (by simp [written]) h.conditions.ofList
  have hcertificate : (Json.present s.written).optional "certificate" Json.text? =
      some s.certificate :=
    Json.optional_text hnodup (by simp [written])
  have hca : (Json.present s.written).optional "ca" Json.text? = some s.ca :=
    Json.optional_text hnodup (by simp [written])
  have htime : (Json.present s.written).optional "failureTime" Timestamp.ofJson? =
      some s.failureTime := by
    refine optional_present Timestamp.toJson hnodup (by simp [written]) ?_ fun t ht =>
      Timestamp.ofJson?_toJson (h.failureTime t ht)
    rintro t ⟨⟩
  simp only [RequestStatus.ofJson?, toJson_eq, Json.record?, Option.bind_eq_bind, Option.bind_some,
    hconditions, hcertificate, hca, htime]
  rfl

/-! ### Specs -/

/-- The parts of a reference as they are written. -/
def ObjectReference.written (r : ObjectReference) : List (String × Option Json) := [
  ("name", some (.string r.name)),
  ("kind", r.kind.map .string),
  ("group", r.group.map .string)]

theorem ObjectReference.ofJson?_toJson (r : ObjectReference) :
    ObjectReference.ofJson? r.toJson = some r := by
  have hnodup : (r.written.map (·.1)).Nodup := by simp [written]
  have hname : (Json.present r.written).required "name" Json.text? = some r.name :=
    Json.required_text hnodup (by simp [written])
  have hkind : (Json.present r.written).optional "kind" Json.text? = some r.kind :=
    Json.optional_text hnodup (by simp [written])
  have hgroup : (Json.present r.written).optional "group" Json.text? = some r.group :=
    Json.optional_text hnodup (by simp [written])
  have hwritten : r.toJson = .object (Json.present r.written) := rfl
  simp only [ObjectReference.ofJson?, hwritten, Json.record?, Option.bind_eq_bind,
    Option.bind_some, hname, hkind, hgroup]
  rfl

/-- The parts of an issuer's spec as they are written. -/
def IssuerSpec.written (s : IssuerSpec) : List (String × Option Json) := [
  ("hostname", some (.string s.hostname)),
  ("apiPath", some (.string s.apiPath)),
  ("commandSecretName", some (.string s.commandSecretName)),
  ("caSecretName", s.caSecretName.map .string),
  ("secretNamespace", s.secretNamespace.map .string),
  ("certificateTemplate", some (.string s.certificateTemplate)),
  ("certificateAuthorityLogicalName", some (.string s.certificateAuthorityLogicalName)),
  ("certificateAuthorityHostname", s.certificateAuthorityHostname.map .string),
  ("scopes", s.scopes.map .string),
  ("audience", s.audience.map .string)]

theorem IssuerSpec.ofMembers?_written (s : IssuerSpec) :
    IssuerSpec.ofMembers? (Json.present s.written) = some s := by
  have hnodup : (s.written.map (·.1)).Nodup := by simp [written]
  have hpath : (Json.present s.written).withDefault "apiPath" defaultApiPath Json.text? =
      some s.apiPath :=
    withDefault_present (o := some s.apiPath) .string hnodup (by simp [written]) fun _ _ => rfl
  have hhostname : (Json.present s.written).required "hostname" Json.text? = some s.hostname :=
    Json.required_text hnodup (by simp [written])
  have hsecret : (Json.present s.written).required "commandSecretName" Json.text? =
      some s.commandSecretName :=
    Json.required_text hnodup (by simp [written])
  have hca : (Json.present s.written).optional "caSecretName" Json.text? =
      some s.caSecretName :=
    Json.optional_text hnodup (by simp [written])
  have hns : (Json.present s.written).optional "secretNamespace" Json.text? =
      some s.secretNamespace :=
    Json.optional_text hnodup (by simp [written])
  have htemplate : (Json.present s.written).required "certificateTemplate" Json.text? =
      some s.certificateTemplate :=
    Json.required_text hnodup (by simp [written])
  have hlogical : (Json.present s.written).required "certificateAuthorityLogicalName" Json.text? =
      some s.certificateAuthorityLogicalName :=
    Json.required_text hnodup (by simp [written])
  have hhost : (Json.present s.written).optional "certificateAuthorityHostname" Json.text? =
      some s.certificateAuthorityHostname :=
    Json.optional_text hnodup (by simp [written])
  have hscopes : (Json.present s.written).optional "scopes" Json.text? = some s.scopes :=
    Json.optional_text hnodup (by simp [written])
  have haudience : (Json.present s.written).optional "audience" Json.text? = some s.audience :=
    Json.optional_text hnodup (by simp [written])
  simp only [ofMembers?, hhostname, hpath, hsecret, hca, hns, htemplate, hlogical, hhost, hscopes,
    haudience]
  rfl

theorem IssuerSpec.toJson_eq (s : IssuerSpec) : s.toJson = .object (Json.present s.written) := rfl

theorem IssuerSpec.ofKindJson?_toJson (kind : IssuerKind) (s : IssuerSpec) :
    IssuerSpec.ofKindJson? kind s.toJson = some s := by
  cases kind with
  | namespaced => exact s.ofMembers?_written
  | cluster => exact s.ofMembers?_written

/-- The parts of a request's spec as they are written. -/
def RequestSpec.written (s : RequestSpec) : List (String × Option Json) := [
  ("request", some (.string s.request)),
  ("duration", s.duration.map .string),
  ("issuerRef", some s.issuerRef.toJson),
  ("usages", Json.ofList? .string s.usages),
  ("isCA", some (.bool s.isCA)),
  ("username", s.username.map .string)]

theorem RequestSpec.ofJson?_toJson (s : RequestSpec) :
    RequestSpec.ofJson? s.toJson = some s := by
  have hnodup : (s.written.map (·.1)).Nodup := by simp [written]
  have hrequest : (Json.present s.written).required "request" Json.text? = some s.request :=
    Json.required_text hnodup (by simp [written])
  have hduration : (Json.present s.written).optional "duration" Json.text? = some s.duration :=
    Json.optional_text hnodup (by simp [written])
  have hissuer : (Json.present s.written).required "issuerRef" ObjectReference.ofJson? =
      some s.issuerRef :=
    required_present ObjectReference.toJson hnodup (by simp [written])
      s.issuerRef.ofJson?_toJson
  have husages : (Json.present s.written).withDefault "usages" [] (Json.listOf? Json.text?) =
      some s.usages :=
    Json.withDefault_ofList? .string hnodup (by simp [written]) fun _ _ => rfl
  have hisCA : (Json.present s.written).withDefault "isCA" false Json.bool? = some s.isCA :=
    withDefault_present (o := some s.isCA) .bool hnodup (by simp [written]) fun _ _ => rfl
  have husername : (Json.present s.written).optional "username" Json.text? = some s.username :=
    Json.optional_text hnodup (by simp [written])
  have hwritten : s.toJson = .object (Json.present s.written) := rfl
  simp only [RequestSpec.ofJson?, hwritten, Json.record?, Option.bind_eq_bind, Option.bind_some,
    hrequest, hduration, hissuer, husages, hisCA, husername]
  rfl

/-! ### All of them -/

/-- The parts of every resource are written without loss, and what was stored is written again as it
was read. -/
theorem encodings_lossless :
    Json.Lossless Condition.toJson Condition.ofJson? Condition.Valid ∧
    Json.Lossless ObjectReference.toJson ObjectReference.ofJson? (fun _ => True) ∧
    (∀ kind, Json.Lossless IssuerSpec.toJson (IssuerSpec.ofKindJson? kind) fun _ => True) ∧
    Json.Lossless IssuerStatus.toJson IssuerStatus.ofJson? (·.conditions.Valid) ∧
    Json.Lossless RequestSpec.toJson RequestSpec.ofJson? (fun _ => True) ∧
    Json.Lossless RequestStatus.toJson RequestStatus.ofJson? RequestStatus.Valid := by
  refine ⟨?condition, ?reference, fun kind => ?issuerSpec, ?issuerStatus, ?requestSpec,
    ?requestStatus⟩
  case condition =>
    exact .of_valid (fun _ => Condition.ofJson?_toJson) fun _ _ => Condition.valid_of_ofJson?
  case reference => exact .of_valid (fun r _ => r.ofJson?_toJson) fun _ _ _ => trivial
  case issuerSpec => exact .of_valid (fun s _ => s.ofKindJson?_toJson kind) fun _ _ _ => trivial
  case issuerStatus =>
    exact .of_valid (fun _ => IssuerStatus.ofJson?_toJson) fun _ _ => IssuerStatus.valid_of_ofJson?
  case requestSpec => exact .of_valid (fun s _ => s.ofJson?_toJson) fun _ _ _ => trivial
  case requestStatus =>
    exact .of_valid (fun _ => RequestStatus.ofJson?_toJson) fun _ _ =>
      RequestStatus.valid_of_ofJson?

/-- A request that failed within the leap second of 2016. -/
def leapStatus : RequestStatus :=
  let time : Timestamp := ⟨1483228799, 1250000000⟩
  { conditions := [⟨Condition.ready, .isFalse, some Reason.failed, none, some 3, some time⟩]
    failureTime := some time }

theorem leapStatus_valid : leapStatus.Valid := by
  have htime : (⟨1483228799, 1250000000⟩ : Timestamp).Valid := ⟨by decide, by decide, by decide⟩
  refine ⟨?_, fun t ht => Option.some.inj ht ▸ htime⟩
  intro c hc
  obtain rfl := List.mem_singleton.mp hc
  exact ⟨fun n hn => Option.some.inj hn ▸ rfl, fun t ht => Option.some.inj ht ▸ htime⟩

theorem encodings_lossless_leap :
    leapStatus.failureTime.map Timestamp.text = some "2016-12-31T23:59:60.250Z" ∧
      RequestStatus.ofJson? leapStatus.toJson = some leapStatus := by
  obtain ⟨-, -, -, -, -, hstatus⟩ := encodings_lossless
  exact ⟨by decide +kernel, hstatus.read_write _ leapStatus_valid⟩

end CertIssuer
