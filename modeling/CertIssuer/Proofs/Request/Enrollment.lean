import CertIssuer.Authority.Rehearsal
import CertIssuer.Proofs.Authority.Calls
import CertIssuer.Proofs.Request.Budget
import Mathlib.Data.List.Nodup

/-!
# The enrollment that a request becomes

A pass that has a request signed places one order, made of the request that it read and of the
issuer that it met (`ordered_of_sign`). A signer makes the order into one enrollment, which is all
that is handed to a client, be it the real one or a rehearsal (`submits_of_text`). The fields of the
enrollment are those annotations of the request that stand under the prefix of the issuer's group;
no two of them meet in one field.
-/

namespace CertIssuer

/-! ### Fields of annotations -/

section Fields

variable {name k : String} {annotations : List (String × String)}

theorem enrollmentField?_eq_some_iff :
    enrollmentField? name = some k ↔ k ≠ "" ∧ name = enrollmentAnnotationStem ++ k := by
  have hname : name = enrollmentAnnotationStem ++ k ↔
      enrollmentAnnotationStem.toList ++ k.toList = name.toList := by
    rw [← String.toList_append, String.toList_inj, eq_comm]
  simp only [enrollmentField?, List.isPrefixOf_iff_prefix, hname, ne_eq, ← String.toList_eq_nil_iff]
  constructor
  · intro h
    split at h
    · next hprefix =>
      obtain ⟨field, hfield⟩ := hprefix
      rw [← hfield, List.drop_left] at h
      split at h
      · cases h
      · next hsome =>
        cases h
        rw [String.toList_ofList]
        exact ⟨mt List.isEmpty_iff.mpr hsome, hfield⟩
    · cases h
  · rintro ⟨hsome, hfield⟩
    rw [if_pos ⟨_, hfield⟩, ← hfield, List.drop_left, if_neg (mt List.isEmpty_iff.mp hsome),
      String.ofList_toList]

theorem lookup_cons_ne {value : String} (entries : List (String × String)) (h : k ≠ name) :
    ((name, value) :: entries).lookup k = entries.lookup k := by
  rw [List.lookup_cons, beq_eq_false_iff_ne.mpr h]

/-- Under new names, an entry is found by the new name of exactly one old name. -/
theorem lookup_renamed {rename? : String → Option String} {entries : List (String × String)}
    {old : String} (h : ∀ name, rename? name = some k ↔ name = old) :
    (entries.filterMap fun (name, value) => (rename? name).map (·, value)).lookup k =
      entries.lookup old := by
  induction entries with
  | nil => rfl
  | cons entry rest ih =>
    obtain ⟨name, value⟩ := entry
    cases hnew : rename? name with
    | none =>
      have hother : old ≠ name := by
        rintro rfl
        rw [(h old).mpr rfl] at hnew
        cases hnew
      rw [List.filterMap_cons_none (by simp [hnew]), lookup_cons_ne rest hother, ih]
    | some new =>
      have hsame : new = k ↔ name = old := by
        rw [← h name, hnew, Option.some_inj]
      rw [List.filterMap_cons_some (b := (new, value)) (by simp [hnew])]
      by_cases hk : new = k
      · rw [hk, hsame.mp hk, List.lookup_cons_self, List.lookup_cons_self]
      · rw [lookup_cons_ne _ (Ne.symm hk), lookup_cons_ne rest (Ne.symm (mt hsame.mpr hk)), ih]

theorem lookup_enrollmentMetadata (annotations : List (String × String)) (hsome : k ≠ "") :
    (enrollmentMetadata annotations).lookup k =
      annotations.lookup (enrollmentAnnotationStem ++ k) :=
  lookup_renamed fun _ => enrollmentField?_eq_some_iff.trans (and_iff_right hsome)

theorem fst_enrollmentMetadata (annotations : List (String × String)) :
    (enrollmentMetadata annotations).map Prod.fst =
      (annotations.map Prod.fst).filterMap enrollmentField? := by
  rw [enrollmentMetadata, List.map_filterMap, List.filterMap_map]
  refine List.filterMap_congr fun entry _ => ?_
  cases hfield : enrollmentField? entry.1 <;> simp [hfield]

theorem lookup_enrollmentMetadata_empty (annotations : List (String × String)) :
    (enrollmentMetadata annotations).lookup "" = none := by
  refine List.lookup_eq_none_iff.mpr fun entry hentry => bne_iff_ne.mpr ?_
  have hfield := List.mem_map_of_mem (f := Prod.fst) hentry
  rw [fst_enrollmentMetadata, List.mem_filterMap] at hfield
  obtain ⟨name, -, hname⟩ := hfield
  exact (enrollmentField?_eq_some_iff.mp hname).1.symm

theorem lookup_enrollmentMetadata_iff (annotations : List (String × String)) (k v : String) :
    (enrollmentMetadata annotations).lookup k = some v ↔
      k ≠ "" ∧ annotations.lookup ("command-issuer.keyfactor.com/" ++ k) = some v := by
  by_cases hempty : k = ""
  · rw [hempty, lookup_enrollmentMetadata_empty]
    exact iff_of_false nofun fun h => h.1 rfl
  · rw [lookup_enrollmentMetadata annotations hempty]
    exact (and_iff_right hempty).symm

theorem nodup_enrollmentMetadata (h : (annotations.map Prod.fst).Nodup) :
    ((enrollmentMetadata annotations).map Prod.fst).Nodup := by
  rw [fst_enrollmentMetadata]
  refine h.filterMap fun name name' k hname hname' => ?_
  rw [(enrollmentField?_eq_some_iff.mp hname).2, (enrollmentField?_eq_some_iff.mp hname').2]

end Fields

end CertIssuer

/-! ### From an order to a client -/

namespace CertIssuer.Authority

/-- What comes of a call that may fail. The end of the clock is no failure and goes on. -/
def Call.outcome {α : Type} (x : Call α) : Call (Except CallError α) :=
  tryCatch (do return .ok (← x)) fun
    | .failed e => return .error e
    | .clockOverflow => throw .clockOverflow

/-- An enrollment is all that a client is handed for an order. -/
structure Signer.Submits (s : Signer) (order : SignOrder) (e : Enrollment) : Prop where
  client : ∀ client : Client,
    signOver client s order = do return Signer.signed (← (client.enroll e).outcome)
  rehearsal : ∀ r : Rehearsal, (r.sign s order).1 = Signer.signed (r.enroll e).1
  rehearsed : ∀ r : Rehearsal, (r.sign s order).2.enrollments = r.enrollments ++ [e]

variable {s : Signer} {order : SignOrder} {e : Enrollment} {spec : IssuerSpec}

theorem Call.run_bind {α β : Type} (x : Call α) (f : α → Call β) (kept : Option Token) :
    (x >>= f).run.run kept =
      x.run.run kept >>= fun ended => (ExceptT.bindCont f ended.1).run ended.2 := rfl

theorem Call.return_outcome {α β : Type} (x : Call α) (f : Except CallError α → β) :
    (do return f (← x.outcome) : Call β) =
      tryCatch (do return f (.ok (← x))) fun
        | .failed e => return f (.error e)
        | .clockOverflow => throw .clockOverflow := by
  refine ExceptT.ext (StateT.ext fun kept => ?_)
  rw [run_bind, outcome, run_tryCatch, run_tryCatch, run_bind, run_bind]
  simp only [Dialogue.bind_assoc]
  refine congrArg (x.run.run kept >>= ·) (funext fun ended => ?_)
  obtain ⟨(_ | _) | _, mid⟩ := ended <;> rfl

theorem submits_of_enrollment (h : s.enrollment order = .ok e) : s.Submits order e where
  client client := by
    rw [signOver, h]
    exact (Call.return_outcome (client.enroll e) Signer.signed).symm
  rehearsal r := by
    rw [Rehearsal.sign, h]
  rehearsed r := by
    rw [Rehearsal.sign, h]
    dsimp only [Rehearsal.enroll]
    cases r.enrollFailures <;> rfl

theorem signer_eq_of_ofSpec (h : Signer.ofSpec spec = .ok s) :
    s = ⟨spec.certificateTemplate, certificateAuthority spec⟩ := by
  unfold Signer.ofSpec at h
  by_cases htemplate : Text.isBlankText spec.certificateTemplate
  · rw [if_pos htemplate] at h
    cases h
  · rw [if_neg htemplate] at h
    by_cases hname : Text.isBlankText spec.certificateAuthorityLogicalName
    · rw [if_pos hname] at h
      cases h
    · rw [if_neg hname] at h
      cases h
      rfl

theorem certificateAuthority_of_host {host : String}
    (h : spec.certificateAuthorityHostname = some host) (hsome : host ≠ "") :
    certificateAuthority spec = host ++ "\\" ++ spec.certificateAuthorityLogicalName := by
  have hkept : spec.certificateAuthorityHostname.filter (!·.isEmpty) = some host := by
    simp [h, hsome]
  rw [certificateAuthority, hkept]

theorem certificateAuthority_of_none
    (h : ∀ host, spec.certificateAuthorityHostname = some host → host = "") :
    certificateAuthority spec = spec.certificateAuthorityLogicalName := by
  have hdropped : spec.certificateAuthorityHostname.filter (!·.isEmpty) = none := by
    cases hhost : spec.certificateAuthorityHostname with
    | none => rfl
    | some host => simp [h host hhost]
  rw [certificateAuthority, hdropped]

/-- The enrollment is made of a request and of the spec of an issuer. -/
structure Enrollment.IsOf (e : Enrollment) (request : CertificateRequest) (spec : IssuerSpec) :
    Prop where
  csr : Text.Base64.decode (Text.trim request.spec.request) = .ok (Text.toBytes e.csr)
  template : e.template = spec.certificateTemplate
  hosted : ∀ host, spec.certificateAuthorityHostname = some host → host ≠ "" →
    e.certificateAuthority = host ++ "\\" ++ spec.certificateAuthorityLogicalName
  unhosted : (∀ host, spec.certificateAuthorityHostname = some host → host = "") →
    e.certificateAuthority = spec.certificateAuthorityLogicalName
  field : ∀ k v, e.metadata.lookup k = some v ↔ k ≠ "" ∧
    request.metadata.allAnnotations.lookup ("command-issuer.keyfactor.com/" ++ k) = some v
  distinct : (request.metadata.allAnnotations.map Prod.fst).Nodup → (e.metadata.map Prod.fst).Nodup

end CertIssuer.Authority

/-! ### Passes -/

namespace CertIssuer.Reconcile

open Authority (Signer)
open Pass

variable {settings : Settings} {scheme : Scheme} {ns name : String} {heard : List Hearing}
  {result : Except ControllerError Requeue} {spec : IssuerSpec} {secrets : IssuerSecrets}
  {order : SignOrder} {answer : Option (Except SignerError SignedCertificate)}

/-- A pass that has something signed has read a request and met its issuer, and both make the one
order that it places. Nothing else is read but the issuer's secrets. -/
structure Ordered (scheme : Scheme) (ns name : String)
    (request : CertificateRequest) (now : Timestamp) (issuer : Issuer) (secrets : IssuerSecrets)
    (order : SignOrder) (answer : Option (Except SignerError SignedCertificate))
    (heard : List Hearing) : Prop where
  read : ⟨.request ns name, .ok (some request)⟩ ∈ heard
  met : ∃ kind, issuerKindOf? scheme request = some kind ∧
    ⟨.issuer (CertificateRequest.issuerKey request kind), .ok (some issuer)⟩ ∈ heard
  placed : ⟨.sign issuer.spec secrets order, answer⟩ ∈ heard
  once : signCalls heard = 1
  said : ∀ x ∈ heard, Said ns name request now issuer answer x
  made : (Work.start request now).order? = .ok order

section Placed

variable {request : CertificateRequest} {kind : IssuerKind} {now : Timestamp} {issuer : Issuer}
  {seeking closing : List Hearing} {w : Work} {e : Exit}

theorem ordered_of_parts (hkind : issuerKindOf? scheme request = some kind)
    (hsought : Sought settings kind (.start request now) seeking (.order w issuer secrets order))
    (hclosing : (e.take w).Goes closing result) :
    Ordered scheme ns name request now issuer secrets order answer
      (⟨.request ns name, .ok (some request)⟩ :: ⟨.now, now⟩ ::
        (seeking ++ ⟨.sign issuer.spec secrets order, answer⟩ :: closing)) where
  read := by simp
  met := by
    refine ⟨kind, hkind, ?_⟩
    rw [← start_issuerKey request now]
    cases hsought
    simp
  placed := by simp
  once := signCalls_of_parts hsought hclosing
  said := said_of_parts hsought hclosing
  made := by
    cases hsought with
    | order _ _ horder => exact horder

end Placed

theorem ordered_of_act {looking acting : List Hearing} {finding : Finding}
    (hlooking : Surveyed settings scheme ns name looking finding)
    (hacting : (act settings finding).Goes acting result)
    (hsign : ⟨.sign spec secrets order, answer⟩ ∈ acting) :
    ∃ request now issuer, spec = issuer.spec ∧
      Ordered scheme ns name request now issuer secrets order answer (looking ++ acting) := by
  cases hlooking with
  | missing | foreign _ | terminal _ =>
    obtain ⟨rfl, -⟩ := goes_pure.mp hacting
    cases hsign
  | @sought request kind now seeking finding hkind _ hsought =>
    cases finding with
    | idle => cases hsought
    | exit w e => exact ((take_within e w).goes hacting _ hsign).elim
    | order w issuer secrets' order' =>
      obtain ⟨answer', closing, rfl, hclosing⟩ := goes_ask_bind.mp hacting
      rcases List.mem_cons.mp hsign with hsame | hlater
      · cases hsame
        exact ⟨request, now, issuer, rfl, ordered_of_parts hkind hsought hclosing⟩
      · exact ((take_within _ w).goes hclosing _ hlater).elim

/-- Every pass that has something signed goes that way, be it that it ends well or not. -/
theorem ordered_of_sign (h : (requestPass settings scheme ns name).Goes heard result)
    (hsign : ⟨.sign spec secrets order, answer⟩ ∈ heard) :
    ∃ request now issuer, spec = issuer.spec ∧
      Ordered scheme ns name request now issuer secrets order answer heard := by
  rw [requestPass_eq] at h
  rcases goes_bind.mp h with ⟨e, hsurvey, -⟩ | ⟨looking, acting, finding, rfl, hsurvey, hacting⟩
  · exact ((survey_within settings scheme ns name).goes hsurvey _ hsign).elim
  · rcases List.mem_append.mp hsign with hlooked | hacted
    · exact ((survey_within settings scheme ns name).goes hsurvey _ hlooked).elim
    · exact ordered_of_act (surveyed_of_goes hsurvey) hacting hacted

/-- What a signer makes of the order of a request is the enrollment of that request. -/
theorem enrollment_of_made {request : CertificateRequest} {now : Timestamp} {signer : Signer}
    {csr : String} (hmade : (Work.start request now).order? = .ok order)
    (hsigner : Signer.ofSpec spec = .ok signer)
    (hcsr : Text.Base64.decode (Text.trim request.spec.request) = .ok (Text.toBytes csr)) :
    ∃ e, e.csr = csr ∧ e.IsOf request spec ∧ signer.Submits order e := by
  have horder := order?_eq_ok_iff.mp hmade
  rw [start_request] at horder
  obtain ⟨hdecoded, -, -, -, -, hmetadata⟩ := horder
  have htext : Text.toText? order.csr = some csr := by
    rw [← Except.ok.inj (hcsr.symm.trans hdecoded), Text.toText?_toBytes]
  have hsigner := Authority.signer_eq_of_ofSpec hsigner
  have hsubmits : signer.enrollment order =
      .ok ⟨csr, spec.certificateTemplate, Authority.certificateAuthority spec, order.metadata⟩ := by
    rw [Signer.enrollment, htext, hsigner]
  refine ⟨_, rfl, ?_, Authority.submits_of_enrollment hsubmits⟩
  rw [hmetadata]
  exact {
    csr := hcsr
    template := rfl
    hosted := fun _ => Authority.certificateAuthority_of_host
    unhosted := Authority.certificateAuthority_of_none
    field := fun k v => lookup_enrollmentMetadata_iff _ k v
    distinct := nodup_enrollmentMetadata }

/-- Every pass that has something signed, be it that it ends well or not, has met one issuer, has
asked for one signature, and has handed over one enrollment, which is that of its request under the
spec of the issuer as it was met, if the request spells a text. -/
theorem enrollment_submitted (h : (requestPass settings scheme ns name).Goes heard result)
    (hsign : ⟨.sign spec secrets order, answer⟩ ∈ heard) {signer : Signer}
    (hsigner : Signer.ofSpec spec = .ok signer) :
    ∃ request now issuer, spec = issuer.spec ∧
      Ordered scheme ns name request now issuer secrets order answer heard ∧
      ∀ csr, Text.Base64.decode (Text.trim request.spec.request) = .ok (Text.toBytes csr) →
        ∃ e, e.csr = csr ∧ e.IsOf request issuer.spec ∧ signer.Submits order e := by
  obtain ⟨request, now, issuer, rfl, hordered⟩ := ordered_of_sign h hsign
  exact ⟨request, now, issuer, rfl, hordered, fun _ => enrollment_of_made hordered.made hsigner⟩

/-! ### A request with annotations -/

/-- A request with an annotation for the authority, one without a field, and one of another group. -/
def annotatedRequest : CertificateRequest :=
  { (sampleRequest "Y3Ny" {}).1 with metadata := {
      name := some "web"
      «namespace» := some "apps"
      annotations := some [
        ("command-issuer.keyfactor.com/", "nothing"),
        ("command-issuer.keyfactor.com/owner", "team-a"),
        ("example.com/owner", "team-b")] } }

def hostedIssuer : Issuer :=
  { sampleIssuer with
    spec := { sampleIssuer.spec with certificateAuthorityHostname := some "ca.example" } }

def annotatedWorld : (q : Question) → q.Answer
  | .request _ _ => .ok (some annotatedRequest)
  | .issuer _ => .ok (some hostedIssuer)
  | q => sampleWorld (.ok ⟨"chain", "root"⟩) q

/-- The one annotation for the authority reaches it. -/
theorem enrollment_submitted_annotated :
    ∃ (order : SignOrder) (signer : Signer) (e : Authority.Enrollment),
      ⟨.sign hostedIssuer.spec ⟨[], none⟩ order, some (.ok ⟨"chain", "root"⟩)⟩ ∈
        heardIn annotatedWorld (requestPass sampleSettings .standard "apps" "web") ∧
      signer.Submits order e ∧ e.csr = "csr" ∧ e.certificateAuthority = "ca.example\\root" ∧
      e.metadata.lookup "owner" = some "team-a" := by
  have hpass := goes_heardIn annotatedWorld (requestPass sampleSettings .standard "apps" "web")
  have hsign : ⟨.sign hostedIssuer.spec ⟨[], none⟩
      ⟨[99, 115, 114], none, [], false, [("owner", "team-a")]⟩, some (.ok ⟨"chain", "root"⟩)⟩ ∈
        heardIn annotatedWorld (requestPass sampleSettings .standard "apps" "web") :=
    List.mem_of_getElem? (i := 5) rfl
  have hsigner : Signer.ofSpec hostedIssuer.spec = .ok ⟨"server", "ca.example\\root"⟩ := by
    decide +kernel
  obtain ⟨request, now, issuer, hspec, hordered, hsubmits⟩ :=
    enrollment_submitted hpass hsign hsigner
  have hread : Except.ok (some request) = Except.ok (some annotatedRequest) :=
    Dialogue.answer_of_heardIn hordered.read
  obtain rfl : request = annotatedRequest := Option.some.inj (Except.ok.inj hread)
  obtain ⟨e, hcsr, hof, hsubmits⟩ := hsubmits "csr" (by decide +kernel)
  rw [← hspec] at hof
  refine ⟨_, _, e, hsign, hsubmits, hcsr, hof.hosted "ca.example" rfl (by decide), ?_⟩
  exact (hof.field "owner" "team-a").mpr ⟨by decide, by decide⟩

end CertIssuer.Reconcile
