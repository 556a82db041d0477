import CertIssuer.Proofs.Authority.Deadline
import CertIssuer.Proofs.Authority.Pem
import CertIssuer.Proofs.Request.Course
import CertIssuer.Proofs.Request.Rehearsal
import CertIssuer.Proofs.Text.Base64
import Mathlib.Data.List.Basic

/-!
# The chain that a request is left with

The authority names the certificates of a chain in entries, each a bundle of blocks or bare base64.
On their way to the status of the request they are split, armored, joined, parted into chain and
root, and encoded. Nothing is lost on the way, nothing is added, and the order stays: what the
status holds falls apart into the certificates that the entries held (`chain_stored`).
-/

namespace CertIssuer.Reconcile

open Authority
open Authority.Pem
open Pass

/-! ### Reading a status -/

/-- The text that a field of a status holds in base64. -/
def plainText? (field : Option String) : Option String := do
  let bytes ← (Text.Base64.decode (← field)).toOption
  Text.toText? bytes

theorem plainText?_encode (text : String) :
    plainText? (some (Text.Base64.encode (Text.toBytes text))) = some text := by
  show (Text.Base64.decode (Text.Base64.encode (Text.toBytes text))).toOption >>= Text.toText? = _
  rw [Text.Base64.decode_encode]
  exact Text.toText?_toBytes text

/-- What a status holds falls apart into these certificates, the first one first and the last one
as the root, if there is more than one. -/
structure HoldsChain (status : RequestStatus) (certificates : List String) : Prop where
  whole : ∃ chain, plainText? status.certificate = some chain ∧
    splitCertificates (chain ++ (plainText? status.ca).getD "") = certificates ∧
    ∃ leaf, certificates.head? = some leaf ∧ leaf.toList <+: chain.toList
  root_iff : status.ca.isSome = true ↔ 2 ≤ certificates.length
  root : status.ca.isSome = true → plainText? status.ca = certificates.getLast?

/-! ### Parting a chain -/

section Parting

variable {certificates : List String}

theorem ne_empty_of_isCertificate {text : String} (h : IsCertificate text) : text ≠ "" := by
  obtain ⟨block, -, htext⟩ := h
  rintro rfl
  simp at htext

/-- A chain and its root together are all certificates. -/
theorem chain_append_ca (certificates : List String) :
    (SignedCertificate.ofChain certificates).chain ++ (SignedCertificate.ofChain certificates).ca =
      String.join certificates := by
  match certificates with
  | [] => rfl
  | [leaf] => simp [SignedCertificate.ofChain]
  | leaf :: next :: rest =>
    have hlast : leaf :: next :: rest ≠ [] := List.cons_ne_nil _ _
    have hparts : String.join ((leaf :: next :: rest).dropLast ++
        [(leaf :: next :: rest).getLast hlast]) =
          (SignedCertificate.ofChain (leaf :: next :: rest)).chain ++
            (SignedCertificate.ofChain (leaf :: next :: rest)).ca := by
      simp [SignedCertificate.ofChain, List.getLast?_eq_some_getLast hlast, String.append_assoc]
    rw [List.dropLast_concat_getLast] at hparts
    exact hparts.symm

theorem leaf_prefix_chain (leaf : String) (rest : List String) :
    leaf.toList <+: (SignedCertificate.ofChain (leaf :: rest)).chain.toList := by
  cases rest with
  | nil => exact List.prefix_refl _
  | cons next rest =>
    simp [SignedCertificate.ofChain]

/-- There is a root apart from the chain when there are two certificates or more, and then it is
the last one. -/
theorem ca_cases (hsome : certificates ≠ []) (h : ∀ c ∈ certificates, IsCertificate c) :
    (SignedCertificate.ofChain certificates).ca.isEmpty = true ∧ certificates.length = 1 ∨
      (SignedCertificate.ofChain certificates).ca.isEmpty = false ∧ 2 ≤ certificates.length ∧
        certificates.getLast? = some (SignedCertificate.ofChain certificates).ca := by
  match certificates with
  | [] => exact absurd rfl hsome
  | [leaf] => exact .inl ⟨rfl, rfl⟩
  | leaf :: next :: rest =>
    have hlast : leaf :: next :: rest ≠ [] := List.cons_ne_nil _ _
    have hca : (SignedCertificate.ofChain (leaf :: next :: rest)).ca =
        (leaf :: next :: rest).getLast hlast := by
      simp [SignedCertificate.ofChain, List.getLast?_eq_some_getLast hlast]
    have hne := ne_empty_of_isCertificate (h _ (List.getLast_mem hlast))
    refine .inr ⟨?_, by simp, ?_⟩
    · rw [hca]
      simpa using hne
    · rw [hca, List.getLast?_eq_some_getLast hlast]

theorem holdsChain_withCertificate (hsome : certificates ≠ [])
    (h : ∀ c ∈ certificates, IsCertificate c) (w : Work) :
    HoldsChain (w.withCertificate (.ofChain certificates)).status certificates := by
  have hchain : plainText? (w.withCertificate (.ofChain certificates)).status.certificate =
      some (SignedCertificate.ofChain certificates).chain := plainText?_encode _
  have hjoin := chain_append_ca certificates
  have hwhole := splitCertificates_join h
  have hleaf : ∃ leaf, certificates.head? = some leaf ∧
      leaf.toList <+: (SignedCertificate.ofChain certificates).chain.toList := by
    cases certificates with
    | nil => exact absurd rfl hsome
    | cons leaf rest => exact ⟨leaf, rfl, leaf_prefix_chain leaf rest⟩
  rcases ca_cases hsome h with ⟨hempty, hone⟩ | ⟨hroot, htwo, hlast⟩
  · have hca : (w.withCertificate (.ofChain certificates)).status.ca = none := if_pos hempty
    have hnone : (SignedCertificate.ofChain certificates).ca = "" := by simpa using hempty
    refine ⟨⟨_, hchain, ?_, hleaf⟩, ?_, ?_⟩
    · rw [hca]
      rw [hnone] at hjoin
      show splitCertificates (_ ++ "") = _
      rw [hjoin, hwhole]
    · rw [hca, hone]
      decide
    · rw [hca]
      nofun
  · have hca : (w.withCertificate (.ofChain certificates)).status.ca =
        some (Text.Base64.encode (Text.toBytes (SignedCertificate.ofChain certificates).ca)) :=
      if_neg (by simp [hroot])
    refine ⟨⟨_, hchain, ?_, hleaf⟩, ?_, ?_⟩
    · rw [hca, plainText?_encode]
      show splitCertificates (_ ++ (SignedCertificate.ofChain certificates).ca) = _
      rw [hjoin, hwhole]
    · rw [hca]
      exact iff_of_true rfl htwo
    · intro _
      rw [hca, plainText?_encode, hlast]

end Parting

/-! ### Answers that issue -/

/-- A reply that says that a certificate was issued, with these entries. -/
def Issues (reply : Net.Reply) (entries : List String) : Prop :=
  200 ≤ reply.status ∧ reply.status < 300 ∧
    ∃ bytes info, reply.body = .complete bytes ∧
      CertificateInformation.ofBody? (Text.toTextLossy bytes) = some info ∧
      info.disposition.toList.map Char.toUpper = "ISSUED".toList ∧ info.certificates = entries

theorem enrollmentAnswer_of_issues {reply : Net.Reply} {entries : List String}
    (h : Issues reply entries) (hsome : entries ≠ []) :
    ∃ issued, enrollmentAnswer reply = .ok issued ∧
      issued.certificates = entries.flatMap ofEntry := by
  obtain ⟨hlow, hhigh, bytes, info, hbody, hinfo, hissued, rfl⟩ := h
  have hsuccess : reply.isSuccess = true := (isSuccess_iff reply).mpr ⟨hlow, hhigh⟩
  have hdisposition : Enrollment.isIssued info.disposition = true := by
    simpa [Enrollment.isIssued] using hissued
  have htaken := flatMap_ofEntry_ne_nil hsome
  have hanswer : enrollmentAnswer reply = Enrollment.conclude info := by
    unfold enrollmentAnswer
    rw [accepted_of_success hsuccess]
    show certificateOf reply = _
    simp only [certificateOf, hbody, Enrollment.decode, hinfo]
  rw [hanswer, Enrollment.conclude, if_pos hdisposition]
  dsimp only
  rw [if_neg (mt List.isEmpty_iff.mp htaken)]
  exact ⟨_, rfl, rfl⟩

/-! ### Passes -/

section Passes

variable {settings : Settings} {scheme : Scheme} {ns name : String} {heard : List Hearing}
  {requeue : Requeue} {spec : IssuerSpec} {secrets : IssuerSecrets} {order : SignOrder}
  {answer : Option (Except SignerError SignedCertificate)}

theorem not_sign_of_sought {kind : IssuerKind} {w : Work} {finding : Finding}
    (h : Sought settings kind w heard finding) : ⟨.sign spec secrets order, answer⟩ ∉ heard :=
  fun hmem => sought_asks h _ hmem

theorem not_sign_of_take {w : Work} {e : Exit} {r : Except ControllerError Requeue}
    (h : (e.take w).Goes heard r) : ⟨.sign spec secrets order, answer⟩ ∉ heard :=
  fun hmem => (take_within e w).goes h _ hmem

/-- A pass that is given a certificate takes the exit that issues it. -/
theorem closing_of_signed {signed : SignedCertificate}
    (h : RequestCourse settings scheme ns name heard requeue)
    (hsign : ⟨.sign spec secrets order, some (.ok signed)⟩ ∈ heard) :
    ∃ request now closing, request.currentStatus.isTerminal = false ∧
      ((Exit.issue signed).take (.start request now)).Goes closing (.ok requeue) ∧
      ∀ x ∈ closing, x ∈ heard := by
  cases h with
  | missing | foreign | terminal => cases List.mem_singleton.mp hsign
  | exit _ _ hsought hclosing =>
    simp only [List.mem_cons, List.mem_append] at hsign
    rcases hsign with hread | hclock | hseeking | hclosed
    · cases hread
    · cases hclock
    · exact absurd hseeking (not_sign_of_sought hsought)
    · exact absurd hclosed (not_sign_of_take hclosing)
  | @sign request kind now issuer secrets' order' answer seeking closing _ _ hopen hsought hend =>
    simp only [List.mem_cons, List.mem_append] at hsign
    rcases hsign with hread | hclock | hseeking | hsigned | hclosed
    · cases hread
    · cases hclock
    · exact absurd hseeking (not_sign_of_sought hsought)
    · cases hsigned
      refine ⟨request, now, closing, hopen, hend, fun x hx => ?_⟩
      simp [hx]
    · exact absurd hclosed (not_sign_of_take hend)

/-- The status that issues a certificate differs from that of an open request, so it is written. -/
theorem write_of_issue {request : CertificateRequest} {now : Timestamp} {signed : SignedCertificate}
    (hopen : request.currentStatus.isTerminal = false)
    (h : ((Exit.issue signed).take (.start request now)).Goes heard (.ok requeue)) :
    ⟨.writeRequest request ((Work.start request now).withCertificate signed).status .unconditional,
      .ok ()⟩ ∈ heard := by
  obtain ⟨first, rest, u, rfl, hwrite, -⟩ := goes_bind_ok.mp h
  have hstart : (Work.start request now).IsStartOf request := ⟨hopen, now, rfl⟩
  have hrequest : ((Work.start request now).withCertificate signed).request = request :=
    start_request request now
  rcases goes_write hwrite with ⟨hsame, -⟩ | rfl
  · exact absurd (isFinal_of_isIssue rfl) (hstart.not_isFinal (e := .issue signed) hsame)
  · refine List.mem_append_left _ (List.mem_singleton.mpr ?_)
    show _ = (⟨.writeRequest ((Work.start request now).withCertificate signed).request
      ((Work.start request now).withCertificate signed).status .unconditional, .ok ()⟩ : Hearing)
    rw [hrequest]

/-- Whatever an authority issues, be it in bundles or bare, a pass that ends well after its answer
has written a status that holds exactly the certificates of the entries, in their order. -/
theorem chain_stored (settings : Settings) (scheme : Scheme) (ns name : String)
    (h : (requestPass settings scheme ns name).Goes heard (.ok requeue)) (call : SigningCall order)
    (hsign : ⟨.sign spec secrets order, some call.result⟩ ∈ heard) {reply : Net.Reply}
    (hanswered : ∃ x ∈ call.heard, AnswersEnrollment x reply) {entries : List String}
    (hissues : Issues reply entries) (hsome : entries ≠ [])
    (hentries : ∀ entry ∈ entries, IsBundle entry ∨ IsBare entry) :
    ∃ request status, ⟨.writeRequest request status .unconditional, .ok ()⟩ ∈ heard ∧
      HoldsChain status (entries.flatMap taken) := by
  obtain ⟨x, hx, hanswers⟩ := hanswered
  obtain ⟨issued, hissued, hcertificates⟩ := enrollmentAnswer_of_issues hissues hsome
  have htaken : entries.flatMap ofEntry = entries.flatMap taken :=
    List.flatMap_congr fun entry hentry => taken_eq (hentries entry hentry)
  have hresult : call.result = .ok (.ofChain (entries.flatMap taken)) := by
    rw [call.result_of_answered hx hanswers, hissued, ← htaken, ← hcertificates]
    rfl
  rw [hresult] at hsign
  obtain ⟨request, now, closing, hopen, hclosing, hmem⟩ :=
    closing_of_signed (requestCourse_of_goes h) hsign
  refine ⟨request, _, hmem _ (write_of_issue hopen hclosing), holdsChain_withCertificate ?_ ?_ _⟩
  · rw [← htaken]
    exact flatMap_ofEntry_ne_nil hsome
  · intro certificate hcertificate
    obtain ⟨entry, -, hmem⟩ := List.mem_flatMap.mp hcertificate
    exact isCertificate_of_mem_taken hmem

end Passes

/-! ### A bundle and a bare entry -/

def sampleBlock : String := "-----BEGIN CERTIFICATE-----\nQQ==\n-----END CERTIFICATE-----\n"

/-- The body of an answer with a block and a bare certificate. -/
def issuedBody : String :=
  "\x7b\"CertificateInformation\":\x7b\"RequestDisposition\":\"Issued\",\"Certificates\":[" ++
    "\"-----BEGIN CERTIFICATE-----\\nQQ==\\n-----END CERTIFICATE-----\\n\",\"Qw==\"]\x7d\x7d"

def issuedReply : Net.Reply := ⟨200, .complete (Text.toBytes issuedBody)⟩

/-- Grants every token and issues the same certificates to everyone. -/
def issuingPeer : (q : CallQuestion) → q.Answer
  | .clock => Instant.start
  | .date => (⟨0, 0⟩ : Timestamp)
  | .exchange request =>
    .reply (match request.body with
      | .form _ => ⟨200, .complete (Text.toBytes "\x7b\"access_token\":\"t\"\x7d")⟩
      | _ => issuedReply)

theorem issues_issuedReply : Issues issuedReply [sampleBlock, "Qw=="] := by
  have hinfo : CertificateInformation.ofBody? (Text.toTextLossy (Text.toBytes issuedBody)) =
      some { certificates := [sampleBlock, "Qw=="], disposition := "Issued" } := by
    decide +kernel
  exact ⟨by decide, by decide, _, _, rfl, hinfo, rfl, rfl⟩

/-- What the order is answered with: the block, and the bare certificate as the root. -/
def sampleSigned : SignedCertificate :=
  ⟨sampleBlock, "-----BEGIN CERTIFICATE-----\nQw==\n-----END CERTIFICATE-----\n"⟩

def deliversSample : Except Stop (Except SignerError SignedCertificate) → Bool
  | .ok (.ok signed) => decide (signed = sampleSigned)
  | _ => false

theorem eq_of_deliversSample {r : Except Stop (Except SignerError SignedCertificate)}
    (h : deliversSample r = true) : r = .ok (.ok sampleSigned) := by
  unfold deliversSample at h
  split at h
  · next signed => rw [of_decide_eq_true h]
  · cases h

theorem exists_issued_call :
    ∃ call : SigningCall plainOrder, call.result = .ok sampleSigned ∧
      ∃ x ∈ call.heard, AnswersEnrollment x issuedReply := by
  have hgoes := Call.goes_heardIn issuingPeer plainSigning none
  have hend : deliversSample ((plainSigning.run.run none).result issuingPeer).1 = true := by
    decide +kernel
  rw [eq_of_deliversSample hend] at hgoes
  obtain ⟨x, hx, reply, certificates, ⟨url, headers, value, rfl⟩, -⟩ :=
    (signing_classified hgoes).issued sampleSigned rfl
  have hreply : Net.Exchange.reply reply = .reply issuedReply := Dialogue.answer_of_heardIn hx
  cases hreply
  exact ⟨⟨_, _, _, _, _, _, hgoes⟩, rfl, _, hx, url, headers, value, rfl⟩

/-- A world with an open request, in which every order is answered with the sample. -/
def signedWorld : (q : Question) → q.Answer
  | .request _ _ => .ok (some (sampleRequest "Y3Ny" {}).1)
  | q => sampleWorld (.ok sampleSigned) q

/-- A bundle and a bare entry reach the status of a request. -/
theorem chain_stored_mixed :
    ∃ (call : SigningCall plainOrder) (heard : List Hearing) (request : CertificateRequest)
      (status : RequestStatus),
      ⟨.sign sampleIssuer.spec ⟨[], none⟩ plainOrder, some call.result⟩ ∈ heard ∧
        ⟨.writeRequest request status .unconditional, .ok ()⟩ ∈ heard ∧
        HoldsChain status (([sampleBlock, "Qw=="] : List String).flatMap taken) := by
  obtain ⟨call, hsigned, hanswered⟩ := exists_issued_call
  have hpass := goes_heardIn signedWorld (requestPass sampleSettings .standard "apps" "web")
  have hresult : result signedWorld (requestPass sampleSettings .standard "apps" "web") =
      .ok .awaitChange := rfl
  rw [hresult] at hpass
  have hsign : ⟨.sign sampleIssuer.spec ⟨[], none⟩ plainOrder, some call.result⟩ ∈
      heardIn signedWorld (requestPass sampleSettings .standard "apps" "web") := by
    rw [hsigned]
    exact List.mem_of_getElem? (i := 5) rfl
  have hbundle : IsBundle sampleBlock := ⟨[], "\nQQ==\n".toList, ['\n'], by decide⟩
  have hbare : IsBare "Qw==" := by
    unfold IsBare
    decide
  have hentries : ∀ entry ∈ [sampleBlock, "Qw=="], IsBundle entry ∨ IsBare entry :=
    List.forall_mem_cons.mpr ⟨.inl hbundle, List.forall_mem_singleton.mpr (.inr hbare)⟩
  obtain ⟨request, status, hwrite, hholds⟩ := chain_stored sampleSettings .standard "apps" "web"
    hpass call hsign hanswered issues_issuedReply (List.cons_ne_nil _ _) hentries
  exact ⟨call, _, request, status, hsign, hwrite, hholds⟩

end CertIssuer.Reconcile
