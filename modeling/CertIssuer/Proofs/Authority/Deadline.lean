import CertIssuer.Proofs.Authority.Classification

/-!
# Signing against a deadline

A signing call takes its time: each request is sent, a status arrives, a body arrives or breaks off,
and the result is made of it. The one who ordered may stop waiting at any of these moments and then
has no answer. Once the status of the enrollment says that it was carried out, the answer that was
waited for is one for good.
-/

namespace CertIssuer.Authority

open Dialogue (Heard)

/-! ### Moments -/

/-- What a signing call waits for, piece by piece. -/
inductive Moment where
  | sent (request : Net.Request)
  | silence (request : Net.Request)
  | status (request : Net.Request) (code : Nat)
  | body (request : Net.Request) (body : Net.ReplyBody)
  | done (result : Except SignerError SignedCertificate)

/-- The status that says that an enrollment was carried out. -/
def Moment.acknowledges : Moment → Bool
  | status ⟨.post, _, _, .json _⟩ code => decide (200 ≤ code ∧ code < 300)
  | _ => false

/-- The moments of an exchange; the clock and the date are there at once. -/
def momentsOf : Heard CallQuestion CallQuestion.Answer → List Moment
  | ⟨.exchange request, .noReply⟩ => [.sent request, .silence request]
  | ⟨.exchange request, .reply reply⟩ =>
    [.sent request, .status request reply.status, .body request reply.body]
  | _ => []

/-- A signing call that would come to a result. -/
structure SigningCall (order : SignOrder) where
  client : Client
  signer : Signer
  kept : Option Token
  left : Option Token
  heard : CallCourse
  result : Except SignerError SignedCertificate
  goes : (signOver client signer order).Goes kept heard (.ok result) left

namespace SigningCall

variable {order : SignOrder} (call : SigningCall order)

def moments : List Moment := call.heard.flatMap momentsOf ++ [.done call.result]

/-- What the one who ordered has when the deadline passes after some moments. -/
def answerAfter (k : Nat) : Option (Except SignerError SignedCertificate) :=
  if call.moments.length ≤ k then some call.result else none

/-- The success of the enrollment has become known in the first moments. -/
def AcknowledgedBy (k : Nat) : Prop := ∃ m ∈ call.moments.take k, m.acknowledges = true

end SigningCall

/-! ### After the acknowledgement -/

theorem reply_of_acknowledges {x : Heard CallQuestion CallQuestion.Answer} {m : Moment}
    (hm : m ∈ momentsOf x) (h : m.acknowledges = true) :
    ∃ reply, AnswersEnrollment x reply ∧ 200 ≤ reply.status ∧ reply.status < 300 := by
  unfold momentsOf at hm
  split at hm
  · next request =>
    simp only [List.mem_cons, List.not_mem_nil, or_false] at hm
    rcases hm with rfl | rfl
    · cases h
    · cases h
  · next request reply =>
    simp only [List.mem_cons, List.not_mem_nil, or_false] at hm
    rcases hm with rfl | rfl | rfl
    · cases h
    · unfold Moment.acknowledges at h
      split at h
      · next url headers value code heq =>
        cases heq
        exact ⟨reply, ⟨url, headers, value, rfl⟩, of_decide_eq_true h⟩
      · cases h
    · cases h
  · cases hm

/-- The reply to the enrollment makes the result. -/
theorem SigningCall.result_of_answered {order : SignOrder} (call : SigningCall order)
    {x : Heard CallQuestion CallQuestion.Answer} (hx : x ∈ call.heard) {reply : Net.Reply}
    (hanswers : AnswersEnrollment x reply) :
    call.result = Signer.signed (enrollmentAnswer reply) := by
  obtain ⟨-, hnone, -⟩ | ⟨-, value, r, hresult, hsending⟩ := goes_signOver call.goes
  · rw [hnone] at hx
    cases hx
  generalize call.heard = heard at hx hsending
  cases hsending with
  | withoutToken unsubmitted text | unsendable unsubmitted text =>
    exact absurd hanswers (unsubmitted.not_answered hx reply)
  | unanswered unsubmitted granted url headers text =>
    rcases List.mem_append.mp hx with hx | hx
    · exact absurd hanswers (unsubmitted.not_answered hx reply)
    · cases List.mem_singleton.mp hx
      obtain ⟨_, _, _, heq⟩ := hanswers
      cases heq
  | answered unsubmitted granted url headers reply' =>
    rcases List.mem_append.mp hx with hx | hx
    · exact absurd hanswers (unsubmitted.not_answered hx reply)
    · cases List.mem_singleton.mp hx
      obtain ⟨_, _, _, heq⟩ := hanswers
      cases heq
      exact hresult

theorem SigningCall.final_of_acknowledged {order : SignOrder} (call : SigningCall order) {k : Nat}
    (h : call.AcknowledgedBy k) :
    (∃ signed, call.result = .ok signed) ∨ ∃ text, call.result = .error (.permanent text) := by
  obtain ⟨m, hm, hack⟩ := h
  obtain ⟨x, hx, hm⟩ : ∃ x ∈ call.heard, m ∈ momentsOf x := by
    rcases List.mem_append.mp (List.mem_of_mem_take hm) with hm | hm
    · exact List.mem_flatMap.mp hm
    · cases List.mem_singleton.mp hm
      cases hack
  obtain ⟨reply, hanswers, hstatus⟩ := reply_of_acknowledges hm hack
  have hallows := allows_enrollmentAnswer reply
  rw [Allows, if_pos hstatus] at hallows
  rw [call.result_of_answered hx hanswers]
  exact hallows

end CertIssuer.Authority
