import CertIssuer.Authority.Signer
import CertIssuer.Proofs.Authority.Calls
import CertIssuer.Proofs.Authority.Pem

/-!
# What becomes of an order

The course of a signing call, from the token to the answered enrollment. The enrollment is the last
thing that is sent, so it is sent once or not at all, and its result is read off the answer: a reply
that may stand for an issued certificate is never taken for a reason to submit again.
-/

namespace CertIssuer.Authority

open Dialogue (Heard)

/-! ### What is heard -/

section Heard

variable (x : Heard CallQuestion CallQuestion.Answer)

/-- Whether this submits an enrollment: of all requests, only that one is a POST of JSON. -/
def isEnrollment : Bool :=
  match x.question with
  | .exchange ⟨.post, _, _, .json _⟩ => true
  | _ => false

def AnswersEnrollment (reply : Net.Reply) : Prop :=
  ∃ url headers value, x = ⟨.exchange ⟨.post, url, headers, .json value⟩, .reply reply⟩

/-- A token was asked for, and none was to be had. -/
def DeniesToken : Prop :=
  ∃ method url headers fields answer,
    x = ⟨.exchange ⟨method, url, headers, .form fields⟩, answer⟩ ∧
      ∀ reply, answer = .reply reply → reply.isSuccess = true → tokenAnswer? reply.body = none

end Heard

def Unsubmitted (heard : CallCourse) : Prop := ∀ x ∈ heard, isEnrollment x = false

namespace Unsubmitted

variable {first second : CallCourse}

theorem nil : Unsubmitted [] := fun _ h => absurd h List.not_mem_nil

theorem append (h₁ : Unsubmitted first) (h₂ : Unsubmitted second) :
    Unsubmitted (first ++ second) := by
  intro x hx
  exact (List.mem_append.mp hx).elim (h₁ x) (h₂ x)

theorem not_answered (h : Unsubmitted first) {x : Heard CallQuestion CallQuestion.Answer}
    (hx : x ∈ first) (reply : Net.Reply) : ¬ AnswersEnrollment x reply := by
  rintro ⟨url, headers, value, rfl⟩
  exact Bool.noConfusion (h _ hx)

end Unsubmitted

def Granted (heard : CallCourse) : Prop := ∀ x ∈ heard, ¬ DeniesToken x

namespace Granted

variable {first second : CallCourse}

theorem nil : Granted [] := fun _ h => absurd h List.not_mem_nil

theorem append (h₁ : Granted first) (h₂ : Granted second) : Granted (first ++ second) := by
  intro x hx
  exact (List.mem_append.mp hx).elim (h₁ x) (h₂ x)

end Granted

section NotExchange

variable {q : CallQuestion} {a : q.Answer} (hq : ∀ request, q ≠ .exchange request)
include hq

theorem unsubmitted_of_not_exchange : Unsubmitted [⟨q, a⟩] := by
  intro x hx
  cases List.mem_singleton.mp hx
  cases q with
  | exchange request => exact absurd rfl (hq request)
  | _ => rfl

theorem granted_of_not_exchange : Granted [⟨q, a⟩] := by
  rintro x hx ⟨method, url, headers, fields, answer, rfl, -⟩
  cases List.mem_singleton.mp hx
  exact hq _ rfl

end NotExchange

/-! ### Tokens -/

/-- How a part of a call ends that is about the token alone. -/
def TokenEnd {α : Type} (heard : CallCourse) (result : Except Stop α) : Prop :=
  Unsubmitted heard ∧
    ((∃ a, result = .ok a ∧ Granted heard) ∨ result = .error .clockOverflow ∨
      ∃ text, result = .error (.failed (.authentication text)))

def AboutToken {α : Type} (x : Call α) : Prop :=
  ∀ kept heard result left, x.Goes kept heard result left → TokenEnd heard result

namespace AboutToken

variable {α β : Type}

theorem pure (a : α) : AboutToken (Pure.pure a) := by
  intro kept heard result left h
  obtain ⟨rfl, rfl, -⟩ := Call.goes_pure.mp h
  exact ⟨.nil, .inl ⟨a, rfl, .nil⟩⟩

theorem fail (text : String) : AboutToken (Call.fail (.authentication text) : Call α) := by
  intro kept heard result left h
  obtain ⟨rfl, rfl, -⟩ := Call.goes_fail.mp h
  exact ⟨.nil, .inr (.inr ⟨text, rfl⟩)⟩

theorem reach (i : Option Instant) : AboutToken (Call.reach i) := by
  intro kept heard result left h
  obtain ⟨rfl, rfl, -⟩ := Call.goes_reach.mp h
  cases i with
  | none => exact ⟨.nil, .inr (.inl rfl)⟩
  | some i => exact ⟨.nil, .inl ⟨i, rfl, .nil⟩⟩

theorem keptToken : AboutToken Call.keptToken := by
  intro kept heard result left h
  obtain ⟨rfl, rfl, -⟩ := Call.goes_keptToken.mp h
  exact ⟨.nil, .inl ⟨kept, rfl, .nil⟩⟩

theorem keepToken (t : Option Token) : AboutToken (Call.keepToken t) := by
  intro kept heard result left h
  obtain ⟨rfl, rfl, -⟩ := Call.goes_keepToken.mp h
  exact ⟨.nil, .inl ⟨(), rfl, .nil⟩⟩

theorem clock : AboutToken (Call.ask .clock) := by
  intro kept heard result left h
  obtain ⟨now, rfl, rfl, -⟩ := Call.goes_ask.mp h
  have hnothing : ∀ request, CallQuestion.clock ≠ .exchange request := fun _ => nofun
  exact ⟨unsubmitted_of_not_exchange hnothing, .inl ⟨now, rfl, granted_of_not_exchange hnothing⟩⟩

theorem bind {x : Call α} {f : α → Call β} (hx : AboutToken x) (hf : ∀ a, AboutToken (f a)) :
    AboutToken (x >>= f) := by
  intro kept heard result left h
  rcases Call.goes_bind.mp h with ⟨stop, hstop, rfl⟩ | ⟨first, second, a, mid, rfl, hfirst, hnext⟩
  · obtain ⟨hunsubmitted, ⟨a, hok, -⟩ | hstopped | hfailed⟩ := hx _ _ _ _ hstop
    · cases hok
    · cases hstopped
      exact ⟨hunsubmitted, .inr (.inl rfl)⟩
    · obtain ⟨text, hfailed⟩ := hfailed
      cases hfailed
      exact ⟨hunsubmitted, .inr (.inr ⟨text, rfl⟩)⟩
  · obtain ⟨hu₁, ⟨_, -, hg₁⟩ | hstopped | ⟨text, hfailed⟩⟩ := hx _ _ _ _ hfirst
    · obtain ⟨hu₂, ⟨b, hok, hg₂⟩ | hended⟩ := hf a _ _ _ _ hnext
      · exact ⟨hu₁.append hu₂, .inl ⟨b, hok, hg₁.append hg₂⟩⟩
      · exact ⟨hu₁.append hu₂, .inr hended⟩
    · cases hstopped
    · cases hfailed

end AboutToken

theorem Token.isFresh_aboutToken (t : Token) : AboutToken t.isFresh := by
  unfold Token.isFresh
  split
  · exact .pure true
  · exact AboutToken.clock.bind fun now => (AboutToken.reach _).bind fun soon => .pure _

theorem Token.keep_aboutToken (t : Token) :
    AboutToken (do Call.keepToken (some t); return t.value) :=
  (AboutToken.keepToken _).bind fun _ => .pure _

theorem unsubmitted_form {method : Net.Method} {url : Net.Url} {headers fields}
    {answer : Net.Exchange} :
    Unsubmitted [⟨.exchange ⟨method, url, headers, .form fields⟩, answer⟩] := by
  intro x hx
  cases List.mem_singleton.mp hx
  cases method <;> rfl

theorem granted_of_tokenAnswer {method : Net.Method} {url : Net.Url} {headers fields}
    {reply : Net.Reply} (hsuccess : reply.isSuccess = true)
    (htoken : tokenAnswer? reply.body ≠ none) :
    Granted [⟨.exchange ⟨method, url, headers, .form fields⟩, .reply reply⟩] := by
  rintro x hx ⟨method', url', headers', fields', answer, rfl, hdenied⟩
  cases List.mem_singleton.mp hx
  exact htoken (hdenied reply rfl hsuccess)

theorem TokenEnd.of_fail {α : Type} {first second : CallCourse} {text : String}
    {kept left : Option Token} {result : Except Stop α} (hfirst : Unsubmitted first)
    (h : (Call.fail (.authentication text) : Call α).Goes kept second result left) :
    TokenEnd (first ++ second) result := by
  obtain ⟨rfl, rfl, -⟩ := Call.goes_fail.mp h
  exact ⟨hfirst.append .nil, .inr (.inr ⟨text, rfl⟩)⟩

theorem TokenEnd.after_grant {α : Type} {first second : CallCourse} {result : Except Stop α}
    (hfirst : Unsubmitted first) (hgranted : Granted first) (h : TokenEnd second result) :
    TokenEnd (first ++ second) result := by
  obtain ⟨hsecond, ⟨a, hok, hgranted'⟩ | hended⟩ := h
  · exact ⟨hfirst.append hsecond, .inl ⟨a, hok, hgranted.append hgranted'⟩⟩
  · exact ⟨hfirst.append hsecond, .inr hended⟩

theorem Token.request_aboutToken (address : String) (form : List (String × String)) :
    AboutToken (Token.request address form) := by
  intro kept heard result left h
  unfold Token.request at h
  obtain ⟨text, hnext⟩ | ⟨url, answer, rest, rfl, hnext⟩ := Call.goes_exchange_bind h
  · exact TokenEnd.of_fail .nil hnext
  cases answer with
  | noReply =>
    obtain ⟨text, hnext⟩ := hnext
    exact TokenEnd.of_fail unsubmitted_form hnext
  | reply reply =>
    simp only [Call.fail_bind] at hnext
    split at hnext
    · exact TokenEnd.of_fail unsubmitted_form hnext
    · next hsuccess =>
      split at hnext
      · exact TokenEnd.of_fail unsubmitted_form hnext
      · next value expiresIn htoken =>
        -- a token was granted; what is left is to reckon when it expires, and to keep it
        have hsuccess : reply.isSuccess = true := by simpa using hsuccess
        have hsome : tokenAnswer? reply.body ≠ none := by simp [htoken]
        refine TokenEnd.after_grant unsubmitted_form (granted_of_tokenAnswer hsuccess hsome) ?_
        split at hnext
        · exact (AboutToken.pure none).bind
            (fun _ => Token.keep_aboutToken ⟨value, _⟩) _ _ _ _ hnext
        · exact AboutToken.clock.bind (fun now => ((AboutToken.reach _).bind fun _ => .pure _).bind
            fun _ => Token.keep_aboutToken ⟨value, _⟩) _ _ _ _ hnext

theorem Token.current_aboutToken (address : String) (form : List (String × String)) :
    AboutToken (Token.current address form) := by
  refine AboutToken.keptToken.bind fun kept => ?_
  cases kept with
  | none => exact Token.request_aboutToken address form
  | some t =>
    refine t.isFresh_aboutToken.bind fun fresh => ?_
    cases fresh with
    | true => exact .pure t.value
    | false => exact Token.request_aboutToken address form

theorem Client.authorization_aboutToken (c : Client) : AboutToken c.authorization := by
  unfold Client.authorization
  split
  · exact .pure _
  · exact (Token.current_aboutToken _ _).bind fun token => .pure _

/-! ### Sending -/

/-- What the client makes of a reply to anything but a token request. -/
def accepted (reply : Net.Reply) : Except CallError Net.Reply :=
  if reply.status = 401 ∨ reply.status = 403 then
    .error (.authentication (Net.statusLine reply.status ++ ": " ++ reply.text))
  else if reply.isSuccess then .ok reply
  else .error (.api reply.status reply.text)

/-- What is heard when one request is sent after its token was fetched, and what comes of it when
replies are read like this. -/
inductive Sending {α : Type} (method : Net.Method) (body : Net.Body)
    (read : Net.Reply → Except CallError α) : CallCourse → Except CallError α → Prop where
  | withoutToken {before : CallCourse} (unsubmitted : Unsubmitted before) (text : String) :
    Sending method body read before (.error (.authentication text))
  | unsendable {before : CallCourse} (unsubmitted : Unsubmitted before) (text : String) :
    Sending method body read before (.error (.http text))
  | unanswered {before : CallCourse} (unsubmitted : Unsubmitted before) (granted : Granted before)
    (url : Net.Url) (headers : List (String × String)) (text : String) :
    Sending method body read (before ++ [⟨.exchange ⟨method, url, headers, body⟩, .noReply⟩])
      (.error (.http text))
  | answered {before : CallCourse} (unsubmitted : Unsubmitted before) (granted : Granted before)
    (url : Net.Url) (headers : List (String × String)) (reply : Net.Reply) :
    Sending method body read (before ++ [⟨.exchange ⟨method, url, headers, body⟩, .reply reply⟩])
      (read reply)

namespace Sending

variable {α β : Type} {method : Net.Method} {body : Net.Body}
  {read : Net.Reply → Except CallError α} {heard : CallCourse} {result : Except CallError α}

theorem bind (h : Sending method body read heard result) (f : α → Except CallError β) :
    Sending method body (fun reply => read reply >>= f) heard (result >>= f) := by
  cases h with
  | withoutToken hu text => exact .withoutToken hu text
  | unsendable hu text => exact .unsendable hu text
  | unanswered hu hg url headers text => exact .unanswered hu hg url headers text
  | answered hu hg url headers reply => exact .answered hu hg url headers reply

theorem after {first : CallCourse} (hfirst : Unsubmitted first) (hgranted : Granted first)
    (h : Sending method body read heard result) :
    Sending method body read (first ++ heard) result := by
  cases h with
  | withoutToken hu text => exact .withoutToken (hfirst.append hu) text
  | unsendable hu text => exact .unsendable (hfirst.append hu) text
  | unanswered hu hg url headers text =>
    rw [← List.append_assoc]
    exact .unanswered (hfirst.append hu) (hgranted.append hg) url headers text
  | answered hu hg url headers reply =>
    rw [← List.append_assoc]
    exact .answered (hfirst.append hu) (hgranted.append hg) url headers reply

end Sending

section Course

variable {kept left : Option Token} {heard : CallCourse}

/-- The end of a call, unless the clock ends first. -/
def ended {α : Type} (result : Except CallError α) : Except Stop α := result.mapError .failed

/-- Nothing more is asked once a reply is there, and only a refusal drops the kept token. -/
theorem goes_accepted {reply : Net.Reply} {result : Except Stop Net.Reply}
    (h : (do
      if reply.status = 401 ∨ reply.status = 403 then
        Call.keepToken none
        Call.fail (.authentication (Net.statusLine reply.status ++ ": " ++ reply.text))
      if !reply.isSuccess then Call.fail (.api reply.status reply.text)
      return reply : Call Net.Reply).Goes kept heard result left) :
    heard = [] ∧ result = ended (accepted reply) ∧
      left = if reply.status = 401 ∨ reply.status = 403 then none else kept := by
  simp only [Call.fail_bind] at h
  unfold accepted
  split at h
  · next hstatus =>
    rw [if_pos hstatus, if_pos hstatus]
    obtain ⟨rfl, rfl, rfl⟩ := Call.goes_fail.mp (Call.goes_keepToken_bind.mp h)
    exact ⟨rfl, rfl, rfl⟩
  · next hstatus =>
    rw [if_neg hstatus, if_neg hstatus]
    split at h
    · next hsuccess =>
      obtain ⟨rfl, rfl, rfl⟩ := Call.goes_fail.mp h
      rw [if_neg (by simpa using hsuccess)]
      exact ⟨rfl, rfl, rfl⟩
    · next hsuccess =>
      obtain ⟨rfl, rfl, rfl⟩ := Call.goes_pure.mp h
      rw [if_pos (by simpa using hsuccess)]
      exact ⟨rfl, rfl, rfl⟩

theorem Client.goes_send {c : Client} {method : Net.Method} {path : String}
    {headers : List (String × String)} {body : Net.Body} {result : Except Stop Net.Reply}
    (h : (c.send method path headers body).Goes kept heard result left) :
    result = .error .clockOverflow ∨
      ∃ r, result = ended r ∧ Sending method body accepted heard r := by
  unfold Client.send at h
  rcases Call.goes_bind.mp h with ⟨stop, hx, rfl⟩ | ⟨first, second, shown, mid, rfl, hx, hrest⟩
  · -- without a token nothing is sent
    obtain ⟨hu, ⟨a, hok, -⟩ | hstopped | ⟨text, hfailed⟩⟩ := c.authorization_aboutToken _ _ _ _ hx
    · cases hok
    · cases hstopped
      exact .inl rfl
    · cases hfailed
      exact .inr ⟨_, rfl, .withoutToken hu text⟩
  obtain ⟨hu, ⟨_, -, hg⟩ | hstopped | ⟨_, hfailed⟩⟩ := c.authorization_aboutToken _ _ _ _ hx
  rotate_left
  · cases hstopped
  · cases hfailed
  obtain ⟨text, hnext⟩ | ⟨url, answer, rest, rfl, hnext⟩ := Call.goes_exchange_bind hrest
  · obtain ⟨rfl, rfl, -⟩ := Call.goes_fail.mp hnext
    exact .inr ⟨_, rfl, .unsendable (hu.append .nil) text⟩
  cases answer with
  | noReply =>
    obtain ⟨text, hnext⟩ := hnext
    obtain ⟨rfl, rfl, -⟩ := Call.goes_fail.mp hnext
    exact .inr ⟨_, rfl, .unanswered hu hg url _ text⟩
  | reply reply =>
    obtain ⟨rfl, rfl, -⟩ := goes_accepted hnext
    exact .inr ⟨_, rfl, .answered hu hg url _ reply⟩

def certificateOf (reply : Net.Reply) : Except CallError IssuedCertificate :=
  match reply.body with
  | .cut => .error (.unreadableEnrollment decodingError)
  | .complete bytes => Enrollment.decode (Text.toTextLossy bytes)

def enrollmentAnswer (reply : Net.Reply) : Except CallError IssuedCertificate :=
  accepted reply >>= certificateOf

theorem Client.enroll_blank {c : Client} {e : Enrollment} (h : Text.isBlankText e.csr = true) :
    c.enroll e = Call.fail (.invalidRequest "CSR is empty") := by
  simp only [Client.enroll, h, if_true, Call.fail_bind]

/-- Nothing more is asked once an enrollment was accepted. -/
theorem goes_certificateOf {reply : Net.Reply} {result : Except Stop IssuedCertificate}
    (h : (match reply.body with
      | .cut => Call.fail (.unreadableEnrollment decodingError)
      | .complete bytes =>
        match Enrollment.decode (Text.toTextLossy bytes) with
        | .ok issued => return issued
        | .error e => Call.fail e : Call IssuedCertificate).Goes kept heard result left) :
    heard = [] ∧ result = ended (certificateOf reply) ∧ left = kept := by
  unfold certificateOf
  cases hbody : reply.body with
  | cut =>
    simp only [hbody] at h
    obtain ⟨rfl, rfl, rfl⟩ := Call.goes_fail.mp h
    exact ⟨rfl, rfl, rfl⟩
  | complete bytes =>
    simp only [hbody] at h
    split at h
    · next issued hdecode =>
      obtain ⟨rfl, rfl, rfl⟩ := Call.goes_pure.mp h
      exact ⟨rfl, (congrArg ended hdecode).symm, rfl⟩
    · next failure hdecode =>
      obtain ⟨rfl, rfl, rfl⟩ := Call.goes_fail.mp h
      exact ⟨rfl, (congrArg ended hdecode).symm, rfl⟩

theorem Client.goes_enroll {c : Client} {e : Enrollment} {result : Except Stop IssuedCertificate}
    (hcsr : Text.isBlankText e.csr = false) (h : (c.enroll e).Goes kept heard result left) :
    result = .error .clockOverflow ∨
      ∃ value r, result = ended r ∧ Sending .post (.json value) enrollmentAnswer heard r := by
  unfold Client.enroll at h
  simp only [hcsr, Bool.false_eq_true, if_false] at h
  obtain ⟨date, rest, rfl, hrest⟩ := Call.goes_ask_bind.mp h
  -- the date is asked of the clock, not of the peer
  have hnothing : ∀ request, CallQuestion.date ≠ .exchange request := fun _ => nofun
  have hdate := unsubmitted_of_not_exchange (a := date) hnothing
  have hdate' := granted_of_not_exchange (a := date) hnothing
  rcases Call.goes_bind.mp hrest with
    ⟨stop, hsend, rfl⟩ | ⟨first, second, reply, _, rfl, hsend, hread⟩
  · rcases Client.goes_send hsend with hover | ⟨r, hr, hsending⟩
    · cases hover
      exact .inl rfl
    · cases r with
      | ok reply => cases hr
      | error failure =>
        cases hr
        exact .inr ⟨_, .error failure, rfl, .after hdate hdate' (hsending.bind certificateOf)⟩
  · rcases Client.goes_send hsend with hover | ⟨r, hr, hsending⟩
    · cases hover
    cases r with
    | error failure => cases hr
    | ok _ =>
      cases hr
      obtain ⟨rfl, rfl, -⟩ := goes_certificateOf hread
      refine .inr ⟨e.body date, certificateOf reply, rfl, ?_⟩
      rw [List.append_nil]
      exact .after hdate hdate' (hsending.bind certificateOf)

/-! ### Signing -/

/-- Whether the request of an order is text that holds more than white space. -/
def HasRequest (order : SignOrder) : Prop :=
  ∃ csr, Text.toText? order.csr = some csr ∧ Text.isBlankText csr = false

theorem goes_signOver_enroll {client : Client} {signer : Signer} {order : SignOrder}
    {e : Enrollment} {result : Except SignerError SignedCertificate}
    (he : signer.enrollment order = .ok e)
    (h : (signOver client signer order).Goes kept heard (.ok result) left) :
    ∃ r mid, result = Signer.signed r ∧ (client.enroll e).Goes kept heard (ended r) mid := by
  simp only [signOver, he] at h
  rcases Call.goes_tryCatch.mp h with ⟨r, hx, hr⟩ | ⟨first, second, stop, mid, rfl, hx, hnext⟩
  · cases hr
    rcases Call.goes_bind.mp hx with ⟨stop, -, hr⟩ | ⟨_, _, issued, mid, rfl, henroll, hdone⟩
    · cases hr
    · obtain ⟨rfl, hr, -⟩ := Call.goes_pure.mp hdone
      cases hr
      exact ⟨.ok issued, mid, rfl, by rwa [List.append_nil]⟩
  · rcases Call.goes_bind.mp hx with ⟨stop, henroll, hstop⟩ | ⟨_, _, issued, _, rfl, -, hdone⟩
    · cases hstop
      cases stop with
      | clockOverflow => cases (Call.goes_throw.mp hnext).2.1
      | failed failure =>
        obtain ⟨rfl, hr, -⟩ := Call.goes_pure.mp hnext
        cases hr
        exact ⟨.error failure, mid, rfl, by rwa [List.append_nil]⟩
    · cases (Call.goes_pure.mp hdone).2.1

/-- An order without a readable request is refused before anything is asked; any other becomes one
enrollment. -/
theorem goes_signOver {client : Client} {signer : Signer} {order : SignOrder}
    {result : Except SignerError SignedCertificate}
    (h : (signOver client signer order).Goes kept heard (.ok result) left) :
    (¬ HasRequest order ∧ heard = [] ∧ ∃ text, result = .error (.permanent text)) ∨
      HasRequest order ∧ ∃ value r, result = Signer.signed r ∧
        Sending .post (.json value) enrollmentAnswer heard r := by
  cases hcsr : Text.toText? order.csr with
  | none =>
    simp only [signOver, Signer.enrollment, hcsr] at h
    obtain ⟨rfl, hresult, -⟩ := Call.goes_pure.mp h
    cases hresult
    refine .inl ⟨?_, rfl, _, rfl⟩
    rintro ⟨csr, hsome, -⟩
    cases hcsr.symm.trans hsome
  | some csr =>
    have he : signer.enrollment order =
        .ok ⟨csr, signer.template, signer.certificateAuthority, order.metadata⟩ := by
      simp only [Signer.enrollment, hcsr]
    obtain ⟨r, mid, rfl, henroll⟩ := goes_signOver_enroll he h
    cases hblank : Text.isBlankText csr with
    | true =>
      rw [Client.enroll_blank hblank] at henroll
      obtain ⟨rfl, hr, -⟩ := Call.goes_fail.mp henroll
      cases r with
      | ok issued => cases hr
      | error failure =>
        cases hr
        refine .inl ⟨?_, rfl, _, rfl⟩
        rintro ⟨csr', hsome, hsome'⟩
        cases hcsr.symm.trans hsome
        cases hblank.symm.trans hsome'
    | false =>
      refine .inr ⟨⟨csr, hcsr, hblank⟩, ?_⟩
      rcases Client.goes_enroll hblank henroll with hover | ⟨value, r', hr, hsending⟩
      · cases r <;> cases hover
      · have : r = r' := by cases r <;> cases r' <;> cases hr <;> rfl
        exact ⟨value, r', by rw [this], hsending⟩

end Course

/-! ### The classes of results -/

section Classes

variable {result : Except SignerError SignedCertificate}

def IsTransient (result : Except SignerError SignedCertificate) : Prop :=
  ∃ text, result = .error (.transient text)

def IsPermanent (result : Except SignerError SignedCertificate) : Prop :=
  ∃ text, result = .error (.permanent text)

/-- The result that a reply to an enrollment allows. -/
def Allows (reply : Net.Reply) (result : Except SignerError SignedCertificate) : Prop :=
  if 200 ≤ reply.status ∧ reply.status < 300 then
    (∃ certificate, result = .ok certificate) ∨ IsPermanent result
  else if reply.status ∈ [401, 403, 408, 429] ∨ 500 ≤ reply.status then IsTransient result
  else IsPermanent result

/-- The certificates that a reply to an enrollment states to be issued. -/
def States (reply : Net.Reply) (certificates : List String) : Prop :=
  200 ≤ reply.status ∧ reply.status < 300 ∧
    ∃ bytes info, reply.body = .complete bytes ∧
      CertificateInformation.ofBody? (Text.toTextLossy bytes) = some info ∧
      info.disposition.toList.map Char.toUpper = "ISSUED".toList ∧
      info.certificates ≠ [] ∧ certificates = info.certificates.flatMap Pem.ofEntry

theorem isSuccess_iff (reply : Net.Reply) :
    reply.isSuccess = true ↔ 200 ≤ reply.status ∧ reply.status < 300 := by
  simp [Net.Reply.isSuccess]

theorem permanent_of_certificateOf {reply : Net.Reply} {failure : CallError}
    (h : certificateOf reply = .error failure) : IsPermanent (Signer.signed (.error failure)) := by
  unfold certificateOf Enrollment.decode Enrollment.conclude at h
  split at h
  · cases h
    exact ⟨_, rfl⟩
  · split at h
    · cases h
      exact ⟨_, rfl⟩
    · split at h
      · dsimp only at h
        split at h
        · cases h
          exact ⟨_, rfl⟩
        · cases h
      · cases h
        exact ⟨_, rfl⟩

theorem states_of_certificateOf {reply : Net.Reply} {issued : IssuedCertificate}
    (hsuccess : reply.isSuccess = true) (h : certificateOf reply = .ok issued) :
    States reply issued.certificates := by
  obtain ⟨hlow, hhigh⟩ := (isSuccess_iff reply).mp hsuccess
  unfold certificateOf Enrollment.decode Enrollment.conclude at h
  split at h
  · cases h
  · next bytes hbody =>
    split at h
    · cases h
    · next info hinfo =>
      split at h
      · next hissued =>
        dsimp only at h
        split at h
        · cases h
        · next hsome =>
          cases h
          refine ⟨hlow, hhigh, bytes, info, hbody, hinfo, ?_, ?_, rfl⟩
          · simpa [Enrollment.isIssued] using hissued
          intro hnone
          simp [hnone] at hsome
      · cases h

theorem accepted_of_success {reply : Net.Reply} (h : reply.isSuccess = true) :
    accepted reply = .ok reply := by
  have hstatus := (isSuccess_iff reply).mp h
  unfold accepted
  rw [if_neg (by omega), if_pos h]

theorem success_of_accepted {reply taken : Net.Reply} (h : accepted reply = .ok taken) :
    reply.isSuccess = true ∧ taken = reply := by
  unfold accepted at h
  split at h
  · cases h
  · split at h
    · next hsuccess =>
      cases h
      exact ⟨hsuccess, rfl⟩
    · cases h

theorem states_of_enrollmentAnswer {reply : Net.Reply} {issued : IssuedCertificate}
    (h : enrollmentAnswer reply = .ok issued) : States reply issued.certificates := by
  unfold enrollmentAnswer at h
  cases htaken : accepted reply with
  | error failure =>
    rw [htaken] at h
    cases h
  | ok taken =>
    rw [htaken] at h
    obtain ⟨hsuccess, rfl⟩ := success_of_accepted htaken
    exact states_of_certificateOf hsuccess h

theorem accepted_of_refusal {reply : Net.Reply} (h : reply.status = 401 ∨ reply.status = 403) :
    ∃ text, accepted reply = .error (.authentication text) := by
  unfold accepted
  rw [if_pos h]
  exact ⟨_, rfl⟩

theorem accepted_of_failure {reply : Net.Reply} (hfailure : reply.isSuccess ≠ true)
    (hother : ¬ (reply.status = 401 ∨ reply.status = 403)) :
    accepted reply = .error (.api reply.status reply.text) := by
  unfold accepted
  rw [if_neg hother, if_neg hfailure]

theorem signed_api (status : Nat) (text : String) :
    if status = 408 ∨ status = 429 ∨ 500 ≤ status then
      IsTransient (Signer.signed (.error (.api status text)))
    else IsPermanent (Signer.signed (.error (.api status text))) := by
  have hclass : (CallError.api status text).isTransient =
      decide (status = 408 ∨ status = 429 ∨ 500 ≤ status) := by
    rw [Bool.eq_iff_iff]
    simp only [CallError.isTransient, Bool.or_eq_true, decide_eq_true_eq, beq_iff_eq]
    omega
  split
  · next h =>
    refine ⟨(CallError.api status text).message, ?_⟩
    simp [Signer.signed, signerResult, CallError.toSignerError, hclass, h, Except.map]
  · next h =>
    refine ⟨(CallError.api status text).message, ?_⟩
    simp [Signer.signed, signerResult, CallError.toSignerError, hclass, h, Except.map]

theorem allows_enrollmentAnswer (reply : Net.Reply) :
    Allows reply (Signer.signed (enrollmentAnswer reply)) := by
  unfold Allows enrollmentAnswer
  split
  · next hstatus =>
    rw [accepted_of_success ((isSuccess_iff reply).mpr hstatus)]
    show (∃ certificate, Signer.signed (certificateOf reply) = .ok certificate) ∨
      IsPermanent (Signer.signed (certificateOf reply))
    cases h : certificateOf reply with
    | ok issued => exact .inl ⟨_, rfl⟩
    | error failure => exact .inr (permanent_of_certificateOf h)
  · next hstatus =>
    have hfailure : reply.isSuccess ≠ true := fun h => hstatus ((isSuccess_iff reply).mp h)
    by_cases hrefused : reply.status = 401 ∨ reply.status = 403
    · obtain ⟨text, htext⟩ := accepted_of_refusal hrefused
      rw [htext, if_pos (by simp only [List.mem_cons]; omega)]
      exact ⟨_, rfl⟩
    · rw [accepted_of_failure hfailure hrefused]
      have hclass := signed_api reply.status reply.text
      split at hclass
      · next h =>
        rw [if_pos (by simp only [List.mem_cons]; omega)]
        exact hclass
      · next h =>
        rw [if_neg (by simp only [List.mem_cons, List.not_mem_nil, or_false]; omega)]
        exact hclass

theorem countP_of_unsubmitted {heard : CallCourse} (h : Unsubmitted heard) :
    heard.countP isEnrollment = 0 :=
  List.countP_eq_zero.mpr fun x hx => by simp [h x hx]

/-- What a signing call may do. -/
structure Classified (order : SignOrder) (heard : CallCourse)
    (result : Except SignerError SignedCertificate) : Prop where
  once : heard.countP isEnrollment ≤ 1
  unreadable : ¬ HasRequest order → heard = [] ∧ IsPermanent result
  denied : HasRequest order → (∃ x ∈ heard, DeniesToken x) → IsTransient result
  unanswered : HasRequest order → (∀ x ∈ heard, ∀ reply, ¬ AnswersEnrollment x reply) →
    IsTransient result
  answered : ∀ x ∈ heard, ∀ reply, AnswersEnrollment x reply → Allows reply result
  issued : ∀ certificate, result = .ok certificate → ∃ x ∈ heard, ∃ reply certificates,
    AnswersEnrollment x reply ∧ States reply certificates ∧ certificate = .ofChain certificates

variable {order : SignOrder} {heard : CallCourse}

theorem Classified.of_unreadable (hnone : ¬ HasRequest order) (h : IsPermanent result) :
    Classified order [] result where
  once := Nat.zero_le 1
  unreadable _ := ⟨rfl, h⟩
  denied hsome := absurd hsome hnone
  unanswered hsome := absurd hsome hnone
  answered _ hx := absurd hx List.not_mem_nil
  issued certificate hok := by
    obtain ⟨text, rfl⟩ := h
    cases hok

theorem Classified.of_unanswered (hsome : HasRequest order)
    (honce : heard.countP isEnrollment ≤ 1)
    (hnone : ∀ x ∈ heard, ∀ reply, ¬ AnswersEnrollment x reply) (h : IsTransient result) :
    Classified order heard result where
  once := honce
  unreadable hnone := absurd hsome hnone
  denied _ _ := h
  unanswered _ _ := h
  answered x hx reply hreply := absurd hreply (hnone x hx reply)
  issued certificate hok := by
    obtain ⟨text, rfl⟩ := h
    cases hok

theorem countP_submission {before : CallCourse} (h : Unsubmitted before)
    {x : Heard CallQuestion CallQuestion.Answer} : (before ++ [x]).countP isEnrollment ≤ 1 := by
  rw [List.countP_append, countP_of_unsubmitted h, Nat.zero_add]
  exact List.countP_le_length

theorem Classified.of_answered {before : CallCourse} {value : Json} {url : Net.Url}
    {headers : List (String × String)} {reply : Net.Reply} (hsome : HasRequest order)
    (hbefore : Unsubmitted before) (hgranted : Granted before) :
    Classified order (before ++ [⟨.exchange ⟨.post, url, headers, .json value⟩, .reply reply⟩])
      (Signer.signed (enrollmentAnswer reply)) where
  once := countP_submission hbefore
  unreadable hnone := absurd hsome hnone
  denied _ hdenied := by
    obtain ⟨x, hx, hdenied⟩ := hdenied
    rcases List.mem_append.mp hx with hx | hx
    · exact absurd hdenied (hgranted x hx)
    · -- a token is asked for with a form, and an enrollment is no form
      cases List.mem_singleton.mp hx
      obtain ⟨_, _, _, fields, _, heq, -⟩ := hdenied
      cases heq
  unanswered _ hnone :=
    absurd ⟨url, headers, value, rfl⟩
      (hnone _ (List.mem_append_right before List.mem_cons_self) reply)
  answered x hx reply' hreply := by
    rcases List.mem_append.mp hx with hx | hx
    · exact absurd hreply (hbefore.not_answered hx reply')
    · cases List.mem_singleton.mp hx
      obtain ⟨_, _, _, heq⟩ := hreply
      cases heq
      exact allows_enrollmentAnswer reply
  issued certificate hok := by
    refine ⟨_, List.mem_append_right before List.mem_cons_self, reply, ?_⟩
    cases h : enrollmentAnswer reply with
    | error failure =>
      rw [h] at hok
      cases hok
    | ok issued =>
      rw [h] at hok
      cases hok
      exact ⟨issued.certificates, ⟨url, headers, value, rfl⟩, states_of_enrollmentAnswer h, rfl⟩

/-- Every course of a signing call that ends before the clock does. -/
theorem signing_classified {client : Client} {signer : Signer} {kept left : Option Token}
    (h : (signOver client signer order).Goes kept heard (.ok result) left) :
    Classified order heard result := by
  obtain ⟨hnone, rfl, hpermanent⟩ | ⟨hsome, value, r, rfl, hsending⟩ := goes_signOver h
  · exact .of_unreadable hnone hpermanent
  cases hsending with
  | withoutToken unsubmitted text =>
    have honce := countP_of_unsubmitted unsubmitted
    exact .of_unanswered hsome (by omega) (fun _ => unsubmitted.not_answered) ⟨_, rfl⟩
  | unsendable unsubmitted text =>
    have honce := countP_of_unsubmitted unsubmitted
    exact .of_unanswered hsome (by omega) (fun _ => unsubmitted.not_answered) ⟨_, rfl⟩
  | unanswered unsubmitted granted url headers text =>
    refine .of_unanswered hsome (countP_submission unsubmitted) ?_ ⟨_, rfl⟩
    intro x hx reply
    rcases List.mem_append.mp hx with hx | hx
    · exact unsubmitted.not_answered hx reply
    · cases List.mem_singleton.mp hx
      rintro ⟨_, _, _, heq⟩
      cases heq
  | answered unsubmitted granted url headers reply =>
    exact .of_answered hsome unsubmitted granted

end Classes

/-! ### A peer that grants tokens and is out of order -/

/-- Grants every token and answers everything else with a status and a broken body. -/
def grantThen (status : Nat) : (q : CallQuestion) → Unit → q.Answer × Unit
  | .clock, s => (Instant.start, s)
  | .date, s => (⟨0, 0⟩, s)
  | .exchange request, s =>
    (.reply (match request.body with
      | .form _ => ⟨200, .complete (Text.toBytes "\x7b\"access_token\":\"t\"\x7d")⟩
      | _ => ⟨status, .cut⟩), s)

def tokenClient : Client := ⟨"https://ca", .oauth "id" "secret" "https://idp/token" [] none⟩

def plainOrder : SignOrder := ⟨Text.toBytes "csr", none, [], false, []⟩

def plainSigning : Call (Except SignerError SignedCertificate) :=
  signOver tokenClient ⟨"template", "ca"⟩ plainOrder

def endsTransient : Except Stop (Except SignerError SignedCertificate) → Bool
  | .ok (.error (.transient _)) => true
  | _ => false

theorem exists_of_endsTransient {r : Except Stop (Except SignerError SignedCertificate)}
    (h : endsTransient r = true) : ∃ result, r = .ok result ∧ IsTransient result := by
  unfold endsTransient at h
  split at h
  · exact ⟨_, rfl, _, rfl⟩
  · cases h

theorem signing_classified_out_of_order :
    ∃ heard result left,
      plainSigning.Goes none heard (.ok result) left ∧ Classified plainOrder heard result ∧
        IsTransient result ∧ heard.length = 3 := by
  have hcourse := plainSigning.goes_transcript (grantThen 503) none ()
  have hend : endsTransient ((plainSigning.run.run none).hold (grantThen 503) ()).1.1 = true := by
    decide +kernel
  have hlength : ((plainSigning.run.run none).transcript (grantThen 503) ()).length = 3 := by
    decide +kernel
  obtain ⟨result, hresult, htransient⟩ := exists_of_endsTransient hend
  rw [hresult] at hcourse
  exact ⟨_, result, _, hcourse, signing_classified hcourse, htransient, hlength⟩

end CertIssuer.Authority
