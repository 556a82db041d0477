import CertIssuer.Proofs.Authority.Classification

/-!
# How a call comes by its token

A call of a client with a client identity looks at the kept token, asks for a new one if that cannot
be used, and sends its request with the token that it then has. `Job.goes_call` says all that can be
heard in such a call, how it can end, and which token it leaves.
-/

namespace CertIssuer.Authority

open Dialogue (Heard)

/-! ### What is heard -/

section Heard

abbrev CallHearing := Heard CallQuestion CallQuestion.Answer

def isExchange (x : CallHearing) : Bool :=
  match x.question with
  | .exchange _ => true
  | _ => false

/-- Whether this asks for a token: of all requests, only that one is a form. -/
def isTokenRequest (x : CallHearing) : Bool :=
  match x.question with
  | .exchange ⟨_, _, _, .form _⟩ => true
  | _ => false

def isApiRequest (x : CallHearing) : Bool := isExchange x && !isTokenRequest x

/-- The token that an answer grants, and the seconds that it is good for. -/
def grantOf? : CallHearing → Option (String × Option Nat)
  | ⟨.exchange ⟨_, _, _, .form _⟩, .reply reply⟩ =>
    if reply.isSuccess then tokenAnswer? reply.body else none
  | _ => none

/-- Whether the interface refuses the token that was shown. -/
def refuses : CallHearing → Bool
  | ⟨.exchange ⟨_, _, _, .form _⟩, _⟩ => false
  | ⟨.exchange _, .reply reply⟩ => decide (reply.status = 401 ∨ reply.status = 403)
  | _ => false

/-- Nothing is sent. -/
def Silent (heard : CallCourse) : Prop := ∀ x ∈ heard, isExchange x = false

/-- What a request shows. -/
def authorizationOf? (x : CallHearing) : Option String :=
  match x.question with
  | .exchange request => request.headers.lookup "authorization"
  | _ => none

theorem isExchange_of_token {x : CallHearing} (h : isTokenRequest x = true) :
    isExchange x = true := by
  obtain ⟨q, answer⟩ := x
  cases q with
  | exchange request => rfl
  | _ => cases h

theorem isApiRequest_iff {x : CallHearing} :
    isApiRequest x = true ↔ isExchange x = true ∧ isTokenRequest x = false := by
  simp [isApiRequest]

theorem Silent.not_token {heard : CallCourse} (h : Silent heard) {x : CallHearing}
    (hx : x ∈ heard) : isTokenRequest x = false := by
  rw [Bool.eq_false_iff]
  intro htoken
  have hexchange := isExchange_of_token htoken
  rw [h x hx] at hexchange
  cases hexchange

theorem Silent.not_api {heard : CallCourse} (h : Silent heard) {x : CallHearing} (hx : x ∈ heard) :
    isApiRequest x = false := by
  simp [isApiRequest, h x hx]

end Heard

/-! ### Calls that end before the clock does -/

section Ended

variable {kept left : Option Token} {heard : CallCourse} {α β : Type}

theorem goes_fail_ended {e : CallError} {result : Except CallError α}
    (h : (Call.fail e : Call α).Goes kept heard (ended result) left) :
    heard = [] ∧ result = .error e ∧ left = kept := by
  obtain ⟨hheard, hended, hleft⟩ := Call.goes_fail.mp h
  cases result with
  | ok value => cases hended
  | error e =>
    cases hended
    exact ⟨hheard, rfl, hleft⟩

theorem goes_pure_ended {a : α} {result : Except CallError α}
    (h : (pure a : Call α).Goes kept heard (ended result) left) :
    heard = [] ∧ result = .ok a ∧ left = kept := by
  obtain ⟨hheard, hended, hleft⟩ := Call.goes_pure.mp h
  cases result with
  | ok value =>
    cases hended
    exact ⟨hheard, rfl, hleft⟩
  | error e => cases hended

theorem ended_ne_overflow (result : Except CallError α) :
    ended result ≠ .error .clockOverflow := by
  cases result <;> nofun

/-- The end of a call whose first part has ended, be it that the part failed. -/
theorem goes_bind_ended {x : Call α} {f : α → Call β} {result : Except CallError β}
    (h : (x >>= f).Goes kept heard (ended result) left) :
    (∃ e, x.Goes kept heard (ended (.error e)) left ∧ result = .error e) ∨
      ∃ first second a mid, heard = first ++ second ∧ x.Goes kept first (ended (.ok a)) mid ∧
        (f a).Goes mid second (ended result) left := by
  rcases Call.goes_bind.mp h with ⟨stop, hx, hstop⟩ | ⟨first, second, a, mid, rfl, hx, hf⟩
  · cases result with
    | ok b => cases hstop
    | error e =>
      cases hstop
      exact .inl ⟨e, hx, rfl⟩
  · exact .inr ⟨first, second, a, mid, rfl, hx, hf⟩

end Ended

/-! ### The course of a token -/

section Course

variable {kept left : Option Token} {heard : CallCourse}

theorem sinceStart_of_plus? {i later : Instant} {d : Span} (h : i.plus? d = some later) :
    later.sinceStart = i.sinceStart + d := by
  unfold Instant.plus? at h
  dsimp only at h
  split at h
  · cases h
    rfl
  · cases h

/-- What is heard when a token is looked at, and whether it can still be used. -/
inductive Looked (t : Token) : CallCourse → Bool → Prop
  | lasting : t.expiresAt = none → Looked t [] true
  | dated {expiry now : Instant} {fresh : Bool} : t.expiresAt = some expiry →
      (fresh = true ↔ now.sinceStart + tokenSlack < expiry.sinceStart) →
        Looked t [⟨.clock, now⟩] fresh

theorem Looked.silent {t : Token} {fresh : Bool} (h : Looked t heard fresh) : Silent heard := by
  cases h with
  | lasting _ => exact List.forall_mem_nil _
  | dated _ _ => exact List.forall_mem_singleton.mpr rfl

theorem Token.goes_isFresh {t : Token} {result : Except CallError Bool}
    (h : t.isFresh.Goes kept heard (ended result) left) :
    left = kept ∧ ∃ fresh, result = .ok fresh ∧ Looked t heard fresh := by
  unfold Token.isFresh at h
  split at h
  · next hnone =>
    obtain ⟨rfl, rfl, rfl⟩ := goes_pure_ended h
    exact ⟨rfl, true, rfl, .lasting hnone⟩
  · next expiry hsome =>
    obtain ⟨now, rest, rfl, hrest⟩ := Call.goes_ask_bind.mp h
    obtain ⟨hover, -⟩ | ⟨soon, hsoon, hend⟩ := Call.goes_reach_bind hrest
    · exact absurd hover (ended_ne_overflow result)
    · obtain ⟨rfl, rfl, rfl⟩ := goes_pure_ended hend
      refine ⟨rfl, _, rfl, .dated hsome ?_⟩
      rw [decide_eq_true_iff, ← sinceStart_of_plus? hsoon]
      rfl

/-- When a token expires, worked out from the time at which it was obtained. -/
inductive Dated : Option Nat → CallCourse → Option Instant → Prop
  | never : Dated none [] none
  | expiring {seconds : Nat} {obtained expiry : Instant} :
      expiry.sinceStart = obtained.sinceStart + .ofSeconds seconds →
        Dated (some seconds) [⟨.clock, obtained⟩] (some expiry)

theorem Dated.silent {expiresIn : Option Nat} {expiresAt : Option Instant}
    (h : Dated expiresIn heard expiresAt) : Silent heard := by
  cases h with
  | never => exact List.forall_mem_nil _
  | expiring _ => exact List.forall_mem_singleton.mpr rfl

/-- How it goes when a token is asked for. -/
inductive Asked (kept : Option Token) :
    CallCourse → Except CallError String → Option Token → Prop
  | unsent (text : String) : Asked kept [] (.error (.authentication text)) kept
  | denied {x : CallHearing} (text : String) : isTokenRequest x = true → grantOf? x = none →
      Asked kept [x] (.error (.authentication text)) kept
  | granted {x : CallHearing} {value : String} {expiresIn : Option Nat} {dating : CallCourse}
    {expiresAt : Option Instant} : isTokenRequest x = true →
      grantOf? x = some (value, expiresIn) → Dated expiresIn dating expiresAt →
        Asked kept (x :: dating) (.ok value) (some ⟨value, expiresAt⟩)

theorem goes_keepToken_return {value : String} {expiresAt : Option Instant}
    {result : Except CallError String}
    (h : (do Call.keepToken (some ⟨value, expiresAt⟩); return value : Call String).Goes kept heard
      (ended result) left) :
    heard = [] ∧ result = .ok value ∧ left = some ⟨value, expiresAt⟩ :=
  goes_pure_ended (Call.goes_keepToken_bind.mp h)

theorem Token.goes_request {address : String} {form : List (String × String)}
    {result : Except CallError String}
    (h : (Token.request address form).Goes kept heard (ended result) left) :
    Asked kept heard result left := by
  unfold Token.request at h
  obtain ⟨text, hnext⟩ | ⟨url, answer, rest, rfl, hnext⟩ := Call.goes_exchange_bind h
  · obtain ⟨rfl, rfl, rfl⟩ := goes_fail_ended hnext
    exact .unsent _
  cases answer with
  | noReply =>
    obtain ⟨text, hnext⟩ := hnext
    obtain ⟨rfl, rfl, rfl⟩ := goes_fail_ended hnext
    exact .denied _ rfl rfl
  | reply reply =>
    simp only [Call.fail_bind] at hnext
    split at hnext
    · next hfailure =>
      obtain ⟨rfl, rfl, rfl⟩ := goes_fail_ended hnext
      exact .denied _ rfl (if_neg (by simpa using hfailure))
    · next hsuccess =>
      have hsuccess : reply.isSuccess = true := by simpa using hsuccess
      split at hnext
      · next hnone =>
        obtain ⟨rfl, rfl, rfl⟩ := goes_fail_ended hnext
        exact .denied _ rfl ((if_pos hsuccess).trans hnone)
      · next value expiresIn htoken =>
        have hgrant : grantOf? ⟨.exchange ⟨.post, url, [], .form form⟩, .reply reply⟩ =
            some (value, expiresIn) := (if_pos hsuccess).trans htoken
        split at hnext
        · obtain ⟨rfl, rfl, rfl⟩ := goes_keepToken_return hnext
          exact .granted rfl hgrant .never
        · next seconds =>
          obtain ⟨obtained, last, rfl, hlast⟩ := Call.goes_ask_bind.mp hnext
          rw [map_eq_pure_bind, bind_assoc] at hlast
          obtain ⟨hover, -⟩ | ⟨expiry, hexpiry, hend⟩ := Call.goes_reach_bind hlast
          · exact absurd hover (ended_ne_overflow result)
          · obtain ⟨rfl, rfl, rfl⟩ := goes_keepToken_return hend
            exact .granted rfl hgrant (.expiring (sinceStart_of_plus? hexpiry))

/-- How it goes when a token is to be shown: the kept one is, or a new one is asked for. -/
inductive Obtained (kept : Option Token) :
    CallCourse → Except CallError String → Option Token → Prop
  | cached {t : Token} {looking : CallCourse} : kept = some t → Looked t looking true →
      Obtained kept looking (.ok t.value) kept
  | missing {asking : CallCourse} {result : Except CallError String} {left : Option Token} :
      kept = none → Asked kept asking result left → Obtained kept asking result left
  | outdated {t : Token} {looking asking : CallCourse} {result : Except CallError String}
    {left : Option Token} : kept = some t → Looked t looking false →
      Asked kept asking result left → Obtained kept (looking ++ asking) result left

theorem Token.goes_current {address : String} {form : List (String × String)}
    {result : Except CallError String}
    (h : (Token.current address form).Goes kept heard (ended result) left) :
    Obtained kept heard result left := by
  unfold Token.current at h
  have hkept := Call.goes_keptToken_bind.mp h
  cases kept with
  | none => exact .missing rfl (Token.goes_request hkept)
  | some t =>
    rcases goes_bind_ended hkept with
      ⟨e, hlook, -⟩ | ⟨looking, rest, fresh, mid, rfl, hlook, hnext⟩
    · obtain ⟨-, fresh, hok, -⟩ := Token.goes_isFresh hlook
      cases hok
    · obtain ⟨rfl, fresh', hok, hlooked⟩ := Token.goes_isFresh hlook
      cases hok
      cases fresh with
      | true =>
        obtain ⟨rfl, rfl, rfl⟩ := goes_pure_ended hnext
        rw [List.append_nil]
        exact .cached rfl hlooked
      | false => exact .outdated rfl hlooked (Token.goes_request hnext)

end Course

/-! ### The course of a call -/

/-- What a client can be asked to do; the request of an enrollment is not blank. -/
inductive Job where
  | check
  | enroll (e : Enrollment) (filled : Text.isBlankText e.csr = false)

def Job.call (c : Client) : Job → Call Unit
  | check => c.checkConnection
  | enroll e _ => do let _ ← c.enroll e

/-- How it goes when a request is sent to the interface, with the token that it shows. -/
inductive Sent {α : Type} (kept : Option Token) :
    CallCourse → Except CallError α → Option Token → Prop
  | unauthenticated {heard : CallCourse} {e : CallError} {left : Option Token} :
      Obtained kept heard (.error e) left → Sent kept heard (.error e) left
  | unsent {heard : CallCourse} {value : String} {left : Option Token} (text : String) :
      Obtained kept heard (.ok value) left → Sent kept heard (.error (.http text)) left
  | sent {heard : CallCourse} {value : String} {mid : Option Token} {x : CallHearing}
    (result : Except CallError α) : Obtained kept heard (.ok value) mid → isApiRequest x = true →
      authorizationOf? x = some ("Bearer " ++ value) →
        Sent kept (heard ++ [x]) result (if refuses x then none else mid)

section Course

variable {kept left : Option Token} {heard : CallCourse} {c : Client}
  {clientId clientSecret tokenUrl : String} {scopes : List String} {audience : Option String}

theorem Client.goes_authorization
    (hc : c.credentials = .oauth clientId clientSecret tokenUrl scopes audience)
    {result : Except CallError String}
    (h : c.authorization.Goes kept heard (ended result) left) :
    ∃ token, Obtained kept heard token left ∧ result = token.map ("Bearer " ++ ·) := by
  unfold Client.authorization at h
  simp only [hc] at h
  rcases goes_bind_ended h with ⟨e, hx, rfl⟩ | ⟨_, _, value, mid, rfl, hx, hend⟩
  · exact ⟨.error e, Token.goes_current hx, rfl⟩
  · obtain ⟨rfl, rfl, rfl⟩ := goes_pure_ended hend
    rw [List.append_nil]
    exact ⟨.ok value, Token.goes_current hx, rfl⟩

theorem isApiRequest_of_body (method : Net.Method) (url : Net.Url)
    (headers : List (String × String)) {body : Net.Body} (hbody : ∀ fields, body ≠ .form fields)
    (answer : Net.Exchange) :
    isApiRequest ⟨.exchange ⟨method, url, headers, body⟩, answer⟩ = true := by
  cases body with
  | form fields => exact absurd rfl (hbody fields)
  | _ => rfl

theorem refuses_reply {method : Net.Method} {url : Net.Url} {headers : List (String × String)}
    {body : Net.Body} (hbody : ∀ fields, body ≠ .form fields) (reply : Net.Reply) :
    refuses ⟨.exchange ⟨method, url, headers, body⟩, .reply reply⟩ =
      decide (reply.status = 401 ∨ reply.status = 403) := by
  cases body with
  | form fields => exact absurd rfl (hbody fields)
  | _ => rfl

theorem refuses_noReply (request : Net.Request) :
    refuses ⟨.exchange request, .noReply⟩ = false := by
  obtain ⟨method, url, headers, body⟩ := request
  cases body <;> rfl

theorem Client.goes_send_oauth
    (hc : c.credentials = .oauth clientId clientSecret tokenUrl scopes audience)
    {method : Net.Method} {path : String} {headers : List (String × String)} {body : Net.Body}
    (hbody : ∀ fields, body ≠ .form fields) {result : Except CallError Net.Reply}
    (h : (c.send method path headers body).Goes kept heard (ended result) left) :
    Sent kept heard result left := by
  unfold Client.send at h
  rcases goes_bind_ended h with ⟨e, hx, rfl⟩ | ⟨first, rest, shown, mid, rfl, hx, hnext⟩
  · obtain ⟨token, htoken, hshown⟩ := Client.goes_authorization hc hx
    cases token with
    | ok value => cases hshown
    | error e' =>
      cases hshown
      exact .unauthenticated htoken
  obtain ⟨token, htoken, hshown⟩ := Client.goes_authorization hc hx
  cases token with
  | error e => cases hshown
  | ok value =>
    cases hshown
    obtain ⟨text, hend⟩ | ⟨url, answer, last, rfl, hend⟩ := Call.goes_exchange_bind hnext
    · obtain ⟨rfl, rfl, rfl⟩ := goes_fail_ended hend
      rw [List.append_nil]
      exact .unsent text htoken
    · have hapi := isApiRequest_of_body method url (commonHeaders ("Bearer " ++ value) ++ headers)
        hbody answer
      cases answer with
      | noReply =>
        obtain ⟨text, hend⟩ := hend
        obtain ⟨rfl, -, rfl⟩ := goes_fail_ended hend
        have hsent := Sent.sent result htoken hapi rfl
        rwa [refuses_noReply] at hsent
      | reply reply =>
        obtain ⟨rfl, -, rfl⟩ := goes_accepted hend
        have hsent := Sent.sent result htoken hapi rfl
        rw [refuses_reply hbody] at hsent
        simpa using hsent

theorem Client.goes_enroll_oauth
    (hc : c.credentials = .oauth clientId clientSecret tokenUrl scopes audience) {e : Enrollment}
    (hfilled : Text.isBlankText e.csr = false) {result : Except CallError IssuedCertificate}
    (h : (c.enroll e).Goes kept heard (ended result) left) :
    ∃ date sending answer, heard = ⟨.date, date⟩ :: sending ∧
      Sent (α := Net.Reply) kept sending answer left ∧
        ∀ failure, answer = .error failure → result = .error failure := by
  unfold Client.enroll at h
  simp only [hfilled, Bool.false_eq_true, if_false] at h
  obtain ⟨date, sending, rfl, hsending⟩ := Call.goes_ask_bind.mp h
  rcases goes_bind_ended hsending with ⟨failure, hsend, rfl⟩ | ⟨_, _, reply, _, rfl, hsend, hread⟩
  · have hsent := Client.goes_send_oauth hc (by nofun) hsend
    exact ⟨date, _, _, rfl, hsent, fun _ heq => Except.error.inj heq ▸ rfl⟩
  · obtain ⟨rfl, -, rfl⟩ := goes_certificateOf hread
    have hsent := Client.goes_send_oauth hc (by nofun) hsend
    rw [List.append_nil]
    exact ⟨date, _, _, rfl, hsent, nofun⟩

/-- A call looks at the date or not, and then sends one request. -/
theorem Job.goes_call (hc : c.credentials = .oauth clientId clientSecret tokenUrl scopes audience)
    {job : Job} {result : Except CallError Unit}
    (h : (job.call c).Goes kept heard (ended result) left) :
    ∃ opening sending answer, heard = opening ++ sending ∧ Silent opening ∧
      Sent (α := Net.Reply) kept sending answer left ∧
        ∀ failure, answer = .error failure → result = .error failure := by
  cases job with
  | check =>
    rcases goes_bind_ended h with ⟨failure, hsend, rfl⟩ | ⟨_, _, reply, _, rfl, hsend, hend⟩
    · have hsent := Client.goes_send_oauth hc (by nofun) hsend
      exact ⟨[], _, _, rfl, List.forall_mem_nil _, hsent, fun _ heq => Except.error.inj heq ▸ rfl⟩
    · obtain ⟨rfl, -, rfl⟩ := goes_pure_ended hend
      have hsent := Client.goes_send_oauth hc (by nofun) hsend
      rw [List.append_nil]
      exact ⟨[], _, _, rfl, List.forall_mem_nil _, hsent, nofun⟩
  | enroll e hfilled =>
    rcases goes_bind_ended h with ⟨failure, henroll, rfl⟩ | ⟨_, _, _, _, rfl, henroll, hend⟩
    · obtain ⟨date, sending, answer, rfl, hsent, hfailed⟩ :=
        Client.goes_enroll_oauth hc hfilled henroll
      refine ⟨[⟨.date, date⟩], sending, answer, rfl, List.forall_mem_singleton.mpr rfl, hsent, ?_⟩
      exact fun failure' heq => Except.error.inj (hfailed failure' heq) ▸ rfl
    · obtain ⟨rfl, -, rfl⟩ := goes_pure_ended hend
      obtain ⟨date, sending, answer, rfl, hsent, hfailed⟩ :=
        Client.goes_enroll_oauth hc hfilled henroll
      rw [List.append_nil]
      refine ⟨[⟨.date, date⟩], sending, answer, rfl, List.forall_mem_singleton.mpr rfl, hsent, ?_⟩
      intro failure heq
      cases hfailed failure heq

end Course

end CertIssuer.Authority
