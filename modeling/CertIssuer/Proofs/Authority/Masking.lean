import CertIssuer.Authority.Signer
import CertIssuer.Proofs.Authority.Calls
import CertIssuer.Proofs.Dialogue.Twins
import CertIssuer.Proofs.Text.Base64

/-!
# Calls with their secrets masked

A request holds what is secret in two places: in the header that shows a name and a password, and in
the form that a token is asked for with. `Request.masked` blots out both. Clients that differ only
in their secrets send the same requests but for that, and make the same of each reply: their calls
are twins (`twins_signOver`, `twins_checkOver`).
-/

namespace CertIssuer

namespace Net

/-- A header without the name and the password that it may show. -/
def maskHeader (h : String × String) : String × String :=
  if h.1 = "authorization" ∧ "Basic ".toList.isPrefixOf h.2.toList then (h.1, "Basic ") else h

/-- A field of a form without the secret that it may hold. -/
def maskField (f : String × String) : String × String :=
  if f.1 = "client_secret" then (f.1, "") else f

def Body.masked : Body → Body
  | form fields => form (fields.map maskField)
  | body => body

def Request.masked (r : Request) : Request :=
  { r with headers := r.headers.map maskHeader, body := r.body.masked }

end Net

namespace Authority

/-! ### Twin calls -/

inductive CallQuestion.Alike : CallQuestion → CallQuestion → Prop where
  | same (q : CallQuestion) : Alike q q
  | exchange {r r' : Net.Request} (h : r.masked = r'.masked) : Alike (.exchange r) (.exchange r')

def maskedLikeness : Dialogue.Likeness CallQuestion CallQuestion.Answer where
  asks := CallQuestion.Alike
  hears _ _ a a' := a ≍ a'

namespace Call

variable {α β γ δ : Type} {Ends : α → β → Prop} {Ends' : γ → δ → Prop}

/-- Calls that are twins when their requests are masked, and that leave the same token behind. -/
def Twins (Ends : α → β → Prop) (x : Call α) (y : Call β) : Prop :=
  ∀ kept, Dialogue.Twins maskedLikeness (fun e e' => SameOutcome Ends e.1 e'.1 ∧ e.2 = e'.2)
    (x.run.run kept) (y.run.run kept)

theorem twins_pure {a : α} {b : β} (h : Ends a b) : Twins Ends (pure a) (pure b) :=
  fun _ => .done ⟨.ok h, rfl⟩

theorem Twins.bind {x : Call α} {y : Call β} {f : α → Call γ} {g : β → Call δ}
    (h : Twins Ends x y) (hf : ∀ a b, Ends a b → Twins Ends' (f a) (g b)) :
    Twins Ends' (x >>= f) (y >>= g) := by
  intro kept
  have hrest (ended : Except Stop α × Option Token) (ended' : Except Stop β × Option Token)
      (hended : SameOutcome Ends ended.1 ended'.1 ∧ ended.2 = ended'.2) :
      Dialogue.Twins maskedLikeness (fun e e' => SameOutcome Ends' e.1 e'.1 ∧ e.2 = e'.2)
        ((ExceptT.bindCont f ended.1).run ended.2)
        ((ExceptT.bindCont g ended'.1).run ended'.2) := by
    obtain ⟨ended, left⟩ := ended
    obtain ⟨ended', left'⟩ := ended'
    obtain ⟨hended, hleft⟩ := hended
    cases hleft
    cases hended with
    | ok hab => exact hf _ _ hab left
    | error stop => exact .done ⟨.error stop, rfl⟩
  exact (h kept).bind hrest

theorem Twins.tryCatch {x : Call α} {y : Call β} {handler : Stop → Call α}
    {handler' : Stop → Call β} (h : Twins Ends x y)
    (hhandler : ∀ stop, Twins Ends (handler stop) (handler' stop)) :
    Twins Ends (tryCatch x handler) (tryCatch y handler') := by
  intro kept
  rw [run_tryCatch, run_tryCatch]
  refine (h kept).bind ?_
  rintro ⟨ended, left⟩ ⟨ended', left'⟩ ⟨hended, hleft⟩
  cases hleft
  cases hended with
  | ok hab => exact .done ⟨.ok hab, rfl⟩
  | error stop => exact hhandler stop left

/-- A call is its own twin. -/
theorem twins_self (x : Call α) : Twins Eq x x := by
  intro kept
  have hsame : Dialogue.Twins maskedLikeness Eq (x.run.run kept) (x.run.run kept) :=
    (Dialogue.within_any _).twins fun q _ => ⟨.same q, fun _ _ h => eq_of_heq h⟩
  refine hsame.mono ?_
  rintro e _ rfl
  exact ⟨.refl e.1, rfl⟩

theorem twins_ask_exchange {r r' : Net.Request} (h : r.masked = r'.masked) :
    Twins (Eq : Net.Exchange → Net.Exchange → Prop) (ask (.exchange r)) (ask (.exchange r')) := by
  intro kept
  refine .ask (.exchange h) fun a a' ha => ?_
  cases eq_of_heq ha
  exact .done ⟨.ok rfl, rfl⟩

/-- Whether all headers of a request can be sent. -/
abbrev sendable (headers : List (String × String)) : Bool :=
  headers.all fun h => h.2.toList.all Net.inHeader

theorem twins_exchange {method : Net.Method} {address : String}
    {headers headers' : List (String × String)} {body body' : Net.Body}
    (hsendable : sendable headers = sendable headers')
    (hheaders : headers.map Net.maskHeader = headers'.map Net.maskHeader)
    (hbody : body.masked = body'.masked) :
    Twins Eq (exchange method address headers body) (exchange method address headers' body') := by
  unfold exchange
  cases Net.Url.parse address with
  | error e => cases e <;> exact twins_self _
  | ok url =>
    dsimp only
    rw [show (headers.all fun h => h.2.toList.all Net.inHeader) =
      headers'.all fun h => h.2.toList.all Net.inHeader from hsendable]
    split
    · have hmasked : (Net.Request.mk method url headers body).masked =
          (Net.Request.mk method url headers' body').masked := by
        simp only [Net.Request.masked, hheaders, hbody]
      refine (twins_ask_exchange hmasked).bind ?_
      rintro answer _ rfl
      cases answer <;> exact twins_self _
    · exact twins_self _

end Call

/-! ### Clients with other secrets -/

inductive Credentials.Alike : Credentials → Credentials → Prop where
  | basic (username password password' : String) :
    Alike (.basic username password) (.basic username password')
  | oauth (clientId clientSecret clientSecret' tokenUrl : String) (scopes : List String)
      (audience : Option String) :
    Alike (.oauth clientId clientSecret tokenUrl scopes audience)
      (.oauth clientId clientSecret' tokenUrl scopes audience)

theorem Credentials.Alike.describe_eq {c c' : Credentials} (h : c.Alike c') :
    c.describe = c'.describe := by
  cases h <;> rfl

structure Client.Alike (c c' : Client) : Prop where
  base : c.base = c'.base
  credentials : c.credentials.Alike c'.credentials

open Call

theorem twins_requestToken (address clientId clientSecret clientSecret' : String)
    (scopes : List String) (audience : Option String) :
    Twins Eq (Token.request address (tokenForm clientId clientSecret scopes audience))
      (Token.request address (tokenForm clientId clientSecret' scopes audience)) := by
  have hform : (Net.Body.form (tokenForm clientId clientSecret scopes audience)).masked =
      (Net.Body.form (tokenForm clientId clientSecret' scopes audience)).masked := by
    simp [Net.Body.masked, tokenForm, Net.maskField]
  refine (twins_exchange rfl rfl hform).bind ?_
  rintro reply _ rfl
  exact twins_self _

theorem twins_currentToken (address clientId clientSecret clientSecret' : String)
    (scopes : List String) (audience : Option String) :
    Twins Eq (Token.current address (tokenForm clientId clientSecret scopes audience))
      (Token.current address (tokenForm clientId clientSecret' scopes audience)) := by
  have hrequest := twins_requestToken address clientId clientSecret clientSecret' scopes audience
  refine (twins_self keptToken).bind ?_
  rintro kept _ rfl
  cases kept with
  | none => exact hrequest
  | some kept =>
    refine (twins_self kept.isFresh).bind ?_
    rintro fresh _ rfl
    cases fresh with
    | true => exact twins_self (pure kept.value)
    | false => exact hrequest

/-- Two values of the header that shows who calls: they look alike, and if one can be sent then so
can the other. -/
def ShownAlike (a a' : String) : Prop :=
  a.toList.all Net.inHeader = a'.toList.all Net.inHeader ∧
    Net.maskHeader ("authorization", a) = Net.maskHeader ("authorization", a')

theorem inHeader_symbol :
    ∀ n < 64, Net.inHeader (Char.ofNat (Text.Base64.symbol n).toNat) = true := by
  decide

theorem inHeader_base64 (bytes : Text.Bytes) :
    (Text.Base64.encode bytes).toList.all Net.inHeader = true := by
  rw [Text.Base64.encode, String.toList_ofList, List.all_map, List.all_eq_true]
  intro b hb
  obtain rfl | ⟨n, hn, rfl⟩ := Text.Base64.mem_encodeBytes hb
  · decide
  · exact inHeader_symbol n hn

theorem maskHeader_basic (text : String) :
    Net.maskHeader ("authorization", "Basic " ++ text) = ("authorization", "Basic ") := by
  rw [Net.maskHeader, if_pos]
  refine ⟨rfl, ?_⟩
  rw [List.isPrefixOf_iff_prefix, String.toList_append]
  exact List.prefix_append _ _

theorem shownAlike_basic (bytes bytes' : Text.Bytes) :
    ShownAlike ("Basic " ++ Text.Base64.encode bytes) ("Basic " ++ Text.Base64.encode bytes') := by
  constructor
  · rw [String.toList_append, String.toList_append, List.all_append, List.all_append,
      inHeader_base64, inHeader_base64]
  · rw [maskHeader_basic, maskHeader_basic]

variable {c c' : Client}

theorem twins_authorization (h : c.Alike c') :
    Twins ShownAlike c.authorization c'.authorization := by
  obtain ⟨base, credentials⟩ := c
  obtain ⟨base', credentials'⟩ := c'
  obtain ⟨-, hcredentials⟩ := h
  cases hcredentials with
  | basic username password password' => exact twins_pure (shownAlike_basic _ _)
  | oauth clientId clientSecret clientSecret' tokenUrl scopes audience =>
    refine (twins_currentToken tokenUrl clientId clientSecret clientSecret' scopes audience).bind ?_
    rintro token _ rfl
    exact twins_pure ⟨rfl, rfl⟩

theorem twins_send (h : c.Alike c') (method : Net.Method) (path : String)
    (headers : List (String × String)) (body : Net.Body) :
    Twins Eq (c.send method path headers body) (c'.send method path headers body) := by
  refine (twins_authorization h).bind fun a a' ha => ?_
  have hsendable : sendable (Client.commonHeaders a ++ headers) =
      sendable (Client.commonHeaders a' ++ headers) := by
    simp only [sendable, Client.commonHeaders, List.all_append, List.all_cons, ha.1]
  have hheaders : (Client.commonHeaders a ++ headers).map Net.maskHeader =
      (Client.commonHeaders a' ++ headers).map Net.maskHeader := by
    simp only [Client.commonHeaders, List.map_append, List.map_cons, ha.2]
  rw [h.base]
  refine (twins_exchange hsendable hheaders rfl).bind ?_
  rintro reply _ rfl
  exact twins_self _

theorem twins_checkOver (h : c.Alike c') : Twins Eq (checkOver c) (checkOver c') := by
  refine Twins.tryCatch ?_ fun stop => twins_self _
  have hcheck : Twins Eq c.checkConnection c'.checkConnection := by
    refine (twins_send h .get "/Status/Endpoints" [] .empty).bind ?_
    rintro reply _ rfl
    exact twins_self _
  refine hcheck.bind ?_
  rintro ⟨⟩ _ rfl
  exact twins_self _

theorem twins_enroll (h : c.Alike c') (e : Enrollment) : Twins Eq (c.enroll e) (c'.enroll e) := by
  unfold Client.enroll
  split
  · rw [fail_bind, fail_bind]
    exact twins_self _
  · refine (twins_self (ask .date)).bind ?_
    rintro date _ rfl
    refine (twins_send h .post "/Enrollment/CSR" _ _).bind ?_
    rintro reply _ rfl
    exact twins_self _

theorem twins_signOver (h : c.Alike c') (s : Signer) (order : SignOrder) :
    Twins Eq (signOver c s order) (signOver c' s order) := by
  unfold signOver
  cases s.enrollment order with
  | error e => exact twins_self _
  | ok e =>
    refine Twins.tryCatch ?_ fun stop => twins_self _
    refine (twins_enroll h e).bind ?_
    rintro issued _ rfl
    exact twins_self _

end Authority

end CertIssuer
