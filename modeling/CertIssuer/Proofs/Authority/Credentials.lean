import CertIssuer.Authority.Credentials
import Mathlib.Data.List.Basic

/-!
# What a secret gives

Under each of its keys a secret gives a text, or nothing, or bytes that are no text. Which
credentials come of it, if any, is settled by what it gives under five keys: a name and a password
win, and a client identity needs all of its three parts. The scopes are the pieces of the spec's
text between blanks and commas (`scopePieces_eq_iff`).
-/

namespace CertIssuer.Authority

/-! ### Single keys -/

/-- A secret holds a text under a key; trimmed it is this one, which is not empty. -/
def Gives (data : SecretData) (key text : String) : Prop :=
  ∃ bytes raw, data.get? key = some bytes ∧ Text.toText? bytes = some raw ∧
    Text.trim raw = text ∧ text ≠ ""

/-- A secret holds bytes under a key that are no text. -/
def Garbled (data : SecretData) (key : String) : Prop :=
  ∃ bytes, data.get? key = some bytes ∧ Text.toText? bytes = none

section Keys

variable {data data' : SecretData} {key text : String}

theorem trimmed?_eq_some_iff {raw : String} :
    Text.trimmed? raw = some text ↔ Text.trim raw = text ∧ text ≠ "" := by
  simp only [Text.trimmed?, String.isEmpty_iff]
  by_cases hempty : Text.trim raw = ""
  · rw [if_pos hempty, hempty]
    exact iff_of_false (by simp) fun h => h.2 h.1.symm
  · rw [if_neg hempty, Option.some_inj]
    exact ⟨fun h => ⟨h, h ▸ hempty⟩, And.left⟩

theorem secretText_eq_some_iff : secretText data key = .ok (some text) ↔ Gives data key text := by
  unfold secretText Gives
  cases data.get? key with
  | none => simp
  | some bytes =>
    cases hraw : Text.toText? bytes with
    | none => simp [hraw]
    | some raw => simp [hraw, trimmed?_eq_some_iff]

theorem secretText_eq_error_iff {e : SignerError} : secretText data key = .error e ↔
    Garbled data key ∧ e = .config ("secret key " ++ Text.quoted key ++ " is not valid UTF-8") := by
  unfold secretText Garbled
  cases data.get? key with
  | none => simp
  | some bytes =>
    cases hraw : Text.toText? bytes with
    | none => simp [hraw, eq_comm]
    | some raw => simp [hraw]

theorem not_garbled_of_ok {found : Option String} (h : secretText data key = .ok found) :
    ¬ Garbled data key := by
  intro hgarbled
  cases h.symm.trans (secretText_eq_error_iff.mpr ⟨hgarbled, rfl⟩)

theorem secretText_of_not_garbled (h : ¬ Garbled data key) :
    ∃ found, secretText data key = .ok found := by
  cases hfound : secretText data key with
  | ok found => exact ⟨found, rfl⟩
  | error e => exact absurd (secretText_eq_error_iff.mp hfound).1 h

theorem secretText_congr (h : data'.get? key = data.get? key) :
    secretText data' key = secretText data key := by
  rw [secretText, secretText, h]

/-- The bytes of a text are read as the text, trimmed. -/
theorem secretText_of_text {raw : String} (h : data.get? key = some (Text.toBytes raw)) :
    secretText data key = .ok (Text.trimmed? raw) := by
  rw [secretText, h]
  dsimp only
  rw [Text.toText?_toBytes]

theorem gives_of_text {raw : String} (h : data.get? key = some (Text.toBytes raw))
    (htext : Text.trimmed? raw = some text) : Gives data key text := by
  rw [← secretText_eq_some_iff, secretText_of_text h, htext]

end Keys

/-! ### Scopes -/

/-- The longest pieces of a text without blanks and commas, in their order. Each of them stands
after nothing but such marks, and ends where the text ends or a mark stands. -/
inductive ScopePieces : List Char → List (List Char) → Prop
  | none {gap : List Char} : (∀ c ∈ gap, c = ' ' ∨ c = ',') → ScopePieces gap []
  | piece {gap piece rest : List Char} {pieces : List (List Char)} :
      (∀ c ∈ gap, c = ' ' ∨ c = ',') → piece ≠ [] → (∀ c ∈ piece, c ≠ ' ' ∧ c ≠ ',') →
      (∀ c ∈ rest.head?, c = ' ' ∨ c = ',') → ScopePieces rest pieces →
        ScopePieces (gap ++ (piece ++ rest)) (piece :: pieces)

section Scopes

variable {c : Char} {cs gap piece rest : List Char} {pieces : List (List Char)}

theorem isScopeMark_iff : isScopeMark c = true ↔ c = ' ' ∨ c = ',' := by
  simp [isScopeMark]

theorem isScopeMark_eq_false_iff : isScopeMark c = false ↔ c ≠ ' ' ∧ c ≠ ',' := by
  simp [isScopeMark]

theorem ScopePieces.mark (hmark : c = ' ' ∨ c = ',') (h : ScopePieces cs pieces) :
    ScopePieces (c :: cs) pieces := by
  cases h with
  | none hgap => exact .none (List.forall_mem_cons.mpr ⟨hmark, hgap⟩)
  | piece hgap hne hpiece hrest h =>
    exact .piece (List.forall_mem_cons.mpr ⟨hmark, hgap⟩) hne hpiece hrest h

theorem ScopePieces.first (hne : piece ≠ []) (hpiece : ∀ c ∈ piece, c ≠ ' ' ∧ c ≠ ',')
    (hrest : ∀ c ∈ rest.head?, c = ' ' ∨ c = ',') (h : ScopePieces rest pieces) :
    ScopePieces (piece ++ rest) (piece :: pieces) :=
  have hgap : ∀ c ∈ ([] : List Char), c = ' ' ∨ c = ',' := nofun
  .piece hgap hne hpiece hrest h

theorem forall_mem_nil_unmarked : ∀ c ∈ ([] : List Char), c ≠ ' ' ∧ c ≠ ',' := nofun

theorem scopePieces_sound (hpiece : ∀ c ∈ piece, c ≠ ' ' ∧ c ≠ ',') :
    ScopePieces (piece ++ cs) (scopePieces piece cs) := by
  induction cs generalizing piece with
  | nil =>
    by_cases hempty : piece = []
    · rw [hempty]
      exact .none nofun
    · rw [scopePieces, if_neg (mt List.isEmpty_iff.mp hempty)]
      exact .first hempty hpiece nofun (.none nofun)
  | cons c cs ih =>
    by_cases hmark : isScopeMark c = true
    · have hlater : ScopePieces (c :: cs) (scopePieces [] cs) :=
        .mark (isScopeMark_iff.mp hmark) (ih forall_mem_nil_unmarked)
      rw [scopePieces, if_pos hmark]
      by_cases hempty : piece = []
      · rw [hempty]
        exact hlater
      · rw [if_neg (mt List.isEmpty_iff.mp hempty)]
        refine .first hempty hpiece (fun d hd => ?_) hlater
        rw [← Option.some.inj hd]
        exact isScopeMark_iff.mp hmark
    · have hlonger : ∀ d ∈ piece ++ [c], d ≠ ' ' ∧ d ≠ ',' :=
        List.forall_mem_append.mpr ⟨hpiece, List.forall_mem_singleton.mpr
          (isScopeMark_eq_false_iff.mp (Bool.eq_false_iff.mpr hmark))⟩
      rw [scopePieces, if_neg hmark, List.append_cons]
      exact ih hlonger

theorem scopePieces_gap (hgap : ∀ c ∈ gap, c = ' ' ∨ c = ',') (cs : List Char) :
    scopePieces [] (gap ++ cs) = scopePieces [] cs := by
  induction gap with
  | nil => rfl
  | cons c gap ih =>
    obtain ⟨hc, hgap⟩ := List.forall_mem_cons.mp hgap
    rw [List.cons_append, scopePieces, if_pos (isScopeMark_iff.mpr hc)]
    exact ih hgap

theorem scopePieces_run (hpiece : ∀ c ∈ piece, c ≠ ' ' ∧ c ≠ ',') (before cs : List Char) :
    scopePieces before (piece ++ cs) = scopePieces (before ++ piece) cs := by
  induction piece generalizing before with
  | nil => rw [List.append_nil, List.nil_append]
  | cons c piece ih =>
    obtain ⟨hc, hpiece⟩ := List.forall_mem_cons.mp hpiece
    have hkept : ¬ isScopeMark c = true :=
      Bool.eq_false_iff.mp (isScopeMark_eq_false_iff.mpr hc)
    rw [List.cons_append, scopePieces, if_neg hkept, ih hpiece, List.append_assoc]
    rfl

theorem scopePieces_end (hne : piece ≠ []) (hrest : ∀ c ∈ rest.head?, c = ' ' ∨ c = ',') :
    scopePieces piece rest = piece :: scopePieces [] rest := by
  have hsome : ¬ piece.isEmpty = true := mt List.isEmpty_iff.mp hne
  cases rest with
  | nil => rw [scopePieces, if_neg hsome]; rfl
  | cons c rest =>
    have hmark : isScopeMark c = true := isScopeMark_iff.mpr (hrest c rfl)
    rw [scopePieces, if_pos hmark, if_neg hsome, scopePieces, if_pos hmark]
    rfl

theorem scopePieces_eq_iff : scopePieces [] cs = pieces ↔ ScopePieces cs pieces := by
  constructor
  · rintro rfl
    exact scopePieces_sound forall_mem_nil_unmarked
  · intro h
    -- on the pieces: the reader passes the gap, takes the piece and begins anew behind it
    induction h with
    | @none gap hgap =>
      rw [← List.append_nil gap, scopePieces_gap hgap]
      rfl
    | piece hgap hne hpiece hrest _ ih =>
      rw [scopePieces_gap hgap, scopePieces_run hpiece, List.nil_append,
        scopePieces_end hne hrest, ih]

theorem scopesOf_eq_iff {text : String} {scopes : List String} :
    scopesOf text = scopes ↔ ScopePieces text.toList (scopes.map String.toList) := by
  rw [← scopePieces_eq_iff, scopesOf]
  constructor
  · rintro rfl
    simp [Function.comp_def]
  · intro h
    rw [h]
    simp [Function.comp_def]

/-- Every text falls into pieces in one way. -/
theorem existsUnique_scopes (text : String) :
    ∃! scopes : List String, ScopePieces text.toList (scopes.map String.toList) :=
  ⟨scopesOf text, scopesOf_eq_iff.mp rfl, fun _ h => (scopesOf_eq_iff.mpr h).symm⟩

example : scopesOf "openid, profile,,email " = ["openid", "profile", "email"] := by decide

end Scopes

/-! ### Credentials -/

namespace Credentials

section Parts

variable {α β ε : Type} {x : Except ε α} {f : α → Except ε β}

theorem bind_eq_ok_iff {b : β} : (x >>= f) = .ok b ↔ ∃ a, x = .ok a ∧ f a = .ok b := by
  cases x <;> simp [bind, Except.bind]

theorem bind_eq_error_iff {e : ε} :
    (x >>= f) = .error e ↔ x = .error e ∨ ∃ a, x = .ok a ∧ f a = .error e := by
  cases x <;> simp [bind, Except.bind]

end Parts

section Secrets

variable {spec spec' : IssuerSpec} {data data' : SecretData} {c : Credentials} {e : SignerError}

theorem oauthOfSecret_eq_some_iff : oauthOfSecret spec data = .ok (some c) ↔
    ∃ clientId clientSecret tokenUrl, Gives data "client_id" clientId ∧
      Gives data "client_secret" clientSecret ∧ Gives data "token_url" tokenUrl ∧
      c = .oauth clientId clientSecret tokenUrl (scopesOf (spec.scopes.getD ""))
        (spec.audience.filter (!·.isEmpty)) := by
  simp only [← secretText_eq_some_iff]
  unfold oauthOfSecret
  cases secretText data "client_id" with
  | error e => simp [bind, Except.bind]
  | ok clientId =>
    cases secretText data "client_secret" with
    | error e => simp [bind, Except.bind]
    | ok clientSecret =>
      cases secretText data "token_url" with
      | error e => simp [bind, Except.bind]
      | ok tokenUrl =>
        cases clientId <;> cases clientSecret <;> cases tokenUrl <;>
          simp [bind, Except.bind, pure, Except.pure, eq_comm]

/-! #### Which ones there are -/

/-- A secret gives both a name and a password. -/
def GivesBoth (data : SecretData) : Prop :=
  (∃ username, Gives data "username" username) ∧ ∃ password, Gives data "password" password

theorem ofSecret_of_both {username password : String} (husername : Gives data "username" username)
    (hpassword : Gives data "password" password) :
    ofSecret spec data = .ok (.basic username password) := by
  rw [ofSecret, secretText_eq_some_iff.mpr husername, secretText_eq_some_iff.mpr hpassword]
  rfl

theorem ofSecret_of_not_both {username password : Option String}
    (husername : secretText data "username" = .ok username)
    (hpassword : secretText data "password" = .ok password) (h : ¬ GivesBoth data) :
    ofSecret spec data = (do
      match ← oauthOfSecret spec data with
      | some c => return c
      | none => throw (incomplete username password)) := by
  rw [ofSecret, husername, hpassword]
  cases username with
  | none => rfl
  | some username =>
    cases password with
    | none => rfl
    | some password =>
      exact absurd ⟨⟨_, secretText_eq_some_iff.mp husername⟩,
        ⟨_, secretText_eq_some_iff.mp hpassword⟩⟩ h

theorem not_garbled_of_ofSecret (h : ofSecret spec data = .ok c) :
    ¬ Garbled data "username" ∧ ¬ Garbled data "password" := by
  obtain ⟨username, husername, h⟩ := bind_eq_ok_iff.mp h
  obtain ⟨password, hpassword, -⟩ := bind_eq_ok_iff.mp h
  exact ⟨not_garbled_of_ok husername, not_garbled_of_ok hpassword⟩

/-- Without a name and a password the client identity is looked at, unless one of these two is
there and is no text. -/
theorem ofSecret_eq_ok_iff (hnot : ¬ GivesBoth data) :
    ofSecret spec data = .ok c ↔ ¬ Garbled data "username" ∧ ¬ Garbled data "password" ∧
      oauthOfSecret spec data = .ok (some c) := by
  by_cases hgarbled : Garbled data "username" ∨ Garbled data "password"
  · refine iff_of_false (fun h => ?_) fun h => hgarbled.elim h.1 h.2.1
    exact hgarbled.elim (not_garbled_of_ofSecret h).1 (not_garbled_of_ofSecret h).2
  · obtain ⟨hname, hpass⟩ := not_or.mp hgarbled
    obtain ⟨username, husername⟩ := secretText_of_not_garbled hname
    obtain ⟨password, hpassword⟩ := secretText_of_not_garbled hpass
    rw [ofSecret_of_not_both husername hpassword hnot, bind_eq_ok_iff, and_iff_right hname,
      and_iff_right hpass]
    constructor
    · rintro ⟨found, hfound, hc⟩
      cases found with
      | none => cases hc
      | some found =>
        cases hc
        exact hfound
    · exact fun h => ⟨some c, h, rfl⟩

theorem ofSecret_eq_basic_iff {username password : String} :
    ofSecret spec data = .ok (.basic username password) ↔
      Gives data "username" username ∧ Gives data "password" password := by
  constructor
  · intro h
    by_cases hboth : GivesBoth data
    · obtain ⟨⟨username', husername⟩, password', hpassword⟩ := hboth
      rw [ofSecret_of_both husername hpassword] at h
      cases h
      exact ⟨husername, hpassword⟩
    · obtain ⟨-, -, hoauth⟩ := (ofSecret_eq_ok_iff hboth).mp h
      obtain ⟨_, _, _, -, -, -, hc⟩ := oauthOfSecret_eq_some_iff.mp hoauth
      cases hc
  · exact fun h => ofSecret_of_both h.1 h.2

theorem ofSecret_eq_oauth_iff {clientId clientSecret tokenUrl : String} {scopes : List String}
    {audience : Option String} :
    ofSecret spec data = .ok (.oauth clientId clientSecret tokenUrl scopes audience) ↔
      ¬ GivesBoth data ∧ ¬ Garbled data "username" ∧ ¬ Garbled data "password" ∧
      Gives data "client_id" clientId ∧ Gives data "client_secret" clientSecret ∧
      Gives data "token_url" tokenUrl ∧
      ScopePieces (spec.scopes.getD "").toList (scopes.map String.toList) ∧
      audience = spec.audience.filter (!·.isEmpty) := by
  rw [← scopesOf_eq_iff]
  by_cases hboth : GivesBoth data
  · refine iff_of_false (fun h => ?_) fun h => h.1 hboth
    obtain ⟨⟨username, husername⟩, password, hpassword⟩ := hboth
    rw [ofSecret_of_both husername hpassword] at h
    cases h
  · rw [ofSecret_eq_ok_iff hboth, and_iff_right hboth, oauthOfSecret_eq_some_iff]
    constructor
    · rintro ⟨hname, hpass, _, _, _, hid, hsecret, hurl, hc⟩
      cases hc
      exact ⟨hname, hpass, hid, hsecret, hurl, rfl, rfl⟩
    · rintro ⟨hname, hpass, hid, hsecret, hurl, rfl, rfl⟩
      exact ⟨hname, hpass, _, _, _, hid, hsecret, hurl, rfl⟩

/-! #### Refusals -/

theorem config_of_secretText {key : String} (h : secretText data key = .error e) :
    ∃ text, e = .config text :=
  ⟨_, (secretText_eq_error_iff.mp h).2⟩

theorem config_of_oauthOfSecret (h : oauthOfSecret spec data = .error e) :
    ∃ text, e = .config text := by
  rcases bind_eq_error_iff.mp h with h | ⟨clientId, -, h⟩
  · exact config_of_secretText h
  rcases bind_eq_error_iff.mp h with h | ⟨clientSecret, -, h⟩
  · exact config_of_secretText h
  rcases bind_eq_error_iff.mp h with h | ⟨tokenUrl, -, h⟩
  · exact config_of_secretText h
  cases clientId <;> cases clientSecret <;> cases tokenUrl <;> cases h

theorem config_of_incomplete (username password : Option String) :
    ∃ text, incomplete username password = .config text := by
  unfold incomplete
  split <;> exact ⟨_, rfl⟩

theorem config_of_ofSecret (h : ofSecret spec data = .error e) : ∃ text, e = .config text := by
  by_cases hboth : GivesBoth data
  · obtain ⟨⟨username, husername⟩, password, hpassword⟩ := hboth
    rw [ofSecret_of_both husername hpassword] at h
    cases h
  · cases husername : secretText data "username" with
    | error e' =>
      rw [ofSecret, husername] at h
      cases h
      exact config_of_secretText husername
    | ok username =>
      cases hpassword : secretText data "password" with
      | error e' =>
        rw [ofSecret, husername, hpassword] at h
        cases h
        exact config_of_secretText hpassword
      | ok password =>
        rw [ofSecret_of_not_both husername hpassword hboth] at h
        rcases bind_eq_error_iff.mp h with h | ⟨found, -, h⟩
        · exact config_of_oauthOfSecret h
        · cases found with
          | some c => cases h
          | none =>
            cases h
            exact config_of_incomplete username password

/-! #### What they are made of -/

/-- The keys under which a secret may hold credentials. -/
def keys : List String := ["username", "password", "client_id", "client_secret", "token_url"]

theorem ofSecret_congr (hscopes : spec'.scopes = spec.scopes)
    (haudience : spec'.audience = spec.audience)
    (hdata : ∀ key ∈ keys, data'.get? key = data.get? key) :
    ofSecret spec' data' = ofSecret spec data := by
  have htext {key : String} (hkey : key ∈ keys) : secretText data' key = secretText data key :=
    secretText_congr (hdata key hkey)
  have hoauth : oauthOfSecret spec' data' = oauthOfSecret spec data := by
    unfold oauthOfSecret
    rw [htext (by decide : "client_id" ∈ keys), htext (by decide : "client_secret" ∈ keys),
      htext (by decide : "token_url" ∈ keys), hscopes, haudience]
  unfold ofSecret
  rw [htext (by decide : "username" ∈ keys), htext (by decide : "password" ∈ keys), hoauth]

/-- Every refusal is for the configuration. Nothing matters but what the secret holds under the five
keys and the scopes and the audience of the spec. A name and a password are the credentials if they
are both given, and otherwise a client identity is if all of its parts are given, unless the name or
the password is no text. Its scopes are the one list of pieces that the spec's text falls into. -/
theorem ofSecret_decided (spec : IssuerSpec) (data : SecretData) :
    (∀ e, ofSecret spec data = .error e → ∃ text, e = .config text) ∧
    (∀ spec' data', spec'.scopes = spec.scopes → spec'.audience = spec.audience →
      (∀ key ∈ keys, SecretData.get? data' key = data.get? key) →
        ofSecret spec' data' = ofSecret spec data) ∧
    (∀ username password, ofSecret spec data = .ok (.basic username password) ↔
      Gives data "username" username ∧ Gives data "password" password) ∧
    (∀ clientId clientSecret tokenUrl scopes audience,
      ofSecret spec data = .ok (.oauth clientId clientSecret tokenUrl scopes audience) ↔
        ¬ GivesBoth data ∧ ¬ Garbled data "username" ∧ ¬ Garbled data "password" ∧
        Gives data "client_id" clientId ∧ Gives data "client_secret" clientSecret ∧
        Gives data "token_url" tokenUrl ∧
        ScopePieces (spec.scopes.getD "").toList (scopes.map String.toList) ∧
        audience = spec.audience.filter (!·.isEmpty)) ∧
    ∃! scopes : List String, ScopePieces (spec.scopes.getD "").toList (scopes.map String.toList) :=
  ⟨fun _ => config_of_ofSecret, fun _ _ => ofSecret_congr, fun _ _ => ofSecret_eq_basic_iff,
    fun _ _ _ _ _ => ofSecret_eq_oauth_iff, existsUnique_scopes _⟩

/-- A spec that lists scopes and leaves the audience empty. -/
def scopedSpec : IssuerSpec where
  hostname := "ca.example.com"
  apiPath := IssuerSpec.defaultApiPath
  commandSecretName := "command-credentials"
  caSecretName := none
  secretNamespace := none
  certificateTemplate := "WebServer"
  certificateAuthorityLogicalName := "CA"
  certificateAuthorityHostname := none
  scopes := some "openid, email"
  audience := some ""

/-- A client identity beside a blank password. -/
def blankPassword : SecretData :=
  [("client_id", Text.toBytes " id"), ("client_secret", Text.toBytes "pw"),
    ("password", Text.toBytes " "), ("token_url", Text.toBytes "https://idp/token"),
    ("username", Text.toBytes "svc")]

/-- A blank password is none, bytes under another key do not matter, and bytes that are no text are
refused. -/
theorem ofSecret_decided_blank :
    ofSecret scopedSpec (SecretData.insert "note" [0xff] blankPassword) =
      .ok (.oauth "id" "pw" "https://idp/token" ["openid", "email"] none) ∧
    ∃ text, ofSecret scopedSpec [("username", [0xff])] = .error (.config text) := by
  have hpassword : ¬ GivesBoth blankPassword := by
    rintro ⟨-, password, hpassword⟩
    have hfound : secretText blankPassword "password" = .ok (Text.trimmed? " ") :=
      secretText_of_text rfl
    have hblank : Text.trimmed? " " = none := by decide
    rw [hblank, secretText_eq_some_iff.mpr hpassword] at hfound
    cases hfound
  obtain ⟨-, hcongr, -, hoauth, -⟩ := ofSecret_decided scopedSpec blankPassword
  obtain ⟨hrefusal, -⟩ := ofSecret_decided scopedSpec [("username", [0xff])]
  constructor
  · rw [hcongr scopedSpec _ rfl rfl (by decide)]
    exact (hoauth _ _ _ _ _).mpr ⟨hpassword, not_garbled_of_ok (secretText_of_text rfl),
      not_garbled_of_ok (secretText_of_text rfl), gives_of_text rfl (by decide),
      gives_of_text rfl (by decide), gives_of_text rfl (by decide), scopesOf_eq_iff.mp (by decide),
      by decide⟩
  · cases h : ofSecret scopedSpec [("username", [0xff])] with
    | error e =>
      obtain ⟨text, rfl⟩ := hrefusal e h
      exact ⟨text, rfl⟩
    | ok c =>
      have hgarbled : Garbled [("username", [0xff])] "username" := ⟨[0xff], rfl, by decide +kernel⟩
      exact absurd hgarbled (not_garbled_of_ofSecret h).1

end Secrets

end Credentials

end CertIssuer.Authority
