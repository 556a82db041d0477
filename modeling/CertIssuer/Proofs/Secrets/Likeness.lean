import CertIssuer.Proofs.Authority.Masking
import Mathlib.Data.List.Forall2

/-!
# Secrets that differ in a password

Two secrets may hold different values under the keys for a password and for the secret of a client,
and the same under all others. What is made of them is then alike at each stage: credentials that
differ in the secret only, a client with such credentials, and in all else the same failure. None of
this shows in the text that stands for credentials, secrets or a configuration.
-/

namespace CertIssuer

/-! ### Contents -/

/-- The keys whose values are secret. -/
def secretKeys : List String := ["password", "client_secret"]

/-- What a value is good for: nothing unless it is UTF-8, or else whether it is more than blanks. -/
def legible? (value : Text.Bytes) : Option Bool :=
  (Text.toText? value).map fun text => (Text.trimmed? text).isSome

namespace SecretData

variable {similar : Text.Bytes → Text.Bytes → Prop} {d d' : SecretData}

/-- The same contents, except that values under the secret keys need only be similar. -/
def SameBut (similar : Text.Bytes → Text.Bytes → Prop) : SecretData → SecretData → Prop :=
  List.Forall₂ fun e e' => e.1 = e'.1 ∧ (e.2 = e'.2 ∨ e.1 ∈ secretKeys ∧ similar e.2 e'.2)

/-- Contents that differ in secrets only, each of them as legible as the other. -/
def Alike : SecretData → SecretData → Prop :=
  SameBut fun value value' => legible? value = legible? value'

theorem SameBut.keys_eq (h : SameBut similar d d') : d.keys = d'.keys := by
  induction h with
  | nil => rfl
  | cons h _ ih => exact congrArg₂ List.cons h.1 ih

theorem SameBut.get? (h : SameBut similar d d') (key : String) :
    Option.Rel (fun value value' => value = value' ∨ key ∈ secretKeys ∧ similar value value')
      (d.get? key) (d'.get? key) := by
  induction h with
  | nil => exact .none
  | @cons e e' rest rest' h _ ih =>
    obtain ⟨hkey, hvalue⟩ := h
    unfold SecretData.get? at ih ⊢
    by_cases hfound : e.1 = key
    · rw [List.find?_cons_of_pos (by simpa using hfound),
        List.find?_cons_of_pos (by simpa [← hkey] using hfound)]
      exact .some (hfound ▸ hvalue)
    · rw [List.find?_cons_of_neg (by simpa using hfound),
        List.find?_cons_of_neg (by simpa [← hkey] using hfound)]
      exact ih

end SecretData

structure IssuerSecrets.Alike (s s' : IssuerSecrets) : Prop where
  credentials : s.credentials.Alike s'.credentials
  ca : Option.Rel SecretData.Alike s.ca s'.ca

namespace Authority

variable (spec : IssuerSpec) (timeout : Span) {d d' : SecretData} {s s' : IssuerSecrets}

/-! ### Texts of a secret -/

theorem secretText_eq (h : d.Alike d') (key : String) (hkey : key ∉ secretKeys) :
    secretText d key = secretText d' key := by
  have hget := h.get? key
  unfold secretText
  generalize d.get? key = found, d'.get? key = found' at hget ⊢
  cases hget with
  | none => rfl
  | some hsame =>
    obtain rfl | ⟨hsecret, -⟩ := hsame
    · rfl
    · exact absurd hsecret hkey

/-- Texts of which both or neither are there. -/
abbrev BothOrNeither : Option String → Option String → Prop := Option.Rel fun _ _ => True

theorem bothOrNeither_of_isSome_eq :
    ∀ {text text' : Option String}, text.isSome = text'.isSome → BothOrNeither text text'
  | none, none, _ => .none
  | some _, some _, _ => .some trivial

theorem secretText_alike (h : d.Alike d') (key : String) :
    SameOutcome BothOrNeither (secretText d key) (secretText d' key) := by
  have hget := h.get? key
  unfold secretText
  generalize d.get? key = found, d'.get? key = found' at hget ⊢
  cases hget with
  | none => exact .ok .none
  | @some value value' hsame =>
    have hlegible : legible? value = legible? value' := by
      obtain rfl | ⟨-, hlegible⟩ := hsame
      · rfl
      · exact hlegible
    unfold legible? at hlegible
    cases hvalue : Text.toText? value with
    | none =>
      rw [hvalue, Option.map_none, eq_comm, Option.map_eq_none_iff] at hlegible
      simp only [hvalue, hlegible]
      exact .error _
    | some text =>
      rw [hvalue, Option.map_some, eq_comm, Option.map_eq_some_iff] at hlegible
      obtain ⟨text', hvalue', hblank⟩ := hlegible
      simp only [hvalue, hvalue']
      exact .ok (bothOrNeither_of_isSome_eq hblank.symm)

/-! ### Credentials -/

theorem oauthOfSecret_alike (h : d.Alike d') :
    SameOutcome (Option.Rel Credentials.Alike) (Credentials.oauthOfSecret spec d)
      (Credentials.oauthOfSecret spec d') := by
  unfold Credentials.oauthOfSecret
  rw [secretText_eq h "client_id" (by decide),
    secretText_eq h "token_url" (by decide)]
  refine (SameOutcome.refl _).bind ?_
  rintro clientId _ rfl
  refine (secretText_alike h "client_secret").bind fun clientSecret clientSecret' hsecret => ?_
  refine (SameOutcome.refl _).bind ?_
  rintro tokenUrl _ rfl
  cases clientId with
  | none => exact .ok .none
  | some clientId =>
    cases hsecret with
    | none => exact .ok .none
    | some _ =>
      cases tokenUrl with
      | none => exact .ok .none
      | some tokenUrl => exact .ok (.some (.oauth _ _ _ _ _ _))

theorem ofSecret_alike (h : d.Alike d') :
    SameOutcome Credentials.Alike (Credentials.ofSecret spec d) (Credentials.ofSecret spec d') := by
  unfold Credentials.ofSecret
  rw [secretText_eq h "username" (by decide)]
  refine (SameOutcome.refl _).bind ?_
  rintro username _ rfl
  refine (secretText_alike h "password").bind fun password password' hpassword => ?_
  have hother {f f' : Option Credentials → Except SignerError Credentials}
      (hnone : SameOutcome Credentials.Alike (f none) (f' none))
      (hsome : ∀ c c', c.Alike c' → SameOutcome Credentials.Alike (f (some c)) (f' (some c'))) :
      SameOutcome Credentials.Alike (Credentials.oauthOfSecret spec d >>= f)
        (Credentials.oauthOfSecret spec d' >>= f') := by
    refine (oauthOfSecret_alike spec h).bind fun found found' hfound => ?_
    cases hfound with
    | none => exact hnone
    | some hc => exact hsome _ _ hc
  have hincomplete : Credentials.incomplete username password =
      Credentials.incomplete username password' := by
    cases hpassword <;> rfl
  cases username with
  | none =>
    rw [hincomplete]
    exact hother (.error _) fun _ _ hc => .ok hc
  | some username =>
    cases hpassword with
    | none => exact hother (.error _) fun _ _ hc => .ok hc
    | some _ => exact .ok (.basic _ _ _)

/-! ### Clients -/

/-- Configurations that differ only in what the credentials keep secret. -/
structure ClientConfig.Alike (c c' : ClientConfig) : Prop where
  credentials : c.credentials.Alike c'.credentials
  rest : c' = { c with credentials := c'.credentials }

theorem ClientConfig.Alike.describe_eq {c c' : ClientConfig} (h : c.Alike c') :
    c.describe = c'.describe := by
  rw [h.rest]
  simp only [ClientConfig.describe, h.credentials.describe_eq]

theorem describeSecrets_eq (h : s.Alike s') : describeSecrets s = describeSecrets s' := by
  obtain ⟨credentials, ca⟩ := s
  obtain ⟨credentials', ca'⟩ := s'
  obtain ⟨hcredentials, hca⟩ := h
  have hsome : ca.isSome = ca'.isSome := by cases hca <;> rfl
  simp only [describeSecrets, hcredentials.keys_eq, hsome]

theorem caBundle_eq (h : s.Alike s') : caBundle s = caBundle s' := by
  obtain ⟨credentials, ca⟩ := s
  obtain ⟨credentials', ca'⟩ := s'
  unfold caBundle
  cases h.ca with
  | none => rfl
  | some hdata =>
    dsimp only
    rw [secretText_eq hdata bundleKey (by decide)]

theorem clientConfig_alike (h : s.Alike s') :
    SameOutcome ClientConfig.Alike (clientConfig spec s timeout)
      (clientConfig spec s' timeout) := by
  unfold clientConfig
  split
  · exact .error _
  · refine (ofSecret_alike spec h.credentials).bind fun credentials credentials' hcredentials => ?_
    rw [caBundle_eq h]
    refine (SameOutcome.refl _).bind ?_
    rintro bundle _ rfl
    exact .ok ⟨hcredentials, rfl⟩

theorem ofConfig_alike {c c' : ClientConfig} (h : c.Alike c') :
    SameOutcome Client.Alike (Client.ofConfig c) (Client.ofConfig c') := by
  obtain ⟨hcredentials, hrest⟩ := h
  generalize c'.credentials = credentials' at hcredentials hrest
  subst hrest
  have hclient : Client.Alike ⟨baseUrl c.hostname c.apiPath, c.credentials⟩
      ⟨baseUrl c.hostname c.apiPath, credentials'⟩ := ⟨rfl, hcredentials⟩
  unfold Client.ofConfig
  dsimp only
  by_cases hhost : Text.isBlankText c.hostname = true
  · rw [if_pos hhost, if_pos hhost]
    exact .error _
  · rw [if_neg hhost, if_neg hhost]
    cases c.caBundle with
    | none => exact .ok hclient
    | some bundle =>
      refine (SameOutcome.refl (checkBundle bundle)).bind ?_
      rintro ⟨⟩ _ rfl
      exact .ok hclient

theorem signerResult_alike {α β : Type} {Alike : α → β → Prop} {x : Except CallError α}
    {y : Except CallError β} (h : SameOutcome Alike x y) :
    SameOutcome Alike (signerResult x) (signerResult y) := by
  cases h with
  | ok h => exact .ok h
  | error e => exact .error _

theorem buildChecker_alike (h : s.Alike s') :
    SameOutcome Client.Alike (buildChecker spec s timeout) (buildChecker spec s' timeout) :=
  (clientConfig_alike spec timeout h).bind fun _ _ hconfig =>
    signerResult_alike (ofConfig_alike hconfig)

theorem buildSigner_alike (h : s.Alike s') :
    SameOutcome (fun built built' => built.1.Alike built'.1 ∧ built.2 = built'.2)
      (buildSigner spec s timeout) (buildSigner spec s' timeout) := by
  refine (buildChecker_alike spec timeout h).bind fun client client' hclient => ?_
  refine (SameOutcome.refl _).bind ?_
  rintro signer _ rfl
  exact .ok ⟨hclient, rfl⟩

end Authority

end CertIssuer
