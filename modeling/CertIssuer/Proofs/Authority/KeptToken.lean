import CertIssuer.Proofs.Authority.Tokens

/-!
# The kept token

What a client has heard in all its calls says which token it keeps (`Remembers`): the one that was
granted last, unless it was refused since. So it also says whether the next call asks for a token,
and which one its request shows (`token_kept`).
-/

namespace CertIssuer.Authority

/-! ### What was heard in the calls before -/

/-- The last grant, and what was heard since. -/
def sinceGrant? : CallCourse → Option ((String × Option Nat) × CallCourse)
  | [] => none
  | x :: rest =>
    match sinceGrant? rest with
    | some found => some found
    | none => (grantOf? x).map fun grant => (grant, rest)

/-- The token that was granted last. -/
def latestToken? (heard : CallCourse) : Option String := (sinceGrant? heard).map (·.1.1)

/-- A token was granted, it was not refused since, and if it expires, then not soon. -/
def Usable (history : CallCourse) (now : Instant) : Prop :=
  ∃ value expiresIn since, sinceGrant? history = some ((value, expiresIn), since) ∧
    (∀ y ∈ since, refuses y = false) ∧
    ∀ seconds, expiresIn = some seconds →
      ∃ obtained, since.head? = some ⟨.clock, obtained⟩ ∧
        now.sinceStart + tokenSlack < obtained.sinceStart + .ofSeconds seconds

/-- A token is asked for, be it that the request cannot even be sent. -/
def AsksForToken (heard : CallCourse) (result : Except CallError Unit) : Prop :=
  (∃ x ∈ heard, isTokenRequest x = true) ∨
    Silent heard ∧ ∃ text, result = .error (.authentication text)

/-- Until something is sent, the clock shows this time. -/
def BeginsAt (now : Instant) (heard : CallCourse) : Prop :=
  ∀ before i after, heard = before ++ ⟨.clock, i⟩ :: after → Silent before → i = now

/-! ### What is remembered -/

/-- Neither a grant nor a refusal. -/
def Quiet (heard : CallCourse) : Prop := ∀ y ∈ heard, grantOf? y = none ∧ refuses y = false

theorem Silent.quiet {heard : CallCourse} (h : Silent heard) : Quiet heard := by
  intro y hy
  have hsilent := h y hy
  obtain ⟨q, answer⟩ := y
  cases q with
  | exchange request => cases hsilent
  | _ => exact ⟨rfl, rfl⟩

section Memory

variable {history later : CallCourse} {x : CallHearing} {grant : String × Option Nat}
  {kept : Option Token}

theorem sinceGrant?_append (history : CallCourse) (h : ∀ y ∈ later, grantOf? y = none) :
    sinceGrant? (history ++ later) =
      (sinceGrant? history).map fun (grant, since) => (grant, since ++ later) := by
  induction history with
  | nil =>
    show sinceGrant? later = none
    induction later with
    | nil => rfl
    | cons y rest ih =>
      obtain ⟨hy, hrest⟩ := List.forall_mem_cons.mp h
      rw [sinceGrant?, ih hrest, hy]
      rfl
  | cons y rest ih =>
    rw [List.cons_append, sinceGrant?, sinceGrant?, ih]
    cases sinceGrant? rest with
    | some found => rfl
    | none => cases grantOf? y <;> rfl

theorem sinceGrant?_grant (hx : grantOf? x = some grant) (h : ∀ y ∈ later, grantOf? y = none) :
    sinceGrant? (history ++ x :: later) = some (grant, later) := by
  have hlater : sinceGrant? later = none := sinceGrant?_append [] h
  induction history with
  | nil =>
    rw [List.nil_append, sinceGrant?, hlater, hx]
    rfl
  | cons y rest ih => rw [List.cons_append, sinceGrant?, ih]

/-- What a client keeps after all that it has heard. -/
inductive Remembers (history : CallCourse) : Option Token → Prop
  | never : sinceGrant? history = none → Remembers history none
  | refused {grant : String × Option Nat} {since : CallCourse} :
      sinceGrant? history = some (grant, since) → (∃ y ∈ since, refuses y = true) →
        Remembers history none
  | live {value : String} {expiresIn : Option Nat} {dating rest : CallCourse}
    {expiresAt : Option Instant} :
      sinceGrant? history = some ((value, expiresIn), dating ++ rest) →
      Dated expiresIn dating expiresAt → (∀ y ∈ dating ++ rest, refuses y = false) →
        Remembers history (some ⟨value, expiresAt⟩)

namespace Remembers

theorem quiet (h : Remembers history kept) (hquiet : Quiet later) :
    Remembers (history ++ later) kept := by
  have happend := sinceGrant?_append history fun y hy => (hquiet y hy).1
  cases h with
  | never hnone =>
    rw [hnone] at happend
    exact .never happend
  | refused hsome hrefused =>
    rw [hsome] at happend
    obtain ⟨y, hy, hrefuses⟩ := hrefused
    exact .refused happend ⟨y, List.mem_append_left _ hy, hrefuses⟩
  | live hsome hdated haccepted =>
    rw [hsome] at happend
    dsimp only [Option.map] at happend
    rw [List.append_assoc] at happend
    refine .live happend hdated ?_
    rw [← List.append_assoc]
    exact List.forall_mem_append.mpr ⟨haccepted, fun y hy => (hquiet y hy).2⟩

theorem refuse {t : Token} (h : Remembers history (some t)) (hx : grantOf? x = none)
    (hrefuses : refuses x = true) : Remembers (history ++ [x]) none := by
  have happend := sinceGrant?_append history (List.forall_mem_singleton.mpr hx)
  cases h with
  | live hsome _ _ =>
    rw [hsome] at happend
    exact .refused happend ⟨x, List.mem_append_right _ List.mem_cons_self, hrefuses⟩

theorem of_grant {value : String} {expiresIn : Option Nat} {dating : CallCourse}
    {expiresAt : Option Instant} (hx : grantOf? x = some (value, expiresIn))
    (hdated : Dated expiresIn dating expiresAt) :
    Remembers (history ++ x :: dating) (some ⟨value, expiresAt⟩) := by
  have hquiet := hdated.silent.quiet
  have hsome : sinceGrant? (history ++ x :: dating) = some ((value, expiresIn), dating ++ []) := by
    rw [List.append_nil]
    exact sinceGrant?_grant hx fun y hy => (hquiet y hy).1
  refine .live hsome hdated ?_
  rw [List.append_nil]
  exact fun y hy => (hquiet y hy).2

theorem latestToken {t : Token} (h : Remembers history (some t)) :
    latestToken? history = some t.value := by
  cases h with
  | live hsome _ _ => rw [latestToken?, hsome]; rfl

/-- The kept token can be used when what was heard says so. -/
theorem usable_iff (h : Remembers history kept) (now : Instant) :
    Usable history now ↔ ∃ t, kept = some t ∧
      ∀ expiry, t.expiresAt = some expiry → now.sinceStart + tokenSlack < expiry.sinceStart := by
  constructor
  · rintro ⟨value, expiresIn, since, hsince, haccepted, hfresh⟩
    cases h with
    | never hnone =>
      rw [hnone] at hsince
      cases hsince
    | refused hsome hrefused =>
      rw [hsome] at hsince
      cases hsince
      obtain ⟨y, hy, hrefuses⟩ := hrefused
      rw [haccepted y hy] at hrefuses
      cases hrefuses
    | live hsome hdated _ =>
      rw [hsome] at hsince
      cases hsince
      refine ⟨_, rfl, ?_⟩
      rintro expiry hexpiry
      cases hdated with
      | never => cases hexpiry
      | expiring hsum =>
        cases hexpiry
        obtain ⟨obtained, hobtained, hlt⟩ := hfresh _ rfl
        cases hobtained
        rw [hsum]
        exact hlt
  · rintro ⟨t, rfl, hfresh⟩
    cases h with
    | live hsome hdated haccepted =>
      refine ⟨_, _, _, hsome, haccepted, ?_⟩
      rintro seconds rfl
      cases hdated with
      | expiring hsum => exact ⟨_, rfl, hsum ▸ hfresh _ rfl⟩

end Remembers

end Memory

/-! ### Calls and what is remembered -/

section Calls

variable {history heard : CallCourse} {kept left : Option Token}

theorem grantOf?_of_api {x : CallHearing} (h : isApiRequest x = true) : grantOf? x = none := by
  unfold grantOf?
  split
  · cases h
  · rfl

theorem refuses_of_token {x : CallHearing} (h : isTokenRequest x = true) : refuses x = false := by
  obtain ⟨q, answer⟩ := x
  cases q with
  | exchange request =>
    obtain ⟨method, url, headers, body⟩ := request
    cases body with
    | form fields => rfl
    | _ => cases h
  | _ => cases h

theorem Asked.remembers {result : Except CallError String} (h : Asked kept heard result left)
    (hkept : Remembers history kept) : Remembers (history ++ heard) left := by
  cases h with
  | unsent text => rwa [List.append_nil]
  | denied text htoken hnone =>
    exact hkept.quiet (List.forall_mem_singleton.mpr ⟨hnone, refuses_of_token htoken⟩)
  | granted _ hgrant hdated => exact .of_grant hgrant hdated

theorem Obtained.remembers {result : Except CallError String} (h : Obtained kept heard result left)
    (hkept : Remembers history kept) : Remembers (history ++ heard) left := by
  cases h with
  | cached _ hlooked => exact hkept.quiet hlooked.silent.quiet
  | missing _ hasked => exact hasked.remembers hkept
  | outdated _ hlooked hasked =>
    rw [← List.append_assoc]
    exact hasked.remembers (hkept.quiet hlooked.silent.quiet)

/-- What is shown is what is kept. -/
theorem Obtained.kept_value {value : String} (h : Obtained kept heard (.ok value) left) :
    ∃ expiresAt, left = some ⟨value, expiresAt⟩ := by
  have hasked {asking : CallCourse} (h : Asked kept asking (.ok value) left) :
      ∃ expiresAt, left = some ⟨value, expiresAt⟩ := by
    cases h
    exact ⟨_, rfl⟩
  cases h with
  | cached hsome _ => exact ⟨_, hsome⟩
  | missing _ h => exact hasked h
  | outdated _ _ h => exact hasked h

theorem Sent.remembers {α : Type} {result : Except CallError α} (h : Sent kept heard result left)
    (hkept : Remembers history kept) : Remembers (history ++ heard) left := by
  cases h with
  | unauthenticated h | unsent _ h => exact h.remembers hkept
  | @sent heard value mid x _ hobtained hapi _ =>
    have hmid := hobtained.remembers hkept
    rw [← List.append_assoc]
    cases hrefuses : refuses x with
    | false => exact hmid.quiet (List.forall_mem_singleton.mpr ⟨grantOf?_of_api hapi, hrefuses⟩)
    | true =>
      obtain ⟨expiresAt, rfl⟩ := hobtained.kept_value
      exact hmid.refuse (grantOf?_of_api hapi) hrefuses

theorem Job.remembers {c : Client} {clientId clientSecret tokenUrl : String}
    {scopes : List String} {audience : Option String}
    (hc : c.credentials = .oauth clientId clientSecret tokenUrl scopes audience) {job : Job}
    {result : Except CallError Unit} (h : (job.call c).Goes kept heard (ended result) left)
    (hkept : Remembers history kept) : Remembers (history ++ heard) left := by
  obtain ⟨opening, sending, answer, rfl, hopening, hsent, -⟩ := Job.goes_call hc h
  rw [← List.append_assoc]
  exact hsent.remembers (hkept.quiet hopening.quiet)

/-- What a client has heard in the calls that it made one after the other, none of which ran into
the end of the clock, and the token that it keeps. -/
inductive Session (c : Client) : CallCourse → Option Token → Prop
  | opened : Session c [] none
  | called {history heard : CallCourse} {kept left : Option Token} {job : Job}
    {result : Except CallError Unit} : Session c history kept →
      (job.call c).Goes kept heard (ended result) left → Session c (history ++ heard) left

theorem Session.remembers {c : Client} {clientId clientSecret tokenUrl : String}
    {scopes : List String} {audience : Option String}
    (hc : c.credentials = .oauth clientId clientSecret tokenUrl scopes audience)
    (h : Session c history kept) : Remembers history kept := by
  induction h with
  | opened => exact .never rfl
  | called _ hcall ih => exact Job.remembers hc hcall ih

end Calls

/-! ### The rules of a session -/

/-- What a call does with the kept token, after what was heard in the calls before. -/
structure KeepsToken (history heard : CallCourse) (kept left : Option Token) (now : Instant)
    (result : Except CallError Unit) : Prop where
  requests : ∃ asking sending, heard.filter isExchange = asking ++ sending ∧
    asking.length ≤ 1 ∧ sending.length ≤ 1 ∧ (∀ x ∈ asking, isTokenRequest x = true) ∧
      ∀ x ∈ sending, isApiRequest x = true
  shows : ∀ x ∈ heard, isApiRequest x = true → ∃ before value, heard = before ++ [x] ∧
    latestToken? (history ++ before) = some value ∧ authorizationOf? x = some ("Bearer " ++ value)
  reuses : ¬ AsksForToken heard result ↔ Usable history now
  fails : AsksForToken heard result → (∀ x ∈ heard, grantOf? x = none) →
    (∀ x ∈ heard, isApiRequest x = false) ∧ left = kept ∧
      ∃ e, result = .error e ∧ e.isTransient = true ∧ ∃ text, e = .authentication text

section Rules

variable {history heard : CallCourse} {kept left : Option Token} {now : Instant}

theorem BeginsAt.of_append {later : CallCourse} (h : BeginsAt now (heard ++ later)) :
    BeginsAt now heard := by
  rintro before i after rfl hsilent
  exact h before i (after ++ later) (by simp) hsilent

theorem filter_silent (h : Silent heard) : heard.filter isExchange = [] :=
  List.filter_eq_nil_iff.mpr fun x hx => by simp [h x hx]

theorem Asked.denies {e : CallError} (h : Asked kept heard (.error e) left) :
    (heard = [] ∨ ∃ x ∈ heard, isTokenRequest x = true) ∧ left = kept ∧
      ∃ text, e = .authentication text := by
  cases h with
  | unsent text => exact ⟨.inl rfl, rfl, text, rfl⟩
  | denied text htoken _ => exact ⟨.inr ⟨_, List.mem_cons_self, htoken⟩, rfl, text, rfl⟩

theorem Asked.grants {value : String} (h : Asked kept heard (.ok value) left) :
    ∃ x ∈ heard, isTokenRequest x = true ∧ grantOf? x ≠ none := by
  cases h with
  | granted htoken hgrant _ => exact ⟨_, List.mem_cons_self, htoken, by simp [hgrant]⟩

theorem Asked.requests {token : Except CallError String} (h : Asked kept heard token left) :
    (heard.filter isExchange).length ≤ 1 ∧
      ∀ x ∈ heard, isExchange x = true → isTokenRequest x = true := by
  cases h with
  | unsent text => exact ⟨Nat.zero_le 1, List.forall_mem_nil _⟩
  | denied text htoken _ =>
    exact ⟨List.length_filter_le _ _, List.forall_mem_singleton.mpr fun _ => htoken⟩
  | granted htoken _ hdated =>
    constructor
    · rw [List.filter_cons_of_pos (isExchange_of_token htoken), filter_silent hdated.silent]
      exact Nat.le_refl 1
    · refine List.forall_mem_cons.mpr ⟨fun _ => htoken, fun y hy hexchange => ?_⟩
      rw [hdated.silent y hy] at hexchange
      cases hexchange

/-- Nothing but a token is asked for before the request is sent. -/
theorem Obtained.requests {token : Except CallError String} (h : Obtained kept heard token left) :
    (heard.filter isExchange).length ≤ 1 ∧
      ∀ x ∈ heard, isExchange x = true → isTokenRequest x = true := by
  cases h with
  | cached _ hlooked =>
    rw [filter_silent hlooked.silent]
    refine ⟨Nat.zero_le 1, fun x hx hexchange => ?_⟩
    rw [hlooked.silent x hx] at hexchange
    cases hexchange
  | missing _ hasked => exact hasked.requests
  | outdated _ hlooked hasked =>
    rw [List.filter_append, filter_silent hlooked.silent]
    refine ⟨hasked.requests.1, List.forall_mem_append.mpr ⟨fun x hx hexchange => ?_, ?_⟩⟩
    · rw [hlooked.silent x hx] at hexchange
      cases hexchange
    · exact hasked.requests.2

theorem Obtained.not_api {token : Except CallError String} (h : Obtained kept heard token left)
    {x : CallHearing} (hx : x ∈ heard) : isApiRequest x = false := by
  rw [Bool.eq_false_iff]
  intro hapi
  obtain ⟨hexchange, hother⟩ := isApiRequest_iff.mp hapi
  rw [h.requests.2 x hx hexchange] at hother
  cases hother

/-- The kept token is used as it is, or a token is asked for. -/
theorem Obtained.reuses {token : Except CallError String} (h : Obtained kept heard token left)
    (hkept : Remembers history kept) (hnow : BeginsAt now heard) :
    Usable history now ∧ Silent heard ∧ (∃ value, token = .ok value) ∨
      ¬ Usable history now ∧ ∃ looking asking, heard = looking ++ asking ∧ Silent looking ∧
        Asked kept asking token left := by
  cases h with
  | @cached t _ hsome hlooked =>
    refine .inl ⟨(hkept.usable_iff now).mpr ⟨t, hsome, fun expiry hexpiry => ?_⟩, hlooked.silent,
      _, rfl⟩
    cases hlooked with
    | lasting hnone =>
      rw [hnone] at hexpiry
      cases hexpiry
    | dated hdate hfresh =>
      rw [hdate] at hexpiry
      cases hexpiry
      rw [← hnow [] _ [] rfl (List.forall_mem_nil _)]
      exact hfresh.mp rfl
  | missing hnone hasked =>
    refine .inr ⟨fun husable => ?_, [], heard, rfl, List.forall_mem_nil _, hasked⟩
    obtain ⟨t, hsome, -⟩ := (hkept.usable_iff now).mp husable
    rw [hnone] at hsome
    cases hsome
  | @outdated t looking asking _ _ hsome hlooked hasked =>
    refine .inr ⟨fun husable => ?_, looking, asking, rfl, hlooked.silent, hasked⟩
    obtain ⟨t', hsame, hlong⟩ := (hkept.usable_iff now).mp husable
    rw [hsome] at hsame
    cases hsame
    cases hlooked with
    | dated hdate hfresh =>
      have hshort := hlong _ hdate
      rw [← hnow [] _ asking rfl (List.forall_mem_nil _)] at hshort
      cases hfresh.mpr hshort

section Sending

variable {α : Type} {answer : Except CallError α} (h : Sent kept heard answer left)

include h

theorem Sent.requests :
    ∃ asking sending, heard.filter isExchange = asking ++ sending ∧
      asking.length ≤ 1 ∧ sending.length ≤ 1 ∧ (∀ x ∈ asking, isTokenRequest x = true) ∧
        ∀ x ∈ sending, isApiRequest x = true := by
  have hasking {obtaining : CallCourse} {token : Except CallError String} {mid : Option Token}
      (hobtained : Obtained kept obtaining token mid) :
      (obtaining.filter isExchange).length ≤ 1 ∧
        ∀ x ∈ obtaining.filter isExchange, isTokenRequest x = true := by
    refine ⟨hobtained.requests.1, fun x hx => ?_⟩
    obtain ⟨hmem, hexchange⟩ := List.mem_filter.mp hx
    exact hobtained.requests.2 x hmem hexchange
  cases h with
  | unauthenticated hobtained | unsent _ hobtained =>
    obtain ⟨hone, htokens⟩ := hasking hobtained
    exact ⟨_, [], (List.append_nil _).symm, hone, Nat.zero_le 1, htokens, List.forall_mem_nil _⟩
  | @sent obtaining value mid x _ hobtained hapi _ =>
    obtain ⟨hone, htokens⟩ := hasking hobtained
    refine ⟨_, [x], ?_, hone, Nat.le_refl 1, htokens, List.forall_mem_singleton.mpr hapi⟩
    rw [List.filter_append, List.filter_cons_of_pos (isApiRequest_iff.mp hapi).1]
    rfl

/-- The request comes last, and shows the token that was granted last. -/
theorem Sent.shows (hkept : Remembers history kept) {x : CallHearing} (hx : x ∈ heard)
    (hapi : isApiRequest x = true) :
    ∃ before value, heard = before ++ [x] ∧ latestToken? (history ++ before) = some value ∧
      authorizationOf? x = some ("Bearer " ++ value) := by
  cases h with
  | unauthenticated hobtained | unsent _ hobtained =>
    rw [hobtained.not_api hx] at hapi
    cases hapi
  | @sent obtaining value mid _ _ hobtained _ hshows =>
    rcases List.mem_append.mp hx with hx | hx
    · rw [hobtained.not_api hx] at hapi
      cases hapi
    · cases List.mem_singleton.mp hx
      obtain ⟨expiresAt, rfl⟩ := hobtained.kept_value
      exact ⟨obtaining, value, rfl, (hobtained.remembers hkept).latestToken, hshows⟩

theorem Sent.reuses (hkept : Remembers history kept) (hnow : BeginsAt now heard)
    (husable : Usable history now) :
    (∀ x ∈ heard, isTokenRequest x = false) ∧
      (Silent heard → ∃ text, answer = .error (.http text)) := by
  cases h with
  | unauthenticated hobtained =>
    rcases hobtained.reuses hkept hnow with ⟨-, -, value, hvalue⟩ | ⟨hstale, -⟩
    · cases hvalue
    · exact absurd husable hstale
  | unsent text hobtained =>
    rcases hobtained.reuses hkept hnow with ⟨-, hsilent, -⟩ | ⟨hstale, -⟩
    · exact ⟨fun x hx => hsilent.not_token hx, fun _ => ⟨text, rfl⟩⟩
    · exact absurd husable hstale
  | sent _ hobtained hapi _ =>
    obtain ⟨hexchange, hother⟩ := isApiRequest_iff.mp hapi
    rcases hobtained.reuses hkept hnow.of_append with ⟨-, hsilent, -⟩ | ⟨hstale, -⟩
    · refine ⟨List.forall_mem_append.mpr ⟨fun x hx => hsilent.not_token hx,
        List.forall_mem_singleton.mpr hother⟩, fun hnothing => ?_⟩
      rw [hnothing _ (List.mem_append_right _ List.mem_cons_self)] at hexchange
      cases hexchange
    · exact absurd husable hstale

theorem Sent.asks (hkept : Remembers history kept) (hnow : BeginsAt now heard)
    (hstale : ¬ Usable history now) :
    ((∃ x ∈ heard, isTokenRequest x = true) ∨
      Silent heard ∧ ∃ text, answer = .error (.authentication text)) ∧
    ((∀ x ∈ heard, grantOf? x = none) → (∀ x ∈ heard, isApiRequest x = false) ∧ left = kept ∧
      ∃ text, answer = .error (.authentication text)) := by
  have hgrants {obtaining : CallCourse} {value : String} {mid : Option Token}
      (hobtained : Obtained kept obtaining (.ok value) mid) (hnow : BeginsAt now obtaining) :
      ∃ x ∈ obtaining, isTokenRequest x = true ∧ grantOf? x ≠ none := by
    rcases hobtained.reuses hkept hnow with ⟨husable, -⟩ | ⟨-, looking, asking, rfl, -, hasked⟩
    · exact absurd husable hstale
    · obtain ⟨x, hx, hgrant⟩ := hasked.grants
      exact ⟨x, List.mem_append_right _ hx, hgrant⟩
  cases h with
  | unauthenticated hobtained =>
    rcases hobtained.reuses hkept hnow with
      ⟨husable, -⟩ | ⟨-, looking, asking, rfl, hsilent, hasked⟩
    · exact absurd husable hstale
    · obtain ⟨hasks, hleft, text, rfl⟩ := hasked.denies
      refine ⟨?_, fun _ => ⟨fun x hx => hobtained.not_api hx, hleft, text, rfl⟩⟩
      rcases hasks with rfl | ⟨x, hx, htoken⟩
      · rw [List.append_nil]
        exact .inr ⟨hsilent, text, rfl⟩
      · exact .inl ⟨x, List.mem_append_right _ hx, htoken⟩
  | unsent text hobtained =>
    obtain ⟨x, hx, htoken, hgrant⟩ := hgrants hobtained hnow
    exact ⟨.inl ⟨x, hx, htoken⟩, fun hnone => absurd (hnone x hx) hgrant⟩
  | @sent obtaining _ _ y _ hobtained _ _ =>
    obtain ⟨x, hx, htoken, hgrant⟩ := hgrants hobtained hnow.of_append
    have hmem : x ∈ obtaining ++ [y] := List.mem_append_left _ hx
    exact ⟨.inl ⟨x, hmem, htoken⟩, fun hnone => absurd (hnone x hmem) hgrant⟩

end Sending

/-- Every call of a session of a client with a client identity asks for at most one token and then
sends at most one request, which shows the token that was granted last. A token is asked for unless
the last one can be used, and when none is to be had, nothing is sent and what is kept stays. -/
theorem token_kept {c : Client} {clientId clientSecret tokenUrl : String}
    {scopes : List String} {audience : Option String}
    (hc : c.credentials = .oauth clientId clientSecret tokenUrl scopes audience)
    (hsession : Session c history kept) (job : Job) {result : Except CallError Unit}
    (h : (job.call c).Goes kept heard (ended result) left) (hnow : BeginsAt now heard) :
    KeepsToken history heard kept left now result := by
  have hkept := hsession.remembers hc
  obtain ⟨opening, sending, answer, rfl, hopening, hsent, hresult⟩ := Job.goes_call hc h
  have hbegins : BeginsAt now sending := by
    rintro before i after rfl hsilent
    refine hnow (opening ++ before) i after (List.append_assoc _ _ _).symm ?_
    exact List.forall_mem_append.mpr ⟨hopening, hsilent⟩
  have hreuses : ¬ AsksForToken (opening ++ sending) result ↔ Usable history now := by
    constructor
    · intro hunasked
      refine Classical.byContradiction fun hstale => hunasked ?_
      obtain ⟨⟨x, hx, htoken⟩ | ⟨hsilent, text, hfailed⟩, -⟩ := hsent.asks hkept hbegins hstale
      · exact .inl ⟨x, List.mem_append_right _ hx, htoken⟩
      · exact .inr ⟨List.forall_mem_append.mpr ⟨hopening, hsilent⟩, text, hresult _ hfailed⟩
    · rintro husable (⟨x, hx, htoken⟩ | ⟨hsilent, text, hfailed⟩)
      · obtain ⟨hnone, -⟩ := hsent.reuses hkept hbegins husable
        have hother := List.forall_mem_append.mpr ⟨fun x hx => hopening.not_token hx, hnone⟩ x hx
        rw [hother] at htoken
        cases htoken
      · obtain ⟨-, hunsent⟩ := hsent.reuses hkept hbegins husable
        obtain ⟨text', hanswer⟩ := hunsent fun x hx => hsilent x (List.mem_append_right _ hx)
        rw [hresult _ hanswer] at hfailed
        cases hfailed
  refine ⟨?_, ?_, hreuses, ?_⟩
  · obtain ⟨asking, apis, hfilter, hrest⟩ := hsent.requests
    refine ⟨asking, apis, ?_, hrest⟩
    rw [List.filter_append, filter_silent hopening, hfilter]
    rfl
  · intro x hx hapi
    rcases List.mem_append.mp hx with hx | hx
    · rw [hopening.not_api hx] at hapi
      cases hapi
    · obtain ⟨before, value, rfl, hlatest, hshows⟩ :=
        hsent.shows (hkept.quiet hopening.quiet) hx hapi
      refine ⟨opening ++ before, value, (List.append_assoc _ _ _).symm, ?_, hshows⟩
      rw [← List.append_assoc]
      exact hlatest
  · intro hasks hnone
    obtain ⟨-, hfails⟩ := hsent.asks hkept hbegins fun husable => hreuses.mpr husable hasks
    obtain ⟨hunsent, hleft, text, hanswer⟩ :=
      hfails fun x hx => hnone x (List.mem_append_right _ hx)
    refine ⟨List.forall_mem_append.mpr ⟨fun x hx => hopening.not_api hx, hunsent⟩, hleft,
      _, hresult _ hanswer, rfl, text, rfl⟩

end Rules

/-! ### Two probes -/

/-- Grants tokens for a minute and accepts everything, all at one moment. -/
def minutePeer : (q : CallQuestion) → q.Answer
  | .clock => Instant.start
  | .date => (⟨0, 0⟩ : Timestamp)
  | .exchange request =>
    .reply ⟨200, .complete (Text.toBytes (match request.body with
      | .form _ => "\x7b\"access_token\":\"t\",\"expires_in\":60\x7d"
      | _ => ""))⟩

def probeHeard (kept : Option Token) : CallCourse :=
  ((Job.check.call tokenClient).run.run kept).heardIn minutePeer

theorem goes_probe {kept left : Option Token}
    (hok : (((Job.check.call tokenClient).run.run kept).result minutePeer).1.isOk = true)
    (hleft : (((Job.check.call tokenClient).run.run kept).result minutePeer).2 = left) :
    (Job.check.call tokenClient).Goes kept (probeHeard kept) (ended (.ok ())) left := by
  have hgoes := Call.goes_heardIn minutePeer (Job.check.call tokenClient) kept
  rw [hleft] at hgoes
  generalize (((Job.check.call tokenClient).run.run kept).result minutePeer).1 = result at hok hgoes
  cases result with
  | error stop => cases hok
  | ok u => exact hgoes

/-- The second probe shows the token that the first one has asked for. -/
theorem token_kept_second_probe :
    ∃ (history heard : CallCourse) (kept left : Option Token), Session tokenClient history kept ∧
      (Job.check.call tokenClient).Goes kept heard (ended (.ok ())) left ∧
      BeginsAt Instant.start heard ∧ KeepsToken history heard kept left Instant.start (.ok ()) ∧
      Usable history Instant.start ∧ ∃ x ∈ heard, isApiRequest x = true := by
  have hfirst : (Job.check.call tokenClient).Goes none (probeHeard none) (ended (.ok ()))
      (some ⟨"t", some ⟨.ofSeconds 60⟩⟩) :=
    goes_probe (by decide +kernel) (by decide +kernel)
  have hsecond : (Job.check.call tokenClient).Goes (some ⟨"t", some ⟨.ofSeconds 60⟩⟩)
      (probeHeard (some ⟨"t", some ⟨.ofSeconds 60⟩⟩)) (ended (.ok ()))
      (some ⟨"t", some ⟨.ofSeconds 60⟩⟩) :=
    goes_probe (by decide +kernel) (by decide +kernel)
  have hsession : Session tokenClient (probeHeard none) _ := .called .opened hfirst
  have hnow : BeginsAt Instant.start (probeHeard (some ⟨"t", some ⟨.ofSeconds 60⟩⟩)) := by
    intro before i after hheard _
    have hmem : (⟨.clock, i⟩ : CallHearing) ∈ probeHeard (some ⟨"t", some ⟨.ofSeconds 60⟩⟩) := by
      rw [hheard]
      exact List.mem_append_right _ List.mem_cons_self
    exact Dialogue.answer_of_heardIn hmem
  have hkeeps := token_kept rfl hsession Job.check hsecond hnow
  have hunasked : ¬ AsksForToken (probeHeard (some ⟨"t", some ⟨.ofSeconds 60⟩⟩)) (.ok ()) := by
    rintro (⟨x, hx, htoken⟩ | ⟨-, text, hfailed⟩)
    · have hnone : ∀ y ∈ probeHeard (some ⟨"t", some ⟨.ofSeconds 60⟩⟩),
          isTokenRequest y = false := by
        decide +kernel
      rw [hnone x hx] at htoken
      cases htoken
    · cases hfailed
  have hsends : ∃ x ∈ probeHeard (some ⟨"t", some ⟨.ofSeconds 60⟩⟩), isApiRequest x = true := by
    decide +kernel
  exact ⟨_, _, _, _, hsession, hsecond, hnow, hkeeps, hkeeps.reuses.mp hunasked, hsends⟩

end CertIssuer.Authority
