import CertIssuer.Proofs.Secrets.Confinement
import CertIssuer.Proofs.Secrets.Likeness
import CertIssuer.World.Practice

/-!
# Secrets do not show

A pass that reads a password hands it to nobody but the authority. In two worlds that are the same
but for passwords and the secrets of clients, a pass asks the cluster the same questions, those that
write a status included, and comes to the same result.

Signers and checkers are those of the process. Who answers their requests follows a script: it does
not see what is masked in them.
-/

namespace CertIssuer

namespace Reconcile

/-! ### Twin passes -/

/-- Questions that are the same, or that put secrets before the authority that are alike. -/
inductive Question.Alike : Question → Question → Prop where
  | same (q : Question) : Alike q q
  | buildSigner (spec : IssuerSpec) {s s' : IssuerSecrets} (h : s.Alike s') :
    Alike (.buildSigner spec s) (.buildSigner spec s')
  | sign (spec : IssuerSpec) {s s' : IssuerSecrets} (h : s.Alike s') (order : SignOrder) :
    Alike (.sign spec s order) (.sign spec s' order)
  | buildChecker (spec : IssuerSpec) {s s' : IssuerSecrets} (h : s.Alike s') :
    Alike (.buildChecker spec s) (.buildChecker spec s')
  | check (spec : IssuerSpec) {s s' : IssuerSecrets} (h : s.Alike s') :
    Alike (.check spec s) (.check spec s')

/-- Answers are alike when they are the same, or when they are like contents of a secret. -/
def Question.Hears : (q q' : Question) → q.Answer → q'.Answer → Prop
  | .secret _, .secret _, found, found' => SameOutcome (Option.Rel SecretData.Alike) found found'
  | _, _, a, a' => a ≍ a'

def secretLikeness : Dialogue.Likeness Question Question.Answer where
  asks := Question.Alike
  hears := Question.Hears

/-- Questions whose answers hold no secret. -/
def Question.IsOpen : Question → Prop
  | .secret _ => False
  | _ => True

theorem Question.eq_of_hears {q : Question} (h : q.IsOpen) {a a' : q.Answer}
    (ha : Question.Hears q q a a') : a = a' := by
  cases q with
  | secret key => exact h.elim
  | _ => exact eq_of_heq ha

end Reconcile

namespace Pass

open Reconcile

variable {α β γ δ : Type} {Ends : α → β → Prop} {Ends' : γ → δ → Prop}

/-- Passes that are twins when what they are told of secrets is alike. -/
def Twins (Ends : α → β → Prop) (x : Pass α) (y : Pass β) : Prop :=
  x.run.Twins secretLikeness (SameOutcome Ends) y.run

theorem twins_pure {a : α} {b : β} (h : Ends a b) : Twins Ends (pure a) (pure b) := .done (.ok h)

theorem Twins.bind {x : Pass α} {y : Pass β} {f : α → Pass γ} {g : β → Pass δ}
    (h : Twins Ends x y) (hf : ∀ a b, Ends a b → Twins Ends' (f a) (g b)) :
    Twins Ends' (x >>= f) (y >>= g) := by
  unfold Twins
  rw [run_bind, run_bind]
  refine Dialogue.Twins.bind h fun r r' hr => ?_
  cases hr with
  | ok hab => exact hf _ _ hab
  | error e => exact .done (.error e)

theorem Within.twins {Asks : Question → Prop} {Meets : α → Prop} {x : Pass α}
    (h : Within Asks Meets x) (hopen : ∀ q, Asks q → q.IsOpen) : Twins Eq x x := by
  unfold Within at h
  have hsame : x.run.Twins secretLikeness Eq x.run :=
    Dialogue.Within.twins h fun q hq => ⟨.same q, fun _ _ => Question.eq_of_hears (hopen q hq)⟩
  refine hsame.mono ?_
  rintro r _ rfl
  exact .refl r

theorem twins_ask {q q' : Question} (h : Question.Alike q q')
    (hhears : ∀ a a', Question.Hears q q' a a' → a ≍ a') :
    Twins (fun a a' => a ≍ a') (ask q) (ask q') :=
  .ask h fun a a' ha => .done (.ok (hhears a a' ha))

theorem twins_getSecret (key : Secret.Key) :
    Twins (Option.Rel SecretData.Alike) (getSecret key) (getSecret key) :=
  .ask (.same _) fun _ _ h => .done h

theorem twins_getIssuer (key : IssuerKey) : Twins Eq (getIssuer key) (getIssuer key) :=
  Within.twins (within_getIssuer trivial) fun _ (h : Question.IsOpen _) => h

theorem twins_getRequest (ns name : String) :
    Twins Eq (getRequest ns name) (getRequest ns name) :=
  Within.twins (within_getRequest trivial) fun _ (h : Question.IsOpen _) => h

theorem twins_now : Twins Eq now now :=
  .ask (.same _) fun _ _ h => .done (.ok (eq_of_heq h))

theorem twins_writeIssuer (issuer : Issuer) (status : IssuerStatus) :
    Twins Eq (writeIssuer issuer status) (writeIssuer issuer status) := by
  refine .ask (.same _) fun a a' h => ?_
  cases eq_of_heq h
  exact .done (.refl a)

end Pass

namespace Reconcile

open Pass

variable {settings : Settings} {issuer : Issuer} {s s' : IssuerSecrets}

/-! ### The passes -/

theorem requiredSecret_twins (ns name : String) :
    Twins (SameOutcome SecretData.Alike) (requiredSecret ns name) (requiredSecret ns name) := by
  refine (twins_getSecret ⟨ns, name⟩).bind fun found found' hfound => ?_
  cases hfound with
  | none => exact twins_pure (.error _)
  | some h => exact twins_pure (.ok h)

theorem secretsIn_twins (ns : String) (spec : IssuerSpec) :
    Twins (SameOutcome IssuerSecrets.Alike) (secretsIn ns spec) (secretsIn ns spec) := by
  unfold secretsIn
  cases Text.trimmed? spec.commandSecretName with
  | none => exact twins_pure (.error _)
  | some name =>
    refine (requiredSecret_twins ns name).bind fun loaded loaded' hloaded => ?_
    cases hloaded with
    | error e => exact twins_pure (.error e)
    | ok hcredentials =>
      dsimp only
      cases spec.caSecretName.bind Text.trimmed? with
      | none => exact twins_pure (.ok ⟨hcredentials, .none⟩)
      | some name =>
        refine (requiredSecret_twins ns name).bind fun loaded loaded' hloaded => ?_
        cases hloaded with
        | error e => exact twins_pure (.error e)
        | ok hca => exact twins_pure (.ok ⟨hcredentials, .some hca⟩)

theorem loadSecrets_twins (settings : Settings) (issuer : Issuer) :
    Twins (SameOutcome IssuerSecrets.Alike) (loadSecrets settings issuer)
      (loadSecrets settings issuer) := by
  unfold loadSecrets
  cases secretNamespace settings issuer with
  | error e => exact twins_pure (.error e)
  | ok ns => exact secretsIn_twins ns issuer.spec

theorem checkIssuer_twins (h : s.Alike s') (now : Timestamp) :
    Twins Eq (checkIssuer settings issuer s now) (checkIssuer settings issuer s' now) := by
  unfold checkIssuer
  refine (twins_ask (.buildChecker issuer.spec h) fun _ _ h => h).bind fun built built' hbuilt => ?_
  cases eq_of_heq hbuilt
  cases built with
  | error e => cases e <;> exact twins_pure rfl
  | ok u =>
    refine (twins_ask (.check issuer.spec h) fun _ _ h => h).bind fun checked checked' hc => ?_
    cases eq_of_heq hc
    cases checked with
    | none => exact twins_pure rfl
    | some checked => cases checked <;> exact twins_pure rfl

theorem issuerPass_twins (settings : Settings) (key : IssuerKey) :
    Twins Eq (issuerPass settings key) (issuerPass settings key) := by
  unfold issuerPass
  refine (twins_getIssuer key).bind ?_
  rintro found _ rfl
  cases found with
  | none => exact twins_pure rfl
  | some issuer =>
    refine twins_now.bind ?_
    rintro now _ rfl
    have hverdict : Twins Eq (evaluate settings issuer now) (evaluate settings issuer now) := by
      refine (loadSecrets_twins settings issuer).bind fun loaded loaded' hloaded => ?_
      cases hloaded with
      | error e => exact twins_pure rfl
      | ok h => exact checkIssuer_twins h now
    refine hverdict.bind ?_
    rintro verdict _ rfl
    obtain ⟨changed, conditions⟩ := verdict.publish issuer now
    cases changed with
    | false => exact twins_pure rfl
    | true => exact (twins_writeIssuer _ _).bind fun _ _ _ => twins_pure rfl

inductive Finding.Alike : Finding → Finding → Prop where
  | idle : Alike .idle .idle
  | exit (w : Work) (e : Exit) : Alike (.exit w e) (.exit w e)
  | order (w : Work) (issuer : Issuer) {s s' : IssuerSecrets} (h : s.Alike s') (order : SignOrder) :
    Alike (.order w issuer s order) (.order w issuer s' order)

theorem take_twins (e : Exit) (w : Work) : Twins Eq (e.take w) (e.take w) :=
  (take_within e w).twins fun q hq => by cases q <;> trivial

theorem act_twins {found found' : Finding} (h : found.Alike found') :
    Twins Eq (act settings found) (act settings found') := by
  cases h with
  | idle => exact twins_pure rfl
  | exit w e => exact take_twins e w
  | order w issuer hs order =>
    refine (twins_ask (.sign issuer.spec hs order) fun _ _ h => h).bind fun answer answer' ha => ?_
    cases eq_of_heq ha
    exact take_twins _ w

theorem seekSecrets_twins (w : Work) (settings : Settings) (issuer : Issuer) (backoff : Span) :
    Twins Finding.Alike (w.seekSecrets settings issuer backoff)
      (w.seekSecrets settings issuer backoff) := by
  refine (loadSecrets_twins settings issuer).bind fun loaded loaded' hloaded => ?_
  cases hloaded with
  | error e => exact twins_pure (.exit _ _)
  | ok hs =>
    dsimp only
    cases w.order? with
    | error text => exact twins_pure (.exit _ _)
    | ok order =>
      refine (twins_ask (.buildSigner issuer.spec hs) fun _ _ h => h).bind fun built built' hb => ?_
      cases eq_of_heq hb
      cases built with
      | error e => exact twins_pure (.exit _ _)
      | ok u => exact twins_pure (.order w issuer hs order)

theorem seekIssuer_twins (w : Work) (settings : Settings) (kind : IssuerKind) :
    Twins Finding.Alike (w.seekIssuer settings kind) (w.seekIssuer settings kind) := by
  refine (twins_getIssuer _).bind ?_
  rintro found _ rfl
  cases found with
  | none => exact twins_pure (.exit _ _)
  | some issuer =>
    dsimp only
    split
    · exact seekSecrets_twins w settings issuer _
    · exact twins_pure (.exit _ _)

theorem survey_twins (settings : Settings) (scheme : Scheme) (ns name : String) :
    Twins Finding.Alike (survey settings scheme ns name) (survey settings scheme ns name) := by
  refine (twins_getRequest ns name).bind ?_
  rintro found _ rfl
  unfold surveyOf
  cases found with
  | none => exact twins_pure .idle
  | some request =>
    dsimp only
    cases issuerKindOf? scheme request with
    | none => exact twins_pure .idle
    | some kind =>
      dsimp only
      split
      · exact twins_pure .idle
      · refine twins_now.bind ?_
        rintro now _ rfl
        unfold Work.seekApproval
        cases (Work.start request now).status.gate settings.checkApproved with
        | proceed => exact seekIssuer_twins _ settings kind
        | awaitApproval | denied => exact twins_pure (.exit _ _)

theorem requestPass_twins (settings : Settings) (scheme : Scheme) (ns name : String) :
    Twins Eq (requestPass settings scheme ns name) (requestPass settings scheme ns name) := by
  rw [requestPass_eq]
  exact (survey_twins settings scheme ns name).bind fun _ _ => act_twins

theorem Target.pass_twins (t : Target) (settings : Settings) :
    Twins Eq (t.pass settings) (t.pass settings) := by
  cases t with
  | issuer key => exact issuerPass_twins settings key
  | request scheme ns name => exact requestPass_twins settings scheme ns name

/-! ### Worlds with other secrets -/

/-- What the secrets of a world hold, which may change with its state. -/
abbrev SecretStore (σ : Type) := σ → Secret.Key → Except ControllerError (Option SecretData)

/-- Stores that fail alike, and whose contents differ at most in secret values that are similar. -/
def SecretStore.SameBut {σ : Type} (similar : Text.Bytes → Text.Bytes → Prop)
    (store store' : SecretStore σ) : Prop :=
  ∀ s key, SameOutcome (Option.Rel (SecretData.SameBut similar)) (store s key) (store' s key)

/-- All of a world but what its secrets hold. -/
structure Site (σ : Type) where
  /-- The answers to what is not asked of the authority. -/
  cluster : (q : Question) → σ → q.Answer × σ
  clock : σ → Instant × σ
  date : σ → Timestamp × σ
  /-- What becomes of a request, masked, to the authority or to those who hand out its tokens. -/
  peer : Net.Request → σ → Net.Exchange × σ
  /-- Whether a call that began in one state has taken too long in another. -/
  isLate : σ → σ → Bool
  /-- The time that a client is built to wait. -/
  timeout : Span

namespace Site

variable {σ α : Type} (site : Site σ)

def hear : (q : Authority.CallQuestion) → σ → q.Answer × σ
  | .clock, s => site.clock s
  | .date, s => site.date s
  | .exchange request, s => site.peer request.masked s

/-- The outcome of a call by a client that is new, if it comes in time. -/
def call (x : Authority.Call (Except SignerError α)) (s : σ) : Option (Except SignerError α) × σ :=
  let held := (x.run.run none).holdUntil site.hear (site.isLate s) s
  (held.1.bind fun ended => World.Practice.unstopped ended.1, held.2)

/-- The answers of the world when its secrets are these. -/
def answer (store : SecretStore σ) : (q : Question) → σ → q.Answer × σ
  | .secret key, s => (store s key, (site.cluster (.secret key) s).2)
  | .buildSigner spec secrets, s =>
    ((Authority.buildSigner spec secrets site.timeout).map fun _ => (), s)
  | .sign spec secrets order, s =>
    match Authority.buildSigner spec secrets site.timeout with
    | .error e => (some (.error e), s)
    | .ok (client, signer) => site.call (Authority.signOver client signer order) s
  | .buildChecker spec secrets, s =>
    ((Authority.buildChecker spec secrets site.timeout).map fun _ => (), s)
  | .check spec secrets, s =>
    match Authority.buildChecker spec secrets site.timeout with
    | .error e => (some (.error e), s)
    | .ok client => site.call (Authority.checkOver client) s
  | q, s => site.cluster q s

/-- A practised world in which the authority cannot be reached. -/
def unreachable (timeout : Span) : Site World.Practice where
  cluster := World.Practice.answer
  clock p := (Instant.start, p)
  date p := (p.cluster.now, p)
  peer _ p := (.noReply, p)
  isLate _ _ := false
  timeout := timeout

theorem call_unreachable (timeout : Span) (x : Authority.Call (Except SignerError α))
    (p : World.Practice) :
    (unreachable timeout).call x p =
      (World.Practice.unstopped (World.withoutPeer p.cluster.now x), p) := by
  have hheld {β : Type} (d : Dialogue Authority.CallQuestion Authority.CallQuestion.Answer β) :
      d.hold (unreachable timeout).hear p = ((d.hold (World.noPeer p.cluster.now) ()).1, p) := by
    induction d with
    | done a => rfl
    | ask q next ih => cases q <;> exact ih _
  have hpatient : (unreachable timeout).isLate p = fun _ => false := rfl
  simp only [call, World.withoutPeer]
  rw [hpatient, Dialogue.holdUntil_never, hheld]
  rfl

/-- A world to practise in, whose authority cannot be reached, is a site with its own secrets. -/
theorem practice_answer_eq {p : World.Practice} (h : p.authority = .unreachable) (q : Question) :
    World.Practice.answer q p =
      (unreachable p.settings.authorityTimeout).answer (fun p key => (p.lookUp key).1) q p := by
  cases q with
  | buildSigner spec secrets | buildChecker spec secrets =>
    simp only [World.Practice.answer, World.Practice.build, h, answer, unreachable]
    rfl
  | sign spec secrets order =>
    simp only [World.Practice.answer, World.Practice.sign, h, answer, call_unreachable]
    rfl
  | check spec secrets =>
    simp only [World.Practice.answer, World.Practice.check, h, answer, call_unreachable]
    rfl
  | _ => rfl

theorem hear_alike :
    Dialogue.AnswersAlike Authority.maskedLikeness site.hear site.hear := by
  intro q q' s h
  cases h with
  | same q => exact ⟨HEq.rfl, rfl⟩
  | exchange h =>
    simp only [hear, h]
    exact ⟨HEq.rfl, trivial⟩

theorem call_eq {x x' : Authority.Call (Except SignerError α)} (h : Authority.Call.Twins Eq x x')
    (s : σ) : site.call x s = site.call x' s := by
  have hrun : (x.run.run none).Twins Authority.maskedLikeness Eq (x'.run.run none) :=
    (h none).mono fun _ _ hended => Prod.ext hended.1.eq hended.2
  simp only [call, hrun.holdUntil site.hear_alike]

section Secrets

variable (store store' : SecretStore σ) (spec : IssuerSpec) {secrets secrets' : IssuerSecrets}
  (h : secrets.Alike secrets') (s : σ)

include h

theorem answer_buildSigner_eq : site.answer store (.buildSigner spec secrets) s =
    site.answer store' (.buildSigner spec secrets') s := by
  have hbuilt := Authority.buildSigner_alike spec site.timeout h
  exact Prod.ext (hbuilt.map_eq fun _ _ _ => rfl) rfl

theorem answer_buildChecker_eq : site.answer store (.buildChecker spec secrets) s =
    site.answer store' (.buildChecker spec secrets') s := by
  have hbuilt := Authority.buildChecker_alike spec site.timeout h
  exact Prod.ext (hbuilt.map_eq fun _ _ _ => rfl) rfl

theorem answer_sign_eq (order : SignOrder) : site.answer store (.sign spec secrets order) s =
    site.answer store' (.sign spec secrets' order) s := by
  have hbuilt := Authority.buildSigner_alike spec site.timeout h
  simp only [answer]
  generalize Authority.buildSigner spec secrets site.timeout = built,
    Authority.buildSigner spec secrets' site.timeout = built' at hbuilt ⊢
  cases hbuilt with
  | error e => rfl
  | @ok built built' hboth =>
    obtain ⟨client, signer⟩ := built
    obtain ⟨client', signer'⟩ := built'
    obtain ⟨hclient, rfl⟩ := hboth
    exact site.call_eq (Authority.twins_signOver hclient signer order) s

theorem answer_check_eq : site.answer store (.check spec secrets) s =
    site.answer store' (.check spec secrets') s := by
  have hbuilt := Authority.buildChecker_alike spec site.timeout h
  simp only [answer]
  generalize Authority.buildChecker spec secrets site.timeout = built,
    Authority.buildChecker spec secrets' site.timeout = built' at hbuilt ⊢
  cases hbuilt with
  | error e => rfl
  | ok hclient => exact site.call_eq (Authority.twins_checkOver hclient) s

end Secrets

theorem heq_and_eq_of_eq {x y : α × σ} (h : x = y) : x.1 ≍ y.1 ∧ x.2 = y.2 := by
  rw [h]
  exact ⟨HEq.rfl, rfl⟩

theorem answer_alike {store store' : SecretStore σ}
    (h : SecretStore.SameBut (fun value value' => legible? value = legible? value') store store') :
    Dialogue.AnswersAlike secretLikeness (site.answer store) (site.answer store') := by
  intro q q' s hq
  -- the stores speak for themselves in answer to a secret; everything else is answered the same
  cases hq with
  | same q =>
    cases q with
    | secret key => exact ⟨h s key, rfl⟩
    | _ => exact ⟨HEq.rfl, rfl⟩
  | buildSigner spec hs => exact heq_and_eq_of_eq (site.answer_buildSigner_eq _ _ spec hs s)
  | buildChecker spec hs => exact heq_and_eq_of_eq (site.answer_buildChecker_eq _ _ spec hs s)
  | sign spec hs order => exact heq_and_eq_of_eq (site.answer_sign_eq _ _ spec hs s order)
  | check spec hs => exact heq_and_eq_of_eq (site.answer_check_eq _ _ spec hs s)

end Site

/-- A question as those see it who watch the cluster, not the authority. -/
def Question.onCluster? : Question → Option Question
  | .buildSigner _ _ | .sign _ _ _ | .buildChecker _ _ | .check _ _ => none
  | q => some q

theorem Question.Alike.onCluster?_eq {q q' : Question} (h : Question.Alike q q') :
    q.onCluster? = q'.onCluster? := by
  cases h <;> rfl

/-- What a pass does with the cluster: the questions that it asks there, writes among them. -/
def onCluster (heard : List Hearing) : List Question :=
  heard.filterMap (·.question.onCluster?)

/-- Passes in two worlds that differ in the values of passwords and of clients' secrets, each as
legible as the other, ask the cluster the same questions, among them those that write a status, and
come to the same result and the same state. What is shown of credentials, of secrets and of a
configuration is the same too. -/
theorem secrets_concealed {σ : Type} (site : Site σ) {store store' : SecretStore σ}
    (h : SecretStore.SameBut (fun value value' => legible? value = legible? value') store store') :
    (∀ (t : Target) (settings : Settings) (s : σ),
      let pass := (t.pass settings).run
      pass.hold (site.answer store) s = pass.hold (site.answer store') s ∧
        onCluster (pass.transcript (site.answer store) s) =
          onCluster (pass.transcript (site.answer store') s)) ∧
    ∀ (spec : IssuerSpec) (timeout : Span) (secrets secrets' : IssuerSecrets),
      secrets.Alike secrets' →
        (Authority.Credentials.ofSecret spec secrets.credentials).map (·.describe) =
            (Authority.Credentials.ofSecret spec secrets'.credentials).map (·.describe) ∧
          Authority.describeSecrets secrets = Authority.describeSecrets secrets' ∧
          (Authority.clientConfig spec secrets timeout).map (·.describe) =
            (Authority.clientConfig spec secrets' timeout).map (·.describe) := by
  refine ⟨fun t settings s => ?_, fun spec timeout secrets secrets' hs => ?_⟩
  · have htwins : (t.pass settings).run.Twins secretLikeness (SameOutcome Eq)
        (t.pass settings).run := t.pass_twins settings
    obtain ⟨hresult, hstate⟩ := htwins.hold (site.answer_alike h) s
    exact ⟨Prod.ext hresult.eq hstate,
      htwins.seen (site.answer_alike h) (fun _ _ => Question.Alike.onCluster?_eq) s⟩
  · exact ⟨(Authority.ofSecret_alike spec hs.credentials).map_eq fun _ _ hc => hc.describe_eq,
      Authority.describeSecrets_eq hs,
      (Authority.clientConfig_alike spec timeout hs).map_eq fun _ _ hc => hc.describe_eq⟩

/-! ### Runs -/

/-- A site with one issuer and one request, where every caller is turned away. -/
def refusingSite : Site Unit where
  cluster
    | .request ns name, s =>
      (.ok (if ns = "apps" ∧ name = "web" then some (sampleRequest "Y3Ny" {}).1 else none), s)
    | q, s => (sampleWorld (.ok ⟨"chain", "root"⟩) q, s)
  clock s := (Instant.start, s)
  date s := ((⟨0, 0⟩ : Timestamp), s)
  peer _ s := (.reply ⟨401, .complete (Text.toBytes "unknown user")⟩, s)
  isLate _ _ := false
  timeout := .ofSeconds 30

def withPassword (password : Text.Bytes) : SecretData :=
  [("password", password), ("username", Text.toBytes "svc")]

def passwordStore (password : Text.Bytes) : SecretStore Unit :=
  fun _ _ => .ok (some (withPassword password))

theorem passwordStore_sameBut {similar : Text.Bytes → Text.Bytes → Prop}
    {password password' : Text.Bytes} (h : similar password password') :
    SecretStore.SameBut similar (passwordStore password) (passwordStore password') := by
  have hsecret : "password" ∈ secretKeys := by decide
  exact fun _ _ => .ok (.some (.cons ⟨rfl, .inr ⟨hsecret, h⟩⟩ (.cons ⟨rfl, .inl rfl⟩ .nil)))

/-- The messages that a pass writes into a status at that site. -/
def messagesWith (t : Target) (password : Text.Bytes) : List String :=
  let answer := refusingSite.answer (passwordStore password)
  let heard := (t.pass sampleSettings).run.transcript answer ()
  (onCluster heard).flatMap fun
    | .writeIssuer _ status => status.conditions.filterMap (·.message)
    | .writeRequest _ status _ => status.conditions.filterMap (·.message)
    | _ => []

/-- A request that is refused for its password says no more of it than of another one. -/
theorem secrets_concealed_refused :
    let password := Text.toBytes "hunter2"
    let password' := Text.toBytes "swordfish"
    let t : Target := .request .standard "apps" "web"
    let pass := (t.pass sampleSettings).run
    let answer := refusingSite.answer (passwordStore password)
    let answer' := refusingSite.answer (passwordStore password')
    password ≠ password' ∧
    messagesWith t password = ["signing failed, will retry: transient CA error: " ++
      "Authentication failed: 401 Unauthorized: unknown user"] ∧
    pass.hold answer () = pass.hold answer' () ∧
    onCluster (pass.transcript answer ()) = onCluster (pass.transcript answer' ()) := by
  intro password password' t pass answer answer'
  have hlegible : legible? password = legible? password' := by decide +kernel
  have hconcealed := secrets_concealed refusingSite (passwordStore_sameBut hlegible)
  obtain ⟨hheld, hseen⟩ := hconcealed.1 t sampleSettings ()
  exact ⟨by decide +kernel, by decide +kernel, hheld, hseen⟩

/-- A password of blanks and one that is no text can neither be used, but the message says which of
the two it is. -/
theorem illegible_password_shows :
    let blank : Text.Bytes := [32]
    let broken : Text.Bytes := [255]
    let t : Target := .issuer sampleIssuer.key
    SecretStore.SameBut
      (fun value value' => legible? value = some true ↔ legible? value' = some true)
      (passwordStore blank) (passwordStore broken) ∧
    messagesWith t blank = ["basic auth secret needs both \"username\" and \"password\""] ∧
    messagesWith t broken = ["secret key \"password\" is not valid UTF-8"] := by
  intro blank broken t
  have husable : legible? blank = some true ↔ legible? broken = some true := by decide +kernel
  exact ⟨passwordStore_sameBut husable, by decide +kernel, by decide +kernel⟩

end Reconcile

end CertIssuer
