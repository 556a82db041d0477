import CertIssuer.Proofs.Issuer.Course
import CertIssuer.Proofs.Secrets.Confinement

/-!
# Passes that fail

Any read and any write of a pass may fail. The failure ends the pass there and is its result, so
what was read before goes unused, and a write that has failed is the last that is heard of a pass.
Up to its write a pass has changed nothing.
-/

namespace CertIssuer

namespace Reconcile

/-! ### Calls that fail -/

/-- The error of a read, of a look-up of a secret or of a write. -/
def Hearing.error? : Hearing → Option ControllerError
  | ⟨.issuer _, .error e⟩ => some e
  | ⟨.request _ _, .error e⟩ => some e
  | ⟨.secret _, .error e⟩ => some e
  | ⟨.writeIssuer _ _, .error e⟩ => some e
  | ⟨.writeRequest _ _ _, .error e⟩ => some e
  | _ => none

def Hearing.isWrite : Hearing → Bool
  | ⟨.writeIssuer _ _, _⟩ | ⟨.writeRequest _ _ _, _⟩ => true
  | _ => false

def Question.IsRead : Question → Prop
  | .issuer _ | .request _ _ | .secret _ => True
  | _ => False

/-- No call has failed. -/
def Smooth (heard : List Hearing) : Prop := ∀ x ∈ heard, x.error? = none

/-- The last call has failed, and no other. -/
def Fails (heard : List Hearing) (e : ControllerError) : Prop :=
  ∃ before x, heard = before ++ [x] ∧ Smooth before ∧ x.error? = some e

theorem smooth_nil : Smooth [] := List.forall_mem_nil _

theorem Smooth.append {first second : List Hearing} (hfirst : Smooth first)
    (hsecond : Smooth second) : Smooth (first ++ second) :=
  List.forall_mem_append.mpr ⟨hfirst, hsecond⟩

theorem Smooth.then_fails {first second : List Hearing} {e : ControllerError}
    (hfirst : Smooth first) (hsecond : Fails second e) : Fails (first ++ second) e := by
  obtain ⟨before, x, rfl, hbefore, hx⟩ := hsecond
  exact ⟨first ++ before, x, (List.append_assoc _ _ _).symm, hfirst.append hbefore, hx⟩

theorem Fails.exists_error {heard : List Hearing} {e : ControllerError} (h : Fails heard e) :
    ∃ x ∈ heard, x.error? = some e := by
  obtain ⟨before, x, rfl, -, hx⟩ := h
  exact ⟨x, by simp, hx⟩

theorem Fails.eq_of_error {heard : List Hearing} {e e' : ControllerError} (h : Fails heard e)
    {x : Hearing} (hx : x ∈ heard) (he' : x.error? = some e') : e' = e := by
  obtain ⟨before, last, rfl, hbefore, hlast⟩ := h
  rcases List.mem_append.mp hx with hx | hx
  · rw [hbefore x hx] at he'
    cases he'
  · rw [List.mem_singleton.mp hx, hlast] at he'
    exact (Option.some.inj he').symm

end Reconcile

namespace Pass

open Reconcile

variable {α β : Type}

/-- A call that fails ends the pass with its error, and nothing else ends it with one. -/
structure Reports (x : Pass α) : Prop where
  smooth : ∀ heard a, x.Goes heard (.ok a) → Smooth heard
  fails : ∀ heard e, x.Goes heard (.error e) → Fails heard e

theorem reports_pure {a : α} : Reports (pure a) := by
  constructor
  · intro heard b h
    obtain ⟨rfl, -⟩ := goes_pure.mp h
    exact smooth_nil
  · intro heard e h
    obtain ⟨-, he⟩ := goes_pure.mp h
    cases he

theorem Reports.bind {x : Pass α} {f : α → Pass β} (hx : x.Reports) (hf : ∀ a, (f a).Reports) :
    (x >>= f).Reports := by
  constructor
  · intro heard b h
    obtain ⟨first, second, a, rfl, hfirst, hsecond⟩ := goes_bind_ok.mp h
    exact (hx.smooth _ _ hfirst).append ((hf a).smooth _ _ hsecond)
  · intro heard e h
    rcases goes_bind.mp h with ⟨e', hfirst, he⟩ | ⟨first, second, a, rfl, hfirst, hsecond⟩
    · cases he
      exact hx.fails _ _ hfirst
    · exact (hx.smooth _ _ hfirst).then_fails ((hf a).fails _ _ hsecond)

theorem reports_ask {q : Question} (h : ∀ a, Hearing.error? ⟨q, a⟩ = none) : (ask q).Reports := by
  constructor
  · intro heard b hgoes
    obtain ⟨a, rest, rfl, rfl, -⟩ := hgoes
    exact List.forall_mem_singleton.mpr (h a)
  · intro heard e hgoes
    obtain ⟨a, rest, -, -, he⟩ := hgoes
    cases he

/-- A single call whose failure is its result. -/
theorem reports_call {x : Pass α} {hear : Except ControllerError α → Hearing}
    (hgoes : ∀ heard r, x.Goes heard r → heard = [hear r])
    (hok : ∀ a, (hear (.ok a)).error? = none)
    (herror : ∀ e, (hear (.error e)).error? = some e) : x.Reports := by
  constructor
  · intro heard a h
    rw [hgoes _ _ h]
    exact List.forall_mem_singleton.mpr (hok a)
  · intro heard e h
    exact ⟨[], _, hgoes _ _ h, smooth_nil, herror e⟩

theorem reports_getIssuer {key : IssuerKey} : (getIssuer key).Reports :=
  reports_call (fun _ _ => goes_getIssuer.mp) (fun _ => rfl) fun _ => rfl

theorem reports_getRequest {ns name : String} : (getRequest ns name).Reports :=
  reports_call (fun _ _ => goes_getRequest.mp) (fun _ => rfl) fun _ => rfl

theorem reports_getSecret {k : Secret.Key} : (getSecret k).Reports :=
  reports_call (fun _ _ => goes_getSecret.mp) (fun _ => rfl) fun _ => rfl

end Pass

namespace Reconcile

open Pass

/-! ### Looking around -/

variable {settings : Settings}

theorem requiredSecret_reports (ns name : String) : (requiredSecret ns name).Reports := by
  refine reports_getSecret.bind fun found => ?_
  cases found <;> exact reports_pure

theorem secretsIn_reports (ns : String) (spec : IssuerSpec) : (secretsIn ns spec).Reports := by
  unfold secretsIn
  cases Text.trimmed? spec.commandSecretName with
  | none => exact reports_pure
  | some name =>
    refine (requiredSecret_reports ns name).bind fun credentials => ?_
    cases credentials with
    | error e => exact reports_pure
    | ok credentials =>
      cases spec.caSecretName.bind Text.trimmed? with
      | none => exact reports_pure
      | some name =>
        refine (requiredSecret_reports ns name).bind fun ca => ?_
        cases ca <;> exact reports_pure

theorem loadSecrets_reports (settings : Settings) (issuer : Issuer) :
    (loadSecrets settings issuer).Reports := by
  unfold loadSecrets
  cases secretNamespace settings issuer with
  | error e => exact reports_pure
  | ok ns => exact secretsIn_reports ns issuer.spec

section Seek

variable (w : Work)

theorem seekSigner_reports (issuer : Issuer) (secrets : IssuerSecrets) (order : SignOrder)
    (backoff : Span) : (w.seekSigner issuer secrets order backoff).Reports := by
  refine (reports_ask fun _ => rfl).bind fun built => ?_
  cases built <;> exact reports_pure

theorem seekSecrets_reports (issuer : Issuer) (backoff : Span) :
    (w.seekSecrets settings issuer backoff).Reports := by
  refine (loadSecrets_reports settings issuer).bind fun loaded => ?_
  cases loaded with
  | error e => exact reports_pure
  | ok secrets =>
    cases w.order? with
    | error text => exact reports_pure
    | ok order => exact seekSigner_reports w issuer secrets order backoff

theorem seekIssuer_reports (kind : IssuerKind) : (w.seekIssuer settings kind).Reports := by
  refine reports_getIssuer.bind fun found => ?_
  cases found with
  | none => exact reports_pure
  | some issuer =>
    by_cases hready : issuer.status.isReady
    · simp only [if_pos hready]
      exact seekSecrets_reports w issuer _
    · simp only [if_neg hready]
      exact reports_pure

theorem seekApproval_reports (kind : IssuerKind) : (w.seekApproval settings kind).Reports := by
  unfold Work.seekApproval
  cases w.status.gate settings.checkApproved with
  | proceed => exact seekIssuer_reports w kind
  | awaitApproval => exact reports_pure
  | denied => exact reports_pure

end Seek

theorem surveyOf_reports (scheme : Scheme) (found : Option CertificateRequest) :
    (surveyOf settings scheme found).Reports := by
  cases found with
  | none => exact reports_pure
  | some request =>
    simp only [surveyOf]
    cases issuerKindOf? scheme request with
    | none => exact reports_pure
    | some kind =>
      by_cases hterminal : request.currentStatus.isTerminal
      · simp only [if_pos hterminal]
        exact reports_pure
      · simp only [if_neg hterminal]
        exact (reports_ask fun _ => rfl).bind fun now => seekApproval_reports _ kind

theorem survey_reports (scheme : Scheme) (ns name : String) :
    (survey settings scheme ns name).Reports :=
  reports_getRequest.bind (surveyOf_reports scheme)

theorem checkIssuer_reports (issuer : Issuer) (secrets : IssuerSecrets) (now : Timestamp) :
    (checkIssuer settings issuer secrets now).Reports := by
  refine (reports_ask fun _ => rfl).bind fun built => ?_
  match built with
  | .error (.config text) | .error (.transient text) | .error (.permanent text) =>
    exact reports_pure
  | .ok () =>
    refine (reports_ask fun _ => rfl).bind fun checked => ?_
    match checked with
    | some (.ok ()) | some (.error e) | none => exact reports_pure

theorem evaluate_reports (issuer : Issuer) (now : Timestamp) :
    (evaluate settings issuer now).Reports := by
  refine (loadSecrets_reports settings issuer).bind fun loaded => ?_
  cases loaded with
  | error e => exact reports_pure
  | ok secrets => exact checkIssuer_reports issuer secrets now

/-! ### Courses -/

/-- A call that neither fails nor changes anything that is kept. -/
structure Hearing.IsPlain (x : Hearing) : Prop where
  smooth : x.error? = none
  unwritten : x.isWrite = false
  uncounted : x.question ≠ .recordIssued

theorem unwritten_of_look {x : Hearing} (h : x.question.IsLook) :
    x.isWrite = false ∧ x.question ≠ .recordIssued := by
  obtain ⟨q, a⟩ := x
  cases q with
  | now | issuer _ | request _ _ | secret _ | buildSigner _ _ => exact ⟨rfl, nofun⟩
  | _ => exact h.elim

theorem unwritten_of_count {x : Hearing} (h : x.question = .recordIssued) :
    x.isWrite = false ∧ x.error? = none := by
  obtain ⟨q, a⟩ := x
  cases h
  exact ⟨rfl, rfl⟩

theorem not_read_of_write {x : Hearing} (h : x.isWrite = true) :
    ¬ x.question.IsRead ∧ x.question ≠ .recordIssued := by
  obtain ⟨q, a⟩ := x
  cases q with
  | writeIssuer _ _ | writeRequest _ _ _ => exact ⟨id, nofun⟩
  | _ => cases h

theorem isPlain_of_look {x : Hearing} (hlook : x.question.IsLook) (hsmooth : x.error? = none) :
    x.IsPlain :=
  ⟨hsmooth, (unwritten_of_look hlook).1, (unwritten_of_look hlook).2⟩

theorem isPlain_of_check {x : Hearing} (hcheck : x.question.IsCheck) : x.IsPlain := by
  obtain ⟨q, a⟩ := x
  cases q with
  | buildChecker _ _ | check _ _ => exact ⟨rfl, rfl, nofun⟩
  | _ => exact hcheck.elim

theorem countP_of_unwritten {xs : List Hearing} (h : ∀ x ∈ xs, x.isWrite = false) :
    xs.countP Hearing.isWrite = 0 :=
  List.countP_eq_zero.mpr fun x hx => by simp [h x hx]

theorem countP_of_plain {xs : List Hearing} (h : ∀ x ∈ xs, x.IsPlain) :
    xs.countP Hearing.isWrite = 0 :=
  countP_of_unwritten fun x hx => (h x hx).unwritten

/-- A question writes another status than the one that a pass over the target has read. -/
def Target.Changes (t : Target) (heard : List Hearing) : Question → Prop
  | .writeIssuer i status =>
    ∃ key, t = .issuer key ∧ (⟨.issuer key, .ok (some i)⟩ : Hearing) ∈ heard ∧
      status ≠ i.status
  | .writeRequest r status _ =>
    ∃ scheme ns name, t = .request scheme ns name ∧
      (⟨.request ns name, .ok (some r)⟩ : Hearing) ∈ heard ∧ status ≠ r.currentStatus
  | _ => False

/-- How a pass may go when any read and any write may fail. -/
inductive PassCourse (t : Target) : List Hearing → Except ControllerError Requeue → Prop
  | broken {looking : List Hearing} {e : ControllerError} :
      (∀ x ∈ looking, x.question.IsLook) → Fails looking e → PassCourse t looking (.error e)
  | unwritten {before rest : List Hearing} {requeue : Requeue} :
      (∀ x ∈ before, x.IsPlain) → (∀ x ∈ rest, x.question = .recordIssued) →
        PassCourse t (before ++ rest) (.ok requeue)
  | refused {before : List Hearing} {x : Hearing} {e : ControllerError} :
      (∀ y ∈ before, y.IsPlain) → t.Changes before x.question → x.isWrite = true →
      x.error? = some e → PassCourse t (before ++ [x]) (.error e)
  | written {before rest : List Hearing} {x : Hearing} {requeue : Requeue} :
      (∀ y ∈ before, y.IsPlain) → t.Changes before x.question → x.isWrite = true →
      x.error? = none → (∀ y ∈ rest, y.question = .recordIssued) →
        PassCourse t (before ++ x :: rest) (.ok requeue)

section Request

variable {scheme : Scheme} {ns name : String} {heard : List Hearing}
  {r : Except ControllerError Requeue}

/-- The work that is found is on the request that was read. -/
theorem read_of_survey {finding : Finding}
    (h : (survey settings scheme ns name).Goes heard (.ok finding)) :
    finding = .idle ∨ ∃ request, finding.IsOf request ∧
      (⟨.request ns name, .ok (some request)⟩ : Hearing) ∈ heard := by
  obtain ⟨first, rest, found, rfl, hread, hfound⟩ := goes_bind_ok.mp h
  rw [goes_getRequest.mp hread]
  cases found with
  | none =>
    obtain ⟨-, hfinding⟩ := goes_pure.mp hfound
    exact .inl (Except.ok.inj hfinding)
  | some request =>
    have hof : finding.IsOf request := (surveyOf_within settings scheme request).ends hfound
    exact .inr ⟨request, hof, List.mem_append_left rest (List.mem_singleton.mpr rfl)⟩

theorem counts_of_take {e : Exit} {rest : List Hearing}
    (h : Goes (do
      if e.isIssue then Pass.ask .recordIssued
      return e.requeue) rest r) :
    (∀ x ∈ rest, x.question = .recordIssued) ∧ r = .ok e.requeue := by
  dsimp only at h
  split at h
  · obtain ⟨_, last, rfl, hlast⟩ := goes_ask_bind.mp h
    obtain ⟨rfl, hr⟩ := goes_pure.mp hlast
    exact ⟨List.forall_mem_singleton.mpr rfl, hr⟩
  · obtain ⟨rfl, hr⟩ := goes_pure.mp h
    exact ⟨List.forall_mem_nil _, hr⟩

/-- There is nothing to write, or another status than the one that was read is written. -/
theorem write_cases {w : Work} {p : Precondition} {r : Except ControllerError Unit}
    (h : (w.write p).Goes heard r) :
    heard = [] ∧ r = .ok () ∨
      w.status ≠ w.request.currentStatus ∧
        heard = [⟨.writeRequest w.request w.status p, r⟩] := by
  unfold Work.write at h
  split at h
  · exact .inl (goes_pure.mp h)
  · next hdiffers => exact .inr ⟨hdiffers, goes_writeRequest.mp h⟩

theorem course_of_take {e : Exit} {w : Work} {before closing : List Hearing}
    (hplain : ∀ y ∈ before, y.IsPlain)
    (hread : (⟨.request ns name, .ok (some w.request)⟩ : Hearing) ∈ before)
    (h : (e.take w).Goes closing r) :
    PassCourse (.request scheme ns name) (before ++ closing) r := by
  have hchanges : (e.work w).status ≠ (e.work w).request.currentStatus →
      (Target.request scheme ns name).Changes before
        (.writeRequest (e.work w).request (e.work w).status e.precondition) := by
    intro hdiffers
    rw [← work_request e w] at hread
    exact ⟨scheme, ns, name, rfl, hread, hdiffers⟩
  rcases goes_bind.mp h with ⟨error, hwrite, rfl⟩ | ⟨first, rest, u, rfl, hwrite, hend⟩
  · rcases write_cases hwrite with ⟨-, he⟩ | ⟨hdiffers, rfl⟩
    · cases he
    · exact .refused hplain (hchanges hdiffers) rfl rfl
  · obtain ⟨hcounts, rfl⟩ := counts_of_take hend
    rcases write_cases hwrite with ⟨rfl, -⟩ | ⟨hdiffers, rfl⟩
    · exact .unwritten hplain hcounts
    · exact .written hplain (hchanges hdiffers) rfl rfl hcounts

theorem requestPass_course (h : (requestPass settings scheme ns name).Goes heard r) :
    PassCourse (.request scheme ns name) heard r := by
  rw [requestPass_eq] at h
  rcases goes_bind.mp h with ⟨e, hsurvey, rfl⟩ | ⟨looking, rest, finding, rfl, hsurvey, hact⟩
  · have hlooks := (survey_within settings scheme ns name).goes hsurvey
    exact .broken hlooks ((survey_reports scheme ns name).fails _ _ hsurvey)
  have hplain : ∀ x ∈ looking, x.IsPlain := fun x hx =>
    isPlain_of_look ((survey_within settings scheme ns name).goes hsurvey x hx)
      ((survey_reports scheme ns name).smooth _ _ hsurvey x hx)
  rcases read_of_survey hsurvey with rfl | ⟨request, hof, hread⟩
  · obtain ⟨rfl, rfl⟩ := goes_pure.mp hact
    exact .unwritten hplain (List.forall_mem_nil _)
  cases finding with
  | idle =>
    obtain ⟨rfl, rfl⟩ := goes_pure.mp hact
    exact .unwritten hplain (List.forall_mem_nil _)
  | exit w e =>
    rw [← hof.1.request] at hread
    exact course_of_take hplain hread hact
  | order w issuer secrets order =>
    obtain ⟨answer, closing, rfl, hclosing⟩ := goes_ask_bind.mp hact
    rw [← hof.1.request] at hread
    have hsigned : ∀ x ∈ looking ++ [⟨.sign issuer.spec secrets order, answer⟩], x.IsPlain :=
      List.forall_mem_append.mpr ⟨hplain, List.forall_mem_singleton.mpr ⟨rfl, rfl, nofun⟩⟩
    have hcourse : PassCourse (.request scheme ns name)
        ((looking ++ [⟨.sign issuer.spec secrets order, answer⟩]) ++ closing) r :=
      course_of_take hsigned (List.mem_append_left _ hread) hclosing
    rw [List.append_assoc] at hcourse
    exact hcourse

end Request

section Issuer

variable {key : IssuerKey} {heard : List Hearing} {r : Except ControllerError Requeue}
  {issuer : Issuer} {now : Timestamp}

/-- An evaluation that fails has only looked. -/
theorem looks_of_evaluate {e : ControllerError}
    (h : (evaluate settings issuer now).Goes heard (.error e)) :
    ∀ x ∈ heard, x.question.IsLook := by
  rcases goes_bind.mp h with ⟨e', hload, -⟩ | ⟨first, rest, loaded, rfl, hload, hcheck⟩
  · exact (loadSecrets_within settings issuer).goes hload
  cases loaded with
  | error e' =>
    obtain ⟨-, he⟩ := goes_pure.mp hcheck
    cases he
  | ok secrets =>
    obtain ⟨x, hx, he⟩ := ((checkIssuer_reports issuer secrets now).fails _ _ hcheck).exists_error
    have hchecks := (checkIssuer_within settings issuer secrets now).goes hcheck x hx
    rw [(isPlain_of_check hchecks).smooth] at he
    cases he

theorem plain_of_evaluate {v : Verdict}
    (h : (evaluate settings issuer now).Goes heard (.ok v)) : ∀ x ∈ heard, x.IsPlain := by
  intro x hx
  have hsmooth := (evaluate_reports issuer now).smooth _ _ h x hx
  rcases probe_of_evaluate h hx with ⟨k, hk⟩ | hcheck
  · exact isPlain_of_look (by rw [hk]; trivial) hsmooth
  · exact isPlain_of_check hcheck

theorem changes_of_publish {v : Verdict} (h : (v.publish issuer now).1 = true) :
    ({ issuer.status with conditions := (v.publish issuer now).2 } : IssuerStatus) ≠
      issuer.status := by
  have hdiffers : (v.publish issuer now).2 ≠ issuer.status.conditions :=
    (Conditions.changed_iff _ _ _ _ _ _ _).mp h
  exact fun hsame => hdiffers (congrArg IssuerStatus.conditions hsame)

theorem issuerPass_course (h : (issuerPass settings key).Goes heard r) :
    PassCourse (.issuer key) heard r := by
  have hbegun : ∀ {issuer : Issuer} {now : Timestamp} {heard : List Hearing},
      (∀ x ∈ heard, x.IsPlain) →
      ∀ x ∈ (⟨.issuer key, .ok (some issuer)⟩ :: ⟨.now, now⟩ :: heard : List Hearing),
        x.IsPlain := by
    intro issuer now heard hplain
    exact List.forall_mem_cons.mpr ⟨⟨rfl, rfl, nofun⟩,
      List.forall_mem_cons.mpr ⟨⟨rfl, rfl, nofun⟩, hplain⟩⟩
  cases issuerCourse_of_goes h with
  | unread =>
    exact .broken (List.forall_mem_singleton.mpr trivial) ⟨[], _, rfl, smooth_nil, rfl⟩
  | missing =>
    have hplain : ∀ x ∈ ([⟨.issuer key, .ok none⟩] : List Hearing), x.IsPlain :=
      List.forall_mem_singleton.mpr ⟨rfl, rfl, nofun⟩
    exact .unwritten hplain (List.forall_mem_nil _)
  | @broken issuer now heard e hverdict =>
    have hlooks : ∀ x ∈ (⟨.issuer key, .ok (some issuer)⟩ :: ⟨.now, now⟩ :: heard : List Hearing),
        x.question.IsLook :=
      List.forall_mem_cons.mpr ⟨trivial,
        List.forall_mem_cons.mpr ⟨trivial, looks_of_evaluate hverdict⟩⟩
    have hsmooth : Smooth [⟨.issuer key, .ok (some issuer)⟩, ⟨.now, now⟩] :=
      List.forall_mem_cons.mpr ⟨rfl, List.forall_mem_singleton.mpr rfl⟩
    exact .broken hlooks (hsmooth.then_fails ((evaluate_reports issuer now).fails _ _ hverdict))
  | @unchanged issuer now heard v hverdict _ =>
    have hcourse : PassCourse (.issuer key)
        ((⟨.issuer key, .ok (some issuer)⟩ :: ⟨.now, now⟩ :: heard) ++ []) (.ok v.requeue) :=
      .unwritten (hbegun (plain_of_evaluate hverdict)) (List.forall_mem_nil _)
    rw [List.append_nil] at hcourse
    exact hcourse
  | @written issuer now heard v answer hverdict hchanged =>
    have hplain : ∀ x ∈ (⟨.issuer key, .ok (some issuer)⟩ :: ⟨.now, now⟩ :: heard : List Hearing),
        x.IsPlain := hbegun (plain_of_evaluate hverdict)
    cases answer with
    | error e =>
      exact .refused hplain ⟨key, rfl, List.mem_cons_self, changes_of_publish hchanged⟩ rfl rfl
    | ok u =>
      exact .written hplain ⟨key, rfl, List.mem_cons_self, changes_of_publish hchanged⟩ rfl rfl
        (List.forall_mem_nil _)

end Issuer

theorem Target.course {t : Target} {heard : List Hearing} {r : Except ControllerError Requeue}
    (h : (t.pass settings).Goes heard r) : PassCourse t heard r := by
  cases t with
  | issuer key => exact issuerPass_course h
  | request scheme ns name => exact requestPass_course h

/-! ### What a course shows -/

namespace PassCourse

variable {t : Target} {heard : List Hearing} {r : Except ControllerError Requeue}

theorem countP_le (h : PassCourse t heard r) : heard.countP Hearing.isWrite ≤ 1 := by
  have hcounting : ∀ {rest : List Hearing}, (∀ x ∈ rest, x.question = .recordIssued) →
      rest.countP Hearing.isWrite = 0 :=
    fun hrest => countP_of_unwritten fun x hx => (unwritten_of_count (hrest x hx)).1
  cases h with
  | broken hlooks _ =>
    have hnone := countP_of_unwritten fun x hx => (unwritten_of_look (hlooks x hx)).1
    simp [hnone]
  | unwritten hplain hrest =>
    simp [List.countP_append, countP_of_plain hplain, hcounting hrest]
  | refused hplain _ hwrite _ =>
    simp [List.countP_append, countP_of_plain hplain, hwrite]
  | written hplain _ hwrite _ hrest =>
    simp [List.countP_append, countP_of_plain hplain, hwrite, hcounting hrest]

theorem changes_mono {before : List Hearing} {q : Question} (h : t.Changes before q)
    (hsub : before ⊆ heard) : t.Changes heard q := by
  cases q with
  | writeIssuer i status =>
    obtain ⟨key, ht, hread, hdiffers⟩ := h
    exact ⟨key, ht, hsub hread, hdiffers⟩
  | writeRequest request status p =>
    obtain ⟨scheme, ns, name, ht, hread, hdiffers⟩ := h
    exact ⟨scheme, ns, name, ht, hsub hread, hdiffers⟩
  | _ => exact h.elim

theorem changes (h : PassCourse t heard r) {x : Hearing} (hx : x ∈ heard)
    (hwrite : x.isWrite = true) : t.Changes heard x.question := by
  have hnot : x.isWrite ≠ false := by simp [hwrite]
  cases h with
  | broken hlooks _ => exact absurd (unwritten_of_look (hlooks x hx)).1 hnot
  | unwritten hplain hcounts =>
    rcases List.mem_append.mp hx with hx | hx
    · exact absurd (hplain x hx).unwritten hnot
    · exact absurd (unwritten_of_count (hcounts x hx)).1 hnot
  | refused hplain hchanges _ _ =>
    rcases List.mem_append.mp hx with hx | hx
    · exact absurd (hplain x hx).unwritten hnot
    · rw [List.mem_singleton.mp hx]
      exact changes_mono hchanges (List.subset_append_left _ _)
  | written hplain hchanges _ _ hcounts =>
    rcases List.mem_append.mp hx with hx | hx
    · exact absurd (hplain x hx).unwritten hnot
    rcases List.mem_cons.mp hx with rfl | hx
    · exact changes_mono hchanges (List.subset_append_left _ _)
    · exact absurd (unwritten_of_count (hcounts x hx)).1 hnot

theorem smooth {requeue : Requeue} (h : PassCourse t heard (.ok requeue)) : Smooth heard := by
  have hcounts : ∀ {rest : List Hearing}, (∀ x ∈ rest, x.question = .recordIssued) →
      Smooth rest := fun h x hx => (unwritten_of_count (h x hx)).2
  cases h with
  | unwritten hplain hrest => exact Smooth.append (fun x hx => (hplain x hx).smooth) (hcounts hrest)
  | written hplain _ _ haccepted hrest =>
    exact Smooth.append (fun x hx => (hplain x hx).smooth)
      (List.forall_mem_cons.mpr ⟨haccepted, hcounts hrest⟩)

section Failed

variable {e : ControllerError} (h : PassCourse t heard (.error e))

include h

theorem fails : Fails heard e := by
  cases h with
  | broken _ hfails => exact hfails
  | refused hplain _ _ herror => exact ⟨_, _, rfl, fun y hy => (hplain y hy).smooth, herror⟩

/-- No write was accepted, and nothing was counted. -/
theorem unchanged : ∀ x ∈ heard, ¬ (x.isWrite = true ∧ x.error? = none) ∧
    x.question ≠ .recordIssued := by
  intro x hx
  cases h with
  | broken hlooks _ =>
    obtain ⟨hunwritten, huncounted⟩ := unwritten_of_look (hlooks x hx)
    exact ⟨by simp [hunwritten], huncounted⟩
  | refused hplain _ hwrite herror =>
    rcases List.mem_append.mp hx with hx | hx
    · exact ⟨by simp [(hplain x hx).unwritten], (hplain x hx).uncounted⟩
    · rw [List.mem_singleton.mp hx]
      exact ⟨by simp [herror], (not_read_of_write hwrite).2⟩

theorem looks_of_read {x : Hearing} (hx : x ∈ heard) (hread : x.question.IsRead)
    (herror : x.error? ≠ none) : ∀ y ∈ heard, y.question.IsLook := by
  cases h with
  | broken hlooks _ => exact hlooks
  | refused hplain _ hwrite _ =>
    rcases List.mem_append.mp hx with hx | hx
    · exact absurd (hplain x hx).smooth herror
    · rw [List.mem_singleton.mp hx] at hread
      exact absurd hread (not_read_of_write hwrite).1

end Failed

end PassCourse

/-! ### Worlds that keep something -/

/-- A world with an object that only an accepted write changes, and with a count of certificates
that only counting changes. -/
structure Keeper (σ β : Type) where
  answer : (q : Question) → σ → q.Answer × σ
  stored : σ → β
  issued : σ → Nat
  keeps (q : Question) (s : σ) :
    ¬ (Hearing.isWrite ⟨q, (answer q s).1⟩ = true ∧ Hearing.error? ⟨q, (answer q s).1⟩ = none) →
      stored (answer q s).2 = stored s
  counts (q : Question) (s : σ) : q ≠ .recordIssued → issued (answer q s).2 = issued s

namespace Keeper

variable {σ β : Type} (k : Keeper σ β)

def heard (x : Pass Requeue) (s : σ) : List Hearing := x.run.transcript k.answer s

def result (x : Pass Requeue) (s : σ) : Except ControllerError Requeue :=
  (x.run.hold k.answer s).1

def after (x : Pass Requeue) (s : σ) : σ := (x.run.hold k.answer s).2

theorem course (settings : Settings) (t : Target) (s : σ) :
    PassCourse t (k.heard (t.pass settings) s) (k.result (t.pass settings) s) :=
  Target.course (Dialogue.goes_transcript k.answer (t.pass settings).run s)

/-- What holds of a pass from a state, be it that calls fail or not. -/
structure Intact (settings : Settings) (t : Target) (s : σ) : Prop where
  writes : (k.heard (t.pass settings) s).countP Hearing.isWrite ≤ 1
  changes : ∀ x ∈ k.heard (t.pass settings) s, x.isWrite = true →
    t.Changes (k.heard (t.pass settings) s) x.question
  error (e : ControllerError) : k.result (t.pass settings) s = .error e ↔
    ∃ x ∈ k.heard (t.pass settings) s, x.error? = some e
  last (e : ControllerError) : k.result (t.pass settings) s = .error e →
    Fails (k.heard (t.pass settings) s) e
  kept (e : ControllerError) : k.result (t.pass settings) s = .error e →
    k.stored (k.after (t.pass settings) s) = k.stored s ∧
      k.issued (k.after (t.pass settings) s) = k.issued s
  looked : ∀ x ∈ k.heard (t.pass settings) s, x.question.IsRead → x.error? ≠ none →
    ∀ y ∈ k.heard (t.pass settings) s, y.question.IsLook

end Keeper

/-! ### Nothing is lost -/

/-- A pass writes at most once, and only another status than the one that it has read. A pass that
fails ends with the error of its last call, which is the only one that has failed; the object and
the count are as before, and when it was a read that failed, the pass has only looked. -/
theorem failures_leave_intact {σ β : Type} (k : Keeper σ β) (settings : Settings) (t : Target)
    (s : σ) : k.Intact settings t s := by
  have hcourse := k.course settings t s
  have hfailed : ∀ e, k.result (t.pass settings) s = .error e →
      PassCourse t (k.heard (t.pass settings) s) (.error e) := by
    intro e he
    rw [← he]
    exact hcourse
  constructor
  · exact hcourse.countP_le
  · intro x hx hwrite
    exact hcourse.changes hx hwrite
  · intro e
    constructor
    · intro he
      exact (hfailed e he).fails.exists_error
    · rintro ⟨x, hx, he⟩
      cases hresult : k.result (t.pass settings) s with
      | error e' => rw [(hfailed e' hresult).fails.eq_of_error hx he]
      | ok requeue =>
        rw [hresult] at hcourse
        rw [hcourse.smooth x hx] at he
        cases he
  · intro e he
    exact (hfailed e he).fails
  · intro e he
    have hunchanged := (hfailed e he).unchanged
    constructor
    · exact Dialogue.hold_keeps k.keeps _ s fun x hx => (hunchanged x hx).1
    · exact Dialogue.hold_keeps (fun q s h => k.counts q s h) _ s fun x hx => (hunchanged x hx).2
  · intro x hx hread herror
    cases hresult : k.result (t.pass settings) s with
    | error e => exact (hfailed e hresult).looks_of_read hx hread herror
    | ok requeue =>
      rw [hresult] at hcourse
      exact absurd (hcourse.smooth x hx) herror

/-- A world that keeps the status of a request, with the answers that it gives to look-ups of
secrets and to writes. -/
def brittle (looked : Except ControllerError (Option SecretData))
    (wrote : Except ControllerError Unit) : Keeper (RequestStatus × Nat) RequestStatus where
  answer
    | .request _ _, s => (.ok (some (sampleRequest "Y3Ny" s.1).1), s)
    | .secret _, s => (looked, s)
    | .writeRequest _ status _, s => (wrote, if wrote.isOk then (status, s.2) else s)
    | .recordIssued, s => ((), (s.1, s.2 + 1))
    | q, s => (sampleWorld (.ok ⟨"chain", "root"⟩) q, s)
  stored := Prod.fst
  issued := Prod.snd
  keeps q s h := by
    cases q with
    | writeRequest r status p =>
      cases wrote with
      | ok u => exact absurd ⟨rfl, rfl⟩ h
      | error e => rfl
    | _ => rfl
  counts q s h := by
    cases q with
    | recordIssued => exact absurd rfl h
    | writeRequest r status p => cases wrote <;> rfl
    | _ => rfl

/-- A world in which the status has changed meanwhile. -/
def overtaken : Keeper (RequestStatus × Nat) RequestStatus :=
  brittle (.ok (some [])) (.error (.conflict "CertificateRequest apps/web"))

/-- A world in which no secret can be looked up. -/
def shuttered : Keeper (RequestStatus × Nat) RequestStatus :=
  brittle (.error (.watch "secret lookup failed")) (.ok ())

def webPass : Pass Requeue := (Target.request .standard "apps" "web").pass sampleSettings

/-- A conflict after the request was signed, and a secret that cannot be looked up. -/
theorem failures_leave_intact_brittle :
    ((∃ x ∈ overtaken.heard webPass ({}, 0), x.question.IsSign) ∧
      overtaken.result webPass ({}, 0) = .error (.conflict "CertificateRequest apps/web") ∧
      overtaken.stored (overtaken.after webPass ({}, 0)) = {} ∧
      overtaken.issued (overtaken.after webPass ({}, 0)) = 0) ∧
    shuttered.result webPass ({}, 0) = .error (.watch "secret lookup failed") ∧
      ∀ y ∈ shuttered.heard webPass ({}, 0), y.question.IsLook := by
  constructor
  · have hresult : overtaken.result webPass ({}, 0) =
        .error (.conflict "CertificateRequest apps/web") := by rfl
    have hintact : overtaken.Intact sampleSettings (.request .standard "apps" "web") ({}, 0) :=
      failures_leave_intact overtaken sampleSettings (.request .standard "apps" "web") ({}, 0)
    obtain ⟨hstored, hissued⟩ := hintact.kept _ hresult
    exact ⟨⟨_, List.mem_of_getElem? (i := 5) rfl, trivial⟩, hresult, hstored, hissued⟩
  · have hresult : shuttered.result webPass ({}, 0) = .error (.watch "secret lookup failed") := by
      rfl
    have hintact : shuttered.Intact sampleSettings (.request .standard "apps" "web") ({}, 0) :=
      failures_leave_intact shuttered sampleSettings (.request .standard "apps" "web") ({}, 0)
    have hlooked := hintact.looked _ (List.mem_of_getElem? (i := 3) rfl) trivial nofun
    exact ⟨hresult, hlooked⟩

end Reconcile

end CertIssuer
