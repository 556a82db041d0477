import CertIssuer.Proofs.Issuer.Course
import CertIssuer.Proofs.Issuer.Slot
import CertIssuer.Proofs.Request.Rehearsal

/-!
# What an issuer says of itself

A pass may take long, and the issuer may be edited meanwhile. What the pass then writes is about the
issuer as it was read, but it is only taken while that version is stored. So whatever is stored as
`Ready` is about the stored spec and the stored generation, and it says that the issuer is ready
exactly when that has been verified in the pass.
-/

namespace CertIssuer.Reconcile

variable {settings : Settings} {key : IssuerKey} {issuer : Issuer} {now : Timestamp}
  {heard evaluation : List Hearing} {v : Verdict}

/-- The condition tells what a pass that heard this has found out about the issuer. -/
structure Accurate (settings : Settings) (issuer : Issuer) (heard : List Hearing)
    (ready : Condition) : Prop where
  observed : ready.observedGeneration = issuer.generation
  verified : ready.status = .isTrue ↔ ∃ secrets, Verified settings issuer heard secrets
  concluded : ∃ now evaluation v, Evaluated settings issuer now evaluation v ∧
    evaluation ⊆ heard ∧ ready.status = v.status ∧ ready.reason = some v.reason ∧
      ready.message = some v.message

/-- The only condition `Ready` is accurate. -/
def Tells (settings : Settings) (issuer : Issuer) (heard : List Hearing)
    (conditions : Conditions) : Prop :=
  ∃ ready, conditions.filter (·.type = Condition.ready) = [ready] ∧
    Accurate settings issuer heard ready

theorem Tells.mono {heard' : List Hearing} {conditions : Conditions}
    (h : Tells settings issuer heard conditions) (hmem : ∀ e, e ∈ heard ↔ e ∈ heard') :
    Tells settings issuer heard' conditions := by
  obtain ⟨ready, hready, hobserved, hverified, now, evaluation, v, hv, hsub, hconcluded⟩ := h
  have hforth : heard ⊆ heard' := fun e he => (hmem e).mp he
  have hback : heard' ⊆ heard := fun e he => (hmem e).mpr he
  refine ⟨ready, hready, hobserved, hverified.trans ⟨?_, ?_⟩, now, evaluation, v, hv,
    List.Subset.trans hsub hforth, hconcluded⟩
  · rintro ⟨secrets, hsecrets⟩
    exact ⟨secrets, hsecrets.mono hforth⟩
  · rintro ⟨secrets, hsecrets⟩
    exact ⟨secrets, hsecrets.mono hback⟩

theorem tells_publish (h : (evaluate settings issuer now).Goes evaluation (.ok v)) :
    Tells settings issuer (⟨.issuer key, .ok (some issuer)⟩ :: ⟨.now, now⟩ :: evaluation)
      (v.publish issuer now).2 := by
  have hv := evaluated_of_goes h
  have hsub : evaluation ⊆ (⟨.issuer key, .ok (some issuer)⟩ :: ⟨.now, now⟩ :: evaluation) :=
    fun e he => List.mem_cons_of_mem _ (List.mem_cons_of_mem _ he)
  refine ⟨_, Conditions.filter_set_self _ _ _ _ _ _ _, rfl, ?_, now, evaluation, v, hv, hsub, rfl,
    rfl, rfl⟩
  refine hv.isTrue_iff hsub fun spec secrets hpassed => ?_
  rcases List.mem_cons.mp hpassed with heq | hpassed
  · cases heq
  rcases List.mem_cons.mp hpassed with heq | hpassed
  · cases heq
  exact hpassed

/-! ### What passes write, and what they leave -/

/-- A write is only taken while the version is stored that was read, and then the object on which it
lands is the one that was read. -/
theorem written_tells {s t : IssuerSlot} {read : Issuer} {status : IssuerStatus}
    {after : List Hearing} {r : Except ControllerError Requeue} (hs : s.Coherent key)
    (hcourse : IssuerCourse settings key
      (s.minutes.reverse ++ ⟨.writeIssuer read status, .ok ()⟩ :: after) r)
    (hanswer : (issuerSlot key).answers s (.writeIssuer read status) (.ok ()) t) :
    ∃ old new, s.issuer = some old ∧ t.issuer = some new ∧
      new = { old with status := new.status, resourceVersion := new.resourceVersion } ∧
      Tells settings old s.minutes new.status.conditions ∧
      new.status.conditions.filter (·.type ≠ Condition.ready) =
        old.status.conditions.filter (·.type ≠ Condition.ready) := by
  obtain ⟨now, evaluation, v, hverdict, hheard, rfl⟩ := hcourse.at_write
  have hmem : ∀ e, e ∈ (⟨.issuer key, .ok (some read)⟩ :: ⟨.now, now⟩ :: evaluation :
      List Hearing) ↔ e ∈ s.minutes := by
    intro e
    rw [← hheard, List.mem_reverse]
  have hrecalls : s.Recalls read := hs.recalled read ((hmem _).mp List.mem_cons_self)
  cases hanswer with
  | @stored old _ _ version _ haccepts _ =>
    have hold : old = read := hrecalls.eq_of_accepts haccepts
    subst hold
    refine ⟨old, _, haccepts.stored, rfl, rfl, Tells.mono (tells_publish hverdict) hmem, ?_⟩
    exact Conditions.filter_set_other _ _ _ _ _ _ _ fun c hc => by simp [hc]
  | aside haside => exact haside.elim

theorem unwritten_tells {read : Issuer} {requeue : Requeue}
    (hcourse : IssuerCourse settings key heard (.ok requeue))
    (hunwritten : ∀ i status a, (⟨.writeIssuer i status, a⟩ : Hearing) ∉ heard)
    (hread : (⟨.issuer key, .ok (some read)⟩ : Hearing) ∈ heard) :
    Tells settings read heard read.status.conditions := by
  generalize hr : (Except.ok requeue : Except ControllerError Requeue) = r at hcourse
  cases hcourse with
  | unread | broken => cases hr
  | missing => cases List.mem_singleton.mp hread
  | @unchanged issuer now evaluation v hverdict hunchanged =>
    rw [read_of_evaluate hverdict hread, ← Verdict.publish_of_unchanged hunchanged]
    exact tells_publish hverdict
  | @written issuer now evaluation v answer _ _ =>
    refine absurd ?_ (hunwritten issuer ⟨(v.publish issuer now).2⟩ answer)
    exact List.mem_cons_of_mem _ (List.mem_cons_of_mem _ List.mem_concat_self)

/-! ### Runs -/

/-- Whenever a write of a pass is taken, the stored issuer has one condition `Ready`, which is
accurate, and its other conditions and all else stay. A pass that ends well without a write has read
an issuer that said so already. -/
theorem ready_accurate (settings : Settings) (key : IssuerKey) {s : IssuerSlot} {S : IssuerScene}
    (hversioned : ∀ stored ∈ s.issuer, ∃ version ∈ s.versions,
      stored.resourceVersion = some version)
    (hminutes : s.minutes = []) (hrun : IssuerRun settings key ⟨s, none⟩ S) :
    (∀ read status next t, S.talk = some (.ask (.writeIssuer read status) next) →
      (issuerSlot key).answers S.state (.writeIssuer read status) (.ok ()) t →
      ∃ old new, S.state.issuer = some old ∧ t.issuer = some new ∧
        new = { old with status := new.status, resourceVersion := new.resourceVersion } ∧
        Tells settings old S.state.minutes new.status.conditions ∧
        new.status.conditions.filter (·.type ≠ Condition.ready) =
          old.status.conditions.filter (·.type ≠ Condition.ready)) ∧
    (∀ requeue read, S.talk = some (.done (.ok requeue)) →
      (∀ i status a, (⟨.writeIssuer i status, a⟩ : Hearing) ∉ S.state.minutes) →
      (⟨.issuer key, .ok (some read)⟩ : Hearing) ∈ S.state.minutes →
      Tells settings read S.state.minutes read.status.conditions) := by
  constructor
  · intro read status next t htalk hanswer
    have hstart : s.Coherent key := .fresh hversioned hminutes
    -- the pass could go on in some way, and every way for it to go is known
    obtain ⟨after, r, hafter⟩ := Dialogue.exists_goes (next (.ok ()))
    have hgoes := goes_of_run hrun htalk (r := r) ⟨.ok (), after, rfl, hafter⟩
    exact written_tells (coherent_of_run hstart hrun) (issuerCourse_of_goes hgoes) hanswer
  · intro requeue read htalk hunwritten hread
    have hmem : ∀ e, e ∈ S.state.minutes.reverse ++ [] ↔ e ∈ S.state.minutes := by simp
    have hcourse := issuerCourse_of_goes (goes_of_run hrun htalk ⟨rfl, rfl⟩)
    refine (unwritten_tells hcourse (fun i status a hwritten => ?_) ((hmem _).mpr hread)).mono hmem
    exact hunwritten i status a ((hmem _).mp hwritten)

/-! ### A pass over an issuer with two conditions of one type -/

def doubledIssuer : Issuer :=
  { sampleIssuer with
    generation := some 2
    resourceVersion := some "1"
    status := { conditions := [
      { type := Condition.ready, status := .isFalse },
      { type := "Reviewed", status := .unknown },
      { type := Condition.ready, status := .isTrue }] } }

def doubledSlot : IssuerSlot := { issuer := some doubledIssuer, versions := ["1"] }

def refusingAnswer (key : IssuerKey) (s : IssuerSlot) : (q : Question) → q.Answer
  | .issuer k => if k = key then .ok s.issuer else .ok none
  | .writeIssuer i _ => .error (.conflict i.displayName)
  | q => sampleWorld (.ok ⟨"chain", "root"⟩) q

/-- A service that refuses every write. -/
def refusingService (key : IssuerKey) (q : Question) (s : IssuerSlot) : q.Answer × IssuerSlot :=
  (refusingAnswer key s q, s.note q (refusingAnswer key s q))

theorem refusingService_answers (q : Question) (s : IssuerSlot) :
    ∃ t, (issuerSlot key).Later s t ∧ (issuerSlot key).answers t q (refusingService key q s).1
      (refusingService key q s).2 := by
  refine ⟨s, .refl, ?_⟩
  unfold refusingService
  cases q with
  | issuer k =>
    by_cases hk : k = key
    · subst hk
      have hanswer : refusingAnswer k s (.issuer k) = .ok s.issuer := if_pos rfl
      rw [hanswer]
      exact .read
    · exact .aside hk
  | writeIssuer i status => exact .refused
  | _ => exact .aside trivial

def doubledHeld : Dialogue Question Question.Answer (Except ControllerError Requeue) × IssuerSlot :=
  (issuerPass sampleSettings sampleIssuer.key).run.holdFor (refusingService sampleIssuer.key) 5
    doubledSlot

def doubledScene : IssuerScene := ⟨doubledHeld.2, some doubledHeld.1⟩

theorem ready_accurate_doubled :
    ∃ (t : IssuerSlot) (new : Issuer), t.issuer = some new ∧ new.generation = some 2 ∧
      Tells sampleSettings doubledIssuer doubledScene.state.minutes new.status.conditions := by
  have hrun : IssuerRun sampleSettings sampleIssuer.key ⟨doubledSlot, none⟩ doubledScene :=
    .head (.start ⟨rfl, rfl⟩) (Dialogue.run_holdFor refusingService_answers 5 _ _)
  have hversioned : ∀ stored ∈ doubledSlot.issuer, ∃ version ∈ doubledSlot.versions,
      stored.resourceVersion = some version := by
    rintro stored ⟨⟩
    exact ⟨"1", by decide, rfl⟩
  obtain ⟨hwritten, -⟩ := ready_accurate sampleSettings sampleIssuer.key hversioned rfl hrun
  have haccepts : IssuerSlot.Accepts sampleIssuer.key doubledScene.state doubledIssuer
      doubledIssuer := ⟨rfl, rfl, .inr rfl⟩
  obtain ⟨old, new, hold, hnew, hsame, htells, -⟩ :=
    hwritten doubledIssuer _ _ _ rfl
      (@IssuerSlot.Answers.stored _ _ _ _ _ "2" _ haccepts (by decide))
  cases hold
  refine ⟨_, new, hnew, ?_, htells⟩
  rw [hsame]
  rfl

end CertIssuer.Reconcile
