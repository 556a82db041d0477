import CertIssuer.Proofs.Conditions
import CertIssuer.Proofs.Readiness.Traffic
import CertIssuer.Proofs.Request.Rehearsal

/-!
# No signing while an issuer is shut

A request pass that reads the issuer while it is shut has nothing signed, and leaves its request
waiting for the issuer (`traffic_bars`).

A pass over the issuer may act on what it has read long ago. It has to write before the issuer is
open, but it writes what is pinned to the version that it has read: if the issuer was shut since
then, its version is another one, and the write is refused. So what is stored while the issuer is
shut is never ready, and a pass that could store that it is ready has heard of a check that came
after the issuer was shut, and has opened it.
-/

namespace CertIssuer.Readiness

open Reconcile Dialogue
open Pass (secures_bind)

variable {ι : Type} {key : IssuerKey} {errand : ι → Errand} {s t : Traffic ι} {i : ι}

namespace Traffic

/-! ### What holds at any time -/

structure Coherent (s : Traffic ι) : Prop where
  version : ∀ issuer ∈ s.issuer, ∃ v ∈ s.versions, issuer.resourceVersion = some v
  barred : s.shut = true → ∀ issuer ∈ s.issuer, issuer.status.isReady = false
  unsigned : ∀ i, (s.trail i).turned = true → (s.trail i).signed = false

def Stale (s : Traffic ι) (version : String) : Prop :=
  ∀ issuer ∈ s.issuer, issuer.resourceVersion ≠ some version

/-- What a pass sees of the steps of the others. -/
structure Elsewhere (i : ι) (s t : Traffic ι) : Prop where
  trail : t.trail i = s.trail i
  versions : ∀ v ∈ s.versions, v ∈ t.versions
  issuer : t.issuer = s.issuer ∧ t.current i = s.current i ∧ (s.shut = false → t.shut = false) ∨
    ∀ v ∈ s.versions, t.Stale v

def Turn (i : ι) (s t : Traffic ι) : Prop := t.Coherent ∧ ∀ j, j ≠ i → Elsewhere j s t

theorem Fresh.coherent (h : s.Fresh) : s.Coherent where
  version := h.version
  barred hshut := nomatch h.open.symm.trans hshut
  unsigned j hturned := by
    rw [h.trail j] at hturned
    cases hturned

theorem Elsewhere.refl : Elsewhere i s s := ⟨rfl, fun _ hv => hv, .inl ⟨rfl, rfl, id⟩⟩

theorem Turn.refl (hs : s.Coherent) : Turn i s s := ⟨hs, fun _ _ => .refl⟩

/-! ### What passes do -/

theorem put_elsewhere {issuer : Issuer} {version : String} (hfresh : version ∉ s.versions)
    (htrail : t.trail i = s.trail i) (hversions : t.versions = version :: s.versions)
    (hissuer : t.issuer = some { issuer with resourceVersion := some version }) :
    Elsewhere i s t := by
  refine ⟨htrail, fun v hv => ?_, .inr fun v hv stored hstored heq => ?_⟩
  · rw [hversions]
    exact List.mem_cons_of_mem version hv
  · -- what is stored now has a version that was never given out before
    rw [hissuer] at hstored
    cases hstored
    cases heq
    exact hfresh hv

theorem put_version {issuer : Issuer} {version : String}
    (hversions : t.versions = version :: s.versions)
    (hissuer : t.issuer = some { issuer with resourceVersion := some version }) :
    ∀ stored ∈ t.issuer, ∃ v ∈ t.versions, stored.resourceVersion = some v := by
  intro stored hstored
  rw [hissuer] at hstored
  cases hstored
  rw [hversions]
  exact ⟨version, List.mem_cons_self, rfl⟩

/-- A status may be stored that says that the issuer is ready, if the issuer is open. -/
theorem store_turn {old : Issuer} {status : IssuerStatus} {version : String} (hs : s.Coherent)
    (hfresh : version ∉ s.versions) (hready : status.isReady = true → s.shut = false) :
    Turn i s (s.store old status version) := by
  have hput : (s.store old status version).issuer =
      some { ({ old with status := status } : Issuer) with resourceVersion := some version } := rfl
  refine ⟨⟨?_, fun hshut stored hstored => ?_, hs.unsigned⟩, fun j _ => ?_⟩
  · exact put_version (s := s) rfl hput
  · cases hstored
    refine Bool.eq_false_iff.mpr fun hstatus => ?_
    have hopen : (s.store old status version).shut = false := by
      simp only [store, hready hstatus, hstatus, Bool.not_true, Bool.or_false]
    exact nomatch hopen.symm.trans hshut
  · exact put_elsewhere hfresh rfl rfl hput

variable [DecidableEq ι]

theorem mark_turn {trail : Trail} (hs : s.Coherent)
    (htrail : trail.turned = true → trail.signed = false) : Turn i s (s.mark i trail) := by
  refine ⟨⟨hs.version, hs.barred, fun j hturned => ?_⟩, fun j hj => ?_⟩
  · by_cases hij : j = i
    · subst hij
      simp only [mark, Function.update_self] at hturned ⊢
      exact htrail hturned
    · simp only [mark, Function.update_of_ne hij] at hturned ⊢
      exact hs.unsigned j hturned
  · exact ⟨Function.update_of_ne hj _ _, fun _ hv => hv, .inl ⟨rfl, rfl, id⟩⟩

theorem Turn.current {b : Bool} (h : Turn i s t) :
    Turn i s { t with current := Function.update t.current i b } := by
  refine ⟨⟨h.1.version, h.1.barred, h.1.unsigned⟩, fun j hj => ?_⟩
  obtain ⟨htrail, hversions, hissuer⟩ := h.2 j hj
  refine ⟨htrail, hversions, hissuer.imp_left fun ⟨hsame, hcurrent, hshut⟩ => ⟨hsame, ?_, hshut⟩⟩
  exact (Function.update_of_ne hj _ _).trans hcurrent

theorem begin_turn (hs : s.Coherent) : Turn i s (s.begin i) :=
  have hmark : Turn i s (s.mark i {}) := mark_turn hs nofun
  hmark.current

theorem read_turn (hs : s.Coherent) (hsigned : (s.trail i).signed = false) :
    Turn i s (s.read i) :=
  have hmark : Turn i s (s.mark i { s.trail i with turned := s.shut }) :=
    mark_turn hs fun _ => hsigned
  hmark.current

omit [DecidableEq ι] in
theorem verify_turn (hs : s.Coherent) : Turn i s (s.verify i) := by
  refine ⟨⟨hs.version, fun hshut => hs.barred ?_, hs.unsigned⟩, fun j _ => ?_⟩
  · exact (Bool.and_eq_true_iff.mp hshut).1
  · refine ⟨rfl, fun _ hv => hv, .inl ⟨rfl, rfl, fun hopen => ?_⟩⟩
    simp only [verify, hopen, Bool.false_and]

omit [DecidableEq ι] in
theorem Moves.coherent (h : Moves s t) (hs : s.Coherent) : t.Coherent := by
  cases h with
  | @edit old new version hold hstatus hfresh =>
    refine ⟨put_version (s := s) rfl rfl, fun hshut stored hstored => ?_, hs.unsigned⟩
    cases hstored
    exact (congrArg IssuerStatus.isReady hstatus).trans (hs.barred hshut old hold)
  | @create new version hnone hstatus hfresh =>
    refine ⟨put_version (s := s) rfl rfl, fun _ stored hstored => ?_, hs.unsigned⟩
    cases hstored
    exact congrArg IssuerStatus.isReady hstatus
  | delete => exact ⟨fun _ h => (nomatch h), fun _ _ h => (nomatch h), hs.unsigned⟩

omit [DecidableEq ι] in
theorem Moves.elsewhere (h : Moves s t) (i : ι) : Elsewhere i s t := by
  cases h with
  | edit _ _ hfresh => exact put_elsewhere hfresh rfl rfl rfl
  | create _ _ hfresh => exact put_elsewhere hfresh rfl rfl rfl
  | delete => exact ⟨rfl, fun _ hv => hv, .inr fun _ _ _ h => nomatch h⟩

/-! ### What a pass over the issuer knows -/

omit [DecidableEq ι] in
theorem Stale.elsewhere {version : String} (h : s.Stale version) (hst : Elsewhere i s t)
    (hversion : version ∈ s.versions) : t.Stale version := by
  rcases hst.issuer with ⟨hsame, -, -⟩ | hstale
  · unfold Stale
    rw [hsame]
    exact h
  · exact hstale version hversion

/-- The version that a pass has read is that of now, or it has read since the issuer was shut. -/
structure Informed (i : ι) (version : String) (s : Traffic ι) : Prop where
  given : version ∈ s.versions
  current : s.current i = true ∨ s.Stale version

omit [DecidableEq ι] in
theorem Informed.elsewhere {version : String} (h : Informed i version s)
    (hst : Elsewhere i s t) : Informed i version t := by
  refine ⟨hst.versions version h.given, ?_⟩
  rcases h.current with hcurrent | hstale
  · rcases hst.issuer with ⟨-, hsame, -⟩ | hstale
    · exact .inl (hsame.trans hcurrent)
    · exact .inr (hstale version h.given)
  · exact .inr (hstale.elsewhere hst h.given)

/-- The issuer is open, unless the version that a pass has read is old. -/
structure Assured (version : String) (s : Traffic ι) : Prop where
  given : version ∈ s.versions
  «open» : s.shut = false ∨ s.Stale version

omit [DecidableEq ι] in
theorem Assured.elsewhere {version : String} (h : Assured version s)
    (hst : Elsewhere i s t) : Assured version t := by
  refine ⟨hst.versions version h.given, ?_⟩
  rcases h.open with hopen | hstale
  · rcases hst.issuer with ⟨-, -, hsame⟩ | hstale
    · exact .inl (hsame hopen)
    · exact .inr (hstale version h.given)
  · exact .inr (hstale.elsewhere hst h.given)

omit [DecidableEq ι] in
theorem Informed.verify {version : String} (h : Informed i version s) :
    Assured version (s.verify i) := by
  refine ⟨h.given, h.current.imp_left fun hcurrent => ?_⟩
  simp only [Traffic.verify, hcurrent, Bool.not_true, Bool.and_false]

end Traffic

/-! ### Passes among others -/

section Passes

open Traffic

variable [DecidableEq ι]

abbrev view (key : IssuerKey) (errand : ι → Errand) (i : ι) :
    Surroundings Question Question.Answer (Traffic ι) :=
  (traffic key errand).around Turn Coherent i

theorem view_moves (h : (view key errand i).moves s t) : t.Coherent ∧ Elsewhere i s t := by
  obtain ⟨-, ht, hmove | ⟨j, hij, hturn⟩⟩ := h
  · exact ⟨ht, hmove.elsewhere i⟩
  · exact ⟨ht, hturn.2 i (Ne.symm hij)⟩

/-- What a pass knows, it knows as long as it waits. -/
theorem later_holds {R : Traffic ι → Prop} (hR : ∀ s t, Elsewhere i s t → R s → R t)
    (hs : s.Coherent) (h : R s) (hst : (view key errand i).Later s t) : t.Coherent ∧ R t :=
  later_keeps (R := fun s => s.Coherent ∧ R s)
    (fun _ _ hs hmove => ⟨(view_moves hmove).1, hR _ _ (view_moves hmove).2 hs.2⟩) ⟨hs, h⟩ hst

/-- What a pass has done is its own matter. -/
theorem later_trail (hs : s.Coherent) (hst : (view key errand i).Later s t) :
    t.Coherent ∧ t.trail i = s.trail i :=
  later_holds (R := fun t => t.trail i = s.trail i) (fun _ _ hst h => hst.trail.trans h) hs rfl hst

theorem later_coherent (hs : s.Coherent) (hst : (view key errand i).Later s t) : t.Coherent :=
  (later_trail hs hst).1

theorem aside_eq {q : Question} {a : q.Answer} (hq : IsAside q) (h : Answers key i s q a t) :
    t = s := by
  cases h with
  | aside => rfl
  | _ => first | rfl | exact hq.elim

theorem aside_secures {α : Type} {Ends : α → Prop} {R : Traffic ι → Prop} {x : Pass α}
    (hx : Pass.Within IsAside Ends x) (hR : ∀ s t, Elsewhere i s t → R s → R t)
    (hs : s.Coherent) (h : R s) :
    x.run.Secures (view key errand i) (Turn i)
      (fun r t => (∀ a, r = .ok a → Ends a) ∧ t.Coherent ∧ R t) s := by
  unfold Pass.Within at hx
  refine hx.secures (R := fun s => s.Coherent ∧ R s) ?_ ?_ ⟨hs, h⟩
  · exact fun s t hs hmove => ⟨(view_moves hmove).1, hR s t (view_moves hmove).2 hs.2⟩
  · intro s q a t hq hs hanswer
    obtain rfl := aside_eq hq hanswer
    exact ⟨.refl hs.1, hs⟩

/-- The end of a pass over a request that has read the issuer while it was shut. -/
def Done (errand : ι → Errand) (i : ι) (r : Except ControllerError Requeue) (t : Traffic ι) :
    Prop :=
  ∀ ns name, errand i = .request ns name → (t.trail i).turned = true → (t.trail i).Ends r

/-! ### Passes over the issuer -/

section IssuerPasses

variable {settings : Settings} {issuer : Issuer} {version : String}

/-- What is known after a verdict: to say that the issuer is ready, it had to be open. -/
def Judged (version : String) (r : Except ControllerError Verdict) (t : Traffic ι) : Prop :=
  ∀ v, r = .ok v → t.Coherent ∧ (v.status = .isTrue → Assured version t)

theorem not_ready_secures {r : Except ControllerError Verdict} (hs : s.Coherent)
    (hr : ∀ v, r = .ok v → v.status ≠ .isTrue) :
    (done r).Secures (view key errand i) (Turn i) (Judged version) s :=
  fun _ hst v hv => ⟨later_coherent hs hst, fun htrue => absurd htrue (hr v hv)⟩

theorem checkIssuer_secures {secrets : IssuerSecrets} {now : Timestamp} (hs : s.Coherent)
    (h : Informed i version s) :
    (checkIssuer settings issuer secrets now).run.Secures (view key errand i) (Turn i)
      (Judged version) s := by
  unfold checkIssuer
  rw [Pass.run_bind]
  intro t hst built u hbuilt
  obtain ⟨ht, hinformed⟩ := later_holds (fun _ _ hst h => h.elsewhere hst) hs h hst
  have haside : IsAside (.buildChecker issuer.spec secrets) := trivial
  obtain rfl := aside_eq haside hbuilt
  refine ⟨.refl ht, ?_⟩
  match built with
  | .error (.config text) | .error (.transient text) | .error (.permanent text) =>
    exact not_ready_secures ht fun v hv => by cases hv; nofun
  | .ok () =>
    intro t' hst' checked u' hchecked
    obtain ⟨ht', hinformed⟩ := later_holds (fun _ _ hst h => h.elsewhere hst) ht hinformed hst'
    cases hchecked with
    | verified =>
      -- nothing but a check that has succeeded opens the issuer
      refine ⟨verify_turn ht', fun t hst v _ => ?_⟩
      obtain ⟨ht, hassured⟩ := later_holds (fun _ _ hst h => h.elsewhere hst)
        (verify_turn (i := i) ht').1 hinformed.verify hst
      exact ⟨ht, fun _ => hassured⟩
    | unverified hfailed =>
      refine ⟨.refl ht', ?_⟩
      match checked with
      | some (.ok ()) => exact absurd rfl hfailed
      | some (.error e) | none => exact not_ready_secures ht' fun v hv => by cases hv; nofun
    | aside haside => exact haside.elim

theorem evaluate_secures {now : Timestamp} (hs : s.Coherent) (h : Informed i version s) :
    (evaluate settings issuer now).run.Secures (view key errand i) (Turn i) (Judged version) s := by
  have hasks : Pass.Within IsAside (fun _ => True) (loadSecrets settings issuer) :=
    loadSecrets_asks fun _ _ _ _ => trivial
  have hload : (loadSecrets settings issuer).run.Secures (view key errand i) (Turn i) _ s :=
    aside_secures hasks (fun _ _ hst h => h.elsewhere hst) hs h
  refine secures_bind hload (fun loaded t hpost => ?_) fun e t hpost u htu v hv => nomatch hv
  obtain ⟨-, ht, hinformed⟩ := hpost
  cases loaded with
  | error e => exact not_ready_secures ht fun v hv => by cases hv; nofun
  | ok secrets => exact checkIssuer_secures ht hinformed

theorem isReady_publish {v : Verdict} {now : Timestamp} :
    IssuerStatus.isReady { issuer.status with conditions := (v.publish issuer now).2 } = true ↔
      v.status = .isTrue := by
  simp [IssuerStatus.isReady, Conditions.isTrue, Verdict.publish, Conditions.entry]

theorem writeIssuer_turn {v : Verdict} {now : Timestamp} {r : Except ControllerError Unit}
    (hs : s.Coherent) (hversion : issuer.resourceVersion = some version)
    (hassured : v.status = .isTrue → Assured version s)
    (h : Answers key i s (.writeIssuer issuer
      { issuer.status with conditions := (v.publish issuer now).2 }) r t) : Turn i s t := by
  cases h with
  | refused => exact .refl hs
  | aside haside => exact haside.elim
  | @stored old _ _ _ _ haccepts hfresh =>
    refine store_turn hs hfresh fun hready => ?_
    obtain ⟨hstored, -, hpinned⟩ := haccepts
    rcases (hassured (isReady_publish.mp hready)).open with hopen | hstale
    · exact hopen
    · -- the write is pinned to a version that is not stored any more
      rcases hpinned with hnone | hpinned
      · cases hnone.symm.trans hversion
      · exact absurd (hpinned.symm.trans hversion) (hstale old hstored)

theorem done_secures (herrand : errand i = .issuer) (r : Except ControllerError Requeue) :
    (done r).Secures (view key errand i) (Turn i) (Done errand i) s :=
  fun _ _ _ _ hrequest => nomatch herrand.symm.trans hrequest

theorem judge_secures (herrand : errand i = .issuer) (hs : s.Coherent)
    (hversion : issuer.resourceVersion = some version) (h : Informed i version s) :
    (do let now ← Pass.now
        let verdict ← evaluate settings issuer now
        let (changed, conditions) := verdict.publish issuer now
        if changed then Pass.writeIssuer issuer { issuer.status with conditions := conditions }
        return verdict.requeue : Pass Requeue).run.Secures (view key errand i) (Turn i)
      (Done errand i) s := by
  rw [Pass.run_bind]
  intro t hst now u hnow
  obtain ⟨ht, hinformed⟩ := later_holds (fun _ _ hst h => h.elsewhere hst) hs h hst
  have haside : IsAside .now := trivial
  obtain rfl := aside_eq haside hnow
  refine ⟨.refl ht, ?_⟩
  refine secures_bind (evaluate_secures ht hinformed) (fun v t hjudged => ?_)
    fun e t _ u htu => done_secures (s := t) herrand (.error e) u htu
  obtain ⟨ht, hassured⟩ := hjudged v rfl
  dsimp only
  split
  · rw [Pass.run_bind]
    intro t' hst' r u' hanswer
    have ht' : t'.Coherent ∧ (v.status = .isTrue → Assured version t') :=
      later_holds (R := fun s => v.status = .isTrue → Assured version s)
        (fun _ _ hst h htrue => (h htrue).elsewhere hst) ht hassured hst'
    refine ⟨writeIssuer_turn ht'.1 hversion ht'.2 hanswer, ?_⟩
    cases r with
    | ok _ | error e => exact done_secures herrand _
  · exact done_secures herrand _

theorem issuerPass_secures (herrand : errand i = .issuer) (hs : s.Coherent)
    (htrail : s.trail i = {}) :
    (issuerPass settings key).run.Secures (view key errand i) (Turn i) (Done errand i) s := by
  unfold issuerPass
  rw [Pass.run_bind]
  intro t hst found u hfound
  obtain ⟨ht, hsame⟩ := later_trail hs hst
  cases hfound with
  | noIssuer => exact ⟨.refl ht, done_secures herrand _⟩
  | otherIssuer hother => exact absurd rfl hother
  | aside haside => exact haside.elim
  | issuer =>
    have hturn : Turn i t (t.read i) := by
      refine read_turn ht ?_
      rw [hsame, htrail]
    refine ⟨hturn, ?_⟩
    cases hstored : t.issuer with
    | none => exact done_secures herrand _
    | some issuer =>
      obtain ⟨version, hgiven, hversion⟩ := ht.version issuer hstored
      exact judge_secures herrand hturn.1 hversion ⟨hgiven, .inl (Function.update_self _ _ _)⟩

end IssuerPasses

/-! ### Passes over requests -/

section RequestPasses

variable {settings : Settings} {w : Work}

/-- The questions that a pass that has read an open issuer goes on to ask. -/
def IsFree : Question → Prop
  | .sign _ _ _ | .writeRequest _ _ _ => True
  | q => IsAside q

theorem free_turn {q : Question} {a : q.Answer} (hq : IsFree q) (hs : s.Coherent)
    (hopen : (s.trail i).turned = false) (h : Answers key i s q a t) :
    Turn i s t ∧ (t.trail i).turned = false := by
  have hmarked {trail : Trail} (htrail : trail.turned = false) :
      Turn i s (s.mark i trail) ∧ ((s.mark i trail).trail i).turned = false := by
    refine ⟨mark_turn hs fun hturned => (nomatch htrail.symm.trans hturned), ?_⟩
    simp only [mark, Function.update_self]
    exact htrail
  cases h with
  | signed | written | unwritten => exact hmarked hopen
  | aside => exact ⟨.refl hs, hopen⟩
  | _ => exact hq.elim

/-- A pass that was not turned away is free to go on. -/
theorem free_secures {α : Type} {x : Pass α} (hx : Pass.Within IsFree (fun _ => True) x)
    (hs : s.Coherent) (hopen : (s.trail i).turned = false) :
    x.run.Secures (view key errand i) (Turn i)
      (fun _ t => t.Coherent ∧ (t.trail i).turned = false) s := by
  unfold Pass.Within at hx
  refine Secures.mono (hx.secures (R := fun s => s.Coherent ∧ (s.trail i).turned = false)
    ?_ ?_ ⟨hs, hopen⟩) fun _ _ h => h.2
  · intro s t hs hmove
    obtain ⟨ht, hst⟩ := view_moves hmove
    rw [hst.trail]
    exact ⟨ht, hs.2⟩
  · intro s q a t hq hs hanswer
    obtain ⟨hturn, hopen⟩ := free_turn hq hs.1 hs.2 hanswer
    exact ⟨hturn, hturn.1, hopen⟩

theorem awaitsIssuer_waiting (message : String) :
    AwaitsIssuer (w.waiting Reason.issuerNotReady message).status :=
  ⟨_, Conditions.get?_set_self _ _ _ _ _ _ _, rfl, rfl⟩

theorem marked_secures {r : Except ControllerError Requeue} {trail : Trail} (hs : s.Coherent)
    (htrail : trail.turned = true → trail.signed = false) (hends : trail.Ends r) :
    Turn i s (s.mark i trail) ∧ (done r).Secures (view key errand i) (Turn i)
      (fun r t => (t.trail i).Ends r) (s.mark i trail) := by
  have hturn := mark_turn (i := i) hs htrail
  have hmarked : (s.mark i trail).trail i = trail := Function.update_self i _ _
  refine ⟨hturn, fun t hst => ?_⟩
  obtain ⟨-, hsame⟩ := later_trail hturn.1 hst
  rw [hsame, hmarked]
  exact hends

/-- A pass that finds that its issuer is not ready leaves its request waiting. -/
theorem awaitIssuer_secures {message : String} {delay : Span} (hs : s.Coherent)
    (hleft : (s.trail i).left = some w.request.currentStatus) :
    ((Exit.awaitIssuer message delay).take w).run.Secures (view key errand i) (Turn i)
      (fun r t => (t.trail i).Ends r) s := by
  have hwaits : AwaitsIssuer ((Exit.awaitIssuer message delay).work w).status :=
    awaitsIssuer_waiting message
  unfold Exit.take Work.write
  rw [work_request]
  by_cases hunchanged : ((Exit.awaitIssuer message delay).work w).status = w.request.currentStatus
  · rw [if_pos hunchanged, pure_bind]
    intro t hst
    obtain ⟨-, hsame⟩ := later_trail hs hst
    rw [← hsame] at hleft
    rw [hunchanged] at hwaits
    exact .inl ⟨delay, rfl, _, hleft, hwaits⟩
  · rw [if_neg hunchanged, Pass.run_bind]
    intro t hst r u hanswer
    have ht := later_coherent hs hst
    cases hanswer with
    | aside haside => exact haside.elim
    | written => exact marked_secures ht (ht.unsigned i) (.inl ⟨delay, rfl, _, rfl, hwaits⟩)
    | unwritten => exact marked_secures ht (ht.unsigned i) (.inr ⟨_, rfl, rfl⟩)

/-- What comes of looking around: the pass was not turned away, or it is to wait. -/
def Found (i : ι) (finding : Finding) (t : Traffic ι) : Prop :=
  t.Coherent ∧ ((t.trail i).turned = false ∨
    ∃ w message delay, finding = .exit w (.awaitIssuer message delay) ∧
      (t.trail i).left = some w.request.currentStatus)

theorem seekSecrets_asks {issuer : Issuer} {backoff : Span} :
    Pass.Within IsFree (fun _ => True) (w.seekSecrets settings issuer backoff) := by
  refine (loadSecrets_asks fun _ _ _ _ => trivial).bind fun loaded _ => ?_
  cases loaded with
  | error e => exact Pass.within_pure trivial
  | ok secrets =>
    cases w.order? with
    | error text => exact Pass.within_pure trivial
    | ok order =>
      have hbuild : IsFree (.buildSigner issuer.spec secrets) := trivial
      refine (Pass.within_ask hbuild).bind fun built _ => ?_
      cases built <;> exact Pass.within_pure trivial

theorem act_asks {finding : Finding} :
    Pass.Within IsFree (fun _ => True) (act settings finding) := by
  have hclosing : ∀ q : Question, q.IsClosing → IsFree q := by
    intro q hq
    cases q with
    | writeRequest _ _ _ | recordIssued => trivial
    | _ => exact hq.elim
  cases finding with
  | idle => exact Pass.within_pure trivial
  | exit w e => exact (take_within e w).widen hclosing
  | order w issuer secrets order =>
    have hsign : IsFree (.sign issuer.spec secrets order) := trivial
    exact (Pass.within_ask hsign).bind fun answer _ => (take_within _ w).widen hclosing

def Looked (i : ι) (r : Except ControllerError Finding) (t : Traffic ι) : Prop :=
  match r with
  | .ok finding => Found i finding t
  | .error _ => t.Coherent ∧ (t.trail i).turned = false

theorem looked_secures {r : Except ControllerError Finding} (hs : s.Coherent)
    (hopen : (s.trail i).turned = false) :
    (done r).Secures (view key errand i) (Turn i) (Looked i) s := by
  intro t hst
  obtain ⟨ht, hsame⟩ := later_trail hs hst
  rw [← hsame] at hopen
  cases r with
  | ok finding => exact ⟨ht, .inl hopen⟩
  | error e => exact ⟨ht, hopen⟩

theorem await_secures {message : String} {delay : Span} (hs : s.Coherent)
    (hleft : (s.trail i).left = some w.request.currentStatus) :
    (done (.ok (.exit w (.awaitIssuer message delay)))).Secures (view key errand i) (Turn i)
      (Looked i) s := by
  intro t hst
  obtain ⟨ht, hsame⟩ := later_trail hs hst
  rw [← hsame] at hleft
  exact ⟨ht, .inr ⟨w, message, delay, rfl, hleft⟩⟩

theorem open_secures {x : Pass Finding} (hx : Pass.Within IsFree (fun _ => True) x)
    (hs : s.Coherent) (hopen : (s.trail i).turned = false) :
    x.run.Secures (view key errand i) (Turn i) (Looked i) s := by
  refine (free_secures hx hs hopen).mono fun r t h => ?_
  cases r with
  | ok finding => exact ⟨h.1, .inl h.2⟩
  | error e => exact h

/-- What comes of reading an issuer: one that is ready was read while it was open. -/
theorem seekFound_secures {kind : IssuerKind} {backoff : Span} {found : Option Issuer}
    (hs : s.Coherent) (hleft : (s.trail i).left = some w.request.currentStatus) :
    (∀ issuer ∈ found, issuer.status.isReady = true → (s.trail i).turned = false) →
    (match found with
      | none =>
        return .exit w (.awaitIssuer
          (kind.text ++ " " ++ w.request.spec.issuerRef.name ++ " not found") backoff)
      | some issuer =>
        if issuer.status.isReady then w.seekSecrets settings issuer backoff
        else return .exit w (.awaitIssuer (issuer.displayName ++ " is not Ready") backoff) :
      Pass Finding).run.Secures (view key errand i) (Turn i) (Looked i) s := by
  intro hopen
  cases found with
  | none => exact await_secures hs hleft
  | some issuer =>
    dsimp only
    by_cases hready : issuer.status.isReady = true
    · rw [if_pos hready]
      exact open_secures seekSecrets_asks hs (hopen issuer rfl hready)
    · rw [if_neg hready]
      exact await_secures hs hleft

theorem seekIssuer_secures {kind : IssuerKind} (hs : s.Coherent)
    (htrail : s.trail i = { left := some w.request.currentStatus }) :
    (w.seekIssuer settings kind).run.Secures (view key errand i) (Turn i) (Looked i) s := by
  unfold Work.seekIssuer
  dsimp only
  rw [Pass.run_bind]
  intro t hst found u hfound
  obtain ⟨ht, hsame⟩ := later_trail hs hst
  rw [← hsame] at htrail
  have hleft : (t.trail i).left = some w.request.currentStatus := by rw [htrail]
  have hopen : (t.trail i).turned = false := by rw [htrail]
  cases hfound with
  | aside haside => exact haside.elim
  | noIssuer => exact ⟨.refl ht, looked_secures ht hopen⟩
  | otherIssuer =>
    refine ⟨.refl ht, ?_⟩
    cases found with
    | error e => exact looked_secures ht hopen
    | ok found => exact seekFound_secures ht hleft fun _ _ _ => hopen
  | issuer =>
    have hturn : Turn i t (t.read i) := by
      refine read_turn ht ?_
      rw [htrail]
    have hread : (t.read i).trail i = { t.trail i with turned := t.shut } :=
      Function.update_self i _ _
    refine ⟨hturn, seekFound_secures hturn.1 ?_ fun issuer hissuer hready => ?_⟩
    · rw [hread]
      exact hleft
    · -- an issuer that is ready was not shut when it was read
      rw [hread]
      refine Bool.eq_false_iff.mpr fun hshut => ?_
      exact nomatch (ht.barred hshut issuer hissuer).symm.trans hready

theorem surveyOf_secures {scheme : Scheme} {found : Option CertificateRequest} (hs : s.Coherent)
    (htrail : s.trail i = { left := found.map CertificateRequest.currentStatus }) :
    (surveyOf settings scheme found).run.Secures (view key errand i) (Turn i) (Looked i) s := by
  have hopen : (s.trail i).turned = false := by rw [htrail]
  cases found with
  | none => exact looked_secures hs hopen
  | some request =>
    unfold surveyOf
    dsimp only
    cases issuerKindOf? scheme request with
    | none => exact looked_secures hs hopen
    | some kind =>
      dsimp only
      split
      · exact looked_secures hs hopen
      · rw [Pass.run_bind]
        intro t hst now u hnow
        obtain ⟨ht, hsame⟩ := later_trail hs hst
        rw [← hsame] at htrail
        have hopen : (t.trail i).turned = false := by rw [htrail]
        have haside : IsAside .now := trivial
        obtain rfl := aside_eq haside hnow
        refine ⟨.refl ht, ?_⟩
        change ((Work.start request now).seekApproval settings kind).run.Secures _ _ _ _
        unfold Work.seekApproval
        split
        · refine seekIssuer_secures ht (htrail.trans ?_)
          exact congrArg (fun r => ({ left := some (CertificateRequest.currentStatus r) } : Trail))
            (start_request request now).symm
        · exact looked_secures ht hopen
        · exact looked_secures ht hopen

theorem act_secures {finding : Finding} (h : Found i finding s) :
    (act settings finding).run.Secures (view key errand i) (Turn i) (Done errand i) s := by
  obtain ⟨hs, hopen | ⟨w, message, delay, rfl, hleft⟩⟩ := h
  · refine (free_secures act_asks hs hopen).mono fun r t ht ns name _ hturned => ?_
    exact nomatch ht.2.symm.trans hturned
  · exact (awaitIssuer_secures hs hleft).mono fun r t hends ns name _ _ => hends

theorem requestPass_secures {scheme : Scheme} {ns name : String} (hs : s.Coherent)
    (htrail : s.trail i = {}) :
    (requestPass settings scheme ns name).run.Secures (view key errand i) (Turn i)
      (Done errand i) s := by
  rw [requestPass_eq]
  have hsurvey : (survey settings scheme ns name).run.Secures (view key errand i) (Turn i)
      (Looked i) s := by
    unfold survey
    rw [Pass.run_bind]
    intro t hst found u hfound
    obtain ⟨ht, hsame⟩ := later_trail hs hst
    rw [← hsame] at htrail
    cases hfound with
    | aside haside => exact haside.elim
    | noRequest => exact ⟨.refl ht, looked_secures ht (by rw [htrail])⟩
    | @request _ _ found =>
      have hturn : Turn i t (t.mark i { t.trail i with
          left := found.map CertificateRequest.currentStatus }) := mark_turn ht (ht.unsigned i)
      refine ⟨hturn, surveyOf_secures hturn.1 ?_⟩
      rw [htrail]
      exact Function.update_self i _ _
  refine secures_bind hsurvey (fun finding t hfound => act_secures hfound) ?_
  intro e t hfailed u htu ns name _ hturned
  obtain ⟨ht, hopen⟩ := hfailed
  rw [(later_trail ht htu).2, hopen] at hturned
  cases hturned

end RequestPasses

/-! ### Runs -/

theorem traffic_orderly : (traffic key errand).Orderly Turn Coherent (Done errand) where
  moves _ _ hs hmove := hmove.coherent hs
  acts _ _ _ _ hturn := hturn.1
  opens i s d t hs hopen := by
    obtain ⟨⟨settings, scheme, rfl⟩, rfl⟩ := hopen
    have hturn : Turn i s (s.begin i) := begin_turn hs
    have htrail : (s.begin i).trail i = {} := Function.update_self i _ _
    refine ⟨hturn, ?_⟩
    cases herrand : errand i with
    | issuer => exact issuerPass_secures herrand hturn.1 htrail
    | request ns name => exact requestPass_secures hturn.1 htrail
  closes i s r t hs _ hclose := by
    cases hclose
    exact .refl hs

/-- What holds at any time. While the issuer is shut, what is stored is not ready. A pass that has
read the issuer while it was shut has not called the signer, and is not about to. A pass over a
request that ends after it has read the issuer while it was shut leaves its request waiting for the
issuer, to be looked at again after a delay, or ends with the error that came of writing that. -/
structure Barred (errand : ι → Errand)
    (C : Crowd ι Question Question.Answer (Except ControllerError Requeue) (Traffic ι)) :
    Prop where
  shut : C.state.shut = true → ∀ issuer ∈ C.state.issuer, issuer.status.isReady = false
  unsigned : ∀ i, (C.state.trail i).turned = true → (C.state.trail i).signed = false
  silent : ∀ i spec secrets order next, C.talks i = some (.ask (.sign spec secrets order) next) →
    (C.state.trail i).turned = false
  ends : ∀ i ns name r, errand i = .request ns name → C.talks i = some (.done r) →
    (C.state.trail i).turned = true → (C.state.trail i).Ends r

/-- Any number of passes over an issuer and over requests, from when none has begun. -/
theorem traffic_barred
    {C : Crowd ι Question Question.Answer (Except ControllerError Requeue) (Traffic ι)}
    (hfresh : s.Fresh) (hrun : (traffic key errand).Run ⟨s, fun _ => none⟩ C) :
    Barred errand C := by
  have hstart : (traffic key errand).Sound Turn Coherent (Done errand) ⟨s, fun _ => none⟩ :=
    ⟨hfresh.coherent, fun _ _ h => nomatch h⟩
  have hsound := Manners.run_sound traffic_orderly hstart hrun
  refine ⟨hsound.invariant.barred, hsound.invariant.unsigned, ?_, ?_⟩
  · intro i spec secrets order next htalk
    -- the call would be recorded, and a pass that was turned away must not have it on record
    have hcall := hsound.secures i _ htalk _ .refl none _ .signed
    refine Bool.eq_false_iff.mpr fun hturned => ?_
    have hunsigned := hcall.1.1.unsigned i
    simp only [mark, Function.update_self] at hunsigned
    exact nomatch hunsigned hturned
  · exact fun i ns name r herrand htalk hturned => hsound.at_end htalk ns name herrand hturned

/-! ### A request that is turned away -/

/-- The answers at once, while checks of the issuer fail and there is one request. -/
def serve (key : IssuerKey) (i : ι) (q : Question) (s : Traffic ι) : q.Answer × Traffic ι :=
  match q with
  | .issuer k => if k = key then (.ok s.issuer, s.read i) else (.ok none, s)
  | .request _ _ =>
    let request := (sampleRequest "Y3Ny" {}).val
    (.ok (some request), s.mark i { s.trail i with left := some request.currentStatus })
  | .check _ _ => (none, s)
  | .sign _ _ _ => (none, s.mark i { s.trail i with signed := true })
  | .writeIssuer issuer status =>
    match s.issuer with
    | none => (.error .client, s)
    | some old =>
      if issuer.key = key ∧ issuer.resourceVersion = old.resourceVersion ∧ "2" ∉ s.versions then
        (.ok (), s.store old status "2")
      else (.error (.conflict issuer.displayName), s)
  | .writeRequest _ status _ => (.ok (), s.mark i { s.trail i with left := some status })
  | q => (sampleWorld (.error (.transient "")) q, s)

theorem answers_serve (q : Question) (s : Traffic ι) :
    Answers key i s q (serve key i q s).1 (serve key i q s).2 := by
  unfold serve
  cases q with
  | issuer k =>
    by_cases hk : k = key
    · subst hk
      simp only [if_true]
      exact .issuer
    · simp only [if_neg hk]
      exact .otherIssuer hk
  | request ns name => exact .request
  | check spec secrets => exact .unverified nofun
  | sign spec secrets order => exact .signed
  | writeIssuer issuer status =>
    dsimp only
    cases hstored : s.issuer with
    | none => exact .refused
    | some old =>
      by_cases haccepts : issuer.key = key ∧ issuer.resourceVersion = old.resourceVersion ∧
          "2" ∉ s.versions
      · simp only [if_pos haccepts]
        exact .stored ⟨hstored, haccepts.1, .inr haccepts.2.1⟩ haccepts.2.2
      · simp only [if_neg haccepts]
        exact .refused
  | writeRequest request status p => exact .written
  | now | secret _ | buildSigner _ _ | buildChecker _ _ | recordIssued => exact .aside trivial

/-- One party looks after the issuer, and the other one after a request. -/
def errands (second : Bool) : Errand := if second then .request "apps" "web" else .issuer

def ready : Traffic Bool where
  issuer := some { sampleIssuer with resourceVersion := some "1" }
  versions := ["1"]
  shut := false
  current _ := false
  trail _ := {}

def failed : Traffic Bool :=
  ((issuerPass sampleSettings sampleIssuer.key).run.hold (serve sampleIssuer.key false)
    (ready.begin false)).2

def turnedAway : Except ControllerError Requeue × Traffic Bool :=
  (requestPass sampleSettings .standard "apps" "web").run.hold (serve sampleIssuer.key true)
    (failed.begin true)

theorem traffic_barred_turned_away :
    ∃ C r, (traffic sampleIssuer.key errands).Run ⟨ready, fun _ => none⟩ C ∧ Barred errands C ∧
      C.talks true = some (.done r) ∧ (C.state.trail true).turned = true ∧
      (C.state.trail true).Ends r := by
  have hfresh : ready.Fresh := by
    refine ⟨fun issuer hissuer => ?_, rfl, fun _ => rfl⟩
    cases hissuer
    exact ⟨"1", List.mem_cons_self, rfl⟩
  have hfailed : (traffic sampleIssuer.key errands).Run ⟨ready, fun _ => none⟩
      ⟨failed, fun _ => none⟩ :=
    Manners.run_alone (i := false) rfl ⟨⟨sampleSettings, .standard, rfl⟩, rfl⟩
      (Manners.alone_hold answers_serve _ _) rfl
  have hheard : (traffic sampleIssuer.key errands).Run ⟨failed, fun _ => none⟩
      ⟨turnedAway.2, Function.update (fun _ => none) true (some (.done turnedAway.1))⟩ :=
    Manners.run_heard (i := true) rfl ⟨⟨sampleSettings, .standard, rfl⟩, rfl⟩
      (Manners.alone_hold answers_serve _ _)
  have hbarred := traffic_barred hfresh (hfailed.trans hheard)
  have hturned : (turnedAway.2.trail true).turned = true := by decide +kernel
  exact ⟨_, _, hfailed.trans hheard, hbarred, rfl, hturned, hbarred.ends _ _ _ _ rfl rfl hturned⟩

end Passes

end CertIssuer.Readiness
