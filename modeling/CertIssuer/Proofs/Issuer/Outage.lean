import CertIssuer.Proofs.Conditions.History
import CertIssuer.Proofs.Quiescence
import CertIssuer.Proofs.Request.Budget
import CertIssuer.Proofs.Time.Epoch

/-!
# The outage of an authority

While its authority is out of order an issuer is passed over again and again, and no pass remembers
the one before. What they share is the condition `Ready`. The first of them puts down since when the
issuer has been failing, unless that stands there already; the others find it, work out their delays
from it and leave it as it is, and they only write what the first one could not know
(`outage_backs_off`). Leap seconds aside, the delays never get shorter.
-/

namespace CertIssuer.Reconcile

open Pass

/-! ### One pass -/

/-- The secrets are there, but no checker is built from them, for other reasons than the settings,
or the check fails or is late. The message says which. -/
inductive OutOfOrder (settings : Settings) (world : (q : Question) → q.Answer) (i : Issuer) :
    String → Prop
  | unbuilt {secrets : IssuerSecrets} {e : SignerError} :
      result world (loadSecrets settings i) = .ok (.ok secrets) →
      world (.buildChecker i.spec secrets) = .error e → (∀ text, e ≠ .config text) →
      OutOfOrder settings world i e.message
  | refused {secrets : IssuerSecrets} {e : SignerError} :
      result world (loadSecrets settings i) = .ok (.ok secrets) →
      world (.buildChecker i.spec secrets) = .ok () →
      world (.check i.spec secrets) = some (.error e) →
      OutOfOrder settings world i ("health check failed: " ++ e.message)
  | late {secrets : IssuerSecrets} :
      result world (loadSecrets settings i) = .ok (.ok secrets) →
      world (.buildChecker i.spec secrets) = .ok () → world (.check i.spec secrets) = none →
      OutOfOrder settings world i ("health check timed out after " ++ settings.authorityTimeout.text)

section Pass

variable {settings : Settings} {key : IssuerKey} {world : (q : Question) → q.Answer} {i : Issuer}
  {v : Verdict}

theorem OutOfOrder.evaluated {message : String} (h : OutOfOrder settings world i message)
    (now : Timestamp) :
    result world (evaluate settings i now) = .ok (.checkFailed settings i now message) := by
  cases h with
  | @unbuilt secrets e hload hbuild he =>
    simp only [evaluate, result_bind, hload, checkIssuer, result_ask, hbuild]
    cases e with
    | config text => exact absurd rfl (he text)
    | transient text | permanent text => rfl
  | refused hload hbuild hcheck =>
    simp only [evaluate, result_bind, hload, checkIssuer, result_ask, hbuild, hcheck]
    rfl
  | late hload hbuild hcheck =>
    simp only [evaluate, result_bind, hload, checkIssuer, result_ask, hbuild, hcheck]
    rfl

/-- A pass whose write is accepted ends with the delay of its verdict. -/
theorem ends_of_verdict (hfound : world (.issuer key) = .ok (some i))
    (hv : result world (evaluate settings i (clock world)) = .ok v)
    (haccepted : ∀ status, .writeIssuer i status ∈ asked world (issuerPass settings key) →
      world (.writeIssuer i status) = .ok ()) :
    result world (issuerPass settings key) = .ok v.requeue := by
  have hclock : result world Pass.now = .ok (clock world) := rfl
  have hwrites := writes_of_verdict hfound hv (v.statusAt i (clock world))
  simp only [issuerPass, result_bind, result_getIssuer, hfound, hclock, hv]
  cases hchanged : (v.publish i (clock world)).1 with
  | false => rfl
  | true =>
    have hwritten : result world (Pass.writeIssuer i (v.statusAt i (clock world))) = .ok () :=
      haccepted _ (hwrites.mpr ⟨hchanged, rfl⟩)
    simp only [if_true, result_bind, hwritten]
    rfl

theorem publish_changed_iff (v : Verdict) (i : Issuer) (now : Timestamp) :
    (v.publish i now).1 = true ↔ i.status.conditions.filter (·.type = Condition.ready) ≠
      [i.status.conditions.entry Condition.ready v.status v.reason v.message i.generation now] := by
  have hholds := Conditions.holds_iff i.status.conditions
    (i.status.conditions.entry Condition.ready v.status v.reason v.message i.generation now)
  refine Iff.trans ?_ (not_congr hholds)
  simp only [Verdict.publish, Conditions.set]
  by_cases h : i.status.conditions.holds (i.status.conditions.entry Condition.ready v.status
    v.reason v.message i.generation now) = true
  · simp [h]
  · simp [h]

end Pass

/-- A pass over a stored issuer whose authority is out of order. Its write, if it has one, is
accepted. -/
structure OutagePass (settings : Settings) (key : IssuerKey) where
  world : (q : Question) → q.Answer
  before : Issuer
  after : Issuer
  visit : IssuerVisit settings key world before after
  accepted : ∀ status, .writeIssuer before status ∈ asked world (issuerPass settings key) →
    world (.writeIssuer before status) = .ok ()
  message : String
  fails : OutOfOrder settings world before message

namespace OutagePass

variable {settings : Settings} {key : IssuerKey} (a : OutagePass settings key)

def now : Timestamp := clock a.world

/-- Since when the issuer has been failing, as far as it is known. -/
def since : Timestamp := (Verdict.failingSince a.before).getD a.now

def delay : Span :=
  (a.now.elapsed a.since).clamp settings.retry.base
    (max settings.retry.base settings.retry.maxInterval)

/-- What the pass leaves as `Ready`, if the issuer has been failing since then. -/
def ready (since : Timestamp) : Condition where
  type := Condition.ready
  status := .isFalse
  reason := some Reason.healthCheckFailed
  message := some a.message
  observedGeneration := a.before.generation
  lastTransitionTime := some since

def Writes : Prop :=
  ∃ status, .writeIssuer a.before status ∈ asked a.world (issuerPass settings key)

theorem evaluated : result a.world (evaluate settings a.before (clock a.world)) =
    .ok (.checkFailed settings a.before a.now a.message) :=
  a.fails.evaluated a.now

theorem elapsed_eq : a.now.elapsedSince (Verdict.failingSince a.before) =
    a.now.elapsed a.since := by
  unfold since
  cases Verdict.failingSince a.before with
  | some t => rfl
  | none => exact a.now.elapsed_self.symm

theorem ends : result a.world (issuerPass settings key) = .ok (.after a.delay) := by
  rw [ends_of_verdict a.visit.found a.evaluated a.accepted, delay, ← RetryPolicy.requeueAfter_eq,
    ← elapsed_eq]
  rfl

theorem entry_eq :
    a.before.status.conditions.entry Condition.ready .isFalse Reason.healthCheckFailed a.message
      a.before.generation a.now = a.ready a.since := by
  have htime : a.before.status.conditions.transitionTime Condition.ready .isFalse a.now =
      a.since :=
    Conditions.transitionTime_eq_recorded _ _ _ _
  rw [Conditions.entry, htime]
  rfl

/-- After the pass the issuer is not ready, in a single entry. -/
theorem leaves : a.after.status.conditions.filter (·.type = Condition.ready) =
    [a.ready a.since] := by
  rw [conditions_of_visit a.visit a.evaluated a.ends, ← a.entry_eq]
  exact Conditions.filter_set_self _ _ _ _ _ _ _

theorem writes_iff : a.Writes ↔
    a.before.status.conditions.filter (·.type = Condition.ready) ≠ [a.ready a.since] := by
  have hwrites := writes_of_verdict a.visit.found a.evaluated
  have hchanged := publish_changed_iff (.checkFailed settings a.before a.now a.message) a.before
    a.now
  rw [← a.entry_eq]
  refine Iff.trans ?_ hchanged
  constructor
  · rintro ⟨status, hwrite⟩
    exact ((hwrites status).mp hwrite).1
  · exact fun h => ⟨_, (hwrites _).mpr ⟨h, rfl⟩⟩

/-! ### One pass after another -/

/-- The next pass of the outage: `Ready` is as the pass before has left it, and the clock has not
gone back. Everything else about the issuer may have changed. -/
structure Follows (a b : OutagePass settings key) : Prop where
  kept : b.before.status.conditions.filter (·.type = Condition.ready) =
    a.after.status.conditions.filter (·.type = Condition.ready)
  later : a.now ≤ b.now

variable {a} {b : OutagePass settings key}

theorem Follows.finds (h : a.Follows b) :
    b.before.status.conditions.filter (·.type = Condition.ready) = [a.ready a.since] :=
  h.kept.trans a.leaves

theorem Follows.readyCondition?_eq (h : a.Follows b) :
    b.before.status.readyCondition? = some (a.ready a.since) := by
  rw [IssuerStatus.readyCondition?, Conditions.get?_eq_head?, h.finds, List.head?_cons]

theorem Follows.since_eq (h : a.Follows b) : b.since = a.since := by
  simp only [since, Verdict.failingSince, h.readyCondition?_eq]
  rfl

/-- A later pass writes exactly when it has something else to say than the issuer does. -/
theorem Follows.writes_iff (h : a.Follows b) :
    b.Writes ↔ a.message ≠ b.message ∨ a.before.generation ≠ b.before.generation := by
  rw [b.writes_iff, h.finds, h.since_eq, ne_eq, List.cons.injEq]
  simp only [ready, Condition.mk.injEq, Option.some.injEq, true_and, and_true]
  exact Classical.not_and_iff_not_or_not

/-! ### The whole outage -/

variable {first : OutagePass settings key} {rest : List (OutagePass settings key)}

theorem since_of_chain (h : (first :: rest).IsChain Follows) :
    ∀ a ∈ first :: rest, a.since = first.since := by
  -- on the passes that follow: each reads the time that the one before has left
  induction rest generalizing first with
  | nil => simp
  | cons b rest ih =>
    obtain ⟨hfollows, hrest⟩ := List.isChain_cons_cons.mp h
    refine List.forall_mem_cons.mpr ⟨rfl, fun a ha => ?_⟩
    rw [ih hrest a ha, hfollows.since_eq]

theorem exists_follows (h : (first :: rest).IsChain Follows) :
    ∀ b ∈ rest, ∃ a ∈ first :: rest, a.Follows b := by
  induction rest generalizing first with
  | nil => exact fun b hb => absurd hb List.not_mem_nil
  | cons b rest ih =>
    obtain ⟨hfollows, hrest⟩ := List.isChain_cons_cons.mp h
    refine List.forall_mem_cons.mpr ⟨⟨first, List.mem_cons_self, hfollows⟩, fun c hc => ?_⟩
    obtain ⟨a, ha, hac⟩ := ih hrest c hc
    exact ⟨a, List.mem_cons_of_mem first ha, hac⟩

theorem clocks_sorted {passes : List (OutagePass settings key)} (h : passes.IsChain Follows) :
    passes.Pairwise fun a b => a.now ≤ b.now := by
  let Earlier (a b : OutagePass settings key) : Prop := a.now ≤ b.now
  have : Trans Earlier Earlier Earlier := ⟨Timestamp.le_trans⟩
  have hclocks : passes.IsChain Earlier := h.imp fun _ _ hfollows => hfollows.later
  exact hclocks.pairwise

end OutagePass

/-- All passes of an outage give one and the same time since when the issuer has been failing: what
was recorded before it, or the time of its first pass. From this time alone each works out when the
next one is due. After the first pass there is a write exactly when the message or the generation
is not what is stored. Where no leap second comes in, the delays are in order. -/
theorem outage_backs_off (settings : Settings) (key : IssuerKey) (first : OutagePass settings key)
    (rest : List (OutagePass settings key)) (hchain : (first :: rest).IsChain OutagePass.Follows) :
    (∀ a ∈ first :: rest,
      a.after.status.conditions.filter (·.type = Condition.ready) = [a.ready first.since] ∧
      result a.world (issuerPass settings key) =
        .ok (.after ((a.now.elapsed first.since).clamp settings.retry.base
          (max settings.retry.base settings.retry.maxInterval)))) ∧
    (∀ b ∈ rest, ∃ stored, b.before.status.readyCondition? = some stored ∧
      stored.lastTransitionTime = some first.since ∧
      (b.Writes ↔
        stored.message ≠ some b.message ∨ stored.observedGeneration ≠ b.before.generation)) ∧
    (first.since.inLeapSecond = false →
      (∀ a ∈ first :: rest, a.now.inLeapSecond = false) →
      (first :: rest).Pairwise fun a b => a.delay ≤ b.delay) := by
  have hsince := OutagePass.since_of_chain hchain
  refine ⟨fun a ha => ?_, fun b hb => ?_, fun hleap hleaps => ?_⟩
  · rw [← hsince a ha]
    exact ⟨a.leaves, a.ends⟩
  · obtain ⟨a, ha, hfollows⟩ := OutagePass.exists_follows hchain b hb
    refine ⟨a.ready a.since, hfollows.readyCondition?_eq, ?_, ?_⟩
    · rw [← hsince a ha]
      rfl
    · rw [hfollows.writes_iff]
      simp only [OutagePass.ready, ne_eq, Option.some.injEq]
  · refine (OutagePass.clocks_sorted hchain).imp_of_mem fun {a b} ha hb hlater => ?_
    rw [OutagePass.delay, OutagePass.delay, hsince a ha, hsince b hb]
    exact Span.clamp_mono (Timestamp.elapsed_mono hlater hleap (hleaps a ha) (hleaps b hb)) _ _

/-! ### An outage of a minute and a day -/

def outageWorld (i : Issuer) (t : Timestamp) (answer : Option (Except SignerError Unit)) :
    (q : Question) → q.Answer
  | .now => t
  | .issuer _ => .ok (some i)
  | .check _ _ => answer
  | q => sampleWorld (.ok ⟨"chain", "root"⟩) q

/-- The issuer with a failure published, if that changes it. -/
def failedIssuer (i : Issuer) (t : Timestamp) (message : String) : Issuer :=
  if ((Verdict.checkFailed sampleSettings i t message).publish i t).1 then
    { i with status := (Verdict.checkFailed sampleSettings i t message).statusAt i t }
  else i

def outagePass (i : Issuer) (t : Timestamp) (answer : Option (Except SignerError Unit))
    (message : String) (h : OutOfOrder sampleSettings (outageWorld i t answer) i message) :
    OutagePass sampleSettings sampleIssuer.key where
  world := outageWorld i t answer
  before := i
  after := failedIssuer i t message
  visit := by
    have hfound : outageWorld i t answer (.issuer sampleIssuer.key) = .ok (some i) := rfl
    have hwrites := writes_of_verdict hfound (h.evaluated t)
    unfold failedIssuer
    split
    · next hchanged => exact .written _ hfound ((hwrites _).mpr ⟨hchanged, rfl⟩) rfl
    · next hunchanged =>
      exact .kept hfound fun status hwrite => absurd ((hwrites status).mp hwrite).1 hunchanged
  accepted := fun _ _ => rfl
  message := message
  fails := h

abbrev FindsSecrets (i : Issuer) (t : Timestamp) (answer : Option (Except SignerError Unit)) :
    Prop :=
  result (outageWorld i t answer) (loadSecrets sampleSettings i) = .ok (.ok ⟨[], none⟩)

def latePass (i : Issuer) (t : Timestamp) (h : FindsSecrets i t none) :
    OutagePass sampleSettings sampleIssuer.key :=
  outagePass i t none _ (.late h rfl rfl)

def refusedPass (i : Issuer) (t : Timestamp) (e : SignerError)
    (h : FindsSecrets i t (some (.error e))) : OutagePass sampleSettings sampleIssuer.key :=
  outagePass i t (some (.error e)) _ (.refused h rfl rfl)

def firstLate : OutagePass sampleSettings sampleIssuer.key := latePass doubledIssuer ⟨7, 0⟩ rfl

def stillLate : OutagePass sampleSettings sampleIssuer.key := latePass firstLate.after ⟨67, 0⟩ rfl

def thenRefused : OutagePass sampleSettings sampleIssuer.key :=
  refusedPass stillLate.after ⟨86407, 0⟩ (.transient "no route") rfl

/-- `Ready` is there twice and says `False`, without a time, when the check is late for the first
time. A minute later it is late again, and a day later it fails. -/
theorem outage_backs_off_doubled :
    [firstLate, stillLate, thenRefused].IsChain OutagePass.Follows ∧
      firstLate.since = ⟨7, 0⟩ ∧ ¬ stillLate.Writes ∧ thenRefused.Writes ∧
      result thenRefused.world (issuerPass sampleSettings sampleIssuer.key) =
        .ok (.after (.ofSeconds 300)) ∧
      [firstLate, stillLate, thenRefused].Pairwise fun a b => a.delay ≤ b.delay := by
  have hchain : [firstLate, stillLate, thenRefused].IsChain OutagePass.Follows :=
    .cons_cons ⟨rfl, by decide⟩ (.cons_cons ⟨rfl, by decide⟩ (.singleton _))
  obtain ⟨hends, hwrites, hdelays⟩ := outage_backs_off _ _ _ _ hchain
  have hread : ∀ b ∈ [stillLate, thenRefused],
      b.before.status.readyCondition? = some (firstLate.ready ⟨7, 0⟩) := by
    simp only [List.forall_mem_cons, List.not_mem_nil, false_imp_iff, implies_true, and_true]
    exact ⟨rfl, rfl⟩
  have htells : ∀ b ∈ [stillLate, thenRefused], b.Writes ↔
      some firstLate.message ≠ some b.message ∨ doubledIssuer.generation ≠ b.before.generation := by
    intro b hb
    obtain ⟨stored, hstored, -, hiff⟩ := hwrites b hb
    cases (hread b hb).symm.trans hstored
    exact hiff
  refine ⟨hchain, rfl, fun hwrite => ?_, ?_, ?_, hdelays rfl ?_⟩
  · rcases (htells _ List.mem_cons_self).mp hwrite with hmessage | hgeneration
    · exact hmessage rfl
    · exact hgeneration rfl
  · exact (htells thenRefused (by simp)).mpr (.inl (by decide))
  · exact (hends thenRefused (by simp)).2
  · simp only [List.forall_mem_cons, List.not_mem_nil, false_imp_iff, implies_true, and_true]
    exact ⟨rfl, rfl, rfl⟩

/-! ### Leap seconds -/

/-- An issuer that has not been ready since 23:58:60 of a day. -/
def leapIssuer : Issuer :=
  { sampleIssuer with status := { conditions := [
    { type := Condition.ready, status := .isFalse
      lastTransitionTime := some ⟨1714607939, 1000000000⟩ }] } }

def beforeMidnight : OutagePass sampleSettings sampleIssuer.key :=
  latePass leapIssuer ⟨1714607999, 900000000⟩ rfl

def atMidnight : OutagePass sampleSettings sampleIssuer.key :=
  latePass beforeMidnight.after ⟨1714608000, 0⟩ rfl

/-- The leap second counts before midnight and no longer counts after it, and so the delay of a
later pass is shorter. -/
theorem delay_shrinks_at_midnight :
    beforeMidnight.Follows atMidnight ∧
      result beforeMidnight.world (issuerPass sampleSettings sampleIssuer.key) =
        .ok (.after ⟨60900000000⟩) ∧
      result atMidnight.world (issuerPass sampleSettings sampleIssuer.key) =
        .ok (.after ⟨60000000000⟩) ∧
      ¬ beforeMidnight.delay ≤ atMidnight.delay :=
  ⟨⟨rfl, by decide⟩, rfl, rfl, by decide⟩

end CertIssuer.Reconcile
