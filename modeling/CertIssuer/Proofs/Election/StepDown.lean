import CertIssuer.Proofs.Dialogue.Course
import CertIssuer.Proofs.Election.Safety
import CertIssuer.Proofs.Time.Epoch

/-!
# Stepping down in time

A holder looks at its deadline when a round has ended, and counts from the end of the last round
that has renewed the Lease. The Lease counts from the date that was read before it was written. So
the length of a round may be missed twice: a holder whose rounds are short enough has stepped down
before anybody else takes over, and one whose rounds are longer may not have
(`stepsDownInTime_iff`).

Times are nanoseconds on the clock that never goes back, and the date runs along with it.
-/

namespace CertIssuer

namespace Election

open ApiServer Dialogue

/-! ### What is written in a round -/

abbrev Hearing := Heard Question Question.Answer

def Hearing.record? (h : Hearing) : Option Record :=
  match h.question with
  | .call call => (call.body.bind Lease.ofJson?).map Record.ofLease
  | _ => none

/-- A record by which somebody keeps the Lease from a date on. -/
structure Record.KeptBy (identity : String) (now : Timestamp) (r : Record) : Prop where
  holder : r.holder? = some identity
  renewed : r.renewed = Record.storedTime? now
  duration : r.duration = leaseDuration

theorem keptBy_next {existing : Option Lease} {identity : String} {now : Timestamp}
    {decision : Decision} {next : Record} (hvalid : ∀ l ∈ existing, l.Valid) (hnow : now.Valid)
    (hidentity : identity ≠ "")
    (hdecide : decide? (existing.map Record.ofLease) identity now = some decision)
    (hnext : next? decision (existing.map Record.ofLease) identity now = some next) :
    next.Sendable ∧ next.carried.KeptBy identity now := by
  obtain ⟨hsendable, hlawful⟩ :=
    lawful_next hvalid hnow hidentity hdecide hnext (none : Option Unit)
  obtain ⟨r, hr, hholder⟩ := hlawful.holder
  cases hr
  have hnew : next.renewed = some now ∧ next.duration = leaseDuration := by
    rcases next?_cases hdecide hnext with ⟨-, rfl⟩ | ⟨r, -, -, rfl⟩ | ⟨r, -, -, -, rfl⟩
    · exact ⟨rfl, rfl⟩
    · exact ⟨rfl, rfl⟩
    · exact ⟨rfl, rfl⟩
  obtain ⟨hrenewed, hduration⟩ := hnew
  refine ⟨hsendable, hholder, ?_, ?_⟩
  · simp [Record.carried, hrenewed]
  · simp [Record.carried, hduration, leaseDuration, Span.seconds_ofSeconds]

/-- What comes of a round: nothing is written, or the Lease is kept from the date that was read. -/
inductive Wrote (c : Candidate) (heard : List Hearing) : Except ControllerError Bool → Prop
  | nothing {result : Except ControllerError Bool} :
    result ≠ .ok true → heard.findSome? Hearing.record? = none → Wrote c heard result
  | kept {result : Except ControllerError Bool} {now : Timestamp} {r : Record} :
    ⟨.now, now⟩ ∈ heard → heard.findSome? Hearing.record? = some r → r.KeptBy c.identity now →
      Wrote c heard result

variable {c : Candidate}

theorem store_wrote {existing : Option Lease} {next : Record} {read : Option Reply}
    {now : Timestamp} {path : String} {heard : List Hearing}
    {result : Except ControllerError Bool}
    (hsendable : next.Sendable) (hkept : next.carried.KeptBy c.identity now)
    (h : (c.store existing next).run.Goes heard result) :
    Wrote c (⟨.call ⟨.get, path, none, none⟩, read⟩ :: ⟨.now, now⟩ :: heard) result := by
  rw [Candidate.store_run] at h
  split at h
  · obtain ⟨rfl, rfl⟩ := h
    exact .nothing nofun rfl
  · next lease hlease =>
    split at h
    · obtain ⟨rfl, rfl⟩ := h
      exact .nothing nofun rfl
    · obtain ⟨reply, rest, rfl, rfl, rfl⟩ := h
      obtain ⟨sent, hsent, -, hcarried⟩ := Record.ofLease_sent hsendable hlease
      refine .kept (r := next.carried) ?_ ?_ hkept
      · simp
      · have hbody : (c.storing existing lease).body = some lease.toJson := by
          cases existing <;> rfl
        simp [List.findSome?, Hearing.record?, hbody, hsent, hcarried]

theorem round_wrote {heard : List Hearing} {result : Except ControllerError Bool}
    (hidentity : c.identity ≠ "")
    (hdates : ∀ now : Timestamp, ⟨.now, now⟩ ∈ heard → now.Valid)
    (h : c.round.run.Goes heard result) : Wrote c heard result := by
  rw [Candidate.round_run] at h
  split at h
  · obtain ⟨rfl, rfl⟩ := h
    exact .nothing nofun rfl
  · obtain ⟨reply, rest, rfl, h⟩ := h
    dsimp only at h
    split at h
    · obtain ⟨rfl, rfl⟩ := h
      exact .nothing nofun rfl
    · next existing hfound =>
      obtain ⟨now, rest, rfl, h⟩ := h
      unfold Candidate.decided at h
      dsimp only at h
      split at h
      · obtain ⟨rfl, rfl⟩ := h
        exact .nothing nofun rfl
      · next decision hdecide =>
        split at h
        · obtain ⟨rfl, rfl⟩ := h
          exact .nothing nofun rfl
        · next next hnext =>
          have hnow : now.Valid := hdates now (by simp)
          obtain ⟨hsendable, hkept⟩ :=
            keptBy_next (found_valid hfound) hnow hidentity hdecide hnext
          exact store_wrote hsendable hkept h

theorem outcome_goes {heard : List Hearing} {outcome : RoundOutcome ControllerError} :
    c.outcome.Goes heard outcome ↔
      ∃ result, c.round.run.Goes heard result ∧ outcome = match result with
        | .ok true => .held
        | .ok false => .lost
        | .error e => .failed e := by
  unfold Candidate.outcome
  rw [goes_bind]
  constructor
  · rintro ⟨first, second, result, rfl, hround, h⟩
    match result with
    | .ok true | .ok false | .error e =>
      obtain ⟨rfl, rfl⟩ := h
      rw [List.append_nil]
      exact ⟨_, hround, rfl⟩
  · rintro ⟨result, hround, rfl⟩
    match result with
    | .ok true | .ok false | .error e => exact ⟨heard, [], _, by simp, hround, rfl, rfl⟩

/-! ### Renewing -/

/-- What is heard while a candidate renews: a pause, a round and a look at the clock at a time. -/
theorem renew_goes {t : Term} {rounds : Nat} {heard : List Hearing}
    {result : Option (StepDown ControllerError)} :
    (c.renew t (rounds + 1)).Goes heard result ↔
      ∃ first outcome now rest,
        heard = ⟨.pause retryPeriod, ()⟩ :: (first ++ ⟨.clock, now⟩ :: rest) ∧
        c.outcome.Goes first outcome ∧
        match t.next outcome now with
        | (_, some reason) => rest = [] ∧ result = some reason
        | (t, none) => (c.renew t rounds).Goes rest result := by
  have hstep : c.renew t (rounds + 1) = ask (.pause retryPeriod) fun _ =>
      c.outcome >>= fun outcome => ask .clock fun now =>
        match t.next outcome now with
        | (_, some reason) => done (some reason)
        | (t, none) => c.renew t rounds := rfl
  rw [hstep]
  constructor
  · rintro ⟨pause, rest, rfl, h⟩
    obtain ⟨first, second, outcome, rfl, houtcome, now, rest, rfl, hrest⟩ := goes_bind.mp h
    refine ⟨first, outcome, now, rest, rfl, houtcome, ?_⟩
    dsimp only at hrest
    split at hrest <;> exact hrest
  · rintro ⟨first, outcome, now, rest, rfl, houtcome, h⟩
    refine ⟨(), _, rfl, goes_bind.mpr ⟨first, _, outcome, rfl, houtcome, now, rest, rfl, ?_⟩⟩
    dsimp only
    split at h <;> exact h

/-- A round of a candidate: when it begins and ends, what is heard in it and what comes of it. -/
structure Round where
  begins : Nat
  ends : Nat
  heard : List Hearing
  outcome : RoundOutcome ControllerError

def dateAt (base : Timestamp) (time : Nat) : Timestamp := base.plus ⟨time⟩

theorem nanos_dateAt_lt {base : Timestamp} (h : base.nanos < 1000000000) (time : Nat) :
    (dateAt base time).nanos < 1000000000 :=
  Timestamp.nanos_plus_lt h _

theorem sinceEpoch_dateAt {base : Timestamp} (h : base.nanos < 1000000000) (time : Nat) :
    (dateAt base time).sinceEpoch = base.sinceEpoch + time :=
  Timestamp.sinceEpoch_plus h _

def instantAt (time : Nat) : Instant := ⟨⟨time⟩⟩

namespace Round

/-- The round is held by a candidate, for no longer than so many nanoseconds. The date that it
reads is one of the round, and has a text of four digits for the year. -/
structure Held (r : Round) (c : Candidate) (base : Timestamp) (longest : Nat) : Prop where
  goes : c.outcome.Goes r.heard r.outcome
  order : r.begins ≤ r.ends
  short : r.ends ≤ r.begins + longest
  dated : ∀ now : Timestamp, ⟨.now, now⟩ ∈ r.heard → ∃ time, r.begins ≤ time ∧ time ≤ r.ends ∧
    now = dateAt base time ∧ now.Valid ∧ Record.storedTime? now ≠ none

def record? (r : Round) : Option Record := r.heard.findSome? Hearing.record?

/-- The record that is the last one written while a round is under way, or after it: the one
before it, or the one that is sent in it. -/
def MayLeave (r : Round) (old new : Record) : Prop := new = old ∨ r.record? = some new

variable {r : Round} {base : Timestamp} {longest : Nat}

theorem Held.wrote (h : r.Held c base longest) (hidentity : c.identity ≠ "") :
    ∃ result, Wrote c r.heard result ∧ (r.outcome = .held → result = .ok true) := by
  obtain ⟨result, hround, houtcome⟩ := outcome_goes.mp h.goes
  refine ⟨result, round_wrote hidentity (fun now hnow => ?_) hround, fun hheld => ?_⟩
  · obtain ⟨-, -, -, -, hvalid, -⟩ := h.dated now hnow
    exact hvalid
  · rw [hheld] at houtcome
    match result with
    | .ok true => rfl
    | .ok false | .error e => cases houtcome

/-- The record that is sent in a round keeps the Lease from a date of the round on. -/
theorem Held.keeps (h : r.Held c base longest) (hidentity : c.identity ≠ "") {new : Record}
    (hnew : r.record? = some new) : ∃ time, r.begins ≤ time ∧ time ≤ r.ends ∧
      new.KeptBy c.identity (dateAt base time) ∧
      Record.storedTime? (dateAt base time) ≠ none := by
  obtain ⟨result, hwrote, -⟩ := h.wrote hidentity
  cases hwrote with
  | nothing _ hnone => cases hnone.symm.trans hnew
  | kept hnow hrecord hkept =>
    cases hrecord.symm.trans hnew
    obtain ⟨time, hbegins, hends, rfl, -, hstored⟩ := h.dated _ hnow
    exact ⟨time, hbegins, hends, hkept, hstored⟩

end Round

/-- A candidate leads: it has acquired the Lease, and no round since then has told it to step down.
With the record that it has written last, its term, and the time when its last round ended. -/
inductive Leads (c : Candidate) (base : Timestamp) (longest : Nat) : Record → Term → Nat → Prop
  | acquired {r : Round} {record : Record} :
    r.Held c base longest → r.outcome = .held → r.record? = some record →
      Leads c base longest record ⟨instantAt r.ends⟩ r.ends
  | round {r : Round} {old new : Record} {t t' : Term} {time : Nat} :
    Leads c base longest old t time → r.Held c base longest →
      r.begins = time + retryPeriod.nanos → r.MayLeave old new →
      (r.outcome = .held → r.record? = some new) →
      t.next r.outcome (instantAt r.ends) = (t', none) → Leads c base longest new t' r.ends

section Leading

variable {base : Timestamp} {longest : Nat} {record : Record} {t : Term} {time : Nat}

/-- Whoever leads has gone through rounds of renewing, and renews on from there. -/
theorem Leads.renews (h : Leads c base longest record t time) :
    ∃ first rounds heard, ∀ more rest result, (c.renew t more).Goes rest result →
      (c.renew first (rounds + more)).Goes (heard ++ rest) result := by
  induction h with
  | @acquired r record =>
    refine ⟨⟨instantAt r.ends⟩, 0, [], fun more rest result h => ?_⟩
    rw [Nat.zero_add, List.nil_append]
    exact h
  | @round r old new t t' time _ hheld _ _ _ hnext ih =>
    obtain ⟨first, rounds, heard, hfirst⟩ := ih
    refine ⟨first, rounds + 1,
      heard ++ (⟨.pause retryPeriod, ()⟩ :: (r.heard ++ [⟨.clock, instantAt r.ends⟩])), ?_⟩
    intro more rest result h
    have hround : (c.renew t (more + 1)).Goes
        (⟨.pause retryPeriod, ()⟩ :: (r.heard ++ ⟨.clock, instantAt r.ends⟩ :: rest)) result := by
      refine renew_goes.mpr ⟨r.heard, r.outcome, instantAt r.ends, rest, rfl, hheld.goes, ?_⟩
      rw [hnext]
      exact h
    have hall := hfirst (more + 1) _ result hround
    rw [show rounds + 1 + more = rounds + (more + 1) by omega]
    simpa using hall

/-- What is left of the time of the Lease while a candidate leads. -/
structure InTime (c : Candidate) (base : Timestamp) (longest : Nat) (record : Record) (t : Term)
    (time : Nat) : Prop where
  kept : ∃ stamp, record.KeptBy c.identity (dateAt base stamp) ∧
    Record.storedTime? (dateAt base stamp) ≠ none ∧
    t.renewed.sinceStart.nanos ≤ stamp + longest
  past : t.renewed.sinceStart.nanos ≤ time
  recent : time ≤ t.renewed.sinceStart.nanos + renewDeadline.nanos

theorem next_eq_none {outcome : RoundOutcome ControllerError} {t t' : Term} {now : Instant}
    (h : t.next outcome now = (t', none)) :
    (outcome = .held ∧ t' = ⟨now⟩) ∨
      (∃ e, outcome = .failed e) ∧ t' = t ∧
        now.sinceStart.nanos - t.renewed.sinceStart.nanos ≤ renewDeadline.nanos := by
  cases outcome with
  | held =>
    cases h
    exact .inl ⟨rfl, rfl⟩
  | lost => cases h
  | failed e =>
    right
    have hfailed : t.next (.failed e) now = (t, if renewDeadline < t.sinceRenewed now then
        some (.notRenewed (t.sinceRenewed now) e) else none) := rfl
    rw [hfailed] at h
    obtain ⟨rfl, hreason⟩ := Prod.mk.inj h
    refine ⟨⟨e, rfl⟩, rfl, ?_⟩
    by_contra hlate
    have hlate : renewDeadline < t.sinceRenewed now := Nat.lt_of_not_le hlate
    rw [if_pos hlate] at hreason
    cases hreason

theorem Leads.inTime (h : Leads c base longest record t time) (hidentity : c.identity ≠ "") :
    InTime c base longest record t time := by
  -- round by round: the deadline is counted from a time at most one round after the date
  induction h with
  | @acquired r record hheld _ hrecord =>
    obtain ⟨stamp, hbegins, -, hkept, hstored⟩ := hheld.keeps hidentity hrecord
    have hshort := hheld.short
    refine ⟨⟨stamp, hkept, hstored, ?_⟩, Nat.le_refl _, Nat.le_add_right _ _⟩
    show r.ends ≤ stamp + longest
    omega
  | @round r old new t t' time _ hheld hbegins hleave hsent hnext ih =>
    obtain ⟨⟨stamp, hkept, hstored, hlate⟩, hpast, hrecent⟩ := ih
    have horder := hheld.order
    have hshort := hheld.short
    rcases next_eq_none hnext with ⟨houtcome, rfl⟩ | ⟨⟨e, houtcome⟩, rfl, hrecent'⟩
    · -- the round has renewed the Lease, with a date of its own
      obtain ⟨stamp, hstamp, -, hkept, hstored⟩ := hheld.keeps hidentity (hsent houtcome)
      refine ⟨⟨stamp, hkept, hstored, ?_⟩, Nat.le_refl _, Nat.le_add_right _ _⟩
      show r.ends ≤ stamp + longest
      omega
    · -- the round has failed, but what it sent may have been stored: the date is a later one
      have hrecent' : r.ends - t'.renewed.sinceStart.nanos ≤ renewDeadline.nanos := hrecent'
      refine ⟨?_, by omega, by omega⟩
      rcases hleave with rfl | hnew
      · exact ⟨stamp, hkept, hstored, hlate⟩
      · obtain ⟨stamp, hstamp, -, hkept, hstored⟩ := hheld.keeps hidentity hnew
        exact ⟨stamp, hkept, hstored, by omega⟩

/-- Anybody else takes the Lease when its time is over. -/
theorem decide?_keptBy {now start later : Timestamp} {other : String} {r : Record}
    (h : r.KeptBy c.identity now) (hstart : Record.storedTime? now = some start)
    (hother : other ≠ c.identity) :
    decide? (some r) other later = (start.plus? leaseDuration).map fun expiry =>
      if later < expiry then .wait else .takeOver := by
  have hvalidity : r.validity = leaseDuration := by
    unfold Record.validity
    rw [h.duration]
    rfl
  have hrenewed : r.renewed = some start := h.renewed.trans hstart
  simp only [decide?, h.holder, if_neg (Ne.symm hother), Record.expiry, hrenewed, hvalidity]
  cases start.plus? leaseDuration with
  | none => rfl
  | some expiry =>
    dsimp only [Option.map_some]
    split <;> rfl

/-- Nobody takes the Lease within fifteen seconds of its date, less the part of it that a stored
time does not keep. -/
theorem not_takeOver {stamp later : Nat} {other : String} {r : Record}
    (hbase : base.nanos < 1000000000) (h : r.KeptBy c.identity (dateAt base stamp))
    (hstored : Record.storedTime? (dateAt base stamp) ≠ none) (hother : other ≠ c.identity)
    (hlater : later + 999 < stamp + 15000000000) :
    decide? (some r) other (dateAt base later) ≠ some .takeOver := by
  obtain ⟨start, hstart⟩ := Option.ne_none_iff_exists'.mp hstored
  rw [decide?_keptBy h hstart hother]
  cases hsum : start.plus? leaseDuration with
  | none => nofun
  | some expiry =>
    have hstart := Record.truncateMicros_of_storedTime? hstart
    have hexpiry : expiry = start.plus leaseDuration := by
      unfold Timestamp.plus? at hsum
      dsimp only at hsum
      split at hsum
      · exact (Option.some.inj hsum).symm
      · cases hsum
    have hnanos : start.nanos < 1000000000 := by
      rw [hstart]
      exact Timestamp.nanos_truncateMicros_lt (nanos_dateAt_lt hbase stamp)
    have hlive : dateAt base later < expiry := by
      have hcut := Timestamp.sinceEpoch_truncateMicros (dateAt base stamp)
      have hduration : leaseDuration.nanos = 15000000000 := rfl
      rw [hexpiry, Timestamp.lt_iff_sinceEpoch (nanos_dateAt_lt hbase later)
        (Timestamp.nanos_plus_lt hnanos _), Timestamp.sinceEpoch_plus hnanos, hstart]
      rw [sinceEpoch_dateAt hbase] at hcut ⊢
      omega
    simp [hlive]

end Leading

/-- Nobody else takes over while a candidate leads whose rounds take no longer than so many
nanoseconds: not from the end of one round, after which it still leads, to the end of the next. -/
def StepsDownInTime (longest : Nat) : Prop :=
  ∀ (c : Candidate) (base : Timestamp) (old last : Record) (t : Term) (time later : Nat)
    (r : Round) (other : String),
    c.identity ≠ "" → base.nanos < 1000000000 → Leads c base longest old t time →
      r.Held c base longest → r.begins = time + retryPeriod.nanos → r.MayLeave old last →
      other ≠ c.identity → time ≤ later → later < r.ends →
      decide? (some last) other (dateAt base later) ≠ some .takeOver

theorem stepsDownInTime_of_short {longest : Nat} (h : 2 * longest + 999 ≤ 3000000000) :
    StepsDownInTime longest := by
  intro c base old last t time later r other hidentity hbase hleads hheld hbegins hleave hother
    htime hlater
  obtain ⟨⟨stamp, hkept, hstored, hlate⟩, hpast, hrecent⟩ := hleads.inTime hidentity
  have hshort := hheld.short
  have hretry : retryPeriod.nanos = 2000000000 := rfl
  have hdeadline : renewDeadline.nanos = 10000000000 := rfl
  rcases hleave with rfl | hnew
  · exact not_takeOver hbase hkept hstored hother (by omega)
  · obtain ⟨stamp, hstamp, -, hkept, hstored⟩ := hheld.keeps hidentity hnew
    exact not_takeOver hbase hkept hstored hother (by omega)

/-! ### A holder that is too slow -/

theorem round_goes {read reply : Option Reply} {existing : Option Lease} {now : Timestamp}
    {decision : Decision} {next : Record} {lease : Lease}
    (hpath : unaddressable c.lease (c.collection ++ "/" ++ c.lease) = false)
    (hstoring : unaddressable c.lease (c.storing existing lease).path = false)
    (hfound : found Lease.ofJson? read = .ok existing)
    (hdecide : decide? (existing.map Record.ofLease) c.identity now = some decision)
    (hnext : next? decision (existing.map Record.ofLease) c.identity now = some next)
    (hlease : next.toLease? c.lease c.namespace (existing.bind (·.metadata.resourceVersion)) =
      some lease) :
    c.round.run.Goes [⟨.call ⟨.get, c.collection ++ "/" ++ c.lease, none, none⟩, read⟩,
      ⟨.now, now⟩, ⟨.call (c.storing existing lease), reply⟩] (written reply) := by
  rw [Candidate.round_run, if_neg (by simp [hpath])]
  refine ⟨read, _, rfl, ?_⟩
  dsimp only
  rw [hfound]
  refine ⟨now, _, rfl, ?_⟩
  simp only [Candidate.decided, hdecide, hnext, Candidate.store_run, hlease]
  rw [if_neg (by simp [hstoring])]
  exact ⟨reply, _, rfl, rfl, rfl⟩

theorem now_of_mem {first second : Call} {read reply : Option Reply} {now date : Timestamp}
    (h : (⟨.now, now⟩ : Hearing) ∈
      [⟨.call first, read⟩, ⟨.now, date⟩, ⟨.call second, reply⟩]) : now = date := by
  rcases List.mem_cons.mp h with h | h
  · cases h
  rcases List.mem_cons.mp h with h | h
  · cases h
    rfl
  rcases List.mem_singleton.mp h with h
  cases h

/-- A nanosecond before the next microsecond. -/
def lateNoon : Timestamp := ⟨1714564800, 999⟩

/-- A round of a second and a half in which a candidate acquires the Lease at once. -/
def slowRound (c : Candidate) : Round where
  begins := 0
  ends := 1499999501
  heard := [
    ⟨.call ⟨.get, c.collection ++ "/" ++ c.lease, none, none⟩, some missingReply⟩,
    ⟨.now, lateNoon⟩,
    ⟨.call (c.storing none ⟨{ name := some c.lease, «namespace» := some c.namespace },
      some (termSpec c.identity noon 0)⟩), some termReply⟩]
  outcome := .held

def deafRound (c : Candidate) (begins ends : Nat) : Round where
  begins := begins
  ends := ends
  heard := [⟨.call ⟨.get, c.collection ++ "/" ++ c.lease, none, none⟩, none⟩]
  outcome := .failed .client

theorem slowRound_held {longest : Nat} (h : 1499999501 ≤ longest)
    (hpath : unaddressable c.lease (c.collection ++ "/" ++ c.lease) = false)
    (hcollection : unaddressable c.lease c.collection = false) :
    (slowRound c).Held c lateNoon longest where
  goes := by
    have hfound : found Lease.ofJson? (some missingReply) = .ok none :=
      found_of_missing decode_missingReply rfl
    have hwritten : written (some termReply) = .ok true := by
      have hheard : heard Lease.ofJson? (some termReply) = _ := decode_termReply
      simp only [written, hheard]
    have hlease : (freshTerm c.identity lateNoon 0).toLease? c.lease c.namespace none =
        some ⟨{ name := some c.lease, «namespace» := some c.namespace },
          some (termSpec c.identity noon 0)⟩ := by
      have hcut : lateNoon.truncateMicros = noon := by decide
      have hduration : (leaseDuration.seconds : Int) = 15 := by decide
      simp [Record.toLease?, freshTerm, hduration, Record.maxInt32, hcut, termSpec]
    have hround : c.round.run.Goes (slowRound c).heard (written (some termReply)) :=
      round_goes hpath hcollection hfound rfl rfl hlease
    rw [hwritten] at hround
    exact outcome_goes.mpr ⟨.ok true, hround, rfl⟩
  order := Nat.zero_le _
  short := by
    show 1499999501 ≤ 0 + longest
    omega
  dated now hnow := by
    have hnow : now = lateNoon := now_of_mem hnow
    refine ⟨0, Nat.le_refl _, Nat.zero_le _, hnow, ?_, ?_⟩
    · rw [hnow]
      exact ⟨by decide, by decide, by decide⟩
    · rw [hnow]
      decide

theorem deafRound_held {base : Timestamp} {longest begins ends : Nat} (horder : begins ≤ ends)
    (hshort : ends ≤ begins + longest)
    (hpath : unaddressable c.lease (c.collection ++ "/" ++ c.lease) = false) :
    (deafRound c begins ends).Held c base longest where
  goes := by
    refine outcome_goes.mpr ⟨.error .client, ?_, rfl⟩
    rw [Candidate.round_run, if_neg (by simp [hpath])]
    exact ⟨none, [], rfl, rfl, rfl⟩
  order := horder
  short := hshort
  dated now hnow := by
    rcases List.mem_singleton.mp hnow with h
    cases h

/-- A holder whose rounds are not answered leads on for as long as its deadline allows. -/
theorem leads_deaf {base : Timestamp} {longest : Nat} {record : Record} {t : Term} {time : Nat}
    (h : Leads c base longest record t time)
    (hpath : unaddressable c.lease (c.collection ++ "/" ++ c.lease) = false) (rounds : Nat)
    (hrecent : time + rounds * retryPeriod.nanos ≤
      t.renewed.sinceStart.nanos + renewDeadline.nanos) :
    Leads c base longest record t (time + rounds * retryPeriod.nanos) := by
  induction rounds with
  | zero =>
    rw [Nat.zero_mul, Nat.add_zero]
    exact h
  | succ rounds ih =>
    rw [Nat.succ_mul, ← Nat.add_assoc] at hrecent ⊢
    have hbefore := ih (by omega)
    have hrecent : ¬ renewDeadline < t.sinceRenewed
        (instantAt (time + rounds * retryPeriod.nanos + retryPeriod.nanos)) := by
      rw [Span.lt_iff]
      simp only [Term.sinceRenewed, instantAt]
      omega
    have hround : (deafRound c _ _).Held c base longest := deafRound_held
      (Nat.le_refl (time + rounds * retryPeriod.nanos + retryPeriod.nanos))
      (Nat.le_add_right _ longest) hpath
    refine hbefore.round hround rfl (.inl rfl) nofun ?_
    unfold Term.next stepDown? deafRound
    simp only [if_neg hrecent]

/-- A holder that renews for a second and a half, and then gets no answer, leads still when the
time of its Lease is over. -/
theorem slow_overtaken {longest : Nat} (h : 1499999501 ≤ longest) (hidentity : c.identity ≠ "")
    (hpath : unaddressable c.lease (c.collection ++ "/" ++ c.lease) = false)
    (hcollection : unaddressable c.lease c.collection = false) :
    ∃ record t, Leads c lateNoon longest record t 11499999501 ∧
      (deafRound c 13499999501 14999999002).Held c lateNoon longest ∧
      ∀ other, other ≠ c.identity →
        decide? (some record) other (dateAt lateNoon 14999999001) = some .takeOver := by
  have hheld := slowRound_held h hpath hcollection
  obtain ⟨result, hwrote, hresult⟩ := hheld.wrote hidentity
  cases hwrote with
  | nothing hfailed => exact absurd (hresult rfl) hfailed
  | @kept now record hnow hrecord hkept =>
    obtain rfl := now_of_mem hnow
    have hacquired := Leads.acquired hheld rfl hrecord
    have hends : (slowRound c).ends = 1499999501 := rfl
    rw [hends] at hacquired
    -- the fifth round without an answer ends when the deadline is reached, but not passed
    have htime : 1499999501 + 5 * retryPeriod.nanos = 11499999501 := by decide
    have hleads := leads_deaf hacquired hpath 5 (Nat.add_le_add_left (by decide) _)
    rw [htime] at hleads
    have hlast : (deafRound c 13499999501 14999999002).Held c lateNoon longest :=
      deafRound_held (by omega) (by omega) hpath
    refine ⟨record, _, hleads, hlast, fun other hother => ?_⟩
    have hstart : Record.storedTime? lateNoon = some noon := by decide
    have hexpiry : noon.plus? leaseDuration = some ⟨1714564815, 0⟩ := by decide
    have hover : ¬ dateAt lateNoon 14999999001 < ⟨1714564815, 0⟩ := by decide
    rw [decide?_keptBy hkept hstart hother, hexpiry, Option.map_some, if_neg hover]

theorem short_of_stepsDownInTime {longest : Nat} (h : StepsDownInTime longest) :
    2 * longest + 999 ≤ 3000000000 := by
  by_contra hlong
  have hslow : 1499999501 ≤ longest := by omega
  obtain ⟨hcollection, hpath⟩ := addressable_l
  obtain ⟨record, t, hleads, hheld, hover⟩ :=
    slow_overtaken (c := ⟨"ns", "l", "a"⟩) hslow (by decide) hpath hcollection
  exact h _ _ record record t _ _ _ "b" (by decide) (by decide) hleads hheld rfl (.inl rfl)
    (by decide) (by decide) (by decide) (hover "b" (by decide))

/-- A holder has stepped down before anybody else takes over iff two of its rounds, and what a
stored time loses, fit between the deadline and the end of the Lease. -/
theorem stepsDownInTime_iff (longest : Nat) :
    StepsDownInTime longest ↔ 2 * longest + 999 ≤ 3000000000 :=
  ⟨short_of_stepsDownInTime, stepsDownInTime_of_short⟩

end Election

end CertIssuer
