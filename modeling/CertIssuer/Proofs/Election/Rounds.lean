import CertIssuer.Proofs.Election.StepDown
import CertIssuer.Proofs.Election.Storage

/-!
# Rounds over any Lease

Whatever somebody has put into a Lease, the record that is read from it stays within bounds: its
times have years of four digits and its numbers 32 bits. From there a round always gets to a
decision, and what it writes is a Lease of its own for the next fifteen seconds (`rounds_decided`).
-/

namespace CertIssuer.Election

open ApiServer Dialogue

/-! ### What is read from a Lease -/

namespace Record

/-- A record that a Lease carries as it is. -/
structure Bounded (r : Record) : Prop extends r.Stored where
  carried : r.carried = r
  short : r.duration.seconds ≤ maxInt32

theorem duration_storedDuration {o : Option Int} (h : ∀ n ∈ o, Json.int32? (.int n) = some n) :
    .ofSeconds (storedDuration o).seconds = storedDuration o ∧
      (storedDuration o).seconds ≤ maxInt32 := by
  have hdefault : .ofSeconds leaseDuration.seconds = leaseDuration ∧
      leaseDuration.seconds ≤ maxInt32 := by decide
  cases o with
  | none => exact hdefault
  | some n =>
    have hn := Json.bounds_of_int32? (h n rfl)
    unfold storedDuration
    dsimp only
    split
    · rw [Span.seconds_ofSeconds]
      refine ⟨rfl, ?_⟩
      unfold maxInt32
      omega
    · exact hdefault

theorem bounded_ofLease {l : Lease} (h : l.Valid) : (ofLease l).Bounded := by
  have hstored := stored_ofLease h
  cases hspec : l.spec with
  | none =>
    simp only [ofLease, hspec] at hstored ⊢
    exact ⟨hstored, by decide, by decide⟩
  | some s =>
    simp only [ofLease, hspec] at hstored ⊢
    obtain ⟨hexact, hshort⟩ := duration_storedDuration (h s hspec).duration
    refine ⟨hstored, ?_, hshort⟩
    simp only [carried, stored_bind, hexact]

theorem year_of_storedTime? {t u : Timestamp} (h : storedTime? t = some u) :
    0 ≤ (Calendar.ofDays (t.seconds / 86400)).year ∧
      (Calendar.ofDays (t.seconds / 86400)).year ≤ 9999 := by
  unfold storedTime? at h
  dsimp only at h
  split at h
  · assumption
  · cases h

namespace Bounded

variable {r : Record} (h : r.Bounded)

include h

theorem storedTime?_renewed {t : Timestamp} (ht : r.renewed = some t) : storedTime? t = some t := by
  have hrenewed : r.renewed.bind storedTime? = r.renewed := congrArg Record.renewed h.carried
  rwa [ht] at hrenewed

/-- The time that is left to a holder ends within the calendar. -/
theorem expiry_ne_unreachable : r.expiry ≠ .unreachable := by
  unfold expiry
  cases hrenewed : r.renewed with
  | none => nofun
  | some t =>
    obtain ⟨hfirst, hlast⟩ := year_of_storedTime? (h.storedTime?_renewed hrenewed)
    have hplus : t.plus? r.duration = some (t.plus r.duration) :=
      Timestamp.plus?_of_year hfirst hlast (h.renewed t hrenewed).nanos_lt h.short
    dsimp only
    rw [h.validity, hplus]
    nofun

end Bounded

end Record

/-! ### What is decided -/

theorem exists_decide? {current : Option Record} (h : ∀ r ∈ current, r.expiry ≠ .unreachable)
    (identity : String) (now : Timestamp) :
    ∃ decision, decide? current identity now = some decision := by
  cases current with
  | none => exact ⟨.create, rfl⟩
  | some r =>
    have hreached := h r rfl
    unfold decide?
    dsimp only
    cases r.holder? with
    | none => exact ⟨.takeOver, rfl⟩
    | some holder =>
      dsimp only
      by_cases hself : holder = identity
      · exact ⟨.renew, if_pos hself⟩
      · rw [if_neg hself]
        cases hexpiry : r.expiry with
        | unknown => exact ⟨.takeOver, rfl⟩
        | «at» t =>
          by_cases hlive : now < t
          · exact ⟨.wait, if_pos hlive⟩
          · exact ⟨.takeOver, if_neg hlive⟩
        | unreachable => exact absurd hexpiry hreached

theorem next?_eq_none_iff {decision : Decision} {current : Option Record} {identity : String}
    {now : Timestamp} : next? decision current identity now = none ↔ decision = .wait := by
  cases decision with
  | wait => exact iff_of_true rfl rfl
  | create => exact iff_of_false nofun nofun
  | renew => exact iff_of_false nofun nofun
  | takeOver => cases current <;> exact iff_of_false nofun nofun

/-! ### What is written -/

/-- A record by which somebody holds a Lease for fifteen seconds from a date on. -/
structure Record.HeldFrom (identity : String) (now : Timestamp) (r : Record) : Prop
    extends r.Sendable where
  holder : r.holder = some identity
  renewed_eq : r.renewed = some now
  duration : r.duration = leaseDuration

theorem freshTerm_heldFrom {identity : String} {now : Timestamp} {n : Int} (hnow : now.Valid)
    (hn : Json.int32? (.int n) = some n) : (freshTerm identity now n).HeldFrom identity now :=
  ⟨freshTerm_sendable hnow hn, rfl, rfl, rfl⟩

theorem Record.Sendable.heldFrom {identity : String} {now : Timestamp} {r : Record}
    (h : r.Sendable) (hnow : now.Valid) (hholder : r.holder? = some identity) :
    Record.HeldFrom identity now { r with renewed := some now, duration := leaseDuration } where
  acquired := h.acquired
  renewed t ht := by
    cases ht
    exact hnow
  transitions := h.transitions
  holder := (Option.filter_eq_some_iff.mp hholder).1
  renewed_eq := rfl
  duration := rfl

theorem heldFrom_next {current : Option Record} {identity : String} {now : Timestamp}
    {decision : Decision} {next : Record} (hcurrent : ∀ r ∈ current, r.Sendable)
    (hnow : now.Valid) (hdecide : decide? current identity now = some decision)
    (hnext : next? decision current identity now = some next) : next.HeldFrom identity now := by
  rcases next?_cases hdecide hnext with ⟨-, rfl⟩ | ⟨r, hr, hown, rfl⟩ | ⟨r, hr, -, -, rfl⟩
  · exact freshTerm_heldFrom hnow rfl
  · exact (hcurrent r hr).heldFrom hnow hown
  · exact freshTerm_heldFrom hnow (int32?_nextTransitions (hcurrent r hr).transitions)

/-- A Lease that somebody holds for fifteen seconds from a date on, to the microsecond. Whoever
reads its text reads this Lease. -/
structure Leased (identity : String) (now : Timestamp) (l : Lease) : Prop where
  spec : ∃ s, l.spec = some s ∧ s.holderIdentity = some identity ∧
    s.leaseDurationSeconds = some 15 ∧ s.renewTime = some now.truncateMicros
  text : Lease.ofJson? l.toJson = some l

theorem Record.cut_sent (r : Record) : r.sent.cut = r.sent := by
  simp only [LeaseSpec.cut, sent, map_truncateMicros_idem]

theorem Record.HeldFrom.leased {identity : String} {now : Timestamp} {r : Record}
    (h : r.HeldFrom identity now) (name ns : String) (version : Option String) :
    ∃ lease, r.toLease? name ns version = some lease ∧ Leased identity now lease := by
  have hshort : r.duration.seconds ≤ maxInt32 := by
    rw [h.duration]
    decide
  refine ⟨_, toLease?_of_short hshort name ns version, ⟨_, rfl, h.holder, ?_, ?_⟩, ?_⟩
  · show some (r.duration.seconds : Int) = some 15
    rw [h.duration]
    rfl
  · show r.renewed.map Timestamp.truncateMicros = _
    rw [h.renewed_eq]
    rfl
  · rw [Lease.ofJson?_toJson (sent_valid h.toSendable (Int.not_lt.mpr hshort)), r.cut_sent]

/-! ### Rounds -/

theorem fromServer_of_written {reply : Option Reply} {e : ControllerError}
    (h : written reply = .error e) : FromServer e := by
  unfold written at h
  split at h
  · cases h
  · split at h
    · cases h
    · cases h
      exact .api
  · next told hheard =>
    cases h
    exact fromServer_of_heard hheard

variable {c : Candidate} {existing : Option Lease} {now : Timestamp}

theorem store_within {next : Record} (h : next.HeldFrom c.identity now) :
    (c.store existing next).run.Within
      (fun q => ∃ lease, q = .call (c.storing existing lease) ∧ Leased c.identity now lease)
      (fun result => ∀ e, result = .error e → FromServer e) := by
  obtain ⟨lease, hlease, hleased⟩ :=
    h.leased c.lease c.namespace (existing.bind (·.metadata.resourceVersion))
  rw [Candidate.store_run, hlease]
  dsimp only
  split
  · intro e he
    cases he
    exact .client
  · exact ⟨⟨lease, rfl, hleased⟩, fun reply e he => fromServer_of_written he⟩

theorem bounded_current (hvalid : ∀ l ∈ existing, l.Valid) :
    ∀ r ∈ existing.map Record.ofLease, r.Bounded := by
  intro r hr
  obtain ⟨l, hl, rfl⟩ := Option.map_eq_some_iff.mp hr
  exact Record.bounded_ofLease (hvalid l hl)

theorem decided_within (hvalid : ∀ l ∈ existing, l.Valid) (hnow : now.Valid) :
    (c.decided existing now).Within
      (fun q => ∃ lease, q = .call (c.storing existing lease) ∧ Leased c.identity now lease)
      (fun result => ∀ e, result = .error e → FromServer e) := by
  have hbounded := bounded_current hvalid
  obtain ⟨decision, hdecide⟩ :=
    exists_decide? (fun r hr => (hbounded r hr).expiry_ne_unreachable) c.identity now
  unfold Candidate.decided
  rw [hdecide]
  dsimp only
  split
  · exact nofun
  · next next hnext =>
    exact store_within
      (heldFrom_next (fun r hr => (hbounded r hr).toSendable) hnow hdecide hnext)

/-- What follows in a round after a Lease was read and the date was told. -/
theorem round_after {first : Option Reply} {heard : List Hearing}
    {result : Except ControllerError Bool} {call : Call}
    (hfound : found Lease.ofJson? first = .ok existing)
    (h : c.round.run.Goes (⟨.call call, first⟩ :: ⟨.now, now⟩ :: heard) result) :
    (c.decided existing now).Goes heard result := by
  rw [Candidate.round_run] at h
  split at h
  · cases h.1
  · obtain ⟨reply, rest, hheard, h⟩ := h
    cases hheard
    dsimp only at h
    rw [hfound] at h
    obtain ⟨date, rest, hheard, h⟩ := h
    cases hheard
    exact h

/-- Over any Lease that the server can hold, or none, and at any date, a round gets to a decision:
the time that is left to the holder ends within the calendar, the count of holders stays within 32
bits, and every record to write becomes a Lease that is held for fifteen seconds from the date on.
So a round that has read a Lease writes at most such a one, and fails only as the server has it. -/
theorem rounds_decided (c : Candidate) (hvalid : ∀ l ∈ existing, l.Valid) (hnow : now.Valid) :
    let current := existing.map Record.ofLease
    (∀ r ∈ current, r.Bounded ∧ r.expiry ≠ .unreachable) ∧
    (∃ decision, decide? current c.identity now = some decision ∧
      (next? decision current c.identity now = none ↔ decision = .wait) ∧
      ∀ next ∈ next? decision current c.identity now,
        (-2147483648 ≤ next.transitions ∧ next.transitions ≤ 2147483647) ∧
        ∀ name ns version, ∃ lease, next.toLease? name ns version = some lease ∧
          Leased c.identity now lease) ∧
    ∀ call first heard result, found Lease.ofJson? first = .ok existing →
      c.round.run.Goes (⟨.call call, first⟩ :: ⟨.now, now⟩ :: heard) result →
        (∀ e ∈ heard, ∃ lease, e.question = .call (c.storing existing lease) ∧
          Leased c.identity now lease) ∧
        ∀ e, result = .error e → FromServer e := by
  intro current
  have hbounded : ∀ r ∈ current, r.Bounded := bounded_current hvalid
  have hreached : ∀ r ∈ current, r.expiry ≠ .unreachable :=
    fun r hr => (hbounded r hr).expiry_ne_unreachable
  refine ⟨fun r hr => ⟨hbounded r hr, hreached r hr⟩, ?_, ?_⟩
  · obtain ⟨decision, hdecide⟩ := exists_decide? hreached c.identity now
    refine ⟨decision, hdecide, next?_eq_none_iff, fun next hnext => ?_⟩
    have hheld := heldFrom_next (fun r hr => (hbounded r hr).toSendable) hnow hdecide hnext
    exact ⟨Json.bounds_of_int32? hheld.transitions, hheld.leased⟩
  · intro call first heard result hfound h
    exact (decided_within hvalid hnow).goes (round_after hfound h)

/-- A Lease that nobody holds: of a validity below zero, renewed in the leap second that ends the
year 9999, after the largest count of holders. -/
def wornLease : Lease where
  metadata := {}
  spec := some {
    holderIdentity := some ""
    leaseDurationSeconds := some (-2147483648)
    leaseTransitions := some 2147483647
    renewTime := some ⟨253402300799, 1999999999⟩ }

theorem wornLease_valid : wornLease.Valid := by
  intro s hs
  obtain rfl := Option.some.inj hs
  constructor
  · nofun
  · intro t ht
    obtain rfl := Option.some.inj ht
    exact ⟨by decide, by decide, by decide⟩
  · intro n hn
    obtain rfl := Option.some.inj hn
    decide
  · intro n hn
    obtain rfl := Option.some.inj hn
    decide

/-- It is taken over, and the count stays. -/
theorem rounds_decided_worn :
    decide? (some (Record.ofLease wornLease)) "a" noon = some .takeOver ∧
      ∃ lease, (freshTerm "a" noon 2147483647).toLease? "l" "ns" none = some lease ∧
        Leased "a" noon lease := by
  have hvalid : ∀ l ∈ some wornLease, l.Valid := by
    intro l hl
    obtain rfl := Option.some.inj hl
    exact wornLease_valid
  have hnow : noon.Valid := ⟨by decide, by decide, by decide⟩
  obtain ⟨-, ⟨decision, hdecide, -, hwrites⟩, -⟩ :=
    rounds_decided ⟨"ns", "l", "a"⟩ hvalid hnow
  have htaken : decide? (some (Record.ofLease wornLease)) "a" noon = some .takeOver := by decide
  obtain rfl : decision = .takeOver := Option.some.inj (hdecide.symm.trans htaken)
  exact ⟨htaken, (hwrites (freshTerm "a" noon 2147483647) (by decide)).2 "l" "ns" none⟩

end CertIssuer.Election
