import CertIssuer.Election.Candidate
import CertIssuer.Proofs.Election.Record
import CertIssuer.Proofs.Time.Calendar

/-!
# Records in storage

A Lease keeps the holder and the count of a record as they are, its times to the microsecond and its
validity to the second (`Record.cut`), as long as the times have years of four digits and the
seconds of the validity fit into 32 bits. A record that has been stored once is stored again without
a loss, and never lapses later than the one in memory.
-/

namespace CertIssuer

/-! ### Times -/

namespace Timestamp

theorem inRange_iff {t : Timestamp} :
    t.inRange = true ↔ -8334601228800 ≤ t.seconds ∧ t.seconds ≤ 8210266876799 := by
  rw [inRange, Bool.and_eq_true, decide_eq_true_eq, decide_eq_true_eq]
  rfl

theorem seconds_plus {t : Timestamp} (h : t.nanos < 2000000000) (d : Span) :
    t.seconds ≤ (t.plus d).seconds ∧ (t.plus d).seconds ≤ t.seconds + d.seconds + 2 := by
  have hsubsecond : d.subsecond < 1000000000 := Nat.mod_lt _ (by decide)
  have hsecond : Span.perSecond = 1000000000 := rfl
  unfold plus
  dsimp only
  split
  · split
    · dsimp only
      omega
    · dsimp only
      rw [hsecond]
      omega
  · dsimp only
    rw [hsecond]
    omega

section Years

variable {t : Timestamp} (hfirst : 0 ≤ (Calendar.ofDays (t.seconds / 86400)).year)
  (hlast : (Calendar.ofDays (t.seconds / 86400)).year ≤ 9999)

include hfirst hlast

theorem seconds_of_year : -62167219200 ≤ t.seconds ∧ t.seconds < 253402300800 := by
  have hdays := Calendar.days_of_year hfirst hlast
  omega

/-- From a year of four digits a validity of 32 bits does not lead beyond the calendar. -/
theorem plus?_of_year {d : Span} (hnanos : t.nanos < 2000000000)
    (hd : (d.seconds : Int) ≤ 2147483647) : t.plus? d = some (t.plus d) := by
  have hseconds := seconds_of_year hfirst hlast
  have hlater := seconds_plus hnanos d
  have hrange : (t.plus d).inRange = true := inRange_iff.mpr ⟨by omega, by omega⟩
  exact if_pos hrange

end Years

/-- A point in a year of four digits and outside leap seconds. -/
structure Plain (t : Timestamp) : Prop where
  first : 0 ≤ (Calendar.ofDays (t.seconds / 86400)).year
  last : (Calendar.ofDays (t.seconds / 86400)).year ≤ 9999
  nanos_lt : t.nanos < 1000000000

namespace Plain

variable {t : Timestamp} (h : t.Plain)

include h

theorem valid : t.Valid := by
  have hseconds := seconds_of_year h.first h.last
  have hleap : t.inLeapSecond = false := decide_eq_false (Nat.not_le.mpr h.nanos_lt)
  constructor
  · exact inRange_iff.mpr ⟨by omega, by omega⟩
  · exact Nat.lt_trans h.nanos_lt (by decide)
  · rw [hleap]
    nofun

theorem truncateMicros : t.truncateMicros.Plain :=
  ⟨h.first, h.last, nanos_truncateMicros_lt h.nanos_lt⟩

theorem storedTime?_eq : Election.Record.storedTime? t = some t.truncateMicros :=
  if_pos ⟨h.first, h.last⟩

end Plain

end Timestamp

namespace Election.Record

/-! ### What storage keeps -/

/-- A record that a Lease can carry. -/
structure Storable (r : Record) : Prop where
  acquired : ∀ t ∈ r.acquired, t.Plain
  renewed : ∀ t ∈ r.renewed, t.Plain
  duration : r.duration.seconds ≤ maxInt32
  transitions : -2147483648 ≤ r.transitions ∧ r.transitions ≤ 2147483647

/-- The record with its times to the microsecond and its validity to the second. -/
def cut (r : Record) : Record :=
  { r with
    acquired := r.acquired.map Timestamp.truncateMicros
    renewed := r.renewed.map Timestamp.truncateMicros
    duration := .ofSeconds r.duration.seconds }

theorem map_truncateMicros_idem (o : Option Timestamp) :
    (o.map Timestamp.truncateMicros).map Timestamp.truncateMicros =
      o.map Timestamp.truncateMicros := by
  cases o with
  | none => rfl
  | some t => exact congrArg some t.truncateMicros_idem

theorem cut_cut (r : Record) : r.cut.cut = r.cut := by
  simp only [cut, map_truncateMicros_idem, Span.seconds_ofSeconds]

theorem plain_truncated {o : Option Timestamp} (h : ∀ t ∈ o, t.Plain) :
    ∀ t ∈ o.map Timestamp.truncateMicros, t.Plain := by
  intro t ht
  obtain ⟨u, hu, rfl⟩ := Option.map_eq_some_iff.mp ht
  exact (h u hu).truncateMicros

theorem bind_storedTime? {o : Option Timestamp} (h : ∀ t ∈ o, t.Plain) :
    o.bind storedTime? = o.map Timestamp.truncateMicros := by
  cases o with
  | none => rfl
  | some t => exact (h t rfl).storedTime?_eq

theorem bind_truncated {o : Option Timestamp} (h : ∀ t ∈ o, t.Plain) :
    (o.map Timestamp.truncateMicros).bind storedTime? = o.map Timestamp.truncateMicros := by
  rw [bind_storedTime? (plain_truncated h), map_truncateMicros_idem]

/-! ### Round trips -/

theorem toLease?_of_short {r : Record} (h : r.duration.seconds ≤ maxInt32) (name ns : String)
    (version : Option String) :
    let m : Metadata := { name := some name, «namespace» := some ns, resourceVersion := version }
    r.toLease? name ns version = some ⟨m, some r.sent⟩ :=
  if_neg (Int.not_lt.mpr h)

theorem toLease?_of_long {r : Record} (h : maxInt32 < r.duration.seconds) (name ns : String)
    (version : Option String) : r.toLease? name ns version = none :=
  if_pos h

/-- A candidate does not get to store such a record. -/
theorem store_of_long {r : Record} (h : maxInt32 < r.duration.seconds) (c : Candidate)
    (existing : Option Lease) : c.store existing r = throw .serialization := by
  rw [Candidate.store, toLease?_of_long h]

namespace Storable

variable {r : Record} (h : r.Storable)

include h

theorem cut : r.cut.Storable where
  acquired := plain_truncated h.acquired
  renewed := plain_truncated h.renewed
  duration := by
    show ((Span.ofSeconds r.duration.seconds).seconds : Int) ≤ maxInt32
    rw [Span.seconds_ofSeconds]
    exact h.duration
  transitions := h.transitions

theorem sendable : r.Sendable where
  acquired t ht := (h.acquired t ht).valid
  renewed t ht := (h.renewed t ht).valid
  transitions := Json.int32?_of_bounds h.transitions.1 h.transitions.2

theorem carried_eq : r.carried = r.cut := by
  rw [carried, bind_storedTime? h.acquired, bind_storedTime? h.renewed, Record.cut]

theorem ofLease_sent_eq (m : Metadata) : ofLease ⟨m, some r.sent⟩ = r.cut := by
  simp only [ofLease, sent, Record.cut, bind_truncated h.acquired, bind_truncated h.renewed,
    storedDuration_seconds, Option.getD_some]

/-- A record goes into a Lease and comes back cut, be it read from the Lease itself or from its
text. -/
theorem round_trip (name ns : String) (version : Option String) :
    ∃ lease, r.toLease? name ns version = some lease ∧ ofLease lease = r.cut ∧
      ∃ stored, Lease.ofJson? lease.toJson = some stored ∧ ofLease stored = r.cut := by
  have hlease := toLease?_of_short h.duration name ns version
  obtain ⟨stored, hread, -, hstored⟩ := ofLease_sent h.sendable hlease
  rw [h.carried_eq] at hstored
  exact ⟨_, hlease, h.ofLease_sent_eq _, stored, hread, hstored⟩

/-! ### Expiry -/

theorem expiry_eq {t : Timestamp} (ht : r.renewed = some t) :
    r.expiry = .at (t.plus r.duration) := by
  have hduration : (r.duration.seconds : Int) ≤ 2147483647 := h.duration
  have hshort : r.duration.nanos ≤ maxValidity := by
    simp only [Span.seconds, Span.perSecond] at hduration
    unfold maxValidity
    omega
  rw [expiry, ht]
  dsimp only
  have hplain := h.renewed t ht
  have hplus : t.plus? r.duration = some (t.plus r.duration) :=
    Timestamp.plus?_of_year hplain.first hplain.last
      (Nat.lt_trans hplain.nanos_lt (by decide)) hduration
  rw [validity, if_pos hshort, hplus]

/-- What is stored lapses no later: neither the renewal nor the validity is longer after the cut. -/
theorem expiry_cut_le {t : Timestamp} (ht : r.renewed = some t) :
    ∃ stored held, r.cut.expiry = .at stored ∧ r.expiry = .at held ∧ stored ≤ held := by
  have hplain := h.renewed t ht
  have hcut : r.cut.renewed = some t.truncateMicros := congrArg (Option.map _) ht
  refine ⟨_, _, h.cut.expiry_eq hcut, h.expiry_eq ht, ?_⟩
  have hstart := t.sinceEpoch_truncateMicros_le
  have hspan : (Span.ofSeconds r.duration.seconds).nanos ≤ r.duration.nanos :=
    Nat.div_mul_le_self r.duration.nanos Span.perSecond
  refine Timestamp.le_of_sinceEpoch_le (Timestamp.nanos_plus_lt hplain.truncateMicros.nanos_lt _)
    (Timestamp.nanos_plus_lt hplain.nanos_lt _) ?_
  rw [Timestamp.sinceEpoch_plus hplain.truncateMicros.nanos_lt,
    Timestamp.sinceEpoch_plus hplain.nanos_lt]
  show _ + ((Span.ofSeconds r.duration.seconds).nanos : Int) ≤ _
  omega

end Storable

/-- A record whose validity is too long is not stored. Any other one is stored and read back cut,
after which storing it again changes nothing, and what is stored lapses no later. -/
theorem storage_cuts (r : Record) (name ns : String) (version : Option String) :
    (maxInt32 < r.duration.seconds → r.toLease? name ns version = none ∧
      ∀ (c : Candidate) existing, c.store existing r = throw .serialization) ∧
    (r.Storable →
      (∃ lease, r.toLease? name ns version = some lease ∧ ofLease lease = r.cut ∧
        ∃ stored, Lease.ofJson? lease.toJson = some stored ∧ ofLease stored = r.cut) ∧
      (∃ lease, r.cut.toLease? name ns version = some lease ∧ ofLease lease = r.cut) ∧
      (r.renewed = none → r.cut.expiry = .unknown ∧ r.expiry = .unknown) ∧
      ∀ t, r.renewed = some t →
        ∃ stored held, r.cut.expiry = .at stored ∧ r.expiry = .at held ∧ stored ≤ held) := by
  refine ⟨fun hlong => ⟨toLease?_of_long hlong name ns version, store_of_long hlong⟩, fun h => ?_⟩
  refine ⟨h.round_trip name ns version, ?_, fun hnone => ?_, fun t ht => h.expiry_cut_le ht⟩
  · obtain ⟨lease, hlease, hread, -⟩ := h.cut.round_trip name ns version
    exact ⟨lease, hlease, hread.trans r.cut_cut⟩
  · have hcut : r.cut.renewed = none := congrArg (Option.map _) hnone
    simp only [expiry, hnone, hcut, and_self]

/-- A record that says more than a Lease can carry. -/
def fineRecord : Record where
  holder := some ""
  renewed := some ⟨0, 123456789⟩
  duration := ⟨15500000000⟩
  transitions := -1

theorem fineRecord_storable : fineRecord.Storable where
  acquired := nofun
  renewed t ht := by
    obtain rfl : (⟨0, 123456789⟩ : Timestamp) = t := Option.some.inj ht
    exact ⟨by decide, by decide, by decide⟩
  duration := by decide
  transitions := by decide

/-- The fractions are cut off and the empty holder stays. -/
theorem storage_cuts_fine :
    ∃ lease, fineRecord.toLease? "lease" "apps" (some "42") = some lease ∧
      ofLease lease = { holder := some "", renewed := some ⟨0, 123456000⟩,
                        duration := .ofSeconds 15, transitions := -1 } := by
  obtain ⟨⟨lease, hlease, hread, -⟩, -⟩ :=
    (storage_cuts fineRecord "lease" "apps" (some "42")).2 fineRecord_storable
  exact ⟨lease, hlease, hread.trans rfl⟩

end Election.Record

end CertIssuer
