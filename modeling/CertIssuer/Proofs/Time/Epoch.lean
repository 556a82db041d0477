import CertIssuer.Time.Timestamp
import Mathlib.Data.Finset.Card
import Mathlib.Data.List.Dedup

/-!
# Points in time as numbers

A point in time is a number of nanoseconds, and outside leap seconds a span is added by adding its
nanoseconds. The number does not count a leap second that is over. What a sum or a difference says
of the number is off by those at most (`sinceEpoch_add_le`, `sinceEpoch_le_elapsed`), and a run of
later and later times meets each of them once (`card_leapSeconds_cons`).
-/

namespace CertIssuer

namespace Timestamp

variable {s t : Timestamp}

/-- The nanoseconds since 1970-01-01T00:00:00Z. -/
def sinceEpoch (t : Timestamp) : Int := t.seconds * 1000000000 + t.nanos

theorem plus_eq (h : t.nanos < 1000000000) (d : Span) :
    t.plus d = ⟨t.seconds + (d.nanos / 1000000000 : Nat) +
        ((t.nanos + d.nanos % 1000000000) / 1000000000 : Nat),
      (t.nanos + d.nanos % 1000000000) % 1000000000⟩ := by
  have hleap : t.inLeapSecond = false := by
    unfold inLeapSecond
    exact decide_eq_false (Nat.not_le.mpr h)
  unfold plus
  rw [if_neg (by simp [hleap])]
  rfl

theorem nanos_plus_lt (h : t.nanos < 1000000000) (d : Span) :
    (t.plus d).nanos < 1000000000 := by
  rw [plus_eq h]
  exact Nat.mod_lt _ (by decide)

theorem sinceEpoch_plus (h : t.nanos < 1000000000) (d : Span) :
    (t.plus d).sinceEpoch = t.sinceEpoch + d.nanos := by
  rw [plus_eq h]
  simp only [sinceEpoch]
  omega

theorem lt_iff_sinceEpoch (hs : s.nanos < 1000000000) (ht : t.nanos < 1000000000) :
    s < t ↔ s.sinceEpoch < t.sinceEpoch := by
  have hlt : s < t ↔ s.seconds < t.seconds ∨ s.seconds = t.seconds ∧ s.nanos < t.nanos := Iff.rfl
  rw [hlt]
  simp only [sinceEpoch]
  omega

theorem sinceEpoch_truncateMicros (t : Timestamp) :
    t.sinceEpoch < t.truncateMicros.sinceEpoch + 1000 := by
  simp only [sinceEpoch, truncateMicros]
  omega

theorem sinceEpoch_truncateMicros_le (t : Timestamp) :
    t.truncateMicros.sinceEpoch ≤ t.sinceEpoch := by
  simp only [sinceEpoch, truncateMicros]
  omega

theorem nanos_truncateMicros_lt (h : t.nanos < 1000000000) :
    t.truncateMicros.nanos < 1000000000 :=
  Nat.lt_of_le_of_lt (Nat.div_mul_le_self t.nanos 1000) h

/-! ### Differences -/

theorem elapsed_self (t : Timestamp) : t.elapsed t = .zero := by
  have hzero : t.nanosFrom t = 0 := by simp [nanosFrom, leapAdjustment]
  rw [elapsed, hzero]
  rfl

/-- Outside leap seconds a difference is that of the numbers. -/
theorem nanos_elapsed (hs : s.inLeapSecond = false) (ht : t.inLeapSecond = false) :
    (t.elapsed s).nanos = (t.sinceEpoch - s.sinceEpoch).toNat := by
  have hleap : t.leapAdjustment s = 0 := by simp [leapAdjustment, hs, ht]
  have hnanos : t.nanosFrom s = t.sinceEpoch - s.sinceEpoch := by
    simp only [nanosFrom, hleap, sinceEpoch, Span.perSecond]
    omega
  rw [elapsed, hnanos]

/-! ### Order -/

/-- Outside leap seconds no less time has passed at a later point. -/
theorem elapsed_mono {since : Timestamp} (h : s ≤ t) (hsince : since.inLeapSecond = false)
    (hs : s.inLeapSecond = false) (ht : t.inLeapSecond = false) :
    s.elapsed since ≤ t.elapsed since := by
  have hnanos : ¬ 1000000000 ≤ s.nanos := of_decide_eq_false hs
  rw [Span.le_iff, nanos_elapsed hsince hs, nanos_elapsed hsince ht]
  rw [le_iff] at h
  simp only [sinceEpoch]
  omega

theorem le_trans {a b c : Timestamp} (hab : a ≤ b) (hbc : b ≤ c) : a ≤ c := by
  rw [le_iff] at *
  omega

theorem le_refl (a : Timestamp) : a ≤ a := .inr ⟨rfl, Nat.le_refl _⟩

theorem le_of_not_lt {a b : Timestamp} (h : ¬ a < b) : b ≤ a := by
  have h : ¬ (a.seconds < b.seconds ∨ a.seconds = b.seconds ∧ a.nanos < b.nanos) := h
  rw [le_iff]
  omega

theorem le_of_sinceEpoch_le (hs : s.nanos < 1000000000) (ht : t.nanos < 1000000000)
    (h : s.sinceEpoch ≤ t.sinceEpoch) : s ≤ t :=
  le_of_not_lt fun hlt => Int.not_lt.mpr h ((lt_iff_sinceEpoch ht hs).mp hlt)

theorem le_antisymm (hst : s ≤ t) (hts : t ≤ s) : s = t := by
  rw [le_iff] at hst hts
  have hseconds : s.seconds = t.seconds := by omega
  have hnanos : s.nanos = t.nanos := by omega
  calc
    s = ⟨s.seconds, s.nanos⟩ := rfl
    _ = ⟨t.seconds, t.nanos⟩ := by rw [hseconds, hnanos]

theorem max_cases (s t : Timestamp) : max s t = t ∧ s ≤ t ∨ max s t = s ∧ t ≤ s := by
  by_cases h : s ≤ t
  · exact .inl ⟨if_pos h, h⟩
  · refine .inr ⟨if_neg h, ?_⟩
    rw [le_iff] at h ⊢
    omega

/-! ### Leap seconds -/

theorem inLeapSecond_iff : t.inLeapSecond = true ↔ 1000000000 ≤ t.nanos := decide_eq_true_iff

/-- The leap seconds that times lie in, by the seconds that they continue. -/
def leapSeconds (times : List Timestamp) : Finset Int :=
  ((times.filter inLeapSecond).map seconds).toFinset

/-- The number of leap seconds that begin at a point and are over at a later one. -/
def leapsUntil (s t : Timestamp) : Nat :=
  if s.inLeapSecond = true ∧ s.seconds < t.seconds then 1 else 0

theorem leapSeconds_cons (s : Timestamp) (times : List Timestamp) :
    leapSeconds (s :: times) =
      if s.inLeapSecond = true then insert s.seconds (leapSeconds times)
      else leapSeconds times := by
  unfold leapSeconds
  split
  · next hleap => rw [List.filter_cons_of_pos hleap, List.map_cons, List.toFinset_cons]
  · next hleap => rw [List.filter_cons_of_neg hleap]

theorem notMem_leapSeconds {seconds : Int} {times : List Timestamp}
    (h : ∀ u ∈ times, seconds < u.seconds) : seconds ∉ leapSeconds times := by
  intro hmem
  obtain ⟨u, hu, rfl⟩ := List.mem_map.mp (List.mem_toFinset.mp hmem)
  exact absurd (h u (List.mem_filter.mp hu).1) (Int.lt_irrefl _)

/-- A leap second that is over does not come again. -/
theorem card_leapSeconds_cons {times : List Timestamp} (h : ∀ u ∈ times, t ≤ u) :
    leapsUntil s t + (leapSeconds (t :: times)).card ≤ (leapSeconds (s :: t :: times)).card := by
  rw [leapSeconds_cons s, leapsUntil]
  by_cases hleap : s.inLeapSecond = true
  · rw [if_pos hleap]
    by_cases hlater : s.seconds < t.seconds
    · have hnew : s.seconds ∉ leapSeconds (t :: times) := by
        refine notMem_leapSeconds (List.forall_mem_cons.mpr ⟨hlater, fun u hu => ?_⟩)
        rcases h u hu with hseconds | ⟨hseconds, -⟩
        · exact Int.lt_trans hlater hseconds
        · rwa [← hseconds]
      rw [if_pos ⟨hleap, hlater⟩, Finset.card_insert_of_notMem hnew, Nat.add_comm]
    · rw [if_neg fun hover => hlater hover.2, Nat.zero_add]
      exact Finset.card_le_card (Finset.subset_insert _ _)
  · rw [if_neg hleap, if_neg fun hover => hleap hover.1, Nat.zero_add]

/-- At a later point no less time has passed, but for a leap second that is over. -/
theorem sinceEpoch_le (hs : s.nanos < 2 * Span.perSecond) (h : s ≤ t) :
    s.sinceEpoch ≤ t.sinceEpoch + leapsUntil s t * 1000000000 := by
  rw [Span.perSecond] at hs
  rw [le_iff] at h
  simp only [leapsUntil, inLeapSecond_iff, sinceEpoch]
  split <;> omega

/-- A sum stays within a second or a leap second, or it leaves it; of the time until then the rest
of a leap second does not count. -/
theorem plus_cases (t : Timestamp) (d : Span) :
    (t.plus d).seconds = t.seconds ∧ (t.plus d).inLeapSecond = t.inLeapSecond ∧
        (t.plus d).sinceEpoch = t.sinceEpoch + d.nanos ∨
      t.seconds < (t.plus d).seconds ∧ (t.plus d).inLeapSecond = false ∧
        (t.plus d).sinceEpoch + leapsUntil t (t.plus d) * 1000000000 = t.sinceEpoch + d.nanos := by
  by_cases hleap : t.inLeapSecond = true
  · have hnanos := inLeapSecond_iff.mp hleap
    have hspan : d.nanos = d.seconds * 1000000000 + d.subsecond :=
      (Nat.div_add_mod' d.nanos 1000000000).symm
    by_cases hstay : d.seconds = 0 ∧ t.nanos + d.subsecond < 2 * Span.perSecond
    · have hplus : t.plus d = ⟨t.seconds, t.nanos + d.subsecond⟩ := by
        rw [plus, if_pos hleap, if_pos hstay]
      rw [hplus, hleap, inLeapSecond_iff]
      refine .inl ⟨rfl, Nat.le_add_right_of_le hnanos, ?_⟩
      simp only [sinceEpoch]
      omega
    · have hplus : t.plus d = ⟨t.seconds + d.seconds +
          ((t.nanos + d.subsecond - Span.perSecond) / Span.perSecond : Nat),
          (t.nanos + d.subsecond - Span.perSecond) % Span.perSecond⟩ := by
        rw [plus, if_pos hleap, if_neg hstay]
      have hlater : t.seconds < (t.plus d).seconds := by
        rw [hplus]
        simp only [Span.perSecond] at hstay ⊢
        omega
      refine .inr ⟨hlater, ?_, ?_⟩
      · rw [hplus]
        exact decide_eq_false (Nat.not_le.mpr (Nat.mod_lt _ (by decide)))
      · rw [leapsUntil, if_pos ⟨hleap, hlater⟩, hplus]
        simp only [sinceEpoch, Span.perSecond]
        omega
  · have hnanos : t.nanos < 1000000000 := Nat.not_le.mp (mt inLeapSecond_iff.mpr hleap)
    have hsum := sinceEpoch_plus hnanos d
    have hlt := nanos_plus_lt hnanos d
    have hplain : (t.plus d).inLeapSecond = false := decide_eq_false (Nat.not_le.mpr hlt)
    have hlater : t.seconds ≤ (t.plus d).seconds := by
      rw [plus_eq hnanos]
      dsimp only
      omega
    have hnone : leapsUntil t (t.plus d) = 0 := if_neg fun hover => hleap hover.1
    rw [hnone, hplain, eq_false_of_ne_true hleap, hsum, Int.natCast_zero, Int.zero_mul,
      Int.add_zero]
    rcases Int.lt_or_eq_of_le hlater with hlater | hsame
    · exact .inr ⟨hlater, rfl, rfl⟩
    · exact .inl ⟨hsame.symm, rfl, rfl⟩

theorem nanos_plus_lt_two (t : Timestamp) (d : Span) : (t.plus d).nanos < 2 * Span.perSecond := by
  unfold plus
  dsimp only
  split
  · split
    · next hstay => exact hstay.2
    · exact Nat.lt_of_lt_of_le (Nat.mod_lt _ (by decide)) (by decide)
  · exact Nat.lt_of_lt_of_le (Nat.mod_lt _ (by decide)) (by decide)

theorem le_plus (t : Timestamp) (d : Span) : t ≤ t.plus d := by
  rw [le_iff]
  rcases plus_cases t d with ⟨hsame, -, hsum⟩ | ⟨hlater, -, -⟩
  · simp only [sinceEpoch] at hsum
    omega
  · exact .inl hlater

theorem sinceEpoch_add_le {d : Span} (h : s.plus d ≤ t) :
    s.sinceEpoch + d.nanos ≤ t.sinceEpoch + leapsUntil s t * 1000000000 := by
  have hle := sinceEpoch_le (nanos_plus_lt_two s d) h
  rcases plus_cases s d with ⟨hsame, hleap, hsum⟩ | ⟨hlater, hplain, hsum⟩
  · have huntil : leapsUntil (s.plus d) t = leapsUntil s t := by
      rw [leapsUntil, hsame, hleap, leapsUntil]
    omega
  · have hnone : leapsUntil (s.plus d) t = 0 := by
      rw [leapsUntil, hplain]
      rfl
    have hpassed : s.seconds < t.seconds := by
      rw [le_iff] at h
      omega
    have huntil : leapsUntil s (s.plus d) = leapsUntil s t := by
      simp only [leapsUntil, hlater, hpassed]
    omega

/-- A difference leaves out the leap second of its later time at most. -/
theorem sinceEpoch_le_elapsed (now since : Timestamp) :
    now.sinceEpoch ≤
      since.sinceEpoch + (now.elapsed since).nanos + (leapSeconds [now]).card * 1000000000 := by
  have hadjust : 0 ≤ now.leapAdjustment since + (leapSeconds [now]).card := by
    rw [leapSeconds_cons, leapAdjustment]
    by_cases hleap : now.inLeapSecond = true
    · have hcard : (insert now.seconds (leapSeconds [])).card = 1 := rfl
      rw [if_pos hleap, if_pos hleap, hcard]
      split
      · split <;> decide
      · split <;> decide
    · rw [if_neg hleap, if_neg hleap]
      split
      · split <;> decide
      · split <;> decide
  simp only [sinceEpoch, elapsed, nanosFrom, Span.perSecond]
  omega

end Timestamp

end CertIssuer
