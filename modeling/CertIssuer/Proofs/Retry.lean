import CertIssuer.Retry
import Mathlib.Algebra.Group.Nat.Defs
import Mathlib.Data.Nat.Find

/-!
# Attempts under a retry schedule

A delay is the time spent failing, brought between the base and the ceiling. Attempts that come as
soon as they are due therefore double the time spent failing until it reaches the ceiling, and from
then on each of them adds the ceiling. No attempt is counted anywhere: the doubling comes of the
clamp alone (`attempts_scheduled`).
-/

namespace CertIssuer

namespace Span

/-- The span between two bounds, which is none when they cross. -/
def clamp? (d low high : Span) : Option Span := if low ≤ high then some (d.clamp low high) else none

theorem nanos_add (a b : Span) : (a + b).nanos = a.nanos + b.nanos := rfl

theorem nanos_clamp (d low high : Span) :
    (d.clamp low high).nanos = min (max d.nanos low.nanos) high.nanos := by
  simp only [clamp, nanos_min, nanos_max]

theorem clamp_mono {d d' : Span} (h : d ≤ d') (low high : Span) :
    d.clamp low high ≤ d'.clamp low high := by
  rw [le_iff] at h
  simp only [le_iff, nanos_clamp]
  omega

end Span

namespace RetryPolicy

variable {p : RetryPolicy} {n : Nat}

/-! ### Delays -/

theorem ceiling_eq (p : RetryPolicy) : p.ceiling = max p.base p.maxInterval := by
  have hnanos : p.ceiling.nanos = (max p.base p.maxInterval).nanos := by
    rw [ceiling, Span.nanos_max, Span.nanos_max, Nat.max_comm]
  exact congrArg Span.mk hnanos

theorem base_le_ceiling (p : RetryPolicy) : p.base ≤ p.ceiling := by
  rw [Span.le_iff, ceiling, Span.nanos_max]
  omega

theorem nanos_requeueAfter (p : RetryPolicy) (elapsed : Span) :
    (p.requeueAfter elapsed).nanos = min (max elapsed.nanos p.base.nanos) p.ceiling.nanos :=
  Span.nanos_clamp _ _ _

theorem requeueAfter_eq (p : RetryPolicy) (elapsed : Span) :
    p.requeueAfter elapsed = elapsed.clamp p.base (max p.base p.maxInterval) := by
  rw [requeueAfter, ceiling_eq]

theorem clamp?_eq_requeueAfter (p : RetryPolicy) (elapsed : Span) :
    elapsed.clamp? p.base p.ceiling = some (p.requeueAfter elapsed) :=
  if_pos p.base_le_ceiling

theorem requeueAfter_bounds (p : RetryPolicy) (elapsed : Span) :
    p.base ≤ p.requeueAfter elapsed ∧ p.requeueAfter elapsed ≤ max p.base p.maxInterval := by
  have hbase := p.base_le_ceiling
  rw [← ceiling_eq]
  simp only [Span.le_iff, nanos_requeueAfter] at hbase ⊢
  omega

/-! ### Attempts -/

/-- The time spent failing at each attempt, when every one comes as soon as it is due. -/
def failing (p : RetryPolicy) : Nat → Span
  | 0 => .zero
  | n + 1 => failing p n + p.requeueAfter (failing p n)

theorem nanos_failing_succ (p : RetryPolicy) (n : Nat) :
    (p.failing (n + 1)).nanos = (p.failing n).nanos +
      min (max (p.failing n).nanos p.base.nanos) p.ceiling.nanos := by
  rw [failing, Span.nanos_add, nanos_requeueAfter]

theorem failing_one (p : RetryPolicy) : p.failing 1 = p.base := by
  have hbase := p.base_le_ceiling
  rw [Span.le_iff] at hbase
  have hzero : (p.failing 0).nanos = 0 := rfl
  have hnanos : (p.failing 1).nanos = p.base.nanos := by
    rw [nanos_failing_succ]
    omega
  exact congrArg Span.mk hnanos

theorem failing_double (hlow : p.base ≤ p.failing n) (hhigh : p.failing n ≤ p.ceiling) :
    (p.failing (n + 1)).nanos = 2 * (p.failing n).nanos := by
  rw [Span.le_iff] at hlow hhigh
  rw [nanos_failing_succ]
  omega

/-- Up to the ceiling the attempts lie at the base times the powers of two. -/
theorem failing_pow (h : 2 ^ n * p.base.nanos ≤ 2 * p.ceiling.nanos) :
    (p.failing (n + 1)).nanos = 2 ^ n * p.base.nanos := by
  induction n with
  | zero => rw [failing_one, Nat.pow_zero, Nat.one_mul]
  | succ n ih =>
    have hpow : 2 ^ (n + 1) * p.base.nanos = 2 * (2 ^ n * p.base.nanos) := by
      rw [Nat.pow_succ, Nat.mul_comm (2 ^ n) 2, Nat.mul_assoc]
    have hbase : p.base.nanos ≤ 2 ^ n * p.base.nanos :=
      Nat.le_mul_of_pos_left _ Nat.one_le_two_pow
    have hlast : (p.failing (n + 1)).nanos = 2 ^ n * p.base.nanos := ih (by omega)
    have hlow : p.base ≤ p.failing (n + 1) := by
      rw [Span.le_iff]
      omega
    have hhigh : p.failing (n + 1) ≤ p.ceiling := by
      rw [Span.le_iff]
      omega
    rw [failing_double hlow hhigh, hlast, hpow]

/-- Beyond the ceiling they lie apart by the ceiling. -/
theorem failing_add (h : p.ceiling ≤ p.failing n) (k : Nat) :
    (p.failing (n + k)).nanos = (p.failing n).nanos + k * p.ceiling.nanos := by
  have hbase := p.base_le_ceiling
  rw [Span.le_iff] at h hbase
  induction k with
  | zero => rw [Nat.add_zero, Nat.zero_mul, Nat.add_zero]
  | succ k ih =>
    rw [← Nat.add_assoc, nanos_failing_succ, ih, Nat.succ_mul]
    omega

theorem failing_mono {m n : Nat} (h : m ≤ n) : p.failing m ≤ p.failing n := by
  rw [Span.le_iff]
  induction n with
  | zero =>
    rw [Nat.le_zero.mp h]
  | succ n ih =>
    rcases Nat.lt_or_eq_of_le h with hlt | rfl
    · have hstep := nanos_failing_succ p n
      have hlast := ih (Nat.le_of_lt_succ hlt)
      omega
    · exact Nat.le_refl _

theorem mul_base_le_failing (p : RetryPolicy) (n : Nat) :
    n * p.base.nanos ≤ (p.failing n).nanos := by
  have hbase := p.base_le_ceiling
  rw [Span.le_iff] at hbase
  induction n with
  | zero =>
    rw [Nat.zero_mul]
    exact Nat.zero_le _
  | succ n ih =>
    rw [nanos_failing_succ, Nat.succ_mul]
    omega

/-- Whatever time it is, it is reached at one of the attempts and past from there on. -/
theorem exists_reached (hbase : .zero < p.base) (d : Span) :
    ∃ first, ∀ n, d ≤ p.failing n ↔ first ≤ n := by
  have hpos : 0 < p.base.nanos := hbase
  have hreached : ∃ n, d ≤ p.failing n := by
    refine ⟨d.nanos, ?_⟩
    rw [Span.le_iff]
    exact Nat.le_trans (Nat.le_mul_of_pos_right _ hpos) (mul_base_le_failing p d.nanos)
  refine ⟨Nat.find hreached, fun n => ⟨Nat.find_min' hreached, fun hle => ?_⟩⟩
  exact Nat.le_trans (Nat.find_spec hreached) (failing_mono hle)

/-- The bounds of a delay never cross, and it grows with the time spent failing. With a base the
attempts begin at the base and double the time spent failing until it reaches the ceiling; from
there on they add the ceiling, and at one of them the time to give up has come for good. -/
theorem attempts_scheduled (p : RetryPolicy) :
    (∀ elapsed, elapsed.clamp? p.base p.ceiling = some (p.requeueAfter elapsed) ∧
      p.base ≤ p.requeueAfter elapsed ∧ p.requeueAfter elapsed ≤ max p.base p.maxInterval) ∧
    (∀ sooner later, sooner ≤ later → p.requeueAfter sooner ≤ p.requeueAfter later) ∧
    (.zero < p.base →
      p.failing 1 = p.base ∧
      (∀ n, p.base ≤ p.failing n → p.failing n ≤ max p.base p.maxInterval →
        (p.failing (n + 1)).nanos = 2 * (p.failing n).nanos) ∧
      (∀ n, 2 ^ n * p.base.nanos ≤ 2 * (max p.base p.maxInterval).nanos →
        (p.failing (n + 1)).nanos = 2 ^ n * p.base.nanos) ∧
      (∃ turn, ∀ n, max p.base p.maxInterval ≤ p.failing n ↔ turn ≤ n) ∧
      (∀ n k, max p.base p.maxInterval ≤ p.failing n →
        (p.failing (n + k)).nanos =
          (p.failing n).nanos + k * (max p.base p.maxInterval).nanos) ∧
      ∃ last, ∀ n, p.isExhausted (p.failing n) = true ↔ last ≤ n) := by
  refine ⟨fun elapsed => ⟨p.clamp?_eq_requeueAfter elapsed, p.requeueAfter_bounds elapsed⟩,
    fun sooner later h => Span.clamp_mono h p.base p.ceiling, fun hbase => ?_⟩
  rw [← ceiling_eq]
  obtain ⟨last, hlast⟩ := exists_reached hbase p.maxDuration
  refine ⟨p.failing_one, fun n => failing_double, fun n => failing_pow,
    exists_reached hbase p.ceiling, fun n k h => failing_add h k, last, fun n => ?_⟩
  rw [isExhausted, decide_eq_true_iff]
  exact hlast n

/-- By default the delays are 5, 5, 10, 20, 40, 80 and 160 seconds and then five minutes each, up to
the eighteenth attempt after the first one. -/
theorem attempts_scheduled_default :
    (∀ k, (({} : RetryPolicy).failing (7 + k)).nanos = (320 + 300 * k) * 1000000000) ∧
      ∀ n, ({} : RetryPolicy).isExhausted (({} : RetryPolicy).failing n) = true ↔ 18 ≤ n := by
  have hbase : ({} : RetryPolicy).base.nanos = 5000000000 := rfl
  have hceiling : (max ({} : RetryPolicy).base ({} : RetryPolicy).maxInterval).nanos = 300000000000 :=
    by decide
  obtain ⟨-, -, hschedule⟩ := attempts_scheduled {}
  obtain ⟨-, -, hpow, -, hadd, last, hlast⟩ := hschedule (by decide)
  have hseven : (({} : RetryPolicy).failing 7).nanos = 320000000000 := by
    have hreached : 2 ^ 6 * ({} : RetryPolicy).base.nanos ≤
        2 * (max ({} : RetryPolicy).base ({} : RetryPolicy).maxInterval).nanos := by
      rw [hbase, hceiling]
      omega
    rw [hpow 6 hreached, hbase]
    omega
  have hlater (k : Nat) :
      (({} : RetryPolicy).failing (7 + k)).nanos = (320 + 300 * k) * 1000000000 := by
    have hbeyond : max ({} : RetryPolicy).base ({} : RetryPolicy).maxInterval ≤
        ({} : RetryPolicy).failing 7 := by
      rw [Span.le_iff, hceiling, hseven]
      decide
    rw [hadd 7 k hbeyond, hseven, hceiling]
    omega
  have hexhausted (n : Nat) :
      3600000000000 ≤ (({} : RetryPolicy).failing n).nanos ↔ last ≤ n := by
    rw [← hlast n, isExhausted, decide_eq_true_iff]
    rfl
  have h17 := (hexhausted 17).not
  have h18 := hexhausted 18
  rw [hlater 10] at h17
  rw [hlater 11] at h18
  obtain rfl : last = 18 := by omega
  exact ⟨hlater, hlast⟩

end RetryPolicy

end CertIssuer
