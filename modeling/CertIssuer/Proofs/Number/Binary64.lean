import CertIssuer.Number.Binary64
import Mathlib.Data.Nat.Basic

/-!
# Whole numbers in binary floating point

Rounding moves no number that has nothing beyond its leading bits (`nearest_mul`). The whole numbers
below 2^53 are of that kind, so they are read, added and multiplied without error as long as what
comes out is one of them.
-/

namespace CertIssuer.Binary64

/-- The binary number that is a whole number. -/
def whole (n : Nat) : Binary64 := finite (n * one)

theorem one_pos : 0 < one := by decide +kernel

theorem exists_one_eq : ∃ k, one = Nat.pow 2 k := ⟨1074, by decide +kernel⟩

theorem roundQuotient_mul (q : Nat) {d : Nat} (hd : 0 < d) : roundQuotient (q * d) d = q := by
  have hzero : 2 * (q * d % d) < d := by
    rw [Nat.mul_mod_left]
    exact hd
  simp only [roundQuotient, if_pos hzero, Nat.mul_div_cancel q hd]

/-- A number of quanta with nothing beyond its leading bits is the nearest one to itself. -/
theorem nearest_mul {q d : Nat} (hd : 0 < d) (hbits : Nat.pow 2 (excessBits q) ∣ q)
    (hmax : q < Nat.pow 2 1024 * one) : nearest (q * d) d = finite q := by
  obtain ⟨k, hk⟩ := hbits
  have hunit : 0 < d * Nat.pow 2 (excessBits q) := Nat.mul_pos hd (Nat.two_pow_pos _)
  have hsplit : q * d = k * (d * Nat.pow 2 (excessBits q)) := by
    calc
      q * d = Nat.pow 2 (excessBits q) * k * d := congrArg (· * d) hk
      _ = k * (d * Nat.pow 2 (excessBits q)) := by
        rw [Nat.mul_comm, ← Nat.mul_assoc, Nat.mul_comm]
  have hround : roundQuotient (q * d) (d * Nat.pow 2 (excessBits q)) * Nat.pow 2 (excessBits q) =
      q := by
    rw [hsplit, roundQuotient_mul k hunit, Nat.mul_comm]
    exact hk.symm
  unfold nearest
  dsimp only
  rw [Nat.mul_div_cancel q hd, hround, if_pos hmax]

section Whole

variable {m n : Nat}

theorem excessBits_dvd (h : n < Nat.pow 2 53) : Nat.pow 2 (excessBits (n * one)) ∣ n * one := by
  obtain ⟨k, hone⟩ := exists_one_eq
  rw [hone]
  by_cases hzero : n = 0
  · rw [hzero, Nat.zero_mul]
    exact Nat.dvd_zero _
  · have hne : n * 2 ^ k ≠ 0 := Nat.mul_ne_zero hzero (Nat.ne_of_gt (Nat.two_pow_pos k))
    have hlt : n * 2 ^ k < 2 ^ (53 + k) := by
      rw [Nat.pow_add]
      exact Nat.mul_lt_mul_of_pos_right h (Nat.two_pow_pos k)
    have hlog : (n * 2 ^ k).log2 < 53 + k := (Nat.log2_lt hne).mpr hlt
    have hexcess : excessBits (n * 2 ^ k) ≤ k := by
      unfold excessBits
      omega
    exact Nat.dvd_mul_left_of_dvd (Nat.pow_dvd_pow 2 hexcess) n

theorem nearest_whole {d : Nat} (hd : 0 < d) (h : n < Nat.pow 2 53) :
    nearest (n * one * d) d = whole n := by
  have hlimit : Nat.pow 2 53 ≤ Nat.pow 2 1024 := by decide +kernel
  have hscaled := Nat.mul_le_mul_right one hlimit
  have hlt := Nat.mul_lt_mul_of_pos_right h one_pos
  exact nearest_mul hd (excessBits_dvd h) (Nat.lt_of_lt_of_le hlt hscaled)

theorem ofDecimal_whole (h : n < Nat.pow 2 53) : ofDecimal n 0 = whole n := by
  rw [← nearest_whole Nat.one_pos h, Nat.mul_one]
  rfl

theorem ofNat_whole (h : n < Nat.pow 2 53) : ofNat n = whole n := ofDecimal_whole h

theorem add_whole (h : m + n < Nat.pow 2 53) : (whole m).add (whole n) = whole (m + n) := by
  rw [← nearest_whole Nat.one_pos h, Nat.mul_one, Nat.add_mul]
  rfl

theorem mul_whole (h : m * n < Nat.pow 2 53) : (whole m).mul (whole n) = whole (m * n) := by
  rw [← nearest_whole one_pos h, Nat.mul_assoc (m * n), ← Nat.mul_mul_mul_comm]
  rfl

end Whole

end CertIssuer.Binary64
