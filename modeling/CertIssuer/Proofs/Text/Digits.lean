import CertIssuer.Text.Blank
import CertIssuer.Text.Digits
import Mathlib.Data.List.Induction

/-!
# Numbers as digits

What is written with a least width reads back as the number that was written, with as many digits as
the width says if the number fits.
-/

namespace CertIssuer.Text

/-! ### Digits -/

theorem isDigit_of_mem_digits {n : Nat} {c : Char} (h : c ∈ digits n) : isDigit c = true :=
  Nat.isDigit_of_mem_toDigits (by decide) (by decide) h

theorem digits_ne_nil (n : Nat) : digits n ≠ [] := Nat.toDigits_ne_nil

theorem isDigit_iff {c : Char} : isDigit c = true ↔ 48 ≤ c.toNat ∧ c.toNat ≤ 57 := by
  simp only [isDigit, Bool.and_eq_true, decide_eq_true_eq]
  rfl

theorem isBlank_eq_false {c : Char} (h : isDigit c = true) : isBlank c = false := by
  obtain ⟨hlow, hhigh⟩ := isDigit_iff.mp h
  simp only [isBlank, Bool.or_eq_false_iff, Bool.and_eq_false_iff, beq_eq_false_iff_ne,
    decide_eq_false_iff_not]
  omega

theorem digitValue_lt {c : Char} (h : isDigit c = true) : digitValue c < 10 := by
  obtain ⟨hlow, hhigh⟩ := isDigit_iff.mp h
  have hzero : '0'.toNat = 48 := rfl
  unfold digitValue
  omega

theorem ofDigits_concat (ds : List Char) (c : Char) :
    ofDigits (ds ++ [c]) = ofDigits ds * 10 + digitValue c := by
  simp [ofDigits]

theorem ofDigits_lt {ds : List Char} (h : ∀ c ∈ ds, isDigit c = true) :
    ofDigits ds < Nat.pow 10 ds.length := by
  induction ds using List.reverseRecOn with
  | nil => decide
  | append_singleton ds c ih =>
    have hds : ofDigits ds < Nat.pow 10 ds.length := ih fun d hd => h d (List.mem_append_left _ hd)
    have hc : digitValue c < 10 := digitValue_lt (h c (by simp))
    have hpow : Nat.pow 10 (ds.length + 1) = Nat.pow 10 ds.length * 10 := rfl
    rw [ofDigits_concat, List.length_append, List.length_singleton, hpow]
    omega

/-! ### Padding -/

theorem ofDigits_zeros (k : Nat) (ds : List Char) :
    ofDigits (List.replicate k '0' ++ ds) = ofDigits ds := by
  induction k with
  | zero => rfl
  | succ k ih => exact ih

theorem ofDigits_paddedDigits (width n : Nat) : ofDigits (paddedDigits width n) = n := by
  rw [paddedDigits, ofDigits_zeros, ofDigits_digits]

theorem isDigit_of_mem_paddedDigits {width n : Nat} {c : Char} (h : c ∈ paddedDigits width n) :
    isDigit c = true := by
  rcases List.mem_append.mp h with hzero | hdigit
  · rw [(List.mem_replicate.mp hzero).2]
    rfl
  · exact isDigit_of_mem_digits hdigit

theorem paddedDigits_ne_nil (width n : Nat) : paddedDigits width n ≠ [] :=
  List.append_ne_nil_of_right_ne_nil _ (digits_ne_nil n)

theorem length_paddedDigits {width n : Nat} (hwidth : 0 < width) (h : n < Nat.pow 10 width) :
    (paddedDigits width n).length = width := by
  have hle : (digits n).length ≤ width := (Nat.length_toDigits_le_iff (by decide) hwidth).mpr h
  simp only [paddedDigits, List.length_append, List.length_replicate]
  omega

end CertIssuer.Text
