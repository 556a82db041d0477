import CertIssuer.Text.Blank
import Mathlib.Data.List.DropRight

/-!
# Trimming

Trimming takes a stretch off each end of a text, and nothing of it but white space
(`filter_trimChars`).
-/

namespace CertIssuer.Text

variable {cs : List Char} {c : Char}

theorem trimStart_cons (h : isBlank c = false) (cs : List Char) :
    trimStart (c :: cs) = c :: cs :=
  List.dropWhile_cons_of_neg (by simp [h])

theorem trimEnd_eq (cs : List Char) : trimEnd cs = cs.rdropWhile isBlank := rfl

theorem exists_trimChars (cs : List Char) : ∃ a b, cs = a ++ trimChars cs ++ b := by
  obtain ⟨a, ha⟩ : trimStart cs <:+ cs := List.dropWhile_suffix _
  obtain ⟨b, hb⟩ : trimEnd (trimStart cs) <+: trimStart cs := by
    rw [trimEnd_eq]
    exact List.rdropWhile_prefix _ _
  refine ⟨a, b, ?_⟩
  rw [List.append_assoc, trimChars, hb, ha]

theorem mem_of_mem_trimChars (h : c ∈ trimChars cs) : c ∈ cs := by
  obtain ⟨a, b, hcs⟩ := exists_trimChars cs
  rw [hcs]
  exact List.mem_append_left b (List.mem_append_right a h)

theorem filter_dropWhile (p : Char → Bool) (cs : List Char) :
    (cs.dropWhile p).filter (!p ·) = cs.filter (!p ·) := by
  induction cs with
  | nil => rfl
  | cons c cs ih =>
    cases hc : p c with
    | true => rw [List.dropWhile_cons_of_pos hc, ih, List.filter_cons_of_neg (by simp [hc])]
    | false => rw [List.dropWhile_cons_of_neg (by simp [hc])]

theorem filter_trimChars (cs : List Char) :
    (trimChars cs).filter (!isBlank ·) = cs.filter (!isBlank ·) := by
  rw [trimChars, trimEnd, List.filter_reverse, filter_dropWhile, ← List.filter_reverse,
    List.reverse_reverse, trimStart, filter_dropWhile]

theorem mem_trimChars (h : c ∈ cs) (hc : isBlank c = false) : c ∈ trimChars cs := by
  have hfilter : c ∈ (trimChars cs).filter (!isBlank ·) := by
    rw [filter_trimChars]
    exact List.mem_filter.mpr ⟨h, by simp [hc]⟩
  exact (List.mem_filter.mp hfilter).1

theorem trimChars_eq_self (h : ∀ c ∈ cs, isBlank c = false) : trimChars cs = cs := by
  have hkept : ∀ ds : List Char, (∀ c ∈ ds, isBlank c = false) → ds.filter (!isBlank ·) = ds :=
    fun ds hds => List.filter_eq_self.mpr fun c hc => by simp [hds c hc]
  rw [← hkept (trimChars cs) fun c hc => h c (mem_of_mem_trimChars hc), filter_trimChars,
    hkept cs h]

end CertIssuer.Text
