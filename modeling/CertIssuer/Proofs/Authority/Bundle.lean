import CertIssuer.Proofs.Authority.Pem

/-!
# Bundles of certificates

A bundle is blocks with texts of any kind before, between and after them. As long as these texts,
the bodies of the blocks and the seams between them make no further marker, the blocks are what
splitting returns. What it returns falls apart into itself, whatever it was taken from.
-/

namespace CertIssuer.Authority.Pem

/-- A block of a bundle: the text before it, and what stands between its markers. -/
structure Part where
  before : List Char
  body : List Char
  deriving DecidableEq, Repr

namespace Part

def block (p : Part) : List Char := begin ++ p.body ++ close

def text (p : Part) : List Char := p.before ++ p.block

/-- Where the BEGIN marker stands in the text. -/
def beginPlace (p : Part) : Nat := p.before.length

/-- Where the END marker stands in the text. -/
def closePlace (p : Part) : Nat := (p.before ++ begin ++ p.body).length

end Part

/-- Parts one after the other, and a text after the last of them. -/
def bundle (parts : List Part) (rest : List Char) : List Char := parts.flatMap Part.text ++ rest

/-- The places in a bundle of something that each part has at a place of its own. -/
def places (place : Part → Nat) : List Part → List Nat
  | [] => []
  | p :: parts => place p :: (places place parts).map (p.text.length + ·)

/-- The markers stand in the bundle only where the blocks put them. -/
structure Apart (parts : List Part) (rest : List Char) : Prop where
  begins : ∀ k, begin <+: (bundle parts rest).drop k → k ∈ places Part.beginPlace parts
  closes : ∀ k, close <+: (bundle parts rest).drop k → k ∈ places Part.closePlace parts

/-- A marker does not stand behind the end of a text. -/
theorem lt_length_of_stands {marker cs : List Char} {k : Nat} (hm : marker ≠ [])
    (h : marker <+: cs.drop k) : k < cs.length := by
  refine Nat.lt_of_not_le fun hle => hm ?_
  rw [List.drop_eq_nil_of_le hle] at h
  exact List.prefix_nil.mp h

instance (parts : List Part) (rest : List Char) : Decidable (Apart parts rest) :=
  decidable_of_iff
    ((∀ k < (bundle parts rest).length, begin <+: (bundle parts rest).drop k →
        k ∈ places Part.beginPlace parts) ∧
      ∀ k < (bundle parts rest).length, close <+: (bundle parts rest).drop k →
        k ∈ places Part.closePlace parts)
    ⟨fun h => ⟨fun k hk => h.1 k (lt_length_of_stands (by decide) hk) hk,
        fun k hk => h.2 k (lt_length_of_stands (by decide) hk) hk⟩,
      fun h => ⟨fun k _ => h.begins k, fun k _ => h.closes k⟩⟩

section Parts

variable {p : Part} {parts : List Part} {rest : List Char}

theorem bundle_cons (p : Part) (parts : List Part) (rest : List Char) :
    bundle (p :: parts) rest = p.text ++ bundle parts rest := by
  rw [bundle, List.flatMap_cons, List.append_assoc, bundle]

theorem beginPlace_lt (p : Part) : p.beginPlace < p.text.length := by
  have hbegins : 0 < begin.length := by decide
  simp only [Part.beginPlace, Part.text, Part.block, List.length_append]
  omega

theorem closePlace_lt (p : Part) : p.closePlace < p.text.length := by
  have hcloses : 0 < close.length := by decide
  simp only [Part.closePlace, Part.text, Part.block, List.length_append]
  omega

/-- The first part comes before the places of the others. -/
theorem le_of_mem_places {place : Part → Nat} (hplace : place p < p.text.length) {k : Nat}
    (h : k ∈ places place (p :: parts)) : place p ≤ k := by
  rcases List.mem_cons.mp h with rfl | h
  · exact Nat.le_refl _
  · obtain ⟨j, -, rfl⟩ := List.mem_map.mp h
    omega

theorem mem_places_of_shift {place : Part → Nat} (hplace : place p < p.text.length) {k : Nat}
    (h : p.text.length + k ∈ places place (p :: parts)) : k ∈ places place parts := by
  rcases List.mem_cons.mp h with hfirst | h
  · omega
  · obtain ⟨j, hj, heq⟩ := List.mem_map.mp h
    rwa [← Nat.add_left_cancel heq]

theorem Apart.tail (h : Apart (p :: parts) rest) : Apart parts rest where
  begins k hk := by
    refine mem_places_of_shift (beginPlace_lt p) (h.begins _ ?_)
    rwa [bundle_cons, ← List.drop_drop, List.drop_left]
  closes k hk := by
    refine mem_places_of_shift (closePlace_lt p) (h.closes _ ?_)
    rwa [bundle_cons, ← List.drop_drop, List.drop_left]

theorem Apart.firstBlock? (h : Apart (p :: parts) rest) :
    firstBlock? (bundle (p :: parts) rest) = some (p.block, bundle parts rest) := by
  have htext : bundle (p :: parts) rest =
      p.before ++ (begin ++ p.body ++ (close ++ bundle parts rest)) := by
    simp only [bundle_cons, Part.text, Part.block, List.append_assoc]
  refine firstBlock?_eq_some_iff.mpr ⟨p.before, begin ++ p.body, ?_, ?_, rfl⟩
  · refine breakAt?_eq_some_iff.mpr ⟨htext.symm, ?_, fun k hk hstands => ?_⟩
    · rw [List.append_assoc]
      exact List.prefix_append _ _
    · have hle := le_of_mem_places (beginPlace_lt p) (h.begins k hstands)
      exact absurd hk (Nat.not_lt_of_le hle)
  · refine breakAt?_eq_some_iff.mpr ⟨rfl, List.prefix_append _ _, fun k hk hstands => ?_⟩
    have hclose : close <+: (bundle (p :: parts) rest).drop (p.before.length + k) := by
      rwa [htext, ← List.drop_drop, List.drop_left]
    have hle := le_of_mem_places (closePlace_lt p) (h.closes _ hclose)
    rw [Part.closePlace, List.append_assoc, List.length_append] at hle
    omega

theorem Apart.blocks (h : Apart parts rest) :
    blocks (bundle parts rest) = parts.map fun p => p.block ++ ['\n'] := by
  induction parts with
  | nil =>
    refine blocks_of_none ?_
    cases hfirst : Pem.firstBlock? (bundle [] rest) with
    | none => rfl
    | some found =>
      obtain ⟨before, body, hbegin, -, -⟩ := firstBlock?_eq_some_iff.mp hfirst
      obtain ⟨happend, hstands, -⟩ := breakAt?_eq_some_iff.mp hbegin
      have hplace : before.length ∈ places Part.beginPlace [] := by
        refine h.begins _ ?_
        rwa [← happend, List.drop_left]
      exact absurd hplace List.not_mem_nil
  | cons p parts ih => rw [blocks_of_some h.firstBlock?, ih h.tail, List.map_cons]

end Parts

/-- Splitting returns the blocks of a bundle, in order and each with a line end after it, when the
markers stand nowhere else. What it returns for a text it returns again for all of that in one
piece. -/
theorem split_exact_stable :
    (∀ parts rest, Apart parts rest →
      splitCertificates (String.ofList (bundle parts rest)) =
        parts.map fun p => String.ofList (p.block ++ ['\n'])) ∧
    ∀ text, splitCertificates (String.join (splitCertificates text)) = splitCertificates text := by
  constructor
  · intro parts rest h
    rw [splitCertificates, String.toList_ofList, h.blocks, List.map_map]
    rfl
  · exact fun text => splitCertificates_join fun c hc => isCertificate_of_mem_split hc

/-- Two blocks that touch, with dashes at every seam. -/
def seamedParts : List Part := [
  ⟨"subject=leaf\n----".toList, "\nTEVBRg==\n-".toList⟩,
  ⟨[], "-\nUk9PVA==\n".toList⟩]

theorem split_exact_stable_seamed :
    Apart seamedParts "-----END".toList ∧
    splitCertificates (String.ofList (bundle seamedParts "-----END".toList)) = [
      "-----BEGIN CERTIFICATE-----\nTEVBRg==\n------END CERTIFICATE-----\n",
      "-----BEGIN CERTIFICATE------\nUk9PVA==\n-----END CERTIFICATE-----\n"] := by
  have hapart : Apart seamedParts "-----END".toList := by decide +kernel
  exact ⟨hapart, split_exact_stable.1 _ _ hapart⟩

end CertIssuer.Authority.Pem
