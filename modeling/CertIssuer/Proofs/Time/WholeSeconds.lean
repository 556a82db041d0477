import CertIssuer.Proofs.Number.Binary64
import CertIssuer.Proofs.Text.Digits
import CertIssuer.Proofs.Text.Trim
import CertIssuer.Proofs.Time.UnitText

/-!
# Spans of whole seconds

The components of a span are added up in binary floating point. As long as they are whole numbers of
hours, minutes and seconds and their sum is below 2^53 seconds, no step of it is rounded, and the
span is exactly that sum (`whole_seconds_exact`). A span that is written in hours, minutes and
seconds therefore reads back without its fraction of a second.
-/

namespace CertIssuer

namespace Span.UnitText

open Binary64

/-! ### Whole numbers of a unit -/

/-- The units that are whole numbers of seconds. -/
inductive WholeUnit where
  | hour
  | minute
  | second
  deriving DecidableEq

namespace WholeUnit

def letter : WholeUnit → Char
  | hour => 'h'
  | minute => 'm'
  | second => 's'

def seconds : WholeUnit → Nat
  | hour => 3600
  | minute => 60
  | second => 1

theorem seconds_pos (u : WholeUnit) : 0 < u.seconds := by cases u <;> decide

theorem seconds_lt (u : WholeUnit) : u.seconds < Nat.pow 2 53 := by cases u <;> decide

theorem letter_mem_units (u : WholeUnit) :
    (String.ofList [u.letter], Binary64.ofNat u.seconds) ∈ units := by
  cases u <;> simp [units, letter, seconds]

end WholeUnit

/-- A whole number of hours, minutes or seconds; the digits may begin with zeros. -/
structure WholePart where
  digits : List Char
  unit : WholeUnit
  nonempty : digits ≠ []
  isDigit : ∀ c ∈ digits, Text.isDigit c = true

namespace WholePart

def chars (p : WholePart) : List Char := p.digits ++ [p.unit.letter]

def seconds (p : WholePart) : Nat := Text.ofDigits p.digits * p.unit.seconds

def component (p : WholePart) : Component where
  number := p.digits
  unit := [p.unit.letter]
  scale := .ofNat p.unit.seconds
  isNumber := (isNumber_digits p.isDigit).mpr p.nonempty
  isUnit := p.unit.letter_mem_units

/-- A number in its shortest form. -/
def ofNat (n : Nat) (u : WholeUnit) : WholePart where
  digits := Text.digits n
  unit := u
  nonempty := Text.digits_ne_nil n
  isDigit := fun _ hc => Text.isDigit_of_mem_digits hc

theorem seconds_ofNat (n : Nat) (u : WholeUnit) : (ofNat n u).seconds = n * u.seconds :=
  congrArg (· * u.seconds) (Text.ofDigits_digits n)

/-- A product of a whole number and a whole scale is not rounded below 2^53. -/
theorem seconds_component {c : Component} {m n : Nat} (hnumber : valueOf c.number = whole m)
    (hscale : c.scale = whole n) (h : m * n < Nat.pow 2 53) : c.seconds = whole (m * n) := by
  rw [Component.seconds, hnumber, hscale, mul_whole h]

theorem component_seconds {p : WholePart} (h : p.seconds < Nat.pow 2 53) :
    p.component.seconds = whole p.seconds := by
  have hdigits : Text.ofDigits p.digits < Nat.pow 2 53 :=
    Nat.lt_of_le_of_lt (Nat.le_mul_of_pos_right _ p.unit.seconds_pos) h
  have hnumber : valueOf p.component.number = whole (Text.ofDigits p.digits) := by
    rw [component, valueOf_digits p.isDigit, ofDecimal_whole hdigits]
  have hscale : p.component.scale = whole p.unit.seconds := by
    simp only [component, ofNat_whole p.unit.seconds_lt]
  exact seconds_component hnumber hscale h

theorem not_blank {p : WholePart} {c : Char} (h : c ∈ p.chars) : Text.isBlank c = false := by
  rcases List.mem_append.mp h with hdigit | hletter
  · exact Text.isBlank_eq_false (p.isDigit c hdigit)
  · rw [List.mem_singleton.mp hletter]
    cases p.unit <;> decide

end WholePart

/-- The text of some whole parts, one right after the other. -/
def wholeText (parts : List WholePart) : String := String.ofList (parts.flatMap WholePart.chars)

def wholeSum : List WholePart → Nat
  | [] => 0
  | p :: parts => p.seconds + wholeSum parts

/-! ### Their sum -/

theorem addAll_cons (start : Binary64) (c : Component) (cs : List Component) :
    addAll start (c :: cs) = addAll (start.add c.seconds) cs := rfl

/-- No addition is rounded: each sum on the way is a whole number that is no greater than the last
one. -/
theorem addAll_whole {parts : List WholePart} {n : Nat} (h : n + wholeSum parts < Nat.pow 2 53) :
    addAll (whole n) (parts.map WholePart.component) = whole (n + wholeSum parts) := by
  induction parts generalizing n with
  | nil => rfl
  | cons p parts ih =>
    rw [wholeSum, ← Nat.add_assoc] at h ⊢
    have hnext : n + p.seconds < Nat.pow 2 53 := Nat.lt_of_le_of_lt (Nat.le_add_right _ _) h
    have hpart : p.seconds < Nat.pow 2 53 := Nat.lt_of_le_of_lt (Nat.le_add_left _ _) hnext
    rw [List.map_cons, addAll_cons, WholePart.component_seconds hpart, add_whole hnext, ih h]

theorem ofSeconds?_whole {n : Nat} (h : n < Nat.pow 2 53) :
    ofSeconds? (whole n) = some (.ofSeconds n) := by
  have hlimit : n < 18446744073709551616 := Nat.lt_trans h (by decide)
  have hnanos : n * one * perSecond = n * perSecond * one := by
    rw [Nat.mul_assoc, Nat.mul_comm one, ← Nat.mul_assoc]
  unfold whole ofSeconds?
  dsimp only
  rw [if_pos (Nat.mul_lt_mul_of_pos_right hlimit Binary64.one_pos), hnanos,
    roundQuotient_mul _ Binary64.one_pos]
  rfl

theorem parse_wholeText {parts : List WholePart} (hne : parts ≠ [])
    (h : wholeSum parts < Nat.pow 2 53) :
    Span.parse (wholeText parts) = .ok (.ofSeconds (wholeSum parts)) := by
  have htrim : Text.trimChars (wholeText parts).toList = parts.flatMap WholePart.chars := by
    rw [wholeText, String.toList_ofList]
    refine Text.trimChars_eq_self fun c hc => ?_
    obtain ⟨p, -, hp⟩ := List.mem_flatMap.mp hc
    exact WholePart.not_blank hp
  have htext : parts.flatMap WholePart.chars =
      (parts.map WholePart.component).flatMap Component.text := by
    rw [List.flatMap_map]
    rfl
  have hsum : addAll (.finite 0) (parts.map WholePart.component) = whole (wholeSum parts) := by
    have hzero : Binary64.finite 0 = whole 0 := by rw [whole, Nat.zero_mul]
    rw [hzero, addAll_whole (by rwa [Nat.zero_add]), Nat.zero_add]
  have hspan : ofSeconds? (addAll (.finite 0) (parts.map WholePart.component)) =
      some (.ofSeconds (wholeSum parts)) := by
    rw [hsum, ofSeconds?_whole h]
  have hstates : States (Text.trimChars (wholeText parts).toList) (.ofSeconds (wholeSum parts)) := by
    rw [htrim, htext]
    exact .components (by simpa using hne) hspan
  rw [Span.parse, (states_iff _ _).mpr hstates]

/-! ### A written span -/

/-- The hours, minutes and seconds that the text of a span is made of. -/
def writtenParts (d : Span) : List WholePart :=
  [.ofNat (d.seconds / 3600) .hour, .ofNat (d.seconds % 3600 / 60) .minute,
    .ofNat (d.seconds % 60) .second]

theorem text_eq_wholeText (d : Span) : d.text = wholeText (writtenParts d) := by
  have hstring (t : String) : toString t = t := rfl
  refine String.toList_inj.mp ?_
  simp [Span.text, hstring, wholeText, writtenParts, WholePart.ofNat, WholePart.chars,
    WholeUnit.letter, Text.digits]

theorem wholeSum_writtenParts (d : Span) : wholeSum (writtenParts d) = d.seconds := by
  simp only [wholeSum, writtenParts, WholePart.seconds_ofNat, WholeUnit.seconds]
  omega

/-- Whole hours, minutes and seconds add up without error below 2^53 seconds, and a written span
reads back as its whole seconds. -/
theorem whole_seconds_exact :
    (∀ parts : List WholePart, parts ≠ [] → wholeSum parts < Nat.pow 2 53 →
      Span.parse (wholeText parts) = .ok (.ofSeconds (wholeSum parts))) ∧
    ∀ d : Span, d < .ofSeconds (Nat.pow 2 53) → Span.parse d.text = .ok (.ofSeconds d.seconds) := by
  refine ⟨fun parts hne h => parse_wholeText hne h, fun d h => ?_⟩
  have hne : writtenParts d ≠ [] := List.cons_ne_nil _ _
  have hseconds : wholeSum (writtenParts d) < Nat.pow 2 53 := by
    rw [wholeSum_writtenParts]
    exact Nat.div_lt_of_lt_mul (Nat.mul_comm _ _ ▸ h)
  rw [text_eq_wholeText, parse_wholeText hne hseconds, wholeSum_writtenParts]

/-- The largest such sum, written out of order and with zeros in front, and a span with a fraction
of a second. -/
theorem whole_seconds_exact_largest :
    Span.parse "31s00002501999792983h6m30m" = .ok (.ofSeconds (Nat.pow 2 53 - 1)) ∧
    Span.parse (Span.mk 7384000000005).text = .ok (.ofSeconds 7384) := by
  let parts : List WholePart :=
    [.ofNat 31 .second,
      ⟨"00002501999792983".toList, .hour, by decide, List.all_eq_true.mp (by decide)⟩,
      .ofNat 6 .minute, .ofNat 30 .minute]
  have htext : wholeText parts = "31s00002501999792983h6m30m" := by decide +kernel
  have hsum : wholeSum parts = Nat.pow 2 53 - 1 := by decide +kernel
  have hlimit : wholeSum parts < Nat.pow 2 53 := by decide +kernel
  have hwhole := whole_seconds_exact.1 parts (by decide) hlimit
  rw [htext, hsum] at hwhole
  exact ⟨hwhole, whole_seconds_exact.2 (Span.mk 7384000000005) (by decide)⟩

-- Past the limit two sums in a row are no longer told apart.
example : Span.parse "9007199254740993s" = .ok (.ofSeconds (Nat.pow 2 53)) := by decide +kernel

end Span.UnitText
end CertIssuer
