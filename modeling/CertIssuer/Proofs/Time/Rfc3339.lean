import CertIssuer.Proofs.Text.Digits
import CertIssuer.Proofs.Text.Trim
import CertIssuer.Proofs.Time.Calendar
import CertIssuer.Time.Rfc3339

/-!
# Points in time as texts

The text of a point in time reads back as that point (`parse?_text`), and every point that a text
states is one that has a text (`valid_of_parse?`). Each reader is matched with the writer of its
part, whatever comes after it.
-/

namespace CertIssuer.Timestamp

open Text

/-- A point in the range; a leap second continues the last second of a minute. -/
structure Valid (t : Timestamp) : Prop where
  inRange : t.inRange = true
  nanos_lt : t.nanos < 2 * Span.perSecond
  leap : t.inLeapSecond = true → t.seconds % 60 = 59

/-! ### The parts of a text -/

theorem mark?_cons {c : Char} (h : isBlank c = false) (cs : List Char) :
    mark? c (c :: cs) = some cs := by
  simp only [mark?, trimStart_cons h, if_true]

theorem exists_paddedDigits (width n : Nat) :
    ∃ c cs, paddedDigits width n = c :: cs ∧ isDigit c = true := by
  obtain ⟨c, cs, hcons⟩ := List.exists_cons_of_ne_nil (paddedDigits_ne_nil width n)
  have hmem : c ∈ paddedDigits width n := by
    rw [hcons]
    exact List.mem_cons_self
  exact ⟨c, cs, hcons, isDigit_of_mem_paddedDigits hmem⟩

theorem trimStart_paddedDigits (width n : Nat) (rest : List Char) :
    trimStart (paddedDigits width n ++ rest) = paddedDigits width n ++ rest := by
  obtain ⟨c, cs, hcons, hc⟩ := exists_paddedDigits width n
  rw [hcons, List.cons_append, trimStart_cons (isBlank_eq_false hc)]

theorem takeWhile_paddedDigits (width n : Nat) {c : Char} (hc : isDigit c = false)
    (rest : List Char) :
    (paddedDigits width n ++ c :: rest).takeWhile isDigit = paddedDigits width n := by
  rw [List.takeWhile_append_of_pos fun d hd => isDigit_of_mem_paddedDigits hd,
    List.takeWhile_cons_of_neg (by simp [hc]), List.append_nil]

theorem digitsUpTo?_paddedDigits {width n : Nat} (hwidth : 0 < width) (h : n < Nat.pow 10 width)
    (rest : List Char) : digitsUpTo? width (paddedDigits width n ++ rest) = some (n, rest) := by
  have hlength := length_paddedDigits hwidth h
  have htake : (paddedDigits width n ++ rest).take width = paddedDigits width n :=
    List.take_left' hlength
  have hall : (paddedDigits width n).takeWhile isDigit = paddedDigits width n := by
    have happend : (paddedDigits width n ++ []).takeWhile isDigit = paddedDigits width n ++ [] :=
      List.takeWhile_append_of_pos fun d hd => isDigit_of_mem_paddedDigits hd
    simpa using happend
  simp only [digitsUpTo?, trimStart_paddedDigits, htake, hall, List.isEmpty_iff,
    paddedDigits_ne_nil, if_false, ofDigits_paddedDigits, List.drop_left]

theorem year?_paddedDigits {n : Nat} (h : n < Nat.pow 10 4) (rest : List Char) :
    year? (paddedDigits 4 n ++ rest) = some ((n : Int), rest) := by
  have hread := digitsUpTo?_paddedDigits (by decide) h rest
  have hstart := trimStart_paddedDigits 4 n rest
  obtain ⟨c, cs, hcons, hc⟩ := exists_paddedDigits 4 n
  rw [hcons] at hread hstart ⊢
  unfold year?
  rw [hstart]
  -- a digit is no sign
  split
  · next heq =>
    cases heq
    exact absurd hc (by decide)
  · next heq =>
    cases heq
    exact absurd hc (by decide)
  · rw [hread]
    rfl

theorem year?_yearText (year : Int) (rest : List Char) :
    year? (yearText year ++ '-' :: rest) = some (year, '-' :: rest) := by
  have hlong : (paddedDigits 4 year.natAbs ++ '-' :: rest).takeWhile isDigit =
      paddedDigits 4 year.natAbs :=
    takeWhile_paddedDigits 4 year.natAbs (by decide) rest
  have hnonempty := paddedDigits_ne_nil 4 year.natAbs
  unfold yearText
  split
  · next hfour =>
    have hlt : year.toNat < 10000 := by omega
    rw [year?_paddedDigits hlt, Int.toNat_of_nonneg hfour.1]
  · by_cases hneg : year < 0
    · have hback : -(year.natAbs : Int) = year := by omega
      simp only [if_pos hneg, List.cons_append, year?,
        trimStart_cons (by decide : isBlank '-' = false), hlong, List.isEmpty_iff, hnonempty,
        if_false, ofDigits_paddedDigits, List.drop_left, hback]
    · have hback : (year.natAbs : Int) = year := by omega
      simp only [if_neg hneg, List.cons_append, year?,
        trimStart_cons (by decide : isBlank '+' = false), hlong, List.isEmpty_iff, hnonempty,
        if_false, ofDigits_paddedDigits, List.drop_left, hback]

theorem fraction?_paddedDigits {width n : Nat} (hwidth : 0 < width) (hle : width ≤ 9)
    (h : n < Nat.pow 10 width) {c : Char} (hc : isDigit c = false) (rest : List Char) :
    fraction? ('.' :: paddedDigits width n ++ c :: rest) =
      some (n * Nat.pow 10 (9 - width), c :: rest) := by
  have hlength := length_paddedDigits hwidth h
  have htake : (paddedDigits width n).take 9 = paddedDigits width n :=
    List.take_of_length_le (by omega)
  simp only [fraction?, List.cons_append, takeWhile_paddedDigits width n hc, htake,
    List.isEmpty_iff, paddedDigits_ne_nil, if_false, ofDigits_paddedDigits, hlength,
    List.drop_left' hlength]

theorem fraction?_fractionText {n : Nat} (h : n < Span.perSecond) (rest : List Char) :
    fraction? (fractionText n ++ 'Z' :: rest) = some (n, 'Z' :: rest) := by
  have hsecond : Span.perSecond = 1000000000 := rfl
  have hzone : isDigit 'Z' = false := by decide
  unfold fractionText
  split
  · next hzero =>
    subst hzero
    rfl
  · split
    · have hlt : n / 1000000 < 1000 := by omega
      have hback : n / 1000000 * Nat.pow 10 (9 - 3) = n := by
        change n / 1000000 * 1000000 = n
        omega
      rw [fraction?_paddedDigits (by decide) (by decide) hlt hzone, hback]
    · split
      · have hlt : n / 1000 < 1000000 := by omega
        have hback : n / 1000 * Nat.pow 10 (9 - 6) = n := by
          change n / 1000 * 1000 = n
          omega
        rw [fraction?_paddedDigits (by decide) (by decide) hlt hzone, hback]
      · have hlt : n < 1000000000 := h
        have hback : n * Nat.pow 10 (9 - 9) = n := Nat.mul_one n
        rw [fraction?_paddedDigits (by decide) (by decide) hlt hzone, hback]

/-! ### A whole text -/

theorem assemble?_eq {date : Calendar.Date} {hour minute second nanos : Nat} {t : Timestamp}
    (hdate : date.isValid = true) (hhour : hour < 24) (hminute : minute < 60)
    (hsecond : second ≤ 60)
    (hseconds : Calendar.toDays date * 86400 +
      (hour * 3600 + minute * 60 + if second == 60 then 59 else second : Nat) = t.seconds)
    (hnanos : (nanos + if second == 60 then Span.perSecond else 0) = t.nanos)
    (hrange : t.inRange = true) : assemble? date hour minute second nanos 0 = some t := by
  have hstart : (⟨t.seconds, 0⟩ : Timestamp).inRange = true := hrange
  simp only [assemble?, hdate, hhour, hminute, hsecond, Bool.and_self, decide_true,
    if_true, Int.sub_zero, Int.add_zero, hseconds, hnanos, hrange, hstart]

theorem assemble?_parts {t : Timestamp} (h : t.Valid) :
    assemble? (Calendar.ofDays (t.seconds / 86400)) (t.secondOfDay / 3600)
      (t.secondOfDay / 60 % 60) (t.secondOfDay % 60 + if t.inLeapSecond then 1 else 0)
      t.fraction 0 = some t := by
  have hday : (t.secondOfDay : Int) = t.seconds % 86400 := by
    unfold secondOfDay
    omega
  have hfraction : t.fraction = t.nanos % Span.perSecond := rfl
  have hdate := Calendar.ofDays_isValid (t.seconds / 86400)
  cases hleap : t.inLeapSecond with
  | true =>
    have hover : Span.perSecond ≤ t.nanos := by simpa [inLeapSecond] using hleap
    have hnext : t.nanos - Span.perSecond < Span.perSecond := by
      have htwo := h.nanos_lt
      omega
    have hnanos : t.nanos % Span.perSecond + Span.perSecond = t.nanos := by
      rw [Nat.mod_eq_sub_mod hover, Nat.mod_eq_of_lt hnext, Nat.sub_add_cancel hover]
    have hlast : t.secondOfDay % 60 = 59 := by
      have hminute := h.leap hleap
      omega
    simp only [if_true, hlast]
    refine assemble?_eq hdate (by omega) (by omega) (by decide) ?_ ?_ h.inRange
    · rw [Calendar.toDays_ofDays, if_pos (by decide)]
      omega
    · rw [if_pos (by decide), hfraction, hnanos]
  | false =>
    have hunder : t.nanos < Span.perSecond := by simpa [inLeapSecond] using hleap
    have hplain : (t.secondOfDay % 60 == 60) = false := by
      rw [beq_eq_false_iff_ne]
      omega
    simp only [Bool.false_eq_true, if_false, Nat.add_zero]
    refine assemble?_eq hdate (by omega) (by omega) (by omega) ?_ ?_ h.inRange
    · rw [Calendar.toDays_ofDays, hplain]
      simp only [Bool.false_eq_true, if_false]
      omega
    · rw [hplain, hfraction, Nat.mod_eq_of_lt hunder]
      rfl

theorem month_lt_and_day_lt {date : Calendar.Date} (h : date.isValid = true) :
    date.month < 100 ∧ date.day < 100 := by
  simp only [Calendar.Date.isValid, Bool.and_eq_true, decide_eq_true_eq] at h
  have hmonth := Calendar.daysInMonth_le date.year date.month
  omega

theorem dateTimeText_append (t : Timestamp) (rest : List Char) :
    dateTimeText t ++ rest = yearText (Calendar.ofDays (t.seconds / 86400)).year ++
      '-' :: (paddedDigits 2 (Calendar.ofDays (t.seconds / 86400)).month ++
      '-' :: (paddedDigits 2 (Calendar.ofDays (t.seconds / 86400)).day ++
      'T' :: (paddedDigits 2 (t.secondOfDay / 3600) ++
      ':' :: (paddedDigits 2 (t.secondOfDay / 60 % 60) ++
      ':' :: (paddedDigits 2 (t.secondOfDay % 60 + if t.inLeapSecond then 1 else 0) ++
      rest))))) := by
  simp only [dateTimeText, List.append_assoc, List.cons_append, List.nil_append]

/-- A text in UTC states the parts of its date and time, with the fraction that is read off it. -/
theorem parse?_dateTimeText (t : Timestamp) {fraction : List Char} {n : Nat}
    (hfraction : fraction? (fraction ++ ['Z']) = some (n, ['Z'])) :
    parse? (String.ofList (dateTimeText t ++ fraction ++ ['Z'])) =
      assemble? (Calendar.ofDays (t.seconds / 86400)) (t.secondOfDay / 3600)
        (t.secondOfDay / 60 % 60) (t.secondOfDay % 60 + if t.inLeapSecond then 1 else 0) n 0 := by
  obtain ⟨hmonth, hday⟩ := month_lt_and_day_lt (Calendar.ofDays_isValid (t.seconds / 86400))
  have hofDay : t.secondOfDay < 86400 := by
    unfold secondOfDay
    omega
  have hhour : t.secondOfDay / 3600 < 100 := by omega
  have hminute : t.secondOfDay / 60 % 60 < 100 := by omega
  have hsecond : (t.secondOfDay % 60 + if t.inLeapSecond then 1 else 0) < 100 := by
    split <;> omega
  have hdash : isBlank '-' = false := by decide
  have hcolon : isBlank ':' = false := by decide
  have htwo : 0 < 2 := by decide
  unfold parse?
  rw [String.toList_ofList, List.append_assoc, dateTimeText_append]
  simp only [Option.bind_eq_bind]
  -- each reader takes the part that its writer left at the front
  rw [year?_yearText, Option.bind_some, mark?_cons hdash, Option.bind_some]
  dsimp only
  rw [digitsUpTo?_paddedDigits htwo hmonth, Option.bind_some]
  dsimp only
  rw [mark?_cons hdash, Option.bind_some, digitsUpTo?_paddedDigits htwo hday, Option.bind_some]
  dsimp only
  rw [if_pos (.inl rfl), Option.bind_some, digitsUpTo?_paddedDigits htwo hhour, Option.bind_some]
  dsimp only
  rw [mark?_cons hcolon, Option.bind_some, digitsUpTo?_paddedDigits htwo hminute, Option.bind_some]
  dsimp only
  rw [mark?_cons hcolon, Option.bind_some, digitsUpTo?_paddedDigits htwo hsecond, Option.bind_some]
  dsimp only
  rw [hfraction]
  rfl

theorem parse?_text {t : Timestamp} (h : t.Valid) : parse? t.text = some t := by
  have hfraction : t.fraction < Span.perSecond := Nat.mod_lt _ (by decide)
  rw [text, parse?_dateTimeText t (fraction?_fractionText hfraction []), assemble?_parts h]

/-! ### Microseconds -/

theorem Valid.truncateMicros {t : Timestamp} (h : t.Valid) : t.truncateMicros.Valid where
  inRange := h.inRange
  nanos_lt := by
    have hlt := h.nanos_lt
    have hle : t.truncateMicros.nanos ≤ t.nanos := Nat.div_mul_le_self t.nanos 1000
    omega
  leap hleap := by
    refine h.leap ?_
    have hle : t.truncateMicros.nanos ≤ t.nanos := Nat.div_mul_le_self t.nanos 1000
    simp only [inLeapSecond, decide_eq_true_eq] at hleap ⊢
    omega

theorem truncateMicros_idem (t : Timestamp) :
    t.truncateMicros.truncateMicros = t.truncateMicros := by
  simp only [Timestamp.truncateMicros, Nat.mul_div_cancel _ (by decide : 0 < 1000)]

theorem inLeapSecond_truncateMicros (t : Timestamp) :
    t.truncateMicros.inLeapSecond = t.inLeapSecond := by
  have hsecond : Span.perSecond = 1000000000 := rfl
  rw [Bool.eq_iff_iff]
  simp only [inLeapSecond, Timestamp.truncateMicros, hsecond, decide_eq_true_eq]
  omega

theorem fraction_truncateMicros (t : Timestamp) :
    t.truncateMicros.fraction = t.fraction / 1000 * 1000 := by
  have hsecond : Span.perSecond = 1000000000 := rfl
  simp only [fraction, Timestamp.truncateMicros, hsecond]
  omega

/-- The text to the microsecond reads back as the point cut to microseconds. -/
theorem parse?_textMicros {t : Timestamp} (h : t.Valid) :
    parse? t.textMicros = some t.truncateMicros := by
  have hmicros : t.fraction / 1000 < Nat.pow 10 6 := by
    have hfraction : t.fraction < 1000000000 := Nat.mod_lt _ (by decide)
    change t.fraction / 1000 < 1000000
    omega
  have hfraction : fraction? ('.' :: paddedDigits 6 (t.fraction / 1000) ++ ['Z']) =
      some (t.fraction / 1000 * 1000, ['Z']) :=
    fraction?_paddedDigits (by decide) (by decide) hmicros (by decide) []
  have hparts := assemble?_parts h.truncateMicros
  rw [inLeapSecond_truncateMicros, fraction_truncateMicros] at hparts
  rw [textMicros, parse?_dateTimeText t hfraction]
  exact hparts

/-! ### What a text states -/

theorem fraction?_lt {cs rest : List Char} {n : Nat} (h : fraction? cs = some (n, rest)) :
    n < Span.perSecond := by
  unfold fraction? at h
  split at h
  · next digits =>
    simp only [Option.ite_none_left_eq_some, Option.some.injEq, Prod.mk.injEq] at h
    obtain ⟨-, rfl, -⟩ := h
    have hkept : ∀ c ∈ (digits.takeWhile isDigit).take 9, isDigit c = true := fun c hc =>
      List.all_eq_true.mp List.all_takeWhile c (List.mem_of_mem_take hc)
    have hlength : ((digits.takeWhile isDigit).take 9).length ≤ 9 := List.length_take_le _ _
    generalize (digits.takeWhile isDigit).take 9 = kept at hkept hlength ⊢
    calc
      ofDigits kept * Nat.pow 10 (9 - kept.length)
          < Nat.pow 10 kept.length * Nat.pow 10 (9 - kept.length) :=
        Nat.mul_lt_mul_of_pos_right (ofDigits_lt hkept) (Nat.pow_pos (by decide))
      _ = Nat.pow 10 (kept.length + (9 - kept.length)) := (Nat.pow_add 10 _ _).symm
      _ = Span.perSecond := by rw [Nat.add_sub_cancel' hlength]; rfl
  · cases h
    decide

theorem offsetSeconds?_mod {cs rest : List Char} {n : Nat}
    (h : offsetSeconds? cs = some (n, rest)) : n % 60 = 0 := by
  unfold offsetSeconds? at h
  split at h
  · split at h
    · split at h
      · split at h
        · cases h
          omega
        · cases h
      · cases h
    · cases h
  · cases h

theorem offset?_mod {cs rest : List Char} {offset : Int} (h : offset? cs = some (offset, rest)) :
    offset % 60 = 0 := by
  unfold offset? at h
  split at h
  · cases h
  · next c cs =>
    split at h
    · cases h
      rfl
    · split at h
      · cases h
        rfl
      · simp only [Option.bind_eq_bind, Option.bind_eq_some_iff, Prod.exists] at h
        obtain ⟨sign, hsign, seconds, rest', hseconds, h⟩ := h
        have hminutes := offsetSeconds?_mod hseconds
        split at h
        · cases h
          have hdvd : (60 : Int) ∣ seconds := by omega
          exact Int.emod_eq_zero_of_dvd (Int.dvd_mul_of_dvd_right hdvd)
        · cases h

theorem assemble?_valid {date : Calendar.Date} {hour minute second nanos : Nat} {offset : Int}
    {t : Timestamp} (h : assemble? date hour minute second nanos offset = some t)
    (hnanos : nanos < Span.perSecond) (hoffset : offset % 60 = 0) : t.Valid := by
  simp only [assemble?, Option.ite_none_right_eq_some, Option.some.injEq, Bool.and_eq_true] at h
  obtain ⟨-, ⟨hrange, -⟩, rfl⟩ := h
  refine ⟨hrange, ?_, ?_⟩
  · dsimp only
    split <;> omega
  · intro hleap
    simp only [inLeapSecond, decide_eq_true_eq] at hleap
    split at hleap
    · next hsixty =>
      rw [if_pos hsixty]
      dsimp only
      omega
    · omega

theorem valid_of_parse? {text : String} {t : Timestamp} (h : parse? text = some t) : t.Valid := by
  obtain ⟨⟨year, _⟩, -, h⟩ := Option.bind_eq_some_iff.mp h
  obtain ⟨_, -, h⟩ := Option.bind_eq_some_iff.mp h
  obtain ⟨⟨month, _⟩, -, h⟩ := Option.bind_eq_some_iff.mp h
  obtain ⟨_, -, h⟩ := Option.bind_eq_some_iff.mp h
  obtain ⟨⟨day, cs⟩, -, h⟩ := Option.bind_eq_some_iff.mp h
  dsimp only at h
  split at h
  · split at h
    · obtain ⟨_, -, h⟩ := Option.bind_eq_some_iff.mp h
      obtain ⟨⟨hour, _⟩, -, h⟩ := Option.bind_eq_some_iff.mp h
      obtain ⟨_, -, h⟩ := Option.bind_eq_some_iff.mp h
      obtain ⟨⟨minute, _⟩, -, h⟩ := Option.bind_eq_some_iff.mp h
      obtain ⟨_, -, h⟩ := Option.bind_eq_some_iff.mp h
      obtain ⟨⟨second, _⟩, -, h⟩ := Option.bind_eq_some_iff.mp h
      obtain ⟨⟨nanos, _⟩, hnanos, h⟩ := Option.bind_eq_some_iff.mp h
      obtain ⟨⟨offset, _⟩, hoffset, h⟩ := Option.bind_eq_some_iff.mp h
      obtain ⟨-, h⟩ := Option.ite_none_right_eq_some.mp h
      exact assemble?_valid h (fraction?_lt hnanos) (offset?_mod hoffset)
    · cases h
  · cases h

end CertIssuer.Timestamp
