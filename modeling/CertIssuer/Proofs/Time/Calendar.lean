import CertIssuer.Time.Calendar

/-!
# Days and dates

Every count of days has a date of the calendar, and the date counts back to it. An era of 400 years
is split the way the calendar is made: into centuries, cycles of four years, and years, of which the
last ones are a day longer.
-/

namespace CertIssuer.Calendar

/-! ### Days of an era -/

/-- The centuries, the cycles of four years and the years that are over before a day of an era, and
the day of the year. -/
structure Splits (day century cycle year rest : Nat) : Prop where
  sum : day = 36524 * century + 1461 * cycle + 365 * year + rest
  century_le : century ≤ 3
  cycle_le : cycle ≤ 24
  year_le : year ≤ 3
  rest_le : rest ≤ 365
  leap : rest = 365 → year = 3 ∧ (cycle < 24 ∨ century = 3)

theorem exists_century {day : Nat} (h : day < 146097) :
    ∃ century rest, day = 36524 * century + rest ∧ century ≤ 3 ∧ rest ≤ 36524 ∧
      (rest = 36524 → century = 3) := by
  by_cases hlast : day = 146096
  · exact ⟨3, 36524, by omega⟩
  · exact ⟨day / 36524, day % 36524, by omega⟩

theorem exists_year {day : Nat} (h : day < 1461) :
    ∃ year rest, day = 365 * year + rest ∧ year ≤ 3 ∧ rest ≤ 365 ∧ (rest = 365 → year = 3) := by
  by_cases hlast : day = 1460
  · exact ⟨3, 365, by omega⟩
  · exact ⟨day / 365, day % 365, by omega⟩

theorem exists_splits {day : Nat} (h : day < 146097) :
    ∃ century cycle year rest, Splits day century cycle year rest := by
  obtain ⟨century, inCentury, hday, hcentury, hinCentury, hlast⟩ := exists_century h
  have hcycle : inCentury % 1461 < 1461 := Nat.mod_lt _ (by decide)
  obtain ⟨year, rest, hyear, hle, hrest, hleap⟩ := exists_year hcycle
  have hdiv : inCentury = 1461 * (inCentury / 1461) + inCentury % 1461 :=
    (Nat.div_add_mod inCentury 1461).symm
  refine ⟨century, inCentury / 1461, year, rest, ⟨?_, hcentury, ?_, hle, hrest, ?_⟩⟩
  · omega
  · omega
  · intro h365
    refine ⟨hleap h365, ?_⟩
    omega

section Splits

variable {day century cycle year rest : Nat} (h : Splits day century cycle year rest)

include h

theorem Splits.yearOfEra_lt : 100 * century + 4 * cycle + year < 400 := by
  obtain ⟨-, hcentury, hcycle, hyear, -, -⟩ := h
  omega

theorem Splits.centuries : day / 36524 - day / 146096 = century := by
  obtain ⟨hsum, hcentury, hcycle, hyear, hrest, hleap⟩ := h
  obtain ⟨inCentury, hinCentury⟩ : ∃ r, r = 1461 * cycle + 365 * year + rest := ⟨_, rfl⟩
  have hday : day = 36524 * century + inCentury := by omega
  by_cases hlast : inCentury = 36524
  · have hthree : century = 3 := by omega
    subst hthree hlast hday
    rfl
  · have hlt : inCentury < 36524 := by omega
    clear hinCentury hsum hleap
    have hdiv : day / 36524 = century := by omega
    have hfirst : day / 146096 = 0 := by omega
    rw [hdiv, hfirst, Nat.sub_zero]

theorem Splits.yearOfEra :
    (day - day / 1460 + day / 36524 - day / 146096) / 365 = 100 * century + 4 * cycle + year := by
  have hcenturies := h.centuries
  obtain ⟨hsum, hcentury, hcycle, hyear, hrest, hleap⟩ := h
  have hfirst : day / 146096 ≤ day / 36524 := Nat.div_le_div_left (by decide) (by decide)
  obtain ⟨excess, hexcess⟩ : ∃ e, e = 24 * century + cycle + 365 * year + rest := ⟨_, rfl⟩
  have hday : day = 1460 * (25 * century + cycle) + excess := by omega
  obtain ⟨extra, hextra⟩ : ∃ e, e = excess / 1460 := ⟨_, rfl⟩
  have hcycles : day / 1460 = 25 * century + cycle + extra := by
    rw [hday, Nat.mul_add_div (by decide), hextra]
  -- counting by 1460 days runs ahead by a cycle at most, and only at the end of a leap year
  have hbound : extra ≤ rest ∧ rest < 365 + extra := by
    by_cases hover : excess < 1460
    · have hzero : extra = 0 := by rw [hextra, Nat.div_eq_of_lt hover]
      omega
    · have hone : extra = 1 := by
        rw [hextra]
        exact Nat.div_eq_of_lt_le (by omega) (by omega)
      omega
  have hsame : day - day / 1460 + day / 36524 - day / 146096 =
      365 * (100 * century + 4 * cycle + year) + (rest - extra) := by
    omega
  rw [hsame, Nat.mul_add_div (by decide), Nat.div_eq_of_lt (by omega), Nat.add_zero]

theorem Splits.eq_add_rest :
    day = 365 * (100 * century + 4 * cycle + year) + (100 * century + 4 * cycle + year) / 4 -
      (100 * century + 4 * cycle + year) / 100 + rest := by
  obtain ⟨hsum, hcentury, hcycle, hyear, hrest, hleap⟩ := h
  have hfour : (100 * century + 4 * cycle + year) / 4 = 25 * century + cycle := by omega
  have hhundred : (100 * century + 4 * cycle + year) / 100 = century := by omega
  omega

theorem Splits.dayOfYear :
    day - (365 * (100 * century + 4 * cycle + year) + (100 * century + 4 * cycle + year) / 4 -
      (100 * century + 4 * cycle + year) / 100) = rest :=
  Nat.sub_eq_of_eq_add' h.eq_add_rest

theorem Splits.isLeap_of_last (hlast : rest = 365) (era : Int) :
    isLeap ((100 * century + 4 * cycle + year : Nat) + era * 400 + 1) = true := by
  have hcentury := h.century_le
  have hcycle := h.cycle_le
  obtain ⟨rfl, hleap⟩ := h.leap hlast
  simp only [isLeap, Bool.or_eq_true, Bool.and_eq_true, beq_iff_eq, bne_iff_ne]
  omega

end Splits

/-! ### Days of a year -/

/-- The date of a day of a year that begins in March. -/
def marchDate (year : Int) (day : Nat) : Date :=
  let month := (5 * day + 2) / 153
  let day := day - (153 * month + 2) / 5 + 1
  if month < 10 then ⟨year, month + 3, day⟩ else ⟨year + 1, month - 9, day⟩

theorem marchDate_isValid {year : Int} {day : Nat} (h : day ≤ 365)
    (hleap : day = 365 → isLeap (year + 1) = true) : (marchDate year day).isValid = true := by
  obtain ⟨month, hmonth⟩ : ∃ m, m = (5 * day + 2) / 153 := ⟨_, rfl⟩
  have hlow : 153 * month ≤ 5 * day + 2 := by omega
  have hhigh : 5 * day + 2 < 153 * month + 153 := by omega
  simp only [marchDate, ← hmonth]
  split
  · simp only [Date.isValid, daysInMonth, Bool.and_eq_true, decide_eq_true_eq]
    rw [if_neg (by omega)]
    refine ⟨⟨⟨by omega, by omega⟩, by omega⟩, ?_⟩
    split <;> omega
  · simp only [Date.isValid, daysInMonth, Bool.and_eq_true, decide_eq_true_eq]
    refine ⟨⟨⟨by omega, by omega⟩, by omega⟩, ?_⟩
    -- February is the last month of the year
    split
    · by_cases hlast : day = 365
      · rw [if_pos (hleap hlast)]
        omega
      · split <;> omega
    · rw [if_neg (by omega)]
      omega

theorem toDays_marchDate {era : Int} {year day : Nat} (h : day ≤ 365) (hyear : year < 400) :
    toDays (marchDate (year + era * 400) day) =
      era * 146097 + (365 * year + year / 4 - year / 100 + day : Nat) - 719468 := by
  obtain ⟨month, hmonth⟩ : ∃ m, m = (5 * day + 2) / 153 := ⟨_, rfl⟩
  have hlow : 153 * month ≤ 5 * day + 2 := by omega
  have hhigh : 5 * day + 2 < 153 * month + 153 := by omega
  have hle : (153 * month + 2) / 5 ≤ day := by omega
  have hera : ((year : Int) + era * 400) / 400 = era := by omega
  simp only [marchDate, ← hmonth]
  split
  · have hback : month + 3 - 3 = month := rfl
    simp only [toDays]
    rw [if_neg (by omega), if_pos (by omega), hback, hera]
    omega
  · have hback : month - 9 + 9 = month := by omega
    simp only [toDays]
    rw [if_pos (by omega), if_neg (by omega), hback, Int.add_sub_cancel, hera]
    omega

theorem daysInMonth_le (year : Int) (month : Nat) : daysInMonth year month ≤ 31 := by
  unfold daysInMonth
  split
  · split <;> decide
  · split <;> decide

/-! ### All days -/

theorem ofDays_eq (days : Int) :
    ∃ day century cycle year rest, Splits day century cycle year rest ∧
      days + 719468 = (days + 719468) / 146097 * 146097 + day ∧
      ofDays days = marchDate
        ((100 * century + 4 * cycle + year : Nat) + (days + 719468) / 146097 * 400) rest := by
  obtain ⟨day, hday⟩ : ∃ d : Nat, days + 719468 = (days + 719468) / 146097 * 146097 + d :=
    ⟨((days + 719468) % 146097).toNat, by omega⟩
  have hlt : day < 146097 := by omega
  obtain ⟨century, cycle, year, rest, h⟩ := exists_splits hlt
  refine ⟨day, century, cycle, year, rest, h, hday, ?_⟩
  have htoNat : (days + 719468 - (days + 719468) / 146097 * 146097).toNat = day := by omega
  simp only [ofDays, marchDate, htoNat, h.yearOfEra, h.dayOfYear]
  split
  · rw [if_neg (by omega)]
  · have hlast : (5 * rest + 2) / 153 ≤ 11 := by
      have hrest := h.rest_le
      omega
    rw [if_pos (by omega)]

theorem toDays_ofDays (days : Int) : toDays (ofDays days) = days := by
  obtain ⟨day, century, cycle, year, rest, h, hday, hdate⟩ := ofDays_eq days
  rw [hdate, toDays_marchDate h.rest_le h.yearOfEra_lt, ← h.eq_add_rest]
  omega

theorem ofDays_isValid (days : Int) : (ofDays days).isValid = true := by
  obtain ⟨day, century, cycle, year, rest, h, hday, hdate⟩ := ofDays_eq days
  rw [hdate]
  exact marchDate_isValid h.rest_le fun hlast => h.isLeap_of_last hlast _

/-! ### Years of four digits -/

/-- The days from 0000-01-01 to 9999-12-31. -/
theorem days_of_year {days : Int} (hfirst : 0 ≤ (ofDays days).year)
    (hlast : (ofDays days).year ≤ 9999) : -719528 ≤ days ∧ days ≤ 2932896 := by
  have hback := toDays_ofDays days
  have hvalid := ofDays_isValid days
  generalize ofDays days = date at *
  have hmonth := daysInMonth_le date.year date.month
  simp only [Date.isValid, Bool.and_eq_true, decide_eq_true_eq] at hvalid
  simp only [toDays] at hback
  split at hback <;> split at hback <;> omega

end CertIssuer.Calendar
