import CertIssuer.Time.UnitText
import Mathlib.Data.List.TakeDrop
import Mathlib.Data.List.TakeWhile

/-!
# Which texts state a span

The grammar of spans with units, as an inductive relation (`States`): a lone zero, or one or more
numbers with a unit each. Reading a text agrees with it on every text (`parse_iff_states`). A text
that is not of this form, or whose seconds are too many, is refused as it was given.
-/

namespace CertIssuer.Span.UnitText

/-- A run of ASCII digits with at most one point, and with at least one digit. -/
structure IsNumber (cs : List Char) : Prop where
  characters : ∀ c ∈ cs, Text.isDigit c = true ∨ c = '.'
  point : cs.count '.' ≤ 1
  digit : ∃ c ∈ cs, Text.isDigit c = true

/-- The value of a number; the digits after its point are places. -/
def valueOf (cs : List Char) : Binary64 :=
  .ofDecimal (Text.ofDigits (cs.filter Text.isDigit)) (cs.dropWhile (· ≠ '.')).tail.length

/-- The units as they are written, each with its seconds. -/
def units : List (String × Binary64) := [
  ("h", .ofNat 3600), ("m", .ofNat 60), ("s", .ofNat 1), ("ms", .ofDecimal 1 3),
  ("us", .ofDecimal 1 6), ("\u00b5s", .ofDecimal 1 6), ("ns", .ofDecimal 1 9)]

/-! ### Numbers -/

section Number

variable {cs ds whole places : List Char} {c : Char}

theorem inNumber_iff : inNumber c = true ↔ Text.isDigit c = true ∨ c = '.' := by
  simp [inNumber]

theorem ne_point (h : Text.isDigit c = true) : c ≠ '.' := by
  rintro rfl
  exact absurd h (by decide)

/-- A text of digits and points is a run of digits, perhaps with a point and a text after it. -/
theorem digits_or_point (h : ∀ c ∈ cs, Text.isDigit c = true ∨ c = '.') :
    (∀ c ∈ cs, Text.isDigit c = true) ∨
      ∃ whole places, cs = whole ++ '.' :: places ∧ ∀ c ∈ whole, Text.isDigit c = true := by
  induction cs with
  | nil => exact .inl (List.forall_mem_nil _)
  | cons c cs ih =>
    obtain ⟨hc, hcs⟩ := List.forall_mem_cons.mp h
    rcases hc with hdigit | rfl
    · rcases ih hcs with hall | ⟨whole, places, rfl, hwhole⟩
      · exact .inl (List.forall_mem_cons.mpr ⟨hdigit, hall⟩)
      · exact .inr ⟨c :: whole, places, rfl, List.forall_mem_cons.mpr ⟨hdigit, hwhole⟩⟩
    · exact .inr ⟨[], cs, rfl, List.forall_mem_nil _⟩

theorem number?_digits (h : ∀ c ∈ ds, Text.isDigit c = true) :
    number? ds = if ds.isEmpty then none else some (.ofDecimal (Text.ofDigits ds) 0) := by
  have hspan : ds.span Text.isDigit = (ds, []) := by
    rw [List.span_eq_takeWhile_dropWhile, List.takeWhile_eq_self_iff.mpr h,
      List.dropWhile_eq_nil_iff.mpr h]
  unfold number?
  rw [hspan]
  simp

theorem number?_point (h : ∀ c ∈ whole, Text.isDigit c = true) :
    number? (whole ++ '.' :: places) =
      if (whole ++ places).isEmpty || !places.all Text.isDigit then none
      else some (.ofDecimal (Text.ofDigits (whole ++ places)) places.length) := by
  have hpoint : ¬ Text.isDigit '.' = true := by decide
  have hspan : (whole ++ '.' :: places).span Text.isDigit = (whole, '.' :: places) := by
    rw [List.span_eq_takeWhile_dropWhile, List.takeWhile_append_of_pos h,
      List.takeWhile_cons_of_neg hpoint, List.append_nil, List.dropWhile_append_of_pos h,
      List.dropWhile_cons_of_neg hpoint]
  simp only [number?, hspan, List.drop_succ_cons, List.drop_zero]

theorem isNumber_digits (h : ∀ c ∈ ds, Text.isDigit c = true) : IsNumber ds ↔ ds ≠ [] := by
  constructor
  · rintro ⟨-, -, c, hc, -⟩
    exact List.ne_nil_of_mem hc
  · intro hne
    obtain ⟨c, hc⟩ := List.exists_mem_of_ne_nil ds hne
    refine ⟨fun c hc => .inl (h c hc), ?_, c, hc, h c hc⟩
    rw [List.count_eq_zero_of_not_mem fun hmem => ne_point (h _ hmem) rfl]
    exact Nat.zero_le 1

theorem isNumber_point (h : ∀ c ∈ whole, Text.isDigit c = true) :
    IsNumber (whole ++ '.' :: places) ↔
      whole ++ places ≠ [] ∧ ∀ c ∈ places, Text.isDigit c = true := by
  have hnone : '.' ∉ whole := fun hmem => ne_point (h _ hmem) rfl
  constructor
  · rintro ⟨hchars, hpoint, c, hc, hdigit⟩
    have hplaces : '.' ∉ places := by
      rw [List.count_append, List.count_cons_self] at hpoint
      exact List.count_eq_zero.mp (by omega)
    refine ⟨List.ne_nil_of_mem (a := c) ?_, fun d hd => ?_⟩
    · simpa [ne_point hdigit] using hc
    · have hdmem : d ∈ whole ++ '.' :: places := by simp [hd]
      exact (hchars d hdmem).resolve_right fun heq => hplaces (heq ▸ hd)
  · rintro ⟨hne, hplaces⟩
    obtain ⟨c, hc⟩ := List.exists_mem_of_ne_nil _ hne
    have hall : ∀ c ∈ whole ++ places, Text.isDigit c = true := fun c hc =>
      (List.mem_append.mp hc).elim (h c) (hplaces c)
    refine ⟨fun d hd => ?_, ?_, c, ?_, hall c hc⟩
    · rcases List.mem_append.mp hd with hd | hd
      · exact .inl (h d hd)
      · rcases List.mem_cons.mp hd with rfl | hd
        · exact .inr rfl
        · exact .inl (hplaces d hd)
    · have hnone' : '.' ∉ places := fun hmem => ne_point (hplaces _ hmem) rfl
      rw [List.count_append, List.count_cons_self, List.count_eq_zero_of_not_mem hnone,
        List.count_eq_zero_of_not_mem hnone']
    · rcases List.mem_append.mp hc with hc | hc
      · exact List.mem_append_left _ hc
      · exact List.mem_append_right _ (List.mem_cons_of_mem _ hc)

theorem valueOf_digits (h : ∀ c ∈ ds, Text.isDigit c = true) :
    valueOf ds = .ofDecimal (Text.ofDigits ds) 0 := by
  have hnone : ds.dropWhile (· ≠ '.') = [] :=
    List.dropWhile_eq_nil_iff.mpr fun c hc => decide_eq_true (ne_point (h c hc))
  rw [valueOf, List.filter_eq_self.mpr h, hnone]
  rfl

theorem valueOf_point (hwhole : ∀ c ∈ whole, Text.isDigit c = true)
    (hplaces : ∀ c ∈ places, Text.isDigit c = true) :
    valueOf (whole ++ '.' :: places) =
      .ofDecimal (Text.ofDigits (whole ++ places)) places.length := by
  have hpoint : ¬ Text.isDigit '.' = true := by decide
  have hbehind : (whole ++ '.' :: places).dropWhile (· ≠ '.') = '.' :: places := by
    rw [List.dropWhile_append_of_pos fun c hc => decide_eq_true (ne_point (hwhole c hc)),
      List.dropWhile_cons_of_neg (by decide)]
  rw [valueOf, hbehind, List.filter_append, List.filter_cons_of_neg hpoint,
    List.filter_eq_self.mpr hwhole, List.filter_eq_self.mpr hplaces, List.tail_cons]

theorem number?_eq_some_iff {value : Binary64} (h : ∀ c ∈ cs, Text.isDigit c = true ∨ c = '.') :
    number? cs = some value ↔ IsNumber cs ∧ valueOf cs = value := by
  rcases digits_or_point h with hdigits | ⟨whole, places, rfl, hwhole⟩
  · rw [number?_digits hdigits, isNumber_digits hdigits, valueOf_digits hdigits]
    cases cs <;> simp
  · rw [number?_point hwhole, isNumber_point hwhole]
    by_cases hplaces : ∀ c ∈ places, Text.isDigit c = true
    · rw [valueOf_point hwhole hplaces]
      cases whole <;> cases places <;> simp_all
    · have hrefused : places.all Text.isDigit = false := by
        rw [← Bool.not_eq_true, List.all_eq_true]
        exact hplaces
      simp [hrefused, hplaces]

theorem unit?_eq_some_iff {cs : List Char} {scale : Binary64} :
    unit? cs = some scale ↔ (String.ofList cs, scale) ∈ units := by
  unfold unit?
  split
  case h_8 => simp_all [units]
  all_goals
    next h => simp [h, units, @eq_comm _ scale]

end Number

/-! ### Components -/

/-- A number and the unit that follows it. -/
structure Component where
  number : List Char
  unit : List Char
  scale : Binary64
  isNumber : IsNumber number
  isUnit : (String.ofList unit, scale) ∈ units

namespace Component

def text (c : Component) : List Char := c.number ++ c.unit

def seconds (c : Component) : Binary64 := (valueOf c.number).mul c.scale

theorem number?_eq (c : Component) : number? c.number = some (valueOf c.number) :=
  (number?_eq_some_iff c.isNumber.characters).mpr ⟨c.isNumber, rfl⟩

theorem unit?_eq (c : Component) : unit? c.unit = some c.scale := unit?_eq_some_iff.mpr c.isUnit

theorem number_ne_nil (c : Component) : c.number ≠ [] := by
  obtain ⟨d, hd, -⟩ := c.isNumber.digit
  exact List.ne_nil_of_mem hd

end Component

/-- The seconds of components added to a number, from left to right. -/
def addAll (start : Binary64) (cs : List Component) : Binary64 :=
  cs.foldl (fun sum c => sum.add c.seconds) start

/-- The texts that state a span, and what they state: a lone zero, or one or more components. -/
inductive States : List Char → Span → Prop
  | zero : States ['0'] Span.zero
  | components {cs : List Component} {d : Span} : cs ≠ [] →
      ofSeconds? (addAll (.finite 0) cs) = some d → States (cs.flatMap Component.text) d

section Components

variable {cs rest : List Char} {start total : Binary64} {fuel : Nat}

theorem inNumber_of_isNumber (h : IsNumber cs) : ∀ c ∈ cs, inNumber c = true :=
  fun c hc => inNumber_iff.mpr (h.characters c hc)

theorem not_inNumber_of_unit {scale : Binary64} (h : (String.ofList cs, scale) ∈ units) :
    cs ≠ [] ∧ ∀ c ∈ cs, inNumber c = false := by
  have hall : ∀ name ∈ units.map Prod.fst,
      name.toList ≠ [] ∧ name.toList.all (!inNumber ·) = true := by
    decide
  obtain ⟨hne, hchars⟩ := hall _ (List.mem_map_of_mem h)
  rw [String.toList_ofList] at hne hchars
  exact ⟨hne, fun c hc => by simpa using List.all_eq_true.mp hchars c hc⟩

/-- A run of characters of one kind ends where a text of the other kind begins. -/
theorem run_append {p : Char → Bool} (hrun : ∀ c ∈ cs, p c = true)
    (hrest : ∀ c ∈ rest.head?, p c = false) :
    (cs ++ rest).takeWhile p = cs ∧ (cs ++ rest).dropWhile p = rest := by
  rw [List.takeWhile_append_of_pos hrun, List.dropWhile_append_of_pos hrun]
  cases rest with
  | nil => simp
  | cons c rest =>
    have hc : p c = false := hrest c rfl
    simp [hc]

theorem head?_append_of_forall {p : Char → Prop} (hne : cs ≠ []) (h : ∀ c ∈ cs, p c)
    (rest : List Char) : ∀ c ∈ (cs ++ rest).head?, p c := by
  cases cs with
  | nil => exact absurd rfl hne
  | cons d cs =>
    intro c hc
    cases hc
    exact h d List.mem_cons_self

/-- One round of the reading: a number, then the unit up to the next number. -/
theorem sum?_round (h : cs ≠ []) :
    sum? start (fuel + 1) cs =
      (number? (cs.takeWhile inNumber)).bind fun value =>
        (unit? ((cs.dropWhile inNumber).takeWhile (!inNumber ·))).bind fun unit =>
          sum? (start.add (value.mul unit)) fuel
            ((cs.dropWhile inNumber).dropWhile (!inNumber ·)) := by
  cases cs with
  | nil => exact absurd rfl h
  | cons c cs => rfl

/-- One round takes one component. -/
theorem sum?_component (c : Component) (hrest : ∀ d ∈ rest.head?, inNumber d = true) :
    sum? start (fuel + 1) (c.text ++ rest) = sum? (start.add c.seconds) fuel rest := by
  obtain ⟨hunit, hchars⟩ := not_inNumber_of_unit c.isUnit
  obtain ⟨hnumber, hbehind⟩ := run_append (inNumber_of_isNumber c.isNumber)
    (head?_append_of_forall hunit hchars rest)
  have hname : ∀ d ∈ c.unit, (!inNumber d) = true := fun d hd => by rw [hchars d hd]; rfl
  have hnext : ∀ d ∈ rest.head?, (!inNumber d) = false := fun d hd => by rw [hrest d hd]; rfl
  obtain ⟨hname, hlast⟩ := run_append hname hnext
  have htext : c.text ++ rest ≠ [] := by simp [Component.text, hunit]
  rw [sum?_round htext, Component.text, List.append_assoc, hnumber, hbehind, hname, hlast,
    c.number?_eq, c.unit?_eq]
  rfl

/-- Components begin with a number. -/
theorem head?_components (cs : List Component) :
    ∀ d ∈ (cs.flatMap Component.text).head?, inNumber d = true := by
  cases cs with
  | nil => exact fun d hd => nomatch hd
  | cons c cs =>
    rw [List.flatMap_cons, Component.text, List.append_assoc]
    exact head?_append_of_forall c.number_ne_nil (inNumber_of_isNumber c.isNumber) _

theorem length_components (cs : List Component) :
    cs.length ≤ (cs.flatMap Component.text).length := by
  induction cs with
  | nil => exact Nat.le_refl 0
  | cons c cs ih =>
    have hpos := List.length_pos_iff.mpr c.number_ne_nil
    rw [List.flatMap_cons, List.length_append, List.length_cons, Component.text, List.length_append]
    omega

theorem sum?_components {cs : List Component} (h : cs.length ≤ fuel) :
    sum? start fuel (cs.flatMap Component.text) = some (addAll start cs) := by
  induction cs generalizing start fuel with
  | nil =>
    rw [List.flatMap_nil]
    unfold sum?
    rfl
  | cons c cs ih =>
    obtain ⟨fuel, rfl⟩ := Nat.exists_eq_succ_of_ne_zero (Nat.ne_of_gt (Nat.lt_of_lt_of_le
      (Nat.zero_lt_succ _) h))
    rw [List.flatMap_cons, sum?_component c (head?_components cs),
      ih (Nat.le_of_succ_le_succ h)]
    rfl

theorem exists_components (h : sum? start fuel cs = some total) :
    ∃ components : List Component, cs = components.flatMap Component.text := by
  induction fuel generalizing start cs with
  | zero =>
    cases cs with
    | nil => exact ⟨[], rfl⟩
    | cons c cs => exact nomatch h
  | succ fuel ih =>
    by_cases hnil : cs = []
    · exact ⟨[], hnil⟩
    · rw [sum?_round hnil] at h
      obtain ⟨value, hvalue, h⟩ := Option.bind_eq_some_iff.mp h
      obtain ⟨scale, hscale, h⟩ := Option.bind_eq_some_iff.mp h
      obtain ⟨components, hrest⟩ := ih h
      have hchars : ∀ c ∈ cs.takeWhile inNumber, Text.isDigit c = true ∨ c = '.' :=
        fun c hc => inNumber_iff.mp (List.mem_takeWhile_imp hc)
      let first : Component := {
        number := cs.takeWhile inNumber
        unit := (cs.dropWhile inNumber).takeWhile (!inNumber ·)
        scale := scale
        isNumber := ((number?_eq_some_iff hchars).mp hvalue).1
        isUnit := unit?_eq_some_iff.mp hscale }
      refine ⟨first :: components, ?_⟩
      rw [List.flatMap_cons, ← hrest, Component.text, List.append_assoc,
        List.takeWhile_append_dropWhile, List.takeWhile_append_dropWhile]

/-- The reading comes to its end in as many rounds as there are characters, and more of them change
nothing. -/
theorem sum?_eq_some_iff (h : cs.length ≤ fuel) :
    sum? start fuel cs = some total ↔
      ∃ components : List Component, cs = components.flatMap Component.text ∧
        addAll start components = total := by
  constructor
  · intro hsum
    obtain ⟨components, rfl⟩ := exists_components hsum
    rw [sum?_components (Nat.le_trans (length_components components) h)] at hsum
    exact ⟨components, rfl, Option.some.inj hsum⟩
  · rintro ⟨components, rfl, rfl⟩
    exact sum?_components (Nat.le_trans (length_components components) h)

end Components

/-! ### Whole texts -/

theorem components_ne (cs : List Component) (hne : cs ≠ []) :
    cs.flatMap Component.text ≠ [] ∧ cs.flatMap Component.text ≠ ['0'] := by
  cases cs with
  | nil => exact absurd rfl hne
  | cons c cs =>
    have hnumber := List.length_pos_iff.mpr c.number_ne_nil
    have hunit := List.length_pos_iff.mpr (not_inNumber_of_unit c.isUnit).1
    have hlong : 2 ≤ ((c :: cs).flatMap Component.text).length := by
      rw [List.flatMap_cons, List.length_append, Component.text, List.length_append]
      omega
    constructor
    · intro heq
      simp [heq] at hlong
    · intro heq
      simp [heq] at hlong

theorem states_iff (cs : List Char) (d : Span) : ofChars? cs = some d ↔ States cs d := by
  unfold ofChars?
  constructor
  · intro h
    split at h
    · cases h
    · next hne =>
      split at h
      · next hzero =>
        cases h
        rw [hzero]
        exact .zero
      · obtain ⟨total, hsum, hspan⟩ := Option.bind_eq_some_iff.mp h
        obtain ⟨components, rfl, rfl⟩ := (sum?_eq_some_iff (Nat.le_refl _)).mp hsum
        refine .components ?_ hspan
        rintro rfl
        exact hne rfl
  · intro h
    cases h with
    | zero => rfl
    | @components components _ hne hspan =>
      obtain ⟨hnil, hzero⟩ := components_ne components hne
      rw [if_neg (mt List.isEmpty_iff.mp hnil), if_neg hzero,
        sum?_components (length_components components)]
      exact hspan

/-- A text states a span exactly when it is of the form of the grammar without the white space
around it, and in seconds that a span can hold; any other text is refused as it was given. However
many rounds the reading may take, it takes no more than there are characters. -/
theorem parse_iff_states (input : String) :
    (∀ d, Span.parse input = .ok d ↔ States (Text.trimChars input.toList) d) ∧
    (∀ e, Span.parse input = .error e ↔
      e = ⟨input⟩ ∧ ¬ ∃ d, States (Text.trimChars input.toList) d) ∧
    ∀ more, sum? (.finite 0) ((Text.trimChars input.toList).length + more)
        (Text.trimChars input.toList) =
      sum? (.finite 0) (Text.trimChars input.toList).length (Text.trimChars input.toList) := by
  refine ⟨fun d => ?_, fun e => ?_, fun more => Option.ext fun total => ?_⟩
  · rw [← states_iff, Span.parse]
    split
    · next d' h => rw [h, Except.ok.injEq, Option.some_inj]
    · next h => simp [h]
  · simp only [← states_iff, Span.parse]
    split
    · next d h => simp [h]
    · next h => simp [h, eq_comm]
  · rw [sum?_eq_some_iff (Nat.le_add_right _ _), sum?_eq_some_iff (Nat.le_refl _)]

/-- Digits may be missing on one side of a point, and white space of any kind stands around. -/
example : Span.parse "\u00a01.5h.5m3.\u00b5s\n" = .ok ⟨5430000003000⟩ := by decide +kernel

end CertIssuer.Span.UnitText
