import CertIssuer.Resource.CertificateRequest

/-!
# Setting a condition

What `Conditions.set` does to a list, said by its parts: the entries of the type that is set become
one entry, and those of any other kind stay as they are and in their order. Looking up and counting
are functions of these parts.

Of a request's status, the part that passes write is its `own` part: the entries of `Ready`, the
certificates and the time of failure. The rest are the conditions of others.
-/

namespace CertIssuer.Conditions

theorem get?_eq_head? (cs : Conditions) (type : String) :
    get? cs type = (cs.filter (·.type = type)).head? :=
  List.head?_filter.symm

theorem count_eq_length (cs : Conditions) (type : String) :
    count cs type = (cs.filter (·.type = type)).length :=
  List.countP_eq_length_filter

theorem holds_iff (cs : Conditions) (c : Condition) :
    holds cs c = true ↔ cs.filter (·.type = c.type) = [c] := by
  have hholds : holds cs c = true ↔ count cs c.type = 1 ∧ get? cs c.type = some c := by
    simp [holds]
  rw [hholds, count_eq_length, get?_eq_head?]
  constructor
  · rintro ⟨hlength, hhead⟩
    obtain ⟨d, hd⟩ := List.length_eq_one_iff.mp hlength
    rw [hd, List.head?_cons, Option.some_inj] at hhead
    rw [hd, hhead]
  · intro h
    rw [h]
    exact ⟨rfl, rfl⟩

/-! ### The parts of a list after an entry is put -/

theorem filter_replaceFirst_self (updated : Condition) (cs : Conditions)
    (h : (get? cs updated.type).isSome) :
    (replaceFirst updated cs).filter (·.type = updated.type) = [updated] := by
  induction cs with
  | nil => simp [get?] at h
  | cons c rest ih =>
    by_cases hc : c.type = updated.type
    · simp [replaceFirst, hc]
    · have hrest : (get? rest updated.type).isSome := by
        simpa only [get?, List.find?_cons, hc, decide_false] using h
      simp [replaceFirst, hc, ih hrest]

theorem filter_replaceFirst_other {p : Condition → Bool} (updated : Condition) (cs : Conditions)
    (hp : ∀ c : Condition, c.type = updated.type → p c = false) :
    (replaceFirst updated cs).filter p = cs.filter p := by
  induction cs with
  | nil => rfl
  | cons c rest ih =>
    by_cases hc : c.type = updated.type
    · simp only [replaceFirst, hc, if_true, List.filter_cons, hp c hc, hp updated rfl,
        Bool.false_eq_true, if_false, List.filter_filter]
      refine List.filter_congr fun d _ => ?_
      by_cases hd : d.type = updated.type
      · simp [hp d hd]
      · simp [hd]
    · simp only [replaceFirst, hc, if_false, List.filter_cons, ih]

theorem filter_put_self (cs : Conditions) (updated : Condition) :
    (put cs updated).filter (·.type = updated.type) = [updated] := by
  unfold put
  split
  · next h => exact filter_replaceFirst_self updated cs h
  · next h =>
    have hnone : cs.filter (·.type = updated.type) = [] := by
      rw [get?_eq_head?] at h
      cases hf : cs.filter (·.type = updated.type) with
      | nil => rfl
      | cons c rest => simp [hf] at h
    simp [List.filter_append, hnone]

theorem filter_put_other {p : Condition → Bool} (cs : Conditions) (updated : Condition)
    (hp : ∀ c : Condition, c.type = updated.type → p c = false) :
    (put cs updated).filter p = cs.filter p := by
  unfold put
  split
  · exact filter_replaceFirst_other updated cs hp
  · simp [List.filter_append, hp updated rfl]

theorem replaceFirst_of_only {cs : Conditions} {updated : Condition}
    (h : cs.filter (·.type = updated.type) = [updated]) :
    replaceFirst updated cs = cs := by
  induction cs with
  | nil => rfl
  | cons c rest ih =>
    by_cases hc : c.type = updated.type
    · rw [List.filter_cons_of_pos (by simpa using hc), List.cons.injEq] at h
      obtain ⟨rfl, hnone⟩ := h
      rw [replaceFirst, if_pos rfl, List.filter_eq_self.mpr]
      intro d hd
      simpa using List.filter_eq_nil_iff.mp hnone d hd
    · rw [List.filter_cons_of_neg (by simpa using hc)] at h
      rw [replaceFirst, if_neg hc, ih h]

/-- An entry that is the only one of its type already is put where it stands. -/
theorem put_of_holds {cs : Conditions} {updated : Condition} (h : holds cs updated = true) :
    put cs updated = cs := by
  have honly := (holds_iff cs updated).mp h
  have hsome : (get? cs updated.type).isSome := by
    rw [get?_eq_head?, honly]
    rfl
  rw [put, if_pos hsome, replaceFirst_of_only honly]

/-! ### After a type is set -/

section Set

variable (cs : Conditions) (type : String) (status : ConditionStatus) (reason message : String)
  (generation : Option Int) (now : Timestamp)

/-- A list that is left alone is what putting the entry would have made of it. -/
theorem set_eq_put :
    (set cs type status reason message generation now).2 =
      put cs (entry cs type status reason message generation now) := by
  simp only [set]
  split
  · next h => exact (put_of_holds h).symm
  · rfl

theorem filter_set_self :
    (set cs type status reason message generation now).2.filter (·.type = type) =
      [entry cs type status reason message generation now] := by
  rw [set_eq_put]
  exact filter_put_self cs (entry cs type status reason message generation now)

theorem filter_set_other {p : Condition → Bool}
    (hp : ∀ c : Condition, c.type = type → p c = false) :
    (set cs type status reason message generation now).2.filter p = cs.filter p := by
  rw [set_eq_put]
  exact filter_put_other cs _ hp

@[simp] theorem get?_set_self :
    get? (set cs type status reason message generation now).2 type =
      some (entry cs type status reason message generation now) := by
  rw [get?_eq_head?, filter_set_self, List.head?_cons]

theorem set_ne_nil : (set cs type status reason message generation now).2 ≠ [] := by
  intro hnil
  have hget := get?_set_self cs type status reason message generation now
  rw [hnil] at hget
  cases hget

theorem get?_set_of_ne {other : String} (h : other ≠ type) :
    get? (set cs type status reason message generation now).2 other = get? cs other := by
  rw [get?_eq_head?, get?_eq_head?, filter_set_other]
  intro c hc
  simpa [hc] using h.symm

theorem isTrue_set_of_ne {other : String} (h : other ≠ type) :
    isTrue (set cs type status reason message generation now).2 other = isTrue cs other := by
  simp only [isTrue, get?_set_of_ne cs type status reason message generation now h]

theorem changed_iff :
    (set cs type status reason message generation now).1 = true ↔
      (set cs type status reason message generation now).2 ≠ cs := by
  have hself := filter_set_self cs type status reason message generation now
  by_cases hholds : holds cs (entry cs type status reason message generation now) = true
  · simp only [set, hholds, if_true]
    simp
  · refine iff_of_true (by simp only [set, hholds]; rfl) fun hsame => hholds ?_
    rw [hsame] at hself
    exact (holds_iff _ _).mpr hself

/-- What is set once more at another time is there already, with the transition time it has. -/
theorem set_again (later : Timestamp) :
    set (set cs type status reason message generation now).2 type status reason message generation
        later =
      (false, (set cs type status reason message generation now).2) := by
  have hentry : entry (set cs type status reason message generation now).2 type status reason
      message generation later = entry cs type status reason message generation now := by
    simp only [entry, transitionTime, get?_set_self, if_true, Option.getD_some]
  have hholds : holds (set cs type status reason message generation now).2
      (entry cs type status reason message generation now) = true :=
    (holds_iff _ _).mpr (filter_set_self cs type status reason message generation now)
  rw [set, hentry, if_pos hholds]

end Set

end CertIssuer.Conditions

namespace CertIssuer.RequestStatus

/-! ### The part of a request's status that passes write -/

/-- The status without the conditions of others. -/
def own (s : RequestStatus) : RequestStatus :=
  { s with conditions := s.conditions.filter (·.type = Condition.ready) }

theorem readyCondition?_own (s : RequestStatus) : s.own.readyCondition? = s.readyCondition? := by
  simp only [readyCondition?, own, Conditions.get?_eq_head?, List.filter_filter, Bool.and_self]

theorem isTerminal_own (s : RequestStatus) : s.own.isTerminal = s.isTerminal := by
  simp only [isTerminal, readyReason?, readyCondition?_own]
  rfl

section Own

variable {s t : RequestStatus} (h : s.own = t.own)

include h

theorem readyCondition?_congr : s.readyCondition? = t.readyCondition? := by
  rw [← readyCondition?_own s, h, readyCondition?_own]

theorem isTerminal_congr : s.isTerminal = t.isTerminal := by
  rw [← isTerminal_own s, h, isTerminal_own]

theorem certificate_congr : s.certificate = t.certificate := by
  have hown : s.own.certificate = t.own.certificate := by rw [h]
  exact hown

theorem ca_congr : s.ca = t.ca := by
  have hown : s.own.ca = t.own.ca := by rw [h]
  exact hown

end Own

end CertIssuer.RequestStatus
