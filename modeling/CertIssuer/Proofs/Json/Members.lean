import CertIssuer.Json.Decode
import CertIssuer.Json.MergePatch

/-!
# Members of a record

What is found among the members of an object after it was written from optional parts, after a
member was set, and after a merge patch. A patch made of optional parts changes exactly the parts
that are present (`find?_merge`).
-/

namespace CertIssuer.Json

open Members

/-- The parts of a record that are present. -/
def present (parts : List (String × Option Json)) : Members :=
  parts.filterMap fun (name, value) => value.map (name, ·)

theorem ofMembers_eq (parts : List (String × Option Json)) :
    ofMembers parts = object (present parts) := rfl

section Present

variable (name : String) (value : Json) (parts : List (String × Option Json))

@[simp] theorem present_none : present ((name, none) :: parts) = present parts := rfl

@[simp] theorem present_some :
    present ((name, some value) :: parts) = (name, value) :: present parts := rfl

end Present

/-! ### Setting a member -/

section SetMember

variable {name other : String} {value : Json}

theorem filter_setMember_of_ne (h : other ≠ name) (ms : Members) :
    (setMember name value ms).filter (·.1 = other) = ms.filter (·.1 = other) := by
  induction ms with
  | nil => simp [setMember, h.symm]
  | cons m rest ih =>
    obtain ⟨first, old⟩ := m
    by_cases hfirst : first = name
    · subst hfirst
      simp [setMember, h.symm]
    · simp only [setMember, if_neg hfirst, List.filter_cons, ih]

theorem filter_setMember_self (ms : Members) :
    (setMember name value ms).filter (·.1 = name) =
      (name, value) :: (ms.filter (·.1 = name)).tail := by
  induction ms with
  | nil => simp [setMember]
  | cons m rest ih =>
    obtain ⟨first, old⟩ := m
    by_cases hfirst : first = name
    · simp [setMember, hfirst]
    · simp [setMember, hfirst, ih]

theorem find?_setMember_of_ne (h : other ≠ name) (ms : Members) :
    find? (setMember name value ms) other = find? ms other := by
  unfold find?
  rw [filter_setMember_of_ne h]

theorem find?_setMember_self {ms : Members} {old : Option Json} (h : find? ms name = some old) :
    find? (setMember name value ms) name = some (some value) := by
  unfold find? at h ⊢
  rw [filter_setMember_self]
  split at h
  · next hnone =>
    rw [hnone]
    rfl
  · next hone =>
    rw [hone]
    rfl
  · cases h

theorem memberValue?_of_find? {ms : Members} {old : Option Json} (h : find? ms name = some old) :
    memberValue? name ms = old := by
  unfold memberValue?
  rw [← List.head?_filter]
  unfold find? at h
  split at h
  · next hnone =>
    cases h
    rw [hnone]
    rfl
  · next hone =>
    cases h
    rw [hone]
    rfl
  · cases h

theorem setMember_of_memberValue? {ms : Members} (h : memberValue? name ms = some value) :
    setMember name value ms = ms := by
  induction ms with
  | nil => cases h
  | cons m rest ih =>
    obtain ⟨first, old⟩ := m
    by_cases hfirst : first = name
    · subst hfirst
      simp only [memberValue?, List.find?_cons, decide_true, Option.map_some,
        Option.some.injEq] at h
      simp [setMember, h]
    · simp only [memberValue?, List.find?_cons, hfirst, decide_false] at h
      simp only [setMember, if_neg hfirst, ih h]

end SetMember

/-! ### Patching an object -/

theorem mergeMembers_cons {change : Json} (h : change ≠ null) (name : String)
    (rest ms : Members) :
    mergeMembers ((name, change) :: rest) ms =
      mergeMembers rest (setMember name (mergePatch change (memberValue? name ms)) ms) := by
  cases change with
  | null => exact absurd rfl h
  | _ => rw [mergeMembers]; simp

/-- A value that is no object patches by taking the place of another. -/
theorem mergePatch_of_members {value : Json} (h : value.members = none) (target : Option Json) :
    mergePatch value target = value := by
  cases value with
  | object ms => cases h
  | _ => rfl

section Patch

variable {name : String} {parts : List (String × Option Json)} {ms : Members}
  (hnull : ∀ part ∈ parts, part.2 ≠ some null)

include hnull

theorem find?_merge_of_not_mem (h : name ∉ parts.map (·.1)) :
    find? (mergeMembers (present parts) ms) name = find? ms name := by
  induction parts generalizing ms with
  | nil =>
    rw [present, List.filterMap_nil, mergeMembers]
  | cons part rest ih =>
    obtain ⟨first, value⟩ := part
    obtain ⟨hfirst, hrest⟩ := List.forall_mem_cons.mp hnull
    rw [List.map_cons, List.mem_cons, not_or] at h
    cases value with
    | none => exact ih hrest h.2
    | some change =>
      have hchange : change ≠ null := fun heq => hfirst (congrArg some heq)
      rw [present_some, mergeMembers_cons hchange, ih hrest h.2, find?_setMember_of_ne h.1]

theorem find?_merge {value : Option Json} {old : Option Json} (hnodup : (parts.map (·.1)).Nodup)
    (h : (name, value) ∈ parts) (hold : find? ms name = some old) :
    find? (mergeMembers (present parts) ms) name =
      some (value.elim old fun change => some (mergePatch change old)) := by
  induction parts generalizing ms with
  | nil => cases h
  | cons part rest ih =>
    obtain ⟨first, other⟩ := part
    obtain ⟨hfirst, hrest⟩ := List.forall_mem_cons.mp hnull
    rw [List.map_cons, List.nodup_cons] at hnodup
    rcases List.mem_cons.mp h with heq | hmem
    · cases heq
      cases value with
      | none =>
        rw [present_none, find?_merge_of_not_mem hrest hnodup.1, hold]
        rfl
      | some change =>
        have hchange : change ≠ null := fun heq => hfirst (congrArg some heq)
        rw [present_some, mergeMembers_cons hchange, find?_merge_of_not_mem hrest hnodup.1,
          find?_setMember_self hold, memberValue?_of_find? hold]
        rfl
    · have hne : name ≠ first := by
        rintro rfl
        exact hnodup.1 (List.mem_map.mpr ⟨_, hmem, rfl⟩)
      cases other with
      | none => exact ih hrest hnodup.2 hmem hold
      | some change =>
        have hchange : change ≠ null := fun heq => hfirst (congrArg some heq)
        rw [present_some, mergeMembers_cons hchange]
        exact ih hrest hnodup.2 hmem ((find?_setMember_of_ne hne ms).trans hold)

end Patch

/-! ### Reading what was written -/

section Written

variable {name : String} {parts : List (String × Option Json)}

theorem filter_present_of_not_mem (h : name ∉ parts.map (·.1)) :
    (present parts).filter (·.1 = name) = [] := by
  induction parts with
  | nil => rfl
  | cons part rest ih =>
    obtain ⟨first, value⟩ := part
    rw [List.map_cons, List.mem_cons, not_or] at h
    cases value with
    | none => exact ih h.2
    | some value => simp [Ne.symm h.1, ih h.2]

theorem find?_present {value : Option Json} (hnodup : (parts.map (·.1)).Nodup)
    (h : (name, value) ∈ parts) : find? (present parts) name = some value := by
  induction parts with
  | nil => cases h
  | cons part rest ih =>
    obtain ⟨first, other⟩ := part
    rw [List.map_cons, List.nodup_cons] at hnodup
    rcases List.mem_cons.mp h with heq | hmem
    · cases heq
      have hrest := filter_present_of_not_mem hnodup.1
      cases value with
      | none => simp [find?, hrest]
      | some value => simp [find?, hrest]
    · have hne : first ≠ name := by
        rintro rfl
        exact hnodup.1 (List.mem_map.mpr ⟨_, hmem, rfl⟩)
      have htail := ih hnodup.2 hmem
      cases other with
      | none => exact htail
      | some value => simpa [find?, hne] using htail

end Written

/-! ### Reading parts -/

namespace Members

section Read

variable {α : Type} {ms : Members} {name : String} {read : Json → Option α}

theorem exists_find?_of_optional {o : Option α} (h : optional ms name read = some o) :
    ∃ old, find? ms name = some old := by
  unfold optional at h
  split at h
  · next heq => exact ⟨_, heq⟩
  · next heq => exact ⟨_, heq⟩
  · next heq => exact ⟨_, heq⟩
  · cases h

theorem exists_find?_of_withDefault {default a : α}
    (h : withDefault ms name default read = some a) : ∃ old, find? ms name = some old := by
  unfold withDefault at h
  split at h
  · next heq => exact ⟨_, heq⟩
  · next heq => exact ⟨_, heq⟩
  · cases h

theorem exists_of_required {a : α} (h : required ms name read = some a) :
    ∃ value, find? ms name = some (some value) ∧ read value = some a := by
  unfold required at h
  split at h
  · next value heq => exact ⟨value, heq, h⟩
  · cases h

theorem exists_of_optional {o : Option α} (h : optional ms name read = some o) :
    ∀ a ∈ o, ∃ value, read value = some a := by
  rintro a rfl
  unfold optional at h
  split at h
  · cases h
  · cases h
  · simp only [Option.map_eq_some_iff, Option.some.injEq, exists_eq_right] at h
    exact ⟨_, h⟩
  · cases h

theorem required_congr {ms' : Members} (h : find? ms' name = find? ms name) :
    required ms' name read = required ms name read := by
  rw [required, required, h]

theorem optional_of_some {value : Json} {a : α} (h : find? ms name = some (some value))
    (hnull : value ≠ null) (hread : read value = some a) :
    optional ms name read = some (some a) := by
  rw [optional, h]
  cases value with
  | null => exact absurd rfl hnull
  | _ => exact congrArg (Option.map some) hread

end Read

/-! What was written is read, alone or over what was there before. -/

section Written

variable {α : Type} {name : String} {read : Json → Option α} (write : α → Json)
  {parts : List (String × Option Json)} (hnodup : (parts.map (·.1)).Nodup)

include hnodup

theorem required_present {a : α} (h : (name, some (write a)) ∈ parts)
    (hread : read (write a) = some a) : required (present parts) name read = some a := by
  rw [required, find?_present hnodup h]
  exact hread

theorem optional_present {o : Option α} (h : (name, o.map write) ∈ parts)
    (hnull : ∀ a, write a ≠ null) (hread : ∀ a ∈ o, read (write a) = some a) :
    optional (present parts) name read = some o := by
  have hfind := find?_present hnodup h
  cases o with
  | none =>
    rw [optional, hfind]
    rfl
  | some a => exact optional_of_some hfind (hnull a) (hread a rfl)

theorem withDefault_present {o : Option α} {default : α} (h : (name, o.map write) ∈ parts)
    (hread : ∀ a ∈ o, read (write a) = some a) :
    withDefault (present parts) name default read = some (o.getD default) := by
  rw [withDefault, find?_present hnodup h]
  cases o with
  | none => rfl
  | some a => exact hread a rfl

variable {ms : Members} (hparts : ∀ part ∈ parts, part.2 ≠ some null)

include hparts

theorem optional_merge {o old : Option α} (h : (name, o.map write) ∈ parts)
    (hflat : ∀ a, (write a).members = none) (hread : ∀ a ∈ o, read (write a) = some a)
    (hold : optional ms name read = some old) :
    optional (mergeMembers (present parts) ms) name read = some (o.or old) := by
  obtain ⟨stored, hstored⟩ := exists_find?_of_optional hold
  have hfind := find?_merge hparts hnodup h hstored
  cases o with
  | none =>
    rw [optional, hfind]
    rw [optional, hstored] at hold
    exact hold
  | some a =>
    have hnull : write a ≠ null := fun heq => hparts _ h (congrArg some heq)
    rw [Option.map_some, Option.elim_some, mergePatch_of_members (hflat a)] at hfind
    exact optional_of_some hfind hnull (hread a rfl)

theorem withDefault_merge {o : Option α} {default old : α} (h : (name, o.map write) ∈ parts)
    (hflat : ∀ a, (write a).members = none) (hread : ∀ a ∈ o, read (write a) = some a)
    (hold : withDefault ms name default read = some old) :
    withDefault (mergeMembers (present parts) ms) name default read = some (o.getD old) := by
  obtain ⟨stored, hstored⟩ := exists_find?_of_withDefault hold
  have hfind := find?_merge hparts hnodup h hstored
  cases o with
  | none =>
    rw [withDefault, hfind]
    rw [withDefault, hstored] at hold
    exact hold
  | some a =>
    rw [Option.map_some, Option.elim_some, mergePatch_of_members (hflat a)] at hfind
    rw [withDefault, hfind]
    exact hread a rfl

end Written

end Members

end CertIssuer.Json
