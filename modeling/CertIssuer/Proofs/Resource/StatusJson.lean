import CertIssuer.Proofs.Json.Members
import CertIssuer.Proofs.Request.Status
import CertIssuer.Proofs.Time.Rfc3339
import CertIssuer.Resource.Issuer

/-!
# Statuses as JSON

A condition reads back as it was written, provided that its times and its generation are of the kind
that a text can give (`Condition.Valid`); what was read is of that kind, and so is what is set.
A status that is written into a stored one by a merge patch reads back as the merge of the two
(`RequestStatus.ofJson?_mergePatch`): an absent part is not written, and a patch keeps what it does
not name.
-/

namespace CertIssuer

open Json.Members

/-! ### Values -/

theorem Json.int64?_int {value : Json} {n : Int} (h : Json.int64? value = some n) :
    Json.int64? (.int n) = some n := by
  cases value with
  | int k =>
    have hk : k = n := by
      simp only [Json.int64?, Json.intWithin?, Option.ite_none_right_eq_some] at h
      exact Option.some.inj h.2
    rw [← hk] at h ⊢
    exact h
  | _ => cases h

theorem Timestamp.ofJson?_toJson {t : Timestamp} (h : t.Valid) :
    Timestamp.ofJson? t.toJson = some t :=
  Timestamp.parse?_text h

theorem Timestamp.valid_of_ofJson? {value : Json} {t : Timestamp}
    (h : Timestamp.ofJson? value = some t) : t.Valid := by
  cases value with
  | string s => exact Timestamp.valid_of_parse? h
  | _ => cases h

section ListOf

variable {α : Type} {read : Json → Option α} {write : α → Json}

theorem Json.listOf?_map {items : List α} (h : ∀ a ∈ items, read (write a) = some a) :
    Json.listOf? read (.array (items.map write)) = some items := by
  change (items.map write).mapM read = some items
  induction items with
  | nil => rfl
  | cons a rest ih =>
    obtain ⟨ha, hrest⟩ := List.forall_mem_cons.mp h
    simp only [List.map_cons, List.mapM_cons, ha, ih hrest]
    rfl

theorem Json.exists_of_listOf? {value : Json} {items : List α}
    (h : Json.listOf? read value = some items) : ∀ a ∈ items, ∃ item, read item = some a := by
  cases value with
  | array values =>
    change values.mapM read = some items at h
    induction values generalizing items with
    | nil =>
      cases h
      nofun
    | cons first rest ih =>
      simp only [List.mapM_cons, Option.bind_eq_bind, Option.bind_eq_some_iff, Option.pure_def,
        Option.some.injEq] at h
      obtain ⟨a, ha, tail, htail, rfl⟩ := h
      exact List.forall_mem_cons.mpr ⟨⟨first, ha⟩, ih htail⟩
  | _ => cases h

end ListOf

/-! ### Conditions -/

/-- A condition whose numbers and times have a text. -/
structure Condition.Valid (c : Condition) : Prop where
  generation : ∀ n ∈ c.observedGeneration, Json.int64? (.int n) = some n
  time : ∀ t ∈ c.lastTransitionTime, t.Valid

def Conditions.Valid (cs : Conditions) : Prop := ∀ c ∈ cs, c.Valid

theorem Condition.valid_of_ofJson? {value : Json} {c : Condition}
    (h : Condition.ofJson? value = some c) : c.Valid := by
  simp only [Condition.ofJson?, Option.bind_eq_bind, Option.bind_eq_some_iff, Option.pure_def,
    Option.some.injEq] at h
  obtain ⟨ms, -, type, -, status, -, reason, -, message, -, generation, hgeneration, time, htime,
    rfl⟩ := h
  constructor
  · intro n hn
    obtain ⟨v, hv⟩ := exists_of_optional hgeneration n hn
    exact Json.int64?_int hv
  · intro t ht
    obtain ⟨v, hv⟩ := exists_of_optional htime t ht
    exact Timestamp.valid_of_ofJson? hv

/-- The parts of a condition as they are written. -/
def Condition.written (c : Condition) : List (String × Option Json) := [
  ("type", some (.string c.type)),
  ("status", some (.string c.status.text)),
  ("reason", c.reason.map .string),
  ("message", c.message.map .string),
  ("observedGeneration", c.observedGeneration.map .int),
  ("lastTransitionTime", c.lastTransitionTime.map Timestamp.toJson)]

theorem Condition.toJson_eq (c : Condition) : c.toJson = .object (Json.present c.written) := rfl

theorem Condition.ofJson?_toJson {c : Condition} (h : c.Valid) :
    Condition.ofJson? c.toJson = some c := by
  have hnodup : (c.written.map (·.1)).Nodup := by simp [written]
  have htype : (Json.present c.written).required "type" Json.text? = some c.type :=
    required_present .string hnodup (by simp [written]) rfl
  have hstatus : (Json.present c.written).required "status" ConditionStatus.ofJson? =
      some c.status :=
    required_present (fun s : ConditionStatus => .string s.text) hnodup (by simp [written])
      (ConditionStatus.parse?_text c.status)
  have hreason : (Json.present c.written).optional "reason" Json.text? = some c.reason :=
    optional_present .string hnodup (by simp [written]) (fun _ => nofun) fun _ _ => rfl
  have hmessage : (Json.present c.written).optional "message" Json.text? = some c.message :=
    optional_present .string hnodup (by simp [written]) (fun _ => nofun) fun _ _ => rfl
  have hgeneration : (Json.present c.written).optional "observedGeneration" Json.int64? =
      some c.observedGeneration :=
    optional_present .int hnodup (by simp [written]) (fun _ => nofun) h.generation
  have htime : (Json.present c.written).optional "lastTransitionTime" Timestamp.ofJson? =
      some c.lastTransitionTime :=
    optional_present Timestamp.toJson hnodup (by simp [written]) (fun _ => nofun) fun t ht =>
      Timestamp.ofJson?_toJson (h.time t ht)
  simp only [Condition.ofJson?, toJson_eq, Json.record?, Option.bind_eq_bind, Option.bind_some,
    htype, hstatus, hreason, hmessage, hgeneration, htime]
  rfl

/-! ### Conditions that are set -/

namespace Conditions

section Set

variable {cs : Conditions} {type : String} {status : ConditionStatus} {reason message : String}
  {generation : Option Int} {now : Timestamp}

theorem eq_entry_or_mem_of_mem_set {c : Condition}
    (h : c ∈ (set cs type status reason message generation now).2) :
    c = entry cs type status reason message generation now ∨ c ∈ cs := by
  by_cases htype : c.type = type
  · have hself : c ∈ (set cs type status reason message generation now).2.filter (·.type = type) :=
      List.mem_filter.mpr ⟨h, decide_eq_true htype⟩
    rw [filter_set_self] at hself
    exact .inl (List.mem_singleton.mp hself)
  · have hother : c ∈ (set cs type status reason message generation now).2.filter (·.type ≠ type) :=
      List.mem_filter.mpr ⟨h, decide_eq_true htype⟩
    rw [filter_set_other _ _ _ _ _ _ _ fun d hd => decide_eq_false (not_not_intro hd)] at hother
    exact .inr (List.mem_filter.mp hother).1

theorem Valid.transitionTime (h : Valid cs) (hnow : now.Valid) :
    (transitionTime cs type status now).Valid := by
  unfold Conditions.transitionTime
  split
  · next previous hprevious =>
    split
    · cases htime : previous.lastTransitionTime with
      | none => exact hnow
      | some t => exact (h previous (List.mem_of_find?_eq_some hprevious)).time t htime
    · exact hnow
  · exact hnow

theorem Valid.set (h : Valid cs) (hnow : now.Valid)
    (hgeneration : ∀ n ∈ generation, Json.int64? (.int n) = some n) :
    Valid (Conditions.set cs type status reason message generation now).2 := by
  intro c hc
  rcases eq_entry_or_mem_of_mem_set hc with rfl | hmem
  · refine ⟨hgeneration, fun t ht => ?_⟩
    cases ht
    exact h.transitionTime hnow
  · exact h c hmem

end Set

theorem Valid.ofList {cs : Conditions} (h : Valid cs) :
    ∀ c ∈ cs, Condition.ofJson? c.toJson = some c :=
  fun c hc => Condition.ofJson?_toJson (h c hc)

theorem valid_of_listOf? {value : Json} {cs : Conditions}
    (h : Json.listOf? Condition.ofJson? value = some cs) : Valid cs := by
  intro c hc
  obtain ⟨item, hitem⟩ := Json.exists_of_listOf? h c hc
  exact Condition.valid_of_ofJson? hitem

theorem valid_of_withDefault {ms : Json.Members} {cs : Conditions}
    (h : ms.withDefault "conditions" [] (Json.listOf? Condition.ofJson?) = some cs) : Valid cs := by
  unfold Json.Members.withDefault at h
  split at h
  · cases h
    nofun
  · exact valid_of_listOf? h
  · cases h

/-- The conditions, if there are any. -/
def nonempty? (cs : Conditions) : Option Conditions := if cs.isEmpty then none else some cs

def toJson (cs : Conditions) : Json := .array (cs.map Condition.toJson)

theorem ofList?_eq (cs : Conditions) :
    Json.ofList? Condition.toJson cs = (nonempty? cs).map toJson := by
  unfold Json.ofList? nonempty?
  split <;> rfl

theorem Valid.merge {parts : List (String × Option Json)} {ms : Json.Members}
    {patch old : Conditions} (h : Valid patch) (hnodup : (parts.map (·.1)).Nodup)
    (hparts : ∀ part ∈ parts, part.2 ≠ some .null)
    (hmem : ("conditions", Json.ofList? Condition.toJson patch) ∈ parts)
    (hold : ms.withDefault "conditions" [] (Json.listOf? Condition.ofJson?) = some old) :
    Json.Members.withDefault (Json.mergeMembers (Json.present parts) ms) "conditions" []
      (Json.listOf? Condition.ofJson?) = some (if patch.isEmpty then old else patch) := by
  rw [ofList?_eq] at hmem
  have hread : ∀ cs ∈ nonempty? patch, Json.listOf? Condition.ofJson? (toJson cs) = some cs := by
    intro cs hcs
    simp only [nonempty?, Option.mem_def, Option.ite_none_left_eq_some, Option.some.injEq] at hcs
    obtain ⟨-, rfl⟩ := hcs
    exact Json.listOf?_map h.ofList
  rw [withDefault_merge toJson hnodup hparts hmem (fun _ => rfl) hread hold, nonempty?]
  split <;> rfl

end Conditions

/-! ### The status of a request -/

namespace RequestStatus

structure Valid (s : RequestStatus) : Prop where
  conditions : s.conditions.Valid
  failureTime : ∀ t ∈ s.failureTime, t.Valid

theorem valid_of_ofJson? {value : Json} {s : RequestStatus} (h : ofJson? value = some s) :
    s.Valid := by
  simp only [ofJson?, Option.bind_eq_bind, Option.bind_eq_some_iff, Option.pure_def,
    Option.some.injEq] at h
  obtain ⟨ms, -, conditions, hconditions, certificate, -, ca, -, time, htime, rfl⟩ := h
  refine ⟨Conditions.valid_of_withDefault hconditions, fun t ht => ?_⟩
  obtain ⟨v, hv⟩ := exists_of_optional htime t ht
  exact Timestamp.valid_of_ofJson? hv

/-- The parts of a status as they are written. -/
def written (s : RequestStatus) : List (String × Option Json) := [
  ("conditions", Json.ofList? Condition.toJson s.conditions),
  ("certificate", s.certificate.map .string),
  ("ca", s.ca.map .string),
  ("failureTime", s.failureTime.map Timestamp.toJson)]

theorem toJson_eq (s : RequestStatus) : s.toJson = .object (Json.present s.written) := rfl

theorem written_ne_null (s : RequestStatus) : ∀ part ∈ s.written, part.2 ≠ some .null := by
  simp [written, Json.ofList?, Timestamp.toJson]

theorem ofJson?_mergePatch {target : Option Json} {old patch : RequestStatus}
    (hold : ofJson? (.object (Json.patchable target)) = some old) (hpatch : patch.Valid) :
    ofJson? (Json.mergePatch patch.toJson target) = some (old.merge patch) := by
  have hnodup : (patch.written.map (·.1)).Nodup := by simp [written]
  have hparts := patch.written_ne_null
  simp only [ofJson?, Json.record?, Option.bind_eq_bind, Option.bind_eq_some_iff,
    Option.pure_def, Option.some.injEq, exists_eq_left'] at hold
  obtain ⟨conditions, hconditions, certificate, hcertificate, ca, hca, time, htime, rfl⟩ := hold
  have hconditions' := hpatch.conditions.merge hnodup hparts (by simp [written]) hconditions
  have hcertificate' := optional_merge (o := patch.certificate) .string hnodup hparts
    (by simp [written]) (fun _ => rfl) (fun _ _ => rfl) hcertificate
  have hca' := optional_merge (o := patch.ca) .string hnodup hparts (by simp [written])
    (fun _ => rfl) (fun _ _ => rfl) hca
  have htime' := optional_merge (o := patch.failureTime) Timestamp.toJson hnodup hparts
    (by simp [written]) (fun _ => rfl)
    (fun t ht => Timestamp.ofJson?_toJson (hpatch.failureTime t ht)) htime
  rw [toJson_eq, Json.mergePatch]
  simp only [ofJson?, Json.record?, Option.bind_eq_bind, Option.bind_some, hconditions',
    hcertificate', hca', htime']
  rfl

end RequestStatus

/-! ### The status of an issuer -/

namespace IssuerStatus

theorem valid_of_ofJson? {value : Json} {s : IssuerStatus} (h : ofJson? value = some s) :
    s.conditions.Valid := by
  simp only [ofJson?, Option.bind_eq_bind, Option.bind_eq_some_iff, Option.pure_def,
    Option.some.injEq] at h
  obtain ⟨ms, -, conditions, hconditions, rfl⟩ := h
  exact Conditions.valid_of_withDefault hconditions

/-- The parts of a status as they are written. -/
def written (s : IssuerStatus) : List (String × Option Json) :=
  [("conditions", Json.ofList? Condition.toJson s.conditions)]

theorem toJson_eq (s : IssuerStatus) : s.toJson = .object (Json.present s.written) := rfl

theorem ofJson?_mergePatch {target : Option Json} {old patch : IssuerStatus}
    (hold : ofJson? (.object (Json.patchable target)) = some old)
    (hpatch : patch.conditions.Valid) (hconditions : patch.conditions ≠ []) :
    ofJson? (Json.mergePatch patch.toJson target) = some patch := by
  have hparts : ∀ part ∈ patch.written, part.2 ≠ some .null := by simp [written, Json.ofList?]
  simp only [ofJson?, Json.record?, Option.bind_eq_bind, Option.bind_eq_some_iff,
    Option.pure_def, Option.some.injEq, exists_eq_left'] at hold
  obtain ⟨conditions, hold, rfl⟩ := hold
  have hmerge := hpatch.merge (by simp [written]) hparts (by simp [written]) hold
  rw [if_neg (by simpa using hconditions)] at hmerge
  rw [toJson_eq, Json.mergePatch]
  simp only [ofJson?, Json.record?, Option.bind_eq_bind, Option.bind_some, hmerge]
  rfl

end IssuerStatus

end CertIssuer
