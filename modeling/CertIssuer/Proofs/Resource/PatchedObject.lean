import CertIssuer.Proofs.Resource.StatusJson
import CertIssuer.StatusPatch

/-!
# Objects under a status patch

A status patch, applied to a stored object as a merge patch, leaves everything but the status as it
was. The version that it may carry is the one that the object has.
-/

namespace CertIssuer

open Json.Members

/-! ### The members of an object -/

namespace Json

/-- A member as a patch of an object finds it: what is no object is given up. -/
def standing (name : String) (value : Json) : Json :=
  object (patchable (memberValue? name (patchable (some value))))

theorem standing_object {top : Members} {name : String} {old : Option Json}
    (h : top.find? name = some old) : (object top).standing name = object (patchable old) := by
  rw [standing, patchable, memberValue?_of_find? h]

theorem exists_of_patchable {α : Type} {ms : Members} {name : String} {read : Json → Option α}
    {o : Option α} {default : α} {old : Option Json} (hempty : read (object []) = some default)
    (h : ms.optional name read = some o) (hold : ms.find? name = some old) :
    ∃ a, read (object (patchable old)) = some a ∧ (a = o.getD default ∨ a = default) := by
  rw [Members.optional, hold] at h
  cases old with
  | none => exact ⟨default, hempty, .inr rfl⟩
  | some value =>
    cases value with
    | object members =>
      obtain ⟨a, ha, rfl⟩ := Option.map_eq_some_iff.mp h
      exact ⟨a, ha, .inl rfl⟩
    -- `null` reads as absent, and the patch gives up whatever else is no object
    | _ => exact ⟨default, hempty, .inr rfl⟩

/-- The parts of a status patch. -/
def statusParts (status : Json) (version : Option String) : List (String × Option Json) :=
  [("status", some status),
    ("metadata", version.map fun v => object [("resourceVersion", string v)])]

/-- An object after a status patch. -/
def withStatus (top : Members) (status : Json) (version : Option String) : Members :=
  mergeMembers (present (statusParts status version)) top

theorem mergePatch_statusPatch (top : Members) (status : Json) (version : Option String) :
    mergePatch (statusPatch status version) (some (object top)) =
      object (withStatus top status version) := by
  rw [statusPatch, ofMembers_eq, mergePatch]
  rfl

section WithStatus

variable {top : Members} {status : Json} {version : Option String} (hstatus : status ≠ null)

include hstatus

theorem statusParts_ne_null : ∀ part ∈ statusParts status version, part.2 ≠ some null := by
  simp [statusParts, hstatus]

theorem find?_withStatus_status {old : Option Json} (hold : top.find? "status" = some old) :
    Members.find? (withStatus top status version) "status" =
      some (some (mergePatch status old)) := by
  have hmem : ("status", some status) ∈ statusParts status version := List.mem_cons_self
  exact find?_merge (statusParts_ne_null hstatus) (by simp [statusParts]) hmem hold

theorem required_withStatus {α : Type} {read : Json → Option α} {name : String}
    (hname : name ≠ "status") (hmetadata : name ≠ "metadata") :
    (withStatus top status version).required name read = top.required name read :=
  required_congr <| find?_merge_of_not_mem (statusParts_ne_null hstatus)
    (by simp [statusParts, hname, hmetadata])

theorem find?_withStatus_metadata {metadata : Json}
    (hmetadata : top.find? "metadata" = some (some metadata))
    (hversion : ∀ v ∈ version, ∃ ms, metadata = object ms ∧
      memberValue? "resourceVersion" ms = some (string v)) :
    Members.find? (withStatus top status version) "metadata" = some (some metadata) := by
  have hmem : ("metadata", version.map fun v => object [("resourceVersion", string v)]) ∈
      statusParts status version :=
    List.mem_cons_of_mem _ List.mem_cons_self
  have hfind := find?_merge (statusParts_ne_null hstatus) (by simp [statusParts]) hmem hmetadata
  rw [withStatus, hfind]
  cases version with
  | none => rfl
  | some v =>
    obtain ⟨ms, rfl, hv⟩ := hversion v rfl
    -- the patch sets the version to what it is
    have hnull : string v ≠ null := by
      intro heq
      cases heq
    have hset : mergePatch (object [("resourceVersion", string v)]) (some (object ms)) =
        object (setMember "resourceVersion" (string v) ms) := by
      rw [mergePatch, mergeMembers_cons hnull, mergeMembers, mergePatch_of_members rfl]
      rfl
    rw [Option.map_some, Option.elim_some, hset, setMember_of_memberValue? hv]

end WithStatus

end Json

/-! ### Metadata -/

theorem Metadata.parts_of_ofJson? {value : Json} {m : Metadata}
    (h : Metadata.ofJson? value = some m) :
    ∃ ms : Json.Members, value = .object ms ∧
      ms.optional "generation" Json.int64? = some m.generation ∧
      ms.optional "resourceVersion" Json.text? = some m.resourceVersion := by
  obtain ⟨ms, hms, h⟩ := Option.bind_eq_some_iff.mp h
  obtain ⟨annotations, -, h⟩ := Option.bind_eq_some_iff.mp h
  obtain ⟨creationTimestamp, -, h⟩ := Option.bind_eq_some_iff.mp h
  obtain ⟨gracePeriod, -, h⟩ := Option.bind_eq_some_iff.mp h
  obtain ⟨deletionTimestamp, -, h⟩ := Option.bind_eq_some_iff.mp h
  obtain ⟨finalizers, -, h⟩ := Option.bind_eq_some_iff.mp h
  obtain ⟨generateName, -, h⟩ := Option.bind_eq_some_iff.mp h
  obtain ⟨generation, hgeneration, h⟩ := Option.bind_eq_some_iff.mp h
  obtain ⟨labels, -, h⟩ := Option.bind_eq_some_iff.mp h
  obtain ⟨managedFields, -, h⟩ := Option.bind_eq_some_iff.mp h
  obtain ⟨name, -, h⟩ := Option.bind_eq_some_iff.mp h
  obtain ⟨«namespace», -, h⟩ := Option.bind_eq_some_iff.mp h
  obtain ⟨owners, -, h⟩ := Option.bind_eq_some_iff.mp h
  obtain ⟨version, hversion, h⟩ := Option.bind_eq_some_iff.mp h
  obtain ⟨selfLink, -, h⟩ := Option.bind_eq_some_iff.mp h
  obtain ⟨uid, -, h⟩ := Option.bind_eq_some_iff.mp h
  cases h
  cases value with
  | object members =>
    cases hms
    exact ⟨_, rfl, hgeneration, hversion⟩
  | _ => cases hms

theorem Json.memberValue?_of_text {ms : Json.Members} {name s : String}
    (h : ms.optional name Json.text? = some (some s)) :
    Json.memberValue? name ms = some (.string s) := by
  obtain ⟨stored, hstored⟩ := exists_find?_of_optional h
  rw [Json.memberValue?_of_find? hstored]
  rw [Json.Members.optional, hstored] at h
  cases stored with
  | none => cases h
  | some value =>
    cases value with
    | string s =>
      cases h
      rfl
    | _ => cases h

theorem Metadata.valid_generation {top : Json.Members} {m : Metadata}
    (h : top.required "metadata" Metadata.ofJson? = some m) :
    ∀ n ∈ m.generation, Json.int64? (.int n) = some n := by
  obtain ⟨value, -, hread⟩ := exists_of_required h
  obtain ⟨ms, -, hgeneration, -⟩ := Metadata.parts_of_ofJson? hread
  intro n hn
  obtain ⟨item, hitem⟩ := exists_of_optional hgeneration n hn
  exact Json.int64?_int hitem

/-- A patch that is pinned to the version of the metadata leaves the metadata. -/
theorem Metadata.required_withStatus {top : Json.Members} {m : Metadata} {status : Json}
    {version : Option String} (hstatus : status ≠ .null)
    (h : top.required "metadata" Metadata.ofJson? = some m)
    (hversion : ∀ v ∈ version, m.resourceVersion = some v) :
    (Json.withStatus top status version).required "metadata" Metadata.ofJson? = some m := by
  obtain ⟨value, hvalue, hread⟩ := exists_of_required h
  obtain ⟨ms, hms, -, hread⟩ := Metadata.parts_of_ofJson? hread
  have hfind := Json.find?_withStatus_metadata hstatus hvalue fun v hv =>
    ⟨ms, hms, Json.memberValue?_of_text (hread.trans (congrArg some (hversion v hv)))⟩
  rw [required_congr (hfind.trans hvalue.symm), h]

/-! ### Requests -/

namespace CertificateRequest

theorem valid_currentStatus {value : Json} {r : CertificateRequest} (h : ofJson? value = some r) :
    r.currentStatus.Valid := by
  simp only [ofJson?, Option.bind_eq_bind, Option.bind_eq_some_iff, Option.pure_def,
    Option.some.injEq] at h
  obtain ⟨ms, -, metadata, -, spec, -, status, hstatus, rfl⟩ := h
  cases status with
  | none => exact ⟨nofun, nofun⟩
  | some s =>
    obtain ⟨item, hitem⟩ := exists_of_optional hstatus s rfl
    exact RequestStatus.valid_of_ofJson? hitem

theorem valid_generation {value : Json} {r : CertificateRequest} (h : ofJson? value = some r) :
    ∀ n ∈ r.metadata.generation, Json.int64? (.int n) = some n := by
  simp only [ofJson?, Option.bind_eq_bind, Option.bind_eq_some_iff, Option.pure_def,
    Option.some.injEq] at h
  obtain ⟨ms, -, metadata, hmetadata, spec, -, status, -, rfl⟩ := h
  exact Metadata.valid_generation hmetadata

/-- A status that is written into a stored request is merged into the status that the patch finds,
and nothing else changes. -/
theorem ofJson?_statusPatch {value : Json} {r : CertificateRequest} (h : ofJson? value = some r)
    {patch : RequestStatus} (hpatch : patch.Valid) {version : Option String}
    (hversion : ∀ v ∈ version, r.metadata.resourceVersion = some v) :
    ∃ old, RequestStatus.ofJson? (value.standing "status") = some old ∧
      (old = r.currentStatus ∨ old = {}) ∧
      ofJson? (Json.mergePatch (statusPatch patch.toJson version) (some value)) =
        some { r with status := some (old.merge patch) } := by
  simp only [ofJson?, Option.bind_eq_bind, Option.bind_eq_some_iff, Option.pure_def,
    Option.some.injEq] at h
  obtain ⟨top, htop, metadata, hmetadata, spec, hspec, status, hstatus, rfl⟩ := h
  cases value with
  | object ms =>
    cases htop
    have hnull : patch.toJson ≠ .null := nofun
    have hempty : RequestStatus.ofJson? (.object []) = some {} := rfl
    obtain ⟨stored, hstored⟩ := exists_find?_of_optional hstatus
    obtain ⟨old, hold, hcurrent⟩ := Json.exists_of_patchable hempty hstatus hstored
    have hstanding := Json.standing_object hstored
    have hmetadata' := Metadata.required_withStatus hnull hmetadata hversion
    have hspec' : (Json.withStatus top patch.toJson version).required "spec" RequestSpec.ofJson? =
        some spec :=
      (Json.required_withStatus hnull (by decide) (by decide)).trans hspec
    have hstatus' : (Json.withStatus top patch.toJson version).optional "status"
        RequestStatus.ofJson? = some (some (old.merge patch)) :=
      optional_of_some (Json.find?_withStatus_status hnull hstored) nofun
        (RequestStatus.ofJson?_mergePatch hold hpatch)
    refine ⟨old, hstanding ▸ hold, hcurrent, ?_⟩
    rw [Json.mergePatch_statusPatch]
    simp only [ofJson?, Json.members, Option.bind_eq_bind, Option.bind_some, hmetadata', hspec',
      hstatus']
    rfl
  | _ => cases htop

end CertificateRequest

/-! ### Issuers -/

namespace IssuerObject

variable {kind : IssuerKind} {value : Json} {o : IssuerObject}

theorem valid_conditions (h : ofJson? kind value = some o) :
    (Issuer.ofObject o).status.conditions.Valid := by
  simp only [ofJson?, Option.bind_eq_bind, Option.bind_eq_some_iff, Option.pure_def,
    Option.some.injEq] at h
  obtain ⟨ms, -, metadata, -, spec, -, status, hstatus, rfl⟩ := h
  cases status with
  | none => exact nofun
  | some s =>
    obtain ⟨item, hitem⟩ := exists_of_optional hstatus s rfl
    exact IssuerStatus.valid_of_ofJson? hitem

theorem valid_generation (h : ofJson? kind value = some o) :
    ∀ n ∈ (Issuer.ofObject o).generation, Json.int64? (.int n) = some n := by
  simp only [ofJson?, Option.bind_eq_bind, Option.bind_eq_some_iff, Option.pure_def,
    Option.some.injEq] at h
  obtain ⟨ms, -, metadata, hmetadata, spec, -, status, -, rfl⟩ := h
  exact Metadata.valid_generation hmetadata

/-- A status with conditions takes the place of the status of a stored issuer, and nothing else
changes. -/
theorem ofJson?_statusPatch (h : ofJson? kind value = some o) {patch : IssuerStatus}
    (hpatch : patch.conditions.Valid) (hne : patch.conditions ≠ []) {version : Option String}
    (hversion : ∀ v ∈ version, o.metadata.resourceVersion = some v) :
    ofJson? kind (Json.mergePatch (statusPatch patch.toJson version) (some value)) =
      some { o with status := some patch } := by
  simp only [ofJson?, Option.bind_eq_bind, Option.bind_eq_some_iff, Option.pure_def,
    Option.some.injEq] at h
  obtain ⟨top, htop, metadata, hmetadata, spec, hspec, status, hstatus, rfl⟩ := h
  cases value with
  | object ms =>
    cases htop
    have hnull : patch.toJson ≠ .null := nofun
    have hempty : IssuerStatus.ofJson? (.object []) = some {} := rfl
    obtain ⟨stored, hstored⟩ := exists_find?_of_optional hstatus
    obtain ⟨old, hold, -⟩ := Json.exists_of_patchable hempty hstatus hstored
    have hmetadata' := Metadata.required_withStatus hnull hmetadata hversion
    have hspec' : (Json.withStatus top patch.toJson version).required "spec"
        (IssuerSpec.ofKindJson? kind) = some spec :=
      (Json.required_withStatus hnull (by decide) (by decide)).trans hspec
    have hstatus' : (Json.withStatus top patch.toJson version).optional "status"
        IssuerStatus.ofJson? = some (some patch) :=
      optional_of_some (Json.find?_withStatus_status hnull hstored) nofun
        (IssuerStatus.ofJson?_mergePatch hold hpatch hne)
    rw [Json.mergePatch_statusPatch]
    simp only [ofJson?, Json.members, Option.bind_eq_bind, Option.bind_some, hmetadata', hspec',
      hstatus']
    rfl
  | _ => cases htop

end IssuerObject

end CertIssuer
