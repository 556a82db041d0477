import CertIssuer.Proofs.Json.Members
import CertIssuer.Proofs.Time.Rfc3339
import CertIssuer.Resource.Lease

/-!
# Leases as JSON

A Lease that a candidate writes reads back with its times cut to microseconds, provided that its
times have a text and its numbers have 32 bits (`Lease.ofJson?_toJson`). What was read is of that
kind (`Lease.valid_of_ofJson?`).
-/

namespace CertIssuer

open Json.Members

/-! ### Values -/

theorem Json.int32?_int {value : Json} {n : Int} (h : Json.int32? value = some n) :
    Json.int32? (.int n) = some n := by
  cases value with
  | int k =>
    have hk : k = n := by
      simp only [Json.int32?, Json.intWithin?, Option.ite_none_right_eq_some] at h
      exact Option.some.inj h.2
    rw [← hk] at h ⊢
    exact h
  | _ => cases h

theorem Json.int32?_of_bounds {n : Int} (hlow : -2147483648 ≤ n) (hhigh : n ≤ 2147483647) :
    Json.int32? (.int n) = some n := by
  simp only [Json.int32?, Json.intWithin?, hlow, hhigh, and_self, if_true]

theorem Json.bounds_of_int32? {n : Int} (h : Json.int32? (.int n) = some n) :
    -2147483648 ≤ n ∧ n ≤ 2147483647 := by
  simp only [Json.int32?, Json.intWithin?, Option.ite_none_right_eq_some] at h
  exact h.1

theorem Metadata.valid_of_time? {value : Json} {t : Timestamp}
    (h : Metadata.time? value = some t) : t.Valid := by
  cases value with
  | string s => exact Timestamp.valid_of_parse? h
  | _ => cases h

/-! ### The spec of a Lease -/

/-- A spec whose numbers and times have a text. -/
structure LeaseSpec.Valid (s : LeaseSpec) : Prop where
  acquireTime : ∀ t ∈ s.acquireTime, t.Valid
  renewTime : ∀ t ∈ s.renewTime, t.Valid
  duration : ∀ n ∈ s.leaseDurationSeconds, Json.int32? (.int n) = some n
  transitions : ∀ n ∈ s.leaseTransitions, Json.int32? (.int n) = some n

namespace LeaseSpec

/-- The spec as a Lease carries it. -/
def cut (s : LeaseSpec) : LeaseSpec :=
  { s with
    acquireTime := s.acquireTime.map Timestamp.truncateMicros
    renewTime := s.renewTime.map Timestamp.truncateMicros }

def written (s : LeaseSpec) : List (String × Option Json) := [
  ("acquireTime", s.acquireTime.map fun t => .string t.textMicros),
  ("holderIdentity", s.holderIdentity.map .string),
  ("leaseDurationSeconds", s.leaseDurationSeconds.map .int),
  ("leaseTransitions", s.leaseTransitions.map .int),
  ("renewTime", s.renewTime.map fun t => .string t.textMicros)]

theorem toJson_eq (s : LeaseSpec) : s.toJson = .object (Json.present s.written) := rfl

theorem optional_time {s : LeaseSpec} {name : String} {o : Option Timestamp}
    (hmem : (name, o.map fun t => Json.string t.textMicros) ∈ s.written)
    (h : ∀ t ∈ o, t.Valid) :
    (Json.present s.written).optional name Metadata.time? =
      some (o.map Timestamp.truncateMicros) := by
  have hfind := Json.find?_present (by simp [written]) hmem
  cases o with
  | none =>
    rw [Json.Members.optional, hfind]
    rfl
  | some t =>
    exact optional_of_some hfind (by simp) (Timestamp.parse?_textMicros (h t rfl))

theorem ofJson?_toJson {s : LeaseSpec} (h : s.Valid) : ofJson? s.toJson = some s.cut := by
  have hnodup : (s.written.map (·.1)).Nodup := by simp [written]
  have hacquired : (Json.present s.written).optional "acquireTime" Metadata.time? =
      some (s.acquireTime.map Timestamp.truncateMicros) :=
    optional_time (by simp [written]) h.acquireTime
  have hrenewed : (Json.present s.written).optional "renewTime" Metadata.time? =
      some (s.renewTime.map Timestamp.truncateMicros) :=
    optional_time (by simp [written]) h.renewTime
  have hholder : (Json.present s.written).optional "holderIdentity" Json.text? =
      some s.holderIdentity :=
    optional_present .string hnodup (by simp [written]) (fun _ => nofun) fun _ _ => rfl
  have hduration : (Json.present s.written).optional "leaseDurationSeconds" Json.int32? =
      some s.leaseDurationSeconds :=
    optional_present .int hnodup (by simp [written]) (fun _ => nofun) h.duration
  have htransitions : (Json.present s.written).optional "leaseTransitions" Json.int32? =
      some s.leaseTransitions :=
    optional_present .int hnodup (by simp [written]) (fun _ => nofun) h.transitions
  rw [toJson_eq, ofJson?]
  simp only [Json.members, Option.bind_eq_bind, Option.bind_some, hacquired, hholder, hduration,
    htransitions, hrenewed]
  rfl

theorem valid_of_ofJson? {value : Json} {s : LeaseSpec} (h : ofJson? value = some s) :
    s.Valid := by
  simp only [ofJson?, Option.bind_eq_bind, Option.bind_eq_some_iff, Option.pure_def,
    Option.some.injEq] at h
  obtain ⟨ms, -, acquired, hacquired, holder, -, duration, hduration, transitions, htransitions,
    renewed, hrenewed, rfl⟩ := h
  constructor
  · intro t ht
    obtain ⟨v, hv⟩ := exists_of_optional hacquired t ht
    exact Metadata.valid_of_time? hv
  · intro t ht
    obtain ⟨v, hv⟩ := exists_of_optional hrenewed t ht
    exact Metadata.valid_of_time? hv
  · intro n hn
    obtain ⟨v, hv⟩ := exists_of_optional hduration n hn
    exact Json.int32?_int hv
  · intro n hn
    obtain ⟨v, hv⟩ := exists_of_optional htransitions n hn
    exact Json.int32?_int hv

end LeaseSpec

/-! ### Leases -/

/-- A Lease whose spec is valid, if it has one. -/
def Lease.Valid (l : Lease) : Prop := ∀ s ∈ l.spec, s.Valid

theorem Lease.valid_of_ofJson? {value : Json} {l : Lease} (h : Lease.ofJson? value = some l) :
    l.Valid := by
  simp only [Lease.ofJson?, Option.bind_eq_bind, Option.bind_eq_some_iff, Option.pure_def,
    Option.some.injEq] at h
  obtain ⟨ms, -, _, -, _, -, metadata, -, spec, hspec, rfl⟩ := h
  intro s hs
  obtain ⟨v, hv⟩ := exists_of_optional hspec s hs
  exact LeaseSpec.valid_of_ofJson? hv

theorem Metadata.ofJson?_named (name ns : String) (version : Option String) :
    let m : Metadata := { name := some name, «namespace» := some ns, resourceVersion := version }
    Metadata.ofJson? m.toJson = some m := by
  cases version <;> rfl

/-- A Lease of a spec, named and pinned as candidates do it. -/
theorem Lease.ofJson?_toJson {name ns : String} {version : Option String} {s : LeaseSpec}
    (h : s.Valid) :
    let m : Metadata := { name := some name, «namespace» := some ns, resourceVersion := version }
    Lease.ofJson? (Lease.toJson ⟨m, some s⟩) = some ⟨m, some s.cut⟩ := by
  intro m
  let parts : List (String × Option Json) := [
    ("apiVersion", some (.string Lease.apiVersion)),
    ("kind", some (.string "Lease")),
    ("metadata", some m.toJson),
    ("spec", some s.toJson)]
  have hnodup : (parts.map (·.1)).Nodup := by simp [parts]
  have hmetadata : (Json.present parts).optional "metadata" Metadata.ofJson? = some (some m) := by
    have hfind : find? (Json.present parts) "metadata" = some (some m.toJson) :=
      Json.find?_present hnodup (by simp [parts])
    exact optional_of_some hfind nofun (Metadata.ofJson?_named name ns version)
  have hspec : (Json.present parts).optional "spec" LeaseSpec.ofJson? = some (some s.cut) := by
    have hfind : find? (Json.present parts) "spec" = some (some s.toJson) :=
      Json.find?_present hnodup (by simp [parts])
    exact optional_of_some hfind nofun (LeaseSpec.ofJson?_toJson h)
  have hversion : (Json.present parts).agrees "apiVersion" Lease.apiVersion = some () := rfl
  have hkind : (Json.present parts).agrees "kind" "Lease" = some () := rfl
  have hjson : Lease.toJson ⟨m, some s⟩ = .object (Json.present parts) := rfl
  rw [hjson, Lease.ofJson?]
  simp only [Json.members, Option.bind_eq_bind, Option.bind_some, hversion, hkind, hmetadata, hspec]
  rfl

end CertIssuer
