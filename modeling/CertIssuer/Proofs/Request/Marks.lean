import CertIssuer.Proofs.Conditions
import CertIssuer.Proofs.Request.Survey
import CertIssuer.Proofs.Time.Epoch
import Mathlib.Logic.Basic

/-!
# Since when a request could be signed

What stands in the way of signing goes away at certain times: the request is created, an approver
approves it, its issuer becomes ready. Not all of these are known. The budget of a request is
counted from the last one that is (`signingElapsed_eq`).
-/

namespace CertIssuer.Reconcile

variable {settings : Settings} {request : CertificateRequest} {issuer : Issuer}

/-- From a mark on, one thing less stands in the way of signing. -/
inductive Marks (settings : Settings) (request : CertificateRequest) (issuer : Issuer)
    (t : Timestamp) : Prop
  | created : request.metadata.creationTime? = some t → Marks settings request issuer t
  | approved {c : Condition} : settings.checkApproved = true →
      request.currentStatus.conditions.get? Condition.approved = some c → c.status = .isTrue →
      c.lastTransitionTime = some t → Marks settings request issuer t
  | ready {c : Condition} : issuer.status.readyCondition? = some c → c.status = .isTrue →
      c.lastTransitionTime = some t → Marks settings request issuer t

/-- The last of the marks; none when no mark is known. -/
def SignableSince (settings : Settings) (request : CertificateRequest) (issuer : Issuer) :
    Option Timestamp → Prop
  | some t => Marks settings request issuer t ∧ ∀ u, Marks settings request issuer u → u ≤ t
  | none => ∀ u, ¬ Marks settings request issuer u

section Congr

variable {request' : CertificateRequest} {issuer' : Issuer}
  (hcreated : request'.metadata.creationTime? = request.metadata.creationTime?)
  (happroved : request'.currentStatus.conditions.get? Condition.approved =
    request.currentStatus.conditions.get? Condition.approved)
  (hready : issuer'.status.readyCondition? = issuer.status.readyCondition?)

include hcreated happroved hready

theorem Marks.congr {t : Timestamp} (h : Marks settings request issuer t) :
    Marks settings request' issuer' t := by
  rcases h with ht | ⟨hcheck, hc, htrue, ht⟩ | ⟨hc, htrue, ht⟩
  · exact .created (hcreated.trans ht)
  · exact .approved hcheck (happroved.trans hc) htrue ht
  · exact .ready (hready.trans hc) htrue ht

/-- The marks are all that counts. -/
theorem SignableSince.congr {since : Option Timestamp}
    (h : SignableSince settings request issuer since) :
    SignableSince settings request' issuer' since := by
  have hback : ∀ t, Marks settings request' issuer' t → Marks settings request issuer t :=
    fun t ht => ht.congr hcreated.symm happroved.symm hready.symm
  cases since with
  | none => exact fun t ht => h t (hback t ht)
  | some since =>
    exact ⟨h.1.congr hcreated happroved hready, fun t ht => h.2 t (hback t ht)⟩

end Congr

theorem SignableSince.unique {s t : Option Timestamp} (hs : SignableSince settings request issuer s)
    (ht : SignableSince settings request issuer t) : s = t := by
  cases s with
  | none =>
    cases t with
    | none => rfl
    | some t => exact absurd ht.1 (hs t)
  | some s =>
    cases t with
    | none => exact absurd hs.1 (ht s)
    | some t => rw [Timestamp.le_antisymm (ht.2 s hs.1) (hs.2 t ht.1)]

/-- The greatest of the times that are known. -/
def IsLatest (times : List (Option Timestamp)) : Option Timestamp → Prop
  | some t => some t ∈ times ∧ ∀ u, some u ∈ times → u ≤ t
  | none => ∀ u, some u ∉ times

theorem IsLatest.mono {times times' : List (Option Timestamp)} {r : Option Timestamp}
    (h : IsLatest times r) (hsub : ∀ t, some t ∈ times → some t ∈ times')
    (hbelow : ∀ t, some t ∈ times' → ∃ u, some u ∈ times ∧ t ≤ u) : IsLatest times' r := by
  cases r with
  | none =>
    intro t ht
    obtain ⟨u, hu, -⟩ := hbelow t ht
    exact h u hu
  | some r =>
    refine ⟨hsub r h.1, fun t ht => ?_⟩
    obtain ⟨u, hu, htu⟩ := hbelow t ht
    exact Timestamp.le_trans htu (h.2 u hu)

/-- The later of two times stands for both. -/
theorem isLatest_max {s t : Timestamp} {times : List (Option Timestamp)} {r : Option Timestamp}
    (h : IsLatest (some (max s t) :: times) r) : IsLatest (some s :: some t :: times) r := by
  have hmem : ∀ u, some u ∈ some s :: some t :: times ↔ u = s ∨ u = t ∨ some u ∈ times := by
    simp
  have hmem' : ∀ u, some u ∈ some (max s t) :: times ↔ u = max s t ∨ some u ∈ times := by simp
  refine h.mono (fun u hu => (hmem u).mpr ?_) fun u hu => ?_
  · rcases (hmem' u).mp hu with rfl | hu
    · rcases Timestamp.max_cases s t with ⟨hmax, -⟩ | ⟨hmax, -⟩
      · exact .inr (.inl hmax)
      · exact .inl hmax
    · exact .inr (.inr hu)
  · rcases (hmem u).mp hu with rfl | rfl | hu
    · refine ⟨max u t, (hmem' _).mpr (.inl rfl), ?_⟩
      rcases Timestamp.max_cases u t with ⟨hmax, hle⟩ | ⟨hmax, -⟩
      · rwa [hmax]
      · rw [hmax]
        exact Timestamp.le_refl u
    · refine ⟨max s u, (hmem' _).mpr (.inl rfl), ?_⟩
      rcases Timestamp.max_cases s u with ⟨hmax, -⟩ | ⟨hmax, hle⟩
      · rw [hmax]
        exact Timestamp.le_refl u
      · rwa [hmax]
    · exact ⟨u, (hmem' u).mpr (.inr hu), Timestamp.le_refl u⟩

theorem isLatest_foldl {later : Option Timestamp → Option Timestamp → Option Timestamp}
    (hlater : ∀ best t times r, IsLatest (later best t :: times) r →
      IsLatest (best :: t :: times) r)
    (times : List (Option Timestamp)) (best : Option Timestamp) :
    IsLatest (best :: times) (times.foldl later best) := by
  -- on the times, with the latest of those before
  induction times generalizing best with
  | nil =>
    cases best with
    | none => simp [IsLatest]
    | some b => simp [IsLatest, Timestamp.le_refl]
  | cons t times ih => exact hlater best t times _ (ih (later best t))

theorem isLatest_latest (times : List (Option Timestamp)) : IsLatest times (latest times) := by
  have hfold : IsLatest (none :: times) (latest times) := by
    unfold latest
    refine isLatest_foldl (fun best t times r h => ?_) times none
    cases best with
    | none =>
      refine h.mono (fun u hu => List.mem_cons_of_mem _ hu) fun u hu => ?_
      exact ⟨u, by simpa using hu, Timestamp.le_refl u⟩
    | some b =>
      cases t with
      | none =>
        refine h.mono (fun u hu => by simpa using hu) fun u hu => ?_
        exact ⟨u, by simpa using hu, Timestamp.le_refl u⟩
      | some t => exact isLatest_max h
  refine hfold.mono (fun t ht => ?_) fun t ht => ?_
  · simpa using ht
  · exact ⟨t, by simpa using ht, Timestamp.le_refl t⟩

/-! ### The marks of a pass -/

theorem approvedAt_start {now t : Timestamp} :
    (Work.start request now).approvedAt settings = some t ↔ settings.checkApproved = true ∧
      ∃ c, request.currentStatus.conditions.get? Condition.approved = some c ∧
        c.status = .isTrue ∧ c.lastTransitionTime = some t := by
  have happroved : (Work.start request now).status.conditions.get? Condition.approved =
      request.currentStatus.conditions.get? Condition.approved := by
    simp only [Work.start]
    split
    · exact Conditions.get?_set_of_ne _ _ _ _ _ _ _ (by decide)
    · rfl
  cases hcheck : settings.checkApproved with
  | false => simp [Work.approvedAt, hcheck]
  | true =>
    simp [Work.approvedAt, hcheck, happroved, Option.bind_eq_some_iff, ite_eq_iff]

theorem readyAt_eq_some_iff {t : Timestamp} :
    readyAt issuer = some t ↔ ∃ c, issuer.status.readyCondition? = some c ∧
      c.status = .isTrue ∧ c.lastTransitionTime = some t := by
  simp [readyAt, Option.bind_eq_some_iff, ite_eq_iff]

theorem signableSince_latest (settings : Settings) (request : CertificateRequest)
    (issuer : Issuer) (now : Timestamp) :
    SignableSince settings request issuer
      (latest [request.metadata.creationTime?, (Work.start request now).approvedAt settings,
        readyAt issuer]) := by
  have hmarks : ∀ t, Marks settings request issuer t ↔
      some t ∈ [request.metadata.creationTime?, (Work.start request now).approvedAt settings,
        readyAt issuer] := by
    intro t
    simp only [List.mem_cons, List.not_mem_nil, or_false]
    constructor
    · rintro (hcreated | ⟨hcheck, hc, htrue, ht⟩ | ⟨hc, htrue, ht⟩)
      · exact .inl hcreated.symm
      · exact .inr (.inl (approvedAt_start.mpr ⟨hcheck, _, hc, htrue, ht⟩).symm)
      · exact .inr (.inr (readyAt_eq_some_iff.mpr ⟨_, hc, htrue, ht⟩).symm)
    · rintro (hcreated | happroved | hready)
      · exact .created hcreated.symm
      · obtain ⟨hcheck, c, hc, htrue, ht⟩ := approvedAt_start.mp happroved.symm
        exact .approved hcheck hc htrue ht
      · obtain ⟨c, hc, htrue, ht⟩ := readyAt_eq_some_iff.mp hready.symm
        exact .ready hc htrue ht
  have hlatest := isLatest_latest [request.metadata.creationTime?,
    (Work.start request now).approvedAt settings, readyAt issuer]
  revert hlatest
  cases latest _ with
  | none => exact fun hlatest t ht => hlatest t ((hmarks t).mp ht)
  | some t =>
    exact fun hlatest => ⟨(hmarks t).mpr hlatest.1, fun u hu => hlatest.2 u ((hmarks u).mp hu)⟩

theorem exists_signableSince (settings : Settings) (issuer : Issuer)
    (hcreated : request.metadata.creationTime? ≠ none) :
    ∃ t, SignableSince settings request issuer (some t) := by
  obtain ⟨u, hu⟩ := Option.ne_none_iff_exists'.mp hcreated
  have hsince := signableSince_latest settings request issuer u
  revert hsince
  cases latest _ with
  | none => exact fun hnone => absurd (.created hu) (hnone u)
  | some t => exact fun ht => ⟨t, ht⟩

theorem signingElapsed_eq {now : Timestamp} {since : Option Timestamp}
    (h : SignableSince settings request issuer since) :
    (Work.start request now).signingElapsed settings issuer = now.elapsedSince since := by
  have hnow : (Work.start request now).now = now := by
    simp only [Work.start]
    split <;> rfl
  rw [h.unique (signableSince_latest settings request issuer now), Work.signingElapsed,
    start_request, hnow]

end CertIssuer.Reconcile
