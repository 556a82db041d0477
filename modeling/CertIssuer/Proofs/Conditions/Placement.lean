import CertIssuer.Proofs.Conditions

/-!
# Where a condition is put

One call that sets a type: the list has one entry of the type afterwards, in the place of the first
one it had, or at the end. Nothing else moves, and the answer that nothing has changed is neither
missed nor given in error (`set_placed`).
-/

namespace CertIssuer.Conditions

theorem isSome_get? (cs : Conditions) (type : String) :
    (get? cs type).isSome = (cs.findIdx? (·.type = type)).isSome := by
  rw [List.findIdx?_isSome, Bool.eq_iff_iff, get?, List.find?_isSome, List.any_eq_true]

/-! ### Putting an entry -/

section Put

variable {cs : Conditions} {updated : Condition}

theorem getElem?_replaceFirst {i : Nat}
    (h : cs.findIdx? (·.type = updated.type) = some i) :
    (replaceFirst updated cs)[i]? = some updated := by
  induction cs generalizing i with
  | nil => cases h
  | cons c rest ih =>
    rw [List.findIdx?_cons] at h
    by_cases hc : c.type = updated.type
    · rw [if_pos (decide_eq_true hc)] at h
      cases h
      rw [replaceFirst, if_pos hc, List.getElem?_cons_zero]
    · rw [if_neg (by simpa using hc)] at h
      obtain ⟨j, hj, rfl⟩ := Option.map_eq_some_iff.mp h
      rw [replaceFirst, if_neg hc, List.getElem?_cons_succ]
      exact ih hj

theorem getElem?_put {i : Nat} (h : cs.findIdx? (·.type = updated.type) = some i) :
    (put cs updated)[i]? = some updated := by
  have hsome : (get? cs updated.type).isSome := by
    rw [isSome_get?, h]
    rfl
  rw [put, if_pos hsome]
  exact getElem?_replaceFirst h

theorem put_of_none (h : cs.findIdx? (·.type = updated.type) = none) :
    put cs updated = cs ++ [updated] := by
  have hnone : ¬ (get? cs updated.type).isSome := by
    rw [isSome_get?, h]
    exact Bool.false_ne_true
  rw [put, if_neg hnone]

end Put

/-! ### One call -/

section Set

variable (cs : Conditions) (type : String) (status : ConditionStatus) (reason message : String)
  (generation : Option Int) (now : Timestamp)

/-- After a call there is one entry of the type, in the place that the first one of the type had, or
last of all if there was none. The entries of other types are the same ones in the same order. The
call tells of no change exactly when the list is the same one. -/
theorem set_placed :
    (set cs type status reason message generation now).2.filter (·.type = type) =
      [entry cs type status reason message generation now] ∧
    (match cs.findIdx? (·.type = type) with
      | some i =>
        (set cs type status reason message generation now).2[i]? =
          some (entry cs type status reason message generation now)
      | none =>
        (set cs type status reason message generation now).2.getLast? =
          some (entry cs type status reason message generation now)) ∧
    (set cs type status reason message generation now).2.filter (·.type ≠ type) =
      cs.filter (·.type ≠ type) ∧
    ((set cs type status reason message generation now).1 = false ↔
      (set cs type status reason message generation now).2 = cs) := by
  refine ⟨filter_set_self .., ?_, ?_, ?_⟩
  · rw [set_eq_put]
    split
    · next h => exact getElem?_put h
    · next h => rw [put_of_none h, List.getLast?_concat]
  · refine filter_set_other cs type status reason message generation now fun c hc => ?_
    simpa using hc
  · rw [← Bool.not_eq_true, changed_iff, Classical.not_not]

end Set

/-- Two entries that are what is set are one too many. -/
example :
    let ready : Condition :=
      ⟨Condition.ready, .isTrue, some Reason.issued, some "done", none, some ⟨7, 0⟩⟩
    set [ready, ready] Condition.ready .isTrue Reason.issued "done" none ⟨9, 0⟩ = (true, [ready]) :=
  by decide

end CertIssuer.Conditions
