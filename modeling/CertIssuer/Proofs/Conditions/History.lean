import CertIssuer.Proofs.Conditions

/-!
# Conditions set again and again

A list of conditions after calls for types of all kinds. Each type goes its own way: what stands for
it follows from the calls for it alone (`filter_setAll`). These end in a run of one status, and the
transition time is that of the first call of the run, however the other calls lie in between. Only a
run that goes back to the very first call may go on from a time that was recorded before
(`set_history`).
-/

namespace CertIssuer.Conditions

/-- A call that sets a type. -/
structure Update where
  type : String
  status : ConditionStatus
  reason : String
  message : String
  generation : Option Int
  now : Timestamp
  deriving DecidableEq, Repr

namespace Update

def apply (u : Update) (cs : Conditions) : Conditions :=
  (set cs u.type u.status u.reason u.message u.generation u.now).2

/-- The entry that a call leaves, with a transition time. -/
def entryAt (u : Update) (transition : Timestamp) : Condition where
  type := u.type
  status := u.status
  reason := some u.reason
  message := some u.message
  observedGeneration := u.generation
  lastTransitionTime := some transition

end Update

/-- The list after some calls, the first of them first. -/
def setAll (cs : Conditions) (history : List Update) : Conditions :=
  history.foldl (fun cs u => u.apply cs) cs

/-! ### One call -/

section Call

variable {cs cs' : Conditions} {u : Update} {type : String} {status : ConditionStatus}

theorem filter_apply_self (cs : Conditions) (u : Update) :
    (u.apply cs).filter (·.type = u.type) =
      [u.entryAt (transitionTime cs u.type u.status u.now)] :=
  filter_set_self cs u.type u.status u.reason u.message u.generation u.now

theorem filter_apply_other {p : Condition → Bool} (cs : Conditions)
    (hp : ∀ c : Condition, c.type = u.type → p c = false) : (u.apply cs).filter p = cs.filter p :=
  filter_set_other cs u.type u.status u.reason u.message u.generation u.now hp

theorem transitionTime_congr (h : cs.filter (·.type = type) = cs'.filter (·.type = type))
    (now : Timestamp) : transitionTime cs type status now = transitionTime cs' type status now := by
  simp only [transitionTime, get?_eq_head?, h]

/-- What a call leaves of a type depends on what stood for that type. -/
theorem filter_apply_congr (h : cs.filter (·.type = type) = cs'.filter (·.type = type))
    (u : Update) : (u.apply cs).filter (·.type = type) = (u.apply cs').filter (·.type = type) := by
  by_cases htype : u.type = type
  · subst htype
    rw [filter_apply_self, filter_apply_self, transitionTime_congr h]
  · have hother : ∀ c : Condition, c.type = u.type → decide (c.type = type) = false := by
      intro c hc
      exact decide_eq_false (hc ▸ htype)
    rw [filter_apply_other cs hother, filter_apply_other cs' hother, h]

/-- The transition time that was recorded for a type, if it has the status already. -/
def recordedTime? (cs : Conditions) (type : String) (status : ConditionStatus) :
    Option Timestamp :=
  (get? cs type).bind fun c => if c.status = status then c.lastTransitionTime else none

theorem transitionTime_eq_recorded (cs : Conditions) (type : String) (status : ConditionStatus)
    (now : Timestamp) :
    transitionTime cs type status now = (recordedTime? cs type status).getD now := by
  unfold transitionTime recordedTime?
  cases get? cs type with
  | none => rfl
  | some c =>
    by_cases hstatus : c.status = status
    · simp [hstatus]
    · simp [hstatus]

theorem recordedTime?_of_filter {c : Condition} (h : cs.filter (·.type = type) = [c]) :
    recordedTime? cs type status = if c.status = status then c.lastTransitionTime else none := by
  rw [recordedTime?, get?_eq_head?, h]
  rfl

end Call

/-! ### Many calls -/

section Calls

variable {cs cs' : Conditions} {type : String}

theorem setAll_cons (cs : Conditions) (u : Update) (history : List Update) :
    setAll cs (u :: history) = setAll (u.apply cs) history :=
  rfl

theorem setAll_append (cs : Conditions) (first second : List Update) :
    setAll cs (first ++ second) = setAll (setAll cs first) second :=
  List.foldl_append

theorem filter_setAll_congr (history : List Update)
    (h : cs.filter (·.type = type) = cs'.filter (·.type = type)) :
    (setAll cs history).filter (·.type = type) = (setAll cs' history).filter (·.type = type) := by
  induction history generalizing cs cs' with
  | nil => exact h
  | cons u history ih => exact ih (filter_apply_congr h u)

/-- What stands for a type follows from the calls for it alone. -/
theorem filter_setAll (cs : Conditions) (history : List Update) (type : String) :
    (setAll cs history).filter (·.type = type) =
      (setAll cs (history.filter (·.type = type))).filter (·.type = type) := by
  induction history generalizing cs with
  | nil => rfl
  | cons u history ih =>
    by_cases htype : u.type = type
    · rw [List.filter_cons_of_pos (by simpa using htype)]
      exact ih (u.apply cs)
    · rw [List.filter_cons_of_neg (by simpa using htype), ← ih cs]
      refine filter_setAll_congr history (filter_apply_other cs fun c hc => ?_)
      exact decide_eq_false (hc ▸ htype)

/-- Entries of types that are not set stay, and in their order. -/
theorem filter_setAll_unset (cs : Conditions) {history : List Update} {p : Condition → Bool}
    (hp : ∀ u ∈ history, ∀ c : Condition, c.type = u.type → p c = false) :
    (setAll cs history).filter p = cs.filter p := by
  induction history generalizing cs with
  | nil => rfl
  | cons u history ih =>
    obtain ⟨hu, hrest⟩ := List.forall_mem_cons.mp hp
    exact (ih (u.apply cs) hrest).trans (filter_apply_other cs hu)

/-- As long as the status stays, so does the transition time. -/
theorem filter_setAll_run {first : Update} {rest : List Update} {time : Timestamp}
    (h : cs.filter (·.type = first.type) = [first.entryAt time])
    (hrest : ∀ u ∈ rest, u.type = first.type ∧ u.status = first.status) :
    (setAll cs rest).filter (·.type = first.type) =
      [((first :: rest).getLast (List.cons_ne_nil first rest)).entryAt time] := by
  induction rest generalizing cs first with
  | nil => exact h
  | cons u rest ih =>
    obtain ⟨⟨htype, hstatus⟩, hlater⟩ := List.forall_mem_cons.mp hrest
    have hkept : transitionTime cs u.type u.status u.now = time := by
      have hentry : (first.entryAt time).status = u.status := hstatus.symm
      rw [htype, transitionTime_eq_recorded, recordedTime?_of_filter h, if_pos hentry]
      rfl
    have hu : (u.apply cs).filter (·.type = u.type) = [u.entryAt time] := by
      rw [filter_apply_self, hkept]
    rw [List.getLast_cons (List.cons_ne_nil u rest), ← htype]
    refine ih hu fun t ht => ?_
    rw [htype, hstatus]
    exact hlater t ht

end Calls

/-! ### The last run of one status -/

/-- Calls end in a run of one status: it begins with a call, and the call before has another. -/
structure EndsInRun (calls earlier : List Update) (start : Update) (rest : List Update) :
    Prop where
  parts : calls = earlier ++ start :: rest
  same : ∀ u ∈ rest, u.status = start.status
  begins : ∀ u ∈ earlier.getLast?, u.status ≠ start.status

theorem exists_endsInRun {calls : List Update} (h : calls ≠ []) :
    ∃ earlier start rest, EndsInRun calls earlier start rest := by
  induction calls with
  | nil => exact absurd rfl h
  | cons u calls ih =>
    by_cases hnil : calls = []
    · subst hnil
      exact ⟨[], u, [], rfl, List.forall_mem_nil _, nofun⟩
    · obtain ⟨earlier, start, rest, rfl, hsame, hbegins⟩ := ih hnil
      cases earlier with
      | cons t earlier =>
        refine ⟨u :: t :: earlier, start, rest, rfl, hsame, fun v hv => hbegins v ?_⟩
        rwa [List.getLast?_cons_cons] at hv
      | nil =>
        by_cases hstatus : start.status = u.status
        · refine ⟨[], u, start :: rest, rfl, List.forall_mem_cons.mpr ⟨hstatus, ?_⟩, nofun⟩
          exact fun t ht => (hsame t ht).trans hstatus
        · refine ⟨[u], start, rest, rfl, hsame, fun t ht => ?_⟩
          cases ht
          exact Ne.symm hstatus

/-- The time from which a run counts: the one recorded before it if nothing else came before, and
otherwise that of its first call. -/
def runStart (cs : Conditions) (earlier : List Update) (start : Update) : Timestamp :=
  if earlier = [] then (recordedTime? cs start.type start.status).getD start.now else start.now

theorem transitionTime_setAll {cs : Conditions} {earlier : List Update} {start : Update}
    (htypes : ∀ u ∈ earlier, u.type = start.type)
    (hbegins : ∀ u ∈ earlier.getLast?, u.status ≠ start.status) :
    transitionTime (setAll cs earlier) start.type start.status start.now =
      runStart cs earlier start := by
  rw [transitionTime_eq_recorded]
  rcases List.eq_nil_or_concat earlier with rfl | ⟨before, last, rfl⟩
  · rfl
  · have hlast : last.type = start.type := htypes last (by simp)
    have hother : last.status ≠ start.status := hbegins last (by simp)
    have hstands := filter_apply_self (setAll cs before) last
    rw [hlast] at hstands
    rw [List.concat_eq_append, setAll_append]
    have hnone : recordedTime? (setAll (setAll cs before) [last]) start.type start.status = none :=
      (recordedTime?_of_filter hstands).trans (if_neg hother)
    rw [hnone, runStart, if_neg (by simp), Option.getD_none]

/-- After any calls, each type that was set has one entry, as the last call for it has left it. It
counts from the start of the last run of one status in the calls for the type. All entries of other
types stay. -/
theorem set_history (cs : Conditions) (history : List Update) :
    (∀ type ∈ history.map Update.type, ∃ earlier start rest,
      EndsInRun (history.filter (·.type = type)) earlier start rest ∧
      (setAll cs history).filter (·.type = type) =
        [((start :: rest).getLast (List.cons_ne_nil start rest)).entryAt
          (runStart cs earlier start)]) ∧
    (setAll cs history).filter (·.type ∉ history.map Update.type) =
      cs.filter (·.type ∉ history.map Update.type) := by
  constructor
  · intro type hset
    obtain ⟨u, hu, rfl⟩ := List.mem_map.mp hset
    have hcalls : history.filter (·.type = u.type) ≠ [] :=
      List.ne_nil_of_mem (List.mem_filter.mpr ⟨hu, by simp⟩)
    obtain ⟨earlier, start, rest, hrun⟩ := exists_endsInRun hcalls
    refine ⟨earlier, start, rest, hrun, ?_⟩
    have htypes : ∀ t ∈ earlier ++ start :: rest, t.type = u.type := by
      intro t ht
      rw [← hrun.parts] at ht
      simpa using (List.mem_filter.mp ht).2
    have hstart : start.type = u.type := htypes start (by simp)
    have hbegun : (start.apply (setAll cs earlier)).filter (·.type = start.type) =
        [start.entryAt (runStart cs earlier start)] := by
      rw [filter_apply_self, transitionTime_setAll _ hrun.begins]
      exact fun t ht => (htypes t (List.mem_append_left _ ht)).trans hstart.symm
    rw [filter_setAll, hrun.parts, setAll_append, setAll_cons, ← hstart]
    refine filter_setAll_run hbegun fun t ht => ⟨?_, hrun.same t ht⟩
    exact (htypes t (List.mem_append_right _ (List.mem_cons_of_mem _ ht))).trans hstart.symm
  · refine filter_setAll_unset cs fun u hu c hc => ?_
    have hset : c.type ∈ history.map Update.type := List.mem_map.mpr ⟨u, hu, hc.symm⟩
    simpa using hset

/-! ### A history of two types -/

/-- Two conditions of each of two types. -/
def doubledConditions : Conditions := [
  { type := Condition.ready, status := .isFalse, lastTransitionTime := some ⟨3, 0⟩ },
  { type := "Reviewed", status := .unknown },
  { type := Condition.ready, status := .isTrue },
  { type := "Reviewed", status := .isTrue }]

def deniedHistory : List Update := [
  ⟨Condition.ready, .isFalse, Reason.pending, "waiting", none, ⟨10, 0⟩⟩,
  ⟨Condition.denied, .isTrue, "policy", "refused", none, ⟨11, 0⟩⟩,
  ⟨Condition.ready, .isFalse, Reason.denied, "refused", none, ⟨12, 0⟩⟩,
  ⟨Condition.denied, .isFalse, "policy", "reviewed", none, ⟨13, 0⟩⟩,
  ⟨Condition.denied, .isFalse, "policy", "allowed", none, ⟨14, 0⟩⟩]

/-- `Ready` goes on from the time that was recorded, and `Denied` counts from its change. -/
theorem set_history_denied :
    (∃ earlier start rest,
      EndsInRun (deniedHistory.filter (·.type = Condition.ready)) earlier start rest ∧
      runStart doubledConditions earlier start = ⟨3, 0⟩) ∧
    (∃ earlier start rest,
      EndsInRun (deniedHistory.filter (·.type = Condition.denied)) earlier start rest ∧
      runStart doubledConditions earlier start = ⟨13, 0⟩) := by
  obtain ⟨hset, -⟩ := set_history doubledConditions deniedHistory
  constructor
  · obtain ⟨earlier, start, rest, hrun, hstands⟩ := hset Condition.ready (by decide)
    have hready : (setAll doubledConditions deniedHistory).filter (·.type = Condition.ready) =
        [Update.entryAt ⟨Condition.ready, .isFalse, Reason.denied, "refused", none, ⟨12, 0⟩⟩
          ⟨3, 0⟩] := by decide
    rw [hready, List.singleton_inj] at hstands
    have htime := congrArg Condition.lastTransitionTime hstands.symm
    exact ⟨earlier, start, rest, hrun, Option.some.inj htime⟩
  · obtain ⟨earlier, start, rest, hrun, hstands⟩ := hset Condition.denied (by decide)
    have hdenied : (setAll doubledConditions deniedHistory).filter (·.type = Condition.denied) =
        [Update.entryAt ⟨Condition.denied, .isFalse, "policy", "allowed", none, ⟨14, 0⟩⟩
          ⟨13, 0⟩] := by decide
    rw [hdenied, List.singleton_inj] at hstands
    have htime := congrArg Condition.lastTransitionTime hstands.symm
    exact ⟨earlier, start, rest, hrun, Option.some.inj htime⟩

end CertIssuer.Conditions
