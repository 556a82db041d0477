import CertIssuer.Election.Leadership
import Mathlib.Data.List.Infix

/-!
# The notice of lost leadership

The publisher of the value and the reader take their turns in any order. The reader reports the loss
of leadership only after it has seen `false` or found the publisher gone, and while one of these is
so it is not left waiting (`loss_noticed`). The invariant is that a reader that waits has seen no
other value than `true`: what it has not seen yet ends its wait.
-/

namespace CertIssuer.Election

open Reader

/-- A turn of the publisher or of the reader. -/
inductive Reader.Turn where
  | publish (act : Publish)
  | read
  deriving DecidableEq

/-- The reader and the cell after a turn. -/
def Reader.Turn.take (state : Reader × Cell) : Turn → Reader × Cell
  | .publish act => (state.1, state.2.publish act)
  | .read => state.1.step state.2

/-- The reader and the cell after some turns. -/
def course (state : Reader × Cell) (turns : List Turn) : Reader × Cell := turns.foldl Turn.take state

/-- The value is `false`, or the publisher is gone. -/
def Cell.Lost (c : Cell) : Prop := c.value = false ∨ c.open = false

/-- The next turn of the reader is a look at `false`, or finds the publisher gone with nothing left
to see. -/
def Learns : Reader × Cell → Prop
  | (.looking, c) => c.value = false
  | (.waiting, c) => c.seen = true ∧ c.open = false
  | (.finished, _) => False

/-- A reader that waits has seen `true`, or has not seen the value. -/
def Alert (state : Reader × Cell) : Prop :=
  state.1 = .waiting → state.2.seen = true → state.2.value = true

variable {state : Reader × Cell} {turns more : List Turn}

theorem course_append (state : Reader × Cell) (turns more : List Turn) :
    course state (turns ++ more) = course (course state turns) more :=
  List.foldl_append

theorem Learns.lost (h : Learns state) : state.2.Lost := by
  obtain ⟨r, c⟩ := state
  cases r with
  | looking => exact .inl h
  | waiting => exact .inr h.2
  | finished => exact h.elim

/-! ### Single turns -/

theorem step_eq_finished_iff (state : Reader × Cell) :
    (state.1.step state.2).1 = .finished ↔ state.1 = .finished ∨ Learns state := by
  obtain ⟨r, ⟨value, seen, isOpen⟩⟩ := state
  cases r with
  | looking => cases value <;> simp [Reader.step, Learns]
  | waiting => cases seen <;> cases isOpen <;> simp [Reader.step, Learns]
  | finished => simp [Reader.step]

theorem take_eq_finished_iff (state : Reader × Cell) (t : Turn) :
    (t.take state).1 = .finished ↔ state.1 = .finished ∨ t = .read ∧ Learns state := by
  cases t with
  | publish act => simp [Turn.take]
  | read => simp [Turn.take, step_eq_finished_iff]

theorem alert_looking (c : Cell) : Alert (.looking, c) := by
  intro hwaiting
  cases hwaiting

theorem Alert.take (h : Alert state) (t : Turn) : Alert (t.take state) := by
  obtain ⟨r, ⟨value, seen, isOpen⟩⟩ := state
  cases t with
  | publish act =>
    intro hwaiting hseen
    cases act with
    | send v =>
      cases isOpen with
      | true => cases hseen
      | false => exact h hwaiting hseen
    | close => exact h hwaiting hseen
  | read =>
    intro hwaiting hseen
    cases r with
    | looking => cases value <;> simp_all [Turn.take, Reader.step]
    | waiting => cases seen <;> cases isOpen <;> simp_all [Turn.take, Reader.step, Alert]
    | finished => cases hwaiting

/-- The turns that the reader needs at most to report a loss. -/
def due : Reader × Cell → Nat
  | (.looking, c) => if c.value then 2 else 1
  | (.waiting, c) => if c.seen then 1 else if c.value then 3 else 2
  | (.finished, _) => 0

theorem due_le (state : Reader × Cell) : due state ≤ 3 := by
  obtain ⟨r, ⟨value, seen, isOpen⟩⟩ := state
  cases r with
  | looking => cases value <;> simp [due]
  | waiting => cases seen <;> cases value <;> simp [due]
  | finished => exact Nat.zero_le 3

theorem finished_of_due (h : due state = 0) : state.1 = .finished := by
  obtain ⟨r, ⟨value, seen, isOpen⟩⟩ := state
  cases r with
  | looking => cases value <;> cases h
  | waiting => cases seen <;> cases value <;> cases h
  | finished => rfl

theorem due_read (halert : Alert state) (hlost : state.2.Lost) :
    due (Turn.read.take state) ≤ due state - 1 := by
  obtain ⟨r, ⟨value, seen, isOpen⟩⟩ := state
  cases r with
  | looking => cases value <;> simp [Turn.take, Reader.step, due]
  | waiting =>
    cases seen with
    | false => cases value <;> simp [Turn.take, Reader.step, due]
    | true =>
      -- a wait for what has been seen already goes on only while the publisher is there
      have hvalue : value = true := halert rfl rfl
      have hgone : isOpen = false := by
        rcases hlost with hfalse | hgone
        · exact absurd (hfalse.symm.trans hvalue) (by decide)
        · exact hgone
      simp [Turn.take, Reader.step, due, hgone]
  | finished => exact Nat.le_refl 0

/-- The publisher does not delay the report of a loss unless it takes the loss back. -/
theorem due_publish {act : Publish} (halert : Alert state) (hlost : state.2.Lost)
    (hstill : (state.2.publish act).Lost) : due ((Turn.publish act).take state) ≤ due state := by
  obtain ⟨r, ⟨value, seen, isOpen⟩⟩ := state
  cases act with
  | close => cases r <;> exact Nat.le_refl _
  | send v =>
    cases isOpen with
    | false => exact Nat.le_refl _
    | true =>
      have hvalue : value = false := hlost.resolve_right (by simp)
      have hv : v = false := hstill.resolve_right (by simp [Cell.publish])
      subst hvalue hv
      cases r with
      | looking | finished => exact Nat.le_refl _
      | waiting =>
        cases seen with
        | false => exact Nat.le_refl _
        | true => exact absurd (halert rfl rfl) (by decide)

/-! ### Courses of turns -/

theorem Alert.course (h : Alert state) (turns : List Turn) : Alert (course state turns) := by
  induction turns generalizing state with
  | nil => exact h
  | cons t turns ih => exact ih (h.take t)

theorem course_finished (h : state.1 = .finished) (turns : List Turn) :
    (course state turns).1 = .finished := by
  induction turns generalizing state with
  | nil => exact h
  | cons t turns ih => exact ih ((take_eq_finished_iff state t).mpr (.inl h))

/-- The reader has reported the loss exactly after a turn in which it learnt of it. -/
theorem course_eq_finished_iff (hstart : state.1 ≠ .finished) (turns : List Turn) :
    (course state turns).1 = .finished ↔
      ∃ before after, turns = before ++ .read :: after ∧ Learns (course state before) := by
  constructor
  · intro h
    induction turns generalizing state with
    | nil => exact absurd h hstart
    | cons t turns ih =>
      by_cases htaken : (t.take state).1 = .finished
      · obtain ⟨rfl, hlearns⟩ := ((take_eq_finished_iff state t).mp htaken).resolve_left hstart
        exact ⟨[], turns, rfl, hlearns⟩
      · obtain ⟨before, after, rfl, hlearns⟩ := ih htaken h
        exact ⟨t :: before, after, rfl, hlearns⟩
  · rintro ⟨before, after, rfl, hlearns⟩
    rw [course_append]
    exact course_finished ((take_eq_finished_iff _ .read).mpr (.inr ⟨rfl, hlearns⟩)) after

theorem due_course (halert : Alert state)
    (hlost : ∀ front, front <+: more → (course state front).2.Lost) :
    due (course state more) ≤ due state - more.count .read := by
  induction more generalizing state with
  | nil => exact Nat.le_refl _
  | cons t more ih =>
    have hnow : state.2.Lost := hlost [] List.nil_prefix
    have hnext : (t.take state).2.Lost := hlost [t] ⟨more, rfl⟩
    have hrest : due (course (t.take state) more) ≤ due (t.take state) - more.count .read := by
      apply ih (halert.take t)
      intro front hfront
      exact hlost (t :: front) (List.cons_prefix_cons.mpr ⟨rfl, hfront⟩)
    have hcourse : course state (t :: more) = course (t.take state) more := rfl
    rw [hcourse]
    cases t with
    | publish act =>
      have hpublish := due_publish halert hnow hnext
      rw [List.count_cons_of_ne (by simp)]
      omega
    | read =>
      have hread := due_read halert hnow
      rw [List.count_cons_self]
      omega

theorem course_of_lost (halert : Alert state)
    (hlost : ∀ front, front <+: more → (course state front).2.Lost)
    (hturns : 3 ≤ more.count .read) : (course state more).1 = .finished := by
  have hdue := due_course halert hlost
  have hbound := due_le state
  exact finished_of_due (by omega)

theorem step_ne_waiting (halert : Alert state) (hwaiting : state.1 = .waiting)
    (hlost : state.2.Lost) : (state.1.step state.2).1 ≠ .waiting := by
  obtain ⟨r, ⟨value, seen, isOpen⟩⟩ := state
  obtain rfl : r = .waiting := hwaiting
  cases seen with
  | false => simp [Reader.step]
  | true =>
    have hvalue : value = true := halert rfl rfl
    have hgone : isOpen = false := hlost.resolve_left (by simp [hvalue])
    simp [Reader.step, hgone]

/-- The reader reports the loss of leadership exactly after a turn in which it saw `false` or found
the publisher gone. Where one of these is so its wait ends with its next turn, and when it stays so
the third of its turns at the latest brings the report. -/
theorem loss_noticed (c : Cell) (turns : List Turn) :
    let state := course (.looking, c) turns
    (state.1 = .finished ↔ ∃ before after, turns = before ++ .read :: after ∧
      Learns (course (.looking, c) before)) ∧
    (state.1 = .waiting → state.2.Lost → (state.1.step state.2).1 ≠ .waiting) ∧
    ∀ more, (∀ front, front <+: more → (course state front).2.Lost) → 3 ≤ more.count .read →
      (course state more).1 = .finished := by
  intro state
  have halert : Alert state := (alert_looking c).course turns
  have hlooking : Reader.looking ≠ .finished := by decide
  exact ⟨course_eq_finished_iff hlooking turns, step_ne_waiting halert,
    fun more => course_of_lost halert⟩

/-- A `false` that is sent between a look and the wait after it is noticed. -/
theorem loss_noticed_between :
    (course (.looking, .start true)
      [.read, .publish (.send false), .read, .publish .close, .read, .read]).1 = .finished := by
  obtain ⟨-, -, hreport⟩ := loss_noticed (.start true) [.read, .publish (.send false)]
  refine hreport [.read, .publish .close, .read, .read] (fun front hfront => ?_) (by decide)
  have hfronts : ∀ front ∈ List.inits [Turn.read, .publish .close, .read, .read],
      (course (course (.looking, .start true) [.read, .publish (.send false)]) front).2.value =
        false := by decide
  exact .inl (hfronts front ((List.mem_inits _ _).mpr hfront))

/-! ### A prompt reader -/

/-- What the publisher does in some turns. -/
def published : List Turn → List Publish
  | [] => []
  | .publish act :: turns => act :: published turns
  | .read :: turns => published turns

/-- Two cells with the same value and the same publisher. -/
def Cell.Same (c d : Cell) : Prop := c.value = d.value ∧ c.open = d.open

theorem Cell.Same.publish {c d : Cell} (h : c.Same d) (act : Publish) :
    (c.publish act).Same (d.publish act) := by
  obtain ⟨hvalue, hopen⟩ := h
  cases act with
  | send v => cases hd : d.open <;> simp_all [Cell.publish, Cell.Same]
  | close => exact ⟨hvalue, rfl⟩

theorem step_same (r : Reader) (c : Cell) : (r.step c).2.Same c := by
  obtain ⟨value, seen, isOpen⟩ := c
  cases r with
  | looking => cases value <;> exact ⟨rfl, rfl⟩
  | waiting => cases seen <;> cases isOpen <;> exact ⟨rfl, rfl⟩
  | finished => exact ⟨rfl, rfl⟩

/-- The reader has no part in the value. -/
theorem course_same {d : Cell} (h : state.2.Same d) (turns : List Turn) :
    (course state turns).2.Same ((published turns).foldl Cell.publish d) := by
  induction turns generalizing state d with
  | nil => exact h
  | cons t turns ih =>
    cases t with
    | publish act => exact ih (h.publish act)
    | read =>
      have hstep := step_same state.1 state.2
      exact ih ⟨hstep.1.trans h.1, hstep.2.trans h.2⟩

theorem published_append (turns more : List Turn) :
    published (turns ++ more) = published turns ++ published more := by
  induction turns with
  | nil => rfl
  | cons t turns ih =>
    cases t with
    | publish act => exact congrArg (act :: ·) ih
    | read => exact ih

theorem Cell.Same.lost {c d : Cell} (h : c.Same d) (hlost : d.Lost) : c.Lost :=
  hlost.imp h.1.trans h.2.trans

theorem Cell.Same.symm {c d : Cell} (h : c.Same d) : d.Same c := ⟨h.1.symm, h.2.symm⟩

/-- The turns in which a reader settles. -/
def settling : List Turn := List.replicate 4 .read

/-- Turns in which the reader settles first and after each act of the publisher. -/
def promptly (acts : List Publish) : List Turn :=
  settling ++ acts.flatMap fun act => .publish act :: settling

theorem follow_eq_course (state : Reader × Cell) (acts : List Publish) :
    Reader.follow state acts =
      course state (acts.flatMap fun act => .publish act :: settling) := by
  induction acts generalizing state with
  | nil => rfl
  | cons act acts ih =>
    rw [List.flatMap_cons, course_append, Reader.follow]
    exact ih _

theorem published_promptly (acts : List Publish) : published (promptly acts) = acts := by
  have hsettling : published settling = [] := rfl
  rw [promptly, published_append, hsettling, List.nil_append]
  induction acts with
  | nil => rfl
  | cons act acts ih =>
    rw [List.flatMap_cons, published_append, ih]
    rfl

theorem promptly_append (acts more : List Publish) :
    promptly (acts ++ more) =
      promptly acts ++ more.flatMap fun act => .publish act :: settling := by
  rw [promptly, promptly, List.flatMap_append, List.append_assoc]

theorem course_settling (halert : Alert state) (hlost : state.2.Lost) :
    (course state settling).1 = .finished := by
  refine course_of_lost halert (fun front hfront => ?_) (by decide)
  obtain ⟨rest, hrest⟩ := hfront
  have hnone : published front ++ published rest = [] := by
    rw [← published_append, hrest]
    rfl
  have hsame : (course state front).2.Same ((published front).foldl Cell.publish state.2) :=
    course_same ⟨rfl, rfl⟩ front
  rw [(List.append_eq_nil_iff.mp hnone).1] at hsame
  exact hsame.lost hlost

/-- The reader has settled by the time it learns of the next act. -/
theorem course_promptly {c : Cell} {acts : List Publish}
    (hlost : (acts.foldl Cell.publish c).Lost) :
    (course (.looking, c) (promptly acts)).1 = .finished := by
  rcases List.eq_nil_or_concat' acts with rfl | ⟨front, act, rfl⟩
  · exact course_settling (alert_looking c) hlost
  · have hturns : promptly (front ++ [act]) =
        (promptly front ++ [.publish act]) ++ settling := by
      rw [promptly_append, List.append_assoc]
      rfl
    have hsame : (course (.looking, c) (promptly front ++ [.publish act])).2.Same
        ((published (promptly front ++ [.publish act])).foldl Cell.publish c) :=
      course_same ⟨rfl, rfl⟩ _
    rw [published_append, published_promptly] at hsame
    rw [hturns, course_append]
    exact course_settling ((alert_looking c).course _) (hsame.lost hlost)

/-- A reader that settles between the publisher's acts reports a loss of leadership exactly when the
value was `false` at first or after one of the acts, or the publisher has gone. -/
theorem reportsLoss_iff (initial : Bool) (acts : List Publish) :
    reportsLoss initial acts = true ↔
      ∃ front, front <+: acts ∧ (front.foldl Cell.publish (.start initial)).Lost := by
  have hreports : reportsLoss initial acts = true ↔
      (course (.looking, .start initial) (promptly acts)).1 = .finished := by
    rw [reportsLoss, decide_eq_true_iff, follow_eq_course, promptly, course_append]
    rfl
  rw [hreports]
  constructor
  · intro h
    have hlooking : Reader.looking ≠ .finished := by decide
    obtain ⟨before, after, hturns, hlearns⟩ := (course_eq_finished_iff hlooking _).mp h
    refine ⟨published before, ⟨published (.read :: after), ?_⟩, ?_⟩
    · rw [← published_append, ← hturns, published_promptly]
    · exact (course_same ⟨rfl, rfl⟩ before).symm.lost hlearns.lost
  · rintro ⟨front, ⟨rest, rfl⟩, hlost⟩
    rw [promptly_append, course_append]
    exact course_finished (course_promptly hlost) _

end CertIssuer.Election
