import CertIssuer.Proofs.Dialogue.Interference
import Mathlib.Logic.Function.Basic

/-!
# Many dialogues over one state

Any number of dialogues under way at once, one for each index, whose questions are answered from a
state that they share. Each step belongs to one dialogue, or to nobody.

What the owner of an index may do to the state is a guarantee. Every dialogue is held among the
guaranteed steps of the others, so it is enough to look at the dialogues one by one: when each that
opens secures its guarantee, every run is sound (`Manners.run_sound`).
-/

namespace CertIssuer.Dialogue

variable {ι Question : Type} {Answer : Question → Type} {σ α : Type}

/-- How dialogues are answered, opened and closed, and what happens besides. -/
structure Manners (ι Question : Type) (Answer : Question → Type) (α σ : Type) where
  answers : ι → σ → (q : Question) → Answer q → σ → Prop
  opens : ι → σ → Dialogue Question Answer α → σ → Prop
  closes : ι → σ → α → σ → Prop
  moves : σ → σ → Prop

/-- A state and the dialogues that are under way. -/
structure Crowd (ι Question : Type) (Answer : Question → Type) (α σ : Type) where
  state : σ
  talks : ι → Option (Dialogue Question Answer α) := fun _ => none

namespace Manners

variable [DecidableEq ι] (m : Manners ι Question Answer α σ)

inductive Step : Crowd ι Question Answer α σ → Crowd ι Question Answer α σ → Prop
  | start {s t : σ} {talks : ι → Option (Dialogue Question Answer α)} {i : ι}
      {d : Dialogue Question Answer α} :
      talks i = none → m.opens i s d t → Step ⟨s, talks⟩ ⟨t, Function.update talks i (some d)⟩
  | hear {s t : σ} {talks : ι → Option (Dialogue Question Answer α)} {i : ι} {q : Question}
      {next : Answer q → Dialogue Question Answer α} {a : Answer q} :
      talks i = some (ask q next) → m.answers i s q a t →
        Step ⟨s, talks⟩ ⟨t, Function.update talks i (some (next a))⟩
  | finish {s t : σ} {talks : ι → Option (Dialogue Question Answer α)} {i : ι} {a : α} :
      talks i = some (done a) → m.closes i s a t →
        Step ⟨s, talks⟩ ⟨t, Function.update talks i none⟩
  | move {s t : σ} {talks : ι → Option (Dialogue Question Answer α)} :
      m.moves s t → Step ⟨s, talks⟩ ⟨t, talks⟩

abbrev Run : Crowd ι Question Answer α σ → Crowd ι Question Answer α σ → Prop :=
  Relation.ReflTransGen m.Step

/-! ### Soundness -/

variable (G : ι → σ → σ → Prop) (I : σ → Prop) (post : ι → α → σ → Prop)

/-- What the owner of an index sees: the answers to it, and the steps of all others. -/
def around (i : ι) : Surroundings Question Answer σ where
  answers := m.answers i
  moves s t := I s ∧ I t ∧ (m.moves s t ∨ ∃ j, j ≠ i ∧ G j s t)

/-- The invariant holds, and each dialogue under way secures its guarantee and its end. -/
structure Sound (C : Crowd ι Question Answer α σ) : Prop where
  invariant : I C.state
  secures : ∀ i d, C.talks i = some d →
    d.Secures (m.around G I i) (G i) (post i) C.state

/-- The condition on single dialogues under which every run is sound. -/
structure Orderly : Prop where
  moves : ∀ s t, I s → m.moves s t → I t
  acts : ∀ i s t, I s → G i s t → I t
  opens : ∀ i s d t, I s → m.opens i s d t →
    G i s t ∧ d.Secures (m.around G I i) (G i) (post i) t
  closes : ∀ i s a t, I s → post i a s → m.closes i s a t → G i s t

variable {m G I post} {C D : Crowd ι Question Answer α σ}

theorem Sound.others (h : m.Sound G I post C) {i : ι} {t : σ} (hstep : G i C.state t)
    (ht : I t) {talk : Option (Dialogue Question Answer α)}
    (hown : ∀ d, talk = some d → d.Secures (m.around G I i) (G i) (post i) t) :
    m.Sound G I post ⟨t, Function.update C.talks i talk⟩ := by
  refine ⟨ht, fun j d hj => ?_⟩
  dsimp only at hj
  by_cases hij : j = i
  · subst hij
    rw [Function.update_self] at hj
    exact hown d hj
  · -- to the dialogues of the others the step is one of their surroundings
    rw [Function.update_of_ne hij] at hj
    have hmove : (m.around G I j).moves C.state t :=
      ⟨h.invariant, ht, .inr ⟨i, Ne.symm hij, hstep⟩⟩
    exact (h.secures j d hj).later (.single hmove)

theorem step_sound (horderly : m.Orderly G I post) (h : m.Sound G I post C) (hstep : m.Step C D) :
    m.Sound G I post D := by
  cases hstep with
  | @start s t talks i d hi hopen =>
    obtain ⟨hacts, hsecures⟩ := horderly.opens i s d t h.invariant hopen
    refine h.others hacts (horderly.acts i s t h.invariant hacts) fun d' hd' => ?_
    cases hd'
    exact hsecures
  | @hear s t talks i q next a hi hanswer =>
    obtain ⟨hacts, hnext⟩ := h.secures i _ hi s .refl a t hanswer
    refine h.others hacts (horderly.acts i s t h.invariant hacts) fun d hd => ?_
    cases hd
    exact hnext
  | @finish s t talks i a hi hclose =>
    have hpost : post i a s := h.secures i _ hi s .refl
    have hacts := horderly.closes i s a t h.invariant hpost hclose
    exact h.others hacts (horderly.acts i s t h.invariant hacts) fun d hd => by cases hd
  | @move s t talks hmove =>
    have ht := horderly.moves s t h.invariant hmove
    refine ⟨ht, fun i d hi => ?_⟩
    exact (h.secures i d hi).later (.single ⟨h.invariant, ht, .inl hmove⟩)

theorem run_sound (horderly : m.Orderly G I post) (h : m.Sound G I post C) (hrun : m.Run C D) :
    m.Sound G I post D := by
  induction hrun with
  | refl => exact h
  | tail _ hstep ih => exact step_sound horderly ih hstep

omit [DecidableEq ι] in
theorem Sound.at_end (h : m.Sound G I post C) {i : ι} {a : α} (hi : C.talks i = some (done a)) :
    post i a C.state :=
  h.secures i _ hi _ .refl

/-! ### Dialogues that nobody interrupts -/

/-- A dialogue goes from a state to its end while nobody else acts. -/
inductive Alone (m : Manners ι Question Answer α σ) (i : ι) :
    Dialogue Question Answer α → σ → α → σ → Prop
  | done {s : σ} {a : α} : Alone m i (.done a) s a s
  | ask {s t u : σ} {q : Question} {next : Answer q → Dialogue Question Answer α} {a : Answer q}
    {r : α} : m.answers i s q a t → Alone m i (next a) t r u → Alone m i (.ask q next) s r u

omit [DecidableEq ι] in
theorem alone_hold {i : ι} {answer : (q : Question) → σ → Answer q × σ}
    (hanswer : ∀ q s, m.answers i s q (answer q s).1 (answer q s).2)
    (d : Dialogue Question Answer α) (s : σ) :
    m.Alone i d s (d.hold answer s).1 (d.hold answer s).2 := by
  induction d generalizing s with
  | done a => exact .done
  | ask q next ih => exact .ask (hanswer q s) (ih _ _)

theorem run_heard {i : ι} {talks : ι → Option (Dialogue Question Answer α)}
    {d : Dialogue Question Answer α} {s t u : σ} {a : α} (hidle : talks i = none)
    (hopen : m.opens i s d t) (h : m.Alone i d t a u) :
    m.Run ⟨s, talks⟩ ⟨u, Function.update talks i (some (.done a))⟩ := by
  refine .head (.start hidle hopen) ?_
  -- `hopen` is about the first question only
  clear hopen
  induction h with
  | done => exact .refl
  | @ask s t u q next a r hanswer _ ih =>
    have htalk := Function.update_self i (some (Dialogue.ask q next)) talks
    have hstep := Step.hear (m := m) htalk hanswer
    rw [Function.update_idem] at hstep
    exact .head hstep ih

theorem run_alone {i : ι} {talks : ι → Option (Dialogue Question Answer α)}
    {d : Dialogue Question Answer α} {s t u v : σ} {a : α} (hidle : talks i = none)
    (hopen : m.opens i s d t) (h : m.Alone i d t a u) (hclose : m.closes i u a v) :
    m.Run ⟨s, talks⟩ ⟨v, talks⟩ := by
  have hend := Step.finish (m := m) (Function.update_self i _ talks) hclose
  have hback :
      Function.update (Function.update talks i (some (Dialogue.done a))) i none = talks := by
    rw [Function.update_idem, ← hidle, Function.update_eq_self]
  rw [hback] at hend
  exact (run_heard hidle hopen h).tail hend

end Manners

end CertIssuer.Dialogue
