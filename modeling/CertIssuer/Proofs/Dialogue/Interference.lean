import CertIssuer.Proofs.Dialogue.Within
import Mathlib.Logic.Relation

/-!
# Dialogues while others act

A dialogue takes its time. Between two of its questions others may change the state that answers
them, so that what it learned early may be old when it acts on it.

A `Scene` is a state together with the dialogue that is under way, if any; `Step` is one thing that
happens in it, and `Run` is any number of them. `Secures` is the condition under which a dialogue
can be held from a state: whatever is answered and whatever others do meanwhile, each answer changes
the state only as is guaranteed, and the end finds the state as required. The main statement is
that an invariant which others keep, and from which every dialogue that opens secures it again,
holds whenever no dialogue is under way (`run_sound`), and that every answer of the run is as
guaranteed.
-/

namespace CertIssuer.Dialogue

variable {Question : Type} {Answer : Question → Type} {σ α β : Type}

/-- How a state answers, and what others do to it. -/
structure Surroundings (Question : Type) (Answer : Question → Type) (σ : Type) where
  answers : σ → (q : Question) → Answer q → σ → Prop
  moves : σ → σ → Prop

abbrev Surroundings.Later (w : Surroundings Question Answer σ) : σ → σ → Prop :=
  Relation.ReflTransGen w.moves

theorem later_keeps {w : Surroundings Question Answer σ} {R : σ → Prop}
    (hmove : ∀ s t, R s → w.moves s t → R t) {s t : σ} (hs : R s) (hst : w.Later s t) : R t := by
  induction hst with
  | refl => exact hs
  | tail _ hm ih => exact hmove _ _ ih hm

variable (w : Surroundings Question Answer σ) (G : σ → σ → Prop)

/-- Held from a state, each answer changes the state as `G` says, and the end finds `post`. -/
def Secures (post : α → σ → Prop) : Dialogue Question Answer α → σ → Prop
  | done a, s => ∀ t, w.Later s t → post a t
  | ask q next, s =>
    ∀ t, w.Later s t → ∀ a u, w.answers t q a u → G t u ∧ (next a).Secures post u

variable {w G}

theorem Secures.later {post : α → σ → Prop} {d : Dialogue Question Answer α} {s t : σ}
    (h : d.Secures w G post s) (hst : w.Later s t) : d.Secures w G post t := by
  cases d with
  | done a => exact fun u htu => h u (hst.trans htu)
  | ask q next => exact fun u htu => h u (hst.trans htu)

theorem Secures.mono {post post' : α → σ → Prop} {d : Dialogue Question Answer α} {s : σ}
    (h : d.Secures w G post s) (hpost : ∀ a t, post a t → post' a t) :
    d.Secures w G post' s := by
  induction d generalizing s with
  | done a => exact fun t hst => hpost a t (h t hst)
  | ask q next ih =>
    intro t hst a u ha
    obtain ⟨hg, hn⟩ := h t hst a u ha
    exact ⟨hg, ih a hn⟩

theorem Secures.bind {post : α → σ → Prop} {post' : β → σ → Prop}
    {d : Dialogue Question Answer α} {f : α → Dialogue Question Answer β} {s : σ}
    (h : d.Secures w G post s) (hf : ∀ a t, post a t → (f a).Secures w G post' t) :
    (d >>= f).Secures w G post' s := by
  induction d generalizing s with
  | done a => exact hf a s (h s .refl)
  | ask q next ih =>
    intro t hst a u ha
    obtain ⟨hg, hn⟩ := h t hst a u ha
    exact ⟨hg, ih a hn⟩

/-- A dialogue that asks only what leaves `R` alone secures `R` and the bound on its results. -/
theorem Within.secures {Asks : Question → Prop} {Ends : α → Prop} {R : σ → Prop}
    {d : Dialogue Question Answer α} {s : σ} (h : d.Within Asks Ends)
    (hmove : ∀ s t, R s → w.moves s t → R t)
    (hask : ∀ s q a t, Asks q → R s → w.answers s q a t → G s t ∧ R t) (hs : R s) :
    d.Secures w G (fun a t => Ends a ∧ R t) s := by
  induction d generalizing s with
  | done a => exact fun t hst => ⟨h, later_keeps hmove hs hst⟩
  | ask q next ih =>
    intro t hst a u ha
    obtain ⟨hg, hr⟩ := hask t q a u h.1 (later_keeps hmove hs hst) ha
    exact ⟨hg, ih a (h.2 a) hr⟩

/-! ### Scenes -/

structure Scene (Question : Type) (Answer : Question → Type) (α σ : Type) where
  state : σ
  talk : Option (Dialogue Question Answer α) := none

variable (w) (opens : σ → Dialogue Question Answer α → σ → Prop)

/-- One thing happens: a dialogue opens, is answered or ends, or others change the state. Of two
dialogues the second one opens after the first one has ended. -/
inductive Step : Scene Question Answer α σ → Scene Question Answer α σ → Prop
  | start {s t : σ} {d : Dialogue Question Answer α} : opens s d t → Step ⟨s, none⟩ ⟨t, some d⟩
  | hear {s t : σ} {q : Question} {next : Answer q → Dialogue Question Answer α} {a : Answer q} :
      w.answers s q a t → Step ⟨s, some (ask q next)⟩ ⟨t, some (next a)⟩
  | finish {s : σ} {a : α} : Step ⟨s, some (done a)⟩ ⟨s, none⟩
  | move {s t : σ} {talk : Option (Dialogue Question Answer α)} :
      w.moves s t → Step ⟨s, talk⟩ ⟨t, talk⟩

abbrev Run : Scene Question Answer α σ → Scene Question Answer α σ → Prop :=
  Relation.ReflTransGen (Step w opens)

variable {w opens}

/-- The invariant holds, or the dialogue under way secures it. -/
def Scene.Sound (w : Surroundings Question Answer σ) (G : σ → σ → Prop) (I : σ → Prop)
    (S : Scene Question Answer α σ) : Prop :=
  match S.talk with
  | none => I S.state
  | some d => d.Secures w G (fun _ => I) S.state

section Soundness

variable {I : σ → Prop} {S T : Scene Question Answer α σ}
  (hmove : ∀ s t, I s → w.moves s t → I t)
  (hopen : ∀ s d t, I s → opens s d t → d.Secures w G (fun _ => I) t)

include hmove hopen

theorem step_sound (hS : S.Sound w G I) (h : Step w opens S T) : T.Sound w G I := by
  cases h with
  | start hd => exact hopen _ _ _ hS hd
  | hear ha => exact (hS _ .refl _ _ ha).2
  | finish => exact hS _ .refl
  | @move s t talk hm =>
    cases talk with
    | none => exact hmove _ _ hS hm
    | some d => exact Secures.later hS (.single hm)

theorem run_sound (hS : S.Sound w G I) (h : Run w opens S T) : T.Sound w G I := by
  induction h with
  | refl => exact hS
  | tail _ hstep ih => exact step_sound hmove hopen ih hstep

/-- What guaranteed answers, the moves of others and openings keep is kept by a run. -/
theorem run_keeps {P : σ → Prop} (hS : S.Sound w G I) (h : Run w opens S T)
    (hanswer : ∀ s t, G s t → P s → P t) (hothers : ∀ s t, w.moves s t → P s → P t)
    (hstart : ∀ s d t, opens s d t → P s → P t) (hP : P S.state) : P T.state := by
  induction h with
  | refl => exact hP
  | @tail T U hrun hstep ih =>
    -- only the soundness of the scene before it tells that an answer is as guaranteed
    have hT := run_sound hmove hopen hS hrun
    cases hstep with
    | start hd => exact hstart _ _ _ hd ih
    | hear ha => exact hanswer _ _ (hT _ .refl _ _ ha).1 ih
    | finish => exact ih
    | move hm => exact hothers _ _ hm ih

end Soundness

/-! ### Runs by computation -/

theorem run_later {s t : σ} (talk : Option (Dialogue Question Answer α)) (h : w.Later s t) :
    Run w opens ⟨s, talk⟩ ⟨t, talk⟩ := by
  induction h with
  | refl => exact .refl
  | tail _ hm ih => exact ih.tail (.move hm)

/-- A dialogue that is held with a function whose answers the surroundings allow is a run. -/
theorem run_hold {answer : (q : Question) → σ → Answer q × σ}
    (hanswer : ∀ q s, ∃ t, w.Later s t ∧ w.answers t q (answer q s).1 (answer q s).2)
    (d : Dialogue Question Answer α) (s : σ) :
    Run w opens ⟨s, some d⟩ ⟨(d.hold answer s).2, some (done (d.hold answer s).1)⟩ := by
  induction d generalizing s with
  | done a => exact .refl
  | ask q next ih =>
    obtain ⟨t, hst, ha⟩ := hanswer q s
    exact ((run_later _ hst).tail (.hear ha)).trans (ih _ _)

/-- What is left of a dialogue after some questions, and the state then. -/
def holdFor (answer : (q : Question) → σ → Answer q × σ) :
    Nat → Dialogue Question Answer α → σ → Dialogue Question Answer α × σ
  | n + 1, ask q next, s => holdFor answer n (next (answer q s).1) (answer q s).2
  | _, d, s => (d, s)

theorem run_holdFor {answer : (q : Question) → σ → Answer q × σ}
    (hanswer : ∀ q s, ∃ t, w.Later s t ∧ w.answers t q (answer q s).1 (answer q s).2) (n : Nat)
    (d : Dialogue Question Answer α) (s : σ) :
    Run w opens ⟨s, some d⟩ ⟨(d.holdFor answer n s).2, some (d.holdFor answer n s).1⟩ := by
  induction n generalizing d s with
  | zero => exact .refl
  | succ n ih =>
    cases d with
    | done a => exact .refl
    | ask q next =>
      obtain ⟨t, hst, ha⟩ := hanswer q s
      exact ((run_later _ hst).tail (.hear ha)).trans (ih _ _)

theorem holdFor_succ (answer : (q : Question) → σ → Answer q × σ) {n : Nat}
    {d : Dialogue Question Answer α} {s : σ} {q : Question}
    {next : Answer q → Dialogue Question Answer α} (h : (d.holdFor answer n s).1 = ask q next) :
    d.holdFor answer (n + 1) s =
      (next (answer q (d.holdFor answer n s).2).1, (answer q (d.holdFor answer n s).2).2) := by
  induction n generalizing d s with
  | zero =>
    have hd : d = ask q next := h
    rw [hd]
    rfl
  | succ n ih =>
    cases d with
    | done a => cases h
    | ask q' next' => exact ih h

end CertIssuer.Dialogue

namespace CertIssuer.Pass

open Reconcile Dialogue

variable {σ α β : Type} {w : Surroundings Question Question.Answer σ} {G : σ → σ → Prop}

/-- A failed first part ends a pass; otherwise the second part goes on from what was secured. -/
theorem secures_bind {post : Except ControllerError α → σ → Prop}
    {post' : Except ControllerError β → σ → Prop} {x : Pass α} {f : α → Pass β} {s : σ}
    (h : x.run.Secures w G post s)
    (hok : ∀ a t, post (.ok a) t → (f a).run.Secures w G post' t)
    (herror : ∀ e t, post (.error e) t → ∀ u, w.Later t u → post' (.error e) u) :
    (x >>= f).run.Secures w G post' s := by
  rw [run_bind]
  refine Secures.bind h fun r t hr => ?_
  cases r with
  | ok a => exact hok a t hr
  | error e => exact herror e t hr

end CertIssuer.Pass
