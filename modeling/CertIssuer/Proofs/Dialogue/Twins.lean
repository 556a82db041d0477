import CertIssuer.Proofs.Dialogue.Course

/-!
# Twin dialogues

Two dialogues that put like questions and, on like answers, go on alike and end alike. What counts
as like is laid down by a `Likeness`. Twins that are answered alike from one state leave the same
state behind (`Twins.hold`), also when whoever holds them may give up (`Twins.holdUntil`).
-/

namespace CertIssuer

/-! ### Outcomes -/

/-- The same failure, or successes whose values are alike. -/
inductive SameOutcome {ε α β : Type} (Alike : α → β → Prop) : Except ε α → Except ε β → Prop where
  | ok {a : α} {b : β} (h : Alike a b) : SameOutcome Alike (.ok a) (.ok b)
  | error (e : ε) : SameOutcome Alike (.error e) (.error e)

namespace SameOutcome

variable {ε α β γ δ : Type} {Alike : α → β → Prop} {Alike' : γ → δ → Prop}

theorem refl : (x : Except ε α) → SameOutcome Eq x x
  | .ok _ => .ok rfl
  | .error e => .error e

theorem eq {x y : Except ε α} (h : SameOutcome Eq x y) : x = y := by
  cases h with
  | ok h => exact congrArg Except.ok h
  | error e => rfl

theorem bind {x : Except ε α} {y : Except ε β} {f : α → Except ε γ} {g : β → Except ε δ}
    (h : SameOutcome Alike x y) (hf : ∀ a b, Alike a b → SameOutcome Alike' (f a) (g b)) :
    SameOutcome Alike' (x >>= f) (y >>= g) := by
  cases h with
  | ok h => exact hf _ _ h
  | error e => exact .error e

theorem map_eq {x : Except ε α} {y : Except ε β} {f : α → γ} {g : β → γ}
    (h : SameOutcome Alike x y) (hf : ∀ a b, Alike a b → f a = g b) : x.map f = y.map g := by
  cases h with
  | ok h => exact congrArg Except.ok (hf _ _ h)
  | error e => rfl

end SameOutcome

namespace Dialogue

variable {Question : Type} {Answer : Question → Type} {α β γ δ : Type}

/-- Which questions are alike, and which answers to them. -/
structure Likeness (Question : Type) (Answer : Question → Type) where
  asks : Question → Question → Prop
  hears (q q' : Question) : Answer q → Answer q' → Prop

variable {like : Likeness Question Answer} {Ends : α → β → Prop} {Ends' : γ → δ → Prop}

inductive Twins (like : Likeness Question Answer) (Ends : α → β → Prop) :
    Dialogue Question Answer α → Dialogue Question Answer β → Prop where
  | done {a : α} {b : β} (h : Ends a b) : Twins like Ends (.done a) (.done b)
  | ask {q q' : Question} {next : Answer q → Dialogue Question Answer α}
      {next' : Answer q' → Dialogue Question Answer β} (hasks : like.asks q q')
      (hnext : ∀ a a', like.hears q q' a a' → Twins like Ends (next a) (next' a')) :
      Twins like Ends (.ask q next) (.ask q' next')

theorem Twins.mono {Ends' : α → β → Prop} {d : Dialogue Question Answer α}
    {d' : Dialogue Question Answer β} (h : Twins like Ends d d')
    (hends : ∀ a b, Ends a b → Ends' a b) : Twins like Ends' d d' := by
  induction h with
  | done h => exact .done (hends _ _ h)
  | ask hasks _ ih => exact .ask hasks ih

theorem Twins.bind {d : Dialogue Question Answer α} {d' : Dialogue Question Answer β}
    {f : α → Dialogue Question Answer γ} {f' : β → Dialogue Question Answer δ}
    (h : Twins like Ends d d') (hf : ∀ a b, Ends a b → Twins like Ends' (f a) (f' b)) :
    Twins like Ends' (d >>= f) (d' >>= f') := by
  induction h with
  | done h => exact hf _ _ h
  | ask hasks _ ih => exact .ask hasks ih

/-- A dialogue is its own twin when it puts only questions to which like answers are equal. -/
theorem Within.twins {Asks : Question → Prop} {Meets : α → Prop} {d : Dialogue Question Answer α}
    (h : d.Within Asks Meets)
    (hasks : ∀ q, Asks q → like.asks q q ∧ ∀ a a', like.hears q q a a' → a = a') :
    Twins like Eq d d := by
  induction d with
  | done a => exact .done rfl
  | ask q next ih =>
    obtain ⟨hask, hhears⟩ := hasks q h.1
    refine .ask hask fun a a' ha => ?_
    cases hhears a a' ha
    exact ih a (h.2 a)

theorem within_any (d : Dialogue Question Answer α) :
    d.Within (fun _ => True) (fun _ => True) := by
  induction d with
  | done a => trivial
  | ask q next ih => exact ⟨trivial, ih⟩

/-! ### Held in like surroundings -/

/-- Holds a dialogue, but gives it up as soon as an answer leads to a state that calls for that. -/
def holdUntil {σ : Type} (answer : (q : Question) → σ → Answer q × σ) (stop : σ → Bool) :
    Dialogue Question Answer α → σ → Option α × σ
  | done a, s => (some a, s)
  | ask q next, s =>
    let (reply, s) := answer q s
    if stop s then (none, s) else (next reply).holdUntil answer stop s

theorem holdUntil_never {σ : Type} (answer : (q : Question) → σ → Answer q × σ)
    (d : Dialogue Question Answer α) (s : σ) :
    d.holdUntil answer (fun _ => false) s = (some (d.hold answer s).1, (d.hold answer s).2) := by
  induction d generalizing s with
  | done a => rfl
  | ask q next ih => exact ih _ _

/-- From every state, like questions get like answers, after which the states are the same. -/
def AnswersAlike {σ : Type} (like : Likeness Question Answer)
    (answer answer' : (q : Question) → σ → Answer q × σ) : Prop :=
  ∀ q q' s, like.asks q q' →
    like.hears q q' (answer q s).1 (answer' q' s).1 ∧ (answer q s).2 = (answer' q' s).2

section Held

variable {σ : Type} {answer answer' : (q : Question) → σ → Answer q × σ}
  {d : Dialogue Question Answer α} {d' : Dialogue Question Answer β}

theorem Twins.hold (h : Twins like Ends d d') (hlike : AnswersAlike like answer answer') (s : σ) :
    Ends (d.hold answer s).1 (d'.hold answer' s).1 ∧
      (d.hold answer s).2 = (d'.hold answer' s).2 := by
  induction h generalizing s with
  | done h => exact ⟨h, rfl⟩
  | @ask q q' next next' hasks _ ih =>
    obtain ⟨hhears, hstate⟩ := hlike q q' s hasks
    simp only [Dialogue.hold, hstate]
    exact ih _ _ hhears _

/-- What an onlooker sees of the questions is the same when like questions look the same. -/
theorem Twins.seen {see : Question → Option γ} (h : Twins like Ends d d')
    (hlike : AnswersAlike like answer answer')
    (hsee : ∀ q q', like.asks q q' → see q = see q') (s : σ) :
    (d.transcript answer s).filterMap (see ·.question) =
      (d'.transcript answer' s).filterMap (see ·.question) := by
  induction h generalizing s with
  | done h => rfl
  | @ask q q' next next' hasks _ ih =>
    obtain ⟨hhears, hstate⟩ := hlike q q' s hasks
    simp only [Dialogue.transcript, List.filterMap_cons, hsee q q' hasks, hstate, ih _ _ hhears]

theorem Twins.holdUntil {d d' : Dialogue Question Answer α} (h : Twins like Eq d d')
    (hlike : AnswersAlike like answer answer') (stop : σ → Bool) (s : σ) :
    d.holdUntil answer stop s = d'.holdUntil answer' stop s := by
  induction h generalizing s with
  | done h =>
    cases h
    rfl
  | @ask q q' next next' hasks _ ih =>
    obtain ⟨hhears, hstate⟩ := hlike q q' s hasks
    simp only [Dialogue.holdUntil, hstate]
    split
    · rfl
    · exact ih _ _ hhears _

end Held

end Dialogue

end CertIssuer
