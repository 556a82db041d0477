/-!
# Dialogues

A computation that puts questions to its surroundings and goes on with the answers. It is data:
the same dialogue can be held with an in-memory cluster, with a scripted peer, or with one that
changes between two questions.
-/

namespace CertIssuer

/-- A finished computation, or a question and what to do with each answer. -/
inductive Dialogue (Question : Type) (Answer : Question → Type) (α : Type) where
  | done (result : α)
  | ask (question : Question) (next : Answer question → Dialogue Question Answer α)

namespace Dialogue

variable {Question : Type} {Answer : Question → Type} {α β : Type}

/-- Goes on with the result of a dialogue. -/
def andThen (d : Dialogue Question Answer α) (f : α → Dialogue Question Answer β) :
    Dialogue Question Answer β :=
  match d with
  | done a => f a
  | ask q next => ask q fun answer => (next answer).andThen f

instance : Monad (Dialogue Question Answer) where
  pure := done
  bind := andThen

/-- A single question. -/
def question (q : Question) : Dialogue Question Answer (Answer q) := ask q done

@[simp] theorem pure_eq (a : α) : (pure a : Dialogue Question Answer α) = done a := rfl

@[simp] theorem done_bind (a : α) (f : α → Dialogue Question Answer β) :
    (done a >>= f) = f a := rfl

@[simp] theorem ask_bind (q : Question) (next : Answer q → Dialogue Question Answer α)
    (f : α → Dialogue Question Answer β) :
    (ask q next >>= f) = ask q fun answer => next answer >>= f := rfl

@[simp] theorem question_bind (q : Question) (f : Answer q → Dialogue Question Answer β) :
    ((question q : Dialogue Question Answer (Answer q)) >>= f) = ask q f := rfl

theorem bind_done (d : Dialogue Question Answer α) : (d >>= done) = d := by
  induction d with
  | done a => rfl
  | ask q next ih =>
    rw [ask_bind]
    exact congrArg (ask q) (funext ih)

theorem bind_assoc {γ : Type} (d : Dialogue Question Answer α)
    (f : α → Dialogue Question Answer β) (g : β → Dialogue Question Answer γ) :
    ((d >>= f) >>= g) = (d >>= fun a => f a >>= g) := by
  induction d with
  | done a => rfl
  | ask q next ih =>
    simp only [ask_bind]
    exact congrArg (ask q) (funext ih)

/-! ### Holding a dialogue -/

/-- Answers the questions one by one from a state. -/
def hold {σ : Type} (answer : (q : Question) → σ → Answer q × σ) :
    Dialogue Question Answer α → σ → α × σ
  | done a, s => (a, s)
  | ask q next, s =>
    let (reply, s) := answer q s
    (next reply).hold answer s

end Dialogue

end CertIssuer
