import CertIssuer.Proofs.Dialogue.Course
import CertIssuer.Proofs.Dialogue.Interference

/-!
# Scenes that keep minutes

A state may hold the minutes of the dialogue that is under way: what was asked and answered since it
opened, the latest first. In a run they tell how far the dialogue has come (`run_underway`), however
others act meanwhile.
-/

namespace CertIssuer.Dialogue

variable {Question : Type} {Answer : Question → Type} {σ α : Type}
  {w : Surroundings Question Answer σ} {opens : σ → Dialogue Question Answer α → σ → Prop}
  {minutes : σ → List (Heard Question Answer)} {S T : Scene Question Answer α σ}

variable (w opens minutes) in
structure Minuted : Prop where
  opens : ∀ s d t, opens s d t → minutes t = []
  answers : ∀ s q a t, w.answers s q a t → minutes t = ⟨q, a⟩ :: minutes s
  moves : ∀ s t, w.moves s t → minutes t = minutes s

/-- The dialogue under way is what the minutes leave of one that was opened. -/
def Scene.Underway (opens : σ → Dialogue Question Answer α → σ → Prop)
    (minutes : σ → List (Heard Question Answer)) (S : Scene Question Answer α σ) : Prop :=
  ∀ rest, S.talk = some rest → ∃ s d t, opens s d t ∧ d.Leaves (minutes S.state) rest

theorem step_underway (hminuted : Minuted w opens minutes) (hS : S.Underway opens minutes)
    (h : Step w opens S T) : T.Underway opens minutes := by
  cases h with
  | @start s t d hopen =>
    rintro rest ⟨⟩
    refine ⟨s, d, t, hopen, ?_⟩
    rw [hminuted.opens _ _ _ hopen]
    exact .opened
  | @hear s t q next a hanswer =>
    rintro rest ⟨⟩
    obtain ⟨s₀, d, t₀, hopen, hleaves⟩ := hS _ rfl
    refine ⟨s₀, d, t₀, hopen, ?_⟩
    rw [hminuted.answers _ _ _ _ hanswer]
    exact .heard a hleaves
  | finish => exact nofun
  | @move s t talk hmove =>
    intro rest hrest
    rw [hminuted.moves _ _ hmove]
    exact hS rest hrest

theorem run_underway {s : σ} (hminuted : Minuted w opens minutes)
    (hrun : Run w opens ⟨s, none⟩ S) : S.Underway opens minutes := by
  induction hrun with
  | refl => exact nofun
  | tail _ hstep ih => exact step_underway hminuted ih hstep

/-- What answers, openings and the moves of others keep is kept by a run. -/
theorem run_invariant {P : σ → Prop} (hanswer : ∀ s q a t, P s → w.answers s q a t → P t)
    (hopen : ∀ s d t, P s → opens s d t → P t) (hmove : ∀ s t, P s → w.moves s t → P t)
    (hrun : Run w opens S T) (hS : P S.state) : P T.state := by
  induction hrun with
  | refl => exact hS
  | tail _ hstep ih =>
    cases hstep with
    | start h => exact hopen _ _ _ ih h
    | hear h => exact hanswer _ _ _ _ ih h
    | finish => exact ih
    | move h => exact hmove _ _ ih h

end CertIssuer.Dialogue
