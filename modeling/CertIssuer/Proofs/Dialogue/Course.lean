import CertIssuer.Proofs.Dialogue.Within

/-!
# The course of a dialogue

What is heard when a dialogue is held, question by question, and what comes of it. Nothing is said
about who answers, so the same question may be answered in one way now and in another way later.
Every way of answering gives a dialogue one course (`goes_transcript`).

A pass that fails ends there, so the course of `x >>= f` is that of `x` alone or that of both parts
(`Pass.goes_bind`).
-/

namespace CertIssuer.Dialogue

variable {Question : Type} {Answer : Question → Type} {α β : Type}

structure Heard (Question : Type) (Answer : Question → Type) where
  question : Question
  answer : Answer question

/-- The dialogue can be held so that this is heard, in order, and the result comes of it. -/
def Goes : Dialogue Question Answer α → List (Heard Question Answer) → α → Prop
  | done a, heard, result => heard = [] ∧ result = a
  | ask q next, heard, result =>
    ∃ a rest, heard = ⟨q, a⟩ :: rest ∧ (next a).Goes rest result

theorem goes_bind {d : Dialogue Question Answer α} {f : α → Dialogue Question Answer β}
    {heard : List (Heard Question Answer)} {result : β} :
    (d >>= f).Goes heard result ↔
      ∃ first second a, heard = first ++ second ∧ d.Goes first a ∧ (f a).Goes second result := by
  -- on the first dialogue: what is heard splits where it ends
  induction d generalizing heard with
  | done a =>
    constructor
    · exact fun h => ⟨[], heard, a, rfl, ⟨rfl, rfl⟩, h⟩
    · rintro ⟨first, second, a', rfl, ⟨rfl, rfl⟩, h⟩
      exact h
  | ask q next ih =>
    constructor
    · rintro ⟨a, rest, rfl, h⟩
      obtain ⟨first, second, b, rfl, hnext, hf⟩ := (ih a).mp h
      exact ⟨⟨q, a⟩ :: first, second, b, rfl, ⟨a, first, rfl, hnext⟩, hf⟩
    · rintro ⟨first, second, b, rfl, ⟨a, first', rfl, hnext⟩, hf⟩
      exact ⟨a, first' ++ second, rfl, (ih a).mpr ⟨first', second, b, rfl, hnext, hf⟩⟩

/-- What is heard when the questions are answered from a state. -/
def transcript {σ : Type} (answer : (q : Question) → σ → Answer q × σ) :
    Dialogue Question Answer α → σ → List (Heard Question Answer)
  | done _, _ => []
  | ask q next, s => ⟨q, (answer q s).1⟩ :: (next (answer q s).1).transcript answer (answer q s).2

theorem goes_transcript {σ : Type} (answer : (q : Question) → σ → Answer q × σ)
    (d : Dialogue Question Answer α) (s : σ) :
    d.Goes (d.transcript answer s) (d.hold answer s).1 := by
  induction d generalizing s with
  | done a => exact ⟨rfl, rfl⟩
  | ask q next ih => exact ⟨_, _, rfl, ih _ _⟩

/-- A part of the state that only some answers change stays as it is when none of them is heard. -/
theorem hold_keeps {σ γ : Type} {answer : (q : Question) → σ → Answer q × σ} {part : σ → γ}
    {Changes : Heard Question Answer → Prop}
    (hkeeps : ∀ q s, ¬ Changes ⟨q, (answer q s).1⟩ → part (answer q s).2 = part s)
    (d : Dialogue Question Answer α) (s : σ) (h : ∀ x ∈ d.transcript answer s, ¬ Changes x) :
    part (d.hold answer s).2 = part s := by
  induction d generalizing s with
  | done a => rfl
  | ask q next ih =>
    obtain ⟨hfirst, hrest⟩ := List.forall_mem_cons.mp h
    exact (ih _ _ hrest).trans (hkeeps q s hfirst)

/-- What is heard in a world that answers each question in one way. -/
def heardIn (world : (q : Question) → Answer q) :
    Dialogue Question Answer α → List (Heard Question Answer)
  | done _ => []
  | ask q next => ⟨q, world q⟩ :: (next (world q)).heardIn world

theorem goes_heardIn (world : (q : Question) → Answer q) (d : Dialogue Question Answer α) :
    d.Goes (d.heardIn world) (d.result world) := by
  induction d with
  | done a => exact ⟨rfl, rfl⟩
  | ask q next ih => exact ⟨world q, _, rfl, ih (world q)⟩

theorem answer_of_heardIn {world : (q : Question) → Answer q} {d : Dialogue Question Answer α}
    {x : Heard Question Answer} (h : x ∈ d.heardIn world) : x.answer = world x.question := by
  induction d with
  | done a => cases h
  | ask q next ih =>
    rcases List.mem_cons.mp h with rfl | h
    · rfl
    · exact ih (world q) h

theorem goes_question (q : Question) {heard : List (Heard Question Answer)} {a : Answer q} :
    (question q : Dialogue Question Answer (Answer q)).Goes heard a ↔ heard = [⟨q, a⟩] := by
  constructor
  · rintro ⟨a, rest, rfl, rfl, rfl⟩
    rfl
  · rintro rfl
    exact ⟨a, [], rfl, rfl, rfl⟩

theorem exists_goes [∀ q, Nonempty (Answer q)] (d : Dialogue Question Answer α) :
    ∃ heard result, d.Goes heard result := by
  induction d with
  | done a => exact ⟨[], a, rfl, rfl⟩
  | ask q next ih =>
    obtain ⟨a⟩ : Nonempty (Answer q) := inferInstance
    obtain ⟨heard, result, h⟩ := ih a
    exact ⟨⟨q, a⟩ :: heard, result, a, heard, rfl, h⟩

theorem Within.goes {Asks : Question → Prop} {Ends : α → Prop} {d : Dialogue Question Answer α}
    {heard : List (Heard Question Answer)} {result : α} (h : d.Within Asks Ends)
    (hgoes : d.Goes heard result) : (∀ e ∈ heard, Asks e.question) ∧ Ends result := by
  induction d generalizing heard with
  | done a =>
    obtain ⟨rfl, rfl⟩ := hgoes
    exact ⟨by simp, h⟩
  | ask q next ih =>
    obtain ⟨a, rest, rfl, hrest⟩ := hgoes
    obtain ⟨hasks, hends⟩ := ih a (h.2 a) hrest
    refine ⟨fun e he => ?_, hends⟩
    rcases List.mem_cons.mp he with rfl | he
    · exact h.1
    · exact hasks e he

/-! ### The course so far -/

/-- What is left of a dialogue after some answers, the latest of them first. -/
inductive Leaves (d : Dialogue Question Answer α) :
    List (Heard Question Answer) → Dialogue Question Answer α → Prop
  | opened : Leaves d [] d
  | heard {before : List (Heard Question Answer)} {q : Question}
      {next : Answer q → Dialogue Question Answer α} (a : Answer q) :
      Leaves d before (ask q next) → Leaves d (⟨q, a⟩ :: before) (next a)

theorem Leaves.goes {d rest : Dialogue Question Answer α}
    {before after : List (Heard Question Answer)} {result : α} (h : d.Leaves before rest)
    (hrest : rest.Goes after result) : d.Goes (before.reverse ++ after) result := by
  induction h generalizing after with
  | opened => exact hrest
  | @heard before q next a _ ih =>
    have hask : (ask q next).Goes (⟨q, a⟩ :: after) result := ⟨a, after, rfl, hrest⟩
    rw [List.reverse_cons, List.append_assoc]
    exact ih hask

end CertIssuer.Dialogue

/-! ### Passes -/

namespace CertIssuer.Reconcile

abbrev Hearing : Type := Dialogue.Heard Question Question.Answer

instance (q : Question) : Nonempty q.Answer := by
  cases q with
  | now => exact ⟨(⟨0, 0⟩ : Timestamp)⟩
  | sign _ _ _ | check _ _ => exact ⟨none⟩
  | recordIssued => exact ⟨()⟩
  | buildSigner _ _ | buildChecker _ _ => exact ⟨.ok ()⟩
  | writeIssuer _ _ | writeRequest _ _ _ => exact ⟨.ok ()⟩
  | issuer _ | request _ _ | secret _ => exact ⟨.ok none⟩

end CertIssuer.Reconcile

namespace CertIssuer.Pass

open Reconcile

variable {α β : Type} {heard : List Hearing}

/-- The pass can be held so that this is heard, in order, and the result comes of it. -/
def Goes (x : Pass α) (heard : List Hearing) (r : Except ControllerError α) : Prop :=
  x.run.Goes heard r

def heardIn (world : (q : Question) → q.Answer) (x : Pass α) : List Hearing := x.run.heardIn world

theorem goes_heardIn (world : (q : Question) → q.Answer) (x : Pass α) :
    x.Goes (x.heardIn world) (result world x) :=
  Dialogue.goes_heardIn world x.run

theorem goes_pure {a : α} {r : Except ControllerError α} :
    (pure a : Pass α).Goes heard r ↔ heard = [] ∧ r = .ok a := Iff.rfl

theorem goes_bind {x : Pass α} {f : α → Pass β} {r : Except ControllerError β} :
    (x >>= f).Goes heard r ↔
      (∃ e, x.Goes heard (.error e) ∧ r = .error e) ∨
      ∃ first second a, heard = first ++ second ∧ x.Goes first (.ok a) ∧ (f a).Goes second r := by
  unfold Goes
  rw [run_bind, Dialogue.goes_bind]
  constructor
  · rintro ⟨first, second, a | a, rfl, hfirst, hsecond⟩
    · obtain ⟨rfl, rfl⟩ := hsecond
      rw [List.append_nil]
      exact .inl ⟨a, hfirst, rfl⟩
    · exact .inr ⟨first, second, a, rfl, hfirst, hsecond⟩
  · rintro (⟨e, hfirst, rfl⟩ | ⟨first, second, a, rfl, hfirst, hsecond⟩)
    · exact ⟨heard, [], .error e, (List.append_nil heard).symm, hfirst, rfl, rfl⟩
    · exact ⟨first, second, .ok a, rfl, hfirst, hsecond⟩

theorem goes_bind_ok {x : Pass α} {f : α → Pass β} {b : β} :
    (x >>= f).Goes heard (.ok b) ↔
      ∃ first second a,
        heard = first ++ second ∧ x.Goes first (.ok a) ∧ (f a).Goes second (.ok b) := by
  rw [goes_bind]
  constructor
  · rintro (⟨e, -, he⟩ | h)
    · cases he
    · exact h
  · exact .inr

theorem Within.goes {Asks : Question → Prop} {Ends : α → Prop} {x : Pass α}
    {r : Except ControllerError α} (h : Within Asks Ends x) (hgoes : x.Goes heard r) :
    ∀ e ∈ heard, Asks e.question := by
  unfold Within at h
  exact (Dialogue.Within.goes h hgoes).1

theorem Within.ends {Asks : Question → Prop} {Ends : α → Prop} {x : Pass α} {a : α}
    (h : Within Asks Ends x) (hgoes : x.Goes heard (.ok a)) : Ends a := by
  unfold Within at h
  exact (Dialogue.Within.goes h hgoes).2 a rfl

section Questions

variable {q : Question} {key : IssuerKey} {ns name : String} {k : Secret.Key}

theorem goes_ask_bind {f : q.Answer → Pass β} {r : Except ControllerError β} :
    (ask q >>= f).Goes heard r ↔
      ∃ (a : q.Answer) (rest : List Hearing), heard = ⟨q, a⟩ :: rest ∧ (f a).Goes rest r :=
  Iff.rfl

theorem goes_now_bind {f : Timestamp → Pass β} {r : Except ControllerError β} :
    (now >>= f).Goes heard r ↔
      ∃ (t : Timestamp) (rest : List Hearing), heard = ⟨.now, t⟩ :: rest ∧ (f t).Goes rest r :=
  Iff.rfl

theorem goes_getIssuer {r : Except ControllerError (Option Issuer)} :
    (getIssuer key).Goes heard r ↔ heard = [⟨.issuer key, r⟩] :=
  Dialogue.goes_question (Question.issuer key)

theorem goes_getRequest {r : Except ControllerError (Option CertificateRequest)} :
    (getRequest ns name).Goes heard r ↔ heard = [⟨.request ns name, r⟩] :=
  Dialogue.goes_question (Question.request ns name)

theorem goes_getSecret {r : Except ControllerError (Option SecretData)} :
    (getSecret k).Goes heard r ↔ heard = [⟨.secret k, r⟩] :=
  Dialogue.goes_question (Question.secret k)

theorem goes_writeIssuer {issuer : Issuer} {status : IssuerStatus}
    {r : Except ControllerError Unit} :
    (writeIssuer issuer status).Goes heard r ↔ heard = [⟨.writeIssuer issuer status, r⟩] :=
  Dialogue.goes_question (Question.writeIssuer issuer status)

theorem goes_writeRequest {request : CertificateRequest} {status : RequestStatus}
    {p : Precondition} {r : Except ControllerError Unit} :
    (writeRequest request status p).Goes heard r ↔
      heard = [⟨.writeRequest request status p, r⟩] :=
  Dialogue.goes_question (Question.writeRequest request status p)

end Questions

end CertIssuer.Pass
