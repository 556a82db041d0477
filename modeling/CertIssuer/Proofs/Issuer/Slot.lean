import CertIssuer.Proofs.Dialogue.Minutes
import CertIssuer.Reconcile.Issuer

/-!
# The slot of an issuer

The place that the API server has for one issuer, with the minutes of the pass over it that opened
last. Every object that is stored gets a version that was not given out before. The server takes a
status from a pass only when it is pinned to the version that is stored, or to none. Others put any
object into the slot, or take it away, at any time. Whatever else a pass asks may be answered in any
way, and the reply to a write may be lost.
-/

namespace CertIssuer.Reconcile

open Dialogue (Surroundings)

structure IssuerSlot where
  issuer : Option Issuer
  /-- The versions that were given out. -/
  versions : List String
  /-- What the pass that opened last has heard, the latest first. -/
  minutes : List Hearing := []

namespace IssuerSlot

variable {key : IssuerKey} {s t : IssuerSlot}

def put (s : IssuerSlot) (issuer : Issuer) (version : String) : IssuerSlot :=
  { s with
    issuer := some { issuer with resourceVersion := some version }
    versions := version :: s.versions }

def note (s : IssuerSlot) (q : Question) (a : q.Answer) : IssuerSlot :=
  { s with minutes := ⟨q, a⟩ :: s.minutes }

/-- The server takes a status for the stored issuer from a pass that has read an issuer. -/
structure Accepts (key : IssuerKey) (s : IssuerSlot) (old read : Issuer) : Prop where
  stored : s.issuer = some old
  named : read.key = key
  pinned : read.resourceVersion = none ∨ read.resourceVersion = old.resourceVersion

/-- The questions that nothing in the slot depends on. -/
def IsAside (key : IssuerKey) : Question → Prop
  | .issuer k => k ≠ key
  | .writeIssuer _ _ => False
  | _ => True

inductive Answers (key : IssuerKey) : IssuerSlot → (q : Question) → q.Answer → IssuerSlot → Prop
  | read {s : IssuerSlot} :
    Answers key s (.issuer key) (.ok s.issuer) (s.note (.issuer key) (.ok s.issuer))
  | unread {s : IssuerSlot} {e : ControllerError} :
    Answers key s (.issuer key) (.error e) (s.note (.issuer key) (.error e))
  | stored {s : IssuerSlot} {old read : Issuer} {status : IssuerStatus} {version : String}
    {r : Except ControllerError Unit} :
    Accepts key s old read → version ∉ s.versions →
      Answers key s (.writeIssuer read status) r
        ((s.put { old with status := status } version).note (.writeIssuer read status) r)
  | refused {s : IssuerSlot} {read : Issuer} {status : IssuerStatus} {e : ControllerError} :
    Answers key s (.writeIssuer read status) (.error e)
      (s.note (.writeIssuer read status) (.error e))
  | aside {s : IssuerSlot} {q : Question} {a : q.Answer} :
    IsAside key q → Answers key s q a (s.note q a)

/-- What others do: they edit the issuer, create it or delete it. -/
inductive Moves (key : IssuerKey) : IssuerSlot → IssuerSlot → Prop
  | put {s : IssuerSlot} {issuer : Issuer} {version : String} :
    issuer.key = key → version ∉ s.versions → Moves key s (s.put issuer version)
  | delete {s : IssuerSlot} : Moves key s { s with issuer := none }

end IssuerSlot

def issuerSlot (key : IssuerKey) : Surroundings Question Question.Answer IssuerSlot where
  answers := IssuerSlot.Answers key
  moves := IssuerSlot.Moves key

abbrev IssuerScene : Type :=
  Dialogue.Scene Question Question.Answer (Except ControllerError Requeue) IssuerSlot

def OpensIssuer (settings : Settings) (key : IssuerKey) (s : IssuerSlot)
    (d : Dialogue Question Question.Answer (Except ControllerError Requeue)) (t : IssuerSlot) :
    Prop :=
  d = (issuerPass settings key).run ∧ t = { s with minutes := [] }

/-- Passes over the issuer of a key, one after the other, among the moves of others. -/
abbrev IssuerRun (settings : Settings) (key : IssuerKey) : IssuerScene → IssuerScene → Prop :=
  Dialogue.Run (issuerSlot key) (OpensIssuer settings key)

/-! ### What a pass knows of the issuer that it has read -/

namespace IssuerSlot

variable {settings : Settings} {key : IssuerKey} {s t : IssuerSlot} {issuer : Issuer}

/-- While the version of an issuer is stored, the issuer is. -/
def Recalls (s : IssuerSlot) (issuer : Issuer) : Prop :=
  ∃ version ∈ s.versions, issuer.resourceVersion = some version ∧
    ∀ stored ∈ s.issuer, stored.resourceVersion = some version → stored = issuer

structure Coherent (key : IssuerKey) (s : IssuerSlot) : Prop where
  versioned : ∀ stored ∈ s.issuer, ∃ version ∈ s.versions, stored.resourceVersion = some version
  recalled : ∀ issuer, (⟨.issuer key, .ok (some issuer)⟩ : Hearing) ∈ s.minutes → s.Recalls issuer

theorem Coherent.fresh
    (hversioned : ∀ stored ∈ s.issuer, ∃ version ∈ s.versions,
      stored.resourceVersion = some version)
    (hminutes : s.minutes = []) : s.Coherent key := by
  refine ⟨hversioned, fun issuer hread => ?_⟩
  rw [hminutes] at hread
  cases hread

theorem Coherent.recalls_stored (hs : s.Coherent key) (hstored : s.issuer = some issuer) :
    s.Recalls issuer := by
  obtain ⟨version, hversion, hissuer⟩ := hs.versioned issuer hstored
  refine ⟨version, hversion, hissuer, fun stored h _ => ?_⟩
  exact Option.some.inj (h.symm.trans hstored)

theorem Recalls.eq_of_accepts {old : Issuer} (h : s.Recalls issuer)
    (haccepts : Accepts key s old issuer) : old = issuer := by
  obtain ⟨version, -, hissuer, hsame⟩ := h
  rcases haccepts.pinned with hnone | hpinned
  · cases hnone.symm.trans hissuer
  · exact hsame old haccepts.stored (hpinned.symm.trans hissuer)

theorem Coherent.put {version : String} (hs : s.Coherent key) (hfresh : version ∉ s.versions)
    (new : Issuer) : (s.put new version).Coherent key where
  versioned stored hstored := by
    cases hstored
    exact ⟨version, List.mem_cons_self, rfl⟩
  recalled issuer hread := by
    obtain ⟨known, hknown, hissuer, -⟩ := hs.recalled issuer hread
    refine ⟨known, List.mem_cons_of_mem _ hknown, hissuer, fun stored hstored hversion => ?_⟩
    -- a version that is new is not the one that was read
    cases hstored
    cases hversion
    exact absurd hknown hfresh

theorem Coherent.delete (hs : s.Coherent key) : Coherent key { s with issuer := none } where
  versioned stored hstored := nomatch hstored
  recalled issuer hread := by
    obtain ⟨version, hversion, hissuer, -⟩ := hs.recalled issuer hread
    exact ⟨version, hversion, hissuer, fun stored hstored => nomatch hstored⟩

theorem Coherent.note {q : Question} {a : q.Answer} (hs : s.Coherent key)
    (hread : ∀ issuer, (⟨.issuer key, .ok (some issuer)⟩ : Hearing) = ⟨q, a⟩ → s.Recalls issuer) :
    (s.note q a).Coherent key where
  versioned := hs.versioned
  recalled issuer hmem := by
    rcases List.mem_cons.mp hmem with heq | hmem
    · exact hread issuer heq
    · exact hs.recalled issuer hmem

theorem Coherent.answers {q : Question} {a : q.Answer} (hs : s.Coherent key)
    (h : Answers key s q a t) : t.Coherent key := by
  cases h with
  | read =>
    refine hs.note fun issuer heq => ?_
    injection heq with _ hanswer
    exact hs.recalls_stored (Except.ok.inj hanswer).symm
  | unread => exact hs.note fun _ heq => nomatch heq
  | stored _ hfresh => exact (hs.put hfresh _).note fun _ heq => nomatch heq
  | refused => exact hs.note fun _ heq => nomatch heq
  | aside haside =>
    refine hs.note fun issuer heq => ?_
    injection heq with hquestion _
    cases hquestion
    exact absurd rfl haside

theorem Coherent.moves (hs : s.Coherent key) (h : Moves key s t) : t.Coherent key := by
  cases h with
  | put _ hfresh => exact hs.put hfresh _
  | delete => exact hs.delete

theorem Coherent.opens {d : Dialogue Question Question.Answer (Except ControllerError Requeue)}
    (hs : s.Coherent key) (h : OpensIssuer settings key s d t) : t.Coherent key := by
  obtain ⟨-, rfl⟩ := h
  exact ⟨hs.versioned, fun _ hread => nomatch hread⟩

end IssuerSlot

/-! ### Runs -/

section Runs

variable {settings : Settings} {key : IssuerKey} {s : IssuerSlot} {S : IssuerScene}

theorem issuerSlot_minuted :
    Dialogue.Minuted (issuerSlot key) (OpensIssuer settings key) IssuerSlot.minutes where
  opens := by
    rintro s d t ⟨-, rfl⟩
    rfl
  answers := by
    intro s q a t h
    cases h <;> rfl
  moves := by
    intro s t h
    cases h <;> rfl

theorem coherent_of_run (hs : s.Coherent key) (hrun : IssuerRun settings key ⟨s, none⟩ S) :
    S.state.Coherent key :=
  Dialogue.run_invariant (fun _ _ _ _ h => h.answers) (fun _ _ _ h => h.opens)
    (fun _ _ h => h.moves) hrun hs

/-- What is left of a pass leads on from its minutes. -/
theorem goes_of_run {rest : Dialogue Question Question.Answer (Except ControllerError Requeue)}
    {after : List Hearing} {r : Except ControllerError Requeue}
    (hrun : IssuerRun settings key ⟨s, none⟩ S) (htalk : S.talk = some rest)
    (hrest : rest.Goes after r) :
    (issuerPass settings key).Goes (S.state.minutes.reverse ++ after) r := by
  obtain ⟨_, _, _, ⟨rfl, -⟩, hleaves⟩ := Dialogue.run_underway issuerSlot_minuted hrun rest htalk
  exact hleaves.goes hrest

end Runs

end CertIssuer.Reconcile
