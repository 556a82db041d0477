import CertIssuer.Proofs.Request.Slot

/-!
# Passes by computation

A service that answers at once from the slot and from a world, with others who act at chosen
moments, makes a run out of a pass. It shows that the surroundings of a slot are not empty, and gives
runs to look at.
-/

namespace CertIssuer.Reconcile

namespace Service

variable {ns name : String}

/-- A service that answers at once: reads and writes from the slot, and the rest from a world.
Others may act before each answer. -/
def serve (world : (q : Question) → q.Answer) (meanwhile : Question → Slot ns name → Slot ns name)
    (q : Question) (s : Slot ns name) : q.Answer × Slot ns name :=
  let s := meanwhile q s
  let (a, u) : q.Answer × Slot ns name := match q with
    | .request _ _ => (.ok s.read, s)
    | .writeRequest r status p =>
      if r.namespace = ns ∧ r.name = name then
        match s.object with
        | none => (.error (World.Cluster.notFound (World.Cluster.requestTarget r)), s)
        | some stored =>
          if p.pinned r = none ∨ p.pinned r = some s.resourceVersion then
            (.ok (), s.put (some (stored.withStatus status)))
          else (.error (.conflict (World.Cluster.requestTarget r)), s)
      else (.error (World.Cluster.notFound (World.Cluster.requestTarget r)), s)
    | .recordIssued => ((), { s with issued := s.issued + 1 })
    | q => (world q, s)
  (a, u.heard q a)

theorem answers_serve {v : Service} {others : Slot ns name → Slot ns name → Prop}
    (world : (q : Question) → q.Answer) (meanwhile : Question → Slot ns name → Slot ns name)
    (q : Question) (s : Slot ns name) :
    (v.surroundings others).answers (meanwhile q s) q (serve world meanwhile q s).1
      (serve world meanwhile q s).2 := by
  unfold serve
  generalize meanwhile q s = t
  cases q with
  | request ns' name' => exact ⟨t, ⟨fun _ => .inl rfl, rfl⟩, rfl⟩
  | writeRequest r status p =>
    by_cases hnamed : r.namespace = ns ∧ r.name = name
    · refine ⟨_, ?_, rfl⟩
      simp only [Effect, if_pos hnamed]
      cases hobject : t.object with
      | none =>
        refine .inr ⟨_, rfl, ?_, rfl⟩
        cases v with
        | strict => exact .inl ⟨hobject, rfl⟩
        | lenient => trivial
      | some stored =>
        by_cases haccepts : p.pinned r = none ∨ p.pinned r = some t.resourceVersion
        · simp only [if_pos haccepts]
          refine .inl ⟨rfl, ?_, stored, status, hobject, .inl rfl, rfl⟩
          cases v with
          | strict => exact haccepts
          | lenient => trivial
        · simp only [if_neg haccepts]
          refine .inr ⟨_, rfl, ?_, trivial⟩
          cases v with
          | strict => exact .inr ⟨by simp [hobject], haccepts, rfl⟩
          | lenient => trivial
    · refine ⟨_, ?_, rfl⟩
      simp only [Effect, if_neg hnamed]
  | recordIssued => exact ⟨_, rfl, rfl⟩
  | _ => exact ⟨t, rfl, rfl⟩

theorem serve_answers {v : Service} {others : Slot ns name → Slot ns name → Prop}
    (world : (q : Question) → q.Answer) {meanwhile : Question → Slot ns name → Slot ns name}
    (hmeanwhile : ∀ q s, (v.surroundings others).Later s (meanwhile q s)) (q : Question)
    (s : Slot ns name) :
    ∃ t, (v.surroundings others).Later s t ∧
      (v.surroundings others).answers t q (serve world meanwhile q s).1
        (serve world meanwhile q s).2 :=
  ⟨meanwhile q s, hmeanwhile q s, answers_serve world meanwhile q s⟩

end Service

/-! ### Runs -/

section Pass

variable {ns name : String}

theorem step_begun {v : Service} {others : Slot ns name → Slot ns name → Prop} (settings : Settings)
    (scheme : Scheme) (s : Slot ns name) :
    Dialogue.Step (v.surroundings others) Opens ⟨s, none⟩
      ⟨s.begun, some (requestPass settings scheme ns name).run⟩ :=
  .start ⟨settings, scheme, rfl, rfl⟩

section Held

variable (world : (q : Question) → q.Answer)
  (meanwhile : Question → Slot ns name → Slot ns name) (settings : Settings) (scheme : Scheme)

def Slot.afterPass (s : Slot ns name) : Slot ns name :=
  ((requestPass settings scheme ns name).run.hold (Service.serve world meanwhile) s.begun).2

theorem run_afterPass {v : Service} {others : Slot ns name → Slot ns name → Prop}
    {meanwhile : Question → Slot ns name → Slot ns name}
    (hmeanwhile : ∀ q s, (v.surroundings others).Later s (meanwhile q s)) (s : Slot ns name) :
    Dialogue.Run (v.surroundings others) Opens ⟨s, none⟩
      ⟨s.afterPass world meanwhile settings scheme, none⟩ := by
  have hheld : Dialogue.Run (v.surroundings others) Opens
      ⟨s.begun, some (requestPass settings scheme ns name).run⟩
      ⟨s.afterPass world meanwhile settings scheme, some (.done _)⟩ :=
    Dialogue.run_hold (Service.serve_answers world hmeanwhile) _ s.begun
  exact (Relation.ReflTransGen.head (step_begun settings scheme s) hheld).tail .finish

/-- A pass that a service has answered some questions of. -/
def Slot.partOfPass (n : Nat) (s : Slot ns name) :
    Dialogue Question Question.Answer (Except ControllerError Requeue) × Slot ns name :=
  (requestPass settings scheme ns name).run.holdFor (Service.serve world meanwhile) n s.begun

/-- The scene in which the next question is open. -/
def Slot.partScene (n : Nat) (s : Slot ns name) : SlotScene ns name :=
  ⟨(s.partOfPass world meanwhile settings scheme n).2,
    some (s.partOfPass world meanwhile settings scheme n).1⟩

theorem run_partScene {v : Service} {others : Slot ns name → Slot ns name → Prop}
    {meanwhile : Question → Slot ns name → Slot ns name}
    (hmeanwhile : ∀ q s, (v.surroundings others).Later s (meanwhile q s)) (n : Nat)
    (s : Slot ns name) :
    Dialogue.Run (v.surroundings others) Opens ⟨s, none⟩
      (s.partScene world meanwhile settings scheme n) := by
  have hheld : Dialogue.Run (v.surroundings others) Opens
      ⟨s.begun, some (requestPass settings scheme ns name).run⟩
      (s.partScene world meanwhile settings scheme n) :=
    Dialogue.run_holdFor (Service.serve_answers world hmeanwhile) n _ s.begun
  exact Relation.ReflTransGen.head (step_begun settings scheme s) hheld

theorem step_partScene {v : Service} {others : Slot ns name → Slot ns name → Prop} {n : Nat}
    {s : Slot ns name} {q : Question}
    {next : q.Answer → Dialogue Question Question.Answer (Except ControllerError Requeue)}
    (hopen : (s.partOfPass world meanwhile settings scheme n).1 = .ask q next)
    (hstill : ∀ t, meanwhile q t = t) :
    Dialogue.Step (v.surroundings others) Opens (s.partScene world meanwhile settings scheme n)
      (s.partScene world meanwhile settings scheme (n + 1)) := by
  have hanswer : (v.surroundings others).answers _ q _ _ :=
    Service.answers_serve world meanwhile q (s.partOfPass world meanwhile settings scheme n).2
  rw [hstill] at hanswer
  have hnext : s.partOfPass world meanwhile settings scheme (n + 1) = _ :=
    Dialogue.holdFor_succ (Service.serve world meanwhile) hopen
  unfold Slot.partScene
  rw [hopen, hnext]
  exact .hear hanswer

end Held

/-- Somebody touches the object while the signer is busy. -/
def touching (q : Question) (s : Slot ns name) : Slot ns name :=
  match q, s.object with
  | .sign _ _ _, some r => s.put (some r)
  | _, _ => s

theorem later_touching (v : Service) (q : Question) (s : Slot ns name) :
    (v.surroundings Slot.Edited).Later s (touching q s) := by
  unfold touching
  split
  · next r hobject => exact .single ⟨r, r, hobject, rfl, rfl, rfl⟩
  · exact .refl

end Pass

/-! ### A world that signs -/

def sampleRequest (csr : String) (status : RequestStatus) : Stored "apps" "web" where
  val := {
    metadata := { name := some "web", «namespace» := some "apps" }
    spec := {
      request := csr
      duration := none
      issuerRef := { name := "ca", kind := some "Issuer", group := some IssuerKind.group }
      usages := []
      isCA := false
      username := none }
    status := some status }
  property := ⟨rfl, rfl⟩

def sampleIssuer : Issuer where
  kind := .namespaced
  name := "ca"
  «namespace» := some "apps"
  generation := none
  resourceVersion := none
  spec := {
    hostname := "ca.example"
    apiPath := IssuerSpec.defaultApiPath
    commandSecretName := "credentials"
    caSecretName := none
    secretNamespace := none
    certificateTemplate := "server"
    certificateAuthorityLogicalName := "root"
    certificateAuthorityHostname := none
    scopes := none
    audience := none }
  status := { conditions := [{ type := Condition.ready, status := .isTrue }] }

/-- A world with an issuer that is ready and a signer that gives one answer. -/
def sampleWorld (answer : Except SignerError SignedCertificate) : (q : Question) → q.Answer
  | .now => (⟨0, 0⟩ : Timestamp)
  | .issuer _ => .ok (some sampleIssuer)
  | .request _ _ => .ok none
  | .secret _ => .ok (some [])
  | .buildSigner _ _ => .ok ()
  | .sign _ _ _ => some answer
  | .buildChecker _ _ => .ok ()
  | .check _ _ => some (.ok ())
  | .writeIssuer _ _ => .ok ()
  | .writeRequest _ _ _ => .ok ()
  | .recordIssued => ()

def sampleSettings : Settings := { checkApproved := false }

end CertIssuer.Reconcile
