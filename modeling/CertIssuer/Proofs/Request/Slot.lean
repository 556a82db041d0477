import CertIssuer.Proofs.Request.Outline
import CertIssuer.Proofs.Request.Status
import CertIssuer.World.Cluster

/-!
# The slot of a request

The place that the API server has for the request of one namespace and name, and what passes over
that request asked and were told. Reads and writes address the slot by its name. A write is refused
when the slot is empty or the version that it is pinned to is old, and every change takes another
version. What is asked of anybody else may be answered in any way.
-/

namespace CertIssuer

namespace Reconcile

open Dialogue (Surroundings)

structure Exchange where
  question : Question
  answer : question.Answer

def Exchange.isSign (e : Exchange) : Bool :=
  match e.question with
  | .sign _ _ _ => true
  | _ => false

theorem Exchange.isSign_look {q : Question} {a : q.Answer} (hq : q.IsLook) :
    isSign ⟨q, a⟩ = false := by
  cases q with
  | sign spec secrets order => exact hq.elim
  | _ => rfl

abbrev Stored (ns name : String) : Type :=
  { r : CertificateRequest // r.namespace = ns ∧ r.name = name }

def Stored.withStatus {ns name : String} (r : Stored ns name) (status : RequestStatus) :
    Stored ns name :=
  ⟨{ r.1 with status := some status }, r.2⟩

structure Slot (ns name : String) where
  object : Option (Stored ns name)
  version : Nat
  issued : Nat
  /-- The exchanges of the pass that opened last, the latest first. -/
  pass : List Exchange := []
  /-- The exchanges of the passes before it. -/
  earlier : List (List Exchange) := []

namespace Slot

variable {ns name : String}

def resourceVersion (s : Slot ns name) : String := toString s.version

def read (s : Slot ns name) : Option CertificateRequest :=
  s.object.map fun r => World.Cluster.withVersion r.1 s.resourceVersion

def status (s : Slot ns name) : RequestStatus :=
  (s.object.map (·.1.currentStatus)).getD {}

def passes (s : Slot ns name) : List (List Exchange) := s.pass :: s.earlier

def exchanges (s : Slot ns name) : List Exchange := s.passes.flatten

/-- An object over which no pass has been yet. -/
def fresh (r : Stored ns name) (version issued : Nat) : Slot ns name where
  object := some r
  version := version
  issued := issued

/-! ### Changes -/

def put (s : Slot ns name) (object : Option (Stored ns name)) : Slot ns name :=
  { s with object := object, version := s.version + 1 }

def heard (s : Slot ns name) (q : Question) (a : q.Answer) : Slot ns name :=
  { s with pass := ⟨q, a⟩ :: s.pass }

def begun (s : Slot ns name) : Slot ns name :=
  { s with pass := [], earlier := s.pass :: s.earlier }

/-- The status of the object gives way to a patch. -/
def Takes (s : Slot ns name) (patch : RequestStatus) (t : Slot ns name) : Prop :=
  ∃ r new, s.object = some r ∧ r.1.currentStatus.Patched patch new ∧
    t = s.put (some (r.withStatus new))

/-- Others write to the object, but leave alone its spec and the part of its status that passes
write. -/
def Edited (s t : Slot ns name) : Prop :=
  ∃ r r', s.object = some r ∧ r'.1.spec = r.1.spec ∧
    r'.1.currentStatus.own = r.1.currentStatus.own ∧ t = s.put (some r')

/-- Others edit, delete or create the object. -/
def Replaced (s t : Slot ns name) : Prop := ∃ object, t = s.put object

section Fields

variable (s : Slot ns name) (object : Option (Stored ns name)) (q : Question) (a : q.Answer)

@[simp] theorem pass_heard : (s.heard q a).pass = ⟨q, a⟩ :: s.pass := rfl

@[simp] theorem status_put (r : Stored ns name) :
    (s.put (some r)).status = r.1.currentStatus := rfl

end Fields

theorem Edited.status_own {s t : Slot ns name} (h : s.Edited t) : t.status.own = s.status.own := by
  obtain ⟨r, r', hobject, -, hown, rfl⟩ := h
  rw [status_put, hown, status, hobject]
  rfl

theorem Takes.patched {s t : Slot ns name} {patch : RequestStatus} (h : s.Takes patch t) :
    s.status.Patched patch t.status := by
  obtain ⟨r, new, hobject, hnew, rfl⟩ := h
  rw [status, hobject]
  exact hnew

/-! ### What a pass knows of the object that it read -/

/-- The object may have changed since it was read, but not in what passes write. -/
structure Shows (s : Slot ns name) (r : CertificateRequest) : Prop where
  named : r.namespace = ns ∧ r.name = name
  present : s.object.isSome
  own : s.status.own = r.currentStatus.own

theorem Shows.edited {s t : Slot ns name} {r : CertificateRequest} (h : s.Shows r)
    (hst : s.Edited t) : t.Shows r where
  named := h.named
  present := by
    obtain ⟨r, r', -, -, -, rfl⟩ := hst
    rfl
  own := hst.status_own.trans h.own

theorem Shows.named_work {s : Slot ns name} {r : CertificateRequest} {x : Work} (h : s.Shows r)
    (hx : x.IsStartOf r) : x.request.namespace = ns ∧ x.request.name = name :=
  hx.request ▸ h.named

theorem Shows.heard {s : Slot ns name} {r : CertificateRequest} (h : s.Shows r) (q : Question)
    (a : q.Answer) : (s.heard q a).Shows r :=
  ⟨h.named, h.present, h.own⟩

end Slot

/-! ### Answers -/

/-- Whether writes are refused exactly when they must be, or now and then for no reason. -/
inductive Service where
  | strict
  | lenient

namespace Service

variable {ns name : String}

def Accepts (v : Service) (s : Slot ns name) (r : CertificateRequest) (p : Precondition) : Prop :=
  match v with
  | strict => p.pinned r = none ∨ p.pinned r = some s.resourceVersion
  | lenient => True

def Refuses (v : Service) (s : Slot ns name) (r : CertificateRequest) (p : Precondition)
    (e : ControllerError) : Prop :=
  match v with
  | strict => s.object = none ∧ e = World.Cluster.notFound (World.Cluster.requestTarget r) ∨
    s.object.isSome ∧ ¬ strict.Accepts s r p ∧ e = .conflict (World.Cluster.requestTarget r)
  | lenient => True

/-- How the slot changes with an answer. -/
def Effect (v : Service) (s : Slot ns name) : (q : Question) → q.Answer → Slot ns name → Prop
  | .request ns' name', a, t =>
    (ns' = ns ∧ name' = name → a = .ok s.read ∨ ∃ e, a = .error e) ∧ t = s
  | .writeRequest r status p, a, t =>
    if r.namespace = ns ∧ r.name = name then
      a = .ok () ∧ v.Accepts s r p ∧ s.Takes status t ∨
        ∃ e, a = .error e ∧ v.Refuses s r p e ∧ t = s
    else t = s
  | .recordIssued, _, t => t = { s with issued := s.issued + 1 }
  | _, _, t => t = s

def surroundings (v : Service) (others : Slot ns name → Slot ns name → Prop) :
    Surroundings Question Question.Answer (Slot ns name) where
  answers s q a t := ∃ u, v.Effect s q a u ∧ t = u.heard q a
  moves := others

/-! ### What an answer tells -/

section Answers

variable {v : Service} {others : Slot ns name → Slot ns name → Prop} {s t : Slot ns name}

theorem eq_of_look {q : Question} {a : q.Answer} (hq : q.IsLook)
    (h : (v.surroundings others).answers s q a t) : t = s.heard q a := by
  obtain ⟨u, hu, rfl⟩ := h
  cases q with
  | request ns' name' =>
    obtain ⟨-, rfl⟩ := hu
    rfl
  | now | issuer _ | secret _ | buildSigner _ _ =>
    subst hu
    rfl
  | _ => exact hq.elim

theorem eq_of_read {a : Except ControllerError (Option CertificateRequest)}
    (h : (v.surroundings others).answers s (.request ns name) a t) :
    t = s.heard (.request ns name) a :=
  eq_of_look (q := .request ns name) trivial h

theorem eq_of_sign {spec : IssuerSpec} {secrets : IssuerSecrets} {order : SignOrder}
    {a : Option (Except SignerError SignedCertificate)}
    (h : (v.surroundings others).answers s (.sign spec secrets order) a t) :
    t = s.heard (.sign spec secrets order) a := by
  obtain ⟨u, rfl, rfl⟩ := h
  rfl

theorem eq_of_count (h : (v.surroundings others).answers s .recordIssued () t) :
    t = { s with issued := s.issued + 1 }.heard .recordIssued () := by
  obtain ⟨u, rfl, rfl⟩ := h
  rfl

theorem read_of_ok {r : CertificateRequest}
    (h : (v.surroundings others).answers s (.request ns name) (.ok (some r)) t) :
    ∃ stored, s.object = some stored ∧
      r = World.Cluster.withVersion stored.1 s.resourceVersion := by
  obtain ⟨u, ⟨hread, -⟩, -⟩ := h
  rcases hread ⟨rfl, rfl⟩ with hok | ⟨e, herror⟩
  · have hsome : s.read = some r := (Except.ok.inj hok).symm
    obtain ⟨stored, hobject, rfl⟩ := Option.map_eq_some_iff.mp hsome
    exact ⟨stored, hobject, rfl⟩
  · cases herror

theorem shows_of_read {r : CertificateRequest}
    (h : (v.surroundings others).answers s (.request ns name) (.ok (some r)) t) : t.Shows r := by
  obtain ⟨stored, hobject, rfl⟩ := read_of_ok h
  have hs : s.Shows (World.Cluster.withVersion stored.1 s.resourceVersion) := by
    refine ⟨stored.2, by simp [hobject], ?_⟩
    rw [Slot.status, hobject]
    rfl
  rw [eq_of_read h]
  exact hs.heard _ _

section Write

variable {r : CertificateRequest} {status : RequestStatus} {p : Precondition}
  (hnamed : r.namespace = ns ∧ r.name = name)

include hnamed

theorem takes_of_written
    (h : (v.surroundings others).answers s (.writeRequest r status p) (.ok ()) t) :
    v.Accepts s r p ∧ ∃ u, s.Takes status u ∧ t = u.heard (.writeRequest r status p) (.ok ()) := by
  obtain ⟨u, hu, rfl⟩ := h
  simp only [Effect, if_pos hnamed] at hu
  rcases hu with ⟨-, haccepts, htakes⟩ | ⟨e, herror, -⟩
  · exact ⟨haccepts, u, htakes, rfl⟩
  · cases herror

theorem refuses_of_error {e : ControllerError}
    (h : (v.surroundings others).answers s (.writeRequest r status p) (.error e) t) :
    v.Refuses s r p e ∧ t = s.heard (.writeRequest r status p) (.error e) := by
  obtain ⟨u, hu, rfl⟩ := h
  simp only [Effect, if_pos hnamed] at hu
  rcases hu with ⟨hok, -⟩ | ⟨e', herror, hrefuses, rfl⟩
  · cases hok
  · cases herror
    exact ⟨hrefuses, rfl⟩

end Write

end Answers

end Service

/-- A slot, and the pass over its request that is under way. -/
abbrev SlotScene (ns name : String) : Type :=
  Dialogue.Scene Question Question.Answer (Except ControllerError Requeue) (Slot ns name)

def Opens {ns name : String} (s : Slot ns name)
    (d : Dialogue Question Question.Answer (Except ControllerError Requeue))
    (t : Slot ns name) : Prop :=
  ∃ settings scheme, d = (requestPass settings scheme ns name).run ∧ t = s.begun

/-! ### Runs over a slot -/

section Runs

variable {ns name : String} {v : Service} {others : Slot ns name → Slot ns name → Prop}
  {G : Slot ns name → Slot ns name → Prop} {o : Outline (Slot ns name)}
  (h : o.Valid (v.surroundings others) G ns name)
  (hbegun : ∀ s : Slot ns name, o.idle s → o.opened s.begun)

include h hbegun

theorem Outline.Valid.opens {s t : Slot ns name}
    {d : Dialogue Question Question.Answer (Except ControllerError Requeue)} (hs : o.idle s)
    (hopen : Opens s d t) : d.Secures (v.surroundings others) G (fun _ => o.idle) t := by
  obtain ⟨settings, scheme, rfl, rfl⟩ := hopen
  exact h.secures settings scheme (hbegun s hs)

theorem Outline.Valid.sound {s : Slot ns name} {S : SlotScene ns name} (hs : o.idle s)
    (hS : Dialogue.Run (v.surroundings others) Opens ⟨s, none⟩ S) :
    S.Sound (v.surroundings others) G o.idle := by
  have hstart : Dialogue.Scene.Sound (v.surroundings others) G o.idle
      (⟨s, none⟩ : SlotScene ns name) := hs
  exact Dialogue.run_sound (fun _ _ => h.idle_move) (fun _ _ _ => h.opens hbegun) hstart hS

/-- What guaranteed answers, others and openings keep is kept from a point of a run on. -/
theorem Outline.Valid.keeps {P : Slot ns name → Prop} {s : Slot ns name} {S T : SlotScene ns name}
    (hs : o.idle s) (hS : Dialogue.Run (v.surroundings others) Opens ⟨s, none⟩ S)
    (hT : Dialogue.Run (v.surroundings others) Opens S T) (hanswer : ∀ s t, G s t → P s → P t)
    (hothers : ∀ s t, others s t → P s → P t) (hstart : ∀ s : Slot ns name, P s → P s.begun)
    (hP : P S.state) : P T.state := by
  refine Dialogue.run_keeps (fun _ _ => h.idle_move) (fun _ _ _ => h.opens hbegun)
    (h.sound hbegun hs hS) hT hanswer hothers ?_ hP
  rintro t d u ⟨_, _, -, rfl⟩ ht
  exact hstart t ht

end Runs

end Reconcile

end CertIssuer
