import CertIssuer.Reconcile.Pass

/-!
# What a dialogue may ask and how it may end

Two views of a dialogue that leave its surroundings open. `Within` bounds the questions it may ask
and the results it may have, whatever it is answered. `asked` and `result` say what comes of it in
a world that answers each question in one way.

A pass is a dialogue whose result may be an error. An error ends it, so the laws of `bind` have
nothing to say about what would have come later.
-/

namespace CertIssuer.Dialogue

variable {Question : Type} {Answer : Question → Type} {α β : Type}

instance : LawfulMonad (Dialogue Question Answer) :=
  LawfulMonad.mk' _ (fun d => bind_done d) (fun _ _ => rfl) bind_assoc

/-! ### Bounds -/

/-- Only questions of a kind are asked, and only results of a kind come out. -/
def Within (Asks : Question → Prop) (Ends : α → Prop) : Dialogue Question Answer α → Prop
  | done a => Ends a
  | ask q next => Asks q ∧ ∀ a, (next a).Within Asks Ends

theorem Within.mono {Asks : Question → Prop} {Ends Ends' : α → Prop}
    {d : Dialogue Question Answer α} (h : d.Within Asks Ends) (hends : ∀ a, Ends a → Ends' a) :
    d.Within Asks Ends' := by
  induction d with
  | done a => exact hends a h
  | ask q next ih => exact ⟨h.1, fun a => ih a (h.2 a)⟩

theorem Within.widen {Asks Asks' : Question → Prop} {Ends : α → Prop}
    {d : Dialogue Question Answer α} (h : d.Within Asks Ends) (hasks : ∀ q, Asks q → Asks' q) :
    d.Within Asks' Ends := by
  induction d with
  | done a => exact h
  | ask q next ih => exact ⟨hasks q h.1, fun a => ih a (h.2 a)⟩

theorem Within.bind {Asks : Question → Prop} {Ends : α → Prop} {Ends' : β → Prop}
    {d : Dialogue Question Answer α} {f : α → Dialogue Question Answer β}
    (h : d.Within Asks Ends) (hf : ∀ a, Ends a → (f a).Within Asks Ends') :
    (d >>= f).Within Asks Ends' := by
  induction d with
  | done a => exact hf a h
  | ask q next ih => exact ⟨h.1, fun a => ih a (h.2 a)⟩

/-! ### In a fixed world -/

/-- The questions that are asked in a world, in order. -/
def asked (world : (q : Question) → Answer q) : Dialogue Question Answer α → List Question
  | done _ => []
  | ask q next => q :: (next (world q)).asked world

def result (world : (q : Question) → Answer q) : Dialogue Question Answer α → α
  | done a => a
  | ask q next => (next (world q)).result world

variable (world : (q : Question) → Answer q)

@[simp] theorem asked_done (a : α) :
    (done a : Dialogue Question Answer α).asked world = [] := rfl

@[simp] theorem result_done (a : α) :
    (done a : Dialogue Question Answer α).result world = a := rfl

@[simp] theorem asked_ask (q : Question) (next : Answer q → Dialogue Question Answer α) :
    (ask q next).asked world = q :: (next (world q)).asked world := rfl

@[simp] theorem result_ask (q : Question) (next : Answer q → Dialogue Question Answer α) :
    (ask q next).result world = (next (world q)).result world := rfl

theorem asked_bind (d : Dialogue Question Answer α) (f : α → Dialogue Question Answer β) :
    (d >>= f).asked world = d.asked world ++ (f (d.result world)).asked world := by
  induction d with
  | done a => rfl
  | ask q next ih =>
    rw [ask_bind, asked_ask, ih, asked_ask, result_ask, List.cons_append]

theorem result_bind (d : Dialogue Question Answer α) (f : α → Dialogue Question Answer β) :
    (d >>= f).result world = (f (d.result world)).result world := by
  induction d with
  | done a => rfl
  | ask q next ih =>
    rw [ask_bind, result_ask, ih, result_ask]

variable {world} in
/-- A dialogue goes the same way in a world that gives the same answers to what it asks. -/
theorem asked_congr {world' : (q : Question) → Answer q} {d : Dialogue Question Answer α}
    (h : ∀ q ∈ d.asked world, world' q = world q) :
    d.asked world' = d.asked world ∧ d.result world' = d.result world := by
  induction d with
  | done a => exact ⟨rfl, rfl⟩
  | ask q next ih =>
    have hq : world' q = world q := h q List.mem_cons_self
    obtain ⟨hasked, hresult⟩ := ih (world q) fun q' hq' => h q' (List.mem_cons_of_mem q hq')
    rw [asked_ask, asked_ask, result_ask, result_ask, hq]
    exact ⟨congrArg (q :: ·) hasked, hresult⟩

theorem Within.asked {Asks : Question → Prop} {Ends : α → Prop} {d : Dialogue Question Answer α}
    (h : d.Within Asks Ends) : ∀ q ∈ d.asked world, Asks q := by
  induction d with
  | done a => simp
  | ask q next ih =>
    intro q' hq
    rcases List.mem_cons.mp hq with rfl | hq
    · exact h.1
    · exact ih _ (h.2 _) q' hq

theorem Within.result {Asks : Question → Prop} {Ends : α → Prop} {d : Dialogue Question Answer α}
    (h : d.Within Asks Ends) : Ends (d.result world) := by
  induction d with
  | done a => exact h
  | ask q next ih => exact ih _ (h.2 _)

end CertIssuer.Dialogue

namespace CertIssuer.Pass

open Reconcile

variable {α β : Type}

/-! ### Passes -/

theorem run_bind (x : Pass α) (f : α → Pass β) :
    (x >>= f).run = x.run >>= fun
      | .ok a => (f a).run
      | .error e => Dialogue.done (.error e) := by
  rw [ExceptT.run_bind]
  congr 1
  funext r
  cases r <;> rfl

@[simp] theorem run_pure (a : α) : (pure a : Pass α).run = Dialogue.done (.ok a) := rfl

/-- Only questions of a kind are asked, and what comes out is an error or of a kind. -/
def Within (Asks : Question → Prop) (Ends : α → Prop) (x : Pass α) : Prop :=
  x.run.Within Asks fun r => ∀ a, r = .ok a → Ends a

theorem within_pure {Asks : Question → Prop} {Ends : α → Prop} {a : α} (h : Ends a) :
    Within Asks Ends (pure a) := by
  intro b hb
  cases hb
  exact h

theorem Within.mono {Asks : Question → Prop} {Ends Ends' : α → Prop} {x : Pass α}
    (h : Within Asks Ends x) (hends : ∀ a, Ends a → Ends' a) : Within Asks Ends' x :=
  Dialogue.Within.mono h fun _ hr a ha => hends a (hr a ha)

theorem Within.widen {Asks Asks' : Question → Prop} {Ends : α → Prop} {x : Pass α}
    (h : Within Asks Ends x) (hasks : ∀ q, Asks q → Asks' q) : Within Asks' Ends x :=
  Dialogue.Within.widen h hasks

theorem Within.bind {Asks : Question → Prop} {Ends : α → Prop} {Ends' : β → Prop}
    {x : Pass α} {f : α → Pass β} (h : Within Asks Ends x)
    (hf : ∀ a, Ends a → Within Asks Ends' (f a)) : Within Asks Ends' (x >>= f) := by
  unfold Within
  rw [run_bind]
  refine Dialogue.Within.bind h fun r hr => ?_
  cases r with
  | ok a => exact hf a (hr a rfl)
  | error e =>
    intro a ha
    cases ha

section Questions

variable {Asks : Question → Prop}

theorem within_ask {q : Question} (h : Asks q) : Within Asks (fun _ => True) (ask q) :=
  ⟨h, fun _ _ _ => trivial⟩

theorem within_getRequest {ns name : String} (h : Asks (.request ns name)) :
    Within Asks (fun _ => True) (getRequest ns name) :=
  ⟨h, fun _ _ _ => trivial⟩

theorem within_getIssuer {key : IssuerKey} (h : Asks (.issuer key)) :
    Within Asks (fun _ => True) (getIssuer key) :=
  ⟨h, fun _ _ _ => trivial⟩

theorem within_getSecret {key : Secret.Key} (h : Asks (.secret key)) :
    Within Asks (fun _ => True) (getSecret key) :=
  ⟨h, fun _ _ _ => trivial⟩

theorem within_writeRequest {request : CertificateRequest} {status : RequestStatus}
    {p : Precondition} (h : Asks (.writeRequest request status p)) :
    Within Asks (fun _ => True) (writeRequest request status p) :=
  ⟨h, fun _ _ _ => trivial⟩

end Questions

-- Opened by the laws above alone: its unfolding would evaluate the pass it speaks of.
attribute [irreducible] Within

def asked (world : (q : Question) → q.Answer) (x : Pass α) : List Question := x.run.asked world

def result (world : (q : Question) → q.Answer) (x : Pass α) : Except ControllerError α :=
  x.run.result world

variable (world : (q : Question) → q.Answer)

@[simp] theorem asked_pure (a : α) : asked world (pure a : Pass α) = [] := rfl

@[simp] theorem result_pure (a : α) : result world (pure a : Pass α) = .ok a := rfl

theorem asked_bind (x : Pass α) (f : α → Pass β) :
    asked world (x >>= f) = asked world x ++
      match result world x with
      | .ok a => asked world (f a)
      | .error _ => [] := by
  simp only [asked, result, run_bind, Dialogue.asked_bind]
  cases x.run.result world <;> rfl

theorem result_bind (x : Pass α) (f : α → Pass β) :
    result world (x >>= f) =
      match result world x with
      | .ok a => result world (f a)
      | .error e => .error e := by
  simp only [result, run_bind, Dialogue.result_bind]
  cases x.run.result world <;> rfl

theorem Within.asked {Asks : Question → Prop} {Ends : α → Prop} {x : Pass α}
    (h : Within Asks Ends x) : ∀ q ∈ asked world x, Asks q := by
  unfold Within at h
  exact Dialogue.Within.asked world h

theorem Within.result {Asks : Question → Prop} {Ends : α → Prop} {x : Pass α} {a : α}
    (h : Within Asks Ends x) (ha : result world x = .ok a) : Ends a := by
  unfold Within at h
  exact Dialogue.Within.result world h a ha

theorem mem_asked_bind {x : Pass α} {f : α → Pass β} {q : Question} :
    q ∈ asked world (x >>= f) ↔
      q ∈ asked world x ∨ ∃ a, result world x = .ok a ∧ q ∈ asked world (f a) := by
  rw [asked_bind, List.mem_append]
  cases result world x with
  | ok a => simp
  | error e => simp

section Questions

variable (q : Question) (ns name : String) (key : IssuerKey) (k : Secret.Key)

@[simp] theorem asked_ask : asked world (ask q) = [q] := rfl

@[simp] theorem result_ask : result world (ask q) = .ok (world q) := rfl

@[simp] theorem asked_now : asked world now = [.now] := rfl

@[simp] theorem result_now : result world now = .ok (world .now) := rfl

@[simp] theorem asked_getRequest : asked world (getRequest ns name) = [.request ns name] := rfl

@[simp] theorem result_getRequest :
    result world (getRequest ns name) = world (.request ns name) := rfl

@[simp] theorem asked_getIssuer : asked world (getIssuer key) = [.issuer key] := rfl

@[simp] theorem result_getIssuer : result world (getIssuer key) = world (.issuer key) := rfl

@[simp] theorem asked_getSecret : asked world (getSecret k) = [.secret k] := rfl

@[simp] theorem result_getSecret : result world (getSecret k) = world (.secret k) := rfl

@[simp] theorem asked_writeIssuer (issuer : Issuer) (status : IssuerStatus) :
    asked world (writeIssuer issuer status) = [.writeIssuer issuer status] := rfl

end Questions

theorem result_bind_eq_ok {x : Pass α} {f : α → Pass β} {b : β} :
    result world (x >>= f) = .ok b ↔ ∃ a, result world x = .ok a ∧ result world (f a) = .ok b := by
  rw [result_bind]
  cases result world x with
  | ok a => simp
  | error e => simp

end CertIssuer.Pass
