import CertIssuer.Proofs.Replacement

/-!
# Visits

A stored object is visited by one pass after another. Each pass is held in a world of its own, which
shows the object as the visit before has left it. A status that is written and accepted is stored
under a new version; nobody else touches the object.
-/

namespace CertIssuer

/-- The request is the same but for its status, its version and the record of who has set it. -/
structure CertificateRequest.Restated (r r' : CertificateRequest) : Prop where
  spec : r'.spec = r.spec
  metadata : ∃ version managers,
    r'.metadata = { r.metadata with resourceVersion := version, managedFields := managers }

namespace CertificateRequest.Restated

variable {r r' r'' : CertificateRequest}

theorem refl (r : CertificateRequest) : r.Restated r := ⟨rfl, _, _, rfl⟩

theorem trans (h : r.Restated r') (h' : r'.Restated r'') : r.Restated r'' := by
  obtain ⟨version, managers, hmetadata⟩ := h.metadata
  obtain ⟨version', managers', hmetadata'⟩ := h'.metadata
  refine ⟨h'.spec.trans h.spec, version', managers', ?_⟩
  rw [hmetadata', hmetadata]

theorem namespace_eq (h : r.Restated r') : r'.namespace = r.namespace := by
  obtain ⟨version, managers, hmetadata⟩ := h.metadata
  simp only [CertificateRequest.namespace, hmetadata]

theorem generation_eq (h : r.Restated r') : r'.metadata.generation = r.metadata.generation := by
  obtain ⟨version, managers, hmetadata⟩ := h.metadata
  rw [hmetadata]

theorem annotations_eq (h : r.Restated r') :
    r'.metadata.allAnnotations = r.metadata.allAnnotations := by
  obtain ⟨version, managers, hmetadata⟩ := h.metadata
  rw [hmetadata]
  rfl

theorem kind_eq (h : r.Restated r') (scheme : Scheme) :
    Reconcile.issuerKindOf? scheme r' = Reconcile.issuerKindOf? scheme r := by
  simp only [Reconcile.issuerKindOf?, h.spec]

end CertificateRequest.Restated

namespace Reconcile

open Pass

/-- The time that a world shows. -/
def clock (world : (q : Question) → q.Answer) : Timestamp := world .now

/-! ### One visit -/

/-- A pass over a stored request, and what is stored after it. -/
inductive RequestVisit (settings : Settings) (scheme : Scheme) (ns name : String)
    (world : (q : Question) → q.Answer) (r : CertificateRequest) : CertificateRequest → Prop
  | kept : world (.request ns name) = .ok (some r) →
      (∀ status p, .writeRequest r status p ∈ asked world (requestPass settings scheme ns name) →
        world (.writeRequest r status p) ≠ .ok ()) →
      RequestVisit settings scheme ns name world r r
  | written {status : RequestStatus} {p : Precondition} {r' : CertificateRequest} :
      world (.request ns name) = .ok (some r) →
      .writeRequest r status p ∈ asked world (requestPass settings scheme ns name) →
      world (.writeRequest r status p) = .ok () → r.Restated r' →
      r.currentStatus.Patched status r'.currentStatus →
      RequestVisit settings scheme ns name world r r'

/-- A pass over a stored issuer, and what is stored after it. -/
inductive IssuerVisit (settings : Settings) (key : IssuerKey) (world : (q : Question) → q.Answer)
    (i : Issuer) : Issuer → Prop
  | kept : world (.issuer key) = .ok (some i) →
      (∀ status, .writeIssuer i status ∈ asked world (issuerPass settings key) →
        world (.writeIssuer i status) ≠ .ok ()) →
      IssuerVisit settings key world i i
  | written {status : IssuerStatus} (version : Option String) :
      world (.issuer key) = .ok (some i) →
      .writeIssuer i status ∈ asked world (issuerPass settings key) →
      world (.writeIssuer i status) = .ok () →
      IssuerVisit settings key world i { i with resourceVersion := version, status := status }

section Visit

variable {settings : Settings} {world : (q : Question) → q.Answer}

theorem RequestVisit.found {scheme : Scheme} {ns name : String} {r r' : CertificateRequest}
    (h : RequestVisit settings scheme ns name world r r') :
    world (.request ns name) = .ok (some r) := by
  cases h with
  | kept hfound _ => exact hfound
  | written hfound _ _ _ _ => exact hfound

theorem IssuerVisit.found {key : IssuerKey} {i i' : Issuer}
    (h : IssuerVisit settings key world i i') : world (.issuer key) = .ok (some i) := by
  cases h with
  | kept hfound _ => exact hfound
  | written _ hfound _ _ => exact hfound

theorem RequestVisit.restated {scheme : Scheme} {ns name : String} {r r' : CertificateRequest}
    (h : RequestVisit settings scheme ns name world r r') :
    r.Restated r' := by
  cases h with
  | kept _ _ => exact .refl r
  | written _ _ _ hrestated _ => exact hrestated

theorem exists_requestVisit {scheme : Scheme} {ns name : String} {r : CertificateRequest}
    (hfound : world (.request ns name) = .ok (some r)) :
    ∃ r', RequestVisit settings scheme ns name world r r' := by
  by_cases haccepted : ∃ status p,
      .writeRequest r status p ∈ asked world (requestPass settings scheme ns name) ∧
        world (.writeRequest r status p) = .ok ()
  · obtain ⟨status, p, hwrite, hok⟩ := haccepted
    exact ⟨{ r with status := some status },
      .written hfound hwrite hok ⟨rfl, _, _, rfl⟩ (.inl rfl)⟩
  · exact ⟨r, .kept hfound fun status p hwrite hok => haccepted ⟨status, p, hwrite, hok⟩⟩

end Visit

/-! ### One visit after another -/

/-- An object is visited in some worlds, in order. -/
inductive Visits {ω α : Type} (visit : ω → α → α → Prop) : List ω → α → α → Prop
  | none (a : α) : Visits visit [] a a
  | next {world : ω} {worlds : List ω} {a b c : α} :
      visit world a b → Visits visit worlds b c → Visits visit (world :: worlds) a c

theorem Visits.keeps {ω α : Type} {visit : ω → α → α → Prop} {worlds : List ω} {a b : α}
    (h : Visits visit worlds a b) (Holds : α → Prop) (Shown : ω → Prop)
    (hstep : ∀ world ∈ worlds, ∀ a b, Holds a → visit world a b → Shown world ∧ Holds b)
    (ha : Holds a) : Holds b ∧ ∀ world ∈ worlds, Shown world := by
  induction h with
  | none a => exact ⟨ha, nofun⟩
  | @next world worlds a b c hvisit _ ih =>
    obtain ⟨hshown, hb⟩ := hstep world List.mem_cons_self a b ha hvisit
    obtain ⟨hc, hrest⟩ := ih (fun w hw => hstep w (List.mem_cons_of_mem world hw)) hb
    exact ⟨hc, List.forall_mem_cons.mpr ⟨hshown, hrest⟩⟩

end Reconcile

end CertIssuer
