import CertIssuer.Proofs.Dialogue.Course
import CertIssuer.Proofs.Request.Status
import CertIssuer.Proofs.Secrets.Resolution

/-!
# The course of a pass over a request

The ways in which a pass over a request may go when it ends well. A pass that finds something to do
looks around, may have the request signed, and takes an exit; each exit has its status and its time
of the next pass (`goes_take`), and the status of the exit is the one that the pass leaves.
-/

namespace CertIssuer.Reconcile

open Pass

variable {settings : Settings} {scheme : Scheme} {ns name : String} {kind : IssuerKind} {w : Work}
  {heard : List Hearing} {requeue : Requeue}

/-! ### Looking around -/

namespace Work

/-- The delay before the next pass when it is not the authority that is waited for. -/
def patience (w : Work) (settings : Settings) : Span :=
  settings.retry.requeueAfter (w.now.elapsedSince w.request.metadata.creationTime?)

/-- What is heard when an issuer is looked up and found. -/
abbrev meets (w : Work) (kind : IssuerKind) (issuer : Issuer) : Hearing :=
  ⟨.issuer (w.issuerKey kind), .ok (some issuer)⟩

/-- Neither the approver nor the issuer is waited for. -/
structure Clear (w : Work) (settings : Settings) (issuer : Issuer) : Prop where
  gate : w.status.gate settings.checkApproved = .proceed
  ready : issuer.status.isReady = true

end Work

/-- How looking around with some work may go, and what comes of it. -/
inductive Sought (settings : Settings) (kind : IssuerKind) (w : Work) :
    List Hearing → Finding → Prop
  | awaitApproval : w.status.gate settings.checkApproved = .awaitApproval →
      Sought settings kind w [] (.exit w .awaitApproval)
  | deny : w.status.gate settings.checkApproved = .denied →
      Sought settings kind w [] (.exit w .deny)
  | noIssuer : w.status.gate settings.checkApproved = .proceed →
      Sought settings kind w [⟨.issuer (w.issuerKey kind), .ok none⟩]
        (.exit w (.awaitIssuer (kind.text ++ " " ++ w.request.spec.issuerRef.name ++ " not found")
          (w.patience settings)))
  | notReady {issuer : Issuer} : w.status.gate settings.checkApproved = .proceed →
      issuer.status.isReady = false →
        Sought settings kind w [w.meets kind issuer]
          (.exit w (.awaitIssuer (issuer.displayName ++ " is not Ready") (w.patience settings)))
  | noSecrets {issuer : Issuer} {loading : List Hearing} {e : IssuerConfigError} :
      w.Clear settings issuer → (loadSecrets settings issuer).Goes loading (.ok (.error e)) →
        Sought settings kind w (w.meets kind issuer :: loading)
          (.exit w (.retry ("issuer secrets unavailable: " ++ e.message) (w.patience settings)))
  | unreadable {issuer : Issuer} {loading : List Hearing} {secrets : IssuerSecrets}
    {text : String} : w.Clear settings issuer →
      (loadSecrets settings issuer).Goes loading (.ok (.ok secrets)) → w.order? = .error text →
        Sought settings kind w (w.meets kind issuer :: loading)
          (.exit w (.fail text .resourceVersion))
  | noSigner {issuer : Issuer} {loading : List Hearing} {secrets : IssuerSecrets}
    {e : SignerError} : w.Clear settings issuer →
      (loadSecrets settings issuer).Goes loading (.ok (.ok secrets)) →
        Sought settings kind w
          (w.meets kind issuer :: (loading ++ [⟨.buildSigner issuer.spec secrets, .error e⟩]))
          (.exit w (.retry ("failed to build signer: " ++ e.message) (w.patience settings)))
  | order {issuer : Issuer} {loading : List Hearing} {secrets : IssuerSecrets}
    {order : SignOrder} : w.Clear settings issuer →
      (loadSecrets settings issuer).Goes loading (.ok (.ok secrets)) → w.order? = .ok order →
        Sought settings kind w
          (w.meets kind issuer :: (loading ++ [⟨.buildSigner issuer.spec secrets, .ok ()⟩]))
          (.order w issuer secrets order)

theorem sought_of_goes {finding : Finding}
    (h : (w.seekApproval settings kind).Goes heard (.ok finding)) :
    Sought settings kind w heard finding := by
  unfold Work.seekApproval at h
  cases hgate : w.status.gate settings.checkApproved with
  | awaitApproval =>
    simp only [hgate] at h
    obtain ⟨rfl, hfinding⟩ := goes_pure.mp h
    cases hfinding
    exact .awaitApproval hgate
  | denied =>
    simp only [hgate] at h
    obtain ⟨rfl, hfinding⟩ := goes_pure.mp h
    cases hfinding
    exact .deny hgate
  | proceed =>
    simp only [hgate] at h
    obtain ⟨first, rest, found, rfl, hlook, hfound⟩ := goes_bind_ok.mp h
    rw [goes_getIssuer.mp hlook]
    cases found with
    | none =>
      obtain ⟨rfl, hfinding⟩ := goes_pure.mp hfound
      cases hfinding
      exact .noIssuer hgate
    | some issuer =>
      by_cases hready : issuer.status.isReady = true
      · simp only [if_pos hready] at hfound
        have hclear : w.Clear settings issuer := ⟨hgate, hready⟩
        obtain ⟨loading, rest, loaded, rfl, hloading, hloaded⟩ := goes_bind_ok.mp hfound
        cases loaded with
        | error e =>
          obtain ⟨rfl, hfinding⟩ := goes_pure.mp hloaded
          cases hfinding
          rw [List.append_nil]
          exact .noSecrets hclear hloading
        | ok secrets =>
          cases horder : w.order? with
          | error text =>
            simp only [horder] at hloaded
            obtain ⟨rfl, hfinding⟩ := goes_pure.mp hloaded
            cases hfinding
            rw [List.append_nil]
            exact .unreadable hclear hloading horder
          | ok order =>
            simp only [horder] at hloaded
            obtain ⟨built, rest, rfl, hbuilt⟩ := goes_ask_bind.mp hloaded
            match built with
            | .error e =>
              obtain ⟨rfl, hfinding⟩ := goes_pure.mp hbuilt
              cases hfinding
              exact .noSigner hclear hloading
            | .ok () =>
              obtain ⟨rfl, hfinding⟩ := goes_pure.mp hbuilt
              cases hfinding
              exact .order hclear hloading horder
      · simp only [if_neg hready] at hfound
        obtain ⟨rfl, hfinding⟩ := goes_pure.mp hfound
        cases hfinding
        exact .notReady hgate (by simpa using hready)

/-- The questions of a pass that looks around after it has read its request. -/
def Question.IsSeeking : Question → Prop
  | .issuer _ | .secret _ | .buildSigner _ _ => True
  | _ => False

theorem sought_asks {finding : Finding} (h : Sought settings kind w heard finding) :
    ∀ e ∈ heard, e.question.IsSeeking := by
  have hloading : ∀ {issuer : Issuer} {loading : List Hearing}
      {r : Except ControllerError (Except IssuerConfigError IssuerSecrets)},
      (loadSecrets settings issuer).Goes loading r → ∀ e ∈ loading, e.question.IsSeeking := by
    intro issuer loading r hgoes e he
    obtain ⟨k, hk⟩ := secret_of_loadSecrets hgoes he
    rw [hk]
    trivial
  cases h with
  | awaitApproval | deny => simp
  | noIssuer | notReady => simp [Question.IsSeeking]
  | noSecrets _ hgoes | unreadable _ hgoes _ =>
    exact List.forall_mem_cons.mpr ⟨trivial, hloading hgoes⟩
  | noSigner _ hgoes | order _ hgoes _ =>
    refine List.forall_mem_cons.mpr ⟨trivial, List.forall_mem_append.mpr ⟨hloading hgoes, ?_⟩⟩
    simp [Question.IsSeeking]

theorem clear_of_order {w' : Work} {issuer : Issuer} {secrets : IssuerSecrets} {order : SignOrder}
    (h : Sought settings kind w heard (.order w' issuer secrets order)) :
    w.Clear settings issuer := by
  cases h with
  | order hclear _ _ => exact hclear

/-! ### Exits -/

/-- The status of a request that an answer makes known: the stored one, or the one that was
written. -/
def Hearing.status? : Hearing → Option RequestStatus
  | ⟨.request _ _, .ok (some request)⟩ => some request.currentStatus
  | ⟨.writeRequest _ status _, .ok ()⟩ => some status
  | _ => none

/-- The status that is known last. -/
def statusLeft (heard : List Hearing) : Option RequestStatus :=
  (heard.filterMap Hearing.status?).getLast?

theorem goes_write {p : Precondition} {u : Unit} (h : (w.write p).Goes heard (.ok u)) :
    w.status = w.request.currentStatus ∧ heard = [] ∨
      heard = [⟨.writeRequest w.request w.status p, .ok ()⟩] := by
  unfold Work.write at h
  split at h
  · next hsame => exact .inl ⟨hsame, (goes_pure.mp h).1⟩
  · exact .inr (goes_writeRequest.mp h)

/-- An exit leaves its status, be it that it is written or that it is there already. -/
theorem goes_take {e : Exit} (h : (e.take w).Goes heard (.ok requeue)) :
    requeue = e.requeue ∧ (heard.filterMap Hearing.status? = [(e.work w).status] ∨
      heard.filterMap Hearing.status? = [] ∧ (e.work w).status = w.request.currentStatus) := by
  obtain ⟨first, rest, u, rfl, hwrite, hend⟩ := goes_bind_ok.mp h
  have hrest : rest.filterMap Hearing.status? = [] ∧ requeue = e.requeue := by
    dsimp only at hend
    split at hend
    · obtain ⟨_, last, rfl, hlast⟩ := goes_ask_bind.mp hend
      obtain ⟨rfl, hrequeue⟩ := goes_pure.mp hlast
      exact ⟨rfl, Except.ok.inj hrequeue⟩
    · obtain ⟨rfl, hrequeue⟩ := goes_pure.mp hend
      exact ⟨rfl, Except.ok.inj hrequeue⟩
  refine ⟨hrest.2, ?_⟩
  rw [List.filterMap_append, hrest.1, List.append_nil]
  rcases goes_write hwrite with ⟨hsame, rfl⟩ | rfl
  · rw [work_request] at hsame
    exact .inr ⟨rfl, hsame⟩
  · exact .inl rfl

/-! ### Surveys -/

/-- How a survey may go, and what comes of it. -/
inductive Surveyed (settings : Settings) (scheme : Scheme) (ns name : String) :
    List Hearing → Finding → Prop
  | missing : Surveyed settings scheme ns name [⟨.request ns name, .ok none⟩] .idle
  | foreign {request : CertificateRequest} : issuerKindOf? scheme request = none →
      Surveyed settings scheme ns name [⟨.request ns name, .ok (some request)⟩] .idle
  | terminal {request : CertificateRequest} : request.currentStatus.isTerminal = true →
      Surveyed settings scheme ns name [⟨.request ns name, .ok (some request)⟩] .idle
  | sought {request : CertificateRequest} {kind : IssuerKind} {now : Timestamp}
    {seeking : List Hearing} {finding : Finding} : issuerKindOf? scheme request = some kind →
      request.currentStatus.isTerminal = false →
      Sought settings kind (.start request now) seeking finding →
        Surveyed settings scheme ns name
          (⟨.request ns name, .ok (some request)⟩ :: ⟨.now, now⟩ :: seeking) finding

theorem surveyed_of_goes {finding : Finding}
    (h : (survey settings scheme ns name).Goes heard (.ok finding)) :
    Surveyed settings scheme ns name heard finding := by
  obtain ⟨first, looking, found, rfl, hread, hlooking⟩ := goes_bind_ok.mp h
  rw [goes_getRequest.mp hread]
  cases found with
  | none =>
    obtain ⟨rfl, hfinding⟩ := goes_pure.mp hlooking
    cases hfinding
    exact .missing
  | some request =>
    simp only [surveyOf] at hlooking
    cases hkind : issuerKindOf? scheme request with
    | none =>
      simp only [hkind] at hlooking
      obtain ⟨rfl, hfinding⟩ := goes_pure.mp hlooking
      cases hfinding
      exact .foreign hkind
    | some kind =>
      cases hterminal : request.currentStatus.isTerminal with
      | true =>
        simp only [hkind, hterminal, if_true] at hlooking
        obtain ⟨rfl, hfinding⟩ := goes_pure.mp hlooking
        cases hfinding
        exact .terminal hterminal
      | false =>
        simp only [hkind, hterminal, Bool.false_eq_true, if_false] at hlooking
        obtain ⟨now, seeking, rfl, hseeking⟩ := goes_now_bind.mp hlooking
        exact .sought hkind hterminal (sought_of_goes hseeking)

/-! ### Passes -/

/-- How a pass over the request of a name may go when it ends well. -/
inductive RequestCourse (settings : Settings) (scheme : Scheme) (ns name : String) :
    List Hearing → Requeue → Prop
  | missing : RequestCourse settings scheme ns name [⟨.request ns name, .ok none⟩] .awaitChange
  | foreign {request : CertificateRequest} : issuerKindOf? scheme request = none →
      RequestCourse settings scheme ns name [⟨.request ns name, .ok (some request)⟩] .awaitChange
  | terminal {request : CertificateRequest} : request.currentStatus.isTerminal = true →
      RequestCourse settings scheme ns name [⟨.request ns name, .ok (some request)⟩] .awaitChange
  | exit {request : CertificateRequest} {kind : IssuerKind} {now : Timestamp} {e : Exit}
    {seeking closing : List Hearing} {requeue : Requeue} :
      issuerKindOf? scheme request = some kind → request.currentStatus.isTerminal = false →
      Sought settings kind (.start request now) seeking (.exit (.start request now) e) →
      (e.take (.start request now)).Goes closing (.ok requeue) →
        RequestCourse settings scheme ns name
          (⟨.request ns name, .ok (some request)⟩ :: ⟨.now, now⟩ :: (seeking ++ closing)) requeue
  | sign {request : CertificateRequest} {kind : IssuerKind} {now : Timestamp} {issuer : Issuer}
    {secrets : IssuerSecrets} {order : SignOrder}
    {answer : Option (Except SignerError SignedCertificate)} {seeking closing : List Hearing}
    {requeue : Requeue} :
      issuerKindOf? scheme request = some kind → request.currentStatus.isTerminal = false →
      Sought settings kind (.start request now) seeking
        (.order (.start request now) issuer secrets order) →
      ((exitAfter settings ((Work.start request now).signingElapsed settings issuer)
        (answer.getD (Work.timedOut settings))).take (.start request now)).Goes closing
          (.ok requeue) →
        RequestCourse settings scheme ns name
          (⟨.request ns name, .ok (some request)⟩ :: ⟨.now, now⟩ ::
            (seeking ++ ⟨.sign issuer.spec secrets order, answer⟩ :: closing)) requeue

theorem requestCourse_of_goes
    (h : (requestPass settings scheme ns name).Goes heard (.ok requeue)) :
    RequestCourse settings scheme ns name heard requeue := by
  rw [requestPass_eq] at h
  obtain ⟨looking, acting, finding, rfl, hlooking, hacting⟩ := goes_bind_ok.mp h
  cases surveyed_of_goes hlooking with
  | missing =>
    obtain ⟨rfl, hrequeue⟩ := goes_pure.mp hacting
    cases hrequeue
    exact .missing
  | foreign hkind =>
    obtain ⟨rfl, hrequeue⟩ := goes_pure.mp hacting
    cases hrequeue
    exact .foreign hkind
  | terminal hterminal =>
    obtain ⟨rfl, hrequeue⟩ := goes_pure.mp hacting
    cases hrequeue
    exact .terminal hterminal
  | @sought request kind now seeking finding hkind hopen hsought =>
    cases finding with
    | idle => cases hsought
    | exit w e =>
      have hw : w = .start request now := by
        cases hsought <;> rfl
      subst hw
      exact .exit hkind hopen hsought hacting
    | order w issuer secrets order =>
      have hw : w = .start request now := by
        cases hsought
        rfl
      subst hw
      obtain ⟨answer, closing, rfl, hclosing⟩ := goes_ask_bind.mp hacting
      exact .sign hkind hopen hsought hclosing

end CertIssuer.Reconcile
