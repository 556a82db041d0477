import CertIssuer.Proofs.Request.Marks
import CertIssuer.Proofs.Request.Requeue
import CertIssuer.Proofs.Time.Rfc3339
import Mathlib.Algebra.Order.Floor.Div

/-!
# The retry budget

An authority that fails is asked again until a request has had its time: the time since it was
created, approved and since its issuer became ready, whichever came last. Each pass works that time
out anew. As long as its marks stay and the passes keep the distance that was asked for, the request
is given up after a number of calls that the policy bounds, and with it the leap seconds that come
in between (`retry_budget`).
-/

namespace CertIssuer.Reconcile

open Pass

variable {settings : Settings} {scheme : Scheme} {ns name : String} {request : CertificateRequest}
  {issuer : Issuer} {heard : List Hearing} {requeue : Requeue}

/-! ### Passes that ask the authority -/

def Hearing.isSign : Hearing → Bool
  | ⟨.sign _ _ _, _⟩ => true
  | _ => false

/-- The number of calls to the authority. -/
def signCalls (heard : List Hearing) : Nat := heard.countP Hearing.isSign

theorem signCalls_eq_zero (h : ∀ x ∈ heard, ¬ x.question.IsSign) : signCalls heard = 0 := by
  refine List.countP_eq_zero.mpr fun x hx hsign => h x hx ?_
  obtain ⟨q, a⟩ := x
  cases q with
  | sign _ _ _ => trivial
  | _ => cases hsign

/-- What can be heard in a pass that asks the authority. -/
inductive Said (ns name : String) (request : CertificateRequest) (now : Timestamp)
    (issuer : Issuer) (answer : Option (Except SignerError SignedCertificate)) : Hearing → Prop
  | read : Said ns name request now issuer answer ⟨.request ns name, .ok (some request)⟩
  | clock : Said ns name request now issuer answer ⟨.now, now⟩
  | met (key : IssuerKey) :
      Said ns name request now issuer answer ⟨.issuer key, .ok (some issuer)⟩
  | secret (k : Secret.Key) (a : Except ControllerError (Option SecretData)) :
      Said ns name request now issuer answer ⟨.secret k, a⟩
  | built (spec : IssuerSpec) (secrets : IssuerSecrets) (a : Except SignerError Unit) :
      Said ns name request now issuer answer ⟨.buildSigner spec secrets, a⟩
  | answered (spec : IssuerSpec) (secrets : IssuerSecrets) (order : SignOrder) :
      Said ns name request now issuer answer ⟨.sign spec secrets order, answer⟩
  | closing {x : Hearing} : x.question.IsClosing → Said ns name request now issuer answer x

/-- The course of a pass that asks the authority, and what it makes of the answer. -/
structure SignCourse (settings : Settings) (ns name : String) (request : CertificateRequest)
    (now : Timestamp) (issuer : Issuer) (answer : Option (Except SignerError SignedCertificate))
    (heard : List Hearing) (e : Exit) (requeue : Requeue) : Prop where
  pending : request.currentStatus.isTerminal = false
  said : ∀ x ∈ heard, Said ns name request now issuer answer x
  once : signCalls heard = 1
  exit : e = exitAfter settings ((Work.start request now).signingElapsed settings issuer)
    (answer.getD (Work.timedOut settings))
  left : statusLeft heard = some (e.work (.start request now)).status
  requeues : requeue = e.requeue

section Sign

variable {kind : IssuerKind} {now : Timestamp} {secrets : IssuerSecrets} {order : SignOrder}
  {answer : Option (Except SignerError SignedCertificate)} {seeking closing : List Hearing}
  {e : Exit} {w w' : Work}

theorem signCalls_append (first second : List Hearing) :
    signCalls (first ++ second) = signCalls first + signCalls second :=
  List.countP_append

theorem signCalls_seeking {finding : Finding} (h : Sought settings kind w seeking finding) :
    signCalls seeking = 0 := by
  refine signCalls_eq_zero fun x hx hsign => ?_
  have hseeking := sought_asks h x hx
  obtain ⟨q, a⟩ := x
  cases q <;> trivial

theorem signCalls_closing {result : Except ControllerError Requeue}
    (h : (e.take w).Goes closing result) : signCalls closing = 0 := by
  refine signCalls_eq_zero fun x hx hsign => ?_
  have hclosing := (take_within e w).goes h x hx
  obtain ⟨q, a⟩ := x
  cases q <;> trivial

theorem said_of_order (h : Sought settings kind w seeking (.order w' issuer secrets order)) :
    ∀ x ∈ seeking, Said ns name request now issuer answer x := by
  cases h with
  | order _ hloading _ =>
    refine List.forall_mem_cons.mpr ⟨.met _, List.forall_mem_append.mpr ⟨fun x hx => ?_, ?_⟩⟩
    · obtain ⟨q, a⟩ := x
      obtain ⟨k, rfl⟩ : ∃ k, q = .secret k := secret_of_loadSecrets hloading hx
      exact .secret k a
    · exact List.forall_mem_singleton.mpr (.built _ _ _)

section Parts

variable {result : Except ControllerError Requeue}

theorem said_of_parts (hsought : Sought settings kind (.start request now) seeking
      (.order w' issuer secrets order)) (h : (e.take w).Goes closing result) :
    ∀ x ∈ ⟨.request ns name, .ok (some request)⟩ :: ⟨.now, now⟩ ::
        (seeking ++ ⟨.sign issuer.spec secrets order, answer⟩ :: closing),
      Said ns name request now issuer answer x := by
  refine List.forall_mem_cons.mpr ⟨.read, List.forall_mem_cons.mpr ⟨.clock, ?_⟩⟩
  refine List.forall_mem_append.mpr ⟨said_of_order hsought, ?_⟩
  exact List.forall_mem_cons.mpr
    ⟨.answered _ _ _, fun x hx => .closing ((take_within e w).goes h x hx)⟩

theorem signCalls_of_parts {finding : Finding} (hsought : Sought settings kind w' seeking finding)
    (h : (e.take w).Goes closing result) :
    signCalls (⟨.request ns name, .ok (some request)⟩ :: ⟨.now, now⟩ ::
      (seeking ++ ⟨.sign issuer.spec secrets order, answer⟩ :: closing)) = 1 := by
  show signCalls (seeking ++ ([⟨.sign issuer.spec secrets order, answer⟩] ++ closing)) = 1
  rw [signCalls_append, signCalls_append, signCalls_seeking hsought, signCalls_closing h]
  rfl

end Parts

theorem signCourse_of_take (hpending : request.currentStatus.isTerminal = false)
    (hsought : Sought settings kind (.start request now) seeking
      (.order (.start request now) issuer secrets order))
    (he : e = exitAfter settings ((Work.start request now).signingElapsed settings issuer)
      (answer.getD (Work.timedOut settings)))
    (h : (e.take (.start request now)).Goes closing (.ok requeue)) :
    SignCourse settings ns name request now issuer answer
      (⟨.request ns name, .ok (some request)⟩ :: ⟨.now, now⟩ ::
        (seeking ++ ⟨.sign issuer.spec secrets order, answer⟩ :: closing)) e requeue where
  pending := hpending
  said := said_of_parts hsought h
  once := signCalls_of_parts hsought h
  exit := he
  left := by
    rw [List.append_cons]
    exact statusLeft_of_take (between_of_order hsought issuer.spec secrets order answer) h
  requeues := (goes_take h).1

theorem signCourse_of_calls (h : RequestCourse settings scheme ns name heard requeue)
    (hcalls : 0 < signCalls heard) :
    ∃ request now issuer answer e,
      SignCourse settings ns name request now issuer answer heard e requeue := by
  cases h with
  | missing | foreign | terminal => cases hcalls
  | @exit request kind now e seeking closing _ _ _ hsought hclosing =>
    have hnone : signCalls (seeking ++ closing) = 0 := by
      rw [signCalls_append, signCalls_seeking hsought, signCalls_closing hclosing]
    exact absurd hcalls (Nat.not_lt.mpr hnone.le)
  | sign _ hpending hsought hclosing =>
    exact ⟨_, _, _, _, _, signCourse_of_take hpending hsought rfl hclosing⟩

end Sign

/-! ### Attempts -/

/-- A pass that ends well although the authority was asked and has failed, not for good. -/
structure Attempt (settings : Settings) (scheme : Scheme) (ns name : String) where
  heard : List Hearing
  requeue : Requeue
  goes : (requestPass settings scheme ns name).Goes heard (.ok requeue)
  request : CertificateRequest
  read : (⟨.request ns name, .ok (some request)⟩ : Hearing) ∈ heard
  now : Timestamp
  clock : (⟨.now, now⟩ : Hearing) ∈ heard
  issuer : Issuer
  met : ∃ key, (⟨.issuer key, .ok (some issuer)⟩ : Hearing) ∈ heard
  answer : Option (Except SignerError SignedCertificate)
  asked : ∃ spec secrets order, (⟨.sign spec secrets order, answer⟩ : Hearing) ∈ heard
  refused : answer = none ∨ ∃ e, answer = some (.error e) ∧ ∀ text, e ≠ .permanent text

namespace Attempt

variable (a : Attempt settings scheme ns name)

/-- For how long the request could have been signed. -/
def elapsed : Span := (Work.start a.request a.now).signingElapsed settings a.issuer

def exit : Exit :=
  exitAfter settings a.elapsed (a.answer.getD (Work.timedOut settings))

theorem course :
    SignCourse settings ns name a.request a.now a.issuer a.answer a.heard a.exit a.requeue := by
  obtain ⟨spec, secrets, order, hasked⟩ := a.asked
  obtain ⟨key, hmet⟩ := a.met
  have hcalls : 0 < signCalls a.heard := List.countP_pos_iff.mpr ⟨_, hasked, rfl⟩
  obtain ⟨request, now, issuer, answer, e, hcourse⟩ :=
    signCourse_of_calls (requestCourse_of_goes a.goes) hcalls
  obtain rfl : a.request = request := by
    cases hcourse.said _ a.read with
    | read => rfl
    | closing h => exact h.elim
  obtain rfl : a.now = now := by
    cases hcourse.said _ a.clock with
    | clock => rfl
    | closing h => exact h.elim
  obtain rfl : a.issuer = issuer := by
    cases hcourse.said _ hmet with
    | met => rfl
    | closing h => exact h.elim
  obtain rfl : a.answer = answer := by
    cases hcourse.said _ hasked with
    | answered => rfl
    | closing h => exact h.elim
  obtain rfl : e = a.exit := hcourse.exit
  exact hcourse

/-- An answer that is late is a failure like any other. -/
theorem failure : ∃ e : SignerError, a.answer.getD (Work.timedOut settings) = .error e ∧
    ∀ text, e ≠ .permanent text := by
  rcases a.refused with hlate | ⟨e, hanswer, he⟩
  · rw [hlate]
    exact ⟨.transient _, rfl, fun text h => nomatch h⟩
  · rw [hanswer]
    exact ⟨e, rfl, he⟩

theorem exit_cases : settings.retry.maxDuration ≤ a.elapsed ∧
      (∃ message, a.exit = .fail message .unconditional) ∨
    ¬ settings.retry.maxDuration ≤ a.elapsed ∧
      ∃ message, a.exit = .retry message (settings.retry.requeueAfter a.elapsed) := by
  obtain ⟨e, hanswer, he⟩ := a.failure
  have hexit : a.exit =
      if settings.retry.isExhausted a.elapsed then
        .fail ("giving up after " ++ a.elapsed.text ++ ": " ++ e.message) .unconditional
      else .retry ("signing failed, will retry: " ++ e.message)
        (settings.retry.requeueAfter a.elapsed) := by
    rw [exit, hanswer]
    cases e with
    | permanent text => exact absurd rfl (he text)
    | transient text | config text => rfl
  rw [hexit]
  by_cases hexhausted : settings.retry.maxDuration ≤ a.elapsed
  · exact .inl ⟨hexhausted, _, if_pos (by simpa [RetryPolicy.isExhausted] using hexhausted)⟩
  · exact .inr ⟨hexhausted, _, if_neg (by simpa [RetryPolicy.isExhausted] using hexhausted)⟩

/-- The request is given up, or it stays pending and is looked at again after the time that it
could have been signed, brought between the bounds of the schedule. -/
theorem decided : ∃ status, statusLeft a.heard = some status ∧
    (settings.retry.maxDuration ≤ a.elapsed ∧ status.readyReason? = some Reason.failed ∧
        status.isTerminal = true ∧ a.requeue = .awaitChange ∨
      ¬ settings.retry.maxDuration ≤ a.elapsed ∧ status.readyReason? = some Reason.pending ∧
        status.isTerminal = false ∧
        a.requeue = .after (settings.retry.requeueAfter a.elapsed)) := by
  have hcourse := a.course
  refine ⟨_, hcourse.left, ?_⟩
  rw [hcourse.requeues]
  rcases a.exit_cases with ⟨hexhausted, message, hexit⟩ | ⟨hgoing, message, hexit⟩
  · have hreason : (a.exit.work (.start a.request a.now)).status.readyReason? =
        some Reason.failed := work_readyReason? (by rw [hexit]; rfl) _
    have hterminal := RequestStatus.isTerminal_of_reason hreason (by decide)
    rw [hexit] at hreason hterminal ⊢
    exact .inl ⟨hexhausted, hreason, hterminal, rfl⟩
  · have hreason : (a.exit.work (.start a.request a.now)).status.readyReason? =
        some Reason.pending := work_readyReason? (by rw [hexit]; rfl) _
    have hcertificate : (Work.start a.request a.now).status.certificate = none := by
      rw [start_certificate, RequestStatus.certificate_eq_none hcourse.pending]
    have hopen : ((Work.start a.request a.now).waiting Reason.pending message).status.isTerminal =
        false := waiting_isTerminal hcertificate (by decide) message
    rw [hexit] at hreason ⊢
    exact .inr ⟨hgoing, hreason, hopen, rfl⟩

theorem sum_signCalls (run : List (Attempt settings scheme ns name)) :
    (run.map fun a => signCalls a.heard).sum = run.length := by
  rw [List.map_congr_left fun a _ => a.course.once, List.map_const', List.sum_replicate_nat,
    Nat.mul_one]

/-! ### One attempt after another -/

/-- The next attempt of a request that is not terminal yet: the request, its approval and the issuer
are as they were, and it does not come before the delay that was asked for is over. -/
structure Follows (a b : Attempt settings scheme ns name) : Prop where
  unfinished : ∀ status, statusLeft a.heard = some status → status.isTerminal = false
  created : b.request.metadata.creationTime? = a.request.metadata.creationTime?
  approved : b.request.currentStatus.conditions.get? Condition.approved =
    a.request.currentStatus.conditions.get? Condition.approved
  ready : b.issuer.status.readyCondition? = a.issuer.status.readyCondition?
  pause : ∀ delay, a.requeue = .after delay → a.now.plus delay ≤ b.now

variable {a} {b : Attempt settings scheme ns name} {s t : Timestamp} {k : Nat}

theorem unfinished_of_after {delay : Span} (h : a.requeue = .after delay) {status : RequestStatus}
    (hleft : statusLeft a.heard = some status) : status.isTerminal = false := by
  obtain ⟨status', hleft', ⟨-, -, -, hrequeue⟩ | ⟨-, -, hopen, -⟩⟩ := a.decided
  · cases h.symm.trans hrequeue
  · cases hleft.symm.trans hleft'
    exact hopen

theorem Follows.signableSince (h : Follows a b)
    (ht : SignableSince settings a.request a.issuer (some t)) :
    SignableSince settings b.request b.issuer (some t) :=
  ht.congr h.created h.approved h.ready

theorem elapsed_eq {since : Option Timestamp}
    (h : SignableSince settings a.request a.issuer since) :
    a.elapsed = a.now.elapsedSince since :=
  signingElapsed_eq h

/-- An attempt that another one follows was within the budget. -/
theorem Follows.going (h : Follows a b) : ¬ settings.retry.maxDuration ≤ a.elapsed ∧
    a.requeue = .after (settings.retry.requeueAfter a.elapsed) := by
  obtain ⟨status, hleft, ⟨-, -, hterminal, -⟩ | ⟨hgoing, -, -, hrequeue⟩⟩ := a.decided
  · exact absurd (hterminal.symm.trans (h.unfinished status hleft)) nofun
  · exact ⟨hgoing, hrequeue⟩

theorem Follows.le (h : Follows a b) : a.now ≤ b.now :=
  Timestamp.le_trans (Timestamp.le_plus _ _) (h.pause _ h.going.2)

theorem Follows.within (h : Follows a b)
    (ht : SignableSince settings a.request a.issuer (some t)) :
    a.now.sinceEpoch < t.sinceEpoch + settings.retry.maxDuration.nanos +
      (Timestamp.leapSeconds [a.now]).card * 1000000000 := by
  have hgoing := h.going.1
  rw [elapsed_eq ht, Span.le_iff, Nat.not_le] at hgoing
  have hbelow : (a.now.elapsed t).nanos < settings.retry.maxDuration.nanos := hgoing
  have helapsed := Timestamp.sinceEpoch_le_elapsed a.now t
  omega

/-- The next attempt is at least the base delay later, less a leap second that is over by then. -/
theorem Follows.later (h : Follows a b) :
    a.now.sinceEpoch + settings.retry.base.nanos ≤
      b.now.sinceEpoch + a.now.leapsUntil b.now * 1000000000 := by
  have hpause := Timestamp.sinceEpoch_add_le (h.pause _ h.going.2)
  have hbase := (settings.retry.requeueAfter_bounds a.elapsed).1
  rw [Span.le_iff] at hbase
  omega

theorem le_of_chain {rest : List (Attempt settings scheme ns name)}
    (h : (a :: rest).IsChain Follows) : ∀ u ∈ rest.map now, a.now ≤ u := by
  induction rest generalizing a with
  | nil => exact fun u hu => nomatch hu
  | cons b rest ih =>
    obtain ⟨hfollows, hrest⟩ := List.isChain_cons_cons.mp h
    exact List.forall_mem_cons.mpr
      ⟨hfollows.le, fun u hu => Timestamp.le_trans hfollows.le (ih hrest u hu)⟩

/-- The leap seconds that the times of all attempts but the last lie in. -/
def leaps (run : List (Attempt settings scheme ns name)) : Nat :=
  (Timestamp.leapSeconds (run.dropLast.map now)).card

theorem leaps_cons {c : Attempt settings scheme ns name}
    {rest : List (Attempt settings scheme ns name)} (h : (b :: c :: rest).IsChain Follows) :
    s.leapsUntil b.now + leaps (b :: c :: rest) ≤
      (Timestamp.leapSeconds (s :: (b :: c :: rest).dropLast.map now)).card := by
  refine Timestamp.card_leapSeconds_cons fun u hu => le_of_chain h u ?_
  exact List.map_subset _ (List.dropLast_subset _) hu

/-- Every further attempt is a base delay closer to the end of the budget, which each leap second
puts off by a second. -/
theorem length_lt_of_chain {rest : List (Attempt settings scheme ns name)} {m : Nat}
    (hchain : (a :: b :: rest).IsChain Follows)
    (ht : SignableSince settings a.request a.issuer (some t))
    (hpassed : t.sinceEpoch + (settings.retry.base.nanos * k : Nat) ≤
      a.now.sinceEpoch + m * 1000000000) :
    settings.retry.base.nanos * (k + rest.length) <
      settings.retry.maxDuration.nanos + (m + leaps (a :: b :: rest)) * 1000000000 := by
  -- on the attempts after the next: the `k`-th comes `k` base delays after the last mark, less the
  -- `m` leap seconds that are over by then
  induction rest generalizing a b k m with
  | nil =>
    obtain ⟨hfollows, -⟩ := List.isChain_cons_cons.mp hchain
    have hwithin := hfollows.within ht
    have hleaps : leaps [a, b] = (Timestamp.leapSeconds [a.now]).card := rfl
    rw [hleaps, List.length_nil, Nat.add_zero]
    omega
  | cons c rest ih =>
    obtain ⟨hfollows, hrest⟩ := List.isChain_cons_cons.mp hchain
    have hlater := hfollows.later
    have hnext : t.sinceEpoch + (settings.retry.base.nanos * (k + 1) : Nat) ≤
        b.now.sinceEpoch + (m + a.now.leapsUntil b.now : Nat) * 1000000000 := by
      rw [Nat.mul_succ]
      omega
    have hlength := ih hrest (hfollows.signableSince ht) hnext
    have hleaps : m + a.now.leapsUntil b.now + leaps (b :: c :: rest) ≤
        m + leaps (a :: b :: c :: rest) := by
      rw [Nat.add_assoc]
      exact Nat.add_le_add_left (leaps_cons hrest) m
    have hcount : k + (c :: rest).length = k + 1 + rest.length := by
      rw [List.length_cons]
      omega
    rw [hcount]
    exact hlength.trans_le (Nat.add_le_add_left (Nat.mul_le_mul_right _ hleaps) _)

/-- The budget of a run that begins when the request can be signed. -/
theorem length_le_of_chain (hbase : 0 < settings.retry.base.nanos)
    {rest : List (Attempt settings scheme ns name)} (hchain : (a :: rest).IsChain Follows)
    (ht : SignableSince settings a.request a.issuer (some t)) (hvalid : t.Valid)
    (hstart : t ≤ a.now) :
    rest.length ≤ (settings.retry.maxDuration.nanos +
      (Timestamp.leapSeconds (t :: (a :: rest).dropLast.map now)).card * Span.perSecond) ⌈/⌉
        settings.retry.base.nanos := by
  cases rest with
  | nil => exact Nat.zero_le _
  | cons b rest =>
    have hfirst : t.sinceEpoch + (settings.retry.base.nanos * 0 : Nat) ≤
        a.now.sinceEpoch + t.leapsUntil a.now * 1000000000 := by
      have hlater := Timestamp.sinceEpoch_le hvalid.nanos_lt hstart
      omega
    have hlength := length_lt_of_chain hchain ht hfirst
    have hleaps : t.leapsUntil a.now + leaps (a :: b :: rest) ≤
        (Timestamp.leapSeconds (t :: (a :: b :: rest).dropLast.map now)).card := leaps_cons hchain
    rw [List.length_cons]
    refine Nat.succ_le_of_lt (Nat.not_le.mp fun hle => ?_)
    rw [ceilDiv_le_iff_le_mul hbase] at hle
    rw [Nat.zero_add] at hlength
    exact absurd (hlength.trans_le (Nat.add_le_add_left (Nat.mul_le_mul_right _ hleaps) _))
      (Nat.not_lt.mpr hle)

end Attempt

/-- An authority that keeps failing is asked until the request has had its time. A request that
could be signed since a point in time is given up exactly when the time since then has reached the
limit, and otherwise it is looked at again; so the calls of a run are bounded by the policy, with a
second more for every leap second that this point or the time of a pass before the last lies in. -/
theorem retry_budget (settings : Settings) (scheme : Scheme) (ns name : String) :
    (∀ a : Attempt settings scheme ns name, ∃ since status,
      SignableSince settings a.request a.issuer since ∧ statusLeft a.heard = some status ∧
      (status.readyReason? = some Reason.failed ↔
        settings.retry.maxDuration ≤ a.now.elapsedSince since) ∧
      (¬ settings.retry.maxDuration ≤ a.now.elapsedSince since →
        status.readyReason? = some Reason.pending ∧ status.isTerminal = false ∧
        a.requeue = .after ((a.now.elapsedSince since).clamp settings.retry.base
          (max settings.retry.base settings.retry.maxInterval)))) ∧
    ∀ (first : Attempt settings scheme ns name) (rest : List (Attempt settings scheme ns name)),
      (first :: rest).IsChain Attempt.Follows → 0 < settings.retry.base.nanos →
      first.request.metadata.creationTime? ≠ none →
      ∃ since, SignableSince settings first.request first.issuer (some since) ∧
        (since.Valid → since ≤ first.now →
          ((first :: rest).map fun a => signCalls a.heard).sum ≤
            (settings.retry.maxDuration.nanos +
              (Timestamp.leapSeconds (since :: (first :: rest).dropLast.map Attempt.now)).card *
                Span.perSecond) ⌈/⌉ settings.retry.base.nanos + 1) := by
  constructor
  · intro a
    have hsince := signableSince_latest settings a.request a.issuer a.now
    obtain ⟨status, hleft, hdecided⟩ := a.decided
    rw [Attempt.elapsed_eq hsince, RetryPolicy.requeueAfter_eq] at hdecided
    refine ⟨_, status, hsince, hleft, ?_⟩
    rcases hdecided with ⟨hexhausted, hreason, -, -⟩ | ⟨hgoing, hreason, hopen, hrequeue⟩
    · exact ⟨iff_of_true hreason hexhausted, fun hgoing => absurd hexhausted hgoing⟩
    · refine ⟨iff_of_false ?_ hgoing, fun _ => ⟨hreason, hopen, hrequeue⟩⟩
      rw [hreason]
      decide
  · intro first rest hchain hbase hcreated
    obtain ⟨since, hsince⟩ := exists_signableSince settings first.issuer hcreated
    refine ⟨since, hsince, fun hvalid hstart => ?_⟩
    rw [Attempt.sum_signCalls, List.length_cons]
    exact Nat.succ_le_succ (Attempt.length_le_of_chain hbase hchain hsince hvalid hstart)

/-! ### Runs that use up their budget -/

def drillSettings : Settings :=
  { checkApproved := false, retry := { maxDuration := .ofSeconds 10 } }

def drillRequest : CertificateRequest :=
  let request := (sampleRequest "Y3Ny" {}).1
  { request with metadata := { request.metadata with creationTimestamp := some ⟨0, 0⟩ } }

def drillIssuer (since : Timestamp) : Issuer :=
  { sampleIssuer with status := { conditions := [
    { type := Condition.ready, status := .isTrue, lastTransitionTime := some since }] } }

/-- A world in which the authority is out of order and the issuer has been ready since a point. -/
def drillWorld (since now : Timestamp) : (q : Question) → q.Answer
  | .now => now
  | .request _ _ => .ok (some drillRequest)
  | .issuer _ => .ok (some (drillIssuer since))
  | q => sampleWorld (.error (.transient "out of order")) q

def drillHeard (since now : Timestamp) : List Hearing :=
  heardIn (drillWorld since now) (requestPass drillSettings .standard "apps" "web")

def drillCall : Hearing where
  question := .sign sampleIssuer.spec ⟨[], none⟩ ⟨Text.toBytes "csr", none, [], false, []⟩
  answer := some (.error (.transient "out of order"))

def drill (since now : Timestamp) (requeue : Requeue)
    (h : result (drillWorld since now) (requestPass drillSettings .standard "apps" "web") =
      .ok requeue)
    (hcall : (drillHeard since now)[5]? = some drillCall) :
    Attempt drillSettings .standard "apps" "web" where
  heard := drillHeard since now
  requeue := requeue
  goes := h ▸ goes_heardIn (drillWorld since now) (requestPass drillSettings .standard "apps" "web")
  request := drillRequest
  read := List.mem_of_getElem? (i := 0) rfl
  now := now
  clock := List.mem_of_getElem? (i := 1) rfl
  issuer := drillIssuer since
  met := ⟨_, List.mem_of_getElem? (i := 2) rfl⟩
  answer := some (.error (.transient "out of order"))
  asked := ⟨_, _, _, List.mem_of_getElem? hcall⟩
  refused := .inr ⟨_, rfl, by simp⟩

theorem drill_signableSince {since : Timestamp} (h : ⟨0, 0⟩ ≤ since) :
    SignableSince drillSettings drillRequest (drillIssuer since) (some since) := by
  refine ⟨.ready rfl rfl rfl, ?_⟩
  rintro t (hcreated | ⟨hcheck, -⟩ | ⟨hready, -, ht⟩)
  · cases hcreated
    exact h
  · cases hcheck
  · cases hready
    cases ht
    exact Timestamp.le_refl _

theorem drill_follows {a b : Attempt drillSettings .standard "apps" "web"}
    (hrequest : b.request = a.request) (hissuer : b.issuer = a.issuer) {delay : Span}
    (hrequeue : a.requeue = .after delay) (hpause : a.now.plus delay ≤ b.now) : a.Follows b where
  unfinished _ hleft := Attempt.unfinished_of_after hrequeue hleft
  created := by rw [hrequest]
  approved := by rw [hrequest]
  ready := by rw [hissuer]
  pause delay' hdelay' := by
    cases hrequeue.symm.trans hdelay'
    exact hpause

theorem retry_budget_drill :
    ∃ first rest, (first :: rest).IsChain Attempt.Follows ∧
      0 < drillSettings.retry.base.nanos ∧ first.request.metadata.creationTime? ≠ none ∧
      (∃ since, SignableSince drillSettings first.request first.issuer (some since) ∧
        since.Valid ∧ since ≤ first.now) ∧
      ((first :: rest).map fun a : Attempt drillSettings .standard "apps" "web" =>
        signCalls a.heard).sum = 3 ∧
      3 ≤ drillSettings.retry.maxDuration.nanos ⌈/⌉ drillSettings.retry.base.nanos + 1 := by
  have hchain : [drill ⟨0, 0⟩ ⟨0, 0⟩ (.after (.ofSeconds 5)) rfl rfl,
      drill ⟨0, 0⟩ ⟨5, 0⟩ (.after (.ofSeconds 5)) rfl rfl,
      drill ⟨0, 0⟩ ⟨10, 0⟩ .awaitChange rfl rfl].IsChain Attempt.Follows :=
    .cons_cons (drill_follows rfl rfl rfl (by decide))
      (.cons_cons (drill_follows rfl rfl rfl (by decide)) (.singleton _))
  have hbase : 0 < drillSettings.retry.base.nanos := by decide
  have hcreated : drillRequest.metadata.creationTime? ≠ none := by decide
  have hdrill : SignableSince drillSettings drillRequest (drillIssuer ⟨0, 0⟩) (some ⟨0, 0⟩) :=
    drill_signableSince (Timestamp.le_refl _)
  have hvalid : (⟨0, 0⟩ : Timestamp).Valid := ⟨rfl, by decide, nofun⟩
  have hstart : (⟨0, 0⟩ : Timestamp) ≤ ⟨0, 0⟩ := Timestamp.le_refl _
  obtain ⟨since, hsince, hbudget⟩ :=
    (retry_budget drillSettings .standard "apps" "web").2 _ _ hchain hbase hcreated
  cases hsince.unique hdrill
  exact ⟨_, _, hchain, hbase, hcreated, ⟨_, hdrill, hvalid, hstart⟩, rfl, hbudget hvalid hstart⟩

/-! ### Leap seconds -/

/-- A run that asks more often than the policy alone allows. -/
structure Overruns (since : Timestamp) (first : Attempt drillSettings .standard "apps" "web")
    (rest : List (Attempt drillSettings .standard "apps" "web")) : Prop where
  chain : (first :: rest).IsChain Attempt.Follows
  created : first.request.metadata.creationTime? ≠ none
  signable : SignableSince drillSettings first.request first.issuer (some since)
  valid : since.Valid
  started : since ≤ first.now
  exceeds : drillSettings.retry.maxDuration.nanos ⌈/⌉ drillSettings.retry.base.nanos + 1 <
    ((first :: rest).map fun a => signCalls a.heard).sum

theorem overruns_of_drill {since now : Timestamp} {requeue : Requeue}
    {h : result (drillWorld since now) (requestPass drillSettings .standard "apps" "web") =
      .ok requeue} {hcall : (drillHeard since now)[5]? = some drillCall}
    {rest : List (Attempt drillSettings .standard "apps" "web")}
    (hcreated : ⟨0, 0⟩ ≤ since) (hvalid : since.Valid) (hstart : since ≤ now)
    (hchain : (drill since now requeue h hcall :: rest).IsChain Attempt.Follows)
    (hlength : 2 < rest.length) : Overruns since (drill since now requeue h hcall) rest where
  chain := hchain
  created := nofun
  signable := drill_signableSince hcreated
  valid := hvalid
  started := hstart
  exceeds := by
    rw [Attempt.sum_signCalls]
    exact Nat.succ_lt_succ hlength

/-- A second that the difference of two times leaves out lets one more call through. The issuer
becomes ready at 23:59:60.5, and no pass lies within that leap second; or it is ready a little
earlier, and a pass does. -/
theorem calls_exceed_policy :
    0 < drillSettings.retry.base.nanos ∧
      Overruns ⟨86399, 1500000000⟩
        (drill ⟨86399, 1500000000⟩ ⟨86400, 0⟩ (.after (.ofSeconds 5)) rfl rfl)
        [drill ⟨86399, 1500000000⟩ ⟨86405, 0⟩ (.after (.ofSeconds 5)) rfl rfl,
          drill ⟨86399, 1500000000⟩ ⟨86410, 0⟩ (.after ⟨9500000000⟩) rfl rfl,
          drill ⟨86399, 1500000000⟩ ⟨86419, 500000000⟩ .awaitChange rfl rfl] ∧
      Overruns ⟨86394, 900000000⟩
        (drill ⟨86394, 900000000⟩ ⟨86394, 900000000⟩ (.after (.ofSeconds 5)) rfl rfl)
        [drill ⟨86394, 900000000⟩ ⟨86399, 1000000000⟩ (.after ⟨5100000000⟩) rfl rfl,
          drill ⟨86394, 900000000⟩ ⟨86404, 100000000⟩ (.after ⟨9200000000⟩) rfl rfl,
          drill ⟨86394, 900000000⟩ ⟨86413, 300000000⟩ .awaitChange rfl rfl] := by
  refine ⟨by decide,
    overruns_of_drill (by decide) ⟨rfl, by decide, by decide⟩ (by decide) ?_ (by decide),
    overruns_of_drill (by decide) ⟨rfl, by decide, by decide⟩ (by decide) ?_ (by decide)⟩
  · exact .cons_cons (drill_follows rfl rfl rfl (by decide))
      (.cons_cons (drill_follows rfl rfl rfl (by decide))
        (.cons_cons (drill_follows rfl rfl rfl (by decide)) (.singleton _)))
  · exact .cons_cons (drill_follows rfl rfl rfl (by decide))
      (.cons_cons (drill_follows rfl rfl rfl (by decide))
        (.cons_cons (drill_follows rfl rfl rfl (by decide)) (.singleton _)))

end CertIssuer.Reconcile
