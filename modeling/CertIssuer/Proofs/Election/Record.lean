import CertIssuer.Election.Record
import CertIssuer.Proofs.Resource.LeaseJson
import CertIssuer.Proofs.Time.Epoch

/-!
# Records and decisions

What of a record a Lease carries, and what a candidate may write over the record that it has read:
a first term, a renewal of its own term, or a term that begins where nobody holds the Lease or the
holder's time is over (`next?_cases`).
-/

namespace CertIssuer

namespace Election

namespace Record

/-! ### What a Lease carries -/

/-- A record whose times and count have a text. -/
structure Sendable (r : Record) : Prop where
  acquired : ∀ t ∈ r.acquired, t.Valid
  renewed : ∀ t ∈ r.renewed, t.Valid
  transitions : Json.int32? (.int r.transitions) = some r.transitions

/-- The record as it is read from the Lease that carries it. -/
def carried (r : Record) : Record where
  holder := r.holder
  acquired := r.acquired.bind storedTime?
  renewed := r.renewed.bind storedTime?
  duration := .ofSeconds r.duration.seconds
  transitions := r.transitions

theorem storedTime?_truncateMicros (t : Timestamp) :
    storedTime? t.truncateMicros = storedTime? t := by
  simp only [storedTime?, t.truncateMicros_idem]
  rfl

theorem truncateMicros_of_storedTime? {t u : Timestamp} (h : storedTime? t = some u) :
    u = t.truncateMicros := by
  unfold storedTime? at h
  dsimp only at h
  split at h
  · exact (Option.some.inj h).symm
  · cases h

theorem storedTime?_of_storedTime? {t u : Timestamp} (h : storedTime? t = some u) :
    storedTime? u = some u := by
  rw [truncateMicros_of_storedTime? h, storedTime?_truncateMicros, h,
    truncateMicros_of_storedTime? h]

def sent (r : Record) : LeaseSpec where
  acquireTime := r.acquired.map Timestamp.truncateMicros
  holderIdentity := r.holder
  leaseDurationSeconds := some r.duration.seconds
  leaseTransitions := some r.transitions
  renewTime := r.renewed.map Timestamp.truncateMicros

theorem valid_truncated {o : Option Timestamp} (h : ∀ t ∈ o, t.Valid) :
    ∀ t ∈ o.map Timestamp.truncateMicros, t.Valid := by
  intro t ht
  obtain ⟨u, hu, rfl⟩ := Option.map_eq_some_iff.mp ht
  exact (h u hu).truncateMicros

theorem sent_valid {r : Record} (h : r.Sendable) (hshort : ¬ maxInt32 < r.duration.seconds) :
    r.sent.Valid where
  acquireTime := valid_truncated h.acquired
  renewTime := valid_truncated h.renewed
  duration n hn := by
    cases hn
    unfold maxInt32 at hshort
    exact Json.int32?_of_bounds (by omega) (by omega)
  transitions n hn := by
    cases hn
    exact h.transitions

theorem stored_truncated (o : Option Timestamp) :
    ((o.map Timestamp.truncateMicros).map Timestamp.truncateMicros).bind storedTime? =
      o.bind storedTime? := by
  cases o with
  | none => rfl
  | some t => exact (storedTime?_truncateMicros _).trans (storedTime?_truncateMicros t)

theorem storedDuration_seconds (n : Nat) : storedDuration (some n) = .ofSeconds n := by
  simp [storedDuration]

theorem ofLease_cut (r : Record) (m : Metadata) : ofLease ⟨m, some r.sent.cut⟩ = r.carried := by
  simp only [ofLease, sent, LeaseSpec.cut, stored_truncated, storedDuration_seconds, carried,
    Option.getD_some]

/-- A record that is sent is stored as what the Lease carries of it, pinned as it was sent. -/
theorem ofLease_sent {r : Record} {name ns : String} {version : Option String} {lease : Lease}
    (hr : r.Sendable) (h : r.toLease? name ns version = some lease) :
    ∃ l, Lease.ofJson? lease.toJson = some l ∧ l.metadata.resourceVersion = version ∧
      ofLease l = r.carried := by
  unfold toLease? at h
  split at h
  · cases h
  · next hshort =>
    cases h
    exact ⟨_, Lease.ofJson?_toJson (sent_valid hr hshort), rfl, ofLease_cut r _⟩

/-- What is read from a valid Lease can be sent again, and its times are those that were read. -/
structure Stored (r : Record) : Prop extends Sendable r where
  acquired_stored : r.acquired.bind storedTime? = r.acquired
  validity : r.validity = r.duration

theorem stored_bind (o : Option Timestamp) :
    (o.bind storedTime?).bind storedTime? = o.bind storedTime? := by
  cases o with
  | none => rfl
  | some t =>
    change (storedTime? t).bind storedTime? = storedTime? t
    cases h : storedTime? t with
    | none => rfl
    | some u => exact storedTime?_of_storedTime? h

theorem valid_storedTime? {o : Option Timestamp} (h : ∀ t ∈ o, t.Valid) :
    ∀ t ∈ o.bind storedTime?, t.Valid := by
  intro t ht
  obtain ⟨u, hu, ht⟩ := Option.bind_eq_some_iff.mp ht
  rw [truncateMicros_of_storedTime? ht]
  exact (h u hu).truncateMicros

theorem storedDuration_le {o : Option Int} (h : ∀ n ∈ o, Json.int32? (.int n) = some n) :
    (storedDuration o).nanos ≤ maxValidity := by
  cases o with
  | none => decide
  | some n =>
    have hn := Json.bounds_of_int32? (h n rfl)
    unfold storedDuration maxValidity
    split
    · next heq =>
      cases heq
      split
      · simp only [Span.ofSeconds, Span.perSecond]
        omega
      · decide
    · decide

theorem stored_ofLease {l : Lease} (h : l.Valid) : (ofLease l).Stored := by
  cases hspec : l.spec with
  | none =>
    simp only [ofLease, hspec]
    exact {
      acquired := nofun
      renewed := nofun
      transitions := rfl
      acquired_stored := rfl
      validity := rfl }
  | some s =>
    have hs := h s hspec
    simp only [ofLease, hspec]
    exact {
      acquired := valid_storedTime? hs.acquireTime
      renewed := valid_storedTime? hs.renewTime
      transitions := by
        cases htransitions : s.leaseTransitions with
        | none => rfl
        | some n => exact hs.transitions n htransitions
      acquired_stored := stored_bind s.acquireTime
      validity := if_pos (storedDuration_le hs.duration) }

/-! ### Lapsing -/

/-- The time that the holder has left itself is over, if it has left any. -/
def Lapsed (r : Record) (now : Timestamp) : Prop := ∀ t ∈ r.renewed, t.plus r.duration ≤ now

theorem Lapsed.mono {r : Record} {now later : Timestamp} (h : r.Lapsed now) (hle : now ≤ later) :
    r.Lapsed later :=
  fun t ht => Timestamp.le_trans (h t ht) hle

/-- A Lease that somebody else may take has lapsed. -/
theorem Stored.lapsed {r : Record} {now : Timestamp} (hr : r.Stored)
    (h : r.expiry = .unknown ∨ ∃ t, r.expiry = .at t ∧ ¬ now < t) : r.Lapsed now := by
  intro t ht
  rw [Option.mem_def] at ht
  unfold expiry at h
  simp only [ht, Timestamp.plus?, hr.validity] at h
  split at h
  · next later hlater =>
    split at hlater
    · cases hlater
      rcases h with hunknown | ⟨u, hat, hle⟩
      · cases hunknown
      · cases hat
        exact Timestamp.le_of_not_lt hle
    · cases hlater
  · rcases h with hunknown | ⟨u, hat, -⟩
    · cases hunknown
    · cases hat

end Record

/-! ### What a candidate writes -/

/-- The record to write over what was read: a first term, a renewal, or a term that begins over
nobody's or a lapsed one. -/
theorem next?_cases {current : Option Record} {identity : String} {now : Timestamp}
    {decision : Decision} {next : Record} (h : decide? current identity now = some decision)
    (hnext : next? decision current identity now = some next) :
    (current = none ∧ next = freshTerm identity now 0) ∨
      (∃ r, current = some r ∧ r.holder? = some identity ∧
        next = { r with renewed := some now, duration := leaseDuration }) ∨
      ∃ r, current = some r ∧ r.holder? ≠ some identity ∧
        (∀ holder, r.holder? = some holder →
          r.expiry = .unknown ∨ ∃ t, r.expiry = .at t ∧ ¬ now < t) ∧
        next = freshTerm identity now (nextTransitions r.transitions) := by
  cases current with
  | none =>
    cases h
    cases hnext
    exact .inl ⟨rfl, rfl⟩
  | some r =>
    right
    cases hholder : r.holder? with
    | none =>
      simp only [decide?, hholder, Option.some.injEq] at h
      subst h
      cases hnext
      exact .inr ⟨r, rfl, by simp [hholder], by simp [hholder], rfl⟩
    | some holder =>
      by_cases hself : holder = identity
      · subst hself
        simp only [decide?, hholder, if_true, Option.some.injEq] at h
        subst h
        cases hnext
        exact .inl ⟨r, rfl, hholder, rfl⟩
      · -- somebody else holds the Lease: its expiry decides
        have htaken : decision = .takeOver ∧
            (r.expiry = .unknown ∨ ∃ t, r.expiry = .at t ∧ ¬ now < t) := by
          simp only [decide?, hholder, if_neg hself] at h
          cases hexpiry : r.expiry with
          | unknown =>
            simp only [hexpiry, Option.some.injEq] at h
            exact ⟨h.symm, .inl rfl⟩
          | «at» t =>
            simp only [hexpiry] at h
            by_cases hlive : now < t
            · rw [if_pos hlive] at h
              cases h
              cases hnext
            · rw [if_neg hlive] at h
              exact ⟨(Option.some.inj h).symm, .inr ⟨t, rfl, hlive⟩⟩
          | unreachable =>
            simp only [hexpiry] at h
            cases h
        obtain ⟨rfl, hover⟩ := htaken
        cases hnext
        refine .inr ⟨r, rfl, ?_, fun _ _ => hover, rfl⟩
        rw [hholder]
        exact fun heq => hself (Option.some.inj heq)

theorem nextTransitions_eq (n : Int) :
    nextTransitions n = if n < 2147483647 then n + 1 else 2147483647 := rfl

theorem int32?_nextTransitions {n : Int} (h : Json.int32? (.int n) = some n) :
    Json.int32? (.int (nextTransitions n)) = some (nextTransitions n) := by
  have hn := Json.bounds_of_int32? h
  rw [nextTransitions_eq]
  split
  · exact Json.int32?_of_bounds (by omega) (by omega)
  · exact Json.int32?_of_bounds (by omega) (by omega)

theorem freshTerm_sendable {identity : String} {now : Timestamp} {n : Int} (hnow : now.Valid)
    (hn : Json.int32? (.int n) = some n) : (freshTerm identity now n).Sendable where
  acquired t ht := by
    cases ht
    exact hnow
  renewed t ht := by
    cases ht
    exact hnow
  transitions := hn

end Election

end CertIssuer
