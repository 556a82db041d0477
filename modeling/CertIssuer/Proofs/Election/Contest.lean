import CertIssuer.Election.Candidate
import CertIssuer.Proofs.Dialogue.Crowd
import CertIssuer.Proofs.Election.Record

/-!
# Contests for a Lease

Any number of candidates that hold their rounds over one stored Lease. The store gives every Lease
that it keeps a version of its own, takes a new one only when there is none, and replaces one only
by a Lease that is pinned to its version or to none. Its replies may be lost. Besides, time goes
on, and anybody may release the Lease or delete it.

The store keeps a log of what was changed, by whom, and what the author had last read off the clock.
-/

namespace CertIssuer.Election

open ApiServer Dialogue

variable {ι : Type}

/-- A change of the Lease, by a candidate or by somebody else. -/
structure Change (ι : Type) where
  author : Option ι
  before : Option Record
  after : Option Record
  stamp : Timestamp

structure Registry (ι : Type) where
  lease : Option Lease
  /-- The versions that were given out. -/
  versions : List String
  date : Timestamp
  /-- The date that each candidate has read last. -/
  told : ι → Timestamp
  /-- Whether each candidate has changed the Lease since its round began. -/
  wrote : ι → Bool
  log : List (Change ι)

namespace Registry

def change (s : Registry ι) (author : Option ι) (lease : Option Lease) (versions : List String)
    (stamp : Timestamp) : Registry ι :=
  { s with
    lease := lease
    versions := versions
    log := ⟨author, s.lease.map Record.ofLease, lease.map Record.ofLease, stamp⟩ :: s.log }

/-- A reply that tells what is stored, or fails otherwise. -/
def Tells (s : Registry ι) (reply : Option Reply) : Prop :=
  ∀ r ∈ reply,
    (∀ lease, r.decode Lease.ofJson? = .ok lease → s.lease = some lease) ∧
      ∀ e, r.decode Lease.ofJson? = .error e → isMissing e = true → s.lease = none

/-- A reply to what was not carried out. -/
def Refuses : Option Reply → Prop
  | none => True
  | some reply => 400 ≤ reply.status ∧ reply.status < 600

/-- The store takes a call as the writing of a Lease. -/
inductive Accepts (collection name : String) (s : Registry ι) : Call → Lease → Prop
  | create {call : Call} {value : Json} {lease : Lease} :
    call.method = .post → call.path = collection → call.body = some value →
      Lease.ofJson? value = some lease → s.lease = none → Accepts collection name s call lease
  | replace {call : Call} {value : Json} {lease old : Lease} :
    call.method = .put → call.path = collection ++ "/" ++ name → call.body = some value →
      Lease.ofJson? value = some lease → s.lease = some old →
      (lease.metadata.resourceVersion = none ∨
        lease.metadata.resourceVersion = old.metadata.resourceVersion) →
      Accepts collection name s call lease

variable [DecidableEq ι]

def tell (s : Registry ι) (i : ι) : Registry ι :=
  { s with told := Function.update s.told i s.date }

/-- The registry after a candidate's Lease was taken and got a version. -/
def write (s : Registry ι) (i : ι) (lease : Lease) (version : String) : Registry ι :=
  { s.change (some i) (some { lease with metadata.resourceVersion := some version })
      (version :: s.versions) (s.told i) with
    wrote := Function.update s.wrote i true }

/-- The answers to a candidate. What is written gets a version that was never given out. -/
inductive Answers (collection name : String) (i : ι) :
    Registry ι → (q : Question) → q.Answer → Registry ι → Prop
  | now {s : Registry ι} : Answers collection name i s .now s.date (s.tell i)
  | clock {s : Registry ι} {instant : Instant} : Answers collection name i s .clock instant s
  | pause {s : Registry ι} {d : Span} : Answers collection name i s (.pause d) () s
  | read {s : Registry ι} {call : Call} {reply : Option Reply} :
    call.method = .get → call.path = collection ++ "/" ++ name → s.Tells reply →
      Answers collection name i s (.call call) reply s
  | refused {s : Registry ι} {call : Call} {reply : Option Reply} :
    call.method ≠ .get → Refuses reply → Answers collection name i s (.call call) reply s
  | stored {s : Registry ι} {call : Call} {lease : Lease} {version : String}
    {reply : Option Reply} :
    Accepts collection name s call lease → version ∉ s.versions →
      Answers collection name i s (.call call) reply (s.write i lease version)

omit [DecidableEq ι] in
/-- What happens besides: time goes on, and the Lease is released or deleted. -/
inductive Moves : Registry ι → Registry ι → Prop
  | tick {s : Registry ι} {date : Timestamp} :
    s.date ≤ date → date.Valid → Moves s { s with date := date }
  | release {s : Registry ι} {lease : Lease} {version : String} :
    s.lease.isSome = true → (Record.ofLease lease).holder? = none →
      lease.metadata.resourceVersion = some version → version ∉ s.versions →
      Moves s (s.change none (some lease) (version :: s.versions) s.date)
  | delete {s : Registry ι} :
    s.lease.isSome = true → Moves s (s.change none none s.versions s.date)

omit [DecidableEq ι] in
structure Fresh (s : Registry ι) : Prop where
  date : s.date.Valid
  version : ∀ lease ∈ s.lease, ∃ v ∈ s.versions, lease.metadata.resourceVersion = some v
  log : s.log = []

end Registry

/-- The contest of candidates that differ by their identities: each one holds rounds, one after the
other. -/
def contest [DecidableEq ι] (ns name : String) (identity : ι → String) :
    Manners ι Question Question.Answer (Except ControllerError Bool) (Registry ι) where
  answers := Registry.Answers (Collection.leases.within ns) name
  opens i s d t :=
    d = (Candidate.round ⟨ns, name, identity i⟩).run ∧
      t = { s with wrote := Function.update s.wrote i false }
  closes _ s _ t := t = s
  moves := Registry.Moves

/-! ### What is lawful -/

/-- What a candidate may do to the Lease. A foreign holder is displaced only when its time is over;
a term that begins counts one more change of holder, up to the largest count; a renewal keeps the
beginning of the term and the count. -/
structure Change.Lawful (c : Change ι) (identity : String) : Prop where
  holder : ∃ r, c.after = some r ∧ r.holder? = some identity
  displaced : ∀ r ∈ c.before, ∀ holder ∈ r.holder?, holder ≠ identity → r.Lapsed c.stamp
  takeover : ∀ r ∈ c.before, r.holder? ≠ some identity → ∀ r' ∈ c.after,
    r'.transitions = if r.transitions < 2147483647 then r.transitions + 1 else 2147483647
  renewal : ∀ r ∈ c.before, r.holder? = some identity → ∀ r' ∈ c.after,
    r'.acquired = r.acquired ∧ r'.transitions = r.transitions

/-- What a candidate writes over what it has read is lawful, and has a text. -/
theorem lawful_next {existing : Option Lease} {identity : String} {now : Timestamp}
    {decision : Decision} {next : Record} (hvalid : ∀ l ∈ existing, l.Valid) (hnow : now.Valid)
    (hidentity : identity ≠ "")
    (hdecide : decide? (existing.map Record.ofLease) identity now = some decision)
    (hnext : next? decision (existing.map Record.ofLease) identity now = some next)
    (author : Option ι) :
    next.Sendable ∧
      Change.Lawful ⟨author, existing.map Record.ofLease, some next.carried, now⟩ identity := by
  have hholder (n : Int) : (freshTerm identity now n).carried.holder? = some identity := by
    simp [Record.holder?, Record.carried, freshTerm, hidentity]
  have hstored : ∀ r, existing.map Record.ofLease = some r → r.Stored := by
    intro r hr
    obtain ⟨l, hl, rfl⟩ := Option.map_eq_some_iff.mp hr
    exact Record.stored_ofLease (hvalid l hl)
  rcases next?_cases hdecide hnext with
    ⟨hnone, rfl⟩ | ⟨r, hr, hown, rfl⟩ | ⟨r, hr, hother, hover, rfl⟩
  · -- a first term displaces nobody
    refine ⟨freshTerm_sendable hnow rfl, ⟨⟨_, rfl, hholder 0⟩, ?_, ?_, ?_⟩⟩
    all_goals
      intro r hr
      simp [hnone] at hr
  · -- a renewal; its term begins when it was read to begin, since a stored time is cut already
    have hr' := hstored r hr
    refine ⟨⟨hr'.acquired, ?_, hr'.transitions⟩, ⟨⟨_, rfl, hown⟩, ?_, ?_, ?_⟩⟩
    · intro t ht
      cases ht
      exact hnow
    · intro r₁ hr₁ holder hholder₁ hne
      cases hr.symm.trans hr₁
      cases hown.symm.trans hholder₁
      exact absurd rfl hne
    · intro r₁ hr₁ hne
      cases hr.symm.trans hr₁
      exact absurd hown hne
    · intro r₁ hr₁ _ r' hafter
      cases hr.symm.trans hr₁
      cases hafter
      exact ⟨hr'.acquired_stored, rfl⟩
  · -- a term that begins over nobody's, or over a lapsed one
    have hr' := hstored r hr
    have hsendable : (freshTerm identity now (nextTransitions r.transitions)).Sendable :=
      freshTerm_sendable hnow (int32?_nextTransitions hr'.transitions)
    refine ⟨hsendable, ⟨⟨_, rfl, hholder _⟩, ?_, ?_, ?_⟩⟩
    · intro r₁ hr₁ holder hholder₁ _
      cases hr.symm.trans hr₁
      exact hr'.lapsed (hover holder hholder₁)
    · intro r₁ hr₁ _ r' hafter
      cases hr.symm.trans hr₁
      cases hafter
      exact nextTransitions_eq r.transitions
    · intro r₁ hr₁ hown
      cases hr.symm.trans hr₁
      exact absurd hown hother

end CertIssuer.Election
