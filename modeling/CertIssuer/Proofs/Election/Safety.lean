import CertIssuer.Proofs.ApiServer.Session
import CertIssuer.Proofs.Election.Contest
import Mathlib

/-!
# Election safety

In a contest nobody displaces a holder whose time is not over, so of two candidates that have both
written the Lease, with no release or deletion in between, the time of the earlier one is over.

A candidate decides on a Lease that may be old when it writes. What carries the argument is that a
version is given out once: while the stored Lease has the version that was read, it is the Lease
that was read, and a write that is pinned to this version displaces what was decided on.
-/

namespace CertIssuer.Election

open ApiServer Dialogue

variable {ι : Type} [DecidableEq ι] {ns name : String} {identity : ι → String} {s t : Registry ι}

namespace Registry

/-! ### The registry -/

omit [DecidableEq ι] in
/-- One change of the Lease, by an author who has looked at the clock before. -/
structure Changed (s t : Registry ι) (c : Change ι) : Prop where
  before : c.before = s.lease.map Record.ofLease
  after : c.after = t.lease.map Record.ofLease
  log : t.log = c :: s.log
  stamp : c.stamp ≤ t.date
  versions : ∀ v ∈ s.versions, v ∈ t.versions
  fresh : ∀ lease ∈ t.lease, ∃ v ∈ t.versions, v ∉ s.versions ∧
    lease.metadata.resourceVersion = some v

omit [DecidableEq ι] in
structure Unchanged (s t : Registry ι) : Prop where
  lease : t.lease = s.lease
  log : t.log = s.log
  versions : t.versions = s.versions

omit [DecidableEq ι] in
structure Coherent (identity : ι → String) (s : Registry ι) : Prop where
  date : s.date.Valid
  version : ∀ lease ∈ s.lease, ∃ v ∈ s.versions, lease.metadata.resourceVersion = some v
  current : ∀ c ∈ s.log.head?, c.after = s.lease.map Record.ofLease
  chain : s.log.IsChain fun newer older => newer.before = older.after
  stamps : ∀ c ∈ s.log, c.stamp ≤ s.date
  lawful : ∀ c ∈ s.log, ∀ i, c.author = some i → c.Lawful (identity i)

omit [DecidableEq ι] in
theorem Fresh.coherent (h : s.Fresh) : s.Coherent identity := by
  refine ⟨h.date, h.version, ?_, ?_, ?_, ?_⟩
  all_goals simp [h.log]

omit [DecidableEq ι] in
theorem Coherent.unchanged (h : s.Coherent identity) (hsame : Unchanged s t)
    (hdate : s.date ≤ t.date) (hvalid : t.date.Valid) : t.Coherent identity where
  date := hvalid
  version := by
    rw [hsame.lease, hsame.versions]
    exact h.version
  current := by
    rw [hsame.log, hsame.lease]
    exact h.current
  chain := by
    rw [hsame.log]
    exact h.chain
  stamps := by
    rw [hsame.log]
    exact fun c hc => Timestamp.le_trans (h.stamps c hc) hdate
  lawful := by
    rw [hsame.log]
    exact h.lawful

omit [DecidableEq ι] in
theorem Coherent.changed {c : Change ι} (h : s.Coherent identity) (hchange : Changed s t c)
    (hdate : t.date = s.date) (hlawful : ∀ i, c.author = some i → c.Lawful (identity i)) :
    t.Coherent identity where
  date := by
    rw [hdate]
    exact h.date
  version lease hlease := by
    obtain ⟨v, hv, -, hversion⟩ := hchange.fresh lease hlease
    exact ⟨v, hv, hversion⟩
  current := by
    rw [hchange.log]
    rintro c' hc'
    cases hc'
    exact hchange.after
  chain := by
    rw [hchange.log]
    cases hlog : s.log with
    | nil => exact .singleton c
    | cons older rest =>
      have hcurrent : older.after = s.lease.map Record.ofLease := by
        refine h.current older ?_
        rw [hlog]
        rfl
      refine .cons_cons (hchange.before.trans hcurrent.symm) ?_
      rw [← hlog]
      exact h.chain
  stamps := by
    rw [hchange.log]
    intro c' hc'
    rcases List.mem_cons.mp hc' with rfl | hc'
    · exact hchange.stamp
    · rw [hdate]
      exact h.stamps c' hc'
  lawful := by
    rw [hchange.log]
    intro c' hc'
    rcases List.mem_cons.mp hc' with rfl | hc'
    · exact hlawful
    · exact h.lawful c' hc'

/-! ### What others may do -/

structure Turn (identity : ι → String) (i : ι) (s t : Registry ι) : Prop where
  date : t.date = s.date
  others : ∀ j, j ≠ i → t.told j = s.told j ∧ t.wrote j = s.wrote j
  act : Unchanged s t ∨ ∃ c, c.author = some i ∧ c.Lawful (identity i) ∧ Changed s t c

omit [DecidableEq ι] in
theorem Turn.coherent {i : ι} (h : Turn identity i s t) (hs : s.Coherent identity) :
    t.Coherent identity := by
  rcases h.act with hsame | ⟨c, hauthor, hlawful, hchange⟩
  · refine hs.unchanged hsame ?_ ?_
    · rw [h.date]
      exact Timestamp.le_refl _
    · rw [h.date]
      exact hs.date
  · refine hs.changed hchange h.date fun j hj => ?_
    cases hauthor.symm.trans hj
    exact hlawful

/-- What a candidate sees of the steps of the others. -/
structure Elsewhere (i : ι) (s t : Registry ι) : Prop where
  date : s.date ≤ t.date
  told : t.told i = s.told i
  wrote : t.wrote i = s.wrote i
  touch : Unchanged s t ∨ ∃ c, Changed s t c

omit [DecidableEq ι] in
theorem Turn.elsewhere {i j : ι} (h : Turn identity j s t) (hij : j ≠ i) : Elsewhere i s t where
  date := by
    rw [h.date]
    exact Timestamp.le_refl _
  told := (h.others i (Ne.symm hij)).1
  wrote := (h.others i (Ne.symm hij)).2
  touch := h.act.imp_right fun ⟨c, _, _, hchange⟩ => ⟨c, hchange⟩

omit [DecidableEq ι] in
theorem Moves.elsewhere (h : Moves s t) (i : ι) : Elsewhere i s t := by
  cases h with
  | tick hle hvalid => exact ⟨hle, rfl, rfl, .inl ⟨rfl, rfl, rfl⟩⟩
  | @release lease version hstored hreleased hversion hfresh =>
    refine ⟨Timestamp.le_refl _, rfl, rfl, .inr ⟨_, rfl, rfl, rfl, Timestamp.le_refl _, ?_, ?_⟩⟩
    · exact fun v hv => List.mem_cons_of_mem version hv
    · intro l hl
      cases hl
      exact ⟨version, List.mem_cons_self, hfresh, hversion⟩
  | delete hstored =>
    refine ⟨Timestamp.le_refl _, rfl, rfl, .inr ⟨_, rfl, rfl, rfl, Timestamp.le_refl _, ?_, ?_⟩⟩
    · exact fun v hv => hv
    · exact fun l hl => nomatch hl

omit [DecidableEq ι] in
theorem Moves.coherent (h : Moves s t) (hs : s.Coherent identity) : t.Coherent identity := by
  cases h with
  | tick hle hvalid => exact hs.unchanged ⟨rfl, rfl, rfl⟩ hle hvalid
  | @release lease version hstored hreleased hversion hfresh =>
    refine hs.changed ⟨rfl, rfl, rfl, Timestamp.le_refl _, ?_, ?_⟩ rfl fun i hi => nomatch hi
    · exact fun v hv => List.mem_cons_of_mem version hv
    · intro l hl
      cases hl
      exact ⟨version, List.mem_cons_self, hfresh, hversion⟩
  | delete hstored =>
    refine hs.changed ⟨rfl, rfl, rfl, Timestamp.le_refl _, ?_, ?_⟩ rfl fun i hi => nomatch hi
    · exact fun v hv => hv
    · exact fun l hl => nomatch hl

/-! ### What a candidate knows -/

omit [DecidableEq ι] in
/-- The Lease that was read is the stored one while the stored one has its version. -/
def Seen (existing : Option Lease) (s : Registry ι) : Prop :=
  ∀ lease ∈ existing, ∃ v ∈ s.versions, lease.metadata.resourceVersion = some v ∧
    ∀ stored ∈ s.lease, stored.metadata.resourceVersion = some v → stored = lease

omit [DecidableEq ι] in
theorem Seen.elsewhere {existing : Option Lease} {i : ι} (h : Seen existing s)
    (hst : Elsewhere i s t) : Seen existing t := by
  intro lease hlease
  obtain ⟨v, hv, hversion, hsame⟩ := h lease hlease
  rcases hst.touch with hunchanged | ⟨c, hchange⟩
  · refine ⟨v, by rwa [hunchanged.versions], hversion, ?_⟩
    rw [hunchanged.lease]
    exact hsame
  · refine ⟨v, hchange.versions v hv, hversion, fun stored hstored heq => ?_⟩
    -- what is stored now has a version that was never given out before
    obtain ⟨v', -, hnew, hversion'⟩ := hchange.fresh stored hstored
    cases heq.symm.trans hversion'
    exact absurd hv hnew

structure Informed (i : ι) (existing : Option Lease) (now : Timestamp) (s : Registry ι) : Prop where
  seen : Seen existing s
  told : s.told i = now
  past : now ≤ s.date

omit [DecidableEq ι] in
theorem Informed.elsewhere {existing : Option Lease} {now : Timestamp} {i : ι}
    (h : Informed i existing now s) (hst : Elsewhere i s t) : Informed i existing now t where
  seen := h.seen.elsewhere hst
  told := hst.told.trans h.told
  past := Timestamp.le_trans h.past hst.date

end Registry

/-! ### Rounds -/

section Rounds

open Registry

def written (reply : Option Reply) : Except ControllerError Bool :=
  match heard Lease.ofJson? reply with
  | .ok _ => .ok true
  | .error (.api code reason text) =>
    if code = 409 then .ok false else .error (.api code reason text)
  | .error e => .error e

theorem written_of_error {reply : Option Reply} {e : ControllerError}
    (h : heard Lease.ofJson? reply = .error e) : written reply ≠ .ok true := by
  unfold written
  rw [h]
  cases e with
  | api code reason text =>
    dsimp only
    split <;> nofun
  | _ => nofun

theorem written_of_refuses {reply : Option Reply} (h : Refuses reply) :
    written reply ≠ .ok true := by
  cases reply with
  | none => exact written_of_error rfl
  | some reply =>
    have hread : ∃ e, reply.read = .error e := by
      have hstatus : 400 ≤ reply.status ∧ reply.status < 600 := h
      unfold Reply.read
      rw [if_pos hstatus]
      exact ⟨_, rfl⟩
    obtain ⟨e, he⟩ := hread
    have hheard : heard Lease.ofJson? (some reply) = .error e := by
      show reply.decode Lease.ofJson? = .error e
      unfold Reply.decode
      rw [he]
      rfl
    exact written_of_error hheard

theorem Candidate.store_run (c : Candidate) (existing : Option Lease) (next : Record) :
    (c.store existing next).run =
      match next.toLease? c.lease c.namespace (existing.bind (·.metadata.resourceVersion)) with
      | none => .done (.error .serialization)
      | some lease =>
        if unaddressable c.lease (c.storing existing lease).path then .done (.error .client)
        else .ask (.call (c.storing existing lease)) fun reply => .done (written reply) := by
  unfold Candidate.store
  dsimp only
  cases next.toLease? c.lease c.namespace (existing.bind (·.metadata.resourceVersion)) with
  | none => rfl
  | some lease =>
    dsimp only
    rw [run_tryCatch, run_bind, exchange_run]
    split
    · rfl
    · simp only [Dialogue.ask_bind, Dialogue.done_bind]
      congr 1
      funext reply
      unfold written
      cases heard Lease.ofJson? reply with
      | ok a => rfl
      | error e =>
        cases e with
        | api code reason text =>
          simp only [Dialogue.done_bind, lostRace?]
          split <;> rfl
        | _ => rfl

def Candidate.decided (c : Candidate) (existing : Option Lease) (now : Timestamp) :
    Dialogue Question Question.Answer (Except ControllerError Bool) :=
  match decide? (existing.map Record.ofLease) c.identity now with
  | none => .done (.error .serialization)
  | some decision =>
    match next? decision (existing.map Record.ofLease) c.identity now with
    | none => .done (.ok false)
    | some next => (c.store existing next).run

theorem Candidate.round_run (c : Candidate) :
    c.round.run =
      if unaddressable c.lease (c.collection ++ "/" ++ c.lease) then .done (.error .client)
      else .ask (.call ⟨.get, c.collection ++ "/" ++ c.lease, none, none⟩) fun reply =>
        match found Lease.ofJson? reply with
        | .error e => .done (.error e)
        | .ok existing => .ask .now fun now => c.decided existing now := by
  unfold Candidate.round
  rw [run_bind, get?_run]
  split
  · rfl
  · simp only [Dialogue.ask_bind, Dialogue.done_bind]
    congr 1
    funext reply
    cases found Lease.ofJson? reply with
    | error e => rfl
    | ok existing =>
      refine congrArg (Dialogue.ask Question.now) (funext fun now => ?_)
      unfold Candidate.decided
      change ExceptT.run (match decide? _ _ now with | none => _ | some decision => _) = _
      cases decide? (existing.map Record.ofLease) c.identity now with
      | none => rfl
      | some decision =>
        dsimp only
        cases next? decision (existing.map Record.ofLease) c.identity now with
        | none => rfl
        | some next => rfl

abbrev view (ns name : String) (identity : ι → String) (i : ι) :
    Surroundings Question Question.Answer (Registry ι) :=
  (contest ns name identity).around (Turn identity) (Coherent identity) i

variable {i : ι}

theorem view_moves (h : (view ns name identity i).moves s t) :
    t.Coherent identity ∧ Elsewhere i s t := by
  obtain ⟨-, ht, hmove | ⟨j, hij, hturn⟩⟩ := h
  · exact ⟨ht, hmove.elsewhere i⟩
  · exact ⟨ht, hturn.elsewhere hij⟩

/-- What a candidate knows, it knows as long as it waits. -/
theorem later_holds {R : Registry ι → Prop} (hR : ∀ s t, Elsewhere i s t → R s → R t)
    (hs : s.Coherent identity) (h : R s) (hst : (view ns name identity i).Later s t) :
    t.Coherent identity ∧ R t :=
  later_keeps (R := fun s => s.Coherent identity ∧ R s)
    (fun _ _ hs hmove => ⟨(view_moves hmove).1, hR _ _ (view_moves hmove).2 hs.2⟩) ⟨hs, h⟩ hst

/-- The end of a round: one that reports success has changed the Lease. -/
def Reported (i : ι) (r : Except ControllerError Bool) (s : Registry ι) : Prop :=
  r = .ok true → s.wrote i = true

theorem secures_failure {r : Except ControllerError Bool} (h : r ≠ .ok true) :
    (Dialogue.done r).Secures (view ns name identity i) (Turn identity i) (Reported i) s :=
  fun _ _ heq => absurd heq h

theorem secures_success {r : Except ControllerError Bool} (hs : s.Coherent identity)
    (h : s.wrote i = true) :
    (Dialogue.done r).Secures (view ns name identity i) (Turn identity i) (Reported i) s :=
  fun _ hst _ => (later_holds (fun _ _ hst h => hst.wrote.trans h) hs h hst).2

omit [DecidableEq ι] in
theorem Registry.Turn.refl : Turn identity i s s where
  date := rfl
  others _ _ := ⟨rfl, rfl⟩
  act := .inl ⟨rfl, rfl, rfl⟩

theorem write_turn {lease : Lease} {version : String} (hfresh : version ∉ s.versions)
    (hlawful : Change.Lawful
      ⟨some i, s.lease.map Record.ofLease, some (Record.ofLease lease), s.told i⟩ (identity i))
    (hstamp : s.told i ≤ s.date) : Turn identity i s (s.write i lease version) where
  date := rfl
  others j hj := ⟨rfl, Function.update_of_ne hj _ _⟩
  act := by
    refine .inr ⟨_, rfl, hlawful, rfl, rfl, rfl, hstamp, ?_, ?_⟩
    · exact fun v hv => List.mem_cons_of_mem version hv
    · intro stored hstored
      cases hstored
      exact ⟨version, List.mem_cons_self, hfresh, rfl⟩

theorem answers_get {call : Call} {reply : Option Reply} (hget : call.method = .get)
    (h : Answers (Collection.leases.within ns) name i s (.call call) reply t) :
    t = s ∧ s.Tells reply := by
  cases h with
  | read _ _ htells => exact ⟨rfl, htells⟩
  | refused hother => exact absurd hget hother
  | stored haccepts =>
    cases haccepts with
    | create hpost => cases hget.symm.trans hpost
    | replace hput => cases hget.symm.trans hput

theorem found_valid {existing : Option Lease} {reply : Option Reply}
    (h : found Lease.ofJson? reply = .ok existing) : ∀ l ∈ existing, l.Valid := by
  obtain ⟨r, -, ⟨l, hdecode, rfl⟩ | ⟨e, -, -, rfl⟩⟩ := found_eq_ok h
  · intro l' hl'
    obtain rfl := Option.some.inj hl'
    obtain ⟨value, hvalue⟩ := exists_of_decode hdecode
    exact Lease.valid_of_ofJson? hvalue
  · exact fun _ hl => nomatch hl

omit [DecidableEq ι] in
theorem tells_found {existing : Option Lease} {reply : Option Reply} (h : s.Tells reply)
    (hfound : found Lease.ofJson? reply = .ok existing) : s.lease = existing := by
  obtain ⟨r, rfl, ⟨l, hdecode, rfl⟩ | ⟨e, hdecode, hmissing, rfl⟩⟩ := found_eq_ok hfound
  · exact (h r rfl).1 l hdecode
  · exact (h r rfl).2 e hdecode hmissing

omit [DecidableEq ι] in
theorem seen_of_stored {existing : Option Lease} (hs : s.Coherent identity)
    (h : s.lease = existing) : Seen existing s := by
  intro lease hlease
  rw [← h] at hlease
  obtain ⟨v, hv, hversion⟩ := hs.version lease hlease
  exact ⟨v, hv, hversion, fun stored hstored _ => Option.some.inj (hstored.symm.trans hlease)⟩

omit [DecidableEq ι] in
/-- A write that is taken displaces the Lease that was read. -/
theorem accepted_seen {c : Candidate} {existing : Option Lease} {lease l sent : Lease}
    (hseen : Seen existing s) (hsent : Lease.ofJson? lease.toJson = some sent)
    (hpinned : sent.metadata.resourceVersion = existing.bind (·.metadata.resourceVersion))
    (h : Accepts (Collection.leases.within ns) name s (c.storing existing lease) l) :
    l = sent ∧ s.lease = existing := by
  cases existing with
  | none =>
    cases h with
    | create _ _ hbody hread hnone =>
      cases hbody
      exact ⟨Option.some.inj (hread.symm.trans hsent), hnone⟩
    | replace hput => cases hput
  | some read =>
    cases h with
    | create hpost => cases hpost
    | @replace value _ old _ _ hbody hread hold hversion =>
      cases hbody
      obtain rfl := Option.some.inj (hread.symm.trans hsent)
      refine ⟨rfl, ?_⟩
      obtain ⟨v, -, hv, hsame⟩ := hseen read rfl
      have hpinned : l.metadata.resourceVersion = some v := hpinned.trans hv
      rcases hversion with hnone | hversion
      · cases hnone.symm.trans hpinned
      · rw [hold, hsame old hold (hversion.symm.trans hpinned)]

theorem store_secures {existing : Option Lease} {now : Timestamp} {decision : Decision}
    {next : Record} (hidentity : identity i ≠ "") (hs : s.Coherent identity)
    (hinformed : Informed i existing now s) (hvalid : ∀ l ∈ existing, l.Valid)
    (hnow : now.Valid)
    (hdecide : decide? (existing.map Record.ofLease) (identity i) now = some decision)
    (hnext : next? decision (existing.map Record.ofLease) (identity i) now = some next) :
    (Candidate.store ⟨ns, name, identity i⟩ existing next).run.Secures (view ns name identity i)
      (Turn identity i) (Reported i) s := by
  rw [Candidate.store_run]
  split
  · exact secures_failure nofun
  · next lease hlease =>
    split
    · exact secures_failure nofun
    · intro t hst reply u hanswer
      -- when the write arrives, the Lease that was read may be an old one
      obtain ⟨ht, hinformed⟩ := later_holds (fun _ _ hst h => h.elsewhere hst) hs hinformed hst
      obtain ⟨hsendable, hlawful⟩ :=
        lawful_next hvalid hnow hidentity hdecide hnext (some i)
      obtain ⟨sent, hsent, hpinned, hcarried⟩ := Record.ofLease_sent hsendable hlease
      cases hanswer with
      | read hget => cases existing <;> cases hget
      | refused _ hrefused => exact ⟨.refl, secures_failure (written_of_refuses hrefused)⟩
      | @stored _ l version _ haccepts hfresh =>
        obtain ⟨rfl, hdisplaced⟩ := accepted_seen hinformed.seen hsent hpinned haccepts
        -- it was taken, so it displaces what was decided on
        have hturn : Turn identity i t (t.write i l version) := by
          refine write_turn hfresh ?_ ?_
          · simp only [hdisplaced, hinformed.told, hcarried]
            exact hlawful
          · rw [hinformed.told]
            exact hinformed.past
        have hwrote : (t.write i l version).wrote i = true := Function.update_self i _ _
        exact ⟨hturn, secures_success (hturn.coherent ht) hwrote⟩

theorem decided_secures {existing : Option Lease} {now : Timestamp} (hidentity : identity i ≠ "")
    (hs : s.Coherent identity) (hinformed : Informed i existing now s)
    (hvalid : ∀ l ∈ existing, l.Valid) (hnow : now.Valid) :
    (Candidate.decided ⟨ns, name, identity i⟩ existing now).Secures (view ns name identity i)
      (Turn identity i) (Reported i) s := by
  unfold Candidate.decided
  split
  · exact secures_failure nofun
  · next decision hdecide =>
    split
    · exact secures_failure nofun
    · next next hnext =>
      exact store_secures hidentity hs hinformed hvalid hnow hdecide hnext

theorem tell_turn : Turn identity i s (s.tell i) :=
  ⟨rfl, fun _ hj => ⟨Function.update_of_ne hj _ _, rfl⟩, .inl ⟨rfl, rfl, rfl⟩⟩

/-- A round changes the Lease lawfully or not at all. -/
theorem round_secures (hidentity : identity i ≠ "") (hs : s.Coherent identity) :
    (Candidate.round ⟨ns, name, identity i⟩).run.Secures (view ns name identity i)
      (Turn identity i) (Reported i) s := by
  rw [Candidate.round_run]
  split
  · exact secures_failure nofun
  · intro t hst reply u hanswer
    have ht := (later_holds (R := fun _ => True) (fun _ _ _ h => h) hs trivial hst).1
    obtain ⟨rfl, htells⟩ := answers_get rfl hanswer
    refine ⟨.refl, ?_⟩
    dsimp only
    cases hfound : found Lease.ofJson? reply with
    | error e => exact secures_failure nofun
    | ok existing =>
      have hread := tells_found htells hfound
      have hvalid := found_valid hfound
      have hseen := seen_of_stored ht hread
      intro t' hst' now u' hnow
      obtain ⟨ht', hseen'⟩ := later_holds (fun _ _ hst h => h.elsewhere hst) ht hseen hst'
      cases hnow
      have hinformed : Informed i existing t'.date (t'.tell i) :=
        ⟨hseen', Function.update_self i _ _, Timestamp.le_refl _⟩
      have hturn : Turn identity i t' (t'.tell i) := tell_turn
      exact ⟨hturn, decided_secures hidentity (hturn.coherent ht') hinformed hvalid ht'.date⟩

end Rounds

/-! ### Contests -/

section Contests

open Registry

theorem contest_orderly (hidentity : ∀ i, identity i ≠ "") :
    (contest ns name identity).Orderly (Turn identity) (Coherent identity) Reported where
  moves _ _ hs hmove := hmove.coherent hs
  acts _ _ _ hs hturn := hturn.coherent hs
  opens i s d t hs hopen := by
    obtain ⟨rfl, rfl⟩ := hopen
    have hturn : Turn identity i s { s with wrote := Function.update s.wrote i false } :=
      ⟨rfl, fun j hj => ⟨rfl, Function.update_of_ne hj _ _⟩, .inl ⟨rfl, rfl, rfl⟩⟩
    exact ⟨hturn, round_secures (hidentity i) (hturn.coherent hs)⟩
  closes i s r t _ _ hclose := by
    cases hclose
    exact .refl

omit [DecidableEq ι] in
/-- Whoever has written over the record of another has found its time over. -/
theorem Registry.Coherent.lapsed (hs : s.Coherent identity)
    (hdistinct : Function.Injective identity) {newer older : List (Change ι)}
    {later earlier : Change ι} {i j : ι} (hlog : s.log = newer ++ later :: earlier :: older)
    (hearlier : earlier.author = some i) (hlater : later.author = some j) (hij : i ≠ j) :
    ∀ r ∈ earlier.after, r.Lapsed s.date := by
  intro r hr
  have hmem (c : Change ι) (hc : c = later ∨ c = earlier) : c ∈ s.log := by
    rw [hlog]
    rcases hc with rfl | rfl <;> simp
  have hchain := hs.chain
  rw [hlog] at hchain
  -- the later change found what the earlier one had left
  have hbefore : later.before = earlier.after :=
    (List.isChain_append_cons_cons.mp hchain).2.1
  obtain ⟨r', hr', hholder⟩ := (hs.lawful earlier (hmem earlier (.inr rfl)) i hearlier).holder
  cases hr.symm.trans hr'
  have hlawful := hs.lawful later (hmem later (.inl rfl)) j hlater
  have hlapsed := hlawful.displaced r (hbefore.trans hr) (identity i) hholder
    fun heq => hij (hdistinct heq)
  exact hlapsed.mono (hs.stamps later (hmem later (.inl rfl)))

/-- What holds at any time of a contest. Every change by a candidate is lawful. Of two changes by
different candidates, with neither a release nor a deletion nor a change by the first of the two in
between, the time that the earlier one has left is over. A round that reports success has changed
the Lease. -/
structure Safe (identity : ι → String)
    (C : Crowd ι Question Question.Answer (Except ControllerError Bool) (Registry ι)) : Prop where
  lawful : ∀ c ∈ C.state.log, ∀ i, c.author = some i → c.Lawful (identity i)
  exclusive : ∀ newer between older later earlier i j,
    C.state.log = newer ++ later :: (between ++ earlier :: older) →
      earlier.author = some i → later.author = some j → i ≠ j →
      (∀ c ∈ between, c.author ≠ some i ∧ c.author ≠ none) →
      ∀ r ∈ earlier.after, r.Lapsed C.state.date
  reported : ∀ i, C.talks i = some (.done (.ok true)) → C.state.wrote i = true

/-- Candidates of distinct names, over a Lease that nobody has changed yet. -/
theorem contest_safe {C : Crowd ι Question Question.Answer (Except ControllerError Bool)
      (Registry ι)} (hidentity : ∀ i, identity i ≠ "")
    (hdistinct : Function.Injective identity) (hfresh : s.Fresh)
    (hrun : (contest ns name identity).Run ⟨s, fun _ => none⟩ C) : Safe identity C := by
  have hstart : (contest ns name identity).Sound (Turn identity) (Coherent identity) Reported
      ⟨s, fun _ => none⟩ := ⟨hfresh.coherent, fun _ _ h => nomatch h⟩
  have hsound := Manners.run_sound (contest_orderly hidentity) hstart hrun
  have hcoherent := hsound.invariant
  refine ⟨hcoherent.lawful, ?_, fun i hi => hsound.at_end hi rfl⟩
  intro newer between older later earlier i j hlog hearlier hlater hij hbetween
  -- the first change after the earlier one, by somebody else
  rcases List.eq_nil_or_concat between with rfl | ⟨front, next, rfl⟩
  · exact hcoherent.lapsed hdistinct hlog hearlier hlater hij
  · obtain ⟨hother, hnobody⟩ := hbetween next (by simp)
    obtain ⟨k, hk⟩ := Option.ne_none_iff_exists'.mp hnobody
    have hlog : C.state.log = (newer ++ later :: front) ++ next :: earlier :: older := by
      simpa using hlog
    exact hcoherent.lapsed hdistinct hlog hearlier hk fun heq => hother (heq ▸ hk)

/-! ### A takeover -/

/-- A round that nobody interrupts and whose write is taken. -/
theorem round_alone {i : ι} {read reply : Option Reply} {decision : Decision} {next : Record}
    {lease l : Lease} {version : String}
    (hpath : unaddressable name (Collection.leases.within ns ++ "/" ++ name) = false)
    (hcollection : unaddressable name (Collection.leases.within ns) = false)
    (htells : s.Tells read) (hfound : found Lease.ofJson? read = .ok s.lease)
    (hdecide : decide? (s.lease.map Record.ofLease) (identity i) s.date = some decision)
    (hnext : next? decision (s.lease.map Record.ofLease) (identity i) s.date = some next)
    (hlease : next.toLease? name ns (s.lease.bind (·.metadata.resourceVersion)) = some lease)
    (hsent : Lease.ofJson? lease.toJson = some l)
    (hpinned : l.metadata.resourceVersion = s.lease.bind (·.metadata.resourceVersion))
    (hfresh : version ∉ s.versions) :
    (contest ns name identity).Alone i (Candidate.round ⟨ns, name, identity i⟩).run s
      (written reply) ((s.tell i).write i l version) := by
  rw [Candidate.round_run]
  rw [if_neg (by simp [Candidate.collection, hpath])]
  refine .ask (.read rfl rfl htells) ?_
  rw [hfound]
  refine .ask .now ?_
  simp only [Candidate.decided, hdecide, hnext, Candidate.store_run, hlease]
  have haccepts : (s.tell i).Accepts (Collection.leases.within ns) name
      (Candidate.storing ⟨ns, name, identity i⟩ s.lease lease) l := by
    cases hstored : s.lease with
    | none => exact .create rfl rfl rfl hsent hstored
    | some old =>
      rw [hstored] at hpinned
      exact .replace rfl rfl rfl hsent hstored (.inr hpinned)
  rw [if_neg]
  · exact .ask (.stored haccepts hfresh) .done
  · cases s.lease with
    | none => simp [Candidate.storing, Candidate.collection, hcollection]
    | some old => simp [Candidate.storing, Candidate.collection, hpath]

def noon : Timestamp := ⟨1714564800, 0⟩

/-- Twenty seconds later. -/
def afterNoon : Timestamp := ⟨1714564820, 0⟩

def names (second : Bool) : String := if second then "b" else "a"

def untouched : Registry Bool := ⟨none, [], noon, fun _ => noon, fun _ => false, []⟩

def termSpec (holder : String) (now : Timestamp) (transitions : Int) : LeaseSpec :=
  ⟨some now, some holder, some 15, some transitions, some now⟩

def missingReply : Reply where
  status := 404
  body := "\x7b\"status\":\"Failure\",\"reason\":\"NotFound\",\"code\":404\x7d"

def termReply : Reply where
  status := 200
  body :=
    "\x7b\"metadata\":\x7b\"name\":\"l\",\"namespace\":\"ns\",\"resourceVersion\":\"1\"\x7d," ++
    "\"spec\":\x7b\"acquireTime\":\"2024-05-01T12:00:00Z\",\"holderIdentity\":\"a\"," ++
    "\"leaseDurationSeconds\":15,\"leaseTransitions\":0," ++
    "\"renewTime\":\"2024-05-01T12:00:00Z\"\x7d\x7d"

set_option maxRecDepth 10000 in
theorem decode_missingReply :
    missingReply.decode Lease.ofJson? = .error (.api 404 "NotFound" "") := by cbv

set_option maxRecDepth 10000 in
theorem decode_termReply : termReply.decode Lease.ofJson? =
    .ok ⟨{ name := some "l", «namespace» := some "ns", resourceVersion := some "1" },
      some (termSpec "a" noon 0)⟩ := by cbv

def firstLease : Lease :=
  ⟨{ name := some "l", «namespace» := some "ns" }, some (termSpec "a" noon 0)⟩

def takenLease : Lease :=
  ⟨{ name := some "l", «namespace» := some "ns", resourceVersion := some "1" },
    some (termSpec "b" afterNoon 1)⟩

theorem termSpec_valid {holder : String} {now : Timestamp} {n : Int} (hnow : now.Valid)
    (hn : Json.int32? (.int n) = some n) : (termSpec holder now n).Valid where
  acquireTime t ht := by
    cases ht
    exact hnow
  renewTime t ht := by
    cases ht
    exact hnow
  duration k hk := by
    cases hk
    rfl
  transitions k hk := by
    cases hk
    exact hn

theorem noon_valid : noon.Valid := ⟨by decide, by decide, by decide⟩

theorem afterNoon_valid : afterNoon.Valid := ⟨by decide, by decide, by decide⟩

def opened : Registry Bool :=
  { untouched with wrote := Function.update untouched.wrote false false }

def begun : Registry Bool := (opened.tell false).write false firstLease "1"

def lapsed : Registry Bool := { begun with date := afterNoon }

def reopened : Registry Bool := { lapsed with wrote := Function.update lapsed.wrote true false }

def takenOver : Registry Bool := (reopened.tell true).write true takenLease "2"

theorem addressable_l : unaddressable "l" (Collection.leases.within "ns") = false ∧
    unaddressable "l" (Collection.leases.within "ns" ++ "/" ++ "l") = false := by decide

theorem first_round : (contest "ns" "l" names).Alone false
    (Candidate.round ⟨"ns", "l", "a"⟩).run opened (written none) begun := by
  obtain ⟨hcollection, hpath⟩ := addressable_l
  have hread : opened.Tells (some missingReply) := by
    intro r hr
    cases hr
    exact ⟨fun _ h => (nomatch decode_missingReply.symm.trans h), fun _ _ _ => rfl⟩
  have hfound : found Lease.ofJson? (some missingReply) = .ok opened.lease := by
    exact found_of_missing decode_missingReply rfl
  have hlease : (freshTerm "a" noon 0).toLease? "l" "ns" none = some firstLease := rfl
  have hspec : (termSpec "a" noon 0).Valid := termSpec_valid noon_valid rfl
  have hsent : Lease.ofJson? firstLease.toJson = some firstLease := Lease.ofJson?_toJson hspec
  exact round_alone hpath hcollection hread hfound rfl rfl hlease hsent rfl List.not_mem_nil

theorem reopened_tells : reopened.Tells (some termReply) := by
  intro r hr
  cases hr
  refine ⟨fun lease h => ?_, fun _ h => nomatch decode_termReply.symm.trans h⟩
  cases decode_termReply.symm.trans h
  rfl

theorem second_round : (contest "ns" "l" names).Alone true
    (Candidate.round ⟨"ns", "l", "b"⟩).run reopened (written none) takenOver := by
  obtain ⟨hcollection, hpath⟩ := addressable_l
  have hdecide : decide? (reopened.lease.map Record.ofLease) "b" reopened.date =
      some .takeOver := by decide
  have hlease : (freshTerm "b" afterNoon 1).toLease? "l" "ns" (some "1") = some takenLease := rfl
  have hspec : (termSpec "b" afterNoon 1).Valid := termSpec_valid afterNoon_valid rfl
  have hsent : Lease.ofJson? takenLease.toJson = some takenLease := Lease.ofJson?_toJson hspec
  have hnext : next? .takeOver (reopened.lease.map Record.ofLease) "b" reopened.date =
      some (freshTerm "b" afterNoon 1) := by decide
  have hfresh : "2" ∉ reopened.versions := by decide
  have hfound : found Lease.ofJson? (some termReply) = .ok reopened.lease := by
    exact found_of_decode decode_termReply
  exact round_alone hpath hcollection reopened_tells hfound hdecide hnext hlease hsent rfl hfresh

/-- One candidate begins a term and falls silent, and another one takes over. -/
theorem contest_safe_takeover :
    ∃ C, (contest "ns" "l" names).Run ⟨untouched, fun _ => none⟩ C ∧ Safe names C ∧
      C.state.log.map (·.author) = [some true, some false] := by
  have hdistinct : Function.Injective names := by
    show ∀ i j, names i = names j → i = j
    decide
  have hfresh : untouched.Fresh := ⟨noon_valid, (fun _ h => nomatch h), rfl⟩
  have hbegun : (contest "ns" "l" names).Run ⟨untouched, fun _ => none⟩ ⟨begun, fun _ => none⟩ :=
    Manners.run_alone rfl ⟨rfl, rfl⟩ first_round rfl
  have hlapse : (contest "ns" "l" names).Step ⟨begun, fun _ => none⟩ ⟨lapsed, fun _ => none⟩ :=
    .move (.tick (by decide) afterNoon_valid)
  have htaken : (contest "ns" "l" names).Run ⟨lapsed, fun _ => none⟩ ⟨takenOver, fun _ => none⟩ :=
    Manners.run_alone rfl ⟨rfl, rfl⟩ second_round rfl
  have hrun := (hbegun.tail hlapse).trans htaken
  exact ⟨_, hrun, contest_safe (by decide) hdistinct hfresh hrun, rfl⟩

end Contests

end CertIssuer.Election
