import CertIssuer.Proofs.Authority.Tokens

/-!
# The end of the clock

A token is good for a number of seconds that the peer states, whatever it is, and the clock counts
up to a greatest second. A call adds seconds to the clock in two places: those that a token was
granted for, and those that a kept token must still be good for. The call is broken off exactly when
such a sum lies beyond the end of the clock (`clock_overflow_iff`).
-/

namespace CertIssuer.Authority

/-! ### Readings of the clock -/

/-- The seconds that are added to a reading of the clock after something was heard: those of a token
that was granted just before, and those that a token is to be good for otherwise. -/
def secondsAhead (before : CallCourse) : Nat :=
  match before.getLast?.bind grantOf? with
  | some (_, some seconds) => seconds
  | _ => tokenSlack.seconds

/-- A reading of the clock from which the seconds ahead lie beyond its end. -/
def Late (before : CallCourse) (x : CallHearing) : Prop :=
  ∃ now : Instant, x = ⟨.clock, now⟩ ∧
    Instant.maxSeconds < now.sinceStart.seconds + secondsAhead before

/-- The clock was read too late, in what was heard after `before`. -/
def Overruns (before heard : CallCourse) : Prop :=
  ∃ first x rest, heard = first ++ x :: rest ∧ Late (before ++ first) x

section Overruns

variable {before first second : CallCourse} {x : CallHearing}

theorem not_overruns_nil (before : CallCourse) : ¬ Overruns before [] := by
  rintro ⟨first, x, rest, hsplit, -⟩
  simp at hsplit

theorem overruns_cons_iff : Overruns before (x :: second) ↔
    Late before x ∨ Overruns (before ++ [x]) second := by
  constructor
  · rintro ⟨first, y, rest, hsplit, hlate⟩
    cases first with
    | nil =>
      obtain ⟨rfl, -⟩ := List.cons.inj hsplit
      exact .inl (by rwa [List.append_nil] at hlate)
    | cons z first =>
      obtain ⟨rfl, hrest⟩ := List.cons.inj hsplit
      refine .inr ⟨first, y, rest, hrest, ?_⟩
      rwa [List.append_assoc, List.singleton_append]
  · rintro (hlate | ⟨first, y, rest, rfl, hlate⟩)
    · exact ⟨[], x, second, rfl, by rwa [List.append_nil]⟩
    · refine ⟨x :: first, y, rest, rfl, ?_⟩
      rwa [List.append_assoc, List.singleton_append] at hlate

theorem overruns_append_iff : Overruns before (first ++ second) ↔
    Overruns before first ∨ Overruns (before ++ first) second := by
  induction first generalizing before with
  | nil => simp [not_overruns_nil]
  | cons x first ih =>
    rw [List.cons_append, overruns_cons_iff, overruns_cons_iff, ih, or_assoc, List.append_assoc,
      List.singleton_append]

theorem overruns_singleton_iff : Overruns before [x] ↔ Late before x := by
  rw [overruns_cons_iff, or_iff_left (not_overruns_nil _)]

end Overruns

theorem secondsAhead_of_grant {before : CallCourse} {x : CallHearing} {value : String}
    {seconds : Nat} (h : grantOf? x = some (value, some seconds)) :
    secondsAhead (before ++ [x]) = seconds := by
  simp only [secondsAhead, List.getLast?_concat, Option.bind_some, h]

theorem late_clock_iff {before : CallCourse} {now : Instant} : Late before ⟨.clock, now⟩ ↔
    Instant.maxSeconds < now.sinceStart.seconds + secondsAhead before := by
  constructor
  · rintro ⟨_, hsame, hbeyond⟩
    cases hsame
    exact hbeyond
  · exact fun hbeyond => ⟨now, rfl, hbeyond⟩

theorem plus?_eq_none_iff {now : Instant} {n : Nat} :
    now.plus? (.ofSeconds n) = none ↔ Instant.maxSeconds < now.sinceStart.seconds + n := by
  have hseconds : (now.sinceStart + .ofSeconds n).seconds = now.sinceStart.seconds + n := by
    show (now.sinceStart.nanos + n * Span.perSecond) / Span.perSecond = _
    rw [Nat.add_mul_div_right _ _ (by decide)]
    rfl
  unfold Instant.plus?
  dsimp only
  rw [hseconds]
  split
  · next hle => simpa using hle
  · next hlt => simpa using hlt

theorem overruns_clock_iff {before : CallCourse} (now : Instant) :
    Overruns before [⟨.clock, now⟩] ↔ now.plus? (.ofSeconds (secondsAhead before)) = none := by
  rw [overruns_singleton_iff, late_clock_iff, plus?_eq_none_iff]

def Call.clockPlus (n : Nat) : Call Instant := do
  let now ← Call.ask .clock
  Call.reach (Instant.plus? now (.ofSeconds n))

/-! ### Parts of a call -/

/-- After `before`, the call is broken off exactly when it reads the clock too late. -/
def Clocked {α : Type} (before : CallCourse) (x : Call α) : Prop :=
  ∀ ⦃kept heard result left⦄, x.Goes kept heard result left →
    (result = .error .clockOverflow ↔ Overruns before heard)

namespace Clocked

variable {α β : Type} {before : CallCourse}

/-- A part that does not read the clock is not broken off. -/
theorem timeless {x : Call α} (h : ∀ kept heard result left, x.Goes kept heard result left →
    result ≠ .error .clockOverflow ∧ ∀ y ∈ heard, y.question ≠ .clock) : Clocked before x := by
  intro kept heard result left hgoes
  obtain ⟨hresult, hheard⟩ := h kept heard result left hgoes
  refine iff_of_false hresult ?_
  rintro ⟨first, y, rest, rfl, now, rfl, -⟩
  exact hheard ⟨.clock, now⟩ (List.mem_append_right _ List.mem_cons_self) rfl

theorem pure (a : α) : Clocked before (Pure.pure a : Call α) := by
  refine timeless fun kept heard result left h => ?_
  obtain ⟨rfl, rfl, -⟩ := Call.goes_pure.mp h
  exact ⟨nofun, List.forall_mem_nil _⟩

theorem fail (e : CallError) : Clocked before (Call.fail e : Call α) := by
  refine timeless fun kept heard result left h => ?_
  obtain ⟨rfl, rfl, -⟩ := Call.goes_fail.mp h
  exact ⟨nofun, List.forall_mem_nil _⟩

theorem keepToken (t : Option Token) : Clocked before (Call.keepToken t) := by
  refine timeless fun kept heard result left h => ?_
  obtain ⟨rfl, rfl, -⟩ := Call.goes_keepToken.mp h
  exact ⟨nofun, List.forall_mem_nil _⟩

theorem bind {x : Call α} {f : α → Call β} (hx : Clocked before x)
    (hf : ∀ kept first a mid, x.Goes kept first (.ok a) mid → Clocked (before ++ first) (f a)) :
    Clocked before (x >>= f) := by
  intro kept heard result left h
  rcases Call.goes_bind.mp h with ⟨stop, hstop, rfl⟩ | ⟨first, second, a, mid, rfl, hfirst, hnext⟩
  · have hiff := hx hstop
    simpa using hiff
  · have hnot : ¬ Overruns before first := fun hover => nomatch (hx hfirst).mpr hover
    rw [overruns_append_iff, or_iff_right hnot]
    exact hf kept first a mid hfirst hnext

theorem keptToken_bind {f : Option Token → Call α} (h : ∀ kept, Clocked before (f kept)) :
    Clocked before (Call.keptToken >>= f) :=
  fun kept _ _ _ hgoes => h kept (Call.goes_keptToken_bind.mp hgoes)

theorem clockPlus {n : Nat} (hn : n = secondsAhead before) : Clocked before (Call.clockPlus n) := by
  intro kept heard result left h
  obtain ⟨now, rest, rfl, hrest⟩ := Call.goes_ask_bind.mp h
  obtain ⟨rfl, rfl, -⟩ := Call.goes_reach.mp hrest
  refine Iff.trans ?_ (overruns_clock_iff now).symm
  rw [← hn]
  cases Instant.plus? now (.ofSeconds n) with
  | none => exact iff_of_true rfl rfl
  | some later => exact iff_of_false nofun nofun

theorem clockPlus_bind {n : Nat} {f : Instant → Call α} (hn : n = secondsAhead before)
    (hf : ∀ later before, Clocked before (f later)) :
    Clocked before (do
      let now ← Call.ask .clock
      let later ← Call.reach (Instant.plus? now (.ofSeconds n))
      f later) := by
  have hread := (clockPlus hn).bind fun _ first later _ _ => hf later (before ++ first)
  rw [Call.clockPlus, bind_assoc] at hread
  exact hread

theorem date_bind {f : Timestamp → Call α}
    (hf : ∀ date : Timestamp, Clocked (before ++ [⟨.date, date⟩]) (f date)) :
    Clocked before (Call.ask .date >>= f) := by
  have hdate : Clocked before (Call.ask .date) := by
    refine timeless fun kept heard result left h => ?_
    obtain ⟨date, rfl, rfl, -⟩ := Call.goes_ask.mp h
    exact ⟨nofun, List.forall_mem_singleton.mpr nofun⟩
  refine hdate.bind fun kept first date mid h => ?_
  obtain ⟨_, rfl, hsame, -⟩ := Call.goes_ask.mp h
  cases hsame
  exact hf date

/-- A request that is sent: the rest of the call is heard after its answer. -/
theorem exchange_bind {method : Net.Method} {address : String} {headers : List (String × String)}
    {body : Net.Body} {f : Except String Net.Reply → Call α}
    (hf : ∀ text before, Clocked before (f (.error text)))
    (hreply : ∀ url reply, Clocked
      (before ++ [⟨.exchange ⟨method, url, headers, body⟩, .reply reply⟩]) (f (.ok reply))) :
    Clocked before (Call.exchange method address headers body >>= f) := by
  intro kept heard result left h
  obtain ⟨text, hnext⟩ | ⟨url, answer, rest, rfl, hnext⟩ := Call.goes_exchange_bind h
  · exact hf text before hnext
  · have hnot : ¬ Overruns before [⟨.exchange ⟨method, url, headers, body⟩, answer⟩] := by
      rw [overruns_singleton_iff]
      rintro ⟨now, hsame, -⟩
      cases hsame
    rw [overruns_append_iff, or_iff_right hnot]
    cases answer with
    | noReply =>
      obtain ⟨text, hnext⟩ := hnext
      exact hf text _ hnext
    | reply reply => exact hreply url reply hnext

end Clocked

/-! ### Calls -/

/-- Nothing was heard, or no token was granted by what was heard last. -/
def Ungranted (before : CallCourse) : Prop := secondsAhead before = tokenSlack.seconds

section Calls

variable {before : CallCourse}

theorem Token.isFresh_clocked (t : Token) (h : Ungranted before) : Clocked before t.isFresh := by
  unfold Token.isFresh
  split
  · exact .pure true
  · next expiry _ =>
    have hslack : 30 = secondsAhead before := (Span.seconds_ofSeconds 30).symm.trans h.symm
    exact .clockPlus_bind hslack fun later _ => .pure (decide (later < expiry))

theorem Token.request_clocked (address : String) (form : List (String × String)) :
    Clocked before (Token.request address form) := by
  unfold Token.request
  refine .exchange_bind (fun text before => .fail _) fun url reply => ?_
  simp only [Call.fail_bind]
  split
  · exact .fail _
  · next hsuccess =>
    split
    · exact .fail _
    · next value expiresIn htoken =>
      have hkeep (expiresAt : Option Instant) (before : CallCourse) : Clocked before
          (do Call.keepToken (some ⟨value, expiresAt⟩); return value : Call String) :=
        .bind (.keepToken _) fun _ _ _ _ _ => .pure value
      split
      · exact hkeep none _
      · next seconds =>
        have hsuccess : reply.isSuccess = true := by simpa using hsuccess
        have hgrant : grantOf? ⟨.exchange ⟨.post, url, [], .form form⟩, .reply reply⟩ =
            some (value, some seconds) := (if_pos hsuccess).trans htoken
        -- the grant is what was heard last before the clock is read
        simp only [map_eq_pure_bind, bind_assoc, pure_bind]
        exact .clockPlus_bind (secondsAhead_of_grant hgrant).symm fun expiry _ =>
          hkeep (some expiry) _

theorem Token.current_clocked (address : String) (form : List (String × String))
    (h : Ungranted before) : Clocked before (Token.current address form) := by
  refine .keptToken_bind fun kept => ?_
  cases kept with
  | none => exact Token.request_clocked address form
  | some t =>
    refine .bind (Token.isFresh_clocked t h) fun _ _ fresh _ _ => ?_
    cases fresh with
    | true => exact .pure t.value
    | false => exact Token.request_clocked address form

theorem Client.authorization_clocked (c : Client) (h : Ungranted before) :
    Clocked before c.authorization := by
  unfold Client.authorization
  split
  · exact .pure _
  · exact .bind (Token.current_clocked _ _ h) fun _ _ token _ _ => .pure ("Bearer " ++ token)

theorem Client.send_clocked (c : Client) (method : Net.Method) (path : String)
    (headers : List (String × String)) (body : Net.Body) (h : Ungranted before) :
    Clocked before (c.send method path headers body) := by
  refine .bind (Client.authorization_clocked c h) fun _ _ shown _ _ => ?_
  refine .exchange_bind (fun text before => .fail _) fun url reply => ?_
  refine .timeless fun kept heard result left hgoes => ?_
  obtain ⟨rfl, rfl, -⟩ := goes_accepted hgoes
  exact ⟨ended_ne_overflow _, List.forall_mem_nil _⟩

theorem Client.enroll_clocked (c : Client) (e : Enrollment) :
    Clocked [] (c.enroll e) := by
  unfold Client.enroll
  simp only [Call.fail_bind]
  split
  · exact .fail _
  · refine .date_bind fun date => ?_
    refine .bind (Client.send_clocked c _ _ _ _ rfl) fun _ _ reply _ _ => ?_
    refine .timeless fun kept heard result left hgoes => ?_
    obtain ⟨rfl, rfl, -⟩ := goes_certificateOf hgoes
    exact ⟨ended_ne_overflow _, List.forall_mem_nil _⟩

theorem Job.call_clocked (c : Client) (job : Job) : Clocked [] (job.call c) := by
  cases job with
  | check => exact .bind (Client.send_clocked c _ _ _ _ rfl) fun _ _ _ _ _ => .pure ()
  | enroll e _ => exact .bind (Client.enroll_clocked c e) fun _ _ _ _ _ => .pure ()

end Calls

/-! ### Calls that are broken off -/

/-- The call has read the clock when the seconds ahead were beyond its end. -/
def ReadsTooLate (heard : CallCourse) : Prop :=
  ∃ before now after, heard = before ++ ⟨.clock, now⟩ :: after ∧
    Instant.maxSeconds < Span.seconds now.sinceStart + secondsAhead before

theorem overruns_nil_iff {heard : CallCourse} : Overruns [] heard ↔ ReadsTooLate heard := by
  constructor
  · rintro ⟨before, x, after, rfl, now, rfl, hbeyond⟩
    exact ⟨before, now, after, rfl, hbeyond⟩
  · rintro ⟨before, now, after, rfl, hbeyond⟩
    exact ⟨before, _, after, rfl, now, rfl, hbeyond⟩

/-- Whatever token is kept and whatever the peer answers: coming by a token ends with a token or with
a failure, and so do calls of a client, except that they are broken off where the clock does not
reach as far as the token is said to be good for, or as far as a kept one must be. -/
theorem clock_overflow_iff (kept : Option Token) :
    (∀ address form heard result left,
      (Token.current address form).Goes kept heard result left →
        (result = .error .clockOverflow ↔ ReadsTooLate heard)) ∧
    ∀ (c : Client) (job : Job) heard result left, (job.call c).Goes kept heard result left →
      (result = .error .clockOverflow ↔ ReadsTooLate heard) := by
  have hnothing : Ungranted [] := rfl
  constructor
  · intro address form heard result left h
    exact (Token.current_clocked address form hnothing h).trans overruns_nil_iff
  · intro c job heard result left h
    exact (Job.call_clocked c job h).trans overruns_nil_iff

/-- Grants a token for as many seconds as can be stated. -/
def lastingPeer : (q : CallQuestion) → q.Answer
  | .clock => Instant.start
  | .date => (⟨0, 0⟩ : Timestamp)
  | .exchange _ => .reply ⟨200, .complete (Text.toBytes
      "\x7b\"access_token\":\"t\",\"expires_in\":18446744073709551615\x7d")⟩

def endsOverrun : Except Stop Unit → Bool
  | .error .clockOverflow => true
  | _ => false

theorem eq_of_endsOverrun {r : Except Stop Unit} (h : endsOverrun r = true) :
    r = .error .clockOverflow := by
  unfold endsOverrun at h
  split at h
  · rfl
  · cases h

/-- The first probe of a client is broken off, although the clock has just been started. -/
theorem clock_overflow_iff_lasting : ∃ heard left,
    (Job.check.call tokenClient).Goes none heard (.error .clockOverflow) left ∧
      ReadsTooLate heard := by
  have hgoes := Call.goes_heardIn lastingPeer (Job.check.call tokenClient) none
  have hend : endsOverrun (((Job.check.call tokenClient).run.run none).result lastingPeer).1 =
      true := by
    decide +kernel
  rw [eq_of_endsOverrun hend] at hgoes
  exact ⟨_, _, hgoes, ((clock_overflow_iff none).2 _ _ _ _ _ hgoes).mp rfl⟩

end CertIssuer.Authority
