import CertIssuer.Authority.Client
import CertIssuer.Proofs.Dialogue.Course

/-!
# The course of a call

What a call hears, how it ends, and which token it leaves behind, put together from its parts. A
part that stops is the end of the whole, unless the stop is caught.
-/

namespace CertIssuer.Authority

open Dialogue (Heard)

abbrev CallCourse := List (Heard CallQuestion CallQuestion.Answer)

namespace Call

variable {α β : Type} {kept left : Option Token} {heard : CallCourse} {result : Except Stop α}

/-- The call, begun with the kept token, can go so that this is heard, this is its result, and
this token is left. -/
def Goes (x : Call α) (kept : Option Token) (heard : CallCourse) (result : Except Stop α)
    (left : Option Token) : Prop :=
  (x.run.run kept).Goes heard (result, left)

theorem goes_transcript {σ : Type} (answer : (q : CallQuestion) → σ → q.Answer × σ) (x : Call α)
    (kept : Option Token) (s : σ) :
    x.Goes kept ((x.run.run kept).transcript answer s) ((x.run.run kept).hold answer s).1.1
      ((x.run.run kept).hold answer s).1.2 :=
  Dialogue.goes_transcript answer (x.run.run kept) s

theorem goes_heardIn (world : (q : CallQuestion) → q.Answer) (x : Call α) (kept : Option Token) :
    x.Goes kept ((x.run.run kept).heardIn world) ((x.run.run kept).result world).1
      ((x.run.run kept).result world).2 :=
  Dialogue.goes_heardIn world (x.run.run kept)

/-! ### Putting together -/

theorem goes_pure {a : α} :
    (pure a : Call α).Goes kept heard result left ↔ heard = [] ∧ result = .ok a ∧ left = kept := by
  show heard = [] ∧ (result, left) = (Except.ok a, kept) ↔ _
  rw [Prod.mk.injEq]

theorem goes_throw {stop : Stop} :
    (throw stop : Call α).Goes kept heard result left ↔
      heard = [] ∧ result = .error stop ∧ left = kept := by
  show heard = [] ∧ (result, left) = (Except.error stop, kept) ↔ _
  rw [Prod.mk.injEq]

theorem goes_fail {e : CallError} :
    (fail e : Call α).Goes kept heard result left ↔
      heard = [] ∧ result = .error (.failed e) ∧ left = kept :=
  goes_throw

@[simp] theorem fail_bind {e : CallError} (f : α → Call β) : (fail e >>= f) = fail e := rfl

theorem goes_bind {x : Call α} {f : α → Call β} {result : Except Stop β} :
    (x >>= f).Goes kept heard result left ↔
      (∃ stop, x.Goes kept heard (.error stop) left ∧ result = .error stop) ∨
      ∃ first second a mid, heard = first ++ second ∧ x.Goes kept first (.ok a) mid ∧
        (f a).Goes mid second result left := by
  have cut : (x >>= f).Goes kept heard result left ↔
      ∃ first second ended, heard = first ++ second ∧ (x.run.run kept).Goes first ended ∧
        ((ExceptT.bindCont f ended.1).run ended.2).Goes second (result, left) :=
    Dialogue.goes_bind
  rw [cut]
  constructor
  · rintro ⟨first, second, ⟨ended, mid⟩, rfl, hx, hf⟩
    cases ended with
    | ok a => exact .inr ⟨first, second, a, mid, rfl, hx, hf⟩
    | error stop =>
      obtain ⟨rfl, hend⟩ := hf
      rw [Prod.mk.injEq] at hend
      obtain ⟨rfl, rfl⟩ := hend
      exact .inl ⟨stop, by rwa [List.append_nil], rfl⟩
  · rintro (⟨stop, hx, rfl⟩ | ⟨first, second, a, mid, rfl, hx, hf⟩)
    · exact ⟨heard, [], (.error stop, left), (List.append_nil _).symm, hx, rfl, rfl⟩
    · exact ⟨first, second, (.ok a, mid), rfl, hx, hf⟩

/-- How a call goes on after a part whose stop is caught. -/
def settled (handler : Stop → Call α) (ended : Except Stop α) :
    StateT (Option Token) (Dialogue CallQuestion CallQuestion.Answer) (Except Stop α) :=
  match ended with
  | .ok a => pure (.ok a)
  | .error stop => (handler stop).run

theorem run_tryCatch (x : Call α) (handler : Stop → Call α) (kept : Option Token) :
    (tryCatch x handler).run.run kept =
      x.run.run kept >>= fun ended => (settled handler ended.1).run ended.2 := by
  refine congrArg (x.run.run kept >>= ·) (funext fun ended => ?_)
  obtain ⟨ended, mid⟩ := ended
  cases ended <;> rfl

theorem goes_tryCatch {x : Call α} {handler : Stop → Call α} :
    (tryCatch x handler).Goes kept heard result left ↔
      (∃ a, x.Goes kept heard (.ok a) left ∧ result = .ok a) ∨
      ∃ first second stop mid, heard = first ++ second ∧ x.Goes kept first (.error stop) mid ∧
        (handler stop).Goes mid second result left := by
  unfold Goes
  rw [run_tryCatch, Dialogue.goes_bind]
  constructor
  · rintro ⟨first, second, ⟨ended, mid⟩, rfl, hx, hf⟩
    cases ended with
    | error stop => exact .inr ⟨first, second, stop, mid, rfl, hx, hf⟩
    | ok a =>
      obtain ⟨rfl, hend⟩ := hf
      rw [Prod.mk.injEq] at hend
      obtain ⟨rfl, rfl⟩ := hend
      exact .inl ⟨a, by rwa [List.append_nil], rfl⟩
  · rintro (⟨a, hx, rfl⟩ | ⟨first, second, stop, mid, rfl, hx, hf⟩)
    · exact ⟨heard, [], (.ok a, left), (List.append_nil _).symm, hx, rfl, rfl⟩
    · exact ⟨first, second, (.error stop, mid), rfl, hx, hf⟩

/-! ### Single steps -/

theorem goes_ask {q : CallQuestion} {result : Except Stop q.Answer} :
    (ask q).Goes kept heard result left ↔
      ∃ a, heard = [⟨q, a⟩] ∧ result = .ok a ∧ left = kept := by
  constructor
  · rintro ⟨a, rest, rfl, rfl, hend⟩
    rw [Prod.mk.injEq] at hend
    exact ⟨a, rfl, hend⟩
  · rintro ⟨a, rfl, rfl, rfl⟩
    exact ⟨a, [], rfl, rfl, rfl⟩

theorem goes_keptToken {result : Except Stop (Option Token)} :
    keptToken.Goes kept heard result left ↔ heard = [] ∧ result = .ok kept ∧ left = kept := by
  show heard = [] ∧ (result, left) = (Except.ok kept, kept) ↔ _
  rw [Prod.mk.injEq]

theorem goes_keepToken {t : Option Token} {result : Except Stop Unit} :
    (keepToken t).Goes kept heard result left ↔ heard = [] ∧ result = .ok () ∧ left = t := by
  show heard = [] ∧ (result, left) = (Except.ok (), t) ↔ _
  rw [Prod.mk.injEq]

theorem goes_reach {i : Option Instant} {result : Except Stop Instant} :
    (reach i).Goes kept heard result left ↔
      heard = [] ∧ result = i.elim (.error .clockOverflow) .ok ∧ left = kept := by
  cases i with
  | none => exact goes_throw
  | some i => exact goes_pure

theorem goes_ask_bind {q : CallQuestion} {f : q.Answer → Call α} :
    (ask q >>= f).Goes kept heard result left ↔
      ∃ a rest, heard = [⟨q, a⟩] ++ rest ∧ (f a).Goes kept rest result left :=
  Iff.rfl

theorem goes_keptToken_bind {f : Option Token → Call α} :
    (keptToken >>= f).Goes kept heard result left ↔ (f kept).Goes kept heard result left :=
  Iff.rfl

theorem goes_keepToken_bind {t : Option Token} {f : Unit → Call α} :
    (keepToken t >>= f).Goes kept heard result left ↔ (f ()).Goes t heard result left :=
  Iff.rfl

theorem goes_reach_bind {i : Option Instant} {f : Instant → Call α}
    (h : (reach i >>= f).Goes kept heard result left) :
    result = .error .clockOverflow ∧ left = kept ∨
      ∃ t, i = some t ∧ (f t).Goes kept heard result left := by
  cases i with
  | none =>
    obtain ⟨-, rfl, rfl⟩ := goes_throw.mp h
    exact .inl ⟨rfl, rfl⟩
  | some t => exact .inr ⟨t, rfl, h⟩

/-- A call that begins with an exchange: nothing is sent when there is no way to send it, and
otherwise the request goes out once, with the method and the body it was given. -/
theorem goes_exchange_bind {method : Net.Method} {address : String}
    {headers : List (String × String)} {body : Net.Body} {f : Except String Net.Reply → Call α}
    (h : (exchange method address headers body >>= f).Goes kept heard result left) :
    (∃ text, (f (.error text)).Goes kept heard result left) ∨
      ∃ url answer rest,
        heard = [⟨.exchange ⟨method, url, headers, body⟩, answer⟩] ++ rest ∧
          match answer with
          | .noReply => ∃ text, (f (.error text)).Goes kept rest result left
          | .reply reply => (f (.ok reply)).Goes kept rest result left := by
  unfold exchange at h
  split at h
  · exact .inl ⟨_, h⟩
  · exact .inl ⟨_, h⟩
  · next url _ =>
    split at h
    · rw [bind_assoc] at h
      obtain ⟨answer, rest, rfl, hrest⟩ := goes_ask_bind.mp h
      refine .inr ⟨url, answer, rest, rfl, ?_⟩
      cases answer with
      | reply reply => exact hrest
      | noReply => exact ⟨_, hrest⟩
    · exact .inl ⟨_, h⟩

end Call

end CertIssuer.Authority
