import CertIssuer.ApiServer.Session
import CertIssuer.Proofs.Dialogue.Within

/-!
# Calls of the API server, one by one

Each operation of a session as the call that it makes and what it makes of the reply. A name that
is empty, or a path with a character that no path holds, is refused without a call.
-/

namespace CertIssuer.ApiServer

open Dialogue (done)

variable {α β : Type}

theorem run_bind (x : Session α) (f : α → Session β) :
    (x >>= f).run = x.run >>= fun
      | .ok a => (f a).run
      | .error e => done (.error e) := by
  rw [ExceptT.run_bind]
  congr 1
  funext r
  cases r <;> rfl

theorem run_map (f : α → β) (x : Session α) :
    (f <$> x).run = x.run >>= fun r => done (r.map f) := by
  refine congrArg (x.run >>= ·) (funext fun r => ?_)
  cases r <;> rfl

theorem run_tryCatch (x : Session α) (handler : ControllerError → Session α) :
    (tryCatch x handler).run = x.run >>= fun
      | .ok a => done (.ok a)
      | .error e => (handler e).run := by
  refine congrArg (x.run >>= ·) (funext fun r => ?_)
  cases r <;> rfl

/-- Whether a call about an object cannot be made. -/
def unaddressable (name path : String) : Bool := name.isEmpty || path.toList.any isForeign

theorem exists_of_decode {reply : Reply} {read : Json → Option α} {a : α}
    (h : reply.decode read = .ok a) : ∃ value, read value = some a := by
  unfold Reply.decode at h
  cases hread : reply.read with
  | error e =>
    rw [hread] at h
    cases h
  | ok body =>
    rw [hread] at h
    dsimp only [bind, Except.bind] at h
    cases hbody : (Json.parse? body).bind read with
    | none =>
      rw [hbody] at h
      cases h
    | some b =>
      rw [hbody] at h
      cases h
      obtain ⟨value, -, hvalue⟩ := Option.bind_eq_some_iff.mp hbody
      exact ⟨value, hvalue⟩

/-- What a reply, or the lack of one, is read as. -/
def heard (read : Json → Option α) : Option Reply → Except ControllerError α
  | some reply => reply.decode read
  | none => .error .client

theorem exchange_run (name : String) (c : Call) (read : Json → Option α) :
    (exchange name c read).run =
      if unaddressable name c.path then done (.error .client)
      else .ask (.call c) fun reply => done (heard read reply) := by
  unfold exchange unaddressable
  split
  · rfl
  · change Dialogue.ask (Question.call c) _ = Dialogue.ask (Question.call c) _
    congr 1
    funext reply
    cases reply <;> rfl

/-- What a read makes of a reply: an object that is missing is none. -/
def found (read : Json → Option α) (reply : Option Reply) : Except ControllerError (Option α) :=
  match heard read reply with
  | .ok a => .ok (some a)
  | .error e => if isMissing e then .ok none else .error e

theorem found_of_decode {read : Json → Option α} {r : Reply} {a : α} (h : r.decode read = .ok a) :
    found read (some r) = .ok (some a) := by
  have hheard : heard read (some r) = .ok a := h
  unfold found
  rw [hheard]

theorem found_of_missing {read : Json → Option α} {r : Reply} {e : ControllerError}
    (h : r.decode read = .error e) (hmissing : isMissing e = true) :
    found read (some r) = .ok none := by
  have hheard : heard read (some r) = .error e := h
  unfold found
  rw [hheard]
  exact if_pos hmissing

theorem found_eq_ok {read : Json → Option α} {reply : Option Reply} {o : Option α}
    (h : found read reply = .ok o) :
    ∃ r, reply = some r ∧ ((∃ a, r.decode read = .ok a ∧ o = some a) ∨
      ∃ e, r.decode read = .error e ∧ isMissing e = true ∧ o = none) := by
  unfold found at h
  cases reply with
  | none => cases h
  | some r =>
    refine ⟨r, rfl, ?_⟩
    have hheard : heard read (some r) = r.decode read := rfl
    rw [hheard] at h
    cases hdecode : r.decode read with
    | ok a =>
      rw [hdecode] at h
      cases h
      exact .inl ⟨a, rfl, rfl⟩
    | error e =>
      simp only [hdecode] at h
      by_cases hmissing : isMissing e = true
      · rw [if_pos hmissing] at h
        cases h
        exact .inr ⟨e, rfl, hmissing, rfl⟩
      · rw [if_neg hmissing] at h
        cases h

theorem get?_run (collection name : String) (read : Json → Option α) :
    (get? collection name read).run =
      if unaddressable name (collection ++ "/" ++ name) then done (.error .client)
      else .ask (.call ⟨.get, collection ++ "/" ++ name, none, none⟩) fun reply =>
        done (found read reply) := by
  unfold get?
  rw [run_tryCatch, run_map, exchange_run]
  split
  · rfl
  · simp only [Dialogue.ask_bind, Dialogue.done_bind]
    congr 1
    funext reply
    unfold found
    cases heard read reply with
    | ok a => rfl
    | error e =>
      simp only [Except.map]
      split <;> rfl

/-! ### Failures -/

/-- A failure that the server tells, or one of asking it. -/
inductive FromServer : ControllerError → Prop
  | api {code : Nat} {reason text : String} : FromServer (.api code reason text)
  | client : FromServer .client

theorem fromServer_of_failure? {body : String} {e : ControllerError} (h : failure? body = some e) :
    FromServer e := by
  simp only [failure?, Option.bind_eq_bind, Option.bind_eq_some_iff, Option.pure_def,
    Option.some.injEq] at h
  obtain ⟨_, -, _, -, _, -, _, -, _, -, _, -, rfl⟩ := h
  exact .api

theorem fromServer_of_read {reply : Reply} {e : ControllerError} (h : reply.read = .error e) :
    FromServer e := by
  unfold Reply.read at h
  split at h
  · obtain rfl := Except.error.inj h
    cases hfailure : failure? reply.body with
    | none => exact .api
    | some told => exact fromServer_of_failure? hfailure
  · cases h

section Failures

variable {read : Json → Option α} {reply : Option Reply} {e : ControllerError}

theorem fromServer_of_decode {reply : Reply} (h : reply.decode read = .error e) : FromServer e := by
  unfold Reply.decode at h
  cases hread : reply.read with
  | error told =>
    rw [hread] at h
    cases h
    exact fromServer_of_read hread
  | ok body =>
    rw [hread] at h
    dsimp only [bind, Except.bind] at h
    split at h
    · cases h
    · cases h
      exact .client

theorem fromServer_of_heard (h : heard read reply = .error e) : FromServer e := by
  cases reply with
  | none =>
    cases h
    exact .client
  | some reply => exact fromServer_of_decode h

end Failures

end CertIssuer.ApiServer
