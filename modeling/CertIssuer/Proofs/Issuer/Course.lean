import CertIssuer.Proofs.Conditions
import CertIssuer.Proofs.Secrets.Lookup
import CertIssuer.Proofs.Secrets.Resolution
import Mathlib.Data.List.Basic

/-!
# The course of a pass over an issuer

How an evaluation may go, by its verdict, and how a pass may go around it. A verdict says that the
issuer is ready exactly when the secrets resolved, a checker was built from them and its check
succeeded in time (`Evaluated.isTrue_iff`).
-/

namespace CertIssuer.Reconcile

open Pass

variable {settings : Settings} {issuer : Issuer} {now : Timestamp} {heard : List Hearing}

/-- A check from a spec and secrets has succeeded in time. -/
abbrev passedCheck (spec : IssuerSpec) (secrets : IssuerSecrets) : Hearing :=
  ⟨.check spec secrets, some (.ok ())⟩

structure Verified (settings : Settings) (issuer : Issuer) (heard : List Hearing)
    (secrets : IssuerSecrets) : Prop where
  resolved : Resolved settings issuer heard secrets
  built : (⟨.buildChecker issuer.spec secrets, .ok ()⟩ : Hearing) ∈ heard
  checked : passedCheck issuer.spec secrets ∈ heard

theorem Verified.mono {heard' : List Hearing} {secrets : IssuerSecrets}
    (h : Verified settings issuer heard secrets) (hsub : heard ⊆ heard') :
    Verified settings issuer heard' secrets :=
  ⟨h.resolved.mono hsub, hsub h.built, hsub h.checked⟩

/-! ### Evaluations -/

inductive Evaluated (settings : Settings) (issuer : Issuer) (now : Timestamp) :
    List Hearing → Verdict → Prop
  | badSecrets {loading : List Hearing} {e : IssuerConfigError} :
    (loadSecrets settings issuer).Goes loading (.ok (.error e)) →
      Evaluated settings issuer now loading (.badSecrets settings e)
  | badConfig {loading : List Hearing} {secrets : IssuerSecrets} {text : String} :
    (loadSecrets settings issuer).Goes loading (.ok (.ok secrets)) →
      Evaluated settings issuer now
        (loading ++ [⟨.buildChecker issuer.spec secrets, .error (.config text)⟩]) (.badConfig text)
  | notBuilt {loading : List Hearing} {secrets : IssuerSecrets} {e : SignerError} :
    (loadSecrets settings issuer).Goes loading (.ok (.ok secrets)) → (∀ text, e ≠ .config text) →
      Evaluated settings issuer now
        (loading ++ [⟨.buildChecker issuer.spec secrets, .error e⟩])
        (.checkFailed settings issuer now e.message)
  | verified {loading : List Hearing} {secrets : IssuerSecrets} :
    (loadSecrets settings issuer).Goes loading (.ok (.ok secrets)) →
      Evaluated settings issuer now
        (loading ++ [⟨.buildChecker issuer.spec secrets, .ok ()⟩, passedCheck issuer.spec secrets])
        (.verified settings)
  | failed {loading : List Hearing} {secrets : IssuerSecrets} {e : SignerError} :
    (loadSecrets settings issuer).Goes loading (.ok (.ok secrets)) →
      Evaluated settings issuer now
        (loading ++ [⟨.buildChecker issuer.spec secrets, .ok ()⟩,
          ⟨.check issuer.spec secrets, some (.error e)⟩])
        (.checkFailed settings issuer now ("health check failed: " ++ e.message))
  | timedOut {loading : List Hearing} {secrets : IssuerSecrets} :
    (loadSecrets settings issuer).Goes loading (.ok (.ok secrets)) →
      Evaluated settings issuer now
        (loading ++ [⟨.buildChecker issuer.spec secrets, .ok ()⟩,
          ⟨.check issuer.spec secrets, none⟩])
        (.checkFailed settings issuer now
          ("health check timed out after " ++ settings.authorityTimeout.text))

theorem evaluated_of_goes {v : Verdict} (h : (evaluate settings issuer now).Goes heard (.ok v)) :
    Evaluated settings issuer now heard v := by
  obtain ⟨loading, rest, loaded, rfl, hloading, hrest⟩ := goes_bind_ok.mp h
  cases loaded with
  | error e =>
    obtain ⟨rfl, hv⟩ := goes_pure.mp hrest
    cases hv
    rw [List.append_nil]
    exact .badSecrets hloading
  | ok secrets =>
    obtain ⟨built, rest, rfl, hbuilt⟩ := goes_ask_bind.mp hrest
    match built with
    | .error (.config text) =>
      obtain ⟨rfl, hv⟩ := goes_pure.mp hbuilt
      cases hv
      exact .badConfig hloading
    | .error (.transient text) | .error (.permanent text) =>
      obtain ⟨rfl, hv⟩ := goes_pure.mp hbuilt
      cases hv
      exact .notBuilt hloading nofun
    | .ok () =>
      obtain ⟨checked, rest, rfl, hchecked⟩ := goes_ask_bind.mp hbuilt
      match checked with
      | some (.ok ()) =>
        obtain ⟨rfl, hv⟩ := goes_pure.mp hchecked
        cases hv
        exact .verified hloading
      | some (.error e) =>
        obtain ⟨rfl, hv⟩ := goes_pure.mp hchecked
        cases hv
        exact .failed hloading
      | none =>
        obtain ⟨rfl, hv⟩ := goes_pure.mp hchecked
        cases hv
        exact .timedOut hloading

theorem not_passed_of_loading {loading : List Hearing}
    {r : Except ControllerError (Except IssuerConfigError IssuerSecrets)}
    (h : (loadSecrets settings issuer).Goes loading r) (spec : IssuerSpec)
    (secrets : IssuerSecrets) : passedCheck spec secrets ∉ loading := by
  intro hpassed
  obtain ⟨k, hk⟩ := secret_of_loadSecrets h hpassed
  cases hk

/-- What else the pass has heard does not matter, as long as no check is among it. -/
theorem Evaluated.isTrue_iff {v : Verdict} {heard' : List Hearing}
    (h : Evaluated settings issuer now heard v) (hsub : heard ⊆ heard')
    (hchecks : ∀ spec secrets, passedCheck spec secrets ∈ heard' →
      passedCheck spec secrets ∈ heard) :
    v.status = .isTrue ↔ ∃ secrets, Verified settings issuer heard' secrets := by
  have hnone : (∀ spec secrets, passedCheck spec secrets ∉ heard) →
      ¬ ∃ secrets, Verified settings issuer heard' secrets := by
    rintro hheard ⟨secrets, hverified⟩
    exact hheard _ _ (hchecks _ _ hverified.checked)
  cases h with
  | verified hloading =>
    have hresolved := (resolved_of_loadSecrets hloading).mono
      (List.Subset.trans (List.subset_append_left _ _) hsub)
    refine iff_of_true rfl ⟨_, hresolved, hsub ?_, hsub ?_⟩
    · simp
    · simp
  | badSecrets hloading =>
    exact iff_of_false nofun (hnone fun spec secrets => not_passed_of_loading hloading spec secrets)
  | badConfig hloading | notBuilt hloading _ | failed hloading | timedOut hloading =>
    refine iff_of_false nofun (hnone fun spec secrets => ?_)
    intro hpassed
    rcases List.mem_append.mp hpassed with hpassed | hpassed
    · exact not_passed_of_loading hloading spec secrets hpassed
    · revert hpassed
      nofun

/-- An evaluation looks secrets up and checks, and does nothing else. -/
theorem probe_of_evaluate {r : Except ControllerError Verdict}
    (h : (evaluate settings issuer now).Goes heard r) {e : Hearing} (he : e ∈ heard) :
    (∃ k, e.question = .secret k) ∨ e.question.IsCheck := by
  have hwithin : Within (fun q => (∃ k, q = .secret k) ∨ q.IsCheck) (fun _ => True)
      (evaluate settings issuer now) := by
    refine (loadSecrets_asks fun _ _ _ _ => .inl ⟨_, rfl⟩).bind fun loaded _ => ?_
    cases loaded with
    | error e => exact within_pure trivial
    | ok secrets => exact (checkIssuer_within settings issuer secrets now).widen fun _ => .inr
  exact hwithin.goes h e he

/-! ### Passes -/

/-- How a pass over the issuer of a key may go. -/
inductive IssuerCourse (settings : Settings) (key : IssuerKey) :
    List Hearing → Except ControllerError Requeue → Prop
  | unread {e : ControllerError} :
    IssuerCourse settings key [⟨.issuer key, .error e⟩] (.error e)
  | missing : IssuerCourse settings key [⟨.issuer key, .ok none⟩] (.ok .awaitChange)
  | broken {issuer : Issuer} {now : Timestamp} {heard : List Hearing} {e : ControllerError} :
    (evaluate settings issuer now).Goes heard (.error e) →
      IssuerCourse settings key (⟨.issuer key, .ok (some issuer)⟩ :: ⟨.now, now⟩ :: heard)
        (.error e)
  | unchanged {issuer : Issuer} {now : Timestamp} {heard : List Hearing} {v : Verdict} :
    (evaluate settings issuer now).Goes heard (.ok v) → (v.publish issuer now).1 = false →
      IssuerCourse settings key (⟨.issuer key, .ok (some issuer)⟩ :: ⟨.now, now⟩ :: heard)
        (.ok v.requeue)
  | written {issuer : Issuer} {now : Timestamp} {heard : List Hearing} {v : Verdict}
    {answer : Except ControllerError Unit} :
    (evaluate settings issuer now).Goes heard (.ok v) → (v.publish issuer now).1 = true →
      IssuerCourse settings key
        (⟨.issuer key, .ok (some issuer)⟩ :: ⟨.now, now⟩ :: (heard ++
          [⟨.writeIssuer issuer { issuer.status with conditions := (v.publish issuer now).2 },
            answer⟩]))
        (answer.map fun _ => v.requeue)

theorem issuerCourse_of_goes {key : IssuerKey} {r : Except ControllerError Requeue}
    (h : (issuerPass settings key).Goes heard r) : IssuerCourse settings key heard r := by
  rcases goes_bind.mp h with ⟨e, hread, rfl⟩ | ⟨first, rest, found, rfl, hread, hrest⟩
  · rw [goes_getIssuer.mp hread]
    exact .unread
  rw [goes_getIssuer.mp hread]
  cases found with
  | none =>
    obtain ⟨rfl, rfl⟩ := goes_pure.mp hrest
    exact .missing
  | some issuer =>
    obtain ⟨now, rest, rfl, hbegun⟩ := goes_now_bind.mp hrest
    rcases goes_bind.mp hbegun with ⟨e, hverdict, rfl⟩ | ⟨heard, rest, v, rfl, hverdict, hjudged⟩
    · exact .broken hverdict
    dsimp only at hjudged
    split at hjudged
    · next hchanged =>
      rcases goes_bind.mp hjudged with ⟨e, hwrite, rfl⟩ | ⟨first, rest, u, rfl, hwrite, hend⟩
      · rw [goes_writeIssuer.mp hwrite]
        exact .written hverdict hchanged
      · obtain ⟨rfl, rfl⟩ := goes_pure.mp hend
        rw [goes_writeIssuer.mp hwrite, List.append_nil]
        exact .written hverdict hchanged
    · next hchanged =>
      obtain ⟨rfl, rfl⟩ := goes_pure.mp hjudged
      rw [List.append_nil]
      exact .unchanged hverdict (by simpa using hchanged)

section Write

variable {key : IssuerKey} {written : Issuer} {status : IssuerStatus}
  {answer : Except ControllerError Unit}

theorem unwritten_of_evaluate {r : Except ControllerError Verdict}
    (h : (evaluate settings issuer now).Goes heard r) :
    (⟨.writeIssuer written status, answer⟩ : Hearing) ∉
      (⟨.issuer key, .ok (some issuer)⟩ :: ⟨.now, now⟩ :: heard : List Hearing) := by
  intro hmem
  rcases List.mem_cons.mp hmem with heq | hmem
  · cases heq
  rcases List.mem_cons.mp hmem with heq | hmem
  · cases heq
  rcases probe_of_evaluate h hmem with ⟨k, hk⟩ | hcheck
  · cases hk
  · exact hcheck

theorem read_of_evaluate {read : Issuer} {r : Except ControllerError Verdict}
    (h : (evaluate settings issuer now).Goes heard r)
    (hread : (⟨.issuer key, .ok (some read)⟩ : Hearing) ∈
      (⟨.issuer key, .ok (some issuer)⟩ :: ⟨.now, now⟩ :: heard : List Hearing)) :
    read = issuer := by
  rcases List.mem_cons.mp hread with heq | hread
  · injection heq with _ hanswer
    exact Option.some.inj (Except.ok.inj hanswer)
  rcases List.mem_cons.mp hread with heq | hread
  · cases heq
  rcases probe_of_evaluate h hread with ⟨k, hk⟩ | hcheck
  · cases hk
  · exact hcheck.elim

/-- A pass writes at its very end, and writes the verdict on the issuer that it has read. -/
theorem IssuerCourse.at_write {before after : List Hearing} {r : Except ControllerError Requeue}
    (h : IssuerCourse settings key (before ++ ⟨.writeIssuer written status, answer⟩ :: after) r) :
    ∃ now evaluation v, (evaluate settings written now).Goes evaluation (.ok v) ∧
      before = ⟨.issuer key, .ok (some written)⟩ :: ⟨.now, now⟩ :: evaluation ∧
      status = { written.status with conditions := (v.publish written now).2 } := by
  have hmem : (⟨.writeIssuer written status, answer⟩ : Hearing) ∈
      before ++ ⟨.writeIssuer written status, answer⟩ :: after := by simp
  generalize hheard : before ++ ⟨.writeIssuer written status, answer⟩ :: after = heard at h hmem
  cases h with
  | unread | missing =>
    cases List.mem_singleton.mp hmem
  | broken hverdict => exact absurd hmem (unwritten_of_evaluate hverdict)
  | unchanged hverdict _ => exact absurd hmem (unwritten_of_evaluate hverdict)
  | @written issuer now evaluation v _ hverdict _ =>
    have hnot : (⟨.writeIssuer written status, answer⟩ : Hearing) ∉
        (⟨.issuer key, .ok (some issuer)⟩ :: ⟨.now, now⟩ :: evaluation : List Hearing) :=
      unwritten_of_evaluate hverdict
    obtain ⟨hbefore, hlast, -⟩ :=
      (List.append_cons_inj_of_notMem hnot List.not_mem_nil).mp hheard.symm
    cases hlast
    exact ⟨now, evaluation, v, hverdict, hbefore.symm, rfl⟩

end Write

end CertIssuer.Reconcile
