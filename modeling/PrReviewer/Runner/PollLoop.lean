import PrReviewer.Runner.CompleteJob

/-!
# What ends the poll loop

The loop should stop only for the stop event or the revocation gate.  An exception
that leaves `process_once` ends it as well: the methods between the client and the
loop handle the transport error of a claim, and the denial of an acknowledgement,
but not every exception of the client and none of the store.
-/

namespace PrReviewer
namespace Runner

open Lib

section Definitions

variable {codec : Codec} {ω : Type} (config : DaemonConfig) (surroundings : Surroundings ω)

/--
The answers and states at which the loop dies: a claim whose response the client
cannot decode; an acknowledgement of `complete_job` that is neither accepted nor
denied; one of the stored-result path that is neither, and was answered; a method
of the store on another thread, or an integer beyond what SQLite can bind.
-/
def endsLoop (w : RunnerState codec ω) : DaemonOp → Bool
  | .claim _ =>
      match received (decodeClaim codec) (w.post surroundings (.claim w.credential)).1 with
      | .ok _ => false
      | .error e => e ≠ .transportError
  | .acknowledge .complete jobId leaseToken result =>
      match acknowledgeOutcome surroundings w jobId leaseToken result with
      | .ok _ => false
      | .error e => e ≠ .jobProtocolDenied
  | .acknowledge _ jobId leaseToken result =>
      match acknowledgeOutcome surroundings w jobId leaseToken result with
      | .ok _ => false
      | .error e => !retryable e
  | .store (.recordClaimed job) => !(w.onStoreThread && fitsLocalJobs job)
  | .store _ => !w.onStoreThread
  | _ => false

end Definitions

section Methods

variable {codec : Codec} {ω : Type} {config : DaemonConfig} {surroundings : Surroundings ω}

variable (surroundings) in
theorem answer_store_isOk
    (op : StoreOp) (w : RunnerState codec ω) :
    (answer surroundings (.store op) w).1.isOk = !endsLoop surroundings w (.store op) := by
  cases hthread : w.onStoreThread with
  | false =>
      simp only [answer, hthread]
      cases op with
      | recordClaimed job => simp [endsLoop, hthread, Except.isOk, Except.toBool]
      | _ => simp [endsLoop, hthread, Except.isOk, Except.toBool]
  | true =>
      simp only [answer, hthread, if_true]
      cases op with
      | recordClaimed job =>
          cases hfits : fitsLocalJobs job with
          | true => simp [endsLoop, applyStore, hthread, hfits, Except.isOk, Except.toBool]
          | false => simp [endsLoop, applyStore, hthread, hfits, Except.isOk, Except.toBool]
      | _ => simp [endsLoop, applyStore, hthread, Except.isOk, Except.toBool]

theorem raisesAt_ask
    {op : DaemonOp} {w : RunnerState codec ω}
    (hop : endsLoop surroundings w op = false) :
    Program.RaisesAt (answer surroundings) (endsLoop surroundings) (ask op) w := by
  refine Program.raisesAt_call ?_ ?_
  · intro hfatal
    rw [hop] at hfatal
    cases hfatal
  · intro _
    exact Program.raisesAt_ret _ _

theorem raisesAt_askStore
    (op : StoreOp) (w : RunnerState codec ω) :
    Program.RaisesAt (answer surroundings) (endsLoop surroundings) (askStore op) w := by
  have hok := answer_store_isOk surroundings op w
  refine Program.raisesAt_call ?_ ?_
  · intro hfatal
    rw [hfatal] at hok
    cases hresult : (answer surroundings (.store op) w).1 with
    | ok result =>
        rw [hresult] at hok
        cases hok
    | error e => rfl
  · intro hfatal
    rw [hfatal] at hok
    cases hresult : (answer surroundings (.store op) w).1 with
    | ok result => exact Program.raisesAt_ret _ _
    | error e =>
        rw [hresult] at hok
        cases hok

/-- A claim ends the loop exactly when its response cannot be decoded. -/
theorem raisesAt_claim
    (site : CallSite) (w : RunnerState codec ω) :
    Program.RaisesAt (answer surroundings) (endsLoop surroundings)
      (exceptTransport (clientClaim codec site)) w := by
  simp only [exceptTransport, clientClaim, ask, Program.bind_eq, Program.perform,
    Program.bind, Program.catching]
  refine Program.raisesAt_call ?_ ?_
  · intro hfatal
    simp only [endsLoop] at hfatal
    simp only [answer]
    split at hfatal
    · cases hfatal
    · next e he =>
        rw [he]
        have hne : e ≠ .transportError := by simpa using hfatal
        simp only [Program.ofExcept, Program.bind, Program.catching]
        rw [if_neg hne]
        rfl
  · intro hfatal
    simp only [endsLoop] at hfatal
    simp only [answer]
    split at hfatal
    · next claimed he =>
        rw [he]
        exact Program.raisesAt_ret _ _
    · next e he =>
        rw [he]
        have heq : e = .transportError := by simpa using hfatal
        simp only [Program.ofExcept, Program.bind, Program.catching]
        rw [if_pos heq]
        exact Program.raisesAt_ret _ _

/-- An acknowledgement of the stored-result path ends the loop unless it can be retried. -/
theorem raisesAt_landing_acknowledge
    (landed jobId : Uuid) (leaseToken : String) (result : JobAcknowledgement)
    (w : RunnerState codec ω) :
    Program.RaisesAt (answer surroundings) (endsLoop surroundings)
      (exceptRetryable (clientAcknowledge (.land landed) jobId leaseToken result)) w := by
  simp only [exceptRetryable, clientAcknowledge, ask, Program.bind_eq, Program.perform,
    Program.bind, Program.catching]
  refine Program.raisesAt_call ?_ ?_
  · intro hfatal
    simp only [endsLoop, acknowledgeOutcome] at hfatal
    simp only [answer]
    split at hfatal
    · cases hfatal
    · next e he =>
        rw [he]
        have hne : ¬ retryable e = true := by simpa using hfatal
        simp only [Program.ofExcept, Program.bind, Program.catching]
        rw [if_neg hne]
        rfl
  · intro hfatal
    simp only [endsLoop, acknowledgeOutcome] at hfatal
    simp only [answer]
    split at hfatal
    · next he =>
        rw [he]
        exact Program.raisesAt_ret _ _
    · next e he =>
        rw [he]
        have heq : retryable e = true := by simpa using hfatal
        simp only [Program.ofExcept, Program.bind, Program.catching]
        rw [if_pos heq]
        exact Program.raisesAt_ret _ _

theorem raisesAt_refreshCredential
    (w : RunnerState codec ω) :
    Program.RaisesAt (answer surroundings) (endsLoop surroundings)
      (refreshCredential config) w := by
  unfold refreshCredential
  split
  · refine Program.raisesAt_bind (raisesAt_ask rfl) ?_
    intro credential w'
    cases credential with
    | none => exact Program.raisesAt_ret _ _
    | some credential => exact raisesAt_ask rfl
  · exact Program.raisesAt_ret _ _

theorem raisesAt_noteIfRevoked
    (reason : RunnerAuthDenialReason) (w : RunnerState codec ω) :
    Program.RaisesAt (answer surroundings) (endsLoop surroundings)
      (noteIfRevoked reason) w := by
  unfold noteIfRevoked
  split
  · exact raisesAt_ask rfl
  · exact Program.raisesAt_ret _ _

theorem raisesAt_markPendingTerminal
    (jobId : Uuid) (w : RunnerState codec ω) :
    Program.RaisesAt (answer surroundings) (endsLoop surroundings)
      (markPendingTerminal jobId) w := by
  refine Program.raisesAt_bind (raisesAt_askStore _ w) ?_
  intro _ w'
  refine Program.raisesAt_bind (raisesAt_askStore _ w') ?_
  intro entries w''
  refine Program.raisesAt_forEach ?_ w''
  intro entry _ w₃
  by_cases hentry : entry.jobId = jobId
  · rw [if_pos hentry]
    exact raisesAt_askStore _ w₃
  · rw [if_neg hentry]
    exact Program.raisesAt_ret _ _

theorem raisesAt_landPendingResult
    (jobId : Uuid) (result : JobAcknowledgement) (w : RunnerState codec ω) :
    Program.RaisesAt (answer surroundings) (endsLoop surroundings)
      (landPendingResult codec config jobId result) w := by
  refine Program.raisesAt_bind (raisesAt_refreshCredential w) ?_
  intro _ w₁
  refine Program.raisesAt_bind (raisesAt_claim _ w₁) ?_
  intro claimed w₂
  cases claimed with
  | none => exact Program.raisesAt_ret _ _
  | some claimed =>
      cases claimed with
      | noJob => exact raisesAt_markPendingTerminal jobId w₂
      | denied reason =>
          exact Program.raisesAt_bind (raisesAt_noteIfRevoked reason w₂)
            (fun _ w₃ => raisesAt_markPendingTerminal jobId w₃)
      | envelope job =>
          simp only
          split
          · refine Program.raisesAt_bind (raisesAt_landing_acknowledge _ _ _ _ w₂) ?_
            intro landed w₃
            cases landed with
            | true => exact raisesAt_markPendingTerminal jobId w₃
            | false => exact Program.raisesAt_ret _ _
          · exact Program.raisesAt_bind (raisesAt_askStore _ w₂)
              (fun _ w₃ => raisesAt_markPendingTerminal jobId w₃)

theorem raisesAt_completeJob
    (jobId : Uuid) (leaseToken : String) (result : JobAcknowledgement)
    (w : RunnerState codec ω) :
    Program.RaisesAt (answer surroundings) (endsLoop surroundings)
      (completeJob codec config jobId leaseToken result) w := by
  have hclauses :
      (∀ e, acknowledgeOutcome surroundings w jobId leaseToken result = .error e →
          e ≠ .jobProtocolDenied →
          (Program.run (answer surroundings)
            (completeClauses codec config jobId leaseToken result (some e))
            (afterAcknowledge surroundings w jobId leaseToken result)).1.isOk = false) := by
    intro e _ hne
    cases e with
    | jobProtocolDenied => exact absurd rfl hne
    | transportError =>
        simp only [completeClauses, Program.bind_eq]
        rw [Program.run_bind]
        split
        · rfl
        · rfl
    | _ => rfl
  unfold Program.RaisesAt
  rw [run_completeJob, steps_completeJob, List.all_cons]
  simp only [endsLoop]
  cases houtcome : acknowledgeOutcome surroundings w jobId leaseToken result with
  | ok _ =>
      exact raisesAt_askStore (.markCompleted jobId)
        (afterAcknowledge surroundings w jobId leaseToken result)
  | error e =>
      by_cases hdenied : e = .jobProtocolDenied
      · subst hdenied
        exact Program.raisesAt_bind (raisesAt_askStore _ _)
          (fun _ w' => raisesAt_landPendingResult jobId result w')
      · rw [failureOf, hclauses e houtcome hdenied]
        simp [hdenied]

end Methods

end Runner
end PrReviewer
