import PrReviewer.Hosted.Statements
import PrReviewer.Lib.Run

/-!
# The hosted job machine

Every hosted operation as an action of one machine: each action is one
transaction, and a transaction that raises leaves the state as it was.  Time is
an action too, so a run is any interleaving of webhooks, runners, workers,
pushes and the clock.

`RowChange` is the inversion of the step function for one job id: it lists
everything a step can do to the row stored under that id, with the guard under
which the source does it.  The invariants of the queue are proved from it, by one
case per statement of the source.
-/

namespace PrReviewer
namespace Hosted

open Lib

/-- One transaction of the control plane, or the passage of time. -/
inductive HostedAction where
  | registerInstallation (installationId : Int) (accountLogin : String)
  | revokeInstallation (installationId : Int)
  | registerRepository
      (drawnId : Uuid) (installationId githubRepositoryId : Int) (name : String)
  | registerRunner
      (drawnId : Uuid) (deviceName credential : String) (capabilities : RunnerCapabilities)
      (githubUserId installationId : Option Int)
  | assignRepositoryToRunner (repositoryId runnerId : Uuid)
  | revokeRunner (runnerId : Uuid)
  | rotateRunnerCredential (runnerId : Uuid) (currentCredential newCredential : String)
  | enqueueReviewJob
      (deliveryId eventName : String) (identity : Option PullRequestIdentity)
      (jobId traceId : Uuid)
  | cancelReviewJob (deliveryId eventName : String) (k : PullRequestKey)
  | claimJob (runner : AuthenticatedRunner) (leaseToken : String) (tie : Uuid)
  | claimReviewJob (workerId : String) (tie : Uuid)
  | renewReviewJobLease (jobId : Uuid) (workerId : String)
  | heartbeatJob (runnerId jobId : Uuid) (leaseToken : String)
  | acknowledgeJob
      (runnerId jobId : Uuid) (leaseToken : String) (ack : JobAcknowledgement)
  | completeReviewJob (jobId : Uuid) (workerId : String)
  | failReviewJob (jobId : Uuid) (workerId : String) (error : ReviewJobErrorClass)
  | requeueReviewJob (jobId : Uuid)
  | savePushedReviewSummary (body : PushedReviewSummaryBody)
  | pushReviewSummary (bearer : Option String) (body : PushedReviewSummaryBody)
  | advanceClock (elapsed : Nat)
deriving DecidableEq, Repr

/-- The state after a transaction: the old one when it raised. -/
def HostedState.commit {ε : Type}
    (s : HostedState)
    (outcome : Except ε HostedState) :
    HostedState :=
  match outcome with
  | .ok s' => s'
  | .error _ => s

section Machine

variable (hashRunnerCredential : String → String)

/-- One step of the machine. -/
def step (s : HostedState) : HostedAction → HostedState
  | .registerInstallation installationId accountLogin =>
      registerInstallation s installationId accountLogin
  | .revokeInstallation installationId => revokeInstallation s installationId
  | .registerRepository drawnId installationId githubRepositoryId name =>
      s.commit
        ((registerRepository s drawnId installationId githubRepositoryId name).map Prod.snd)
  | .registerRunner drawnId deviceName credential capabilities githubUserId installationId =>
      s.commit
        ((registerRunner hashRunnerCredential s drawnId deviceName credential capabilities
            githubUserId installationId).map Prod.snd)
  | .assignRepositoryToRunner repositoryId runnerId =>
      s.commit ((assignRepositoryToRunner s repositoryId runnerId).map Prod.snd)
  | .revokeRunner runnerId => revokeRunner s runnerId
  | .rotateRunnerCredential runnerId currentCredential newCredential =>
      s.commit
        (rotateRunnerCredential hashRunnerCredential s runnerId currentCredential
          newCredential)
  | .enqueueReviewJob deliveryId eventName identity jobId traceId =>
      s.commit
        ((enqueueReviewJob s deliveryId eventName identity jobId traceId).map Prod.snd)
  | .cancelReviewJob deliveryId eventName k =>
      (cancelReviewJob s deliveryId eventName k).2
  | .claimJob runner leaseToken tie =>
      s.commit ((claimJob hashRunnerCredential s runner leaseToken tie).map Prod.snd)
  | .claimReviewJob workerId tie => (claimReviewJob s workerId tie).2
  | .renewReviewJobLease jobId workerId =>
      s.commit (renewReviewJobLease s jobId workerId)
  | .heartbeatJob runnerId jobId leaseToken =>
      (heartbeatJob hashRunnerCredential s runnerId jobId leaseToken).2
  | .acknowledgeJob runnerId jobId leaseToken ack =>
      s.commit
        ((acknowledgeJob hashRunnerCredential s runnerId jobId leaseToken ack).map Prod.snd)
  | .completeReviewJob jobId workerId => s.commit (completeReviewJob s jobId workerId)
  | .failReviewJob jobId workerId error => s.commit (failReviewJob s jobId workerId error)
  | .requeueReviewJob jobId => s.commit (requeueReviewJob s jobId)
  | .savePushedReviewSummary body => s.commit (savePushedReviewSummary s body)
  | .pushReviewSummary bearer body =>
      s.commit (pushReviewSummaryRoute hashRunnerCredential s bearer body)
  | .advanceClock elapsed => { s with now := s.now + elapsed }

end Machine

/--
The body an action writes: the runner is authenticated and authorized for the
pair in the body, when it comes through the route, and the schema takes it.
-/
def HostedAction.writesSummary
    (hashRunnerCredential : String → String)
    (s : HostedState) :
    HostedAction → Option PushedReviewSummaryBody
  | .savePushedReviewSummary body => if body.writable s then some body else none
  | .pushReviewSummary bearer body =>
      match authenticateBearer hashRunnerCredential s bearer with
      | .error _ => none
      | .ok runner =>
          match
              authorizeRepository s body.installationId body.githubRepositoryId
                runner.runnerId with
          | .error _ => none
          | .ok _ => if body.writable s then some body else none
  | _ => none

/-- What one step can do to the row stored under the job id `j`. -/
inductive RowChange
    (hashRunnerCredential : String → String)
    (s : HostedState)
    (j : Uuid) :
    HostedAction → Option ReviewJobRow → Option ReviewJobRow → Prop
  | unchanged
      {a : HostedAction} {row? : Option ReviewJobRow} :
      RowChange hashRunnerCredential s j a row? row?
  | enqueuedBare
      {deliveryId : String} {identity : Option PullRequestIdentity} {traceId : Uuid} :
      RowChange hashRunnerCredential s j
        (.enqueueReviewJob deliveryId "pull_request" identity j traceId)
        none (some (.fresh j (some deliveryId) .pending s.now))
  | enqueued
      {deliveryId : String} {identity : PullRequestIdentity} {traceId : Uuid}
      (hinstalled : s.installations.find? identity.installationId ≠ none) :
      RowChange hashRunnerCredential s j
        (.enqueueReviewJob deliveryId "pull_request" (some identity) j traceId)
        none (some (enqueuedRow j traceId deliveryId identity s.now))
  | superseded
      {deliveryId eventName : String} {identity : PullRequestIdentity}
      {jobId traceId : Uuid} {row : ReviewJobRow}
      (hpr : row.ofPullRequest identity.key = true)
      (hactive : row.status.active = true) :
      RowChange hashRunnerCredential s j
        (.enqueueReviewJob deliveryId eventName (some identity) jobId traceId)
        (some row) (some { row with status := .superseded, updatedAt := s.now })
  | cancelled
      {deliveryId eventName : String} {k : PullRequestKey} {row : ReviewJobRow}
      (hpr : row.ofPullRequest k = true)
      (hactive : row.status.active = true) :
      RowChange hashRunnerCredential s j
        (.cancelReviewJob deliveryId eventName k)
        (some row) (some { row with status := .cancelled, updatedAt := s.now })
  | leasedToRunner
      {runner : AuthenticatedRunner} {leaseToken : String} {tie : Uuid}
      {row : ReviewJobRow} {e : JobEnvelope}
      (hclaimable : claimableByRunner s runner.runnerId row = true)
      (henvelope : jobEnvelope row leaseToken = some e) :
      RowChange hashRunnerCredential s j
        (.claimJob runner leaseToken tie)
        (some row)
        (some
          (row.leasedToRunner runner.runnerId (hashRunnerCredential leaseToken) s.now))
  | leasedToWorker
      {workerId : String} {tie : Uuid} {row : ReviewJobRow}
      (hclaimable : row.claimable s.now = true) :
      RowChange hashRunnerCredential s j
        (.claimReviewJob workerId tie)
        (some row) (some (row.leasedToWorker workerId s.now))
  | renewed
      {workerId : String} {row : ReviewJobRow}
      (hheld : row.heldBy workerId = true)
      (hlive : row.leaseLive s.now = true) :
      RowChange hashRunnerCredential s j
        (.renewReviewJobLease j workerId)
        (some row)
        (some
          { row with
            lockedUntil := some (s.now + reviewJobLeaseInterval), updatedAt := s.now })
  | beaten
      {runnerId : Uuid} {leaseToken : String} {row : ReviewJobRow}
      (hrunning : row.status = .running)
      (hleased : row.leasedUnder runnerId (hashRunnerCredential leaseToken) = true)
      (hlive : row.leaseLive s.now = true) :
      RowChange hashRunnerCredential s j
        (.heartbeatJob runnerId j leaseToken)
        (some row)
        (some
          { row with
            lockedUntil := some (s.now + reviewJobLeaseInterval), updatedAt := s.now })
  | acknowledged
      {runnerId : Uuid} {leaseToken : String} {ack : JobAcknowledgement}
      {row : ReviewJobRow}
      (hleased : row.leasedUnder runnerId (hashRunnerCredential leaseToken) = true)
      (hrunning : row.status = .running)
      (hlive : row.leaseLive s.now = true)
      (hwritten : acknowledgementRefusal ack = none) :
      RowChange hashRunnerCredential s j
        (.acknowledgeJob runnerId j leaseToken ack)
        (some row) (some (row.acknowledged ack s.now))
  | completed
      {workerId : String} {row : ReviewJobRow}
      (hheld : row.heldBy workerId = true) :
      RowChange hashRunnerCredential s j
        (.completeReviewJob j workerId)
        (some row)
        (some
          { row with
            status := .succeeded
            lockedBy := none
            lockedUntil := none
            updatedAt := s.now })
  | failedOnce
      {workerId : String} {error : ReviewJobErrorClass} {row : ReviewJobRow}
      (hheld : row.heldBy workerId = true) :
      RowChange hashRunnerCredential s j
        (.failReviewJob j workerId error)
        (some row) (some (row.failedOnce error s.now))
  | requeued
      {row : ReviewJobRow}
      (hfailed : row.status = .failed)
      (hfree : headTaken s j row = false) :
      RowChange hashRunnerCredential s j
        (.requeueReviewJob j)
        (some row) (some (row.requeued s.now))
  | pushed
      {a : HostedAction} {body : PushedReviewSummaryBody}
      (hbody : a.writesSummary hashRunnerCredential s = some body)
      (hid : body.reviewJobId = j) :
      RowChange hashRunnerCredential s j a none (some (pushedRow body s.now))
  | overwritten
      {a : HostedAction} {body : PushedReviewSummaryBody} {row : ReviewJobRow}
      (hbody : a.writesSummary hashRunnerCredential s = some body)
      (hid : body.reviewJobId = j) :
      RowChange hashRunnerCredential s j a
        (some row) (some (row.overwrittenBy body s.now))

section Inversion

variable {hashRunnerCredential : String → String}

/-- A step that leaves the table as it was changes no row. -/
theorem RowChange.of_same_table
    {s s' : HostedState} {j : Uuid} {a : HostedAction}
    (h : s'.reviewJobs = s.reviewJobs) :
    RowChange hashRunnerCredential s j a (s.reviewJobs.find? j) (s'.reviewJobs.find? j) := by
  rw [h]
  exact .unchanged

/-- An update of one row is described at that row and changes no other. -/
theorem RowChange.of_alterJob
    {s : HostedState} {j k : Uuid} {a : HostedAction}
    {f : ReviewJobRow → ReviewJobRow} {hf : ∀ row, (f row).id = row.id}
    {row : ReviewJobRow}
    (hrow : s.reviewJobs.find? k = some row)
    (hchange : RowChange hashRunnerCredential s k a (some row) (some (f row))) :
    RowChange hashRunnerCredential s j a
      (s.reviewJobs.find? j) ((s.alterJob k f hf).reviewJobs.find? j) := by
  rw [HostedState.alterJob_find?]
  split
  · next hj =>
      subst hj
      rw [hrow]
      exact hchange
  · exact .unchanged

/-- A transaction that touches neither the queue nor the installations. -/
theorem sameQueue_of_commit
    {ε : Type} {s : HostedState} {outcome : Except ε HostedState}
    (h : ∀ s', outcome = .ok s' →
      SameQueue s s' ∧ s'.installations = s.installations) :
    SameQueue s (s.commit outcome) ∧
      (s.commit outcome).installations = s.installations := by
  cases outcome with
  | error e =>
      exact ⟨⟨rfl, rfl, rfl, rfl, rfl⟩, rfl⟩
  | ok s' =>
      exact h s' rfl

/-- The actions of repository_policy and runner_auth. -/
def HostedAction.policy : HostedAction → Bool
  | .registerInstallation .. => true
  | .revokeInstallation .. => true
  | .registerRepository .. => true
  | .registerRunner .. => true
  | .assignRepositoryToRunner .. => true
  | .revokeRunner .. => true
  | .rotateRunnerCredential .. => true
  | _ => false

/-- The policy actions leave the queue alone and forget no installation. -/
theorem step_policy_frame
    (s : HostedState)
    {a : HostedAction}
    (ha : a.policy = true) :
    SameQueue s (step hashRunnerCredential s a) ∧
      ∀ i, s.installations.find? i ≠ none →
        (step hashRunnerCredential s a).installations.find? i ≠ none := by
  -- all cases but two leave the installations as they are
  have hsame :
      SameQueue s (step hashRunnerCredential s a) ∧
          (step hashRunnerCredential s a).installations = s.installations →
        SameQueue s (step hashRunnerCredential s a) ∧
          ∀ i, s.installations.find? i ≠ none →
            (step hashRunnerCredential s a).installations.find? i ≠ none := by
    rintro ⟨hqueue, hinstallations⟩
    refine ⟨hqueue, ?_⟩
    intro i hi
    rw [hinstallations]
    exact hi
  cases a with
  | registerInstallation installationId accountLogin =>
      refine ⟨registerInstallation_sameQueue s installationId accountLogin, ?_⟩
      intro i hi
      exact registerInstallation_known installationId accountLogin hi
  | revokeInstallation installationId =>
      refine ⟨⟨rfl, rfl, rfl, rfl, rfl⟩, ?_⟩
      intro i hi
      simp only [step, revokeInstallation, Table.find?_updateWhere]
      rw [Ne, Option.map_eq_none_iff]
      exact hi
  | registerRepository drawnId installationId githubRepositoryId name =>
      apply hsame
      apply sameQueue_of_commit
      intro s' hs'
      obtain ⟨result, hresult, rfl⟩ := map_eq_ok hs'
      exact registerRepository_frame hresult
  | registerRunner drawnId deviceName credential capabilities githubUserId installationId =>
      apply hsame
      apply sameQueue_of_commit
      intro s' hs'
      obtain ⟨result, hresult, rfl⟩ := map_eq_ok hs'
      exact registerRunner_frame hresult
  | assignRepositoryToRunner repositoryId runnerId =>
      apply hsame
      apply sameQueue_of_commit
      intro s' hs'
      obtain ⟨result, hresult, rfl⟩ := map_eq_ok hs'
      exact assignRepositoryToRunner_frame hresult
  | revokeRunner runnerId =>
      exact hsame ⟨⟨rfl, rfl, rfl, rfl, rfl⟩, rfl⟩
  | rotateRunnerCredential runnerId currentCredential newCredential =>
      apply hsame
      apply sameQueue_of_commit
      intro s' hs'
      exact rotateRunnerCredential_frame hs'
  | _ =>
      cases ha

theorem enqueueReviewJob_rowChange
    (s : HostedState) (j : Uuid)
    (deliveryId eventName : String) (identity : Option PullRequestIdentity)
    (jobId traceId : Uuid) :
    RowChange hashRunnerCredential s j
      (.enqueueReviewJob deliveryId eventName identity jobId traceId)
      (s.reviewJobs.find? j)
      ((step hashRunnerCredential s
        (.enqueueReviewJob deliveryId eventName identity jobId traceId)).reviewJobs.find?
          j) := by
  rcases enqueueReviewJob_cases s deliveryId eventName identity jobId traceId with
    ⟨e, he⟩ | ⟨result, _, hresult⟩ | ⟨deliveries, reviewJobs, rfl, _, hinsert, hresult⟩ |
      ⟨pullRequest, deliveries, reviewJobs, rfl, rfl, hinstalled, hinsert, hresult⟩
  · simp only [step, he]
    exact .unchanged
  · simp only [step, hresult]
    exact .unchanged
  · simp only [step, hresult, Except.map, HostedState.commit]
    rw [Table.find?_insert? hinsert]
    split
    · next hj =>
        subst hj
        have hfree : s.reviewJobs.find? j = none := (Table.insert?_eq_some hinsert).1
        rw [hfree]
        exact .enqueuedBare
    · exact .unchanged
  · simp only [step, hresult, Except.map, HostedState.commit]
    obtain ⟨hfree, hafter⟩ := enqueued_find? hinsert
    rw [hafter]
    split
    · next hj =>
        subst hj
        rw [hfree]
        exact .enqueued hinstalled
    · cases hrow : s.reviewJobs.find? j with
      | none =>
          exact .unchanged
      | some row =>
          simp only [Option.map_some]
          split
          · next hguard =>
              exact .superseded hguard.1 hguard.2
          · exact .unchanged

theorem cancelReviewJob_rowChange
    (s : HostedState) (j : Uuid)
    (deliveryId eventName : String) (k : PullRequestKey) :
    RowChange hashRunnerCredential s j
      (.cancelReviewJob deliveryId eventName k)
      (s.reviewJobs.find? j)
      ((cancelReviewJob s deliveryId eventName k).2.reviewJobs.find? j) := by
  rcases cancelReviewJob_cases s deliveryId eventName k with hresult | ⟨deliveries, hresult⟩
  · rw [hresult]
    exact .unchanged
  · rw [hresult]
    simp only [retirePullRequest_find?]
    cases hrow : s.reviewJobs.find? j with
    | none =>
        exact .unchanged
    | some row =>
        simp only [Option.map_some]
        split
        · next hguard =>
            exact .cancelled hguard.1 hguard.2
        · exact .unchanged

/-- A transaction is described by what it does when it returns. -/
theorem RowChange.of_commit
    {ε : Type} {s : HostedState} {j : Uuid} {a : HostedAction}
    {outcome : Except ε HostedState}
    (h : ∀ s', outcome = .ok s' →
      RowChange hashRunnerCredential s j a (s.reviewJobs.find? j) (s'.reviewJobs.find? j)) :
    RowChange hashRunnerCredential s j a
      (s.reviewJobs.find? j) ((s.commit outcome).reviewJobs.find? j) := by
  cases outcome with
  | error e =>
      exact .unchanged
  | ok s' =>
      exact h s' rfl

/-- The upsert of a pushed summary, at every job id. -/
theorem recordedSummary_rowChange
    {s : HostedState} {a : HostedAction} {body : PushedReviewSummaryBody}
    (hbody : a.writesSummary hashRunnerCredential s = some body)
    (j : Uuid) :
    RowChange hashRunnerCredential s j a
      (s.reviewJobs.find? j) ((recordedSummary s body).reviewJobs.find? j) := by
  rw [recordedSummary_find?]
  split
  · next hj =>
      subst hj
      cases hrow : s.reviewJobs.find? body.reviewJobId with
      | none =>
          exact .pushed hbody rfl
      | some row =>
          exact .overwritten hbody rfl
  · exact .unchanged

/-- What a step that may push does: it records the body it writes, or nothing. -/
theorem step_writesSummary
    (s : HostedState) (a : HostedAction) (body : PushedReviewSummaryBody)
    (ha : a.writesSummary hashRunnerCredential s = some body) :
    step hashRunnerCredential s a = recordedSummary s body := by
  cases a with
  | savePushedReviewSummary body' =>
      simp only [HostedAction.writesSummary] at ha
      split at ha
      · next hwritable =>
          cases ha
          simp only [step, savePushedReviewSummary_of_writable hwritable, HostedState.commit]
      · cases ha
  | pushReviewSummary bearer body' =>
      simp only [HostedAction.writesSummary] at ha
      split at ha
      · cases ha
      · next runner hrunner =>
          split at ha
          · cases ha
          · next hauthorized =>
              split at ha
              · next hwritable =>
                  cases ha
                  simp only [step, pushReviewSummaryRoute, hrunner, hauthorized,
                    savePushedReviewSummary_of_writable hwritable, HostedState.commit]
              · cases ha
  | _ =>
      cases ha

theorem savePushedReviewSummary_step_refused
    (s : HostedState) (body : PushedReviewSummaryBody)
    (h : (HostedAction.savePushedReviewSummary body).writesSummary
      hashRunnerCredential s = none) :
    step hashRunnerCredential s (.savePushedReviewSummary body) = s := by
  simp only [HostedAction.writesSummary] at h
  split at h
  · cases h
  · next hwritable =>
      obtain ⟨e, he⟩ := savePushedReviewSummary_of_not_writable hwritable
      simp only [step, he, HostedState.commit]

theorem pushReviewSummary_step_refused
    (s : HostedState) (bearer : Option String) (body : PushedReviewSummaryBody)
    (h : (HostedAction.pushReviewSummary bearer body).writesSummary
      hashRunnerCredential s = none) :
    step hashRunnerCredential s (.pushReviewSummary bearer body) = s := by
  simp only [HostedAction.writesSummary] at h
  simp only [step, pushReviewSummaryRoute]
  cases hrunner : authenticateBearer hashRunnerCredential s bearer with
  | error e => rfl
  | ok runner =>
      rw [hrunner] at h
      simp only at h ⊢
      cases hauthorized :
          authorizeRepository s body.installationId body.githubRepositoryId
            runner.runnerId with
      | error reason => rfl
      | ok authorized =>
          rw [hauthorized] at h
          simp only at h ⊢
          split at h
          · cases h
          · next hwritable =>
              obtain ⟨e, he⟩ := savePushedReviewSummary_of_not_writable hwritable
              rw [he]
              rfl

/-- How much time an action takes. -/
def HostedAction.elapsed : HostedAction → Nat
  | .advanceClock elapsed => elapsed
  | _ => 0

/-- The delivery id a transaction of the machine records. -/
def HostedAction.delivery? : HostedAction → Option String
  | .enqueueReviewJob deliveryId _ _ _ _ => some deliveryId
  | .cancelReviewJob deliveryId _ _ => some deliveryId
  | _ => none

/-- The policy tables stay, the time but for the clock, the deliveries but for a new one. -/
structure QueueFrame (s s' : HostedState) (a : HostedAction) : Prop where
  policy : SamePolicy s s'
  now : s'.now = s.now + a.elapsed
  githubDeliveries : a.delivery? = none → s'.githubDeliveries = s.githubDeliveries

theorem QueueFrame.refl
    (s : HostedState)
    {a : HostedAction}
    (ha : a.elapsed = 0) :
    QueueFrame s s a := by
  refine ⟨⟨rfl, rfl, rfl, rfl, le_rfl⟩, ?_, fun _ => rfl⟩
  rw [ha, Nat.add_zero]

/-- A push leaves the policy tables, the deliveries and the events alone. -/
theorem step_push_frame
    {s : HostedState} {a : HostedAction} {body : PushedReviewSummaryBody}
    (ha : a = .savePushedReviewSummary body ∨ ∃ bearer, a = .pushReviewSummary bearer body) :
    QueueFrame s (step hashRunnerCredential s a) a ∧
      (step hashRunnerCredential s a).agentEvents = s.agentEvents := by
  have helapsed : a.elapsed = 0 := by
    rcases ha with rfl | ⟨bearer, rfl⟩
    · rfl
    · rfl
  cases hbody : a.writesSummary hashRunnerCredential s with
  | none =>
      have hsame : step hashRunnerCredential s a = s := by
        rcases ha with rfl | ⟨bearer, rfl⟩
        · exact savePushedReviewSummary_step_refused s body hbody
        · exact pushReviewSummary_step_refused s bearer body hbody
      rw [hsame]
      exact ⟨.refl s helapsed, rfl⟩
  | some written =>
      rw [step_writesSummary s a written hbody]
      refine ⟨⟨⟨rfl, rfl, rfl, rfl, le_rfl⟩, ?_, fun _ => rfl⟩, rfl⟩
      rw [helapsed]
      rfl

variable (hashRunnerCredential) in
/-- **Inversion of the step function**, for the row under one job id. -/
theorem step_rowChange
    (s : HostedState) (a : HostedAction) (j : Uuid) :
    RowChange hashRunnerCredential s j a
      (s.reviewJobs.find? j)
      ((step hashRunnerCredential s a).reviewJobs.find? j) := by
  by_cases hpolicy : a.policy = true
  · exact .of_same_table (step_policy_frame s hpolicy).1.reviewJobs
  · cases a with
    | enqueueReviewJob deliveryId eventName identity jobId traceId =>
        exact enqueueReviewJob_rowChange s j deliveryId eventName identity jobId traceId
    | cancelReviewJob deliveryId eventName k =>
        exact cancelReviewJob_rowChange s j deliveryId eventName k
    | claimJob runner leaseToken tie =>
        rcases claimJob_cases hashRunnerCredential s runner leaseToken tie with
          ⟨hresult, _⟩ | ⟨e, he⟩ | ⟨row, e, hrow, hclaimable, henvelope, hresult⟩
        · simp only [step, hresult]
          exact .unchanged
        · simp only [step, he]
          exact .unchanged
        · simp only [step, hresult]
          exact .of_alterJob hrow (.leasedToRunner hclaimable henvelope)
    | claimReviewJob workerId tie =>
        rcases claimReviewJob_cases s workerId tie with hresult | ⟨row, hrow, hclaimable, hresult⟩
        · simp only [step, hresult]
          exact .unchanged
        · simp only [step, hresult]
          exact .of_alterJob hrow (.leasedToWorker hclaimable)
    | renewReviewJobLease jobId workerId =>
        apply RowChange.of_commit
        intro s' hs'
        obtain ⟨row, hrow, hheld, hlive, rfl⟩ := renewReviewJobLease_eq_ok hs'
        exact .of_alterJob hrow (.renewed hheld hlive)
    | heartbeatJob runnerId jobId leaseToken =>
        rcases heartbeatJob_cases hashRunnerCredential s runnerId jobId leaseToken with
          ⟨row, hrow, hrunning, hleased, hlive, hresult⟩ | ⟨_, hsame⟩
        · simp only [step, hresult]
          exact .of_alterJob hrow (.beaten hrunning hleased hlive)
        · simp only [step, hsame]
          exact .unchanged
    | acknowledgeJob runnerId jobId leaseToken ack =>
        rcases acknowledgeJob_cases hashRunnerCredential s runnerId jobId leaseToken ack with
          hdenied | ⟨row, _, _, _, hresult⟩ | ⟨row, e, _, _, _, _, _, hrefused⟩ |
            ⟨row, hrow, hleased, hrunning, hlive, hwritten, hresult⟩
        · simp only [step, hdenied]
          exact .unchanged
        · simp only [step, hresult]
          exact .unchanged
        · simp only [step, hrefused]
          exact .unchanged
        · simp only [step, hresult, Except.map, HostedState.commit, acknowledgedState,
            insertAgentEvent_reviewJobs]
          exact .of_alterJob hrow (.acknowledged hleased hrunning hlive hwritten)
    | completeReviewJob jobId workerId =>
        apply RowChange.of_commit
        intro s' hs'
        obtain ⟨row, hrow, hheld, rfl⟩ := completeReviewJob_eq_ok hs'
        exact .of_alterJob hrow (.completed hheld)
    | failReviewJob jobId workerId error =>
        apply RowChange.of_commit
        intro s' hs'
        obtain ⟨row, _, _, hrow, hheld, _, rfl⟩ := failReviewJob_eq_ok hs'
        rw [insertAgentEvent_reviewJobs]
        exact .of_alterJob hrow (.failedOnce hheld)
    | requeueReviewJob jobId =>
        apply RowChange.of_commit
        intro s' hs'
        obtain ⟨row, hrow, hfailed, hfree, rfl⟩ := requeueReviewJob_eq_ok hs'
        exact .of_alterJob hrow (.requeued hfailed hfree)
    | savePushedReviewSummary body =>
        cases hbody :
            (HostedAction.savePushedReviewSummary body).writesSummary
              hashRunnerCredential s with
        | none =>
            rw [savePushedReviewSummary_step_refused s body hbody]
            exact .unchanged
        | some written =>
            rw [step_writesSummary s _ written hbody]
            exact recordedSummary_rowChange hbody j
    | pushReviewSummary bearer body =>
        cases hbody :
            (HostedAction.pushReviewSummary bearer body).writesSummary
              hashRunnerCredential s with
        | none =>
            rw [pushReviewSummary_step_refused s bearer body hbody]
            exact .unchanged
        | some written =>
            rw [step_writesSummary s _ written hbody]
            exact recordedSummary_rowChange hbody j
    | advanceClock elapsed =>
        exact .unchanged
    | _ =>
        exact absurd rfl hpolicy

/-- What a step does to the events: nothing, an acknowledgement, or a worker's report. -/
def EventChange
    (hashRunnerCredential : String → String)
    (s : HostedState)
    (a : HostedAction) : Prop :=
  (step hashRunnerCredential s a).agentEvents = s.agentEvents ∨
    (∃ runnerId jobId leaseToken ack row,
      a = .acknowledgeJob runnerId jobId leaseToken ack ∧
      s.reviewJobs.find? jobId = some row ∧ row.status = .running ∧
      step hashRunnerCredential s a = acknowledgedState s jobId ack) ∨
    (∃ event : AgentEventRow, event.eventType ≠ reviewJobAcknowledged ∧
      (step hashRunnerCredential s a).agentEvents = s.agentEvents ++ [event])

/-- A transaction that keeps the frame when it returns, and adds no event. -/
theorem frame_of_commit
    {ε : Type} {s : HostedState} {a : HostedAction} {outcome : Except ε HostedState}
    (ha : a.elapsed = 0)
    (h : ∀ s', outcome = .ok s' → QueueFrame s s' a ∧ s'.agentEvents = s.agentEvents) :
    QueueFrame s (s.commit outcome) a ∧ (s.commit outcome).agentEvents = s.agentEvents := by
  cases outcome with
  | error e =>
      exact ⟨.refl s ha, rfl⟩
  | ok s' =>
      exact h s' rfl

/-- The actions of the queue leave the policy tables alone; two of them add an event. -/
theorem step_queue_frame
    (s : HostedState)
    {a : HostedAction}
    (hqueue : a.policy = false) :
    QueueFrame s (step hashRunnerCredential s a) a ∧ EventChange hashRunnerCredential s a := by
  -- all cases but two leave the events alone
  have hquiet :
      QueueFrame s (step hashRunnerCredential s a) a ∧
          (step hashRunnerCredential s a).agentEvents = s.agentEvents →
        QueueFrame s (step hashRunnerCredential s a) a ∧
          EventChange hashRunnerCredential s a :=
    fun h => ⟨h.1, .inl h.2⟩
  cases a with
  | enqueueReviewJob deliveryId eventName identity jobId traceId =>
      apply hquiet
      apply frame_of_commit rfl
      intro s' hs'
      rcases enqueueReviewJob_cases s deliveryId eventName identity jobId traceId with
        ⟨e, he⟩ | ⟨result, _, hresult⟩ | ⟨deliveries, reviewJobs, _, _, _, hresult⟩ |
          ⟨pullRequest, deliveries, reviewJobs, _, _, _, _, hresult⟩
      · rw [he] at hs'
        cases hs'
      · rw [hresult] at hs'
        cases hs'
        exact ⟨⟨⟨rfl, rfl, rfl, rfl, le_rfl⟩, rfl, by rintro ⟨⟩⟩, rfl⟩
      · rw [hresult] at hs'
        cases hs'
        exact ⟨⟨⟨rfl, rfl, rfl, rfl, le_rfl⟩, rfl, by rintro ⟨⟩⟩, rfl⟩
      · rw [hresult] at hs'
        cases hs'
        exact ⟨⟨⟨rfl, rfl, rfl, rfl, le_rfl⟩, rfl, by rintro ⟨⟩⟩, rfl⟩
  | cancelReviewJob deliveryId eventName k =>
      apply hquiet
      rcases cancelReviewJob_cases s deliveryId eventName k with
        hresult | ⟨deliveries, hresult⟩
      · simp only [step, hresult]
        exact ⟨.refl s rfl, trivial⟩
      · simp only [step, hresult]
        exact ⟨⟨⟨rfl, rfl, rfl, rfl, le_rfl⟩, rfl, by rintro ⟨⟩⟩, rfl⟩
  | claimJob runner leaseToken tie =>
      apply hquiet
      apply frame_of_commit rfl
      intro s' hs'
      rcases claimJob_cases hashRunnerCredential s runner leaseToken tie with
        ⟨hresult, _⟩ | ⟨e, he⟩ | ⟨row, e, _, _, _, hresult⟩
      · rw [hresult] at hs'
        cases hs'
        exact ⟨⟨⟨rfl, rfl, rfl, rfl, le_rfl⟩, rfl, fun _ => rfl⟩, rfl⟩
      · rw [he] at hs'
        cases hs'
      · rw [hresult] at hs'
        cases hs'
        exact ⟨⟨⟨rfl, rfl, rfl, rfl, le_rfl⟩, rfl, fun _ => rfl⟩, rfl⟩
  | claimReviewJob workerId tie =>
      apply hquiet
      rcases claimReviewJob_cases s workerId tie with hresult | ⟨row, _, _, hresult⟩
      · simp only [step, hresult]
        exact ⟨.refl s rfl, trivial⟩
      · simp only [step, hresult]
        exact ⟨⟨⟨rfl, rfl, rfl, rfl, le_rfl⟩, rfl, fun _ => rfl⟩, rfl⟩
  | renewReviewJobLease jobId workerId =>
      apply hquiet
      apply frame_of_commit rfl
      intro s' hs'
      obtain ⟨row, _, _, _, rfl⟩ := renewReviewJobLease_eq_ok hs'
      exact ⟨⟨⟨rfl, rfl, rfl, rfl, le_rfl⟩, rfl, fun _ => rfl⟩, rfl⟩
  | heartbeatJob runnerId jobId leaseToken =>
      apply hquiet
      rcases heartbeatJob_cases hashRunnerCredential s runnerId jobId leaseToken with
        ⟨row, _, _, _, _, hresult⟩ | ⟨_, hsame⟩
      · simp only [step, hresult]
        exact ⟨⟨⟨rfl, rfl, rfl, rfl, le_rfl⟩, rfl, fun _ => rfl⟩, rfl⟩
      · simp only [step, hsame]
        exact ⟨.refl s rfl, trivial⟩
  | acknowledgeJob runnerId jobId leaseToken ack =>
      rcases acknowledgeJob_cases hashRunnerCredential s runnerId jobId leaseToken ack with
        hdenied | ⟨row, hrow, _, _, hresult⟩ | ⟨row, e, _, _, _, _, _, hrefused⟩ |
          ⟨row, hrow, _, hrunning, _, _, hresult⟩
      · apply hquiet
        simp only [step, hdenied]
        exact ⟨⟨⟨rfl, rfl, rfl, rfl, le_rfl⟩, rfl, fun _ => rfl⟩, rfl⟩
      · apply hquiet
        simp only [step, hresult]
        exact ⟨⟨⟨rfl, rfl, rfl, rfl, le_rfl⟩, rfl, fun _ => rfl⟩, rfl⟩
      · apply hquiet
        simp only [step, hrefused]
        exact ⟨⟨⟨rfl, rfl, rfl, rfl, le_rfl⟩, rfl, fun _ => rfl⟩, rfl⟩
      · have hstep :
            step hashRunnerCredential s (.acknowledgeJob runnerId jobId leaseToken ack) =
              acknowledgedState s jobId ack := by
          simp only [step, hresult]
          rfl
        refine ⟨?_, .inr (.inl
          ⟨runnerId, jobId, leaseToken, ack, row, rfl, hrow, hrunning, hstep⟩)⟩
        rw [hstep]
        exact ⟨⟨rfl, rfl, rfl, rfl, le_rfl⟩, rfl, fun _ => rfl⟩
  | completeReviewJob jobId workerId =>
      apply hquiet
      apply frame_of_commit rfl
      intro s' hs'
      obtain ⟨row, _, _, rfl⟩ := completeReviewJob_eq_ok hs'
      exact ⟨⟨⟨rfl, rfl, rfl, rfl, le_rfl⟩, rfl, fun _ => rfl⟩, rfl⟩
  | failReviewJob jobId workerId error =>
      cases hresult : failReviewJob s jobId workerId error with
      | error e =>
          apply hquiet
          simp only [step, hresult]
          exact ⟨⟨⟨rfl, rfl, rfl, rfl, le_rfl⟩, rfl, fun _ => rfl⟩, rfl⟩
      | ok s' =>
          obtain ⟨row, eventType, payload, _, _, hother, rfl⟩ := failReviewJob_eq_ok hresult
          obtain ⟨event, _, htype, hevents⟩ :=
            insertAgentEvent_agentEvents
              (s.alterJob jobId (fun r => r.failedOnce error s.now)
                (fun r => r.failedOnce_id error s.now))
              jobId eventType payload
          have hstep :
              step hashRunnerCredential s (.failReviewJob jobId workerId error) =
                insertAgentEvent
                  (s.alterJob jobId (fun r => r.failedOnce error s.now)
                    (fun r => r.failedOnce_id error s.now))
                  jobId eventType payload := by
            simp only [step, hresult]
            rfl
          refine ⟨?_, .inr (.inr ⟨event, by rw [htype]; exact hother, ?_⟩)⟩
          · rw [hstep]
            exact ⟨⟨rfl, rfl, rfl, rfl, le_rfl⟩, rfl, fun _ => rfl⟩
          · rw [hstep]
            exact hevents
  | requeueReviewJob jobId =>
      apply hquiet
      apply frame_of_commit rfl
      intro s' hs'
      obtain ⟨row, _, _, _, rfl⟩ := requeueReviewJob_eq_ok hs'
      exact ⟨⟨⟨rfl, rfl, rfl, rfl, le_rfl⟩, rfl, fun _ => rfl⟩, rfl⟩
  | savePushedReviewSummary body =>
      exact hquiet (step_push_frame (.inl rfl))
  | pushReviewSummary bearer body =>
      exact hquiet (step_push_frame (.inr ⟨bearer, rfl⟩))
  | advanceClock elapsed =>
      exact hquiet ⟨⟨⟨rfl, rfl, rfl, rfl, Nat.le_add_right _ _⟩, rfl, fun _ => rfl⟩, rfl⟩
  | _ =>
      cases hqueue

variable (hashRunnerCredential) in
/-- Only the clock moves the time. -/
theorem step_now
    (s : HostedState) (a : HostedAction) :
    (step hashRunnerCredential s a).now = s.now + a.elapsed := by
  by_cases hpolicy : a.policy = true
  · rw [(step_policy_frame s hpolicy).1.now]
    cases a with
    | advanceClock elapsed => cases hpolicy
    | _ => rfl
  · exact (step_queue_frame s (by simpa using hpolicy)).1.now

variable (hashRunnerCredential) in
/-- Time does not go back. -/
theorem step_now_le
    (s : HostedState) (a : HostedAction) :
    s.now ≤ (step hashRunnerCredential s a).now := by
  rw [step_now]
  exact Nat.le_add_right _ _

/-- An installation, once known, stays known. -/
theorem step_installation_known
    {s : HostedState} {i : Int}
    (a : HostedAction)
    (h : s.installations.find? i ≠ none) :
    (step hashRunnerCredential s a).installations.find? i ≠ none := by
  by_cases hpolicy : a.policy = true
  · exact (step_policy_frame s hpolicy).2 i h
  · have hqueue : a.policy = false := by simpa using hpolicy
    rw [(step_queue_frame s hqueue).1.policy.installations]
    exact h

end Inversion

/-! ## A paired runner, for concrete runs -/

/-- A stand-in for the digest: distinct credentials have distinct texts. -/
def sampleHash (credential : String) : String :=
  "sha256:" ++ credential

theorem sampleHash_injective :
    Function.Injective sampleHash := by
  intro c c' h
  have hlist := congrArg String.toList h
  simp only [sampleHash, String.toList_append, List.append_cancel_left_eq] at hlist
  exact String.toList_inj.mp hlist

def laptopRunner : AuthenticatedRunner where
  runnerId := ⟨"aaaaaaaa-0000-4000-8000-000000000001", by decide⟩
  deviceName := "laptop"
  mode := .full

def laptopCapabilities : RunnerCapabilities where
  mode := .full
  dockerAvailable := true
  retrievalAvailable := true
  verificationAvailable := true
  platform := "linux"
  version := "1.0"

/-- One installation with one repository, assigned to one runner. -/
def pairLaptop : List HostedAction :=
  [.registerInstallation 1 "acme",
    .registerRepository ⟨"bbbbbbbb-0000-4000-8000-000000000001", by decide⟩ 1 11 "acme/web",
    .registerRunner laptopRunner.runnerId "laptop" "laptop-credential" laptopCapabilities
      none none,
    .assignRepositoryToRunner ⟨"bbbbbbbb-0000-4000-8000-000000000001", by decide⟩
      laptopRunner.runnerId]

/-- A head of the pull request 7 of that repository. -/
def headOfSeven (headSha : String) (h : headSha ≠ "") : PullRequestIdentity where
  installationId := 1
  githubRepositoryId := 11
  pullRequestNumber := 7
  baseSha := "base"
  headSha := headSha
  pullRequestNumber_pos := by decide
  baseSha_ne := by decide
  headSha_ne := h

def firstJobId : Uuid := ⟨"cccccccc-0000-4000-8000-000000000001", by decide⟩

def firstTraceId : Uuid := ⟨"dddddddd-0000-4000-8000-000000000001", by decide⟩

theorem firstHead_ne : "head-1" ≠ "" := by
  decide

/-- The webhook of one head, under the delivery of that name. -/
def enqueueHead
    (deliveryId : String) (jobId : Uuid) (headSha : String) (h : headSha ≠ "") :
    HostedAction :=
  .enqueueReviewJob deliveryId "pull_request" (some (headOfSeven headSha h)) jobId
    firstTraceId

end Hosted
end PrReviewer
