import PrReviewer.Hosted.ReviewProjection

/-!
# What each hosted operation does

One lemma for each operation: the ways it can end, with the guard of each way and
the state it commits.  The proofs about runs read these lemmas and not the
operations.  The operations of repository_policy and runner_auth leave the queue
alone (`SameQueue`), those of the queue leave the policy tables alone
(`SamePolicy`).
-/

namespace PrReviewer
namespace Hosted

open Lib

/-- The two states have the same jobs, deliveries, events and findings at the same time. -/
structure SameQueue (s s' : HostedState) : Prop where
  now : s'.now = s.now
  githubDeliveries : s'.githubDeliveries = s.githubDeliveries
  reviewJobs : s'.reviewJobs = s.reviewJobs
  agentEvents : s'.agentEvents = s.agentEvents
  reviewFindings : s'.reviewFindings = s.reviewFindings

/--
The two states have the same installations, repositories, runners and assignments,
and the second is not earlier.
-/
structure SamePolicy (s s' : HostedState) : Prop where
  installations : s'.installations = s.installations
  repositories : s'.repositories = s.repositories
  runners : s'.runners = s.runners
  repositoryAssignments : s'.repositoryAssignments = s.repositoryAssignments
  now_le : s.now ≤ s'.now

/-- The state with one job rewritten. -/
def HostedState.alterJob
    (s : HostedState)
    (jobId : Uuid)
    (f : ReviewJobRow → ReviewJobRow)
    (hf : ∀ row, (f row).id = row.id) :
    HostedState :=
  { s with reviewJobs := s.reviewJobs.alter jobId f hf }

theorem HostedState.alterJob_find?
    (s : HostedState) (jobId : Uuid) (f : ReviewJobRow → ReviewJobRow)
    (hf : ∀ row, (f row).id = row.id) (j : Uuid) :
    (s.alterJob jobId f hf).reviewJobs.find? j =
      if j = jobId then (s.reviewJobs.find? j).map f else s.reviewJobs.find? j :=
  Table.find?_alter s.reviewJobs jobId f hf j

/-- An `Except.map` that returned: the computation under it returned. -/
theorem map_eq_ok
    {ε α β : Type} {f : α → β} {outcome : Except ε α} {b : β}
    (h : outcome.map f = .ok b) :
    ∃ a, outcome = .ok a ∧ f a = b := by
  cases outcome with
  | error e =>
      cases h
  | ok a =>
      cases h
      exact ⟨a, rfl, rfl⟩

section Policy

variable {hashRunnerCredential : String → String}

theorem registerInstallation_sameQueue
    (s : HostedState) (installationId : Int) (accountLogin : String) :
    SameQueue s (registerInstallation s installationId accountLogin) := by
  unfold registerInstallation
  simp only
  split
  · exact ⟨rfl, rfl, rfl, rfl, rfl⟩
  · exact ⟨rfl, rfl, rfl, rfl, rfl⟩

theorem registerRepository_frame
    {s : HostedState} {drawnId : Uuid} {installationId githubRepositoryId : Int}
    {name : String} {result : Uuid × HostedState}
    (h : registerRepository s drawnId installationId githubRepositoryId name = .ok result) :
    SameQueue s result.2 ∧ result.2.installations = s.installations := by
  unfold registerRepository at h
  split at h
  · cases h
    exact ⟨⟨rfl, rfl, rfl, rfl, rfl⟩, rfl⟩
  · split at h
    · cases h
    · split at h
      · cases h
      · simp only at h
        split at h
        · cases h
          exact ⟨⟨rfl, rfl, rfl, rfl, rfl⟩, rfl⟩
        · cases h

theorem registerRunner_frame
    {s : HostedState} {drawnId : Uuid} {deviceName credential : String}
    {capabilities : RunnerCapabilities} {githubUserId installationId : Option Int}
    {result : Uuid × HostedState}
    (h : registerRunner hashRunnerCredential s drawnId deviceName credential capabilities
      githubUserId installationId = .ok result) :
    SameQueue s result.2 ∧ result.2.installations = s.installations := by
  unfold registerRunner at h
  split at h
  · cases h
  · split at h
    · cases h
    · simp only at h
      split at h
      · cases h
        exact ⟨⟨rfl, rfl, rfl, rfl, rfl⟩, rfl⟩
      · cases h

theorem assignRepositoryToRunner_frame
    {s : HostedState} {repositoryId runnerId : Uuid}
    {result : AssignmentOutcome × HostedState}
    (h : assignRepositoryToRunner s repositoryId runnerId = .ok result) :
    SameQueue s result.2 ∧ result.2.installations = s.installations := by
  unfold assignRepositoryToRunner at h
  split at h
  · cases h
  · simp only at h
    split at h
    · cases h
      exact ⟨⟨rfl, rfl, rfl, rfl, rfl⟩, rfl⟩
    · split at h
      · cases h
        exact ⟨⟨rfl, rfl, rfl, rfl, rfl⟩, rfl⟩
      · cases h

theorem rotateRunnerCredential_frame
    {s s' : HostedState} {runnerId : Uuid} {currentCredential newCredential : String}
    (h : rotateRunnerCredential hashRunnerCredential s runnerId currentCredential
      newCredential = .ok s') :
    SameQueue s s' ∧ s'.installations = s.installations := by
  unfold rotateRunnerCredential at h
  split at h
  · cases h
  · split at h
    · cases h
    · split at h
      · cases h
      · cases h
        exact ⟨⟨rfl, rfl, rfl, rfl, rfl⟩, rfl⟩

/-- Registering one installation forgets no other. -/
theorem registerInstallation_known
    {s : HostedState} {i : Int}
    (installationId : Int) (accountLogin : String)
    (h : s.installations.find? i ≠ none) :
    (registerInstallation s installationId accountLogin).installations.find? i ≠ none := by
  unfold registerInstallation
  simp only
  split
  · next installations hinsert =>
      rw [Table.find?_insert? hinsert]
      split
      · rintro ⟨⟩
      · exact h
  · rw [Table.find?_alter]
    split
    · rw [Ne, Option.map_eq_none_iff]
      exact h
    · exact h

end Policy

/-! ## Enqueueing and cancelling -/

theorem retirePullRequest_find?
    (s : HostedState) (k : PullRequestKey) (status : ReviewJobStatus) (j : Uuid) :
    (retirePullRequest s k status).reviewJobs.find? j =
      (s.reviewJobs.find? j).map (fun row =>
        if row.ofPullRequest k = true ∧ row.status.active = true then
          { row with status := status, updatedAt := s.now }
        else
          row) := by
  unfold retirePullRequest
  simp only [Table.find?_updateWhere, decide_eq_true_eq]

theorem recordDelivery_eq_some
    {s s' : HostedState} {deliveryId eventName : String}
    (h : recordDelivery s deliveryId eventName = some s') :
    ∃ deliveries, s' = { s with githubDeliveries := deliveries } := by
  unfold recordDelivery at h
  rw [Option.map_eq_some_iff] at h
  obtain ⟨deliveries, _, rfl⟩ := h
  exact ⟨deliveries, rfl⟩

theorem recordDelivery_eq_none_iff
    {s : HostedState} {deliveryId eventName : String} :
    recordDelivery s deliveryId eventName = none ↔
      s.githubDeliveries.find? deliveryId ≠ none := by
  unfold recordDelivery
  rw [Option.map_eq_none_iff, Table.insert?_eq_none_iff, Option.ne_none_iff_exists']

theorem insertReviewJob_eq_ok
    {s s' : HostedState} {row : ReviewJobRow}
    (h : insertReviewJob s row = .ok s') :
    ∃ reviewJobs, s.reviewJobs.insert? row = some reviewJobs ∧
      s' = { s with reviewJobs := reviewJobs } := by
  unfold insertReviewJob at h
  split at h
  · next reviewJobs hinsert =>
      cases h
      exact ⟨reviewJobs, hinsert, rfl⟩
  · cases h

/--
The ways of `enqueue_review_job`: it raises, it does nothing, it stores a bare row
for a delivery without a known pull request, or it supersedes the active rows of
the pull request and stores the new one.
-/
theorem enqueueReviewJob_cases
    (s : HostedState) (deliveryId eventName : String)
    (identity : Option PullRequestIdentity) (jobId traceId : Uuid) :
    (∃ e, enqueueReviewJob s deliveryId eventName identity jobId traceId = .error e) ∨
      (∃ result, result ≠ .enqueued ∧
        enqueueReviewJob s deliveryId eventName identity jobId traceId =
          .ok (result, s)) ∨
      (∃ deliveries reviewJobs, eventName = "pull_request" ∧
        (∀ pullRequest, identity = some pullRequest →
          s.installations.find? pullRequest.installationId = none) ∧
        s.reviewJobs.insert? (.fresh jobId (some deliveryId) .pending s.now) =
          some reviewJobs ∧
        enqueueReviewJob s deliveryId eventName identity jobId traceId =
          .ok (.enqueued,
            { s with githubDeliveries := deliveries, reviewJobs := reviewJobs })) ∨
      (∃ pullRequest deliveries reviewJobs, eventName = "pull_request" ∧
        identity = some pullRequest ∧
        s.installations.find? pullRequest.installationId ≠ none ∧
        (retirePullRequest s pullRequest.key .superseded).reviewJobs.insert?
            (enqueuedRow jobId traceId deliveryId pullRequest s.now) = some reviewJobs ∧
        enqueueReviewJob s deliveryId eventName identity jobId traceId =
          .ok (.enqueued,
            { s with githubDeliveries := deliveries, reviewJobs := reviewJobs })) := by
  unfold enqueueReviewJob
  by_cases hevent : eventName = "pull_request"
  · rw [if_neg (not_not.mpr hevent)]
    cases hrecord : recordDelivery s deliveryId eventName with
    | none =>
        exact .inr (.inl ⟨.duplicate, by decide, rfl⟩)
    | some s₁ =>
        obtain ⟨deliveries, rfl⟩ := recordDelivery_eq_some hrecord
        -- the bare insertion, shared by two branches of the source
        have hbare :
            ∀ outcome,
              outcome =
                (insertReviewJob { s with githubDeliveries := deliveries }
                    (.fresh jobId (some deliveryId) .pending s.now)).map
                  (fun s₂ => (EnqueueReviewJobResult.enqueued, s₂)) →
              (∃ e, outcome = .error e) ∨
              ∃ reviewJobs,
                s.reviewJobs.insert? (.fresh jobId (some deliveryId) .pending s.now) =
                  some reviewJobs ∧
                outcome =
                  .ok (.enqueued,
                    { s with githubDeliveries := deliveries, reviewJobs := reviewJobs }) := by
          rintro outcome rfl
          cases hinsert :
              insertReviewJob { s with githubDeliveries := deliveries }
                (.fresh jobId (some deliveryId) .pending s.now) with
          | error e =>
              exact .inl ⟨e, rfl⟩
          | ok s₂ =>
              obtain ⟨reviewJobs, hreviewJobs, rfl⟩ := insertReviewJob_eq_ok hinsert
              exact .inr ⟨reviewJobs, hreviewJobs, rfl⟩
        simp only
        cases identity with
        | none =>
            rcases hbare _ rfl with ⟨e, he⟩ | ⟨reviewJobs, hreviewJobs, hresult⟩
            · exact .inl ⟨e, he⟩
            · refine .inr (.inr (.inl ⟨deliveries, reviewJobs, hevent, ?_, hreviewJobs, hresult⟩))
              rintro pullRequest ⟨⟩
        | some pullRequest =>
            simp only
            by_cases hinstalled : s.installations.find? pullRequest.installationId = none
            · rw [if_pos hinstalled]
              rcases hbare _ rfl with ⟨e, he⟩ | ⟨reviewJobs, hreviewJobs, hresult⟩
              · exact .inl ⟨e, he⟩
              · refine .inr (.inr (.inl
                  ⟨deliveries, reviewJobs, hevent, ?_, hreviewJobs, hresult⟩))
                rintro _ ⟨⟩
                exact hinstalled
            · rw [if_neg hinstalled]
              split
              · exact .inl ⟨_, rfl⟩
              split
              · exact .inl ⟨_, rfl⟩
              · cases hinsert :
                    insertReviewJob
                      (retirePullRequest { s with githubDeliveries := deliveries }
                        pullRequest.key .superseded)
                      (enqueuedRow jobId traceId deliveryId pullRequest s.now) with
                | error e =>
                    exact .inl ⟨e, rfl⟩
                | ok s₂ =>
                    obtain ⟨reviewJobs, hreviewJobs, rfl⟩ := insertReviewJob_eq_ok hinsert
                    exact .inr (.inr (.inr
                      ⟨pullRequest, deliveries, reviewJobs, hevent, rfl, hinstalled,
                        hreviewJobs, rfl⟩))
  · rw [if_pos hevent]
    exact .inr (.inl ⟨.ignored, by decide, rfl⟩)

/-- An insertion under a free id is stored under it. -/
theorem insertReviewJob_of_free
    (s : HostedState) (row : ReviewJobRow)
    (hfree : s.reviewJobs.find? row.id = none) :
    ∃ s', insertReviewJob s row = .ok s' ∧ s'.reviewJobs.find? row.id = some row := by
  unfold insertReviewJob
  cases hinsert : s.reviewJobs.insert? row with
  | none =>
      obtain ⟨row', hrow'⟩ := Table.insert?_eq_none_iff.mp hinsert
      rw [hfree] at hrow'
      cases hrow'
  | some reviewJobs =>
      refine ⟨_, rfl, ?_⟩
      rw [Table.find?_insert? hinsert, if_pos rfl]

/-- The columns of an identity that PostgreSQL may refuse. -/
structure PullRequestIdentity.Fits (identity : PullRequestIdentity) : Prop where
  texts : fitsText identity.baseSha = true ∧ fitsText identity.headSha = true
  numbers :
    fitsBigint identity.githubRepositoryId = true ∧
      fitsInteger identity.pullRequestNumber = true

section Enqueued

variable {s : HostedState} {deliveryId : String} {jobId traceId : Uuid}

/-- The row of a new delivery for an installed pull request is inserted when it fits. -/
theorem enqueueReviewJob_of_installed
    (pullRequest : PullRequestIdentity) (traceId : Uuid)
    (hnew : s.githubDeliveries.find? deliveryId = none)
    (hinstalled : s.installations.find? pullRequest.installationId ≠ none)
    (hfree : s.reviewJobs.find? jobId = none) :
    (pullRequest.Fits ∧
      ∃ s', enqueueReviewJob s deliveryId "pull_request" (some pullRequest) jobId traceId =
          .ok (.enqueued, s') ∧
        s'.reviewJobs.find? jobId =
          some (enqueuedRow jobId traceId deliveryId pullRequest s.now)) ∨
    (¬ pullRequest.Fits ∧
      ∃ e, enqueueReviewJob s deliveryId "pull_request" (some pullRequest) jobId traceId =
        .error e) := by
  unfold enqueueReviewJob
  rw [if_neg (not_not.mpr rfl)]
  cases hrecord : recordDelivery s deliveryId "pull_request" with
  | none => exact absurd hnew (recordDelivery_eq_none_iff.mp hrecord)
  | some s₁ =>
      obtain ⟨deliveries, rfl⟩ := recordDelivery_eq_some hrecord
      simp only
      rw [if_neg hinstalled]
      split
      · next htexts => exact .inr ⟨fun hfits => htexts hfits.texts, _, rfl⟩
      · next htexts =>
          split
          · next hnumbers => exact .inr ⟨fun hfits => hnumbers hfits.numbers, _, rfl⟩
          · next hnumbers =>
              obtain ⟨s', hinsert, hfind⟩ :=
                insertReviewJob_of_free
                  (retirePullRequest { s with githubDeliveries := deliveries }
                    pullRequest.key .superseded)
                  (enqueuedRow jobId traceId deliveryId pullRequest s.now)
                  (by simp [retirePullRequest, Table.find?_updateWhere, hfree])
              rw [hinsert]
              exact .inl ⟨⟨not_not.mp htexts, not_not.mp hnumbers⟩, s', rfl, hfind⟩

theorem enqueueReviewJob_new
    {s' : HostedState} {identity : Option PullRequestIdentity}
    (h : enqueueReviewJob s deliveryId "pull_request" identity jobId traceId =
      .ok (.enqueued, s')) :
    s.githubDeliveries.find? deliveryId = none := by
  by_contra hknown
  unfold enqueueReviewJob at h
  rw [if_neg (not_not.mpr rfl), recordDelivery_eq_none_iff.mpr hknown] at h
  cases h

/-- An enqueue of a pull request that fits returns; a row with a head is its own. -/
theorem enqueueReviewJob_returns
    (deliveryId eventName : String) (traceId : Uuid) {pullRequest : PullRequestIdentity}
    (hfree : s.reviewJobs.find? jobId = none)
    (hfits : s.installations.find? pullRequest.installationId ≠ none → pullRequest.Fits) :
    ∃ result s', enqueueReviewJob s deliveryId eventName (some pullRequest) jobId traceId =
        .ok (result, s') ∧
      (result = .enqueued →
        ∀ row ∈ s'.reviewJobs.find? jobId, ∀ headSha ∈ row.headSha,
          s.installations.find? pullRequest.installationId ≠ none ∧
            headSha = pullRequest.headSha) := by
  by_cases hevent : eventName = "pull_request"
  · subst hevent
    by_cases hknown : s.githubDeliveries.find? deliveryId = none
    · by_cases hinstalled : s.installations.find? pullRequest.installationId = none
      · cases hrecord : recordDelivery s deliveryId "pull_request" with
        | none => exact absurd hknown (recordDelivery_eq_none_iff.mp hrecord)
        | some s₁ =>
            obtain ⟨deliveries, rfl⟩ := recordDelivery_eq_some hrecord
            obtain ⟨s', hinsert, hfind⟩ :=
              insertReviewJob_of_free
                { s with githubDeliveries := deliveries }
                (.fresh jobId (some deliveryId) .pending s.now) hfree
            refine ⟨.enqueued, s', ?_, ?_⟩
            · unfold enqueueReviewJob
              rw [if_neg (not_not.mpr rfl), hrecord]
              simp only
              rw [if_pos hinstalled, hinsert]
              rfl
            · intro _ row hrow headSha hhead
              rw [show jobId = (ReviewJobRow.fresh jobId (some deliveryId) .pending s.now).id
                from rfl, hfind] at hrow
              cases hrow
              cases hhead
      · rcases enqueueReviewJob_of_installed pullRequest traceId hknown hinstalled hfree with
          ⟨_, s', hresult, hfind⟩ | ⟨hunfit, _⟩
        · refine ⟨.enqueued, s', hresult, ?_⟩
          intro _ row hrow headSha hhead
          rw [hfind] at hrow
          cases hrow
          cases hhead
          exact ⟨hinstalled, rfl⟩
        · exact absurd (hfits hinstalled) hunfit
    · refine ⟨.duplicate, s, ?_, ?_⟩
      · unfold enqueueReviewJob
        rw [if_neg (not_not.mpr rfl), recordDelivery_eq_none_iff.mpr hknown]
      · rintro ⟨⟩
  · refine ⟨.ignored, s, ?_, ?_⟩
    · unfold enqueueReviewJob
      rw [if_pos hevent]
    · rintro ⟨⟩

end Enqueued

/-- The jobs after an identified enqueue: the new row, and the older ones superseded. -/
theorem enqueued_find?
    {s : HostedState} {pullRequest : PullRequestIdentity} {deliveryId : String}
    {jobId traceId : Uuid} {reviewJobs : Table ReviewJobRow.id}
    (h : (retirePullRequest s pullRequest.key .superseded).reviewJobs.insert?
      (enqueuedRow jobId traceId deliveryId pullRequest s.now) = some reviewJobs) :
    s.reviewJobs.find? jobId = none ∧
      ∀ j, reviewJobs.find? j =
        if j = jobId then
          some (enqueuedRow jobId traceId deliveryId pullRequest s.now)
        else
          (s.reviewJobs.find? j).map (fun row =>
            if row.ofPullRequest pullRequest.key = true ∧ row.status.active = true then
              { row with status := .superseded, updatedAt := s.now }
            else
              row) := by
  have hfree := (Table.insert?_eq_some h).1
  rw [enqueuedRow_id, retirePullRequest_find?] at hfree
  refine ⟨Option.map_eq_none_iff.mp hfree, ?_⟩
  intro j
  rw [Table.find?_insert? h, enqueuedRow_id, retirePullRequest_find?]

/-- The ways of `cancel_review_job`. -/
theorem cancelReviewJob_cases
    (s : HostedState) (deliveryId eventName : String) (k : PullRequestKey) :
    cancelReviewJob s deliveryId eventName k = (.duplicate, s) ∨
      ∃ deliveries,
        cancelReviewJob s deliveryId eventName k =
          (.cancelled,
            { retirePullRequest s k .cancelled with githubDeliveries := deliveries }) := by
  unfold cancelReviewJob
  cases hrecord : recordDelivery s deliveryId eventName with
  | none =>
      exact .inl rfl
  | some s₁ =>
      obtain ⟨deliveries, rfl⟩ := recordDelivery_eq_some hrecord
      exact .inr ⟨deliveries, rfl⟩

/-! ## Claiming -/

section Claims

variable (hashRunnerCredential : String → String)

/-- The envelope of a row carries its id and the drawn token. -/
theorem jobEnvelope_fields
    {row : ReviewJobRow} {t : String} {e : JobEnvelope}
    (h : jobEnvelope row t = some e) :
    e.jobId = row.id ∧ e.leaseToken = t := by
  unfold jobEnvelope at h
  simp only at h
  split at h
  · split at h
    · cases h
      exact ⟨rfl, rfl⟩
    · cases h
  · cases h

/--
The ways of `claim_job`: no job, because the runner is gone or revoked or no row
is claimable by it; an error; or the lease of a claimable row.
-/
theorem claimJob_cases
    (s : HostedState) (runner : AuthenticatedRunner) (leaseToken : String) (tie : Uuid) :
    (claimJob hashRunnerCredential s runner leaseToken tie = .ok (.noJob, s) ∧
      ((∀ row, s.runners.find? runner.runnerId = some row → row.revokedAt.isSome = true) ∨
        ∀ row ∈ s.reviewJobs.rows, claimableByRunner s runner.runnerId row = false)) ∨
      (∃ e, claimJob hashRunnerCredential s runner leaseToken tie = .error e) ∨
      (∃ row e, s.reviewJobs.find? e.jobId = some row ∧
        claimableByRunner s runner.runnerId row = true ∧
        jobEnvelope row leaseToken = some e ∧
        claimJob hashRunnerCredential s runner leaseToken tie =
          .ok (.envelope e,
            s.alterJob e.jobId
              (fun r =>
                r.leasedToRunner runner.runnerId (hashRunnerCredential leaseToken) s.now)
              (fun r =>
                r.leasedToRunner_id runner.runnerId (hashRunnerCredential leaseToken)
                  s.now))) := by
  unfold claimJob
  cases hrunner : s.runners.find? runner.runnerId with
  | none =>
      refine .inl ⟨rfl, .inl ?_⟩
      rintro row ⟨⟩
  | some runnerRow =>
      simp only
      by_cases hrevoked : runnerRow.revokedAt.isSome = true
      · rw [if_pos hrevoked]
        refine .inl ⟨rfl, .inl ?_⟩
        rintro row ⟨⟩
        exact hrevoked
      · rw [if_neg hrevoked]
        cases hnext :
            nextJob s.reviewJobs.rows (claimableByRunner s runner.runnerId) tie with
        | none =>
            refine .inl ⟨rfl, .inr ?_⟩
            intro row hrow
            exact nextJob_eq_none hnext hrow
        | some row =>
            obtain ⟨hmem, heligible, _⟩ := nextJob_spec hnext
            simp only
            cases henvelope : jobEnvelope row leaseToken with
            | none =>
                exact .inr (.inl ⟨_, rfl⟩)
            | some e =>
                have hid := (jobEnvelope_fields henvelope).1
                refine .inr (.inr ⟨row, e, ?_, heligible, henvelope, ?_⟩)
                · rw [hid]
                  exact Table.find?_of_mem hmem
                · simp only [hid]
                  rfl

end Claims

/-- The ways of `claim_review_job`. -/
theorem claimReviewJob_cases
    (s : HostedState) (workerId : String) (tie : Uuid) :
    claimReviewJob s workerId tie = (none, s) ∨
      ∃ row, s.reviewJobs.find? row.id = some row ∧ row.claimable s.now = true ∧
        claimReviewJob s workerId tie =
          (some (row.leasedToWorker workerId s.now),
            s.alterJob row.id (fun r => r.leasedToWorker workerId s.now)
              (fun r => r.leasedToWorker_id workerId s.now)) := by
  unfold claimReviewJob
  cases hnext : nextJob s.reviewJobs.rows (fun row => row.claimable s.now) tie with
  | none =>
      exact .inl rfl
  | some row =>
      obtain ⟨hmem, heligible, _⟩ := nextJob_spec hnext
      exact .inr ⟨row, Table.find?_of_mem hmem, heligible, rfl⟩

/-! ## Holding a lease -/

/-- A renewal that returned. -/
theorem renewReviewJobLease_eq_ok
    {s s' : HostedState} {jobId : Uuid} {workerId : String}
    (h : renewReviewJobLease s jobId workerId = .ok s') :
    ∃ row, s.reviewJobs.find? jobId = some row ∧ row.heldBy workerId = true ∧
      row.leaseLive s.now = true ∧
      s' =
        s.alterJob jobId
          (fun r =>
            { r with
              lockedUntil := some (s.now + reviewJobLeaseInterval), updatedAt := s.now })
          (fun _ => rfl) := by
  unfold renewReviewJobLease at h
  split at h
  · next hupdate =>
      obtain ⟨row, hrow, hguard, _, rfl⟩ := updateReviewJob_eq_some hupdate
      rw [decide_eq_true_eq] at hguard
      cases h
      exact ⟨row, hrow, hguard.1, hguard.2, rfl⟩
  · cases h

/-- The ways of `heartbeat_job`: the lease is extended, or nothing changes. -/
theorem heartbeatJob_cases
    (hashRunnerCredential : String → String)
    (s : HostedState) (runnerId jobId : Uuid) (leaseToken : String) :
    (∃ row, s.reviewJobs.find? jobId = some row ∧ row.status = .running ∧
      row.leasedUnder runnerId (hashRunnerCredential leaseToken) = true ∧
      row.leaseLive s.now = true ∧
      heartbeatJob hashRunnerCredential s runnerId jobId leaseToken =
        (.active,
          s.alterJob jobId
            (fun r =>
              { r with
                lockedUntil := some (s.now + reviewJobLeaseInterval), updatedAt := s.now })
            (fun _ => rfl))) ∨
      ((heartbeatJob hashRunnerCredential s runnerId jobId leaseToken).1 ≠ .active ∧
        (heartbeatJob hashRunnerCredential s runnerId jobId leaseToken).2 = s) := by
  unfold heartbeatJob
  simp only
  split
  · next hupdate =>
      obtain ⟨row, hrow, hguard, _, rfl⟩ := updateReviewJob_eq_some hupdate
      rw [decide_eq_true_eq] at hguard
      exact .inl ⟨row, hrow, hguard.1, hguard.2.1, hguard.2.2, rfl⟩
  · right
    split
    · exact ⟨by rintro ⟨⟩, rfl⟩
    · split
      · exact ⟨by rintro ⟨⟩, rfl⟩
      · exact ⟨by rintro ⟨⟩, rfl⟩

/-- `heartbeat_job` answers "active" for a running row under a live lease of the caller. -/
theorem heartbeatJob_active_iff
    {hashRunnerCredential : String → String} {s : HostedState} {runnerId j : Uuid} {t : String} :
    (heartbeatJob hashRunnerCredential s runnerId j t).1 = .active ↔
      ∃ row, s.reviewJobs.find? j = some row ∧ row.status = .running ∧
        row.leasedUnder runnerId (hashRunnerCredential t) = true ∧
        row.leaseLive s.now = true := by
  constructor
  · intro h
    unfold heartbeatJob at h
    simp only at h
    split at h
    · next hupdate =>
        obtain ⟨row, hrow, hguard, _, _⟩ := updateReviewJob_eq_some hupdate
        rw [decide_eq_true_eq] at hguard
        exact ⟨row, hrow, hguard⟩
    · split at h
      · cases h
      · split at h
        · cases h
        · cases h
  · rintro ⟨row, hrow, hguard⟩
    unfold heartbeatJob updateReviewJob
    simp only [hrow, decide_eq_true_eq]
    rw [if_pos hguard]

/-! ## Finishing and reviving -/

/-- A completion that returned. -/
theorem completeReviewJob_eq_ok
    {s s' : HostedState} {jobId : Uuid} {workerId : String}
    (h : completeReviewJob s jobId workerId = .ok s') :
    ∃ row, s.reviewJobs.find? jobId = some row ∧ row.heldBy workerId = true ∧
      s' =
        s.alterJob jobId
          (fun r =>
            { r with
              status := .succeeded
              lockedBy := none
              lockedUntil := none
              updatedAt := s.now })
          (fun _ => rfl) := by
  unfold completeReviewJob at h
  split at h
  · next hupdate =>
      obtain ⟨row, hrow, hguard, _, rfl⟩ := updateReviewJob_eq_some hupdate
      cases h
      exact ⟨row, hrow, hguard, rfl⟩
  · cases h

/-- A failure report that returned: the row, and an event that is no acknowledgement. -/
theorem failReviewJob_eq_ok
    {s s' : HostedState} {jobId : Uuid} {workerId : String} {error : ReviewJobErrorClass}
    (h : failReviewJob s jobId workerId error = .ok s') :
    ∃ row eventType payload, s.reviewJobs.find? jobId = some row ∧
      row.heldBy workerId = true ∧ eventType ≠ reviewJobAcknowledged ∧
      s' =
        insertAgentEvent
          (s.alterJob jobId (fun r => r.failedOnce error s.now)
            (fun r => r.failedOnce_id error s.now))
          jobId eventType payload := by
  unfold failReviewJob at h
  split at h
  · next row' s₁ hupdate =>
      obtain ⟨row, hrow, hguard, _, rfl⟩ := updateReviewJob_eq_some hupdate
      cases h
      refine ⟨row, _, _, hrow, hguard, ?_, rfl⟩
      split
      · decide
      · decide
  · cases h

@[simp] theorem insertAgentEvent_reviewJobs
    (s : HostedState) (jobId : Uuid) (eventType : String) (payload : AgentEventPayload) :
    (insertAgentEvent s jobId eventType payload).reviewJobs = s.reviewJobs := by
  rfl

theorem insertAgentEvent_agentEvents
    (s : HostedState) (jobId : Uuid) (eventType : String) (payload : AgentEventPayload) :
    ∃ event : AgentEventRow, event.reviewJobId = jobId ∧ event.eventType = eventType ∧
      (insertAgentEvent s jobId eventType payload).agentEvents = s.agentEvents ++ [event] := by
  refine ⟨_, ?_, ?_, rfl⟩
  · rfl
  · rfl

/-- The row an accepted acknowledgement leaves, and the event beside it. -/
def acknowledgedState
    (s : HostedState)
    (jobId : Uuid)
    (ack : JobAcknowledgement) :
    HostedState :=
  insertAgentEvent
    (s.alterJob jobId (fun row => row.acknowledged ack s.now) (acknowledgedRow_id ack s))
    jobId reviewJobAcknowledged (.acknowledged ack)

/-- The four ways of an `acknowledge_job` call. -/
theorem acknowledgeJob_cases
    (hashRunnerCredential : String → String)
    (s : HostedState) (runnerId jobId : Uuid) (leaseToken : String)
    (ack : JobAcknowledgement) :
    acknowledgeJob hashRunnerCredential s runnerId jobId leaseToken ack =
        .error .jobProtocolDenied ∨
      (∃ row, s.reviewJobs.find? jobId = some row ∧
        row.leasedUnder runnerId (hashRunnerCredential leaseToken) = true ∧
        (row.status = .succeeded ∨ row.status = .failed) ∧
        acknowledgeJob hashRunnerCredential s runnerId jobId leaseToken ack =
          .ok (.alreadyFinished, s)) ∨
      (∃ row e, s.reviewJobs.find? jobId = some row ∧
        row.leasedUnder runnerId (hashRunnerCredential leaseToken) = true ∧
        row.status = .running ∧ row.leaseLive s.now = true ∧
        acknowledgementRefusal ack = some e ∧
        acknowledgeJob hashRunnerCredential s runnerId jobId leaseToken ack = .error e) ∨
      (∃ row, s.reviewJobs.find? jobId = some row ∧
        row.leasedUnder runnerId (hashRunnerCredential leaseToken) = true ∧
        row.status = .running ∧ row.leaseLive s.now = true ∧
        acknowledgementRefusal ack = none ∧
        acknowledgeJob hashRunnerCredential s runnerId jobId leaseToken ack =
          .ok (.accepted, acknowledgedState s jobId ack)) := by
  unfold acknowledgeJob
  cases hrow : s.reviewJobs.find? jobId with
  | none =>
      exact .inl rfl
  | some row =>
      simp only
      by_cases hleased : row.leasedUnder runnerId (hashRunnerCredential leaseToken) = true
      · rw [if_neg (not_not.mpr hleased)]
        by_cases hfinished : row.status = .succeeded ∨ row.status = .failed
        · rw [if_pos hfinished]
          exact .inr (.inl ⟨row, rfl, hleased, hfinished, rfl⟩)
        · rw [if_neg hfinished]
          by_cases hlive : row.status = .running ∧ row.leaseLive s.now = true
          · rw [if_neg (not_not.mpr hlive)]
            cases hrefusal : acknowledgementRefusal ack with
            | some e =>
                exact .inr (.inr (.inl ⟨row, e, rfl, hleased, hlive.1, hlive.2, rfl, rfl⟩))
            | none => exact .inr (.inr (.inr ⟨row, rfl, hleased, hlive.1, hlive.2, rfl, rfl⟩))
          · rw [if_pos hlive]
            exact .inl rfl
      · rw [if_pos hleased]
        exact .inl rfl

/-- An acknowledgement that can be written, of a running job under its live lease. -/
theorem acknowledgeJob_of_live
    {hashRunnerCredential : String → String}
    {s : HostedState} {runnerId jobId : Uuid} {leaseToken : String}
    {ack : JobAcknowledgement} {row : ReviewJobRow}
    (hrow : s.reviewJobs.find? jobId = some row)
    (hleased : row.leasedUnder runnerId (hashRunnerCredential leaseToken) = true)
    (hrunning : row.status = .running)
    (hlive : row.leaseLive s.now = true)
    (hwritten : acknowledgementRefusal ack = none) :
    acknowledgeJob hashRunnerCredential s runnerId jobId leaseToken ack =
      .ok (.accepted, acknowledgedState s jobId ack) := by
  unfold acknowledgeJob
  rw [hrow]
  simp only
  rw [if_neg (not_not.mpr hleased), if_neg (by rw [hrunning]; decide),
    if_neg (not_not.mpr ⟨hrunning, hlive⟩), hwritten]
  rfl

theorem acknowledged_status
    (row : ReviewJobRow) (ack : JobAcknowledgement) (now : Nat) :
    (row.acknowledged ack now).status = .succeeded ∨
      (row.acknowledged ack now).status = .failed := by
  cases hstate : ack.terminalState with
  | succeeded =>
      left
      simp only [ReviewJobRow.acknowledged, hstate]
  | failed =>
      right
      simp only [ReviewJobRow.acknowledged, hstate]

theorem acknowledgedState_find?
    (s : HostedState) (jobId : Uuid) (ack : JobAcknowledgement) (j : Uuid) :
    (acknowledgedState s jobId ack).reviewJobs.find? j =
      if j = jobId then (s.reviewJobs.find? j).map (fun row => row.acknowledged ack s.now)
      else s.reviewJobs.find? j :=
  s.alterJob_find? jobId (fun row => row.acknowledged ack s.now)
    (fun row => row.acknowledged_id ack s.now) j

/-- A requeue that returned found a failed row and rewrote it. -/
theorem requeueReviewJob_eq_ok
    {s s' : HostedState} {jobId : Uuid}
    (h : requeueReviewJob s jobId = .ok s') :
    ∃ row, s.reviewJobs.find? jobId = some row ∧ row.status = .failed ∧
      headTaken s jobId row = false ∧
      s' = s.alterJob jobId (fun r => r.requeued s.now) (fun r => r.requeued_id s.now) := by
  unfold requeueReviewJob at h
  split at h
  · cases h
  · next row hrow =>
      split at h
      · cases h
      · next hfailed =>
          rw [not_not] at hfailed
          split at h
          · cases h
          · next hfree =>
              cases h
              exact ⟨row, hrow, hfailed, by simpa using hfree, rfl⟩

/-- A requeue of a failed row whose head is free returns. -/
theorem requeueReviewJob_of_failed
    {s : HostedState} {jobId : Uuid} {row : ReviewJobRow}
    (hrow : s.reviewJobs.find? jobId = some row)
    (hfailed : row.status = .failed)
    (hfree : headTaken s jobId row = false) :
    requeueReviewJob s jobId =
      .ok (s.alterJob jobId (fun r => r.requeued s.now) (fun r => r.requeued_id s.now)) := by
  unfold requeueReviewJob
  rw [hrow]
  simp only [hfailed, hfree]
  rfl

end Hosted
end PrReviewer
