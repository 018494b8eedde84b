import PrReviewer.Hosted.LeaseExclusivity

/-!
# One active job per pull request

A run is followed together with its history: the job of the delivery that was
enqueued last for each pull request.  An enqueue supersedes the older active jobs
of its pull request, and nothing else makes a job active except a requeue.  The
index that guards a requeue covers equal heads only, so a failed job of an older
head comes back beside the newer one.  A run keeps one active job per pull
request, the one enqueued last, exactly when its requeues are of such jobs.
-/

namespace PrReviewer
namespace Hosted

open Lib

/-- The job of the last delivery enqueued for each pull request. -/
abbrev LatestJobs := PullRequestKey → Option Uuid

/-- The history after a step: an enqueue that stored a job is the latest of its pull request. -/
def noteLatest
    (latest : LatestJobs)
    (s : HostedState) :
    HostedAction → LatestJobs
  | .enqueueReviewJob deliveryId eventName (some pullRequest) jobId traceId =>
      match
          enqueueReviewJob s deliveryId eventName (some pullRequest) jobId traceId with
      | .ok (.enqueued, _) => Function.update latest pullRequest.key (some jobId)
      | _ => latest
  | _ => latest

/-- At most one active job for each pull request, and that one enqueued last. -/
def OneActiveJob (x : HostedState × LatestJobs) : Prop :=
  ∀ k : PullRequestKey,
    (∀ row ∈ x.1.reviewJobs.rows, ∀ row' ∈ x.1.reviewJobs.rows,
      row.ofPullRequest k = true → row'.ofPullRequest k = true →
      row.status.active = true → row'.status.active = true → row = row') ∧
    ∀ row ∈ x.1.reviewJobs.rows,
      row.ofPullRequest k = true → row.status.active = true → x.2 k = some row.id

/-- A requeue that would return is of the job enqueued last for its pull request. -/
def RequeuesLatest (x : HostedState × LatestJobs) (a : HostedAction) : Prop :=
  ∀ jobId row k, a = .requeueReviewJob jobId →
    x.1.reviewJobs.find? jobId = some row → row.status = .failed →
    headTaken x.1 jobId row = false → row.ofPullRequest k = true →
    x.2 k = some jobId

/-- Every active row of a pull request is its latest job. -/
def ActiveAreLatest (x : HostedState × LatestJobs) : Prop :=
  ∀ j row k, x.1.reviewJobs.find? j = some row → row.ofPullRequest k = true →
    row.status.active = true → x.2 k = some j

/-- The foreign key of `review_jobs.installation_id`. -/
def InstallationsKnown (s : HostedState) : Prop :=
  ∀ j row i, s.reviewJobs.find? j = some row → row.installationId = some i →
    s.installations.find? i ≠ none

theorem ofPullRequest_eq_true
    {row : ReviewJobRow} {k : PullRequestKey} :
    row.ofPullRequest k = true ↔
      row.installationId = some k.installationId ∧
        row.githubRepositoryId = some k.githubRepositoryId ∧
        row.pullRequestNumber = some k.pullRequestNumber := by
  simp only [ReviewJobRow.ofPullRequest, decide_eq_true_eq]

/-- The row enqueued for an identified pull request belongs to that one only. -/
theorem enqueuedRow_ofPullRequest
    {jobId traceId : Uuid} {deliveryId : String} {pullRequest : PullRequestIdentity}
    {now : Nat} {k : PullRequestKey}
    (h : (enqueuedRow jobId traceId deliveryId pullRequest now).ofPullRequest k = true) :
    pullRequest.key = k := by
  obtain ⟨hinstallation, hrepository, hnumber⟩ := ofPullRequest_eq_true.mp h
  cases k
  cases hinstallation
  cases hrepository
  cases hnumber
  rfl

theorem fresh_ofPullRequest
    {jobId : Uuid} {deliveryId : Option String} {status : ReviewJobStatus} {now : Nat}
    {k : PullRequestKey} :
    (ReviewJobRow.fresh jobId deliveryId status now).ofPullRequest k = false := by
  rw [Bool.eq_false_iff]
  intro h
  have hinstallation := (ofPullRequest_eq_true.mp h).1
  cases hinstallation

theorem oneActiveJob_of_activeAreLatest
    {x : HostedState × LatestJobs}
    (h : ActiveAreLatest x) :
    OneActiveJob x := by
  intro k
  have hlatest :
      ∀ row ∈ x.1.reviewJobs.rows,
        row.ofPullRequest k = true → row.status.active = true → x.2 k = some row.id := by
    intro row hrow hpr hactive
    exact h row.id row k (Table.find?_of_mem hrow) hpr hactive
  refine ⟨?_, hlatest⟩
  intro row hrow row' hrow' hpr hpr' hactive hactive'
  have hid := hlatest row hrow hpr hactive
  have hid' := hlatest row' hrow' hpr' hactive'
  rw [hid] at hid'
  exact x.1.reviewJobs.eq_of_key_eq hrow hrow' (Option.some.inj hid')

section Steps

variable {hashRunnerCredential : String → String}

/-- A body that is written has a known installation. -/
theorem writesSummary_installed
    {s : HostedState} {a : HostedAction} {body : PushedReviewSummaryBody}
    (h : a.writesSummary hashRunnerCredential s = some body) :
    s.installations.find? body.installationId ≠ none := by
  have hwritable : body.writable s = true := by
    cases a with
    | savePushedReviewSummary body' =>
        simp only [HostedAction.writesSummary] at h
        split at h
        · next hwritable =>
            cases h
            exact hwritable
        · cases h
    | pushReviewSummary bearer body' =>
        simp only [HostedAction.writesSummary] at h
        split at h
        · cases h
        · split at h
          · cases h
          · split at h
            · next hwritable =>
                cases h
                exact hwritable
            · cases h
    | _ =>
        cases h
  simp only [PushedReviewSummaryBody.writable, decide_eq_true_eq] at hwritable
  exact hwritable.1

/-- Where the installation of a row after a step comes from. -/
theorem RowChange.installationId
    {s : HostedState} {j : Uuid} {a : HostedAction}
    {row? : Option ReviewJobRow} {row' : ReviewJobRow} {i : Int}
    (h : RowChange hashRunnerCredential s j a row? (some row'))
    (hi : row'.installationId = some i) :
    (∃ row, row? = some row ∧ row.installationId = some i) ∨
      s.installations.find? i ≠ none := by
  generalize hrow : some row' = after at h
  cases h with
  | unchanged =>
      exact .inl ⟨row', hrow.symm, hi⟩
  | enqueuedBare =>
      cases hrow
      cases hi
  | enqueued hinstalled =>
      cases hrow
      cases hi
      exact .inr hinstalled
  | pushed hbody hid =>
      cases hrow
      cases hi
      exact .inr (writesSummary_installed hbody)
  | overwritten hbody hid =>
      cases hrow
      cases hi
      exact .inr (writesSummary_installed hbody)
  | _ =>
      cases hrow
      exact .inl ⟨_, rfl, hi⟩

theorem step_installationsKnown
    {s : HostedState}
    (a : HostedAction)
    (h : InstallationsKnown s) :
    InstallationsKnown (step hashRunnerCredential s a) := by
  intro j row' i hrow' hi
  have hchange := step_rowChange hashRunnerCredential s a j
  rw [hrow'] at hchange
  apply step_installation_known
  rcases hchange.installationId hi with ⟨row, hrow, hbefore⟩ | hknown
  · exact h j row i hrow hbefore
  · exact hknown

/-- Apart from an enqueue, a step makes a row active only by requeueing it. -/
theorem RowChange.active_before
    {s : HostedState} {j : Uuid} {a : HostedAction}
    {row? : Option ReviewJobRow} {row' : ReviewJobRow} {k : PullRequestKey}
    (hnotEnqueue : ∀ deliveryId eventName identity jobId traceId,
      a ≠ .enqueueReviewJob deliveryId eventName identity jobId traceId)
    (h : RowChange hashRunnerCredential s j a row? (some row'))
    (hpr : row'.ofPullRequest k = true)
    (hactive : row'.status.active = true) :
    (∃ row, row? = some row ∧ row.ofPullRequest k = true ∧ row.status.active = true) ∨
      (∃ row, row? = some row ∧ a = .requeueReviewJob j ∧ row.status = .failed ∧
        headTaken s j row = false ∧ row.ofPullRequest k = true) := by
  generalize hrow : some row' = after at h
  cases h with
  | unchanged =>
      exact .inl ⟨row', hrow.symm, hpr, hactive⟩
  | enqueuedBare =>
      exact absurd rfl (hnotEnqueue _ _ _ _ _)
  | enqueued hinstalled =>
      exact absurd rfl (hnotEnqueue _ _ _ _ _)
  | superseded hprBefore hactiveBefore =>
      exact absurd rfl (hnotEnqueue _ _ _ _ _)
  | cancelled hprBefore hactiveBefore =>
      cases hrow
      cases hactive
  | leasedToRunner hclaimable henvelope =>
      cases hrow
      have hactiveBefore :=
        ReviewJobRow.active_of_claimable (claimable_of_claimableByRunner hclaimable)
      exact .inl ⟨_, rfl, hpr, hactiveBefore⟩
  | leasedToWorker hclaimable =>
      cases hrow
      exact .inl ⟨_, rfl, hpr, ReviewJobRow.active_of_claimable hclaimable⟩
  | renewed hheld hlive =>
      cases hrow
      exact .inl ⟨_, rfl, hpr, hactive⟩
  | beaten hrunning hleased hlive =>
      cases hrow
      exact .inl ⟨_, rfl, hpr, hactive⟩
  | acknowledged hleased hrunning hlive hwritten =>
      cases hrow
      exact .inl ⟨_, rfl, hpr, by rw [hrunning]; rfl⟩
  | completed hheld =>
      cases hrow
      cases hactive
  | failedOnce hheld =>
      cases hrow
      have hrunning := ReviewJobRow.running_of_heldBy hheld
      exact .inl ⟨_, rfl, hpr, by rw [hrunning]; rfl⟩
  | requeued hfailed hfree =>
      cases hrow
      exact .inr ⟨_, rfl, rfl, hfailed, hfree, hpr⟩
  | pushed hbody hid =>
      cases hrow
      rw [pushedRow, ReviewJobRow.overwrittenBy_inactive] at hactive
      cases hactive
  | overwritten hbody hid =>
      cases hrow
      rw [ReviewJobRow.overwrittenBy_inactive] at hactive
      cases hactive

/-- The invariant of a run: the active rows are the latest, and the foreign key. -/
def ActiveJobsInv (x : HostedState × LatestJobs) : Prop :=
  ActiveAreLatest x ∧ InstallationsKnown x.1

/-- An enqueue keeps the active rows the latest ones. -/
theorem enqueue_activeAreLatest
    {x : HostedState × LatestJobs}
    (deliveryId eventName : String) (identity : Option PullRequestIdentity)
    (jobId traceId : Uuid)
    (h : ActiveJobsInv x) :
    ActiveAreLatest
      (withHistory (step hashRunnerCredential) noteLatest x
        (.enqueueReviewJob deliveryId eventName identity jobId traceId)) := by
  obtain ⟨hlatest, hknown⟩ := h
  intro j row k hrow hpr hactive
  simp only [withHistory] at hrow ⊢
  rcases enqueueReviewJob_cases x.1 deliveryId eventName identity jobId traceId with
    ⟨e, he⟩ | ⟨result, hother, hresult⟩ |
      ⟨deliveries, reviewJobs, _, hunknown, hinsert, hresult⟩ |
      ⟨pullRequest, deliveries, reviewJobs, _, rfl, _, hinsert, hresult⟩
  · -- nothing was committed
    simp only [step, he] at hrow
    have hnote : noteLatest x.2 x.1
        (.enqueueReviewJob deliveryId eventName identity jobId traceId) = x.2 := by
      cases identity with
      | none => rfl
      | some pullRequest => simp only [noteLatest, he]
    rw [hnote]
    exact hlatest j row k hrow hpr hactive
  · simp only [step, hresult] at hrow
    have hnote : noteLatest x.2 x.1
        (.enqueueReviewJob deliveryId eventName identity jobId traceId) = x.2 := by
      cases identity with
      | none => rfl
      | some pullRequest =>
          cases result with
          | enqueued => exact absurd rfl hother
          | duplicate => simp only [noteLatest, hresult]
          | ignored => simp only [noteLatest, hresult]
    rw [hnote]
    exact hlatest j row k hrow hpr hactive
  · -- a bare row belongs to no pull request, and its pull request has no other row
    simp only [step, hresult, Except.map, HostedState.commit] at hrow
    rw [Table.find?_insert? hinsert] at hrow
    split at hrow
    · cases hrow
      rw [fresh_ofPullRequest] at hpr
      cases hpr
    · have hbefore := hlatest j row k hrow hpr hactive
      cases identity with
      | none =>
          exact hbefore
      | some pullRequest =>
          simp only [noteLatest, hresult]
          have hne : k ≠ pullRequest.key := by
            rintro rfl
            have hinstallation := (ofPullRequest_eq_true.mp hpr).1
            exact hknown j row _ hrow hinstallation (hunknown pullRequest rfl)
          rw [Function.update_of_ne hne]
          exact hbefore
  · -- the older active rows of the pull request were superseded
    simp only [step, hresult, Except.map, HostedState.commit] at hrow
    simp only [noteLatest, hresult]
    rw [(enqueued_find? hinsert).2] at hrow
    split at hrow
    · next hj =>
        cases hrow
        rw [← enqueuedRow_ofPullRequest hpr, Function.update_self, hj]
    · rw [Option.map_eq_some_iff] at hrow
      obtain ⟨old, hold, rfl⟩ := hrow
      split at hactive
      · cases hactive
      · next hguard =>
          rw [if_neg hguard] at hpr
          have hne : k ≠ pullRequest.key := by
            rintro rfl
            exact hguard ⟨hpr, hactive⟩
          rw [Function.update_of_ne hne]
          exact hlatest j old k hold hpr hactive

theorem step_activeJobsInv
    (x : HostedState × LatestJobs)
    (a : HostedAction)
    (h : ActiveJobsInv x)
    (hrequeues : RequeuesLatest x a) :
    ActiveJobsInv (withHistory (step hashRunnerCredential) noteLatest x a) := by
  refine ⟨?_, step_installationsKnown a h.2⟩
  by_cases henqueue : ∃ deliveryId eventName identity jobId traceId,
      a = .enqueueReviewJob deliveryId eventName identity jobId traceId
  · obtain ⟨deliveryId, eventName, identity, jobId, traceId, rfl⟩ := henqueue
    exact enqueue_activeAreLatest deliveryId eventName identity jobId traceId h
  · have hnotEnqueue : ∀ deliveryId eventName identity jobId traceId,
        a ≠ .enqueueReviewJob deliveryId eventName identity jobId traceId := by
      intro deliveryId eventName identity jobId traceId ha
      exact henqueue ⟨deliveryId, eventName, identity, jobId, traceId, ha⟩
    have hnote : noteLatest x.2 x.1 a = x.2 := by
      cases a with
      | enqueueReviewJob deliveryId eventName identity jobId traceId =>
          exact absurd rfl (hnotEnqueue _ _ _ _ _)
      | _ => rfl
    intro j row' k hrow' hpr hactive
    have hchange := step_rowChange hashRunnerCredential x.1 a j
    rw [show (step hashRunnerCredential x.1 a).reviewJobs.find? j = some row' from hrow']
      at hchange
    simp only [withHistory, hnote]
    rcases hchange.active_before hnotEnqueue hpr hactive with
      ⟨row, hrow, hprBefore, hactiveBefore⟩ | ⟨row, hrow, rfl, hfailed, hfree, hprBefore⟩
    · exact h.1 j row k hrow hprBefore hactiveBefore
    · exact hrequeues j row k rfl hrow hfailed hfree hprBefore

variable (hashRunnerCredential) in
/-- A requeue that returns leaves its row active. -/
theorem step_requeued_active
    {s : HostedState} {jobId : Uuid} {row : ReviewJobRow}
    (hrow : s.reviewJobs.find? jobId = some row)
    (hfailed : row.status = .failed)
    (hfree : headTaken s jobId row = false) :
    (step hashRunnerCredential s (.requeueReviewJob jobId)).reviewJobs.find? jobId =
      some (row.requeued s.now) := by
  simp only [step, requeueReviewJob_of_failed hrow hfailed hfree, HostedState.commit]
  rw [HostedState.alterJob_find?, if_pos rfl, hrow]
  rfl

/--
**One active job per pull request.**  In every state of a run from the empty
store there is at most one active job for each pull request, the one enqueued
last, exactly when every requeue of the run that returns is of the job enqueued
last for its pull request.
-/
theorem oneActiveJob_iff_requeuesLatest
    (actions : List HostedAction) :
    Throughout (withHistory (step hashRunnerCredential) noteLatest) OneActiveJob
        (HostedState.empty, fun _ => none) actions ↔
      Along (withHistory (step hashRunnerCredential) noteLatest) RequeuesLatest
        (HostedState.empty, fun _ => none) actions := by
  constructor
  · intro hone
    rw [along_iff_split]
    rintro before a rest rfl jobId row k rfl hrow hfailed hfree hpr
    rw [throughout_iff_split] at hone
    have hafter :=
      hone (before ++ [.requeueReviewJob jobId]) rest (by simp) k
    rw [exec_append] at hafter
    have hrow' := step_requeued_active hashRunnerCredential hrow hfailed hfree
    have hlatest := hafter.2 (row.requeued _) (Table.mem_of_find? hrow') hpr rfl
    have hid : row.id = jobId := Table.key_of_find? hrow
    rw [ReviewJobRow.requeued_id, hid] at hlatest
    exact hlatest
  · intro hrequeues
    have hstart : ActiveJobsInv (HostedState.empty, fun _ => none) := by
      refine ⟨?_, ?_⟩
      · rintro j row k ⟨⟩
      · rintro j row i ⟨⟩
    have hinv := throughout_invariant step_activeJobsInv hrequeues hstart
    rw [throughout_iff_split] at hinv ⊢
    intro before rest hsplit
    exact oneActiveJob_of_activeAreLatest (hinv before rest hsplit).1

end Steps

def secondJobId : Uuid := ⟨"cccccccc-0000-4000-8000-000000000002", by decide⟩

/-- The acknowledgement of a review that failed. -/
def failedAcknowledgement : JobAcknowledgement where
  terminalState := .failed
  errorClass := some "provider_error"
  inputTokens := 0
  outputTokens := 0
  costUsd := { text := "0" }
  latencyMs := 1
  localResultHash := "hash"
  localResultHash_ne := by decide

/-- The job of a first head fails, a second head is pushed, and the first is requeued. -/
def requeuedAfterNewHead : List HostedAction :=
  pairLaptop ++
    [enqueueHead "delivery-1" firstJobId "head-1" firstHead_ne,
      .claimJob laptopRunner "lease-1" firstJobId,
      .acknowledgeJob laptopRunner.runnerId firstJobId "lease-1" failedAcknowledgement,
      enqueueHead "delivery-2" secondJobId "head-2" (by decide),
      .requeueReviewJob firstJobId]

/-- Both jobs of the pull request are active at the end. -/
theorem two_active_after_requeue :
    ¬ OneActiveJob
        (exec (withHistory (step sampleHash) noteLatest)
          (HostedState.empty, fun _ => none) requeuedAfterNewHead) := by
  intro hone
  have htwo :
      ∃ row ∈ (exec (step sampleHash) HostedState.empty requeuedAfterNewHead).reviewJobs.rows,
        ∃ row' ∈
            (exec (step sampleHash) HostedState.empty requeuedAfterNewHead).reviewJobs.rows,
          row.ofPullRequest (headOfSeven "head-1" (by decide)).key = true ∧
            row'.ofPullRequest (headOfSeven "head-1" (by decide)).key = true ∧
            row.status.active = true ∧ row'.status.active = true ∧ row.id ≠ row'.id := by
    decide
  obtain ⟨row, hrow, row', hrow', hpr, hpr', hactive, hactive', hne⟩ := htwo
  rw [← exec_withHistory_fst (step sampleHash) noteLatest
    (HostedState.empty, fun _ => none) requeuedAfterNewHead] at hrow hrow'
  have hsame :=
    (hone (headOfSeven "head-1" (by decide)).key).1 row hrow row' hrow' hpr hpr' hactive
      hactive'
  rw [hsame] at hne
  exact hne rfl

end Hosted
end PrReviewer
