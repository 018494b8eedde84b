import PrReviewer.Hosted.RepositoryPolicy

/-!
# The hosted queue: the operations of jobs/

`enqueue_review_job`, `cancel_review_job`, `claim_review_job`,
`renew_review_job_lease`, `complete_review_job`, `fail_review_job` and
`requeue_review_job`, each as one transaction on the hosted state.  A raised
error rolls the transaction back, so an operation returns either its result with
the new state, or the error alone.

`order by available_at, created_at limit 1` leaves the choice between rows with
equal keys to the database; `tie` names the row it prefers among those.
-/

namespace PrReviewer
namespace Hosted

open Lib

/-- `REVIEW_JOB_LEASE_INTERVAL`: five minutes. -/
def reviewJobLeaseInterval : Nat := 5 * 60 * 1000000

/-- `REVIEW_JOB_RETRY_INTERVAL`: one minute. -/
def reviewJobRetryInterval : Nat := 60 * 1000000

/-- `MAX_REVIEW_JOB_ATTEMPTS`. -/
def maxReviewJobAttempts : Nat := 3

/-- `DEFAULT_POLICY_VERSION`. -/
def defaultPolicyVersion : String := "v1"

/-- `DEFAULT_BUDGET_MAX_TOKENS`. -/
def defaultBudgetMaxTokens : Nat := 100000

/-- `DEFAULT_BUDGET_MAX_COST_USD`. -/
def defaultBudgetMaxCostUsd : Decimal := { text := "1.000000" }

/-- What `_pull_request_identity` returns for a payload that names a pull request. -/
@[ext]
structure PullRequestIdentity where
  installationId : Int
  githubRepositoryId : Int
  pullRequestNumber : Int
  baseSha : String
  headSha : String
  pullRequestNumber_pos : 0 < pullRequestNumber
  baseSha_ne : baseSha ≠ ""
  headSha_ne : headSha ≠ ""
deriving Repr

instance : DecidableEq PullRequestIdentity :=
  fun _ _ => decidable_of_iff _ PullRequestIdentity.ext_iff.symm

/-- (installation, numeric repository id, number): the pull request a row belongs to. -/
structure PullRequestKey where
  installationId : Int
  githubRepositoryId : Int
  pullRequestNumber : Int
deriving DecidableEq, Repr

def PullRequestIdentity.key (identity : PullRequestIdentity) : PullRequestKey where
  installationId := identity.installationId
  githubRepositoryId := identity.githubRepositoryId
  pullRequestNumber := identity.pullRequestNumber

/-- The row's identity columns are the three of `k`, none of them null. -/
def ReviewJobRow.ofPullRequest (row : ReviewJobRow) (k : PullRequestKey) : Bool :=
  row.installationId = some k.installationId ∧
    row.githubRepositoryId = some k.githubRepositoryId ∧
    row.pullRequestNumber = some k.pullRequestNumber

/-- A freshly inserted row, with the column defaults of the schema. -/
def ReviewJobRow.fresh
    (id : Uuid)
    (deliveryId : Option String)
    (status : ReviewJobStatus)
    (now : Nat) :
    ReviewJobRow where
  id := id
  deliveryId := deliveryId
  status := status
  attempts := 0
  availableAt := now
  lockedBy := none
  lockedUntil := none
  lastError := none
  installationId := none
  githubRepositoryId := none
  pullRequestNumber := none
  baseSha := none
  headSha := none
  policyVersion := none
  budgetMaxTokens := none
  budgetMaxCostUsd := none
  traceId := none
  leaseTokenHash := none
  createdAt := now
  updatedAt := now

/-- `insert into review_jobs …`, refused when the drawn id is taken. -/
def insertReviewJob
    (s : HostedState)
    (row : ReviewJobRow) :
    Except HostedError HostedState :=
  match s.reviewJobs.insert? row with
  | some reviewJobs => .ok { s with reviewJobs := reviewJobs }
  | none => .error .uniqueViolation

/-- `insert into github_deliveries … on conflict (id) do nothing returning id`. -/
def recordDelivery
    (s : HostedState)
    (deliveryId eventName : String) :
    Option HostedState :=
  (s.githubDeliveries.insert? { id := deliveryId, eventName := eventName }).map
    (fun deliveries => { s with githubDeliveries := deliveries })

/-- Mark the pending and running rows of one pull request. -/
def retirePullRequest
    (s : HostedState)
    (k : PullRequestKey)
    (status : ReviewJobStatus) :
    HostedState :=
  { s with
    reviewJobs :=
      s.reviewJobs.updateWhere
        (fun row => row.ofPullRequest k ∧ row.status.active)
        (fun row => { row with status := status, updatedAt := s.now })
        (fun _ => rfl) }

/-- `EnqueueReviewJobResult`. -/
inductive EnqueueReviewJobResult where
  | enqueued
  | duplicate
  | ignored
deriving DecidableEq, Repr

/-- The row `enqueue_review_job` inserts for an identified pull request. -/
def enqueuedRow
    (jobId traceId : Uuid)
    (deliveryId : String)
    (identity : PullRequestIdentity)
    (now : Nat) :
    ReviewJobRow :=
  { ReviewJobRow.fresh jobId (some deliveryId) .pending now with
    installationId := some identity.installationId
    githubRepositoryId := some identity.githubRepositoryId
    pullRequestNumber := some identity.pullRequestNumber
    baseSha := some identity.baseSha
    headSha := some identity.headSha
    policyVersion := some defaultPolicyVersion
    budgetMaxTokens := some defaultBudgetMaxTokens
    budgetMaxCostUsd := some defaultBudgetMaxCostUsd
    traceId := some traceId }

@[simp] theorem enqueuedRow_id
    (jobId traceId : Uuid) (deliveryId : String)
    (identity : PullRequestIdentity) (now : Nat) :
    (enqueuedRow jobId traceId deliveryId identity now).id = jobId := by
  rfl

/--
`enqueue_review_job`.  `identity` is what `_pull_request_identity` reads off the
payload; `jobId` and `traceId` are the ids drawn for the new row.
-/
def enqueueReviewJob
    (s : HostedState)
    (deliveryId eventName : String)
    (identity : Option PullRequestIdentity)
    (jobId traceId : Uuid) :
    Except HostedError (EnqueueReviewJobResult × HostedState) :=
  if eventName ≠ "pull_request" then
    .ok (.ignored, s)
  else
    match recordDelivery s deliveryId eventName with
    | none => .ok (.duplicate, s)
    | some s₁ =>
        let minimal :=
          (insertReviewJob s₁ (.fresh jobId (some deliveryId) .pending s.now)).map
            (fun s₂ => (EnqueueReviewJobResult.enqueued, s₂))
        match identity with
        | none => minimal
        | some identity =>
            if s.installations.find? identity.installationId = none then
              minimal
            else if ¬ (fitsText identity.baseSha ∧ fitsText identity.headSha) then
              .error .dataError
            else if
                ¬ (fitsBigint identity.githubRepositoryId ∧
                  fitsInteger identity.pullRequestNumber) then
              .error .numericValueOutOfRange
            else
              (insertReviewJob (retirePullRequest s₁ identity.key .superseded)
                  (enqueuedRow jobId traceId deliveryId identity s.now)).map
                (fun s₂ => (.enqueued, s₂))

/-- `CancelReviewJobResult`. -/
inductive CancelReviewJobResult where
  | cancelled
  | duplicate
deriving DecidableEq, Repr

/-- `cancel_review_job` of a delivery for the pull request `k`. -/
def cancelReviewJob
    (s : HostedState)
    (deliveryId eventName : String)
    (k : PullRequestKey) :
    CancelReviewJobResult × HostedState :=
  match recordDelivery s deliveryId eventName with
  | none => (.duplicate, s)
  | some s₁ => (.cancelled, retirePullRequest s₁ k .cancelled)

/-- A pending row whose time has come, or a running row whose lease has run out. -/
def ReviewJobRow.claimable (row : ReviewJobRow) (now : Nat) : Bool :=
  (row.status = .pending ∧ row.availableAt ≤ now) ∨
    (row.status = .running ∧ ∃ t ∈ row.lockedUntil, t ≤ now)

/-- `order by available_at asc, created_at asc`. -/
def ReviewJobRow.notAfter (row other : ReviewJobRow) : Bool :=
  row.availableAt < other.availableAt ∨
    (row.availableAt = other.availableAt ∧ row.createdAt ≤ other.createdAt)

/-- The first eligible row; `tie` decides between rows with equal sort keys. -/
def nextJob
    (rows : List ReviewJobRow)
    (eligible : ReviewJobRow → Bool)
    (tie : Uuid) :
    Option ReviewJobRow :=
  let candidates := rows.filter eligible
  let firsts := candidates.filter (fun row => candidates.all (row.notAfter ·))
  (firsts.find? (fun row => row.id = tie)).or firsts.head?

/-- The lease `claim_review_job` takes: no new lease token. -/
def ReviewJobRow.leasedToWorker
    (row : ReviewJobRow) (workerId : String) (now : Nat) : ReviewJobRow :=
  { row with
    status := .running
    lockedBy := some workerId
    lockedUntil := some (now + reviewJobLeaseInterval)
    attempts := row.attempts + 1
    updatedAt := now }

@[simp] theorem ReviewJobRow.leasedToWorker_id
    (row : ReviewJobRow) (workerId : String) (now : Nat) :
    (row.leasedToWorker workerId now).id = row.id := by
  rfl

/-- `claim_review_job`. -/
def claimReviewJob
    (s : HostedState)
    (workerId : String)
    (tie : Uuid) :
    Option ReviewJobRow × HostedState :=
  match nextJob s.reviewJobs.rows (fun row => row.claimable s.now) tie with
  | none => (none, s)
  | some row =>
      (some (row.leasedToWorker workerId s.now),
        { s with
          reviewJobs :=
            s.reviewJobs.alter row.id
              (fun r => r.leasedToWorker workerId s.now)
              (fun r => r.leasedToWorker_id workerId s.now) })

/-- `status = 'running' and locked_by = worker`. -/
def ReviewJobRow.heldBy (row : ReviewJobRow) (holder : String) : Bool :=
  row.status = .running ∧ row.lockedBy = some holder

/-- `locked_until > now()`. -/
def ReviewJobRow.leaseLive (row : ReviewJobRow) (now : Nat) : Bool :=
  ∃ t ∈ row.lockedUntil, now < t

/-- `update review_jobs set … where id = … and guard returning id`. -/
def updateReviewJob
    (s : HostedState)
    (jobId : Uuid)
    (guarded : ReviewJobRow → Bool)
    (f : ReviewJobRow → ReviewJobRow)
    (hf : ∀ row, (f row).id = row.id) :
    Option (ReviewJobRow × HostedState) :=
  match s.reviewJobs.find? jobId with
  | none => none
  | some row =>
      if guarded row then
        some (f row, { s with reviewJobs := s.reviewJobs.alter jobId f hf })
      else
        none

theorem leaseRenewed_id
    (s : HostedState) (row : ReviewJobRow) :
    ({ row with
        lockedUntil := some (s.now + reviewJobLeaseInterval)
        updatedAt := s.now } : ReviewJobRow).id = row.id := by
  rfl

/-- `renew_review_job_lease`. -/
def renewReviewJobLease
    (s : HostedState)
    (jobId : Uuid)
    (workerId : String) :
    Except HostedError HostedState :=
  match
      updateReviewJob s jobId
        (fun row => row.heldBy workerId ∧ row.leaseLive s.now)
        (fun row =>
          { row with
            lockedUntil := some (s.now + reviewJobLeaseInterval), updatedAt := s.now })
        (leaseRenewed_id s) with
  | some (_, s') => .ok s'
  | none =>
      .error (.runtimeError ("Review job lease is not owned by worker: " ++ jobId.text))

/-- `complete_review_job`. -/
def completeReviewJob
    (s : HostedState)
    (jobId : Uuid)
    (workerId : String) :
    Except HostedError HostedState :=
  match
      updateReviewJob s jobId
        (fun row => row.heldBy workerId)
        (fun row =>
          { row with
            status := .succeeded
            lockedBy := none
            lockedUntil := none
            updatedAt := s.now })
        (fun _ => rfl) with
  | some (_, s') => .ok s'
  | none => .error (.runtimeError ("Review job is not owned by worker: " ++ jobId.text))

/-- Append a row to `agent_events`; the sequence is the table's serial. -/
def insertAgentEvent
    (s : HostedState)
    (jobId : Uuid)
    (eventType : String)
    (payload : AgentEventPayload) :
    HostedState :=
  { s with
    agentEvents := s.agentEvents ++
      [{ sequence := s.agentEvents.length + 1
         reviewJobId := jobId
         eventType := eventType
         payload := payload
         createdAt := s.now }] }

/-- What `fail_review_job` does to the row: retried later, or dead. -/
def ReviewJobRow.failedOnce
    (row : ReviewJobRow) (error : ReviewJobErrorClass) (now : Nat) : ReviewJobRow :=
  { row with
    status := if maxReviewJobAttempts ≤ row.attempts then .failed else .pending
    availableAt :=
      if maxReviewJobAttempts ≤ row.attempts then row.availableAt
      else now + reviewJobRetryInterval
    lockedBy := none
    lockedUntil := none
    lastError := some error.value
    updatedAt := now }

@[simp] theorem ReviewJobRow.failedOnce_id
    (row : ReviewJobRow) (error : ReviewJobErrorClass) (now : Nat) :
    (row.failedOnce error now).id = row.id := by
  rfl

/-- `fail_review_job`. -/
def failReviewJob
    (s : HostedState)
    (jobId : Uuid)
    (workerId : String)
    (error : ReviewJobErrorClass) :
    Except HostedError HostedState :=
  match
      updateReviewJob s jobId
        (fun row => row.heldBy workerId)
        (fun row => row.failedOnce error s.now)
        (fun row => row.failedOnce_id error s.now) with
  | some (row, s') =>
      .ok
        (insertAgentEvent s' jobId
          (if row.status = .failed then "review_job_failed" else "review_job_retry_scheduled")
          (.workerFailure error row.status))
  | none => .error (.runtimeError ("Review job is not owned by worker: " ++ jobId.text))

/-- The columns of `review_jobs_one_active_head_idx` are non-null and equal. -/
def ReviewJobRow.sameActiveHead (row other : ReviewJobRow) : Bool :=
  row.status.active ∧ other.status.active ∧
    row.installationId ≠ none ∧ row.githubRepositoryId ≠ none ∧
    row.pullRequestNumber ≠ none ∧ row.headSha ≠ none ∧
    row.installationId = other.installationId ∧
    row.githubRepositoryId = other.githubRepositoryId ∧
    row.pullRequestNumber = other.pullRequestNumber ∧ row.headSha = other.headSha

/-- The row `requeue_review_job` writes. -/
def ReviewJobRow.requeued (row : ReviewJobRow) (now : Nat) : ReviewJobRow :=
  { row with
    status := .pending
    attempts := 0
    lastError := none
    lockedBy := none
    lockedUntil := none
    availableAt := now
    updatedAt := now }

@[simp] theorem ReviewJobRow.requeued_id
    (row : ReviewJobRow) (now : Nat) :
    (row.requeued now).id = row.id := by
  rfl

/-- Another active row has the head of this one: the index refuses the requeue. -/
def headTaken (s : HostedState) (jobId : Uuid) (row : ReviewJobRow) : Bool :=
  s.reviewJobs.rows.any (fun other =>
    other.id ≠ jobId ∧ (row.requeued s.now).sameActiveHead other)

/--
`requeue_review_job`.  `enqueue_review_job` inserts an active row only after it
has superseded the others of its pull request; this is the other statement that
makes a row active, and the one the partial unique index can refuse.
-/
def requeueReviewJob
    (s : HostedState)
    (jobId : Uuid) :
    Except HostedError HostedState :=
  match s.reviewJobs.find? jobId with
  | none => .error (.runtimeError ("review job is not dead: " ++ jobId.text))
  | some row =>
      if row.status ≠ .failed then
        .error (.runtimeError ("review job is not dead: " ++ jobId.text))
      else if headTaken s jobId row then
        .error .uniqueViolation
      else
        .ok
          { s with
            reviewJobs :=
              s.reviewJobs.alter jobId (fun r => r.requeued s.now)
                (fun r => r.requeued_id s.now) }

/-! ## What the shared statements do -/

/-- An update that matched found the row under its id and satisfied the guard. -/
theorem updateReviewJob_eq_some
    {s s' : HostedState} {jobId : Uuid}
    {guarded : ReviewJobRow → Bool} {f : ReviewJobRow → ReviewJobRow}
    {hf : ∀ row, (f row).id = row.id} {row' : ReviewJobRow}
    (h : updateReviewJob s jobId guarded f hf = some (row', s')) :
    ∃ row, s.reviewJobs.find? jobId = some row ∧ guarded row = true ∧ row' = f row ∧
      s' = { s with reviewJobs := s.reviewJobs.alter jobId f hf } := by
  unfold updateReviewJob at h
  split at h
  · cases h
  · next row hrow =>
      split at h
      · next hguard =>
          cases h
          exact ⟨row, hrow, hguard, rfl, rfl⟩
      · cases h

theorem ReviewJobRow.notAfter_total
    (row other : ReviewJobRow) :
    row.notAfter other = true ∨ other.notAfter row = true := by
  simp only [ReviewJobRow.notAfter, decide_eq_true_eq]
  omega

theorem ReviewJobRow.notAfter_trans
    {a b c : ReviewJobRow}
    (hab : a.notAfter b = true)
    (hbc : b.notAfter c = true) :
    a.notAfter c = true := by
  simp only [ReviewJobRow.notAfter, decide_eq_true_eq] at *
  omega

/-- A nonempty list of rows has a first one in the claim order. -/
theorem exists_first
    (rows : List ReviewJobRow)
    (hne : rows ≠ []) :
    ∃ row ∈ rows, ∀ other ∈ rows, row.notAfter other = true := by
  induction rows with
  | nil =>
      exact absurd rfl hne
  | cons row rest ih =>
      by_cases hrest : rest = []
      · subst hrest
        refine ⟨row, by simp, ?_⟩
        intro other hother
        rw [List.mem_singleton] at hother
        subst hother
        exact (other.notAfter_total other).elim id id
      · obtain ⟨first, hmem, hfirst⟩ := ih hrest
        rcases row.notAfter_total first with hle | hle
        · refine ⟨row, by simp, ?_⟩
          intro other hother
          rcases List.mem_cons.mp hother with rfl | hother
          · exact (other.notAfter_total other).elim id id
          · exact ReviewJobRow.notAfter_trans hle (hfirst other hother)
        · refine ⟨first, List.mem_cons_of_mem _ hmem, ?_⟩
          intro other hother
          rcases List.mem_cons.mp hother with rfl | hother
          · exact hle
          · exact hfirst other hother

/-- The row `nextJob` picks is stored, eligible and not after any eligible row. -/
theorem nextJob_spec
    {rows : List ReviewJobRow} {eligible : ReviewJobRow → Bool} {tie : Uuid}
    {row : ReviewJobRow}
    (h : nextJob rows eligible tie = some row) :
    row ∈ rows ∧ eligible row = true ∧
      ∀ other ∈ rows, eligible other = true → row.notAfter other = true := by
  have hmem :
      row ∈ (rows.filter eligible).filter
        (fun r => (rows.filter eligible).all (r.notAfter ·)) := by
    unfold nextJob at h
    rcases Option.or_eq_some_iff.mp h with hfound | ⟨_, hhead⟩
    · exact List.mem_of_find?_eq_some hfound
    · exact List.mem_of_mem_head? hhead
  rw [List.mem_filter, List.mem_filter, List.all_eq_true] at hmem
  refine ⟨hmem.1.1, hmem.1.2, ?_⟩
  intro other hother heligible
  exact hmem.2 other (List.mem_filter.mpr ⟨hother, heligible⟩)

/-- `nextJob` finds nothing only when no row is eligible. -/
theorem nextJob_eq_none
    {rows : List ReviewJobRow} {eligible : ReviewJobRow → Bool} {tie : Uuid}
    (h : nextJob rows eligible tie = none)
    {row : ReviewJobRow}
    (hrow : row ∈ rows) :
    eligible row = false := by
  by_contra hne
  have heligible : eligible row = true := by simpa using hne
  have hcandidates : rows.filter eligible ≠ [] := by
    intro hnil
    have hmem : row ∈ rows.filter eligible := List.mem_filter.mpr ⟨hrow, heligible⟩
    rw [hnil] at hmem
    cases hmem
  obtain ⟨first, hmem, hfirst⟩ := exists_first (rows.filter eligible) hcandidates
  have hfirsts :
      first ∈ (rows.filter eligible).filter
        (fun r => (rows.filter eligible).all (r.notAfter ·)) := by
    rw [List.mem_filter, List.all_eq_true]
    exact ⟨hmem, hfirst⟩
  unfold nextJob at h
  have hhead := (Option.or_eq_none_iff.mp h).2
  rw [List.head?_eq_none_iff] at hhead
  rw [hhead] at hfirsts
  cases hfirsts

end Hosted
end PrReviewer
