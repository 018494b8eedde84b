import PrReviewer.Hosted.Machine

/-!
# Which statuses are final

A job that was cancelled or superseded is retired, a job that succeeded or whose
summary was recorded is settled.  Settled jobs never become active again and only
`requeue_review_job` revives a failed one, in every run.  A retired job keeps its
status against every statement of the source except one: the upsert of a pushed
summary has no status guard.  A run keeps all of it exactly when no push in it
writes to a retired row.
-/

namespace PrReviewer
namespace Hosted

open Lib

/-- `cancelled` and `superseded`. -/
def ReviewJobStatus.retired : ReviewJobStatus → Bool
  | .cancelled => true
  | .superseded => true
  | _ => false

/-- `succeeded`, `completed` and `stopped_early`. -/
def ReviewJobStatus.settled : ReviewJobStatus → Bool
  | .succeeded => true
  | .completed => true
  | .stoppedEarly => true
  | _ => false

theorem ReviewJobStatus.active_of_retired
    {status : ReviewJobStatus}
    (h : status.retired = true) :
    status.active = false := by
  cases status with
  | cancelled => rfl
  | superseded => rfl
  | _ => cases h

theorem ReviewJobStatus.active_of_settled
    {status : ReviewJobStatus}
    (h : status.settled = true) :
    status.active = false := by
  cases status with
  | succeeded => rfl
  | completed => rfl
  | stoppedEarly => rfl
  | _ => cases h

theorem PushedStatus.toReviewJobStatus_settled
    (status : PushedStatus) :
    status.toReviewJobStatus.settled = true := by
  cases status with
  | completed => rfl
  | stoppedEarly => rfl

/-- A pushed summary leaves its row inactive. -/
theorem ReviewJobRow.overwrittenBy_inactive
    (row : ReviewJobRow) (body : PushedReviewSummaryBody) (now : Nat) :
    (row.overwrittenBy body now).status.active = false :=
  ReviewJobStatus.active_of_settled body.status.toReviewJobStatus_settled

/-- A row that a claim can take is pending or running. -/
theorem ReviewJobRow.active_of_claimable
    {row : ReviewJobRow} {now : Nat}
    (h : row.claimable now = true) :
    row.status.active = true := by
  simp only [ReviewJobRow.claimable, decide_eq_true_eq] at h
  rcases h with ⟨hpending, _⟩ | ⟨hrunning, _⟩
  · rw [hpending]
    rfl
  · rw [hrunning]
    rfl

theorem ReviewJobRow.running_of_heldBy
    {row : ReviewJobRow} {holder : String}
    (h : row.heldBy holder = true) :
    row.status = .running := by
  simp only [ReviewJobRow.heldBy, decide_eq_true_eq] at h
  exact h.1

theorem claimable_of_claimableByRunner
    {s : HostedState} {runnerId : Uuid} {row : ReviewJobRow}
    (h : claimableByRunner s runnerId row = true) :
    row.claimable s.now = true := by
  simp only [claimableByRunner, decide_eq_true_eq] at h
  exact h.1

section OneStep

variable {hashRunnerCredential : String → String}
variable {s : HostedState} {j : Uuid} {a : HostedAction}

/-- No statement of the hosted plane deletes a job. -/
theorem RowChange.persists
    {row : ReviewJobRow} {row? : Option ReviewJobRow}
    (h : RowChange hashRunnerCredential s j a (some row) row?) :
    ∃ row', row? = some row' := by
  generalize hrow : some row = before at h
  cases h with
  | unchanged => exact ⟨row, hrow.symm⟩
  | enqueuedBare => cases hrow
  | enqueued hinstalled => cases hrow
  | pushed hbody hid => cases hrow
  | _ => exact ⟨_, rfl⟩

/--
A change of an inactive row: nothing, a requeue of a failed row, or the upsert of
a pushed summary.  Every other statement asks for a pending or running row.
-/
theorem RowChange.of_inactive
    {row row' : ReviewJobRow}
    (hinactive : row.status.active = false)
    (h : RowChange hashRunnerCredential s j a (some row) (some row')) :
    row' = row ∨
      (a = .requeueReviewJob j ∧ row.status = .failed ∧ headTaken s j row = false ∧
        row' = row.requeued s.now) ∨
      (∃ body, a.writesSummary hashRunnerCredential s = some body ∧
        body.reviewJobId = j ∧ row' = row.overwrittenBy body s.now) := by
  have hrun : row.status ≠ .running := by
    intro hrunning
    rw [hrunning] at hinactive
    cases hinactive
  cases h with
  | unchanged =>
      exact .inl rfl
  | superseded hpr hactive =>
      rw [hactive] at hinactive
      cases hinactive
  | cancelled hpr hactive =>
      rw [hactive] at hinactive
      cases hinactive
  | leasedToRunner hclaimable henvelope =>
      have hactive :=
        ReviewJobRow.active_of_claimable (claimable_of_claimableByRunner hclaimable)
      rw [hactive] at hinactive
      cases hinactive
  | leasedToWorker hclaimable =>
      have hactive := ReviewJobRow.active_of_claimable hclaimable
      rw [hactive] at hinactive
      cases hinactive
  | renewed hheld hlive =>
      exact absurd (ReviewJobRow.running_of_heldBy hheld) hrun
  | beaten hrunning hleased hlive =>
      exact absurd hrunning hrun
  | acknowledged hleased hrunning hlive hwritten =>
      exact absurd hrunning hrun
  | completed hheld =>
      exact absurd (ReviewJobRow.running_of_heldBy hheld) hrun
  | failedOnce hheld =>
      exact absurd (ReviewJobRow.running_of_heldBy hheld) hrun
  | requeued hfailed hfree =>
      exact .inr (.inl ⟨rfl, hfailed, hfree, rfl⟩)
  | overwritten hbody hid =>
      exact .inr (.inr ⟨_, hbody, hid, rfl⟩)

theorem step_settled
    {row : ReviewJobRow}
    (hrow : s.reviewJobs.find? j = some row)
    (hsettled : row.status.settled = true) :
    ∃ row', (step hashRunnerCredential s a).reviewJobs.find? j = some row' ∧
      row'.status.settled = true := by
  have hchange := step_rowChange hashRunnerCredential s a j
  rw [hrow] at hchange
  obtain ⟨row', hrow'⟩ := hchange.persists
  rw [hrow'] at hchange
  refine ⟨row', hrow', ?_⟩
  rcases hchange.of_inactive (ReviewJobStatus.active_of_settled hsettled) with
    rfl | ⟨_, hfailed, _⟩ | ⟨body, _, _, rfl⟩
  · exact hsettled
  · rw [hfailed] at hsettled
    cases hsettled
  · exact body.status.toReviewJobStatus_settled

/-- A failed row that is pending after a step was requeued by it. -/
theorem step_failed_to_pending
    {row row' : ReviewJobRow}
    (hrow : s.reviewJobs.find? j = some row)
    (hrow' : (step hashRunnerCredential s a).reviewJobs.find? j = some row')
    (hfailed : row.status = .failed)
    (hpending : row'.status = .pending) :
    a = .requeueReviewJob j := by
  have hchange := step_rowChange hashRunnerCredential s a j
  rw [hrow, hrow'] at hchange
  have hinactive : row.status.active = false := by
    rw [hfailed]
    rfl
  rcases hchange.of_inactive hinactive with rfl | ⟨ha, _⟩ | ⟨body, _, _, rfl⟩
  · rw [hfailed] at hpending
    cases hpending
  · exact ha
  · have hsettled := body.status.toReviewJobStatus_settled
    have hstatus : body.status.toReviewJobStatus = .pending := hpending
    rw [hstatus] at hsettled
    cases hsettled

end OneStep

section Finality

variable (hashRunnerCredential : String → String)

/-- The step's push, if it writes one, does not write to a retired row. -/
def SparesRetired (s : HostedState) (a : HostedAction) : Prop :=
  ∀ body, a.writesSummary hashRunnerCredential s = some body →
    ∀ row, s.reviewJobs.find? body.reviewJobId = some row → row.status.retired = false

/-- What it means that the statuses of a run are final. -/
structure StatusesFinal (s : HostedState) (actions : List HostedAction) : Prop where
  retired_stay :
    ∀ before later rest, actions = before ++ later ++ rest →
      ∀ j row,
        (exec (step hashRunnerCredential) s before).reviewJobs.find? j = some row →
        row.status.retired = true →
        ∃ row',
          (exec (step hashRunnerCredential) s (before ++ later)).reviewJobs.find? j =
              some row' ∧
            row'.status = row.status
  settled_stay_inactive :
    ∀ before later rest, actions = before ++ later ++ rest →
      ∀ j row,
        (exec (step hashRunnerCredential) s before).reviewJobs.find? j = some row →
        row.status.settled = true →
        ∃ row',
          (exec (step hashRunnerCredential) s (before ++ later)).reviewJobs.find? j =
              some row' ∧
            row'.status ≠ .pending ∧ row'.status ≠ .running
  failed_only_requeued :
    ∀ before a rest, actions = before ++ a :: rest →
      ∀ j row row',
        (exec (step hashRunnerCredential) s before).reviewJobs.find? j = some row →
        (exec (step hashRunnerCredential) s (before ++ [a])).reviewJobs.find? j =
            some row' →
        row.status = .failed → row'.status = .pending → a = .requeueReviewJob j

variable {hashRunnerCredential}

theorem step_retired
    {s : HostedState} {a : HostedAction} {j : Uuid} {row : ReviewJobRow}
    (hspares : SparesRetired hashRunnerCredential s a)
    (hrow : s.reviewJobs.find? j = some row)
    (hretired : row.status.retired = true) :
    ∃ row', (step hashRunnerCredential s a).reviewJobs.find? j = some row' ∧
      row'.status = row.status := by
  have hchange := step_rowChange hashRunnerCredential s a j
  rw [hrow] at hchange
  obtain ⟨row', hrow'⟩ := hchange.persists
  rw [hrow'] at hchange
  refine ⟨row', hrow', ?_⟩
  rcases hchange.of_inactive (ReviewJobStatus.active_of_retired hretired) with
    rfl | ⟨_, hfailed, _⟩ | ⟨body, hbody, hid, _⟩
  · rfl
  · rw [hfailed] at hretired
    cases hretired
  · have hspared := hspares body hbody row (by rw [hid]; exact hrow)
    rw [hspared] at hretired
    cases hretired

/-- A retired row keeps its status over a run whose pushes spare retired rows. -/
theorem exec_retired
    {s : HostedState} {actions : List HostedAction} {j : Uuid} {row : ReviewJobRow}
    (hspares : Along (step hashRunnerCredential) (SparesRetired hashRunnerCredential)
      s actions)
    (hrow : s.reviewJobs.find? j = some row)
    (hretired : row.status.retired = true) :
    ∃ row', (exec (step hashRunnerCredential) s actions).reviewJobs.find? j = some row' ∧
      row'.status = row.status := by
  refine exec_invariant
    (I := fun s : HostedState =>
      ∃ row', s.reviewJobs.find? j = some row' ∧ row'.status = row.status)
    ?_ hspares ⟨row, hrow, rfl⟩
  rintro s₁ a ⟨row₁, hrow₁, hstatus⟩ hspared
  obtain ⟨row₂, hrow₂, hsame⟩ := step_retired hspared hrow₁ (by rw [hstatus]; exact hretired)
  exact ⟨row₂, hrow₂, hsame.trans hstatus⟩

/-- A settled row stays settled over every run. -/
theorem exec_settled
    {s : HostedState} (actions : List HostedAction) {j : Uuid} {row : ReviewJobRow}
    (hrow : s.reviewJobs.find? j = some row)
    (hsettled : row.status.settled = true) :
    ∃ row', (exec (step hashRunnerCredential) s actions).reviewJobs.find? j = some row' ∧
      row'.status.settled = true := by
  refine exec_preserves
    (I := fun s : HostedState =>
      ∃ row', s.reviewJobs.find? j = some row' ∧ row'.status.settled = true)
    ?_ actions ⟨row, hrow, hsettled⟩
  rintro s₁ a ⟨row₁, hrow₁, hsettled₁⟩
  exact step_settled hrow₁ hsettled₁

/-- A push that is written to a retired row takes it out of its status. -/
theorem step_retired_overwritten
    {s : HostedState} {a : HostedAction} {body : PushedReviewSummaryBody}
    {row row' : ReviewJobRow}
    (hbody : a.writesSummary hashRunnerCredential s = some body)
    (hrow : s.reviewJobs.find? body.reviewJobId = some row)
    (hretired : row.status.retired = true)
    (hrow' : (step hashRunnerCredential s a).reviewJobs.find? body.reviewJobId = some row') :
    row'.status ≠ row.status := by
  rw [step_writesSummary s a body hbody, recordedSummary_find?, if_pos rfl, hrow] at hrow'
  cases hrow'
  intro hsame
  have hstatus : body.status.toReviewJobStatus = row.status := hsame
  have hsettled := body.status.toReviewJobStatus_settled
  rw [hstatus] at hsettled
  cases hrowStatus : row.status with
  | cancelled =>
      rw [hrowStatus] at hsettled
      cases hsettled
  | superseded =>
      rw [hrowStatus] at hsettled
      cases hsettled
  | _ =>
      rw [hrowStatus] at hretired
      cases hretired

/--
**When statuses are final.**  From every state, the statuses of a run are final
exactly when none of its pushes writes to a cancelled or superseded row.
-/
theorem statusesFinal_iff_sparesRetired
    (s : HostedState)
    (actions : List HostedAction) :
    StatusesFinal hashRunnerCredential s actions ↔
      Along (step hashRunnerCredential) (SparesRetired hashRunnerCredential) s actions := by
  constructor
  · intro hfinal
    rw [along_iff_split]
    intro before a rest hsplit body hbody row hrow
    by_contra hne
    have hretired : row.status.retired = true := by simpa using hne
    obtain ⟨row', hrow', hsame⟩ :=
      hfinal.retired_stay before [a] rest (by simp [hsplit]) body.reviewJobId row hrow hretired
    rw [exec_append] at hrow'
    exact step_retired_overwritten hbody hrow hretired hrow' hsame
  · intro hspares
    refine ⟨?_, ?_, ?_⟩
    · rintro before later rest rfl j row hrow hretired
      rw [List.append_assoc, along_append, along_append] at hspares
      rw [exec_append]
      exact exec_retired hspares.2.1 hrow hretired
    · rintro before later rest rfl j row hrow hsettled
      rw [exec_append]
      obtain ⟨row', hrow', hsettled'⟩ := exec_settled later hrow hsettled
      refine ⟨row', hrow', ?_, ?_⟩
      · intro hpending
        rw [hpending] at hsettled'
        cases hsettled'
      · intro hrunning
        rw [hrunning] at hsettled'
        cases hsettled'
    · rintro before a rest rfl j row row' hrow hrow' hfailed hpending
      rw [exec_append] at hrow'
      exact step_failed_to_pending hrow hrow' hfailed hpending

end Finality

/-- A job is claimed and its pull request is closed while the review runs. -/
def cancelledWhileRunning : List HostedAction :=
  pairLaptop ++
    [enqueueHead "delivery-1" firstJobId "head-1" firstHead_ne,
      .claimJob laptopRunner "lease-1" firstJobId,
      .cancelReviewJob "delivery-2" "pull_request"
        (headOfSeven "head-1" (by decide)).key]

/-- The summary its runner pushes when the review ends. -/
def summaryOfFirstJob : PushedReviewSummaryBody where
  reviewJobId := firstJobId
  installationId := 1
  githubRepositoryId := 11
  pullRequestNumber := 7
  headSha := "head-1"
  status := .completed
  stoppedEarly := false
  findings := []
  headSha_ne := by decide
  stoppedEarly_eq := by decide

/-- The push turns the cancelled job into a completed one. -/
theorem cancelled_overwritten_by_push :
    ¬ StatusesFinal sampleHash HostedState.empty
        (cancelledWhileRunning ++
          [.pushReviewSummary (some "laptop-credential") summaryOfFirstJob]) := by
  intro hfinal
  have hcancelled :
      ((exec (step sampleHash) HostedState.empty cancelledWhileRunning).reviewJobs.find?
        firstJobId).map ReviewJobRow.status = some .cancelled := by
    decide
  have hcompleted :
      ((exec (step sampleHash) HostedState.empty
        (cancelledWhileRunning ++
          [.pushReviewSummary (some "laptop-credential")
            summaryOfFirstJob])).reviewJobs.find?
        firstJobId).map ReviewJobRow.status = some .completed := by
    decide
  obtain ⟨row, hrow, hstatus⟩ := Option.map_eq_some_iff.mp hcancelled
  obtain ⟨row', hrow', hsame⟩ :=
    hfinal.retired_stay cancelledWhileRunning _ [] (by rw [List.append_nil]) firstJobId row
      hrow (by rw [hstatus]; rfl)
  rw [hrow', Option.map_some, hsame, hstatus] at hcompleted
  cases hcompleted

end Hosted
end PrReviewer
