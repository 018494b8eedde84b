import PrReviewer.Hosted.LeaseExclusivity

/-!
# Attempts and the claims of a job

`attempts` is raised by both claims, reset by a requeue and read by
`fail_review_job` alone.  It counts the claims of a job since its last requeue, and
a pending row always has attempts left; the one way past the limit is a running row
on its last attempt whose lease runs out, because both claims take such a row over
without a look at the counter.  A run keeps the limit exactly when no last lease
runs out in it.
-/

namespace PrReviewer
namespace Hosted

open Lib

section Attempts

variable (hashRunnerCredential : String → String)

/-- The step claims the job: `claim_job` or `claim_review_job` returns it. -/
def claimsJob (j : Uuid) (s : HostedState) : HostedAction → Bool
  | .claimJob runner leaseToken tie =>
      match claimJob hashRunnerCredential s runner leaseToken tie with
      | .ok (.envelope e, _) => e.jobId = j
      | _ => false
  | .claimReviewJob workerId tie =>
      match (claimReviewJob s workerId tie).1 with
      | some row => row.id = j
      | none => false
  | _ => false

/-- The counter of a row, zero before the row is stored. -/
def attemptsIn : Option ReviewJobRow → Nat
  | none => 0
  | some row => row.attempts

/-- The stretch of the run has no requeue of the job. -/
def RequeueFree (j : Uuid) (s : HostedState) (actions : List HostedAction) : Prop :=
  Along (step hashRunnerCredential) (fun s a => requeuesJob j s a = false) s actions

/-- How often the job is claimed in a stretch of a run. -/
def claimsIn (j : Uuid) (s : HostedState) (actions : List HostedAction) : Nat :=
  countAlong (step hashRunnerCredential) (claimsJob hashRunnerCredential j) s actions

/--
What it means that attempts are bounded in a run.  A stretch without a requeue of
the job claims it at most `MAX_REVIEW_JOB_ATTEMPTS` times.  A job that has used all
its attempts is not waiting to be claimed: it is not pending, its lease has not run
out while it is running, and a failure report leaves it failed.
-/
structure AttemptsBounded (s : HostedState) (actions : List HostedAction) : Prop where
  claims_le :
    ∀ before stretch rest, actions = before ++ stretch ++ rest →
      ∀ j, RequeueFree hashRunnerCredential j
          (exec (step hashRunnerCredential) s before) stretch →
        claimsIn hashRunnerCredential j
            (exec (step hashRunnerCredential) s before) stretch ≤
          maxReviewJobAttempts
  used_up :
    ∀ before stretch rest, actions = before ++ stretch ++ rest →
      ∀ j, RequeueFree hashRunnerCredential j
          (exec (step hashRunnerCredential) s before) stretch →
        maxReviewJobAttempts ≤
          claimsIn hashRunnerCredential j
            (exec (step hashRunnerCredential) s before) stretch →
        ∀ row,
          (exec (step hashRunnerCredential) s (before ++ stretch)).reviewJobs.find? j =
              some row →
          row.claimable (exec (step hashRunnerCredential) s (before ++ stretch)).now =
              false ∧
            row.status ≠ .pending ∧
            ∀ workerId error s',
              failReviewJob (exec (step hashRunnerCredential) s (before ++ stretch)) j
                  workerId error = .ok s' →
              (s'.reviewJobs.find? j).map ReviewJobRow.status = some .failed

/--
The clock does not reach the end of a last lease: of a running row that has used
all its attempts.
-/
def LastLeasesKept (s : HostedState) : HostedAction → Prop
  | .advanceClock elapsed =>
      ∀ j row, s.reviewJobs.find? j = some row → row.status = .running →
        maxReviewJobAttempts ≤ row.attempts → row.leaseLive (s.now + elapsed) = true
  | _ => True

section Counter

variable {hashRunnerCredential}

/-- Apart from claims and requeues, no step changes the counter. -/
theorem RowChange.attemptsIn
    {s : HostedState} {j : Uuid} {a : HostedAction} {row? row?' : Option ReviewJobRow}
    (h : RowChange hashRunnerCredential s j a row? row?')
    (hclaim : ∀ runner leaseToken tie, a ≠ .claimJob runner leaseToken tie)
    (hworker : ∀ workerId tie, a ≠ .claimReviewJob workerId tie)
    (hrequeue : ∀ jobId, a ≠ .requeueReviewJob jobId) :
    attemptsIn row?' = attemptsIn row? := by
  cases h with
  | leasedToRunner hclaimable henvelope => exact absurd rfl (hclaim _ _ _)
  | leasedToWorker hclaimable => exact absurd rfl (hworker _ _)
  | requeued hfailed hfree => exact absurd rfl (hrequeue _)
  | _ => rfl

/-- A row of the table after one row was rewritten. -/
theorem attemptsIn_alterJob
    {s : HostedState} {jobId : Uuid} {row : ReviewJobRow}
    {f : ReviewJobRow → ReviewJobRow} {hf : ∀ row, (f row).id = row.id}
    (hrow : s.reviewJobs.find? jobId = some row)
    (j : Uuid) :
    attemptsIn ((s.alterJob jobId f hf).reviewJobs.find? j) =
      if jobId = j then (f row).attempts else attemptsIn (s.reviewJobs.find? j) := by
  rw [HostedState.alterJob_find?]
  by_cases hj : j = jobId
  · subst hj
    rw [if_pos rfl, if_pos rfl, hrow]
    rfl
  · rw [if_neg hj, if_neg (Ne.symm hj)]

variable (hashRunnerCredential) in
/-- What one step does to the counter of a job. -/
theorem step_attemptsIn
    (s : HostedState) (a : HostedAction) (j : Uuid) :
    attemptsIn ((step hashRunnerCredential s a).reviewJobs.find? j) =
      if requeuesJob j s a then 0
      else
        attemptsIn (s.reviewJobs.find? j) +
          (if claimsJob hashRunnerCredential j s a then 1 else 0) := by
  cases a with
  | claimJob runner leaseToken tie =>
      rcases claimJob_cases hashRunnerCredential s runner leaseToken tie with
        ⟨hresult, _⟩ | ⟨e, he⟩ | ⟨row, e, hrow, _, _, hresult⟩
      · simp [step, claimsJob, requeuesJob, hresult, Except.map, HostedState.commit]
      · simp [step, claimsJob, requeuesJob, he, Except.map, HostedState.commit]
      · simp only [step, claimsJob, requeuesJob, hresult, Except.map, HostedState.commit,
          attemptsIn_alterJob hrow]
        by_cases hj : e.jobId = j
        · subst hj
          simp [hrow, attemptsIn, ReviewJobRow.leasedToRunner]
        · simp [hj]
  | claimReviewJob workerId tie =>
      rcases claimReviewJob_cases s workerId tie with hresult | ⟨row, hrow, _, hresult⟩
      · simp [step, claimsJob, requeuesJob, hresult]
      · simp only [step, claimsJob, requeuesJob, hresult, attemptsIn_alterJob hrow,
          ReviewJobRow.leasedToWorker_id]
        by_cases hj : row.id = j
        · subst hj
          simp [hrow, attemptsIn, ReviewJobRow.leasedToWorker]
        · simp [hj]
  | requeueReviewJob jobId =>
      cases hresult : requeueReviewJob s jobId with
      | error e =>
          simp [step, claimsJob, requeuesJob, hresult, HostedState.commit, Except.isOk,
            Except.toBool]
      | ok s' =>
          obtain ⟨row, hrow, _, _, rfl⟩ := requeueReviewJob_eq_ok hresult
          simp only [step, claimsJob, requeuesJob, hresult, HostedState.commit,
            attemptsIn_alterJob hrow]
          by_cases hj : jobId = j
          · simp [hj, Except.isOk, Except.toBool, ReviewJobRow.requeued]
          · simp [hj]
  | _ =>
      refine ((step_rowChange hashRunnerCredential s _ j).attemptsIn ?_ ?_ ?_).trans rfl
      · rintro _ _ _ ⟨⟩
      · rintro _ _ ⟨⟩
      · rintro _ ⟨⟩

/-- A stretch without a requeue adds its claims to the counter. -/
theorem attemptsIn_stretch
    {j : Uuid} {s : HostedState} {actions : List HostedAction}
    (h : RequeueFree hashRunnerCredential j s actions) :
    attemptsIn ((exec (step hashRunnerCredential) s actions).reviewJobs.find? j) =
      attemptsIn (s.reviewJobs.find? j) + claimsIn hashRunnerCredential j s actions := by
  induction actions generalizing s with
  | nil =>
      rfl
  | cons a actions ih =>
      have hfirst := step_attemptsIn hashRunnerCredential s a j
      have hrest := ih h.2
      have hkeeps : requeuesJob j s a = false := h.1
      rw [hkeeps, if_neg Bool.false_ne_true] at hfirst
      rw [exec_cons, hrest, hfirst]
      simp only [claimsIn, countAlong]
      omega

variable (hashRunnerCredential) in
/-- The counter is the number of claims since the last requeue, or since the start. -/
theorem attemptsIn_eq_claimsIn
    (actions : List HostedAction)
    (j : Uuid) :
    ∃ before stretch, actions = before ++ stretch ∧
      RequeueFree hashRunnerCredential j
        (exec (step hashRunnerCredential) HostedState.empty before) stretch ∧
      claimsIn hashRunnerCredential j
          (exec (step hashRunnerCredential) HostedState.empty before) stretch =
        attemptsIn
          ((exec (step hashRunnerCredential) HostedState.empty actions).reviewJobs.find?
            j) := by
  induction actions using List.reverseRecOn with
  | nil =>
      exact ⟨[], [], rfl, trivial, rfl⟩
  | append_singleton actions a ih =>
      obtain ⟨before, stretch, rfl, hfree, hcount⟩ := ih
      have hstep :=
        step_attemptsIn hashRunnerCredential
          (exec (step hashRunnerCredential) HostedState.empty (before ++ stretch)) a j
      by_cases hrequeue :
          requeuesJob j
            (exec (step hashRunnerCredential) HostedState.empty (before ++ stretch)) a = true
      · -- the requeue starts a new, empty stretch
        rw [if_pos hrequeue] at hstep
        refine ⟨before ++ stretch ++ [a], [], by simp, trivial, ?_⟩
        rw [exec_append]
        exact hstep.symm
      · have hkeeps :
            requeuesJob j
              (exec (step hashRunnerCredential) HostedState.empty (before ++ stretch)) a =
                false := by
          simpa using hrequeue
        have hlonger :
            RequeueFree hashRunnerCredential j
              (exec (step hashRunnerCredential) HostedState.empty before)
              (stretch ++ [a]) := by
          refine (along_append _ stretch [a]).mpr ⟨hfree, ?_, trivial⟩
          rw [← exec_append]
          exact hkeeps
        refine ⟨before, stretch ++ [a], by simp, hlonger, ?_⟩
        have htotal := attemptsIn_stretch hlonger
        have hpart := attemptsIn_stretch hfree
        rw [← exec_append] at htotal hpart
        rw [← List.append_assoc] at htotal
        omega

end Counter

section Limit

variable {hashRunnerCredential}

/-- Every running row has a deadline. -/
def RunningRowsLocked (s : HostedState) : Prop :=
  ∀ j row, s.reviewJobs.find? j = some row → row.status = .running →
    row.lockedUntil ≠ none

/-- The counter of a row is within the limit, with attempts left where a claim could take it. -/
structure WithinAttempts (s : HostedState) (row : ReviewJobRow) : Prop where
  le : row.attempts ≤ maxReviewJobAttempts
  pending_lt : row.status = .pending → row.attempts < maxReviewJobAttempts
  last_live :
    row.status = .running → maxReviewJobAttempts ≤ row.attempts → row.leaseLive s.now = true

/-- `WithinAttempts` of every row. -/
def RowsWithinAttempts (s : HostedState) : Prop :=
  ∀ j row, s.reviewJobs.find? j = some row → WithinAttempts s row

theorem leaseLive_renewed
    (now : Nat) (row : ReviewJobRow)
    (h : row.lockedUntil = some (now + reviewJobLeaseInterval)) :
    row.leaseLive now = true := by
  simp [ReviewJobRow.leaseLive, h, reviewJobLeaseInterval]

/-- A row whose lease is live and that is running cannot be claimed. -/
theorem claimable_eq_false_of_live
    {row : ReviewJobRow} {now : Nat}
    (hpending : row.status ≠ .pending)
    (hlive : row.status = .running → row.leaseLive now = true) :
    row.claimable now = false := by
  rw [Bool.eq_false_iff]
  intro hclaimable
  simp only [ReviewJobRow.claimable, decide_eq_true_eq] at hclaimable
  rcases hclaimable with ⟨hstatus, _⟩ | ⟨hrunning, t, ht, hle⟩
  · exact hpending hstatus
  · have hlater := hlive hrunning
    simp only [ReviewJobRow.leaseLive, decide_eq_true_eq] at hlater
    obtain ⟨t', ht', hlt⟩ := hlater
    rw [Option.mem_def] at ht ht'
    rw [ht] at ht'
    cases ht'
    omega

/-- A row that a claim takes has attempts left. -/
theorem WithinAttempts.lt_of_claimable
    {s : HostedState} {row : ReviewJobRow}
    (h : WithinAttempts s row)
    (hclaimable : row.claimable s.now = true) :
    row.attempts < maxReviewJobAttempts := by
  by_contra hle
  have hused : maxReviewJobAttempts ≤ row.attempts := by omega
  have hfree : row.claimable s.now = false := by
    apply claimable_eq_false_of_live
    · intro hpending
      exact hle (h.pending_lt hpending)
    · intro hrunning
      exact h.last_live hrunning hused
  rw [hfree] at hclaimable
  cases hclaimable

theorem pushedRow_inactive
    (body : PushedReviewSummaryBody) (now : Nat) :
    (pushedRow body now).status.active = false :=
  ReviewJobRow.overwrittenBy_inactive _ body now

/-- A row at rest needs only its counter below the limit. -/
theorem WithinAttempts.of_inactive
    {s : HostedState} {row : ReviewJobRow}
    (hle : row.attempts ≤ maxReviewJobAttempts)
    (hinactive : row.status.active = false) :
    WithinAttempts s row := by
  refine ⟨hle, ?_, ?_⟩
  · intro hpending
    rw [hpending] at hinactive
    cases hinactive
  · intro hrunning
    rw [hrunning] at hinactive
    cases hinactive

/-- A row under a lease that was just taken or extended. -/
theorem WithinAttempts.of_leased
    {s : HostedState} {row : ReviewJobRow}
    (hle : row.attempts ≤ maxReviewJobAttempts)
    (hrunning : row.status = .running)
    (hlocked : row.lockedUntil = some (s.now + reviewJobLeaseInterval)) :
    WithinAttempts s row := by
  refine ⟨hle, ?_, ?_⟩
  · intro hpending
    rw [hrunning] at hpending
    cases hpending
  · intro _ _
    exact leaseLive_renewed s.now row hlocked

/-- A pending row with a fresh counter. -/
theorem WithinAttempts.of_unclaimed
    {s : HostedState} {row : ReviewJobRow}
    (hzero : row.attempts = 0)
    (hpending : row.status = .pending) :
    WithinAttempts s row := by
  refine ⟨?_, ?_, ?_⟩
  · rw [hzero]
    decide
  · intro _
    rw [hzero]
    decide
  · intro hrunning
    rw [hpending] at hrunning
    cases hrunning

/-- What a change leaves within the limit, judged at the time before the step. -/
theorem RowChange.withinAttempts
    {s : HostedState} {j : Uuid} {a : HostedAction}
    {row? : Option ReviewJobRow} {row' : ReviewJobRow}
    (h : RowChange hashRunnerCredential s j a row? (some row'))
    (hbefore : ∀ row, row? = some row → WithinAttempts s row) :
    WithinAttempts s row' := by
  generalize hrow' : some row' = after at h
  cases h with
  | unchanged =>
      exact hbefore row' hrow'.symm
  | enqueuedBare =>
      cases hrow'
      exact .of_unclaimed rfl rfl
  | enqueued hinstalled =>
      cases hrow'
      exact .of_unclaimed rfl rfl
  | superseded hpr hactive =>
      cases hrow'
      exact .of_inactive (hbefore _ rfl).le rfl
  | cancelled hpr hactive =>
      cases hrow'
      exact .of_inactive (hbefore _ rfl).le rfl
  | leasedToRunner hclaimable henvelope =>
      cases hrow'
      have hleft :=
        (hbefore _ rfl).lt_of_claimable (claimable_of_claimableByRunner hclaimable)
      exact .of_leased hleft rfl rfl
  | leasedToWorker hclaimable =>
      cases hrow'
      have hleft := (hbefore _ rfl).lt_of_claimable hclaimable
      exact .of_leased hleft rfl rfl
  | renewed hheld hlive =>
      cases hrow'
      exact .of_leased (hbefore _ rfl).le (ReviewJobRow.running_of_heldBy hheld) rfl
  | beaten hrunning hleased hlive =>
      cases hrow'
      exact .of_leased (hbefore _ rfl).le hrunning rfl
  | acknowledged hleased hrunning hlive hwritten =>
      cases hrow'
      refine .of_inactive (hbefore _ rfl).le ?_
      rcases acknowledged_status _ _ s.now with hstatus | hstatus
      · rw [hstatus]
        rfl
      · rw [hstatus]
        rfl
  | completed hheld =>
      cases hrow'
      exact .of_inactive (hbefore _ rfl).le rfl
  | @failedOnce workerId error row hheld =>
      cases hrow'
      by_cases hused : maxReviewJobAttempts ≤ row.attempts
      · refine .of_inactive (hbefore _ rfl).le ?_
        simp [ReviewJobRow.failedOnce, hused, ReviewJobStatus.active]
      · refine ⟨(hbefore _ rfl).le, ?_, ?_⟩
        · intro _
          exact Nat.lt_of_not_le hused
        · intro hrunning
          simp [ReviewJobRow.failedOnce, hused] at hrunning
  | requeued hfailed hfree =>
      cases hrow'
      exact .of_unclaimed rfl rfl
  | @pushed _ body hbody hid =>
      cases hrow'
      exact .of_inactive (Nat.zero_le _) (pushedRow_inactive body s.now)
  | @overwritten _ body row hbody hid =>
      cases hrow'
      exact .of_inactive (hbefore _ rfl).le (row.overwrittenBy_inactive body s.now)

theorem step_rowsWithinAttempts
    {s : HostedState} {a : HostedAction}
    (h : RowsWithinAttempts s)
    (hkept : LastLeasesKept s a) :
    RowsWithinAttempts (step hashRunnerCredential s a) := by
  intro j row' hrow'
  have hchange := step_rowChange hashRunnerCredential s a j
  rw [hrow'] at hchange
  have hbefore := hchange.withinAttempts (h j)
  have hnow := step_now hashRunnerCredential s a
  refine ⟨hbefore.le, hbefore.pending_lt, ?_⟩
  intro hrunning hused
  cases a with
  | advanceClock elapsed =>
      exact hkept j row' hrow' hrunning hused
  | _ =>
      rw [hnow]
      exact hbefore.last_live hrunning hused

/-- What a change does to the deadline of a running row. -/
theorem RowChange.running_locked
    {s : HostedState} {j : Uuid} {a : HostedAction}
    {row? : Option ReviewJobRow} {row' : ReviewJobRow}
    (h : RowChange hashRunnerCredential s j a row? (some row'))
    (hbefore : ∀ row, row? = some row → row.status = .running → row.lockedUntil ≠ none)
    (hrunning : row'.status = .running) :
    row'.lockedUntil ≠ none := by
  generalize hrow' : some row' = after at h
  cases h with
  | unchanged =>
      exact hbefore row' hrow'.symm hrunning
  | leasedToRunner hclaimable henvelope =>
      cases hrow'
      rintro ⟨⟩
  | leasedToWorker hclaimable =>
      cases hrow'
      rintro ⟨⟩
  | renewed hheld hlive =>
      cases hrow'
      rintro ⟨⟩
  | beaten hrunning' hleased hlive =>
      cases hrow'
      rintro ⟨⟩
  | acknowledged hleased hrunning' hlive hwritten =>
      cases hrow'
      rcases acknowledged_status _ _ s.now with hstatus | hstatus
      · rw [hstatus] at hrunning
        cases hrunning
      · rw [hstatus] at hrunning
        cases hrunning
  | @failedOnce workerId error row hheld =>
      cases hrow'
      simp only [ReviewJobRow.failedOnce] at hrunning
      split at hrunning
      · cases hrunning
      · cases hrunning
  | @pushed _ body hbody hid =>
      cases hrow'
      have hinactive := pushedRow_inactive body s.now
      rw [hrunning] at hinactive
      cases hinactive
  | @overwritten _ body row hbody hid =>
      cases hrow'
      have hinactive := row.overwrittenBy_inactive body s.now
      rw [hrunning] at hinactive
      cases hinactive
  | _ =>
      cases hrow'
      cases hrunning

theorem exec_runningRowsLocked
    (actions : List HostedAction) :
    RunningRowsLocked (exec (step hashRunnerCredential) HostedState.empty actions) := by
  apply exec_preserves
  · intro s a h j row' hrow'
    have hchange := step_rowChange hashRunnerCredential s a j
    rw [hrow'] at hchange
    exact hchange.running_locked (h j)
  · rintro j row ⟨⟩

/-- The lease of a running row that is not live has run out: a claim can take it. -/
theorem claimable_of_lapsed
    {row : ReviewJobRow} {now : Nat}
    (hrunning : row.status = .running)
    (hlocked : row.lockedUntil ≠ none)
    (hlapsed : row.leaseLive now ≠ true) :
    row.claimable now = true := by
  obtain ⟨t, ht⟩ := Option.ne_none_iff_exists'.mp hlocked
  simp only [ReviewJobRow.claimable, decide_eq_true_eq]
  refine .inr ⟨hrunning, t, ht, ?_⟩
  by_contra hlt
  apply hlapsed
  simp only [ReviewJobRow.leaseLive, decide_eq_true_eq]
  exact ⟨t, ht, by omega⟩

/-- A failure report of a job without attempts left makes it failed. -/
theorem failReviewJob_used_up
    {s s' : HostedState} {j : Uuid} {workerId : String} {error : ReviewJobErrorClass}
    {row : ReviewJobRow}
    (hrow : s.reviewJobs.find? j = some row)
    (hused : maxReviewJobAttempts ≤ row.attempts)
    (h : failReviewJob s j workerId error = .ok s') :
    (s'.reviewJobs.find? j).map ReviewJobRow.status = some .failed := by
  obtain ⟨row', eventType, payload, hrow', _, _, rfl⟩ := failReviewJob_eq_ok h
  rw [hrow] at hrow'
  cases hrow'
  rw [insertAgentEvent_reviewJobs, HostedState.alterJob_find?, if_pos rfl, hrow]
  simp [ReviewJobRow.failedOnce, hused]

/-- A run with bounded attempts never ticks past the lease of a last attempt. -/
theorem AttemptsBounded.lastLeasesKept
    {actions : List HostedAction}
    (hbounded : AttemptsBounded hashRunnerCredential HostedState.empty actions) :
    Along (step hashRunnerCredential) LastLeasesKept HostedState.empty actions := by
  rw [along_iff_split]
  intro before a rest hsplit
  cases a with
  | advanceClock elapsed =>
      intro j row hrow hrunning hused
      by_contra hlapsed
      have hafter :
          (exec (step hashRunnerCredential) HostedState.empty
            (before ++ [.advanceClock elapsed])).reviewJobs.find? j = some row := by
        rw [exec_append]
        exact hrow
      -- the stretch since the last requeue, with the tick that ends the lease
      obtain ⟨first, stretch, hcut, hfree, hcount⟩ :=
        attemptsIn_eq_claimsIn hashRunnerCredential (before ++ [.advanceClock elapsed]) j
      rw [hafter] at hcount
      obtain ⟨hnot, _, _⟩ :=
        hbounded.used_up first stretch rest (by simp [hsplit, ← hcut]) j hfree
          (hused.trans_eq hcount.symm) row (by rw [← hcut]; exact hafter)
      rw [← hcut, exec_append] at hnot
      have hclaimable :=
        claimable_of_lapsed hrunning
          (exec_runningRowsLocked before j row hrow hrunning) hlapsed
      exact Bool.false_ne_true (hnot.symm.trans hclaimable)
  | _ => trivial

/-- While last leases are kept, every row stays within its attempts. -/
theorem exec_rowsWithinAttempts
    {actions : List HostedAction}
    (hkept : Along (step hashRunnerCredential) LastLeasesKept HostedState.empty actions) :
    RowsWithinAttempts (exec (step hashRunnerCredential) HostedState.empty actions) := by
  refine exec_invariant (P := LastLeasesKept) ?_ hkept ?_
  · intro s a h hlast
    exact step_rowsWithinAttempts h hlast
  · rintro j row ⟨⟩

theorem RowsWithinAttempts.attemptsIn_le
    {s : HostedState}
    (h : RowsWithinAttempts s)
    (j : Uuid) :
    attemptsIn (s.reviewJobs.find? j) ≤ maxReviewJobAttempts := by
  cases hrow : s.reviewJobs.find? j with
  | none => exact Nat.zero_le _
  | some row => exact (h j row hrow).le

/-- A row within its attempts that has used them all is over or under a live lease. -/
theorem WithinAttempts.used_up
    {s : HostedState} {row : ReviewJobRow}
    (h : WithinAttempts s row)
    (hused : maxReviewJobAttempts ≤ row.attempts) :
    row.claimable s.now = false ∧ row.status ≠ .pending := by
  have hpending : row.status ≠ .pending := by
    intro hpending
    exact absurd hused (Nat.not_le.mpr (h.pending_lt hpending))
  refine ⟨?_, hpending⟩
  exact claimable_eq_false_of_live hpending
    (fun hrunning => h.last_live hrunning hused)

variable (hashRunnerCredential) in
/--
**When attempts are bounded.**  In a run from the empty store attempts are bounded
exactly when the clock never reaches the end of the lease of a job on its last
attempt.
-/
theorem attemptsBounded_iff_lastLeasesKept
    (actions : List HostedAction) :
    AttemptsBounded hashRunnerCredential HostedState.empty actions ↔
      Along (step hashRunnerCredential) LastLeasesKept HostedState.empty actions := by
  constructor
  · exact AttemptsBounded.lastLeasesKept
  · intro hkept
    have hwithin :
        ∀ before stretch rest, actions = before ++ stretch ++ rest →
          RowsWithinAttempts
            (exec (step hashRunnerCredential) HostedState.empty (before ++ stretch)) := by
      rintro before stretch rest rfl
      exact exec_rowsWithinAttempts
        ((along_append _ (before ++ stretch) rest).mp hkept).1
    refine ⟨?_, ?_⟩
    · intro before stretch rest hsplit j hfree
      have htotal := attemptsIn_stretch hfree
      rw [← exec_append] at htotal
      have hle := (hwithin before stretch rest hsplit).attemptsIn_le j
      omega
    · intro before stretch rest hsplit j hfree hclaims row hrow
      have htotal := attemptsIn_stretch hfree
      rw [← exec_append, hrow] at htotal
      have hused : maxReviewJobAttempts ≤ row.attempts := by
        simp only [attemptsIn] at htotal
        omega
      obtain ⟨hnot, hpending⟩ := (hwithin before stretch rest hsplit j row hrow).used_up hused
      refine ⟨hnot, hpending, ?_⟩
      intro workerId error s' hfail
      exact failReviewJob_used_up hrow hused hfail

/-- A stretch without the requeue action is requeue-free, whatever it returns. -/
theorem requeueFree_of_not_mem
    {j : Uuid} {actions : List HostedAction}
    (s : HostedState)
    (h : .requeueReviewJob j ∉ actions) :
    RequeueFree hashRunnerCredential j s actions := by
  apply (along_iff_split s actions).mpr
  rintro before a rest rfl
  cases a with
  | requeueReviewJob jobId =>
      have hne : jobId ≠ j := by
        rintro rfl
        exact h (by simp)
      simp [requeuesJob, hne]
  | _ => rfl

end Limit

end Attempts

/-- A job whose runner claims it and is never heard of again, four times over. -/
def claimedFourTimes : List HostedAction :=
  pairLaptop ++
    [enqueueHead "delivery-1" firstJobId "head-1" firstHead_ne,
      .claimJob laptopRunner "lease-1" firstJobId,
      .advanceClock reviewJobLeaseInterval,
      .claimJob laptopRunner "lease-2" firstJobId,
      .advanceClock reviewJobLeaseInterval,
      .claimJob laptopRunner "lease-3" firstJobId,
      .advanceClock reviewJobLeaseInterval,
      .claimJob laptopRunner "lease-4" firstJobId]

/-- The lease of its third attempt runs out and the job is handed out a fourth time. -/
theorem claimed_past_the_limit :
    ¬ AttemptsBounded sampleHash HostedState.empty claimedFourTimes := by
  intro hbounded
  have hclaims : claimsIn sampleHash firstJobId HostedState.empty claimedFourTimes = 4 := by
    decide
  have hle :=
    hbounded.claims_le [] claimedFourTimes [] (List.append_nil _).symm firstJobId
      (requeueFree_of_not_mem _ (by decide))
  rw [exec_nil, hclaims] at hle
  exact absurd hle (by decide)

end Hosted
end PrReviewer
