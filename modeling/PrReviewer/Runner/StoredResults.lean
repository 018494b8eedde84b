import PrReviewer.Runner.Runs

/-!
# A stored result is not computed again

While the result of a job waits among the pending acknowledgements, the executor
should not be asked for it again.  The daemon asks the executor in two places:
for the job a poll handed out, and in recovery for a job whose lease the
heartbeat called active.  Neither place looks at the pending acknowledgements.
-/

namespace PrReviewer
namespace Runner

open Lib

def DaemonOp.isReview : DaemonOp → Bool
  | .review _ => true
  | _ => false

section StoredResults

variable {codec : Codec} {ω : Type} (config : DaemonConfig) (surroundings : Surroundings ω)

/-- The step asks the executor for a job whose result is stored. -/
def reviewsStored (w : RunnerState codec ω) : DaemonOp → Bool
  | .review job => w.store.holdsPending job.jobId
  | _ => false

/--
A poll hands out, or a heartbeat of the recovery calls active, a job whose result
is stored; the daemon has an executor and can record the job.
-/
def handsBack (w : RunnerState codec ω) : DaemonOp → Bool
  | .claim .poll =>
      match received (decodeClaim codec) (w.post surroundings (.claim w.credential)).1 with
      | .ok (.envelope job) =>
          config.hasReview && w.onStoreThread && fitsLocalJobs job &&
            w.store.holdsPending job.jobId
      | _ => false
  | .heartbeat .recover jobId leaseToken =>
      match received decodeHeartbeat
          (w.post surroundings (.heartbeat w.credential jobId leaseToken)).1 with
      | .ok .active => config.hasReview && w.store.holdsPending jobId
      | _ => false
  | _ => false

end StoredResults

/-! ## The parts of the daemon that never call the executor -/

section WithoutReview

variable {codec : Codec} {config : DaemonConfig}

theorem not_isReview_of_landsResult
    {jobId : Uuid} (op : DaemonOp)
    (h : op.landsResult jobId = true) :
    op.isReview = false := by
  cases op with
  | review job => cases h
  | _ => rfl

theorem landPendingResult_without_review
    (jobId : Uuid) (result : JobAcknowledgement) :
    Program.Only (fun op => op.isReview = false)
      (landPendingResult codec config jobId result) :=
  (landPendingResult_only jobId result).mono not_isReview_of_landsResult

theorem completeJob_without_review
    (jobId : Uuid) (leaseToken : String) (result : JobAcknowledgement) :
    Program.Only (fun op => op.isReview = false)
      (completeJob codec config jobId leaseToken result) :=
  (completeJob_only jobId leaseToken result).mono not_isReview_of_landsResult

theorem replayPendingAcknowledgements_without_review :
    Program.Only (fun op => op.isReview = false)
      (replayPendingAcknowledgements codec config) := by
  refine Program.only_bind (only_askStore rfl) ?_
  intro entries
  refine Program.only_forEach ?_
  intro entry _
  unfold replayEntry
  split
  · exact landPendingResult_without_review entry.jobId entry.result
  · refine Program.only_bind
      (exceptRetryable_only (clientAcknowledge_only rfl)) ?_
    intro landed
    cases landed with
    | true => exact Program.only_bind (only_askStore rfl) (fun _ => only_askStore rfl)
    | false => exact only_askStore rfl

end WithoutReview

/-! ## The methods -/

section Methods

variable {codec : Codec} {ω : Type} {config : DaemonConfig} {surroundings : Surroundings ω}

/-- What never calls the executor is safe from any state. -/
theorem safe_of_without_review
    {α : Type} {p : Daemon α}
    (h : Program.Only (fun op => op.isReview = false) p)
    (w : RunnerState codec ω) :
    Program.Safe (answer surroundings)
      (fun w op => handsBack config surroundings w op = false)
      (fun w op => reviewsStored w op = false) p
      (fun _ _ => True) (fun _ _ => True) w := by
  refine h.safe (I := fun _ => True) ?_ trivial
  intro w' op hop _
  refine ⟨?_, fun _ => trivial⟩
  cases op with
  | review job => cases hop
  | _ => rfl

/-- The executor is asked for a job without a stored result, and the result is completed. -/
theorem safe_review_then_complete
    {w : RunnerState codec ω} {job : JobEnvelope}
    (hfree : w.store.holdsPending job.jobId = false) :
    Program.Safe (answer surroundings)
      (fun w op => handsBack config surroundings w op = false)
      (fun w op => reviewsStored w op = false)
      (do
        let result ← review job
        completeJob codec config job.jobId job.leaseToken result)
      (fun _ _ => True) (fun _ _ => True) w := by
  rw [Program.bind_eq, Program.safe_bind, safe_review]
  refine ⟨hfree, fun _ => ?_⟩
  cases (answer surroundings (.review job) w).1 with
  | none => trivial
  | some result =>
      exact safe_of_without_review
        (completeJob_without_review job.jobId job.leaseToken result) _

theorem safe_runClaimedJob
    {w : RunnerState codec ω} {job : JobEnvelope}
    (hfree : config.hasReview = true → w.onStoreThread = true → fitsLocalJobs job = true →
      w.store.holdsPending job.jobId = false) :
    Program.Safe (answer surroundings)
      (fun w op => handsBack config surroundings w op = false)
      (fun w op => reviewsStored w op = false)
      (runClaimedJob codec config job) (fun _ _ => True) (fun _ _ => True) w := by
  refine safe_runClaimedJob_of
    (R := fun w₁ => config.hasReview = true → w₁.store.holdsPending job.jobId = false)
    ?_ ?_ (fun _ _ => trivial)
  · refine safe_askStore_of rfl ?_ (fun _ => trivial)
    intro _ store _ hthread happly hreview
    simp only [applyStore] at happly
    split at happly
    · next hfits =>
        cases happly
        exact hfree hreview hthread hfits
    · cases happly
  · intro w₁ hw₁ hreview
    exact safe_review_then_complete (hw₁ hreview)

theorem safe_processOnce
    (w : RunnerState codec ω) :
    Program.Safe (answer surroundings)
      (fun w op => handsBack config surroundings w op = false)
      (fun w op => reviewsStored w op = false)
      (processOnce codec config) (fun _ _ => True) (fun _ _ => True) w := by
  refine safe_processOnce_of (R := fun _ => True) rfl trivial ?_ (fun _ _ => rfl)
    (fun _ _ _ _ _ => ⟨trivial, trivial⟩) (fun _ _ _ _ => trivial) ?_ ?_
  · intro _
    exact safe_of_without_review (refreshCredential_only rfl (fun _ => rfl)) w
  · intro _ reason _ _ _
    exact safe_of_without_review (noteIfRevoked_only (by rfl) reason) _
  · intro w₁ job _ hassumed hclaimed
    refine safe_runClaimedJob ?_
    intro hreview hthread hfits
    have hbefore : w₁.onStoreThread = true := hthread
    simp only [handsBack, hclaimed, hreview, hbefore, hfits, Bool.true_and] at hassumed
    exact hassumed

theorem safe_recoverJob
    (w : RunnerState codec ω) (job : LocalJob) :
    Program.Safe (answer surroundings)
      (fun w op => handsBack config surroundings w op = false)
      (fun w op => reviewsStored w op = false)
      (recoverJob codec config job) (fun _ _ => True) (fun _ _ => True) w := by
  refine safe_recoverJob_of rfl trivial (fun _ => trivial) ?_ ?_
  · intro _ _ _ _
    exact safe_of_without_review (only_askStore rfl) _
  · intro hlease hreview hassumed
    simp only [handsBack, hlease, hreview, Bool.true_and] at hassumed
    exact safe_review_then_complete hassumed

theorem safe_recover
    (w : RunnerState codec ω) :
    Program.Safe (answer surroundings)
      (fun w op => handsBack config surroundings w op = false)
      (fun w op => reviewsStored w op = false)
      (recover codec config) (fun _ _ => True) (fun _ _ => True) w := by
  unfold recover
  rw [Program.bind_eq, Program.safe_bind]
  refine (safe_of_without_review (only_askStore rfl) w).mono ?_ (fun _ _ _ => trivial)
  intro jobs w' _
  exact Program.safe_forEach (fun job _ w'' _ => safe_recoverJob w'' job) trivial

theorem safe_daemonMethod
    (method : DaemonMethod) (w : RunnerState codec ω) :
    Program.Safe (answer surroundings)
      (fun w op => handsBack config surroundings w op = false)
      (fun w op => reviewsStored w op = false)
      (method.program codec config) (fun _ _ => True) (fun _ _ => True) w := by
  cases method with
  | processOnce => exact safe_processOnce w
  | replayPendingAcknowledgements =>
      exact safe_of_without_review replayPendingAcknowledgements_without_review w
  | start =>
      simp only [DaemonMethod.program, start, Program.bind_eq]
      rw [Program.safe_bind]
      refine (safe_recover w).mono ?_ (fun _ _ _ => trivial)
      intro _ w' _
      exact safe_of_without_review replayPendingAcknowledgements_without_review w'

end Methods

section StoredResultsRuns

variable {codec : Codec} {ω : Type}

/--
In a run in which no job with a stored result is handed back, the executor is
never asked for one.
-/
theorem stored_results_reused
    (config : DaemonConfig) (surroundings : Surroundings ω)
    (w : RunnerState codec ω) (commands : List DaemonCommand)
    (hfree : ∀ x ∈ runSteps config surroundings w commands,
      handsBack config surroundings x.1 x.2 = false) :
    ∀ x ∈ runSteps config surroundings w commands, reviewsStored x.1 x.2 = false :=
  runSteps_guaranteed (I := fun _ => True) (fun method w' _ => safe_daemonMethod method w')
    (fun _ _ _ => trivial) (fun _ _ _ _ => trivial) commands w trivial hfree

end StoredResultsRuns

/-- A claim, a review, an acknowledgement that is lost; then a new process, and an answer. -/
def lostAcknowledgement (heartbeat : Outcome) : RunnerState strictCodec (List Outcome) :=
  freshProcess strictCodec
    [answered 200 firstEnvelope.dump, .transportError, heartbeat]

def pollThenRestart : List DaemonCommand :=
  [.call .processOnce none, .restart "credential" true, .call .start none]

/-- The lease expired meanwhile: the stored result stays, and is not computed again. -/
theorem expired_lease_reuses_stored_result :
    (∃ x ∈ runSteps sampleConfig (scripted (some sampleResult))
        (lostAcknowledgement (answered 200 (.obj [("status", .str "invalid_or_expired")])))
        pollThenRestart,
      x.1.store.holdsPending sampleJobId = true) ∧
    ∀ x ∈ runSteps sampleConfig (scripted (some sampleResult))
        (lostAcknowledgement (answered 200 (.obj [("status", .str "invalid_or_expired")])))
        pollThenRestart,
      reviewsStored x.1 x.2 = false := by
  refine ⟨by decide, ?_⟩
  exact stored_results_reused sampleConfig (scripted (some sampleResult))
    (lostAcknowledgement (answered 200 (.obj [("status", .str "invalid_or_expired")])))
    pollThenRestart (by decide)

/-- The lease is still active: recovery runs before the replay and asks the executor again. -/
theorem active_lease_reviews_stored_result :
    ∃ x ∈ runSteps sampleConfig (scripted (some sampleResult))
        (lostAcknowledgement (answered 200 (.obj [("status", .str "active")])))
        pollThenRestart,
      reviewsStored x.1 x.2 = true := by
  decide

end Runner
end PrReviewer
