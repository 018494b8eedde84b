import PrReviewer.Hosted.ActiveJobs
import PrReviewer.Workflow.Engine

/-!
# The values of `review_jobs.last_error`

The column has three writers.  `fail_review_job` writes a member of
`ReviewJobErrorClass`, `requeue_review_job` clears it, and `acknowledge_job` copies
`error_class` out of the runner's message, which the contract leaves a free string.
The column keeps to the closed set in exactly the runs whose acknowledgements under
a live lease do.
-/

namespace PrReviewer
namespace Hosted

open Lib Workflow

/-- Null, or the value of a member of `ReviewJobErrorClass`. -/
def InErrorClasses (lastError : Option String) : Prop :=
  ∀ text ∈ lastError, ∃ error : ReviewJobErrorClass, text = error.value

/-- Every `last_error` is null or the value of a member. -/
def LastErrorsClosed (s : HostedState) : Prop :=
  ∀ j row, s.reviewJobs.find? j = some row → InErrorClasses row.lastError

section ErrorClasses

variable (hashRunnerCredential : String → String)

/--
The acknowledgement the step brings, when it can be written and is for a running job
under its live lease, names no error or one of the closed set.
-/
def AcknowledgesInClass (s : HostedState) : HostedAction → Prop
  | .acknowledgeJob runnerId jobId leaseToken ack =>
      ∀ row, s.reviewJobs.find? jobId = some row →
        row.leasedUnder runnerId (hashRunnerCredential leaseToken) = true →
        row.status = .running → row.leaseLive s.now = true →
        acknowledgementRefusal ack = none →
        InErrorClasses ack.errorClass
  | _ => True

variable {hashRunnerCredential}

/-- What a change leaves in `last_error`. -/
theorem RowChange.lastError
    {s : HostedState} {j : Uuid} {a : HostedAction}
    {row? : Option ReviewJobRow} {row' : ReviewJobRow}
    (hinClass : AcknowledgesInClass hashRunnerCredential s a)
    (hrow : row? = s.reviewJobs.find? j)
    (h : RowChange hashRunnerCredential s j a row? (some row'))
    (hbefore : ∀ row, row? = some row → InErrorClasses row.lastError) :
    InErrorClasses row'.lastError := by
  generalize hrow' : some row' = after at h
  cases h with
  | unchanged =>
      exact hbefore row' hrow'.symm
  | enqueuedBare =>
      cases hrow'
      rintro text ⟨⟩
  | enqueued hinstalled =>
      cases hrow'
      rintro text ⟨⟩
  | acknowledged hleased hrunning hlive hwritten =>
      cases hrow'
      exact hinClass _ hrow.symm hleased hrunning hlive hwritten
  | @failedOnce workerId error row hheld =>
      cases hrow'
      rintro text ⟨⟩
      exact ⟨error, rfl⟩
  | requeued hfailed hfree =>
      cases hrow'
      rintro text ⟨⟩
  | pushed hbody hid =>
      cases hrow'
      rintro text ⟨⟩
  | _ =>
      cases hrow'
      have hkept := hbefore _ rfl
      exact hkept

/-- The steps that keep the column closed are those whose acknowledgement is in the set. -/
theorem step_lastErrorsClosed_iff
    (s : HostedState) (a : HostedAction)
    (h : LastErrorsClosed s) :
    LastErrorsClosed (step hashRunnerCredential s a) ↔
      AcknowledgesInClass hashRunnerCredential s a := by
  constructor
  · intro hafter
    cases a with
    | acknowledgeJob runnerId jobId leaseToken ack =>
        intro row hrow hleased hrunning hlive hwritten
        have hstep :
            step hashRunnerCredential s (.acknowledgeJob runnerId jobId leaseToken ack) =
              acknowledgedState s jobId ack := by
          simp only [step, acknowledgeJob_of_live hrow hleased hrunning hlive hwritten]
          rfl
        apply hafter jobId (row.acknowledged ack s.now)
        rw [hstep, acknowledgedState_find?, if_pos rfl, hrow]
        rfl
    | _ => trivial
  · intro hinClass j row' hrow'
    have hchange := step_rowChange hashRunnerCredential s a j
    rw [hrow'] at hchange
    exact hchange.lastError hinClass rfl (h j)

variable (hashRunnerCredential) in
/--
**When error classes are closed.**  In every state of a run from the empty store
`last_error` is null or a member's value exactly when every acknowledgement made in
it under a live lease names no error or a member's value.
-/
theorem lastErrorsClosed_iff_acknowledgesInClass
    (actions : List HostedAction) :
    Throughout (step hashRunnerCredential) LastErrorsClosed HostedState.empty actions ↔
      Along (step hashRunnerCredential) (AcknowledgesInClass hashRunnerCredential)
        HostedState.empty actions := by
  apply throughout_iff_along step_lastErrorsClosed_iff
  rintro j row ⟨⟩

end ErrorClasses

/-- The report of a review whose pull request got a new head while it ran. -/
def supersededReport : JobAcknowledgement where
  terminalState := .failed
  errorClass := some "superseded"
  inputTokens := 0
  outputTokens := 0
  costUsd := { text := "0" }
  latencyMs := 0
  localResultHash := "sha256:cancelled:superseded"
  localResultHash_ne := by decide

/-- The job is claimed and its report accepted. -/
def acknowledgedSuperseded : List HostedAction :=
  pairLaptop ++
    [enqueueHead "delivery-1" firstJobId "head-1" firstHead_ne,
      .claimJob laptopRunner "lease-1" firstJobId,
      .acknowledgeJob laptopRunner.runnerId firstJobId "lease-1" supersededReport]

/--
The report is what `SimpleEngine.review` makes of a checkpoint that saw another
head, and it puts a text outside the closed set into the column.
-/
theorem superseded_report_outside_classes :
    (checkpoint (some .active) (some "head-2") "head-1").bind
        (reviewAcknowledgement sampleHash) = some supersededReport ∧
      ¬ Throughout (step sampleHash) LastErrorsClosed HostedState.empty
          acknowledgedSuperseded := by
  refine ⟨by decide, ?_⟩
  intro hclosed
  have hfinal :=
    (throughout_iff_split _ _).mp hclosed acknowledgedSuperseded [] (List.append_nil _).symm
  have hwritten :
      ((exec (step sampleHash) HostedState.empty acknowledgedSuperseded).reviewJobs.find?
        firstJobId).map ReviewJobRow.lastError = some (some "superseded") := by
    decide
  obtain ⟨row, hrow, hlast⟩ := Option.map_eq_some_iff.mp hwritten
  obtain ⟨error, herror⟩ := hfinal firstJobId row hrow "superseded" hlast
  cases error with
  | workerCrashed => exact absurd herror (by decide)
  | shutdownRequested => exact absurd herror (by decide)

end Hosted
end PrReviewer
