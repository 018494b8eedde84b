import PrReviewer.Contracts

/-!
# Results of the workflow engines

workflow/engine.py and the parts of workflow/simple_engine.py that decide what a
review reports: the checkpoint before each step, and the acknowledgement `review`
makes of a workflow's result.
-/

namespace PrReviewer
namespace Workflow

/-- `WorkflowStatus`. -/
inductive WorkflowStatus where
  | completed
  | cancelled
  | failed
deriving DecidableEq, Repr

/-- The status as it stands in an f-string. -/
def WorkflowStatus.text : WorkflowStatus → String
  | .completed => "completed"
  | .cancelled => "cancelled"
  | .failed => "failed"

structure WorkflowResult where
  status : WorkflowStatus
  reason : Option String
deriving DecidableEq, Repr

/--
`SimpleEngine._checkpoint`, from the answers of the heartbeat and of the head
lookup; `none` is a function that was not given to the engine.
-/
def checkpoint
    (lease : Option LeaseState)
    (currentHeadSha : Option String)
    (headSha : String) :
    Option WorkflowResult :=
  match lease with
  | some .cancelled => some { status := .cancelled, reason := some "cancelled" }
  | some .invalidOrExpired => some { status := .failed, reason := some "invalid_or_expired" }
  | _ =>
      match currentHeadSha with
      | none => none
      | some live =>
          if live ≠ headSha then
            some { status := .cancelled, reason := some "superseded" }
          else
            none

/--
The acknowledgement `SimpleEngine.review` makes of a result.  `hexdigest` is the
SHA-256 of a text in hexadecimal digits; the model refuses an empty digest.
-/
def reviewAcknowledgement
    (hexdigest : String → String)
    (result : WorkflowResult) :
    Option JobAcknowledgement :=
  let digest := hexdigest (result.status.text ++ ":" ++ result.reason.getD "None")
  if h : digest ≠ "" then
    some
      { terminalState := if result.status = .completed then .succeeded else .failed
        errorClass := if result.status = .completed then none else result.reason
        inputTokens := 0
        outputTokens := 0
        costUsd := { text := "0" }
        latencyMs := 0
        localResultHash := digest
        localResultHash_ne := h }
  else
    none

end Workflow
end PrReviewer
