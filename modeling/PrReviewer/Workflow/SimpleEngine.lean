import PrReviewer.Workflow.Store

/-!
# The plain engine

workflow/simple_engine.py.  `_checkpoint` and `_emit` are word for word the same in both
engines, and so is `review` but for the `run` it calls.
-/

namespace PrReviewer

open Lib
open Runner (WorkflowInput)

namespace Workflow

/-- Which functions an engine was given, and its step timeouts. -/
structure Engine where
  heartbeat : Bool
  currentHeadSha : Bool
  recordEvent : Bool
  stepTimeouts : StepName → Option ℚ

section Shared

variable {Obj Exc : Type} (engine : Engine)

/-- `_emit`. -/
def Engine.emit (jobId eventType : String) (payload : Json) : EngineProgram Obj Exc Unit :=
  if engine.recordEvent then callEngine (.recordEvent jobId eventType payload) else pure ()

/-- The heartbeat of `_checkpoint`. -/
def Engine.checkLease (inp : WorkflowInput) : EngineProgram Obj Exc (Option WorkflowResult) :=
  if engine.heartbeat then do
    let lease ← callEngine (.heartbeat inp)
    match lease with
    | .cancelled => do
        engine.emit inp.jobId "workflow.cancelled" (.obj [("reason", .str "cancelled")])
        pure (some { status := .cancelled, reason := some "cancelled" })
    | .invalidOrExpired => do
        engine.emit inp.jobId "workflow.failed" (.obj [("reason", .str "invalid_or_expired")])
        pure (some { status := .failed, reason := some "invalid_or_expired" })
    | .active => pure none
  else
    pure none

/-- The head check of `_checkpoint`. -/
def Engine.checkHead (inp : WorkflowInput) : EngineProgram Obj Exc (Option WorkflowResult) :=
  if engine.currentHeadSha then do
    let live ← callEngine (.currentHeadSha inp)
    if live ≠ inp.headSha then do
      engine.emit inp.jobId "workflow.cancelled" (.obj [("reason", .str "superseded")])
      pure (some { status := .cancelled, reason := some "superseded" })
    else
      pure none
  else
    pure none

/-- `_checkpoint`. -/
def Engine.checkpoint (inp : WorkflowInput) : EngineProgram Obj Exc (Option WorkflowResult) := do
  let stopped ← engine.checkLease inp
  match stopped with
  | some result => pure (some result)
  | none => engine.checkHead inp

/-- The second reading of the clock, when the step has a timeout. -/
def Engine.checkTimeout (name : StepName) (started : ℚ) : EngineProgram Obj Exc Unit :=
  match engine.stepTimeouts name with
  | none => pure ()
  | some timeout => do
      let now ← callEngine .monotonic
      if timeout < now - started then Program.raise (.timeout name) else pure ()

end Shared

/-- How an engine is started. -/
inductive Start where
  | run (workflowId : String) (inp : WorkflowInput)
  | resume (workflowId : String)

namespace SimpleEngine

variable {Obj Exc : Type} (engine : Engine)

/-- The body of the loop of `_advance` once the checkpoint is passed. -/
def runStep (workflowId : String) (inp : WorkflowInput) (name : StepName) :
    EngineProgram Obj Exc Unit := do
  let started ← callEngine .monotonic
  let output ← callEngine (.handler name inp)
  engine.checkTimeout name started
  callEngine (.markStepCompleted workflowId name output)
  callEngine (.putOutput name output)
  engine.emit inp.jobId "workflow.step_completed" (.obj [("step", .str name.text)])

/-- The loop of `_advance`: `some result` is an early return. -/
def runSteps (workflowId : String) (inp : WorkflowInput) :
    List StepName → EngineProgram Obj Exc (Option WorkflowResult)
  | [] => pure none
  | name :: rest => do
      if ← callEngine (.hasOutput name) then
        runSteps workflowId inp rest
      else
        match ← engine.checkpoint inp with
        | some stopped => do
            callEngine (.setOutcome workflowId stopped.status stopped.reason)
            pure (some stopped)
        | none => do
            runStep engine workflowId inp name
            runSteps workflowId inp rest

/-- `_advance`. -/
def advance (workflowId : String) (inp : WorkflowInput) :
    EngineProgram Obj Exc WorkflowResult := do
  let state ← callEngine (.getState workflowId)
  match state.outcome with
  | some status => pure { status := status, reason := state.reason }
  | none => do
      callEngine (.completedOutputs workflowId)
      match ← runSteps engine workflowId inp stepNames with
      | some stopped => pure stopped
      | none => do
          callEngine (.setOutcome workflowId .completed none)
          pure { status := .completed, reason := none }

/-- `run`. -/
def run (workflowId : String) (inp : WorkflowInput) : EngineProgram Obj Exc WorkflowResult := do
  callEngine (.ensureRun workflowId inp)
  advance engine workflowId inp

/-- `resume`. -/
def resume (workflowId : String) : EngineProgram Obj Exc WorkflowResult := do
  let inp ← callEngine (.loadInput workflowId)
  advance engine workflowId inp

def start : Start → EngineProgram Obj Exc WorkflowResult
  | .run workflowId inp => run engine workflowId inp
  | .resume workflowId => resume engine workflowId

/-- The input `review` makes of an envelope. -/
def inputOf (job : JobEnvelope) : WorkflowInput where
  jobId := job.jobId.text
  headSha := job.headSha
  traceId := job.traceId.text
  leaseToken := job.leaseToken

/-- The acknowledgement of `review`, built from the result. -/
def acknowledge (hexdigest : String → String) (result : WorkflowResult) :
    EngineProgram Obj Exc JobAcknowledgement :=
  match reviewAcknowledgement hexdigest result with
  | some ack => pure ack
  | none => Program.raise .validationError

/-- `review`. -/
def review (hexdigest : String → String) (job : JobEnvelope) :
    EngineProgram Obj Exc JobAcknowledgement := do
  let result ← run engine job.jobId.text (inputOf job)
  acknowledge hexdigest result

end SimpleEngine

end Workflow
end PrReviewer
