import PrReviewer.Runner.LocalDatabase
import PrReviewer.Lib.Program
import Mathlib.Data.List.Sort
import Mathlib.Data.Rat.Defs

/-!
# What a workflow engine calls

The reads of `SqliteWorkflowStore`, and the calls an engine makes: on the store, on the
dictionary of outputs it hands to the step handlers, and on the functions it was given.
Those functions may do anything, to the dictionary and to the file too; what they need is
a state of their own.

The values of the outputs are Python objects: a type of its own, with what `json.dumps`
and `json.loads` make of them.
-/

namespace PrReviewer

open Lib
open Runner (LocalDatabase WorkflowInput WorkflowRun WorkflowStep)

namespace Workflow

inductive StepName where
  | fetch
  | baselineReview
  | retrieval
  | verification
  | routing
  | storage
deriving DecidableEq, Repr

/-- The name as it stands in the store and in the dictionary. -/
def StepName.text : StepName → String
  | .fetch => "fetch"
  | .baselineReview => "baseline_review"
  | .retrieval => "retrieval"
  | .verification => "verification"
  | .routing => "routing"
  | .storage => "storage"

/-- `STEP_NAMES`. -/
def stepNames : List StepName :=
  [.fetch, .baselineReview, .retrieval, .verification, .routing, .storage]

/-- `WorkflowState`. -/
structure WorkflowState where
  workflowId : String
  completedSteps : List StepName
  outcome : Option WorkflowStatus
  reason : Option String
deriving DecidableEq, Repr

/-- A dict with text keys, in the order in which they were set. -/
abbrev Outputs (Obj : Type) : Type :=
  List (String × Obj)

/-- `name in outputs`. -/
def Outputs.has {Obj : Type} (outputs : Outputs Obj) (name : String) : Bool :=
  (outputs.lookup name).isSome

/-- `outputs[name] = output`. -/
def Outputs.set {Obj : Type} (outputs : Outputs Obj) (name : String) (output : Obj) :
    Outputs Obj :=
  if outputs.has name then
    outputs.map (fun item => if item.1 = name then (name, output) else item)
  else
    outputs ++ [(name, output)]

end Workflow

namespace Runner
namespace LocalDatabase

variable {codec : Codec} {Obj : Type} (db : LocalDatabase codec) (loads : Json → Obj)

/-- `load_input`; `none` is its KeyError. -/
def loadInput (workflowId : String) : Option WorkflowInput :=
  (db.workflowRuns.find? workflowId).map WorkflowRun.input

/-- The rows of the workflow in `workflow_steps`. -/
def stepsOf (workflowId : String) : List WorkflowStep :=
  db.workflowSteps.rows.filter (fun step => decide (step.workflowId = workflowId))

/-- `completed_outputs`: the rows `order by completed_at, step_name`. -/
def completedOutputs (workflowId : String) : Workflow.Outputs Obj :=
  ((db.stepsOf workflowId).insertionSort (fun step step' =>
      step.completedAt < step'.completedAt ∨
        (step.completedAt = step'.completedAt ∧ step.stepName ≤ step'.stepName))).map
    (fun step => (step.stepName, loads step.output))

/-- `get_state`; `none` is its KeyError. -/
def getState (workflowId : String) : Option Workflow.WorkflowState :=
  (db.workflowRuns.find? workflowId).map (fun run =>
    { workflowId := workflowId
      completedSteps := Workflow.stepNames.filter
        (fun name => (db.completedOutputs loads workflowId).has name.text)
      outcome := run.outcome
      reason := run.reason })

end LocalDatabase
end Runner

namespace Workflow

/-- What an engine works on: the file, the dictionary of the running call, and the rest. -/
structure EngineState (codec : Codec) (Obj W : Type) where
  db : LocalDatabase codec
  outputs : Outputs Obj
  world : W

/-- What a call of an engine raises: its own errors, and those of what it calls. -/
inductive EngineError (Exc : Type) where
  | keyError (workflowId : String)
  | timeout (step : StepName)
  | validationError
  | raised (e : Exc)
deriving DecidableEq, Repr

/-- The calls of an engine. -/
inductive EngineOp (Obj : Type) where
  | ensureRun (workflowId : String) (inp : WorkflowInput)
  | loadInput (workflowId : String)
  | getState (workflowId : String)
  | completedOutputs (workflowId : String)
  | hasOutput (name : StepName)
  | heartbeat (inp : WorkflowInput)
  | currentHeadSha (inp : WorkflowInput)
  | monotonic
  | handler (name : StepName) (inp : WorkflowInput)
  | markStepCompleted (workflowId : String) (name : StepName) (output : Obj)
  | putOutput (name : StepName) (output : Obj)
  | setOutcome (workflowId : String) (status : WorkflowStatus) (reason : Option String)
  | recordEvent (jobId eventType : String) (payload : Json)

/-- What a call returns. -/
abbrev EngineOp.Value {Obj : Type} : EngineOp Obj → Type
  | .loadInput _ => WorkflowInput
  | .getState _ => WorkflowState
  | .hasOutput _ => Bool
  | .heartbeat _ => LeaseState
  | .currentHeadSha _ => String
  | .monotonic => ℚ
  | .handler _ _ => Obj
  | _ => Unit

abbrev EngineOp.Result {Obj : Type} (Exc : Type) (op : EngineOp Obj) : Type :=
  Except (EngineError Exc) op.Value

abbrev EngineProgram (Obj Exc α : Type) : Type :=
  Program (fun op : EngineOp Obj => op.Result Exc) (EngineError Exc) α

/-- A call: what it raises is raised. -/
def callEngine {Obj Exc : Type} (op : EngineOp Obj) : EngineProgram Obj Exc op.Value := do
  let result ← (Program.perform op : EngineProgram Obj Exc (op.Result Exc))
  Program.ofExcept result

/-- The functions an engine is given, the clocks, and the json module. -/
structure Surroundings (codec : Codec) (Obj Exc W : Type) where
  heartbeat :
    WorkflowInput → EngineState codec Obj W → Except Exc LeaseState × EngineState codec Obj W
  currentHeadSha :
    WorkflowInput → EngineState codec Obj W → Except Exc String × EngineState codec Obj W
  handler :
    StepName → WorkflowInput → EngineState codec Obj W →
      Except Exc Obj × EngineState codec Obj W
  recordEvent :
    String → String → Json → EngineState codec Obj W →
      Except Exc Unit × EngineState codec Obj W
  monotonic : EngineState codec Obj W → ℚ × EngineState codec Obj W
  now : EngineState codec Obj W → Nat
  dumps : Obj → Except Exc Json
  loads : Json → Obj

/-- What a function that was given raised. -/
def external {Exc α σ : Type} (x : Except Exc α × σ) : Except (EngineError Exc) α × σ :=
  (x.1.mapError .raised, x.2)

/-- How the surroundings answer a call. -/
def Surroundings.answer {codec : Codec} {Obj Exc W : Type} (env : Surroundings codec Obj Exc W) :
    (op : EngineOp Obj) → EngineState codec Obj W → op.Result Exc × EngineState codec Obj W
  | .ensureRun workflowId inp, s =>
      (.ok (), { s with db := s.db.ensureRun workflowId inp (env.now s) })
  | .loadInput workflowId, s =>
      match s.db.loadInput workflowId with
      | some inp => (.ok inp, s)
      | none => (.error (.keyError workflowId), s)
  | .getState workflowId, s =>
      match s.db.getState env.loads workflowId with
      | some state => (.ok state, s)
      | none => (.error (.keyError workflowId), s)
  | .completedOutputs workflowId, s =>
      (.ok (), { s with outputs := s.db.completedOutputs env.loads workflowId })
  | .hasOutput name, s => (.ok (s.outputs.has name.text), s)
  | .heartbeat inp, s => external (env.heartbeat inp s)
  | .currentHeadSha inp, s => external (env.currentHeadSha inp s)
  | .monotonic, s => (.ok (env.monotonic s).1, (env.monotonic s).2)
  | .handler name inp, s => external (env.handler name inp s)
  | .markStepCompleted workflowId name output, s =>
      match env.dumps output with
      | .ok json =>
          (.ok (),
            { s with db := s.db.markStepCompleted workflowId name.text json (env.now s) })
      | .error e => (.error (.raised e), s)
  | .putOutput name output, s =>
      (.ok (), { s with outputs := s.outputs.set name.text output })
  | .setOutcome workflowId status reason, s =>
      (.ok (), { s with db := s.db.setOutcome workflowId status reason })
  | .recordEvent jobId eventType payload, s => external (env.recordEvent jobId eventType payload s)

/--
Surroundings in which the lease is active, the head is current and the handlers return:
their outputs are JSON values, computed from the input and the dictionary.
-/
def Surroundings.calm
    (codec : Codec) (output : StepName → WorkflowInput → Outputs Json → Json) :
    Surroundings codec Json Unit Unit where
  heartbeat := fun _ s => (.ok .active, s)
  currentHeadSha := fun inp s => (.ok inp.headSha, s)
  handler := fun name inp s => (.ok (output name inp s.outputs), s)
  recordEvent := fun _ _ _ s => (.ok (), s)
  monotonic := fun s => (0, s)
  now := fun s => s.db.workflowSteps.rows.length
  dumps := .ok
  loads := id

end Workflow
end PrReviewer
