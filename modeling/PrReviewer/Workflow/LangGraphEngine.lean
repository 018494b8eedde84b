import PrReviewer.Workflow.SimpleEngine

/-!
# The LangGraph engine

workflow/langgraph_engine.py, and its equivalence to the plain engine.

LangGraph itself is a parameter: what `compile().invoke` makes of a graph.  What the code
relies on is stated for linear chains: the nodes run once each, in the order of the chain,
and what a node returns is merged into the state.  The nodes that come after a stop do
nothing, so that the chain makes the calls of a loop with an early return.
-/

namespace PrReviewer

open Lib
open Runner (WorkflowInput LocalDatabase)

namespace Workflow

/-- The `status` of a `_GraphState`. -/
inductive GraphStatus where
  | running
  | stopped (status : WorkflowStatus)
deriving DecidableEq, Repr

/-- `_GraphState`: both keys may be missing. -/
structure GraphState where
  status : Option GraphStatus
  reason : Option (Option String)
deriving DecidableEq, Repr

/-- The keys a node returns replace those of the state. -/
def GraphState.merge (state update : GraphState) : GraphState where
  status := update.status.or state.status
  reason := update.reason.or state.reason

/-- The vertices of a graph, with `START` and `END`. -/
inductive Vertex where
  | start
  | node (name : StepName)
  | finish
deriving DecidableEq, Repr

abbrev Node (Obj Exc : Type) : Type :=
  GraphState → EngineProgram Obj Exc GraphState

/-- What `add_node` and `add_edge` have put together. -/
structure StateGraph (Obj Exc : Type) where
  nodes : List (StepName × Node Obj Exc)
  edges : List (Vertex × Vertex)

namespace StateGraph

variable {Obj Exc : Type}

def empty : StateGraph Obj Exc where
  nodes := []
  edges := []

def addNode (graph : StateGraph Obj Exc) (name : StepName) (node : Node Obj Exc) :
    StateGraph Obj Exc :=
  { graph with nodes := graph.nodes ++ [(name, node)] }

def addEdge (graph : StateGraph Obj Exc) (left right : Vertex) : StateGraph Obj Exc :=
  { graph with edges := graph.edges ++ [(left, right)] }

/-- The edges of the chain from `START` through the names to `END`. -/
def chainEdges (names : List StepName) : List (Vertex × Vertex) :=
  (Vertex.start :: names.map Vertex.node).zip (names.map Vertex.node ++ [.finish])

/-- The nodes of a list, each one followed by the next. -/
def chain (nodes : List (StepName × Node Obj Exc)) : StateGraph Obj Exc where
  nodes := nodes
  edges := chainEdges (nodes.map Prod.fst)

/-- The nodes run in order, and what each one returns is merged into the state. -/
def runChain : List (StepName × Node Obj Exc) → GraphState → EngineProgram Obj Exc GraphState
  | [], state => pure state
  | (_, node) :: rest, state => do
      let update ← node state
      runChain rest (state.merge update)

end StateGraph

/-- `graph.compile().invoke(state)`. -/
abbrev Invoke (Obj Exc : Type) : Type :=
  StateGraph Obj Exc → GraphState → EngineProgram Obj Exc (Option GraphState)

/-- LangGraph runs a linear chain once in order, and returns the merged state. -/
def RunsChains {Obj Exc : Type} (invoke : Invoke Obj Exc) : Prop :=
  ∀ nodes state, nodes ≠ [] → (nodes.map Prod.fst).Nodup →
    invoke (.chain nodes) state =
      (StateGraph.runChain nodes state).bind (fun result => .ret (some result))

namespace LangGraphEngine

variable {Obj Exc : Type} (invoke : Invoke Obj Exc) (engine : Engine)

/-- The node of `_make_node`. -/
def node (workflowId : String) (inp : WorkflowInput) (name : StepName) : Node Obj Exc :=
  fun state =>
    match state.status with
    | some (.stopped .cancelled) | some (.stopped .failed) =>
        pure
          { status := some (state.status.getD (.stopped .failed))
            reason := some (state.reason.getD none) }
    | _ => do
        if ← callEngine (.hasOutput name) then
          pure { status := some .running, reason := some none }
        else
          match ← engine.checkpoint inp with
          | some stopped => do
              callEngine (.setOutcome workflowId stopped.status stopped.reason)
              pure { status := some (.stopped stopped.status), reason := some stopped.reason }
          | none => do
              let started ← callEngine .monotonic
              let output ← callEngine (.handler name inp)
              engine.checkTimeout name started
              callEngine (.markStepCompleted workflowId name output)
              callEngine (.putOutput name output)
              engine.emit inp.jobId "workflow.step_completed" (.obj [("step", .str name.text)])
              pure { status := some .running, reason := some none }

/-- The graph `_advance` builds. -/
def graph (workflowId : String) (inp : WorkflowInput) : StateGraph Obj Exc :=
  let nodes := stepNames.foldl
    (fun g name => g.addNode name (node engine workflowId inp name)) StateGraph.empty
  let first := nodes.addEdge .start (.node .fetch)
  let middle := (stepNames.zip stepNames.tail).foldl
    (fun g pair => g.addEdge (.node pair.1) (.node pair.2)) first
  middle.addEdge (.node .storage) .finish

/-- `_advance`. -/
def advance (workflowId : String) (inp : WorkflowInput) :
    EngineProgram Obj Exc WorkflowResult := do
  let state ← callEngine (.getState workflowId)
  match state.outcome with
  | some status => pure { status := status, reason := state.reason }
  | none => do
      callEngine (.completedOutputs workflowId)
      let result ← invoke (graph engine workflowId inp)
        { status := some .running, reason := some none }
      let reason := (result.bind GraphState.reason).join
      match result.bind GraphState.status with
      | some (.stopped .cancelled) => pure { status := .cancelled, reason := reason }
      | some (.stopped .failed) => pure { status := .failed, reason := reason }
      | _ => do
          callEngine (.setOutcome workflowId .completed none)
          pure { status := .completed, reason := none }

/-- `run`. -/
def run (workflowId : String) (inp : WorkflowInput) : EngineProgram Obj Exc WorkflowResult := do
  callEngine (.ensureRun workflowId inp)
  advance invoke engine workflowId inp

/-- `resume`. -/
def resume (workflowId : String) : EngineProgram Obj Exc WorkflowResult := do
  let inp ← callEngine (.loadInput workflowId)
  advance invoke engine workflowId inp

end LangGraphEngine

/-! ## The two engines make the same calls -/

section Equivalence

variable {Obj Exc : Type} {invoke : Invoke Obj Exc} (engine : Engine)

/-- A result that stops a workflow before it is complete. -/
def Stops (stopped : Option WorkflowResult) : Prop :=
  ∀ result, stopped = some result → result.status ≠ .completed

theorem returns_callEngine
    {P : α → Prop} {op : EngineOp Obj} {next : op.Value → EngineProgram Obj Exc α}
    (h : ∀ value, Program.Returns P (next value)) :
    Program.Returns P ((callEngine op).bind next) := by
  intro result
  cases result with
  | ok value => exact h value
  | error e => trivial

theorem returns_emit
    {P : α → Prop} {jobId eventType : String} {payload : Json}
    {next : Unit → EngineProgram Obj Exc α}
    (h : Program.Returns P (next ())) :
    Program.Returns P ((engine.emit jobId eventType payload).bind next) := by
  unfold Engine.emit
  split
  · exact returns_callEngine (fun _ => h)
  · exact h

/-- A checkpoint stops the workflow as cancelled or failed. -/
theorem checkpoint_stops
    (inp : WorkflowInput) :
    Program.Returns Stops
      (engine.checkpoint inp : EngineProgram Obj Exc (Option WorkflowResult)) := by
  have hnone : Stops none := by
    rintro result ⟨⟩
  have hlease : Program.Returns Stops
      (engine.checkLease inp : EngineProgram Obj Exc (Option WorkflowResult)) := by
    unfold Engine.checkLease
    split
    · apply returns_callEngine
      intro lease
      cases lease with
      | active => exact hnone
      | cancelled =>
          apply returns_emit
          rintro result ⟨⟩ ⟨⟩
      | invalidOrExpired =>
          apply returns_emit
          rintro result ⟨⟩ ⟨⟩
    · exact hnone
  refine Program.returns_bind hlease ?_
  intro stopped hstopped
  cases stopped with
  | some result => exact hstopped
  | none =>
      simp only [Engine.checkHead]
      split
      · apply returns_callEngine
        intro live
        split
        · apply returns_emit
          rintro result ⟨⟩ ⟨⟩
        · exact hnone
      · exact hnone

/-- The state of the chain while the loop goes on, or once it has returned a result. -/
def GraphState.of : Option WorkflowResult → GraphState
  | none => { status := some .running, reason := some none }
  | some stopped => { status := some (.stopped stopped.status), reason := some stopped.reason }

/-- The nodes that come after a stop do nothing. -/
theorem runChain_stopped
    {stopped : WorkflowResult} (hstopped : stopped.status ≠ .completed)
    (workflowId : String) (inp : WorkflowInput) (names : List StepName) :
    StateGraph.runChain
        (names.map (fun name =>
          (name, (LangGraphEngine.node engine workflowId inp name : Node Obj Exc))))
        (.of (some stopped)) =
      .ret (.of (some stopped)) := by
  induction names with
  | nil => rfl
  | cons name rest ih =>
      have hnode : LangGraphEngine.node engine workflowId inp name (.of (some stopped)) =
          (.ret (.of (some stopped)) : EngineProgram Obj Exc GraphState) := by
        obtain ⟨status, reason⟩ := stopped
        cases status with
        | completed => exact absurd rfl hstopped
        | cancelled => rfl
        | failed => rfl
      rw [List.map_cons, StateGraph.runChain, hnode]
      exact ih

/-- The chain makes the calls of the loop. -/
theorem runChain_eq_runSteps
    (workflowId : String) (inp : WorkflowInput) (names : List StepName) :
    StateGraph.runChain
        (names.map (fun name =>
          (name, (LangGraphEngine.node engine workflowId inp name : Node Obj Exc))))
        (.of none) =
      (SimpleEngine.runSteps engine workflowId inp names).bind
        (fun stopped => .ret (.of stopped)) := by
  induction names with
  | nil => rfl
  | cons name rest ih =>
      simp only [List.map_cons, StateGraph.runChain, LangGraphEngine.node, GraphState.of,
        SimpleEngine.runSteps, Program.bind_eq, Program.bind_assoc] at ih ⊢
      congr 1
      funext present
      cases present with
      | true => exact ih
      | false =>
          simp only [Bool.false_eq_true, if_false, Program.bind_assoc]
          apply Program.bind_congr_of_returns (checkpoint_stops engine inp)
          intro stopped hstopped
          cases stopped with
          | some result =>
              simp only [Program.bind_assoc]
              congr 1
              funext _
              exact runChain_stopped engine (hstopped result rfl) workflowId inp rest
          | none =>
              simp only [SimpleEngine.runStep, Program.bind_eq, Program.bind_assoc, ← ih]
              rfl

/-- What `runSteps` stops with is not a completed workflow. -/
theorem runSteps_stops
    (workflowId : String) (inp : WorkflowInput) (names : List StepName) :
    Program.Returns Stops
      (SimpleEngine.runSteps engine workflowId inp names :
        EngineProgram Obj Exc (Option WorkflowResult)) := by
  induction names with
  | nil =>
      rintro result ⟨⟩
  | cons name rest ih =>
      apply returns_callEngine
      intro present
      cases present with
      | true => exact ih
      | false =>
          refine Program.returns_bind (checkpoint_stops engine inp) ?_
          intro stopped hstopped
          cases stopped with
          | some result => exact returns_callEngine (fun _ => hstopped)
          | none =>
              exact Program.returns_bind (P := fun _ => True) (Program.returns_true _)
                (fun _ _ => ih)

theorem graph_eq_chain
    (workflowId : String) (inp : WorkflowInput) :
    (LangGraphEngine.graph engine workflowId inp : StateGraph Obj Exc) =
      .chain (stepNames.map (fun name =>
        (name, LangGraphEngine.node engine workflowId inp name))) := by
  rfl

/-- The two `_advance` are the same program. -/
theorem advance_eq
    (hinvoke : RunsChains invoke) (workflowId : String) (inp : WorkflowInput) :
    LangGraphEngine.advance invoke engine workflowId inp =
      SimpleEngine.advance engine workflowId inp := by
  unfold LangGraphEngine.advance SimpleEngine.advance
  simp only [Program.bind_eq]
  congr 1
  funext state
  cases state.outcome with
  | some status => rfl
  | none =>
      simp only
      congr 1
      funext _
      rw [graph_eq_chain, hinvoke _ _ (by simp [stepNames]) (by simp [stepNames])]
      change ((StateGraph.runChain _ (.of none)).bind _).bind _ = _
      rw [runChain_eq_runSteps, Program.bind_assoc, Program.bind_assoc]
      apply Program.bind_congr_of_returns (runSteps_stops engine workflowId inp stepNames)
      intro stopped hstopped
      cases stopped with
      | none => rfl
      | some result =>
          obtain ⟨status, reason⟩ := result
          cases status with
          | completed => exact absurd rfl (hstopped _ rfl)
          | cancelled => rfl
          | failed => rfl

end Equivalence

section Engines

variable {Obj Exc : Type}

def LangGraphEngine.start (invoke : Invoke Obj Exc) (engine : Engine) :
    Start → EngineProgram Obj Exc WorkflowResult
  | .run workflowId inp => run invoke engine workflowId inp
  | .resume workflowId => resume invoke engine workflowId

/--
From every state and in all surroundings the two engines end in the same way, leave the
same state, and make the same calls in the same states.
-/
theorem engines_equivalent
    {codec : Codec} {W : Type}
    (invoke : Invoke Obj Exc) (hinvoke : RunsChains invoke)
    (engine : Engine) (env : Surroundings codec Obj Exc W)
    (start : Start) (s : EngineState codec Obj W) :
    Program.run env.answer (LangGraphEngine.start invoke engine start) s =
        Program.run env.answer (SimpleEngine.start engine start) s ∧
      Program.steps env.answer (LangGraphEngine.start invoke engine start) s =
        Program.steps env.answer (SimpleEngine.start engine start) s := by
  have hsame : LangGraphEngine.start invoke engine start =
      (SimpleEngine.start engine start : EngineProgram Obj Exc WorkflowResult) := by
    cases start with
    | run workflowId inp =>
        simp only [LangGraphEngine.start, LangGraphEngine.run, SimpleEngine.start,
          SimpleEngine.run, advance_eq engine hinvoke]
    | resume workflowId =>
        simp only [LangGraphEngine.start, LangGraphEngine.resume, SimpleEngine.start,
          SimpleEngine.resume, advance_eq engine hinvoke]
  rw [hsame]
  exact ⟨rfl, rfl⟩

/-- An `invoke` that runs linear chains and no other graph. -/
def invokeChain : Invoke Obj Exc :=
  fun graph state =>
    if graph.edges = StateGraph.chainEdges (graph.nodes.map Prod.fst) then
      (StateGraph.runChain graph.nodes state).bind (fun result => .ret (some result))
    else
      .ret none

theorem runsChains_invokeChain :
    RunsChains (invokeChain : Invoke Obj Exc) := by
  intro nodes state _ _
  exact if_pos rfl

end Engines

/-- A run on a new file, with a heartbeat, a head check and an event recorder. -/
theorem engines_equivalent_new :
    RunsChains (invokeChain : Invoke Json Unit) ∧
      let engine : Engine :=
        { heartbeat := true
          currentHeadSha := true
          recordEvent := true
          stepTimeouts := fun _ => some 60 }
      let inp : WorkflowInput :=
        { jobId := "job", headSha := "head", traceId := "trace", leaseToken := "lease" }
      let env := Surroundings.calm strictCodec (fun name _ _ => .str name.text)
      let s : EngineState strictCodec Json Unit :=
        { db := .empty strictCodec, outputs := [], world := () }
      Program.run env.answer (LangGraphEngine.start invokeChain engine (.run "job" inp)) s =
          Program.run env.answer (SimpleEngine.start engine (.run "job" inp)) s ∧
        Program.steps env.answer (LangGraphEngine.start invokeChain engine (.run "job" inp)) s =
          Program.steps env.answer (SimpleEngine.start engine (.run "job" inp)) s :=
  ⟨runsChains_invokeChain,
    engines_equivalent invokeChain runsChains_invokeChain _ _ (.run "job" _) _⟩

end Workflow
end PrReviewer
