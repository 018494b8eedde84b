import PrReviewer.Workflow.Histories

/-!
# Workflows that come to their end

In favourable surroundings (the lease is active, the head is current, and what an engine
calls returns) a call of a workflow that has no outcome yet runs the handler of every step
that is not recorded, in order, and completes.
-/

namespace PrReviewer

open Lib
open Runner (LocalDatabase WorkflowInput WorkflowRun)

namespace Workflow

section Progress

variable {codec : Codec} {Obj Exc W : Type}

/-- The lease is active, the head is current, and the calls return in time. -/
structure Surroundings.Favours (env : Surroundings codec Obj Exc W) (engine : Engine) : Prop where
  leaves : env.LeavesStore
  leaseActive : ∀ inp s, (env.heartbeat inp s).1 = .ok .active
  headCurrent : ∀ inp s, (env.currentHeadSha inp s).1 = .ok inp.headSha
  handler : ∀ name inp s, ∃ output json,
    (env.handler name inp s).1 = .ok output ∧ env.dumps output = .ok json
  recordEvent : ∀ jobId eventType payload s,
    (env.recordEvent jobId eventType payload s).1 = .ok ()
  inTime : ∀ name inp s timeout, engine.stepTimeouts name = some timeout →
    (env.monotonic (env.handler name inp (env.monotonic s).2).2).1 - (env.monotonic s).1 ≤
      timeout

/-- The law that asks nothing of outputs and inputs. -/
def Law.any : Law where
  ideal := False
  record := fun _ _ => True
  input := fun _ _ => True

variable {env : Surroundings codec Obj Exc W} {engine : Engine} {workflowId : String}
variable {inp : WorkflowInput} {s s' : EngineState codec Obj W}

theorem respects_any
    (h : env.LeavesStore) :
    Law.any.Respects env := by
  refine ⟨h, fun _ _ _ _ _ _ _ _ _ _ _ _ _ => trivial, ?_, ?_, ?_⟩
  · rintro ⟨⟩
  · rintro ⟨⟩
  · rintro ⟨⟩

/-- A call that is answered. -/
theorem runs_callEngine
    {op : EngineOp Obj} {value : op.Value}
    (h : (env.answer op s).1 = .ok value) :
    Program.Runs env.answer (callEngine op : EngineProgram Obj Exc op.Value) s value
      (env.answer op s).2 [(s, op)] := by
  unfold callEngine Program.perform
  rw [Program.bind_eq]
  constructor
  · simp only [Program.bind, Program.run, h, Program.ofExcept]
  · simp only [Program.bind, Program.steps, h, Program.ofExcept]

/-- The program returns, and leaves the dictionary and the two tables alone. -/
def Passes {α : Type} (env : Surroundings codec Obj Exc W) (p : EngineProgram Obj Exc α)
    (s : EngineState codec Obj W) (a : α) : Prop :=
  ∃ s' trace, Program.Runs env.answer p s a s' trace ∧ s.SameStore s'

theorem passes_reading
    {op : EngineOp Obj} {value : op.Value}
    (henv : env.LeavesStore) (hop : op.reads = true)
    (h : (env.answer op s).1 = .ok value) :
    Passes env (callEngine op) s value :=
  ⟨_, _, runs_callEngine h, sameStore_answer henv op hop s⟩

theorem Passes.bind
    {α β : Type} {p : EngineProgram Obj Exc α} {f : α → EngineProgram Obj Exc β} {a : α} {b : β}
    (hp : Passes env p s a)
    (hf : ∀ s', s.SameStore s' → Passes env (f a) s' b) :
    Passes env (p.bind f) s b := by
  obtain ⟨s₁, trace, hruns, hsame⟩ := hp
  obtain ⟨s₂, trace', hruns', hsame'⟩ := hf s₁ hsame
  exact ⟨s₂, _, hruns.bind hruns', hsame.trans hsame'⟩

theorem passes_ret
    {α : Type} (a : α) :
    Passes env (.ret a) s a :=
  ⟨s, [], Program.runs_ret a s, .rfl s⟩

theorem passes_emit
    (henv : env.Favours engine) (jobId eventType : String) (payload : Json) :
    Passes env (engine.emit jobId eventType payload) s () := by
  unfold Engine.emit
  split
  · apply passes_reading henv.leaves rfl
    exact external_eq_ok.mpr (henv.recordEvent jobId eventType payload s)
  · exact passes_ret ()

/-- Nothing stops the workflow. -/
theorem passes_checkpoint
    (henv : env.Favours engine) :
    Passes env (engine.checkpoint inp) s none := by
  have hlease : Passes env (engine.checkLease inp) s none := by
    unfold Engine.checkLease
    split
    · have hactive : (env.answer (.heartbeat inp) s).1 = .ok .active :=
        external_eq_ok.mpr (henv.leaseActive inp s)
      exact (passes_reading henv.leaves rfl hactive).bind (fun _ _ => passes_ret none)
    · exact passes_ret none
  refine hlease.bind ?_
  intro s₁ _
  simp only [Engine.checkHead]
  split
  · have hlive : (env.answer (.currentHeadSha inp) s₁).1 = .ok inp.headSha :=
      external_eq_ok.mpr (henv.headCurrent inp s₁)
    refine (passes_reading henv.leaves rfl hlive).bind ?_
    intro s₂ _
    simp only [ne_eq, not_true_eq_false, if_false]
    exact passes_ret none
  · exact passes_ret none

/-- A clock reading within the limit. -/
theorem passes_checkTimeout
    {name : StepName} {started : ℚ}
    (henv : env.LeavesStore)
    (hlimit : ∀ timeout, engine.stepTimeouts name = some timeout →
      (env.monotonic s).1 - started ≤ timeout) :
    Passes env (engine.checkTimeout name started) s () := by
  unfold Engine.checkTimeout
  split
  · exact passes_ret ()
  · next timeout htimeout =>
      have hnow : Passes env (callEngine .monotonic) s (env.monotonic s).1 :=
        passes_reading henv rfl rfl
      refine hnow.bind ?_
      intro s₁ _
      rw [if_neg (not_lt.mpr (hlimit timeout htimeout))]
      exact passes_ret ()

/-- The handler of the step runs, and the step returns. -/
theorem runs_runStep
    (henv : env.Favours engine) (workflowId : String) (inp : WorkflowInput) (name : StepName)
    (s : EngineState codec Obj W) :
    ∃ s' trace, Program.Runs env.answer
        (SimpleEngine.runStep engine workflowId inp name : EngineProgram Obj Exc Unit) s () s'
        trace ∧
      ∃ s₁, (s₁, EngineOp.handler name inp) ∈ trace := by
  let s₁ := (env.monotonic s).2
  let s₂ := (env.handler name inp s₁).2
  obtain ⟨output, json, houtput, hjson⟩ := henv.handler name inp s₁
  have hstarted : Program.Runs env.answer
      (callEngine .monotonic : EngineProgram Obj Exc ℚ) s (env.monotonic s).1 s₁
      [(s, .monotonic)] := runs_callEngine rfl
  have hhandler : Program.Runs env.answer
      (callEngine (.handler name inp) : EngineProgram Obj Exc Obj) s₁ output s₂
      [(s₁, .handler name inp)] := runs_callEngine (external_eq_ok.mpr houtput)
  obtain ⟨s₃, trace₃, hin, _⟩ := passes_checkTimeout (s := s₂) henv.leaves
    (fun timeout htimeout => henv.inTime name inp s timeout htimeout)
  let s₄ : EngineState codec Obj W :=
    { s₃ with db := s₃.db.markStepCompleted workflowId name.text json (env.now s₃) }
  have hmark : Program.Runs env.answer
      (callEngine (.markStepCompleted workflowId name output) : EngineProgram Obj Exc Unit)
      s₃ () s₄ [(s₃, .markStepCompleted workflowId name output)] := by
    have hanswer : env.answer (.markStepCompleted workflowId name output) s₃ =
        (.ok (), s₄) := by
      simp only [Surroundings.answer, hjson, s₄]
    have hok : (env.answer (.markStepCompleted workflowId name output) s₃).1 = .ok () := by
      rw [hanswer]
    have hruns := runs_callEngine hok
    rw [hanswer] at hruns
    exact hruns
  have hput : Program.Runs env.answer
      (callEngine (.putOutput name output) : EngineProgram Obj Exc Unit) s₄ ()
      { s₄ with outputs := s₄.outputs.set name.text output } [(s₄, .putOutput name output)] :=
    runs_callEngine rfl
  obtain ⟨s₆, trace₆, hemit, _⟩ := passes_emit
    (s := { s₄ with outputs := s₄.outputs.set name.text output }) henv inp.jobId
    "workflow.step_completed" (.obj [("step", .str name.text)])
  refine ⟨s₆, [(s, .monotonic)] ++ ([(s₁, .handler name inp)] ++ (trace₃ ++
    ([(s₃, .markStepCompleted workflowId name output)] ++ ([(s₄, .putOutput name output)] ++
      trace₆)))), ?_, s₁, by simp⟩
  exact hstarted.bind (hhandler.bind (hin.bind (hmark.bind (hput.bind hemit))))

/-- A step that is not among the recorded ones. -/
theorem mem_drop_iff_not_recorded
    {db : LocalDatabase codec} {law : Law} {name : StepName}
    (h : law.Holds db) :
    name ∈ stepNames.drop (db.recorded workflowId).length ↔
      name.text ∉ (db.recorded workflowId).map Prod.fst := by
  rw [h.inOrder]
  generalize (db.recorded workflowId).length = k
  have hmem : name.text ∈ (stepNames.take k).map StepName.text ↔ name ∈ stepNames.take k := by
    constructor
    · intro h
      obtain ⟨name', hname', htext⟩ := List.mem_map.mp h
      rw [← StepName.text_injective htext]
      exact hname'
    · intro h
      exact List.mem_map_of_mem h
  have hnodup : (stepNames.take k ++ stepNames.drop k).Nodup := by
    rw [List.take_append_drop]
    decide
  have hall : name ∈ stepNames.take k ++ stepNames.drop k := by
    rw [List.take_append_drop]
    cases name <;> decide
  rw [hmem]
  constructor
  · intro hdrop htake
    exact (List.nodup_append.mp hnodup).2.2 name htake name hdrop rfl
  · intro hnot
    exact (List.mem_append.mp hall).resolve_left hnot

/-- The loop of `_advance` runs the handler of every step that is not recorded. -/
theorem runs_runSteps
    {law : Law} {rest : List StepName} {i : Nat}
    (henv : env.Favours engine) (hres : law.Respects env) (hinp : law.input workflowId inp)
    (hrest : stepNames.drop i = rest)
    (hready : law.Ready env workflowId s)
    (hi : i ≤ (s.db.recorded workflowId).length) :
    ∃ s' trace, Program.Runs env.answer
        (SimpleEngine.runSteps engine workflowId inp rest :
          EngineProgram Obj Exc (Option WorkflowResult)) s none s' trace ∧
      ∀ name ∈ stepNames.drop (s.db.recorded workflowId).length,
        ∃ s₁, (s₁, EngineOp.handler name inp) ∈ trace := by
  induction rest generalizing i s with
  | nil =>
      refine ⟨s, [], Program.runs_ret none s, ?_⟩
      intro name hname
      have hend := List.drop_eq_nil_iff.mp hrest
      rw [List.drop_eq_nil_of_le (by omega)] at hname
      cases hname
  | cons first rest ih =>
      have hfirst : stepNames[i]? = some first := by
        rw [← List.head?_drop, hrest]
        rfl
      have hdrop : stepNames.drop (i + 1) = rest := by
        rw [← List.drop_drop, hrest]
        rfl
      have hpresent : Program.Runs env.answer
          (callEngine (.hasOutput first) : EngineProgram Obj Exc Bool) s
          (s.outputs.has first.text) s [(s, .hasOutput first)] := runs_callEngine rfl
      unfold SimpleEngine.runSteps
      cases hvalue : s.outputs.has first.text with
      | true =>
          rw [hvalue] at hpresent
          have hmem := (hready.keys first.text).mp hvalue
          have hne : i ≠ (s.db.recorded workflowId).length := by
            rintro rfl
            exact not_recorded hready.holds hfirst hmem
          have hlt : i + 1 ≤ (s.db.recorded workflowId).length := by omega
          obtain ⟨s', trace, hruns, hhandlers⟩ := ih hdrop hready hlt
          refine ⟨s', _, hpresent.bind hruns, ?_⟩
          intro name hname
          obtain ⟨s₁, hs₁⟩ := hhandlers name hname
          exact ⟨s₁, List.mem_append_right _ hs₁⟩
      | false =>
          rw [hvalue] at hpresent
          have heq : i = (s.db.recorded workflowId).length := by
            by_contra hne
            have hlt : i < (s.db.recorded workflowId).length := by omega
            have hmem := recorded_of_lt hready.holds hfirst hlt
            rw [← hready.keys, hvalue] at hmem
            cases hmem
          subst heq
          have hpasses : Passes env (engine.checkpoint inp) s none := passes_checkpoint henv
          obtain ⟨s₁, trace₁, hcheck, hsame⟩ := hpasses
          have hready₁ := hready.of_same hsame
          obtain ⟨s₂, trace₂, hstep, s₀, hs₀⟩ := runs_runStep henv workflowId inp first s₁
          have hfirst₁ : stepNames[(s₁.db.recorded workflowId).length]? = some first := by
            rw [hsame.recorded]
            exact hfirst
          obtain ⟨hready₂, hlength⟩ := (safe_runStep hres hready₁ hinp hfirst₁).of_ok
            (fun _ _ => trivial) (congrArg Prod.fst hstep.run)
          rw [hstep.run] at hready₂ hlength
          rw [hsame.recorded] at hlength
          obtain ⟨s', trace, hruns, hhandlers⟩ := ih hdrop hready₂ (by omega)
          refine ⟨s', _, hpresent.bind (hcheck.bind (hstep.bind hruns)), ?_⟩
          intro name hname
          rw [hrest] at hname
          rcases List.mem_cons.mp hname with rfl | hlater
          · exact ⟨s₀, by simp [hs₀]⟩
          · obtain ⟨s₃, hs₃⟩ := hhandlers name (by rw [hlength, hdrop]; exact hlater)
            exact ⟨s₃, by simp [hs₃]⟩

/-- The workflow has no outcome yet. -/
def Unfinished (db : LocalDatabase codec) (workflowId : String) : Prop :=
  ∃ run, db.workflowRuns.find? workflowId = some run ∧ run.outcome = none

/-- `_advance` completes a workflow that has no outcome yet. -/
theorem runs_advance
    {law : Law} (inp : WorkflowInput)
    (henv : env.Favours engine) (hres : law.Respects env) (hinp : law.input workflowId inp)
    (hholds : law.Holds s.db) (hunfinished : Unfinished s.db workflowId) :
    ∃ s' trace, Program.Runs env.answer
        (SimpleEngine.advance engine workflowId inp : EngineProgram Obj Exc WorkflowResult) s
        { status := .completed, reason := none } s' trace ∧
      ∀ name ∈ stepNames.drop (s.db.recorded workflowId).length,
        ∃ s₁, (s₁, EngineOp.handler name inp) ∈ trace := by
  obtain ⟨run, hrun, hnone⟩ := hunfinished
  let state : WorkflowState :=
    { workflowId := workflowId
      completedSteps := stepNames.filter
        (fun name => (s.db.completedOutputs env.loads workflowId).has name.text)
      outcome := none
      reason := run.reason }
  have hstate : s.db.getState env.loads workflowId = some state := by
    simp [LocalDatabase.getState, hrun, hnone, state]
  have hanswer : env.answer (.getState workflowId) s = (.ok state, s) := by
    simp only [Surroundings.answer, hstate]
  have hget := runs_callEngine (congrArg Prod.fst hanswer)
  rw [hanswer] at hget
  let s₁ : EngineState codec Obj W :=
    { s with outputs := s.db.completedOutputs env.loads workflowId }
  have houtputs : Program.Runs env.answer
      (callEngine (.completedOutputs workflowId) : EngineProgram Obj Exc Unit) s () s₁
      [(s, .completedOutputs workflowId)] := runs_callEngine rfl
  obtain ⟨s₂, trace, hsteps, hhandlers⟩ :=
    runs_runSteps (s := s₁) (i := 0) henv hres hinp rfl (ready_completedOutputs hholds)
      (Nat.zero_le _)
  have hset : Program.Runs env.answer
      (callEngine (.setOutcome workflowId .completed none) : EngineProgram Obj Exc Unit) s₂ ()
      { s₂ with db := s₂.db.setOutcome workflowId .completed none }
      [(s₂, .setOutcome workflowId .completed none)] := runs_callEngine rfl
  let result : WorkflowResult := { status := .completed, reason := none }
  have hend : Program.Runs env.answer
      ((callEngine (.setOutcome workflowId .completed none) : EngineProgram Obj Exc Unit).bind
        (fun _ => .ret result)) s₂ result
      { s₂ with db := s₂.db.setOutcome workflowId .completed none } _ :=
    hset.bind (Program.runs_ret result _)
  unfold SimpleEngine.advance
  refine ⟨_, _, hget.bind (houtputs.bind (hsteps.bind hend)), ?_⟩
  intro name hname
  obtain ⟨s₃, hs₃⟩ := hhandlers name hname
  exact ⟨s₃, by simp [hs₃]⟩

/-- The row of a workflow that is entered: the one that stands, or the new one. -/
theorem find?_ensureRun
    (db : LocalDatabase codec) (workflowId : String) (inp : WorkflowInput) (now : Nat) :
    ∃ run, (db.ensureRun workflowId inp now).workflowRuns.find? workflowId = some run ∧
      (db.workflowRuns.find? workflowId = some run ∨
        (db.workflowRuns.find? workflowId = none ∧ run.input = inp ∧ run.outcome = none)) := by
  let row : WorkflowRun :=
    { workflowId := workflowId, input := inp, outcome := none, reason := none, createdAt := now }
  have hruns : (db.ensureRun workflowId inp now).workflowRuns =
      (db.workflowRuns.insert? row).getD db.workflowRuns := rfl
  rw [hruns]
  cases hinsert : db.workflowRuns.insert? row with
  | none =>
      obtain ⟨run, hrun⟩ := Table.insert?_eq_none_iff.mp hinsert
      exact ⟨run, hrun, .inl hrun⟩
  | some runs =>
      have hfind := Table.find?_insert? hinsert workflowId
      rw [if_pos rfl] at hfind
      exact ⟨row, hfind, .inr ⟨(Table.insert?_eq_some hinsert).1, rfl, rfl⟩⟩

/-- `run` completes a workflow that has no outcome yet, or is new. -/
theorem runs_run
    {law : Law} (inp : WorkflowInput)
    (henv : env.Favours engine) (hres : law.Respects env) (hinp : law.input workflowId inp)
    (hholds : law.Holds s.db)
    (hopen : ∀ run, s.db.workflowRuns.find? workflowId = some run → run.outcome = none) :
    ∃ s' trace, Program.Runs env.answer
        (SimpleEngine.run engine workflowId inp : EngineProgram Obj Exc WorkflowResult) s
        { status := .completed, reason := none } s' trace ∧
      ∀ name ∈ stepNames.drop (s.db.recorded workflowId).length,
        ∃ s₁, (s₁, EngineOp.handler name inp) ∈ trace := by
  let s₁ : EngineState codec Obj W := { s with db := s.db.ensureRun workflowId inp (env.now s) }
  have hensure : Program.Runs env.answer
      (callEngine (.ensureRun workflowId inp) : EngineProgram Obj Exc Unit) s () s₁
      [(s, .ensureRun workflowId inp)] := runs_callEngine rfl
  have hunfinished : Unfinished s₁.db workflowId := by
    obtain ⟨run, hrun, hold | ⟨_, _, hnone⟩⟩ :=
      find?_ensureRun s.db workflowId inp (env.now s)
    · exact ⟨run, hrun, hopen run hold⟩
    · exact ⟨run, hrun, hnone⟩
  obtain ⟨s', trace, hruns, hhandlers⟩ :=
    runs_advance inp henv hres hinp (hholds.ensureRun hinp (env.now s)) hunfinished
  unfold SimpleEngine.run
  refine ⟨s', _, hensure.bind hruns, ?_⟩
  intro name hname
  obtain ⟨s₂, hs₂⟩ := hhandlers name hname
  exact ⟨s₂, List.mem_append_right _ hs₂⟩

end Progress

end Workflow
end PrReviewer
