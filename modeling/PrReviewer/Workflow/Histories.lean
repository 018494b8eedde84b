import PrReviewer.Workflow.SimpleEngine
import PrReviewer.Lib.Run

/-!
# Histories of workflows

Calls of `SimpleEngine.run` and `resume`, one after the other, each killed after any number
of its steps, and what the two tables of the store satisfy after them: the recorded steps of
a workflow are a prefix of `STEP_NAMES`, and a completed workflow has them all.

The invariant has a part that the later results choose: a `Law` says what the recorded
outputs and the stored input satisfy, and whether the surroundings are favourable.
-/

namespace PrReviewer

open Lib
open Runner (LocalDatabase WorkflowInput WorkflowRun WorkflowStep)

namespace Runner
namespace LocalDatabase

variable {codec : Codec} {Obj : Type} (db : LocalDatabase codec)

/-- What `workflow_steps` records of the workflow, in the order of recording. -/
def recorded (workflowId : String) : List (String × Json) :=
  (db.stepsOf workflowId).map (fun step => (step.stepName, step.output))

variable {db}

theorem mem_recorded
    {workflowId stepName : String} :
    stepName ∈ (db.recorded workflowId).map Prod.fst ↔
      ∃ step, db.workflowSteps.find? (workflowId, stepName) = some step := by
  unfold recorded stepsOf
  simp only [List.map_map, List.mem_map, List.mem_filter, decide_eq_true_eq, Function.comp,
    Table.find?_eq_some_iff, WorkflowStep.key, Prod.mk.injEq]
  constructor
  · rintro ⟨step, ⟨hmem, hworkflow⟩, hname⟩
    exact ⟨step, hmem, hworkflow, hname⟩
  · rintro ⟨step, hmem, hworkflow, hname⟩
    exact ⟨step, ⟨hmem, hworkflow⟩, hname⟩

theorem nodup_recorded
    (workflowId : String) :
    ((db.recorded workflowId).map Prod.fst).Nodup := by
  have hkeys : ((db.stepsOf workflowId).map WorkflowStep.key).Nodup :=
    (List.Sublist.map WorkflowStep.key List.filter_sublist).nodup db.workflowSteps.nodup
  have hsame : (db.stepsOf workflowId).map WorkflowStep.key =
      ((db.recorded workflowId).map Prod.fst).map (fun name => (workflowId, name)) := by
    unfold recorded stepsOf
    simp only [List.map_map]
    apply List.map_congr_left
    intro step hstep
    have hworkflow := (List.mem_filter.mp hstep).2
    rw [decide_eq_true_eq] at hworkflow
    simp [WorkflowStep.key, hworkflow]
  rw [hsame] at hkeys
  exact hkeys.of_map _

/-- `insert or ignore` of a step. -/
theorem recorded_markStepCompleted
    (db : LocalDatabase codec) (workflowId stepName : String) (output : Json) (now : Nat)
    (other : String) :
    (db.markStepCompleted workflowId stepName output now).recorded other =
      if other = workflowId ∧ stepName ∉ (db.recorded workflowId).map Prod.fst then
        db.recorded workflowId ++ [(stepName, output)]
      else
        db.recorded other := by
  let row : WorkflowStep :=
    { workflowId := workflowId, stepName := stepName, output := output, completedAt := now }
  have hmark : (db.markStepCompleted workflowId stepName output now).workflowSteps =
      (db.workflowSteps.insert? row).getD db.workflowSteps := rfl
  unfold recorded stepsOf
  rw [hmark]
  cases hinsert : db.workflowSteps.insert? row with
  | none =>
      have htaken : stepName ∈ (db.recorded workflowId).map Prod.fst :=
        mem_recorded.mpr (Table.insert?_eq_none_iff.mp hinsert)
      unfold recorded stepsOf at htaken
      rw [if_neg (fun h => h.2 htaken), Option.getD_none]
  | some steps =>
      obtain ⟨hfree, hrows⟩ := Table.insert?_eq_some hinsert
      have hnot : stepName ∉ (db.recorded workflowId).map Prod.fst := by
        intro htaken
        obtain ⟨step, hstep⟩ := mem_recorded.mp htaken
        rw [show row.key = (workflowId, stepName) from rfl, hstep] at hfree
        cases hfree
      unfold recorded stepsOf at hnot
      rw [Option.getD_some, hrows, List.filter_append, List.map_append]
      by_cases hother : other = workflowId
      · subst hother
        rw [if_pos ⟨rfl, hnot⟩]
        simp [row]
      · rw [if_neg (fun h => hother h.1)]
        simp [row, Ne.symm hother]

/-- The dictionary `_advance` starts with. -/
theorem lookup_completedOutputs
    (loads : Json → Obj) (workflowId key : String) :
    (db.completedOutputs loads workflowId).lookup key =
      ((db.recorded workflowId).lookup key).map loads := by
  unfold completedOutputs
  rw [← lookup_map_snd]
  have hnodup := db.nodup_recorded workflowId
  unfold recorded at hnodup ⊢
  rw [List.map_map]
  apply lookup_perm
  · exact (List.perm_insertionSort _ _).map _
  · have hperm := ((List.perm_insertionSort (fun step step' : WorkflowStep =>
      step.completedAt < step'.completedAt ∨
        (step.completedAt = step'.completedAt ∧ step.stepName ≤ step'.stepName))
      (db.stepsOf workflowId)).map WorkflowStep.stepName)
    simp only [List.map_map] at hnodup ⊢
    exact hperm.nodup_iff.mpr hnodup

end LocalDatabase
end Runner

namespace Workflow

section Histories

variable {codec : Codec} {Obj Exc W : Type}

/-- One call of an engine, killed after a number of its steps. -/
structure EngineCall (codec : Codec) (Obj Exc W : Type) where
  engine : Engine
  env : Surroundings codec Obj Exc W
  start : Start
  killedAfter : Nat

def EngineCall.program (c : EngineCall codec Obj Exc W) :
    EngineProgram Obj Exc WorkflowResult :=
  SimpleEngine.start c.engine c.start

def Start.workflowId : Start → String
  | .run workflowId _ => workflowId
  | .resume workflowId => workflowId

def callStep (s : EngineState codec Obj W) (c : EngineCall codec Obj Exc W) :
    EngineState codec Obj W :=
  Program.killed c.env.answer c.killedAfter c.program s

def EngineState.new (codec : Codec) (Obj : Type) (world : W) : EngineState codec Obj W where
  db := .empty codec
  outputs := []
  world := world

/-- The state after the calls, on a file just migrated. -/
def stateAfter (world : W) (calls : List (EngineCall codec Obj Exc W)) :
    EngineState codec Obj W :=
  exec callStep (.new codec Obj world) calls

/-- The dictionary and the two tables are as they were. -/
structure EngineState.SameStore (s s' : EngineState codec Obj W) : Prop where
  outputs : s'.outputs = s.outputs
  runs : s'.db.workflowRuns = s.db.workflowRuns
  steps : s'.db.workflowSteps = s.db.workflowSteps

/-- The functions an engine was given leave the dictionary and the two tables alone. -/
structure Surroundings.LeavesStore (env : Surroundings codec Obj Exc W) : Prop where
  heartbeat : ∀ inp s, EngineState.SameStore s (env.heartbeat inp s).2
  currentHeadSha : ∀ inp s, EngineState.SameStore s (env.currentHeadSha inp s).2
  handler : ∀ name inp s, EngineState.SameStore s (env.handler name inp s).2
  recordEvent : ∀ jobId eventType payload s,
    EngineState.SameStore s (env.recordEvent jobId eventType payload s).2
  monotonic : ∀ s, EngineState.SameStore s (env.monotonic s).2

/--
What a history keeps: of the recorded outputs of a workflow and of its input, and whether
no check stops a workflow and every output is fixed by a round trip through JSON.
-/
structure Law where
  ideal : Prop
  record : String → List (String × Json) → Prop
  input : String → WorkflowInput → Prop

/-- The invariant of the two tables. -/
structure Law.Holds (law : Law) (db : LocalDatabase codec) : Prop where
  inOrder : ∀ workflowId, (db.recorded workflowId).map Prod.fst =
    (stepNames.take (db.recorded workflowId).length).map StepName.text
  record : ∀ workflowId, law.record workflowId (db.recorded workflowId)
  input : ∀ run ∈ db.workflowRuns.rows, law.input run.workflowId run.input
  completed : ∀ run ∈ db.workflowRuns.rows, run.outcome = some .completed →
    (db.recorded run.workflowId).length = stepNames.length
  outcome : law.ideal → ∀ run ∈ db.workflowRuns.rows,
    run.outcome = none ∨ (run.outcome = some .completed ∧ run.reason = none)

/-- The dictionary holds what `completed_outputs` and the steps of the call have put there. -/
structure Law.Ready
    (law : Law) (env : Surroundings codec Obj Exc W) (workflowId : String)
    (s : EngineState codec Obj W) : Prop where
  holds : law.Holds s.db
  keys : ∀ key, s.outputs.has key = true ↔ key ∈ (s.db.recorded workflowId).map Prod.fst
  values : law.ideal → ∀ key,
    s.outputs.lookup key = ((s.db.recorded workflowId).lookup key).map env.loads

/-- The surroundings keep the law. -/
structure Law.Respects (law : Law) (env : Surroundings codec Obj Exc W) : Prop where
  leaves : env.LeavesStore
  extend : ∀ workflowId inp name recorded output json (s : EngineState codec Obj W),
    law.input workflowId inp →
    stepNames[recorded.length]? = some name →
    law.record workflowId recorded →
    (law.ideal → ∀ key, s.outputs.lookup key = (recorded.lookup key).map env.loads) →
    (env.handler name inp s).1 = .ok output →
    env.dumps output = .ok json →
    law.record workflowId (recorded ++ [(name.text, json)])
  roundTrip : law.ideal → ∀ name inp s output json,
    (env.handler name inp s).1 = .ok output → env.dumps output = .ok json →
    env.loads json = output
  leaseActive : law.ideal → ∀ inp s lease, (env.heartbeat inp s).1 = .ok lease → lease = .active
  headCurrent : law.ideal → ∀ inp s live,
    (env.currentHeadSha inp s).1 = .ok live → live = inp.headSha

/-! ## What the calls keep -/

variable {law : Law} {env : Surroundings codec Obj Exc W} {workflowId : String}
variable {inp : WorkflowInput} {s s' : EngineState codec Obj W}

theorem EngineState.SameStore.recorded
    (h : s.SameStore s') (workflowId : String) :
    s'.db.recorded workflowId = s.db.recorded workflowId := by
  unfold LocalDatabase.recorded LocalDatabase.stepsOf
  rw [h.steps]

theorem EngineState.SameStore.trans
    {s'' : EngineState codec Obj W}
    (h : s.SameStore s') (h' : s'.SameStore s'') :
    s.SameStore s'' :=
  ⟨h'.outputs.trans h.outputs, h'.runs.trans h.runs, h'.steps.trans h.steps⟩

theorem EngineState.SameStore.rfl
    (s : EngineState codec Obj W) :
    s.SameStore s :=
  ⟨by rfl, by rfl, by rfl⟩

theorem Law.Holds.of_same
    (h : law.Holds s.db) (hsame : s.SameStore s') :
    law.Holds s'.db := by
  refine ⟨?_, ?_, ?_, ?_, ?_⟩
  · intro w
    rw [hsame.recorded]
    exact h.inOrder w
  · intro w
    rw [hsame.recorded]
    exact h.record w
  · rw [hsame.runs]
    exact h.input
  · intro run hrun
    rw [hsame.recorded]
    rw [hsame.runs] at hrun
    exact h.completed run hrun
  · rw [hsame.runs]
    exact h.outcome

theorem Law.Ready.of_same
    (h : law.Ready env workflowId s) (hsame : s.SameStore s') :
    law.Ready env workflowId s' := by
  refine ⟨h.holds.of_same hsame, ?_, ?_⟩
  · rw [hsame.outputs, hsame.recorded]
    exact h.keys
  · rw [hsame.outputs, hsame.recorded]
    exact h.values

/-- The calls that leave the dictionary and the tables alone. -/
def EngineOp.reads : EngineOp Obj → Bool
  | .ensureRun _ _ => false
  | .completedOutputs _ => false
  | .markStepCompleted _ _ _ => false
  | .putOutput _ _ => false
  | .setOutcome _ _ _ => false
  | _ => true

theorem sameStore_answer
    (henv : env.LeavesStore) (op : EngineOp Obj) (hop : op.reads = true)
    (s : EngineState codec Obj W) :
    s.SameStore (env.answer op s).2 := by
  cases op with
  | heartbeat inp => exact henv.heartbeat inp s
  | currentHeadSha inp => exact henv.currentHeadSha inp s
  | handler name inp => exact henv.handler name inp s
  | recordEvent jobId eventType payload => exact henv.recordEvent jobId eventType payload s
  | monotonic => exact henv.monotonic s
  | hasOutput name => exact .rfl s
  | loadInput workflowId =>
      simp only [Surroundings.answer]
      split
      · exact .rfl s
      · exact .rfl s
  | getState workflowId =>
      simp only [Surroundings.answer]
      split
      · exact .rfl s
      · exact .rfl s
  | _ => cases hop

/-- The judgement: the law holds at every call, and no handler runs for a recorded step. -/
abbrev SafeCall
    {α : Type} (law : Law) (env : Surroundings codec Obj Exc W) (workflowId : String)
    (p : EngineProgram Obj Exc α) (Q : α → EngineState codec Obj W → Prop)
    (s : EngineState codec Obj W) : Prop :=
  Program.Safe env.answer (fun _ _ => True)
    (fun s op => law.Holds s.db ∧ ∀ name inp, op = .handler name inp →
      name.text ∉ (s.db.recorded workflowId).map Prod.fst)
    p Q (fun _ s' => law.Holds s'.db) s

/-- A call that is not of a handler. -/
theorem safe_callEngine
    {op : EngineOp Obj} {Q : op.Value → EngineState codec Obj W → Prop}
    (hholds : law.Holds s.db)
    (hop : ∀ name inp, op ≠ .handler name inp)
    (hafter : law.Holds (env.answer op s).2.db)
    (hQ : ∀ value, (env.answer op s).1 = .ok value → Q value (env.answer op s).2) :
    SafeCall law env workflowId (callEngine op) Q s := by
  unfold callEngine SafeCall Program.perform
  rw [Program.bind_eq]
  refine ⟨⟨hholds, fun name inp h => absurd h (hop name inp)⟩, fun _ => ?_⟩
  cases hanswer : (env.answer op s).1 with
  | ok value => exact hQ value hanswer
  | error e => exact hafter

/-- A call that leaves the dictionary and the tables alone, and is not of a handler. -/
theorem safe_reading
    {op : EngineOp Obj} {Q : op.Value → EngineState codec Obj W → Prop}
    (henv : env.LeavesStore) (hholds : law.Holds s.db)
    (hreads : op.reads = true)
    (hop : ∀ name inp, op ≠ .handler name inp)
    (hQ : ∀ value s', s.SameStore s' → (env.answer op s).1 = .ok value → Q value s') :
    SafeCall law env workflowId (callEngine op) Q s := by
  have hsame := sameStore_answer henv op hreads s
  exact safe_callEngine hholds hop (hholds.of_same hsame)
    (fun value hvalue => hQ value _ hsame hvalue)

theorem safe_emit
    {engine : Engine} {jobId eventType : String} {payload : Json}
    (henv : env.LeavesStore) (hholds : law.Holds s.db) :
    SafeCall law env workflowId (engine.emit jobId eventType payload)
      (fun _ s' => s.SameStore s') s := by
  unfold Engine.emit
  split
  · exact safe_reading henv hholds rfl (by rintro _ _ ⟨⟩) (fun _ _ hsame _ => hsame)
  · exact .rfl s

theorem external_eq_ok
    {α σ : Type} {x : Except Exc α × σ} {a : α} :
    (external x).1 = .ok a ↔ x.1 = .ok a := by
  unfold external
  cases x.1 with
  | ok b => simp [Except.mapError]
  | error e => simp [Except.mapError]

/-- What a checkpoint returns, and that it leaves the store alone. -/
def Checked (law : Law) (s : EngineState codec Obj W) (stopped : Option WorkflowResult)
    (s' : EngineState codec Obj W) : Prop :=
  s.SameStore s' ∧ ∀ result, stopped = some result → result.status ≠ .completed ∧ ¬law.ideal

theorem safe_checkLease
    {engine : Engine}
    (hres : law.Respects env) (hholds : law.Holds s.db) :
    SafeCall law env workflowId (engine.checkLease inp) (Checked law s) s := by
  unfold Engine.checkLease
  split
  · unfold SafeCall
    rw [Program.bind_eq, Program.safe_bind]
    refine safe_reading hres.leaves hholds rfl (by rintro _ _ ⟨⟩) ?_
    intro lease s₁ hsame hlease
    have hactive : law.ideal → lease = .active :=
      fun hideal => hres.leaseActive hideal inp s lease (external_eq_ok.mp hlease)
    cases lease with
    | active => exact ⟨hsame, by rintro result ⟨⟩⟩
    | cancelled =>
        simp only [Program.bind_eq, Program.safe_bind]
        refine (safe_emit hres.leaves (hholds.of_same hsame)).mono ?_ (fun _ _ h => h)
        intro _ s₂ hsame₂
        refine ⟨hsame.trans hsame₂, ?_⟩
        rintro result ⟨⟩
        exact ⟨by rintro ⟨⟩, fun hideal => by cases hactive hideal⟩
    | invalidOrExpired =>
        simp only [Program.bind_eq, Program.safe_bind]
        refine (safe_emit hres.leaves (hholds.of_same hsame)).mono ?_ (fun _ _ h => h)
        intro _ s₂ hsame₂
        refine ⟨hsame.trans hsame₂, ?_⟩
        rintro result ⟨⟩
        exact ⟨by rintro ⟨⟩, fun hideal => by cases hactive hideal⟩
  · exact ⟨.rfl s, by rintro result ⟨⟩⟩

theorem safe_checkHead
    {engine : Engine}
    (hres : law.Respects env) (hholds : law.Holds s.db) :
    SafeCall law env workflowId (engine.checkHead inp) (Checked law s) s := by
  unfold Engine.checkHead
  split
  · unfold SafeCall
    rw [Program.bind_eq, Program.safe_bind]
    refine safe_reading hres.leaves hholds rfl (by rintro _ _ ⟨⟩) ?_
    intro live s₁ hsame hlive
    split
    · next hmoved =>
        simp only [Program.bind_eq, Program.safe_bind]
        refine (safe_emit hres.leaves (hholds.of_same hsame)).mono ?_ (fun _ _ h => h)
        intro _ s₂ hsame₂
        refine ⟨hsame.trans hsame₂, ?_⟩
        rintro result ⟨⟩
        refine ⟨by rintro ⟨⟩, fun hideal => hmoved ?_⟩
        exact hres.headCurrent hideal inp s live (external_eq_ok.mp hlive)
    · exact ⟨hsame, by rintro result ⟨⟩⟩
  · exact ⟨.rfl s, by rintro result ⟨⟩⟩

theorem safe_checkpoint
    {engine : Engine}
    (hres : law.Respects env) (hholds : law.Holds s.db) :
    SafeCall law env workflowId (engine.checkpoint inp) (Checked law s) s := by
  unfold Engine.checkpoint SafeCall
  rw [Program.bind_eq, Program.safe_bind]
  refine (safe_checkLease hres hholds).mono ?_ (fun _ _ h => h)
  rintro stopped s₁ ⟨hsame, hstopped⟩
  cases stopped with
  | some result => exact ⟨hsame, hstopped⟩
  | none =>
      refine (safe_checkHead hres (hholds.of_same hsame)).mono ?_ (fun _ _ h => h)
      rintro stopped s₂ ⟨hsame₂, hstopped₂⟩
      exact ⟨hsame.trans hsame₂, hstopped₂⟩

theorem safe_checkTimeout
    {engine : Engine} {name : StepName} {started : ℚ}
    (henv : env.LeavesStore) (hholds : law.Holds s.db) :
    SafeCall law env workflowId (engine.checkTimeout name started)
      (fun _ s' => s.SameStore s') s := by
  unfold Engine.checkTimeout
  split
  · exact .rfl s
  · unfold SafeCall
    rw [Program.bind_eq, Program.safe_bind]
    refine safe_reading henv hholds rfl (by rintro _ _ ⟨⟩) ?_
    intro now s₁ hsame _
    split
    · exact hholds.of_same hsame
    · exact hsame

/-! ## One step -/

theorem StepName.text_injective
    {name name' : StepName}
    (h : name.text = name'.text) :
    name = name' := by
  revert h
  cases name <;> cases name' <;> decide

/-- The step that follows the recorded ones is not recorded. -/
theorem not_recorded
    {db : LocalDatabase codec} {name : StepName}
    (h : law.Holds db)
    (hname : stepNames[(db.recorded workflowId).length]? = some name) :
    name.text ∉ (db.recorded workflowId).map Prod.fst := by
  rw [h.inOrder]
  intro hmem
  obtain ⟨name', hname', htext⟩ := List.mem_map.mp hmem
  rw [StepName.text_injective htext] at hname'
  obtain ⟨hlt, hget⟩ := List.getElem?_eq_some_iff.mp hname
  obtain ⟨i, hi, hget'⟩ := List.mem_take_iff_getElem.mp hname'
  have hnodup : stepNames.Nodup := by decide
  have hindex := hnodup.getElem_inj_iff.mp (hget'.trans hget.symm)
  omega

/-- The next step is recorded. -/
theorem Law.Holds.mark
    {db : LocalDatabase codec} {name : StepName} {json : Json}
    (h : law.Holds db)
    (hname : stepNames[(db.recorded workflowId).length]? = some name)
    (hrecord : law.record workflowId (db.recorded workflowId ++ [(name.text, json)]))
    (now : Nat) :
    law.Holds (db.markStepCompleted workflowId name.text json now) ∧
      (db.markStepCompleted workflowId name.text json now).recorded workflowId =
        db.recorded workflowId ++ [(name.text, json)] := by
  have hnot := not_recorded h hname
  obtain ⟨hlt, hget⟩ := List.getElem?_eq_some_iff.mp hname
  have hother : ∀ w, w ≠ workflowId →
      (db.markStepCompleted workflowId name.text json now).recorded w = db.recorded w := by
    intro w hw
    rw [LocalDatabase.recorded_markStepCompleted, if_neg (fun hw' => hw hw'.1)]
  have hsame : (db.markStepCompleted workflowId name.text json now).recorded workflowId =
      db.recorded workflowId ++ [(name.text, json)] := by
    rw [LocalDatabase.recorded_markStepCompleted, if_pos ⟨rfl, hnot⟩]
  refine ⟨⟨?_, ?_, h.input, ?_, h.outcome⟩, hsame⟩
  · intro w
    by_cases hw : w = workflowId
    · subst hw
      rw [hsame, List.length_append, List.length_singleton, List.map_append, h.inOrder,
        List.take_succ_eq_append_getElem hlt, List.map_append, hget]
      rfl
    · rw [hother w hw]
      exact h.inOrder w
  · intro w
    by_cases hw : w = workflowId
    · subst hw
      rw [hsame]
      exact hrecord
    · rw [hother w hw]
      exact h.record w
  · intro run hrun houtcome
    have hfull := h.completed run hrun houtcome
    by_cases hw : run.workflowId = workflowId
    · rw [hw] at hfull
      omega
    · rw [hother _ hw]
      exact hfull

/-- The output is put into the dictionary once it is recorded. -/
theorem Law.Ready.put
    {db : LocalDatabase codec} {key : String} {json : Json} {output : Obj}
    (h : law.Ready env workflowId s)
    (hholds : law.Holds db)
    (hnew : db.recorded workflowId = s.db.recorded workflowId ++ [(key, json)])
    (hnot : key ∉ (s.db.recorded workflowId).map Prod.fst)
    (hround : law.ideal → env.loads json = output) :
    law.Ready env workflowId { s with db := db, outputs := s.outputs.set key output } := by
  have habsent : s.outputs.has key = false := by
    rw [Bool.eq_false_iff]
    exact fun hhas => hnot ((h.keys key).mp hhas)
  have hset : s.outputs.set key output = s.outputs ++ [(key, output)] := by
    simp [Outputs.set, habsent]
  refine ⟨hholds, ?_, ?_⟩
  · intro other
    simp only [hset, hnew, List.map_append, List.mem_append, ← h.keys other]
    unfold Outputs.has
    simp only [isSome_lookup_iff, List.map_append, List.mem_append]
    rfl
  · intro hideal other
    simp only [hset, hnew, List.lookup_append, h.values hideal other]
    cases (s.db.recorded workflowId).lookup other with
    | some found => rfl
    | none =>
        simp only [Option.map_none, Option.none_or, List.lookup_cons]
        cases other == key with
        | true => simp [hround hideal]
        | false => rfl

theorem safe_runStep
    {engine : Engine} {name : StepName}
    (hres : law.Respects env) (hready : law.Ready env workflowId s)
    (hinp : law.input workflowId inp)
    (hname : stepNames[(s.db.recorded workflowId).length]? = some name) :
    SafeCall law env workflowId (SimpleEngine.runStep engine workflowId inp name)
      (fun _ s' => law.Ready env workflowId s' ∧
        (s'.db.recorded workflowId).length = (s.db.recorded workflowId).length + 1) s := by
  unfold SimpleEngine.runStep SafeCall
  simp only [Program.bind_eq, Program.safe_bind]
  refine safe_reading hres.leaves hready.holds rfl (by rintro _ _ ⟨⟩) ?_
  intro started s₁ hsame₁ _
  have hready₁ := hready.of_same hsame₁
  have hname₁ := hname
  rw [← hsame₁.recorded] at hname₁
  have hhandler := sameStore_answer hres.leaves (.handler name inp) rfl s₁
  unfold callEngine Program.perform
  rw [Program.bind_eq]
  refine ⟨⟨hready₁.holds, ?_⟩, fun _ => ?_⟩
  · rintro _ _ ⟨⟩
    exact not_recorded hready₁.holds hname₁
  cases hanswer : (env.answer (.handler name inp) s₁).1 with
  | error e => exact hready₁.holds.of_same hhandler
  | ok output =>
      have houtput := external_eq_ok.mp hanswer
      refine (safe_checkTimeout hres.leaves (hready₁.holds.of_same hhandler)).mono ?_
        (fun _ _ h => h)
      intro _ s₃ hsame₃
      have hready₃ := (hready₁.of_same hhandler).of_same hsame₃
      have hrecorded : s₃.db.recorded workflowId = s₁.db.recorded workflowId := by
        rw [hsame₃.recorded, hhandler.recorded]
      have hname₃ := hname₁
      rw [← hrecorded] at hname₃
      have hend : (s₃.db.recorded workflowId).length = (s.db.recorded workflowId).length := by
        rw [hrecorded, hsame₁.recorded]
      cases hdumps : env.dumps output with
      | error e =>
          refine safe_callEngine hready₃.holds (by rintro _ _ ⟨⟩) ?_ ?_
          · simp only [Surroundings.answer, hdumps]
            exact hready₃.holds
          · simp only [Surroundings.answer, hdumps]
            rintro _ ⟨⟩
      | ok json =>
          have hrecord := hres.extend workflowId inp name (s₁.db.recorded workflowId) output json s₁
            hinp hname₁ (hready₁.holds.record workflowId) hready₁.values houtput hdumps
          rw [← hrecorded] at hrecord
          obtain ⟨hmarked, hnew⟩ := hready₃.holds.mark hname₃ hrecord (env.now s₃)
          refine safe_callEngine hready₃.holds (by rintro _ _ ⟨⟩) ?_ ?_
          · simp only [Surroundings.answer, hdumps]
            exact hmarked
          · simp only [Surroundings.answer, hdumps]
            intro _ _
            refine safe_callEngine hmarked (by rintro _ _ ⟨⟩) hmarked ?_
            intro _ _
            have hput := hready₃.put hmarked hnew (not_recorded hready₃.holds hname₃)
              (fun hideal => hres.roundTrip hideal name inp s₁ output json houtput hdumps)
            refine (safe_emit hres.leaves hput.holds).mono ?_ (fun _ _ h => h)
            intro _ s₅ hsame₅
            refine ⟨hput.of_same hsame₅, ?_⟩
            rw [hsame₅.recorded]
            change ((s₃.db.markStepCompleted workflowId name.text json
              (env.now s₃)).recorded workflowId).length = _
            rw [hnew, List.length_append, hend]
            rfl

/-! ## A whole call -/

/-- The outcome of a workflow is recorded. -/
theorem Law.Holds.setOutcome
    {db : LocalDatabase codec} {status : WorkflowStatus} {reason : Option String}
    (h : law.Holds db)
    (hcompleted : status = .completed →
      (db.recorded workflowId).length = stepNames.length)
    (hideal : law.ideal → status = .completed ∧ reason = none) :
    law.Holds (db.setOutcome workflowId status reason) := by
  have hmem : ∀ run ∈ (db.setOutcome workflowId status reason).workflowRuns.rows,
      ∃ old ∈ db.workflowRuns.rows, old.workflowId = run.workflowId ∧ old.input = run.input ∧
        (run = old ∨ (run.workflowId = workflowId ∧ run.outcome = some status ∧
          run.reason = reason)) := by
    have hrows : (db.setOutcome workflowId status reason).workflowRuns.rows =
        db.workflowRuns.rows.map (fun run =>
          if decide (run.workflowId = workflowId) then
            { run with outcome := some status, reason := reason }
          else
            run) := rfl
    intro run hrun
    rw [hrows, List.mem_map] at hrun
    obtain ⟨old, hold, rfl⟩ := hrun
    refine ⟨old, hold, ?_⟩
    split
    · next hkey =>
        rw [decide_eq_true_eq] at hkey
        exact ⟨rfl, rfl, .inr ⟨hkey, rfl, rfl⟩⟩
    · exact ⟨rfl, rfl, .inl rfl⟩
  refine ⟨h.inOrder, h.record, ?_, ?_, ?_⟩
  · intro run hrun
    obtain ⟨old, hold, hid, hinput, _⟩ := hmem run hrun
    rw [← hid, ← hinput]
    exact h.input old hold
  · intro run hrun houtcome
    obtain ⟨old, hold, _, _, rfl | ⟨hid, hstatus, _⟩⟩ := hmem run hrun
    · exact h.completed run hold houtcome
    · rw [hstatus] at houtcome
      rw [hid]
      exact hcompleted (Option.some.inj houtcome)
  · intro hid run hrun
    obtain ⟨old, hold, _, _, rfl | ⟨_, hstatus, hreason⟩⟩ := hmem run hrun
    · exact h.outcome hid run hold
    · obtain ⟨rfl, rfl⟩ := hideal hid
      exact .inr ⟨hstatus, hreason⟩

/-- A workflow is entered into the store, unless it is there. -/
theorem Law.Holds.ensureRun
    {db : LocalDatabase codec}
    (h : law.Holds db)
    (hinp : law.input workflowId inp) (now : Nat) :
    law.Holds (db.ensureRun workflowId inp now) := by
  have hmem : ∀ run ∈ (db.ensureRun workflowId inp now).workflowRuns.rows,
      run ∈ db.workflowRuns.rows ∨
        (run.workflowId = workflowId ∧ run.input = inp ∧ run.outcome = none) := by
    intro run hrun
    unfold LocalDatabase.ensureRun at hrun
    simp only at hrun
    cases hinsert : db.workflowRuns.insert?
        { workflowId := workflowId
          input := inp
          outcome := none
          reason := none
          createdAt := now } with
    | none =>
        rw [hinsert] at hrun
        exact .inl hrun
    | some runs =>
        rw [hinsert, Option.getD_some, (Table.insert?_eq_some hinsert).2, List.mem_append] at hrun
        rcases hrun with hold | hnew
        · exact .inl hold
        · rw [List.mem_singleton.mp hnew]
          exact .inr ⟨rfl, rfl, rfl⟩
  refine ⟨h.inOrder, h.record, ?_, ?_, ?_⟩
  · intro run hrun
    rcases hmem run hrun with hold | ⟨rfl, rfl, _⟩
    · exact h.input run hold
    · exact hinp
  · intro run hrun houtcome
    rcases hmem run hrun with hold | ⟨_, _, hnone⟩
    · exact h.completed run hold houtcome
    · rw [hnone] at houtcome
      cases houtcome
  · intro hideal run hrun
    rcases hmem run hrun with hold | ⟨_, _, hnone⟩
    · exact h.outcome hideal run hold
    · exact .inl hnone

theorem Law.Holds.length_le
    {db : LocalDatabase codec}
    (h : law.Holds db) (workflowId : String) :
    (db.recorded workflowId).length ≤ stepNames.length := by
  have hlength := congrArg List.length (h.inOrder workflowId)
  simp only [List.length_map, List.length_take] at hlength
  omega

/-- A name below the number of recorded steps is recorded. -/
theorem recorded_of_lt
    {db : LocalDatabase codec} {name : StepName} {i : Nat}
    (h : law.Holds db)
    (hname : stepNames[i]? = some name)
    (hlt : i < (db.recorded workflowId).length) :
    name.text ∈ (db.recorded workflowId).map Prod.fst := by
  obtain ⟨hi, hget⟩ := List.getElem?_eq_some_iff.mp hname
  rw [h.inOrder]
  exact List.mem_map.mpr ⟨name, List.mem_take_iff_getElem.mpr ⟨i, by omega, hget⟩, rfl⟩

/-- The loop of `_advance`, from the `i`-th step on. -/
theorem safe_runSteps
    {engine : Engine} {rest : List StepName} {i : Nat}
    (hres : law.Respects env) (hinp : law.input workflowId inp)
    (hrest : stepNames.drop i = rest)
    (hready : law.Ready env workflowId s)
    (hi : i ≤ (s.db.recorded workflowId).length) :
    SafeCall law env workflowId (SimpleEngine.runSteps engine workflowId inp rest)
      (fun stopped s' => law.Holds s'.db ∧ (∀ result, stopped = some result → ¬law.ideal) ∧
        (stopped = none → (s'.db.recorded workflowId).length = stepNames.length)) s := by
  induction rest generalizing i s with
  | nil =>
      refine ⟨hready.holds, ?_, ?_⟩
      · rintro result ⟨⟩
      · intro _
        have hle := hready.holds.length_le workflowId
        have hend := List.drop_eq_nil_iff.mp hrest
        omega
  | cons name rest ih =>
      have hname : stepNames[i]? = some name := by
        rw [← List.head?_drop, hrest]
        rfl
      have hdrop : stepNames.drop (i + 1) = rest := by
        rw [← List.drop_drop, hrest]
        rfl
      unfold SimpleEngine.runSteps SafeCall
      rw [Program.bind_eq, Program.safe_bind]
      refine safe_callEngine hready.holds (by rintro _ _ ⟨⟩) hready.holds ?_
      intro present hpresent
      have hvalue : s.outputs.has name.text = present := by
        simpa [Surroundings.answer] using hpresent
      cases present with
      | true =>
          have hmem := (hready.keys name.text).mp hvalue
          have hne : i ≠ (s.db.recorded workflowId).length := by
            rintro rfl
            exact not_recorded hready.holds hname hmem
          have hlt : i + 1 ≤ (s.db.recorded workflowId).length := by omega
          exact ih hdrop hready hlt
      | false =>
          have heq : i = (s.db.recorded workflowId).length := by
            by_contra hne
            have hlt : i < (s.db.recorded workflowId).length := by omega
            have hmem := recorded_of_lt hready.holds hname hlt
            rw [← hready.keys, hvalue] at hmem
            cases hmem
          subst heq
          simp only [Bool.false_eq_true, if_false, Program.bind_eq, Program.safe_bind]
          refine (safe_checkpoint hres hready.holds).mono ?_ (fun _ _ h => h)
          rintro stopped s₁ ⟨hsame, hstopped⟩
          have hready₁ := hready.of_same hsame
          cases stopped with
          | some result =>
              obtain ⟨hstatus, hideal⟩ := hstopped result rfl
              have hset : law.Holds
                  (s₁.db.setOutcome workflowId result.status result.reason) :=
                hready₁.holds.setOutcome (fun h => absurd h hstatus) (fun h => absurd h hideal)
              simp only [Program.safe_bind]
              refine safe_callEngine hready₁.holds (by rintro _ _ ⟨⟩) hset ?_
              intro _ _
              refine ⟨hset, fun _ _ => hideal, ?_⟩
              rintro ⟨⟩
          | none =>
              simp only [Program.safe_bind]
              refine (safe_runStep hres hready₁ hinp (by rw [hsame.recorded]; exact hname)).mono
                ?_ (fun _ _ h => h)
              rintro _ s₂ ⟨hready₂, hlength⟩
              rw [hsame.recorded] at hlength
              exact ih hdrop hready₂ (by omega)

/-- What a call that returned has done. -/
def Returned (law : Law) (workflowId : String) (result : WorkflowResult)
    (s' : EngineState codec Obj W) : Prop :=
  law.Holds s'.db ∧ (law.ideal → result = { status := .completed, reason := none } ∧
    (s'.db.recorded workflowId).length = stepNames.length)

theorem getState_eq_some
    {db : LocalDatabase codec} {loads : Json → Obj} {state : WorkflowState}
    (h : db.getState loads workflowId = some state) :
    ∃ run, db.workflowRuns.find? workflowId = some run ∧ state.outcome = run.outcome ∧
      state.reason = run.reason := by
  unfold LocalDatabase.getState at h
  obtain ⟨run, hrun, rfl⟩ := Option.map_eq_some_iff.mp h
  exact ⟨run, hrun, rfl, rfl⟩

/-- The dictionary `_advance` starts with holds the recorded outputs. -/
theorem ready_completedOutputs
    (hholds : law.Holds s.db) :
    law.Ready env workflowId
      { s with outputs := s.db.completedOutputs env.loads workflowId } := by
  refine ⟨hholds, ?_, ?_⟩
  · intro key
    unfold Outputs.has
    rw [LocalDatabase.lookup_completedOutputs, Option.isSome_map, isSome_lookup_iff]
  · intro _ key
    exact LocalDatabase.lookup_completedOutputs env.loads workflowId key

theorem safe_advance
    {engine : Engine}
    (hres : law.Respects env) (hinp : law.input workflowId inp) (hholds : law.Holds s.db) :
    SafeCall law env workflowId (SimpleEngine.advance engine workflowId inp)
      (Returned law workflowId) s := by
  unfold SimpleEngine.advance SafeCall
  rw [Program.bind_eq, Program.safe_bind]
  refine safe_reading hres.leaves hholds rfl (by rintro _ _ ⟨⟩) ?_
  intro state s₁ hsame hanswer
  have hholds₁ := hholds.of_same hsame
  have hstate : s.db.getState env.loads workflowId = some state := by
    simp only [Surroundings.answer] at hanswer
    split at hanswer
    · next found hfound =>
        cases hanswer
        exact hfound
    · cases hanswer
  obtain ⟨run, hrun, houtcome, hreason⟩ := getState_eq_some hstate
  rw [← hsame.runs] at hrun
  have hmem := Table.mem_of_find? hrun
  have hid : run.workflowId = workflowId := Table.key_of_find? hrun
  cases hstatus : state.outcome with
  | some status =>
      refine ⟨hholds₁, ?_⟩
      intro hideal
      rw [houtcome] at hstatus
      rcases hholds₁.outcome hideal run hmem with hnone | ⟨hcompleted, hnoReason⟩
      · rw [hnone] at hstatus
        cases hstatus
      · have hfull := hholds₁.completed run hmem hcompleted
        rw [hid] at hfull
        rw [hcompleted] at hstatus
        cases hstatus
        rw [hreason, hnoReason]
        exact ⟨rfl, hfull⟩
  | none =>
      simp only [Program.bind_eq, Program.safe_bind]
      refine safe_callEngine hholds₁ (by rintro _ _ ⟨⟩) hholds₁ ?_
      intro _ _
      refine (safe_runSteps (i := 0) hres hinp rfl (ready_completedOutputs hholds₁)
        (Nat.zero_le _)).mono ?_ (fun _ _ h => h)
      rintro stopped s₂ ⟨hholds₂, hstops, hfull⟩
      cases stopped with
      | some result => exact ⟨hholds₂, fun hideal => absurd hideal (hstops result rfl)⟩
      | none =>
          have hset : law.Holds (s₂.db.setOutcome workflowId .completed none) :=
            hholds₂.setOutcome (fun _ => hfull rfl) (fun _ => ⟨rfl, rfl⟩)
          simp only [Program.safe_bind]
          refine safe_callEngine hholds₂ (by rintro _ _ ⟨⟩) hset ?_
          intro _ _
          exact ⟨hset, fun _ => ⟨rfl, hfull rfl⟩⟩

/-- The law admits the input a call passes. -/
def Law.Admits (law : Law) : Start → Prop
  | .run workflowId inp => law.input workflowId inp
  | .resume _ => True

theorem safe_start
    {engine : Engine} {start : Start}
    (hres : law.Respects env) (hstart : law.Admits start) (hholds : law.Holds s.db) :
    SafeCall law env start.workflowId (SimpleEngine.start engine start)
      (Returned law start.workflowId) s := by
  cases start with
  | run workflowId inp =>
      have hensured := hholds.ensureRun hstart (env.now s)
      unfold SafeCall
      simp only [SimpleEngine.start, SimpleEngine.run, Program.bind_eq, Program.safe_bind]
      refine safe_callEngine hholds (by rintro _ _ ⟨⟩) hensured ?_
      intro _ _
      exact safe_advance hres hstart hensured
  | resume workflowId =>
      unfold SafeCall
      simp only [SimpleEngine.start, SimpleEngine.resume, Program.bind_eq, Program.safe_bind]
      refine safe_reading hres.leaves hholds rfl (by rintro _ _ ⟨⟩) ?_
      intro inp s₁ hsame hanswer
      have hinp : law.input workflowId inp := by
        simp only [Surroundings.answer] at hanswer
        split at hanswer
        · next found hfound =>
            cases hanswer
            unfold LocalDatabase.loadInput at hfound
            obtain ⟨run, hrun, rfl⟩ := Option.map_eq_some_iff.mp hfound
            have hinput := hholds.input run (Table.mem_of_find? hrun)
            rw [Table.key_of_find? hrun] at hinput
            exact hinput
        · cases hanswer
      exact safe_advance hres hinp (hholds.of_same hsame)

/-- The calls of a history keep the law. -/
def Law.Keeps (law : Law) (c : EngineCall codec Obj Exc W) : Prop :=
  law.Respects c.env ∧ law.Admits c.start

theorem holds_callStep
    {c : EngineCall codec Obj Exc W}
    (hc : law.Keeps c) (hholds : law.Holds s.db) :
    law.Holds (callStep s c).db :=
  (safe_start hc.1 hc.2 hholds).killed_of (I := fun s' => law.Holds s'.db) c.killedAfter
    (fun _ _ => trivial) (fun _ _ h => h.1) (fun _ _ h => h.1) (fun _ _ h => h)

theorem holds_new
    (world : W) (hrecord : ∀ workflowId, law.record workflowId []) :
    law.Holds (EngineState.new codec Obj world).db := by
  refine ⟨fun _ => rfl, hrecord, ?_, ?_, ?_⟩
  · rintro run ⟨⟩
  · rintro run ⟨⟩
  · rintro _ run ⟨⟩

/-- The law holds after every history of calls that keep it. -/
theorem holds_exec
    {calls : List (EngineCall codec Obj Exc W)}
    (hcalls : ∀ c ∈ calls, law.Keeps c) (hholds : law.Holds s.db) :
    law.Holds (exec callStep s calls).db := by
  induction calls generalizing s with
  | nil => exact hholds
  | cons c rest ih =>
      have hrest : ∀ c' ∈ rest, law.Keeps c' :=
        fun c' hc' => hcalls c' (List.mem_cons_of_mem c hc')
      exact ih hrest (holds_callStep (hcalls c (by simp)) hholds)

end Histories

end Workflow
end PrReviewer
