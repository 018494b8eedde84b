import PrReviewer.Workflow.CrashResume
import PrReviewer.Runner.Daemon

/-!
# A job that is handed out again

The control plane hands a job whose lease was lost to a runner again, under a new lease.
The workflow of the job keeps what the first lease left behind: an outcome `failed` or
`cancelled` stays, so that `review` reports the stop again and runs nothing, and the stored
input is the first one, so that `resume` goes on under the first lease.

The law holds in the other states: no outcome, or `completed`, and for `resume` the stored
lease token or nothing left to run.
-/

namespace PrReviewer

open Lib
open Runner (LocalDatabase WorkflowInput WorkflowRun)

namespace Workflow

/-- The input a call passes on. -/
def EngineOp.input? {Obj : Type} : EngineOp Obj → Option WorkflowInput
  | .heartbeat inp => some inp
  | .currentHeadSha inp => some inp
  | .handler _ inp => some inp
  | _ => none

section Reclaim

variable {codec : Codec} {Obj Exc W : Type}

/--
What should follow when a job is handed out under a new lease, its lease is active and its
head current: `review` runs every step that is not recorded under the new lease and reports
success, and so does a `resume` wherever the review was killed use the new lease.
-/
structure Reviewable
    (engine : Engine) (env : Surroundings codec Obj Exc W) (hexdigest : String → String)
    (s : EngineState codec Obj W) (job : JobEnvelope) : Prop where
  succeeds : ∃ ack, (Program.run env.answer (SimpleEngine.review engine hexdigest job) s).1 =
    .ok ack ∧ ack.terminalState = .succeeded
  executes : ∀ name : StepName, name.text ∉ (s.db.recorded job.jobId.text).map Prod.fst →
    ∃ s₁ inp, (s₁, EngineOp.handler name inp) ∈
        Program.steps env.answer (SimpleEngine.review engine hexdigest job) s ∧
      inp.leaseToken = job.leaseToken
  resumes : ∀ n, 0 < n → ∀ x ∈ Program.steps env.answer
      (SimpleEngine.resume engine job.jobId.text : EngineProgram Obj Exc WorkflowResult)
      (Program.killed env.answer n (SimpleEngine.review engine hexdigest job) s),
    ∀ inp, x.2.input? = some inp → inp.leaseToken = job.leaseToken

/-- Every step of the workflow is recorded. -/
def AllRecorded (db : LocalDatabase codec) (workflowId : String) : Prop :=
  ∀ name : StepName, name.text ∈ (db.recorded workflowId).map Prod.fst

/--
The workflow is new or completed, or has no outcome yet and either stands under the lease
or has nothing left to run.
-/
def TakesLease (db : LocalDatabase codec) (job : JobEnvelope) : Prop :=
  ∀ run, db.workflowRuns.find? job.jobId.text = some run →
    run.outcome = some .completed ∨
      (run.outcome = none ∧
        (run.input.leaseToken = job.leaseToken ∨ AllRecorded db job.jobId.text))

variable {engine : Engine} {env : Surroundings codec Obj Exc W} {hexdigest : String → String}
variable {job : JobEnvelope} {workflowId : String} {inp : WorkflowInput}
variable {s : EngineState codec Obj W} {run : WorkflowRun}

/-! ## The inputs a call passes on -/

/-- The call passes on the input `inp`, or none. -/
def PassesOn (inp : WorkflowInput) (op : EngineOp Obj) : Prop :=
  ∀ inp', op.input? = some inp' → inp' = inp

theorem only_callEngine
    {P : EngineOp Obj → Prop} {op : EngineOp Obj}
    (h : P op) :
    Program.Only P (callEngine op : EngineProgram Obj Exc op.Value) :=
  Program.only_bind (Program.only_perform h) (fun _ => Program.only_ofExcept _)

theorem only_emit
    (inp : WorkflowInput) (jobId eventType : String) (payload : Json) :
    Program.Only (PassesOn inp)
      (engine.emit jobId eventType payload : EngineProgram Obj Exc Unit) := by
  unfold Engine.emit
  split
  · apply only_callEngine
    rintro inp' ⟨⟩
  · trivial

theorem only_checkpoint
    (inp : WorkflowInput) :
    Program.Only (PassesOn inp)
      (engine.checkpoint inp : EngineProgram Obj Exc (Option WorkflowResult)) := by
  have hlease : Program.Only (PassesOn inp)
      (engine.checkLease inp : EngineProgram Obj Exc (Option WorkflowResult)) := by
    unfold Engine.checkLease
    split
    · refine Program.only_bind (only_callEngine ?_) ?_
      · rintro inp' ⟨⟩
        rfl
      · intro lease
        cases lease with
        | active => trivial
        | cancelled => exact Program.only_bind (only_emit inp _ _ _) (fun _ => trivial)
        | invalidOrExpired => exact Program.only_bind (only_emit inp _ _ _) (fun _ => trivial)
    · trivial
  refine Program.only_bind hlease ?_
  intro stopped
  cases stopped with
  | some result => trivial
  | none =>
      simp only [Engine.checkHead]
      split
      · refine Program.only_bind (only_callEngine ?_) ?_
        · rintro inp' ⟨⟩
          rfl
        · intro live
          split
          · exact Program.only_bind (only_emit inp _ _ _) (fun _ => trivial)
          · trivial
      · trivial

theorem only_runStep
    (workflowId : String) (inp : WorkflowInput) (name : StepName) :
    Program.Only (PassesOn inp)
      (SimpleEngine.runStep engine workflowId inp name : EngineProgram Obj Exc Unit) := by
  refine Program.only_bind (only_callEngine (by rintro _ ⟨⟩)) (fun started => ?_)
  refine Program.only_bind (only_callEngine ?_) (fun output => ?_)
  · rintro inp' ⟨⟩
    rfl
  refine Program.only_bind ?_ (fun _ => ?_)
  · unfold Engine.checkTimeout
    split
    · trivial
    · refine Program.only_bind (only_callEngine (by rintro _ ⟨⟩)) (fun now => ?_)
      split
      · trivial
      · trivial
  refine Program.only_bind (only_callEngine (by rintro _ ⟨⟩)) (fun _ => ?_)
  refine Program.only_bind (only_callEngine (by rintro _ ⟨⟩)) (fun _ => ?_)
  exact only_emit inp _ _ _

theorem only_runSteps
    (workflowId : String) (inp : WorkflowInput) (names : List StepName) :
    Program.Only (PassesOn inp)
      (SimpleEngine.runSteps engine workflowId inp names :
        EngineProgram Obj Exc (Option WorkflowResult)) := by
  induction names with
  | nil => trivial
  | cons name rest ih =>
      refine Program.only_bind (only_callEngine (by rintro _ ⟨⟩)) (fun present => ?_)
      cases present with
      | true => exact ih
      | false =>
          refine Program.only_bind (only_checkpoint inp) (fun stopped => ?_)
          cases stopped with
          | some result =>
              exact Program.only_bind (only_callEngine (by rintro _ ⟨⟩)) (fun _ => trivial)
          | none => exact Program.only_bind (only_runStep workflowId inp name) (fun _ => ih)

/-- A call passes on the input it was given. -/
theorem only_advance
    (workflowId : String) (inp : WorkflowInput) :
    Program.Only (PassesOn inp)
      (SimpleEngine.advance engine workflowId inp : EngineProgram Obj Exc WorkflowResult) := by
  refine Program.only_bind (only_callEngine (by rintro _ ⟨⟩)) (fun state => ?_)
  split
  · trivial
  · refine Program.only_bind (only_callEngine (by rintro _ ⟨⟩)) (fun _ => ?_)
    refine Program.only_bind (only_runSteps workflowId inp stepNames) (fun stopped => ?_)
    cases stopped with
    | some result => trivial
    | none => exact Program.only_bind (only_callEngine (by rintro _ ⟨⟩)) (fun _ => trivial)

/-- `resume` passes on the stored input. -/
theorem resume_passes_stored
    {x : EngineState codec Obj W × EngineOp Obj}
    (hx : x ∈ Program.steps env.answer
      (SimpleEngine.resume engine workflowId : EngineProgram Obj Exc WorkflowResult) s)
    (hinp : x.2.input? = some inp) :
    ∃ run, s.db.workflowRuns.find? workflowId = some run ∧ inp = run.input := by
  unfold SimpleEngine.resume at hx
  rw [Program.bind_eq, Program.steps_bind, List.mem_append] at hx
  rcases hx with hload | hadvance
  · have honly : Program.Only (fun op : EngineOp Obj => op.input? = none)
        (callEngine (.loadInput workflowId) : EngineProgram Obj Exc WorkflowInput) :=
      only_callEngine rfl
    rw [honly.steps s hload] at hinp
    cases hinp
  · cases hrun : s.db.workflowRuns.find? workflowId with
    | none =>
        have hanswer : Program.run env.answer
            (callEngine (.loadInput workflowId) : EngineProgram Obj Exc WorkflowInput) s =
            (.error (.keyError workflowId), s) := by
          simp [callEngine, Program.perform, Program.bind, Program.run, Surroundings.answer,
            LocalDatabase.loadInput, hrun, Program.ofExcept]
        rw [hanswer] at hadvance
        cases hadvance
    | some run =>
        have hanswer : Program.run env.answer
            (callEngine (.loadInput workflowId) : EngineProgram Obj Exc WorkflowInput) s =
            (.ok run.input, s) := by
          simp [callEngine, Program.perform, Program.bind, Program.run, Surroundings.answer,
            LocalDatabase.loadInput, hrun, Program.ofExcept]
        rw [hanswer] at hadvance
        exact ⟨run, rfl, (only_advance workflowId run.input).steps s hadvance inp hinp⟩

/-! ## Workflows with an outcome -/

/-- A workflow with an outcome is not run. -/
theorem runs_advance_finished
    {status : WorkflowStatus} (engine : Engine) (inp : WorkflowInput)
    (hrun : s.db.workflowRuns.find? workflowId = some run)
    (houtcome : run.outcome = some status) :
    Program.Runs env.answer
      (SimpleEngine.advance engine workflowId inp : EngineProgram Obj Exc WorkflowResult) s
      { status := status, reason := run.reason } s [(s, .getState workflowId)] := by
  let state : WorkflowState :=
    { workflowId := workflowId
      completedSteps := stepNames.filter
        (fun name => (s.db.completedOutputs env.loads workflowId).has name.text)
      outcome := some status
      reason := run.reason }
  have hanswer : env.answer (.getState workflowId) s = (.ok state, s) := by
    simp [Surroundings.answer, LocalDatabase.getState, hrun, houtcome, state]
  have hget := runs_callEngine (congrArg Prod.fst hanswer)
  rw [hanswer] at hget
  unfold SimpleEngine.advance
  exact hget.bind (Program.runs_ret _ _)

/-- The acknowledgement of a review says whether the workflow completed. -/
theorem runs_review
    (hdigest : ∀ text, hexdigest text ≠ "")
    {result : WorkflowResult} {s' : EngineState codec Obj W}
    {trace : List (EngineState codec Obj W × EngineOp Obj)}
    (hruns : Program.Runs env.answer
      (SimpleEngine.run engine job.jobId.text (SimpleEngine.inputOf job)) s result s' trace) :
    ∃ ack, Program.Runs env.answer (SimpleEngine.review engine hexdigest job) s ack s' trace ∧
      (ack.terminalState = .succeeded ↔ result.status = .completed) := by
  have hack : ∃ ack, reviewAcknowledgement hexdigest result = some ack ∧
      (ack.terminalState = .succeeded ↔ result.status = .completed) := by
    unfold reviewAcknowledgement
    rw [dif_pos (hdigest _)]
    refine ⟨_, rfl, ?_⟩
    simp
  obtain ⟨ack, hsome, hiff⟩ := hack
  refine ⟨ack, ?_, hiff⟩
  have hend : Program.Runs env.answer (SimpleEngine.acknowledge hexdigest result :
      EngineProgram Obj Exc JobAcknowledgement) s' ack s' [] := by
    simp only [SimpleEngine.acknowledge, hsome]
    exact Program.runs_ret ack s'
  have hboth := hruns.bind hend
  rw [List.append_nil] at hboth
  exact hboth

/-- A review of a workflow with an outcome reports it and leaves its row. -/
theorem runs_run_finished
    {status : WorkflowStatus} (engine : Engine) (env : Surroundings codec Obj Exc W)
    (inp : WorkflowInput)
    (hrun : s.db.workflowRuns.find? workflowId = some run)
    (houtcome : run.outcome = some status) :
    ∃ s', s'.db.workflowRuns.find? workflowId = some run ∧
      Program.Runs env.answer
        (SimpleEngine.run engine workflowId inp : EngineProgram Obj Exc WorkflowResult) s
        { status := status, reason := run.reason } s'
        [(s, .ensureRun workflowId inp), (s', .getState workflowId)] := by
  let s' : EngineState codec Obj W := { s with db := s.db.ensureRun workflowId inp (env.now s) }
  have hrun' : s'.db.workflowRuns.find? workflowId = some run := by
    obtain ⟨run', hfound, hold | ⟨hnone, _⟩⟩ := find?_ensureRun s.db workflowId inp (env.now s)
    · rw [hrun] at hold
      cases hold
      exact hfound
    · rw [hrun] at hnone
      cases hnone
  have hensure : Program.Runs env.answer
      (callEngine (.ensureRun workflowId inp) : EngineProgram Obj Exc Unit) s () s'
      [(s, .ensureRun workflowId inp)] := runs_callEngine rfl
  refine ⟨s', hrun', ?_⟩
  unfold SimpleEngine.run
  exact hensure.bind (runs_advance_finished engine inp hrun' houtcome)

/-- `resume` of a workflow with an outcome passes on no input. -/
theorem resume_finished
    {status : WorkflowStatus}
    (hrun : s.db.workflowRuns.find? workflowId = some run)
    (houtcome : run.outcome = some status)
    {x : EngineState codec Obj W × EngineOp Obj}
    (hx : x ∈ Program.steps env.answer
      (SimpleEngine.resume engine workflowId : EngineProgram Obj Exc WorkflowResult) s) :
    x.2.input? = none := by
  have hanswer : env.answer (.loadInput workflowId) s = (.ok run.input, s) := by
    simp [Surroundings.answer, LocalDatabase.loadInput, hrun]
  have hload := runs_callEngine (congrArg Prod.fst hanswer)
  rw [hanswer] at hload
  have hresume := hload.bind (runs_advance_finished engine run.input hrun houtcome)
  have hsteps : Program.steps env.answer
      (SimpleEngine.resume engine workflowId : EngineProgram Obj Exc WorkflowResult) s =
      [(s, .loadInput workflowId)] ++ [(s, .getState workflowId)] := hresume.steps
  rw [hsteps] at hx
  simp only [List.singleton_append, List.mem_cons, List.not_mem_nil, or_false] at hx
  rcases hx with rfl | rfl
  · rfl
  · rfl

/-! ## Workflows with nothing left to run -/

/-- Where every step is recorded, the loop of `_advance` passes on no input. -/
theorem quiet_runSteps
    (names : List StepName)
    (hall : ∀ name : StepName, s.outputs.has name.text = true) :
    Program.Safe env.answer (fun _ _ => True) (fun _ op => op.input? = none)
      (SimpleEngine.runSteps engine workflowId inp names :
        EngineProgram Obj Exc (Option WorkflowResult))
      (fun stopped _ => stopped = none) (fun _ _ => True) s := by
  induction names with
  | nil => rfl
  | cons name rest ih =>
      refine ⟨rfl, fun _ => ?_⟩
      simp only [Surroundings.answer, Program.ofExcept, Program.bind, hall name, if_true]
      exact ih

theorem quiet_callEngine
    {op : EngineOp Obj} {Q : op.Value → EngineState codec Obj W → Prop}
    (hop : op.input? = none)
    (hQ : ∀ value, (env.answer op s).1 = .ok value → Q value (env.answer op s).2) :
    Program.Safe env.answer (fun _ _ => True) (fun _ op => op.input? = none)
      (callEngine op : EngineProgram Obj Exc op.Value) Q (fun _ _ => True) s := by
  unfold callEngine Program.perform
  rw [Program.bind_eq]
  refine ⟨hop, fun _ => ?_⟩
  cases hanswer : (env.answer op s).1 with
  | ok value => exact hQ value hanswer
  | error e => trivial

/-- `resume` of a workflow with nothing left to run passes on no input. -/
theorem resume_allRecorded
    (hall : AllRecorded s.db workflowId)
    {x : EngineState codec Obj W × EngineOp Obj}
    (hx : x ∈ Program.steps env.answer
      (SimpleEngine.resume engine workflowId : EngineProgram Obj Exc WorkflowResult) s) :
    x.2.input? = none := by
  have hquiet : Program.Safe env.answer (fun _ _ => True) (fun _ op => op.input? = none)
      (SimpleEngine.resume engine workflowId : EngineProgram Obj Exc WorkflowResult)
      (fun _ _ => True) (fun _ _ => True) s := by
    unfold SimpleEngine.resume SimpleEngine.advance
    simp only [Program.bind_eq, Program.safe_bind]
    refine quiet_callEngine rfl (fun inp _ => ?_)
    have hload : (env.answer (.loadInput workflowId) s).2 = s := by
      simp only [Surroundings.answer]
      split
      · rfl
      · rfl
    rw [hload]
    refine quiet_callEngine rfl (fun state _ => ?_)
    have hget : (env.answer (.getState workflowId) s).2 = s := by
      simp only [Surroundings.answer]
      split
      · rfl
      · rfl
    rw [hget]
    split
    · trivial
    · rw [Program.safe_bind]
      refine quiet_callEngine rfl (fun _ _ => ?_)
      rw [Program.safe_bind]
      refine (quiet_runSteps stepNames ?_).mono ?_ (fun _ _ h => h)
      · intro name
        have hkey : ((s.db.completedOutputs env.loads workflowId).lookup name.text).isSome =
            true := by
          rw [LocalDatabase.lookup_completedOutputs, Option.isSome_map]
          exact isSome_lookup_iff.mpr (hall name)
        exact hkey
      · rintro _ s' rfl
        simp only [Program.safe_bind]
        exact quiet_callEngine rfl (fun _ _ => trivial)
  exact hquiet.guaranteed_of_mem hx

/-! ## When the job can be reviewed -/

/-- The law of a workflow whose input stands under a lease. -/
def Law.lease (workflowId leaseToken : String) : Law where
  ideal := False
  record := fun _ _ => True
  input := fun w inp => w = workflowId → inp.leaseToken = leaseToken

theorem respects_lease
    {leaseToken : String}
    (h : env.LeavesStore) :
    (Law.lease workflowId leaseToken).Respects env := by
  refine ⟨h, fun _ _ _ _ _ _ _ _ _ _ _ _ _ => trivial, ?_, ?_, ?_⟩
  · rintro ⟨⟩
  · rintro ⟨⟩
  · rintro ⟨⟩

/-- A review killed anywhere leaves the input under the lease, if none stood or that one. -/
theorem lease_of_killed
    (henv : env.LeavesStore)
    (hholds : (Law.lease job.jobId.text job.leaseToken).Holds s.db) (n : Nat) :
    (Law.lease job.jobId.text job.leaseToken).Holds
      (Program.killed env.answer n (SimpleEngine.review engine hexdigest job) s).db := by
  have hres : (Law.lease job.jobId.text job.leaseToken).Respects env := respects_lease henv
  have hadmits : (Law.lease job.jobId.text job.leaseToken).Admits
      (.run job.jobId.text (SimpleEngine.inputOf job)) := fun _ => rfl
  have hrun : SafeCall (Law.lease job.jobId.text job.leaseToken) env job.jobId.text
      (SimpleEngine.run engine job.jobId.text (SimpleEngine.inputOf job))
      (Returned (Law.lease job.jobId.text job.leaseToken) job.jobId.text) s :=
    safe_start hres hadmits hholds
  have hreview : SafeCall (Law.lease job.jobId.text job.leaseToken) env job.jobId.text
      (SimpleEngine.review engine hexdigest job)
      (fun _ s' => (Law.lease job.jobId.text job.leaseToken).Holds s'.db) s := by
    unfold SimpleEngine.review SafeCall
    rw [Program.bind_eq, Program.safe_bind]
    refine hrun.mono ?_ (fun _ _ h => h)
    rintro result s' ⟨h, _⟩
    unfold SimpleEngine.acknowledge
    split
    · exact h
    · exact h
  exact hreview.killed_of n (fun _ _ => trivial) (fun _ _ h => h.1) (fun _ _ h => h)
    (fun _ _ h => h)

theorem allRecorded_killed
    (henv : env.LeavesStore) (hall : AllRecorded s.db workflowId) (n : Nat)
    (p : EngineProgram Obj Exc α) :
    AllRecorded (Program.killed env.answer n p s).db workflowId := by
  intro name
  obtain ⟨item, hitem, hname⟩ := List.mem_map.mp (hall name)
  refine List.mem_map.mpr ⟨item, ?_, hname⟩
  exact Program.killed_invariant
    (I := fun s : EngineState codec Obj W => item ∈ s.db.recorded workflowId)
    (fun _ op h => mem_recorded_answer henv op h) n p hitem

/-- A workflow without an outcome, under the lease or with nothing left to run. -/
theorem reviewable_of_open
    (hdigest : ∀ text, hexdigest text ≠ "") (henv : env.Favours engine)
    (hholds : Law.any.Holds s.db)
    (hopen : ∀ run, s.db.workflowRuns.find? job.jobId.text = some run → run.outcome = none)
    (hlease : (∀ run, s.db.workflowRuns.find? job.jobId.text = some run →
        run.input.leaseToken = job.leaseToken) ∨
      AllRecorded s.db job.jobId.text) :
    Reviewable engine env hexdigest s job := by
  obtain ⟨s', trace, hrun, hhandlers⟩ :=
    runs_run (SimpleEngine.inputOf job) henv (respects_any henv.leaves) trivial hholds hopen
  obtain ⟨ack, hreview, hiff⟩ := runs_review hdigest hrun
  refine ⟨⟨ack, congrArg Prod.fst hreview.run, hiff.mpr rfl⟩, ?_, ?_⟩
  · intro name hname
    obtain ⟨s₁, hs₁⟩ := hhandlers name ((mem_drop_iff_not_recorded hholds).mpr hname)
    refine ⟨s₁, SimpleEngine.inputOf job, ?_, rfl⟩
    rw [hreview.steps]
    exact hs₁
  · intro n _ x hx inp hinp
    rcases hlease with hlease | hall
    · have hstart : (Law.lease job.jobId.text job.leaseToken).Holds s.db := by
        refine ⟨hholds.inOrder, hholds.record, ?_, hholds.completed, by rintro ⟨⟩⟩
        intro run hrun hid
        exact hlease run (hid ▸ Table.find?_of_mem hrun)
      obtain ⟨run, hfound, rfl⟩ := resume_passes_stored hx hinp
      exact (lease_of_killed henv.leaves hstart n).input run (Table.mem_of_find? hfound)
        (Table.key_of_find? hfound)
    · rw [resume_allRecorded (allRecorded_killed henv.leaves hall n _) hx] at hinp
      cases hinp

/-- A completed workflow. -/
theorem reviewable_of_completed
    (hdigest : ∀ text, hexdigest text ≠ "")
    (hholds : Law.any.Holds s.db)
    (hrun : s.db.workflowRuns.find? job.jobId.text = some run)
    (hcompleted : run.outcome = some .completed) :
    Reviewable engine env hexdigest s job := by
  obtain ⟨s', hrun', hruns⟩ := runs_run_finished engine env (SimpleEngine.inputOf job)
    hrun hcompleted
  obtain ⟨ack, hreview, hiff⟩ := runs_review hdigest hruns
  refine ⟨⟨ack, congrArg Prod.fst hreview.run, hiff.mpr rfl⟩, ?_, ?_⟩
  · intro name hname
    have hfull := hholds.completed run (Table.mem_of_find? hrun) hcompleted
    rw [Table.key_of_find? hrun] at hfull
    rw [← mem_drop_iff_not_recorded hholds, hfull] at hname
    cases hname
  · intro n _ x hx inp hinp
    have hkilled : (Program.killed env.answer n (SimpleEngine.review engine hexdigest job)
        s).db.workflowRuns.find? job.jobId.text = some run := by
      rcases Program.killed_cases n (SimpleEngine.review engine hexdigest job) s with
        ⟨y, hy, hstate⟩ | hstate
      · rw [hstate]
        rw [hreview.steps] at hy
        simp only [List.mem_cons, List.not_mem_nil, or_false] at hy
        rcases hy with rfl | rfl
        · exact hrun
        · exact hrun'
      · rw [hstate, hreview.run]
        exact hrun'
    rw [resume_finished hkilled hcompleted hx] at hinp
    cases hinp

/-- The job cannot be reviewed in any other state. -/
theorem takesLease_of_reviewable
    (hdigest : ∀ text, hexdigest text ≠ "") (henv : env.Favours engine)
    (hholds : Law.any.Holds s.db)
    (h : Reviewable engine env hexdigest s job) :
    TakesLease s.db job := by
  intro run hrun
  cases houtcome : run.outcome with
  | some status =>
      obtain ⟨s', _, hruns⟩ := runs_run_finished engine env (SimpleEngine.inputOf job)
        hrun houtcome
      obtain ⟨ack, hreview, hiff⟩ := runs_review hdigest hruns
      obtain ⟨ack', hok, hsucceeded⟩ := h.succeeds
      rw [hreview.run] at hok
      cases hok
      exact .inl (congrArg some (hiff.mp hsucceeded))
  | none =>
      refine .inr ⟨rfl, ?_⟩
      by_cases hall : AllRecorded s.db job.jobId.text
      · exact .inr hall
      · -- the review is killed once its input is refused, and the workflow resumed
        left
        unfold AllRecorded at hall
        push Not at hall
        obtain ⟨name, hname⟩ := hall
        let s₁ : EngineState codec Obj W :=
          { s with
            db := s.db.ensureRun job.jobId.text (SimpleEngine.inputOf job) (env.now s) }
        have hkilled : Program.killed env.answer 1
            (SimpleEngine.review engine hexdigest job) s = s₁ := rfl
        have hrun₁ : s₁.db.workflowRuns.find? job.jobId.text = some run := by
          obtain ⟨run', hfound, hold | ⟨hnone, _⟩⟩ :=
            find?_ensureRun s.db job.jobId.text (SimpleEngine.inputOf job) (env.now s)
          · rw [hrun] at hold
            cases hold
            exact hfound
          · rw [hrun] at hnone
            cases hnone
        have hanswer : env.answer (.loadInput job.jobId.text) s₁ = (.ok run.input, s₁) := by
          simp [Surroundings.answer, LocalDatabase.loadInput, hrun₁]
        have hload := runs_callEngine (congrArg Prod.fst hanswer)
        rw [hanswer] at hload
        have hholds₁ : Law.any.Holds s₁.db := hholds.ensureRun trivial (env.now s)
        obtain ⟨s', trace, hadvance, hhandlers⟩ := runs_advance run.input henv
          (respects_any henv.leaves) trivial hholds₁ ⟨run, hrun₁, houtcome⟩
        obtain ⟨s₂, hs₂⟩ := hhandlers name ((mem_drop_iff_not_recorded hholds₁).mpr hname)
        have hsteps : Program.steps env.answer
            (SimpleEngine.resume engine job.jobId.text : EngineProgram Obj Exc WorkflowResult)
            s₁ = [(s₁, .loadInput job.jobId.text)] ++ trace := (hload.bind hadvance).steps
        refine h.resumes 1 Nat.one_pos (s₂, .handler name run.input) ?_ run.input rfl
        rw [hkilled, hsteps]
        exact List.mem_append_right _ hs₂

/--
A job that is handed out again can be reviewed exactly when its workflow takes the new
lease.
-/
theorem reviewable_iff
    (hdigest : ∀ text, hexdigest text ≠ "")
    (world : W) (calls : List (EngineCall codec Obj Exc W))
    (hcalls : ∀ c ∈ calls, c.env.LeavesStore)
    (henv : env.Favours engine) (job : JobEnvelope) :
    Reviewable engine env hexdigest (stateAfter world calls) job ↔
      TakesLease (stateAfter world calls).db job := by
  have hholds : Law.any.Holds (stateAfter world calls).db := holds_any hcalls
  constructor
  · exact takesLease_of_reviewable hdigest henv hholds
  · intro h
    cases hrun : (stateAfter world calls).db.workflowRuns.find? job.jobId.text with
    | none =>
        apply reviewable_of_open hdigest henv hholds
        · rintro run hfound
          rw [hrun] at hfound
          cases hfound
        · refine .inl ?_
          rintro run hfound
          rw [hrun] at hfound
          cases hfound
    | some run =>
        rcases h run hrun with hcompleted | ⟨hnone, hlease⟩
        · exact reviewable_of_completed hdigest hholds hrun hcompleted
        · apply reviewable_of_open hdigest henv hholds
          · rintro run' hfound
            rw [hrun] at hfound
            cases hfound
            exact hnone
          · refine hlease.imp ?_ id
            rintro htoken run' hfound
            rw [hrun] at hfound
            cases hfound
            exact htoken

end Reclaim

/-- The first run of the sample job, with what its heartbeat is answered. -/
def firstRun (lease : LeaseState) : EngineCall strictCodec Json Unit Unit where
  engine := { Engine.plain with heartbeat := true }
  env :=
    { Surroundings.straight strictCodec leaseHandlers (Except.ok : Json → Except Unit Json) id with
      heartbeat := fun _ s => (.ok lease, s) }
  start := .run Runner.sampleJobId.text (SimpleEngine.inputOf Runner.firstEnvelope)
  killedAfter := 7

theorem leavesStore_firstRun
    (lease : LeaseState) :
    (firstRun lease).env.LeavesStore :=
  ⟨fun _ s => .rfl s, fun _ s => .rfl s, fun _ _ s => .rfl s, fun _ _ _ s => .rfl s,
    fun s => .rfl s⟩

/-- The surroundings and the job of the second lease. -/
abbrev ReviewedAgain (lease : LeaseState) : Prop :=
  Reviewable Engine.plain
    (Surroundings.straight strictCodec leaseHandlers (Except.ok : Json → Except Unit Json) id)
    (fun _ => "digest") (stateAfter () [firstRun lease])
    (Runner.sampleEnvelope "second" (by decide))

/-- A first run that is killed, and the job handed out again. -/
theorem reviewable_iff_after_kill :
    ReviewedAgain .active ↔
      TakesLease (stateAfter () [firstRun .active]).db
        (Runner.sampleEnvelope "second" (by decide)) :=
  reviewable_iff (fun _ => by decide) () [firstRun .active]
    (fun c hc => by
      rw [List.mem_singleton.mp hc]
      exact leavesStore_firstRun .active)
    (favours_straight (fun _ _ _ => ⟨_, rfl, rfl⟩)) _

/--
The heartbeat of the first run is answered `invalid_or_expired`, or the run is killed: the
job cannot be reviewed under the second lease.
-/
theorem not_reviewed_again :
    ¬ReviewedAgain .invalidOrExpired ∧ ¬ReviewedAgain .active := by
  have htakes : ∀ lease, ReviewedAgain lease →
      TakesLease (stateAfter () [firstRun lease]).db
        (Runner.sampleEnvelope "second" (by decide)) := by
    intro lease h
    refine takesLease_of_reviewable (fun _ => by decide)
      (favours_straight (fun _ _ _ => ⟨_, rfl, rfl⟩)) (holds_any ?_) h
    intro c hc
    rw [List.mem_singleton.mp hc]
    exact leavesStore_firstRun lease
  let run (outcome : Option WorkflowStatus) (reason : Option String) : WorkflowRun :=
    { workflowId := Runner.sampleJobId.text
      input := SimpleEngine.inputOf Runner.firstEnvelope
      outcome := outcome
      reason := reason
      createdAt := 0 }
  constructor
  · intro h
    have hrun : (stateAfter () [firstRun .invalidOrExpired]).db.workflowRuns.find?
        Runner.sampleJobId.text = some (run (some .failed) (some "invalid_or_expired")) := by
      decide +kernel
    rcases htakes _ h _ hrun with hcompleted | ⟨hnone, _⟩
    · cases hcompleted
    · cases hnone
  · intro h
    have hrun : (stateAfter () [firstRun .active]).db.workflowRuns.find?
        Runner.sampleJobId.text = some (run none none) := by
      decide +kernel
    rcases htakes _ h _ hrun with hcompleted | ⟨_, htoken | hall⟩
    · cases hcompleted
    · revert htoken
      decide
    · have hfetch := hall .fetch
      revert hfetch
      decide +kernel

end Workflow
end PrReviewer
