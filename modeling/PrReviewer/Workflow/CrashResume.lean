import PrReviewer.Workflow.Progress

/-!
# Crash and resume

Histories of calls that are killed, in which the handlers are functions of what they are
given and no check stops a workflow.  The steps of a workflow are recorded in order, none
runs again once it is recorded, and no recorded output changes.

A workflow that completes has the outputs of a run that was never interrupted, where the
calls pass inputs that the handlers do not tell apart.  `run` hands the handlers the input
it was called with, so that otherwise a resumed workflow has outputs of both inputs.
-/

namespace PrReviewer

open Lib
open Runner (LocalDatabase WorkflowInput WorkflowRun)

namespace Workflow

/-- Handlers as functions of the step, the input and the dictionary. -/
abbrev Handlers (Obj : Type) : Type :=
  StepName → WorkflowInput → (String → Option Obj) → Obj

section CrashResume

variable {codec : Codec} {Obj Exc W : Type}

/--
A handler that returns gives what the function gives; no check stops a workflow.  Any call
may raise, and a step may overrun its timeout.
-/
structure Surroundings.Steady
    (env : Surroundings codec Obj Exc W) (f : Handlers Obj) (dumps : Obj → Except Exc Json)
    (loads : Json → Obj) : Prop where
  leaves : env.LeavesStore
  dumps_eq : env.dumps = dumps
  loads_eq : env.loads = loads
  handler : ∀ name inp s output, (env.handler name inp s).1 = .ok output →
    output = f name inp (fun key => s.outputs.lookup key)
  leaseActive : ∀ inp s lease, (env.heartbeat inp s).1 = .ok lease → lease = .active
  headCurrent : ∀ inp s live, (env.currentHeadSha inp s).1 = .ok live → live = inp.headSha

/-- The outputs of the handlers are fixed by a round trip through JSON. -/
def RoundTrips (f : Handlers Obj) (dumps : Obj → Except Exc Json) (loads : Json → Obj) : Prop :=
  ∀ name inp outputs, ∃ json, dumps (f name inp outputs) = .ok json ∧
    loads json = f name inp outputs

/-- Surroundings in which the handlers always return. -/
def Surroundings.straight
    (codec : Codec) (f : Handlers Obj) (dumps : Obj → Except Exc Json) (loads : Json → Obj) :
    Surroundings codec Obj Exc Unit where
  heartbeat := fun _ s => (.ok .active, s)
  currentHeadSha := fun inp s => (.ok inp.headSha, s)
  handler := fun name inp s => (.ok (f name inp (fun key => s.outputs.lookup key)), s)
  recordEvent := fun _ _ _ s => (.ok (), s)
  monotonic := fun s => (0, s)
  now := fun _ => 0
  dumps := dumps
  loads := loads

/-- An engine without checks, events and timeouts. -/
def Engine.plain : Engine where
  heartbeat := false
  currentHeadSha := false
  recordEvent := false
  stepTimeouts := fun _ => none

/-- One uninterrupted run of a workflow, on a new file. -/
def uninterruptedRun
    (codec : Codec) (f : Handlers Obj) (dumps : Obj → Except Exc Json) (loads : Json → Obj)
    (workflowId : String) (inp : WorkflowInput) :
    Except (EngineError Exc) WorkflowResult × EngineState codec Obj Unit :=
  Program.run (Surroundings.straight codec f dumps loads).answer
    (SimpleEngine.run Engine.plain workflowId inp) (.new codec Obj ())

/-- What the handlers make of the first `k` steps. -/
def straightOutputs
    (f : Handlers Obj) (dumps : Obj → Except Exc Json) (loads : Json → Obj)
    (inp : WorkflowInput) : Nat → Option (List (String × Json))
  | 0 => some []
  | k + 1 =>
      match straightOutputs f dumps loads inp k, stepNames[k]? with
      | some recorded, some name =>
          match dumps (f name inp (fun key => (recorded.lookup key).map loads)) with
          | .ok json => some (recorded ++ [(name.text, json)])
          | .error _ => none
      | _, _ => none

/-- The law of one workflow whose calls pass inputs that are as good as `inp`. -/
def Law.straight
    (f : Handlers Obj) (dumps : Obj → Except Exc Json) (loads : Json → Obj)
    (workflowId : String) (inp : WorkflowInput) : Law where
  ideal := True
  record := fun w recorded => w = workflowId →
    straightOutputs f dumps loads inp recorded.length = some recorded
  input := fun w inp' => w = workflowId → ∀ name outputs, f name inp' outputs = f name inp outputs

variable {f : Handlers Obj} {dumps : Obj → Except Exc Json} {loads : Json → Obj}
variable {workflowId : String} {inp : WorkflowInput}

theorem respects_straight
    {env : Surroundings codec Obj Exc W}
    (hjson : RoundTrips f dumps loads) (henv : env.Steady f dumps loads) :
    (Law.straight f dumps loads workflowId inp).Respects env := by
  refine ⟨henv.leaves, ?_, ?_, fun _ => henv.leaseActive, fun _ => henv.headCurrent⟩
  · intro w inp' name recorded output json s hinput hname hrecord hvalues houtput hdumps hw
    rw [henv.dumps_eq] at hdumps
    rw [henv.loads_eq] at hvalues
    have hlookup : (fun key => s.outputs.lookup key) =
        fun key => (recorded.lookup key).map loads := by
      funext key
      exact hvalues trivial key
    have hsame := henv.handler name inp' s output houtput
    rw [hlookup, hinput hw name] at hsame
    rw [List.length_append, List.length_singleton, straightOutputs, hrecord hw, hname]
    simp only [← hsame, hdumps]
  · intro _ name inp' s output json houtput hdumps
    rw [henv.dumps_eq] at hdumps
    rw [henv.loads_eq]
    have hsame := henv.handler name inp' s output houtput
    obtain ⟨json', hjson', hloads⟩ := hjson name inp' (fun key => s.outputs.lookup key)
    rw [← hsame, hdumps] at hjson'
    cases hjson'
    rw [hloads, hsame]

/-- Two complete records of the workflow are the same. -/
theorem recorded_eq
    {W' : Type} {s : EngineState codec Obj W} {s' : EngineState codec Obj W'}
    (h : (Law.straight f dumps loads workflowId inp).Holds s.db)
    (h' : (Law.straight f dumps loads workflowId inp).Holds s'.db)
    (hfull : (s.db.recorded workflowId).length = stepNames.length)
    (hfull' : (s'.db.recorded workflowId).length = stepNames.length) :
    s.db.recorded workflowId = s'.db.recorded workflowId := by
  have hrecord := h.record workflowId rfl
  have hrecord' := h'.record workflowId rfl
  rw [hfull] at hrecord
  rw [hfull', hrecord] at hrecord'
  exact Option.some.inj hrecord'

theorem steady_straight :
    (Surroundings.straight codec f dumps loads).Steady f dumps loads := by
  refine ⟨?_, rfl, rfl, ?_, ?_, ?_⟩
  · exact ⟨fun _ s => .rfl s, fun _ s => .rfl s, fun _ _ s => .rfl s, fun _ _ _ s => .rfl s,
      fun s => .rfl s⟩
  · rintro name inp' s output ⟨⟩
    rfl
  · rintro inp' s lease ⟨⟩
    rfl
  · rintro inp' s live ⟨⟩
    rfl

theorem favours_straight
    (hjson : RoundTrips f dumps loads) :
    (Surroundings.straight codec f dumps loads).Favours Engine.plain := by
  refine ⟨steady_straight.leaves, fun _ _ => rfl, fun _ _ => rfl, ?_, fun _ _ _ _ => rfl, ?_⟩
  · intro name inp s
    obtain ⟨json, hdumps, _⟩ := hjson name inp (fun key => s.outputs.lookup key)
    exact ⟨_, json, rfl, hdumps⟩
  · rintro name inp s timeout ⟨⟩

/-- The uninterrupted run completes, with the outputs of the law. -/
theorem uninterruptedRun_completes
    (codec : Codec) (hjson : RoundTrips f dumps loads)
    (workflowId : String) (inp : WorkflowInput) :
    (uninterruptedRun codec f dumps loads workflowId inp).1 =
        .ok { status := .completed, reason := none } ∧
      Returned (Law.straight f dumps loads workflowId inp) workflowId
        { status := .completed, reason := none }
        (uninterruptedRun codec f dumps loads workflowId inp).2 := by
  let env := Surroundings.straight codec f dumps loads
  have hsteady : env.Steady f dumps loads := steady_straight
  have hfavours : env.Favours Engine.plain := favours_straight hjson
  have hres : (Law.straight f dumps loads workflowId inp).Respects env :=
    respects_straight hjson hsteady
  have hinp : (Law.straight f dumps loads workflowId inp).input workflowId inp :=
    fun _ _ _ => rfl
  have hnew : (Law.straight f dumps loads workflowId inp).Holds
      (EngineState.new codec Obj ()).db := holds_new () (fun _ _ => rfl)
  obtain ⟨s', trace, hruns, _⟩ := runs_run inp hfavours hres hinp hnew (by rintro run ⟨⟩)
  have hadmits : (Law.straight f dumps loads workflowId inp).Admits (.run workflowId inp) := hinp
  have hsafe : SafeCall (Law.straight f dumps loads workflowId inp) env workflowId
      (SimpleEngine.start Engine.plain (.run workflowId inp))
      (Returned (Law.straight f dumps loads workflowId inp) workflowId)
      (EngineState.new codec Obj ()) := safe_start hres hadmits hnew
  have hreturned := hsafe.of_ok (fun _ _ => trivial) (congrArg Prod.fst hruns.run)
  exact ⟨congrArg Prod.fst hruns.run, hreturned⟩

/-! ## What a history keeps -/

/-- A recorded output stays as it is, whatever is called. -/
theorem mem_recorded_answer
    {env : Surroundings codec Obj Exc W} {s : EngineState codec Obj W} {item : String × Json}
    (henv : env.LeavesStore) (op : EngineOp Obj)
    (hitem : item ∈ s.db.recorded workflowId) :
    item ∈ (env.answer op s).2.db.recorded workflowId := by
  cases hreads : op.reads with
  | true =>
      rw [(sameStore_answer henv op hreads s).recorded]
      exact hitem
  | false =>
      cases op with
      | markStepCompleted w name output =>
          simp only [Surroundings.answer]
          split
          · rw [LocalDatabase.recorded_markStepCompleted]
            split
            · next hnew =>
                rw [← hnew.1]
                exact List.mem_append_left _ hitem
            · exact hitem
          · exact hitem
      | ensureRun w inp => exact hitem
      | completedOutputs w => exact hitem
      | putOutput name output => exact hitem
      | setOutcome w status reason => exact hitem
      | _ => cases hreads

theorem mem_recorded_exec
    {s : EngineState codec Obj W} {calls : List (EngineCall codec Obj Exc W)}
    {item : String × Json}
    (hcalls : ∀ c ∈ calls, c.env.LeavesStore)
    (hitem : item ∈ s.db.recorded workflowId) :
    item ∈ (exec callStep s calls).db.recorded workflowId := by
  induction calls generalizing s with
  | nil => exact hitem
  | cons c rest ih =>
      apply ih (fun c' hc' => hcalls c' (List.mem_cons_of_mem c hc'))
      exact Program.killed_invariant
        (I := fun s : EngineState codec Obj W => item ∈ s.db.recorded workflowId)
        (fun _ op h => mem_recorded_answer (hcalls c (by simp)) op h) c.killedAfter c.program hitem

/-- The calls for the workflow pass inputs that the handlers do not tell from `inp`. -/
def PassInput (f : Handlers Obj) (calls : List (EngineCall codec Obj Exc W))
    (workflowId : String) (inp : WorkflowInput) : Prop :=
  ∀ c ∈ calls, ∀ inp', c.start = .run workflowId inp' →
    ∀ name outputs, f name inp' outputs = f name inp outputs

section Steady

variable {world : W} {calls before after : List (EngineCall codec Obj Exc W)}
variable {c : EngineCall codec Obj Exc W}

theorem holds_any
    (hcalls : ∀ c ∈ calls, c.env.LeavesStore) :
    Law.any.Holds (stateAfter world calls).db := by
  refine holds_exec ?_ (holds_new world (fun _ => trivial))
  intro c hc
  refine ⟨respects_any (hcalls c hc), ?_⟩
  cases c.start with
  | run w inp => trivial
  | resume w => trivial

theorem keeps_straight
    (hjson : RoundTrips f dumps loads)
    (hcalls : ∀ c ∈ calls, c.env.Steady f dumps loads)
    (hpass : PassInput f calls workflowId inp)
    (hc : c ∈ calls) :
    (Law.straight f dumps loads workflowId inp).Keeps c := by
  refine ⟨respects_straight hjson (hcalls c hc), ?_⟩
  cases hstart : c.start with
  | resume w => trivial
  | run w inp' =>
      rintro rfl
      exact hpass c hc inp' hstart

theorem holds_straight
    (hjson : RoundTrips f dumps loads)
    (hcalls : ∀ c ∈ calls, c.env.Steady f dumps loads)
    (hpass : PassInput f calls workflowId inp) :
    (Law.straight f dumps loads workflowId inp).Holds (stateAfter world calls).db :=
  holds_exec (fun _ hc => keeps_straight hjson hcalls hpass hc)
    (holds_new world (fun _ _ => rfl))

/-- No handler runs for a step that is recorded. -/
theorem never_again
    (hcalls : ∀ c' ∈ before ++ c :: after, c'.env.LeavesStore)
    {s : EngineState codec Obj W} {name : StepName}
    (hmem : (s, EngineOp.handler name inp) ∈
      (Program.steps c.env.answer c.program (stateAfter world before)).take c.killedAfter) :
    name.text ∉ (s.db.recorded c.start.workflowId).map Prod.fst := by
  have hbefore : Law.any.Holds (stateAfter world before).db :=
    holds_any (fun c' hc' => hcalls c' (List.mem_append_left _ hc'))
  have hres : Law.any.Respects c.env := respects_any (hcalls c (by simp))
  have hadmits : Law.any.Admits c.start := by
    cases c.start with
    | run w inp => trivial
    | resume w => trivial
  exact ((safe_start hres hadmits hbefore).guaranteed_of_mem (List.mem_of_mem_take hmem)).2
    name inp rfl

/-- What a call that returns gives, and what it leaves. -/
theorem result_eq
    (hjson : RoundTrips f dumps loads)
    (hcalls : ∀ c' ∈ before ++ c :: after, c'.env.Steady f dumps loads)
    (hpass : PassInput f (before ++ c :: after) c.start.workflowId inp)
    {result : WorkflowResult} {s' : EngineState codec Obj W}
    (hrun : Program.run c.env.answer c.program (stateAfter world before) = (.ok result, s')) :
    (uninterruptedRun codec f dumps loads c.start.workflowId inp).1 = .ok result ∧
      s'.db.recorded c.start.workflowId =
        (uninterruptedRun codec f dumps loads c.start.workflowId inp).2.db.recorded
          c.start.workflowId := by
  have hbefore : (Law.straight f dumps loads c.start.workflowId inp).Holds
      (stateAfter world before).db :=
    holds_straight hjson (fun c' hc' => hcalls c' (List.mem_append_left _ hc'))
      (fun c' hc' => hpass c' (List.mem_append_left _ hc'))
  obtain ⟨hres, hadmits⟩ := keeps_straight hjson hcalls hpass (by simp : c ∈ _)
  have hsafe : SafeCall (Law.straight f dumps loads c.start.workflowId inp) c.env
      c.start.workflowId c.program
      (Returned (Law.straight f dumps loads c.start.workflowId inp) c.start.workflowId)
      (stateAfter world before) := safe_start hres hadmits hbefore
  obtain ⟨hholds, hreturned⟩ := hsafe.of_ok (fun _ _ => trivial) (congrArg Prod.fst hrun)
  obtain ⟨hresult, hstraight, hfull⟩ :=
    uninterruptedRun_completes codec hjson c.start.workflowId inp
  rw [hrun] at hholds hreturned
  obtain ⟨rfl, hlength⟩ := hreturned trivial
  exact ⟨hresult, recorded_eq hholds hstraight hlength (hfull trivial).2⟩

end Steady

/--
What holds after a history: the recorded steps are a prefix of `STEP_NAMES`; no handler runs
for a recorded step; no recorded output changes; and a workflow whose calls pass one input
has, once it is completed, the outputs of the uninterrupted run, and each call that returns
gives its result.
-/
structure HistoryKept
    (f : Handlers Obj) (dumps : Obj → Except Exc Json) (loads : Json → Obj)
    (world : W) (calls : List (EngineCall codec Obj Exc W)) : Prop where
  inOrder : ∀ w, ∃ k, ((stateAfter world calls).db.recorded w).map Prod.fst =
    (stepNames.take k).map StepName.text
  neverAgain : ∀ before c after, calls = before ++ c :: after →
    ∀ s name inp, (s, EngineOp.handler name inp) ∈
        (Program.steps c.env.answer c.program (stateAfter world before)).take c.killedAfter →
      name.text ∉ (s.db.recorded c.start.workflowId).map Prod.fst
  unchanged : ∀ before after, calls = before ++ after →
    ∀ w, ∀ item ∈ (stateAfter world before).db.recorded w,
      item ∈ (stateAfter world calls).db.recorded w
  completed : ∀ w inp, PassInput f calls w inp →
    ∀ run, (stateAfter world calls).db.workflowRuns.find? w = some run →
      run.outcome = some .completed →
      (stateAfter world calls).db.recorded w =
        (uninterruptedRun codec f dumps loads w inp).2.db.recorded w
  result : ∀ w inp, PassInput f calls w inp →
    ∀ before c after, calls = before ++ c :: after → c.start.workflowId = w →
      ∀ result s', Program.run c.env.answer c.program (stateAfter world before) =
          (.ok result, s') →
        (uninterruptedRun codec f dumps loads w inp).1 = .ok result ∧
          s'.db.recorded w = (uninterruptedRun codec f dumps loads w inp).2.db.recorded w

theorem crash_and_resume
    (f : Handlers Obj) (dumps : Obj → Except Exc Json) (loads : Json → Obj)
    (hjson : RoundTrips f dumps loads)
    (world : W) (calls : List (EngineCall codec Obj Exc W))
    (hcalls : ∀ c ∈ calls, c.env.Steady f dumps loads) :
    HistoryKept f dumps loads world calls where
  inOrder := by
    intro w
    have hholds : Law.any.Holds (stateAfter world calls).db :=
      holds_any (fun c hc => (hcalls c hc).leaves)
    exact ⟨_, hholds.inOrder w⟩
  neverAgain := by
    rintro before c after rfl s name inp hmem
    exact never_again (fun c' hc' => (hcalls c' hc').leaves) hmem
  unchanged := by
    rintro before after rfl w item hitem
    unfold stateAfter
    rw [exec_append]
    exact mem_recorded_exec
      (fun c hc => (hcalls c (List.mem_append_right _ hc)).leaves) hitem
  completed := by
    intro w inp hpass run hrun hcompleted
    have hholds : (Law.straight f dumps loads w inp).Holds (stateAfter world calls).db :=
      holds_straight hjson hcalls hpass
    obtain ⟨_, hstraight, hfull⟩ := uninterruptedRun_completes codec hjson w inp
    have hlength := hholds.completed run (Table.mem_of_find? hrun) hcompleted
    rw [Table.key_of_find? hrun] at hlength
    exact recorded_eq hholds hstraight hlength (hfull trivial).2
  result := by
    rintro w inp hpass before c after rfl rfl result s' hrun
    exact result_eq hjson hcalls hpass hrun

end CrashResume

/-- A call in surroundings in which the handlers return. -/
def straightCall (f : Handlers Json) (start : Start) (killedAfter : Nat) :
    EngineCall strictCodec Json Unit Unit where
  engine := .plain
  env := .straight strictCodec f .ok id
  start := start
  killedAfter := killedAfter

theorem steady_straightCall
    (f : Handlers Json) (start : Start) (killedAfter : Nat) :
    (straightCall f start killedAfter).env.Steady f .ok id :=
  steady_straight

def leaseInput (leaseToken : String) : WorkflowInput where
  jobId := "job"
  headSha := "head"
  traceId := "trace"
  leaseToken := leaseToken

/-- A run killed when its first step is recorded, and its resumption. -/
theorem crash_and_resume_twice :
    HistoryKept (fun name _ _ => .str name.text) (Except.ok : Json → Except Unit Json) id ()
      [straightCall (fun name _ _ => .str name.text) (.run "job" (leaseInput "lease")) 7,
        straightCall (fun name _ _ => .str name.text) (.resume "job") 100] := by
  refine crash_and_resume _ _ _ (fun _ _ _ => ⟨_, rfl, rfl⟩) _ _ ?_
  intro c hc
  rcases List.mem_cons.mp hc with rfl | hc
  · exact steady_straightCall _ _ _
  · rw [List.mem_singleton.mp hc]
    exact steady_straightCall _ _ _

/-- Handlers that return the lease token. -/
def leaseHandlers : Handlers Json :=
  fun _ inp _ => .str inp.leaseToken

/-- A run killed when its first step is recorded, and a run of the job under another lease. -/
def twoLeases : List (EngineCall strictCodec Json Unit Unit) :=
  [straightCall leaseHandlers (.run "job" (leaseInput "first")) 7,
    straightCall leaseHandlers (.run "job" (leaseInput "second")) 100]

/-- The outputs of the workflow are those of no uninterrupted run. -/
theorem outputs_of_two_leases :
    (∀ c ∈ twoLeases, c.env.Steady leaseHandlers .ok id) ∧
      ((stateAfter () twoLeases).db.workflowRuns.find? "job").bind WorkflowRun.outcome =
        some .completed ∧
      ∀ inp, (stateAfter () twoLeases).db.recorded "job" ≠
        (uninterruptedRun strictCodec leaseHandlers (Except.ok : Json → Except Unit Json) id "job"
          inp).2.db.recorded "job" := by
  refine ⟨?_, ?_, ?_⟩
  · intro c hc
    rcases List.mem_cons.mp hc with rfl | hc
    · exact steady_straightCall _ _ _
    · rw [List.mem_singleton.mp hc]
      exact steady_straightCall _ _ _
  · decide +kernel
  · intro inp heq
    have hjson : RoundTrips leaseHandlers (Except.ok : Json → Except Unit Json) id :=
      fun _ _ _ => ⟨_, rfl, rfl⟩
    obtain ⟨_, hstraight, hfull⟩ := uninterruptedRun_completes strictCodec hjson "job" inp
    have hrecord := hstraight.record "job" rfl
    rw [(hfull trivial).2, ← heq] at hrecord
    have htexts : ((stateAfter () twoLeases).db.recorded "job").map
        (fun item => item.2.optionalText?) =
        some (some "first") :: List.replicate 5 (some (some "second")) := by
      decide +kernel
    have hsame : straightOutputs leaseHandlers (Except.ok : Json → Except Unit Json) id inp
        stepNames.length =
        some (stepNames.map (fun name => (name.text, .str inp.leaseToken))) := rfl
    rw [hsame] at hrecord
    rw [← Option.some.inj hrecord] at htexts
    simp only [stepNames, List.map_cons, List.map_nil, Json.optionalText?, List.replicate,
      List.cons.injEq, Option.some.injEq] at htexts
    rw [htexts.1] at htexts
    exact absurd htexts.2.1 (by decide)

end Workflow
end PrReviewer
