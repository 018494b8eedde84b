import PrReviewer.Runner.Rules
import PrReviewer.Lib.Run

/-!
# Runs of the daemon

A run is a sequence of calls of the daemon's methods, any of which may be cut by
a kill, and of restarts on the same store.  Its steps are the operations the
methods performed, each with the state before it.  What is guaranteed of every
operation of a method is guaranteed of every step of a run.
-/

namespace PrReviewer
namespace Runner

open Lib

/-- The methods a run calls. -/
inductive DaemonMethod where
  | start
  | processOnce
  | replayPendingAcknowledgements
deriving DecidableEq, Repr

/-- One command: a method, perhaps killed after some operations, or a new process. -/
inductive DaemonCommand where
  | call (method : DaemonMethod) (killAfter : Option Nat)
  | restart (credential : String) (onStoreThread : Bool)
deriving DecidableEq, Repr

section Runs

variable {codec : Codec} {ω : Type}
variable (config : DaemonConfig) (surroundings : Surroundings ω)

variable (codec) in
/-- The program of a method. -/
def DaemonMethod.program : DaemonMethod → Daemon Unit
  | .start => Runner.start codec config
  | .processOnce => Runner.processOnce codec config
  | .replayPendingAcknowledgements => Runner.replayPendingAcknowledgements codec config

/-- The state after one command. -/
def runCommand (w : RunnerState codec ω) : DaemonCommand → RunnerState codec ω
  | .call method none => (Program.run (answer surroundings) (method.program codec config) w).2
  | .call method (some n) =>
      Program.killed (answer surroundings) n (method.program codec config) w
  | .restart credential onStoreThread =>
      { w with gate := .new, credential := credential, onStoreThread := onStoreThread }

/-- The operations of one command, each with the state before it. -/
def commandSteps (w : RunnerState codec ω) :
    DaemonCommand → List (RunnerState codec ω × DaemonOp)
  | .call method none =>
      Program.steps (answer surroundings) (method.program codec config) w
  | .call method (some n) =>
      (Program.steps (answer surroundings) (method.program codec config) w).take n
  | .restart _ _ => []

/-- The operations of a run. -/
def runSteps :
    RunnerState codec ω → List DaemonCommand → List (RunnerState codec ω × DaemonOp)
  | _, [] => []
  | w, command :: commands =>
      commandSteps config surroundings w command ++
        runSteps (runCommand config surroundings w command) commands

end Runs

section Rules

variable {codec : Codec} {ω : Type} {config : DaemonConfig} {surroundings : Surroundings ω}
variable {assumed guaranteed : RunnerState codec ω → DaemonOp → Prop}

/-- A call that was not killed is one killed after all its operations. -/
theorem call_eq_killed
    (config : DaemonConfig) (surroundings : Surroundings ω) (w : RunnerState codec ω)
    (method : DaemonMethod) (killAfter : Option Nat) :
    ∃ n,
      commandSteps config surroundings w (.call method killAfter) =
        (Program.steps (answer surroundings) (method.program codec config) w).take n ∧
      runCommand config surroundings w (.call method killAfter) =
        Program.killed (answer surroundings) n (method.program codec config) w := by
  cases killAfter with
  | none =>
      refine ⟨(Program.steps (answer surroundings) (method.program codec config) w).length,
        ?_, ?_⟩
      · exact (List.take_length).symm
      · exact (Program.killed_length _ _).symm
  | some n => exact ⟨n, rfl, rfl⟩

/-- A step of a cut run is a step of the whole. -/
theorem split_of_take
    {α : Type} {steps before after : List α} {x : α} {n : Nat}
    (h : steps.take n = before ++ x :: after) :
    steps = before ++ x :: (after ++ steps.drop n) := by
  calc
    steps = steps.take n ++ steps.drop n := (List.take_append_drop n steps).symm
    _ = before ++ x :: (after ++ steps.drop n) := by
      rw [h, List.append_assoc, List.cons_append]

/-- What every method guarantees holds of every step of one command. -/
theorem commandSteps_guaranteed
    {I : RunnerState codec ω → Prop}
    (hmethod : ∀ method w, I w →
      Program.Safe (answer surroundings) assumed guaranteed
        (DaemonMethod.program codec config method) (fun _ => I) (fun _ => I) w)
    (hguaranteed : ∀ w op, guaranteed w op → I w)
    (hrestart : ∀ w credential onStoreThread, I w →
      I { w with gate := .new, credential := credential, onStoreThread := onStoreThread })
    (command : DaemonCommand)
    {w : RunnerState codec ω}
    (hI : I w)
    (hassumed : ∀ x ∈ commandSteps config surroundings w command, assumed x.1 x.2) :
    (∀ x ∈ commandSteps config surroundings w command, guaranteed x.1 x.2) ∧
      I (runCommand config surroundings w command) := by
  cases command with
  | restart credential onStoreThread =>
      refine ⟨?_, hrestart w credential onStoreThread hI⟩
      intro x hx
      cases hx
  | call method killAfter =>
      have hsafe := hmethod method w hI
      obtain ⟨n, hsteps, hrun⟩ := call_eq_killed config surroundings w method killAfter
      rw [hsteps] at hassumed ⊢
      rw [hrun]
      refine ⟨?_, ?_⟩
      · intro x hx
        obtain ⟨before, after, hsplit⟩ := List.append_of_mem hx
        refine hsafe.guaranteed_at (split_of_take hsplit) ?_
        intro y hy
        refine hassumed y ?_
        rw [hsplit]
        exact List.mem_append_left _ hy
      · exact hsafe.killed_of n hassumed hguaranteed (fun _ _ h => h) (fun _ _ h => h)

/--
What every method guarantees as long as the assumption is met holds of every step
of a run that meets the assumption.  `I` is what a method may start from.
-/
theorem runSteps_guaranteed
    {I : RunnerState codec ω → Prop}
    (hmethod : ∀ method w, I w →
      Program.Safe (answer surroundings) assumed guaranteed
        (DaemonMethod.program codec config method) (fun _ => I) (fun _ => I) w)
    (hguaranteed : ∀ w op, guaranteed w op → I w)
    (hrestart : ∀ w credential onStoreThread, I w →
      I { w with gate := .new, credential := credential, onStoreThread := onStoreThread })
    (commands : List DaemonCommand)
    (w : RunnerState codec ω)
    (hI : I w)
    (hassumed : ∀ x ∈ runSteps config surroundings w commands, assumed x.1 x.2) :
    ∀ x ∈ runSteps config surroundings w commands, guaranteed x.1 x.2 := by
  induction commands generalizing w with
  | nil =>
      intro x hx
      cases hx
  | cons command commands ih =>
      have hfirst :=
        commandSteps_guaranteed hmethod hguaranteed hrestart command hI
          (fun x hx => hassumed x (List.mem_append_left _ hx))
      have hrest :=
        ih (runCommand config surroundings w command) hfirst.2
          (fun x hx => hassumed x (List.mem_append_right _ hx))
      intro x hx
      rcases List.mem_append.mp hx with hx | hx
      · exact hfirst.1 x hx
      · exact hrest x hx

/-- A relation between the past of a run and its state, kept by every operation. -/
theorem runSteps_history
    {R : List (RunnerState codec ω × DaemonOp) → RunnerState codec ω → Prop}
    (hop : ∀ past w op, R past w → assumed w op →
      R (past ++ [(w, op)]) (answer surroundings op w).2)
    (hrestart : ∀ past w credential onStoreThread, R past w →
      R past { w with gate := .new, credential := credential, onStoreThread := onStoreThread })
    (commands : List DaemonCommand)
    {w : RunnerState codec ω} {past : List (RunnerState codec ω × DaemonOp)}
    (hR : R past w)
    {before : List (RunnerState codec ω × DaemonOp)} {x : RunnerState codec ω × DaemonOp}
    {after : List (RunnerState codec ω × DaemonOp)}
    (hsplit : runSteps config surroundings w commands = before ++ x :: after)
    (hassumed : ∀ y ∈ before, assumed y.1 y.2) :
    R (past ++ before) x.1 := by
  induction commands generalizing w past before with
  | nil =>
      cases before with
      | nil => cases hsplit
      | cons y before => cases hsplit
  | cons command commands ih =>
      have hcommand :
          ∀ before' after', commandSteps config surroundings w command = before' ++ x :: after' →
            (∀ y ∈ before', assumed y.1 y.2) → R (past ++ before') x.1 := by
        intro before' after' hsteps hbefore'
        cases command with
        | restart credential onStoreThread =>
            cases before' with
            | nil => cases hsteps
            | cons y before' => cases hsteps
        | call method killAfter =>
            obtain ⟨n, hcut, _⟩ := call_eq_killed config surroundings w method killAfter
            rw [hcut] at hsteps
            exact Program.history_at hop hR (split_of_take hsteps) hbefore'
      have hend :
          (∀ y ∈ commandSteps config surroundings w command, assumed y.1 y.2) →
            R (past ++ commandSteps config surroundings w command)
              (runCommand config surroundings w command) := by
        intro hsteps
        cases command with
        | restart credential onStoreThread =>
            have hnone :
                past ++ commandSteps config surroundings w
                  (.restart credential onStoreThread) = past :=
              List.append_nil past
            rw [hnone]
            exact hrestart past w credential onStoreThread hR
        | call method killAfter =>
            obtain ⟨n, hcut, hrun⟩ := call_eq_killed config surroundings w method killAfter
            rw [hcut] at hsteps ⊢
            rw [hrun]
            exact Program.history_killed hop hR n hsteps
      have hlater :
          ∀ before', before = commandSteps config surroundings w command ++ before' →
            runSteps config surroundings (runCommand config surroundings w command) commands =
              before' ++ x :: after → R (past ++ before) x.1 := by
        intro before' hbefore hrest
        subst hbefore
        have hfirst := hend (fun y hy => hassumed y (List.mem_append_left _ hy))
        have hx := ih hfirst hrest (fun y hy => hassumed y (List.mem_append_right _ hy))
        rw [List.append_assoc] at hx
        exact hx
      rcases List.append_eq_append_iff.mp hsplit with
        ⟨before', hbefore, hrest⟩ | ⟨cut, hsteps, hrest⟩
      · exact hlater before' hbefore hrest
      · cases cut with
        | nil =>
            rw [List.append_nil] at hsteps
            rw [List.nil_append] at hrest
            refine hlater [] ?_ hrest.symm
            rw [List.append_nil, hsteps]
        | cons y cut =>
            obtain ⟨rfl, _⟩ := List.cons.inj hrest
            exact hcommand before cut hsteps hassumed

end Rules

end Runner
end PrReviewer
