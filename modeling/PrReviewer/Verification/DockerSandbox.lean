import Mathlib.Tactic
import PrReviewer.Containers.Docker
import PrReviewer.Verification.StaticChecks

/-!
# Sandbox verification

verification/docker_sandbox.py: `verify_finding` runs an allowlisted command in a container with
a work directory of its own, and `_cleanup` removes the container and then the directory.

The times of `time.monotonic` are rational and nothing is rounded; an integer that is too large
for a float overflows.  `SandboxWorld` holds every answer of the world to one verification: no
command is run twice in it.  Only the verification touches its work directory.
-/

namespace PrReviewer
namespace Verification

open Lib
open Github
open Reviewer
open Containers

/-- `^[a-z][a-z0-9_]*$`, the command ids of `SandboxJob`. -/
def isCommandId (commandId : String) : Bool :=
  match commandId.toList with
  | [] => false
  | first :: rest => first.isLower && rest.all (fun c => c.isLower || c.isDigit || c == '_')

/-- `VerificationPolicy`, with the checks of `__post_init__`. -/
structure VerificationPolicy where
  imageDigest : PyStr
  allowedCommandIds : List String
  requiredHeadSha : String
  commandId : Option String
  cpuLimit : PyStr
  memoryLimitMb : Int
  pidsLimit : Int
  timeoutSeconds : Int
  diskLimitMb : Int
  pinned : isPinned imageDigest = true
  timeout_pos : 0 < timeoutSeconds
  command_allowed : ∀ id ∈ commandId, id ∈ allowedCommandIds ∧ isCommandId id = true

/-- `DEFAULT_COMMANDS`. -/
def defaultCommands : List (String × List PyStr) :=
  [("true", texts ["true"]), ("false", texts ["false"]), ("id_user", texts ["id", "-u"])]

/-- `{**DEFAULT_COMMANDS, **dict(commands or {})}`. -/
def commandRegistry (commands : List (String × List PyStr)) : List (String × List PyStr) :=
  commands.foldl (fun items item => dictSet items item.1 item.2) defaultCommands

/-- `_CLEANUP_SECONDS`. -/
def cleanupSeconds : ℚ := 10

/-- `float(n)`: half of the last place above the largest float rounds to infinity. -/
def floatOf (n : Int) : Except PyException ℚ :=
  if 2 ^ 1024 - 2 ^ 970 ≤ n.natAbs then .error .overflowError else .ok n

/-- `f"prrev-sbx-{uuid4().hex[:12]}"`. -/
def containerNameOf (hex : PyStr) : PyStr :=
  .ofString "prrev-sbx-" ++ ⟨hex.points.take 12⟩

/-- `_RewriteRunner`. -/
def rewriteRunner (inner : CommandRunner) (containerName : PyStr) (diskLimitMb : Int) :
    CommandRunner := fun args timeout =>
  match args with
  | program :: command :: rest =>
      if program = .ofString "docker" ∧ command = .ofString "run" then do
        let disk ← python (intText diskLimitMb)
        let argv := texts ["docker", "run", "--name"] ++ [containerName] ++
          texts ["--label", "pr-reviewer.sandbox=1", "--init", "--tmpfs"] ++
          [.ofString "/tmp:size=" ++ disk ++ .ofString "m,uid=65532,gid=65532"] ++ rest
        if (PyStr.join (.ofString " ") argv).contains (.ofString "docker.sock") then
          Program.raise (.runtimeError
            (.ofString "refusing to run a sandbox that mounts the Docker socket"))
        else
          inner argv timeout
      else
        inner args timeout
  | _ => inner args timeout

/-- The `run` of what `_guard_runtime` returns. -/
def guardRuntime (runtime : ContainerRuntime) (containerName : PyStr) (diskLimitMb : Int) :
    SandboxSpec → HostProgram SandboxResult :=
  match runtime with
  | .docker probeImage probeTimeoutSeconds =>
      DockerRuntime.run
        ⟨rewriteRunner hostRunner containerName diskLimitMb, probeImage, probeTimeoutSeconds⟩
  | .other _ => fun spec => callHost (.otherRun spec)

/-- The removal command. -/
def removal (containerName : PyStr) : List PyStr :=
  texts ["docker", "rm", "-f"] ++ [containerName]

def cleanupTimeout (containerName : PyStr) : HostException :=
  .runtimeError (.ofString "TIMEOUT waiting to remove container " ++ containerName)

/-- The removal of the container, where the runtime has a command runner. -/
def removeContainer (runtime : ContainerRuntime) (containerName : PyStr) (remaining : ℚ) :
    HostProgram Unit :=
  match runtime.commandRunner with
  | none => return ()
  | some runner =>
      ((runner (removal containerName) remaining).bind (fun _ => return ())).catching
        (fun error =>
          match error with
          | .commandTimeoutError => Program.raise (cleanupTimeout containerName)
          | error => Program.raise error)

/-- `_cleanup`. -/
def cleanup (runtime : ContainerRuntime) (containerName work : PyStr) (deadline : ℚ) :
    HostProgram Unit := do
  let now ← callHost .monotonic
  if deadline - now ≤ 0 then
    Program.raise (cleanupTimeout containerName)
  else
    removeContainer runtime containerName (deadline - now)
    callHost (.rmtree work)

section Sandbox

variable (lower : PyStr → PyStr) (tables : UnicodeTables) (repr : PyStr → PyStr)

/-- `_result_from_sandbox`. -/
def resultFromSandbox (raw : SandboxResult) : VerificationResult :=
  let detail := (if raw.stdout.points = [] then raw.stderr else raw.stdout).strip tables
  if raw.timedOut || raw.outputTruncated then
    ⟨.inconclusive, .sandbox, true,
      if detail.points = [] then .ofString "sandbox timed out or output was truncated"
      else detail⟩
  else if raw.exitCode = 0 then
    ⟨.passed, .sandbox, false, detail⟩
  else
    ⟨.failed, .sandbox, true, detail⟩

/-- The `try` block. -/
def runSandbox (policy : VerificationPolicy) (runtime : ContainerRuntime) (argv : List PyStr)
    (containerName work : PyStr) : HostProgram VerificationResult :=
  if hargv : argv = [] then
    Program.raise (.python .valueError)
  else do
    let raw ← guardRuntime runtime containerName policy.diskLimitMb
      ⟨policy.imageDigest, argv, work, policy.cpuLimit, policy.memoryLimitMb, policy.pidsLimit,
        policy.timeoutSeconds, hargv, policy.pinned⟩
    return resultFromSandbox tables raw

/-- `verify_finding` from the choice of the container's name on. -/
def verifyInSandbox (policy : VerificationPolicy) (runtime : ContainerRuntime)
    (argv : List PyStr) : HostProgram VerificationResult := do
  let hex ← callHost .uuid4Hex
  let containerName := containerNameOf hex
  let work ← callHost (.mkdtemp "pr-reviewer-sandbox-")
  let now ← callHost .monotonic
  let timeoutSeconds ← python (floatOf policy.timeoutSeconds)
  (runSandbox tables policy runtime argv containerName work).ensuring
    (cleanup runtime containerName work (now + cleanupSeconds + timeoutSeconds))

/-- `verify_finding`; the policy has checked its command id. -/
def verifyFinding (candidate : FindingCandidate) (snapshot : PullRequestSnapshot)
    (policy : VerificationPolicy) (runtime : ContainerRuntime)
    (commands : List (String × List PyStr)) : HostProgram VerificationResult := do
  let static ← python (checkStatic tables candidate snapshot policy.requiredHeadSha)
  if static.status ≠ .passed then
    return static
  else
    match policy.commandId with
    | none => return static
    | some commandId => do
        let probe ← runtime.probe lower tables repr
        if probe.dockerCliFound && probe.fullModeReady then
          match (commandRegistry commands).lookup commandId with
          | none => Program.raise (.python .valueError)
          | some argv => verifyInSandbox tables policy runtime argv
        else
          return ⟨.inconclusive, .sandbox, true,
            .ofString "docker is missing or isolation is not ready; routed to a person"⟩

end Sandbox

/-! ## The world -/

/-- The answers of the world to one verification. -/
structure SandboxWorld where
  platform : Except HostException (PyStr × PyStr)
  command : List PyStr → ℚ → Except HostException CommandOutput
  probe : Except HostException ContainerProbe
  run : SandboxSpec → Except HostException SandboxResult
  hex : PyStr
  workDirectory : Except HostException PyStr
  reading : Nat → ℚ

/-- The directories there are, the one the verification made, the commands it issued, and how
often it read the clock. -/
structure SandboxState where
  directories : List PyStr
  created : Option PyStr
  commands : List (List PyStr)
  readings : Nat

def SandboxState.before (directories : List PyStr) : SandboxState where
  directories := directories
  created := none
  commands := []
  readings := 0

def answerHost (world : SandboxWorld) :
    (op : HostOp) → SandboxState → op.Result × SandboxState
  | .runCommand args timeout, s =>
      (world.command args timeout, { s with commands := s.commands ++ [args] })
  | .readPlatform, s => (world.platform, s)
  | .otherProbe, s => (world.probe, s)
  | .otherRun spec, s => (world.run spec, s)
  | .uuid4Hex, s => (.ok world.hex, s)
  | .mkdtemp _, s =>
      match world.workDirectory with
      | .ok work =>
          (.ok work, { s with directories := work :: s.directories, created := some work })
      | .error error => (.error error, s)
  | .monotonic, s => (.ok (world.reading s.readings), { s with readings := s.readings + 1 })
  | .rmtree path, s =>
      (.ok (), { s with directories := s.directories.filter (fun other => other ≠ path) })

section Cleanup

variable {lower : PyStr → PyStr} {tables : UnicodeTables} {repr : PyStr → PyStr}
variable {world : SandboxWorld} {runtime : ContainerRuntime}

/-- After the verification its directory is gone and the removal of its container issued. -/
def CleansUp (lower : PyStr → PyStr) (tables : UnicodeTables) (repr : PyStr → PyStr)
    (candidate : FindingCandidate) (snapshot : PullRequestSnapshot)
    (policy : VerificationPolicy) (runtime : ContainerRuntime)
    (commands : List (String × List PyStr)) (world : SandboxWorld)
    (directories : List PyStr) : Prop :=
  ∀ after, after = ((verifyFinding lower tables repr candidate snapshot policy runtime
      commands).run (answerHost world) (.before directories)).2 →
    ∀ work, after.created = some work →
      work ∉ after.directories ∧ removal (containerNameOf world.hex) ∈ after.commands

/-- The verification comes to make its directory. -/
structure StartsSandbox (lower : PyStr → PyStr) (tables : UnicodeTables) (repr : PyStr → PyStr)
    (candidate : FindingCandidate) (snapshot : PullRequestSnapshot)
    (policy : VerificationPolicy) (runtime : ContainerRuntime)
    (commands : List (String × List PyStr)) (world : SandboxWorld)
    (directories : List PyStr) : Prop where
  static_passed : ∃ result,
    checkStatic tables candidate snapshot policy.requiredHeadSha = .ok result ∧
      result.status = .passed
  command_known : ∃ id ∈ policy.commandId,
    ((commandRegistry commands).lookup id).isSome = true
  ready : ∃ probe,
    ((runtime.probe lower tables repr).run (answerHost world) (.before directories)).1 =
        .ok probe ∧
      (probe.dockerCliFound && probe.fullModeReady) = true
  made : ∃ work, world.workDirectory = .ok work

/-- There is time left for the cleanup, and the removal of the container is called and
returns. -/
structure CleanupReturns (policy : VerificationPolicy) (runtime : ContainerRuntime)
    (world : SandboxWorld) : Prop where
  seconds : policy.timeoutSeconds.natAbs < 2 ^ 1024 - 2 ^ 970
  in_time : world.reading 1 < world.reading 0 + cleanupSeconds + policy.timeoutSeconds
  has_runner : runtime.commandRunner.isSome = true
  returns : (world.command (removal (containerNameOf world.hex))
    (world.reading 0 + cleanupSeconds + policy.timeoutSeconds - world.reading 1)).isOk = true

/-- The calls of a runtime: none makes or removes a directory or reads the clock. -/
def runtimeCall (runtime : ContainerRuntime) : HostOp → Prop
  | .runCommand _ _ => runtime.commandRunner.isSome = true
  | .readPlatform => True
  | .otherProbe => True
  | .otherRun _ => True
  | _ => False

/-- What the calls of a runtime keep. -/
def Beside (runtime : ContainerRuntime) (s s' : SandboxState) : Prop :=
  s'.directories = s.directories ∧ s'.created = s.created ∧ s'.readings = s.readings ∧
    (runtime.commandRunner = none → s'.commands = s.commands)

theorem beside_step
    {s s' : SandboxState} {op : HostOp}
    (hop : runtimeCall runtime op) (h : Beside runtime s s') :
    Beside runtime s (answerHost world op s').2 := by
  obtain ⟨hdirectories, hcreated, hreadings, hcommands⟩ := h
  cases op with
  | runCommand args timeout =>
      refine ⟨hdirectories, hcreated, hreadings, fun hnone => ?_⟩
      rw [runtimeCall, hnone] at hop
      cases hop
  | readPlatform => exact ⟨hdirectories, hcreated, hreadings, hcommands⟩
  | otherProbe => exact ⟨hdirectories, hcreated, hreadings, hcommands⟩
  | otherRun spec => exact ⟨hdirectories, hcreated, hreadings, hcommands⟩
  | uuid4Hex => exact hop.elim
  | mkdtemp lead => exact hop.elim
  | monotonic => exact hop.elim
  | rmtree path => exact hop.elim

theorem beside_run
    (world : SandboxWorld) {α : Type} {p : HostProgram α}
    (hp : p.Only (runtimeCall runtime)) (s : SandboxState) :
    Beside runtime s (p.run (answerHost world) s).2 :=
  hp.run (fun _ _ hop h => beside_step hop h) ⟨rfl, rfl, rfl, fun _ => rfl⟩

theorem only_callHost
    {P : HostOp → Prop} {op : HostOp}
    (h : P op) :
    (callHost op).Only P :=
  Program.only_bind (Program.only_perform h) (fun _ => Program.only_ofExcept _)

theorem only_python
    {α : Type} {P : HostOp → Prop} (value : Except PyException α) :
    (python value).Only P := by
  rw [python]
  exact Program.only_ofExcept _

/-- A command runner makes only the calls a runtime may make. -/
def RunsOnly (P : HostOp → Prop) (runner : CommandRunner) : Prop :=
  ∀ args timeout, (runner args timeout).Only P

theorem runsOnly_host
    {P : HostOp → Prop}
    (h : ∀ args timeout, P (.runCommand args timeout)) :
    RunsOnly P hostRunner :=
  fun args timeout => only_callHost (h args timeout)

theorem runsOnly_rewrite
    {P : HostOp → Prop} {inner : CommandRunner}
    (h : RunsOnly P inner) (containerName : PyStr) (diskLimitMb : Int) :
    RunsOnly P (rewriteRunner inner containerName diskLimitMb) := by
  intro args timeout
  unfold rewriteRunner
  split
  · split
    · refine Program.only_bind (only_python _) (fun disk => ?_)
      dsimp only
      split
      · trivial
      · exact h _ _
    · exact h _ _
  · exact h _ _

theorem only_dockerProbe
    {P : HostOp → Prop} {docker : DockerRuntime}
    (hplatform : P .readPlatform) (hrunner : RunsOnly P docker.commandRunner) :
    (docker.probe lower tables repr).Only P := by
  have himage : (docker.probeImageChecks lower tables).Only P :=
    Program.only_bind (hrunner _ _) (fun _ =>
      Program.only_bind (hrunner _ _) (fun _ =>
        Program.only_bind (hrunner _ _) (fun _ => trivial)))
  have hdaemon : (docker.probeDaemonChecks lower tables repr).Only P := by
    refine Program.only_bind (hrunner _ _) (fun pulled => ?_)
    split
    · exact Program.only_bind himage (fun _ => trivial)
    · trivial
  refine Program.only_bind (only_callHost hplatform) (fun _ => ?_)
  refine Program.only_bind (hrunner _ _) (fun version => ?_)
  dsimp only
  split
  · exact Program.only_bind hdaemon (fun _ => trivial)
  · trivial

theorem only_dockerRun
    {P : HostOp → Prop} {docker : DockerRuntime}
    (hrunner : RunsOnly P docker.commandRunner) (spec : SandboxSpec) :
    (docker.run spec).Only P := by
  refine Program.only_bind (only_python _) (fun argv => ?_)
  refine Program.only_bind (Program.only_catching ?_ ?_) ?_
  · exact Program.only_bind (hrunner _ _) (fun _ => trivial)
  · intro error
    cases error <;> trivial
  · intro ran
    cases ran with
    | none => trivial
    | some result => exact only_python _

theorem only_probe
    (lower : PyStr → PyStr) (tables : UnicodeTables) (repr : PyStr → PyStr)
    (runtime : ContainerRuntime) :
    (runtime.probe lower tables repr).Only (runtimeCall runtime) := by
  cases runtime with
  | docker image seconds =>
      exact only_dockerProbe trivial (runsOnly_host (fun _ _ => rfl))
  | other hasRunner => exact only_callHost trivial

theorem only_runSandbox
    (tables : UnicodeTables) (runtime : ContainerRuntime) (policy : VerificationPolicy)
    (argv : List PyStr) (containerName work : PyStr) :
    (runSandbox tables policy runtime argv containerName work).Only (runtimeCall runtime) := by
  unfold runSandbox
  split
  · trivial
  · refine Program.only_bind ?_ (fun _ => trivial)
    cases runtime with
    | docker image seconds =>
        exact only_dockerRun (runsOnly_rewrite (runsOnly_host (fun _ _ => rfl)) _ _) _
    | other hasRunner => exact only_callHost trivial

/-- A call and what follows it. -/
theorem run_callHost
    {α : Type} (op : HostOp) (next : op.Value → HostProgram α) (s : SandboxState) :
    ((callHost op).bind next).run (answerHost world) s =
      match answerHost world op s with
      | (.ok value, after) => (next value).run (answerHost world) after
      | (.error error, after) => (.error error, after) := by
  rw [callHost, Program.bind_eq, Program.bind_assoc, Program.run_bind, Program.run_perform]
  generalize answerHost world op s = answered
  obtain ⟨result, after⟩ := answered
  cases result with
  | ok value => rfl
  | error error => rfl

/-- The removal goes on exactly where the command returns. -/
theorem run_removeContainer
    (world : SandboxWorld) (runtime : ContainerRuntime) (containerName : PyStr) (remaining : ℚ)
    (s : SandboxState) :
    match runtime.commandRunner with
    | none => (removeContainer runtime containerName remaining).run (answerHost world) s =
        (.ok (), s)
    | some _ =>
        (((removeContainer runtime containerName remaining).run (answerHost world) s).1.isOk =
          (world.command (removal containerName) remaining).isOk) ∧
        ((removeContainer runtime containerName remaining).run (answerHost world) s).2 =
          { s with commands := s.commands ++ [removal containerName] } := by
  have hhost : ∀ runner, runtime.commandRunner = some runner → runner = hostRunner := by
    intro runner hrunner
    cases runtime with
    | docker image seconds => exact (Option.some.inj hrunner).symm
    | other hasRunner =>
        cases hasRunner with
        | true => exact (Option.some.inj hrunner).symm
        | false => cases hrunner
  rw [removeContainer]
  cases hrunner : runtime.commandRunner with
  | none => rfl
  | some runner =>
      rw [hhost runner hrunner]
      simp only [hostRunner, Program.run_catching]
      rw [run_callHost]
      simp only [answerHost]
      cases world.command (removal containerName) remaining with
      | ok output => exact ⟨rfl, rfl⟩
      | error error =>
          cases error with
          | commandTimeoutError => exact ⟨rfl, rfl⟩
          | runtimeError message => exact ⟨rfl, rfl⟩
          | python error => exact ⟨rfl, rfl⟩
          | other name => exact ⟨rfl, rfl⟩

theorem run_rmtree
    (path : PyStr) (s : SandboxState) :
    (callHost (.rmtree path)).run (answerHost world) s =
      (.ok (), { s with directories := s.directories.filter (fun other => other ≠ path) }) := by
  rfl

/-- The cleanup removes the directory and the container exactly where there is time left and the
removal of the container returns. -/
theorem run_cleanup_iff
    (world : SandboxWorld) (runtime : ContainerRuntime) (containerName work : PyStr)
    (deadline : ℚ) {s : SandboxState}
    (hwork : work ∈ s.directories)
    (hcommands : runtime.commandRunner = none → s.commands = []) :
    (work ∉ ((cleanup runtime containerName work deadline).run (answerHost world) s).2.directories ∧
        removal containerName ∈
          ((cleanup runtime containerName work deadline).run (answerHost world) s).2.commands) ↔
      0 < deadline - world.reading s.readings ∧ runtime.commandRunner.isSome = true ∧
        (world.command (removal containerName) (deadline - world.reading s.readings)).isOk =
          true := by
  rw [cleanup, Program.bind_eq, run_callHost]
  simp only [answerHost]
  by_cases htime : deadline - world.reading s.readings ≤ 0
  · rw [if_pos htime]
    exact iff_of_false (fun h => h.1 hwork) (fun h => absurd h.1 (not_lt.mpr htime))
  · rw [if_neg htime, Program.bind_eq, Program.run_bind]
    have hremoved := run_removeContainer world runtime containerName
      (deadline - world.reading s.readings) { s with readings := s.readings + 1 }
    cases hrunner : runtime.commandRunner with
    | none =>
        rw [hrunner] at hremoved
        rw [hremoved]
        dsimp only
        rw [run_rmtree, hcommands hrunner]
        exact iff_of_false (fun h => List.not_mem_nil h.2) (fun h => absurd h.2.1 (by simp))
    | some runner =>
        rw [hrunner] at hremoved
        obtain ⟨hreturns, hafter⟩ := hremoved
        cases hrun : (removeContainer runtime containerName
            (deadline - world.reading s.readings)).run (answerHost world)
              { s with readings := s.readings + 1 } with
        | mk outcome after =>
            rw [hrun] at hreturns hafter
            dsimp only at hreturns hafter
            subst hafter
            cases outcome with
            | ok _ =>
                dsimp only
                rw [run_rmtree]
                refine iff_of_true ⟨by simp, by simp⟩ ⟨not_le.mp htime, rfl, ?_⟩
                rw [← hreturns]
                rfl
            | error error =>
                refine iff_of_false (fun h => h.1 hwork) (fun h => ?_)
                rw [← hreturns] at h
                cases h.2.2

theorem run_python
    {α β : Type} (value : Except PyException α) (next : α → HostProgram β) (s : SandboxState) :
    ((python value).bind next).run (answerHost world) s =
      match value with
      | .ok a => (next a).run (answerHost world) s
      | .error error => (.error (.python error), s) := by
  rw [python]
  cases value with
  | ok a => rfl
  | error error => rfl

/-- The cleanup makes no directory. -/
theorem cleanup_created
    (world : SandboxWorld) (runtime : ContainerRuntime) (containerName work : PyStr)
    (deadline : ℚ) (s : SandboxState) :
    ((cleanup runtime containerName work deadline).run (answerHost world) s).2.created =
      s.created := by
  have honly : (cleanup runtime containerName work deadline).Only
      (fun op => ∀ lead, op ≠ .mkdtemp lead) := by
    refine Program.only_bind (only_callHost (by simp)) (fun now => ?_)
    split
    · trivial
    · refine Program.only_bind ?_ (fun _ => only_callHost (by simp))
      unfold removeContainer
      split
      · trivial
      · next runner hrunner =>
          refine Program.only_catching (Program.only_bind ?_ (fun _ => trivial)) (fun error => ?_)
          · cases runtime with
            | docker image seconds =>
                cases hrunner
                exact only_callHost (by simp)
            | other hasRunner =>
                cases hasRunner with
                | true =>
                    cases hrunner
                    exact only_callHost (by simp)
                | false => cases hrunner
          · cases error <;> trivial
  refine honly.run (fun s' op hop h => ?_)
    (I := fun (s' : SandboxState) => s'.created = s.created) rfl
  cases op with
  | mkdtemp lead => exact absurd rfl (hop lead)
  | runCommand args timeout => exact h
  | readPlatform => exact h
  | otherProbe => exact h
  | otherRun spec => exact h
  | uuid4Hex => exact h
  | monotonic => exact h
  | rmtree path => exact h

/-- Once the directory is made, it is the outcome of the cleanup that tells. -/
theorem run_verifyInSandbox
    (tables : UnicodeTables) (policy : VerificationPolicy) (argv : List PyStr)
    {s : SandboxState} {work : PyStr}
    (hmade : world.workDirectory = .ok work)
    (hreadings : s.readings = 0)
    (hcommands : runtime.commandRunner = none → s.commands = []) :
    ((verifyInSandbox tables policy runtime argv).run (answerHost world) s).2.created = some work ∧
      ((work ∉ ((verifyInSandbox tables policy runtime argv).run (answerHost world)
            s).2.directories ∧
          removal (containerNameOf world.hex) ∈
            ((verifyInSandbox tables policy runtime argv).run (answerHost world) s).2.commands) ↔
        CleanupReturns policy runtime world) := by
  rw [verifyInSandbox, Program.bind_eq, run_callHost]
  simp only [answerHost, Program.bind_eq]
  rw [run_callHost]
  simp only [answerHost, hmade]
  rw [run_callHost]
  simp only [answerHost, hreadings]
  rw [run_python]
  by_cases hseconds : policy.timeoutSeconds.natAbs < 2 ^ 1024 - 2 ^ 970
  · rw [floatOf, if_neg (not_le.mpr hseconds)]
    dsimp only
    rw [Program.run_ensuring_state]
    have hbeside := beside_run world (only_runSandbox tables runtime policy argv
      (containerNameOf world.hex) work) ⟨work :: s.directories, some work, s.commands, 1⟩
    generalize hran : ((runSandbox tables policy runtime argv (containerNameOf world.hex) work).run
      (answerHost world) ⟨work :: s.directories, some work, s.commands, 1⟩).2 = ran at hbeside
    obtain ⟨hdirectories, hcreated, hread, hkept⟩ := hbeside
    have hiff := run_cleanup_iff world runtime (containerNameOf world.hex) work
      (world.reading 0 + cleanupSeconds + policy.timeoutSeconds)
      (by rw [hdirectories]; exact List.mem_cons_self ..)
      (fun hnone => (hkept hnone).trans (hcommands hnone))
    have hnamed := cleanup_created world runtime (containerNameOf world.hex) work
      (world.reading 0 + cleanupSeconds + policy.timeoutSeconds) ran
    rw [hcreated] at hnamed
    rw [hread] at hiff
    refine ⟨hnamed, hiff.trans ?_⟩
    constructor
    · rintro ⟨htime, hrunner, hreturns⟩
      exact ⟨hseconds, sub_pos.mp htime, hrunner, hreturns⟩
    · intro h
      exact ⟨sub_pos.mpr h.in_time, h.has_runner, h.returns⟩
  · rw [floatOf, if_pos (not_lt.mp hseconds)]
    refine ⟨rfl, iff_of_false (fun h => h.1 (by simp)) (fun h => hseconds h.seconds)⟩

/-- Without a directory there is none to speak of. -/
theorem run_verifyInSandbox_unmade
    (tables : UnicodeTables) (policy : VerificationPolicy) (argv : List PyStr)
    {s : SandboxState} {error : HostException}
    (hmade : world.workDirectory = .error error) :
    ((verifyInSandbox tables policy runtime argv).run (answerHost world) s).2.created =
      s.created := by
  rw [verifyInSandbox, Program.bind_eq, run_callHost]
  simp only [answerHost, Program.bind_eq]
  rw [run_callHost]
  simp only [answerHost, hmade]

/-- The verification as far as its directory. -/
theorem run_verifyFinding
    (lower : PyStr → PyStr) (tables : UnicodeTables) (repr : PyStr → PyStr)
    (candidate : FindingCandidate) (snapshot : PullRequestSnapshot)
    (policy : VerificationPolicy) (runtime : ContainerRuntime)
    (commands : List (String × List PyStr)) (world : SandboxWorld) (directories : List PyStr) :
    (((verifyFinding lower tables repr candidate snapshot policy runtime commands).run
          (answerHost world) (.before directories)).2.created = none ∧
        ¬ StartsSandbox lower tables repr candidate snapshot policy runtime commands world
          directories) ∨
      (StartsSandbox lower tables repr candidate snapshot policy runtime commands world
          directories ∧
        ∃ argv s work, world.workDirectory = .ok work ∧
          Beside runtime (.before directories) s ∧
          ((verifyFinding lower tables repr candidate snapshot policy runtime commands).run
              (answerHost world) (.before directories)).2 =
            ((verifyInSandbox tables policy runtime argv).run (answerHost world) s).2) := by
  rw [verifyFinding, Program.bind_eq, run_python]
  cases hstatic : checkStatic tables candidate snapshot policy.requiredHeadSha with
  | error error =>
      refine .inl ⟨rfl, fun h => ?_⟩
      obtain ⟨result, hresult, _⟩ := h.static_passed
      rw [hstatic] at hresult
      cases hresult
  | ok static =>
      dsimp only
      by_cases hpassed : static.status = .passed
      · rw [if_neg (not_not_intro hpassed)]
        cases hid : policy.commandId with
        | none =>
            refine .inl ⟨rfl, fun h => ?_⟩
            obtain ⟨id, hmem, _⟩ := h.command_known
            rw [hid] at hmem
            cases hmem
        | some commandId =>
            dsimp only
            rw [Program.bind_eq, Program.run_bind]
            have hbeside := beside_run world (only_probe lower tables repr runtime)
              (.before directories)
            cases hprobe : (runtime.probe lower tables repr).run (answerHost world)
                (.before directories) with
            | mk outcome s =>
                rw [hprobe] at hbeside
                cases outcome with
                | error error =>
                    refine .inl ⟨hbeside.2.1, fun h => ?_⟩
                    obtain ⟨probe, hready, _⟩ := h.ready
                    rw [hprobe] at hready
                    cases hready
                | ok probe =>
                    dsimp only
                    by_cases hready : (probe.dockerCliFound && probe.fullModeReady) = true
                    · rw [if_pos hready]
                      cases hargv : (commandRegistry commands).lookup commandId with
                      | none =>
                          refine .inl ⟨hbeside.2.1, fun h => ?_⟩
                          obtain ⟨id, hmem, hknown⟩ := h.command_known
                          rw [hid, Option.mem_some_iff] at hmem
                          rw [← hmem, hargv] at hknown
                          cases hknown
                      | some argv =>
                          cases hmade : world.workDirectory with
                          | error error =>
                              refine .inl ⟨?_, fun h => ?_⟩
                              · exact (run_verifyInSandbox_unmade tables policy argv hmade).trans
                                  hbeside.2.1
                              · obtain ⟨work, hwork⟩ := h.made
                                rw [hmade] at hwork
                                cases hwork
                          | ok work =>
                              refine .inr ⟨⟨⟨static, hstatic, hpassed⟩, ?_, ?_, ⟨work, hmade⟩⟩,
                                argv, s, work, rfl, hbeside, rfl⟩
                              · exact ⟨commandId, hid, by rw [hargv]; rfl⟩
                              · exact ⟨probe, by rw [hprobe], hready⟩
                    · rw [if_neg hready]
                      refine .inl ⟨hbeside.2.1, fun h => ?_⟩
                      obtain ⟨probe', hprobe', hready'⟩ := h.ready
                      rw [hprobe] at hprobe'
                      cases hprobe'
                      exact hready hready'
      · rw [if_pos hpassed]
        refine .inl ⟨rfl, fun h => ?_⟩
        obtain ⟨result, hresult, hstatus⟩ := h.static_passed
        rw [hstatic] at hresult
        cases hresult
        exact hpassed hstatus

/-- A verification that does not come to its directory leaves none; one that does cleans up
exactly where the cleanup has time left and the removal of the container returns. -/
theorem cleans_up_iff
    (lower : PyStr → PyStr) (tables : UnicodeTables) (repr : PyStr → PyStr)
    (candidate : FindingCandidate) (snapshot : PullRequestSnapshot)
    (policy : VerificationPolicy) (runtime : ContainerRuntime)
    (commands : List (String × List PyStr)) (world : SandboxWorld) (directories : List PyStr) :
    CleansUp lower tables repr candidate snapshot policy runtime commands world directories ↔
      (StartsSandbox lower tables repr candidate snapshot policy runtime commands world
          directories →
        CleanupReturns policy runtime world) := by
  rw [CleansUp, forall_eq]
  rcases run_verifyFinding lower tables repr candidate snapshot policy runtime commands world
      directories with ⟨hnone, hnot⟩ | ⟨hstarts, argv, s, work, hmade, hbeside, hrun⟩
  · rw [hnone]
    exact iff_of_true (fun work hwork => nomatch hwork) (fun h => absurd h hnot)
  · obtain ⟨_, _, hreadings, hcommands⟩ := hbeside
    obtain ⟨hcreated, hiff⟩ :=
      run_verifyInSandbox tables policy argv hmade hreadings hcommands
    rw [hrun, hcreated, ← hiff]
    simp [hstarts]

end Cleanup

/-! ## A removal that times out -/

theorem parserPath_nonempty :
    "parser.py" ≠ "" := by
  decide

theorem parserTexts_nonempty :
    "" ∉ ["robustness", "parser.py", "The last token is lost", "The loop stops before it."] := by
  decide

theorem parserLines_ordered :
    0 < 4 ∧ 4 ≤ 4 := by
  decide

theorem parserConfidence_bounds :
    (0 : Rat) ≤ 1 ∧ (1 : Rat) ≤ 1 :=
  ⟨zero_le_one, le_refl 1⟩

def parserCandidate : FindingCandidate where
  concern := .correctness
  severity := .high
  category := "robustness"
  filePath := "parser.py"
  lineStart := 4
  lineEnd := 4
  title := "The last token is lost"
  rationale := "The loop stops before it."
  evidence := [.ofString "4| return tokens[:-1]"]
  confidence := .number 1 parserConfidence_bounds
  texts_ne := parserTexts_nonempty
  lines_ordered := parserLines_ordered
  evidence_ne := List.cons_ne_nil _ _

def parserFile : PullRequestFile where
  path := "parser.py"
  status := .modified
  patch := some (.ofString "@@ -4,1 +4,1 @@\n-return tokens\n+return tokens[:-1]")
  previousPath := none
  truncated := false
  binary := false
  omissionReason := none
  path_ne := parserPath_nonempty

theorem parserOwner_nonempty :
    "tokens" ≠ "" ∧ "lexer" ≠ "" ∧ "b4ce" ≠ "" ∧ "4ead" ≠ "" := by
  decide

def parserSnapshot : PullRequestSnapshot where
  repoOwner := "tokens"
  repoName := "lexer"
  number := 12
  baseSha := "b4ce"
  headSha := "4ead"
  title := .ofString "Drop the last token"
  body := .ofString ""
  files := [parserFile]
  identity := none
  draft := false
  repoOwner_ne := parserOwner_nonempty.1
  repoName_ne := parserOwner_nonempty.2.1
  number_pos := Nat.succ_pos 11
  baseSha_ne := parserOwner_nonempty.2.2.1
  headSha_ne := parserOwner_nonempty.2.2.2

theorem parserImage_pinned :
    isPinned (.ofString "sandbox@sha256:5a4d") = true := by
  decide +kernel

theorem parserCommand_allowed :
    ∀ id ∈ some "true", id ∈ ["true"] ∧ isCommandId id = true := by
  rintro id ⟨⟩
  decide +kernel

theorem parserTimeout_pos :
    (0 : Int) < 120 := by
  decide

def parserPolicy : VerificationPolicy where
  imageDigest := .ofString "sandbox@sha256:5a4d"
  allowedCommandIds := ["true"]
  requiredHeadSha := "4ead"
  commandId := some "true"
  cpuLimit := .ofString "1"
  memoryLimitMb := 512
  pidsLimit := 128
  timeoutSeconds := 120
  diskLimitMb := 64
  pinned := parserImage_pinned
  timeout_pos := parserTimeout_pos
  command_allowed := parserCommand_allowed

/-- Docker works and the sandboxed command too; only `docker rm` does not come to an end. -/
def stuckRemoval (args : List PyStr) (_ : ℚ) : Except HostException CommandOutput :=
  if args.take 2 = texts ["docker", "rm"] then
    .error .commandTimeoutError
  else if .ofString "wget" ∈ args then
    .ok ⟨1, ⟨[]⟩, .ofString "wget: bad address"⟩
  else
    .ok ⟨0, .ofString "65532", ⟨[]⟩⟩

def stuckWorld : SandboxWorld where
  platform := .ok (.ofString "Linux", .ofString "x86_64")
  command := stuckRemoval
  probe := .error (.other "AttributeError")
  run _ := .error (.other "AttributeError")
  hex := .ofString "0f8fad5bd9cb469fa16570867728950e"
  workDirectory := .ok (.ofString "/tmp/pr-reviewer-sandbox-k2")
  reading n := n

/-- The removal of the container times out, and the directory stays. -/
theorem directory_left_behind :
    ¬ CleansUp id bareTables id parserCandidate parserSnapshot parserPolicy
        (.docker (.ofString "busybox:1.36.1") 30) [] stuckWorld [] := by
  intro h
  have hcreated := h _ rfl (.ofString "/tmp/pr-reviewer-sandbox-k2") (by decide +kernel)
  exact absurd hcreated.1 (by decide +kernel)

end Verification
end PrReviewer
