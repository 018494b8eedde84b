import Mathlib.Data.Rat.Defs
import Mathlib.Tactic
import PrReviewer.Lib.Program
import PrReviewer.Lib.Text

/-!
# The Docker runtime

containers/runtime.py and containers/docker.py: the probe of the isolation checks and the run of
a sandboxed command, over a command runner that may answer anything.

The calls that leave the process are the operations of `HostOp`.  A runtime that is not Docker's
is known by its two methods and by whether it has a `_command_runner`.
-/

namespace PrReviewer
namespace Containers

open Lib

/-- What a runtime, a command runner or the code around them raises. -/
inductive HostException where
  | commandTimeoutError
  | runtimeError (message : PyStr)
  | python (error : PyException)
  | other (name : String)
deriving DecidableEq, Repr

structure CommandOutput where
  returncode : Int
  stdout : PyStr
  stderr : PyStr
deriving DecidableEq, Repr

structure ContainerProbe where
  dockerCliFound : Bool
  daemonRunning : Bool
  socketAccessible : Bool
  imagePullSucceeded : Bool
  runsAsNonRoot : Bool
  networkIsolated : Bool
  resourceLimitsEnforced : Bool
  platformSupported : Bool
  failures : List PyStr
deriving DecidableEq, Repr

/-- `full_mode_ready`. -/
def ContainerProbe.fullModeReady (probe : ContainerProbe) : Bool :=
  probe.dockerCliFound && probe.daemonRunning && probe.socketAccessible &&
    probe.imagePullSucceeded && probe.runsAsNonRoot && probe.networkIsolated &&
    probe.resourceLimitsEnforced && probe.platformSupported

/-- An image is pinned by digest. -/
def isPinned (imageDigest : PyStr) : Bool :=
  imageDigest.contains (.ofString "@sha256:")

structure SandboxSpec where
  imageDigest : PyStr
  command : List PyStr
  workDirectory : PyStr
  cpuLimit : PyStr
  memoryLimitMb : Int
  pidsLimit : Int
  timeoutSeconds : Int
  command_ne : command ≠ []
  pinned : isPinned imageDigest = true

structure SandboxResult where
  exitCode : Int
  stdout : PyStr
  stderr : PyStr
  timedOut : Bool
  outputTruncated : Bool
deriving DecidableEq, Repr

/-- The calls that leave the process. -/
inductive HostOp where
  | runCommand (args : List PyStr) (timeout : ℚ)
  | readPlatform
  | otherProbe
  | otherRun (spec : SandboxSpec)
  | uuid4Hex
  | mkdtemp (lead : String)
  | monotonic
  | rmtree (path : PyStr)

abbrev HostOp.Value : HostOp → Type
  | .runCommand _ _ => CommandOutput
  | .readPlatform => PyStr × PyStr
  | .otherProbe => ContainerProbe
  | .otherRun _ => SandboxResult
  | .uuid4Hex => PyStr
  | .mkdtemp _ => PyStr
  | .monotonic => ℚ
  | .rmtree _ => Unit

abbrev HostOp.Result (op : HostOp) : Type :=
  Except HostException op.Value

abbrev HostProgram : Type → Type :=
  Program HostOp.Result HostException

def callHost (op : HostOp) : HostProgram op.Value := do
  let result ← (Program.perform op : HostProgram op.Result)
  Program.ofExcept result

/-- A computation of the process itself. -/
@[irreducible] def python {α : Type} (value : Except PyException α) : HostProgram α :=
  Program.ofExcept (value.mapError .python)

/-- `CommandRunner.run`. -/
abbrev CommandRunner := List PyStr → ℚ → HostProgram CommandOutput

/-- The command runner of the host. -/
def hostRunner : CommandRunner :=
  fun args timeout => callHost (.runCommand args timeout)

def texts (parts : List String) : List PyStr :=
  parts.map PyStr.ofString

def notFoundReturncode : Int := 127

def supportedPlatforms : List PyStr := texts ["Linux", "Darwin"]

def unsupportedLimitMarkers : List PyStr :=
  texts ["no memory limit support", "no swap limit support", "does not support", "not supported"]

def networkProbeUrl : String := "https://1.1.1.1"

def maxOutputBytes : Nat := 64 * 1024

def sandboxArgvFlags : List PyStr :=
  texts ["--rm", "--network", "none", "--read-only", "--user", "65532:65532", "--cap-drop", "ALL",
    "--security-opt", "no-new-privileges"]

/-- The characters that fit whole into a number of bytes. -/
def fittingChars : Nat → List Char → List Char
  | _, [] => []
  | room, c :: rest =>
      if c.utf8Size ≤ room then c :: fittingChars (room - c.utf8Size) rest else []

/-- `_cap_output`; a lone surrogate cannot be encoded. -/
def capOutput (text : PyStr) : Except PyException (PyStr × Bool) :=
  match text.text? with
  | none => .error .valueError
  | some encodable =>
      if encodable.utf8ByteSize ≤ maxOutputBytes then
        .ok (text, false)
      else
        .ok (.ofString (.ofList (fittingChars maxOutputBytes encodable.toList)), true)

section Docker

-- `str.lower`, the Unicode database of `str.strip`, and `repr` of a string.
variable (lower : PyStr → PyStr) (tables : UnicodeTables) (repr : PyStr → PyStr)

/-- `_classify_connectivity`. -/
def classifyConnectivity (result : CommandOutput) : Bool × Bool × Bool :=
  if result.returncode = notFoundReturncode then (false, false, false)
  else if result.returncode = 0 then (true, true, true)
  else if (lower result.stderr).contains (.ofString "permission denied") then (true, true, false)
  else (true, false, true)

/-- `_limits_unsupported`. -/
def limitsUnsupported (stderr : PyStr) : Bool :=
  unsupportedLimitMarkers.any (fun marker => (lower stderr).contains marker)

structure DockerRuntime where
  commandRunner : CommandRunner
  probeImage : PyStr
  probeTimeoutSeconds : ℚ

namespace DockerRuntime

/-- `DockerRuntime._run`. -/
def runProbe (runtime : DockerRuntime) (args : List PyStr) : HostProgram CommandOutput :=
  runtime.commandRunner args runtime.probeTimeoutSeconds

/-- The checks of a probe that run a container, with the failures they append. -/
def probeImageChecks (runtime : DockerRuntime) :
    HostProgram (Bool × Bool × Bool × List PyStr) := do
  let nonrootResult ← runtime.runProbe
    (texts ["docker", "run", "--rm", "--user", "65532:65532"] ++ runtime.probeImage ::
      texts ["id", "-u"])
  let uid := nonrootResult.stdout.strip tables
  let runsAsNonRoot :=
    decide (nonrootResult.returncode = 0 ∧ uid ∉ [.ofString "", .ofString "0"])
  let networkResult ← runtime.runProbe
    (texts ["docker", "run", "--rm", "--network", "none"] ++ runtime.probeImage ::
      texts ["wget", "-qO-", "--timeout=2", networkProbeUrl])
  let networkIsolated := decide (networkResult.returncode ≠ 0)
  let limitsResult ← runtime.runProbe
    (texts ["docker", "run", "--rm", "--memory", "64m", "--pids-limit", "64"] ++
      runtime.probeImage :: texts ["true"])
  let resourceLimitsEnforced :=
    decide (limitsResult.returncode = 0) && !limitsUnsupported lower limitsResult.stderr
  return (runsAsNonRoot, networkIsolated, resourceLimitsEnforced,
    (if runsAsNonRoot then [] else texts ["probe container ran as root"]) ++
    (if networkIsolated then [] else
      texts ["probe container reached the network with --network none"]) ++
    (if resourceLimitsEnforced then [] else
      texts ["Docker did not enforce memory/pids resource limits"]))

/-- The checks of a probe once the daemon answers. -/
def probeDaemonChecks (runtime : DockerRuntime) :
    HostProgram (Bool × Bool × Bool × Bool × List PyStr) := do
  let pullResult ← runtime.runProbe
    (texts ["docker", "pull", "--quiet"] ++ [runtime.probeImage])
  if pullResult.returncode = 0 then
    let checks ← runtime.probeImageChecks lower tables
    return (true, checks)
  else
    return (false, false, false, false,
      [.ofString "failed to pull probe image " ++ repr runtime.probeImage])

/-- The failure the connectivity check appends. -/
def connectivityFailure (dockerCliFound daemonRunning socketAccessible : Bool) : List PyStr :=
  if !dockerCliFound then
    texts ["docker CLI not found on PATH"]
  else if !socketAccessible then
    texts ["Docker socket access denied (permission error connecting to the daemon)"]
  else if !daemonRunning then
    texts ["Docker daemon is not running"]
  else
    []

/-- `DockerRuntime.probe`. -/
def probe (runtime : DockerRuntime) : HostProgram ContainerProbe := do
  let (system, _) ← callHost .readPlatform
  let platformSupported := decide (system ∈ supportedPlatforms)
  let platformFailures : List PyStr :=
    if platformSupported then [] else
      [.ofString "unsupported platform " ++ repr system ++
        .ofString ": Docker sandboxing requires Linux or Darwin"]
  let versionResult ← runtime.runProbe
    (texts ["docker", "version", "--format", "\x7b\x7b.Server.Version\x7d\x7d"])
  let (dockerCliFound, daemonRunning, socketAccessible) := classifyConnectivity lower versionResult
  let failures :=
    platformFailures ++ connectivityFailure dockerCliFound daemonRunning socketAccessible
  if dockerCliFound && daemonRunning && socketAccessible then
    let (pulled, nonRoot, isolated, limited, checkFailures) ←
      runtime.probeDaemonChecks lower tables repr
    return ⟨dockerCliFound, daemonRunning, socketAccessible, pulled, nonRoot, isolated, limited,
      platformSupported, failures ++ checkFailures⟩
  else
    return ⟨dockerCliFound, daemonRunning, socketAccessible, false, false, false, false,
      platformSupported, failures ++ texts
        ["skipped image pull, non-root, network, and resource-limit checks: " ++
          "Docker is not reachable"]⟩

/-- The command line of a sandbox; the numbers are written out. -/
def sandboxArgv (spec : SandboxSpec) : Except PyException (List PyStr) := do
  let pids ← intText spec.pidsLimit
  let memory ← intText spec.memoryLimitMb
  return texts ["docker", "run"] ++ sandboxArgvFlags ++
    [.ofString "--pids-limit", pids, .ofString "--memory", memory ++ .ofString "m",
      .ofString "--cpus", spec.cpuLimit, .ofString "--mount",
      .ofString "type=bind,source=" ++ spec.workDirectory ++ .ofString ",target=/work",
      spec.imageDigest] ++ spec.command

/-- What a sandboxed command gave. -/
def sandboxResult (result : CommandOutput) : Except PyException SandboxResult := do
  let (stdout, stdoutTruncated) ← capOutput result.stdout
  let (stderr, stderrTruncated) ← capOutput result.stderr
  return ⟨result.returncode, stdout, stderr, false, stdoutTruncated || stderrTruncated⟩

/-- `DockerRuntime.run`. -/
def run (runtime : DockerRuntime) (spec : SandboxSpec) : HostProgram SandboxResult := do
  let argv ← python (sandboxArgv spec)
  let ran ← ((runtime.commandRunner argv spec.timeoutSeconds).bind
      (fun result => return some result)).catching (fun error =>
        match error with
        | .commandTimeoutError => return none
        | error => Program.raise error)
  match ran with
  | none =>
      return ⟨-1, .ofString "", .ofString "sandbox command exceeded its timeout", true, false⟩
  | some result => python (sandboxResult result)

end DockerRuntime

end Docker

/-- A container runtime. -/
inductive ContainerRuntime where
  | docker (probeImage : PyStr) (probeTimeoutSeconds : ℚ)
  | other (hasCommandRunner : Bool)

namespace ContainerRuntime

/-- `getattr(runtime, "_command_runner", None)`. -/
def commandRunner : ContainerRuntime → Option CommandRunner
  | docker _ _ => some hostRunner
  | other true => some hostRunner
  | other false => none

/-- `runtime.probe()`. -/
def probe (lower : PyStr → PyStr) (tables : UnicodeTables) (repr : PyStr → PyStr) :
    ContainerRuntime → HostProgram ContainerProbe
  | docker probeImage probeTimeoutSeconds =>
      DockerRuntime.probe lower tables repr ⟨hostRunner, probeImage, probeTimeoutSeconds⟩
  | other _ => callHost .otherProbe

end ContainerRuntime

end Containers
end PrReviewer
