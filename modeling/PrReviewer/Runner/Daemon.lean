import PrReviewer.Runner.Client
import PrReviewer.Runner.LocalStore
import PrReviewer.Lib.Program

/-!
# The runner daemon

runner/daemon.py as programs over the operations of its collaborators: the HTTP
client, the secret store, the executor, the stop event, the revocation gate and
the local store.  The programs follow the methods of `RunnerDaemon` statement by
statement; what the collaborators answer is the matter of `answer`.

Whatever is outside the process (the network and the control plane behind it, the
executor, the secret store, the stop event and the clock) is a value of an
arbitrary type with the functions of `Surroundings`, so that the theorems hold
for every behaviour of it.
-/

namespace PrReviewer
namespace Runner

open Lib

/-- Which method of the daemon makes a request; landing is for the result of one job. -/
inductive CallSite where
  | recover
  | poll
  | complete
  | replay
  | land (jobId : Uuid)
deriving DecidableEq, Repr

/-- The methods of the local store. -/
inductive StoreOp where
  | recordClaimed (job : JobEnvelope)
  | listClaimed
  | markAbandoned (jobId : Uuid)
  | markCompleted (jobId : Uuid)
  | recordPending
      (jobId : Uuid) (leaseToken : String) (result : JobAcknowledgement)
      (reason : PendingAcknowledgementReason)
  | listPending
  | resolve (entryId : Nat)
  | bumpAttempt (entryId : Nat)
deriving DecidableEq, Repr

abbrev StoreOp.Result : StoreOp → Type
  | .listClaimed => List LocalJob
  | .listPending => List PendingAcknowledgement
  | _ => Unit

/-- The operations the daemon performs. -/
inductive DaemonOp where
  | claim (site : CallSite)
  | heartbeat (site : CallSite) (jobId : Uuid) (leaseToken : String)
  | acknowledge
      (site : CallSite) (jobId : Uuid) (leaseToken : String) (result : JobAcknowledgement)
  | secret
  | setCredential (credential : String)
  | review (job : JobEnvelope)
  | stopIsSet
  | allowNewWork
  | noteRunnerRevoked
  | store (op : StoreOp)
deriving DecidableEq, Repr

/-- What each operation answers; a review that raised answers nothing. -/
abbrev DaemonOp.Answer : DaemonOp → Type
  | .claim _ => Outcome
  | .heartbeat _ _ _ => Outcome
  | .acknowledge _ _ _ _ => Outcome
  | .secret => Option String
  | .setCredential _ => Unit
  | .review _ => Option JobAcknowledgement
  | .stopIsSet => Bool
  | .allowNewWork => Bool
  | .noteRunnerRevoked => Unit
  | .store op => Except PyError op.Result

/-- A program of the daemon. -/
abbrev Daemon (α : Type) : Type := Program DaemonOp.Answer PyError α

/-- How the daemon was constructed. -/
structure DaemonConfig where
  hasSecretStore : Bool
  hasReview : Bool
deriving DecidableEq, Repr

section Programs

variable (codec : Codec) (config : DaemonConfig)

/-- One operation. -/
def ask (op : DaemonOp) : Daemon op.Answer :=
  Program.perform op

/-- `self._runner_client.claim()`. -/
def clientClaim (site : CallSite) : Daemon ClaimAnswer := do
  let outcome ← ask (.claim site)
  Program.ofExcept (received (decodeClaim codec) outcome)

/-- `self._runner_client.heartbeat(job_id, lease_token)`. -/
def clientHeartbeat (site : CallSite) (jobId : Uuid) (leaseToken : String) :
    Daemon LeaseState := do
  let outcome ← ask (.heartbeat site jobId leaseToken)
  Program.ofExcept (received decodeHeartbeat outcome)

/-- `self._runner_client.acknowledge(job_id, lease_token, result)`. -/
def clientAcknowledge
    (site : CallSite) (jobId : Uuid) (leaseToken : String) (result : JobAcknowledgement) :
    Daemon Unit := do
  let outcome ← ask (.acknowledge site jobId leaseToken result)
  Program.ofExcept (received decodeAcknowledge outcome)

/-- One method of `self._local_store`. -/
def askStore (op : StoreOp) : Daemon op.Result := do
  let result ← ask (.store op)
  Program.ofExcept result

/-- `self._review.review(job)`. -/
def review (job : JobEnvelope) : Daemon JobAcknowledgement := do
  let returned ← ask (.review job)
  match returned with
  | some result => pure result
  | none => Program.raise .executorError

/-- `_refresh_credential`. -/
def refreshCredential : Daemon Unit :=
  if config.hasSecretStore then do
    let credential ← ask .secret
    match credential with
    | none => pure ()
    | some credential => ask (.setCredential credential)
  else
    pure ()

/-- `_mark_pending_terminal`. -/
def markPendingTerminal (jobId : Uuid) : Daemon Unit := do
  askStore (.markCompleted jobId)
  let entries ← askStore .listPending
  Program.forEach entries (fun entry =>
    if entry.jobId = jobId then askStore (.resolve entry.id) else pure ())

/-- What a `try` block caught: `httpx.TransportError` only. -/
def exceptTransport {α : Type} (p : Daemon α) : Daemon (Option α) :=
  (p >>= fun a => pure (some a)).catching (fun e =>
    if e = .transportError then pure none else Program.raise e)

/-- `_RETRYABLE_ACKNOWLEDGE_ERRORS`. -/
def retryable (e : PyError) : Bool :=
  e = .jobProtocolDenied ∨ e = .transportError

/-- What a `try` block caught: `_RETRYABLE_ACKNOWLEDGE_ERRORS`. -/
def exceptRetryable (p : Daemon Unit) : Daemon Bool :=
  (p >>= fun _ => pure true).catching (fun e =>
    if retryable e then pure false else Program.raise e)

/-- `if claimed.reason == "revoked_runner": self._revocation.note_runner_revoked()`. -/
def noteIfRevoked (reason : RunnerAuthDenialReason) : Daemon Unit :=
  if reason = .revokedRunner then ask .noteRunnerRevoked else pure ()

/-- `_land_pending_result`. -/
def landPendingResult (jobId : Uuid) (result : JobAcknowledgement) : Daemon Unit := do
  refreshCredential config
  let claimed ← exceptTransport (clientClaim codec (.land jobId))
  match claimed with
  | none => pure ()
  | some (.denied reason) => do
      noteIfRevoked reason
      markPendingTerminal jobId
  | some (.envelope job) =>
      if job.jobId = jobId then do
        let landed ←
          exceptRetryable (clientAcknowledge (.land jobId) job.jobId job.leaseToken result)
        if landed then markPendingTerminal jobId else pure ()
      else do
        askStore (.recordClaimed job)
        markPendingTerminal jobId
  | some .noJob => markPendingTerminal jobId

/-- The `except` and `else` clauses of `complete_job`, at what the `try` block raised. -/
def completeClauses
    (jobId : Uuid) (leaseToken : String) (result : JobAcknowledgement) :
    Option PyError → Daemon Unit
  | none => askStore (.markCompleted jobId)
  | some .jobProtocolDenied => do
      askStore (.recordPending jobId leaseToken result .invalidOrExpired)
      landPendingResult codec config jobId result
  | some .transportError => do
      askStore (.recordPending jobId leaseToken result .networkUnreachable)
      Program.raise .transportError
  | some e => Program.raise e

/-- `complete_job`. -/
def completeJob (jobId : Uuid) (leaseToken : String) (result : JobAcknowledgement) :
    Daemon Unit := do
  let failure ←
    (clientAcknowledge .complete jobId leaseToken result >>= fun _ => pure none).catching
      (fun e => pure (some e))
  completeClauses codec config jobId leaseToken result failure

/-- `_run_claimed_job`. -/
def runClaimedJob (claimed : JobEnvelope) : Daemon Unit := do
  askStore (.recordClaimed claimed)
  if config.hasReview then do
    let result ← review claimed
    completeJob codec config claimed.jobId claimed.leaseToken result
  else
    pure ()

/-- `process_once`. -/
def processOnce : Daemon Unit := do
  let allowed ← ask .allowNewWork
  match allowed with
  | false => pure ()
  | true => do
      refreshCredential config
      let claimed ← exceptTransport (clientClaim codec .poll)
      match claimed with
      | none => pure ()
      | some (.denied reason) => noteIfRevoked reason
      | some .noJob => pure ()
      | some (.envelope job) => runClaimedJob codec config job

/-- The body of the loop in `recover`. -/
def recoverJob (job : LocalJob) : Daemon Unit := do
  let lease ← exceptTransport (clientHeartbeat .recover job.jobId job.leaseToken)
  match lease with
  | none => pure ()
  | some .invalidOrExpired => askStore (.markAbandoned job.jobId)
  | some .cancelled => askStore (.markAbandoned job.jobId)
  | some .active =>
      if config.hasReview then do
        let result ← review job.envelope
        completeJob codec config job.envelope.jobId job.envelope.leaseToken result
      else
        pure ()

/-- `recover`. -/
def recover : Daemon Unit := do
  let jobs ← askStore .listClaimed
  Program.forEach jobs (recoverJob codec config)

/-- The body of the loop in `replay_pending_acknowledgements`. -/
def replayEntry (entry : PendingAcknowledgement) : Daemon Unit :=
  if entry.reason = .invalidOrExpired then
    landPendingResult codec config entry.jobId entry.result
  else do
    let landed ←
      exceptRetryable
        (clientAcknowledge .replay entry.jobId entry.leaseToken entry.result)
    if landed then do
      askStore (.resolve entry.id)
      askStore (.markCompleted entry.jobId)
    else
      askStore (.bumpAttempt entry.id)

/-- `replay_pending_acknowledgements`. -/
def replayPendingAcknowledgements : Daemon Unit := do
  let entries ← askStore .listPending
  Program.forEach entries (replayEntry codec config)

/-- `start`, up to the thread of the poll loop. -/
def start : Daemon Unit := do
  recover codec config
  replayPendingAcknowledgements codec config

end Programs

/-! ## The process and its surroundings -/

/-- `RevocationGate`. -/
structure RevocationGate where
  stopNewWork : Bool
deriving DecidableEq, Repr

/-- The gate of a process that was just started. -/
def RevocationGate.new : RevocationGate where
  stopNewWork := false

/-- `allow_new_work`. -/
def RevocationGate.allowNewWork (gate : RevocationGate) : Bool :=
  !gate.stopNewWork

/-- `note_runner_revoked`. -/
def RevocationGate.noteRunnerRevoked (gate : RevocationGate) : RevocationGate :=
  { gate with stopNewWork := true }

/-- The machine the process runs on. -/
structure Host (ω : Type) where
  secret : ω → Option String × ω
  review : JobEnvelope → ω → Option JobAcknowledgement × ω
  stopIsSet : ω → Bool × ω
  clock : ω → Nat × ω

/-- Everything outside the process: its machine, and the control plane behind the network. -/
structure Surroundings (ω : Type) extends Host ω where
  send : Request → ω → Outcome × ω

/--
A runner process, its store and its surroundings.  sqlite3 refuses a connection
on any thread but the one that opened it.
-/
structure RunnerState (codec : Codec) (ω : Type) where
  store : LocalStore codec
  onStoreThread : Bool
  gate : RevocationGate
  credential : String
  outside : ω

section Answers

variable {codec : Codec} {ω : Type} (surroundings : Surroundings ω)

/-- What a method of the store returns and leaves, at a time of the clock. -/
def applyStore
    (store : LocalStore codec) (now : Nat) :
    (op : StoreOp) → Except PyError (op.Result × LocalStore codec)
  | .recordClaimed job =>
      if fitsLocalJobs job then .ok ((), store.recordClaimed job now)
      else .error .overflowError
  | .listClaimed => .ok (store.listClaimed, store)
  | .markAbandoned jobId => .ok ((), store.markAbandoned jobId)
  | .markCompleted jobId => .ok ((), store.markCompleted jobId)
  | .recordPending jobId leaseToken result reason =>
      .ok ((), store.recordPending jobId leaseToken result reason now)
  | .listPending => .ok (store.listPending, store)
  | .resolve entryId => .ok ((), store.resolve entryId)
  | .bumpAttempt entryId => .ok ((), store.bumpAttempt entryId)

/-- A request to the control plane. -/
def RunnerState.post
    (w : RunnerState codec ω) (request : Request) : Outcome × RunnerState codec ω :=
  let answered := surroundings.send request w.outside
  (answered.1, { w with outside := answered.2 })

/-- How a process answers the operations of its daemon. -/
def answer :
    (op : DaemonOp) → RunnerState codec ω → op.Answer × RunnerState codec ω
  | .claim _, w => w.post surroundings (.claim w.credential)
  | .heartbeat _ jobId leaseToken, w =>
      w.post surroundings (.heartbeat w.credential jobId leaseToken)
  | .acknowledge _ jobId leaseToken result, w =>
      w.post surroundings (.acknowledge w.credential jobId leaseToken result)
  | .secret, w =>
      ((surroundings.secret w.outside).1,
        { w with outside := (surroundings.secret w.outside).2 })
  | .setCredential credential, w => ((), { w with credential := credential })
  | .review job, w =>
      ((surroundings.review job w.outside).1,
        { w with outside := (surroundings.review job w.outside).2 })
  | .stopIsSet, w =>
      ((surroundings.stopIsSet w.outside).1,
        { w with outside := (surroundings.stopIsSet w.outside).2 })
  | .allowNewWork, w => (w.gate.allowNewWork, w)
  | .noteRunnerRevoked, w => ((), { w with gate := w.gate.noteRunnerRevoked })
  | .store op, w =>
      if w.onStoreThread then
        match applyStore w.store (surroundings.clock w.outside).1 op with
        | .ok (result, store) =>
            (.ok result,
              { w with store := store, outside := (surroundings.clock w.outside).2 })
        | .error e => (.error e, w)
      else
        (.error .programmingError, w)

end Answers

/-! ## Scripted surroundings -/

/-- Requests are answered from a list, and fail once it is used up; the rest is fixed. -/
def scripted (reviewed : Option JobAcknowledgement) : Surroundings (List Outcome) where
  send := fun _ script =>
    match script with
    | [] => (.transportError, [])
    | outcome :: rest => (outcome, rest)
  secret := fun script => (none, script)
  review := fun _ script => (reviewed, script)
  stopIsSet := fun script => (false, script)
  clock := fun script => (0, script)

/-- A response with a JSON body. -/
def answered (statusCode : Nat) (payload : Json) : Outcome :=
  .response { statusCode := statusCode, json := .ok payload }

def sampleJobId : Uuid := ⟨"cccccccc-0000-4000-8000-00000000000a", by decide⟩

def sampleTraceId : Uuid := ⟨"dddddddd-0000-4000-8000-00000000000a", by decide⟩

/-- The job of the samples, under a lease. -/
def sampleEnvelope (leaseToken : String) (h : leaseToken ≠ "") : JobEnvelope where
  jobId := sampleJobId
  installationId := 5
  repositoryId := 7
  pullRequestNumber := 1
  baseSha := "base-sha"
  headSha := "head"
  policyVersion := "1"
  budget := { maxTokens := 1000, maxCostUsd := { text := "1.00" } }
  traceId := sampleTraceId
  leaseToken := leaseToken
  pullRequestNumber_pos := by decide
  baseSha_ne := by decide
  headSha_ne := by decide
  policyVersion_ne := by decide
  leaseToken_ne := h

def firstEnvelope : JobEnvelope := sampleEnvelope "first" (by decide)

def sampleResult : JobAcknowledgement where
  terminalState := .succeeded
  errorClass := none
  inputTokens := 10
  outputTokens := 2
  costUsd := { text := "0.01" }
  latencyMs := 5
  localResultHash := "result-hash"
  localResultHash_ne := by decide

/-- A daemon with an executor and no secret store. -/
def sampleConfig : DaemonConfig where
  hasSecretStore := false
  hasReview := true

/-- A process on an empty store, before a script. -/
def freshProcess (codec : Codec) (script : List Outcome) :
    RunnerState codec (List Outcome) where
  store := .empty codec
  onStoreThread := true
  gate := .new
  credential := "credential"
  outside := script

end Runner
end PrReviewer
