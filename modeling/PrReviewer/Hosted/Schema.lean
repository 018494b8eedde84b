import PrReviewer.Contracts
import PrReviewer.Lib.Table

/-!
# The hosted tables

The rows of db/migrations as far as the job queue, the runner protocol and the
review projection read or write them, and the hosted state made of them.  Each
table carries the uniqueness of its primary key (`Lib.Table`); the other
constraints of the schema are checked by the operations that could break them.

`HostedState.now` is the value SQL's `now()` has in the transaction under way.
-/

namespace PrReviewer
namespace Hosted

open Lib

/-- The values `review_jobs_status_check` admits. -/
inductive ReviewJobStatus where
  | pending
  | running
  | succeeded
  | failed
  | superseded
  | cancelled
  | completed
  | stoppedEarly
deriving DecidableEq, Repr

/-- `status in ('pending', 'running')`. -/
def ReviewJobStatus.active : ReviewJobStatus → Bool
  | .pending => true
  | .running => true
  | _ => false

structure InstallationRow where
  id : Int
  accountLogin : String
  revokedAt : Option Nat
deriving DecidableEq, Repr

structure RepositoryRow where
  id : Uuid
  installationId : Int
  githubRepositoryId : Int
  name : String
deriving DecidableEq, Repr

structure RunnerRow where
  id : Uuid
  deviceName : String
  credentialHash : String
  capabilities : RunnerCapabilities
  revokedAt : Option Nat
  githubUserId : Option Int
  installationId : Option Int
deriving DecidableEq, Repr

structure RepositoryAssignmentRow where
  repositoryId : Uuid
  runnerId : Uuid
deriving DecidableEq, Repr

structure GithubDeliveryRow where
  id : String
  eventName : String
deriving DecidableEq, Repr

structure ReviewJobRow where
  id : Uuid
  deliveryId : Option String
  status : ReviewJobStatus
  attempts : Nat
  availableAt : Nat
  lockedBy : Option String
  lockedUntil : Option Nat
  lastError : Option String
  installationId : Option Int
  githubRepositoryId : Option Int
  pullRequestNumber : Option Int
  baseSha : Option String
  headSha : Option String
  policyVersion : Option String
  budgetMaxTokens : Option Nat
  budgetMaxCostUsd : Option Decimal
  traceId : Option Uuid
  leaseTokenHash : Option String
  createdAt : Nat
  updatedAt : Nat
deriving DecidableEq, Repr

/-- The flat objects the writers of `agent_events` put in `payload`. -/
inductive AgentEventPayload where
  | acknowledged (ack : JobAcknowledgement)
  | workerFailure (error : ReviewJobErrorClass) (status : ReviewJobStatus)
  | modelCallRecorded
      (modelCallId : Uuid) (provider model : String) (promptVersionId : Uuid)
      (inputTokens outputTokens : Nat) (costUsd : Decimal) (latencyMs : Nat)
deriving DecidableEq, Repr

structure AgentEventRow where
  sequence : Nat
  reviewJobId : Uuid
  eventType : String
  payload : AgentEventPayload
  createdAt : Nat
deriving DecidableEq, Repr

structure ReviewFindingRow where
  id : String
  reviewJobId : Uuid
  concern : Concern
  severity : Severity
  category : String
  filePath : String
  lineStart : Nat
  lineEnd : Nat
  title : String
  rationale : String
  /-- As inserted: `numeric(4, 3)` rounds it, and nothing reads it. -/
  confidence : Confidence
  verified : Bool
  verificationMethod : VerificationMethod
  publicSafe : Bool
  status : FindingStatus
  modelCallId : Option Uuid
  verificationReason : Option String
  sandboxRunId : Option String
  commandId : Option String
  verificationDetail : Option String
  createdAt : Nat
deriving DecidableEq, Repr

structure ModelCallRow where
  id : Uuid
  reviewJobId : Uuid
  provider : String
  modelName : String
  promptVersionId : Option Uuid
  inputTokens : Nat
  outputTokens : Nat
  costUsd : Decimal
  createdAt : Nat
deriving DecidableEq, Repr

structure FindingContextSourceRow where
  findingId : String
  kind : String
  name : String
  reference : String
  createdAt : Nat
deriving DecidableEq, Repr

/-- The hosted store and its clock. -/
structure HostedState where
  now : Nat
  installations : Table InstallationRow.id
  repositories : Table RepositoryRow.id
  runners : Table RunnerRow.id
  repositoryAssignments : Table RepositoryAssignmentRow.repositoryId
  githubDeliveries : Table GithubDeliveryRow.id
  reviewJobs : Table ReviewJobRow.id
  agentEvents : List AgentEventRow
  reviewFindings : Table ReviewFindingRow.id
  modelCalls : Table ModelCallRow.id
  findingContextSources : List FindingContextSourceRow

/-- The store after the migrations, before any request. -/
def HostedState.empty : HostedState where
  now := 0
  installations := .empty
  repositories := .empty
  runners := .empty
  repositoryAssignments := .empty
  githubDeliveries := .empty
  reviewJobs := .empty
  agentEvents := []
  reviewFindings := .empty
  modelCalls := .empty
  findingContextSources := []

/-- What a hosted operation can raise.  Every raise rolls its transaction back. -/
inductive HostedError where
  | jobProtocolDenied
  | runtimeError (message : String)
  | uniqueViolation
  | foreignKeyViolation
  | checkViolation
  | numericValueOutOfRange
  | dataError
  | programLimitExceeded
  | invalidEnvelope
  | valueError (message : String)
  | typeError (message : String)
  | assertionError
  | httpException (statusCode : Nat) (detail : String)
deriving DecidableEq, Repr

/-- `JobProtocolDenied` and its one reason. -/
def invalidOrExpired : String := "invalid_or_expired"

end Hosted
end PrReviewer
