import PrReviewer.Hosted.ReviewJobs
import PrReviewer.Lib.Python

/-!
# The runner job protocol and the token broker

control_plane/runner_jobs.py and control_plane/token_broker.py: `claim_job`,
`heartbeat_job`, `acknowledge_job` and `issue_job_token`, each as one
transaction.  The lease token a claim draws is an argument.

`acknowledge_job` and `issue_job_token` compare `str(locked_by)` and
`str(lease_token_hash)` with the texts of the caller.  A null column gives the
text "None", which is neither a uuid nor a digest, so the comparison is the one
of the optional column with the caller's value.
-/

namespace PrReviewer
namespace Hosted

open Lib

section RunnerJobs

variable (hashRunnerCredential : String → String)

/-- The two answers of `claim_job`. -/
inductive ClaimResult where
  | envelope (e : JobEnvelope)
  | noJob
deriving DecidableEq, Repr

/-- The join of `repositories` and `repository_assignments` in the claim's subquery. -/
def assignedTo
    (s : HostedState)
    (runnerId : Uuid)
    (row : ReviewJobRow) :
    Bool :=
  s.repositories.rows.any (fun r =>
    some r.installationId = row.installationId ∧
      some r.githubRepositoryId = row.githubRepositoryId ∧
      s.repositoryAssignments.rows.any (fun a =>
        a.repositoryId = r.id ∧ a.runnerId = runnerId))

/-- The `where` clause of `claim_job`. -/
def claimableByRunner
    (s : HostedState)
    (runnerId : Uuid)
    (row : ReviewJobRow) :
    Bool :=
  row.claimable s.now ∧
    row.installationId ≠ none ∧ row.githubRepositoryId ≠ none ∧
    row.pullRequestNumber ≠ none ∧ assignedTo s runnerId row

/-- The lease `claim_job` takes, under the hash of a new lease token. -/
def ReviewJobRow.leasedToRunner
    (row : ReviewJobRow) (runnerId : Uuid) (leaseTokenHash : String) (now : Nat) :
    ReviewJobRow :=
  { row with
    status := .running
    lockedBy := some runnerId.text
    leaseTokenHash := some leaseTokenHash
    lockedUntil := some (now + reviewJobLeaseInterval)
    attempts := row.attempts + 1
    updatedAt := now }

@[simp] theorem ReviewJobRow.leasedToRunner_id
    (row : ReviewJobRow) (runnerId : Uuid) (leaseTokenHash : String) (now : Nat) :
    (row.leasedToRunner runnerId leaseTokenHash now).id = row.id := by
  rfl

/--
The `JobEnvelope` built from the returned columns.  `str(None)` is the text
"None"; a null number, cost or trace id, or a field the model refuses, raises
and rolls the claim back.
-/
def jobEnvelope
    (row : ReviewJobRow)
    (leaseToken : String) :
    Option JobEnvelope :=
  let baseSha := row.baseSha.getD "None"
  let headSha := row.headSha.getD "None"
  let policyVersion := row.policyVersion.getD "None"
  match row.installationId, row.githubRepositoryId, row.pullRequestNumber,
      row.budgetMaxTokens, row.budgetMaxCostUsd, row.traceId with
  | some installationId, some repositoryId, some number,
      some maxTokens, some maxCostUsd, some traceId =>
      if h : 0 < number ∧ baseSha ≠ "" ∧ headSha ≠ "" ∧ policyVersion ≠ "" ∧
          leaseToken ≠ "" then
        some
          { jobId := row.id
            installationId := installationId
            repositoryId := repositoryId
            pullRequestNumber := number
            baseSha := baseSha
            headSha := headSha
            policyVersion := policyVersion
            budget := { maxTokens := maxTokens, maxCostUsd := maxCostUsd }
            traceId := traceId
            leaseToken := leaseToken
            pullRequestNumber_pos := h.1
            baseSha_ne := h.2.1
            headSha_ne := h.2.2.1
            policyVersion_ne := h.2.2.2.1
            leaseToken_ne := h.2.2.2.2 }
      else
        none
  | _, _, _, _, _, _ => none

/-- `claim_job`. -/
def claimJob
    (s : HostedState)
    (runner : AuthenticatedRunner)
    (leaseToken : String)
    (tie : Uuid) :
    Except HostedError (ClaimResult × HostedState) :=
  match s.runners.find? runner.runnerId with
  | none => .ok (.noJob, s)
  | some runnerRow =>
      if runnerRow.revokedAt.isSome then
        .ok (.noJob, s)
      else
        match nextJob s.reviewJobs.rows (claimableByRunner s runner.runnerId) tie with
        | none => .ok (.noJob, s)
        | some row =>
            match jobEnvelope row leaseToken with
            | none => .error .invalidEnvelope
            | some e =>
                .ok (.envelope e,
                  { s with
                    reviewJobs :=
                      s.reviewJobs.alter row.id
                        (fun r =>
                          r.leasedToRunner runner.runnerId
                            (hashRunnerCredential leaseToken) s.now)
                        (fun r =>
                          r.leasedToRunner_id runner.runnerId
                            (hashRunnerCredential leaseToken) s.now) })

/-- `locked_by` and `lease_token_hash` are the caller's. -/
def ReviewJobRow.leasedUnder
    (row : ReviewJobRow) (runnerId : Uuid) (leaseTokenHash : String) : Bool :=
  row.lockedBy = some runnerId.text ∧ row.leaseTokenHash = some leaseTokenHash

/-- `heartbeat_job`. -/
def heartbeatJob
    (s : HostedState)
    (runnerId jobId : Uuid)
    (leaseToken : String) :
    LeaseState × HostedState :=
  let tokenHash := hashRunnerCredential leaseToken
  match
      updateReviewJob s jobId
        (fun row =>
          row.status = .running ∧ row.leasedUnder runnerId tokenHash ∧ row.leaseLive s.now)
        (fun row =>
          { row with
            lockedUntil := some (s.now + reviewJobLeaseInterval), updatedAt := s.now })
        (leaseRenewed_id s) with
  | some (_, s') => (.active, s')
  | none =>
      match s.reviewJobs.find? jobId with
      | none => (.invalidOrExpired, s)
      | some row =>
          if row.status = .cancelled ∧ row.leasedUnder runnerId tokenHash then
            (.cancelled, s)
          else
            (.invalidOrExpired, s)

/-- The row `acknowledge_job` writes; the lock columns except the deadline stay. -/
def ReviewJobRow.acknowledged
    (row : ReviewJobRow) (ack : JobAcknowledgement) (now : Nat) : ReviewJobRow :=
  { row with
    status :=
      match ack.terminalState with
      | .succeeded => .succeeded
      | .failed => .failed
    lastError := ack.errorClass
    lockedUntil := none
    updatedAt := now }

@[simp] theorem ReviewJobRow.acknowledged_id
    (row : ReviewJobRow) (ack : JobAcknowledgement) (now : Nat) :
    (row.acknowledged ack now).id = row.id := by
  rfl

theorem acknowledgedRow_id
    (ack : JobAcknowledgement) (s : HostedState) (row : ReviewJobRow) :
    (row.acknowledged ack s.now).id = row.id :=
  row.acknowledged_id ack s.now

/--
What refuses to write an acknowledgement: the error class as a parameter of the
update, a count that `json.dumps` cannot write, a text that `jsonb` cannot hold.
-/
def acknowledgementRefusal (ack : JobAcknowledgement) : Option HostedError :=
  if ¬ ack.errorClass.all fitsText then
    some .dataError
  else if
      ¬ (withinDigits maxStrDigits ack.inputTokens ∧
        withinDigits maxStrDigits ack.outputTokens ∧
        withinDigits maxStrDigits ack.latencyMs) then
    some (.valueError "Exceeds the limit (4300 digits) for integer string conversion")
  else if ¬ fitsText ack.localResultHash then
    some .dataError
  else
    none

theorem acknowledgementRefusal_ne_denied
    (ack : JobAcknowledgement) :
    acknowledgementRefusal ack ≠ some .jobProtocolDenied := by
  unfold acknowledgementRefusal
  split_ifs <;> rintro ⟨⟩

/-- The event type of an acknowledgement. -/
def reviewJobAcknowledged : String := "review_job_acknowledged"

/-- The two ways an `acknowledge_job` call returns. -/
inductive AcknowledgeResult where
  | accepted
  | alreadyFinished
deriving DecidableEq, Repr

/-- `acknowledge_job`; both ways of returning are `None` to the caller. -/
def acknowledgeJob
    (s : HostedState)
    (runnerId jobId : Uuid)
    (leaseToken : String)
    (ack : JobAcknowledgement) :
    Except HostedError (AcknowledgeResult × HostedState) :=
  match s.reviewJobs.find? jobId with
  | none => .error .jobProtocolDenied
  | some row =>
      if ¬ row.leasedUnder runnerId (hashRunnerCredential leaseToken) then
        .error .jobProtocolDenied
      else if row.status = .succeeded ∨ row.status = .failed then
        .ok (.alreadyFinished, s)
      else if ¬ (row.status = .running ∧ row.leaseLive s.now) then
        .error .jobProtocolDenied
      else
        -- a refusal of the update or of the insert rolls both back
        match acknowledgementRefusal ack with
        | some e => .error e
        | none =>
            .ok (.accepted,
              insertAgentEvent
                { s with
                  reviewJobs :=
                    s.reviewJobs.alter jobId (fun r => r.acknowledged ack s.now)
                      (acknowledgedRow_id ack s) }
                jobId reviewJobAcknowledged (.acknowledged ack))

/-- What `create_installation_token` is called with. -/
structure TokenRequest where
  installationId : Int
  repositoryIds : List Int
  permissions : List (String × String)
deriving DecidableEq, Repr

/-- `TOKEN_PERMISSIONS`. -/
def tokenPermissions : List (String × String) :=
  [("contents", "read"), ("pull_requests", "read")]

/-- `issue_job_token`, up to the call that mints the token at GitHub. -/
def issueJobToken
    (s : HostedState)
    (runnerId jobId : Uuid)
    (leaseToken : String) :
    Except HostedError TokenRequest :=
  match s.reviewJobs.find? jobId with
  | none => .error .jobProtocolDenied
  | some row =>
      if ¬ row.leasedUnder runnerId (hashRunnerCredential leaseToken) then
        .error .jobProtocolDenied
      else if ¬ (row.status = .running ∧ row.leaseLive s.now) then
        .error .jobProtocolDenied
      else
        match row.installationId, row.githubRepositoryId with
        | some installationId, some githubRepositoryId =>
            match authorizeRepository s installationId githubRepositoryId runnerId with
            | .error _ => .error .jobProtocolDenied
            | .ok _ =>
                .ok
                  { installationId := installationId
                    repositoryIds := [githubRepositoryId]
                    permissions := tokenPermissions }
        | _, _ => .error .jobProtocolDenied

end RunnerJobs

end Hosted
end PrReviewer
