import PrReviewer.Runner.LocalStore
import PrReviewer.Workflow.Engine

/-!
# The runner's SQLite file

The nine tables a job can have rows in, and the methods that write them.  The file is
opened without `pragma foreign_keys`, so that SQLite checks no reference: a row may be
recorded for a job the file does not know.  Job ids and traces are texts, as the columns
are.

SQLite compares and adds costs as floating-point numbers; how it does so is a parameter.
-/

namespace PrReviewer
namespace Runner

open Lib

/-- The columns of `local_snapshots` that `snapshots.record` writes. -/
structure PullRequestSnapshot where
  repoOwner : String
  repoName : String
  number : Int
  baseSha : String
  headSha : String
  title : String
  body : String
  filesJson : Json
  number_pos : 0 < number

structure LocalSnapshotRow where
  jobId : String
  snapshot : PullRequestSnapshot
  fetchedAt : Nat

structure LocalFindingRow where
  finding : Finding
  createdAt : Nat
deriving DecidableEq, Repr

def LocalFindingRow.id (row : LocalFindingRow) : String :=
  row.finding.id

def LocalFindingRow.jobId (row : LocalFindingRow) : String :=
  row.finding.reviewJobId

/-- The decisions `local_human_decisions` admits. -/
inductive HumanDecision where
  | approved
  | rejected
  | disputed
  | edited
deriving DecidableEq, Repr

structure LocalHumanDecision where
  id : Nat
  findingId : String
  decision : HumanDecision
  decidedBy : String
  note : Option String
  originalHash : String
  editedHash : String
  createdAt : Nat
deriving DecidableEq, Repr

structure LocalEvent where
  sequence : Nat
  jobId : Option String
  traceId : String
  eventType : String
  payload : Json
  createdAt : Nat

structure LocalJobBudget where
  jobId : String
  reservedTokens : Nat
  reservedCostUsd : Decimal
deriving DecidableEq, Repr

/-- `WorkflowInput`. -/
structure WorkflowInput where
  jobId : String
  headSha : String
  traceId : String
  leaseToken : String
deriving DecidableEq, Repr

structure WorkflowRun where
  workflowId : String
  input : WorkflowInput
  outcome : Option Workflow.WorkflowStatus
  reason : Option String
  createdAt : Nat
deriving DecidableEq, Repr

structure WorkflowStep where
  workflowId : String
  stepName : String
  output : Json
  completedAt : Nat

/-- The primary key of `workflow_steps`. -/
def WorkflowStep.key (step : WorkflowStep) : String × String :=
  (step.workflowId, step.stepName)

/-- All tables of the file; the decisions and the events are numbered by SQLite. -/
structure LocalDatabase (codec : Codec) extends LocalStore codec where
  snapshots : Table LocalSnapshotRow.jobId
  findings : Table LocalFindingRow.id
  humanDecisions : List LocalHumanDecision
  nextDecisionId : Nat
  events : List LocalEvent
  nextSequence : Nat
  jobBudgets : Table LocalJobBudget.jobId
  workflowRuns : Table WorkflowRun.workflowId
  workflowSteps : Table WorkflowStep.key

/-- A file just migrated. -/
def LocalDatabase.empty (codec : Codec) : LocalDatabase codec where
  toLocalStore := .empty codec
  snapshots := .empty
  findings := .empty
  humanDecisions := []
  nextDecisionId := 1
  events := []
  nextSequence := 1
  jobBudgets := .empty
  workflowRuns := .empty
  workflowSteps := .empty

/-- Costs as SQLite's REAL: whether one is positive, and a sum that stays under a limit. -/
structure CostArithmetic where
  positive : Decimal → Bool
  add? : Decimal → Decimal → Decimal → Option Decimal

namespace LocalDatabase

variable {codec : Codec} (db : LocalDatabase codec)

/-- `snapshots.record`: `insert or replace`. -/
def recordSnapshot (jobId : String) (snapshot : PullRequestSnapshot) (now : Nat) :
    LocalDatabase codec :=
  { db with
    snapshots := db.snapshots.put { jobId := jobId, snapshot := snapshot, fetchedAt := now } }

/-- `findings.record`: `insert or replace`. -/
def recordFinding (finding : Finding) (now : Nat) : LocalDatabase codec :=
  { db with findings := db.findings.put { finding := finding, createdAt := now } }

/-- `human_decisions.record`. -/
def recordHumanDecision
    (findingId : String) (decision : HumanDecision) (decidedBy : String) (note : Option String)
    (originalHash editedHash : String) (now : Nat) : LocalDatabase codec :=
  { db with
    humanDecisions := db.humanDecisions ++
      [{ id := db.nextDecisionId
         findingId := findingId
         decision := decision
         decidedBy := decidedBy
         note := note
         originalHash := originalHash
         editedHash := editedHash
         createdAt := now }]
    nextDecisionId := db.nextDecisionId + 1 }

/-- `events.record`. -/
def recordEvent
    (jobId : Option String) (traceId eventType : String) (payload : Json) (now : Nat) :
    LocalDatabase codec :=
  { db with
    events := db.events ++
      [{ sequence := db.nextSequence
         jobId := jobId
         traceId := traceId
         eventType := eventType
         payload := payload
         createdAt := now }]
    nextSequence := db.nextSequence + 1 }

/-- `jobs.get`, for a job id given as text. -/
def getByText (jobId : String) : Option LocalJob :=
  db.jobs.rows.find? (fun job => job.jobId.text = jobId)

/--
`reserve_job_budget`.  The row of the job is inserted before the limits are looked at, and
stays when the reservation is denied.
-/
def reserveJobBudget
    (costs : CostArithmetic) (jobId : String) (tokens : Int) (costUsd : Decimal) :
    LocalDatabase codec :=
  match db.getByText jobId with
  | none => db
  | some job =>
      if 0 < job.envelope.budget.maxTokens ∧ costs.positive job.envelope.budget.maxCostUsd then
        let jobBudgets :=
          (db.jobBudgets.insert?
            { jobId := jobId, reservedTokens := 0, reservedCostUsd := { text := "0" } }).getD
            db.jobBudgets
        { db with
          jobBudgets := jobBudgets.alter jobId
            (fun row =>
              match
                  costs.add? row.reservedCostUsd costUsd job.envelope.budget.maxCostUsd with
              | none => row
              | some reservedCostUsd =>
                  if 0 ≤ row.reservedTokens + tokens ∧
                      row.reservedTokens + tokens ≤ job.envelope.budget.maxTokens then
                    { row with
                      reservedTokens := (row.reservedTokens + tokens).toNat
                      reservedCostUsd := reservedCostUsd }
                  else
                    row)
            (by
              intro row
              split
              · rfl
              · split
                · rfl
                · rfl) }
      else
        db

/-- `ensure_run`: `insert or ignore`. -/
def ensureRun (workflowId : String) (input : WorkflowInput) (now : Nat) : LocalDatabase codec :=
  { db with
    workflowRuns :=
      (db.workflowRuns.insert?
        { workflowId := workflowId
          input := input
          outcome := none
          reason := none
          createdAt := now }).getD
        db.workflowRuns }

/-- `mark_step_completed`: `insert or ignore`. -/
def markStepCompleted (workflowId stepName : String) (output : Json) (now : Nat) :
    LocalDatabase codec :=
  { db with
    workflowSteps :=
      (db.workflowSteps.insert?
        { workflowId := workflowId
          stepName := stepName
          output := output
          completedAt := now }).getD
        db.workflowSteps }

/-- `set_outcome`. -/
def setOutcome
    (workflowId : String) (outcome : Workflow.WorkflowStatus) (reason : Option String) :
    LocalDatabase codec :=
  { db with
    workflowRuns := db.workflowRuns.alter workflowId
      (fun run => { run with outcome := some outcome, reason := reason }) (fun _ => rfl) }

/-- The statements `purge_repository` runs for one job. -/
def purgeJob (jobId : Uuid) : LocalDatabase codec :=
  { db with
    pending := db.pending.deleteWhere (fun row => row.jobId = jobId)
    pending_lt := by
      intro row hrow
      exact db.pending_lt row (Table.mem_deleteWhere.mp hrow).1
    humanDecisions := db.humanDecisions.filter (fun decision =>
      !db.findings.rows.any (fun row =>
        row.id = decision.findingId ∧ row.jobId = jobId.text))
    findings := db.findings.deleteWhere (fun row => row.jobId = jobId.text)
    snapshots := db.snapshots.deleteWhere (fun row => row.jobId = jobId.text)
    events := db.events.filter (fun event => event.jobId ≠ some jobId.text)
    jobBudgets := db.jobBudgets.deleteWhere (fun row => row.jobId = jobId.text)
    jobs := db.jobs.deleteWhere (fun job => job.jobId = jobId) }

/-- `select job_id from local_jobs where repository_id = ?`. -/
def jobIdsOf (repositoryId : Int) : List Uuid :=
  (db.jobs.rows.filter (fun job => job.envelope.repositoryId = repositoryId)).map LocalJob.jobId

/-- `jobs.purge_repository`.  No stored job has a repository id that SQLite cannot bind. -/
def purgeRepository (repositoryId : Int) : LocalDatabase codec :=
  (db.jobIdsOf repositoryId).foldl purgeJob db

end LocalDatabase

/-! ## Runs of the store -/

/-- A call of one of the methods that write the file. -/
inductive LocalAction where
  | recordClaimed (job : JobEnvelope) (now : Nat)
  | setStatus (jobId : Uuid) (status : LocalJobStatus)
  | recordSnapshot (jobId : String) (snapshot : PullRequestSnapshot) (now : Nat)
  | recordFinding (finding : Finding) (now : Nat)
  | recordHumanDecision
      (findingId : String) (decision : HumanDecision) (decidedBy : String)
      (note : Option String) (originalHash editedHash : String) (now : Nat)
  | recordEvent
      (jobId : Option String) (traceId eventType : String) (payload : Json) (now : Nat)
  | recordPending
      (jobId : Uuid) (leaseToken : String) (result : JobAcknowledgement)
      (reason : PendingAcknowledgementReason) (now : Nat)
  | resolve (entryId : Nat)
  | bumpAttempt (entryId : Nat)
  | reserveJobBudget (jobId : String) (tokens : Int) (costUsd : Decimal)
  | ensureRun (workflowId : String) (input : WorkflowInput) (now : Nat)
  | markStepCompleted (workflowId stepName : String) (output : Json) (now : Nat)
  | setOutcome
      (workflowId : String) (outcome : Workflow.WorkflowStatus) (reason : Option String)
  | purgeRepository (repositoryId : Int)

/-- One step of the store.  An integer SQLite cannot bind is refused before any change. -/
def localStep {codec : Codec} (costs : CostArithmetic) (db : LocalDatabase codec) :
    LocalAction → LocalDatabase codec
  | .recordClaimed job now =>
      if fitsLocalJobs job then
        { db with toLocalStore := db.toLocalStore.recordClaimed job now }
      else
        db
  | .setStatus jobId status => { db with toLocalStore := db.toLocalStore.setStatus jobId status }
  | .recordSnapshot jobId snapshot now =>
      if fitsSqlite snapshot.number then db.recordSnapshot jobId snapshot now else db
  | .recordFinding finding now =>
      if fitsSqlite finding.lineEnd then db.recordFinding finding now else db
  | .recordHumanDecision findingId decision decidedBy note originalHash editedHash now =>
      db.recordHumanDecision findingId decision decidedBy note originalHash editedHash now
  | .recordEvent jobId traceId eventType payload now =>
      db.recordEvent jobId traceId eventType payload now
  | .recordPending jobId leaseToken result reason now =>
      { db with
        toLocalStore := db.toLocalStore.recordPending jobId leaseToken result reason now }
  | .resolve entryId => { db with toLocalStore := db.toLocalStore.resolve entryId }
  | .bumpAttempt entryId => { db with toLocalStore := db.toLocalStore.bumpAttempt entryId }
  | .reserveJobBudget jobId tokens costUsd => db.reserveJobBudget costs jobId tokens costUsd
  | .ensureRun workflowId input now => db.ensureRun workflowId input now
  | .markStepCompleted workflowId stepName output now =>
      db.markStepCompleted workflowId stepName output now
  | .setOutcome workflowId outcome reason => db.setOutcome workflowId outcome reason
  | .purgeRepository repositoryId => db.purgeRepository repositoryId

end Runner
end PrReviewer
