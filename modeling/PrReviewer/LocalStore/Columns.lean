import PrReviewer.Github.PullRequest
import PrReviewer.Lib.JsonText
import PrReviewer.Lib.Table
import PrReviewer.Runner.LocalStore

/-!
# The columns of the local store

local_store/sqlite.py, column by column: what the methods that record a job, a snapshot, a
finding or an acknowledgement bind to the columns of their table, and what the functions
that read a row build out of them, with `_envelope_from_local_job` of runner/daemon.py.

A column of type `integer` takes the integers of 64 bits, one of type `text` the strings
UTF-8 can encode, one of type `real` a float; binding anything else raises, and so does the
null that NaN becomes.  `model_validate` is modelled as far as the
values `model_dump` gives it.  The text of a float and the depth of nested calls are
parameters of json.
-/

namespace PrReviewer
namespace LocalStore

open Lib
open Github
open Runner (fitsSqlite LocalJobStatus PendingAcknowledgementReason)

/-- What recording or reading a row raises. -/
inductive StoreError where
  | overflowError
  | unicodeEncodeError
  | integrityError
  | python (error : PyException)
deriving DecidableEq, Repr

abbrev Stored : Type → Type :=
  Except StoreError

/-- An integer bound to a column. -/
def bindInteger (n : Int) : Stored Int :=
  if fitsSqlite n then .ok n else .error .overflowError

/-- A string bound to a column. -/
def bindText (s : PyStr) : Stored String :=
  match s.text? with
  | some text => .ok text
  | none => .error .unicodeEncodeError

/-- A float bound to a `real not null` column: SQLite stores NaN as null. -/
def bindReal : Confidence → Stored Rat
  | .nan => .error .integrityError
  | .number value _ => .ok value

def invalid {α : Type} : Stored α :=
  .error (.python .validationError)

/-- A field with the constraint `ge=0`. -/
def natural (n : Int) : Stored Nat :=
  if 0 ≤ n then .ok n.toNat else invalid

/-- A `Literal` field: the member with the text. -/
def literal {α : Type} (members : List α) (value : α → String) (text : String) : Stored α :=
  match members.find? (fun member => value member = text) with
  | some member => .ok member
  | none => invalid

/-- json with its parameters. -/
structure JsonModule where
  floats : FloatText
  frames : Nat

/-- `json.dumps(value)`. -/
def JsonModule.dumps (json : JsonModule) (value : PyJson) : Stored PyStr :=
  match jsonDumps ⟨true, true⟩ json.floats json.frames value with
  | .ok points => .ok ⟨points⟩
  | .error error => .error (.python error)

/-- `json.loads(text)`. -/
def JsonModule.loads (json : JsonModule) (text : String) : Stored PyJson :=
  match jsonLoads json.floats json.frames (PyStr.ofString text).points with
  | .ok value => .ok value
  | .error error => .error (.python error)

/-! ## Jobs -/

/-- A row of `local_jobs`. -/
structure LocalJobRow where
  jobId : String
  installationId : Int
  repositoryId : Int
  pullRequestNumber : Int
  baseSha : String
  headSha : String
  policyVersion : String
  budgetMaxTokens : Int
  budgetMaxCostUsd : String
  traceId : String
  leaseToken : String
  status : LocalJobStatus
  claimedAt : Nat

/-- The row `record_claimed` inserts. -/
def localJobRow (job : JobEnvelope) (now : Nat) : Stored LocalJobRow := do
  let installationId ← bindInteger job.installationId
  let repositoryId ← bindInteger job.repositoryId
  let pullRequestNumber ← bindInteger job.pullRequestNumber
  let maxTokens ← bindInteger job.budget.maxTokens
  return {
    jobId := job.jobId.text
    installationId := installationId
    repositoryId := repositoryId
    pullRequestNumber := pullRequestNumber
    baseSha := job.baseSha
    headSha := job.headSha
    policyVersion := job.policyVersion
    budgetMaxTokens := maxTokens
    budgetMaxCostUsd := job.budget.maxCostUsd.text
    traceId := job.traceId.text
    leaseToken := job.leaseToken
    status := .claimed
    claimedAt := now }

/-- `LocalJob`. -/
structure LocalJob where
  jobId : String
  installationId : Int
  repositoryId : Int
  pullRequestNumber : Int
  baseSha : String
  headSha : String
  policyVersion : String
  budget : JobBudget
  traceId : String
  leaseToken : String
  status : LocalJobStatus
  claimedAt : Nat

/-- `_row_to_local_job`. -/
def rowToLocalJob (row : LocalJobRow) : Stored LocalJob := do
  let maxTokens ← natural row.budgetMaxTokens
  return {
    jobId := row.jobId
    installationId := row.installationId
    repositoryId := row.repositoryId
    pullRequestNumber := row.pullRequestNumber
    baseSha := row.baseSha
    headSha := row.headSha
    policyVersion := row.policyVersion
    budget := ⟨maxTokens, ⟨row.budgetMaxCostUsd⟩⟩
    traceId := row.traceId
    leaseToken := row.leaseToken
    status := row.status
    claimedAt := row.claimedAt }

/-- `uuid.UUID(text)`. -/
def uuidOf (text : String) : Stored Uuid :=
  match Uuid.parse? text with
  | some u => .ok u
  | none => .error (.python .valueError)

/-- `_envelope_from_local_job`. -/
def envelopeFromLocalJob (job : LocalJob) : Stored JobEnvelope := do
  let jobId ← uuidOf job.jobId
  let traceId ← uuidOf job.traceId
  if h : 0 < job.pullRequestNumber ∧ job.baseSha ≠ "" ∧ job.headSha ≠ "" ∧
      job.policyVersion ≠ "" ∧ job.leaseToken ≠ "" then
    .ok {
      jobId := jobId
      installationId := job.installationId
      repositoryId := job.repositoryId
      pullRequestNumber := job.pullRequestNumber
      baseSha := job.baseSha
      headSha := job.headSha
      policyVersion := job.policyVersion
      budget := job.budget
      traceId := traceId
      leaseToken := job.leaseToken
      pullRequestNumber_pos := h.1
      baseSha_ne := h.2.1
      headSha_ne := h.2.2.1
      policyVersion_ne := h.2.2.2.1
      leaseToken_ne := h.2.2.2.2 }
  else
    invalid

/-! ## Snapshots -/

def GitHubFileStatus.value : GitHubFileStatus → String
  | .added => "added"
  | .modified => "modified"
  | .removed => "removed"
  | .renamed => "renamed"

def gitHubFileStatuses : List GitHubFileStatus :=
  [.added, .modified, .removed, .renamed]

def omissionReasons : List OmissionReason :=
  [.tokenBudget, .patchOmittedByGithub, .patchTruncatedByGithub, .binary, .generated,
    .ignoredPath, .fileSizeLimit, .cloneTimeout]

/-- A `str | None` in JSON. -/
def optionalJson : Option PyStr → PyJson
  | none => .null
  | some s => .str s

/-- `PullRequestFile.model_dump(mode="json")`. -/
def fileJson (file : PullRequestFile) : PyJson :=
  .dict
    [(.ofString "path", .str (.ofString file.path)),
      (.ofString "status", .str (.ofString (GitHubFileStatus.value file.status))),
      (.ofString "patch", optionalJson file.patch),
      (.ofString "previous_path", optionalJson file.previousPath),
      (.ofString "truncated", .bool file.truncated),
      (.ofString "binary", .bool file.binary),
      (.ofString "omission_reason",
        optionalJson (file.omissionReason.map (fun reason => .ofString reason.value)))]

/-- A required field. -/
def field (items : List (PyStr × PyJson)) (key : String) : Stored PyJson :=
  match getItem? items key with
  | some value => .ok value
  | none => invalid

/-- A `str` UTF-8 can encode, as a constraint on its length demands. -/
def textOf : PyJson → Stored String
  | .str s =>
      match s.text? with
      | some text => .ok text
      | none => invalid
  | _ => invalid

def optionalText : Option PyJson → Stored (Option PyStr)
  | none => .ok none
  | some .null => .ok none
  | some (.str s) => .ok (some s)
  | some _ => invalid

/-- A `bool` with a default. -/
def boolOr (default : Bool) : Option PyJson → Stored Bool
  | none => .ok default
  | some (.bool b) => .ok b
  | some _ => invalid

def optionalReason : Option PyJson → Stored (Option OmissionReason)
  | none => .ok none
  | some .null => .ok none
  | some value => do
      let text ← textOf value
      let reason ← literal omissionReasons OmissionReason.value text
      return some reason

/-- `PullRequestFile.model_validate`. -/
def validateFile : PyJson → Stored PullRequestFile
  | .dict items => do
      let path ← field items "path"
      let path ← textOf path
      let status ← field items "status"
      let status ← textOf status
      let status ← literal gitHubFileStatuses GitHubFileStatus.value status
      let patch ← optionalText (getItem? items "patch")
      let previousPath ← optionalText (getItem? items "previous_path")
      let truncated ← boolOr false (getItem? items "truncated")
      let binary ← boolOr false (getItem? items "binary")
      let omissionReason ← optionalReason (getItem? items "omission_reason")
      if h : path ≠ "" then
        .ok {
          path := path
          status := status
          patch := patch
          previousPath := previousPath
          truncated := truncated
          binary := binary
          omissionReason := omissionReason
          path_ne := h }
      else
        invalid
  | _ => invalid

/-- A row of `local_snapshots`. -/
structure LocalSnapshotRow where
  jobId : String
  repoOwner : String
  repoName : String
  number : Int
  baseSha : String
  headSha : String
  title : String
  body : String
  filesJson : String
  fetchedAt : Nat

section Json

variable (json : JsonModule)

/-- The row `snapshots.record` inserts. -/
def localSnapshotRow (jobId : String) (snapshot : PullRequestSnapshot) (now : Nat) :
    Stored LocalSnapshotRow := do
  let files ← json.dumps (.list (snapshot.files.map fileJson))
  let number ← bindInteger snapshot.number
  let title ← bindText snapshot.title
  let body ← bindText snapshot.body
  let filesJson ← bindText files
  return {
    jobId := jobId
    repoOwner := snapshot.repoOwner
    repoName := snapshot.repoName
    number := number
    baseSha := snapshot.baseSha
    headSha := snapshot.headSha
    title := title
    body := body
    filesJson := filesJson
    fetchedAt := now }

/-- The items of a list that was read. -/
def itemsOf : PyJson → Stored (List PyJson)
  | .list items => .ok items
  | _ => .error (.python .typeError)

/-- `PullRequestSnapshot(...)` with the fields `snapshots.get` reads. -/
def snapshotOf (row : LocalSnapshotRow) (files : List PullRequestFile) :
    Stored PullRequestSnapshot := do
  let number ← natural row.number
  if h : row.repoOwner ≠ "" ∧ row.repoName ≠ "" ∧ 0 < number ∧ row.baseSha ≠ "" ∧
      row.headSha ≠ "" then
    .ok {
      repoOwner := row.repoOwner
      repoName := row.repoName
      number := number
      baseSha := row.baseSha
      headSha := row.headSha
      title := .ofString row.title
      body := .ofString row.body
      files := files
      identity := none
      draft := false
      repoOwner_ne := h.1
      repoName_ne := h.2.1
      number_pos := h.2.2.1
      baseSha_ne := h.2.2.2.1
      headSha_ne := h.2.2.2.2 }
  else
    invalid

/-- The snapshot `snapshots.get` builds out of a row. -/
def rowToSnapshot (row : LocalSnapshotRow) : Stored PullRequestSnapshot := do
  let value ← json.loads row.filesJson
  let items ← itemsOf value
  let files ← items.mapM validateFile
  snapshotOf row files

/-! ## Findings -/

def concerns : List Concern :=
  [.security, .correctness, .tests, .docs, .maintainability]

def severities : List Severity :=
  [.critical, .high, .medium, .low, .info]

def verificationMethods : List VerificationMethod :=
  [.sandbox, .static, .notApplicable, .failed]

def findingStatuses : List FindingStatus :=
  [.draft, .queuedForHuman, .posted, .rejected, .disputed]

/-- A row of `local_findings`. -/
structure LocalFindingRow where
  id : String
  jobId : String
  concern : String
  severity : String
  category : String
  filePath : String
  lineStart : Int
  lineEnd : Int
  title : String
  rationale : String
  evidenceJson : String
  confidence : Rat
  verified : Int
  verificationMethod : String
  publicSafe : Int
  status : String
  createdAt : Nat

/-- `int(b)`. -/
def intOfBool (b : Bool) : Int :=
  if b then 1 else 0

/-- The row `findings.record` inserts. -/
def localFindingRow (finding : Finding) (now : Nat) : Stored LocalFindingRow := do
  let evidence ← json.dumps (.list (finding.evidence.map (fun item => .str (.ofString item))))
  let lineStart ← bindInteger finding.lineStart
  let lineEnd ← bindInteger finding.lineEnd
  let evidenceJson ← bindText evidence
  let confidence ← bindReal finding.confidence
  return {
    id := finding.id
    jobId := finding.reviewJobId
    concern := Concern.value finding.concern
    severity := Severity.value finding.severity
    category := finding.category
    filePath := finding.filePath
    lineStart := lineStart
    lineEnd := lineEnd
    title := finding.title
    rationale := finding.rationale
    evidenceJson := evidenceJson
    confidence := confidence
    verified := intOfBool finding.verified
    verificationMethod := VerificationMethod.value finding.verificationMethod
    publicSafe := intOfBool finding.publicSafe
    status := FindingStatus.value finding.status
    createdAt := now }

/-- `_row_to_finding`. -/
def rowToFinding (row : LocalFindingRow) : Stored Finding := do
  let value ← json.loads row.evidenceJson
  let items ← itemsOf value
  let evidence ← items.mapM textOf
  let concern ← literal concerns Concern.value row.concern
  let severity ← literal severities Severity.value row.severity
  let lineStart ← natural row.lineStart
  let lineEnd ← natural row.lineEnd
  let method ← literal verificationMethods VerificationMethod.value row.verificationMethod
  let status ← literal findingStatuses FindingStatus.value row.status
  if h : "" ∉ [row.id, row.jobId, row.category, row.filePath, row.title, row.rationale] ∧
      evidence ≠ [] ∧ (0 < lineStart ∧ lineStart ≤ lineEnd) ∧
      0 ≤ row.confidence ∧ row.confidence ≤ 1 then
    .ok {
      id := row.id
      reviewJobId := row.jobId
      concern := concern
      severity := severity
      category := row.category
      filePath := row.filePath
      lineStart := lineStart
      lineEnd := lineEnd
      title := row.title
      rationale := row.rationale
      evidence := evidence
      confidence := .number row.confidence h.2.2.2
      verified := row.verified ≠ 0
      verificationMethod := method
      publicSafe := row.publicSafe ≠ 0
      status := status
      texts_ne := h.1
      evidence_ne := h.2.1
      lines_ordered := h.2.2.1 }
  else
    invalid

/-! ## Pending acknowledgements -/

def jobTerminalStates : List JobTerminalState :=
  [.succeeded, .failed]

/-- `JobAcknowledgement.model_dump(mode="json")`. -/
def acknowledgementJson (result : JobAcknowledgement) : PyJson :=
  .dict
    [(.ofString "terminal_state", .str (.ofString result.terminalState.text)),
      (.ofString "error_class", optionalJson (result.errorClass.map PyStr.ofString)),
      (.ofString "input_tokens", .int result.inputTokens),
      (.ofString "output_tokens", .int result.outputTokens),
      (.ofString "cost_usd", .str (.ofString result.costUsd.text)),
      (.ofString "latency_ms", .int result.latencyMs),
      (.ofString "local_result_hash", .str (.ofString result.localResultHash))]

def acknowledgementFields : List String :=
  ["terminal_state", "error_class", "input_tokens", "output_tokens", "cost_usd", "latency_ms",
    "local_result_hash"]

/-- An `int` with the constraint `ge=0`. -/
def naturalOf : PyJson → Stored Nat
  | .int n => natural n
  | _ => invalid

def optionalString : Option PyJson → Stored (Option String)
  | none => .ok none
  | some .null => .ok none
  | some value => do
      let text ← textOf value
      return some text

/-- `JobAcknowledgement.model_validate`; a field of another name is forbidden. -/
def validateAcknowledgement : PyJson → Stored JobAcknowledgement
  | .dict items => do
      let state ← field items "terminal_state"
      let state ← textOf state
      let terminalState ← literal jobTerminalStates JobTerminalState.text state
      let errorClass ← optionalString (getItem? items "error_class")
      let inputTokens ← field items "input_tokens"
      let inputTokens ← naturalOf inputTokens
      let outputTokens ← field items "output_tokens"
      let outputTokens ← naturalOf outputTokens
      let costUsd ← field items "cost_usd"
      let costUsd ← textOf costUsd
      let latencyMs ← field items "latency_ms"
      let latencyMs ← naturalOf latencyMs
      let localResultHash ← field items "local_result_hash"
      let localResultHash ← textOf localResultHash
      if h : (∀ item ∈ items, ∃ name ∈ acknowledgementFields, item.1 = .ofString name) ∧
          localResultHash ≠ "" then
        .ok {
          terminalState := terminalState
          errorClass := errorClass
          inputTokens := inputTokens
          outputTokens := outputTokens
          costUsd := ⟨costUsd⟩
          latencyMs := latencyMs
          localResultHash := localResultHash
          localResultHash_ne := h.2 }
      else
        invalid
  | _ => invalid

/-- A row of `local_pending_acknowledgements`. -/
structure LocalPendingRow where
  id : Nat
  jobId : String
  leaseToken : String
  resultJson : String
  reason : PendingAcknowledgementReason
  attempts : Nat
  createdAt : Nat

/-- The column `result_json` of the row `pending_acknowledgements.record` inserts. -/
def resultColumn (result : JobAcknowledgement) : Stored String := do
  let text ← json.dumps (acknowledgementJson result)
  bindText text

/-- `PendingAcknowledgement`. -/
structure PendingAcknowledgement where
  id : Nat
  jobId : String
  leaseToken : String
  result : JobAcknowledgement
  reason : PendingAcknowledgementReason
  attempts : Nat
  createdAt : Nat

/-- `_row_to_pending`. -/
def rowToPending (row : LocalPendingRow) : Stored PendingAcknowledgement := do
  let value ← json.loads row.resultJson
  let result ← validateAcknowledgement value
  return {
    id := row.id
    jobId := row.jobId
    leaseToken := row.leaseToken
    result := result
    reason := row.reason
    attempts := row.attempts
    createdAt := row.createdAt }

end Json

end LocalStore
end PrReviewer
