import PrReviewer.Hosted.RunnerJobs
import Mathlib.Data.List.Sort

/-!
# The review projection: pushed summaries and what a viewer reads

control_plane/review_projection.py: the body a paired runner pushes,
`save_pushed_review_summary` and its route, and the two read paths behind the web
dashboard, `reviews_for_repository` and `review_by_id`.
-/

namespace PrReviewer
namespace Hosted

open Lib

/-- `PushedFindingBody`. -/
@[ext]
structure PushedFindingBody where
  concern : Concern
  severity : Severity
  filePath : String
  lineStart : Nat
  lineEnd : Nat
  title : String
  status : FindingStatus
  filePath_ne : filePath ≠ ""
  lineStart_pos : 0 < lineStart
  lineRange : lineStart ≤ lineEnd
  title_ne : title ≠ ""
deriving Repr

instance : DecidableEq PushedFindingBody :=
  fun _ _ => decidable_of_iff _ PushedFindingBody.ext_iff.symm

/-- The two terminal states a pushed summary can carry. -/
inductive PushedStatus where
  | completed
  | stoppedEarly
deriving DecidableEq, Repr

def PushedStatus.toReviewJobStatus : PushedStatus → ReviewJobStatus
  | .completed => .completed
  | .stoppedEarly => .stoppedEarly

/-- `PushedReviewSummaryBody`. -/
@[ext]
structure PushedReviewSummaryBody where
  reviewJobId : Uuid
  installationId : Int
  githubRepositoryId : Int
  pullRequestNumber : Int
  headSha : String
  status : PushedStatus
  stoppedEarly : Bool
  findings : List PushedFindingBody
  headSha_ne : headSha ≠ ""
  stoppedEarly_eq : stoppedEarly = decide (status = .stoppedEarly)
deriving Repr

instance : DecidableEq PushedReviewSummaryBody :=
  fun _ _ => decidable_of_iff _ PushedReviewSummaryBody.ext_iff.symm

/--
The values of the body fit the columns they are written to: `integer` and `text`
columns and the check on `pull_request_number`.
-/
def PushedReviewSummaryBody.fitsSchema (body : PushedReviewSummaryBody) : Bool :=
  0 < body.pullRequestNumber ∧ fitsInteger body.pullRequestNumber ∧ fitsText body.headSha ∧
    ∀ f ∈ body.findings, fitsInteger f.lineEnd ∧ fitsText f.filePath ∧ fitsText f.title

/-- The row `on conflict (id) do update` leaves behind. -/
def ReviewJobRow.overwrittenBy
    (row : ReviewJobRow) (body : PushedReviewSummaryBody) (now : Nat) : ReviewJobRow :=
  { row with
    status := body.status.toReviewJobStatus
    installationId := some body.installationId
    githubRepositoryId := some body.githubRepositoryId
    pullRequestNumber := some body.pullRequestNumber
    headSha := some body.headSha
    updatedAt := now }

@[simp] theorem ReviewJobRow.overwrittenBy_id
    (row : ReviewJobRow) (body : PushedReviewSummaryBody) (now : Nat) :
    (row.overwrittenBy body now).id = row.id := by
  rfl

/-- The row inserted for a review id that is not stored yet. -/
def pushedRow (body : PushedReviewSummaryBody) (now : Nat) : ReviewJobRow :=
  (ReviewJobRow.fresh body.reviewJobId none body.status.toReviewJobStatus now).overwrittenBy
    body now

/-- The row of the finding at one position, under its deterministic id. -/
def pushedFindingRow
    (body : PushedReviewSummaryBody)
    (finding : PushedFindingBody)
    (index : Nat)
    (now : Nat) :
    ReviewFindingRow where
  id := body.reviewJobId.text ++ ":" ++ toString index
  reviewJobId := body.reviewJobId
  concern := finding.concern
  severity := finding.severity
  category := ""
  filePath := finding.filePath
  lineStart := finding.lineStart
  lineEnd := finding.lineEnd
  title := finding.title
  rationale := ""
  confidence := .number 0 (by decide)
  verified := false
  verificationMethod := .notApplicable
  publicSafe := true
  status := finding.status
  modelCallId := none
  verificationReason := none
  sandboxRunId := none
  commandId := none
  verificationDetail := none
  createdAt := now

/-- `insert into review_findings … on conflict (id) do nothing`, once per position. -/
def insertPushedFindings
    (body : PushedReviewSummaryBody)
    (now : Nat) :
    List (PushedFindingBody × Nat) →
      Table ReviewFindingRow.id → Table ReviewFindingRow.id
  | [], stored => stored
  | (finding, index) :: rest, stored =>
      insertPushedFindings body now rest
        ((stored.insert? (pushedFindingRow body finding index now)).getD stored)

/-- The state `save_pushed_review_summary` commits. -/
def recordedSummary
    (s : HostedState)
    (body : PushedReviewSummaryBody) :
    HostedState :=
  { s with
    reviewJobs :=
      (s.reviewJobs.insert? (pushedRow body s.now)).getD
        (s.reviewJobs.alter body.reviewJobId
          (fun row => row.overwrittenBy body s.now)
          (fun row => row.overwrittenBy_id body s.now))
    reviewFindings :=
      insertPushedFindings body s.now body.findings.zipIdx s.reviewFindings }

/-- `save_pushed_review_summary`. -/
def savePushedReviewSummary
    (s : HostedState)
    (body : PushedReviewSummaryBody) :
    Except HostedError HostedState :=
  if s.installations.find? body.installationId = none then
    .error .foreignKeyViolation
  else if ¬ fitsBigint body.githubRepositoryId then
    .error .numericValueOutOfRange
  else if ¬ body.fitsSchema then
    .error .checkViolation
  else
    .ok (recordedSummary s body)

/-- The schema takes the body: its installation exists and its values fit their columns. -/
def PushedReviewSummaryBody.writable
    (body : PushedReviewSummaryBody)
    (s : HostedState) :
    Bool :=
  s.installations.find? body.installationId ≠ none ∧
    fitsBigint body.githubRepositoryId ∧ body.fitsSchema

theorem savePushedReviewSummary_of_writable
    {s : HostedState} {body : PushedReviewSummaryBody}
    (h : body.writable s = true) :
    savePushedReviewSummary s body = .ok (recordedSummary s body) := by
  simp only [PushedReviewSummaryBody.writable, decide_eq_true_eq] at h
  unfold savePushedReviewSummary
  rw [if_neg h.1, if_neg (not_not.mpr h.2.1), if_neg (not_not.mpr h.2.2)]

theorem savePushedReviewSummary_of_not_writable
    {s : HostedState} {body : PushedReviewSummaryBody}
    (h : ¬ body.writable s = true) :
    ∃ e, savePushedReviewSummary s body = .error e := by
  simp only [PushedReviewSummaryBody.writable, decide_eq_true_eq] at h
  unfold savePushedReviewSummary
  by_cases hinstalled : s.installations.find? body.installationId = none
  · exact ⟨_, if_pos hinstalled⟩
  · rw [if_neg hinstalled]
    by_cases hrepository : fitsBigint body.githubRepositoryId = true
    · rw [if_neg (not_not.mpr hrepository)]
      by_cases hfits : body.fitsSchema = true
      · exact absurd ⟨hinstalled, hrepository, hfits⟩ h
      · exact ⟨_, if_pos hfits⟩
    · exact ⟨_, if_pos hrepository⟩

/-- The upsert by job id: a new row, or the stored one with six columns replaced. -/
theorem recordedSummary_find?
    (s : HostedState) (body : PushedReviewSummaryBody) (j : Uuid) :
    (recordedSummary s body).reviewJobs.find? j =
      if j = body.reviewJobId then
        some
          (((s.reviewJobs.find? j).map (fun row => row.overwrittenBy body s.now)).getD
            (pushedRow body s.now))
      else
        s.reviewJobs.find? j := by
  unfold recordedSummary
  simp only
  have hid : (pushedRow body s.now).id = body.reviewJobId := rfl
  cases hinsert : s.reviewJobs.insert? (pushedRow body s.now) with
  | some t' =>
      have hfree := (Table.insert?_eq_some hinsert).1
      rw [hid] at hfree
      rw [Option.getD_some, Table.find?_insert? hinsert, hid]
      split
      · next hj =>
          subst hj
          rw [hfree]
          rfl
      · rfl
  | none =>
      obtain ⟨row, hrow⟩ := Table.insert?_eq_none_iff.mp hinsert
      rw [hid] at hrow
      rw [Option.getD_none, Table.find?_alter]
      split
      · next hj =>
          subst hj
          rw [hrow]
          rfl
      · rfl

/-- The reason of a denial as it stands in the response body. -/
def authorizationDenialText : AuthorizationDenialReason → String
  | .unknownInstallation => "unknown_installation"
  | .revokedInstallation => "revoked_installation"
  | .unknownRepository => "unknown_repository"
  | .unknownRunner => "unknown_runner"
  | .revokedRunner => "revoked_runner"
  | .runnerNotAssignedToRepository => "runner_not_assigned_to_repository"

/-- `push_review_summary_route`. -/
def pushReviewSummaryRoute
    (hashRunnerCredential : String → String)
    (s : HostedState)
    (bearer : Option String)
    (body : PushedReviewSummaryBody) :
    Except HostedError HostedState :=
  match authenticateBearer hashRunnerCredential s bearer with
  | .error e => .error e
  | .ok runner =>
      match
          authorizeRepository s body.installationId body.githubRepositoryId
            runner.runnerId with
      | .error reason => .error (.httpException 403 (authorizationDenialText reason))
      | .ok _ => savePushedReviewSummary s body

/-- The installations and repositories a signed-in viewer was granted. -/
structure LiveInstallationAssertion where
  installations : List (Int × List (Int × String))
deriving DecidableEq, Repr

/-- The viewer's installations grant this repository. -/
def LiveInstallationAssertion.grants
    (assertion : LiveInstallationAssertion)
    (installationId githubRepositoryId : Int) :
    Bool :=
  ∃ repositories ∈ assertion.installations.lookup installationId,
    (repositories.lookup githubRepositoryId).isSome

structure ReceiptContextSourceSummary where
  kind : String
  name : String
  reference : String
deriving DecidableEq, Repr

structure FindingReceiptSummary where
  provider : Option String
  model : Option String
  promptVersionId : Option Uuid
  inputTokens : Option Nat
  outputTokens : Option Nat
  costUsd : Option Decimal
  verificationStatus : String
  verificationReason : Option String
  sandboxRunId : Option String
  commandId : Option String
  verificationDetail : Option String
  contextSources : List ReceiptContextSourceSummary
deriving DecidableEq, Repr

structure ReviewFindingSummary where
  id : String
  concern : Concern
  severity : Severity
  category : String
  filePath : String
  lineStart : Nat
  lineEnd : Nat
  title : String
  rationale : String
  verified : Bool
  status : FindingStatus
  receipt : Option FindingReceiptSummary
deriving DecidableEq, Repr

structure ReviewSummary where
  reviewJobId : Uuid
  pullRequestNumber : Option Int
  headSha : Option String
  status : ReviewJobStatus
  stoppedEarly : Bool
  stoppedEarlyMessage : Option String
  createdAt : Nat
  findings : List ReviewFindingSummary
deriving DecidableEq, Repr

/-- `STOPPED_EARLY_MESSAGE`. -/
def stoppedEarlyMessage : String :=
  "This review stopped early: the provider ran out of tokens partway through. The findings " ++
  "below are still complete and trustworthy for the code they cover. Add credits or switch " ++
  "provider on your machine to finish reviewing the rest."

/-- `order by created_at`. -/
def orderByCreatedAt {ρ : Type} (createdAt : ρ → Nat) (rows : List ρ) : List ρ :=
  rows.insertionSort (fun r r' => createdAt r ≤ createdAt r')

/-- `order by created_at desc`. -/
def orderByCreatedAtDesc {ρ : Type} (createdAt : ρ → Nat) (rows : List ρ) : List ρ :=
  rows.insertionSort (fun r r' => createdAt r' ≤ createdAt r)

/-- `_finding_summary`, with the left join to `model_calls`. -/
def findingSummary
    (s : HostedState)
    (row : ReviewFindingRow) :
    ReviewFindingSummary :=
  let contextSources :=
    (orderByCreatedAt FindingContextSourceRow.createdAt
        (s.findingContextSources.filter (fun c => c.findingId = row.id))).map
      (fun c => ReceiptContextSourceSummary.mk c.kind c.name c.reference)
  let modelCall := row.modelCallId.bind s.modelCalls.find?
  let hasReceipt :=
    row.verified || !contextSources.isEmpty || row.verificationReason.any (· ≠ "")
  { id := row.id
    concern := row.concern
    severity := row.severity
    category := row.category
    filePath := row.filePath
    lineStart := row.lineStart
    lineEnd := row.lineEnd
    title := row.title
    rationale := row.rationale
    verified := row.verified
    status := row.status
    receipt :=
      if hasReceipt then
        some
          { provider := modelCall.map ModelCallRow.provider
            model := modelCall.map ModelCallRow.modelName
            promptVersionId := modelCall.bind ModelCallRow.promptVersionId
            inputTokens := modelCall.map ModelCallRow.inputTokens
            outputTokens := modelCall.map ModelCallRow.outputTokens
            costUsd := modelCall.map ModelCallRow.costUsd
            verificationStatus := if row.verified then "verified" else "asserted"
            verificationReason := row.verificationReason
            sandboxRunId := row.sandboxRunId
            commandId := row.commandId
            verificationDetail := row.verificationDetail
            contextSources := contextSources }
      else
        none }

/-- The rows of `review_findings` attached to one job. -/
def findingsOf
    (s : HostedState)
    (jobId : Uuid) :
    List ReviewFindingRow :=
  s.reviewFindings.rows.filter (fun f => f.reviewJobId = jobId)

/-- `_review_summary_for_job`. -/
def reviewSummaryForJob
    (s : HostedState)
    (row : ReviewJobRow) :
    ReviewSummary :=
  { reviewJobId := row.id
    pullRequestNumber := row.pullRequestNumber
    headSha := row.headSha
    status := row.status
    stoppedEarly := row.status = .stoppedEarly
    stoppedEarlyMessage :=
      if row.status = .stoppedEarly then some stoppedEarlyMessage else none
    createdAt := row.createdAt
    findings :=
      (orderByCreatedAt ReviewFindingRow.createdAt (findingsOf s row.id)).map
        (findingSummary s) }

/-- `reviews_for_repository`; `none` is the scope miss. -/
def reviewsForRepository
    (s : HostedState)
    (assertion : LiveInstallationAssertion)
    (installationId githubRepositoryId : Int) :
    Option (List ReviewSummary) :=
  if assertion.grants installationId githubRepositoryId then
    some
      ((orderByCreatedAtDesc ReviewJobRow.createdAt
          (s.reviewJobs.rows.filter (fun row =>
            row.installationId = some installationId ∧
              row.githubRepositoryId = some githubRepositoryId))).map
        (reviewSummaryForJob s))
  else
    none

/-- `review_by_id`. -/
def reviewById
    (s : HostedState)
    (assertion : LiveInstallationAssertion)
    (reviewJobId : String) :
    Option ReviewSummary :=
  match Uuid.parse? reviewJobId with
  | none => none
  | some parsedId =>
      match s.reviewJobs.find? parsedId with
      | none => none
      | some row =>
          match row.installationId, row.githubRepositoryId with
          | some installationId, some githubRepositoryId =>
              if assertion.grants installationId githubRepositoryId then
                some (reviewSummaryForJob s row)
              else
                none
          | _, _ => none

end Hosted
end PrReviewer
