import PrReviewer.Hosted.ReviewProjection

/-!
# Records of a review

`record_model_call` and `project_review`: the writers of `model_calls`,
`review_findings` and `finding_context_sources` beside the pushed summaries.  A record
refers to the review job it was made for, and the schema lets no record go: there is no
statement in the source that deletes one.

The ids the database draws are arguments.  `promptVersions` are the keys of
`prompt_versions`.
-/

namespace PrReviewer
namespace Hosted

open Lib

/-- `ModelProviderName`. -/
inductive ModelProviderName where
  | openai
  | anthropic
deriving DecidableEq, Repr

def ModelProviderName.text : ModelProviderName → String
  | .openai => "openai"
  | .anthropic => "anthropic"

structure ModelCallInput where
  reviewJobId : Uuid
  provider : ModelProviderName
  model : String
  promptVersionId : Uuid
  inputTokens : Int
  outputTokens : Int
  costUsd : Decimal
  latencyMs : Int
deriving DecidableEq, Repr

/-- `COST_USD_PATTERN`: six digits before the point, twelve after it. -/
def isCostUsd (text : String) : Bool :=
  let whole := text.toList.takeWhile (· ≠ '.')
  let rest := text.toList.dropWhile (· ≠ '.')
  (whole = ['0'] ||
    (whole.all Char.isDigit && 1 ≤ whole.length && whole.length ≤ 6 &&
      whole.head? ≠ some '0')) &&
    match rest with
    | [] => true
    | _ :: decimals =>
        decimals.all Char.isDigit && 1 ≤ decimals.length && decimals.length ≤ 12

/-- `validate_model_call_input`. -/
def validateModelCallInput (input : ModelCallInput) : Except HostedError Unit :=
  if input.inputTokens < 0 then
    .error (.typeError "input_tokens must be a non-negative integer")
  else if input.outputTokens < 0 then
    .error (.typeError "output_tokens must be a non-negative integer")
  else if input.latencyMs < 0 then
    .error (.typeError "latency_ms must be a non-negative integer")
  else if ¬ isCostUsd input.costUsd.text then
    .error
      (.typeError "cost_usd must be a non-negative decimal string with at most 12 decimals")
  else
    .ok ()

/-- The row of a model call. -/
def ModelCallInput.row (input : ModelCallInput) (drawnId : Uuid) (now : Nat) : ModelCallRow where
  id := drawnId
  reviewJobId := input.reviewJobId
  provider := input.provider.text
  modelName := input.model
  promptVersionId := some input.promptVersionId
  inputTokens := input.inputTokens.toNat
  outputTokens := input.outputTokens.toNat
  costUsd := input.costUsd
  createdAt := now

def ModelCallInput.payload (input : ModelCallInput) (drawnId : Uuid) : AgentEventPayload :=
  .modelCallRecorded drawnId input.provider.text input.model input.promptVersionId
    input.inputTokens.toNat input.outputTokens.toNat input.costUsd input.latencyMs.toNat

/-- `record_model_call`. -/
def recordModelCall
    (promptVersions : List Uuid)
    (s : HostedState)
    (drawnId : Uuid)
    (input : ModelCallInput) :
    Except HostedError HostedState :=
  match validateModelCallInput input with
  | .error e => .error e
  | .ok _ =>
      if ¬ fitsText input.model then
        .error .dataError
      else if ¬ (fitsInteger input.inputTokens ∧ fitsInteger input.outputTokens ∧
          fitsInteger input.latencyMs) then
        .error .numericValueOutOfRange
      else if s.reviewJobs.find? input.reviewJobId = none ∨
          input.promptVersionId ∉ promptVersions then
        .error .foreignKeyViolation
      else
        match s.modelCalls.insert? (input.row drawnId s.now) with
        | none => .error .uniqueViolation
        | some modelCalls =>
            .ok (insertAgentEvent { s with modelCalls := modelCalls } input.reviewJobId
              "model_call.recorded" (input.payload drawnId))

/-- `ReceiptContextSourceInput`; its kind is one of four words. -/
structure ReceiptContextSourceInput where
  kind : String
  name : String
  reference : String
  kind_mem : kind ∈ ["diff", "retrieval", "profile", "graph"]
deriving DecidableEq, Repr

structure ReceiptInput where
  findingId : String
  reviewJobId : String
  promptVersionId : Uuid
  contextSources : List ReceiptContextSourceInput
  verified : Bool
  verificationReason : Option String
  sandboxRunId : Option String
  commandId : Option String
  verificationDetail : Option String
deriving DecidableEq, Repr

/-- `receipts_by_finding_id.get`: of two receipts for one finding the later counts. -/
def receiptFor (receipts : List ReceiptInput) (findingId : String) : Option ReceiptInput :=
  receipts.reverse.find? (fun receipt => receipt.findingId = findingId)

/-- `findings_by_id.get`. -/
def findingById (findings : List Finding) (findingId : String) : Option Finding :=
  findings.reverse.find? (fun finding => finding.id = findingId)

/-- `str(value)` of a `bool`. -/
def boolText (value : Bool) : String :=
  if value then "True" else "False"

/-- The receipt of a finding says otherwise about its verification. -/
def contradictedBy
    (findings : List Finding) (receipts : List ReceiptInput) (findingId : String) :
    Option HostedError :=
  match receiptFor receipts findingId, findingById findings findingId with
  | some receipt, some finding =>
      if receipt.verified ≠ finding.verified then
        some (.valueError
          ("finding " ++ findingId ++ " has verified=" ++ boolText finding.verified ++
            " but its receipt says verified=" ++ boolText receipt.verified ++
            ": never style an unverified finding as verified"))
      else
        none
  | _, _ => none

/-- The checks `project_review` makes before its transaction. -/
def validateProjection
    (reviewJobId : Uuid) (findings : List Finding) (receipts : List ReceiptInput) :
    Except HostedError Unit :=
  match findings.find? (fun finding => finding.reviewJobId ≠ reviewJobId.text) with
  | some finding =>
      .error (.valueError
        ("finding " ++ finding.id ++ " belongs to review_job_id " ++ finding.reviewJobId ++
          ", not " ++ reviewJobId.text))
  | none =>
      match receipts.find? (fun receipt => receipt.reviewJobId ≠ reviewJobId.text) with
      | some receipt =>
          .error (.valueError
            ("receipt for finding " ++ receipt.findingId ++ " belongs to review_job_id " ++
              receipt.reviewJobId ++ ", not " ++ reviewJobId.text))
      | none =>
          match
              ((receipts.map ReceiptInput.findingId).eraseDups).findSome?
                (contradictedBy findings receipts) with
          | some e => .error e
          | none => .ok ()

/-- The model call a receipt cites: the latest of its prompt version for the job. -/
def citedModelCall (s : HostedState) (reviewJobId promptVersionId : Uuid) : Option Uuid :=
  ((orderByCreatedAtDesc ModelCallRow.createdAt
    (s.modelCalls.rows.filter (fun call =>
      call.reviewJobId = reviewJobId ∧ call.promptVersionId = some promptVersionId))).head?).map
    ModelCallRow.id

/-- The row `project_review` inserts for a finding, which belongs to the job by then. -/
def projectedFindingRow
    (s : HostedState) (reviewJobId : Uuid) (finding : Finding) (receipt : Option ReceiptInput) :
    ReviewFindingRow where
  id := finding.id
  reviewJobId := reviewJobId
  concern := finding.concern
  severity := finding.severity
  category := finding.category
  filePath := finding.filePath
  lineStart := finding.lineStart
  lineEnd := finding.lineEnd
  title := finding.title
  rationale := finding.rationale
  confidence := finding.confidence
  verified := finding.verified
  verificationMethod := finding.verificationMethod
  publicSafe := finding.publicSafe
  status := finding.status
  modelCallId := receipt.bind (fun r => citedModelCall s reviewJobId r.promptVersionId)
  verificationReason := receipt.bind ReceiptInput.verificationReason
  sandboxRunId := receipt.bind ReceiptInput.sandboxRunId
  commandId := receipt.bind ReceiptInput.commandId
  verificationDetail := receipt.bind ReceiptInput.verificationDetail
  createdAt := s.now

/-- The context sources of a receipt, as rows. -/
def contextSourceRows
    (finding : Finding) (receipt : Option ReceiptInput) (now : Nat) :
    List FindingContextSourceRow :=
  (receipt.map ReceiptInput.contextSources).getD [] |>.map (fun source =>
    { findingId := finding.id
      kind := source.kind
      name := source.name
      reference := source.reference
      createdAt := now })

/-- The texts written for a finding: of the finding itself and of its receipt. -/
def projectedTexts (finding : Finding) (receipt : Option ReceiptInput) : List String :=
  [finding.id, finding.category, finding.filePath, finding.title, finding.rationale] ++
    receipt.toList.flatMap (fun r =>
      r.verificationReason.toList ++ r.sandboxRunId.toList ++ r.commandId.toList ++
        r.verificationDetail.toList ++
        r.contextSources.flatMap (fun source => [source.name, source.reference]))

/-- What refuses the rows of a finding: a text, its last line, its confidence. -/
def projectionRefusal (finding : Finding) (receipt : Option ReceiptInput) : Option HostedError :=
  if ¬ (projectedTexts finding receipt).all fitsText then
    some .dataError
  else if ¬ fitsInteger finding.lineEnd then
    some .numericValueOutOfRange
  else if finding.confidence = .nan then
    -- `numeric` puts NaN above every number
    some .checkViolation
  else
    none

/-- The transaction of `project_review`: the findings one after the other. -/
def insertProjectedFindings
    (reviewJobId : Uuid) (receipts : List ReceiptInput) :
    List Finding → HostedState → Except HostedError HostedState
  | [], s => .ok s
  | finding :: rest, s =>
      match projectionRefusal finding (receiptFor receipts finding.id) with
      | some e => .error e
      | none =>
          if s.reviewJobs.find? reviewJobId = none then
            .error .foreignKeyViolation
          else
            match
                s.reviewFindings.insert?
                  (projectedFindingRow s reviewJobId finding
                    (receiptFor receipts finding.id)) with
            | none => .error .uniqueViolation
            | some reviewFindings =>
                insertProjectedFindings reviewJobId receipts rest
                  { s with
                    reviewFindings := reviewFindings
                    findingContextSources := s.findingContextSources ++
                      contextSourceRows finding (receiptFor receipts finding.id) s.now }

/-- `project_review`. -/
def projectReview
    (s : HostedState)
    (reviewJobId : Uuid) (findings : List Finding) (receipts : List ReceiptInput) :
    Except HostedError HostedState :=
  match validateProjection reviewJobId findings receipts with
  | .error e => .error e
  | .ok _ => insertProjectedFindings reviewJobId receipts findings s

end Hosted
end PrReviewer
