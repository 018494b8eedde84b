import Mathlib.Data.List.Basic
import Mathlib.Tactic
import PrReviewer.Contracts
import PrReviewer.Lib.Program
import PrReviewer.Reviewer.DiffBudget

/-!
# Posting a review

github/post_review.py.  `post_review` looks for an earlier post of its key, keeps the
public findings, anchors them in the patches, reads the live head and submits one review.

The callables it is given are operations of a program; each of them may raise.
-/

namespace PrReviewer
namespace Github

open Lib
open Hosted
open Reviewer

inductive Confidentiality where
  | restricted
  | ordinary
deriving DecidableEq, Repr

inductive CommentSide where
  | right
  | left
deriving DecidableEq, Repr

structure RouteDecision where
  allowPublicPost : Bool
  confidentiality : Confidentiality
deriving DecidableEq, Repr

structure ReviewComment where
  path : PyStr
  line : Int
  side : CommentSide
  body : PyStr
deriving DecidableEq, Repr

structure ReviewSubmission where
  commitId : PyStr
  body : PyStr
  comments : List ReviewComment
deriving DecidableEq, Repr

structure PostedReview where
  githubReviewId : Option PyStr
  commentIds : List PyStr
  responseStatus : Option Int
  body : PyStr
  comments : List ReviewComment
  summaryOnly : Bool
  idempotencyKey : PyStr
deriving DecidableEq, Repr

/-- The payload of the event `github.review_posted`. -/
structure ReviewPostedPayload where
  githubReviewId : PyStr
  responseStatus : Int
  commentCount : Nat
deriving DecidableEq, Repr

/-- What `post_review` and its callables raise. -/
inductive PostError where
  | stalePullRequestHead (message : PyStr)
  | timeoutException
  | python (error : PyException)
  | other (name : String)
deriving DecidableEq, Repr

/-- The callables `post_review` is given. -/
inductive PostOp where
  | lookup (key : PyStr)
  | listReviews (ref : PullRequestRef)
  | renderHunks (patch : FilePatch)
  | currentHeadSha
  | submit (submission : ReviewSubmission)
  | recordPost (posted : PostedReview)
  | recordEvent (jobId eventType : String) (payload : ReviewPostedPayload)

abbrev PostOp.Value : PostOp → Type
  | .lookup _ => Option PostedReview
  | .listReviews _ => List PostedReview
  | .renderHunks _ => PyStr
  | .currentHeadSha => PyStr
  | .submit _ => PostedReview
  | .recordPost _ => Unit
  | .recordEvent _ _ _ => Unit

abbrev PostOp.Result (op : PostOp) : Type :=
  Except PostError op.Value

abbrev PostProgram : Type → Type :=
  Program PostOp.Result PostError

/-- A call of a callable: what it raises is raised. -/
def callPost (op : PostOp) : PostProgram op.Value := do
  let result ← (Program.perform op : PostProgram op.Result)
  Program.ofExcept result

/-- Which of the optional callables were given. -/
structure PostCallables where
  lookup : Bool
  listReviews : Bool
  recordPost : Bool
  recordEvent : Bool

/-- The arguments of `post_review` that are no callables. -/
structure PostArguments where
  ref : PullRequestRef
  headSha : PyStr
  findings : List (Finding × RouteDecision)
  idempotencyKey : PyStr
  patches : List FilePatch

/-- `posting_idempotency_key`. -/
def postingIdempotencyKey (ref : PullRequestRef) (headSha policyVersion : PyStr) :
    Except PyException PyStr := do
  let number ← intText ref.number
  return .ofString ref.owner ++ (.ofString "/" ++ (.ofString ref.repository ++
    (.ofString "#" ++ (number ++ (.ofString "@" ++ (headSha ++
      (.ofString ":" ++ policyVersion)))))))

/-- `_marker`. -/
def marker (key : PyStr) : PyStr :=
  .ofString "<!-- pr-reviewer:post:" ++ (key ++ .ofString " -->")

/-- `reviewed_head_is_current` of github/lifecycle.py. -/
def reviewedHeadIsCurrent (reviewedHeadSha liveHeadSha : PyStr) : Bool :=
  reviewedHeadSha = liveHeadSha

/-- `_is_public`. -/
def isPublic (finding : Finding) (decision : RouteDecision) : Bool :=
  if finding.status = .rejected then false
  else if decision.confidentiality = .restricted then false
  else decision.allowPublicPost

/-- The findings `post_review` keeps. -/
def publicFindings (findings : List (Finding × RouteDecision)) : List Finding :=
  (findings.filter (fun p => isPublic p.1 p.2)).map Prod.fst

/-- The first listed review with the marker of the key in its body. -/
def markedReview (key : PyStr) (reviews : List PostedReview) : Option PostedReview :=
  (reviews.find? (fun review => review.body.contains (marker key))).map
    (fun review => { review with idempotencyKey := key })

/-- What the lookup of `_existing` finds, if there is one. -/
def lookedUp (key : PyStr) (given : PostCallables) : PostProgram (Option PostedReview) :=
  if given.lookup then callPost (.lookup key) else return none

/-- What the listing of `_existing` finds, if there is one. -/
def listed (key : PyStr) (ref : PullRequestRef) (given : PostCallables) :
    PostProgram (Option PostedReview) :=
  if given.listReviews then do
    let reviews ← callPost (.listReviews ref)
    return markedReview key reviews
  else
    return none

/-- `_existing`. -/
def existing (key : PyStr) (ref : PullRequestRef) (given : PostCallables) :
    PostProgram (Option PostedReview) := do
  let found ← lookedUp key given
  match found with
  | some review => return some review
  | none => listed key ref given

section PostReview

variable (tables : UnicodeTables)

/-- `_new_side_numbers`: the loop of `_line_range`, whose numbers become a set. -/
def newSideNumbers (rendered : PyStr) : Except PyException (List Nat) :=
  collectNumbers tables false rendered.splitlines

/-- The comment of a finding on a line the rendered patch shows. -/
def anchoredAt (finding : Finding) (patch : FilePatch) (numbers : List Nat) :
    Option ReviewComment :=
  if finding.lineStart ∈ numbers then
    some {
      path := .ofString patch.path
      line := finding.lineStart
      side := .right
      body := .ofString finding.title }
  else
    none

/-- The patch of the finding's file. -/
def patchOf (patches : List FilePatch) (finding : Finding) : Option FilePatch :=
  patches.find? (fun patch => patch.path = finding.filePath)

/-- `_anchor`. -/
def anchor (patches : List FilePatch) (finding : Finding) :
    PostProgram (Option ReviewComment) :=
  match patchOf patches finding with
  | none => return none
  | some patch => do
      let rendered ← callPost (.renderHunks patch)
      let numbers ← Program.ofExcept ((newSideNumbers tables rendered).mapError .python)
      return anchoredAt finding patch numbers

/-- The comments of the findings that have an anchor. -/
def inlineComments (patches : List FilePatch) : List Finding → PostProgram (List ReviewComment)
  | [] => return []
  | finding :: rest => do
      let comment ← anchor tables patches finding
      let comments ← inlineComments patches rest
      return comment.toList ++ comments

/-- The body of the review: the marker, and a line for each title. -/
def reviewBody (key : PyStr) (titles : List String) : PyStr :=
  marker key ++ (⟨[newline]⟩ ++ PyStr.join ⟨[newline]⟩
    (titles.map (fun title => .ofString "- " ++ .ofString title)))

/-- The submission of the public findings. -/
def submissionOf (args : PostArguments) (findings : List Finding)
    (inline : List ReviewComment) : ReviewSubmission where
  commitId := args.headSha
  body := reviewBody args.idempotencyKey (findings.map Finding.title)
  comments := inline

/-- The head check, and the submission with its recovery from a timeout. -/
def submitAtHead (args : PostArguments) (given : PostCallables)
    (submission : ReviewSubmission) : PostProgram PostedReview := do
  let live ← callPost .currentHeadSha
  if reviewedHeadIsCurrent args.headSha live then
    (callPost (.submit submission)).catching (fun error =>
      match error with
      | .timeoutException => do
          let recovered ← existing args.idempotencyKey args.ref given
          match recovered with
          | none => .raise .timeoutException
          | some posted => return posted
      | error => .raise error)
  else
    .raise (.stalePullRequestHead (.ofString "stale head: reviewed " ++ (args.headSha ++
      (.ofString " but live head is " ++ live))))

/-- The post with the fields `post_review` fills in. -/
def completedPost (submission : ReviewSubmission) (key : PyStr) (posted : PostedReview) :
    PostedReview :=
  { posted with
    idempotencyKey := key
    summaryOnly := submission.comments.isEmpty
    body := if posted.body.points.isEmpty then submission.body else posted.body
    comments := if posted.comments.isEmpty then submission.comments else posted.comments }

/-- `_emit`. -/
def emit (findings : List (Finding × RouteDecision)) (given : PostCallables)
    (posted : PostedReview) : PostProgram Unit :=
  match given.recordEvent, posted.githubReviewId, posted.responseStatus with
  | true, some githubReviewId, some responseStatus =>
      let jobId := (findings.head?.map (fun p => p.1.reviewJobId)).getD ""
      callPost (.recordEvent jobId "github.review_posted" {
        githubReviewId := githubReviewId
        responseStatus := responseStatus
        commentCount := posted.commentIds.length })
  | _, _, _ => return ()

/-- What `post_review` does with its public findings, up to the recording. -/
def postPublic (args : PostArguments) (given : PostCallables) (findings : List Finding) :
    PostProgram PostedReview := do
  let inline ← inlineComments tables args.patches findings
  let submission := submissionOf args findings inline
  let posted ← submitAtHead args given submission
  return completedPost submission args.idempotencyKey posted

/-- The call of `record_post`, if it was given. -/
def recordPosted (given : PostCallables) (posted : PostedReview) : PostProgram Unit :=
  if given.recordPost then callPost (.recordPost posted) else return ()

/-- What `post_review` does with a new post. -/
def recorded (args : PostArguments) (given : PostCallables) (posted : PostedReview) :
    PostProgram (Option PostedReview) := do
  recordPosted given posted
  emit args.findings given posted
  return some posted

/-- `post_review`. -/
def postReview (args : PostArguments) (given : PostCallables) :
    PostProgram (Option PostedReview) := do
  let found ← existing args.idempotencyKey args.ref given
  match found with
  | some review => return some review
  | none =>
      match publicFindings args.findings with
      | [] => return none
      | finding :: rest => do
          let posted ← postPublic tables args given (finding :: rest)
          recorded args given posted

end PostReview

end Github
end PrReviewer
