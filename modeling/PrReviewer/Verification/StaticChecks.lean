import Mathlib.Data.Finset.Basic
import Mathlib.Tactic
import PrReviewer.Github.PullRequest
import PrReviewer.Lib.Dict
import PrReviewer.Reviewer.FindingCandidate
import PrReviewer.Reviewer.HunkFormat

/-!
# The static checks of a finding

verification/static_checks.py: `_new_side_lines` walks the raw patch and collects the
numbers of the new-side lines, and `check_static` wants one of them in the finding.
-/

namespace PrReviewer
namespace Verification

open Lib
open Github
open Reviewer

inductive VerificationStatus where
  | passed
  | failed
  | inconclusive
  | notApplicable
deriving DecidableEq, Repr

structure VerificationResult where
  status : VerificationStatus
  method : VerificationMethod
  routeToHuman : Bool
  detail : PyStr
deriving DecidableEq, Repr

/-- `mark in {" ", "+"}`; a line that is skipped has another mark. -/
def isNewSide (raw : PyStr) : Bool :=
  match markOf raw with
  | some (.context, _) => true
  | some (.added, _) => true
  | _ => false

variable (tables : UnicodeTables)

/-- The loop of `_new_side_lines`; there is no number before the first header. -/
def newSideLinesFrom (newNo : Option Int) : List PyStr → Except PyException (List Int)
  | [] => .ok []
  | raw :: rest =>
      match hunkHeader tables raw with
      | some start =>
          match intOfText tables start with
          | none => .error .valueError
          | some number => newSideLinesFrom (some number) rest
      | none =>
          match newNo with
          | none => newSideLinesFrom none rest
          | some number =>
              if isNewSide raw then do
                let lines ← newSideLinesFrom (some (number + 1)) rest
                return number :: lines
              else
                newSideLinesFrom (some number) rest

/-- `_new_side_lines`. -/
def newSideLines (patch : PyStr) : Except PyException (Finset Nat) := do
  let lines ← newSideLinesFrom tables none patch.splitlines
  return (lines.map Int.toNat).toFinset

/-- `{item.path: item for item in snapshot.files}`. -/
def filesByPath (files : List PullRequestFile) : List (String × PullRequestFile) :=
  files.foldl (fun items item => dictSet items item.path item) []

/-- `check_static`. -/
def checkStatic (candidate : FindingCandidate) (snapshot : PullRequestSnapshot)
    (requiredHeadSha : String) : Except PyException VerificationResult :=
  if candidate.evidence.any (fun item => item.strip tables == ⟨[]⟩) then
    .ok ⟨.failed, .static, true, .ofString "evidence text is blank"⟩
  else if snapshot.headSha ≠ requiredHeadSha then
    .ok ⟨.inconclusive, .static, true, .ofString "head sha is stale"⟩
  else
    match (filesByPath snapshot.files).lookup candidate.filePath with
    | none =>
        .ok ⟨.failed, .static, true,
          .ofString ("file " ++ candidate.filePath ++ " is not in the snapshot")⟩
    | some file => do
        let changed ← newSideLines tables (file.patch.getD ⟨[]⟩)
        if (changed.filter (fun line =>
            candidate.lineStart ≤ line ∧ line ≤ candidate.lineEnd)).card = 0 then
          return ⟨.failed, .static, true,
            .ofString "finding lines are not in the changed hunks"⟩
        else
          return ⟨.passed, .static, false, .ofString "static checks passed"⟩

end Verification
end PrReviewer
