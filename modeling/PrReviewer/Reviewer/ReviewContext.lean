import Mathlib.Data.List.Basic
import Mathlib.Tactic
import PrReviewer.Github.PullRequest
import PrReviewer.Security.PromptBoundaries

/-!
# The packed review context

contracts/review_context.py, with the section of the prompt that names the omitted
files.  The constraints of the pydantic models are fields of the structures.
-/

namespace PrReviewer
namespace Reviewer

open Lib
open Github
open Security

def packingStrategyVersion : String := "v1-sensitivity-desc-change-size-desc-path-asc"

theorem packingStrategyVersion_nonempty :
    packingStrategyVersion ≠ "" := by
  decide

/-- Tokens the packer may spend. -/
structure ContextBudget where
  tokens : Nat

structure FilePatch where
  path : String
  patch : PyStr
  previousPath : Option PyStr
  path_ne : path ≠ ""

/-- `Literal["diff_file"]`. -/
inductive SourceKind where
  | diffFile
deriving DecidableEq, Repr

structure ReviewContextItem where
  sourceKind : SourceKind
  filePath : String
  lineStart : Nat
  lineEnd : Nat
  content : PyStr
  contentHash : String
  filePath_ne : filePath ≠ ""
  contentHash_length : contentHash.length = 64
  ordered : lineStart ≤ lineEnd

structure OmittedFile where
  path : String
  reason : OmissionReason
  changeSize : Nat
  path_ne : path ≠ ""

structure PackedDiff where
  packingStrategyVersion : String
  items : List ReviewContextItem
  includedFiles : List String
  omittedFiles : List OmittedFile
  promptTokens : Nat
  coversAllChangedFiles : Bool
  packingStrategyVersion_ne : packingStrategyVersion ≠ ""

/-- One line of `omission_prompt_section`. -/
def omissionLine (item : OmittedFile) : Except RuntimeError PyStr := do
  let path ← wrapUntrusted (.ofString "omitted_path") ⟨.ofString item.path⟩
  return path ++ .ofString ": " ++ .ofString item.reason.value

/-- `omission_prompt_section`. -/
def omissionPromptSection (packed : PackedDiff) : Except RuntimeError PyStr := do
  let lines ← packed.omittedFiles.mapM omissionLine
  return PyStr.join (.ofString "\n") (.ofString "Omitted files:" :: lines)

/-- What stands behind the block of an omitted path. -/
def reasonText (reason : OmissionReason) : PyStr :=
  .ofString ": " ++ .ofString reason.value

theorem omissionLine_eq
    (item : OmittedFile) :
    omissionLine item =
      .ok (block (bare (.ofString "omitted_path")) (bare (.ofString item.path)) ++
        reasonText item.reason) := by
  rw [omissionLine, wrapUntrusted_eq, ok_bind, PyStr.append_assoc]
  rfl

theorem omissionPromptSection_eq
    (packed : PackedDiff) :
    omissionPromptSection packed =
      .ok (PyStr.join (.ofString "\n") (.ofString "Omitted files:" ::
        packed.omittedFiles.map (fun item =>
          block (bare (.ofString "omitted_path")) (bare (.ofString item.path)) ++
            reasonText item.reason))) := by
  rw [omissionPromptSection, mapM_eq_ok (fun item _ => omissionLine_eq item), ok_bind]
  rfl

end Reviewer
end PrReviewer
