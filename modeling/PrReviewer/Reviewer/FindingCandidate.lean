import Mathlib.Tactic
import PrReviewer.Contracts
import PrReviewer.Lib.Text

/-!
# The findings a model drafts

contracts/finding_candidate.py.  A draft is what the model emits, a candidate what the
reviewer takes over from it; the constraints of the pydantic models are fields of the
structures.
-/

namespace PrReviewer
namespace Reviewer

open Lib

structure FindingDraft where
  concern : Concern
  severity : Severity
  category : String
  filePath : String
  lineStart : Nat
  lineEnd : Nat
  title : String
  rationale : String
  evidence : List PyStr
  confidence : Confidence
  texts_ne : "" ∉ [category, filePath, title, rationale]
  lines_ordered : 0 < lineStart ∧ lineStart ≤ lineEnd
  evidence_ne : evidence ≠ []

structure FindingCandidate where
  concern : Concern
  severity : Severity
  category : String
  filePath : String
  lineStart : Nat
  lineEnd : Nat
  title : String
  rationale : String
  evidence : List PyStr
  confidence : Confidence
  texts_ne : "" ∉ [category, filePath, title, rationale]
  lines_ordered : 0 < lineStart ∧ lineStart ≤ lineEnd
  evidence_ne : evidence ≠ []

/-- `candidate_from_draft`. -/
def candidateFromDraft (draft : FindingDraft) : FindingCandidate where
  concern := draft.concern
  severity := draft.severity
  category := draft.category
  filePath := draft.filePath
  lineStart := draft.lineStart
  lineEnd := draft.lineEnd
  title := draft.title
  rationale := draft.rationale
  evidence := draft.evidence
  confidence := draft.confidence
  texts_ne := draft.texts_ne
  lines_ordered := draft.lines_ordered
  evidence_ne := draft.evidence_ne

end Reviewer
end PrReviewer
