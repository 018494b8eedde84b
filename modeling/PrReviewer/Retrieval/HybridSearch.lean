import Mathlib.Data.List.Basic
import Mathlib.Tactic
import PrReviewer.Lib.Selection
import PrReviewer.Reviewer.ReviewContext

/-!
# Retrieved chunks beside a packed diff

retrieval/hybrid_search.py: the chunks that were found go into what the packed diff leaves
of the token budget.
-/

namespace PrReviewer
namespace Retrieval

open Lib
open Reviewer

variable (countTokens : PyStr → Int)

end Retrieval
end PrReviewer
