import Mathlib.Data.List.Basic
import Mathlib.Tactic
import PrReviewer.Reviewer.Packing
import PrReviewer.Reviewer.RenderedLines

/-!
# When the packer returns

`pack_diff` raises where a file cannot be rendered, and where an included file's item is
rejected: `_line_range` reads the rendered text again, and the first number it finds is
above the last one where an old-side line of a small number is taken for a numbered line.
One such file ends the whole packing.
-/

namespace PrReviewer
namespace Reviewer

open Lib
open Github

section Files

variable (tables : UnicodeTables)

end Files

section Items

variable {tables : UnicodeTables}
variable {hexdigest : HexDigest}
variable {countTokens : PyStr → Int}
variable {options : PackOptions}

theorem lineRange_eq_ok_iff
    {content : PyStr} {range : Nat × Nat} :
    lineRange tables content = .ok range ↔
      ∃ numbers, collectNumbers tables false content.splitlines = .ok numbers ∧
        range = (numbers.head?.getD 0, numbers.getLast?.getD 0) := by
  constructor
  · intro h
    obtain ⟨numbers, hnumbers, h⟩ := bind_eq_ok h
    refine ⟨numbers, hnumbers, ?_⟩
    cases numbers with
    | nil =>
        cases h
        rfl
    | cons first rest =>
        rw [List.head?_cons, List.getLast?_cons] at h
        cases h
        rw [List.head?_cons, List.getLast?_cons]
        rfl
  · rintro ⟨numbers, hnumbers, rfl⟩
    rw [lineRange, hnumbers, ok_bind]
    cases numbers with
    | nil => rfl
    | cons first rest =>
        rw [List.head?_cons, List.getLast?_cons]
        rfl

/-- When an item is made of a text. -/
theorem exists_contextItem_iff
    {file : PullRequestFile} {content : PyStr} :
    (∃ item, contextItem tables hexdigest file content = .ok item) ↔
      ∃ numbers, collectNumbers tables false content.splitlines = .ok numbers ∧
        content.text?.isSome = true ∧
        ∀ first last, numbers.head? = some first → numbers.getLast? = some last →
          first ≤ last := by
  constructor
  · rintro ⟨item, h⟩
    obtain ⟨range, hrange, h⟩ := bind_eq_ok h
    obtain ⟨numbers, hnumbers, rfl⟩ := lineRange_eq_ok_iff.mp hrange
    refine ⟨numbers, hnumbers, ?_⟩
    simp only at h
    split at h
    · cases h
    · next text htext =>
        split at h
        · next hordered =>
            refine ⟨by rw [htext]; rfl, fun first last hfirst hlast => ?_⟩
            rwa [hfirst, hlast] at hordered
        · cases h
  · rintro ⟨numbers, hnumbers, htext, hordered⟩
    obtain ⟨text, htext⟩ := Option.isSome_iff_exists.mp htext
    have hrange : numbers.head?.getD 0 ≤ numbers.getLast?.getD 0 := by
      cases numbers with
      | nil => exact le_rfl
      | cons first rest =>
          rw [List.head?_cons, List.getLast?_cons] at hordered ⊢
          exact hordered _ _ rfl rfl
    rw [contextItem, lineRange_eq_ok_iff.mpr ⟨numbers, hnumbers, rfl⟩, ok_bind]
    simp only [htext, dif_pos hrange]
    exact ⟨_, rfl⟩

end Items

section Packing

variable (tables : UnicodeTables)
variable (hexdigest : HexDigest)
variable (countTokens : PyStr → Int)
variable (options : PackOptions)

/-- `pack_diff`, where the token counter is not negative. -/
theorem packDiff_eq_ok_iff
    {snapshot : PullRequestSnapshot} {budget : ContextBudget} {packed : PackedDiff}
    (hcounter : ∀ text, 0 ≤ countTokens text) :
    packDiff tables hexdigest countTokens options snapshot budget = .ok packed ↔
      Renderable tables options (orderedFiles options snapshot.files) ∧ ∃ items,
        (chosen tables countTokens options budget.tokens
          (orderedFiles options snapshot.files)).mapM (itemOf tables hexdigest) = .ok items ∧
        packed = {
          packingStrategyVersion := packingStrategyVersion
          items := items
          includedFiles := (chosen tables countTokens options budget.tokens
            (orderedFiles options snapshot.files)).map PullRequestFile.path
          omittedFiles := omissions tables countTokens options budget.tokens
            (orderedFiles options snapshot.files)
          promptTokens := (items.map (fun item => countTokens item.content)).sum.toNat
          coversAllChangedFiles := (omissions tables countTokens options budget.tokens
            (orderedFiles options snapshot.files)).isEmpty
          packingStrategyVersion_ne := by decide } := by
  have hsum : ∀ items : List ReviewContextItem,
      ¬ (items.map (fun item => countTokens item.content)).sum < 0 := by
    intro items
    rw [not_lt]
    refine List.sum_nonneg (fun tokens htokens => ?_)
    obtain ⟨item, _, rfl⟩ := List.mem_map.mp htokens
    exact hcounter item.content
  constructor
  · intro h
    obtain ⟨final, hfinal, h⟩ := bind_eq_ok h
    obtain ⟨hrenderable, items, hitems, rfl⟩ := foldlM_packFile_eq_ok_iff.mp hfinal
    simp only [if_neg (hsum _)] at h
    cases h
    exact ⟨hrenderable, items, hitems, rfl⟩
  · rintro ⟨hrenderable, items, hitems, rfl⟩
    rw [packDiff, foldlM_packFile_eq_ok_iff.mpr ⟨hrenderable, items, hitems, rfl⟩, ok_bind]
    simp only [if_neg (hsum _)]
    rfl

end Packing

/-! ## A table of columns that ends the packing -/

end Reviewer
end PrReviewer
