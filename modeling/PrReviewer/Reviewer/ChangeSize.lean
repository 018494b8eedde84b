import Mathlib.Data.List.Basic
import Mathlib.Tactic
import PrReviewer.Reviewer.DiffBudget

/-!
# The size of a change

`change_size` counts over the raw patch, `_split_hunk` renders the lines of its hunks.  The
count leaves out what looks like the two lines that name the files of a diff, also where
it is a changed line whose own text begins with two of the signs; and it takes in what
stands before the first header.
-/

namespace PrReviewer
namespace Reviewer

open Lib

/-- A line `_split_hunk` renders on one side only. -/
def isChanged (raw : PyStr) : Bool :=
  raw.startsWith (.ofString "+") || raw.startsWith (.ofString "-")

/-- A line that looks like one of those that name the files. -/
def namesFile (raw : PyStr) : Bool :=
  raw.startsWith (.ofString "+++") || raw.startsWith (.ofString "---")

/-- The number of `+` and `-` lines `_split_hunk` processes. -/
def changedLines (hunks : List Hunk) : Nat :=
  (hunks.flatMap Hunk.lines).countP (fun raw =>
    match markOf raw with
    | some (.added, _) => true
    | some (.removed, _) => true
    | _ => false)

/-- The changed lines of hunks that look like file names. -/
def hiddenLines (hunks : List Hunk) : Nat :=
  (hunks.flatMap Hunk.lines).countP (fun raw => namesFile raw && isChanged raw)

section Counting

variable {tables : UnicodeTables}

variable (tables) in
/-- The lines before the first header that are counted. -/
def looseLines (patch : PyStr) : Nat :=
  (patch.splitlines.takeWhile (fun raw => (hunkHeader tables raw).isNone)).countP
    (fun raw => !namesFile raw && isChanged raw)

theorem isChanged_eq
    (raw : PyStr) :
    isChanged raw =
      match markOf raw with
      | some (.added, _) => true
      | some (.removed, _) => true
      | _ => false := by
  have hplus : (PyStr.ofString "+").points = [Mark.point .added] := by decide +kernel
  have hminus : (PyStr.ofString "-").points = [Mark.point .removed] := by decide +kernel
  obtain ⟨points⟩ := raw
  cases points with
  | nil => decide
  | cons mark content =>
      have hstart : isChanged ⟨mark :: content⟩ =
          (decide (mark = Mark.point .added) || decide (mark = Mark.point .removed)) := by
        simp [isChanged, PyStr.startsWith, hplus, hminus, List.isPrefixOf, beq_eq_decide, eq_comm]
      rw [hstart]
      by_cases hadded : mark = Mark.point .added
      · subst hadded
        simp [show markOf ⟨Mark.point .added :: content⟩ = some (.added, ⟨content⟩) from rfl]
      · by_cases hremoved : mark = Mark.point .removed
        · subst hremoved
          simp [show markOf ⟨Mark.point .removed :: content⟩ = some (.removed, ⟨content⟩) from rfl]
        · by_cases hcontext : mark = Mark.point .context
          · subst hcontext
            rfl
          · simp [markOf, hadded, hremoved, hcontext]

/-- A header is no changed line. -/
theorem isChanged_header
    {raw start : PyStr}
    (h : hunkHeader tables raw = some start) :
    isChanged raw = false := by
  rw [isChanged_eq]
  have hhead : raw.points.head? = some 0x40 := by
    by_contra hne
    rw [hunkHeader_of_head hne] at h
    cases h
  obtain ⟨points⟩ := raw
  cases points with
  | nil => cases hhead
  | cons c cs =>
      cases hhead
      rfl

/-- The lines behind the first header are those of the hunks. -/
theorem countP_lines
    {p : PyStr → Bool}
    (hp : ∀ raw start, hunkHeader tables raw = some start → p raw = false)
    {hunk : Hunk} {lines : List PyStr} {hunks : List Hunk}
    (h : parseHunksFrom tables (some hunk) lines = .ok hunks) :
    (hunks.flatMap Hunk.lines).countP p = hunk.lines.countP p + lines.countP p := by
  induction lines generalizing hunk hunks with
  | nil =>
      cases h
      simp
  | cons raw rest ih =>
      rw [parseHunksFrom] at h
      cases hheader : hunkHeader tables raw with
      | some start =>
          rw [hheader] at h
          simp only at h
          split at h
          · cases h
          · obtain ⟨found, hfound, h⟩ := bind_eq_ok h
            cases h
            have hrest := ih hfound
            have hnot : ¬ p raw = true := by simp [hp raw start hheader]
            rw [Option.toList_some, List.singleton_append, List.flatMap_cons, List.countP_append,
              hrest, List.countP_cons_of_neg hnot, List.countP_nil, Nat.zero_add]
      | none =>
          rw [hheader] at h
          have hrest := ih h
          simp only [List.countP_append, List.countP_singleton] at hrest
          rw [hrest, List.countP_cons]
          omega

theorem countP_parseHunks
    {p : PyStr → Bool}
    (hp : ∀ raw start, hunkHeader tables raw = some start → p raw = false)
    {lines : List PyStr} {hunks : List Hunk}
    (h : parseHunksFrom tables none lines = .ok hunks) :
    lines.countP p =
      (lines.takeWhile (fun raw => (hunkHeader tables raw).isNone)).countP p +
        (hunks.flatMap Hunk.lines).countP p := by
  induction lines generalizing hunks with
  | nil =>
      cases h
      rfl
  | cons raw rest ih =>
      rw [parseHunksFrom] at h
      cases hheader : hunkHeader tables raw with
      | some start =>
          rw [hheader] at h
          simp only at h
          split at h
          · cases h
          · obtain ⟨found, hfound, h⟩ := bind_eq_ok h
            cases h
            have hrest := countP_lines hp hfound
            rw [List.countP_cons_of_neg (by simp [hp raw start hheader]),
              List.takeWhile_cons_of_neg (by simp [hheader])]
            simp [hrest]
      | none =>
          rw [hheader] at h
          have hrest := ih h
          rw [List.takeWhile_cons_of_pos (by simp [hheader]), List.countP_cons, List.countP_cons,
            hrest]
          omega

/-- What is counted, apart from what is hidden and what is loose. -/
theorem changeSize_add_hidden
    {patch : PyStr} {hunks : List Hunk}
    (h : parseHunks tables patch = .ok hunks) :
    changeSize (some patch) + hiddenLines hunks = changedLines hunks + looseLines tables patch := by
  have hcount := countP_parseHunks (p := fun raw => !namesFile raw && isChanged raw)
    (fun raw start hheader => by simp [isChanged_header hheader]) h
  have hsplit : ∀ lines : List PyStr,
      lines.countP (fun raw => !namesFile raw && isChanged raw) +
        lines.countP (fun raw => namesFile raw && isChanged raw) = lines.countP isChanged := by
    intro lines
    induction lines with
    | nil => rfl
    | cons raw lines ih =>
        simp only [List.countP_cons]
        cases namesFile raw <;> cases isChanged raw <;> simp <;> omega
  have hhunks := hsplit (hunks.flatMap Hunk.lines)
  have hchanged : changedLines hunks = (hunks.flatMap Hunk.lines).countP isChanged :=
    List.countP_congr (fun raw _ => by rw [isChanged_eq])
  rw [hchanged, hiddenLines, looseLines, changeSize]
  change patch.splitlines.countP (fun raw => !namesFile raw && isChanged raw) + _ = _
  omega

/-- `change_size` is the number of the changed lines where as many are hidden as loose. -/
theorem change_size_eq_iff
    (tables : UnicodeTables) (patch : PyStr) :
    (∃ hunks, parseHunks tables patch = .ok hunks ∧
        changeSize (some patch) = changedLines hunks) ↔
      ∃ hunks, parseHunks tables patch = .ok hunks ∧
        hiddenLines hunks = looseLines tables patch := by
  refine exists_congr (fun hunks => and_congr_right (fun hhunks => ?_))
  have hsize := changeSize_add_hidden hhunks
  omega

end Counting

/-- A removed line of two dashes is left out of the count. -/
theorem removed_dashes_not_counted :
    changeSize (some (.ofString "@@ -1,2 +1,1 @@\n title\n---")) = 0 ∧
      (parseHunks bareTables (.ofString "@@ -1,2 +1,1 @@\n title\n---")).map changedLines =
        .ok 1 := by
  decide +kernel

end Reviewer
end PrReviewer
