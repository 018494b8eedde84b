import Mathlib.Data.Finset.Basic
import Mathlib.Tactic
import PrReviewer.Github.PostReview
import PrReviewer.Reviewer.Candidates
import PrReviewer.Verification.StaticChecks

/-!
# The new-side lines of a file

Three components decide which lines of a file a finding may name: the static checks walk
the raw patch, the reviewer and the poster read the rendered hunks again.  The numbers of
the raw patch are those its headers and marks give.  The readers of the rendered hunks find
the same ones, unless an old-side line is taken for a header and one behind it for a
numbered line.
-/

namespace PrReviewer
namespace Reviewer

open Lib
open Github

section Agreement

variable {tables : UnicodeTables}

/-- The numbers of the new-side lines of hunks: what their headers and marks say. -/
def numbersOf (hunks : List Hunk) : Finset Nat :=
  (hunks.flatMap Hunk.numbers).toFinset

/-- The number the next new-side line of a hunk would have. -/
def Hunk.next (hunk : Hunk) : Int :=
  hunk.newStart + (newContents hunk.lines).length

theorem newContents_singleton
    (raw : PyStr) :
    (newContents [raw]).length = if Verification.isNewSide raw then 1 else 0 := by
  cases hmark : markOf raw with
  | none => simp [newContents, Verification.isNewSide, hmark]
  | some marked =>
      obtain ⟨mark, content⟩ := marked
      cases mark <;> simp [newContents, Verification.isNewSide, hmark]

/-- A line of a hunk takes the next number, or none. -/
theorem numbers_append_line
    {hunk : Hunk} (raw : PyStr)
    (hnonneg : 0 ≤ hunk.newStart) :
    let longer : Hunk := { hunk with lines := hunk.lines ++ [raw] }
    longer.next = (if Verification.isNewSide raw then hunk.next + 1 else hunk.next) ∧
      longer.numbers = hunk.numbers ++
        if Verification.isNewSide raw then [hunk.next.toNat] else [] := by
  have hlength : (newContents (hunk.lines ++ [raw])).length = (newContents hunk.lines).length +
      if Verification.isNewSide raw then 1 else 0 := by
    rw [newContents_append, List.length_append, newContents_singleton]
  simp only [Hunk.next, Hunk.numbers, hlength]
  split
  · refine ⟨by omega, ?_⟩
    have hlast : hunk.newStart.toNat + (newContents hunk.lines).length =
        (hunk.newStart + ((newContents hunk.lines).length : Int)).toNat := by omega
    rw [List.range'_concat, Nat.one_mul, hlast]
  · simp

variable (tables) in
/-- The walk over the raw patch, behind the lines of the hunk that is open. -/
theorem newSideLinesFrom_eq
    (current : Option Hunk) (lines : List PyStr)
    (hcurrent : ∀ hunk ∈ current, 0 ≤ hunk.newStart) :
    (Verification.newSideLinesFrom tables (current.map Hunk.next) lines).map
        (fun numbers => current.toList.flatMap Hunk.numbers ++ numbers.map Int.toNat) =
      (parseHunksFrom tables current lines).map (List.flatMap Hunk.numbers) := by
  induction lines generalizing current with
  | nil => simp [Verification.newSideLinesFrom, parseHunksFrom, Except.map]
  | cons raw rest ih =>
      cases hheader : hunkHeader tables raw with
      | some start =>
          simp only [Verification.newSideLinesFrom, parseHunksFrom, hheader]
          cases hread : intOfText tables start with
          | none => rfl
          | some newStart =>
              have hnonneg : 0 ≤ newStart := intOfText_nonneg
                (transformDecimalAndSpace_isDecimal (hunkHeader_isDecimal hheader)) hread
              have hopened := ih (some ⟨newStart, []⟩) (by simpa using hnonneg)
              have hnext : (some (Hunk.mk newStart [])).map Hunk.next = some newStart := by
                simp [Hunk.next, newContents]
              have hnone : (some (Hunk.mk newStart [])).toList.flatMap Hunk.numbers = [] := by
                simp [Hunk.numbers, newContents]
              rw [hnext, hnone] at hopened
              have hjoined := congrArg
                (Except.map (fun numbers => current.toList.flatMap Hunk.numbers ++ numbers)) hopened
              change Except.map _ (Verification.newSideLinesFrom tables (some newStart) rest) =
                Except.map _ (parseHunksFrom tables (some ⟨newStart, []⟩) rest >>= fun hunks =>
                  pure (current.toList ++ hunks))
              generalize Verification.newSideLinesFrom tables (some newStart) rest = walked
                at hjoined ⊢
              generalize parseHunksFrom tables (some ⟨newStart, []⟩) rest = parsed at hjoined ⊢
              cases walked <;> cases parsed <;>
                simp_all [Except.map, bind, Except.bind, pure, Except.pure]
      | none =>
          cases current with
          | none =>
              simp only [Verification.newSideLinesFrom, parseHunksFrom, hheader, Option.map_none]
              exact ih none (by simp)
          | some hunk =>
              have hnonneg := hcurrent hunk rfl
              obtain ⟨hnext, hnumbers⟩ := numbers_append_line raw hnonneg
              have hlonger := ih (some { hunk with lines := hunk.lines ++ [raw] }) (by simpa using hnonneg)
              rw [Option.map_some, hnext] at hlonger
              simp only [Verification.newSideLinesFrom, parseHunksFrom, hheader, Option.map_some,
                ← hlonger, Option.toList_some, List.flatMap_singleton, hnumbers]
              split
              · cases Verification.newSideLinesFrom tables (some (hunk.next + 1)) rest <;>
                  simp [Except.map, bind, Except.bind, pure, Except.pure]
              · simp

/-- `_new_side_lines` of the static checks reads the headers and the marks, and no content. -/
theorem staticNewSideLines_eq
    (patch : PyStr) :
    Verification.newSideLines tables patch = (parseHunks tables patch).map numbersOf := by
  have hwalk := newSideLinesFrom_eq tables none patch.splitlines (by simp)
  simp only [Option.map_none, Option.toList_none, List.flatMap_nil, List.nil_append] at hwalk
  have hset := congrArg (Except.map List.toFinset) hwalk
  rw [Verification.newSideLines, parseHunks]
  generalize Verification.newSideLinesFrom tables none patch.splitlines = walked at hset
  generalize parseHunksFrom tables none patch.splitlines = parsed at hset
  cases walked <;> cases parsed <;>
    simp_all [Except.map, bind, Except.bind, pure, Except.pure, numbersOf]

variable (tables) in
/-- The three components find the same lines of the file. -/
def LinesAgree (filePatch : FilePatch) : Prop :=
  (do
    let rendered ← renderHunks tables filePatch
    newSideLines tables rendered) = Verification.newSideLines tables filePatch.patch ∧
  (do
    let rendered ← renderHunks tables filePatch
    let numbers ← newSideNumbers tables rendered
    return numbers.toFinset) = Verification.newSideLines tables filePatch.patch

variable (tables) in
/--
The numbers of the hunks can be written, and a number that is read of an old-side line,
if there is one, is readable and one of them.
-/
def Undisturbed (patch : PyStr) : Prop :=
  ∀ hunks, parseHunks tables patch = .ok hunks → ∀ hunk ∈ hunks,
    Printable hunk.newStart.toNat hunk.lines ∧ hunk.StraysReadable tables ∧
      ∀ number ∈ hunk.strayNumbers tables, number ∈ numbersOf hunks

theorem unbroken_oldPath
    {filePatch : FilePatch}
    (hpath : Unbroken (.ofString filePatch.path))
    (hprevious : ∀ previous, filePatch.previousPath = some previous → Unbroken previous) :
    Unbroken (oldPath filePatch) := by
  unfold oldPath
  split
  · exact hpath
  · next previous hsome =>
      split
      · exact hpath
      · exact hprevious previous hsome

variable (tables) in
/-- The strays of hunks add no number. -/
theorem toFinset_strays_iff
    (hunks : List Hunk) :
    (hunks.flatMap (fun hunk => hunk.numbers ++ hunk.strayNumbers tables)).toFinset =
        numbersOf hunks ↔
      ∀ hunk ∈ hunks, ∀ number ∈ hunk.strayNumbers tables, number ∈ numbersOf hunks := by
  constructor
  · intro hsame hunk hhunk number hnumber
    rw [← hsame, List.mem_toFinset, List.mem_flatMap]
    exact ⟨hunk, hhunk, List.mem_append_right _ hnumber⟩
  · intro hstrays
    ext number
    simp only [List.mem_toFinset, List.mem_flatMap, List.mem_append]
    constructor
    · rintro ⟨hunk, hhunk, hnumber | hnumber⟩
      · exact List.mem_toFinset.mpr (List.mem_flatMap.mpr ⟨hunk, hhunk, hnumber⟩)
      · exact hstrays hunk hhunk number hnumber
    · intro hnumber
      obtain ⟨hunk, hhunk, hnumber⟩ := List.mem_flatMap.mp (List.mem_toFinset.mp hnumber)
      exact ⟨hunk, hhunk, .inl hnumber⟩

/--
The static checks find the numbers the headers and marks of a patch give; the reviewer
and the poster find the same lines if and only if no old-side line disturbs them.
-/
theorem new_side_lines_agree_iff
    (tables : UnicodeTables) (filePatch : FilePatch)
    (hpath : Unbroken (.ofString filePatch.path))
    (hprevious : ∀ previous, filePatch.previousPath = some previous → Unbroken previous) :
    Verification.newSideLines tables filePatch.patch =
        (parseHunks tables filePatch.patch).map numbersOf ∧
      (LinesAgree tables filePatch ↔ Undisturbed tables filePatch.patch) := by
  refine ⟨staticNewSideLines_eq filePatch.patch, ?_⟩
  have hold := unbroken_oldPath hpath hprevious
  have hsame : (do
      let rendered ← renderHunks tables filePatch
      let numbers ← newSideNumbers tables rendered
      return numbers.toFinset) = (do
      let rendered ← renderHunks tables filePatch
      newSideLines tables rendered) := rfl
  rw [LinesAgree, hsame, and_self_iff, staticNewSideLines_eq]
  cases hhunks : parseHunks tables filePatch.patch with
  | error e =>
      have hrender : renderHunks tables filePatch = .error e := by
        rw [renderHunks, hhunks, error_bind]
      rw [hrender]
      refine iff_of_true rfl ?_
      intro hunks hok
      rw [hhunks] at hok
      cases hok
  | ok hunks =>
      have hundisturbed : Undisturbed tables filePatch.patch ↔ ∀ hunk ∈ hunks,
          Printable hunk.newStart.toNat hunk.lines ∧ hunk.StraysReadable tables ∧
            ∀ number ∈ hunk.strayNumbers tables, number ∈ numbersOf hunks := by
        simp [Undisturbed, hhunks]
      rw [hundisturbed]
      constructor
      · intro hagree
        obtain ⟨content, hcontent, hread⟩ := bind_eq_ok hagree
        obtain ⟨numbers, hnumbers, hset⟩ := bind_eq_ok hread
        obtain ⟨hunks', hhunks', hprintable, rfl⟩ := renderHunks_eq_ok_iff.mp hcontent
        obtain rfl : hunks' = hunks := Except.ok.inj (hhunks'.symm.trans hhunks)
        obtain ⟨hreadable, rfl⟩ :=
          (collectNumbers_unbroken hpath hold hhunks hprintable).mp hnumbers
        have hstrays := (toFinset_strays_iff tables hunks').mp (Except.ok.inj hset)
        exact fun hunk hhunk => ⟨hprintable hunk hhunk, hreadable hunk hhunk, hstrays hunk hhunk⟩
      · intro hclean
        have hprintable := fun hunk hhunk => (hclean hunk hhunk).1
        have hcontent := renderHunks_eq_ok_iff.mpr ⟨hunks, hhunks, hprintable, rfl⟩
        have hnumbers := (collectNumbers_unbroken hpath hold hhunks hprintable).mpr
          ⟨fun hunk hhunk => (hclean hunk hhunk).2.1, rfl⟩
        have hset := (toFinset_strays_iff tables hunks).mpr
          (fun hunk hhunk => (hclean hunk hhunk).2.2)
        rw [hcontent, ok_bind, newSideLines, hnumbers, ok_bind, hset]
        rfl

end Agreement

/-! ## A table of columns that loses two lines -/

theorem columnsPath_nonempty :
    "columns.txt" ≠ "" := by
  decide

/-- Two lines are removed; the first looks like a header, the second like a numbered line. -/
def columnsPatch : FilePatch where
  path := "columns.txt"
  patch := .ofString "@@ -1,3 +1,1 @@\n id\n-NEW AMOUNT\n-99| total"
  previousPath := none
  path_ne := columnsPath_nonempty

theorem new_side_lines_agree_iff_columns :
    Verification.newSideLines bareTables columnsPatch.patch =
        (parseHunks bareTables columnsPatch.patch).map numbersOf ∧
      (LinesAgree bareTables columnsPatch ↔ Undisturbed bareTables columnsPatch.patch) :=
  new_side_lines_agree_iff bareTables columnsPatch (unbroken_ofString (by decide +kernel))
    (by rintro previous ⟨⟩)

/-- A removed line adds a number for the reviewer and the poster. -/
theorem removed_line_adds_number :
    Verification.newSideLines bareTables columnsPatch.patch = .ok {1} ∧
      (do
        let rendered ← renderHunks bareTables columnsPatch
        newSideLines bareTables rendered) = .ok {1, 99} ∧
      ¬ LinesAgree bareTables columnsPatch := by
  have hstatic : Verification.newSideLines bareTables columnsPatch.patch = .ok {1} := by
    decide +kernel
  have hread : (do
      let rendered ← renderHunks bareTables columnsPatch
      newSideLines bareTables rendered) = .ok {1, 99} := by
    decide +kernel
  refine ⟨hstatic, hread, ?_⟩
  rintro ⟨hagree, -⟩
  rw [hread, hstatic] at hagree
  exact absurd (Except.ok.inj hagree) (by decide)

end Reviewer
end PrReviewer
