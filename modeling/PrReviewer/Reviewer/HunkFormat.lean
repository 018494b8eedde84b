import Mathlib.Data.List.Basic
import Mathlib.Tactic
import PrReviewer.Lib.Text
import PrReviewer.Reviewer.ReviewContext

/-!
# The paired renderer of hunks

reviewer/hunk_format.py.  A patch is read line by line; a line that looks like a hunk
header opens a hunk, the lines up to the next one are its body, and whatever stands
before the first header is dropped.  Of a body line the mark decides in which of the
two sides it is rendered; a line with another mark is dropped.

`\d` and `int()` accept the decimal digits of every script.
-/

namespace PrReviewer
namespace Reviewer

open Lib

variable (tables : UnicodeTables)

/-- The character class `\d`. -/
def isDecimal (c : CodePoint) : Bool :=
  if c.val < 128 then
    decide (0x30 ≤ c.val ∧ c.val ≤ 0x39)
  else
    (tables.decimal c).isSome

/-- A literal of the pattern. -/
def matchText (text : String) (line : List CodePoint) : Option (List CodePoint) :=
  let points := (PyStr.ofString text).points
  if points.isPrefixOf line then some (line.drop points.length) else none

/-- `(\d+)`. -/
def matchDigits (line : List CodePoint) : Option (PyStr × List CodePoint) :=
  let digits := line.takeWhile (isDecimal tables)
  if digits.isEmpty then none else some (⟨digits⟩, line.dropWhile (isDecimal tables))

/-- `(?:,(\d+))?`. -/
def matchCount (line : List CodePoint) : List CodePoint :=
  match (matchText "," line).bind (matchDigits tables) with
  | some (_, rest) => rest
  | none => line

/-- Group 3 of `_HUNK_HEADER.match(line)`: no digit is a comma, a blank or an `@`. -/
def hunkHeader (line : PyStr) : Option PyStr := do
  let rest ← matchText "@@ -" line.points
  let (_, rest) ← matchDigits tables rest
  let rest ← matchText " +" (matchCount tables rest)
  let (start, rest) ← matchDigits tables rest
  let _ ← matchText " @@" (matchCount tables rest)
  return start

/-- `_Hunk`. -/
structure Hunk where
  newStart : Int
  lines : List PyStr
deriving DecidableEq

/-- The loop of `_parse_hunks`; the hunk is the one a header opened last. -/
def parseHunksFrom : Option Hunk → List PyStr → Except PyException (List Hunk)
  | current, [] => .ok current.toList
  | current, line :: rest =>
      match hunkHeader tables line with
      | some start =>
          match intOfText tables start with
          | none => .error .valueError
          | some newStart => do
              let hunks ← parseHunksFrom (some ⟨newStart, []⟩) rest
              return current.toList ++ hunks
      | none =>
          parseHunksFrom (current.map (fun hunk => { hunk with lines := hunk.lines ++ [line] }))
            rest

/-- `_parse_hunks`. -/
def parseHunks (patch : PyStr) : Except PyException (List Hunk) :=
  parseHunksFrom tables none patch.splitlines

/-- The mark of a line of a hunk. -/
inductive Mark where
  | context
  | added
  | removed
deriving DecidableEq, Repr

def Mark.point : Mark → CodePoint
  | .context => pointOf ' '
  | .added => pointOf '+'
  | .removed => pointOf '-'

/-- The mark and the content of a raw line; `none` where it is skipped. -/
def markOf (raw : PyStr) : Option (Mark × PyStr) :=
  match raw.points with
  | [] => none
  | mark :: content =>
      if mark = Mark.point .context then some (.context, ⟨content⟩)
      else if mark = Mark.point .added then some (.added, ⟨content⟩)
      else if mark = Mark.point .removed then some (.removed, ⟨content⟩)
      else none

/-- `f"{new_no}| {content}"`. -/
def numberedLine (newNo : Int) (content : PyStr) : Except PyException PyStr := do
  let number ← intText newNo
  return number ++ .ofString "| " ++ content

/-- The loop of `_split_hunk`. -/
def splitHunkFrom (newNo : Int) : List PyStr → Except PyException (List PyStr × List PyStr)
  | [] => .ok ([], [])
  | raw :: rest =>
      match markOf raw with
      | none => splitHunkFrom newNo rest
      | some (.context, content) => do
          let line ← numberedLine newNo content
          let (newLines, oldLines) ← splitHunkFrom (newNo + 1) rest
          return (line :: newLines, content :: oldLines)
      | some (.added, content) => do
          let line ← numberedLine newNo content
          let (newLines, oldLines) ← splitHunkFrom (newNo + 1) rest
          return (line :: newLines, oldLines)
      | some (.removed, content) => do
          let (newLines, oldLines) ← splitHunkFrom newNo rest
          return (newLines, content :: oldLines)

/-- `_split_hunk`. -/
def splitHunk (hunk : Hunk) : Except PyException (List PyStr × List PyStr) :=
  splitHunkFrom hunk.newStart hunk.lines

/-- `file_patch.previous_path or file_patch.path`. -/
def oldPath (filePatch : FilePatch) : PyStr :=
  match filePatch.previousPath with
  | none => .ofString filePatch.path
  | some previous => if previous.points.isEmpty then .ofString filePatch.path else previous

/-- The blocks of one hunk. -/
def hunkBlocks (filePatch : FilePatch) (hunk : Hunk) : Except PyException (List PyStr) := do
  let (newLines, oldLines) ← splitHunk hunk
  return (.ofString "NEW " ++ .ofString filePatch.path) :: newLines ++
    (.ofString "OLD " ++ oldPath filePatch) :: oldLines

/-- `render_hunks`. -/
def renderHunks (filePatch : FilePatch) : Except PyException PyStr := do
  let hunks ← parseHunks tables filePatch.patch
  let blocks ← hunks.mapM (hunkBlocks filePatch)
  return PyStr.join (.ofString "\n") blocks.flatten

/-! ## Reading a header -/

section Header

variable {tables : UnicodeTables}

theorem matchText_append
    (text : String) (rest : List CodePoint) :
    matchText text ((PyStr.ofString text).points ++ rest) = some rest := by
  simp [matchText]

/-- The pattern of a header begins with an `@`. -/
theorem hunkHeader_of_head
    {line : PyStr}
    (h : line.points.head? ≠ some 0x40) :
    hunkHeader tables line = none := by
  have hlead : (PyStr.ofString "@@ -").points = [0x40, 0x40, 0x20, 0x2d] := rfl
  have hmatch : matchText "@@ -" line.points = none := by
    cases hline : line.points with
    | nil => simp [matchText, hlead]
    | cons c cs =>
        have hc : c ≠ 0x40 := by simpa [hline] using h
        simp [matchText, hlead, hc.symm]
  simp [hunkHeader, hmatch]

theorem isDecimal_decimal
    {n : Nat} {c : CodePoint}
    (hc : c ∈ (decimal n).points) :
    isDecimal tables c = true := by
  have hdigit := decimal_digit hc
  have hascii : c.val < 128 := by omega
  simp [isDecimal, hascii, hdigit]

/-- A number is read up to the first character that is no digit. -/
theorem matchDigits_decimal
    (n : Nat) {rest : List CodePoint}
    (hstop : ∀ c, rest.head? = some c → isDecimal tables c = false) :
    matchDigits tables ((decimal n).points ++ rest) = some (decimal n, rest) := by
  have hdigits : ∀ d ∈ (decimal n).points, isDecimal tables d = true :=
    fun d hd => isDecimal_decimal hd
  have htake : ((decimal n).points ++ rest).takeWhile (isDecimal tables) =
      (decimal n).points := by
    rw [List.takeWhile_append_of_pos hdigits]
    cases rest with
    | nil => simp
    | cons c cs => rw [List.takeWhile_cons_of_neg (by simp [hstop c rfl]), List.append_nil]
  have hdrop : ((decimal n).points ++ rest).dropWhile (isDecimal tables) = rest := by
    rw [List.dropWhile_append_of_pos hdigits]
    cases rest with
    | nil => rfl
    | cons c cs => rw [List.dropWhile_cons_of_neg (by simp [hstop c rfl])]
  simp [matchDigits, htake, hdrop, decimal_ne_nil]

/-- The count of a side of a header, which is left out where it is one. -/
def countText : Option Nat → PyStr
  | none => ⟨[]⟩
  | some n => .ofString "," ++ decimal n

/-- A count in front of a blank is read, or there is none. -/
theorem matchCount_countText
    (count : Option Nat) (rest : List CodePoint) :
    matchCount tables ((countText count).points ++ 0x20 :: rest) = 0x20 :: rest := by
  have hcomma : (PyStr.ofString ",").points = [0x2c] := rfl
  cases count with
  | none => simp [countText, matchCount, matchText, hcomma]
  | some n =>
      have hstop : ∀ c, (0x20 :: rest).head? = some c → isDecimal tables c = false := by
        rintro c ⟨⟩
        simp [isDecimal]
      simp only [countText, PyStr.points_append, List.append_assoc, matchCount, matchText_append,
        Option.bind_some, matchDigits_decimal n hstop]

/-- The start of a side of a header is read up to its count. -/
theorem matchDigits_start
    (start : Nat) (count : Option Nat) (rest : List CodePoint) :
    matchDigits tables ((decimal start).points ++ ((countText count).points ++ 0x20 :: rest)) =
      some (decimal start, (countText count).points ++ 0x20 :: rest) := by
  have hcomma : (PyStr.ofString ",").points = [0x2c] := rfl
  apply matchDigits_decimal
  intro c hc
  cases count with
  | none =>
      cases hc
      simp [isDecimal]
  | some n =>
      simp only [countText, PyStr.points_append, hcomma, List.cons_append, List.head?_cons,
        Option.some.injEq] at hc
      subst hc
      simp [isDecimal]

/-- A header as `git diff` writes it. -/
def headerText
    (oldStart : Nat) (oldCount : Option Nat) (newStart : Nat) (newCount : Option Nat)
    (heading : PyStr) : PyStr :=
  .ofString "@@ -" ++ decimal oldStart ++ countText oldCount ++ .ofString " +" ++
    decimal newStart ++ countText newCount ++ .ofString " @@" ++ heading

/-- Of a header the start of the new side is read. -/
theorem hunkHeader_headerText
    (oldStart : Nat) (oldCount : Option Nat) (newStart : Nat) (newCount : Option Nat)
    (heading : PyStr) :
    hunkHeader tables (headerText oldStart oldCount newStart newCount heading) =
      some (decimal newStart) := by
  have hplus : (PyStr.ofString " +").points = [0x20, 0x2b] := rfl
  have hclose : (PyStr.ofString " @@").points = [0x20, 0x40, 0x40] := rfl
  have hpoints : (headerText oldStart oldCount newStart newCount heading).points =
      (PyStr.ofString "@@ -").points ++ ((decimal oldStart).points ++
        ((countText oldCount).points ++ 0x20 :: ((0x2b : CodePoint) ::
          ((decimal newStart).points ++ ((countText newCount).points ++
            0x20 :: ((0x40 : CodePoint) :: 0x40 :: heading.points)))))) := by
    simp [headerText, hplus, hclose]
  have hside : ∀ rest : List CodePoint,
      matchText " +" (0x20 :: 0x2b :: rest) = some rest := by
    intro rest
    simpa [hplus] using matchText_append " +" rest
  have hend : ∀ rest : List CodePoint,
      matchText " @@" (0x20 :: 0x40 :: 0x40 :: rest) = some rest := by
    intro rest
    simpa [hclose] using matchText_append " @@" rest
  simp only [hunkHeader, hpoints, matchText_append, Option.bind_eq_bind, Option.bind_some,
    matchDigits_start, matchCount_countText, hside, hend, Option.pure_def]

end Header

end Reviewer
end PrReviewer
