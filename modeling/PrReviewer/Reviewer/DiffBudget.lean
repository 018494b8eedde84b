import Mathlib.Data.List.Sort
import Mathlib.Tactic
import PrReviewer.Lib.Sorting
import PrReviewer.Reviewer.HunkFormat

/-!
# Packing whole files into a token budget

reviewer/diff_budget.py.  The files are taken in the order of sensitivity, change size
and path; each one is included whole, or omitted with a reason.

A token counter is any function of the text.
-/

namespace PrReviewer
namespace Reviewer

open Lib
open Github

/-- `hashlib.sha256(data).hexdigest()` of a text encoded as UTF-8. -/
structure HexDigest where
  digest : String → String
  length_eq : ∀ text, (digest text).length = 64

/-- The optional arguments of `pack_diff`. -/
structure PackOptions where
  sensitivity : Option (String → Option PyFloat)
  generatedPaths : Option (List String)
  ignoredPaths : Option (List String)

/-- The options where none is given. -/
def noOptions : PackOptions where
  sensitivity := none
  generatedPaths := none
  ignoredPaths := none

/-- The truth value of a path in an optional set. -/
def inPaths (paths : Option (List String)) (path : String) : Bool :=
  match paths with
  | none => false
  | some paths => decide (path ∈ paths)

/-- `change_size`. -/
def changeSize (patch : Option PyStr) : Nat :=
  match patch with
  | none => 0
  | some patch =>
      patch.splitlines.countP (fun line =>
        !(line.startsWith (.ofString "+++") || line.startsWith (.ofString "---")) &&
          (line.startsWith (.ofString "+") || line.startsWith (.ofString "-")))

/-- The score of a path: zero where the mapping does not name it. -/
def scoreOf (options : PackOptions) (path : String) : PyFloat :=
  match options.sensitivity with
  | none => .finite 0 0
  | some sensitivity => (sensitivity path).getD (.finite 0 0)

/-- `_sort_key(a) < _sort_key(b)`: the scores and the sizes are negated in the keys. -/
def sortsBefore (options : PackOptions) (a b : PullRequestFile) : Bool :=
  let first := scoreOf options a.path
  let second := scoreOf options b.path
  let firstSize := changeSize a.patch
  let secondSize := changeSize b.patch
  if first.equals second then
    if firstSize = secondSize then decide (a.path < b.path)
    else decide (secondSize < firstSize)
  else second.less first

/--
`sorted(snapshot.files, key=_sort_key)`.  A score that is `nan` leaves the keys without an
order; of three or more such files the sort of CPython makes what it happens to compare.
-/
def orderedFiles (options : PackOptions) (files : List PullRequestFile) : List PullRequestFile :=
  files.insertionSort (fun a b => sortsBefore options b a = false)

/-- `_classify`. -/
def classify (options : PackOptions) (file : PullRequestFile) : Option OmissionReason :=
  match file.omissionReason with
  | some reason => some reason
  | none =>
      if file.binary then
        some .binary
      else if inPaths options.generatedPaths file.path then
        some .generated
      else if inPaths options.ignoredPaths file.path then
        some .ignoredPath
      else if file.truncated then
        some .patchTruncatedByGithub
      else if hasText file.patch then
        none
      else
        some .patchOmittedByGithub

/-- What `_classify` says of a file that is not omitted. -/
theorem classify_eq_none_iff
    {options : PackOptions} {file : PullRequestFile} :
    classify options file = none ↔
      file.omissionReason = none ∧ file.binary = false ∧
      inPaths options.generatedPaths file.path = false ∧
      inPaths options.ignoredPaths file.path = false ∧
      file.truncated = false ∧ hasText file.patch = true := by
  cases hreason : file.omissionReason with
  | some reason => simp [classify, hreason]
  | none =>
      cases hbinary : file.binary <;>
        cases hgenerated : inPaths options.generatedPaths file.path <;>
        cases hignored : inPaths options.ignoredPaths file.path <;>
        cases htruncated : file.truncated <;>
        simp [classify, hreason, hbinary, hgenerated, hignored, htruncated]

/-- The assertion of `pack_diff`: a file that is not omitted has a patch. -/
theorem patch_of_classify
    {options : PackOptions} {file : PullRequestFile}
    (h : classify options file = none) :
    file.patch.isSome = true := by
  obtain ⟨_, _, _, _, _, htext⟩ := classify_eq_none_iff.mp h
  cases hpatch : file.patch with
  | none => simp [hasText, hpatch] at htext
  | some patch => rfl

section LineRange

variable (tables : UnicodeTables)

/-- `^(\d+)\| `. -/
def lineNumber (line : PyStr) : Option PyStr := do
  let (digits, rest) ← matchDigits tables line.points
  let _ ← matchText "| " rest
  return digits

/-- The loop of `_line_range`; the flag tells whether a NEW header was the last one. -/
def collectNumbers : Bool → List PyStr → Except PyException (List Nat)
  | _, [] => .ok []
  | inNew, line :: rest =>
      if line.startsWith (.ofString "NEW ") then
        collectNumbers true rest
      else if line.startsWith (.ofString "OLD ") then
        collectNumbers false rest
      else if inNew then
        match lineNumber tables line with
        | none => collectNumbers inNew rest
        | some digits =>
            match intOfText tables digits with
            | none => .error .valueError
            | some number => do
                let numbers ← collectNumbers inNew rest
                return number.toNat :: numbers
      else
        collectNumbers inNew rest

/-- `_line_range`. -/
def lineRange (content : PyStr) : Except PyException (Nat × Nat) := do
  let collected ← collectNumbers tables false content.splitlines
  match collected.head?, collected.getLast? with
  | some first, some last => return (first, last)
  | _, _ => return (0, 0)

end LineRange

section Packing

variable (tables : UnicodeTables)
variable (hexdigest : HexDigest)
variable (countTokens : PyStr → Int)
variable (options : PackOptions)

/-- `ReviewContextItem(...)` of an included file. -/
def contextItem (file : PullRequestFile) (content : PyStr) :
    Except PyException ReviewContextItem := do
  let (lineStart, lineEnd) ← lineRange tables content
  match content.text? with
  | none => .error .valueError
  | some text =>
      if ordered : lineStart ≤ lineEnd then
        .ok {
          sourceKind := .diffFile
          filePath := file.path
          lineStart := lineStart
          lineEnd := lineEnd
          content := content
          contentHash := hexdigest.digest text
          filePath_ne := file.path_ne
          contentHash_length := hexdigest.length_eq text
          ordered := ordered }
      else
        .error .validationError

/-- The variables of the loop of `pack_diff`. -/
structure Packing where
  remaining : Int
  items : List ReviewContextItem
  included : List String
  omitted : List OmittedFile

/-- The file is omitted. -/
def Packing.omit (packing : Packing) (file : PullRequestFile) (reason : OmissionReason) :
    Packing :=
  { packing with omitted := packing.omitted ++ [{
      path := file.path
      reason := reason
      changeSize := changeSize file.patch
      path_ne := file.path_ne }] }

/-- The patch of a file that is not omitted. -/
def filePatch (file : PullRequestFile) (h : file.patch.isSome = true) : FilePatch where
  path := file.path
  patch := file.patch.get h
  previousPath := file.previousPath
  path_ne := file.path_ne

/-- One round of the loop of `pack_diff`. -/
def packFile (packing : Packing) (file : PullRequestFile) : Except PyException Packing :=
  match h : classify options file with
  | some reason => .ok (packing.omit file reason)
  | none => do
      let content ← renderHunks tables (filePatch file (patch_of_classify h))
      let tokens := countTokens content
      if packing.remaining < tokens then
        .ok (packing.omit file .tokenBudget)
      else
        let item ← contextItem tables hexdigest file content
        .ok { packing with
          remaining := packing.remaining - tokens
          items := packing.items ++ [item]
          included := packing.included ++ [file.path] }

/-- `pack_diff`. -/
def packDiff (snapshot : PullRequestSnapshot) (budget : ContextBudget) :
    Except PyException PackedDiff := do
  let packing ← (orderedFiles options snapshot.files).foldlM
    (packFile tables hexdigest countTokens options) ⟨budget.tokens, [], [], []⟩
  let promptTokens := (packing.items.map (fun item => countTokens item.content)).sum
  if promptTokens < 0 then
    .error .validationError
  else
    .ok {
      packingStrategyVersion := packingStrategyVersion
      items := packing.items
      includedFiles := packing.included
      omittedFiles := packing.omitted
      promptTokens := promptTokens.toNat
      coversAllChangedFiles := packing.omitted.isEmpty
      packingStrategyVersion_ne := by decide }

end Packing

end Reviewer
end PrReviewer
