import Mathlib.Data.List.Basic
import Mathlib.Tactic
import PrReviewer.Reviewer.HunkFormat

/-!
# The patch of a change

What a changed file's patch says, apart from how the renderer reads it: a change is a
list of hunks, a hunk has lines that are kept, added or removed, and the patch is the
text git writes for them.  A line's text ends at a newline, with or without a carriage
return in front of it; any other character may stand in it.

A patch none of whose lines has another line break of Python's in it is rendered
completely: every added line under its number, and every removed line.
-/

namespace PrReviewer
namespace Reviewer

open Lib

/-- A line of a hunk. -/
structure DiffLine where
  mark : Mark
  text : PyStr
  crlf : Bool
  /-- The file ends with this line, without a newline. -/
  atEnd : Bool
  text_line : newline ∉ text.points
  text_end : crlf = false → text.points.getLast? ≠ some carriageReturn

/-- A hunk of a change. -/
structure ChangeHunk where
  oldStart : Nat
  oldCount : Option Nat
  newStart : Nat
  newCount : Option Nat
  heading : PyStr
  lines : List DiffLine
  heading_line : newline ∉ heading.points

abbrev Change := List ChangeHunk

/-- The lines of the new side of a hunk, with their numbers in the new file. -/
def newSideFrom (number : Nat) : List DiffLine → List (Nat × PyStr)
  | [] => []
  | line :: rest =>
      match line.mark with
      | .removed => newSideFrom number rest
      | _ => (number, line.text) :: newSideFrom (number + 1) rest

/-- The lines of the old side of a hunk. -/
def oldSide (lines : List DiffLine) : List PyStr :=
  (lines.filter (fun line => line.mark ≠ .added)).map DiffLine.text

/-- The added lines, with their numbers in the new file. -/
def addedFrom (number : Nat) : List DiffLine → List (Nat × PyStr)
  | [] => []
  | line :: rest =>
      match line.mark with
      | .context => addedFrom (number + 1) rest
      | .added => (number, line.text) :: addedFrom (number + 1) rest
      | .removed => addedFrom number rest

def Change.addedLines (change : Change) : List (Nat × PyStr) :=
  change.flatMap (fun hunk => addedFrom hunk.newStart hunk.lines)

def Change.removedLines (change : Change) : List PyStr :=
  change.flatMap (fun hunk => (hunk.lines.filter (fun line => line.mark = .removed)).map
    DiffLine.text)

/-- The line of a patch after a last line without a newline. -/
def noNewline : PyStr :=
  .ofString "\\ No newline at end of file"

/-- The mark and the text. -/
def DiffLine.body (line : DiffLine) : PyStr where
  points := line.mark.point :: line.text.points

/-- What stands in a patch for a line, without its newline. -/
def DiffLine.raw (line : DiffLine) : List (PyStr × Bool) :=
  (line.body, line.crlf) :: if line.atEnd then [(noNewline, false)] else []

def ChangeHunk.header (hunk : ChangeHunk) : PyStr :=
  headerText hunk.oldStart hunk.oldCount hunk.newStart hunk.newCount hunk.heading

def ChangeHunk.raw (hunk : ChangeHunk) : List (PyStr × Bool) :=
  (hunk.header, false) :: hunk.lines.flatMap DiffLine.raw

/-- The lines of the patch of a change. -/
def Change.raw (change : Change) : List (PyStr × Bool) :=
  change.flatMap ChangeHunk.raw

/-- The patch git writes for a change. -/
def patchText (change : Change) : PyStr :=
  PyStr.join (.ofString "\n") (change.raw.map (fun line => ⟨line.1.points ++ eol line.2⟩))

/-- The text contains no line break of `str.splitlines`. -/
def Unbroken (text : PyStr) : Prop :=
  ∀ c ∈ text.points, isLineBreak c = false

/-- No line of the patch has a line break in it but its own end. -/
def Change.Unbroken (change : Change) : Prop :=
  ∀ hunk ∈ change, Reviewer.Unbroken hunk.heading ∧
    ∀ line ∈ hunk.lines, Reviewer.Unbroken line.text

/-- A line as it is shown under its number. -/
def numbered (line : Nat × PyStr) : PyStr :=
  decimal line.1 ++ .ofString "| " ++ line.2

/-- The content shows, in order, every added line under its number, and every removed line. -/
def Shows (content : PyStr) (change : Change) : Prop :=
  (change.addedLines.map numbered).Sublist content.lines ∧
    change.removedLines.Sublist content.lines

/-! ## Reading the patch back -/

section Reading

/-- The lines of texts joined by newlines. -/
theorem splitlines_join
    {raw : List (PyStr × Bool)}
    (hraw : ∀ line ∈ raw, Unbroken line.1 ∧ line.1.points ≠ []) :
    (PyStr.join (.ofString "\n")
      (raw.map (fun line => ⟨line.1.points ++ eol line.2⟩))).splitlines = raw.map Prod.fst := by
  have hsep : (PyStr.ofString "\n").points = [newline] := rfl
  induction raw with
  | nil => rfl
  | cons line raw ih =>
      obtain ⟨hline, hne⟩ := hraw line (List.mem_cons_self ..)
      cases raw with
      | nil =>
          have hlast := splitlines_last hline hne line.2
          simpa [PyStr.join, List.intercalate] using hlast
      | cons next raw =>
          have hrest := ih (fun other hother => hraw other (List.mem_cons_of_mem line hother))
          have hjoin : PyStr.join (.ofString "\n")
              ((line :: next :: raw).map (fun line => ⟨line.1.points ++ eol line.2⟩)) =
              ⟨line.1.points ++ eol line.2 ++ newline ::
                (PyStr.join (.ofString "\n")
                  ((next :: raw).map (fun line => ⟨line.1.points ++ eol line.2⟩))).points⟩ := by
            simp only [PyStr.join, hsep, List.map_cons, List.intercalate_cons_cons,
              List.append_assoc, List.singleton_append]
          rw [hjoin, splitlines_line hline, List.map_cons]
          exact congrArg _ hrest

theorem unbroken_decimal
    (n : Nat) :
    Unbroken (decimal n) := by
  intro c hc
  have hdigit := decimal_digit hc
  simp only [isLineBreak, decide_eq_false_iff_not, List.mem_cons, List.not_mem_nil, or_false]
  omega

theorem unbroken_append
    {s t : PyStr}
    (hs : Unbroken s)
    (ht : Unbroken t) :
    Unbroken (s ++ t) := by
  intro c hc
  rcases List.mem_append.mp hc with hc | hc
  · exact hs c hc
  · exact ht c hc

/-- A text without line breaks, by evaluation. -/
theorem unbroken_ofString
    {text : String}
    (h : (PyStr.ofString text).points.all (fun c => !isLineBreak c) = true) :
    Unbroken (.ofString text) := by
  intro c hc
  simpa using List.all_eq_true.mp h c hc

theorem unbroken_countText
    (count : Option Nat) :
    Unbroken (countText count) := by
  cases count with
  | none => simp [countText, Unbroken]
  | some n => exact unbroken_append (unbroken_ofString rfl) (unbroken_decimal n)

/-- A header up to its heading. -/
def ChangeHunk.lead (hunk : ChangeHunk) : PyStr :=
  .ofString "@@ -" ++ decimal hunk.oldStart ++ countText hunk.oldCount ++ .ofString " +" ++
    decimal hunk.newStart ++ countText hunk.newCount ++ .ofString " @@"

theorem unbroken_lead
    (hunk : ChangeHunk) :
    Unbroken hunk.lead := by
  have hopen : Unbroken (.ofString "@@ -") := unbroken_ofString rfl
  have hplus : Unbroken (.ofString " +") := unbroken_ofString rfl
  have hclose : Unbroken (.ofString " @@") := unbroken_ofString rfl
  exact unbroken_append (unbroken_append (unbroken_append (unbroken_append (unbroken_append
    (unbroken_append hopen (unbroken_decimal _)) (unbroken_countText _)) hplus)
    (unbroken_decimal _)) (unbroken_countText _)) hclose

/-- What stands in a patch for an unbroken line. -/
theorem unbroken_raw
    {line : DiffLine}
    (h : Unbroken line.text) :
    ∀ raw ∈ line.raw, Unbroken raw.1 ∧ raw.1.points ≠ [] := by
  intro raw hraw
  rcases List.mem_cons.mp hraw with rfl | hraw
  · constructor
    · intro c hc
      rcases List.mem_cons.mp hc with rfl | hc
      · cases line.mark <;> decide
      · exact h c hc
    · simp [DiffLine.body]
  · split at hraw
    · rw [List.mem_singleton] at hraw
      subst hraw
      exact ⟨unbroken_ofString rfl, by decide +kernel⟩
    · cases hraw

/-- The lines of an unbroken patch. -/
theorem Change.Unbroken.raw
    {change : Change}
    (h : change.Unbroken) :
    ∀ line ∈ change.raw, Reviewer.Unbroken line.1 ∧ line.1.points ≠ [] := by
  intro line hline
  obtain ⟨hunk, hhunk, hline⟩ := List.mem_flatMap.mp hline
  obtain ⟨hheading, hlines⟩ := h hunk hhunk
  rcases List.mem_cons.mp hline with rfl | hline
  · constructor
    · exact unbroken_append (unbroken_lead hunk) hheading
    · simp [ChangeHunk.header, headerText, decimal_ne_nil]
  · obtain ⟨diffLine, hmem, hline⟩ := List.mem_flatMap.mp hline
    exact unbroken_raw (hlines diffLine hmem) line hline

theorem splitlines_patchText
    {change : Change}
    (h : change.Unbroken) :
    (patchText change).splitlines = change.raw.map Prod.fst :=
  splitlines_join h.raw

end Reading

/-! ## Rendering the patch -/

section Rendering

variable {tables : UnicodeTables}

/-- The body lines of a hunk. -/
def ChangeHunk.bodies (hunk : ChangeHunk) : List PyStr :=
  (hunk.lines.flatMap DiffLine.raw).map Prod.fst

/-- A body line is no header. -/
theorem hunkHeader_body
    {hunk : ChangeHunk} {line : PyStr}
    (hline : line ∈ hunk.bodies) :
    hunkHeader tables line = none := by
  apply hunkHeader_of_head
  obtain ⟨raw, hraw, rfl⟩ := List.mem_map.mp hline
  obtain ⟨diffLine, _, hraw⟩ := List.mem_flatMap.mp hraw
  rcases List.mem_cons.mp hraw with rfl | hraw
  · simp only [DiffLine.body, List.head?_cons, ne_eq, Option.some.injEq]
    cases diffLine.mark <;> decide
  · split at hraw
    · rw [List.mem_singleton] at hraw
      subst hraw
      decide +kernel
    · cases hraw

/-- Lines that are no headers go to the hunk that is open. -/
theorem parseHunksFrom_bodies
    (hunk : Hunk) (bodies rest : List PyStr)
    (hbodies : ∀ line ∈ bodies, hunkHeader tables line = none) :
    parseHunksFrom tables (some hunk) (bodies ++ rest) =
      parseHunksFrom tables (some { hunk with lines := hunk.lines ++ bodies }) rest := by
  induction bodies generalizing hunk with
  | nil => simp
  | cons line bodies ih =>
      have hhere := hbodies line (List.mem_cons_self ..)
      have hrest := fun other hother => hbodies other (List.mem_cons_of_mem line hother)
      rw [List.cons_append, parseHunksFrom, hhere]
      simp only [Option.map_some]
      rw [ih _ hrest]
      simp

/-- The hunks read from an unbroken patch are those of the change. -/
theorem parseHunksFrom_raw
    {change : Change} {current : Option Hunk} {hunks : List Hunk}
    (h : parseHunksFrom tables current (change.raw.map Prod.fst) = .ok hunks) :
    hunks = current.toList ++
      change.map (fun hunk => { newStart := hunk.newStart, lines := hunk.bodies }) := by
  induction change generalizing current hunks with
  | nil =>
      cases h
      simp
  | cons hunk change ih =>
      have hraw : (Change.raw (hunk :: change)).map Prod.fst =
          hunk.header :: (hunk.bodies ++ (Change.raw change).map Prod.fst) := by
        simp [Change.raw, ChangeHunk.raw, ChangeHunk.bodies]
      have hheader : hunkHeader tables hunk.header = some (decimal hunk.newStart) :=
        hunkHeader_headerText ..
      rw [hraw, parseHunksFrom, hheader] at h
      simp only at h
      split at h
      · cases h
      · next newStart hstart =>
          obtain rfl := intOfText_decimal hstart
          obtain ⟨found, hfound, h⟩ := bind_eq_ok h
          cases h
          rw [parseHunksFrom_bodies _ _ _ (fun line hline => hunkHeader_body hline)] at hfound
          rw [ih hfound]
          simp

theorem markOf_body
    (line : DiffLine) :
    markOf line.body = some (line.mark, line.text) := by
  obtain ⟨mark, text, crlf, atEnd, _, _⟩ := line
  cases mark with
  | context => rfl
  | added => rfl
  | removed => rfl

/-- The line after a last line without a newline is skipped. -/
theorem splitHunkFrom_atEnd
    (line : DiffLine) (number : Int) (rest : List PyStr) :
    splitHunkFrom number
        ((if line.atEnd then [(noNewline, false)] else []).map Prod.fst ++ rest) =
      splitHunkFrom number rest := by
  have hskip : markOf noNewline = none := rfl
  split
  · simp only [List.map_cons, List.map_nil, List.cons_append, List.nil_append, splitHunkFrom,
      hskip]
  · rfl

theorem numberedLine_ok
    {number : Nat} {text line : PyStr}
    (h : numberedLine number text = .ok line) :
    line = numbered (number, text) := by
  obtain ⟨digits, hdigits, h⟩ := bind_eq_ok h
  cases h
  rw [intText_natCast hdigits]
  rfl

/-- The two sides of a hunk. -/
theorem splitHunkFrom_raw
    {lines : List DiffLine} {number : Nat} {newLines oldLines : List PyStr}
    (h : splitHunkFrom number ((lines.flatMap DiffLine.raw).map Prod.fst) =
      .ok (newLines, oldLines)) :
    newLines = (newSideFrom number lines).map numbered ∧ oldLines = oldSide lines := by
  induction lines generalizing number newLines oldLines with
  | nil =>
      cases h
      exact ⟨rfl, rfl⟩
  | cons line lines ih =>
      have hraw : ((line :: lines).flatMap DiffLine.raw).map Prod.fst =
          line.body :: ((if line.atEnd then [(noNewline, false)] else []).map Prod.fst ++
            (lines.flatMap DiffLine.raw).map Prod.fst) := by
        simp [DiffLine.raw]
      rw [hraw, splitHunkFrom, markOf_body] at h
      cases hmark : line.mark with
      | context =>
          rw [hmark] at h
          obtain ⟨shown, hshown, h⟩ := bind_eq_ok h
          obtain ⟨⟨news, olds⟩, hrest, h⟩ := bind_eq_ok h
          cases h
          rw [splitHunkFrom_atEnd] at hrest
          obtain ⟨rfl, rfl⟩ := ih hrest
          rw [numberedLine_ok hshown]
          simp [newSideFrom, oldSide, hmark]
      | added =>
          rw [hmark] at h
          obtain ⟨shown, hshown, h⟩ := bind_eq_ok h
          obtain ⟨⟨news, olds⟩, hrest, h⟩ := bind_eq_ok h
          cases h
          rw [splitHunkFrom_atEnd] at hrest
          obtain ⟨rfl, rfl⟩ := ih hrest
          rw [numberedLine_ok hshown]
          simp [newSideFrom, oldSide, hmark]
      | removed =>
          rw [hmark] at h
          obtain ⟨⟨news, olds⟩, hrest, h⟩ := bind_eq_ok h
          cases h
          rw [splitHunkFrom_atEnd] at hrest
          obtain ⟨rfl, rfl⟩ := ih hrest
          simp [newSideFrom, oldSide, hmark]

theorem addedFrom_sublist
    (number : Nat) (lines : List DiffLine) :
    (addedFrom number lines).Sublist (newSideFrom number lines) := by
  induction lines generalizing number with
  | nil => simp [addedFrom]
  | cons line lines ih =>
      cases hmark : line.mark with
      | context =>
          simp only [addedFrom, newSideFrom, hmark]
          exact (ih _).cons _
      | added =>
          simp only [addedFrom, newSideFrom, hmark]
          exact (ih _).cons_cons _
      | removed =>
          simp only [addedFrom, newSideFrom, hmark]
          exact ih _

theorem removed_sublist
    (lines : List DiffLine) :
    ((lines.filter (fun line => line.mark = .removed)).map DiffLine.text).Sublist
      (oldSide lines) := by
  refine List.Sublist.map _ (List.monotone_filter_right lines ?_)
  intro line hmark
  simp_all

/-- Every added line has a number. -/
theorem exists_mem_addedFrom
    (number : Nat) {lines : List DiffLine} {line : DiffLine}
    (hline : line ∈ lines)
    (hmark : line.mark = .added) :
    ∃ n, (n, line.text) ∈ addedFrom number lines := by
  induction lines generalizing number with
  | nil => cases hline
  | cons first lines ih =>
      rcases List.mem_cons.mp hline with rfl | hline
      · exact ⟨number, by simp [addedFrom, hmark]⟩
      · cases hfirst : first.mark with
        | context => simpa only [addedFrom, hfirst] using ih (number + 1) hline
        | added =>
            obtain ⟨n, hn⟩ := ih (number + 1) hline
            exact ⟨n, by simp [addedFrom, hfirst, hn]⟩
        | removed => simpa only [addedFrom, hfirst] using ih number hline

/-- The blocks a change is rendered to. -/
def renderedBlocks (filePatch : FilePatch) (change : Change) : List PyStr :=
  change.flatMap (fun hunk =>
    (.ofString "NEW " ++ .ofString filePatch.path) ::
      (newSideFrom hunk.newStart hunk.lines).map numbered ++
    (.ofString "OLD " ++ oldPath filePatch) :: oldSide hunk.lines)

theorem mapM_hunkBlocks
    {filePatch : FilePatch} {change : Change} {blocks : List (List PyStr)}
    (h : (change.map (fun hunk => Hunk.mk hunk.newStart hunk.bodies)).mapM
      (hunkBlocks filePatch) = .ok blocks) :
    blocks.flatten = renderedBlocks filePatch change := by
  induction change generalizing blocks with
  | nil =>
      cases h
      rfl
  | cons hunk change ih =>
      rw [List.map_cons, List.mapM_cons] at h
      obtain ⟨first, hfirst, h⟩ := bind_eq_ok h
      obtain ⟨others, hothers, h⟩ := bind_eq_ok h
      cases h
      obtain ⟨⟨newLines, oldLines⟩, hsplit, hfirst⟩ := bind_eq_ok hfirst
      cases hfirst
      obtain ⟨rfl, rfl⟩ := splitHunkFrom_raw hsplit
      rw [List.flatten_cons, ih hothers]
      rfl

/-- What an unbroken patch is rendered to. -/
theorem renderHunks_patchText
    {filePatch : FilePatch} {change : Change} {content : PyStr}
    (hpatch : filePatch.patch = patchText change)
    (hunbroken : change.Unbroken)
    (h : renderHunks tables filePatch = .ok content) :
    content = PyStr.join (.ofString "\n") (renderedBlocks filePatch change) := by
  obtain ⟨hunks, hhunks, h⟩ := bind_eq_ok h
  obtain ⟨blocks, hblocks, h⟩ := bind_eq_ok h
  cases h
  rw [parseHunks, hpatch, splitlines_patchText hunbroken] at hhunks
  rw [parseHunksFrom_raw hhunks] at hblocks
  rw [mapM_hunkBlocks hblocks]

theorem newline_not_mem_decimal
    (n : Nat) :
    newline ∉ (decimal n).points := by
  intro hmem
  have hdigit := decimal_digit hmem
  simp [newline] at hdigit

/-- A number and a line are in no line break. -/
theorem newline_not_mem_numbered
    {line : Nat × PyStr}
    (h : newline ∉ line.2.points) :
    newline ∉ (numbered line).points := by
  have hbar : newline ∉ (PyStr.ofString "| ").points := by decide +kernel
  simp [numbered, newline_not_mem_decimal, hbar, h]

theorem text_of_mem_newSideFrom
    {number : Nat} {lines : List DiffLine} {line : Nat × PyStr}
    (h : line ∈ newSideFrom number lines) :
    newline ∉ line.2.points := by
  induction lines generalizing number with
  | nil => cases h
  | cons diffLine lines ih =>
      simp only [newSideFrom] at h
      split at h
      · exact ih h
      · rcases List.mem_cons.mp h with rfl | h
        · exact diffLine.text_line
        · exact ih h

/-- An unbroken patch is shown completely. -/
theorem shows_renderedBlocks
    (filePatch : FilePatch) (change : Change) :
    Shows (PyStr.join (.ofString "\n") (renderedBlocks filePatch change)) change := by
  constructor
  · refine sublist_lines_join ?_ ?_
    · rw [Change.addedLines, List.map_flatMap]
      refine List.Sublist.flatMap_right change (fun hunk _ => ?_)
      have hside := (addedFrom_sublist hunk.newStart hunk.lines).map numbered
      exact ((hside.trans (List.sublist_append_left _ _)).cons _)
    · intro line hline
      obtain ⟨numberedLine, hmem, rfl⟩ := List.mem_map.mp hline
      obtain ⟨hunk, _, hadded⟩ := List.mem_flatMap.mp hmem
      have hside := (addedFrom_sublist _ _).subset hadded
      exact newline_not_mem_numbered (text_of_mem_newSideFrom hside)
  · refine sublist_lines_join ?_ ?_
    · refine List.Sublist.flatMap_right change (fun hunk _ => ?_)
      have hside := removed_sublist hunk.lines
      exact (hside.cons _).trans (List.sublist_append_right _ _)
    · intro text htext
      obtain ⟨hunk, _, hremoved⟩ := List.mem_flatMap.mp htext
      obtain ⟨line, _, rfl⟩ := List.mem_map.mp hremoved
      exact line.text_line

end Rendering

/-! ## What is never rendered -/

section Cut

variable {tables : UnicodeTables}

theorem unbroken_intText
    {n : Int} {text : PyStr}
    (h : intText n = .ok text) :
    Unbroken text := by
  cases n with
  | ofNat m =>
      rw [intText_natCast h]
      exact unbroken_decimal m
  | negSucc m =>
      unfold intText at h
      split at h
      · cases h
      · cases h
        have hminus : Unbroken (.ofString "-") := unbroken_ofString rfl
        rw [← intDigits, intDigits_negSucc]
        exact unbroken_append hminus (unbroken_decimal _)

theorem unbroken_content
    {raw content : PyStr} {mark : Mark}
    (hraw : Unbroken raw)
    (h : markOf raw = some (mark, content)) :
    Unbroken content := by
  unfold markOf at h
  split at h
  · cases h
  · next point rest hpoints =>
      have hrest : ∀ c ∈ rest, isLineBreak c = false := by
        intro c hc
        exact hraw c (by rw [hpoints]; exact List.mem_cons_of_mem _ hc)
      split at h
      · cases h
        exact hrest
      · split at h
        · cases h
          exact hrest
        · split at h
          · cases h
            exact hrest
          · cases h

theorem unbroken_numberedLine
    {n : Int} {content line : PyStr}
    (hcontent : Unbroken content)
    (h : numberedLine n content = .ok line) :
    Unbroken line := by
  obtain ⟨digits, hdigits, h⟩ := bind_eq_ok h
  cases h
  have hbar : Unbroken (.ofString "| ") := unbroken_ofString rfl
  exact unbroken_append (unbroken_append (unbroken_intText hdigits) hbar) hcontent

/-- The two sides of a hunk hold nothing but pieces without a line break. -/
theorem splitHunkFrom_unbroken
    {lines : List PyStr} {number : Int} {newLines oldLines : List PyStr}
    (hlines : ∀ line ∈ lines, Unbroken line)
    (h : splitHunkFrom number lines = .ok (newLines, oldLines)) :
    ∀ line ∈ newLines ++ oldLines, Unbroken line := by
  induction lines generalizing number newLines oldLines with
  | nil =>
      cases h
      simp
  | cons raw rest ih =>
      have hraw := hlines raw (List.mem_cons_self ..)
      have hrest := fun line hline => hlines line (List.mem_cons_of_mem raw hline)
      rw [splitHunkFrom] at h
      split at h
      · exact ih hrest h
      · next content hmark =>
          obtain ⟨shown, hshown, h⟩ := bind_eq_ok h
          obtain ⟨⟨news, olds⟩, hsides, h⟩ := bind_eq_ok h
          cases h
          have hcontent := unbroken_content hraw hmark
          have hnumbered := unbroken_numberedLine hcontent hshown
          have hothers := ih hrest hsides
          simp only [List.mem_append, List.mem_cons] at hothers ⊢
          grind
      · next content hmark =>
          obtain ⟨shown, hshown, h⟩ := bind_eq_ok h
          obtain ⟨⟨news, olds⟩, hsides, h⟩ := bind_eq_ok h
          cases h
          have hcontent := unbroken_content hraw hmark
          have hnumbered := unbroken_numberedLine hcontent hshown
          have hothers := ih hrest hsides
          simp only [List.mem_append, List.mem_cons] at hothers ⊢
          grind
      · next content hmark =>
          obtain ⟨⟨news, olds⟩, hsides, h⟩ := bind_eq_ok h
          cases h
          have hcontent := unbroken_content hraw hmark
          have hothers := ih hrest hsides
          simp only [List.mem_append, List.mem_cons] at hothers ⊢
          grind

/-- The hunks read from lines hold nothing but these lines. -/
theorem parseHunksFrom_unbroken
    {lines : List PyStr} {current : Option Hunk} {hunks : List Hunk}
    (hlines : ∀ line ∈ lines, Unbroken line)
    (hcurrent : ∀ hunk ∈ current, ∀ line ∈ hunk.lines, Unbroken line)
    (h : parseHunksFrom tables current lines = .ok hunks) :
    ∀ hunk ∈ hunks, ∀ line ∈ hunk.lines, Unbroken line := by
  induction lines generalizing current hunks with
  | nil =>
      cases h
      simpa using hcurrent
  | cons raw rest ih =>
      have hraw := hlines raw (List.mem_cons_self ..)
      have hrest := fun line hline => hlines line (List.mem_cons_of_mem raw hline)
      rw [parseHunksFrom] at h
      split at h
      · split at h
        · cases h
        · next newStart _ =>
            obtain ⟨found, hfound, h⟩ := bind_eq_ok h
            cases h
            have hfresh : ∀ hunk ∈ some (Hunk.mk newStart []), ∀ line ∈ hunk.lines,
                Unbroken line := by
              rintro hunk ⟨⟩ line hline
              cases hline
            intro hunk hhunk
            rcases List.mem_append.mp hhunk with hhunk | hhunk
            · exact hcurrent hunk (by simpa using hhunk)
            · exact ih hrest hfresh hfound hunk hhunk
      · refine ih hrest ?_ h
        intro hunk hhunk line hline
        obtain ⟨opened, hopened, rfl⟩ := Option.mem_map.mp hhunk
        rcases List.mem_append.mp hline with hline | hline
        · exact hcurrent opened hopened line hline
        · rw [List.mem_singleton] at hline
          exact hline ▸ hraw

/-- In rendered hunks no character ends a line but the newlines between the blocks. -/
theorem renderHunks_breaks
    {filePatch : FilePatch} {content : PyStr}
    (hpath : Unbroken (.ofString filePatch.path))
    (hold : Unbroken (oldPath filePatch))
    (h : renderHunks tables filePatch = .ok content) :
    ∀ c ∈ content.points, isLineBreak c = true → c = newline := by
  obtain ⟨hunks, hhunks, h⟩ := bind_eq_ok h
  obtain ⟨blocks, hblocks, h⟩ := bind_eq_ok h
  cases h
  have hlines : ∀ hunk ∈ hunks, ∀ line ∈ hunk.lines, Unbroken line :=
    parseHunksFrom_unbroken (fun _ hline => splitlines_no_break hline) (by simp) hhunks
  have hunbroken : ∀ line ∈ blocks.flatten, Unbroken line := by
    intro line hline
    obtain ⟨lines, hmem, hline⟩ := List.mem_flatten.mp hline
    obtain ⟨hunk, hhunk, hrendered⟩ := (mem_of_mapM_eq_ok hblocks).2 lines hmem
    obtain ⟨⟨newLines, oldLines⟩, hsplit, hrendered⟩ := bind_eq_ok hrendered
    cases hrendered
    have hsides := splitHunkFrom_unbroken (hlines hunk hhunk) hsplit
    have hnew : Unbroken (.ofString "NEW ") := unbroken_ofString rfl
    have holdHeader : Unbroken (.ofString "OLD ") := unbroken_ofString rfl
    simp only [List.cons_append, List.mem_cons, List.mem_append] at hline hsides
    rcases hline with rfl | hline | rfl | hline
    · exact unbroken_append hnew hpath
    · exact hsides line (.inl hline)
    · exact unbroken_append holdHeader hold
    · exact hsides line (.inr hline)
  intro c hc hbreak
  have hsep : (PyStr.ofString "\n").points = [newline] := rfl
  rcases mem_points_join hc with hc | ⟨line, hline, hc⟩
  · simpa [hsep] using hc
  · exact absurd hbreak (by simp [hunbroken line hline c hc])

end Cut

end Reviewer
end PrReviewer
