import Mathlib.Data.List.Nodup
import Mathlib.Tactic
import PrReviewer.Reviewer.RenderedLines

/-!
# The numbers of the rendered lines in the new text

A change is a diff between two texts when its hunks rewrite the lines of the one to those
of the other and its headers say where.  The renderer reads the diff with `str.splitlines`,
which ends a line not only at a newline; what is rendered is true of the new text exactly
where no line of the diff holds another such character.
-/

namespace PrReviewer
namespace Reviewer

open Lib

/-! ## Diffs between two texts -/

/-- The lines of a text, with whether a newline ends them. -/
def textLines (text : PyStr) : List (PyStr × Bool) :=
  text.lines.dropLast.map (fun line => (line, true)) ++
    (text.lines.getLast?.toList.filter (fun line => line ≠ ⟨[]⟩)).map (fun line => (line, false))

/-- The line of the file that a line of a hunk stands for. -/
def DiffLine.fileLine (line : DiffLine) : PyStr × Bool :=
  (⟨line.text.points ++ eol line.crlf⟩, !line.atEnd)

/-- The lines a hunk rewrites. -/
def oldFile (lines : List DiffLine) : List (PyStr × Bool) :=
  (lines.filter (fun line => line.mark ≠ .added)).map DiffLine.fileLine

/-- The lines a hunk writes. -/
def newFile (lines : List DiffLine) : List (PyStr × Bool) :=
  (lines.filter (fun line => line.mark ≠ .removed)).map DiffLine.fileLine

/-- A range of a header: of no lines it names the line before. -/
def IsRange (start : Nat) (count : Option Nat) (before length : Nat) : Prop :=
  count.getD 1 = length ∧ start = if length = 0 then before else before + 1

/-- The change is a diff between the lines behind the first ones. -/
inductive Diffs : Nat → Nat → List (PyStr × Bool) → List (PyStr × Bool) → Change → Prop
  | same (oldBefore newBefore : Nat) (lines : List (PyStr × Bool)) :
      Diffs oldBefore newBefore lines lines []
  | hunk {oldBefore newBefore : Nat} {oldRest newRest : List (PyStr × Bool)}
      {hunk : ChangeHunk} {change : Change} (same : List (PyStr × Bool))
      (hlines : hunk.lines ≠ [])
      (hold : IsRange hunk.oldStart hunk.oldCount (oldBefore + same.length)
        (oldFile hunk.lines).length)
      (hnew : IsRange hunk.newStart hunk.newCount (newBefore + same.length)
        (newFile hunk.lines).length)
      (hrest : Diffs (oldBefore + same.length + (oldFile hunk.lines).length)
        (newBefore + same.length + (newFile hunk.lines).length) oldRest newRest change) :
      Diffs oldBefore newBefore (same ++ oldFile hunk.lines ++ oldRest)
        (same ++ newFile hunk.lines ++ newRest) (hunk :: change)

/-- The change is a unified diff between the texts. -/
def IsDiff (old new : PyStr) (change : Change) : Prop :=
  Diffs 0 0 (textLines old) (textLines new) change

/-- The lines of the new side of a hunk under their numbers. -/
def sideFrom (number : Nat) : List DiffLine → List (Nat × DiffLine)
  | [] => []
  | line :: rest =>
      match line.mark with
      | .removed => sideFrom number rest
      | _ => (number, line) :: sideFrom (number + 1) rest

/-- The lines of the new sides under their numbers. -/
def Change.newLines (change : Change) : List (Nat × DiffLine) :=
  change.flatMap (fun hunk => sideFrom hunk.newStart hunk.lines)

/-- The kept and the removed lines. -/
def Change.oldLines (change : Change) : List PyStr :=
  change.flatMap (fun hunk => (oldFile hunk.lines).map Prod.fst)

/-- A line of the new side as it is to be shown. -/
def shownLine (line : Nat × DiffLine) : PyStr :=
  numbered (line.1, line.2.fileLine.1)

section Positions

theorem sideFrom_numbers
    (number : Nat) (lines : List DiffLine) :
    (sideFrom number lines).map Prod.fst = List.range' number (newFile lines).length := by
  induction lines generalizing number with
  | nil => rfl
  | cons line lines ih =>
      cases hmark : line.mark <;>
        simp_all [sideFrom, newFile, List.range'_succ]

/-- Where a line of the new side stands among the lines the hunk writes. -/
theorem sideFrom_position
    {number : Nat} {lines : List DiffLine} {line : Nat × DiffLine}
    (h : line ∈ sideFrom number lines) :
    ∃ i, line.1 = number + i ∧ (newFile lines)[i]? = some line.2.fileLine := by
  induction lines generalizing number with
  | nil => cases h
  | cons first lines ih =>
      have hshift : (∃ i, line.1 = number + 1 + i ∧ (newFile lines)[i]? = some line.2.fileLine) →
          first.mark ≠ .removed →
            ∃ i, line.1 = number + i ∧ (newFile (first :: lines))[i]? = some line.2.fileLine := by
        rintro ⟨i, hi, hline⟩ hmark
        refine ⟨i + 1, by omega, ?_⟩
        simpa [newFile, hmark] using hline
      have hhere : line = (number, first) → first.mark ≠ .removed →
          ∃ i, line.1 = number + i ∧ (newFile (first :: lines))[i]? = some line.2.fileLine := by
        rintro rfl hmark
        exact ⟨0, rfl, by simp [newFile, hmark]⟩
      cases hmark : first.mark with
      | removed =>
          simp only [sideFrom, hmark] at h
          simpa [newFile, hmark] using ih h
      | context =>
          simp only [sideFrom, hmark] at h
          rcases List.mem_cons.mp h with hfirst | h
          · exact hhere hfirst (by simp [hmark])
          · exact hshift (ih h) (by simp [hmark])
      | added =>
          simp only [sideFrom, hmark] at h
          rcases List.mem_cons.mp h with hfirst | h
          · exact hhere hfirst (by simp [hmark])
          · exact hshift (ih h) (by simp [hmark])

/-- A line of the new side stands in the new text under its number. -/
theorem Diffs.position
    {oldBefore newBefore : Nat} {oldLines newLines : List (PyStr × Bool)} {change : Change}
    {line : Nat × DiffLine}
    (h : Diffs oldBefore newBefore oldLines newLines change)
    (hline : line ∈ change.newLines) :
    ∃ i, line.1 = newBefore + i + 1 ∧ newLines[i]? = some line.2.fileLine := by
  induction h with
  | same => cases hline
  | @hunk oldBefore newBefore oldRest newRest hunk change same _ _ hnew _ ih =>
      rcases List.mem_append.mp hline with hhere | hrest
      · obtain ⟨i, hi, hposition⟩ := sideFrom_position hhere
        obtain ⟨hbound, _⟩ := List.getElem?_eq_some_iff.mp hposition
        have hstart : hunk.newStart = newBefore + same.length + 1 := by
          rw [hnew.2, if_neg (by omega)]
        refine ⟨same.length + i, by omega, ?_⟩
        rw [List.append_assoc, List.getElem?_append_right (by omega), Nat.add_sub_cancel_left,
          List.getElem?_append_left hbound, hposition]
      · obtain ⟨i, hi, hposition⟩ := ih hrest
        refine ⟨(same ++ newFile hunk.lines).length + i, by rw [List.length_append]; omega, ?_⟩
        rw [List.getElem?_append_right (by omega), Nat.add_sub_cancel_left, hposition]

theorem Diffs.lines_ne
    {oldBefore newBefore : Nat} {oldLines newLines : List (PyStr × Bool)} {change : Change}
    (h : Diffs oldBefore newBefore oldLines newLines change) :
    ∀ hunk ∈ change, hunk.lines ≠ [] := by
  induction h with
  | same => nofun
  | hunk _ hlines _ _ _ ih => exact List.forall_mem_cons.mpr ⟨hlines, ih⟩

/-- The numbers of the new sides increase. -/
theorem Diffs.increasing
    {oldBefore newBefore : Nat} {oldLines newLines : List (PyStr × Bool)} {change : Change}
    (h : Diffs oldBefore newBefore oldLines newLines change) :
    (change.newLines.map Prod.fst).Pairwise (· < ·) := by
  induction h with
  | same => exact List.Pairwise.nil
  | @hunk oldBefore newBefore oldRest newRest hunk change same _ _ hnew hrest ih =>
      rw [Change.newLines, List.flatMap_cons, List.map_append, sideFrom_numbers,
        List.pairwise_append]
      refine ⟨List.pairwise_lt_range', ih, ?_⟩
      intro n hn m hm
      obtain ⟨line, hline, rfl⟩ := List.mem_map.mp hm
      obtain ⟨i, hi, _⟩ := hrest.position hline
      obtain ⟨hfirst, hlast⟩ := List.mem_range'_1.mp hn
      have hstart : hunk.newStart = newBefore + same.length + 1 := by
        rw [hnew.2, if_neg (by omega)]
      omega

end Positions

/-! ## The rendered sections -/

section Sections

variable (tables : UnicodeTables)

/-- The new and the old sections of a patch. -/
def renderedSections (patch : PyStr) : Except PyException (List (List PyStr × List PyStr)) := do
  let hunks ← parseHunks tables patch
  hunks.mapM splitHunk

/-- The blocks of a hunk's two sections. -/
def sectionBlocks (filePatch : FilePatch) (sides : List PyStr × List PyStr) : List PyStr :=
  (.ofString "NEW " ++ .ofString filePatch.path) :: sides.1 ++
    (.ofString "OLD " ++ oldPath filePatch) :: sides.2

/-- What is rendered of a change says where its lines stand in the new text. -/
def RealNumbers (filePatch : FilePatch) (new : PyStr) (change : Change) : Prop :=
  ∃ sections, renderedSections tables filePatch.patch = .ok sections ∧
    renderHunks tables filePatch =
      .ok (PyStr.join (.ofString "\n") (sections.flatMap (sectionBlocks filePatch))) ∧
    (∀ line ∈ sections.flatMap Prod.fst, ∃ n text, line = numbered (n + 1, text) ∧
      new.lines[n]? = some text) ∧
    ((change.newLines.filter (fun line => line.2.mark = .added)).map shownLine).Sublist
      (sections.flatMap Prod.fst) ∧
    (∀ line ∈ change.newLines, line.2.mark = .added →
      (sections.flatMap Prod.fst).count (shownLine line) = 1) ∧
    sections.flatMap Prod.snd = change.oldLines

/-- No line holds a character at which `str.splitlines` ends a line. -/
def Change.Whole (change : Change) : Prop :=
  ∀ hunk ∈ change, ∀ line ∈ hunk.lines,
    Reviewer.Unbroken line.text ∧ line.crlf = false

/-- What follows a line break in a heading is neither a header nor a line of a hunk. -/
def Change.HeadingsHarmless (change : Change) : Prop :=
  ∀ hunk ∈ change, ∀ piece ∈ hunk.heading.pieces.tail,
    hunkHeader tables piece = none ∧ markOf piece = none

/-- Python converts every number of the new sides. -/
def Change.Countable (change : Change) : Prop :=
  ∀ hunk ∈ change, hunk.newStart < 10 ^ maxStrDigits ∧
    ∀ line ∈ sideFrom hunk.newStart hunk.lines, line.1 < 10 ^ maxStrDigits

variable {tables}

theorem renderHunks_eq_sections
    {filePatch : FilePatch} {sections : List (List PyStr × List PyStr)}
    (h : renderedSections tables filePatch.patch = .ok sections) :
    renderHunks tables filePatch =
      .ok (PyStr.join (.ofString "\n") (sections.flatMap (sectionBlocks filePatch))) := by
  obtain ⟨hunks, hhunks, h⟩ := bind_eq_ok h
  have hblocks : ∀ (hunks : List Hunk) sections, hunks.mapM splitHunk = .ok sections →
      hunks.mapM (hunkBlocks filePatch) = .ok (sections.map (sectionBlocks filePatch)) := by
    intro hunks
    induction hunks with
    | nil =>
        intro sections h
        cases h
        rfl
    | cons hunk hunks ih =>
        intro sections h
        rw [List.mapM_cons] at h
        obtain ⟨sides, hsides, h⟩ := bind_eq_ok h
        obtain ⟨others, hothers, h⟩ := bind_eq_ok h
        cases h
        rw [List.mapM_cons, hunkBlocks, hsides, ok_bind, ih others hothers]
        rfl
  rw [renderHunks, hhunks, ok_bind, hblocks hunks sections h, ok_bind, List.flatMap_def]
  rfl

/-- What a line of a hunk adds to the contents of the two sides. -/
theorem contents_cons
    (line : DiffLine) (lines : List DiffLine) :
    let bodies := (lines.flatMap DiffLine.raw).map Prod.fst
    let all := ((line :: lines).flatMap DiffLine.raw).map Prod.fst
    newContents all =
        (if line.mark = .removed then newContents bodies else line.text :: newContents bodies) ∧
      oldContents all =
        (if line.mark = .added then oldContents bodies else line.text :: oldContents bodies) := by
  have hskip : markOf noNewline = none := by decide +kernel
  have hraw : ((line :: lines).flatMap DiffLine.raw).map Prod.fst =
      line.body :: ((if line.atEnd then [(noNewline, false)] else []).map Prod.fst ++
        (lines.flatMap DiffLine.raw).map Prod.fst) := by
    simp [DiffLine.raw]
  have hnew : ∀ rest : List PyStr, newContents
      ((if line.atEnd then [(noNewline, false)] else []).map Prod.fst ++ rest) =
        newContents rest := by
    intro rest
    split
    · simp only [List.map_cons, List.map_nil, List.cons_append, List.nil_append, newContents, hskip]
    · rfl
  have hold : ∀ rest : List PyStr, oldContents
      ((if line.atEnd then [(noNewline, false)] else []).map Prod.fst ++ rest) =
        oldContents rest := by
    intro rest
    split
    · simp only [List.map_cons, List.map_nil, List.cons_append, List.nil_append, oldContents, hskip]
    · rfl
  simp only [hraw, newContents, oldContents, markOf_body, hnew, hold]
  cases line.mark <;> exact ⟨rfl, rfl⟩

/-- The contents that a hunk's lines show on the new side, under their numbers. -/
theorem shownFrom_bodies
    (number : Nat) (lines : List DiffLine) :
    shownFrom number (newContents ((lines.flatMap DiffLine.raw).map Prod.fst)) =
      (sideFrom number lines).map (fun line => numbered (line.1, line.2.text)) := by
  induction lines generalizing number with
  | nil => rfl
  | cons line lines ih =>
      rw [(contents_cons line lines).1]
      cases hmark : line.mark with
      | removed => simpa [sideFrom, hmark] using ih number
      | context => simpa [sideFrom, shownFrom, hmark] using ih (number + 1)
      | added => simpa [sideFrom, shownFrom, hmark] using ih (number + 1)

theorem oldContents_bodies
    (lines : List DiffLine) :
    oldContents ((lines.flatMap DiffLine.raw).map Prod.fst) = oldSide lines := by
  induction lines with
  | nil => rfl
  | cons line lines ih =>
      rw [(contents_cons line lines).2, ih]
      cases hmark : line.mark <;> simp [oldSide, hmark]

theorem length_newContents_bodies
    (lines : List DiffLine) :
    (newContents ((lines.flatMap DiffLine.raw).map Prod.fst)).length =
      (newFile lines).length := by
  induction lines with
  | nil => rfl
  | cons line lines ih =>
      rw [(contents_cons line lines).1]
      cases hmark : line.mark <;> simp [newFile, hmark] <;> simpa [newFile] using ih

/-- The two sides of a hunk's lines, behind lines that are skipped. -/
theorem splitHunkFrom_bodies
    {number : Nat} {skipped : List PyStr} {lines : List DiffLine}
    {sides : List PyStr × List PyStr}
    (hskipped : ∀ line ∈ skipped, markOf line = none) :
    splitHunkFrom number (skipped ++ (lines.flatMap DiffLine.raw).map Prod.fst) = .ok sides ↔
      (∀ line ∈ sideFrom number lines, line.1 < 10 ^ maxStrDigits) ∧
        sides = ((sideFrom number lines).map (fun line => numbered (line.1, line.2.text)),
          oldSide lines) := by
  induction skipped with
  | nil =>
      rw [List.nil_append, splitHunkFrom_eq_ok_iff, shownFrom_bodies, oldContents_bodies,
        Printable, length_newContents_bodies]
      refine and_congr_left' ?_
      have hnumbers : ∀ n, n ∈ (sideFrom number lines).map Prod.fst ↔
          number ≤ n ∧ n < number + (newFile lines).length := by
        intro n
        rw [sideFrom_numbers, List.mem_range'_1]
      constructor
      · intro h line hline
        obtain ⟨hfirst, hlast⟩ := (hnumbers line.1).mp (List.mem_map_of_mem hline)
        have hlimit := h (line.1 - number) (by omega)
        rwa [Nat.add_sub_cancel' hfirst] at hlimit
      · intro h i hi
        obtain ⟨line, hline, heq⟩ := List.mem_map.mp ((hnumbers (number + i)).mpr (by omega))
        exact heq ▸ h line hline
  | cons line skipped ih =>
      obtain ⟨hline, hrest⟩ := List.forall_mem_cons.mp hskipped
      rw [List.cons_append, splitHunkFrom, hline]
      exact ih hrest

/-- The pieces of a header: the header itself, and what follows a break in its heading. -/
theorem pieces_header
    (hunk : ChangeHunk) :
    ∃ heading, hunk.header.pieces =
      headerText hunk.oldStart hunk.oldCount hunk.newStart hunk.newCount heading ::
        hunk.heading.pieces.tail := by
  obtain ⟨first, others, hheading, hpieces⟩ := pieces_append (unbroken_lead hunk) hunk.heading
  refine ⟨first, ?_⟩
  rw [hheading, List.tail_cons]
  exact hpieces

/-- The hunk that is read for a hunk of the change. -/
def ChangeHunk.parsed (hunk : ChangeHunk) : Hunk where
  newStart := hunk.newStart
  lines := hunk.heading.pieces.tail ++ hunk.bodies

theorem parseHunksFrom_change
    {change : Change} (hheadings : change.HeadingsHarmless tables)
    {current : Option Hunk} {hunks : List Hunk} :
    parseHunksFrom tables current
        (change.flatMap (fun hunk => hunk.header.pieces ++ hunk.bodies)) = .ok hunks ↔
      (∀ hunk ∈ change, hunk.newStart < 10 ^ maxStrDigits) ∧
        hunks = current.toList ++ change.map ChangeHunk.parsed := by
  induction change generalizing current hunks with
  | nil => simp [parseHunksFrom, eq_comm]
  | cons hunk change ih =>
      obtain ⟨hheading, hrest⟩ := List.forall_mem_cons.mp hheadings
      obtain ⟨heading, hpieces⟩ := pieces_header hunk
      have hnone : ∀ line ∈ hunk.heading.pieces.tail ++ hunk.bodies,
          hunkHeader tables line = none := by
        intro line hline
        rcases List.mem_append.mp hline with hline | hline
        · exact (hheading line hline).1
        · exact hunkHeader_body hline
      rw [List.flatMap_cons, hpieces, List.cons_append, List.cons_append, parseHunksFrom,
        hunkHeader_headerText]
      simp only [intOfText_decimal_eq, List.forall_mem_cons]
      split
      · next hlong =>
          have hlimit : ¬ hunk.newStart < 10 ^ maxStrDigits := by
            intro hlimit
            rw [if_pos hlimit] at hlong
            cases hlong
          simp [hlimit]
      · next start hstart =>
          have hlimit : hunk.newStart < 10 ^ maxStrDigits := by
            by_contra hlong
            rw [if_neg hlong] at hstart
            cases hstart
          rw [if_pos hlimit] at hstart
          obtain rfl := Option.some.inj hstart
          rw [parseHunksFrom_bodies _ _ _ hnone]
          constructor
          · intro h
            obtain ⟨found, hfound, h⟩ := bind_eq_ok h
            cases h
            obtain ⟨hothers, rfl⟩ := (ih hrest).mp hfound
            exact ⟨⟨hlimit, hothers⟩, rfl⟩
          · rintro ⟨⟨_, hothers⟩, rfl⟩
            rw [(ih hrest).mpr ⟨hothers, rfl⟩]
            rfl

/-- What stands in the patch for a line that is whole. -/
theorem raw_of_whole
    {line : DiffLine} (htext : Reviewer.Unbroken line.text) (hcrlf : line.crlf = false) :
    ∀ raw ∈ line.raw, (⟨raw.1.points ++ eol raw.2⟩ : PyStr) = raw.1 ∧
      Reviewer.Unbroken raw.1 ∧ raw.1.points ≠ [] := by
  intro raw hraw
  have hflag : raw.2 = false := by
    rcases List.mem_cons.mp hraw with rfl | hraw
    · exact hcrlf
    · split at hraw
      · rw [List.mem_singleton] at hraw
        rw [hraw]
      · cases hraw
  refine ⟨?_, unbroken_raw htext raw hraw⟩
  rw [hflag, eol, if_neg Bool.false_ne_true, List.append_nil]

theorem ends_of_whole
    {change : Change} (hwhole : change.Whole) :
    change.raw.map (fun line => (⟨line.1.points ++ eol line.2⟩ : PyStr)) =
      change.flatMap (fun hunk => hunk.header :: hunk.bodies) := by
  have hplain : ∀ line ∈ change.raw, (⟨line.1.points ++ eol line.2⟩ : PyStr) = line.1 := by
    intro line hline
    obtain ⟨hunk, hhunk, hline⟩ := List.mem_flatMap.mp hline
    rcases List.mem_cons.mp hline with rfl | hline
    · simp [eol]
    · obtain ⟨diffLine, hmem, hline⟩ := List.mem_flatMap.mp hline
      obtain ⟨htext, hcrlf⟩ := hwhole hunk hhunk diffLine hmem
      exact (raw_of_whole htext hcrlf line hline).1
  rw [List.map_congr_left hplain, Change.raw, List.map_flatMap]
  rfl

/-- The lines of the patch of a change whose lines are whole. -/
theorem splitlines_whole
    {change : Change} (hwhole : change.Whole) (hlines : ∀ hunk ∈ change, hunk.lines ≠ []) :
    (patchText change).splitlines =
      change.flatMap (fun hunk => hunk.header.pieces ++ hunk.bodies) := by
  have hbodies : ∀ hunk ∈ change, ∀ line ∈ hunk.bodies,
      Reviewer.Unbroken line ∧ line.points ≠ [] := by
    intro hunk hhunk line hline
    obtain ⟨raw, hraw, rfl⟩ := List.mem_map.mp hline
    obtain ⟨diffLine, hmem, hraw⟩ := List.mem_flatMap.mp hraw
    obtain ⟨htext, hcrlf⟩ := hwhole hunk hhunk diffLine hmem
    exact (raw_of_whole htext hcrlf raw hraw).2
  have hpieces : (change.flatMap (fun hunk => hunk.header :: hunk.bodies)).flatMap PyStr.pieces =
      change.flatMap (fun hunk => hunk.header.pieces ++ hunk.bodies) := by
    rw [List.flatMap_assoc]
    refine List.flatMap_congr (fun hunk hhunk => ?_)
    rw [List.flatMap_cons, List.flatMap_congr
      (fun line hline => pieces_of_unbroken (hbodies hunk hhunk line hline).1),
      List.flatMap_singleton']
  rw [patchText, ends_of_whole hwhole, ← hpieces]
  rcases List.eq_nil_or_concat change with rfl | ⟨init, hunk, rfl⟩
  · rfl
  -- The last line of the patch is a body line of the last hunk.
  have hmem : hunk ∈ init.concat hunk := by simp
  have hne : hunk.bodies ≠ [] := by
    obtain ⟨line, others, heq⟩ := List.exists_cons_of_ne_nil (hlines hunk hmem)
    simp [ChangeHunk.bodies, heq, DiffLine.raw]
  obtain ⟨front, last, hlast⟩ := (List.eq_nil_or_concat hunk.bodies).resolve_left hne
  obtain ⟨hunbroken, hpoints⟩ := hbodies hunk hmem last (by simp [hlast])
  have hends : (init.concat hunk).flatMap (fun hunk => hunk.header :: hunk.bodies) =
      (init.flatMap (fun hunk => hunk.header :: hunk.bodies) ++ hunk.header :: front) ++
        [last] := by
    simp [hlast]
  have hsplit : last.splitlines = [last] := by
    have h := splitlines_last hunbroken hpoints false
    rwa [eol, if_neg Bool.false_ne_true, List.append_nil] at h
  have hlastPieces : ∀ lines : List PyStr, (lines ++ [last]).flatMap PyStr.pieces =
      lines.flatMap PyStr.pieces ++ [last] := by
    intro lines
    rw [List.flatMap_append, List.flatMap_singleton, pieces_of_unbroken hunbroken]
  rw [hends, splitlines_join_pieces, hsplit, hlastPieces]

/-- The sections of a hunk whose lines are whole. -/
def ChangeHunk.sections (hunk : ChangeHunk) : List PyStr × List PyStr :=
  ((sideFrom hunk.newStart hunk.lines).map (fun line => numbered (line.1, line.2.text)),
    oldSide hunk.lines)

/-- The sections of a change whose lines are whole and whose headings add nothing. -/
theorem renderedSections_whole
    {change : Change} (hwhole : change.Whole) (hlines : ∀ hunk ∈ change, hunk.lines ≠ [])
    (hheadings : change.HeadingsHarmless tables) {sections : List (List PyStr × List PyStr)} :
    renderedSections tables (patchText change) = .ok sections ↔
      change.Countable ∧ sections = change.map ChangeHunk.sections := by
  have hsplit : ∀ hunk ∈ change, ∀ sides, splitHunk hunk.parsed = .ok sides ↔
      (∀ line ∈ sideFrom hunk.newStart hunk.lines, line.1 < 10 ^ maxStrDigits) ∧
        sides = hunk.sections := by
    intro hunk hhunk sides
    exact splitHunkFrom_bodies fun piece hpiece => (hheadings hunk hhunk piece hpiece).2
  have hread : ∀ found, (change.map ChangeHunk.parsed).mapM splitHunk = .ok found ↔
      (∀ hunk ∈ change, ∀ line ∈ sideFrom hunk.newStart hunk.lines,
        line.1 < 10 ^ maxStrDigits) ∧ found = change.map ChangeHunk.sections := by
    intro found
    rw [List.mapM_map]
    exact mapM_eq_ok_iff hsplit
  have hparse : ∀ hunks, parseHunksFrom tables none
      (change.flatMap (fun hunk => hunk.header.pieces ++ hunk.bodies)) = .ok hunks ↔
        (∀ hunk ∈ change, hunk.newStart < 10 ^ maxStrDigits) ∧
          hunks = change.map ChangeHunk.parsed :=
    fun hunks => parseHunksFrom_change hheadings
  simp only [renderedSections, parseHunks, splitlines_whole hwhole hlines]
  constructor
  · intro h
    obtain ⟨hunks, hhunks, h⟩ := bind_eq_ok h
    obtain ⟨hstarts, rfl⟩ := (hparse hunks).mp hhunks
    obtain ⟨hnumbers, rfl⟩ := (hread sections).mp h
    exact ⟨fun hunk hhunk => ⟨hstarts hunk hhunk, hnumbers hunk hhunk⟩, rfl⟩
  · rintro ⟨hcountable, rfl⟩
    rw [(hparse _).mpr ⟨fun hunk hhunk => (hcountable hunk hhunk).1, rfl⟩, ok_bind]
    exact (hread _).mpr ⟨fun hunk hhunk => (hcountable hunk hhunk).2, rfl⟩

/-- The lines of a text are those with their newlines, and an empty one behind the last
newline. -/
theorem lines_of_textLines
    {text line : PyStr} {ended : Bool} {i : Nat} (h : (textLines text)[i]? = some (line, ended)) :
    text.lines[i]? = some line := by
  have hprefix : (textLines text).map Prod.fst <+: text.lines := by
    rcases List.eq_nil_or_concat text.lines with hnil | ⟨init, last, hlast⟩
    · simp [textLines, hnil]
    · have hinit : init.map (Prod.fst ∘ fun line => (line, true)) = init := List.map_id init
      by_cases hempty : last = ⟨[]⟩
      · simp [textLines, hlast, hempty, hinit]
      · simp [textLines, hlast, hempty, hinit]
  obtain ⟨rest, hrest⟩ := hprefix
  have hfirst : ((textLines text).map Prod.fst)[i]? = some line := by
    rw [List.getElem?_map, h]
    rfl
  obtain ⟨hbound, _⟩ := List.getElem?_eq_some_iff.mp hfirst
  rw [← hrest, List.getElem?_append_left hbound, hfirst]

theorem mem_sideFrom
    {number : Nat} {lines : List DiffLine} {line : Nat × DiffLine}
    (h : line ∈ sideFrom number lines) :
    line.2 ∈ lines := by
  induction lines generalizing number with
  | nil => cases h
  | cons first lines ih =>
      simp only [sideFrom] at h
      split at h
      · exact List.mem_cons_of_mem first (ih h)
      · rcases List.mem_cons.mp h with rfl | h
        · exact List.mem_cons_self ..
        · exact List.mem_cons_of_mem first (ih h)

/-- Every line that is not removed has a number. -/
theorem exists_mem_sideFrom
    (number : Nat) {lines : List DiffLine} {line : DiffLine}
    (hline : line ∈ lines) (hmark : line.mark ≠ .removed) :
    ∃ n, (n, line) ∈ sideFrom number lines := by
  induction lines generalizing number with
  | nil => cases hline
  | cons first lines ih =>
      rcases List.mem_cons.mp hline with rfl | hline
      · exact ⟨number, by simp [sideFrom]⟩
      · by_cases hfirst : first.mark = .removed
        · simpa [sideFrom, hfirst] using ih number hline
        · obtain ⟨n, hn⟩ := ih (number + 1) hline
          exact ⟨n, by simp [sideFrom, hn]⟩

/-- A number tells its line. -/
theorem number_of_shownLine
    {line line' : Nat × DiffLine} (h : shownLine line = shownLine line') :
    line.1 = line'.1 := by
  have hread : lineNumber bareTables (shownLine line) = some (decimal line.1) :=
    lineNumber_numbered _
  have hread' : lineNumber bareTables (shownLine line') = some (decimal line'.1) :=
    lineNumber_numbered _
  rw [h, hread'] at hread
  exact (decimal_injective (Option.some.inj hread)).symm

/-- A line of the file without a line break is whole. -/
theorem whole_of_fileLine
    {line : DiffLine} (h : Reviewer.Unbroken line.fileLine.1) :
    Reviewer.Unbroken line.text ∧ line.crlf = false := by
  constructor
  · exact fun c hc => h c (List.mem_append_left _ hc)
  · by_contra hcrlf
    have hmem : carriageReturn ∈ line.fileLine.1.points := by
      refine List.mem_append_right _ ?_
      rw [eol, if_pos (by simpa using hcrlf)]
      exact List.mem_singleton_self _
    exact absurd (h _ hmem) (by decide)

theorem fileLine_of_whole
    {line : DiffLine} (hcrlf : line.crlf = false) :
    line.fileLine.1 = line.text := by
  simp [DiffLine.fileLine, eol, hcrlf]

/-- No section holds a line break of `str.splitlines`. -/
theorem renderedSections_unbroken
    {patch : PyStr} {sections : List (List PyStr × List PyStr)}
    (h : renderedSections tables patch = .ok sections) :
    ∀ sides ∈ sections, ∀ line ∈ sides.1 ++ sides.2, Reviewer.Unbroken line := by
  obtain ⟨hunks, hhunks, h⟩ := bind_eq_ok h
  have hlines : ∀ hunk ∈ hunks, ∀ line ∈ hunk.lines, Reviewer.Unbroken line :=
    parseHunksFrom_unbroken (fun _ hline => splitlines_no_break hline) (by simp) hhunks
  intro sides hsides
  obtain ⟨hunk, hhunk, hsplit⟩ := (mem_of_mapM_eq_ok h).2 sides hsides
  exact splitHunkFrom_unbroken (hlines hunk hhunk) hsplit

/-- Numbers that are real need whole lines: a section holds no line break, and every line of
the diff is to stand in a section. -/
theorem whole_of_realNumbers
    {filePatch : FilePatch} {new : PyStr} {change : Change}
    (h : RealNumbers tables filePatch new change) :
    change.Whole := by
  obtain ⟨sections, hsections, _, _, hadded, _, hold⟩ := h
  have hunbroken := renderedSections_unbroken hsections
  intro hunk hhunk line hline
  apply whole_of_fileLine
  by_cases hmark : line.mark = .added
  · obtain ⟨n, hn⟩ := exists_mem_sideFrom hunk.newStart hline (by simp [hmark])
    have hmem : (n, line) ∈ change.newLines := List.mem_flatMap.mpr ⟨hunk, hhunk, hn⟩
    have hnew : (n, line) ∈ change.newLines.filter (fun line => line.2.mark = .added) :=
      List.mem_filter.mpr ⟨hmem, by simp [hmark]⟩
    have hshown := hadded.subset (List.mem_map_of_mem (f := shownLine) hnew)
    obtain ⟨sides, hsides, hmem⟩ := List.mem_flatMap.mp hshown
    have hline := hunbroken sides hsides _ (List.mem_append_left _ hmem)
    exact fun c hc => hline c (List.mem_append_right _ hc)
  · have hmem : line.fileLine.1 ∈ change.oldLines :=
      List.mem_flatMap_of_mem hhunk
        (List.mem_map_of_mem (List.mem_map_of_mem (List.mem_filter.mpr ⟨hline, by simp [hmark]⟩)))
    rw [← hold] at hmem
    obtain ⟨sides, hsides, hmem⟩ := List.mem_flatMap.mp hmem
    exact hunbroken sides hsides _ (List.mem_append_right _ hmem)

/-- The new sections of a change whose lines are whole. -/
theorem newSections_whole
    {change : Change} (hwhole : change.Whole) :
    (change.map ChangeHunk.sections).flatMap Prod.fst = change.newLines.map shownLine := by
  rw [List.flatMap_map, Change.newLines, List.map_flatMap]
  refine List.flatMap_congr fun hunk hhunk => List.map_congr_left fun line hline => ?_
  obtain ⟨_, hcrlf⟩ := hwhole hunk hhunk line.2 (mem_sideFrom hline)
  rw [shownLine, fileLine_of_whole hcrlf]

/-- The old sections of a change whose lines are whole. -/
theorem oldSections_whole
    {change : Change} (hwhole : change.Whole) :
    (change.map ChangeHunk.sections).flatMap Prod.snd = change.oldLines := by
  rw [List.flatMap_map, Change.oldLines]
  refine List.flatMap_congr fun hunk hhunk => ?_
  simp only [ChangeHunk.sections, oldSide, oldFile, List.map_map]
  refine List.map_congr_left fun line hline => ?_
  obtain ⟨_, hcrlf⟩ := hwhole hunk hhunk line (List.mem_filter.mp hline).1
  exact (fileLine_of_whole hcrlf).symm

/-- What is rendered of a diff whose lines are whole and whose headings add nothing. -/
theorem realNumbers_of_whole
    {filePatch : FilePatch} {old new : PyStr} {change : Change}
    (hdiff : IsDiff old new change)
    (hsections : renderedSections tables filePatch.patch =
      .ok (change.map ChangeHunk.sections))
    (hwhole : change.Whole) :
    RealNumbers tables filePatch new change := by
  have hnew := newSections_whole hwhole
  have hnodup : (change.newLines.map shownLine).Nodup := by
    rw [List.nodup_iff_pairwise_ne, List.pairwise_map]
    refine List.Pairwise.imp ?_ (List.pairwise_map.mp hdiff.increasing)
    intro line line' hlt heq
    exact absurd (number_of_shownLine heq) (Nat.ne_of_lt hlt)
  refine ⟨_, hsections, renderHunks_eq_sections hsections, ?_, ?_, ?_, oldSections_whole hwhole⟩
  · rw [hnew]
    intro shown hshown
    obtain ⟨line, hline, rfl⟩ := List.mem_map.mp hshown
    obtain ⟨i, hi, hposition⟩ := hdiff.position hline
    refine ⟨i, line.2.fileLine.1, ?_, lines_of_textLines hposition⟩
    rw [shownLine, hi, Nat.zero_add]
  · rw [hnew]
    exact List.filter_sublist.map shownLine
  · rw [hnew]
    intro line hline _
    exact List.count_eq_one_of_mem hnodup (List.mem_map_of_mem hline)

/-- What is rendered of a diff is true of the new text only where the lines of the diff are
whole; where no heading adds a line or a header, exactly where they are, and Python converts
the numbers. -/
theorem real_numbers_iff_whole
    (filePatch : FilePatch) (old new : PyStr) (change : Change)
    (hdiff : IsDiff old new change) (hpatch : filePatch.patch = patchText change) :
    (RealNumbers tables filePatch new change → change.Whole) ∧
      (change.HeadingsHarmless tables →
        (RealNumbers tables filePatch new change ↔ change.Whole ∧ change.Countable)) := by
  refine ⟨whole_of_realNumbers, fun hheadings => ⟨fun h => ?_, ?_⟩⟩
  · have hwhole := whole_of_realNumbers h
    obtain ⟨sections, hsections, _⟩ := h
    rw [hpatch, renderedSections_whole hwhole hdiff.lines_ne hheadings] at hsections
    exact ⟨hwhole, hsections.1⟩
  · rintro ⟨hwhole, hcountable⟩
    refine realNumbers_of_whole hdiff ?_ hwhole
    rw [hpatch, renderedSections_whole hwhole hdiff.lines_ne hheadings]
    exact ⟨hcountable, rfl⟩

/-- The line `one`. -/
def oneLine (mark : Mark) : DiffLine where
  mark := mark
  text := .ofString "one"
  crlf := false
  atEnd := false
  text_line := by decide +kernel
  text_end := by decide +kernel

/-- A line with a form feed in it. -/
def pagedLine : DiffLine where
  mark := .added
  text := .ofString "one\x0ctwo"
  crlf := false
  atEnd := false
  text_line := by decide +kernel
  text_end := by decide +kernel

/-- The line `one` becomes the lines. -/
def oneBecomes (newCount : Option Nat) (added : List DiffLine) : ChangeHunk where
  oldStart := 1
  oldCount := none
  newStart := 1
  newCount := newCount
  heading := ⟨[]⟩
  lines := oneLine .removed :: added
  heading_line := List.not_mem_nil

def pagesPatch (change : Change) : FilePatch where
  path := "pages.txt"
  patch := patchText change
  previousPath := none
  path_ne := by decide

/-- The line `one` twice, for once. -/
theorem real_numbers_iff_whole_twice :
    let change : Change := [oneBecomes (some 2) [oneLine .added, oneLine .added]]
    IsDiff (.ofString "one\n") (.ofString "one\none\n") change ∧
      RealNumbers bareTables (pagesPatch change) (.ofString "one\none\n") change := by
  intro change
  have hold : textLines (.ofString "one\n") =
      [] ++ oldFile (oneBecomes (some 2) [oneLine .added, oneLine .added]).lines ++ [] := by
    decide +kernel
  have hnew : textLines (.ofString "one\none\n") =
      [] ++ newFile (oneBecomes (some 2) [oneLine .added, oneLine .added]).lines ++ [] := by
    decide +kernel
  have hdiff : IsDiff (.ofString "one\n") (.ofString "one\none\n") change := by
    rw [IsDiff, hold, hnew]
    exact .hunk [] (List.cons_ne_nil _ _) ⟨rfl, by decide⟩ ⟨rfl, by decide⟩ (.same _ _ [])
  have hheadings : change.HeadingsHarmless bareTables := by
    intro hunk hhunk piece hpiece
    rw [List.mem_singleton.mp hhunk] at hpiece
    cases hpiece
  have hwhole : change.Whole := by
    intro hunk hhunk line hline
    rw [List.mem_singleton.mp hhunk] at hline
    have htext : line.text = .ofString "one" ∧ line.crlf = false := by
      simp only [oneBecomes, List.mem_cons, List.not_mem_nil, or_false] at hline
      rcases hline with rfl | rfl | rfl <;> exact ⟨rfl, rfl⟩
    exact ⟨htext.1 ▸ unbroken_ofString (by decide +kernel), htext.2⟩
  have hcountable : change.Countable := by
    have hlimit : 2 < 10 ^ maxStrDigits := by
      calc 2 < 10 ^ 1 := by norm_num
        _ ≤ 10 ^ maxStrDigits := Nat.pow_le_pow_right (by norm_num) (by decide)
    intro hunk hhunk
    rw [List.mem_singleton.mp hhunk]
    refine ⟨Nat.lt_of_le_of_lt (by decide) hlimit, fun line hline => ?_⟩
    have hnumbers : line.1 ∈ List.range' 1 2 := by
      have h := List.mem_map_of_mem (f := Prod.fst) hline
      rwa [sideFrom_numbers] at h
    have hbound := (List.mem_range'_1.mp hnumbers).2
    omega
  exact ⟨hdiff, ((real_numbers_iff_whole (pagesPatch change) _ _ change hdiff rfl).2
    hheadings).mpr ⟨hwhole, hcountable⟩⟩

/-- A form feed in an added line: the line is shown up to the form feed, under its number. -/
theorem paged_line_cut :
    let change : Change := [oneBecomes none [pagedLine]]
    IsDiff (.ofString "one\n") (.ofString "one\x0ctwo\n") change ∧
      renderHunks bareTables (pagesPatch change) =
        .ok (.ofString "NEW pages.txt\n1| one\nOLD pages.txt\none") ∧
      ¬ RealNumbers bareTables (pagesPatch change) (.ofString "one\x0ctwo\n") change := by
  intro change
  have hold : textLines (.ofString "one\n") =
      [] ++ oldFile (oneBecomes none [pagedLine]).lines ++ [] := by
    decide +kernel
  have hnew : textLines (.ofString "one\x0ctwo\n") =
      [] ++ newFile (oneBecomes none [pagedLine]).lines ++ [] := by
    decide +kernel
  refine ⟨?_, by decide +kernel, fun h => ?_⟩
  · rw [IsDiff, hold, hnew]
    exact .hunk [] (List.cons_ne_nil _ _) ⟨rfl, by decide⟩ ⟨rfl, by decide⟩ (.same _ _ [])
  · have hwhole := whole_of_realNumbers h _ (List.mem_singleton_self _) pagedLine (by simp [oneBecomes])
    exact absurd (hwhole.1 0x0c (by decide +kernel)) (by decide)

end Sections

end Reviewer
end PrReviewer
