import Mathlib.Data.List.Forall2
import Mathlib.Tactic
import PrReviewer.Retrieval.IndexAnyTree

/-!
# The lines of a Python chunk

The parser ends a line at a newline, a carriage return, or the pair; `str.splitlines` ends
one at eight other characters as well.  A chunk is cut out of the lines of `str.splitlines`
by the numbers of the parser.

Where it holds the lines of its definition is settled here: no line of the definition is
split further, and the lines that are split further before it do not shift it, unless onto
lines that read the same.
-/

namespace PrReviewer
namespace Retrieval

open Lib

/-- The characters at which the parser ends a line. -/
def endsLine (c : CodePoint) : Bool :=
  c = newline ∨ c = carriageReturn

/-- The lines the parser counts. -/
def parserLines (source : PyStr) : List PyStr :=
  (dropEmptyLast ((joinCrLf source.points).splitOnP endsLine)).map PyStr.mk

/-- What `str.splitlines` makes of a line of the parser. -/
def splitFurther (line : PyStr) : List PyStr :=
  (line.points.splitOnP isLineBreak).map PyStr.mk

/-- The lines of a range, from the first to the last. -/
def rangeLines (source : PyStr) (range : Nat × Nat) : List PyStr :=
  ((parserLines source).take range.2).drop (range.1 - 1)

/-- What `str.splitlines` makes of the lines before a line. -/
def splitBefore (source : PyStr) (startLine : Nat) : List PyStr :=
  ((parserLines source).take (startLine - 1)).flatMap splitFurther

/-- No line of the range is split further, and the split lines before it, as many as there
are splits, do not shift it. -/
def Aligned (source : PyStr) (range : Nat × Nat) : Prop :=
  (∀ line ∈ rangeLines source range, ∀ c ∈ line.points, isLineBreak c = false) ∧
    rangeLines source range <+:
      (splitBefore source range.1).drop (range.1 - 1) ++ rangeLines source range

section Splitting

/-- Splitting at more characters splits the parts. -/
theorem splitOnP_flatMap
    {α : Type} {p q : α → Bool} (hpq : ∀ c, p c = true → q c = true) (xs : List α) :
    xs.splitOnP q = (xs.splitOnP p).flatMap (List.splitOnP q) := by
  induction xs with
  | nil => rfl
  | cons c cs ih =>
      obtain ⟨first, others, hsplit⟩ :=
        List.exists_cons_of_ne_nil (List.splitOnP_ne_nil p cs)
      rw [List.splitOnP_cons_eq_if_modifyHead, List.splitOnP_cons_eq_if_modifyHead (p := p)]
      by_cases hp : p c = true
      · rw [if_pos hp, if_pos (hpq c hp), ih]
        simp
      · rw [if_neg hp, ih, hsplit]
        simp only [List.modifyHead_cons, List.flatMap_cons]
        rw [List.splitOnP_cons_eq_if_modifyHead]
        obtain ⟨piece, pieces, hpieces⟩ :=
          List.exists_cons_of_ne_nil (List.splitOnP_ne_nil q first)
        rw [hpieces]
        split <;> rfl

theorem eq_nil_of_splitOnP
    {α : Type} {q : α → Bool} {xs : List α} (h : xs.splitOnP q = [[]]) : xs = [] := by
  cases xs with
  | nil => rfl
  | cons c cs =>
      rw [List.splitOnP_cons_eq_if_modifyHead] at h
      obtain ⟨first, others, heq⟩ := List.exists_cons_of_ne_nil (List.splitOnP_ne_nil q cs)
      rw [heq] at h
      split at h
      · simp at h
      · simp at h

theorem two_le_splitOnP
    {q : CodePoint → Bool} {xs : List CodePoint}
    (hne : xs ≠ []) (hlast : (xs.splitOnP q).getLast? = some []) :
    2 ≤ (xs.splitOnP q).length := by
  obtain ⟨first, others, heq⟩ := List.exists_cons_of_ne_nil (List.splitOnP_ne_nil q xs)
  cases others with
  | nil =>
      rw [heq] at hlast
      have hfirst : first = [] := by simpa using hlast
      rw [hfirst] at heq
      exact absurd (eq_nil_of_splitOnP heq) hne
  | cons second others =>
      rw [heq, List.length_cons, List.length_cons]
      omega

variable {α : Type} {f : α → List α}

theorem length_le_flatMap (hne : ∀ x, f x ≠ []) (xs : List α) :
    xs.length ≤ (xs.flatMap f).length := by
  induction xs with
  | nil => exact le_refl 0
  | cons x xs ih =>
      have hx : 0 < (f x).length := List.length_pos_iff.mpr (hne x)
      rw [List.flatMap_cons, List.length_append, List.length_cons]
      omega

theorem flatMap_whole
    {Whole : α → Prop} (hwhole : ∀ x, Whole x → f x = [x])
    {xs : List α} (hxs : ∀ x ∈ xs, Whole x) :
    xs.flatMap f = xs := by
  induction xs with
  | nil => rfl
  | cons x xs ih =>
      rw [List.forall_mem_cons] at hxs
      rw [List.flatMap_cons, hwhole x hxs.1, ih hxs.2]
      rfl

/-- A slice of split elements is the slice of the elements where it is split no further and
the parts before it do not shift it. -/
theorem slice_flatMap_eq_iff
    {Whole : α → Prop} (hwhole : ∀ x, Whole x → f x = [x]) (hparts : ∀ x, ∀ y ∈ f x, Whole y)
    (hne : ∀ x, f x ≠ [])
    {xs : List α} {start stop : Nat} (hstart : start ≤ stop) (hstop : stop ≤ xs.length) :
    ((xs.flatMap f).take stop).drop start = (xs.take stop).drop start ↔
      (∀ x ∈ (xs.take stop).drop start, Whole x) ∧
        (xs.take stop).drop start <+:
          ((xs.take start).flatMap f).drop start ++ (xs.take stop).drop start := by
  have hfront : xs.take stop = xs.take start ++ (xs.take stop).drop start := by
    have h := (List.take_append_drop start (xs.take stop)).symm
    rwa [List.take_take, min_eq_left hstart] at h
  have hsplit : xs.flatMap f = (xs.take start).flatMap f ++
      (((xs.take stop).drop start).flatMap f ++ (xs.drop stop).flatMap f) := by
    rw [← List.append_assoc, ← List.flatMap_append, ← hfront, ← List.flatMap_append,
      List.take_append_drop]
  have hbefore : start ≤ ((xs.take start).flatMap f).length := by
    have h := length_le_flatMap hne (xs.take start)
    rwa [List.length_take_of_le (hstart.trans hstop)] at h
  have hlength : ((xs.take stop).drop start).length = stop - start := by
    rw [List.length_drop, List.length_take_of_le hstop]
  have hslice : ((xs.flatMap f).take stop).drop start =
      (((xs.take start).flatMap f).drop start ++
        (((xs.take stop).drop start).flatMap f ++ (xs.drop stop).flatMap f)).take
          ((xs.take stop).drop start).length := by
    rw [hlength, List.drop_take, hsplit, List.drop_append_of_le_length hbefore]
  have hwholes : ∀ ys : List α, ∀ y ∈ ys.flatMap f, Whole y := by
    intro ys y hy
    obtain ⟨x, -, hx⟩ := List.mem_flatMap.mp hy
    exact hparts x y hx
  have hshifted : ∀ y ∈ ((xs.take start).flatMap f).drop start, Whole y :=
    fun y hy => hwholes _ y (List.mem_of_mem_drop hy)
  have hafter := hwholes (xs.drop stop)
  rw [hslice]
  generalize (xs.take stop).drop start = slice
  generalize ((xs.take start).flatMap f).drop start = shift at hshifted
  generalize (xs.drop stop).flatMap f = rest at hafter
  have htake : (shift ++ (slice ++ rest)).take slice.length =
      (shift ++ slice).take slice.length := by
    rw [← List.append_assoc, List.take_append_of_le_length (by simp)]
  constructor
  · intro heq
    have hall : ∀ x ∈ slice, Whole x := by
      intro x hx
      rw [← heq] at hx
      rcases List.mem_append.mp (List.mem_of_mem_take hx) with h | h
      · exact hshifted x h
      · rcases List.mem_append.mp h with h | h
        · exact hwholes slice x h
        · exact hafter x h
    rw [flatMap_whole hwhole hall, htake] at heq
    exact ⟨hall, List.prefix_iff_eq_take.mpr heq.symm⟩
  · rintro ⟨hall, hshift⟩
    rw [flatMap_whole hwhole hall, htake]
    exact (List.prefix_iff_eq_take.mp hshift).symm

end Splitting

section Sources

theorem splitFurther_ne (line : PyStr) : splitFurther line ≠ [] := by
  simp [splitFurther, List.splitOnP_ne_nil]

theorem splitFurther_whole
    (line : PyStr) (hline : ∀ c ∈ line.points, isLineBreak c = false) :
    splitFurther line = [line] := by
  rw [splitFurther, List.splitOnP_eq_singleton hline]
  rfl

theorem splitFurther_parts
    (line part : PyStr) (hpart : part ∈ splitFurther line) :
    ∀ c ∈ part.points, isLineBreak c = false := by
  obtain ⟨points, hpoints, rfl⟩ := List.mem_map.mp hpart
  exact not_of_mem_splitOnP hpoints

theorem parserLines_no_break
    {source line : PyStr} (hline : line ∈ parserLines source) :
    ∀ c ∈ line.points, endsLine c = false := by
  obtain ⟨points, hpoints, rfl⟩ := List.mem_map.mp hline
  exact not_of_mem_splitOnP (mem_of_mem_dropEmptyLast hpoints)

theorem isLineBreak_of_endsLine (c : CodePoint) (hc : endsLine c = true) :
    isLineBreak c = true := by
  have hc' : c = newline ∨ c = carriageReturn := by simpa [endsLine] using hc
  rcases hc' with rfl | rfl
  · decide
  · decide

/-- Up to the parser's last line, the lines of `str.splitlines` are the parser's, split
further. -/
theorem take_splitlines
    (source : PyStr) {stop : Nat} (hstop : stop ≤ (parserLines source).length) :
    source.splitlines.take stop = ((parserLines source).flatMap splitFurther).take stop := by
  have hsplit := splitOnP_flatMap isLineBreak_of_endsLine (joinCrLf source.points)
  have hmap : (parserLines source).flatMap splitFurther =
      ((dropEmptyLast ((joinCrLf source.points).splitOnP endsLine)).flatMap
        (List.splitOnP isLineBreak)).map PyStr.mk := by
    rw [parserLines, List.flatMap_map, List.map_flatMap]
    rfl
  rw [hmap, PyStr.splitlines, hsplit, ← List.map_take, ← List.map_take]
  rw [parserLines, List.length_map] at hstop
  congr 1
  generalize (joinCrLf source.points).splitOnP endsLine = raw at hstop
  by_cases hlast : raw.getLast? = some []
  · -- The source ends with a line end, and both drop the empty line behind it.
    obtain ⟨front, rfl⟩ := List.getLast?_eq_some_iff.mp hlast
    have hdrop : dropEmptyLast (front ++ [[]]) = front := by simp [dropEmptyLast]
    have hempty : ([] : List CodePoint).splitOnP isLineBreak = [[]] := rfl
    rw [hdrop, List.flatMap_append, List.flatMap_singleton, hempty]
    simp [dropEmptyLast]
  · have hdrop : dropEmptyLast raw = raw := if_neg hlast
    rw [hdrop] at hstop ⊢
    by_cases hpieces : (raw.flatMap (List.splitOnP isLineBreak)).getLast? = some []
    · -- The last line is split further, so the empty part that is dropped lies behind.
      have hlong : stop < (raw.flatMap (List.splitOnP isLineBreak)).length := by
        cases raw using List.reverseRecOn with
        | nil => simp at hpieces
        | append_singleton front last =>
            have hfront := length_le_flatMap (List.splitOnP_ne_nil isLineBreak) front
            have htwo : 2 ≤ (last.splitOnP isLineBreak).length :=
              two_le_splitOnP (by simpa using hlast) (by simpa using hpieces)
            simp only [List.length_append, List.length_singleton, List.flatMap_append,
              List.flatMap_singleton] at hstop ⊢
            omega
      rw [dropEmptyLast, if_pos hpieces, List.dropLast_eq_take, List.take_take,
        min_eq_left (by omega)]
    · rw [dropEmptyLast, if_neg hpieces]

/-- Joined by newlines, lists of lines are told apart. -/
theorem join_newline_inj
    {lines lines' : List PyStr} (hne : lines ≠ []) (hne' : lines' ≠ [])
    (hlines : ∀ line ∈ lines, newline ∉ line.points)
    (hlines' : ∀ line ∈ lines', newline ∉ line.points) :
    PyStr.join ⟨[newline]⟩ lines = PyStr.join ⟨[newline]⟩ lines' ↔ lines = lines' := by
  constructor
  · intro heq
    have hpoints := intercalate_inj (c := newline)
      (by simpa using hlines) (by simpa using hlines') (by simpa using hne) (by simpa using hne')
      (congrArg PyStr.points heq)
    refine List.map_injective_iff.mpr ?_ hpoints
    intro line line' h
    cases line
    exact congrArg PyStr.mk h
  · rintro rfl
    rfl

/-- What is cut out of the lines of `str.splitlines` is the parser's range where the range is
aligned. -/
theorem sliceLines_eq_iff
    (source : PyStr) {range : Nat × Nat}
    (hfirst : 0 < range.1) (horder : range.1 ≤ range.2)
    (hstop : range.2 ≤ (parserLines source).length) :
    sliceLines source.splitlines range.1 range.2 =
        PyStr.join ⟨[newline]⟩ (rangeLines source range) ↔
      Aligned source range := by
  have hstart : range.1 - 1 ≤ range.2 := by omega
  have hiff := slice_flatMap_eq_iff (f := splitFurther)
    splitFurther_whole splitFurther_parts splitFurther_ne hstart hstop
  rw [← take_splitlines source hstop] at hiff
  have hlength : range.2 ≤ source.splitlines.length := by
    have h := congrArg List.length (take_splitlines source hstop)
    have hle := length_le_flatMap splitFurther_ne (parserLines source)
    rw [List.length_take, List.length_take] at h
    omega
  rw [Aligned, splitBefore, rangeLines, ← hiff, sliceLines]
  refine join_newline_inj ?_ ?_ ?_ ?_
  · rw [← List.length_pos_iff, List.length_drop, List.length_take]
    omega
  · rw [← List.length_pos_iff, List.length_drop, List.length_take]
    omega
  · intro line hline hmem
    have hbreak := splitlines_no_break (List.mem_of_mem_take (List.mem_of_mem_drop hline)) _ hmem
    revert hbreak
    decide
  · intro line hline hmem
    have hend := parserLines_no_break (List.mem_of_mem_take (List.mem_of_mem_drop hline)) _ hmem
    revert hend
    decide

end Sources

/-! ## The chunks of a walk -/

section Walk

mutual

/-- The definitions below a node, in the order of a walk. -/
def definitionsBelow : AstNode → List Definition
  | .mk _ children => definitionsAmong children

def definitionsAmong : List AstNode → List Definition
  | [] => []
  | .mk definition children :: rest =>
      match definition with
      | some node => node :: (definitionsBelow (.mk definition children) ++ definitionsAmong rest)
      | none => definitionsBelow (.mk definition children) ++ definitionsAmong rest

end

variable (interpreter : Interpreter) (path : RelativePath) (lines : List PyStr)

/-- The chunk is a definition's. -/
def IsChunkOf (node : Definition) (chunk : CodeChunk) : Prop :=
  ∃ qualified, chunk = definitionChunk interpreter path lines qualified node

mutual

/-- A walk makes a chunk of every definition, in order. -/
theorem walkPython_chunks
    (frames : Nat) (outer : String) :
    ∀ node chunks, walkPython interpreter path lines frames outer node = .ok chunks →
      List.Forall₂ (IsChunkOf interpreter path lines) (definitionsBelow node) chunks
  | .mk definition children => by
      intro chunks hwalk
      cases frames with
      | zero => cases hwalk
      | succ frames => exact walkChildren_chunks frames outer children chunks hwalk

theorem walkChildren_chunks
    (frames : Nat) (outer : String) :
    ∀ children chunks, walkChildren interpreter path lines frames outer children = .ok chunks →
      List.Forall₂ (IsChunkOf interpreter path lines) (definitionsAmong children) chunks
  | [] => by
      intro chunks hwalk
      cases hwalk
      exact List.Forall₂.nil
  | .mk (some node) children :: rest => by
      intro chunks hwalk
      simp only [walkChildren] at hwalk
      obtain ⟨nested, hnested, hwalk⟩ := bind_eq_ok hwalk
      obtain ⟨later, hlater, hwalk⟩ := bind_eq_ok hwalk
      cases hwalk
      have hfirst := walkPython_chunks frames _ (.mk (some node) children) nested hnested
      have hrest := walkChildren_chunks frames outer rest later hlater
      exact List.Forall₂.cons ⟨_, rfl⟩ (List.rel_append hfirst hrest)
  | .mk none children :: rest => by
      intro chunks hwalk
      simp only [walkChildren] at hwalk
      obtain ⟨nested, hnested, hwalk⟩ := bind_eq_ok hwalk
      obtain ⟨later, hlater, hwalk⟩ := bind_eq_ok hwalk
      cases hwalk
      have hfirst := walkPython_chunks frames outer (.mk none children) nested hnested
      have hrest := walkChildren_chunks frames outer rest later hlater
      exact List.rel_append hfirst hrest

end

end Walk

/-- The numbers the parser gives a definition are among those of its lines. -/
def CountsLines (interpreter : Interpreter) : Prop :=
  ∀ source module, interpreter.parse source = .tree module →
    ∀ node ∈ definitionsBelow module,
      (nodeLineRange node).2 ≤ (parserLines (.ofString source)).length

/-- Every definition of a source that is parsed has its chunk, in order, with the numbers of
its lines.  The chunk holds these lines where the range is aligned, and only there. -/
theorem python_chunk_lines_iff
    (interpreter : Interpreter) (hcounts : CountsLines interpreter)
    (path : RelativePath) (hpython : pathSuffix path.name = .ofString ".py")
    (source : String) (module : AstNode) (hparse : interpreter.parse source = .tree module)
    (chunks : List CodeChunk) (hchunks : chunkSource interpreter path source = .ok chunks) :
    List.Forall₂
      (fun node chunk =>
        (chunk.startLine, chunk.endLine) = nodeLineRange node ∧
          (chunk.content =
              PyStr.join ⟨[newline]⟩ (rangeLines (.ofString source) (nodeLineRange node)) ↔
            Aligned (.ofString source) (nodeLineRange node)))
      (definitionsBelow module) chunks := by
  simp only [chunkSource, if_pos hpython, hparse] at hchunks
  have hwalk := walkPython_chunks interpreter path _ _ _ module chunks hchunks
  have hrange := hcounts source module hparse
  refine ((List.forall₂_and_left _ _).mpr ⟨hrange, hwalk⟩).imp ?_
  rintro node chunk ⟨hstop, qualified, rfl⟩
  obtain ⟨hpos, hle⟩ := foldl_min_bounds node.decoratorLines node.lines_pos.1 node.lines_pos.2
  exact ⟨rfl, sliceLines_eq_iff _ hpos (le_trans hle node.lines_le) hstop⟩

section OneFunction

/-- The tree of a module with one function of one line. -/
def functionOnLine (line : Nat) (h : 0 < line ∧ line < 2147483648) : AstNode :=
  plainNode [.mk
    (some ⟨identifierX, line, [], some line, ⟨h.1, nofun⟩, le_refl line, h.2⟩) []]

/-- Parses one source, whose function stands on a line. -/
def parsesOne (source : String) (line : Nat) (h : 0 < line ∧ line < 2147483648) :
    Interpreter where
  parse := fun text => if text = source then .tree (functionOnLine line h) else .syntaxError
  frames := 900
  lower := fun text => text
  lower_text := fun _ h => h
  sha256 := fun _ => ""

theorem parsesOne_countsLines
    (source : String) (line : Nat) (h : 0 < line ∧ line < 2147483648)
    (hline : line ≤ (parserLines (.ofString source)).length) :
    CountsLines (parsesOne source line h) := by
  intro text module hparse node hnode
  simp only [parsesOne] at hparse
  split at hparse
  · next htext =>
      cases hparse
      have hsame : node = ⟨identifierX, line, [], some line, ⟨h.1, nofun⟩, le_refl line, h.2⟩ :=
        List.mem_singleton.mp hnode
      rw [hsame, htext]
      exact hline
  · cases hparse

def pythonPath : RelativePath :=
  ⟨[.ofString "src"], .ofString "x.py", by decide⟩

/-- A function behind a comment. -/
def commentedSource : String :=
  "# one\ndef x(): pass\n"

/-- A function behind a comment with a form feed in it. -/
def pagedSource : String :=
  "# one\x0ctwo\ndef x(): pass\n"

end OneFunction

theorem python_chunk_lines_iff_commented :
    (chunkSource (parsesOne commentedSource 2 (by decide)) pythonPath commentedSource).map
        (List.map CodeChunk.content) = .ok [.ofString "def x(): pass"] ∧
      ∃ chunks : List CodeChunk, List.Forall₂
        (fun node chunk =>
          (chunk.startLine, chunk.endLine) = nodeLineRange node ∧
            (chunk.content = PyStr.join ⟨[newline]⟩
                (rangeLines (.ofString commentedSource) (nodeLineRange node)) ↔
              Aligned (.ofString commentedSource) (nodeLineRange node)))
        (definitionsBelow (functionOnLine 2 (by decide))) chunks := by
  refine ⟨by decide +kernel, ?_⟩
  exact ⟨_, python_chunk_lines_iff (parsesOne commentedSource 2 (by decide))
    (parsesOne_countsLines _ _ _ (by decide +kernel)) pythonPath (by decide +kernel)
    commentedSource _ rfl _ rfl⟩

/-- Behind the form feed the chunk of the function holds the rest of the comment. -/
theorem paged_chunk_shifted :
    (chunkSource (parsesOne pagedSource 2 (by decide)) pythonPath pagedSource).map
        (List.map fun (chunk : CodeChunk) => (chunk.startLine, chunk.endLine, chunk.content)) =
        .ok [(2, 2, .ofString "two")] ∧
      (definitionsBelow (functionOnLine 2 (by decide))).map (fun node =>
        PyStr.join ⟨[newline]⟩ (rangeLines (.ofString pagedSource) (nodeLineRange node))) =
        [.ofString "def x(): pass"] := by
  decide +kernel

end Retrieval
end PrReviewer
