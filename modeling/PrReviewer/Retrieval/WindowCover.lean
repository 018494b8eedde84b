import Mathlib.Data.List.Chain
import Mathlib.Order.Interval.Finset.Nat
import Mathlib.Tactic
import PrReviewer.Lib.Windows
import PrReviewer.Retrieval.ChunkCode

/-!
# What the windows of a file cover

The chunks of `_chunk_windows` are windows of the lines of the source, forty lines long, ten
of which each takes up from the one before it.
-/

namespace PrReviewer
namespace Retrieval

open Lib

/-- The line numbers of a chunk. -/
def CodeChunk.numbers (chunk : CodeChunk) : Finset Nat :=
  Finset.Icc chunk.startLine chunk.endLine

/-- The lines of the chunks, without the overlap of those behind the first one. -/
def uncoveredTwice : List CodeChunk → List PyStr
  | [] => []
  | first :: rest =>
      first.content.lines ++ rest.flatMap (fun chunk => chunk.content.lines.drop windowOverlapLines)

/-- The chunks cover the lines. -/
structure CoversLines (lines : List PyStr) (chunks : List CodeChunk) : Prop where
  empty_iff : chunks = [] ↔ lines = []
  contiguous : ∀ chunk ∈ chunks, 1 ≤ chunk.startLine ∧ chunk.startLine ≤ chunk.endLine ∧
    chunk.endLine ≤ lines.length ∧
    chunk.content.lines = (lines.take chunk.endLine).drop (chunk.startLine - 1)
  short : ∀ chunk ∈ chunks, chunk.numbers.card ≤ windowSizeLines
  first : ∀ chunk ∈ chunks.head?, chunk.startLine = 1
  last : ∀ chunk ∈ chunks.getLast?, chunk.endLine = lines.length
  overlap : chunks.IsChain fun chunk next =>
    (chunk.numbers ∩ next.numbers).card = windowOverlapLines
  apart : chunks.Pairwise fun chunk later =>
    ¬ chunk.numbers ⊆ later.numbers ∧ ¬ later.numbers ⊆ chunk.numbers
  whole : uncoveredTwice chunks = lines

theorem overlap_lt_size : windowOverlapLines < windowSizeLines := by decide

/-- The ranges of the windows of so many lines. -/
def windowRanges (total : Nat) : List (Nat × Nat) :=
  windows overlap_lt_size total 1

section Cover

variable (interpreter : Interpreter) (path : RelativePath)

/-- The chunk of a range. -/
def rangeChunk (lines : List PyStr) (range : Nat × Nat) : CodeChunk :=
  makeChunk interpreter path range.1 range.2 (sliceLines lines range.1 range.2) .lineWindow
    (path.text ++ .ofString ":window:" ++ decimal range.1 ++ .ofString ":" ++ decimal range.2)
    none

/-- The loop makes a chunk of every window. -/
theorem windowsFrom_eq_map
    (lines : List PyStr) (start : Nat) :
    windowsFrom interpreter path lines start =
      (windows overlap_lt_size lines.length start).map (rangeChunk interpreter path lines) := by
  fun_induction windowsFrom interpreter path lines start with
  | case1 start hstart chunk hlast =>
      have hchunk : chunk.endLine = min (start + windowSizeLines - 1) lines.length := rfl
      have hend : min (start + windowSizeLines - 1) lines.length = lines.length := by omega
      rw [windows, if_pos hstart, if_pos (by omega), List.map_singleton, ← hend]
      rfl
  | case2 start hstart chunk hmore ih =>
      have hchunk : chunk.endLine = min (start + windowSizeLines - 1) lines.length := rfl
      have hend : min (start + windowSizeLines - 1) lines.length = start + windowSizeLines - 1 := by
        omega
      rw [windows, if_pos hstart, if_neg (by omega), List.map_cons, ih, ← hend]
      rfl
  | case3 start hstart =>
      rw [windows, if_neg hstart]
      rfl

variable {interpreter path}

theorem mem_windowRanges
    {total : Nat} {range : Nat × Nat} (h : range ∈ windowRanges total) :
    1 ≤ range.1 ∧ range.1 ≤ range.2 ∧ range.2 = min (range.1 + windowSizeLines - 1) total :=
  mem_windows overlap_lt_size total 1 range h

theorem lines_join_of_plain
    {lines : List PyStr} (hne : lines ≠ []) (hlines : ∀ line ∈ lines, newline ∉ line.points) :
    (PyStr.join ⟨[newline]⟩ lines).lines = lines := by
  have hsep : (PyStr.mk [newline]) = .ofString "\n" := by decide +kernel
  obtain ⟨first, rest, rfl⟩ := List.exists_cons_of_ne_nil hne
  rw [hsep, lines_join]
  calc (first :: rest).flatMap PyStr.lines
      = (first :: rest).flatMap (fun line => [line]) := by
        refine List.flatMap_congr fun line hline => ?_
        simp [PyStr.lines, List.splitOn_eq_singleton (hlines line hline)]
    _ = first :: rest := List.flatMap_singleton' _

theorem rangeChunk_content
    {lines : List PyStr} (hlines : ∀ line ∈ lines, newline ∉ line.points)
    {range : Nat × Nat} (h : range ∈ windowRanges lines.length) :
    (rangeChunk interpreter path lines range).content.lines = slice lines range := by
  obtain ⟨hpos, hle, hstop⟩ := mem_windowRanges h
  have hcontent : (rangeChunk interpreter path lines range).content =
      PyStr.join ⟨[newline]⟩ (slice lines range) := rfl
  rw [hcontent, lines_join_of_plain]
  · rw [slice, ← List.length_pos_iff, List.length_drop, List.length_take]
    omega
  · intro line hline
    exact hlines line (List.mem_of_mem_take (List.mem_of_mem_drop hline))

theorem uncoveredTwice_map
    {lines : List PyStr} (hlines : ∀ line ∈ lines, newline ∉ line.points)
    {ranges : List (Nat × Nat)} (hranges : ∀ range ∈ ranges, range ∈ windowRanges lines.length) :
    uncoveredTwice (ranges.map (rangeChunk interpreter path lines)) =
      unlapped windowOverlapLines lines ranges := by
  cases ranges with
  | nil => rfl
  | cons first rest =>
      obtain ⟨hfirst, hrest⟩ := List.forall_mem_cons.mp hranges
      rw [List.map_cons, uncoveredTwice, unlapped, rangeChunk_content hlines hfirst,
        List.flatMap_map]
      refine congrArg _ (List.flatMap_congr fun range hrange => ?_)
      rw [rangeChunk_content hlines (hrest range hrange)]

/-- Two windows next to each other share the overlap. -/
theorem card_overlap
    {range next : Nat × Nat} (hlater : range.1 < next.1 ∧ range.2 < next.2)
    (hoverlap : range.2 + 1 = next.1 + windowOverlapLines) :
    (Finset.Icc range.1 range.2 ∩ Finset.Icc next.1 next.2).card = windowOverlapLines := by
  have hinter : Finset.Icc range.1 range.2 ∩ Finset.Icc next.1 next.2 =
      Finset.Icc next.1 range.2 := by
    ext n
    simp only [Finset.mem_inter, Finset.mem_Icc]
    omega
  rw [hinter, Nat.card_Icc]
  omega

theorem not_subset_of_later
    {range later : Nat × Nat} (hrange : range.1 ≤ range.2) (hle : later.1 ≤ later.2)
    (hlater : range.1 < later.1 ∧ range.2 < later.2) :
    ¬ Finset.Icc range.1 range.2 ⊆ Finset.Icc later.1 later.2 ∧
      ¬ Finset.Icc later.1 later.2 ⊆ Finset.Icc range.1 range.2 := by
  constructor
  · intro hsub
    have hmem := (Finset.Icc_subset_Icc_iff hrange).mp hsub
    omega
  · intro hsub
    have hmem := (Finset.Icc_subset_Icc_iff hle).mp hsub
    omega

/-- The windows of lines that hold no newline. -/
theorem covers_windows
    {lines : List PyStr} (hne : lines ≠ []) (hlines : ∀ line ∈ lines, newline ∉ line.points) :
    CoversLines lines (windowsFrom interpreter path lines 1) := by
  have hlength : 1 ≤ lines.length := List.length_pos_iff.mpr hne
  obtain ⟨stop, rest, hfirst⟩ := windows_first overlap_lt_size hlength
  have hmap : windowsFrom interpreter path lines 1 =
      (windowRanges lines.length).map (rangeChunk interpreter path lines) :=
    windowsFrom_eq_map interpreter path lines 1
  have hapart : (windowRanges lines.length).Pairwise
      (fun range later => range.1 < later.1 ∧ range.2 < later.2) :=
    windows_apart overlap_lt_size lines.length 1
  rw [hmap]
  refine ⟨?_, ?_, ?_, ?_, ?_, ?_, ?_, ?_⟩
  · refine iff_of_false ?_ hne
    rw [windowRanges, hfirst]
    exact List.cons_ne_nil _ _
  · rw [List.forall_mem_map]
    intro range hrange
    obtain ⟨hpos, hle, hstop⟩ := mem_windowRanges hrange
    have hend : range.2 ≤ lines.length := by omega
    exact ⟨hpos, hle, hend, rangeChunk_content hlines hrange⟩
  · rw [List.forall_mem_map]
    intro range hrange
    obtain ⟨hpos, hle, hstop⟩ := mem_windowRanges hrange
    have hcard : (rangeChunk interpreter path lines range).numbers.card = range.2 + 1 - range.1 :=
      Nat.card_Icc ..
    omega
  · rw [windowRanges, hfirst]
    rintro chunk ⟨⟩
    rfl
  · rw [List.getLast?_map]
    intro chunk hchunk
    obtain ⟨range, hlast, rfl⟩ := Option.mem_map.mp hchunk
    exact windows_last overlap_lt_size lines.length 1 range hlast
  · rw [List.isChain_map]
    exact (windows_overlap overlap_lt_size lines.length 1).imp
      fun range next h => card_overlap h.2 h.1
  · rw [List.pairwise_map]
    refine hapart.imp_of_mem fun hrange hlater h => ?_
    exact not_subset_of_later (mem_windowRanges hrange).2.1 (mem_windowRanges hlater).2.1 h
  · rw [uncoveredTwice_map hlines fun _ h => h, windowRanges, unlapped_windows _ _ Nat.one_pos]
    rfl

/-- The windows of a source cover its lines. -/
theorem windows_cover_source
    (interpreter : Interpreter) (path : RelativePath) (source : String) :
    CoversLines (PyStr.ofString source).splitlines (chunkWindows interpreter path source) := by
  have hlines : ∀ line ∈ (PyStr.ofString source).splitlines, newline ∉ line.points :=
    fun line hline hmem => absurd (splitlines_no_break hline newline hmem) (by decide)
  simp only [chunkWindows]
  split
  · next hempty =>
      rw [List.isEmpty_iff.mp hempty]
      exact ⟨iff_of_true rfl rfl, nofun, nofun, nofun, nofun, List.isChain_nil,
        List.Pairwise.nil, rfl⟩
  · next hne => exact covers_windows (by simpa using hne) hlines

end Cover

end Retrieval
end PrReviewer
