import Mathlib.Data.List.TakeWhile
import Mathlib.Tactic
import PrReviewer.Reviewer.DiffBudget
import PrReviewer.Reviewer.PatchText

/-!
# Reading rendered hunks again

What `render_hunks` writes for any patch, and what the readers of the rendered text
collect from it.  The numbers in front of the new-side lines are read back; an old-side
line is read as a number too where it looks like one and a line before it in its section
looks like a NEW header.
-/

namespace PrReviewer
namespace Reviewer

open Lib
open Github

/-! ## The two sides of a hunk -/

section Sides

/-- The contents of the context and the added lines. -/
def newContents : List PyStr → List PyStr
  | [] => []
  | raw :: rest =>
      match markOf raw with
      | some (.context, content) => content :: newContents rest
      | some (.added, content) => content :: newContents rest
      | _ => newContents rest

/-- The contents of the context and the removed lines. -/
def oldContents : List PyStr → List PyStr
  | [] => []
  | raw :: rest =>
      match markOf raw with
      | some (.context, content) => content :: oldContents rest
      | some (.removed, content) => content :: oldContents rest
      | _ => oldContents rest

/-- The contents under consecutive numbers. -/
def shownFrom (number : Nat) : List PyStr → List PyStr
  | [] => []
  | content :: rest => numbered (number, content) :: shownFrom (number + 1) rest

theorem newContents_append
    (lines rest : List PyStr) :
    newContents (lines ++ rest) = newContents lines ++ newContents rest := by
  induction lines with
  | nil => rfl
  | cons raw lines ih =>
      simp only [List.cons_append, newContents, ih]
      split <;> rfl

/-- `str()` of every new-side number of the lines returns. -/
def Printable (number : Nat) (lines : List PyStr) : Prop :=
  ∀ i < (newContents lines).length, number + i < 10 ^ maxStrDigits

theorem numberedLine_eq_ok_iff
    {number : Nat} {content line : PyStr} :
    numberedLine number content = .ok line ↔
      number < 10 ^ maxStrDigits ∧ line = numbered (number, content) := by
  constructor
  · intro h
    obtain ⟨digits, hdigits, h⟩ := bind_eq_ok h
    obtain ⟨hlimit, rfl⟩ := intText_eq_ok_iff.mp hdigits
    cases h
    exact ⟨hlimit, rfl⟩
  · rintro ⟨hlimit, rfl⟩
    rw [numberedLine, intText_eq_ok_iff.mpr ⟨hlimit, rfl⟩]
    rfl

/-- A line that takes a number, and the lines behind it. -/
theorem printable_cons
    {number : Nat} {raw content : PyStr} {lines : List PyStr}
    (h : newContents (raw :: lines) = content :: newContents lines) :
    Printable number (raw :: lines) ↔
      number < 10 ^ maxStrDigits ∧ Printable (number + 1) lines := by
  simp only [Printable, h, List.length_cons]
  constructor
  · intro hall
    refine ⟨hall 0 (by omega), fun i hi => ?_⟩
    have hnext := hall (i + 1) (by omega)
    omega
  · rintro ⟨hfirst, hrest⟩ i hi
    cases i with
    | zero => exact hfirst
    | succ i =>
        have hnext := hrest i (by omega)
        omega

/-- A numbered line in front of two sides. -/
theorem numberedLine_bind_eq_ok_iff
    {number : Nat} {content : PyStr} {inner : Except PyException (List PyStr × List PyStr)}
    (keep : List PyStr → List PyStr) {sides : List PyStr × List PyStr} :
    (numberedLine number content >>= fun line =>
      inner >>= fun rest => pure (line :: rest.1, keep rest.2)) = .ok sides ↔
      number < 10 ^ maxStrDigits ∧ ∃ rest, inner = .ok rest ∧
        sides = (numbered (number, content) :: rest.1, keep rest.2) := by
  constructor
  · intro h
    obtain ⟨line, hline, h⟩ := bind_eq_ok h
    obtain ⟨rest, hrest, h⟩ := bind_eq_ok h
    cases h
    obtain ⟨hlimit, rfl⟩ := numberedLine_eq_ok_iff.mp hline
    exact ⟨hlimit, rest, hrest, rfl⟩
  · rintro ⟨hlimit, rest, hrest, rfl⟩
    rw [numberedLine_eq_ok_iff.mpr ⟨hlimit, rfl⟩, ok_bind, hrest]
    rfl

/-- The two sides of the lines of a hunk. -/
theorem splitHunkFrom_eq_ok_iff
    {lines : List PyStr} {number : Nat} {sides : List PyStr × List PyStr} :
    splitHunkFrom number lines = .ok sides ↔
      Printable number lines ∧ sides = (shownFrom number (newContents lines), oldContents lines) := by
  induction lines generalizing number sides with
  | nil =>
      rw [splitHunkFrom, Except.ok.injEq, eq_comm]
      simp [Printable, newContents, oldContents, shownFrom]
  | cons raw lines ih =>
      have hnext : splitHunkFrom ((number : Int) + 1) lines =
          splitHunkFrom (number + 1 : Nat) lines := by
        rw [Nat.cast_succ]
      rw [splitHunkFrom, hnext]
      cases hmark : markOf raw with
      | none => simp only [ih, Printable, newContents, oldContents, hmark]
      | some marked =>
          obtain ⟨mark, content⟩ := marked
          cases mark with
          | removed =>
              have hnew : newContents (raw :: lines) = newContents lines := by
                simp only [newContents, hmark]
              simp only [Printable, hnew, oldContents, hmark]
              constructor
              · intro h
                obtain ⟨rest, hrest, h⟩ := bind_eq_ok h
                cases h
                obtain ⟨hprintable, rfl⟩ := ih.mp hrest
                exact ⟨hprintable, rfl⟩
              · rintro ⟨hprintable, rfl⟩
                rw [ih.mpr ⟨hprintable, rfl⟩]
                rfl
          | context =>
              have hnew : newContents (raw :: lines) = content :: newContents lines := by
                simp only [newContents, hmark]
              have hold : oldContents (raw :: lines) = content :: oldContents lines := by
                simp only [oldContents, hmark]
              rw [printable_cons hnew, hnew, hold, shownFrom]
              refine (numberedLine_bind_eq_ok_iff (List.cons content)).trans ?_
              simp only [ih, and_assoc, ↓existsAndEq, true_and]
          | added =>
              have hnew : newContents (raw :: lines) = content :: newContents lines := by
                simp only [newContents, hmark]
              have hold : oldContents (raw :: lines) = oldContents lines := by
                simp only [oldContents, hmark]
              rw [printable_cons hnew, hnew, hold, shownFrom]
              refine (numberedLine_bind_eq_ok_iff id).trans ?_
              simp only [ih, and_assoc, ↓existsAndEq, true_and, id]

end Sides

/-! ## What is rendered of a patch -/

section Hunks

variable {tables : UnicodeTables}

/-- The numbers of the new-side lines of a hunk. -/
def Hunk.numbers (hunk : Hunk) : List Nat :=
  List.range' hunk.newStart.toNat (newContents hunk.lines).length

/-- The lines a hunk is rendered to. -/
def Hunk.blocks (filePatch : FilePatch) (hunk : Hunk) : List PyStr :=
  (.ofString "NEW " ++ .ofString filePatch.path) ::
    shownFrom hunk.newStart.toNat (newContents hunk.lines) ++
  (.ofString "OLD " ++ oldPath filePatch) :: oldContents hunk.lines

/-- A text of decimal digits has no minus sign in it. -/
theorem transformDecimalAndSpace_isDecimal
    {text : PyStr}
    (htext : ∀ c ∈ text.points, isDecimal tables c = true) :
    0x2d ∉ transformDecimalAndSpace tables text := by
  intro hmem
  unfold transformDecimalAndSpace at hmem
  split at hmem
  · obtain ⟨c, hc, hminus⟩ := List.mem_map.mp hmem
    have hdecimal := htext c hc
    simp [isDecimal, hminus] at hdecimal
  · obtain ⟨c, hc, hminus⟩ := List.mem_map.mp hmem
    have hdecimal := htext c hc
    split at hminus
    · simp [isDecimal, hminus] at hdecimal
    · split at hminus
      · omega
      · split at hminus
        · omega
        · omega

/-- The start of a header is a text of decimal digits. -/
theorem hunkHeader_isDecimal
    {line start : PyStr}
    (h : hunkHeader tables line = some start) :
    ∀ c ∈ start.points, isDecimal tables c = true := by
  simp only [hunkHeader, Option.bind_eq_bind, Option.bind_eq_some_iff, Option.pure_def] at h
  obtain ⟨_, _, ⟨_, _⟩, _, _, _, ⟨digits, _⟩, hdigits, _, _, hstart⟩ := h
  cases hstart
  simp only [matchDigits] at hdigits
  split at hdigits
  · cases hdigits
  · cases hdigits
    intro c hc
    exact List.mem_takeWhile_imp hc

/-- A hunk starts at a natural number. -/
theorem parseHunksFrom_nonneg
    {lines : List PyStr} {current : Option Hunk} {hunks : List Hunk}
    (hcurrent : ∀ hunk ∈ current, 0 ≤ hunk.newStart)
    (h : parseHunksFrom tables current lines = .ok hunks) :
    ∀ hunk ∈ hunks, 0 ≤ hunk.newStart := by
  induction lines generalizing current hunks with
  | nil =>
      cases h
      simpa using hcurrent
  | cons raw rest ih =>
      rw [parseHunksFrom] at h
      split at h
      · next start hstart =>
        split at h
        · cases h
        · next newStart hread =>
            obtain ⟨found, hfound, h⟩ := bind_eq_ok h
            cases h
            have hnonneg : 0 ≤ newStart := intOfText_nonneg
              (transformDecimalAndSpace_isDecimal (hunkHeader_isDecimal hstart)) hread
            have hlater := ih (by simpa using hnonneg) hfound
            intro hunk hhunk
            rcases List.mem_append.mp hhunk with hhunk | hhunk
            · exact hcurrent hunk (by simpa using hhunk)
            · exact hlater hunk hhunk
      · refine ih ?_ h
        intro hunk hhunk
        obtain ⟨opened, hopened, rfl⟩ := Option.mem_map.mp hhunk
        exact hcurrent opened hopened

/-- `render_hunks` returns where the headers are read and the numbers can be written. -/
theorem renderHunks_eq_ok_iff
    {filePatch : FilePatch} {content : PyStr} :
    renderHunks tables filePatch = .ok content ↔
      ∃ hunks, parseHunks tables filePatch.patch = .ok hunks ∧
        (∀ hunk ∈ hunks, Printable hunk.newStart.toNat hunk.lines) ∧
        content = PyStr.join (.ofString "\n") (hunks.flatMap (Hunk.blocks filePatch)) := by
  have hblocks : ∀ hunk : Hunk, 0 ≤ hunk.newStart → ∀ lines,
      hunkBlocks filePatch hunk = .ok lines ↔
        Printable hunk.newStart.toNat hunk.lines ∧ lines = hunk.blocks filePatch := by
    intro hunk hnonneg lines
    have hsplit : splitHunk hunk = splitHunkFrom (hunk.newStart.toNat : Nat) hunk.lines := by
      rw [splitHunk, Int.toNat_of_nonneg hnonneg]
    constructor
    · intro h
      obtain ⟨sides, hsides, h⟩ := bind_eq_ok h
      obtain ⟨hprintable, rfl⟩ := splitHunkFrom_eq_ok_iff.mp (hsplit ▸ hsides)
      cases h
      exact ⟨hprintable, rfl⟩
    · rintro ⟨hprintable, rfl⟩
      rw [hunkBlocks, hsplit, splitHunkFrom_eq_ok_iff.mpr ⟨hprintable, rfl⟩]
      rfl
  have hall : ∀ hunks : List Hunk, (∀ hunk ∈ hunks, 0 ≤ hunk.newStart) → ∀ lists,
      hunks.mapM (hunkBlocks filePatch) = .ok lists ↔
        (∀ hunk ∈ hunks, Printable hunk.newStart.toNat hunk.lines) ∧
          lists = hunks.map (Hunk.blocks filePatch) := by
    intro hunks hnonneg lists
    exact mapM_eq_ok_iff (fun hunk hhunk => hblocks hunk (hnonneg hunk hhunk))
  constructor
  · intro h
    obtain ⟨hunks, hhunks, h⟩ := bind_eq_ok h
    obtain ⟨lists, hlists, h⟩ := bind_eq_ok h
    cases h
    have hnonneg := parseHunksFrom_nonneg (by simp) hhunks
    obtain ⟨hprintable, rfl⟩ := (hall hunks hnonneg lists).mp hlists
    exact ⟨hunks, hhunks, hprintable, by rw [List.flatMap_def]⟩
  · rintro ⟨hunks, hhunks, hprintable, rfl⟩
    have hnonneg := parseHunksFrom_nonneg (by simp) hhunks
    rw [renderHunks, hhunks, ok_bind, (hall hunks hnonneg _).mpr ⟨hprintable, rfl⟩,
      List.flatMap_def]
    rfl

end Hunks

/-! ## What is read of rendered hunks -/

section Reading

variable (tables : UnicodeTables)

/-- The digits of the lines that are read as numbers. -/
def numberTexts : Bool → List PyStr → List PyStr
  | _, [] => []
  | inNew, line :: rest =>
      if line.startsWith (.ofString "NEW ") then
        numberTexts true rest
      else if line.startsWith (.ofString "OLD ") then
        numberTexts false rest
      else if inNew then
        (lineNumber tables line).toList ++ numberTexts inNew rest
      else
        numberTexts inNew rest

/-- `int()` of digits. -/
def numberOf (digits : PyStr) : Except PyException Nat :=
  match intOfText tables digits with
  | none => .error .valueError
  | some number => .ok number.toNat

/-- The lines of the old side of a hunk that are read as numbers of the new side. -/
def Hunk.strays (hunk : Hunk) : List PyStr :=
  numberTexts tables false (oldContents hunk.lines)

/--
The digits that are read in a rendered hunk; a path with a line break in it is read as
more than one line.
-/
def Hunk.texts (filePatch : FilePatch) (hunk : Hunk) : List PyStr :=
  numberTexts tables false ((hunk.blocks filePatch).flatMap PyStr.pieces)

/-- `int()` of every stray returns. -/
def Hunk.StraysReadable (hunk : Hunk) : Prop :=
  ∀ digits ∈ hunk.strays tables, (intOfText tables digits).isSome = true

/-- The numbers of the strays. -/
def Hunk.strayNumbers (hunk : Hunk) : List Nat :=
  (hunk.strays tables).filterMap (fun digits => (intOfText tables digits).map Int.toNat)

variable {tables}

theorem collectNumbers_eq
    (inNew : Bool) (lines : List PyStr) :
    collectNumbers tables inNew lines = (numberTexts tables inNew lines).mapM (numberOf tables) := by
  induction lines generalizing inNew with
  | nil => rfl
  | cons line rest ih =>
      rw [collectNumbers, numberTexts]
      split
      · exact ih true
      · split
        · exact ih false
        · split
          · next hnew =>
              subst hnew
              cases hline : lineNumber tables line with
              | none => exact ih true
              | some digits =>
                  simp only [Option.toList_some, List.singleton_append, List.mapM_cons, numberOf,
                    ih true]
                  cases intOfText tables digits with
                  | none => rfl
                  | some number => rfl
          · exact ih inNew

/-- Whether the last header among the lines is a NEW header. -/
def inNewAfter : Bool → List PyStr → Bool
  | inNew, [] => inNew
  | inNew, line :: rest =>
      if line.startsWith (.ofString "NEW ") then
        inNewAfter true rest
      else if line.startsWith (.ofString "OLD ") then
        inNewAfter false rest
      else
        inNewAfter inNew rest

theorem numberTexts_append
    (inNew : Bool) (lines rest : List PyStr) :
    numberTexts tables inNew (lines ++ rest) =
      numberTexts tables inNew lines ++ numberTexts tables (inNewAfter inNew lines) rest := by
  induction lines generalizing inNew with
  | nil => rfl
  | cons line lines ih =>
      simp only [List.cons_append, numberTexts, inNewAfter]
      split
      · exact ih true
      · split
        · exact ih false
        · split
          · next hnew =>
              subst hnew
              rw [ih, List.append_assoc]
          · exact ih inNew

theorem startsWith_append
    (lead : String) (rest : PyStr) :
    (PyStr.ofString lead ++ rest).startsWith (.ofString lead) = true := by
  simp [PyStr.startsWith]

/-- A numbered line begins with a digit. -/
theorem startsWith_numbered
    {lead : String} {c : CodePoint}
    (hlead : (PyStr.ofString lead).points.head? = some c)
    (hdigit : ¬ (0x30 ≤ c.val ∧ c.val ≤ 0x39))
    (line : Nat × PyStr) :
    (numbered line).startsWith (.ofString lead) = false := by
  cases hnumber : (decimal line.1).points with
  | nil => exact absurd hnumber (decimal_ne_nil line.1)
  | cons d ds =>
      have hd := decimal_digit (n := line.1) (c := d) (by simp [hnumber])
      obtain ⟨rest, hrest⟩ : ∃ rest, (PyStr.ofString lead).points = c :: rest := by
        cases hpoints : (PyStr.ofString lead).points with
        | nil => simp [hpoints] at hlead
        | cons c' rest =>
            simp only [hpoints, List.head?_cons, Option.some.injEq] at hlead
            exact ⟨rest, by rw [hlead]⟩
      have hne : c ≠ d := by
        rintro rfl
        exact hdigit hd
      simp [PyStr.startsWith, numbered, hnumber, hrest, List.isPrefixOf, hne]

theorem lineNumber_numbered
    (line : Nat × PyStr) :
    lineNumber tables (numbered line) = some (decimal line.1) := by
  have hbar : (PyStr.ofString "| ").points = [0x7c, 0x20] := by decide +kernel
  have hstop : ∀ c, ((PyStr.ofString "| ").points ++ line.2.points).head? = some c →
      isDecimal tables c = false := by
    intro c hc
    simp only [hbar, List.cons_append, List.head?_cons, Option.some.injEq] at hc
    subst hc
    simp [isDecimal]
  have hdigits := matchDigits_decimal line.1 hstop
  have htext := matchText_append "| " line.2.points
  simp only [lineNumber, numbered, PyStr.points_append, List.append_assoc, hdigits, htext,
    Option.bind_eq_bind, Option.bind_some, Option.pure_def]

/-- Of a NEW section every number is read. -/
theorem numberTexts_shownFrom
    (number : Nat) (contents rest : List PyStr) :
    numberTexts tables true (shownFrom number contents ++ rest) =
      (List.range' number contents.length).map decimal ++ numberTexts tables true rest := by
  induction contents generalizing number with
  | nil => rfl
  | cons content contents ih =>
      have hnew : (numbered (number, content)).startsWith (.ofString "NEW ") = false :=
        startsWith_numbered (c := pointOf 'N') (by decide +kernel) (by decide) _
      have hold : (numbered (number, content)).startsWith (.ofString "OLD ") = false :=
        startsWith_numbered (c := pointOf 'O') (by decide +kernel) (by decide) _
      rw [shownFrom, List.cons_append, numberTexts, hnew, hold, lineNumber_numbered, ih]
      simp [List.range'_succ]

/-- An empty line is no number and no header. -/
theorem numberTexts_empty
    (inNew : Bool) (lines : List PyStr) :
    numberTexts tables inNew (lines ++ [⟨[]⟩]) = numberTexts tables inNew lines := by
  rw [numberTexts_append]
  cases inNewAfter inNew lines <;> simp [numberTexts, PyStr.startsWith, lineNumber, matchDigits]

/-- What is read in texts that were joined by newlines. -/
theorem numberTexts_join
    (inNew : Bool) (blocks : List PyStr) :
    numberTexts tables inNew (PyStr.join (.ofString "\n") blocks).splitlines =
      numberTexts tables inNew (blocks.flatMap PyStr.pieces) := by
  rcases List.eq_nil_or_concat blocks with rfl | ⟨init, last, rfl⟩
  · rfl
  · rw [List.concat_eq_append, splitlines_join_pieces, List.flatMap_append, List.flatMap_singleton]
    rcases pieces_eq_or last with h | h
    · rw [h]
    · rw [h, ← List.append_assoc, numberTexts_empty]

/-- A rendered hunk begins with a header, so what is read in it does not depend on the lines before. -/
theorem numberTexts_hunk
    (filePatch : FilePatch) (hunk : Hunk) (inNew : Bool) (rest : List PyStr) :
    ∃ after, numberTexts tables inNew ((hunk.blocks filePatch).flatMap PyStr.pieces ++ rest) =
      hunk.texts tables filePatch ++ numberTexts tables after rest := by
  have hlead : ∀ c ∈ (PyStr.ofString "NEW ").points, isLineBreak c = false :=
    unbroken_ofString (by decide +kernel)
  obtain ⟨first, others, -, hpieces⟩ := pieces_append hlead (.ofString filePatch.path)
  obtain ⟨tail, htail⟩ : ∃ tail, (hunk.blocks filePatch).flatMap PyStr.pieces =
      (PyStr.ofString "NEW " ++ first) :: tail := by
    rw [Hunk.blocks, List.cons_append, List.flatMap_cons, hpieces]
    exact ⟨_, rfl⟩
  have hnew := startsWith_append "NEW " first
  refine ⟨inNewAfter true tail, ?_⟩
  rw [Hunk.texts, htail, List.cons_append, numberTexts, if_pos hnew, numberTexts, if_pos hnew,
    numberTexts_append]

/-- What is read in rendered hunks. -/
theorem numberTexts_hunks
    (filePatch : FilePatch) (hunks : List Hunk) (inNew : Bool) :
    numberTexts tables inNew ((hunks.flatMap (Hunk.blocks filePatch)).flatMap PyStr.pieces) =
      hunks.flatMap (Hunk.texts tables filePatch) := by
  induction hunks generalizing inNew with
  | nil => rfl
  | cons hunk hunks ih =>
      obtain ⟨after, hafter⟩ := numberTexts_hunk filePatch hunk inNew
        ((hunks.flatMap (Hunk.blocks filePatch)).flatMap PyStr.pieces)
      rw [List.flatMap_cons, List.flatMap_append, hafter, ih, List.flatMap_cons]

/-- Where no block has a line break in it, a hunk's numbers and strays are read. -/
theorem texts_of_unbroken
    {filePatch : FilePatch} {hunk : Hunk}
    (hblocks : ∀ block ∈ hunk.blocks filePatch, Unbroken block) :
    hunk.texts tables filePatch = hunk.numbers.map decimal ++ hunk.strays tables := by
  have hpieces : (hunk.blocks filePatch).flatMap PyStr.pieces = hunk.blocks filePatch := by
    refine (List.flatMap_congr (fun block hblock => pieces_of_unbroken (hblocks block hblock))).trans ?_
    exact List.flatMap_singleton' _
  have hnew := startsWith_append "NEW " (.ofString filePatch.path)
  have hold := startsWith_append "OLD " (oldPath filePatch)
  have hother : (PyStr.ofString "OLD " ++ oldPath filePatch).startsWith (.ofString "NEW ") =
      false := by
    have hpoints : (PyStr.ofString "OLD ").points = [0x4f, 0x4c, 0x44, 0x20] := by decide +kernel
    have hlead : (PyStr.ofString "NEW ").points = [0x4e, 0x45, 0x57, 0x20] := by decide +kernel
    simp [PyStr.startsWith, hpoints, hlead, List.isPrefixOf]
  rw [Hunk.texts, hpieces, Hunk.blocks, List.cons_append, numberTexts, if_pos hnew,
    numberTexts_shownFrom, numberTexts, if_neg (by simp [hother]), if_pos hold, Hunk.numbers,
    Hunk.strays]

theorem mapM_numberOf_eq_ok_iff
    {texts : List PyStr} {numbers : List Nat} :
    texts.mapM (numberOf tables) = .ok numbers ↔
      (∀ digits ∈ texts, (intOfText tables digits).isSome = true) ∧
        numbers = texts.filterMap (fun digits => (intOfText tables digits).map Int.toNat) := by
  induction texts generalizing numbers with
  | nil =>
      rw [List.mapM_nil]
      constructor
      · rintro ⟨⟩
        simp
      · rintro ⟨_, rfl⟩
        rfl
  | cons digits texts ih =>
      rw [List.mapM_cons, List.forall_mem_cons]
      cases hread : intOfText tables digits with
      | none => simp [numberOf, hread, error_bind]
      | some number =>
          constructor
          · intro h
            obtain ⟨first, hfirst, h⟩ := bind_eq_ok h
            obtain ⟨rest, hrest, h⟩ := bind_eq_ok h
            cases h
            obtain ⟨hall, rfl⟩ := ih.mp hrest
            simp only [numberOf, hread, Except.ok.injEq] at hfirst
            subst hfirst
            exact ⟨⟨rfl, hall⟩, by simp [hread]⟩
          · rintro ⟨⟨_, hall⟩, rfl⟩
            have hrest := ih.mpr ⟨hall, rfl⟩
            simp only [numberOf, hread, ok_bind, hrest]
            simp [hread, pure, Except.pure]

/-- The numbers in front of the new-side lines are read back. -/
theorem intOfText_numbers
    {hunk : Hunk}
    (h : Printable hunk.newStart.toNat hunk.lines) :
    ∀ number ∈ hunk.numbers, intOfText tables (decimal number) = some (number : Int) := by
  intro number hnumber
  rw [Hunk.numbers, List.mem_range'_1] at hnumber
  have hlimit := h (number - hunk.newStart.toNat) (by omega)
  rw [intOfText_decimal_eq, if_pos (by omega)]

/-- The blocks of the hunks of a patch have no line breaks in them. -/
theorem blocks_unbroken
    {filePatch : FilePatch} {hunks : List Hunk}
    (hpath : Unbroken (.ofString filePatch.path))
    (hold : Unbroken (oldPath filePatch))
    (hhunks : parseHunks tables filePatch.patch = .ok hunks)
    (hprintable : ∀ hunk ∈ hunks, Printable hunk.newStart.toNat hunk.lines) :
    ∀ line ∈ hunks.flatMap (Hunk.blocks filePatch), Unbroken line := by
  have hlines : ∀ hunk ∈ hunks, ∀ line ∈ hunk.lines, Unbroken line :=
    parseHunksFrom_unbroken (fun _ hline => splitlines_no_break hline) (by simp) hhunks
  have hnewLead : Unbroken (.ofString "NEW ") := unbroken_ofString (by decide +kernel)
  have holdLead : Unbroken (.ofString "OLD ") := unbroken_ofString (by decide +kernel)
  intro line hline
  obtain ⟨hunk, hhunk, hline⟩ := List.mem_flatMap.mp hline
  have hsides := splitHunkFrom_unbroken (hlines hunk hhunk)
    (splitHunkFrom_eq_ok_iff.mpr ⟨hprintable hunk hhunk, rfl⟩)
  simp only [Hunk.blocks, List.cons_append, List.mem_cons, List.mem_append] at hline hsides
  rcases hline with rfl | hline | rfl | hline
  · exact unbroken_append hnewLead hpath
  · exact hsides line (.inl hline)
  · exact unbroken_append holdLead hold
  · exact hsides line (.inr hline)

/-- What the readers of a rendered patch collect from it. -/
theorem collectNumbers_rendered
    {filePatch : FilePatch} {hunks : List Hunk} {numbers : List Nat} :
    collectNumbers tables false
        (PyStr.join (.ofString "\n") (hunks.flatMap (Hunk.blocks filePatch))).splitlines =
        .ok numbers ↔
      (∀ hunk ∈ hunks, ∀ digits ∈ hunk.texts tables filePatch,
        (intOfText tables digits).isSome = true) ∧
      numbers = hunks.flatMap (fun hunk => (hunk.texts tables filePatch).filterMap
        (fun digits => (intOfText tables digits).map Int.toNat)) := by
  rw [collectNumbers_eq, numberTexts_join, numberTexts_hunks, mapM_numberOf_eq_ok_iff,
    List.filterMap_flatMap]
  refine and_congr ?_ Iff.rfl
  constructor
  · intro h hunk hhunk digits hdigits
    exact h digits (List.mem_flatMap.mpr ⟨hunk, hhunk, hdigits⟩)
  · intro h digits hdigits
    obtain ⟨hunk, hhunk, hdigits⟩ := List.mem_flatMap.mp hdigits
    exact h hunk hhunk digits hdigits

/-- Where the paths have no line break in them, these are the numbers and the strays. -/
theorem collectNumbers_unbroken
    {filePatch : FilePatch} {hunks : List Hunk} {numbers : List Nat}
    (hpath : Unbroken (.ofString filePatch.path))
    (hold : Unbroken (oldPath filePatch))
    (hhunks : parseHunks tables filePatch.patch = .ok hunks)
    (hprintable : ∀ hunk ∈ hunks, Printable hunk.newStart.toNat hunk.lines) :
    collectNumbers tables false
        (PyStr.join (.ofString "\n") (hunks.flatMap (Hunk.blocks filePatch))).splitlines =
        .ok numbers ↔
      (∀ hunk ∈ hunks, hunk.StraysReadable tables) ∧
        numbers = hunks.flatMap (fun hunk => hunk.numbers ++ hunk.strayNumbers tables) := by
  have hblocks := blocks_unbroken hpath hold hhunks hprintable
  have htexts : ∀ hunk ∈ hunks, hunk.texts tables filePatch =
      hunk.numbers.map decimal ++ hunk.strays tables := fun hunk hhunk =>
    texts_of_unbroken (fun block hblock => hblocks block (List.mem_flatMap.mpr ⟨hunk, hhunk, hblock⟩))
  have hread : ∀ hunk ∈ hunks, (hunk.numbers.map decimal).filterMap
      (fun digits => (intOfText tables digits).map Int.toNat) = hunk.numbers := by
    intro hunk hhunk
    rw [List.filterMap_map]
    refine (List.filterMap_congr (fun number hnumber => ?_)).trans List.filterMap_some
    simp [intOfText_numbers (hprintable hunk hhunk) number hnumber]
  rw [collectNumbers_rendered]
  refine and_congr (forall₂_congr (fun hunk hhunk => ?_)) ?_
  · rw [htexts hunk hhunk, List.forall_mem_append]
    refine and_iff_right (fun digits hdigits => ?_)
    obtain ⟨number, hnumber, rfl⟩ := List.mem_map.mp hdigits
    rw [intOfText_numbers (hprintable hunk hhunk) number hnumber]
    rfl
  · have hsame : hunks.flatMap (fun hunk => (hunk.texts tables filePatch).filterMap
        (fun digits => (intOfText tables digits).map Int.toNat)) =
        hunks.flatMap (fun hunk => hunk.numbers ++ hunk.strayNumbers tables) := by
      refine List.flatMap_congr (fun hunk hhunk => ?_)
      rw [htexts hunk hhunk, List.filterMap_append, hread hunk hhunk, Hunk.strayNumbers]
    rw [hsame]

end Reading

end Reviewer
end PrReviewer
