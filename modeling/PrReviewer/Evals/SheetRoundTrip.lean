import PrReviewer.Evals.HoldoutSheet
import PrReviewer.LocalStore.RoundTrip

/-!
# Sheets and holdouts are read back

The writers put one JSON document on a line and leave characters beyond ASCII as they are; the
readers end a line at every line boundary of Unicode.  So a sheet, and a holdout, is read back as
it was written exactly where no text in it has U+0085, U+2028 or U+2029.  In a sheet out of git
such a character can only stand in a diff: the other texts of a commit are lines of git's output.
-/

namespace PrReviewer
namespace Evals

open Lib LocalStore

/-- Nothing in the text ends a line of a sheet. -/
def Quiet (text : PyStr) : Prop :=
  ∀ c ∈ text.points, breaksLine c = false

instance (text : PyStr) : Decidable (Quiet text) :=
  inferInstanceAs (Decidable (∀ c ∈ text.points, breaksLine c = false))

section Quiet

theorem quiet_of_isPlain
    {text : PyStr} (h : ∀ c ∈ text.points, IsPlain c) :
    Quiet text := by
  intro c hc
  have hplain := h c hc
  unfold IsPlain at hplain
  simp only [breaksLine, decide_eq_false_iff_not, List.mem_cons, List.not_mem_nil, or_false]
  omega

theorem quiet_ofString
    {s : String} (h : ∀ c ∈ s.toList, c.toNat < 0x80) :
    Quiet (.ofString s) := by
  intro c hc
  obtain ⟨char, hchar, rfl⟩ := List.mem_map.mp hc
  have hlow := h char hchar
  simp only [breaksLine, decide_eq_false_iff_not, List.mem_cons, List.not_mem_nil, or_false]
  omega

theorem isPlain_ofString
    {s : String} (h : ∀ c ∈ s.toList, 0x21 ≤ c.toNat ∧ c.toNat ≤ 0x7e) :
    ∀ c ∈ (PyStr.ofString s).points, IsPlain c ∧ c ≠ 0x20 := by
  intro c hc
  obtain ⟨char, hchar, rfl⟩ := List.mem_map.mp hc
  obtain ⟨hlow, hhigh⟩ := h char hchar
  refine ⟨⟨Nat.le_of_succ_le hlow, hhigh⟩, ?_⟩
  intro heq
  have hval : char.toNat = 0x20 := congrArg Fin.val heq
  omega

theorem quiet_append
    {s t : PyStr} :
    Quiet (s ++ t) ↔ Quiet s ∧ Quiet t := by
  simp only [Quiet, PyStr.points_append, List.forall_mem_append]

theorem quiet_decimal
    (n : Nat) :
    Quiet (decimal n) :=
  quiet_of_isPlain (fun _ hc => isPlain_digit (isDigitPoint_decimal hc))

theorem quiet_threeDigits
    (index : Nat) :
    Quiet (threeDigits index) := by
  refine quiet_append.mpr ⟨quiet_of_isPlain ?_, quiet_decimal index⟩
  intro c hc
  rw [(List.mem_replicate.mp hc).2]
  decide

theorem breaksLine_of_not_isLineBreak
    {c : CodePoint} (h : isLineBreak c = false) :
    breaksLine c = false := by
  by_contra hbreaks
  rw [Bool.not_eq_false] at hbreaks
  rw [(isLineBreak_of_breaksLine hbreaks).1] at h
  cases h

/-- A line of an output, stripped, is quiet. -/
theorem quiet_strip_line
    {tables : UnicodeTables} {output line : PyStr}
    (hline : line ∈ output.splitlines) :
    Quiet (line.strip tables) := by
  intro c hc
  refine breaksLine_of_not_isLineBreak (splitlines_no_break hline c ?_)
  simp only [PyStr.strip, List.mem_reverse] at hc
  exact (List.dropWhile_sublist _).subset
    (List.mem_reverse.mp ((List.dropWhile_sublist _).subset hc))

theorem quiet_strippedLines
    {tables : UnicodeTables} {output line : PyStr}
    (hline : line ∈ strippedLines tables output) :
    Quiet line := by
  obtain ⟨raw, hraw, rfl⟩ := List.mem_map.mp hline
  exact quiet_strip_line (List.mem_of_mem_filter hraw)

/-- The characters of a JSON object, one item after the other. -/
theorem forall_jsonPoints_entry
    {p : CodePoint → Prop} {key : String} {value : PyJson} {rest : JsonRow} :
    (∀ c ∈ jsonPointsMembers (dictEntry key value :: rest), p c) ↔
      (∀ c ∈ (PyStr.ofString key).points, p c) ∧ (∀ c ∈ jsonPoints value, p c) ∧
        ∀ c ∈ jsonPointsMembers rest, p c := by
  simp only [dictEntry, jsonPointsMembers, List.forall_mem_append]

theorem forall_jsonPoints_strings
    {p : CodePoint → Prop} {texts : List PyStr} :
    (∀ c ∈ jsonPoints (.list (texts.map .str)), p c) ↔
      ∀ text ∈ texts, ∀ c ∈ text.points, p c := by
  induction texts with
  | nil => simp [jsonPoints, jsonPointsItems]
  | cons text texts ih =>
      simp only [jsonPoints] at ih
      simp only [jsonPoints, List.map_cons, jsonPointsItems, List.forall_mem_append, ih,
        List.forall_mem_cons]

end Quiet

/-! ## Sheets -/

section Sheets

variable {floats : FloatText} {tables : UnicodeTables} {frames : Nat}

theorem staysOnLine_iff
    {row : JsonRow} :
    StaysOnLine sheetStyle row ↔ ∀ c ∈ jsonPointsMembers row, breaksLine c = false := by
  simp [StaysOnLine, sheetStyle]

theorem loadSheetRows_eq_ok_iff
    {bytes : List UInt8} {text : PyStr} {rows : List JsonRow}
    (hreads : ∀ row ∈ rows, JsonReads sheetStyle floats (.dict row))
    (htext : jsonLines sheetStyle floats frames rows = .ok text)
    (hbytes : writeText text = .ok bytes) :
    loadSheetRows floats tables frames bytes = .ok rows ↔
      ∀ row ∈ rows, ∀ c ∈ jsonPointsMembers row, breaksLine c = false := by
  have hplain := carriageReturn_not_mem_jsonLines hreads htext
  have hrows : jsonLines sheetStyle floats frames (rows.map id) = .ok text := by
    rw [List.map_id]
    exact htext
  have hlines := readEachLine_jsonLines_iff tables
    (fun line => jsonLoads floats frames line.points >>= rowOfJson) id hreads
    (fun row hrow line hline => by
      rw [jsonLoads_jsonDumps (hreads row hrow) hline]
      rfl) hrows
  rw [List.map_id] at hlines
  rw [loadSheetRows, readText_writeText hplain hbytes, ok_bind, hlines]
  simp only [staysOnLine_iff]

/-- Rows that do not all stay on their lines are not read. -/
theorem loadSheetRows_broken
    {bytes : List UInt8} {text : PyStr} {rows : List JsonRow}
    (hreads : ∀ row ∈ rows, JsonReads sheetStyle floats (.dict row))
    (htext : jsonLines sheetStyle floats frames rows = .ok text)
    (hbytes : writeText text = .ok bytes)
    (hbroken : ¬ ∀ row ∈ rows, ∀ c ∈ jsonPointsMembers row, breaksLine c = false) :
    ∃ e, loadSheetRows floats tables frames bytes = .error e := by
  have hrow : ∃ row ∈ rows, ¬ StaysOnLine sheetStyle row := by
    simp only [← staysOnLine_iff, not_forall] at hbroken
    obtain ⟨row, hmem, hrow⟩ := hbroken
    exact ⟨row, hmem, hrow⟩
  rw [loadSheetRows, readText_writeText (carriageReturn_not_mem_jsonLines hreads htext) hbytes,
    ok_bind]
  refine readEachLine_broken tables hreads ?_ htext hrow
  intro line e he a ha
  rw [he] at ha
  cases ha

theorem sheet_ne_temporaryName
    (sheet : String) :
    sheet ≠ temporaryName sheet := by
  intro h
  have hlength := congrArg String.length h
  rw [temporaryName, String.length_append] at hlength
  have hsuffix : ".tmp".length = 4 := rfl
  omega

theorem atomicWriteRows_ok
    (fs : Files) (sheet : String) {rows : List JsonRow} {text : PyStr} {bytes : List UInt8}
    (htext : jsonLines sheetStyle floats frames rows = .ok text)
    (hbytes : writeText text = .ok bytes) :
    atomicWriteRows floats frames fs sheet none rows =
      (.ok (), Function.update (Function.update fs (temporaryName sheet) none) sheet
        (some bytes)) := by
  rw [atomicWriteRows, htext]
  simp only [hbytes]

/-- A write that raises has touched the temporary file at most; any other one is whole. -/
theorem atomicWriteRows_cases
    {fs fs' : Files} {sheet : String} {fault : Option WriteFault} {rows : List JsonRow}
    {result : Except SheetError Unit}
    (h : atomicWriteRows floats frames fs sheet fault rows = (result, fs')) :
    (∃ e, result = .error e ∧
      (fs' = fs ∨ ∃ left, fs' = Function.update fs (temporaryName sheet) (some left))) ∨
    (result = .ok () ∧ ∃ text bytes, jsonLines sheetStyle floats frames rows = .ok text ∧
      writeText text = .ok bytes ∧
      fs' = Function.update (Function.update fs (temporaryName sheet) none) sheet
        (some bytes)) := by
  unfold atomicWriteRows at h
  split at h
  · cases h
    exact .inl ⟨_, rfl, .inl rfl⟩
  · next text htext =>
      split at h
      · cases h
        exact .inl ⟨_, rfl, .inl rfl⟩
      · cases h
        exact .inl ⟨_, rfl, .inr ⟨_, rfl⟩⟩
      · cases h
        exact .inl ⟨_, rfl, .inr ⟨_, rfl⟩⟩
      · cases h
        exact .inl ⟨_, rfl, .inr ⟨_, rfl⟩⟩
      · next bytes hbytes =>
          cases h
          exact .inr ⟨rfl, text, bytes, htext, hbytes, rfl⟩

variable (floats frames) in
/-- Only the sheet and its temporary file are touched. -/
theorem atomicWriteRows_others
    (fs : Files) (sheet : String) (fault : Option WriteFault) (rows : List JsonRow) :
    ∀ path, path ≠ sheet → path ≠ temporaryName sheet →
      (atomicWriteRows floats frames fs sheet fault rows).2 path = fs path := by
  intro path hsheet htemporary
  rcases atomicWriteRows_cases (Prod.eta (atomicWriteRows floats frames fs sheet fault rows)).symm
    with ⟨_, _, hsame | ⟨_, hleft⟩⟩ | ⟨_, _, _, _, _, hwritten⟩
  · rw [hsame]
  · rw [hleft, Function.update_of_ne htemporary]
  · rw [hwritten, Function.update_of_ne hsheet, Function.update_of_ne htemporary]

/-- A write that raises leaves the sheet. -/
theorem atomicWriteRows_error
    {fs fs' : Files} {sheet : String} {fault : Option WriteFault} {rows : List JsonRow}
    {e : SheetError}
    (h : atomicWriteRows floats frames fs sheet fault rows = (.error e, fs')) :
    fs' sheet = fs sheet := by
  rcases atomicWriteRows_cases h with ⟨_, _, rfl | ⟨_, rfl⟩⟩ | ⟨hok, _⟩
  · rfl
  · exact Function.update_of_ne (sheet_ne_temporaryName sheet) _ _
  · cases hok

theorem atomicWriteRows_written
    {fs fs' : Files} {sheet : String} {fault : Option WriteFault} {rows : List JsonRow}
    (h : atomicWriteRows floats frames fs sheet fault rows = (.ok (), fs')) :
    ∃ text bytes, jsonLines sheetStyle floats frames rows = .ok text ∧
      writeText text = .ok bytes ∧ fs' sheet = some bytes := by
  rcases atomicWriteRows_cases h with ⟨_, herror, _⟩ | ⟨_, text, bytes, htext, hbytes, rfl⟩
  · cases herror
  · exact ⟨text, bytes, htext, hbytes, Function.update_self ..⟩

/--
A sheet that was written whole is read back exactly where no text in it ends a line, and elsewhere
the reader raises; a write that raises leaves the sheet as it was.  No other file but the temporary
one is touched.
-/
theorem written_sheet_loads_back_iff
    (fs : Files) (sheet : String) (fault : Option WriteFault) (rows : List JsonRow)
    (hreads : ∀ row ∈ rows, JsonReads sheetStyle floats (.dict row)) :
    let written := atomicWriteRows floats frames fs sheet fault rows
    (match written.1 with
      | .error _ => written.2 sheet = fs sheet
      | .ok () => ∃ bytes, written.2 sheet = some bytes ∧
          (loadSheetRows floats tables frames bytes = .ok rows ↔
            ∀ row ∈ rows, ∀ c ∈ jsonPointsMembers row, breaksLine c = false) ∧
          ((∃ rows', loadSheetRows floats tables frames bytes = .ok rows') ↔
            ∀ row ∈ rows, ∀ c ∈ jsonPointsMembers row, breaksLine c = false)) ∧
    ∀ path, path ≠ sheet → path ≠ temporaryName sheet → written.2 path = fs path := by
  simp only
  refine ⟨?_, atomicWriteRows_others floats frames fs sheet fault rows⟩
  cases hwrite : atomicWriteRows floats frames fs sheet fault rows with
  | mk result fs' =>
      cases result with
      | error e => exact atomicWriteRows_error hwrite
      | ok u =>
          obtain ⟨text, bytes, htext, hbytes, hheld⟩ := atomicWriteRows_written hwrite
          have hload := @loadSheetRows_eq_ok_iff floats tables frames _ _ _ hreads htext hbytes
          refine ⟨bytes, hheld, hload, ?_⟩
          constructor
          · rintro ⟨rows', hrows'⟩
            by_contra hbroken
            obtain ⟨e, he⟩ := @loadSheetRows_broken floats tables frames _ _ _ hreads htext hbytes
              hbroken
            rw [hrows'] at he
            cases he
          · exact fun hquiet => ⟨rows, hload.mpr hquiet⟩

/-- Floats that are all zero, for objects without floats. -/
def zeroFloats : FloatText where
  repr _ _ := [0x30, 0x2e, 0x30]
  read _ := .finite 0 0

def separatorRow : JsonRow :=
  [dictEntry "diff" (.str ⟨[0x61, 0x2028, 0x62]⟩)]

theorem separatorRow_reads :
    ∀ row ∈ [separatorRow], JsonReads sheetStyle zeroFloats (.dict row) := by
  intro row hrow
  cases List.mem_singleton.mp hrow
  have hstring : ∀ s, StringReads sheetStyle s := fun s hascii => by cases hascii
  exact ⟨List.nodup_singleton _, hstring _, hstring _, trivial⟩

/-- A line separator in a diff: the sheet is written, and is not read. -/
theorem written_sheet_loads_back_separator :
    ∃ fs' bytes, atomicWriteRows zeroFloats 10 (fun _ => none) "sheet.jsonl" none [separatorRow] =
        (.ok (), fs') ∧
      fs' "sheet.jsonl" = some bytes ∧
      ∀ rows, loadSheetRows zeroFloats bareTables 10 bytes ≠ .ok rows := by
  have hiff := @written_sheet_loads_back_iff zeroFloats bareTables 10 (fun _ => none)
    "sheet.jsonl" none [separatorRow] separatorRow_reads
  obtain ⟨text, htext⟩ : ∃ text,
      jsonLines sheetStyle zeroFloats 10 [separatorRow] = .ok text := ⟨_, rfl⟩
  obtain ⟨bytes, hbytes⟩ : ∃ bytes, writeText text = .ok bytes := by
    cases htext
    exact ⟨_, rfl⟩
  have hfs := atomicWriteRows_ok (fun _ => none) "sheet.jsonl" htext hbytes
  rw [hfs] at hiff
  obtain ⟨⟨bytes', hheld, _, hloads⟩, _⟩ := hiff
  refine ⟨_, bytes', hfs, hheld, ?_⟩
  intro rows hrows
  have hquiet := hloads.mp ⟨rows, hrows⟩
  have hmem : (0x2028 : CodePoint) ∈ jsonPointsMembers separatorRow := by
    simp [separatorRow, dictEntry, jsonPointsMembers, jsonPoints]
  have hbreak := hquiet separatorRow List.mem_cons_self 0x2028 hmem
  simp [breaksLine] at hbreak

theorem intercalate_newline
    (lines : List (List CodePoint)) :
    List.intercalate [newline] lines ++ (if lines = [] then [] else [newline]) =
      lines.flatMap (fun line => line ++ [newline]) := by
  induction lines with
  | nil => rfl
  | cons line lines ih =>
      cases lines with
      | nil => simp
      | cons next lines =>
          rw [if_neg (List.cons_ne_nil _ _)] at ih
          rw [if_neg (List.cons_ne_nil _ _), List.intercalate_cons_cons, List.flatMap_cons, ← ih]
          simp only [List.append_assoc]

/-- A candidate sheet is written as rows are. -/
theorem candidateSheetText_eq
    {dates : DateText} (idPrefix : PyStr) (candidates : List (EvalCandidate dates)) :
    candidateSheetText floats frames idPrefix candidates =
      jsonLines sheetStyle floats frames (candidateRows idPrefix candidates) := by
  unfold candidateSheetText jsonLines
  simp only [intercalate_newline]

end Sheets

/-! ## Sheets out of git -/

section Mined

variable {floats : FloatText} {tables : UnicodeTables} {frames : Nat} {dates : DateText}
variable {git : GitCommand dates → PyStr}

/-- The texts of a candidate that are lines of git's output. -/
structure EvalCandidate.FromLines (candidate : EvalCandidate dates) : Prop where
  sha : Quiet candidate.sha
  evidence_ne : candidate.sourceEvidence ≠ []
  evidence : ∀ text ∈ candidate.sourceEvidence, Quiet text
  files : ∀ file ∈ candidate.files, Quiet file

theorem mineCommit_fromLines
    {budget : Nat} {sha : PyStr} {candidate : EvalCandidate dates}
    (hsha : Quiet sha)
    (h : mineCommit tables git budget sha = .ok (.inl candidate)) :
    candidate.FromLines := by
  obtain ⟨committedAt, _, h⟩ := bind_eq_ok h
  simp only at h
  split at h
  · cases h
  · cases h
    refine ⟨hsha, List.cons_ne_nil _ _, ?_, fun file hfile => quiet_strippedLines hfile⟩
    intro text htext
    rw [List.mem_singleton.mp htext]
    simp only [commitSubject]
    split
    · exact hsha
    · next line hline =>
        split
        · exact quiet_strip_line (List.mem_of_head? hline)
        · exact hsha

theorem mem_of_mem_evenSample
    {α : Type} {items : List α} {n : Int} {a : α}
    (h : a ∈ evenSample items n) :
    a ∈ items := by
  unfold evenSample at h
  split at h
  · cases h
  · split at h
    · exact h
    · obtain ⟨index, _, hindex⟩ := List.mem_filterMap.mp h
      exact List.mem_of_getElem? hindex

/-- What a miner takes over from a commit are lines of git's output, but for the diff. -/
theorem mineEvalCandidates_fromLines
    {isRepository : Bool} {maxCases : Int} {budget : Nat} {since until? : Option dates.Date}
    {perWindow : Option Int} {mined : MineResult dates}
    (h : mineEvalCandidates tables git isRepository maxCases budget since until? perWindow =
      .ok mined) :
    ∀ candidate ∈ mined.candidates, candidate.FromLines := by
  intro candidate hcandidate
  unfold mineEvalCandidates at h
  split at h
  · cases h
    cases hcandidate
  · obtain ⟨results, hresults, h⟩ := bind_eq_ok h
    cases h
    obtain ⟨result, hresult, hleft⟩ := List.mem_filterMap.mp hcandidate
    obtain ⟨sha, hsha, hmined⟩ := (mem_of_mapM_eq_ok hresults).2 result hresult
    rw [Sum.getLeft?_eq_some_iff] at hleft
    rw [hleft] at hmined
    refine mineCommit_fromLines ?_ hmined
    split at hsha
    · exact quiet_strippedLines (mem_of_mem_evenSample hsha)
    · exact quiet_strippedLines hsha

theorem candidateRow_reads
    (idPrefix : PyStr) (index : Nat) (candidate : EvalCandidate dates) :
    JsonReads sheetStyle floats (.dict (candidateRow idPrefix index candidate)) := by
  have hstring : ∀ s, StringReads sheetStyle s := fun s hascii => by cases hascii
  have hstrings : ∀ texts : List PyStr,
      JsonReadsItems sheetStyle floats (texts.map .str) := by
    intro texts
    induction texts with
    | nil => trivial
    | cons text texts ih => exact ⟨hstring text, ih⟩
  refine ⟨?_, ?_⟩
  · have hkeys : (candidateRow idPrefix index candidate).map Prod.fst =
        ["id", "sha", "committed_at", "subject", "files", "token_count", "source_evidence", "diff",
          "verdict", "human_auditor", "split", "labels"].map PyStr.ofString := rfl
    rw [hkeys]
    exact List.Nodup.map PyStr.ofString_injective (by decide)
  · exact ⟨hstring _, hstring _, hstring _, hstring _, hstring _, hstring _, hstring _, hstring _,
      hstring _, hstrings _, hstring _, trivial, hstring _, hstrings _, hstring _, hstring _,
      hstring _, hstring _, hstring _, hstring _, hstring _, hstring _, hstring _, trivial,
      trivial⟩

/-- What can break the line of a candidate: the prefix of its id, and its diff. -/
theorem candidateRow_quiet_iff
    {candidate : EvalCandidate dates} (h : candidate.FromLines) (idPrefix : PyStr) (index : Nat) :
    (∀ c ∈ jsonPointsMembers (candidateRow idPrefix index candidate), breaksLine c = false) ↔
      Quiet idPrefix ∧ Quiet candidate.diff := by
  have hkey : ∀ key ∈ ["id", "sha", "committed_at", "subject", "files", "token_count",
      "source_evidence", "diff", "verdict", "human_auditor", "split", "labels"],
      ∀ c ∈ (PyStr.ofString key).points, breaksLine c = false := by
    have hascii : ∀ key ∈ ["id", "sha", "committed_at", "subject", "files", "token_count",
        "source_evidence", "diff", "verdict", "human_auditor", "split", "labels"],
        ∀ c ∈ key.toList, c.toNat < 0x80 := by
      simp
    exact fun key hkey => quiet_ofString (hascii key hkey)
  have hdash : Quiet (.ofString "-") := quiet_ofString (by simp)
  have hdate : Quiet (candidate.committedAt.elim ⟨[]⟩ dates.isoformat) := by
    cases candidate.committedAt with
    | none => exact fun c hc => absurd hc List.not_mem_nil
    | some date => exact quiet_of_isPlain (fun c hc => ((dates.plain date).2 c hc).1)
  have hsubject : Quiet (candidate.sourceEvidence.head?.getD ⟨[]⟩) := by
    cases hhead : candidate.sourceEvidence.head? with
    | none => exact fun c hc => absurd hc List.not_mem_nil
    | some text => exact h.evidence text (List.mem_of_head? hhead)
  simp only [candidateRow, forall_jsonPoints_entry, forall_jsonPoints_strings]
  constructor
  · rintro ⟨_, hid, _, _, _, _, _, _, _, _, _, _, _, _, _, hdiff, _⟩
    exact ⟨(quiet_append.mp (quiet_append.mp hid).1).1, hdiff⟩
  · rintro ⟨hinitial, hdiff⟩
    have hid : Quiet (idPrefix ++ .ofString "-" ++ threeDigits index) :=
      quiet_append.mpr ⟨quiet_append.mpr ⟨hinitial, hdash⟩, quiet_threeDigits index⟩
    refine ⟨hkey _ (by simp), hid, hkey _ (by simp), h.sha, hkey _ (by simp), hdate,
      hkey _ (by simp), hsubject, hkey _ (by simp), h.files, hkey _ (by simp), ?_,
      hkey _ (by simp), h.evidence, hkey _ (by simp), hdiff, hkey _ (by simp), ?_,
      hkey _ (by simp), ?_, hkey _ (by simp), ?_, hkey _ (by simp), ?_, ?_⟩
    all_goals exact fun c hc => absurd hc List.not_mem_nil

theorem mem_candidateRows
    {idPrefix : PyStr} {candidates : List (EvalCandidate dates)} {row : JsonRow} :
    row ∈ candidateRows idPrefix candidates ↔
      ∃ index candidate, candidates[index]? = some candidate ∧
        row = candidateRow idPrefix (index + 1) candidate := by
  simp only [candidateRows, List.mem_map, Prod.exists]
  constructor
  · rintro ⟨candidate, index, hmem, rfl⟩
    exact ⟨index, candidate, (List.mem_zipIdx_iff_getElem?.mp hmem), rfl⟩
  · rintro ⟨index, candidate, hmem, rfl⟩
    exact ⟨candidate, index, List.mem_zipIdx_iff_getElem?.mpr hmem, rfl⟩

/--
The sheet that was mined from a repository is read back exactly where neither the prefix of its
ids nor the diff of a candidate ends a line.
-/
theorem candidate_sheet_loads_back_iff
    {isRepository : Bool} {maxCases : Int} {budget : Nat} {since until? : Option dates.Date}
    {perWindow : Option Int} {mined : MineResult dates} {idPrefix text : PyStr}
    {bytes : List UInt8}
    (hmined : mineEvalCandidates tables git isRepository maxCases budget since until? perWindow =
      .ok mined)
    (htext : candidateSheetText floats frames idPrefix mined.candidates = .ok text)
    (hbytes : writeText text = .ok bytes) :
    loadSheetRows floats tables frames bytes = .ok (candidateRows idPrefix mined.candidates) ↔
      ∀ candidate ∈ mined.candidates, Quiet idPrefix ∧ Quiet candidate.diff := by
  have hlines := mineEvalCandidates_fromLines hmined
  rw [candidateSheetText_eq] at htext
  have hreads : ∀ row ∈ candidateRows idPrefix mined.candidates,
      JsonReads sheetStyle floats (.dict row) := by
    intro row hrow
    obtain ⟨index, candidate, _, rfl⟩ := mem_candidateRows.mp hrow
    exact candidateRow_reads idPrefix (index + 1) candidate
  rw [loadSheetRows_eq_ok_iff hreads htext hbytes]
  constructor
  · intro h candidate hcandidate
    obtain ⟨index, hindex⟩ := List.mem_iff_getElem?.mp hcandidate
    exact (candidateRow_quiet_iff (hlines candidate hcandidate) idPrefix (index + 1)).mp
      (h _ (mem_candidateRows.mpr ⟨index, candidate, hindex, rfl⟩))
  · intro h row hrow
    obtain ⟨index, candidate, hindex, rfl⟩ := mem_candidateRows.mp hrow
    have hcandidate := List.mem_of_getElem? hindex
    exact (candidateRow_quiet_iff (hlines candidate hcandidate) idPrefix (index + 1)).mpr
      (h candidate hcandidate)

end Mined

theorem oneDay_plain
    (_ : Unit) :
    PyStr.ofString "2025-03-01" ≠ ⟨[]⟩ ∧
      ∀ c ∈ (PyStr.ofString "2025-03-01").points, IsPlain c ∧ c ≠ 0x20 :=
  ⟨by decide, isPlain_ofString (by simp)⟩

/-- The dates of a repository whose commits are of one day. -/
def oneDay : DateText where
  Date := Unit
  isoformat _ := .ofString "2025-03-01"
  fromisoformat text := if text = .ofString "2025-03-01" then some () else none
  later _ _ := false
  reads _ := if_pos rfl
  plain := oneDay_plain

def oneCommit : GitCommand oneDay → PyStr
  | .log _ _ _ _ => .ofString "c0ffee\n"
  | .subjectAndDate _ => .ofString "Close the file\n2025-03-01\n"
  | .files _ => .ofString "a.py\n"
  | .patch _ => .ofString "+f.close()\n"

def coffee : EvalCandidate oneDay where
  sourceEvidence := [.ofString "Close the file"]
  diff := .ofString "+f.close()\n"
  committedAt := some ()
  sha := .ofString "c0ffee"
  files := [.ofString "a.py"]

theorem mineEvalCandidates_oneCommit :
    mineEvalCandidates bareTables oneCommit true 10 100 none none none =
      .ok { candidates := [coffee], skipped := [] } := by
  rfl

theorem valid_ofString
    (s : String) :
    ∀ c ∈ (PyStr.ofString s).points, c.val.isValidChar := by
  rw [← PyStr.text?_isSome_iff, PyStr.text?_ofString]
  rfl

theorem forall_singleton
    {p : CodePoint → Prop} {s : String} (h : ∀ c ∈ (PyStr.ofString s).points, p c) :
    ∀ text ∈ [PyStr.ofString s], ∀ c ∈ text.points, p c := by
  intro text htext
  rw [List.mem_singleton.mp htext]
  exact h

theorem coffee_valid :
    ∀ c ∈ jsonPointsMembers (candidateRow (.ofString "cand") 1 coffee), c.val.isValidChar := by
  have hone := fun s => forall_singleton (valid_ofString s)
  simp only [candidateRow, forall_jsonPoints_entry, forall_jsonPoints_strings]
  exact ⟨valid_ofString _, valid_ofString "cand-001", valid_ofString _, valid_ofString "c0ffee",
    valid_ofString _, valid_ofString "2025-03-01", valid_ofString _,
    valid_ofString "Close the file", valid_ofString _, hone "a.py", valid_ofString _,
    List.forall_mem_nil _, valid_ofString _, hone "Close the file", valid_ofString _,
    valid_ofString "+f.close()\n", valid_ofString _, List.forall_mem_nil _, valid_ofString _,
    List.forall_mem_nil _, valid_ofString _, List.forall_mem_nil _, valid_ofString _,
    List.forall_mem_nil _, List.forall_mem_nil _⟩

theorem coffee_printable :
    Printable (.dict (candidateRow (.ofString "cand") 1 coffee)) ∧
      jsonDepth (.dict (candidateRow (.ofString "cand") 1 coffee)) ≤ 10 := by
  have htokens : (estimateDiffTokens coffee.diff : Int).natAbs < 10 ^ maxStrDigits :=
    Nat.lt_of_lt_of_le (by decide : _ < 10 ^ 1) (Nat.pow_le_pow_right (by decide) (by decide))
  refine ⟨⟨trivial, trivial, trivial, trivial, ⟨trivial, trivial⟩, htokens, ⟨trivial, trivial⟩,
    trivial, trivial, trivial, trivial, trivial, trivial⟩, ?_⟩
  decide

theorem coffee_written :
    ∃ text bytes, candidateSheetText zeroFloats 10 (.ofString "cand") [coffee] = .ok text ∧
      writeText text = .ok bytes := by
  have hrows : candidateRows (.ofString "cand") [coffee] =
      [candidateRow (.ofString "cand") 1 coffee] := rfl
  obtain ⟨text, htext⟩ : ∃ text, jsonLines sheetStyle zeroFloats 10
      (candidateRows (.ofString "cand") [coffee]) = .ok text := by
    refine jsonLines_total ?_
    intro row hrow
    rw [hrows] at hrow
    rw [List.mem_singleton.mp hrow]
    exact coffee_printable
  obtain ⟨bytes, hbytes⟩ : ∃ bytes, writeText text = .ok bytes := by
    refine writeText_jsonLines ?_ ?_ htext
    · intro row hrow
      rw [hrows] at hrow
      rw [List.mem_singleton.mp hrow]
      exact candidateRow_reads _ _ _
    · intro row hrow
      rw [hrows] at hrow
      rw [List.mem_singleton.mp hrow]
      exact coffee_valid
  rw [← candidateSheetText_eq] at htext
  exact ⟨text, bytes, htext, hbytes⟩

/-- The sheet of one commit comes back as it was mined. -/
theorem candidate_sheet_loads_back_coffee :
    ∃ text bytes, candidateSheetText zeroFloats 10 (.ofString "cand") [coffee] = .ok text ∧
      writeText text = .ok bytes ∧
      loadSheetRows zeroFloats bareTables 10 bytes =
        .ok (candidateRows (.ofString "cand") [coffee]) := by
  obtain ⟨text, bytes, htext, hbytes⟩ := coffee_written
  refine ⟨text, bytes, htext, hbytes, ?_⟩
  refine (candidate_sheet_loads_back_iff mineEvalCandidates_oneCommit htext hbytes).mpr ?_
  intro candidate hcandidate
  rw [List.mem_singleton.mp hcandidate]
  exact ⟨quiet_ofString (by simp), quiet_ofString (by simp)⟩

/-! ## Holdouts -/

section Holdouts

variable {dates : DateText} {floats : FloatText} {tables : UnicodeTables} {frames : Nat}
variable {repr : PyJson → PyStr} {models : CaseModels dates floats frames}

theorem labelJson_reads
    {style : JsonStyle} (hraw : style.ensureAscii = false) (labels : List EvalLabel) :
    JsonReadsItems style floats (labels.map labelJson) := by
  have hstring : ∀ s, StringReads style s := by
    intro s hascii
    rw [hraw] at hascii
    cases hascii
  induction labels with
  | nil => trivial
  | cons label labels ih =>
      refine ⟨⟨?_, ?_⟩, ih⟩
      · have hkeys : [PyStr.ofString "concern", .ofString "category", .ofString "file_path",
            .ofString "line_start", .ofString "line_end"] =
            ["concern", "category", "file_path", "line_start", "line_end"].map PyStr.ofString := rfl
        change [PyStr.ofString "concern", .ofString "category", .ofString "file_path",
            .ofString "line_start", .ofString "line_end"].Nodup
        rw [hkeys]
        exact List.Nodup.map PyStr.ofString_injective (by decide)
      · exact ⟨hstring _, hstring _, hstring _, hstring _, hstring _, hstring _, hstring _,
          trivial, hstring _, trivial, trivial⟩

theorem caseJson_reads
    (evalCase : EvalCase dates) :
    JsonReads caseStyle floats (.dict (caseJson evalCase)) := by
  have hstring : ∀ s, StringReads caseStyle s := fun s hascii => by cases hascii
  have hstrings : ∀ texts : List String,
      JsonReadsItems caseStyle floats (texts.map (fun s => .str (.ofString s))) := by
    intro texts
    induction texts with
    | nil => trivial
    | cons text texts ih => exact ⟨hstring _, ih⟩
  have hauditor : JsonReads caseStyle floats
      (evalCase.humanAuditor.elim .null (fun s => .str (.ofString s))) := by
    cases evalCase.humanAuditor with
    | none => trivial
    | some auditor => exact hstring _
  refine ⟨?_, ?_⟩
  · have hkeys : (caseJson evalCase).map Prod.fst =
        ["id", "split", "diff", "expected_labels", "source_evidence", "human_auditor",
          "committed_at"].map PyStr.ofString := rfl
    rw [hkeys]
    exact List.Nodup.map PyStr.ofString_injective (by decide)
  · exact ⟨hstring _, hstring _, hstring _, hstring _, hstring _, hstring _, hstring _,
      labelJson_reads rfl _, hstring _, hstrings _, hstring _, hauditor, hstring _, hstring _,
      trivial⟩

/--
The cases of a holdout that was built are read back exactly where no text in them ends a line.
-/
theorem holdout_loads_back_iff
    {bytes written : List UInt8} {cases : List (EvalCase dates)}
    (h : buildHoldout tables repr models bytes = .ok (cases, written)) :
    loadPublicEvalCases tables models written = .ok cases ↔
      ∀ evalCase ∈ cases, ∀ c ∈ jsonPointsMembers (caseJson evalCase), breaksLine c = false := by
  obtain ⟨rows, _, h⟩ := bind_eq_ok h
  obtain ⟨built, _, h⟩ := bind_eq_ok h
  obtain ⟨text, htext, h⟩ := bind_eq_ok h
  obtain ⟨bytes', hbytes, h⟩ := bind_eq_ok h
  cases h
  have hpython : ∀ {α : Type} {x : Except PyException α} {a : α}, python x = .ok a → x = .ok a := by
    intro α x a hx
    cases x with
    | error e => cases hx
    | ok b =>
        cases hx
        rfl
  have htext' := hpython htext
  have hbytes' := hpython hbytes
  rw [casesText] at htext'
  have hreads : ∀ row ∈ cases.map caseJson, JsonReads caseStyle floats (.dict row) := by
    intro row hrow
    obtain ⟨evalCase, _, rfl⟩ := List.mem_map.mp hrow
    exact caseJson_reads evalCase
  have hlines := readEachLine_jsonLines_iff tables models.validateCase
    (fun evalCase => evalCase) (fun evalCase _ => caseJson_reads evalCase)
    (fun evalCase _ line hline =>
      models.reads_case evalCase ⟨line⟩ (jsonLoads_jsonDumps (caseJson_reads evalCase) hline))
    htext'
  rw [List.map_id'] at hlines
  rw [loadPublicEvalCases, readText_writeText (carriageReturn_not_mem_jsonLines hreads htext')
    hbytes', ok_bind, hlines]
  simp [StaysOnLine, caseStyle]

end Holdouts

/-! ## A decoder -/

section Decoder

def textValue : PyJson → Option String
  | .str s => s.text?
  | _ => none

def textField (items : JsonRow) (key : String) : Option String :=
  getItem? items key >>= textValue

def intField (items : JsonRow) (key : String) : Option Int :=
  match getItem? items key with
  | some (.int n) => some n
  | _ => none

def listField (items : JsonRow) (key : String) : Option (List PyJson) :=
  match getItem? items key with
  | some (.list values) => some values
  | _ => none

def concernOf (text : String) : Option Concern :=
  concernChoices.lookup text

/-- A label of an object whose fields have the types of the label. -/
def readLabel : PyJson → Option EvalLabel
  | .dict items => do
      let concern ← textField items "concern" >>= concernOf
      let category ← textField items "category"
      let filePath ← textField items "file_path"
      let first ← intField items "line_start"
      let last ← intField items "line_end"
      (EvalLabel.build concern (.ofString category) (.ofString filePath) (first, last)).toOption
  | _ => none

def auditorField (items : JsonRow) : Option (Option String) :=
  match getItem? items "human_auditor" with
  | some .null => some none
  | some value => (textValue value).map some
  | none => none

theorem auditor_of_ne
    {humanAuditor : Option String} (h : humanAuditor ≠ none ∧ humanAuditor ≠ some "") :
    ∃ auditor, humanAuditor = some auditor ∧ auditor ≠ "" := by
  obtain ⟨hsome, hne⟩ := h
  obtain ⟨auditor, rfl⟩ := Option.ne_none_iff_exists'.mp hsome
  refine ⟨auditor, rfl, ?_⟩
  rintro rfl
  exact hne rfl

/-- A case of an object whose fields have the types of the case. -/
def readCase (dates : DateText) (items : JsonRow) : Option (EvalCase dates) := do
  let id ← textField items "id"
  let splitText ← textField items "split"
  let split ← splitOf (.ofString splitText)
  let diff ← textField items "diff"
  let labelValues ← listField items "expected_labels"
  let expectedLabels ← labelValues.mapM readLabel
  let evidenceValues ← listField items "source_evidence"
  let sourceEvidence ← evidenceValues.mapM textValue
  let humanAuditor ← auditorField items
  let dateText ← textField items "committed_at"
  let committedAt ← dates.fromisoformat (.ofString dateText)
  if h : (id ≠ "" ∧ diff ≠ "") ∧ (expectedLabels ≠ [] ∧ sourceEvidence ≠ []) ∧
      (split = .holdout → humanAuditor ≠ none ∧ humanAuditor ≠ some "") then
    some
      { id := id
        split := split
        diff := diff
        expectedLabels := expectedLabels
        sourceEvidence := sourceEvidence
        humanAuditor := humanAuditor
        committedAt := committedAt
        texts_ne := h.1
        lists_ne := h.2.1
        audited := fun hsplit => auditor_of_ne (h.2.2 hsplit) }
  else
    none

theorem textValue_ofString
    (text : String) :
    textValue (.str (.ofString text)) = some text :=
  PyStr.text?_ofString text

theorem textValues_ofString
    (texts : List String) :
    (texts.map (fun s => PyJson.str (.ofString s))).mapM textValue = some texts := by
  induction texts with
  | nil => rfl
  | cons text texts ih =>
      rw [List.map_cons, List.mapM_cons, textValue_ofString, ih]
      rfl

theorem readLabel_labelJson
    (label : EvalLabel) :
    readLabel (labelJson label) = some label := by
  have hconcern : concernOf label.concern.value = some label.concern := by
    cases label.concern <;> rfl
  have hbuild : EvalLabel.build label.concern (.ofString label.category)
      (.ofString label.filePath) (label.lineStart, label.lineEnd) = .ok label := by
    simp only [EvalLabel.build, PyStr.text?_ofString, Int.toNat_natCast]
    exact dif_pos ⟨label.texts_ne, label.lines_ordered⟩
  simp [readLabel, labelJson, dictEntry, textField, intField, getItem?_cons, textValue_ofString,
    hconcern, hbuild, Except.toOption]

theorem readLabels_labelJson
    (labels : List EvalLabel) :
    (labels.map labelJson).mapM readLabel = some labels := by
  induction labels with
  | nil => rfl
  | cons label labels ih =>
      rw [List.map_cons, List.mapM_cons, readLabel_labelJson, ih]
      rfl

theorem auditorField_caseJson
    {dates : DateText} (evalCase : EvalCase dates) :
    auditorField (caseJson evalCase) = some evalCase.humanAuditor := by
  have hget : getItem? (caseJson evalCase) "human_auditor" =
      some (evalCase.humanAuditor.elim .null (fun s => .str (.ofString s))) := by
    simp [caseJson, dictEntry, getItem?_cons]
  rw [auditorField, hget]
  cases evalCase.humanAuditor with
  | none => rfl
  | some auditor =>
      simp only [Option.elim_some, textValue_ofString]
      rfl

theorem splitOf_value
    (split : EvalSplit) :
    splitOf (.ofString split.value) = some split := by
  cases split with
  | dev => decide
  | holdout => decide

theorem readCase_caseJson
    {dates : DateText} (evalCase : EvalCase dates) :
    readCase dates (caseJson evalCase) = some evalCase := by
  have hdate : ∃ text, (dates.isoformat evalCase.committedAt).text? = some text ∧
      dates.isoformat evalCase.committedAt = .ofString text := by
    obtain ⟨text, htext⟩ := text?_of_isPlain
      (fun c hc => ((dates.plain evalCase.committedAt).2 c hc).1)
    exact ⟨text, htext, PyStr.eq_ofString htext⟩
  obtain ⟨text, htext, hiso⟩ := hdate
  have hreads := dates.reads evalCase.committedAt
  have hfields :
      textField (caseJson evalCase) "id" = some evalCase.id ∧
      textField (caseJson evalCase) "split" = some evalCase.split.value ∧
      textField (caseJson evalCase) "diff" = some evalCase.diff ∧
      listField (caseJson evalCase) "expected_labels" =
        some (evalCase.expectedLabels.map labelJson) ∧
      listField (caseJson evalCase) "source_evidence" =
        some (evalCase.sourceEvidence.map (fun s => .str (.ofString s))) ∧
      textField (caseJson evalCase) "committed_at" = some text := by
    refine ⟨?_, ?_, ?_, ?_, ?_, ?_⟩
    all_goals simp [textField, listField, caseJson, dictEntry, getItem?_cons, textValue_ofString]
    exact htext
  obtain ⟨hid, hsplit, hdiff, hlabels, hevidence, hcommitted⟩ := hfields
  have haudited : evalCase.split = .holdout →
      evalCase.humanAuditor ≠ none ∧ evalCase.humanAuditor ≠ some "" := by
    intro h
    obtain ⟨auditor, hauditor, hne⟩ := evalCase.audited h
    rw [hauditor]
    exact ⟨Option.some_ne_none auditor, fun h => hne (Option.some.inj h)⟩
  rw [hiso] at hreads
  unfold readCase
  simp only [hid, hsplit, hdiff, hlabels, hevidence, hcommitted, splitOf_value, hreads,
    readLabels_labelJson, textValues_ofString, auditorField_caseJson, Option.bind_eq_bind,
    Option.bind_some]
  exact dif_pos ⟨evalCase.texts_ne, evalCase.lists_ne, haudited⟩

/-- `EvalCase.model_validate_json` where every field has the type of the model. -/
def validateCaseLine (dates : DateText) (floats : FloatText) (frames : Nat) (line : PyStr) :
    Except PyException (EvalCase dates) := do
  let row ← jsonLoads floats frames line.points >>= rowOfJson
  match readCase dates row with
  | some evalCase => .ok evalCase
  | none => .error .validationError

theorem validateCaseLine_caseJson
    {dates : DateText} {floats : FloatText} {frames : Nat}
    (evalCase : EvalCase dates) (line : PyStr)
    (h : jsonLoads floats frames line.points = .ok (.dict (caseJson evalCase))) :
    validateCaseLine dates floats frames line = .ok evalCase := by
  rw [validateCaseLine, h]
  simp only [ok_bind, rowOfJson, readCase_caseJson]

def strictModels (dates : DateText) (floats : FloatText) (frames : Nat) :
    CaseModels dates floats frames where
  validateLabel := readLabel
  validateCase := validateCaseLine dates floats frames
  reads_label := readLabel_labelJson
  reads_case := validateCaseLine_caseJson

end Decoder

theorem closeLabel_texts : "leak" ≠ "" ∧ "a.py" ≠ "" := by decide

theorem closeLabel_lines : 0 < 1 ∧ 1 ≤ 1 := by decide

def closeLabel : EvalLabel where
  concern := .correctness
  category := "leak"
  filePath := "a.py"
  lineStart := 1
  lineEnd := 1
  texts_ne := closeLabel_texts
  lines_ordered := closeLabel_lines

def judgedRow : JsonRow :=
  [dictEntry "id" (.str (.ofString "cand-001")),
    dictEntry "committed_at" (.str (.ofString "2025-03-01")),
    dictEntry "source_evidence" (.list ([.ofString "Close the file"].map .str)),
    dictEntry "diff" (.str (.ofString "+f.close()\n")),
    dictEntry "verdict" (.str (.ofString "include")),
    dictEntry "human_auditor" (.str (.ofString "ada")),
    dictEntry "split" (.str (.ofString "dev")),
    dictEntry "labels" (.list [labelJson closeLabel])]

theorem coffeeCase_texts : "cand-001" ≠ "" ∧ "+f.close()\n" ≠ "" := by decide

theorem coffeeCase_lists : [closeLabel] ≠ [] ∧ ["Close the file"] ≠ [] :=
  ⟨List.cons_ne_nil _ _, List.cons_ne_nil _ _⟩

theorem coffeeCase_audited
    (_ : EvalSplit.dev = .holdout) :
    ∃ auditor, some "ada" = some auditor ∧ auditor ≠ "" :=
  ⟨"ada", rfl, by decide⟩

def coffeeCase : EvalCase oneDay where
  id := "cand-001"
  split := .dev
  diff := "+f.close()\n"
  expectedLabels := [closeLabel]
  sourceEvidence := ["Close the file"]
  humanAuditor := some "ada"
  committedAt := ()
  texts_ne := coffeeCase_texts
  lists_ne := coffeeCase_lists
  audited := coffeeCase_audited

theorem buildCases_judgedRow :
    buildCases bareTables (fun _ => ⟨[]⟩) (strictModels oneDay zeroFloats 10) [judgedRow] =
      .ok [coffeeCase] := by
  rfl

section Texts

variable {p : CodePoint → Prop}

theorem closeLabel_texts_all
    (h : ∀ s : String, (∀ c ∈ s.toList, c.toNat < 0x80) → ∀ c ∈ (PyStr.ofString s).points, p c) :
    ∀ c ∈ jsonPoints (.list [labelJson closeLabel]), p c := by
  simp only [jsonPoints, jsonPointsItems, labelJson, List.append_nil, forall_jsonPoints_entry]
  exact ⟨h _ (by simp), h "correctness" (by simp), h _ (by simp), h "leak" (by simp),
    h _ (by simp), h "a.py" (by simp), h _ (by simp), List.forall_mem_nil _, h _ (by simp),
    List.forall_mem_nil _, List.forall_mem_nil _⟩

theorem judgedRow_texts_all
    (h : ∀ s : String, (∀ c ∈ s.toList, c.toNat < 0x80) → ∀ c ∈ (PyStr.ofString s).points, p c) :
    ∀ c ∈ jsonPointsMembers judgedRow, p c := by
  simp only [judgedRow, forall_jsonPoints_entry, forall_jsonPoints_strings]
  exact ⟨h _ (by simp), h "cand-001" (by simp), h _ (by simp), h "2025-03-01" (by simp),
    h _ (by simp), forall_singleton (h "Close the file" (by simp)), h _ (by simp),
    h "+f.close()\n" (by simp), h _ (by simp), h "include" (by simp), h _ (by simp),
    h "ada" (by simp), h _ (by simp), h "dev" (by simp), h _ (by simp),
    closeLabel_texts_all h, List.forall_mem_nil _⟩

theorem coffeeCase_texts_all
    (h : ∀ s : String, (∀ c ∈ s.toList, c.toNat < 0x80) → ∀ c ∈ (PyStr.ofString s).points, p c) :
    ∀ c ∈ jsonPointsMembers (caseJson coffeeCase), p c := by
  simp only [caseJson, forall_jsonPoints_entry]
  exact ⟨h _ (by simp), h "cand-001" (by simp), h _ (by simp), h "dev" (by simp),
    h _ (by simp), h "+f.close()\n" (by simp), h _ (by simp), closeLabel_texts_all h,
    h _ (by simp),
    forall_jsonPoints_strings.mpr (forall_singleton (h "Close the file" (by simp))),
    h _ (by simp), h "ada" (by simp), h _ (by simp), h "2025-03-01" (by simp),
    List.forall_mem_nil _⟩

end Texts

theorem judgedRow_reads :
    JsonReads sheetStyle zeroFloats (.dict judgedRow) := by
  have hstring : ∀ s, StringReads sheetStyle s := fun s hascii => by cases hascii
  refine ⟨?_, ?_⟩
  · have hkeys : judgedRow.map Prod.fst =
        ["id", "committed_at", "source_evidence", "diff", "verdict", "human_auditor", "split",
          "labels"].map PyStr.ofString := rfl
    rw [hkeys]
    exact List.Nodup.map PyStr.ofString_injective (by decide)
  · exact ⟨hstring _, hstring _, hstring _, hstring _, hstring _, ⟨hstring _, trivial⟩, hstring _,
      hstring _, hstring _, hstring _, hstring _, hstring _, hstring _, hstring _, hstring _,
      labelJson_reads rfl [closeLabel], trivial⟩

/-- A holdout of one case comes back. -/
theorem holdout_loads_back_coffee :
    ∃ bytes written, buildHoldout bareTables (fun _ => ⟨[]⟩) (strictModels oneDay zeroFloats 10)
        bytes = .ok ([coffeeCase], written) ∧
      loadPublicEvalCases bareTables (strictModels oneDay zeroFloats 10) written =
        .ok [coffeeCase] := by
  have hrow : ∀ row ∈ [judgedRow], row = judgedRow := fun row hrow => List.mem_singleton.mp hrow
  have hcase : ∀ row ∈ [coffeeCase].map caseJson, row = caseJson coffeeCase :=
    fun row hrow => List.mem_singleton.mp hrow
  have hsmall : ∀ n : Int, n.natAbs < 10 ^ 1 → n.natAbs < 10 ^ maxStrDigits := fun n hn =>
    Nat.lt_of_lt_of_le hn (Nat.pow_le_pow_right (by decide) (by decide))
  have hlabel : PrintableItems [labelJson closeLabel] :=
    ⟨⟨trivial, trivial, trivial, hsmall 1 (by decide), hsmall 1 (by decide), trivial⟩, trivial⟩
  obtain ⟨text, htext⟩ : ∃ text, jsonLines sheetStyle zeroFloats 10 [judgedRow] = .ok text := by
    refine jsonLines_total ?_
    intro row h
    rw [hrow row h]
    exact ⟨⟨trivial, trivial, ⟨trivial, trivial⟩, trivial, trivial, trivial, trivial, hlabel,
      trivial⟩, by decide⟩
  obtain ⟨bytes, hbytes⟩ : ∃ bytes, writeText text = .ok bytes := by
    refine writeText_jsonLines ?_ ?_ htext
    · intro row h
      rw [hrow row h]
      exact judgedRow_reads
    · intro row h
      rw [hrow row h]
      exact judgedRow_texts_all (fun s _ => valid_ofString s)
  have hload : loadSheetRows zeroFloats bareTables 10 bytes = .ok [judgedRow] := by
    refine (loadSheetRows_eq_ok_iff ?_ htext hbytes).mpr ?_
    · intro row h
      rw [hrow row h]
      exact judgedRow_reads
    · intro row h
      rw [hrow row h]
      exact judgedRow_texts_all (fun s hs => quiet_ofString hs)
  obtain ⟨written, hwritten⟩ : ∃ text, jsonLines caseStyle zeroFloats 10
      ([coffeeCase].map caseJson) = .ok text := by
    refine jsonLines_total ?_
    intro row h
    rw [hcase row h]
    exact ⟨⟨trivial, trivial, trivial, hlabel, ⟨trivial, trivial⟩, trivial, trivial, trivial⟩,
      by decide⟩
  obtain ⟨bytes', hbytes'⟩ : ∃ bytes, writeText written = .ok bytes := by
    refine writeText_jsonLines ?_ ?_ hwritten
    · intro row h
      rw [hcase row h]
      exact caseJson_reads coffeeCase
    · intro row h
      rw [hcase row h]
      exact coffeeCase_texts_all (fun s _ => valid_ofString s)
  have hbuilt : buildHoldout bareTables (fun _ => ⟨[]⟩) (strictModels oneDay zeroFloats 10) bytes =
      .ok ([coffeeCase], bytes') := by
    have hcases := buildCases_judgedRow
    rw [buildHoldout, hload]
    simp only [python, Except.mapError, ok_bind, hcases, casesText, hwritten, hbytes']
    rfl
  refine ⟨bytes, bytes', hbuilt, (holdout_loads_back_iff hbuilt).mpr ?_⟩
  intro evalCase h
  rw [List.mem_singleton.mp h]
  exact coffeeCase_texts_all (fun s hs => quiet_ofString hs)

end Evals
end PrReviewer
