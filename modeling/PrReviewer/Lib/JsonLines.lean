import Mathlib.Data.List.TakeWhile
import PrReviewer.Lib.Bytes
import PrReviewer.Lib.JsonCharacters
import PrReviewer.Lib.JsonPrefix
import PrReviewer.Lib.TextMode

/-!
# JSON lines

A text with one JSON object a line, read by `splitlines`.  The writer ends a line with a newline;
the reader also ends one at the other line boundaries of Unicode.  Of these JSON escapes those
below U+0020, and without `ensure_ascii` it leaves U+0085, U+2028 and U+2029 as they are: what is
read is what was written exactly where none of the three stands in the objects.
-/

namespace PrReviewer
namespace Lib

/-! ## Files -/

/-- `path.write_text(text, encoding="utf-8")`: the bytes of the file. -/
def writeText (text : PyStr) : Except PyException (List UInt8) :=
  encodeUtf8 text

/-- `path.read_text(encoding="utf-8")`. -/
def readText (bytes : List UInt8) : Except PyException PyStr :=
  (decodeUtf8 bytes).map universalNewlines

theorem readText_writeText
    {text : PyStr} {bytes : List UInt8}
    (hplain : carriageReturn ∉ text.points)
    (h : writeText text = .ok bytes) :
    readText bytes = .ok text := by
  rw [readText, decodeUtf8_encodeUtf8 h]
  exact congrArg Except.ok (universalNewlines_eq_self_iff.mpr hplain)

/-! ## Lines -/

section Lines

variable (tables : UnicodeTables)

/-- `if line.strip()`. -/
def lineHasText (line : PyStr) : Bool :=
  decide ((line.strip tables).points ≠ [])

variable {tables}

theorem lineHasText_of_mem
    {line : PyStr} {c : CodePoint}
    (hc : c ∈ line.points) (hspace : isWhitespace tables c = false) :
    lineHasText tables line = true := by
  have hdrop : ∀ points : List CodePoint, c ∈ points →
      c ∈ points.dropWhile (isWhitespace tables) := by
    intro points hmem
    induction points with
    | nil => cases hmem
    | cons d points ih =>
        rw [List.dropWhile_cons]
        split
        · next hd =>
            refine ih ((List.mem_cons.mp hmem).resolve_left ?_)
            rintro rfl
            rw [hspace] at hd
            cases hd
        · exact hmem
  have hmem := hdrop _ (List.mem_reverse.mpr (hdrop _ hc))
  exact decide_eq_true (List.ne_nil_of_mem (List.mem_reverse.mpr hmem))

/-- The parts of a text that is split hold its characters. -/
theorem exists_mem_splitOnP
    {p : CodePoint → Bool} {points : List CodePoint} {c : CodePoint}
    (hc : c ∈ points) (hp : p c = false) :
    ∃ part ∈ points.splitOnP p, c ∈ part := by
  induction points with
  | nil => cases hc
  | cons d points ih =>
      rw [List.splitOnP_cons_eq_if_modifyHead]
      obtain ⟨first, others, heq⟩ := List.exists_cons_of_ne_nil (List.splitOnP_ne_nil p points)
      rcases List.mem_cons.mp hc with rfl | hc
      · rw [if_neg (by simp [hp]), heq]
        exact ⟨c :: first, List.mem_cons_self, List.mem_cons_self⟩
      · obtain ⟨part, hpart, hmem⟩ := ih hc
        split
        · exact ⟨part, List.mem_cons_of_mem _ hpart, hmem⟩
        · rw [heq, List.modifyHead_cons]
          rw [heq] at hpart
          rcases List.mem_cons.mp hpart with rfl | hpart
          · exact ⟨d :: part, List.mem_cons_self, List.mem_cons_of_mem d hmem⟩
          · exact ⟨part, List.mem_cons_of_mem _ hpart, hmem⟩

theorem pieces_eq_splitOnP
    {points : List CodePoint}
    (hplain : carriageReturn ∉ points) :
    (PyStr.mk points).pieces = (points.splitOnP isLineBreak).map PyStr.mk := by
  have hjoin : joinCrLf (points ++ []) = points ++ joinCrLf [] := joinCrLf_quiet hplain
  simp only [List.append_nil, joinCrLf] at hjoin
  rw [pieces_eq]
  rcases bareLine_eq_or points with hbare | hbare
  · rw [← hbare, hjoin]
  · rw [hjoin] at hbare
    exact absurd (hbare ▸ List.mem_append_right _ (List.mem_singleton_self _)) hplain

/-- The first piece of a text with a line boundary inside. -/
theorem splitOnP_first_break
    {opening closing : CodePoint} {middle : List CodePoint}
    (hopening : isLineBreak opening = false) (hclosing : isLineBreak closing = false)
    (hbreak : ∃ c ∈ middle, isLineBreak c = true) :
    ∃ before d after, middle ++ [closing] = before ++ d :: after ∧ isLineBreak d = true ∧
      closing ∈ after ∧
      (opening :: (middle ++ [closing])).splitOnP isLineBreak =
        (opening :: before) :: after.splitOnP isLineBreak := by
  obtain ⟨c, hc, hbreak⟩ := hbreak
  obtain ⟨before, d, after, hsplit, hd, hbefore⟩ :
      ∃ before d after, middle ++ [closing] = before ++ d :: after ∧ isLineBreak d = true ∧
        ∀ e ∈ before, isLineBreak e = false := by
    cases hfind : (middle ++ [closing]).find? isLineBreak with
    | none =>
        have hnone := List.find?_eq_none.mp hfind c (List.mem_append_left _ hc)
        exact absurd hbreak hnone
    | some d =>
        obtain ⟨hd, before, after, hsplit, hbefore⟩ := List.find?_eq_some_iff_append.mp hfind
        exact ⟨before, d, after, hsplit, hd, fun e he => by simpa using hbefore e he⟩
  refine ⟨before, d, after, hsplit, hd, ?_, ?_⟩
  · have hne : after ≠ [] := by
      rintro rfl
      have hend := congrArg List.getLast? hsplit
      rw [List.getLast?_append_of_ne_nil _ (List.cons_ne_nil _ _),
        List.getLast?_append_of_ne_nil _ (List.cons_ne_nil _ _)] at hend
      cases hend
      rw [hclosing] at hd
      cases hd
    have hend := congrArg List.getLast? hsplit
    rw [List.getLast?_append_of_ne_nil _ (List.cons_ne_nil _ _),
      List.getLast?_append_of_ne_nil _ (List.cons_ne_nil _ _),
      List.getLast?_cons_of_ne_nil hne] at hend
    exact List.mem_of_getLast? hend.symm
  · rw [hsplit, ← List.cons_append]
    refine List.splitOnP_append_cons_of_forall_mem ?_ d hd after
    intro e he
    rcases List.mem_cons.mp he with rfl | he
    · exact hopening
    · exact hbefore e he

/-- The pieces with text of a line that begins and ends with a character of its own: one where
nothing breaks the line, and more where something does. -/
theorem one_le_pieces
    (tables : UnicodeTables) {opening closing : CodePoint} {middle : List CodePoint}
    (hopening : isWhitespace tables opening = false ∧ isLineBreak opening = false)
    (hclosing : isWhitespace tables closing = false ∧ isLineBreak closing = false)
    (hplain : carriageReturn ∉ opening :: (middle ++ [closing])) :
    1 ≤ ((PyStr.mk (opening :: (middle ++ [closing]))).pieces.filter (lineHasText tables)).length ∧
      ((∃ c ∈ middle, isLineBreak c = true) →
        1 < ((PyStr.mk (opening :: (middle ++ [closing]))).pieces.filter
          (lineHasText tables)).length) := by
  have hkept : ∀ points : List CodePoint, ∀ c ∈ points, isWhitespace tables c = false →
      isLineBreak c = false →
        1 ≤ (((points.splitOnP isLineBreak).map PyStr.mk).filter (lineHasText tables)).length := by
    intro points c hc hspace hbreak
    obtain ⟨part, hpart, hmem⟩ := exists_mem_splitOnP hc hbreak
    exact List.length_pos_of_mem (List.mem_filter.mpr
      ⟨List.mem_map_of_mem hpart, lineHasText_of_mem hmem hspace⟩)
  rw [pieces_eq_splitOnP hplain]
  refine ⟨hkept _ opening List.mem_cons_self hopening.1 hopening.2, ?_⟩
  intro hbreak
  obtain ⟨before, d, after, _, _, hlast, hfirst⟩ :=
    splitOnP_first_break hopening.2 hclosing.2 hbreak
  rw [hfirst, List.map_cons, List.filter_cons_of_pos
    (lineHasText_of_mem List.mem_cons_self hopening.1), List.length_cons]
  have hrest := hkept after closing hlast hclosing.1 hclosing.2
  omega

end Lines

/-! ## Objects -/

section Raw

variable {style : JsonStyle} {floats : FloatText}

theorem mem_escapePoint_self
    {c : CodePoint} (hc : 0x7e < c.val) :
    c ∈ escapePoint false c := by
  have hshort : shortEscapes.lookup c = none := by
    cases hlookup : shortEscapes.lookup c with
    | none => rfl
    | some letter =>
        obtain ⟨before, after, heq, _⟩ := List.lookup_eq_some_iff.mp hlookup
        have hlow : ∀ p ∈ shortEscapes, p.1.val ≤ 0x7e := by
          simp [shortEscapes]
        have hle := hlow (c, letter) (by simp [heq])
        exact absurd hc (Nat.not_lt.mpr hle)
  rw [escapePoint, hshort]
  simp only [Bool.false_eq_true, false_and, or_false]
  rw [if_neg (by omega)]
  exact List.mem_singleton_self c

theorem mem_quoted
    {s : PyStr} {c : CodePoint}
    (hraw : style.ensureAscii = false) (hc : 0x7e < c.val) (hmem : c ∈ s.points) :
    c ∈ quoted style s := by
  rw [quoted, escaped, hraw]
  exact List.mem_cons_of_mem _ (List.mem_append_left _
    (List.mem_flatMap.mpr ⟨c, hmem, mem_escapePoint_self hc⟩))

theorem mem_intercalate_of_mem
    {sep text : List CodePoint} {texts : List (List CodePoint)} {c : CodePoint}
    (htext : text ∈ texts) (hc : c ∈ text) :
    c ∈ List.intercalate sep texts := by
  induction texts with
  | nil => cases htext
  | cons first rest ih =>
      cases rest with
      | nil =>
          rw [List.mem_singleton.mp htext] at hc
          simpa using hc
      | cons second rest =>
          rw [List.intercalate_cons_cons]
          rcases List.mem_cons.mp htext with rfl | htext
          · exact List.mem_append_left _ (List.mem_append_left _ hc)
          · exact List.mem_append_right _ (ih htext)

mutual

/-- Without `ensure_ascii` the characters beyond ASCII stand in the text as they are. -/
theorem mem_jsonDumps
    (hraw : style.ensureAscii = false) (frames : Nat) {c : CodePoint} (hc : 0x7e < c.val) :
    ∀ value text, jsonDumps style floats frames value = .ok text → c ∈ jsonPoints value →
      c ∈ text
  | .null, _ => by
      intro _ hmem
      cases hmem
  | .bool _, _ => by
      intro _ hmem
      cases hmem
  | .int _, _ => by
      intro _ hmem
      cases hmem
  | .float _, _ => by
      intro _ hmem
      cases hmem
  | .str s, text => by
      rintro ⟨⟩ hmem
      exact mem_quoted hraw hc hmem
  | .list items, text => by
      intro htext hmem
      cases frames with
      | zero => cases htext
      | succ frames =>
          simp only [jsonDumps] at htext
          obtain ⟨texts, htexts, htext⟩ := bind_eq_ok htext
          cases htext
          obtain ⟨part, hpart, hpoint⟩ := mem_jsonItems hraw frames hc items texts htexts hmem
          exact List.mem_cons_of_mem _ (List.mem_append_left _
            (mem_intercalate_of_mem hpart hpoint))
  | .dict items, text => by
      intro htext hmem
      cases frames with
      | zero => cases htext
      | succ frames =>
          simp only [jsonDumps] at htext
          obtain ⟨texts, htexts, htext⟩ := bind_eq_ok htext
          cases htext
          obtain ⟨part, hpart, hpoint⟩ := mem_jsonMembers hraw frames hc items texts htexts hmem
          exact List.mem_cons_of_mem _ (List.mem_append_left _
            (mem_intercalate_of_mem hpart hpoint))

theorem mem_jsonItems
    (hraw : style.ensureAscii = false) (frames : Nat) {c : CodePoint} (hc : 0x7e < c.val) :
    ∀ items texts, jsonItems style floats frames items = .ok texts →
      c ∈ jsonPointsItems items → ∃ text ∈ texts, c ∈ text
  | [], _ => by
      intro _ hmem
      cases hmem
  | item :: rest, texts => by
      intro htexts hmem
      simp only [jsonItems] at htexts
      obtain ⟨first, hfirst, htexts⟩ := bind_eq_ok htexts
      obtain ⟨later, hlater, htexts⟩ := bind_eq_ok htexts
      cases htexts
      rcases List.mem_append.mp hmem with hmem | hmem
      · exact ⟨first, List.mem_cons_self, mem_jsonDumps hraw frames hc item first hfirst hmem⟩
      · obtain ⟨text, htext, hpoint⟩ := mem_jsonItems hraw frames hc rest later hlater hmem
        exact ⟨text, List.mem_cons_of_mem _ htext, hpoint⟩

theorem mem_jsonMembers
    (hraw : style.ensureAscii = false) (frames : Nat) {c : CodePoint} (hc : 0x7e < c.val) :
    ∀ members texts, jsonMembers style floats frames members = .ok texts →
      c ∈ jsonPointsMembers members → ∃ text ∈ texts, c ∈ text
  | [], _ => by
      intro _ hmem
      cases hmem
  | (key, value) :: rest, texts => by
      intro htexts hmem
      simp only [jsonMembers] at htexts
      obtain ⟨first, hfirst, htexts⟩ := bind_eq_ok htexts
      obtain ⟨later, hlater, htexts⟩ := bind_eq_ok htexts
      cases htexts
      simp only [jsonPointsMembers, List.mem_append] at hmem
      rcases hmem with hkey | hvalue | hrest
      · exact ⟨_, List.mem_cons_self, List.mem_append_left _ (mem_quoted hraw hc hkey)⟩
      · have hpoint := mem_jsonDumps hraw frames hc value first hfirst hvalue
        exact ⟨_, List.mem_cons_self, by simp [hpoint]⟩
      · obtain ⟨text, htext, hpoint⟩ := mem_jsonMembers hraw frames hc rest later hlater hrest
        exact ⟨text, List.mem_cons_of_mem _ htext, hpoint⟩

end

end Raw

/-- The line boundaries that JSON leaves as they are without `ensure_ascii`. -/
def breaksLine (c : CodePoint) : Bool :=
  decide (c.val ∈ [0x85, 0x2028, 0x2029])

abbrev JsonRow := List (PyStr × PyJson)

section JsonLines

variable (style : JsonStyle) (floats : FloatText) (tables : UnicodeTables) (frames : Nat)

/-- `"".join(json.dumps(row) + "\n" for row in rows)`. -/
def jsonLines (rows : List JsonRow) : Except PyException PyStr := do
  let texts ← rows.mapM (fun row => jsonDumps style floats frames (.dict row))
  return ⟨texts.flatMap (fun text => text ++ [newline])⟩

/-- `[read(line) for line in text.splitlines() if line.strip()]`. -/
def readEachLine {ε α : Type} (read : PyStr → Except ε α) (text : PyStr) : Except ε (List α) :=
  (text.splitlines.filter (lineHasText tables)).mapM read

variable {style floats tables frames}

theorem jsonLines_cons
    {row : JsonRow} {rows : List JsonRow} {text : PyStr}
    (h : jsonLines style floats frames (row :: rows) = .ok text) :
    ∃ line rest, jsonDumps style floats frames (.dict row) = .ok line ∧
      jsonLines style floats frames rows = .ok rest ∧
      text = ⟨line ++ newline :: rest.points⟩ := by
  obtain ⟨texts, htexts, h⟩ := bind_eq_ok h
  rw [List.mapM_cons] at htexts
  obtain ⟨line, hline, htexts⟩ := bind_eq_ok htexts
  obtain ⟨later, hlater, htexts⟩ := bind_eq_ok htexts
  cases htexts
  cases h
  refine ⟨line, ⟨later.flatMap (fun text => text ++ [newline])⟩, hline, ?_, ?_⟩
  · rw [jsonLines, hlater]
    rfl
  · simp

/-- The shape of the text of an object. -/
theorem jsonDumps_dict
    {row : JsonRow} {line : List CodePoint}
    (h : jsonDumps style floats frames (.dict row) = .ok line) :
    ∃ middle, line = 0x7b :: (middle ++ [0x7d]) := by
  cases frames with
  | zero => cases h
  | succ frames =>
      simp only [jsonDumps] at h
      obtain ⟨texts, _, h⟩ := bind_eq_ok h
      cases h
      exact ⟨_, rfl⟩

theorem isLineBreak_of_breaksLine
    {c : CodePoint} (h : breaksLine c = true) :
    isLineBreak c = true ∧ 0x7e < c.val := by
  simp only [breaksLine, decide_eq_true_eq, List.mem_cons, List.not_mem_nil, or_false] at h
  simp only [isLineBreak, decide_eq_true_eq, List.mem_cons, List.not_mem_nil, or_false]
  omega

/-- The line boundaries in the text of an object are those its strings hold. -/
theorem breaksLine_of_written
    {points : List CodePoint} {c : CodePoint}
    (h : Written style points c) (hbreak : isLineBreak c = true) :
    style.ensureAscii = false ∧ c ∈ points ∧ breaksLine c = true := by
  simp only [isLineBreak, decide_eq_true_eq, List.mem_cons, List.not_mem_nil, or_false] at hbreak
  rcases h with hplain | ⟨hraw, hhigh, hmem⟩
  · unfold IsPlain at hplain
    omega
  · refine ⟨hraw, hmem, ?_⟩
    simp only [breaksLine, decide_eq_true_eq, List.mem_cons, List.not_mem_nil, or_false]
    omega

/-- No carriage return stands in the text of an object. -/
theorem carriageReturn_not_mem_jsonDumps
    {row : JsonRow} {line : List CodePoint}
    (hreads : JsonReads style floats (.dict row))
    (h : jsonDumps style floats frames (.dict row) = .ok line) :
    carriageReturn ∉ line := by
  intro hmem
  have hwritten := written_jsonDumps frames _ line hreads h _ hmem
  obtain ⟨_, _, hbreak⟩ := breaksLine_of_written hwritten (by decide)
  simp [breaksLine, carriageReturn] at hbreak

/-- The object can be told apart from what stands on the lines around it. -/
def StaysOnLine (style : JsonStyle) (row : JsonRow) : Prop :=
  style.ensureAscii = true ∨ ∀ c ∈ jsonPointsMembers row, breaksLine c = false

/-- The break of an object that does not stay on its line. -/
theorem exists_break
    {row : JsonRow} {middle : List CodePoint}
    (h : jsonDumps style floats frames (.dict row) = .ok (0x7b :: (middle ++ [0x7d])))
    (hbroken : ¬ StaysOnLine style row) :
    ∃ c ∈ middle, isLineBreak c = true := by
  simp only [StaysOnLine, not_or, not_forall] at hbroken
  obtain ⟨hraw, c, hc, hbreaks⟩ := hbroken
  rw [Bool.not_eq_true] at hraw
  rw [Bool.not_eq_false] at hbreaks
  obtain ⟨hbreak, hhigh⟩ := isLineBreak_of_breaksLine hbreaks
  have hmem := mem_jsonDumps hraw frames hhigh _ _ h hc
  refine ⟨c, ?_, hbreak⟩
  rcases List.mem_cons.mp hmem with rfl | hmem
  · cases hbreak
  · rcases List.mem_append.mp hmem with hmem | hlast
    · exact hmem
    · rw [List.mem_singleton.mp hlast] at hbreak
      cases hbreak

/-- The pieces of the text of an object. -/
theorem pieces_jsonDumps
    (tables : UnicodeTables) {row : JsonRow} {line : List CodePoint}
    (hreads : JsonReads style floats (.dict row))
    (h : jsonDumps style floats frames (.dict row) = .ok line) :
    (StaysOnLine style row → (PyStr.mk line).pieces = [⟨line⟩]) ∧
      1 ≤ ((PyStr.mk line).pieces.filter (lineHasText tables)).length ∧
      (¬ StaysOnLine style row →
        1 < ((PyStr.mk line).pieces.filter (lineHasText tables)).length) := by
  have hplain := carriageReturn_not_mem_jsonDumps hreads h
  obtain ⟨middle, rfl⟩ := jsonDumps_dict h
  have hbraces := one_le_pieces tables ⟨rfl, rfl⟩ ⟨rfl, rfl⟩ hplain
  refine ⟨?_, hbraces.1, ?_⟩
  · intro hstays
    refine pieces_of_unbroken ?_
    intro c hc
    by_contra hbreak
    rw [Bool.not_eq_false] at hbreak
    obtain ⟨hraw, hmem, hbreaks⟩ := breaksLine_of_written
      (written_jsonDumps frames _ _ hreads h c hc) hbreak
    rcases hstays with hascii | hnone
    · rw [hraw] at hascii
      cases hascii
    · rw [hnone c hmem] at hbreaks
      cases hbreaks
  · exact fun hbroken => hbraces.2 (exists_break h hbroken)

/-- The first piece of an object that does not stay on its line is no JSON. -/
theorem exists_piece_broken
    (tables : UnicodeTables) {row : JsonRow} {line : List CodePoint}
    (hreads : JsonReads style floats (.dict row))
    (h : jsonDumps style floats frames (.dict row) = .ok line)
    (hbroken : ¬ StaysOnLine style row) :
    ∃ piece ∈ (PyStr.mk line).pieces.filter (lineHasText tables),
      ∃ e, jsonLoads floats frames piece.points = .error e := by
  have hplain := carriageReturn_not_mem_jsonDumps hreads h
  have hload := jsonLoads_jsonDumps hreads h
  have hwritten := written_jsonDumps frames _ line hreads h
  obtain ⟨middle, rfl⟩ := jsonDumps_dict h
  obtain ⟨before, d, after, hsplit, hd, _, hfirst⟩ :=
    @splitOnP_first_break 0x7b 0x7d middle rfl rfl (exists_break h hbroken)
  rw [pieces_eq_splitOnP hplain, hfirst]
  refine ⟨⟨0x7b :: before⟩, ?_, ?_⟩
  · exact List.mem_filter.mpr ⟨List.mem_cons_self, lineHasText_of_mem List.mem_cons_self rfl⟩
  · rw [hsplit] at hload hwritten
    obtain ⟨_, _, hbreaks⟩ := breaksLine_of_written
      (hwritten d (List.mem_cons_of_mem _ (List.mem_append_right _ List.mem_cons_self))) hd
    have hspace : isJsonSpace d = false := by
      have hhigh := (isLineBreak_of_breaksLine hbreaks).2
      simp only [isJsonSpace, decide_eq_false_iff_not]
      rintro (rfl | rfl | rfl | rfl) <;> exact absurd hhigh (by decide)
    exact jsonLoads_cut hload hspace

/-- How many lines with text the file has: one for each row, and more when one does not stay on
its line. -/
theorem length_lines
    (tables : UnicodeTables) {rows : List JsonRow} {text : PyStr}
    (hreads : ∀ row ∈ rows, JsonReads style floats (.dict row))
    (h : jsonLines style floats frames rows = .ok text) :
    rows.length ≤ (text.splitlines.filter (lineHasText tables)).length ∧
      ((∃ row ∈ rows, ¬ StaysOnLine style row) →
        rows.length < (text.splitlines.filter (lineHasText tables)).length) := by
  induction rows generalizing text with
  | nil => simp
  | cons row rows ih =>
      obtain ⟨line, rest, hline, hrest, rfl⟩ := jsonLines_cons h
      obtain ⟨hrow, hrows⟩ := List.forall_mem_cons.mp hreads
      obtain ⟨hle, hlt⟩ := ih hrows hrest
      obtain ⟨_, hone, hmore⟩ := pieces_jsonDumps tables hrow hline
      rw [splitlines_append_newline, List.filter_append, List.length_append, List.length_cons]
      change _ ≤ _ + (rest.splitlines.filter (lineHasText tables)).length ∧
        (_ → _ < _ + (rest.splitlines.filter (lineHasText tables)).length)
      refine ⟨by omega, ?_⟩
      rintro ⟨broken, hmem, hbroken⟩
      rcases List.mem_cons.mp hmem with rfl | hmem
      · have := hmore hbroken
        omega
      · have := hlt ⟨broken, hmem, hbroken⟩
        omega

theorem length_of_mapM_eq_ok
    {ε α β : Type} {f : α → Except ε β} {items : List α} {results : List β}
    (h : items.mapM f = .ok results) :
    results.length = items.length := by
  have hmap := map_of_mapM_eq_ok (g := fun _ => ()) (h := fun _ => ()) (fun _ _ _ => rfl) h
  simpa using congrArg List.length hmap

/-- A file with a row that does not stay on its line is not read. -/
theorem readEachLine_broken
    {ε α : Type} (tables : UnicodeTables) {read : PyStr → Except ε α} {rows : List JsonRow}
    {text : PyStr}
    (hreads : ∀ row ∈ rows, JsonReads style floats (.dict row))
    (hread : ∀ line e, jsonLoads floats frames line.points = .error e →
      ∀ a, read line ≠ .ok a)
    (h : jsonLines style floats frames rows = .ok text)
    (hbroken : ∃ row ∈ rows, ¬ StaysOnLine style row) :
    ∃ e, readEachLine tables read text = .error e := by
  have hpiece : ∃ piece ∈ text.splitlines.filter (lineHasText tables),
      ∃ e, jsonLoads floats frames piece.points = .error e := by
    induction rows generalizing text with
    | nil =>
        obtain ⟨row, hrow, _⟩ := hbroken
        cases hrow
    | cons row rows ih =>
        obtain ⟨line, rest, hline, hrest, rfl⟩ := jsonLines_cons h
        obtain ⟨hrow, hrows⟩ := List.forall_mem_cons.mp hreads
        rw [splitlines_append_newline, List.filter_append]
        obtain ⟨broken, hmem, hbroken⟩ := hbroken
        rcases List.mem_cons.mp hmem with rfl | hmem
        · obtain ⟨piece, hpiece, he⟩ := exists_piece_broken tables hrow hline hbroken
          exact ⟨piece, List.mem_append_left _ hpiece, he⟩
        · obtain ⟨piece, hpiece, he⟩ := ih hrows hrest ⟨broken, hmem, hbroken⟩
          exact ⟨piece, List.mem_append_right _ hpiece, he⟩
  obtain ⟨piece, hpiece, e, he⟩ := hpiece
  cases hback : readEachLine tables read text with
  | error e' => exact ⟨e', rfl⟩
  | ok results =>
      obtain ⟨a, _, ha⟩ := (mem_of_mapM_eq_ok hback).1 piece hpiece
      exact absurd ha (hread piece e he a)

section Read

variable {ι ε α : Type} {f : ι → JsonRow} {read : PyStr → Except ε α} {value : ι → α}

/-- Rows that stay on their lines are read one by one. -/
theorem readEachLine_jsonLines
    {items : List ι} {text : PyStr}
    (hreads : ∀ i ∈ items, JsonReads style floats (.dict (f i)))
    (hread : ∀ i ∈ items, ∀ line, jsonDumps style floats frames (.dict (f i)) = .ok line →
      read ⟨line⟩ = .ok (value i))
    (hstays : ∀ i ∈ items, StaysOnLine style (f i))
    (h : jsonLines style floats frames (items.map f) = .ok text) :
    readEachLine tables read text = .ok (items.map value) := by
  induction items generalizing text with
  | nil =>
      cases h
      rfl
  | cons i items ih =>
      obtain ⟨line, rest, hline, hrest, rfl⟩ := jsonLines_cons h
      obtain ⟨hrow, hrows⟩ := List.forall_mem_cons.mp hreads
      obtain ⟨hfirst, hlater⟩ := List.forall_mem_cons.mp hread
      obtain ⟨hstay, hstay'⟩ := List.forall_mem_cons.mp hstays
      have hothers := ih hrows hlater hstay' hrest
      obtain ⟨hpieces, hone, _⟩ := pieces_jsonDumps tables hrow hline
      rw [hpieces hstay] at hone
      have hkept : [PyStr.mk line].filter (lineHasText tables) = [⟨line⟩] := by
        cases hhas : lineHasText tables ⟨line⟩ with
        | true => exact List.filter_cons_of_pos hhas
        | false =>
            rw [List.filter_cons_of_neg (by simp [hhas])] at hone
            cases hone
      rw [readEachLine, splitlines_append_newline, List.filter_append, hpieces hstay, hkept,
        List.singleton_append, List.mapM_cons, hfirst line hline, ok_bind]
      rw [readEachLine] at hothers
      rw [hothers]
      rfl

variable (tables read value) in
/--
**JSON lines.**  What is read back is what was written exactly where every row stays on its line.
-/
theorem readEachLine_jsonLines_iff
    {items : List ι} {text : PyStr}
    (hreads : ∀ i ∈ items, JsonReads style floats (.dict (f i)))
    (hread : ∀ i ∈ items, ∀ line, jsonDumps style floats frames (.dict (f i)) = .ok line →
      read ⟨line⟩ = .ok (value i))
    (h : jsonLines style floats frames (items.map f) = .ok text) :
    readEachLine tables read text = .ok (items.map value) ↔
      ∀ i ∈ items, StaysOnLine style (f i) := by
  constructor
  · intro hback i hi
    by_contra hbroken
    have hrows : ∀ row ∈ items.map f, JsonReads style floats (.dict row) := by
      intro row hrow
      obtain ⟨j, hj, rfl⟩ := List.mem_map.mp hrow
      exact hreads j hj
    have hlt := (length_lines tables hrows h).2
      ⟨f i, List.mem_map_of_mem hi, hbroken⟩
    have hlength := length_of_mapM_eq_ok hback
    rw [List.length_map] at hlength hlt
    omega
  · exact fun hstays => readEachLine_jsonLines hreads hread hstays h

end Read

theorem carriageReturn_not_mem_jsonLines
    {rows : List JsonRow} {text : PyStr}
    (hreads : ∀ row ∈ rows, JsonReads style floats (.dict row))
    (h : jsonLines style floats frames rows = .ok text) :
    carriageReturn ∉ text.points := by
  induction rows generalizing text with
  | nil =>
      cases h
      exact List.not_mem_nil
  | cons row rows ih =>
      obtain ⟨line, rest, hline, hrest, rfl⟩ := jsonLines_cons h
      obtain ⟨hrow, hrows⟩ := List.forall_mem_cons.mp hreads
      intro hmem
      rcases List.mem_append.mp hmem with hmem | hmem
      · exact carriageReturn_not_mem_jsonDumps hrow hline hmem
      · rcases List.mem_cons.mp hmem with heq | hmem
        · exact absurd heq (by decide)
        · exact ih hrows hrest hmem

/-- Rows within the limits have a text. -/
theorem jsonLines_total
    {rows : List JsonRow}
    (hrows : ∀ row ∈ rows, Printable (.dict row) ∧ jsonDepth (.dict row) ≤ frames) :
    ∃ text, jsonLines style floats frames rows = .ok text := by
  have hlines : ∃ texts, rows.mapM (fun row => jsonDumps style floats frames (.dict row)) =
      .ok texts := by
    induction rows with
    | nil => exact ⟨[], rfl⟩
    | cons row rows ih =>
        obtain ⟨⟨hprintable, hdepth⟩, hrest⟩ := List.forall_mem_cons.mp hrows
        obtain ⟨line, hline⟩ := @jsonDumps_total style floats frames (.dict row)
          hprintable hdepth
        obtain ⟨texts, htexts⟩ := ih hrest
        refine ⟨line :: texts, ?_⟩
        rw [List.mapM_cons, hline, ok_bind, htexts]
        rfl
  obtain ⟨texts, htexts⟩ := hlines
  exact ⟨_, by rw [jsonLines, htexts]; rfl⟩

/-- Rows without a surrogate are written. -/
theorem writeText_jsonLines
    {rows : List JsonRow} {text : PyStr}
    (hreads : ∀ row ∈ rows, JsonReads style floats (.dict row))
    (hvalid : ∀ row ∈ rows, ∀ c ∈ jsonPointsMembers row, c.val.isValidChar)
    (h : jsonLines style floats frames rows = .ok text) :
    ∃ bytes, writeText text = .ok bytes := by
  have hpoints : ∀ c ∈ text.points, c.val.isValidChar := by
    obtain ⟨texts, htexts, h⟩ := bind_eq_ok h
    cases h
    intro c hc
    obtain ⟨line, hline, hc⟩ := List.mem_flatMap.mp hc
    obtain ⟨row, hrow, hdumps⟩ := (mem_of_mapM_eq_ok htexts).2 line hline
    rcases List.mem_append.mp hc with hc | hc
    · rcases written_jsonDumps frames _ line (hreads row hrow) hdumps c hc with
        ⟨_, hhigh⟩ | ⟨_, _, hmem⟩
      · exact .inl (by omega)
      · exact hvalid row hrow c hmem
    · rw [List.mem_singleton.mp hc]
      decide
  obtain ⟨s, hs⟩ := Option.isSome_iff_exists.mp (PyStr.text?_isSome_iff.mpr hpoints)
  exact ⟨_, by rw [writeText, encodeUtf8, hs]⟩

end JsonLines

end Lib
end PrReviewer
