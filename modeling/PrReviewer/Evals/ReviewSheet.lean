import PrReviewer.Evals.HoldoutSheet
import PrReviewer.Lib.Prompts

/-!
# Judging a sheet

`review_sheet` of evals/holdout_sheet.py with its prompts.  A person judges the rows of a sheet
one by one; the sheet is written after each row that is judged, and the session ends where the
input does.

The input is the list of what is still to be read.  What is shown is left out, apart from the
pages of a diff, which take lines of the input on a terminal.  A session shows nothing without
reading a line behind it, and writes no file between the two: what the output raises is read
as an exception of that line.
-/

namespace PrReviewer
namespace Evals

open Lib

/-- What `_read_line` comes to: a line without its newline, the end of the input, an exception. -/
inductive Reading where
  | line (text : PyStr)
  | ended
  | raised (error : SheetError)
deriving DecidableEq, Repr

abbrev LinePrompt (α : Type) := Prompt Reading SheetError α

/-- What a line says that was read: none of the answers, an exception, or an answer. -/
def replyOf {α : Type} : Except PyException (Option α) → Reply SheetError α
  | .error e => .raised (.python e)
  | .ok none => .again
  | .ok (some a) => .answered a

/-- Lines are read until one is an answer. -/
def askLine {α : Type} (read : PyStr → Except PyException (Option α)) : LinePrompt α :=
  .ask (fun reading =>
    match reading with
    | .line raw => replyOf (read raw)
    | .ended => .ended
    | .raised e => .raised e)

def liftValue {α : Type} (value : Except PyException α) : LinePrompt α :=
  .lift (value.mapError SheetError.python)

/-- `DIFF_PAGE_LINES`. -/
def diffPageLines : Nat := 40

/-- What a line says at the menu of a row. -/
inductive MenuCommand where
  | quit
  | skip
  | excludeRow
  | includeRow
  | unknown
deriving DecidableEq, Repr

/-- What a person decided about a row. -/
inductive Decision where
  | quit
  | skip
  | excludeRow
  | includeRow (labels : List EvalLabel) (split : EvalSplit)

section Prompts

variable {dates : DateText} {floats : FloatText} {frames : Nat}
variable (tables : UnicodeTables) (lower : PyStr → PyStr)
variable (repr : PyJson → PyStr) (models : CaseModels dates floats frames)

def isOneOf (token : PyStr) (words : List String) : Bool :=
  words.any (fun word => token = .ofString word)

/-! ## The diff -/

/-- The inner loop of `_show_diff`: whether the next page is wanted.  No more is shown where the
input ends. -/
def awaitMore : LinePrompt Bool :=
  .ask (fun reading =>
    match reading with
    | .line raw =>
        let token := lower (raw.strip tables)
        if isOneOf token ["q", "quit"] then .answered false
        else if token = ⟨[]⟩ then .answered true
        else .again
    | .ended => .answered false
    | .raised e => .raised e)

/-- The prompts between the pages. -/
def showPages : Nat → LinePrompt Unit
  | 0 => .answer ()
  | pages + 1 =>
      (awaitMore tables lower).andThen (fun wanted =>
        if wanted then showPages pages else .answer ())

/-- `_show_diff`. -/
def showDiff (tty : Bool) (diff : PyStr) : LinePrompt Unit :=
  let count := max 1 diff.splitlines.length
  if tty = false ∨ count ≤ diffPageLines then
    .answer ()
  else
    showPages tables lower ((count - 1) / diffPageLines)

/-! ## Labels -/

/-- `_pick_numbered`. -/
def pickNumbered {α : Type} (raw : PyStr) (options : List α) : Option α :=
  match intOfText tables (raw.strip tables) with
  | none => none
  | some index => if index < 1 then none else options[(index - 1).toNat]?

def dashPoint : CodePoint := 0x2d

/-- `_parse_line_range`. -/
def parseLineRange (raw : PyStr) : Option (Int × Int) :=
  let text := raw.strip tables
  if text.points = [] then
    none
  else
    let bounds :=
      if text.points.contains dashPoint then
        let left : PyStr := ⟨text.points.takeWhile (fun c => c ≠ dashPoint)⟩
        let right : PyStr := ⟨(text.points.dropWhile (fun c => c ≠ dashPoint)).tail⟩
        if right.points = [] ∨ right.points.contains dashPoint then
          none
        else
          match intOfText tables (left.strip tables), intOfText tables (right.strip tables) with
          | some first, some last => some (first, last)
          | _, _ => none
      else
        (intOfText tables text).map (fun line => (line, line))
    match bounds with
    | none => none
    | some (first, last) => if first < 1 ∨ last < first then none else some (first, last)

/-- `_parse_json_labels`; only the decoder's own error is caught. -/
def parseJsonLabels (raw : PyStr) : Except PyException (Option (List EvalLabel)) :=
  match jsonLoads floats frames raw.points with
  | .error .jsonDecodeError => .ok none
  | .error e => .error e
  | .ok (.list items) => .ok (if items = [] then none else items.mapM models.validateLabel)
  | .ok _ => .ok none

/-- `_prompt_concern`: a concern, or a whole list of labels. -/
def promptConcern (allowJson : Bool) : LinePrompt (Concern ⊕ List EvalLabel) :=
  askLine (fun raw =>
    let stripped := raw.strip tables
    if allowJson = true ∧ stripped.startsWith (.ofString "[") = true then
      (parseJsonLabels models stripped).map (fun labels => labels.map .inr)
    else
      .ok ((pickNumbered tables stripped (concernChoices.map Prod.snd)).map .inl))

/-- `_prompt_category`. -/
def promptCategory : LinePrompt PyStr :=
  askLine (fun raw =>
    let value := raw.strip tables
    .ok (if value.points = [] then none else some value))

/-- `_prompt_file_path`. -/
def promptFilePath (files : List PyStr) : LinePrompt PyStr :=
  let paths := files.filter (lineHasText tables)
  askLine (fun raw => .ok (pickNumbered tables (raw.strip tables) paths))

/-- `_prompt_line_range`. -/
def promptLineRange : LinePrompt (Int × Int) :=
  askLine (fun raw => .ok (parseLineRange tables raw))

/-- `_prompt_one_label`. -/
def promptOneLabel (files : List PyStr) (allowJson : Bool) :
    LinePrompt (EvalLabel ⊕ List EvalLabel) :=
  (promptConcern tables models allowJson).andThen (fun answer =>
    match answer with
    | .inr labels => .answer (.inr labels)
    | .inl concern =>
        (promptCategory tables).andThen (fun category =>
          (promptFilePath tables files).andThen (fun filePath =>
            (promptLineRange tables).andThen (fun lines =>
              liftValue ((EvalLabel.build concern category filePath lines).map .inl)))))

/-- `_prompt_add_another`. -/
def promptAddAnother : LinePrompt Bool :=
  askLine (fun raw =>
    let token := lower (raw.strip tables)
    .ok (if isOneOf token ["y", "yes"] then some true
      else if isOneOf token ["n", "no"] then some false
      else none))

/-- A round of `_prompt_labels`, with the labels there are. -/
def labelRound (files : List PyStr) (labels : List EvalLabel) :
    LinePrompt (List EvalLabel ⊕ List EvalLabel) :=
  (promptOneLabel tables models files labels.isEmpty).andThen (fun answer =>
    match answer with
    | .inr whole => .answer (.inl whole)
    | .inl one =>
        (promptAddAnother tables lower).andThen (fun another =>
          .answer (if another then .inr (labels ++ [one]) else .inl (labels ++ [one]))))

/-- `_prompt_split`. -/
def promptSplit : LinePrompt EvalSplit :=
  askLine (fun raw => .ok (splitOf (raw.strip tables)))

/-! ## Every prompt is steady -/

theorem steady_showPages
    (pages : Nat) :
    (showPages tables lower pages).Steady := by
  induction pages with
  | zero => exact Prompt.steady_answer _
  | succ pages ih =>
      refine (Prompt.steady_ask _).andThen (fun wanted => ?_)
      cases wanted with
      | true => exact ih
      | false => exact Prompt.steady_answer _

theorem steady_showDiff
    (tty : Bool) (diff : PyStr) :
    (showDiff tables lower tty diff).Steady := by
  unfold showDiff
  simp only
  split
  · exact Prompt.steady_answer _
  · exact steady_showPages tables lower _

theorem liftValue_eq_answered
    {α : Type} {value : Except PyException α} {input rest : List Reading} {a : α}
    (h : liftValue value input = .answered a rest) :
    value = .ok a := by
  cases value with
  | error e => cases h
  | ok b =>
      cases h
      rfl

/-- An answer is what a line was read as. -/
theorem askLine_eq_answered
    {α : Type} {read : PyStr → Except PyException (Option α)} {input rest : List Reading} {a : α}
    (h : askLine read input = .answered a rest) :
    ∃ raw, read raw = .ok (some a) := by
  obtain ⟨reading, hreading⟩ := Prompt.ask_eq_answered h
  cases reading with
  | line raw =>
      simp only [replyOf] at hreading
      refine ⟨raw, ?_⟩
      split at hreading
      · cases hreading
      · cases hreading
      · next hread =>
          cases hreading
          exact hread
  | ended => cases hreading
  | raised e => cases hreading

theorem steady_oneLabel
    (files : List PyStr) (allowJson : Bool) :
    (promptOneLabel tables models files allowJson).Steady := by
  refine (Prompt.steady_ask _).andThen (fun answer => ?_)
  cases answer with
  | inr labels => exact Prompt.steady_answer _
  | inl concern =>
      exact (Prompt.steady_ask _).andThen (fun _ => (Prompt.steady_ask _).andThen (fun _ =>
        (Prompt.steady_ask _).andThen (fun _ => Prompt.steady_lift _)))

theorem steady_addAnother
    (labels : List EvalLabel) (one : EvalLabel) :
    ((promptAddAnother tables lower).andThen (fun another =>
      (.answer (if another then .inr (labels ++ [one]) else .inl (labels ++ [one])) :
        LinePrompt (List EvalLabel ⊕ List EvalLabel)))).Steady :=
  (Prompt.steady_ask _).andThen (fun _ => Prompt.steady_answer _)

theorem steady_labelRound
    (files : List PyStr) (labels : List EvalLabel) :
    (labelRound tables lower models files labels).Steady := by
  refine (steady_oneLabel tables models files labels.isEmpty).andThen (fun answer => ?_)
  cases answer with
  | inr whole => exact Prompt.steady_answer _
  | inl one => exact steady_addAnother tables lower labels one

theorem eager_oneLabel
    (files : List PyStr) (allowJson : Bool) :
    (promptOneLabel tables models files allowJson).Eager := by
  refine (Prompt.eager_ask _).andThen (fun answer => ?_)
  cases answer with
  | inr labels => exact Prompt.steady_answer _
  | inl concern =>
      exact (Prompt.steady_ask _).andThen (fun _ => (Prompt.steady_ask _).andThen (fun _ =>
        (Prompt.steady_ask _).andThen (fun _ => Prompt.steady_lift _)))

theorem eager_labelRound
    (files : List PyStr) (labels : List EvalLabel) :
    (labelRound tables lower models files labels).Eager := by
  refine (eager_oneLabel tables models files labels.isEmpty).andThen (fun answer => ?_)
  cases answer with
  | inr whole => exact Prompt.steady_answer _
  | inl one => exact steady_addAnother tables lower labels one

/-- `_prompt_labels`. -/
def promptLabels (files : List PyStr) : LinePrompt (List EvalLabel) :=
  Prompt.loop (labelRound tables lower models files) (eager_labelRound tables lower models files) []

/-! ## A row -/

/-- `command.strip().lower()` at the menu. -/
def menuCommand (raw : PyStr) : MenuCommand :=
  let token := lower (raw.strip tables)
  if isOneOf token ["q", "quit"] then .quit
  else if isOneOf token ["s", "skip"] then .skip
  else if isOneOf token ["e", "exclude"] then .excludeRow
  else if isOneOf token ["i", "include"] then .includeRow
  else .unknown

/-- The files of a row, as far as they are a list. -/
def filePaths (row : JsonRow) : Except PyException (List PyStr) :=
  match getOr row "files" (.list []) with
  | .list items => items.mapM (strOf repr)
  | _ => .ok []

/-- `_split_from_committed_at`. -/
def splitFromCommittedAt (committedAt holdoutAfter : dates.Date) : EvalSplit :=
  if dates.later committedAt holdoutAfter then .holdout else .dev

/-- The split of a row that is included: derived from its date, or asked for.  Without a date
there is none to derive, and the menu comes again. -/
def chooseSplit (splitAfter : Option dates.Date) (row : JsonRow) (labels : List EvalLabel) :
    LinePrompt (Decision ⊕ Unit) :=
  match splitAfter with
  | none => (promptSplit tables).andThen (fun split => .answer (.inl (.includeRow labels split)))
  | some holdoutAfter =>
      liftValue (do
        let committedRaw := (← textOr repr row "committed_at").strip tables
        if committedRaw = ⟨[]⟩ then
          return .inr ()
        else
          match dates.fromisoformat committedRaw with
          | none => .error .valueError
          | some date => return .inl (.includeRow labels (splitFromCommittedAt date holdoutAfter)))

/-- The menu of a row, once. -/
def menuRound (splitAfter : Option dates.Date) (row : JsonRow) (_ : Unit) :
    LinePrompt (Decision ⊕ Unit) :=
  (askLine (fun raw => .ok (some (menuCommand tables lower raw)))).andThen (fun command =>
    match command with
    | .quit => .answer (.inl .quit)
    | .skip => .answer (.inl .skip)
    | .excludeRow => .answer (.inl .excludeRow)
    | .unknown => .answer (.inr ())
    | .includeRow =>
        (liftValue (filePaths repr row)).andThen (fun files =>
          (promptLabels tables lower models files).andThen
            (chooseSplit tables repr splitAfter row)))

theorem steady_chooseSplit
    (splitAfter : Option dates.Date) (row : JsonRow) (labels : List EvalLabel) :
    (chooseSplit tables repr splitAfter row labels).Steady := by
  cases splitAfter with
  | none => exact (Prompt.steady_ask _).andThen (fun _ => Prompt.steady_answer _)
  | some holdoutAfter => exact Prompt.steady_lift _

theorem steady_labels
    (files : List PyStr) :
    (promptLabels tables lower models files).Steady :=
  Prompt.steady_loop (steady_labelRound tables lower models files) []

theorem steady_afterCommand
    (splitAfter : Option dates.Date) (row : JsonRow) (command : MenuCommand) :
    (match command with
      | .quit => .answer (.inl .quit)
      | .skip => .answer (.inl .skip)
      | .excludeRow => .answer (.inl .excludeRow)
      | .unknown => .answer (.inr ())
      | .includeRow =>
          (liftValue (filePaths repr row)).andThen (fun files =>
            (promptLabels tables lower models files).andThen
              (chooseSplit tables repr splitAfter row)) :
        LinePrompt (Decision ⊕ Unit)).Steady := by
  cases command with
  | includeRow =>
      exact (Prompt.steady_lift _).andThen (fun files =>
        (steady_labels tables lower models files).andThen
          (steady_chooseSplit tables repr splitAfter row))
  | quit => exact Prompt.steady_answer _
  | skip => exact Prompt.steady_answer _
  | excludeRow => exact Prompt.steady_answer _
  | unknown => exact Prompt.steady_answer _

theorem steady_menuRound
    (splitAfter : Option dates.Date) (row : JsonRow) (u : Unit) :
    (menuRound tables lower repr models splitAfter row u).Steady :=
  (Prompt.steady_ask _).andThen (steady_afterCommand tables lower repr models splitAfter row)

theorem eager_menuRound
    (splitAfter : Option dates.Date) (row : JsonRow) (u : Unit) :
    (menuRound tables lower repr models splitAfter row u).Eager :=
  (Prompt.eager_ask _).andThen (steady_afterCommand tables lower repr models splitAfter row)

/-- The loop of `review_sheet` over one row. -/
def judgeRow (splitAfter : Option dates.Date) (row : JsonRow) : LinePrompt Decision :=
  Prompt.loop (menuRound tables lower repr models splitAfter row)
    (eager_menuRound tables lower repr models splitAfter row) ()

/-! ## A session -/

/-- The row with a judgement. -/
def excluded (row : JsonRow) : JsonRow :=
  setItem row (.ofString "verdict") (.str (.ofString "exclude"))

def included (row : JsonRow) (auditor : PyStr) (labels : List EvalLabel) (split : EvalSplit) :
    JsonRow :=
  setItem (setItem (setItem (setItem row
    (.ofString "verdict") (.str (.ofString "include")))
    (.ofString "human_auditor") (.str auditor))
    (.ofString "split") (.str (.ofString split.value)))
    (.ofString "labels") (.list (labels.map labelJson))

/-- What a session leaves: the rows it holds, the files, and the exception it ended with. -/
structure SessionEnd where
  rows : List JsonRow
  files : Files
  raised : Option SheetError

/-- Who reviews what: the sheet, the auditor, and whether the input is a terminal. -/
structure Session (dates : DateText) where
  sheet : String
  auditor : PyStr
  splitAfter : Option dates.Date
  tty : Bool

/-- A row that has no verdict: its diff is shown, and a person judges it. -/
def judgeShown (session : Session dates) (row : JsonRow) (diff : PyStr) : LinePrompt Decision :=
  (showDiff tables lower session.tty diff).andThen (fun _ =>
    judgeRow tables lower repr models session.splitAfter row)

/-- The rows from the first one that was not looked at yet; `done` are those before it.  `faults`
are those of the writes, by the row they are behind. -/
def reviewRows (session : Session dates) (faults : Nat → Option WriteFault)
    (done : List JsonRow) : List JsonRow → Files → List Reading → SessionEnd
  | [], fs, _ => { rows := done, files := fs, raised := none }
  | row :: todo, fs, input =>
      match textOr repr row "verdict", textOr repr row "diff" with
      | .error e, _ => { rows := done ++ row :: todo, files := fs, raised := some (.python e) }
      | .ok verdict, diff =>
          if lineHasText tables verdict then
            reviewRows session faults (done ++ [row]) todo fs input
          else
            match diff with
            | .error e => { rows := done ++ row :: todo, files := fs, raised := some (.python e) }
            | .ok diff =>
                match judgeShown tables lower repr models session row diff input with
                | .ended => { rows := done ++ row :: todo, files := fs, raised := none }
                | .raised e => { rows := done ++ row :: todo, files := fs, raised := some e }
                | .answered .quit _ => { rows := done ++ row :: todo, files := fs, raised := none }
                | .answered .skip rest => reviewRows session faults (done ++ [row]) todo fs rest
                | .answered .excludeRow rest =>
                    let row' := excluded row
                    match atomicWriteRows floats frames fs session.sheet (faults done.length)
                        (done ++ row' :: todo) with
                    | (.error e, fs') =>
                        { rows := done ++ row' :: todo, files := fs', raised := some e }
                    | (.ok (), fs') => reviewRows session faults (done ++ [row']) todo fs' rest
                | .answered (.includeRow labels split) rest =>
                    let row' := included row (session.auditor.strip tables) labels split
                    match atomicWriteRows floats frames fs session.sheet (faults done.length)
                        (done ++ row' :: todo) with
                    | (.error e, fs') =>
                        { rows := done ++ row' :: todo, files := fs', raised := some e }
                    | (.ok (), fs') => reviewRows session faults (done ++ [row']) todo fs' rest

variable (floats frames) in
/-- The rows a session begins with: a blank auditor is refused, and the sheet is loaded. -/
def openSheet (session : Session dates) (fs : Files) : Except SheetError (List JsonRow) :=
  if lineHasText tables session.auditor = false then
    .error (.python .valueError)
  else
    match fs session.sheet with
    | none => .error .osError
    | some bytes => (loadSheetRows floats tables frames bytes).mapError SheetError.python

/-- `review_sheet`. -/
def reviewSheet (session : Session dates) (faults : Nat → Option WriteFault) (fs : Files)
    (input : List Reading) : SessionEnd :=
  match openSheet floats frames tables session fs with
  | .error e => { rows := [], files := fs, raised := some e }
  | .ok rows => reviewRows tables lower repr models session faults [] rows fs input

end Prompts

end Evals
end PrReviewer
