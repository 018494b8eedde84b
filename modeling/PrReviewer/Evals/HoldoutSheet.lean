import PrReviewer.Evals.MatchFindings
import PrReviewer.Lib.JsonLines

/-!
# Candidate sheets and holdouts

evals/mine_candidates.py, evals/holdout_sheet.py and `load_public_eval_cases` of
evals/run_eval.py.  Candidates are mined from the history of a repository and written to a sheet,
one JSON object a line; a holdout is built from the rows a person has judged, and read again.

What git prints, the texts of floats and dates, `str` of a value that is no string, and what
pydantic makes of the JSON of a label and of a case are parameters.
-/

namespace PrReviewer
namespace Evals

open Lib

/-- A `date`: its ISO text, the texts `date.fromisoformat` reads, and `>`. -/
structure DateText where
  Date : Type
  isoformat : Date → PyStr
  fromisoformat : PyStr → Option Date
  later : Date → Date → Bool
  reads : ∀ date, fromisoformat (isoformat date) = some date
  plain : ∀ date, isoformat date ≠ ⟨[]⟩ ∧ ∀ c ∈ (isoformat date).points, IsPlain c ∧ c ≠ 0x20

inductive EvalSplit where
  | dev
  | holdout
deriving DecidableEq, Repr

def EvalSplit.value : EvalSplit → String
  | .dev => "dev"
  | .holdout => "holdout"

/-- `CONCERN_CHOICES`, with the texts of the concerns. -/
def concernChoices : List (String × Concern) :=
  [("security", .security), ("correctness", .correctness), ("tests", .tests), ("docs", .docs),
    ("maintainability", .maintainability)]

/-- A commit whose diff fits the budget, with what is evidence about it. -/
structure EvalCandidate (dates : DateText) where
  sourceEvidence : List PyStr
  diff : PyStr
  committedAt : Option dates.Date
  sha : PyStr
  files : List PyStr

structure SkippedMineCommit where
  sha : PyStr
  subject : PyStr
  tokenCount : Nat
  tokenBudget : Nat

structure MineResult (dates : DateText) where
  candidates : List (EvalCandidate dates)
  skipped : List SkippedMineCommit

structure EvalCase (dates : DateText) where
  id : String
  split : EvalSplit
  diff : String
  expectedLabels : List EvalLabel
  sourceEvidence : List String
  humanAuditor : Option String
  committedAt : dates.Date
  texts_ne : id ≠ "" ∧ diff ≠ ""
  lists_ne : expectedLabels ≠ [] ∧ sourceEvidence ≠ []
  audited : split = .holdout → ∃ auditor, humanAuditor = some auditor ∧ auditor ≠ ""

/-! ## Mining -/

/-- The four commands the miner gives git. -/
inductive GitCommand (dates : DateText) where
  | log (since until? : Option dates.Date) (reverse : Bool) (maxCount : Option Int)
  | subjectAndDate (sha : PyStr)
  | files (sha : PyStr)
  | patch (sha : PyStr)

/-- `estimate_diff_tokens`. -/
def estimateDiffTokens (text : PyStr) : Nat :=
  if text.points = [] then 0 else max 1 ((text.points.length + 3) / 4)

/-- `_even_sample`. -/
def evenSample {α : Type} (items : List α) (n : Int) : List α :=
  if n ≤ 0 ∨ items = [] then
    []
  else if items.length ≤ n then
    items
  else
    (List.range n.toNat).filterMap (fun index => items[(index * items.length) / n.toNat]?)

section Mining

variable {dates : DateText} (tables : UnicodeTables) (git : GitCommand dates → PyStr)

/-- `[line.strip() for line in output.splitlines() if line.strip()]`. -/
def strippedLines (output : PyStr) : List PyStr :=
  (output.splitlines.filter (lineHasText tables)).map (PyStr.strip tables)

/-- The `date` of the second line of `git show`, if it has text. -/
def commitDate (lines : List PyStr) : Except PyException (Option dates.Date) :=
  match lines[1]? with
  | none => .ok none
  | some line =>
      if lineHasText tables line = false then
        .ok none
      else
        match dates.fromisoformat (line.strip tables) with
        | some date => .ok (some date)
        | none => .error .valueError

/-- `(meta[0].strip() if meta else "") or sha`. -/
def commitSubject (lines : List PyStr) (sha : PyStr) : PyStr :=
  match lines.head? with
  | none => sha
  | some line => if lineHasText tables line then line.strip tables else sha

/-- A commit of the log: a candidate, or skipped as too large. -/
def mineCommit (budget : Nat) (sha : PyStr) :
    Except PyException (EvalCandidate dates ⊕ SkippedMineCommit) := do
  let lines := (git (.subjectAndDate sha)).splitlines
  let subject := commitSubject tables lines sha
  let committedAt ← commitDate tables lines
  let files := strippedLines tables (git (.files sha))
  let patch := git (.patch sha)
  if budget < estimateDiffTokens patch then
    return .inr
      { sha := sha
        subject := subject
        tokenCount := estimateDiffTokens patch
        tokenBudget := budget }
  else
    return .inl
      { sourceEvidence := [subject]
        diff := patch
        committedAt := committedAt
        sha := sha
        files := files }

/-- `mine_eval_candidates` of a repository; `isRepository` tells whether `.git` is there. -/
def mineEvalCandidates
    (isRepository : Bool) (maxCases : Int) (budget : Nat) (since until? : Option dates.Date)
    (perWindow : Option Int) : Except PyException (MineResult dates) :=
  if isRepository = false then
    .ok { candidates := [], skipped := [] }
  else do
    let shas :=
      match perWindow with
      | some n => evenSample (strippedLines tables (git (.log since until? true none))) n
      | none => strippedLines tables (git (.log since until? false (some maxCases)))
    let mined ← shas.mapM (mineCommit tables git budget)
    return { candidates := mined.filterMap Sum.getLeft?, skipped := mined.filterMap Sum.getRight? }

end Mining

/-! ## Sheets -/

/-- The files of the machine that can be read, by their paths. -/
abbrev Files := String → Option (List UInt8)

/-- What ends work on a sheet: an exception of a value, an OSError, or a person's interrupt. -/
inductive SheetError where
  | python (error : PyException)
  | osError
  | keyboardInterrupt
deriving DecidableEq, Repr

/-- Where the system stops a write: at opening the temporary file, behind some of its bytes, or at
putting it in the place of the sheet. -/
inductive WriteFault where
  | opening
  | writing (count : Nat)
  | replacing
deriving DecidableEq, Repr

/-- `json.dumps(row, ensure_ascii=False)`. -/
def sheetStyle : JsonStyle where
  ensureAscii := false
  spaced := true

/-- `f"{index:03d}"`. -/
def threeDigits (index : Nat) : PyStr :=
  ⟨List.replicate (3 - (decimal index).points.length) 0x30⟩ ++ decimal index

def dictEntry (key : String) (value : PyJson) : PyStr × PyJson :=
  (.ofString key, value)

/-- The row of a candidate; its last four fields are left to a person. -/
def candidateRow {dates : DateText} (idPrefix : PyStr) (index : Nat)
    (candidate : EvalCandidate dates) : JsonRow :=
  [dictEntry "id" (.str (idPrefix ++ .ofString "-" ++ threeDigits index)),
    dictEntry "sha" (.str candidate.sha),
    dictEntry "committed_at" (.str (candidate.committedAt.elim ⟨[]⟩ dates.isoformat)),
    dictEntry "subject" (.str (candidate.sourceEvidence.head?.getD ⟨[]⟩)),
    dictEntry "files" (.list (candidate.files.map .str)),
    dictEntry "token_count" (.int (estimateDiffTokens candidate.diff)),
    dictEntry "source_evidence" (.list (candidate.sourceEvidence.map .str)),
    dictEntry "diff" (.str candidate.diff),
    dictEntry "verdict" (.str ⟨[]⟩),
    dictEntry "human_auditor" (.str ⟨[]⟩),
    dictEntry "split" (.str ⟨[]⟩),
    dictEntry "labels" (.list [])]

/-- The rows of a sheet, numbered from one. -/
def candidateRows {dates : DateText} (idPrefix : PyStr) (candidates : List (EvalCandidate dates)) :
    List JsonRow :=
  candidates.zipIdx.map (fun item => candidateRow idPrefix (item.2 + 1) item.1)

section Sheets

variable (floats : FloatText) (tables : UnicodeTables) (frames : Nat)

/-- The text `write_candidate_sheet` writes. -/
def candidateSheetText {dates : DateText} (idPrefix : PyStr)
    (candidates : List (EvalCandidate dates)) : Except PyException PyStr := do
  let lines ← (candidateRows idPrefix candidates).mapM
    (fun row => jsonDumps sheetStyle floats frames (.dict row))
  return ⟨List.intercalate [newline] lines ++ (if lines = [] then [] else [newline])⟩

/-- A row as an object. -/
def rowOfJson : PyJson → Except PyException JsonRow
  | .dict row => .ok row
  | _ => .error .typeError

/-- `_load_sheet_rows` of a file with these bytes; every line must hold an object. -/
def loadSheetRows (bytes : List UInt8) : Except PyException (List JsonRow) := do
  let text ← readText bytes
  readEachLine tables (fun line => jsonLoads floats frames line.points >>= rowOfJson) text

/-- `sheet.with_name(sheet.name + ".tmp")`. -/
def temporaryName (sheet : String) : String :=
  sheet ++ ".tmp"

/-- `_atomic_write_rows`, and the files it leaves, also where it raises. -/
def atomicWriteRows (fs : Files) (sheet : String) (fault : Option WriteFault)
    (rows : List JsonRow) : Except SheetError Unit × Files :=
  match jsonLines sheetStyle floats frames rows with
  | .error e => (.error (.python e), fs)
  | .ok text =>
      match fault, writeText text with
      | some .opening, _ => (.error .osError, fs)
      | _, .error e => (.error (.python e), Function.update fs (temporaryName sheet) (some []))
      | some (.writing count), .ok bytes =>
          (.error .osError, Function.update fs (temporaryName sheet) (some (bytes.take count)))
      | some .replacing, .ok bytes =>
          (.error .osError, Function.update fs (temporaryName sheet) (some bytes))
      | none, .ok bytes =>
          (.ok (), Function.update (Function.update fs (temporaryName sheet) none) sheet
            (some bytes))

end Sheets

/-! ## Holdouts -/

/-- Why `build_holdout` stops: `HoldoutUnjudged`, or an exception of a value in a row. -/
inductive BuildError where
  | unjudged (rowId : PyStr)
  | unknownVerdict (rowId verdict : PyStr)
  | missingJudgement (rowId : PyStr)
  | missingCaseFields (rowId : PyStr)
  | python (error : PyException)
deriving DecidableEq, Repr

/-- The message of `HoldoutUnjudged`; `repr` is that of a string. -/
def BuildError.message (repr : PyStr → PyStr) : BuildError → Option PyStr
  | .unjudged rowId =>
      some (.ofString "row " ++ (if rowId = ⟨[]⟩ then .ofString "<missing id>" else rowId) ++
        .ofString " is unjudged")
  | .unknownVerdict rowId verdict =>
      some (.ofString "row " ++ rowId ++ .ofString " has unknown verdict " ++ repr verdict)
  | .missingJudgement rowId =>
      some (.ofString "row " ++ rowId ++
        .ofString " is include but missing auditor, split, or labels")
  | .missingCaseFields rowId =>
      some (.ofString "row " ++ rowId ++ .ofString " is include but missing case fields")
  | .python _ => none

/-- `bool(value)`. -/
def truthy : PyJson → Bool
  | .null => false
  | .bool b => b
  | .int n => n ≠ 0
  | .float (.finite mantissa _) => mantissa ≠ 0
  | .float _ => true
  | .str s => s.points ≠ []
  | .list items => !items.isEmpty
  | .dict items => !items.isEmpty

/-- `EvalLabel(…)`. -/
def EvalLabel.build (concern : Concern) (category filePath : PyStr) (lines : Int × Int) :
    Except PyException EvalLabel :=
  match category.text?, filePath.text? with
  | some category, some filePath =>
      if h : (category ≠ "" ∧ filePath ≠ "") ∧
          (0 < lines.1.toNat ∧ lines.1.toNat ≤ lines.2.toNat) then
        .ok
          { concern := concern
            category := category
            filePath := filePath
            lineStart := lines.1.toNat
            lineEnd := lines.2.toNat
            texts_ne := h.1
            lines_ordered := h.2 }
      else
        .error .validationError
  | _, _ => .error .validationError

/-- The JSON of a label. -/
def labelJson (label : EvalLabel) : PyJson :=
  .dict [dictEntry "concern" (.str (.ofString label.concern.value)),
    dictEntry "category" (.str (.ofString label.category)),
    dictEntry "file_path" (.str (.ofString label.filePath)),
    dictEntry "line_start" (.int label.lineStart),
    dictEntry "line_end" (.int label.lineEnd)]

/-- The JSON of a case. -/
def caseJson {dates : DateText} (evalCase : EvalCase dates) : JsonRow :=
  [dictEntry "id" (.str (.ofString evalCase.id)),
    dictEntry "split" (.str (.ofString evalCase.split.value)),
    dictEntry "diff" (.str (.ofString evalCase.diff)),
    dictEntry "expected_labels" (.list (evalCase.expectedLabels.map labelJson)),
    dictEntry "source_evidence" (.list (evalCase.sourceEvidence.map (fun s => .str (.ofString s)))),
    dictEntry "human_auditor" (evalCase.humanAuditor.elim .null (fun s => .str (.ofString s))),
    dictEntry "committed_at" (.str (dates.isoformat evalCase.committedAt))]

/-- `model_dump_json`. -/
def caseStyle : JsonStyle where
  ensureAscii := false
  spaced := false

/-- What pydantic makes of JSON: it reads what it has written. -/
structure CaseModels (dates : DateText) (floats : FloatText) (frames : Nat) where
  validateLabel : PyJson → Option EvalLabel
  validateCase : PyStr → Except PyException (EvalCase dates)
  reads_label : ∀ label, validateLabel (labelJson label) = some label
  reads_case : ∀ evalCase line,
    jsonLoads floats frames line.points = .ok (.dict (caseJson evalCase)) →
      validateCase line = .ok evalCase

/-- `EvalLabel.model_validate(item)`. -/
def CaseModels.modelValidate {dates : DateText} {floats : FloatText} {frames : Nat}
    (models : CaseModels dates floats frames) (item : PyJson) : Except PyException EvalLabel :=
  match models.validateLabel item with
  | some label => .ok label
  | none => .error .validationError

/-- `"".join(case.model_dump_json() + "\n" for case in cases)`. -/
def casesText {dates : DateText} (floats : FloatText) (frames : Nat)
    (cases : List (EvalCase dates)) : Except PyException PyStr :=
  jsonLines caseStyle floats frames (cases.map caseJson)

section Holdouts

variable {dates : DateText} {floats : FloatText} {frames : Nat}
variable (tables : UnicodeTables) (repr : PyJson → PyStr) (models : CaseModels dates floats frames)

/-- `row.get(key) or default`. -/
def getOr (row : JsonRow) (key : String) (default : PyJson) : PyJson :=
  match getItem? row key with
  | some value => if truthy value then value else default
  | none => default

/-- `str(row.get(key) or "")`. -/
def textOr (row : JsonRow) (key : String) : Except PyException PyStr :=
  strOf repr (getOr row key (.str ⟨[]⟩))

/-- A string pydantic admits. -/
def validText : PyJson → Except PyException String
  | .str s =>
      match s.text? with
      | some text => .ok text
      | none => .error .validationError
  | _ => .error .validationError

/-- `EvalCase(…)`. -/
def EvalCase.build
    (id : String) (split : EvalSplit) (diff : String) (expectedLabels : List EvalLabel)
    (sourceEvidence : List String) (humanAuditor : String) (committedAt : dates.Date) :
    Except PyException (EvalCase dates) :=
  if h : (id ≠ "" ∧ diff ≠ "") ∧ (expectedLabels ≠ [] ∧ sourceEvidence ≠ []) ∧
      (split = .holdout → humanAuditor ≠ "") then
    .ok
      { id := id
        split := split
        diff := diff
        expectedLabels := expectedLabels
        sourceEvidence := sourceEvidence
        humanAuditor := some humanAuditor
        committedAt := committedAt
        texts_ne := h.1
        lists_ne := h.2.1
        audited := fun hsplit => ⟨humanAuditor, rfl, h.2.2 hsplit⟩ }
  else
    .error .validationError

/-- The case of an include row, once its fields are there. -/
def caseOfRow
    (rowId : PyStr) (split : EvalSplit) (diff : PyStr) (labelsRaw evidence : PyJson)
    (auditor committedRaw : PyStr) : Except PyException (EvalCase dates) := do
  let items ← iterate labelsRaw
  let labels ← items.mapM models.modelValidate
  let evidence ← iterate evidence
  let committedAt ←
    match dates.fromisoformat committedRaw with
    | some date => .ok date
    | none => .error .valueError
  let id ← validText (.str rowId)
  let diff ← validText (.str diff)
  let sourceEvidence ← evidence.mapM validText
  let humanAuditor ← validText (.str auditor)
  EvalCase.build id split diff labels sourceEvidence humanAuditor committedAt

/-- `"holdout" if split_raw == "holdout" else "dev"`, of a split that is one of the two. -/
def splitOf (split : PyStr) : Option EvalSplit :=
  if split = .ofString "holdout" then some .holdout
  else if split = .ofString "dev" then some .dev
  else none

def python {α : Type} (value : Except PyException α) : Except BuildError α :=
  value.mapError BuildError.python

/-- One row of `build_holdout`: its case, or none when it is excluded. -/
def buildRow (row : JsonRow) : Except BuildError (Option (EvalCase dates)) := do
  let rowId ← python (textOr repr row "id")
  let verdict := (← python (textOr repr row "verdict")).strip tables
  if verdict = ⟨[]⟩ then
    .error (.unjudged rowId)
  else if verdict = .ofString "exclude" then
    return none
  else if verdict ≠ .ofString "include" then
    .error (.unknownVerdict rowId verdict)
  else do
    let auditor := (← python (textOr repr row "human_auditor")).strip tables
    let splitRaw := (← python (textOr repr row "split")).strip tables
    let labelsRaw := getOr row "labels" (.list [])
    let committedRaw := (← python (textOr repr row "committed_at")).strip tables
    let diff ← python (textOr repr row "diff")
    let evidence := getOr row "source_evidence" (.list [])
    match splitOf splitRaw with
    | none => .error (.missingJudgement rowId)
    | some split =>
        if auditor = ⟨[]⟩ ∨ truthy labelsRaw = false then
          .error (.missingJudgement rowId)
        else if committedRaw = ⟨[]⟩ ∨ diff = ⟨[]⟩ ∨ truthy evidence = false then
          .error (.missingCaseFields rowId)
        else do
          let evalCase ← python
            (caseOfRow models rowId split diff labelsRaw evidence auditor committedRaw)
          return some evalCase

/-- The cases `build_holdout` builds of the rows of a sheet. -/
def buildCases (rows : List JsonRow) : Except BuildError (List (EvalCase dates)) := do
  let built ← rows.mapM (buildRow tables repr models)
  return built.filterMap (fun evalCase => evalCase)

/-- `build_holdout`: the bytes of the file it writes. -/
def buildHoldout (bytes : List UInt8) : Except BuildError (List (EvalCase dates) × List UInt8) := do
  let rows ← python (loadSheetRows floats tables frames bytes)
  let cases ← buildCases tables repr models rows
  let text ← python (casesText floats frames cases)
  let written ← python (writeText text)
  return (cases, written)

/-- `load_public_eval_cases`. -/
def loadPublicEvalCases (bytes : List UInt8) : Except PyException (List (EvalCase dates)) := do
  let text ← readText bytes
  readEachLine tables models.validateCase text

end Holdouts

end Evals
end PrReviewer
