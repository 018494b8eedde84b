import PrReviewer.Evals.ReviewSheet
import PrReviewer.Evals.SheetRoundTrip

/-!
# What a session of judging leaves

The sheet holds the rows the session holds: it is written after every row that is judged, so an
input that ends anywhere, also inside a prompt, leaves what the whole session had at some row.
A row the session judges is one the builder of the holdout takes, unless git gave it no date or
no diff.
-/

namespace PrReviewer
namespace Evals

open Lib

section Sessions

variable {dates : DateText} {floats : FloatText} {frames : Nat}
variable {tables : UnicodeTables} {lower : PyStr → PyStr}
variable {repr : PyJson → PyStr} {models : CaseModels dates floats frames}
variable {session : Session dates}

/-! ## A row -/

variable (tables lower repr models session) in
/-- A longer input gives the same judgement of a row. -/
theorem steady_judgeShown
    (row : JsonRow) (diff : PyStr) :
    (judgeShown tables lower repr models session row diff).Steady :=
  (steady_showDiff tables lower session.tty diff).andThen (fun _ =>
    Prompt.steady_loop (steady_menuRound tables lower repr models session.splitAfter row) ())

theorem mapM_length
    {α β : Type} {f : α → Option β} {items : List α} {results : List β}
    (h : items.mapM f = some results) :
    results.length = items.length := by
  induction items generalizing results with
  | nil =>
      cases h
      rfl
  | cons item items ih =>
      rw [List.mapM_cons] at h
      obtain ⟨first, _, h⟩ := Option.bind_eq_some_iff.mp h
      obtain ⟨others, hothers, h⟩ := Option.bind_eq_some_iff.mp h
      cases h
      exact congrArg Nat.succ (ih hothers)

theorem parseJsonLabels_ne_nil
    {raw : PyStr} {labels : List EvalLabel}
    (h : parseJsonLabels models raw = .ok (some labels)) :
    labels ≠ [] := by
  unfold parseJsonLabels at h
  split at h
  · cases h
  · cases h
  · next items _ =>
      split at h
      · cases h
      · next hitems =>
          have hlabels := mapM_length (Except.ok.inj h)
          intro hnil
          rw [hnil] at hlabels
          exact hitems (List.eq_nil_of_length_eq_zero hlabels.symm)
  · cases h

theorem promptOneLabel_ne_nil
    {files : List PyStr} {allowJson : Bool} {input rest : List Reading} {labels : List EvalLabel}
    (h : promptOneLabel tables models files allowJson input = .answered (.inr labels) rest) :
    labels ≠ [] := by
  obtain ⟨answer, between, hconcern, h⟩ := Prompt.andThen_eq_answered h
  cases answer with
  | inr whole =>
      cases h
      obtain ⟨line, hline⟩ := askLine_eq_answered hconcern
      simp only at hline
      split at hline
      · cases hparse : parseJsonLabels models (line.strip tables) with
        | error e =>
            rw [hparse] at hline
            cases hline
        | ok parsed =>
            rw [hparse] at hline
            cases parsed with
            | none => cases hline
            | some parsed =>
                cases hline
                exact parseJsonLabels_ne_nil hparse
      · cases hpick : pickNumbered tables (line.strip tables) (concernChoices.map Prod.snd) with
        | none =>
            rw [hpick] at hline
            cases hline
        | some concern =>
            rw [hpick] at hline
            cases hline
  | inl concern =>
      obtain ⟨category, _, _, h⟩ := Prompt.andThen_eq_answered h
      obtain ⟨filePath, _, _, h⟩ := Prompt.andThen_eq_answered h
      obtain ⟨lines, _, _, h⟩ := Prompt.andThen_eq_answered h
      cases hbuild : EvalLabel.build concern category filePath lines with
      | error e =>
          rw [hbuild] at h
          cases h
      | ok label =>
          rw [hbuild] at h
          cases h

/-- A person gives at least one label. -/
theorem promptLabels_ne_nil
    {files : List PyStr} {input rest : List Reading} {labels : List EvalLabel}
    (h : promptLabels tables lower models files input = .answered labels rest) :
    labels ≠ [] := by
  refine Prompt.loop_invariant (I := fun _ => True) (Q := fun labels => labels ≠ []) ?_ trivial h
  intro held lines left answer _ hround
  refine ⟨?_, fun _ _ => trivial⟩
  rintro given rfl
  obtain ⟨one, between, hone, hround⟩ := Prompt.andThen_eq_answered hround
  cases one with
  | inr whole =>
      cases hround
      exact promptOneLabel_ne_nil hone
  | inl label =>
      obtain ⟨another, _, _, hround⟩ := Prompt.andThen_eq_answered hround
      cases another with
      | true => cases hround
      | false =>
          cases hround
          simp

/-- The split of a session that derives it. -/
def DerivedSplit (repr : PyJson → PyStr) (tables : UnicodeTables) (splitAfter : Option dates.Date)
    (row : JsonRow) (split : EvalSplit) : Prop :=
  ∀ holdoutAfter, splitAfter = some holdoutAfter →
    ∃ committedRaw date, textOr repr row "committed_at" = .ok committedRaw ∧
      dates.fromisoformat (committedRaw.strip tables) = some date ∧
      split = splitFromCommittedAt date holdoutAfter

theorem chooseSplit_include
    {splitAfter : Option dates.Date} {row : JsonRow} {given labels : List EvalLabel}
    {split : EvalSplit} {input rest : List Reading}
    (h : chooseSplit tables repr splitAfter row given input =
      .answered (.inl (.includeRow labels split)) rest) :
    labels = given ∧ DerivedSplit repr tables splitAfter row split := by
  cases splitAfter with
  | none =>
      obtain ⟨chosen, _, _, h⟩ := Prompt.andThen_eq_answered h
      cases h
      refine ⟨rfl, ?_⟩
      intro holdoutAfter hafter
      cases hafter
  | some holdoutAfter =>
      obtain ⟨committedRaw, hraw, hvalue⟩ := bind_eq_ok (liftValue_eq_answered h)
      simp only at hvalue
      split at hvalue
      · cases hvalue
      · split at hvalue
        · cases hvalue
        · next date hdate =>
            cases hvalue
            refine ⟨rfl, ?_⟩
            rintro _ ⟨⟩
            exact ⟨committedRaw, date, hraw, hdate, rfl⟩

/-- A row that is included has labels, and the split that is derived for it. -/
theorem judgeRow_include
    {splitAfter : Option dates.Date} {row : JsonRow} {input rest : List Reading}
    {labels : List EvalLabel} {split : EvalSplit}
    (h : judgeRow tables lower repr models splitAfter row input =
      .answered (.includeRow labels split) rest) :
    labels ≠ [] ∧ DerivedSplit repr tables splitAfter row split := by
  refine Prompt.loop_invariant (I := fun _ => True)
    (Q := fun decision => ∀ labels split, decision = .includeRow labels split →
      labels ≠ [] ∧ DerivedSplit repr tables splitAfter row split)
    ?_ trivial h labels split rfl
  intro _ lines left answer _ hround
  refine ⟨?_, fun _ _ => trivial⟩
  rintro decision rfl labels split rfl
  obtain ⟨command, between, _, hround⟩ := Prompt.andThen_eq_answered hround
  cases command with
  | quit => cases hround
  | skip => cases hround
  | excludeRow => cases hround
  | unknown => cases hround
  | includeRow =>
      obtain ⟨files, _, _, hround⟩ := Prompt.andThen_eq_answered hround
      obtain ⟨given, _, hlabels, hround⟩ := Prompt.andThen_eq_answered hround
      obtain ⟨rfl, hsplit⟩ := chooseSplit_include hround
      exact ⟨promptLabels_ne_nil hlabels, hsplit⟩

/-! ## A session -/

/-- A row without a verdict. -/
def Unjudged (repr : PyJson → PyStr) (tables : UnicodeTables) (row : JsonRow) : Prop :=
  ∃ verdict, textOr repr row "verdict" = .ok verdict ∧ lineHasText tables verdict = false

/-- What a person made of a row that had no verdict. -/
inductive Judgement (repr : PyJson → PyStr) (tables : UnicodeTables) (session : Session dates)
    (row : JsonRow) : JsonRow → Prop where
  | excluded (hrow : Unjudged repr tables row) : Judgement repr tables session row (excluded row)
  | included (hrow : Unjudged repr tables row) (labels : List EvalLabel) (split : EvalSplit)
      (hlabels : labels ≠ [])
      (hsplit : DerivedSplit repr tables session.splitAfter row split) :
      Judgement repr tables session row
        (included row (session.auditor.strip tables) labels split)

/-- A row is left as it was, or judged. -/
def KeptOrJudged (repr : PyJson → PyStr) (tables : UnicodeTables) (session : Session dates)
    (row row' : JsonRow) : Prop :=
  row' = row ∨ Judgement repr tables session row row'

/-- The session behind a row that was judged: the sheet is written, and the next row comes. -/
def writeRow (tables : UnicodeTables) (lower : PyStr → PyStr) (repr : PyJson → PyStr)
    (models : CaseModels dates floats frames) (session : Session dates)
    (faults : Nat → Option WriteFault) (done : List JsonRow) (row' : JsonRow)
    (todo : List JsonRow) (fs : Files) (input : List Reading) : SessionEnd :=
  match
      atomicWriteRows floats frames fs session.sheet (faults done.length)
        (done ++ row' :: todo) with
  | (.error e, fs') => { rows := done ++ row' :: todo, files := fs', raised := some e }
  | (.ok (), fs') =>
      reviewRows tables lower repr models session faults (done ++ [row']) todo fs' input

variable (tables lower repr models session) in
/-- What a session does at a row, and that it does so on every longer input. -/
theorem reviewRows_cons
    (faults : Nat → Option WriteFault) (done : List JsonRow) (row : JsonRow)
    (todo : List JsonRow) (fs : Files) (input : List Reading) :
    let run := fun more =>
      reviewRows tables lower repr models session faults done (row :: todo) fs (input ++ more)
    run [] = { rows := done ++ row :: todo, files := fs, raised := none } ∨
    (∃ e, ∀ more, run more = { rows := done ++ row :: todo, files := fs, raised := some e }) ∨
    (∃ rest, ∀ more, run more =
      reviewRows tables lower repr models session faults (done ++ [row]) todo fs (rest ++ more)) ∨
    ∃ row' rest, Judgement repr tables session row row' ∧ ∀ more, run more =
      writeRow tables lower repr models session faults done row' todo fs (rest ++ more) := by
  simp only [reviewRows]
  cases hverdict : textOr repr row "verdict" with
  | error e => exact .inr (.inl ⟨.python e, fun _ => rfl⟩)
  | ok verdict =>
      by_cases htext : lineHasText tables verdict = true
      · simp only [htext, if_true]
        exact .inr (.inr (.inl ⟨input, fun _ => rfl⟩))
      · simp only [htext, Bool.false_eq_true, if_false]
        have hrow : Unjudged repr tables row := ⟨verdict, hverdict, by simpa using htext⟩
        cases hdiff : textOr repr row "diff" with
        | error e => exact .inr (.inl ⟨.python e, fun _ => rfl⟩)
        | ok diff =>
            simp only
            have hsteady := steady_judgeShown tables lower repr models session row diff
            cases hjudged : judgeShown tables lower repr models session row diff input with
            | ended =>
                left
                rw [List.append_nil, hjudged]
            | raised e =>
                refine .inr (.inl ⟨e, ?_⟩)
                intro more
                rw [hsteady.raised hjudged more]
            | answered decision rest =>
                have hmore := hsteady.append hjudged
                cases decision with
                | quit =>
                    left
                    rw [hmore]
                | skip =>
                    refine .inr (.inr (.inl ⟨rest, ?_⟩))
                    intro more
                    rw [hmore]
                | excludeRow =>
                    refine .inr (.inr (.inr ⟨_, rest, .excluded hrow, ?_⟩))
                    intro more
                    rw [hmore]
                    rfl
                | includeRow labels split =>
                    obtain ⟨_, between, _, hanswered⟩ := Prompt.andThen_eq_answered hjudged
                    obtain ⟨hlabels, hsplit⟩ := judgeRow_include hanswered
                    refine .inr (.inr (.inr
                      ⟨_, rest, .included hrow labels split hlabels hsplit, ?_⟩))
                    intro more
                    rw [hmore]
                    rfl

variable (tables lower repr models session) in
/-- Every row is left as it was or judged, and the rows before stay. -/
theorem reviewRows_rows
    (faults : Nat → Option WriteFault) (done todo : List JsonRow) (fs : Files)
    (input : List Reading) :
    ∃ tail, (reviewRows tables lower repr models session faults done todo fs input).rows =
        done ++ tail ∧
      List.Forall₂ (KeptOrJudged repr tables session) todo tail := by
  have hkept : ∀ rows, List.Forall₂ (KeptOrJudged repr tables session) rows rows :=
    fun rows => List.forall₂_same.mpr (fun row _ => .inl rfl)
  induction todo generalizing done fs input with
  | nil => exact ⟨[], (List.append_nil done).symm, .nil⟩
  | cons row todo ih =>
      have hstep := reviewRows_cons tables lower repr models session faults done row todo fs input
      simp only at hstep
      rw [← List.append_nil input]
      rcases hstep with hstop | ⟨e, hraise⟩ | ⟨rest, hnext⟩ | ⟨row', rest, hjudged, hwrite⟩
      · rw [hstop]
        exact ⟨row :: todo, rfl, hkept _⟩
      · rw [hraise]
        exact ⟨row :: todo, rfl, hkept _⟩
      · rw [hnext]
        obtain ⟨tail, hrows, htail⟩ := ih (done ++ [row]) fs (rest ++ [])
        refine ⟨row :: tail, ?_, .cons (.inl rfl) htail⟩
        rw [hrows, List.append_assoc, List.singleton_append]
      · rw [hwrite, writeRow]
        split
        · exact ⟨row' :: todo, rfl, .cons (.inr hjudged) (hkept todo)⟩
        · next fs' _ =>
            obtain ⟨tail, hrows, htail⟩ := ih (done ++ [row']) fs' (rest ++ [])
            refine ⟨row' :: tail, ?_, .cons (.inr hjudged) htail⟩
            rw [hrows, List.append_assoc, List.singleton_append]

/-! ## The sheet -/

/-- The sheet holds these rows: as it was when the session began, or as they were written. -/
structure SheetHolds (floats : FloatText) (frames : Nat) (sheet : String)
    (fs₀ : Files) (rows₀ : List JsonRow) (fs : Files) (rows : List JsonRow) : Prop where
  held : (fs sheet = fs₀ sheet ∧ rows = rows₀) ∨
    ∃ text bytes, jsonLines sheetStyle floats frames rows = .ok text ∧
      writeText text = .ok bytes ∧ fs sheet = some bytes
  others : ∀ path, path ≠ sheet → path ≠ temporaryName sheet → fs path = fs₀ path

theorem SheetHolds.start
    (sheet : String) (fs : Files) (rows : List JsonRow) :
    SheetHolds floats frames sheet fs rows fs rows :=
  ⟨.inl ⟨rfl, rfl⟩, fun _ _ _ => rfl⟩

/-- A write that raises leaves the sheet; any other one leaves the rows in it. -/
theorem SheetHolds.write
    {sheet : String} {fs₀ fs fs' : Files} {rows₀ rows rows' : List JsonRow}
    {fault : Option WriteFault} {result : Except SheetError Unit}
    (h : SheetHolds floats frames sheet fs₀ rows₀ fs rows)
    (hwrite : atomicWriteRows floats frames fs sheet fault rows' = (result, fs')) :
    SheetHolds floats frames sheet fs₀ rows₀ fs'
      (match result with | .error _ => rows | .ok () => rows') := by
  have hothers := atomicWriteRows_others floats frames fs sheet fault rows'
  rw [hwrite] at hothers
  refine ⟨?_, fun path hsheet htemporary =>
    (hothers path hsheet htemporary).trans (h.others path hsheet htemporary)⟩
  cases result with
  | error e =>
      have hsame := atomicWriteRows_error hwrite
      simp only
      rw [hsame]
      exact h.held
  | ok u =>
      obtain ⟨text, bytes, htext, hbytes, hheld⟩ := atomicWriteRows_written hwrite
      exact .inr ⟨text, bytes, htext, hbytes, hheld⟩

variable (tables lower repr models) in
/-- What the sheet holds is what a longer session has at some row, and the rows behind it as they
were. -/
theorem reviewRows_saved
    {faults : Nat → Option WriteFault} {fs₀ : Files} {rows₀ : List JsonRow}
    {done todo : List JsonRow} {fs : Files} (input more : List Reading)
    (hsheet : SheetHolds floats frames session.sheet fs₀ rows₀ fs (done ++ todo)) :
    let ended := reviewRows tables lower repr models session faults done todo fs input
    let whole := reviewRows tables lower repr models session faults done todo fs (input ++ more)
    ∃ saved k, SheetHolds floats frames session.sheet fs₀ rows₀ ended.files saved ∧
      (ended.raised = none → saved = ended.rows) ∧
      saved = whole.rows.take (done.length + k) ++ todo.drop k := by
  induction todo generalizing done fs input with
  | nil =>
      refine ⟨done ++ [], 0, hsheet, fun _ => List.append_nil done, ?_⟩
      simp [reviewRows]
  | cons row todo ih =>
      have hstep := reviewRows_cons tables lower repr models session faults done row todo fs input
      obtain ⟨tail, hwhole, _⟩ := reviewRows_rows tables lower repr models session faults done
        (row :: todo) fs (input ++ more)
      have hcut : done ++ row :: todo =
          (reviewRows tables lower repr models session faults done (row :: todo) fs
            (input ++ more)).rows.take (done.length + 0) ++ (row :: todo).drop 0 := by
        rw [hwhole, Nat.add_zero, List.take_left, List.drop_zero]
      simp only at hstep ⊢
      have hnone := List.append_nil input
      rcases hstep with hstop | ⟨e, hraise⟩ | ⟨rest, hnext⟩ | ⟨row', rest, hjudged, hwrite⟩
      · rw [hnone] at hstop
        refine ⟨done ++ row :: todo, 0, ?_, ?_, hcut⟩
        · rw [hstop]
          exact hsheet
        · rw [hstop]
          intro _
          rfl
      · have hraise' := hraise []
        rw [hnone] at hraise'
        refine ⟨done ++ row :: todo, 0, ?_, ?_, hcut⟩
        · rw [hraise']
          exact hsheet
        · rw [hraise']
          intro h
          cases h
      · have hnext' := hnext []
        rw [hnone, List.append_nil] at hnext'
        rw [hnext', hnext more]
        have hsheet' : SheetHolds floats frames session.sheet fs₀ rows₀ fs
            ((done ++ [row]) ++ todo) := by
          rw [List.append_assoc]
          exact hsheet
        obtain ⟨saved, k, hholds, hend, hsaved⟩ := ih rest hsheet'
        refine ⟨saved, k + 1, hholds, hend, ?_⟩
        rw [hsaved, List.length_append, List.length_singleton, List.drop_succ_cons,
          Nat.add_right_comm, Nat.add_assoc]
      · have hwrite' := hwrite []
        rw [hnone, List.append_nil] at hwrite'
        cases hresult : atomicWriteRows floats frames fs session.sheet (faults done.length)
            (done ++ row' :: todo) with
        | mk result fs' =>
            have hholds := hsheet.write hresult
            cases result with
            | error e =>
                refine ⟨done ++ row :: todo, 0, ?_, ?_, hcut⟩
                · rw [hwrite', writeRow, hresult]
                  exact hholds
                · rw [hwrite', writeRow, hresult]
                  intro h
                  cases h
            | ok u =>
                rw [hwrite', hwrite more, writeRow, writeRow, hresult]
                have hsheet' : SheetHolds floats frames session.sheet fs₀ rows₀ fs'
                    ((done ++ [row']) ++ todo) := by
                  rw [List.append_assoc]
                  exact hholds
                obtain ⟨saved, k, hholds, hend, hsaved⟩ := ih rest hsheet'
                refine ⟨saved, k + 1, hholds, hend, ?_⟩
                simp only [hsaved, List.length_append, List.length_singleton,
                  List.drop_succ_cons]
                rw [Nat.add_right_comm, Nat.add_assoc]

theorem forall₂_take_drop
    {α : Type} {R : α → α → Prop} (hrefl : ∀ a, R a a) {xs ys : List α} (k : Nat)
    (h : List.Forall₂ R xs ys) :
    List.Forall₂ R xs (ys.take k ++ xs.drop k) := by
  have hsame := List.forall₂_same.mpr (fun a (_ : a ∈ xs.drop k) => hrefl a)
  have happend := List.rel_append (List.forall₂_take k h) hsame
  simp only [List.take_append_drop] at happend
  exact happend

/--
**What a session saves**, wherever its input ends and whatever raises: the sheet holds what the
whole session had at some row, in it every row is as it was or was judged once, and a session that
did not raise holds the same rows itself.  Nothing but the sheet and its temporary file is
touched, and nothing at all where the auditor is refused or the sheet is not loaded.
-/
theorem review_session_saves
    (session : Session dates) (faults : Nat → Option WriteFault) (fs : Files)
    (input more : List Reading) :
    let ended := reviewSheet tables lower repr models session faults fs input
    let whole := reviewSheet tables lower repr models session faults fs (input ++ more)
    match openSheet floats frames tables session fs with
    | .error e => ended = { rows := [], files := fs, raised := some e }
    | .ok rows =>
        ∃ saved, SheetHolds floats frames session.sheet fs rows ended.files saved ∧
          (ended.raised = none → saved = ended.rows) ∧
          List.Forall₂ (KeptOrJudged repr tables session) rows saved ∧
          ∃ k, saved = whole.rows.take k ++ rows.drop k := by
  unfold reviewSheet
  cases openSheet floats frames tables session fs with
  | error e => rfl
  | ok rows =>
      simp only
      obtain ⟨saved, k, hholds, hend, hsaved⟩ := reviewRows_saved tables lower repr models
        input more (SheetHolds.start session.sheet fs ([] ++ rows))
      obtain ⟨tail, hwhole, htail⟩ := reviewRows_rows tables lower repr models session faults []
        rows fs (input ++ more)
      rw [List.length_nil, Nat.zero_add] at hsaved
      refine ⟨saved, hholds, hend, ?_, k, hsaved⟩
      rw [hsaved, hwhole]
      exact forall₂_take_drop (fun row => .inl rfl) k htail

end Sessions

end Evals
end PrReviewer
