import Mathlib.Algebra.Order.Field.Basic
import Mathlib.Data.NNRat.Defs
import Mathlib.Data.List.Forall2
import Mathlib.Tactic
import PrReviewer.Lib.FirstFit
import PrReviewer.Reviewer.FindingCandidate

/-!
# Matching findings with labels

evals/match_findings.py and evals/metrics.py.  The labels take, in the order they are
listed, the first candidate left that matches them.

Two ranges of lines may overlap a third and not each other, so another order of the lists
may give another number of pairs.
-/

namespace PrReviewer
namespace Evals

open Lib
open Reviewer (FindingCandidate)

structure EvalLabel where
  concern : Concern
  category : String
  filePath : String
  lineStart : Nat
  lineEnd : Nat
  texts_ne : category ≠ "" ∧ filePath ≠ ""
  lines_ordered : 0 < lineStart ∧ lineStart ≤ lineEnd

structure MatchResult where
  matched : List (EvalLabel × FindingCandidate)
  unmatchedExpected : List EvalLabel
  unmatchedActual : List FindingCandidate
  needsHumanMatch : Bool

/-- `text.replace(old, new)` of one character. -/
def replaceChar (old new : Char) (text : String) : String :=
  .ofList (text.toList.map fun c => if c = old then new else c)

section Matching

-- `str.strip` and `str.lower`.
variable (strip lower : String → String)

/-- `_normalise_category`. -/
def normaliseCategory (value : String) : String :=
  replaceChar ' ' '-' (replaceChar '_' '-' (lower (strip value)))

/-- `_lines_overlap`. -/
def linesOverlap (left : EvalLabel) (right : FindingCandidate) : Bool :=
  !(left.lineEnd < right.lineStart ∨ right.lineEnd < left.lineStart)

/-- `_structural_match`. -/
def structuralMatch (label : EvalLabel) (candidate : FindingCandidate) : Bool :=
  label.concern = candidate.concern ∧
    label.filePath = candidate.filePath ∧
    linesOverlap label candidate ∧
    normaliseCategory strip lower label.category =
      normaliseCategory strip lower candidate.category

/-- `_near_miss`. -/
def nearMiss (label : EvalLabel) (candidate : FindingCandidate) : Bool :=
  if structuralMatch strip lower label candidate = true then false
  else
    label.concern = candidate.concern ∧
      normaliseCategory strip lower label.category =
        normaliseCategory strip lower candidate.category ∧
      label.filePath ≠ candidate.filePath

/-- `match_findings`. -/
def matchFindings (expected : List EvalLabel) (actual : List FindingCandidate) : MatchResult :=
  let m := firstFit (structuralMatch strip lower) expected actual
  { matched := m.pairs
    unmatchedExpected := m.leftOver
    unmatchedActual := m.rightOver
    needsHumanMatch := m.leftOver.any fun label =>
      m.rightOver.any fun candidate => nearMiss strip lower label candidate }

end Matching

section Metrics

/-- `_ratio`. -/
def ratio (numerator denominator : Nat) : ℚ≥0 :=
  if denominator = 0 then 0 else numerator / denominator

/-- `_case_is_precise`. -/
def caseIsPrecise (result : MatchResult) : Bool :=
  !result.matched.isEmpty && result.unmatchedActual.isEmpty && !result.needsHumanMatch

/-- `_case_is_recalled`. -/
def caseIsRecalled (result : MatchResult) : Bool :=
  !result.matched.isEmpty && result.unmatchedExpected.isEmpty && !result.needsHumanMatch

/-- `_RULE_ARMS`. -/
def ruleArms : List String :=
  ["retrieval_only", "executable_check_only", "both"]

structure EvalMetrics where
  precisionPerFinding : ℚ≥0
  precisionPerCase : ℚ≥0
  recallPerFinding : ℚ≥0
  recallPerCase : ℚ≥0
  falseFindingsPerPr : ℚ≥0
  selectivity : ℚ≥0
  verifiedFindingRate : ℚ≥0
  latencyMs : Nat
  costUsd : ℚ≥0
  needsHumanRate : ℚ≥0
  reviewedPrCount : Nat
  usefulFindingCount : Nat
  ruleAdherence : List (String × ℚ≥0)
  le_one : ∀ figure ∈ [precisionPerFinding, precisionPerCase, recallPerFinding, recallPerCase,
    selectivity, verifiedFindingRate, needsHumanRate], figure ≤ 1

theorem ratio_le_one {numerator denominator : Nat} (hle : numerator ≤ denominator) :
    ratio numerator denominator ≤ 1 := by
  rw [ratio]
  split
  · exact zero_le_one
  · exact div_le_one_of_le₀ (by exact_mod_cast hle) zero_le

def truePositives (results : List MatchResult) : Nat :=
  (results.map fun result => result.matched.length).sum

def predicted (results : List MatchResult) : Nat :=
  (results.map fun result => result.matched.length + result.unmatchedActual.length).sum

def expectedCount (results : List MatchResult) : Nat :=
  (results.map fun result => result.matched.length + result.unmatchedExpected.length).sum

theorem truePositives_le (results : List MatchResult) :
    truePositives results ≤ predicted results ∧ truePositives results ≤ expectedCount results :=
  ⟨List.sum_le_sum fun _ _ => Nat.le_add_right _ _,
    List.sum_le_sum fun _ _ => Nat.le_add_right _ _⟩

/-- `compute_metrics`. -/
def computeMetrics (results : List MatchResult) (reviewedPrCount latencyMs : Nat)
    (costUsd : ℚ≥0) : EvalMetrics where
  precisionPerFinding := ratio (truePositives results) (predicted results)
  precisionPerCase := ratio (results.countP caseIsPrecise) results.length
  recallPerFinding := ratio (truePositives results) (expectedCount results)
  recallPerCase := ratio (results.countP caseIsRecalled) results.length
  falseFindingsPerPr :=
    ratio (results.map fun result => result.unmatchedActual.length).sum reviewedPrCount
  selectivity :=
    ratio (results.countP fun result =>
      !result.matched.isEmpty || !result.unmatchedActual.isEmpty) results.length
  verifiedFindingRate := 0
  latencyMs := latencyMs
  costUsd := costUsd
  needsHumanRate := ratio (results.countP MatchResult.needsHumanMatch) results.length
  reviewedPrCount := reviewedPrCount
  usefulFindingCount := truePositives results
  ruleAdherence := ruleArms.map fun arm => (arm, 0)
  le_one := by
    have hcase : ∀ passes : MatchResult → Bool,
        ratio (results.countP passes) results.length ≤ 1 :=
      fun passes => ratio_le_one List.countP_le_length
    simp only [List.forall_mem_cons]
    exact ⟨ratio_le_one (truePositives_le results).1, hcase _,
      ratio_le_one (truePositives_le results).2, hcase _, hcase _, zero_le_one, hcase _,
      fun figure hfigure => by cases hfigure⟩

/-- The precision and the recall figures. -/
def EvalMetrics.figures (metrics : EvalMetrics) : ℚ≥0 × ℚ≥0 × ℚ≥0 × ℚ≥0 :=
  (metrics.precisionPerFinding, metrics.precisionPerCase,
    metrics.recallPerFinding, metrics.recallPerCase)

/-- The two results are alike in what the figures count. -/
structure Alike (result result' : MatchResult) : Prop where
  matched : result.matched.length = result'.matched.length
  actual : result.unmatchedActual.length = result'.unmatchedActual.length
  expected : result.unmatchedExpected.length = result'.unmatchedExpected.length
  precise : caseIsPrecise result = caseIsPrecise result'
  recalled : caseIsRecalled result = caseIsRecalled result'

theorem figures_of_alike
    {results results' : List MatchResult} (halike : List.Forall₂ Alike results results')
    (reviewedPrCount latencyMs : Nat) (costUsd : ℚ≥0) :
    (computeMetrics results reviewedPrCount latencyMs costUsd).figures =
      (computeMetrics results' reviewedPrCount latencyMs costUsd).figures := by
  have hcounts :
      truePositives results = truePositives results' ∧
      predicted results = predicted results' ∧
      expectedCount results = expectedCount results' ∧
      results.countP caseIsPrecise = results'.countP caseIsPrecise ∧
      results.countP caseIsRecalled = results'.countP caseIsRecalled ∧
      results.length = results'.length := by
    induction halike with
    | nil => exact ⟨rfl, rfl, rfl, rfl, rfl, rfl⟩
    | cons hfirst _ ih =>
        obtain ⟨htrue, hpredicted, hexpected, hprecise, hrecalled, hlength⟩ := ih
        refine ⟨?_, ?_, ?_, ?_, ?_, ?_⟩
        · simpa only [truePositives, List.map_cons, List.sum_cons, hfirst.matched,
            Nat.add_left_cancel_iff] using htrue
        · simpa only [predicted, List.map_cons, List.sum_cons, hfirst.matched, hfirst.actual,
            Nat.add_left_cancel_iff] using hpredicted
        · simpa only [expectedCount, List.map_cons, List.sum_cons, hfirst.matched,
            hfirst.expected, Nat.add_left_cancel_iff] using hexpected
        · rw [List.countP_cons, List.countP_cons, hprecise, hfirst.precise]
        · rw [List.countP_cons, List.countP_cons, hrecalled, hfirst.recalled]
        · rw [List.length_cons, List.length_cons, hlength]
  obtain ⟨htrue, hpredicted, hexpected, hprecise, hrecalled, hlength⟩ := hcounts
  simp only [EvalMetrics.figures, computeMetrics, htrue, hpredicted, hexpected, hprecise,
    hrecalled, hlength]

end Metrics

section Orders

variable (strip lower : String → String)

/-- A matching of the labels and the candidates to which no pair can be added. -/
abbrev MaximalMatching (expected : List EvalLabel) (actual : List FindingCandidate)
    (m : Matching EvalLabel FindingCandidate) : Prop :=
  m.Maximal (structuralMatch strip lower) expected actual

/-- All maximal matchings have as many pairs. -/
def OneSize (expected : List EvalLabel) (actual : List FindingCandidate) : Prop :=
  ∀ m m', MaximalMatching strip lower expected actual m →
    MaximalMatching strip lower expected actual m' → m.pairs.length = m'.pairs.length

/-- A human is asked for only where something is left on both sides. -/
theorem not_needsHuman
    (expected : List EvalLabel) (actual : List FindingCandidate)
    (hnone : (matchFindings strip lower expected actual).unmatchedExpected = [] ∨
      (matchFindings strip lower expected actual).unmatchedActual = []) :
    (matchFindings strip lower expected actual).needsHumanMatch = false := by
  simp only [matchFindings] at hnone ⊢
  rcases hnone with hnone | hnone
  · rw [hnone]
    rfl
  · rw [hnone]
    simp

theorem caseIsPrecise_matchFindings
    (expected : List EvalLabel) (actual : List FindingCandidate) :
    caseIsPrecise (matchFindings strip lower expected actual) =
      decide (0 < (matchFindings strip lower expected actual).matched.length ∧
        (matchFindings strip lower expected actual).unmatchedActual.length = 0) := by
  cases hactual : (matchFindings strip lower expected actual).unmatchedActual with
  | nil =>
      have hhuman := not_needsHuman strip lower expected actual (Or.inr hactual)
      cases hmatched : (matchFindings strip lower expected actual).matched <;>
        simp [caseIsPrecise, hactual, hhuman, hmatched]
  | cons candidate rest => simp [caseIsPrecise, hactual]

theorem caseIsRecalled_matchFindings
    (expected : List EvalLabel) (actual : List FindingCandidate) :
    caseIsRecalled (matchFindings strip lower expected actual) =
      decide (0 < (matchFindings strip lower expected actual).matched.length ∧
        (matchFindings strip lower expected actual).unmatchedExpected.length = 0) := by
  cases hexpected : (matchFindings strip lower expected actual).unmatchedExpected with
  | nil =>
      have hhuman := not_needsHuman strip lower expected actual (Or.inl hexpected)
      cases hmatched : (matchFindings strip lower expected actual).matched <;>
        simp [caseIsRecalled, hexpected, hhuman, hmatched]
  | cons label rest => simp [caseIsRecalled, hexpected]

/-- Reorderings with as many pairs are alike. -/
theorem alike_of_perm
    {expected expected' : List EvalLabel} {actual actual' : List FindingCandidate}
    (hexpected : expected'.Perm expected) (hactual : actual'.Perm actual)
    (hmatched : (matchFindings strip lower expected' actual').matched.length =
      (matchFindings strip lower expected actual).matched.length) :
    Alike (matchFindings strip lower expected' actual')
      (matchFindings strip lower expected actual) := by
  have hm := firstFit_maximal (structuralMatch strip lower) expected actual
  have hm' := firstFit_maximal (structuralMatch strip lower) expected' actual'
  have hleft := hm.leftOver_length
  have hleft' := hm'.leftOver_length
  have hright := hm.rightOver_length
  have hright' := hm'.rightOver_length
  rw [hexpected.length_eq] at hleft'
  rw [hactual.length_eq] at hright'
  have hleftOver : (matchFindings strip lower expected' actual').unmatchedExpected.length =
      (matchFindings strip lower expected actual).unmatchedExpected.length := by
    simp only [matchFindings] at hmatched ⊢
    omega
  have hrightOver : (matchFindings strip lower expected' actual').unmatchedActual.length =
      (matchFindings strip lower expected actual).unmatchedActual.length := by
    simp only [matchFindings] at hmatched ⊢
    omega
  exact
    { matched := hmatched
      actual := hrightOver
      expected := hleftOver
      precise := by
        rw [caseIsPrecise_matchFindings, caseIsPrecise_matchFindings, hmatched, hrightOver]
      recalled := by
        rw [caseIsRecalled_matchFindings, caseIsRecalled_matchFindings, hmatched, hleftOver] }

/-- A case of an evaluation: its labels and the candidates it is given. -/
abbrev Case := List EvalLabel × List FindingCandidate

def Case.result (case : Case) : MatchResult :=
  matchFindings strip lower case.1 case.2

/-- The same labels and candidates in another order. -/
def Reordered (case case' : Case) : Prop :=
  case.1.Perm case'.1 ∧ case.2.Perm case'.2

/-- First fit splits both lists into pairs that match and what is left over, among which
nothing matches.  Where all maximal matchings have as many pairs, and only there, their
number is the same for every order of the lists, and with it the precision and the recall
figures of any cases. -/
theorem matching_order_independent_iff :
    (∀ expected actual,
      let result := matchFindings strip lower expected actual
      (result.matched.map Prod.fst ++ result.unmatchedExpected).Perm expected ∧
      (result.matched.map Prod.snd ++ result.unmatchedActual).Perm actual ∧
      (∀ pair ∈ result.matched, structuralMatch strip lower pair.1 pair.2 = true) ∧
      ((∀ expected' actual', expected'.Perm expected → actual'.Perm actual →
          (matchFindings strip lower expected' actual').matched.length =
            result.matched.length) ↔
        OneSize strip lower expected actual)) ∧
    ∀ cases cases' : List Case, List.Forall₂ Reordered cases' cases →
      (∀ case ∈ cases, OneSize strip lower case.1 case.2) →
      ∀ reviewedPrCount latencyMs costUsd,
        (computeMetrics (cases'.map (Case.result strip lower))
            reviewedPrCount latencyMs costUsd).figures =
          (computeMetrics (cases.map (Case.result strip lower))
            reviewedPrCount latencyMs costUsd).figures := by
  constructor
  · intro expected actual
    obtain ⟨hleft, hright, hpaired, -⟩ :=
      firstFit_maximal (structuralMatch strip lower) expected actual
    exact ⟨hleft, hright, hpaired,
      firstFit_length_invariant_iff (structuralMatch strip lower) expected actual⟩
  · intro cases cases' hreordered hsizes reviewedPrCount latencyMs costUsd
    refine figures_of_alike ?_ reviewedPrCount latencyMs costUsd
    rw [List.forall₂_map_left_iff, List.forall₂_map_right_iff]
    induction hreordered with
    | nil => exact List.Forall₂.nil
    | @cons case' case rest' rest hcase _ ih =>
        refine List.Forall₂.cons ?_ (ih fun c hc => hsizes c (List.mem_cons_of_mem _ hc))
        have hcount :=
          (firstFit_length_invariant_iff (structuralMatch strip lower) case.1 case.2).mpr
            (hsizes case List.mem_cons_self) case'.1 case'.2 hcase.1 hcase.2
        exact alike_of_perm strip lower hcase.1 hcase.2 hcount

/-- A label on some lines of one file. -/
def labelOn (lineStart lineEnd : Nat) (h : 0 < lineStart ∧ lineStart ≤ lineEnd) : EvalLabel :=
  ⟨.correctness, "null-check", "a.py", lineStart, lineEnd, by decide, h⟩

/-- A candidate on some lines of one file. -/
def candidateOn (lineStart lineEnd : Nat) (h : 0 < lineStart ∧ lineStart ≤ lineEnd) :
    FindingCandidate :=
  ⟨.correctness, .high, "null-check", "a.py", lineStart, lineEnd, "t", "r", [⟨[]⟩],
    .number (4 / 5) (by norm_num), by decide, h, by decide⟩

/-- The wide label first takes the candidate the narrow one needs. -/
theorem order_changes_matching :
    let wide := labelOn 1 10 (by decide)
    let narrow := labelOn 1 2 (by decide)
    let actual := [candidateOn 1 2 (by decide), candidateOn 8 10 (by decide)]
    (matchFindings id id [wide, narrow] actual).matched.length = 1 ∧
      (matchFindings id id [narrow, wide] actual).matched.length = 2 ∧
      (computeMetrics [matchFindings id id [wide, narrow] actual] 1 0 0).recallPerFinding =
        1 / 2 ∧
      (computeMetrics [matchFindings id id [narrow, wide] actual] 1 0 0).recallPerFinding =
        1 := by
  decide +kernel

end Orders

end Evals
end PrReviewer
