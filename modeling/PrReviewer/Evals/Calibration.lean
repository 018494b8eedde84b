import Mathlib.Algebra.Order.BigOperators.Group.List
import Mathlib.Algebra.Order.Field.Basic
import Mathlib.Data.Rat.Cast.Order
import Mathlib.Tactic
import PrReviewer.Lib.Cells

/-!
# Calibration buckets

evals/regression_gate.py: `calibration_buckets`, over an ordered field in the place of the
floats.  The predictions whose confidences lie between two neighbouring edges make a bucket;
a bucket without predictions is left out.
-/

namespace PrReviewer
namespace Evals

open Lib

universe u

structure CalibrationBucket (F : Type u) where
  lower : F
  upper : F
  count : Nat
  accuracy : F
  meanConfidence : F
deriving DecidableEq, Repr

section Buckets

variable {F : Type u} [Field F] [LinearOrder F]

/-- How many of the predictions came true. -/
def hits (members : List (F × Bool)) : Nat :=
  members.countP Prod.snd

/-- The bucket of its members. -/
def bucketOf (lower upper : F) (members : List (F × Bool)) : CalibrationBucket F where
  lower := lower
  upper := upper
  count := members.length
  accuracy := hits members / members.length
  meanConfidence := (members.map Prod.fst).sum / members.length

/-- The loop of `calibration_buckets` from an edge; the bucket before the last edge, the one at
`len(edges) - 2`, is closed. -/
def calibrationBuckets (predictions : List (F × Bool)) : List F → List (CalibrationBucket F)
  | lower :: upper :: rest =>
      let members :=
        if rest = [] then
          predictions.filter (fun item => lower ≤ item.1 ∧ item.1 ≤ upper)
        else
          predictions.filter (fun item => lower ≤ item.1 ∧ item.1 < upper)
      if members = [] then
        calibrationBuckets predictions (upper :: rest)
      else
        bucketOf lower upper members :: calibrationBuckets predictions (upper :: rest)
  | _ => []

/-- The predictions whose confidences a cell between two edges holds. -/
def membersOf (last : F) (predictions : List (F × Bool)) (cell : F × F) : List (F × Bool) :=
  predictions.filter (fun item => InCell last cell item.1)

/-- The edges of a bucket. -/
def CalibrationBucket.cell (bucket : CalibrationBucket F) : F × F :=
  (bucket.lower, bucket.upper)

/-- The buckets divide the predictions along the edges, of which `last` is the last one. -/
structure Divides (last : F) (edges : List F) (predictions : List (F × Bool))
    (buckets : List (CalibrationBucket F)) : Prop where
  /-- The buckets left out are the empty ones. -/
  edges : buckets.map CalibrationBucket.cell =
    (cells edges).filter (fun cell => membersOf last predictions cell ≠ [])
  once : ∀ item ∈ predictions, buckets.countP (fun bucket => InCell last bucket.cell item.1) = 1
  count : ∀ bucket ∈ buckets, bucket.count = (membersOf last predictions bucket.cell).length ∧
    0 < bucket.count
  total : (buckets.map CalibrationBucket.count).sum = predictions.length
  mean : ∀ bucket ∈ buckets, bucket.lower ≤ bucket.meanConfidence ∧
    bucket.meanConfidence ≤ bucket.upper ∧
    bucket.meanConfidence * bucket.count =
      ((membersOf last predictions bucket.cell).map Prod.fst).sum
  accuracy : ∀ bucket ∈ buckets,
    bucket.accuracy * bucket.count = hits (membersOf last predictions bucket.cell)

/-- The bucket of a cell, where it has members. -/
def bucketOfCell (last : F) (predictions : List (F × Bool)) (cell : F × F) :
    Option (CalibrationBucket F) :=
  if membersOf last predictions cell = [] then none
  else some (bucketOf cell.1 cell.2 (membersOf last predictions cell))

/-- Along increasing edges the loop makes the buckets of the cells. -/
theorem calibrationBuckets_eq
    {last first : F} {rest : List F} (predictions : List (F × Bool))
    (hedges : (first :: rest).Pairwise (· < ·))
    (hlast : (first :: rest).getLast (List.cons_ne_nil _ _) = last) :
    calibrationBuckets predictions (first :: rest) =
      (cells (first :: rest)).filterMap (bucketOfCell last predictions) := by
  induction rest generalizing first with
  | nil => rfl
  | cons upper rest ih =>
      obtain ⟨hfirst, hrest⟩ := List.pairwise_cons.mp hedges
      have hend : (upper :: rest).getLast (List.cons_ne_nil _ _) = last := by
        rwa [List.getLast_cons (List.cons_ne_nil _ _)] at hlast
      have hclosed : rest = [] ↔ upper = last := by
        constructor
        · rintro rfl
          exact hend
        · intro heq
          by_contra hne
          exact absurd (hend ▸ heq) (lt_getLast hrest hne).ne
      have hmembers : (if rest = [] then
          predictions.filter (fun item => first ≤ item.1 ∧ item.1 ≤ upper)
        else
          predictions.filter (fun item => first ≤ item.1 ∧ item.1 < upper)) =
          membersOf last predictions (first, upper) := by
        simp only [membersOf, InCell, ← hclosed]
        split
        · rfl
        · rfl
      rw [calibrationBuckets, cells, List.filterMap_cons, ← ih hrest hend]
      simp only [hmembers, bucketOfCell]
      split
      · rfl
      · rfl

/-- The buckets of cells have the edges of those that have members. -/
theorem map_cell_buckets
    (last : F) (predictions : List (F × Bool)) (places : List (F × F)) :
    (places.filterMap (bucketOfCell last predictions)).map CalibrationBucket.cell =
      places.filter (fun cell => membersOf last predictions cell ≠ []) := by
  induction places with
  | nil => rfl
  | cons cell places ih =>
      rw [List.filterMap_cons, bucketOfCell]
      by_cases hempty : membersOf last predictions cell = []
      · rw [if_pos hempty, List.filter_cons_of_neg (by simpa using hempty)]
        exact ih
      · rw [if_neg hempty, List.filter_cons_of_pos (by simpa using hempty), ← ih]
        rfl

/-- An empty bucket would count nothing. -/
theorem sum_count_buckets
    (last : F) (predictions : List (F × Bool)) (places : List (F × F)) :
    ((places.filterMap (bucketOfCell last predictions)).map CalibrationBucket.count).sum =
      (places.map (fun cell => predictions.countP (fun item => InCell last cell item.1))).sum := by
  induction places with
  | nil => rfl
  | cons cell places ih =>
      have hcount : predictions.countP (fun item => InCell last cell item.1) =
          (membersOf last predictions cell).length := List.countP_eq_length_filter
      rw [List.filterMap_cons, bucketOfCell, List.map_cons, List.sum_cons, hcount, ← ih]
      by_cases hempty : membersOf last predictions cell = []
      · rw [if_pos hempty, hempty, List.length_nil, Nat.zero_add]
      · rw [if_neg hempty]
        rfl

theorem exists_of_mem_buckets
    {last : F} {predictions : List (F × Bool)} {places : List (F × F)}
    {bucket : CalibrationBucket F}
    (h : bucket ∈ places.filterMap (bucketOfCell last predictions)) :
    membersOf last predictions bucket.cell ≠ [] ∧
      bucket = bucketOf bucket.lower bucket.upper (membersOf last predictions bucket.cell) := by
  obtain ⟨cell, _, hcell⟩ := List.mem_filterMap.mp h
  rw [bucketOfCell] at hcell
  split at hcell
  · cases hcell
  · next hne =>
      cases hcell
      exact ⟨hne, rfl⟩

variable [IsStrictOrderedRing F]

theorem length_pos_cast
    {members : List (F × Bool)} (hne : members ≠ []) :
    (0 : F) < members.length := by
  exact_mod_cast List.length_pos_iff.mpr hne

/-- The mean of confidences lies between bounds of the confidences. -/
theorem mean_bounds
    {members : List (F × Bool)} (hne : members ≠ []) {lower upper : F}
    (hbounds : ∀ item ∈ members, lower ≤ item.1 ∧ item.1 ≤ upper) :
    lower ≤ (bucketOf lower upper members).meanConfidence ∧
      (bucketOf lower upper members).meanConfidence ≤ upper := by
  have hpos := length_pos_cast hne
  have hlower := List.card_nsmul_le_sum (members.map Prod.fst) lower (by
    rw [List.forall_mem_map]
    exact fun item hitem => (hbounds item hitem).1)
  have hupper := List.sum_le_card_nsmul (members.map Prod.fst) upper (by
    rw [List.forall_mem_map]
    exact fun item hitem => (hbounds item hitem).2)
  rw [List.length_map, nsmul_eq_mul] at hlower hupper
  constructor
  · rw [bucketOf, le_div_iff₀ hpos, mul_comm]
    exact hlower
  · rw [bucketOf, div_le_iff₀ hpos, mul_comm]
    exact hupper

/-- Along two or more increasing edges, predictions between the first and the last edge are
divided into buckets. -/
theorem calibration_buckets_divide
    (first : F) (rest : List F) (predictions : List (F × Bool))
    (hrest : rest ≠ []) (hedges : (first :: rest).Pairwise (· < ·))
    (hrange : ∀ item ∈ predictions,
      first ≤ item.1 ∧ item.1 ≤ (first :: rest).getLast (List.cons_ne_nil _ _)) :
    Divides ((first :: rest).getLast (List.cons_ne_nil _ _)) (first :: rest) predictions
      (calibrationBuckets predictions (first :: rest)) := by
  generalize hlast : (first :: rest).getLast (List.cons_ne_nil _ _) = last at hrange ⊢
  rw [calibrationBuckets_eq predictions hedges hlast]
  have hcells := map_cell_buckets last predictions (cells (first :: rest))
  have hone : ∀ item ∈ predictions,
      (cells (first :: rest)).countP (fun cell => InCell last cell item.1) = 1 :=
    fun item hitem => count_cells hrest hedges hlast (hrange item hitem).1 (hrange item hitem).2
  refine ⟨hcells, ?_, ?_, ?_, ?_, ?_⟩
  · intro item hitem
    have hmembers : ∀ cell ∈ cells (first :: rest), InCell last cell item.1 →
        membersOf last predictions cell ≠ [] := by
      intro cell _ hin
      exact List.ne_nil_of_mem (List.mem_filter.mpr ⟨hitem, by simpa using hin⟩)
    have hmap := congrArg (List.countP fun cell => decide (InCell last cell item.1)) hcells
    rw [List.countP_map, List.countP_filter] at hmap
    rw [← hone item hitem]
    refine hmap.trans (List.countP_congr fun cell hcell => ?_)
    have hne := hmembers cell hcell
    simp only [Bool.and_eq_true, decide_eq_true_eq, and_iff_left_iff_imp]
    exact hne
  · intro bucket hbucket
    obtain ⟨hne, heq⟩ := exists_of_mem_buckets hbucket
    have hcount := congrArg CalibrationBucket.count heq
    exact ⟨hcount, hcount ▸ List.length_pos_iff.mpr hne⟩
  · rw [sum_count_buckets, sum_countP, List.map_congr_left hone]
    simp
  · intro bucket hbucket
    obtain ⟨hne, heq⟩ := exists_of_mem_buckets hbucket
    have hbounds : ∀ item ∈ membersOf last predictions bucket.cell,
        bucket.lower ≤ item.1 ∧ item.1 ≤ bucket.upper := by
      intro item hitem
      have hin : InCell last bucket.cell item.1 := by simpa using (List.mem_filter.mp hitem).2
      exact hin.bounds
    obtain ⟨hlower, hupper⟩ := mean_bounds hne hbounds
    rw [← heq] at hlower hupper
    refine ⟨hlower, hupper, ?_⟩
    rw [heq]
    exact div_mul_cancel₀ _ (length_pos_cast hne).ne'
  · intro bucket hbucket
    obtain ⟨hne, heq⟩ := exists_of_mem_buckets hbucket
    rw [heq]
    exact div_mul_cancel₀ _ (length_pos_cast hne).ne'

/-- Predictions on the edges of two buckets, the second of which is closed. -/
theorem calibration_buckets_divide_edges :
    let predictions : List (ℚ × Bool) := [(0, false), (1 / 2, true), (1, true), (1, false)]
    calibrationBuckets predictions [0, 1 / 2, 1] =
        [⟨0, 1 / 2, 1, 0, 0⟩, ⟨1 / 2, 1, 3, 2 / 3, 5 / 6⟩] ∧
      Divides 1 [0, 1 / 2, 1] predictions (calibrationBuckets predictions [0, 1 / 2, 1]) := by
  intro predictions
  refine ⟨by decide +kernel, ?_⟩
  refine calibration_buckets_divide 0 [1 / 2, 1] predictions (List.cons_ne_nil _ _) ?_ ?_
  · decide +kernel
  · decide +kernel

end Buckets

end Evals
end PrReviewer
