import Mathlib.Algebra.Order.BigOperators.Group.List
import Mathlib.Algebra.Order.Field.Basic
import Mathlib.Data.Prod.Lex
import Mathlib.Tactic
import PrReviewer.Lib.Dict
import PrReviewer.Lib.Sorting

/-!
# Reciprocal rank fusion

retrieval/rrf.py, with exact scores.  An item has from each ranking that holds it the
reciprocal of its rank, shifted by `k`; the items are sorted by the sums, and where these are
equal in the order in which they were first seen.

An item that stands before another one in every ranking that holds the other has the greater
sum.
-/

namespace PrReviewer
namespace Retrieval

open Lib

section Fusion

variable {α : Type} [DecidableEq α]

/-- `scores`, `first_seen` and `order`. -/
structure Fusion (α : Type) where
  scores : List (α × ℚ)
  firstSeen : List (α × Nat)
  order : Nat

variable (k : Nat)

/-- The body of the inner loop. -/
def Fusion.see (fusion : Fusion α) (entry : α × Nat) : Fusion α :=
  let (item, rank) := entry
  let scores := dictSet fusion.scores item
    ((fusion.scores.lookup item).getD 0 + 1 / ((k + rank : Nat) : ℚ))
  if item ∈ fusion.firstSeen.map Prod.fst then
    { fusion with scores := scores }
  else
    ⟨scores, dictSet fusion.firstSeen item fusion.order, fusion.order + 1⟩

/-- The loops. -/
def Fusion.ofRankings (rankings : List (List α)) : Fusion α :=
  rankings.foldl (fun fusion ranking => (ranking.zipIdx 1).foldl (Fusion.see k) fusion) ⟨[], [], 0⟩

/-- The sort key; `sorted` asks for the keys of items that both dicts hold. -/
def Fusion.key (fusion : Fusion α) (item : α) : ℚ ×ₗ Nat :=
  toLex (-(fusion.scores.lookup item).getD 0, (fusion.firstSeen.lookup item).getD 0)

/-- `reciprocal_rank_fusion`. -/
def reciprocalRankFusion (rankings : List (List α)) : List α :=
  let fusion := Fusion.ofRankings k rankings
  sortOn fusion.key (fusion.scores.map Prod.fst)

/-- What a ranking adds to the score of an item. -/
def contribution (item : α) (ranking : List α) : ℚ :=
  if item ∈ ranking then 1 / ((k + (ranking.idxOf item + 1) : Nat) : ℚ) else 0

/-- The score of an item. -/
def score (rankings : List (List α)) (item : α) : ℚ :=
  (rankings.map (contribution k item)).sum

/-- The item stands before the other one. -/
def Precedes (ranking : List α) (item other : α) : Prop :=
  item ∈ ranking ∧ other ∈ ranking ∧ ranking.idxOf item < ranking.idxOf other

/-- What a fusion of rankings keeps of them. -/
structure FusesRankings (rankings : List (List α)) (fused : List α) : Prop where
  nodup : fused.Nodup
  mem_iff : ∀ item, item ∈ fused ↔ ∃ ranking ∈ rankings, item ∈ ranking
  sorted : fused.Pairwise fun item later => score k rankings later ≤ score k rankings item
  unanimous : ∀ item other, (∃ ranking ∈ rankings, other ∈ ranking) →
    (∀ ranking ∈ rankings, other ∈ ranking → Precedes ranking item other) →
    Precedes fused item other

variable {k}

/-- The entries of the rankings, in the order in which they are seen. -/
def entriesOf (rankings : List (List α)) : List (α × Nat) :=
  rankings.flatMap (fun ranking => ranking.zipIdx 1)

theorem scores_foldl_see
    (entries : List (α × Nat)) (fusion : Fusion α) :
    (entries.foldl (Fusion.see k) fusion).scores =
      entries.foldl (fun items entry => dictAdd items entry.1 (1 / ((k + entry.2 : Nat) : ℚ)))
        fusion.scores := by
  induction entries generalizing fusion with
  | nil => rfl
  | cons entry entries ih =>
      have hstep : (fusion.see k entry).scores =
          dictAdd fusion.scores entry.1 (1 / ((k + entry.2 : Nat) : ℚ)) := by
        rw [Fusion.see]
        split
        · rfl
        · rfl
      rw [List.foldl_cons, List.foldl_cons, ih, hstep]

theorem scores_ofRankings
    (rankings : List (List α)) :
    (Fusion.ofRankings k rankings).scores =
      (entriesOf rankings).foldl
        (fun items entry => dictAdd items entry.1 (1 / ((k + entry.2 : Nat) : ℚ))) [] := by
  rw [Fusion.ofRankings, ← List.foldl_flatMap, scores_foldl_see]
  rfl

omit [DecidableEq α] in
theorem map_fst_entriesOf
    (rankings : List (List α)) :
    (entriesOf rankings).map Prod.fst = rankings.flatten := by
  rw [entriesOf, List.map_flatMap, List.flatten_eq_flatMap]
  exact List.flatMap_congr fun ranking _ => List.zipIdx_map_fst ..

/-- A ranking without duplicates has one entry of an item it holds. -/
theorem filter_zipIdx
    {ranking : List α} (hnodup : ranking.Nodup) (first : Nat) (item : α) :
    (ranking.zipIdx first).filter (fun entry => entry.1 = item) =
      if item ∈ ranking then [(item, first + ranking.idxOf item)] else [] := by
  induction ranking generalizing first with
  | nil => rfl
  | cons head ranking ih =>
      obtain ⟨hhead, hnodup⟩ := List.nodup_cons.mp hnodup
      rw [List.zipIdx_cons]
      by_cases heq : head = item
      · subst heq
        rw [List.filter_cons_of_pos (by simp), ih hnodup, if_neg hhead,
          if_pos (List.mem_cons_self ..), List.idxOf_cons_self, Nat.add_zero]
      · have hne : item ≠ head := fun h => heq h.symm
        rw [List.filter_cons_of_neg (by simpa using heq), ih hnodup]
        simp only [List.mem_cons, hne, false_or, List.idxOf_cons_ne ranking heq]
        split
        · rw [Nat.succ_eq_add_one, Nat.add_assoc, Nat.add_comm 1]
        · rfl

theorem sum_entries
    {ranking : List α} (hnodup : ranking.Nodup) (item : α) :
    (((ranking.zipIdx 1).filter (fun entry => entry.1 = item)).map
      (fun entry => 1 / ((k + entry.2 : Nat) : ℚ))).sum = contribution k item ranking := by
  rw [filter_zipIdx hnodup, contribution]
  split
  · rw [List.map_singleton, List.sum_singleton, Nat.add_comm 1]
  · rfl

theorem lookup_scores
    {rankings : List (List α)} (hnodup : ∀ ranking ∈ rankings, ranking.Nodup) (item : α) :
    ((Fusion.ofRankings k rankings).scores.lookup item).getD 0 = score k rankings item := by
  rw [scores_ofRankings, lookup_foldl_dictAdd, List.lookup_nil, Option.getD_none, zero_add, score]
  induction rankings with
  | nil => rfl
  | cons ranking rankings ih =>
      obtain ⟨hfirst, hrest⟩ := List.forall_mem_cons.mp hnodup
      rw [entriesOf, List.flatMap_cons, List.filter_append, List.map_append, List.sum_append,
        sum_entries hfirst, List.map_cons, List.sum_cons, ← ih hrest, entriesOf]

theorem mem_reciprocalRankFusion
    {rankings : List (List α)} {item : α} :
    item ∈ reciprocalRankFusion k rankings ↔ ∃ ranking ∈ rankings, item ∈ ranking := by
  rw [reciprocalRankFusion, (perm_sortOn _ _).mem_iff, scores_ofRankings, mem_keys_foldl_dictAdd]
  simp [map_fst_entriesOf]

theorem nodup_reciprocalRankFusion
    (rankings : List (List α)) :
    (reciprocalRankFusion k rankings).Nodup := by
  rw [reciprocalRankFusion, (perm_sortOn _ _).nodup_iff, scores_ofRankings]
  exact nodup_foldl_dictAdd _ _ _ List.nodup_nil

theorem sorted_reciprocalRankFusion
    {rankings : List (List α)} (hnodup : ∀ ranking ∈ rankings, ranking.Nodup) :
    (reciprocalRankFusion k rankings).Pairwise
      fun item later => score k rankings later ≤ score k rankings item := by
  refine (pairwise_sortOn _ _).imp fun {item later} h => ?_
  simp only [Fusion.key, lookup_scores hnodup, Prod.Lex.le_iff, ofLex_toLex] at h
  rcases h with h | ⟨h, _⟩
  · exact (neg_lt_neg_iff.mp h).le
  · exact (neg_inj.mp h).ge

theorem contribution_nonneg
    (item : α) (ranking : List α) :
    0 ≤ contribution k item ranking := by
  rw [contribution]
  split
  · positivity
  · exact le_refl 0

/-- The item that stands before another one in a ranking gets more from it. -/
theorem contribution_lt
    {ranking : List α} {item other : α} (h : Precedes ranking item other) :
    contribution k other ranking < contribution k item ranking := by
  obtain ⟨hitem, hother, hlt⟩ := h
  rw [contribution, contribution, if_pos hitem, if_pos hother]
  have hpos : (0 : ℚ) < ((k + (ranking.idxOf item + 1) : Nat) : ℚ) := by positivity
  have hranks : ((k + (ranking.idxOf item + 1) : Nat) : ℚ) <
      ((k + (ranking.idxOf other + 1) : Nat) : ℚ) := by
    exact_mod_cast Nat.add_lt_add_left (Nat.succ_lt_succ hlt) k
  exact one_div_lt_one_div_of_lt hpos hranks

/-- The item that stands before another one in every ranking with the other one has the
greater score. -/
theorem score_lt
    {rankings : List (List α)} {item other : α}
    (hranked : ∃ ranking ∈ rankings, other ∈ ranking)
    (hbefore : ∀ ranking ∈ rankings, other ∈ ranking → Precedes ranking item other) :
    score k rankings other < score k rankings item := by
  have hle : ∀ ranking ∈ rankings, contribution k other ranking ≤ contribution k item ranking := by
    intro ranking hranking
    by_cases hother : other ∈ ranking
    · exact (contribution_lt (hbefore ranking hranking hother)).le
    · have hzero : contribution k other ranking = 0 := if_neg hother
      exact hzero ▸ contribution_nonneg item ranking
  obtain ⟨ranking, hranking, hother⟩ := hranked
  exact List.sum_lt_sum _ _ hle
    ⟨ranking, hranking, contribution_lt (hbefore ranking hranking hother)⟩

/-- In a list sorted by descending values the greater value stands first. -/
theorem precedes_of_lt
    {fused : List α} {value : α → ℚ}
    (hsorted : fused.Pairwise fun item later => value later ≤ value item)
    {item other : α} (hitem : item ∈ fused) (hother : other ∈ fused)
    (hlt : value other < value item) :
    Precedes fused item other := by
  refine ⟨hitem, hother, ?_⟩
  by_contra hle
  have hne : fused.idxOf other ≠ fused.idxOf item := by
    intro heq
    obtain rfl := (List.idxOf_inj hother).mp heq
    exact lt_irrefl _ hlt
  have hafter : fused.idxOf other < fused.idxOf item := by omega
  have hvalue := List.pairwise_iff_getElem.mp hsorted _ _ (List.idxOf_lt_length_iff.mpr hother)
    (List.idxOf_lt_length_iff.mpr hitem) hafter
  rw [List.getElem_idxOf, List.getElem_idxOf] at hvalue
  exact absurd hlt (not_lt.mpr hvalue)

/-- The scores do not depend on the order of the rankings. -/
theorem score_perm
    {rankings rankings' : List (List α)} (h : rankings.Perm rankings') (item : α) :
    score k rankings item = score k rankings' item :=
  (h.map _).sum_eq

/-- Rankings without duplicates are fused to a list of their items in the order of their
scores, which respects what all rankings agree on.  Other orders of the rankings give the same
items with the same scores at the same places. -/
theorem rank_fusion_respects_agreement
    (k : Nat) (rankings : List (List α)) (hnodup : ∀ ranking ∈ rankings, ranking.Nodup) :
    FusesRankings k rankings (reciprocalRankFusion k rankings) ∧
      ∀ rankings', rankings.Perm rankings' →
        (reciprocalRankFusion k rankings').Perm (reciprocalRankFusion k rankings) ∧
          (reciprocalRankFusion k rankings').map (score k rankings) =
            (reciprocalRankFusion k rankings).map (score k rankings) := by
  have hsorted := sorted_reciprocalRankFusion (k := k) hnodup
  refine ⟨⟨nodup_reciprocalRankFusion rankings, fun _ => mem_reciprocalRankFusion, hsorted, ?_⟩, ?_⟩
  · intro item other hranked hbefore
    obtain ⟨ranking, hranking, hother⟩ := hranked
    obtain ⟨hitem, _⟩ := hbefore ranking hranking hother
    refine precedes_of_lt hsorted (mem_reciprocalRankFusion.mpr ⟨ranking, hranking, hitem⟩)
      (mem_reciprocalRankFusion.mpr ⟨ranking, hranking, hother⟩) ?_
    exact score_lt ⟨ranking, hranking, hother⟩ hbefore
  · intro rankings' hperm
    have hnodup' : ∀ ranking ∈ rankings', ranking.Nodup :=
      fun ranking hranking => hnodup ranking (hperm.mem_iff.mpr hranking)
    have hitems : (reciprocalRankFusion k rankings').Perm (reciprocalRankFusion k rankings) := by
      rw [List.perm_ext_iff_of_nodup (nodup_reciprocalRankFusion _) (nodup_reciprocalRankFusion _)]
      intro item
      simp only [mem_reciprocalRankFusion, hperm.mem_iff]
    have hsorted' := sorted_reciprocalRankFusion (k := k) hnodup'
    simp only [← score_perm hperm] at hsorted'
    refine ⟨hitems, (hitems.map _).eq_of_pairwise (fun a b _ _ hab hba => le_antisymm hba hab)
      (List.pairwise_map.mpr hsorted') (List.pairwise_map.mpr hsorted)⟩

/-- Three rankings, of which two hold `b` and both hold `a` before it. -/
theorem rank_fusion_respects_agreement_three :
    reciprocalRankFusion 60 [["c", "a", "b"], ["a", "b"], ["c"]] = ["c", "a", "b"] ∧
      FusesRankings 60 [["c", "a", "b"], ["a", "b"], ["c"]]
        (reciprocalRankFusion 60 [["c", "a", "b"], ["a", "b"], ["c"]]) :=
  ⟨by decide +kernel, (rank_fusion_respects_agreement 60 _ (by decide)).1⟩

end Fusion

end Retrieval
end PrReviewer
