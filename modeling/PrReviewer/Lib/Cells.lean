import Mathlib.Algebra.BigOperators.Group.List.Basic
import Mathlib.Order.Basic
import Mathlib.Tactic

/-!
# Cells between edges

Increasing edges cut the range from the first to the last one into cells.  A cell holds its
lower edge, and its upper edge only where it is the last one.
-/

namespace PrReviewer
namespace Lib

universe u v

section Cells

variable {α : Type u} [LinearOrder α]

/-- The pairs of neighbouring edges. -/
def cells : List α → List (α × α)
  | lower :: upper :: rest => (lower, upper) :: cells (upper :: rest)
  | _ => []

/-- The cell holds the value, where `last` is the last edge. -/
def InCell (last : α) (cell : α × α) (x : α) : Prop :=
  cell.1 ≤ x ∧ if cell.2 = last then x ≤ cell.2 else x < cell.2

instance InCell.decidable (last : α) (cell : α × α) (x : α) : Decidable (InCell last cell x) :=
  inferInstanceAs (Decidable (_ ∧ _))

variable {last x : α}

theorem InCell.bounds
    {cell : α × α} (h : InCell last cell x) :
    cell.1 ≤ x ∧ x ≤ cell.2 := by
  obtain ⟨hlower, hupper⟩ := h
  split at hupper
  · exact ⟨hlower, hupper⟩
  · exact ⟨hlower, hupper.le⟩

/-- The cells lie behind the first edge. -/
theorem le_of_mem_cells
    {first : α} {rest : List α} (hedges : (first :: rest).Pairwise (· < ·)) :
    ∀ cell ∈ cells (first :: rest), first ≤ cell.1 ∧ cell.1 < cell.2 := by
  induction rest generalizing first with
  | nil => nofun
  | cons upper rest ih =>
      obtain ⟨hfirst, hrest⟩ := List.pairwise_cons.mp hedges
      have hlt := hfirst upper (List.mem_cons_self ..)
      refine List.forall_mem_cons.mpr ⟨⟨le_refl first, hlt⟩, fun cell hcell => ?_⟩
      obtain ⟨hle, hcell⟩ := ih hrest cell hcell
      exact ⟨hlt.le.trans hle, hcell⟩

/-- The last edge comes after the edges before it. -/
theorem lt_getLast
    {first : α} {rest : List α} (hedges : (first :: rest).Pairwise (· < ·)) (hne : rest ≠ []) :
    first < (first :: rest).getLast (List.cons_ne_nil _ _) := by
  rw [List.getLast_cons hne]
  exact (List.pairwise_cons.mp hedges).1 _ (List.getLast_mem hne)

/-- Exactly one cell holds a value between the first and the last edge. -/
theorem count_cells
    {first : α} {rest : List α} (hne : rest ≠ []) (hedges : (first :: rest).Pairwise (· < ·))
    (hlast : (first :: rest).getLast (List.cons_ne_nil _ _) = last)
    (hlower : first ≤ x) (hupper : x ≤ last) :
    (cells (first :: rest)).countP (fun cell => InCell last cell x) = 1 := by
  induction rest generalizing first with
  | nil => exact absurd rfl hne
  | cons upper rest ih =>
      obtain ⟨hfirst, hrest⟩ := List.pairwise_cons.mp hedges
      rw [cells, List.countP_cons]
      by_cases hrestne : rest = []
      · subst hrestne
        obtain rfl : upper = last := hlast
        simp [cells, InCell, hlower, hupper]
      · have hend : (upper :: rest).getLast (List.cons_ne_nil _ _) = last := by
          rwa [List.getLast_cons (List.cons_ne_nil _ _)] at hlast
        have hinner : upper ≠ last := (hend ▸ lt_getLast hrest hrestne).ne
        rcases lt_or_ge x upper with hbelow | habove
        · have hzero : (cells (upper :: rest)).countP (fun cell => InCell last cell x) = 0 := by
            rw [List.countP_eq_zero]
            intro cell hcell
            obtain ⟨hle, _⟩ := le_of_mem_cells hrest cell hcell
            simpa using fun hin : InCell last cell x =>
              absurd (hle.trans hin.1) (not_le.mpr hbelow)
          rw [hzero]
          simp [InCell, hinner, hlower, hbelow]
        · have hout : ¬ InCell last (first, upper) x := by
            rintro ⟨_, h⟩
            rw [if_neg hinner] at h
            exact absurd h (not_lt.mpr habove)
          simp [hout, ih hrestne hrest hend habove]

end Cells

section Counting

variable {α : Type u} {β : Type v}

theorem sum_map_ite
    (values : List β) (p : β → Bool) :
    (values.map (fun value => if p value then 1 else 0)).sum = values.countP p := by
  induction values with
  | nil => rfl
  | cons value values ih =>
      rw [List.map_cons, List.sum_cons, List.countP_cons, ih, Nat.add_comm]

/-- Counting by the one list and counting by the other give the same. -/
theorem sum_countP
    (cells : List α) (values : List β) (p : α → β → Bool) :
    (cells.map (fun cell => values.countP (p cell))).sum =
      (values.map (fun value => cells.countP (fun cell => p cell value))).sum := by
  induction values with
  | nil => simp
  | cons value values ih =>
      simp only [List.countP_cons, List.map_cons, List.sum_cons, ← ih]
      rw [List.sum_map_add, sum_map_ite, Nat.add_comm]

end Counting

end Lib
end PrReviewer
