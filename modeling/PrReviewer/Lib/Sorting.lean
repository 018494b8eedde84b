import Mathlib.Data.List.Lex
import Mathlib.Data.List.Sort
import Mathlib.Data.Prod.Lex
import Mathlib.Data.Rat.Defs
import Mathlib.Algebra.Order.Field.Rat
import Mathlib.Tactic
import PrReviewer.Lib.Python

/-!
# Sorting by a key

`sorted(items, key=key)` where the keys are linearly ordered, and the comparison of
floats, which are not: `nan` is neither less than nor equal to any float.
-/

namespace PrReviewer
namespace Lib

/-- Lists are compared by their first elements that differ. -/
theorem cons_le_cons_iff
    {α : Type} [LinearOrder α]
    {a b : α} {l l' : List α} :
    a :: l ≤ b :: l' ↔ a < b ∨ a = b ∧ l ≤ l' := by
  have hlt : a :: l < b :: l' ↔ a < b ∨ a = b ∧ l < l' := List.cons_lt_cons_iff
  rw [le_iff_lt_or_eq, le_iff_lt_or_eq, hlt, List.cons.injEq]
  tauto

section Keys

variable {α κ : Type} [LinearOrder κ]
variable (key : α → κ)

/-- The elements in the order of their keys; the sort is stable. -/
def sortOn (items : List α) : List α :=
  items.insertionSort (fun a b => key a ≤ key b)

instance total_key : Std.Total (fun a b : α => key a ≤ key b) :=
  ⟨fun a b => le_total (key a) (key b)⟩

instance trans_key : IsTrans α (fun a b : α => key a ≤ key b) :=
  ⟨fun _ _ _ => le_trans⟩

theorem perm_sortOn
    (items : List α) :
    (sortOn key items).Perm items :=
  List.perm_insertionSort _ items

theorem pairwise_sortOn
    (items : List α) :
    (sortOn key items).Pairwise (fun a b => key a ≤ key b) :=
  List.pairwise_insertionSort _ items

variable {key}

/-- A list that is sorted already. -/
theorem sortOn_eq_self
    {items : List α}
    (h : items.Pairwise (fun a b => key a ≤ key b)) :
    sortOn key items = items :=
  h.insertionSort_eq

/-- Where the keys tell the elements apart, their order does not matter. -/
theorem sortOn_eq_of_perm
    {items items' : List α}
    (hperm : items.Perm items')
    (hkeys : ∀ a ∈ items, ∀ b ∈ items, key a = key b → a = b) :
    sortOn key items = sortOn key items' := by
  have hsorted := (perm_sortOn key items).trans
    (hperm.trans (perm_sortOn key items').symm)
  refine hsorted.eq_of_pairwise ?_ (pairwise_sortOn key items) (pairwise_sortOn key items')
  intro a b ha hb hab hba
  have hmem := (perm_sortOn key items).mem_iff.mp ha
  have hmem' := hperm.mem_iff.mpr ((perm_sortOn key items').mem_iff.mp hb)
  exact hkeys a hmem b hmem' (le_antisymm hab hba)

/-- The keys in order do not depend on the order of the elements. -/
theorem map_sortOn_of_perm
    {items items' : List α}
    (hperm : items.Perm items') :
    (sortOn key items).map key = (sortOn key items').map key := by
  have hsorted := (perm_sortOn key items).trans
    (hperm.trans (perm_sortOn key items').symm)
  refine (hsorted.map key).eq_of_pairwise (fun a b _ _ => le_antisymm) ?_ ?_
  · exact List.pairwise_map.mpr (pairwise_sortOn key items)
  · exact List.pairwise_map.mpr (pairwise_sortOn key items')

/-- A sort commutes with a function that keeps the keys. -/
theorem map_sortOn
    {β : Type} {g : α → β} {key' : β → κ}
    (hkey : ∀ a, key' (g a) = key a) (items : List α) :
    (sortOn key items).map g = sortOn key' (items.map g) := by
  refine List.map_insertionSort (r := fun a b => key a ≤ key b) (s := fun a b => key' a ≤ key' b)
    g items ?_
  intro a _ b _
  rw [hkey, hkey]

/-- Elements of one key stay in their order. -/
theorem filter_sortOn
    {p : α → Bool} {items : List α}
    (hkey : ∀ a b, p a = true → p b = true → key a = key b) :
    (sortOn key items).filter p = items.filter p := by
  have hties : (items.filter p).Pairwise (fun a b => key a ≤ key b) :=
    List.pairwise_of_forall_mem_list (fun a ha b hb =>
      (hkey a b (List.mem_filter.mp ha).2 (List.mem_filter.mp hb).2).le)
  have hsublist := (List.sublist_insertionSort hties List.filter_sublist).filter p
  rw [List.filter_filter] at hsublist
  simp only [Bool.and_self] at hsublist
  refine (hsublist.eq_of_length ?_).symm
  exact ((perm_sortOn key items).symm.filter _).length_eq

end Keys

section Results

variable {α κ ε : Type} [LinearOrder κ]

/-- `sorted(items, key=key)` where the key of an item may raise. -/
def sortByKey (key : α → Except ε κ) (items : List α) : Except ε (List α) := do
  let keyed ← items.mapM (fun a => do
    let k ← key a
    return (k, a))
  return (sortOn Prod.fst keyed).map Prod.snd

theorem sortByKey_eq
    {key : α → Except ε κ} {g : α → κ} {items : List α}
    (h : ∀ a ∈ items, key a = .ok (g a)) :
    sortByKey key items = .ok (sortOn g items) := by
  have hkeyed : items.mapM (fun a => do
      let k ← key a
      return (k, a)) = .ok (items.map (fun a => (g a, a))) := by
    refine mapM_eq_ok (fun a ha => ?_)
    rw [h a ha]
    rfl
  have hsort : sortOn Prod.fst (items.map (fun a => (g a, a))) =
      (sortOn g items).map (fun a => (g a, a)) := by
    refine (List.map_insertionSort (r := fun a b => g a ≤ g b)
      (s := fun a b => a.1 ≤ b.1) (fun a => (g a, a)) items ?_).symm
    exact fun a _ b _ => Iff.rfl
  rw [sortByKey, hkeyed, ok_bind, hsort, List.map_map]
  exact congrArg Except.ok (List.map_id _)

end Results

section Texts

theorem PyStr.points_injective :
    Function.Injective PyStr.points := by
  rintro ⟨_⟩ ⟨_⟩ rfl
  rfl

/-- Texts are compared by their code points. -/
instance linearOrderPyStr : LinearOrder PyStr where
  le s t := s.points ≤ t.points
  lt s t := s.points < t.points
  le_refl _ := le_refl _
  le_trans _ _ _ := le_trans
  lt_iff_le_not_ge _ _ := lt_iff_le_not_ge
  le_antisymm _ _ hst hts := PyStr.points_injective (le_antisymm hst hts)
  le_total _ _ := le_total _ _
  toDecidableLE s t := inferInstanceAs (Decidable (s.points ≤ t.points))
  toDecidableLT s t := inferInstanceAs (Decidable (s.points < t.points))
  toDecidableEq := inferInstance

end Texts

section Floats

/-- The place of a float among the floats; `nan` has none. -/
def PyFloat.rank : PyFloat → Option (Int ×ₗ Rat)
  | .finite mantissa exponent => some (toLex (0, (mantissa : Rat) * 2 ^ exponent))
  | .infinity negative => some (toLex (if negative then -1 else 1, 0))
  | .nan => none

/-- `x < y`. -/
def PyFloat.less (x y : PyFloat) : Bool :=
  match x.rank, y.rank with
  | some a, some b => decide (a < b)
  | _, _ => false

/-- `x == y`. -/
def PyFloat.equals (x y : PyFloat) : Bool :=
  match x.rank, y.rank with
  | some a, some b => decide (a = b)
  | _, _ => false

end Floats

end Lib
end PrReviewer
