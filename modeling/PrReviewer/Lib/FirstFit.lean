import Mathlib.Data.List.Perm.Basic
import Mathlib.Tactic

/-!
# First-fit matching

Two lists, and a test that says which elements of the one may be paired with which of the
other.  The elements of the first list take, in order, the first partner that is left.

What first fit gives is a matching to which no pair can be added, and each such matching is
what it gives for some order of the two lists.  So the number of pairs does not depend on
the order just where all these matchings have one size.
-/

namespace PrReviewer
namespace Lib

universe u v

structure Matching (α : Type u) (β : Type v) where
  pairs : List (α × β)
  leftOver : List α
  rightOver : List β

section FirstFit

variable {α : Type u} {β : Type v}

/-- The first element that passes, and the list without it. -/
def takeFirst (p : β → Bool) : List β → Option (β × List β)
  | [] => none
  | y :: ys =>
      if p y = true then some (y, ys)
      else (takeFirst p ys).map fun taken => (taken.1, y :: taken.2)

def firstFit (p : α → β → Bool) : List α → List β → Matching α β
  | [], ys => ⟨[], [], ys⟩
  | x :: xs, ys =>
      match takeFirst (p x) ys with
      | none =>
          let later := firstFit p xs ys
          { later with leftOver := x :: later.leftOver }
      | some (y, rest) =>
          let later := firstFit p xs rest
          { later with pairs := (x, y) :: later.pairs }

/-- Both lists are split into pairs and what is left over, and no pair can be added. -/
structure Matching.Maximal
    (p : α → β → Bool) (xs : List α) (ys : List β) (m : Matching α β) : Prop where
  left_perm : (m.pairs.map Prod.fst ++ m.leftOver).Perm xs
  right_perm : (m.pairs.map Prod.snd ++ m.rightOver).Perm ys
  paired : ∀ pair ∈ m.pairs, p pair.1 pair.2 = true
  maximal : ∀ x ∈ m.leftOver, ∀ y ∈ m.rightOver, p x y = false

theorem takeFirst_eq_none_iff
    {p : β → Bool} {ys : List β} :
    takeFirst p ys = none ↔ ∀ y ∈ ys, p y = false := by
  induction ys with
  | nil => simp [takeFirst]
  | cons y ys ih =>
      cases hy : p y with
      | true => simp [takeFirst, hy]
      | false => simp [takeFirst, hy, ih]

theorem takeFirst_perm
    {p : β → Bool} {ys rest : List β} {y : β} (htake : takeFirst p ys = some (y, rest)) :
    p y = true ∧ (y :: rest).Perm ys := by
  induction ys generalizing rest with
  | nil => simp [takeFirst] at htake
  | cons first ys ih =>
      rw [takeFirst] at htake
      split at htake
      · rename_i hfirst
        cases htake
        exact ⟨hfirst, List.Perm.refl _⟩
      · obtain ⟨⟨other, others⟩, hothers, heq⟩ := Option.map_eq_some_iff.mp htake
        cases heq
        obtain ⟨hpass, hperm⟩ := ih hothers
        exact ⟨hpass, (List.Perm.swap first other others).trans (hperm.cons first)⟩

variable (p : α → β → Bool)

theorem firstFit_maximal (xs : List α) (ys : List β) :
    (firstFit p xs ys).Maximal p xs ys := by
  induction xs generalizing ys with
  | nil => exact ⟨List.Perm.refl _, List.Perm.refl _, by simp [firstFit], by simp [firstFit]⟩
  | cons x xs ih =>
      cases htake : takeFirst (p x) ys with
      | none =>
          have hnone := takeFirst_eq_none_iff.mp htake
          obtain ⟨hleft, hright, hpaired, hmaximal⟩ := ih ys
          simp only [firstFit, htake]
          refine ⟨List.perm_middle.trans (hleft.cons x), hright, hpaired, ?_⟩
          intro other hother y hy
          rcases List.mem_cons.mp hother with rfl | hlater
          · -- What is left on the right was there when the element looked for a partner.
            exact hnone y (hright.subset (List.mem_append_right _ hy))
          · exact hmaximal other hlater y hy
      | some taken =>
          obtain ⟨y, rest⟩ := taken
          obtain ⟨hpass, hperm⟩ := takeFirst_perm htake
          obtain ⟨hleft, hright, hpaired, hmaximal⟩ := ih rest
          simp only [firstFit, htake]
          refine ⟨hleft.cons x, (hright.cons y).trans hperm, ?_, hmaximal⟩
          intro pair hpair
          rcases List.mem_cons.mp hpair with rfl | hlater
          · exact hpass
          · exact hpaired pair hlater

theorem firstFit_of_unmatched
    {xs : List α} {ys : List β} (hnone : ∀ x ∈ xs, ∀ y ∈ ys, p x y = false) :
    firstFit p xs ys = ⟨[], xs, ys⟩ := by
  induction xs with
  | nil => rfl
  | cons x xs ih =>
      have htake : takeFirst (p x) ys = none :=
        takeFirst_eq_none_iff.mpr (hnone x List.mem_cons_self)
      have hlater := ih fun other hother => hnone other (List.mem_cons_of_mem x hother)
      simp only [firstFit, htake, hlater]

/-- With its pairs in front, a maximal matching is what first fit gives. -/
theorem firstFit_of_maximal
    {xs : List α} {ys : List β} (m : Matching α β) (hm : m.Maximal p xs ys) :
    firstFit p (m.pairs.map Prod.fst ++ m.leftOver) (m.pairs.map Prod.snd ++ m.rightOver) =
      m := by
  obtain ⟨pairs, leftOver, rightOver⟩ := m
  have hpaired := hm.paired
  have hmaximal := hm.maximal
  clear hm
  simp only at hpaired hmaximal ⊢
  induction pairs with
  | nil => exact firstFit_of_unmatched p hmaximal
  | cons pair pairs ih =>
      have hfirst : p pair.1 pair.2 = true := hpaired pair List.mem_cons_self
      have hlater := ih fun other hother => hpaired other (List.mem_cons_of_mem pair hother)
      simp only [List.map_cons, List.cons_append, firstFit, takeFirst, if_pos hfirst, hlater]

/-- The number of pairs depends on the order just where maximal matchings differ in size. -/
theorem firstFit_length_invariant_iff (xs : List α) (ys : List β) :
    (∀ xs' ys', xs'.Perm xs → ys'.Perm ys →
        (firstFit p xs' ys').pairs.length = (firstFit p xs ys).pairs.length) ↔
      ∀ m m' : Matching α β, m.Maximal p xs ys → m'.Maximal p xs ys →
        m.pairs.length = m'.pairs.length := by
  constructor
  · intro hinvariant
    have hsize : ∀ m : Matching α β, m.Maximal p xs ys →
        m.pairs.length = (firstFit p xs ys).pairs.length := by
      intro m hm
      have h := hinvariant _ _ hm.left_perm hm.right_perm
      rwa [firstFit_of_maximal p m hm] at h
    intro m m' hm hm'
    rw [hsize m hm, hsize m' hm']
  · intro hsizes xs' ys' hxs hys
    obtain ⟨hleft, hright, hpaired, hmaximal⟩ := firstFit_maximal p xs' ys'
    exact hsizes _ _ ⟨hleft.trans hxs, hright.trans hys, hpaired, hmaximal⟩
      (firstFit_maximal p xs ys)

theorem Matching.Maximal.leftOver_length
    {p : α → β → Bool} {xs : List α} {ys : List β} {m : Matching α β}
    (hm : m.Maximal p xs ys) :
    m.pairs.length + m.leftOver.length = xs.length := by
  simpa using hm.left_perm.length_eq

theorem Matching.Maximal.rightOver_length
    {p : α → β → Bool} {xs : List α} {ys : List β} {m : Matching α β}
    (hm : m.Maximal p xs ys) :
    m.pairs.length + m.rightOver.length = ys.length := by
  simpa using hm.right_perm.length_eq

end FirstFit

end Lib
end PrReviewer
