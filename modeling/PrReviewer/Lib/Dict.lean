import Mathlib.Algebra.BigOperators.Group.List.Basic
import Mathlib.Data.List.Nodup
import Mathlib.Tactic
import PrReviewer.Lib.Table

/-!
# Dictionaries

A Python dict as the list of its items in the order of insertion.  A key that is set again
keeps its place.
-/

namespace PrReviewer
namespace Lib

universe u v

section Dict

variable {κ : Type u} {β : Type v} [DecidableEq κ]

/-- `d[key] = value`. -/
def dictSet : List (κ × β) → κ → β → List (κ × β)
  | [], key, value => [(key, value)]
  | item :: rest, key, value =>
      if item.1 = key then (key, value) :: rest else item :: dictSet rest key value

theorem lookup_cons_eq
    (item : κ × β) (rest : List (κ × β)) (key : κ) :
    (item :: rest).lookup key = if key = item.1 then some item.2 else rest.lookup key := by
  rw [List.lookup_cons]
  by_cases hkey : key = item.1
  · simp [hkey]
  · simp [hkey, beq_eq_false_iff_ne.mpr hkey]

@[simp] theorem lookup_dictSet
    (items : List (κ × β)) (key other : κ) (value : β) :
    (dictSet items key value).lookup other =
      if other = key then some value else items.lookup other := by
  induction items with
  | nil => rw [dictSet, lookup_cons_eq]
  | cons item rest ih =>
      rw [dictSet]
      by_cases hitem : item.1 = key
      · rw [if_pos hitem, lookup_cons_eq, lookup_cons_eq, hitem]
        split
        · rfl
        · rfl
      · rw [if_neg hitem, lookup_cons_eq, lookup_cons_eq, ih]
        by_cases hother : other = key
        · have hne : other ≠ item.1 := fun heq => hitem (heq.symm.trans hother)
          rw [if_neg hne, if_pos hother, if_pos hother]
        · rw [if_neg hother, if_neg hother]

/-- A key that is there keeps its place, a new one goes to the end. -/
theorem keys_dictSet
    (items : List (κ × β)) (key : κ) (value : β) :
    (dictSet items key value).map Prod.fst =
      if key ∈ items.map Prod.fst then items.map Prod.fst else items.map Prod.fst ++ [key] := by
  induction items with
  | nil => rfl
  | cons item rest ih =>
      rw [dictSet]
      by_cases hitem : item.1 = key
      · simp [hitem]
      · have hne : key ≠ item.1 := fun heq => hitem heq.symm
        simp only [if_neg hitem, List.map_cons, ih, List.mem_cons, hne, false_or]
        split
        · rfl
        · rfl

theorem mem_keys_dictSet
    {items : List (κ × β)} {key other : κ} {value : β} :
    other ∈ (dictSet items key value).map Prod.fst ↔
      other = key ∨ other ∈ items.map Prod.fst := by
  rw [keys_dictSet]
  split
  · next hkey =>
      constructor
      · exact .inr
      · rintro (rfl | h)
        · exact hkey
        · exact h
  · rw [List.mem_append, List.mem_singleton, or_comm]

theorem nodup_dictSet
    {items : List (κ × β)} (h : (items.map Prod.fst).Nodup) (key : κ) (value : β) :
    ((dictSet items key value).map Prod.fst).Nodup := by
  rw [keys_dictSet]
  split
  · exact h
  · next hkey => exact List.nodup_append.mpr ⟨h, List.nodup_singleton key, by
      rintro a ha b hb rfl
      exact hkey (List.mem_singleton.mp hb ▸ ha)⟩

/-- A new key goes to the end. -/
theorem dictSet_of_not_mem
    {items : List (κ × β)} {key : κ} (h : key ∉ items.map Prod.fst) (value : β) :
    dictSet items key value = items ++ [(key, value)] := by
  induction items with
  | nil => rfl
  | cons item rest ih =>
      rw [List.map_cons, List.mem_cons, not_or] at h
      rw [dictSet, if_neg (fun heq => h.1 heq.symm), ih h.2, List.cons_append]

/-- A key that is there has its value changed in place. -/
theorem dictSet_of_mem
    {items : List (κ × β)} {key : κ} (hnodup : (items.map Prod.fst).Nodup)
    (h : key ∈ items.map Prod.fst) (value : β) :
    dictSet items key value =
      items.map (fun item => if item.1 = key then (key, value) else item) := by
  induction items with
  | nil => cases h
  | cons item rest ih =>
      rw [List.map_cons, List.nodup_cons] at hnodup
      rw [dictSet, List.map_cons]
      by_cases hitem : item.1 = key
      · rw [if_pos hitem, if_pos hitem]
        congr 1
        have hrest : rest.map (fun item => if item.1 = key then (key, value) else item) =
            rest.map id := by
          refine List.map_congr_left (fun other hother => if_neg (fun heq => hnodup.1 ?_))
          rw [hitem, ← heq]
          exact List.mem_map_of_mem hother
        rw [hrest, List.map_id]
      · have hmem : key ∈ rest.map Prod.fst := by
          rcases List.mem_cons.mp h with heq | hmem
          · exact absurd heq.symm hitem
          · exact hmem
        rw [if_neg hitem, if_neg hitem, ih hnodup.2 hmem]

end Dict

section Tally

variable {κ : Type u} {α β : Type v} [DecidableEq κ] [AddCommMonoid β]

/-- `d[key] = d.get(key, 0) + value`. -/
def dictAdd (items : List (κ × β)) (key : κ) (value : β) : List (κ × β) :=
  dictSet items key ((items.lookup key).getD 0 + value)

/-- What a run of additions leaves under a key. -/
theorem lookup_foldl_dictAdd
    (key : α → κ) (value : α → β) (entries : List α) (items : List (κ × β)) (other : κ) :
    ((entries.foldl (fun items entry => dictAdd items (key entry) (value entry)) items).lookup
        other).getD 0 =
      (items.lookup other).getD 0 +
        ((entries.filter (fun entry => key entry = other)).map value).sum := by
  induction entries generalizing items with
  | nil => simp
  | cons entry entries ih =>
      rw [List.foldl_cons, ih, dictAdd, lookup_dictSet]
      by_cases hkey : key entry = other
      · rw [if_pos hkey.symm, List.filter_cons_of_pos (by simpa using hkey), List.map_cons,
          List.sum_cons, Option.getD_some, hkey, add_assoc]
      · rw [if_neg (fun h => hkey h.symm), List.filter_cons_of_neg (by simpa using hkey)]

theorem mem_keys_foldl_dictAdd
    (key : α → κ) (value : α → β) (entries : List α) (items : List (κ × β)) (other : κ) :
    other ∈ (entries.foldl (fun items entry => dictAdd items (key entry) (value entry))
        items).map Prod.fst ↔
      other ∈ items.map Prod.fst ∨ other ∈ entries.map key := by
  induction entries generalizing items with
  | nil => simp
  | cons entry entries ih =>
      rw [List.foldl_cons, ih, dictAdd, mem_keys_dictSet, List.map_cons, List.mem_cons]
      tauto

theorem nodup_foldl_dictAdd
    (key : α → κ) (value : α → β) (entries : List α) {items : List (κ × β)}
    (h : (items.map Prod.fst).Nodup) :
    ((entries.foldl (fun items entry => dictAdd items (key entry) (value entry)) items).map
      Prod.fst).Nodup := by
  induction entries generalizing items with
  | nil => exact h
  | cons entry entries ih => exact ih (nodup_dictSet h _ _)

end Tally

end Lib
end PrReviewer
