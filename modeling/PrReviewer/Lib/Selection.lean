import Mathlib.Data.List.Induction
import Mathlib.Data.List.Perm.Basic
import Mathlib.Data.List.Sort
import Mathlib.Tactic

/-!
# Selections from a list

Two ways a loop chooses among the elements of a list.  A greedy selection takes every
element whose cost is within what is left of a budget; a selection of distinct elements
takes the first element of every key.
-/

namespace PrReviewer
namespace Lib

/-! ## Within a budget -/

section Greedy

variable {α : Type}
variable (cost : α → Int)

/-- The elements that are taken, one after the other, from what is left. -/
def greedy (left : Int) : List α → List α
  | [] => []
  | a :: rest => if cost a ≤ left then a :: greedy (left - cost a) rest else greedy left rest

/-- What the elements that are taken leave. -/
def leftOver (left : Int) (items : List α) : Int :=
  left - ((greedy cost left items).map cost).sum

variable {cost}

theorem leftOver_cons
    (left : Int) (a : α) (rest : List α) :
    leftOver cost left (a :: rest) =
      if cost a ≤ left then leftOver cost (left - cost a) rest else leftOver cost left rest := by
  unfold leftOver
  rw [greedy]
  split
  · rw [List.map_cons, List.sum_cons]
    omega
  · rfl

end Greedy

/-! ## One element of every key -/

section Distinct

variable {α κ : Type} [DecidableEq κ]
variable (key : α → κ)

/-- The first element of every key, in their order. -/
def distinctBy (items : List α) : List α :=
  items.eraseDupsBy (fun a b => decide (key a = key b))

variable {key}

theorem distinctBy_cons
    (a : α) (rest : List α) :
    distinctBy key (a :: rest) =
      a :: distinctBy key (rest.filter (fun b => decide (key b ≠ key a))) := by
  simp only [distinctBy, List.eraseDupsBy_cons, decide_eq_false_iff_not, ne_eq]

theorem distinctBy_subset
    (items : List α) :
    distinctBy key items ⊆ items := by
  induction hlength : items.length using Nat.strong_induction_on generalizing items with
  | h n ih =>
      cases items with
      | nil => exact List.Subset.refl _
      | cons a rest =>
          have hshorter : (rest.filter (fun b => decide (key b ≠ key a))).length < n := by
            have hle := List.length_filter_le (fun b => decide (key b ≠ key a)) rest
            simp only [List.length_cons] at hlength
            omega
          have hrest := ih _ hshorter _ rfl
          rw [distinctBy_cons]
          exact List.cons_subset_cons a (List.Subset.trans hrest (List.filter_subset_self _))

/-- An element whose key is taken before it changes nothing. -/
theorem distinctBy_append_duplicate
    {items rest : List α} {a b : α}
    (hb : b ∈ items) (hkey : key b = key a) :
    distinctBy key (items ++ a :: rest) = distinctBy key (items ++ rest) := by
  induction hlength : items.length using Nat.strong_induction_on generalizing items rest with
  | h n ih =>
      cases items with
      | nil => cases hb
      | cons first items =>
          rw [List.cons_append, List.cons_append, distinctBy_cons, distinctBy_cons,
            List.filter_append, List.filter_append]
          by_cases hfirst : key a = key first
          · rw [List.filter_cons_of_neg (by simp [hfirst])]
          · rw [List.filter_cons_of_pos (by simp [hfirst])]
            have hin : b ∈ items.filter (fun c => decide (key c ≠ key first)) := by
              rcases List.mem_cons.mp hb with rfl | hb
              · exact absurd hkey.symm hfirst
              · exact List.mem_filter.mpr ⟨hb, by simpa [hkey] using hfirst⟩
            have hshorter : (items.filter (fun c => decide (key c ≠ key first))).length < n := by
              have hle := List.length_filter_le (fun c => decide (key c ≠ key first)) items
              simp only [List.length_cons] at hlength
              omega
            rw [ih _ hshorter hin rfl]

end Distinct

/-! ## The greatest element -/

section Greatest

variable {α κ : Type} [LinearOrder κ]
variable (key : α → κ)

/-- `max(items, key=key)` of a list that is not empty: of several greatest, the first. -/
def maxOn (first : α) (rest : List α) : α :=
  rest.foldl (fun best a => if key best < key a then a else best) first

variable {key}

/-- What stands before the greatest element is less, and what stands behind is no greater. -/
theorem maxOn_spec
    (first : α) (rest : List α) :
    ∃ before after, first :: rest = before ++ maxOn key first rest :: after ∧
      (∀ a ∈ before, key a < key (maxOn key first rest)) ∧
      ∀ a ∈ after, key a ≤ key (maxOn key first rest) := by
  induction rest using List.reverseRecOn with
  | nil => exact ⟨[], [], rfl, by simp, by simp⟩
  | append_singleton rest last ih =>
      obtain ⟨before, after, hsplit, hbefore, hafter⟩ := ih
      have hall : ∀ a ∈ first :: rest, key a ≤ key (maxOn key first rest) := by
        intro a ha
        rw [hsplit] at ha
        rcases List.mem_append.mp ha with ha | ha
        · exact (hbefore a ha).le
        · rcases List.mem_cons.mp ha with rfl | ha
          · exact le_refl _
          · exact hafter a ha
      have hlast : maxOn key first (rest ++ [last]) =
          if key (maxOn key first rest) < key last then last else maxOn key first rest := by
        rw [maxOn, List.foldl_append]
        rfl
      rw [hlast]
      split
      · next hgreater =>
          refine ⟨first :: rest, [], rfl, ?_, by simp⟩
          exact fun a ha => lt_of_le_of_lt (hall a ha) hgreater
      · next hless =>
          refine ⟨before, after ++ [last], ?_, hbefore, ?_⟩
          · rw [← List.cons_append, hsplit, List.append_assoc, List.cons_append]
          · intro a ha
            rcases List.mem_append.mp ha with ha | ha
            · exact hafter a ha
            · rw [List.mem_singleton.mp ha]
              exact not_lt.mp hless

end Greatest

/-! ## Lists with the same keys -/

section SameKeys

variable {α β γ : Type} {key : α → β} {value : α → γ}

theorem map_eq_of_keys
    {items items' : List α}
    (hkeys : items.map key = items'.map key)
    (hvalues : ∀ a ∈ items, ∀ b ∈ items', key a = key b → value a = value b) :
    items.map value = items'.map value := by
  induction items generalizing items' with
  | nil =>
      rw [List.map_nil, eq_comm, List.map_eq_nil_iff] at hkeys
      rw [hkeys]
  | cons a items ih =>
      cases items' with
      | nil => cases hkeys
      | cons b items' =>
          obtain ⟨hkey, hrest⟩ := List.cons.inj hkeys
          rw [List.map_cons, List.map_cons,
            hvalues a (List.mem_cons_self ..) b (List.mem_cons_self ..) hkey,
            ih hrest (fun c hc d hd => hvalues c (List.mem_cons_of_mem a hc) d
              (List.mem_cons_of_mem b hd))]

theorem exists_of_map_eq
    {items items' : List α} {a : α}
    (hkeys : items.map key = items'.map key)
    (hvalues : items.map value = items'.map value)
    (ha : a ∈ items) :
    ∃ b ∈ items', key a = key b ∧ value a = value b := by
  have hpairs : items.map (fun c => (key c, value c)) =
      items'.map (fun c => (key c, value c)) := by
    rw [← List.zip_map', ← List.zip_map', hkeys, hvalues]
  have hmem : (key a, value a) ∈ items'.map (fun c => (key c, value c)) :=
    hpairs ▸ List.mem_map_of_mem ha
  obtain ⟨b, hb, hpair⟩ := List.mem_map.mp hmem
  obtain ⟨hkey, hvalue⟩ := Prod.mk.inj hpair
  exact ⟨b, hb, hkey.symm, hvalue.symm⟩

end SameKeys

/-! ## A dictionary of the elements -/

/-- The last entry of a key is the one in the dictionary; of distinct keys it is the only one. -/
theorem lookup_reverse_map_iff
    {α κ β : Type} [DecidableEq κ]
    {key : α → κ} {value : α → β} {items : List α} {k : κ} {b : β}
    (hdistinct : (items.map key).Nodup) :
    (items.map (fun a => (key a, value a))).reverse.lookup k = some b ↔
      ∃ a ∈ items, key a = k ∧ value a = b := by
  have hfound : ∀ b', (items.map (fun a => (key a, value a))).reverse.lookup k = some b' →
      ∃ a ∈ items, key a = k ∧ value a = b' := by
    intro b' hlookup
    obtain ⟨before, after, hsplit, _⟩ := List.lookup_eq_some_iff.mp hlookup
    have hmem : (k, b') ∈ (items.map (fun a => (key a, value a))).reverse := by simp [hsplit]
    obtain ⟨a, ha, hpair⟩ := List.mem_map.mp (List.mem_reverse.mp hmem)
    exact ⟨a, ha, Prod.mk.inj hpair⟩
  refine ⟨hfound b, ?_⟩
  rintro ⟨a, ha, hkey, rfl⟩
  cases hlookup : (items.map (fun a => (key a, value a))).reverse.lookup k with
  | none =>
      have habsent := List.lookup_eq_none_iff.mp hlookup (key a, value a)
        (List.mem_reverse.mpr (List.mem_map.mpr ⟨a, ha, rfl⟩))
      simp [hkey] at habsent
  | some b' =>
      obtain ⟨other, hother, hotherKey, rfl⟩ := hfound b' hlookup
      rw [List.inj_on_of_nodup_map hdistinct hother ha (hotherKey.trans hkey.symm)]

end Lib
end PrReviewer
