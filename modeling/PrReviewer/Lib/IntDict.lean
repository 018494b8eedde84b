import Mathlib.Tactic
import PrReviewer.Lib.Dict
import PrReviewer.Lib.JsonRoundTrip

/-!
# Dictionaries with integer keys

A dict whose keys are integers, and its way through JSON, where the keys of an object are texts.
-/

namespace PrReviewer
namespace Lib

universe u v w

/-- A dict with integer keys. -/
abbrev IntDict (β : Type u) :=
  {items : List (Int × β) // (items.map Prod.fst).Nodup}

section Reading

variable {α : Type u} {β : Type v} {ε : Type w}

/-- `d[key] = value`. -/
def IntDict.set (dict : IntDict β) (key : Int) (value : β) : IntDict β :=
  ⟨dictSet dict.val key value, nodup_dictSet dict.property key value⟩

/-- `{key: value for … in items}`, where an item gives a key and a value. -/
def IntDict.ofItems (read : α → Except ε (Int × β)) (items : List α) : Except ε (IntDict β) :=
  items.foldlM (fun (dict : IntDict β) item => do
    let entry ← read item
    return dict.set entry.1 entry.2) ⟨[], List.nodup_nil⟩

/-- Items that give entries with distinct keys give the dict of the entries. -/
theorem IntDict.ofItems_eq
    {γ : Type*} {read : α → Except ε (Int × β)} {item : γ → α} {entry : γ → Int × β}
    {source : List γ} (hnodup : ((source.map entry).map Prod.fst).Nodup)
    (hread : ∀ x ∈ source, read (item x) = .ok (entry x)) :
    IntDict.ofItems read (source.map item) = .ok ⟨source.map entry, hnodup⟩ := by
  have hfold : ∀ (rest : List γ) (front : IntDict β)
      (hnodup : ((front.val ++ rest.map entry).map Prod.fst).Nodup),
      (∀ x ∈ rest, read (item x) = .ok (entry x)) →
      (rest.map item).foldlM (fun (dict : IntDict β) item => do
        let entry ← read item
        return dict.set entry.1 entry.2) front = Except.ok ⟨front.val ++ rest.map entry, hnodup⟩ := by
    intro rest
    induction rest with
    | nil =>
        intro front hnodup _
        simp [pure, Except.pure]
    | cons x rest ih =>
        intro front hnodup hrest
        rw [List.forall_mem_cons] at hrest
        have hnew : (entry x).1 ∉ front.val.map Prod.fst := by
          rw [List.map_append, List.nodup_append] at hnodup
          exact fun hmem => hnodup.2.2 _ hmem _ (by simp) rfl
        have hset : front.set (entry x).1 (entry x).2 = ⟨front.val ++ [entry x], by
            rw [← dictSet_of_not_mem hnew]
            exact nodup_dictSet front.property _ _⟩ :=
          Subtype.ext (dictSet_of_not_mem hnew (entry x).2)
        rw [List.map_cons, List.foldlM_cons, hrest.1]
        change (rest.map item).foldlM _ (front.set (entry x).1 (entry x).2) = _
        rw [hset]
        have hnodup' : ((front.val ++ [entry x] ++ rest.map entry).map Prod.fst).Nodup := by
          rw [List.append_assoc]
          exact hnodup
        rw [ih _ hnodup' hrest.2]
        simp [List.append_assoc]
  exact hfold source ⟨[], List.nodup_nil⟩ hnodup hread

end Reading

/-! ## Keys as texts -/

/-- `{str(key): value for key, value in items}` of values that may raise. -/
def textKeys {β : Type} (write : β → Except PyException PyJson) (items : List (Int × β)) :
    Except PyException (List (PyStr × PyJson)) :=
  items.mapM (fun item => do
    let key ← intText item.1
    let value ← write item.2
    return (key, value))

section Objects

variable {style : JsonStyle} {floats : FloatText}

end Objects

end Lib
end PrReviewer
