import Mathlib.Data.List.Basic
import Mathlib.Tactic
import PrReviewer.Lib.Python

/-!
# Redactors of JSON values

A redactor replaces the values under some keys of a JSON value, at every depth, and leaves
everything else as it is.  What it returns does not depend on the values it replaces.
-/

namespace PrReviewer
namespace Lib

/-! ## The values inside a value -/

section Paths

/-- A step into a dict or a list. -/
inductive PathStep where
  | key (key : PyStr)
  | index (i : Nat)
deriving DecidableEq, Repr

/-- The value at the end of a path. -/
def PyJson.at? : List PathStep → PyJson → Option PyJson
  | [], value => some value
  | .key key :: path, .dict items => (items.lookup key).bind (PyJson.at? path)
  | .index i :: path, .list items => items[i]?.bind (PyJson.at? path)
  | _ :: _, _ => none

/-- The keys on a path. -/
def pathKeys : List PathStep → List PyStr
  | [] => []
  | .key key :: path => key :: pathKeys path
  | .index _ :: path => pathKeys path

/-- Dicts with the same keys, lists of one length, or the same value of another type. -/
def PyJson.SameShape : PyJson → PyJson → Prop
  | .dict items, .dict items' => items.map Prod.fst = items'.map Prod.fst
  | .list items, .list items' => items.length = items'.length
  | value, value' => value = value'

end Paths

/-! ## Values that differ under some keys -/

section Difference

variable (hidden : PyStr → Bool)
variable (related : PyJson → PyJson → Prop)

mutual

/-- The values are the same but for related values under hidden keys. -/
def DifferUnder : PyJson → PyJson → Prop
  | .dict items, .dict items' => FieldsDifferUnder items items'
  | .list items, .list items' => ItemsDifferUnder items items'
  | value, value' => value = value'

def ItemsDifferUnder : List PyJson → List PyJson → Prop
  | [], [] => True
  | item :: rest, item' :: rest' => DifferUnder item item' ∧ ItemsDifferUnder rest rest'
  | _, _ => False

def FieldsDifferUnder : List (PyStr × PyJson) → List (PyStr × PyJson) → Prop
  | [], [] => True
  | (key, value) :: rest, (key', value') :: rest' =>
      key = key' ∧
      (if hidden key = true then related value value' else DifferUnder value value') ∧
      FieldsDifferUnder rest rest'
  | _, _ => False

end

end Difference

/-! ## Redactors -/

/-- What a redactor puts in the place of the values under a key, if it replaces them. -/
abbrev Masks := PyStr → Option (PyJson → PyJson)

/-- The mask of a value, or what it is redacted to where it has none. -/
def maskedOr (mask : Option (PyJson → PyJson)) (value redacted : PyJson) : PyJson :=
  match mask with
  | some mask => mask value
  | none => redacted

section Redactors

variable (masks : Masks)

mutual

/-- The value with the values under masked keys replaced. -/
def redactWith : PyJson → PyJson
  | .dict items => .dict (redactFields items)
  | .list items => .list (redactEach items)
  | value => value

def redactEach : List PyJson → List PyJson
  | [] => []
  | item :: rest => redactWith item :: redactEach rest

def redactFields : List (PyStr × PyJson) → List (PyStr × PyJson)
  | [] => []
  | (key, value) :: rest =>
      (key, maskedOr (masks key) value (redactWith value)) :: redactFields rest

end

variable {masks}

theorem redactEach_eq_map
    (items : List PyJson) :
    redactEach masks items = items.map (redactWith masks) := by
  induction items with
  | nil => rw [redactEach, List.map_nil]
  | cons item rest ih => rw [redactEach, ih, List.map_cons]

theorem redactFields_eq_map
    (items : List (PyStr × PyJson)) :
    redactFields masks items =
      items.map (fun field =>
        (field.1, maskedOr (masks field.1) field.2 (redactWith masks field.2))) := by
  induction items with
  | nil => rw [redactFields, List.map_nil]
  | cons field rest ih => rw [redactFields, ih, List.map_cons]

theorem lookup_redactFields
    (key : PyStr) (items : List (PyStr × PyJson)) :
    (redactFields masks items).lookup key =
      (items.lookup key).map (fun value =>
        maskedOr (masks key) value (redactWith masks value)) := by
  rw [redactFields_eq_map]
  induction items with
  | nil => rfl
  | cons field rest ih =>
      rw [List.map_cons, List.lookup_cons, List.lookup_cons]
      cases h : key == field.1 with
      | true => simp [eq_of_beq h]
      | false => exact ih

/-- A redactor keeps the shape of a value. -/
theorem sameShape_redactWith
    (value : PyJson) :
    value.SameShape (redactWith masks value) := by
  cases value with
  | dict items => simp [redactWith, PyJson.SameShape, redactFields_eq_map]
  | list items => simp [redactWith, PyJson.SameShape, redactEach_eq_map]
  | _ => simp [redactWith, PyJson.SameShape]

/-- Behind keys that are not masked stands the redacted value. -/
theorem at?_redactWith
    {path : List PathStep} {value : PyJson}
    (h : ∀ key ∈ pathKeys path, masks key = none) :
    (redactWith masks value).at? path = (value.at? path).map (redactWith masks) := by
  induction path generalizing value with
  | nil => rfl
  | cons step path ih =>
      cases step with
      | key key =>
          obtain ⟨hkey, hrest⟩ := List.forall_mem_cons.mp h
          cases value with
          | dict items =>
              simp only [redactWith, PyJson.at?, lookup_redactFields]
              cases items.lookup key with
              | none => rfl
              | some inner => simpa [maskedOr, hkey] using ih hrest
          | _ => simp only [redactWith, PyJson.at?, Option.map_none]
      | index i =>
          cases value with
          | list items =>
              simp only [redactWith, PyJson.at?, redactEach_eq_map, List.getElem?_map]
              cases items[i]? with
              | none => rfl
              | some inner => simpa using ih h
          | _ => simp only [redactWith, PyJson.at?, Option.map_none]

end Redactors

/-! ## What a redactor reveals -/

section Revealed

variable {hidden : PyStr → Bool}
variable {related : PyJson → PyJson → Prop}
variable {masks : Masks}

/-- Same values, dicts and lists are always related. -/
structure RelatesShapes (related : PyJson → PyJson → Prop) : Prop where
  refl : ∀ value, related value value
  dict : ∀ items items', related (.dict items) (.dict items')
  list : ∀ items items', related (.list items) (.list items')

theorem related_of_differUnder
    (hshapes : RelatesShapes related)
    {value value' : PyJson}
    (h : DifferUnder hidden related value value') :
    related value value' := by
  cases value with
  | dict items =>
      cases value' with
      | dict items' => exact hshapes.dict items items'
      | _ => simp [DifferUnder] at h
  | list items =>
      cases value' with
      | list items' => exact hshapes.list items items'
      | _ => simp [DifferUnder] at h
  | _ =>
      simp only [DifferUnder] at h
      exact h ▸ hshapes.refl _

mutual

theorem differUnder_refl
    (hrefl : ∀ value, related value value) :
    ∀ value : PyJson, DifferUnder hidden related value value
  | .null => rfl
  | .bool _ => rfl
  | .int _ => rfl
  | .float _ => rfl
  | .str _ => rfl
  | .list items => itemsDifferUnder_refl hrefl items
  | .dict items => fieldsDifferUnder_refl hrefl items

theorem itemsDifferUnder_refl
    (hrefl : ∀ value, related value value) :
    ∀ items : List PyJson, ItemsDifferUnder hidden related items items
  | [] => trivial
  | item :: rest => ⟨differUnder_refl hrefl item, itemsDifferUnder_refl hrefl rest⟩

theorem fieldsDifferUnder_refl
    (hrefl : ∀ value, related value value) :
    ∀ items : List (PyStr × PyJson), FieldsDifferUnder hidden related items items
  | [] => trivial
  | (_, value) :: rest => by
      refine ⟨rfl, ?_, fieldsDifferUnder_refl hrefl rest⟩
      split
      · exact hrefl value
      · exact differUnder_refl hrefl value

end

/-- No mask tells related values apart. -/
def MasksBlur (masks : Masks) (related : PyJson → PyJson → Prop) : Prop :=
  ∀ key mask, masks key = some mask → ∀ value value', related value value' →
    mask value = mask value'

mutual

/-- Values that differ under hidden keys alone are redacted to the same, where each is masked. -/
theorem redactWith_eq_of_differUnder
    (hshapes : RelatesShapes related)
    (hblur : MasksBlur masks related)
    (hmasked : ∀ key, hidden key = true → masks key ≠ none) :
    ∀ value value' : PyJson, DifferUnder hidden related value value' →
      redactWith masks value = redactWith masks value'
  | .dict items, .dict items', h => by
      rw [redactWith, redactWith, redactFields_eq_of_differUnder hshapes hblur hmasked items items' h]
  | .list items, .list items', h => by
      rw [redactWith, redactWith, redactEach_eq_of_differUnder hshapes hblur hmasked items items' h]
  | .null, _, h => by simp only [DifferUnder] at h; rw [h]
  | .bool _, _, h => by simp only [DifferUnder] at h; rw [h]
  | .int _, _, h => by simp only [DifferUnder] at h; rw [h]
  | .float _, _, h => by simp only [DifferUnder] at h; rw [h]
  | .str _, _, h => by simp only [DifferUnder] at h; rw [h]

theorem redactEach_eq_of_differUnder
    (hshapes : RelatesShapes related)
    (hblur : MasksBlur masks related)
    (hmasked : ∀ key, hidden key = true → masks key ≠ none) :
    ∀ items items' : List PyJson, ItemsDifferUnder hidden related items items' →
      redactEach masks items = redactEach masks items'
  | [], [], _ => rfl
  | item :: rest, item' :: rest', ⟨hitem, hrest⟩ => by
      rw [redactEach, redactEach,
        redactWith_eq_of_differUnder hshapes hblur hmasked item item' hitem,
        redactEach_eq_of_differUnder hshapes hblur hmasked rest rest' hrest]

theorem redactFields_eq_of_differUnder
    (hshapes : RelatesShapes related)
    (hblur : MasksBlur masks related)
    (hmasked : ∀ key, hidden key = true → masks key ≠ none) :
    ∀ items items' : List (PyStr × PyJson), FieldsDifferUnder hidden related items items' →
      redactFields masks items = redactFields masks items'
  | [], [], _ => rfl
  | (key, value) :: rest, (_, value') :: rest', ⟨rfl, hvalue, hrest⟩ => by
      have hsame : maskedOr (masks key) value (redactWith masks value) =
          maskedOr (masks key) value' (redactWith masks value') := by
        cases hmask : masks key with
        | some mask =>
            refine hblur key mask hmask value value' ?_
            split at hvalue
            · exact hvalue
            · exact related_of_differUnder hshapes hvalue
        | none =>
            rw [if_neg (fun hkey => hmasked key hkey hmask)] at hvalue
            exact redactWith_eq_of_differUnder hshapes hblur hmasked value value' hvalue
      rw [redactFields, redactFields, hsame,
        redactFields_eq_of_differUnder hshapes hblur hmasked rest rest' hrest]

end

end Revealed

/-! ## Redactors that hide -/

section Hiding

variable (hidden : PyStr → Bool)
variable (masks : Masks)

mutual

/-- Every hidden key is masked, or stands below a key that is masked. -/
def HiddenMasked : PyJson → Prop
  | .dict items => FieldsMasked items
  | .list items => ItemsMasked items
  | _ => True

def ItemsMasked : List PyJson → Prop
  | [] => True
  | item :: rest => HiddenMasked item ∧ ItemsMasked rest

def FieldsMasked : List (PyStr × PyJson) → Prop
  | [] => True
  | (key, value) :: rest =>
      (masks key = none → hidden key = false ∧ HiddenMasked value) ∧ FieldsMasked rest

end

/-- No value under a hidden key has an influence on what the redactor returns. -/
def HidesUnder (value : PyJson) : Prop :=
  ∀ value', DifferUnder hidden (fun _ _ => True) value value' →
    redactWith masks value = redactWith masks value'

variable {hidden : PyStr → Bool}
variable {masks : Masks}

/-- Another value that is no dict and no list. -/
def PyJson.other : PyJson → PyJson
  | .null => .bool true
  | _ => .null

theorem redactWith_other_ne
    (value : PyJson) :
    redactWith masks value.other ≠ redactWith masks value := by
  cases value <;> simp [PyJson.other, redactWith]

mutual

theorem eq_of_hiddenMasked
    (hconstant : MasksBlur masks (fun _ _ => True)) :
    ∀ value value' : PyJson, HiddenMasked hidden masks value →
      DifferUnder hidden (fun _ _ => True) value value' →
      redactWith masks value = redactWith masks value'
  | .dict items, .dict items', hmasked, h => by
      rw [redactWith, redactWith, fields_eq_of_masked hconstant items items' hmasked h]
  | .list items, .list items', hmasked, h => by
      rw [redactWith, redactWith, each_eq_of_masked hconstant items items' hmasked h]
  | .null, _, _, h => by simp only [DifferUnder] at h; rw [h]
  | .bool _, _, _, h => by simp only [DifferUnder] at h; rw [h]
  | .int _, _, _, h => by simp only [DifferUnder] at h; rw [h]
  | .float _, _, _, h => by simp only [DifferUnder] at h; rw [h]
  | .str _, _, _, h => by simp only [DifferUnder] at h; rw [h]

theorem each_eq_of_masked
    (hconstant : MasksBlur masks (fun _ _ => True)) :
    ∀ items items' : List PyJson, ItemsMasked hidden masks items →
      ItemsDifferUnder hidden (fun _ _ => True) items items' →
      redactEach masks items = redactEach masks items'
  | [], [], _, _ => rfl
  | item :: rest, item' :: rest', ⟨hmasked, hmaskeds⟩, ⟨hitem, hrest⟩ => by
      rw [redactEach, redactEach, eq_of_hiddenMasked hconstant item item' hmasked hitem,
        each_eq_of_masked hconstant rest rest' hmaskeds hrest]

theorem fields_eq_of_masked
    (hconstant : MasksBlur masks (fun _ _ => True)) :
    ∀ items items' : List (PyStr × PyJson), FieldsMasked hidden masks items →
      FieldsDifferUnder hidden (fun _ _ => True) items items' →
      redactFields masks items = redactFields masks items'
  | [], [], _, _ => rfl
  | (key, value) :: rest, (_, value') :: rest', ⟨hmasked, hmaskeds⟩, ⟨rfl, hvalue, hrest⟩ => by
      have hsame : maskedOr (masks key) value (redactWith masks value) =
          maskedOr (masks key) value' (redactWith masks value') := by
        cases hmask : masks key with
        | some mask => exact hconstant key mask hmask value value' trivial
        | none =>
            obtain ⟨hkey, hinner⟩ := hmasked hmask
            rw [hkey, if_neg Bool.false_ne_true] at hvalue
            exact eq_of_hiddenMasked hconstant value value' hinner hvalue
      rw [redactFields, redactFields, hsame,
        fields_eq_of_masked hconstant rest rest' hmaskeds hrest]

end

mutual

theorem hiddenMasked_of_hides :
    ∀ value : PyJson, HidesUnder hidden masks value → HiddenMasked hidden masks value
  | .dict items, h => fieldsMasked_of_hides items (by
      intro items' hdiffer
      simpa [redactWith] using h (.dict items') hdiffer)
  | .list items, h => itemsMasked_of_hides items (by
      intro items' hdiffer
      simpa [redactWith] using h (.list items') hdiffer)
  | .null, _ => trivial
  | .bool _, _ => trivial
  | .int _, _ => trivial
  | .float _, _ => trivial
  | .str _, _ => trivial

theorem itemsMasked_of_hides :
    ∀ items : List PyJson,
      (∀ items', ItemsDifferUnder hidden (fun _ _ => True) items items' →
        redactEach masks items = redactEach masks items') →
      ItemsMasked hidden masks items
  | [], _ => trivial
  | item :: rest, h => by
      refine ⟨hiddenMasked_of_hides item ?_, itemsMasked_of_hides rest ?_⟩
      · intro item' hitem
        have heq := h (item' :: rest) ⟨hitem, itemsDifferUnder_refl (fun _ => trivial) rest⟩
        rw [redactEach, redactEach] at heq
        exact (List.cons.inj heq).1
      · intro rest' hrest
        have heq := h (item :: rest') ⟨differUnder_refl (fun _ => trivial) item, hrest⟩
        rw [redactEach, redactEach] at heq
        exact (List.cons.inj heq).2

theorem fieldsMasked_of_hides :
    ∀ items : List (PyStr × PyJson),
      (∀ items', FieldsDifferUnder hidden (fun _ _ => True) items items' →
        redactFields masks items = redactFields masks items') →
      FieldsMasked hidden masks items
  | [], _ => trivial
  | (key, value) :: rest, h => by
      -- A value that is not masked can be told from the one that is put in its place.
      have hhere : ∀ value', (if hidden key = true then True else
          DifferUnder hidden (fun _ _ => True) value value') → masks key = none →
            redactWith masks value = redactWith masks value' := by
        intro value' hvalue hmask
        have heq := h ((key, value') :: rest)
          ⟨rfl, hvalue, fieldsDifferUnder_refl (fun _ => trivial) rest⟩
        rw [redactFields, redactFields, hmask] at heq
        exact (Prod.mk.inj (List.cons.inj heq).1).2
      refine ⟨fun hmask => ?_, fieldsMasked_of_hides rest ?_⟩
      · have hkey : hidden key = false := by
          by_contra hkey
          rw [Bool.not_eq_false] at hkey
          exact redactWith_other_ne value
            (hhere value.other (by rw [if_pos hkey]; trivial) hmask).symm
        refine ⟨hkey, hiddenMasked_of_hides value ?_⟩
        intro value' hvalue
        exact hhere value' (by rwa [hkey, if_neg Bool.false_ne_true]) hmask
      · intro rest' hrest
        have hself : if hidden key = true then True else
            DifferUnder hidden (fun _ _ => True) value value := by
          split
          · trivial
          · exact differUnder_refl (fun _ => trivial) value
        have heq := h ((key, value) :: rest') ⟨rfl, hself, hrest⟩
        rw [redactFields, redactFields] at heq
        exact (List.cons.inj heq).2

end

/-- A redactor with constant masks hides exactly what it masks. -/
theorem hidesUnder_iff
    (hconstant : MasksBlur masks (fun _ _ => True)) (value : PyJson) :
    HidesUnder hidden masks value ↔ HiddenMasked hidden masks value :=
  ⟨hiddenMasked_of_hides value,
    fun hmasked value' h => eq_of_hiddenMasked hconstant value value' hmasked h⟩

end Hiding

end Lib
end PrReviewer
