import Mathlib.Data.List.Basic
import Mathlib.Tactic
import PrReviewer.Lib.JsonPaths
import PrReviewer.Observability.Redaction

/-!
# What a redacted trace depends on

`_redact_payload` is a redactor: the values under the keys it flags are replaced by a mask
that tells a string from another value, and the length of a string.  Nothing else is changed.
-/

namespace PrReviewer
namespace Observability

open Lib

section Instance

variable (lower : PyStr → PyStr)
variable (level : RedactionLevel)

/-- The mask `_redact_field` puts under a key. -/
def traceMasks : Masks := fun key =>
  if looksLikeSecretKey key = true then
    some (fun value => mask value "secret")
  else if level = .redacted ∧ lower key ∈ sensitiveContentKeys then
    some (fun value => mask value "content")
  else
    none

/-- The keys whose values the level hides. -/
def isHidden (key : PyStr) : Bool :=
  looksLikeSecretKey key || (decide (level = .redacted) && decide (lower key ∈ sensitiveContentKeys))

theorem maskOr_eq
    (key : PyStr) (value redacted : PyJson) :
    maskOr lower level key value redacted = maskedOr (traceMasks lower level key) value redacted := by
  rw [maskOr, traceMasks]
  split
  · rfl
  · split <;> rfl

theorem traceMasks_eq_none_iff
    {key : PyStr} :
    traceMasks lower level key = none ↔ isHidden lower level key = false := by
  rw [traceMasks, isHidden]
  by_cases hsecret : looksLikeSecretKey key = true
  · simp [hsecret]
  · by_cases hcontent : level = .redacted ∧ lower key ∈ sensitiveContentKeys
    · simp [hsecret, hcontent]
    · rw [if_neg hsecret, if_neg hcontent]
      simpa [hsecret] using hcontent

mutual

theorem redactValue_eq :
    ∀ value : PyJson, redactValue lower level value = redactWith (traceMasks lower level) value
  | .dict items => by rw [redactValue, redactWith, redactPayload_eq items]
  | .list items => by rw [redactValue, redactWith, redactItems_eq items]
  | .null => by rw [redactValue, redactWith] <;> simp
  | .bool _ => by rw [redactValue, redactWith] <;> simp
  | .int _ => by rw [redactValue, redactWith] <;> simp
  | .float _ => by rw [redactValue, redactWith] <;> simp
  | .str _ => by rw [redactValue, redactWith] <;> simp

theorem redactItems_eq :
    ∀ items : List PyJson, redactItems lower level items = redactEach (traceMasks lower level) items
  | [] => by rw [redactItems, redactEach]
  | item :: rest => by rw [redactItems, redactEach, redactValue_eq item, redactItems_eq rest]

theorem redactPayload_eq :
    ∀ items : List (PyStr × PyJson),
      redactPayload lower level items = redactFields (traceMasks lower level) items
  | [] => by rw [redactPayload, redactFields]
  | (key, value) :: rest => by
      rw [redactPayload, redactFields, maskOr_eq, redactValue_eq value, redactPayload_eq rest]

end

end Instance

/-- Strings of one length, or two values that are no strings. -/
def Exchanged : PyJson → PyJson → Prop
  | .str s, .str t => s.points.length = t.points.length
  | .str _, _ => False
  | _, .str _ => False
  | _, _ => True

theorem mask_eq_of_exchanged
    {value value' : PyJson} (category : String)
    (h : Exchanged value value') :
    mask value category = mask value' category := by
  cases value with
  | str s =>
      cases value' with
      | str t => rw [mask, mask, show s.points.length = t.points.length from h]
      | _ => exact h.elim
  | _ =>
      cases value' with
      | str t => exact h.elim
      | _ => rfl

theorem relatesShapes_exchanged :
    RelatesShapes Exchanged where
  refl value := by cases value <;> simp [Exchanged]
  dict _ _ := trivial
  list _ _ := trivial

theorem masksBlur_traceMasks
    (lower : PyStr → PyStr) (level : RedactionLevel) :
    MasksBlur (traceMasks lower level) Exchanged := by
  intro key mask hmask value value' h
  rw [traceMasks] at hmask
  split at hmask
  · cases hmask
    exact mask_eq_of_exchanged "secret" h
  · split at hmask
    · cases hmask
      exact mask_eq_of_exchanged "content" h
    · cases hmask

/-- Payloads that differ only under keys the level hides have one redaction. -/
theorem redactPayload_eq_of_differUnder
    {lower : PyStr → PyStr} {level : RedactionLevel} {hidden : PyStr → Bool}
    {payload payload' : List (PyStr × PyJson)}
    (hhidden : ∀ key, hidden key = true → isHidden lower level key = true)
    (h : FieldsDifferUnder hidden Exchanged payload payload') :
    redactPayload lower level payload = redactPayload lower level payload' := by
  have hmasked : ∀ key, hidden key = true → traceMasks lower level key ≠ none := by
    intro key hkey hnone
    have hnot := (traceMasks_eq_none_iff lower level).mp hnone
    rw [hhidden key hkey] at hnot
    cases hnot
  rw [redactPayload_eq, redactPayload_eq]
  exact redactFields_eq_of_differUnder relatesShapes_exchanged (masksBlur_traceMasks lower level)
    hmasked payload payload' h

/-- What stands behind keys that are not hidden keeps its shape, or is not changed at all. -/
theorem sameShape_redactPayload
    {lower : PyStr → PyStr} {level : RedactionLevel} {payload : List (PyStr × PyJson)}
    {path : List PathStep}
    (h : ∀ key ∈ pathKeys path, isHidden lower level key = false) :
    Option.Rel PyJson.SameShape ((PyJson.dict payload).at? path)
      ((PyJson.dict (redactPayload lower level payload)).at? path) := by
  have hmasks : ∀ key ∈ pathKeys path, traceMasks lower level key = none :=
    fun key hkey => (traceMasks_eq_none_iff lower level).mpr (h key hkey)
  rw [redactPayload_eq, ← redactWith, at?_redactWith hmasks]
  cases (PyJson.dict payload).at? path with
  | none => exact .none
  | some value => exact .some (sameShape_redactWith value)

/-- What is masked in a trace has no influence on it, and nothing else is changed. -/
theorem trace_redaction_noninterference
    (lower : PyStr → PyStr) (payload payload' : List (PyStr × PyJson)) :
    (DifferUnder looksLikeSecretKey Exchanged (.dict payload) (.dict payload') →
      ∀ level, redactPayload lower level payload = redactPayload lower level payload') ∧
    (DifferUnder (fun key => looksLikeSecretKey key || decide (lower key ∈ sensitiveContentKeys))
        Exchanged (.dict payload) (.dict payload') →
      redactPayload lower .redacted payload = redactPayload lower .redacted payload') ∧
    ∀ level path, (∀ key ∈ pathKeys path, isHidden lower level key = false) →
      Option.Rel PyJson.SameShape ((PyJson.dict payload).at? path)
        ((PyJson.dict (redactPayload lower level payload)).at? path) := by
  refine ⟨?_, ?_, ?_⟩
  · intro h level
    exact redactPayload_eq_of_differUnder (fun key hkey => by simp [isHidden, hkey]) h
  · intro h
    exact redactPayload_eq_of_differUnder (fun key hkey => by simpa [isHidden] using hkey) h
  · intro level path h
    exact sameShape_redactPayload h

/-- `str.lower` of an ASCII key. -/
def lowerKey (key : PyStr) : PyStr :=
  lowerAscii key.points

/-- The payload of a call with a credential in a list of dicts. -/
def callPayload (credential : String) : List (PyStr × PyJson) :=
  [(.ofString "calls", .list [.dict [
    (.ofString "githubToken", .str (.ofString credential)),
    (.ofString "patch", .str (.ofString "+x"))]])]

theorem trace_redaction_noninterference_calls :
    (∀ level, redactPayload lowerKey level (callPayload "ghs_1a") =
      redactPayload lowerKey level (callPayload "ghs_2b")) ∧
    redactPayload lowerKey .redacted (callPayload "ghs_1a") =
      redactPayload lowerKey .redacted (callPayload "ghs_2b") ∧
    Option.Rel PyJson.SameShape
      ((PyJson.dict (callPayload "ghs_1a")).at? [.key (.ofString "calls"), .index 0])
      ((PyJson.dict (redactPayload lowerKey .debug (callPayload "ghs_1a"))).at?
        [.key (.ofString "calls"), .index 0]) := by
  have hcalls : looksLikeSecretKey (.ofString "calls") = false := by decide +kernel
  have htoken : looksLikeSecretKey (.ofString "githubToken") = true := by decide +kernel
  have hpatch : looksLikeSecretKey (.ofString "patch") = false := by decide +kernel
  have hplain : lowerKey (.ofString "calls") ∉ sensitiveContentKeys := by decide +kernel
  have hlength : (PyStr.ofString "ghs_1a").points.length =
      (PyStr.ofString "ghs_2b").points.length := by decide
  obtain ⟨hsecret, hcontent, hkept⟩ :=
    trace_redaction_noninterference lowerKey (callPayload "ghs_1a") (callPayload "ghs_2b")
  refine ⟨hsecret ?_, hcontent ?_, hkept .debug _ ?_⟩
  · simp [callPayload, DifferUnder, FieldsDifferUnder, ItemsDifferUnder, hcalls, htoken, hpatch,
      Exchanged, hlength]
  · simp [callPayload, DifferUnder, FieldsDifferUnder, ItemsDifferUnder, hcalls, htoken, hpatch,
      hplain, Exchanged, hlength]
  · simp [pathKeys, isHidden, hcalls]

end Observability
end PrReviewer
