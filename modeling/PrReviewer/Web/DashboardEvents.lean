import Mathlib.Data.List.Basic
import Mathlib.Data.List.Infix
import Mathlib.Tactic
import PrReviewer.Lib.Text
import PrReviewer.Observability.KeyWords
import PrReviewer.Observability.MaskedValues

/-!
# The events of a job in the dashboard

web/dashboard_api.py: `job_events` shows the events of a job through `_redact`, a redactor
with markers of its own.  It looks for them anywhere in a key, where the redactor of the
trace looks at whole words, and knows four of the seven markers of the trace.
-/

namespace PrReviewer
namespace Web

open Lib
open Observability

section Events

variable (lower : PyStr → PyStr)

/-- The markers of `_redact`. -/
def eventMarkers : List PyStr :=
  ["token", "key", "secret", "password"].map PyStr.ofString

/-- `any(marker in str(key).lower() for marker in …)`. -/
def isMarked (key : PyStr) : Bool :=
  eventMarkers.any (fun marker => (lower key).contains marker)

mutual

/-- `_redact`. -/
def redact : PyJson → PyJson
  | .dict items => .dict (redactEntries items)
  | .list items => .list (redactList items)
  | value => value

/-- The list of a `_redact`. -/
def redactList : List PyJson → List PyJson
  | [] => []
  | item :: rest => redact item :: redactList rest

/-- The dict of a `_redact`. -/
def redactEntries : List (PyStr × PyJson) → List (PyStr × PyJson)
  | [] => []
  | (key, inner) :: rest =>
      if isMarked lower key = true then
        (key, .str (.ofString "[redacted]")) :: redactEntries rest
      else
        (key, redact inner) :: redactEntries rest

end

/-- `job_events` of a visible job, with the events the store lists. -/
def jobEvents (events : List (List (PyStr × PyJson))) : PyJson :=
  .dict [(.ofString "items", .list (events.map (fun item => redact lower (.dict item))))]

/-! ## The redactor -/

/-- What `_redact` puts under a key. -/
def eventMasks : Masks := fun key =>
  if isMarked lower key = true then some (fun _ => .str (.ofString "[redacted]")) else none

mutual

theorem redact_eq :
    ∀ value : PyJson, redact lower value = redactWith (eventMasks lower) value
  | .dict items => by rw [redact, redactWith, redactEntries_eq items]
  | .list items => by rw [redact, redactWith, redactList_eq items]
  | .null => by rw [redact, redactWith] <;> simp
  | .bool _ => by rw [redact, redactWith] <;> simp
  | .int _ => by rw [redact, redactWith] <;> simp
  | .float _ => by rw [redact, redactWith] <;> simp
  | .str _ => by rw [redact, redactWith] <;> simp

theorem redactList_eq :
    ∀ items : List PyJson, redactList lower items = redactEach (eventMasks lower) items
  | [] => by rw [redactList, redactEach]
  | item :: rest => by rw [redactList, redactEach, redact_eq item, redactList_eq rest]

theorem redactEntries_eq :
    ∀ items : List (PyStr × PyJson),
      redactEntries lower items = redactFields (eventMasks lower) items
  | [] => by rw [redactEntries, redactFields]
  | (key, value) :: rest => by
      rw [redactEntries, redactFields, redact_eq value, redactEntries_eq rest, eventMasks]
      split <;> rfl

end

theorem masksBlur_eventMasks :
    MasksBlur (eventMasks lower) (fun _ _ => True) := by
  intro key mask hmask value value' _
  rw [eventMasks] at hmask
  split at hmask
  · cases hmask
    rfl
  · cases hmask

/-- No value the trace masks as a secret has an influence on the event that is shown. -/
def HidesSecrets (payload : List (PyStr × PyJson)) : Prop :=
  ∀ payload', DifferUnder looksLikeSecretKey (fun _ _ => True) (.dict payload) (.dict payload') →
    redact lower (.dict payload) = redact lower (.dict payload')

/--
A key that the trace flags is marked, unless it stands below a marked key.
-/
def SecretsMarked (payload : List (PyStr × PyJson)) : Prop :=
  HiddenMasked looksLikeSecretKey (eventMasks lower) (.dict payload)

/-- What differs from an event only under its keys is an event. -/
theorem hidesSecrets_iff_hidesUnder
    (payload : List (PyStr × PyJson)) :
    HidesSecrets lower payload ↔
      HidesUnder looksLikeSecretKey (eventMasks lower) (.dict payload) := by
  constructor
  · intro h value' hdiffer
    cases value' with
    | dict payload' =>
        rw [← redact_eq, ← redact_eq]
        exact h payload' hdiffer
    | _ => simp [DifferUnder] at hdiffer
  · intro h payload' hdiffer
    rw [redact_eq, redact_eq]
    exact h (.dict payload') hdiffer

/-- The dashboard hides what the trace hides exactly where its markers find the keys. -/
theorem dashboard_hides_secrets_iff
    (payload : List (PyStr × PyJson)) :
    HidesSecrets lower payload ↔ SecretsMarked lower payload := by
  rw [SecretsMarked, ← hidesUnder_iff (masksBlur_eventMasks lower)]
  exact hidesSecrets_iff_hidesUnder lower payload

/-- Two listings whose events differ in what the trace masks as a secret. -/
abbrev SameBesideSecrets : List (List (PyStr × PyJson)) → List (List (PyStr × PyJson)) → Prop :=
  List.Forall₂ (fun payload payload' =>
    DifferUnder looksLikeSecretKey (fun _ _ => True) (.dict payload) (.dict payload'))

theorem sameBesideSecrets_refl
    (events : List (List (PyStr × PyJson))) :
    SameBesideSecrets events events :=
  List.forall₂_same.mpr (fun payload _ => differUnder_refl (fun _ => trivial) (.dict payload))

/-- The page hides the secrets exactly when each of its events hides its own. -/
theorem jobEvents_hides_secrets_iff
    (events : List (List (PyStr × PyJson))) :
    (∀ events', SameBesideSecrets events events' →
      jobEvents lower events = jobEvents lower events') ↔
      ∀ payload ∈ events, SecretsMarked lower payload := by
  have hitems : ∀ events events' : List (List (PyStr × PyJson)),
      jobEvents lower events = jobEvents lower events' ↔
        events.map (fun item => redact lower (.dict item)) =
          events'.map (fun item => redact lower (.dict item)) := by
    intro events events'
    simp [jobEvents]
  simp only [hitems, SecretsMarked, ← hidesUnder_iff (masksBlur_eventMasks lower),
    ← hidesSecrets_iff_hidesUnder]
  induction events with
  | nil =>
      simp only [List.not_mem_nil, false_implies, implies_true, iff_true]
      rintro events' ⟨⟩
      rfl
  | cons payload rest ih =>
      rw [List.forall_mem_cons]
      constructor
      · intro h
        refine ⟨?_, ih.mp ?_⟩
        · intro payload' hdiffer
          have hsame := h (payload' :: rest) (.cons hdiffer (sameBesideSecrets_refl rest))
          exact (List.cons.inj hsame).1
        · intro rest' hdiffer
          have hsame := h (payload :: rest')
            (.cons (differUnder_refl (fun _ => trivial) (.dict payload)) hdiffer)
          exact (List.cons.inj hsame).2
      · rintro ⟨hpayload, hrest⟩ events' hdiffer
        cases hdiffer with
        | cons hhead htail =>
            rw [List.map_cons, List.map_cons, hpayload _ hhead, ih.mpr hrest _ htail]

end Events

/-- `lower` changes the letters of ASCII one by one, wherever they stand. -/
def LowersLetters (lower : PyStr → PyStr) : Prop :=
  ∀ before word after, (∀ c ∈ word, isCapital c = true ∨ isSmall c = true) →
    (lowerAscii word).points <:+: (lower ⟨before ++ word ++ after⟩).points

/-- A key one of whose words is a marker of `_redact` is marked. -/
theorem isMarked_of_word
    {lower : PyStr → PyStr} {key word : PyStr}
    (hlower : LowersLetters lower)
    (hmarker : word ∈ eventMarkers)
    (hword : word ∈ keyWords key) :
    isMarked lower key = true := by
  obtain ⟨part, ⟨before, after, hpart⟩, rfl⟩ := infix_of_mem_keyWords hword
  have hletters : ∀ c ∈ part, isCapital c = true ∨ isSmall c = true := by
    have hall : eventMarkers.all (fun marker => marker.points.all isSmall) = true := by
      decide +kernel
    have hsmall := List.all_eq_true.mp (List.all_eq_true.mp hall _ hmarker)
    intro c hc
    cases hcapital : isCapital c with
    | true => exact .inl rfl
    | false =>
        have hmem : c ∈ (lowerAscii part).points :=
          List.mem_map.mpr ⟨c, hc, by rw [hcapital, if_neg Bool.false_ne_true]⟩
        exact .inr (hsmall c hmem)
  have hinfix := hlower before part after hletters
  refine List.any_eq_true.mpr ⟨lowerAscii part, hmarker, ?_⟩
  rw [PyStr.contains, infixAt_iff, show key = ⟨before ++ part ++ after⟩ by rw [hpart]]
  exact hinfix

/-- An event with an `authorization` header. -/
def authorizationEvent : List (PyStr × PyJson) :=
  [(.ofString "authorization", .str (.ofString "Bearer gho_1a2b3c"))]

/-- The trace masks the header, and the dashboard shows it. -/
theorem authorization_shown :
    redactPayload lowerKey .debug authorizationEvent =
        [(.ofString "authorization", .str (.ofString "<redacted:secret:17 chars>"))] ∧
      redact lowerKey (.dict authorizationEvent) = .dict authorizationEvent ∧
      ¬ HidesSecrets lowerKey authorizationEvent := by
  have hmarked : isMarked lowerKey (.ofString "authorization") = false := by decide +kernel
  have hsecret : looksLikeSecretKey (.ofString "authorization") = true := by decide +kernel
  refine ⟨?_, ?_, ?_⟩
  · simp [authorizationEvent, redactPayload, maskOr, hsecret, mask]
    decide +kernel
  · simp [authorizationEvent, redact, redactEntries, hmarked]
  · intro h
    have hsame := h [(.ofString "authorization", .null)]
      ⟨rfl, by rw [hsecret, if_pos rfl]; trivial, trivial⟩
    simp [authorizationEvent, redact, redactEntries, hmarked] at hsame


end Web
end PrReviewer
