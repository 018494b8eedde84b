import Mathlib.Tactic
import PrReviewer.Lib.Text

/-!
# The redaction of a trace

observability/trace.py: the values under the keys that look like a secret, and at the
level `redacted` those under the keys of review content, are masked at every depth of a
payload.  `str.lower` of a whole key is a parameter; a word of a key is ASCII.
-/

namespace PrReviewer
namespace Observability

open Lib

inductive RedactionLevel where
  | redacted
  | debug
deriving DecidableEq, Repr

/-- `_SECRET_KEY_MARKERS`. -/
def secretKeyMarkers : List PyStr :=
  ["token", "key", "secret", "password", "credential", "authorization", "bearer"].map
    PyStr.ofString

/-- `_SENSITIVE_CONTENT_KEYS`. -/
def sensitiveContentKeys : List PyStr :=
  ["patch", "diff", "source", "sourcetext", "source_text", "content", "code", "rationale",
    "prompt", "output", "rawoutput", "raw_output", "body"].map PyStr.ofString

/-! ## The words of a key -/

section Words

/-- `[A-Z]`. -/
def isCapital (c : CodePoint) : Bool :=
  decide (0x41 ≤ c.val ∧ c.val ≤ 0x5a)

/-- `[a-z]`. -/
def isSmall (c : CodePoint) : Bool :=
  decide (0x61 ≤ c.val ∧ c.val ≤ 0x7a)

/-- `[a-z0-9]`. -/
def isSmallOrDigit (c : CodePoint) : Bool :=
  isSmall c || decide (0x30 ≤ c.val ∧ c.val ≤ 0x39)

/--
A match of `_WORD_PATTERN` at the head of a text, and the text behind it.  A run of capitals
in front of a small letter gives its last one back.
-/
def matchWord : List CodePoint → Option (List CodePoint × List CodePoint)
  | [] => none
  | c :: rest =>
      if isCapital c = true then
        if rest.takeWhile isSmallOrDigit ≠ [] then
          some (c :: rest.takeWhile isSmallOrDigit, rest.dropWhile isSmallOrDigit)
        else
          let capitals := (c :: rest).takeWhile isCapital
          let behind := (c :: rest).dropWhile isCapital
          if behind.head?.any isSmall = true then
            some (capitals.dropLast, (c :: rest).drop (capitals.length - 1))
          else
            some (capitals, behind)
      else if isSmallOrDigit c = true then
        some ((c :: rest).takeWhile isSmallOrDigit, (c :: rest).dropWhile isSmallOrDigit)
      else
        none

/-- `_WORD_PATTERN.findall`, for texts of at most as many characters as there is fuel. -/
def findWords : Nat → List CodePoint → List (List CodePoint)
  | 0, _ => []
  | _ + 1, [] => []
  | fuel + 1, c :: rest =>
      match matchWord (c :: rest) with
      | some (word, behind) => word :: findWords fuel behind
      | none => findWords fuel rest

/-- `lower()` of an ASCII text. -/
def lowerAscii (word : List CodePoint) : PyStr where
  points := word.map (fun c => if isCapital c then c + 0x20 else c)

/-- `_key_words`; an empty part of the key has no words. -/
def keyWords (key : PyStr) : List PyStr :=
  (key.points.splitOnP (fun c => decide (c = pointOf '_' ∨ c = pointOf '-'))).flatMap
    (fun part => (findWords part.length part).map lowerAscii)

/-- `_looks_like_secret_key`. -/
def looksLikeSecretKey (key : PyStr) : Bool :=
  (keyWords key).any (fun word => decide (word ∈ secretKeyMarkers))

end Words

/-! ## The masks -/

section Masks

variable (lower : PyStr → PyStr)
variable (level : RedactionLevel)

/-- `_mask`. -/
def mask (value : PyJson) (category : String) : PyJson :=
  match value with
  | .str s => .str (.ofString ("<redacted:" ++ category ++ ":") ++ decimal s.points.length ++
      .ofString " chars>")
  | _ => .str (.ofString ("<redacted:" ++ category ++ ">"))

/-- The mask of a value under a key, for a value that is redacted otherwise. -/
def maskOr (key : PyStr) (value redacted : PyJson) : PyJson :=
  if looksLikeSecretKey key = true then
    mask value "secret"
  else if level = .redacted ∧ lower key ∈ sensitiveContentKeys then
    mask value "content"
  else
    redacted

mutual

/-- `_redact_value`. -/
def redactValue : PyJson → PyJson
  | .dict items => .dict (redactPayload items)
  | .list items => .list (redactItems items)
  | value => value

/-- The list of a `_redact_value`. -/
def redactItems : List PyJson → List PyJson
  | [] => []
  | item :: rest => redactValue item :: redactItems rest

/-- `_redact_payload`, with the body of `_redact_field` for each value. -/
def redactPayload : List (PyStr × PyJson) → List (PyStr × PyJson)
  | [] => []
  | (key, value) :: rest =>
      (key, maskOr lower level key value (redactValue value)) :: redactPayload rest

end

/-- `_redact_field`. -/
def redactField (key : PyStr) (value : PyJson) : PyJson :=
  maskOr lower level key value (redactValue lower level value)

/-- `_redact_payload` keeps the keys and puts each value through `_redact_field`. -/
theorem redactPayload_eq_map
    (items : List (PyStr × PyJson)) :
    redactPayload lower level items =
      items.map (fun item => (item.1, redactField lower level item.1 item.2)) := by
  induction items with
  | nil => rw [redactPayload, List.map_nil]
  | cons item rest ih => rw [redactPayload, ih, List.map_cons, redactField]

end Masks

end Observability
end PrReviewer
