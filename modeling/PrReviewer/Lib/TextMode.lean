import Mathlib.Tactic
import PrReviewer.Lib.Text

/-!
# Files in text mode

A text written to a file is encoded as UTF-8 and its newlines stay; a text that is read has its
line ends translated to newlines.  A file name is encoded so that a lone surrogate may stand for
a byte that is no character.
-/

namespace PrReviewer
namespace Lib

/-- The newline a text is read with for a carriage return. -/
def asNewline (c : CodePoint) : CodePoint :=
  if c = carriageReturn then newline else c

/-- What reading in text mode makes of a text: a carriage return, with the newline behind it
where there is one, becomes a newline. -/
def universalNewlines (text : PyStr) : PyStr where
  points := (joinCrLf text.points).map asNewline

theorem asNewline_ne
    (c : CodePoint) :
    asNewline c ≠ carriageReturn := by
  rw [asNewline]
  split
  · decide
  · assumption

/-- A text is read as it was written exactly where no carriage return stands in it. -/
theorem universalNewlines_eq_self_iff
    {text : PyStr} :
    universalNewlines text = text ↔ carriageReturn ∉ text.points := by
  constructor
  · intro h hmem
    rw [← h] at hmem
    obtain ⟨c, _, hc⟩ := List.mem_map.mp hmem
    exact asNewline_ne c hc
  · intro hnone
    have hquiet : joinCrLf (text.points ++ []) = text.points ++ joinCrLf [] :=
      joinCrLf_quiet hnone
    have hjoin : joinCrLf text.points = text.points := by
      simpa [joinCrLf] using hquiet
    have hmap : text.points.map asNewline = text.points.map id :=
      List.map_congr_left (fun c hc => if_neg (by
        rintro rfl
        exact hnone hc))
    rw [List.map_id] at hmap
    exact congrArg PyStr.mk ((congrArg (List.map asNewline) hjoin).trans hmap)

/-- The bytes of a code point in a file name. -/
def fsencodePoint (c : CodePoint) : Option (List UInt8) :=
  if 0xdc80 ≤ c.val ∧ c.val ≤ 0xdcff then
    some [UInt8.ofNat (c.val - 0xdc00)]
  else if c.val.isValidChar then
    some (String.utf8EncodeChar (Char.ofNat c.val))
  else
    none

/-- `os.fsencode(name)`. -/
def fsencode (name : PyStr) : Option (List UInt8) :=
  (name.points.mapM fsencodePoint).map List.flatten

end Lib
end PrReviewer
