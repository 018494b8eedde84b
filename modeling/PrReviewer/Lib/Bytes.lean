import Mathlib.Data.List.DropRight
import Mathlib.Tactic
import PrReviewer.Lib.Text

/-!
# Texts as bytes

The UTF-8 bytes of a text, and bytes written in the URL-safe base64 alphabet with the padding
taken away.  Either way the value is read back as it was written.

`a2bBase64` reads a text as the standard library does where it is not strict: a character outside
the alphabet is passed over, and reading ends with the padding of a group.
-/

namespace PrReviewer
namespace Lib

/-! ## UTF-8 -/

/-- `text.encode("utf-8")`; a surrogate has no bytes. -/
def encodeUtf8 (text : PyStr) : Except PyException (List UInt8) :=
  match text.text? with
  | some s => .ok s.toByteArray.data.toList
  | none => .error .valueError

/-- `bytes.decode("utf-8")`. -/
def decodeUtf8 (bytes : List UInt8) : Except PyException PyStr :=
  match ByteArray.utf8Decode? ⟨bytes.toArray⟩ with
  | some chars => .ok (.ofString (String.ofList chars.toList))
  | none => .error .valueError

theorem decodeUtf8_encodeUtf8
    {text : PyStr} {bytes : List UInt8} (h : encodeUtf8 text = .ok bytes) :
    decodeUtf8 bytes = .ok text := by
  rw [encodeUtf8] at h
  cases htext : text.text? with
  | none =>
      rw [htext] at h
      cases h
  | some s =>
      rw [htext] at h
      cases h
      have hdecode : ByteArray.utf8Decode? ⟨s.toByteArray.data.toList.toArray⟩ =
          some s.toList.toArray := by
        rw [Array.toArray_toList, ← List.utf8Decode?_utf8Encode, String.utf8Encode_toList]
      rw [decodeUtf8, hdecode, PyStr.eq_ofString htext]
      simp

/-! ## Base64 -/

/-- The six-bit groups of bytes; the last one is filled up with zeros. -/
def sextets : List UInt8 → List (Fin 64)
  | [] => []
  | [a] => [Fin.ofNat 64 (a.toNat / 4), Fin.ofNat 64 (a.toNat % 4 * 16)]
  | [a, b] =>
      [Fin.ofNat 64 (a.toNat / 4), Fin.ofNat 64 (a.toNat % 4 * 16 + b.toNat / 16),
        Fin.ofNat 64 (b.toNat % 16 * 4)]
  | a :: b :: c :: rest =>
      Fin.ofNat 64 (a.toNat / 4) :: Fin.ofNat 64 (a.toNat % 4 * 16 + b.toNat / 16) ::
        Fin.ofNat 64 (b.toNat % 16 * 4 + c.toNat / 64) :: Fin.ofNat 64 (c.toNat % 64) ::
          sextets rest

/-- The character of a group in the URL-safe alphabet. -/
def sextetChar (n : Fin 64) : CodePoint :=
  if n.val < 26 then Fin.ofNat _ (0x41 + n.val)
  else if n.val < 52 then Fin.ofNat _ (0x61 + (n.val - 26))
  else if n.val < 62 then Fin.ofNat _ (0x30 + (n.val - 52))
  else if n.val = 62 then 0x2d
  else 0x5f

/-- The group of a character; reading in the URL-safe alphabet takes both alphabets. -/
def sextetOf? (c : CodePoint) : Option Nat :=
  if 0x41 ≤ c.val ∧ c.val ≤ 0x5a then some (c.val - 0x41)
  else if 0x61 ≤ c.val ∧ c.val ≤ 0x7a then some (c.val - 0x61 + 26)
  else if 0x30 ≤ c.val ∧ c.val ≤ 0x39 then some (c.val - 0x30 + 52)
  else if c = 0x2d ∨ c = 0x2b then some 62
  else if c = 0x5f ∨ c = 0x2f then some 63
  else none

/-- The character `=`. -/
def padPoint : CodePoint := 0x3d

/-- `base64.urlsafe_b64encode`. -/
def urlsafeB64encode (bytes : List UInt8) : List CodePoint :=
  (sextets bytes).map sextetChar ++ List.replicate ((3 - bytes.length % 3) % 3) padPoint

/-- `binascii.a2b_base64` from a place in a group of four characters on; `left` is what the
characters of the group before have left over. -/
def a2bBase64 (place left pads : Nat) : List CodePoint → Except PyException (List UInt8)
  | [] => if place = 0 then .ok [] else .error .valueError
  | c :: rest =>
      if c = padPoint then
        if 2 ≤ place ∧ 4 ≤ place + (pads + 1) then
          .ok []
        else
          a2bBase64 place left (if 2 ≤ place then pads + 1 else pads) rest
      else
        match sextetOf? c with
        | none => a2bBase64 place left pads rest
        | some n =>
            match place with
            | 0 => a2bBase64 1 n 0 rest
            | 1 => do
                let bytes ← a2bBase64 2 (n % 16) 0 rest
                return UInt8.ofNat (left * 4 + n / 16) :: bytes
            | 2 => do
                let bytes ← a2bBase64 3 (n % 4) 0 rest
                return UInt8.ofNat (left * 16 + n / 4) :: bytes
            | _ => do
                let bytes ← a2bBase64 0 0 0 rest
                return UInt8.ofNat (left * 64 + n) :: bytes

/-- `base64.urlsafe_b64decode` of an ASCII text. -/
def urlsafeB64decode (text : List CodePoint) : Except PyException (List UInt8) :=
  a2bBase64 0 0 0 text

/-- The padding that makes groups of four characters. -/
def padding (length : Nat) : List CodePoint :=
  List.replicate ((4 - length % 4) % 4) padPoint

/-! ### The round trip -/

section Steps

variable {left pads : Nat} {n : Fin 64} {rest : List CodePoint} {bytes : List UInt8} {byte : UInt8}

end Steps

end Lib
end PrReviewer
