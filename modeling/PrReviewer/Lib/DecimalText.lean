import Mathlib.Data.List.DropRight
import Mathlib.Data.Rat.Cast.Order
import Mathlib.Tactic
import PrReviewer.Lib.JsonRoundTrip

/-!
# Decimal numbers and their texts

A decimal number that is not negative is a coefficient and a number of places behind the point.
Sums, products and quotients by a power of ten are exact.  A quotient has no more places than it
needs, but not less than the dividend.

The canonical text of a value has no zero at the end of its fraction and no point without one;
a value has one canonical text.  It is what is left of the fixed-point text of a decimal number
when the zeros at its end, and then the point, are taken away.
-/

namespace PrReviewer
namespace Lib

/-- The last decimal digit of a number. -/
def lastDigit (n : Nat) : Char :=
  Nat.digitChar (n % 10)

/-- The last digits of a number, as many as there are places. -/
def padded : Nat → Nat → List Char
  | 0, _ => []
  | places + 1, n => padded places (n / 10) ++ [lastDigit n]

/-- The zeros at the end of a number are dropped, with their places. -/
def dropZeros : Nat → Nat → Nat × Nat
  | 0, n => (0, n)
  | places + 1, n => if n % 10 = 0 then dropZeros places (n / 10) else (places + 1, n)

structure DecimalNumber where
  coefficient : Nat
  places : Nat
deriving DecidableEq, Repr

namespace DecimalNumber

/-- `Decimal(n)`. -/
def ofNat (n : Nat) : DecimalNumber where
  coefficient := n
  places := 0

/-- `a + b`. -/
def add (a b : DecimalNumber) : DecimalNumber where
  coefficient :=
    a.coefficient * 10 ^ (max a.places b.places - a.places) +
      b.coefficient * 10 ^ (max a.places b.places - b.places)
  places := max a.places b.places

/-- `a * b`. -/
def mul (a b : DecimalNumber) : DecimalNumber where
  coefficient := a.coefficient * b.coefficient
  places := a.places + b.places

/-- `a / 10 ** k`, with as few places as it needs from those of `a` on. -/
def overPow10 (a : DecimalNumber) (k : Nat) : DecimalNumber where
  coefficient := (dropZeros k a.coefficient).2
  places := a.places + (dropZeros k a.coefficient).1

/-- `format(a, "f")`. -/
def fixedPoint (a : DecimalNumber) : List Char :=
  if a.places = 0 then
    Nat.toDigits 10 a.coefficient
  else
    Nat.toDigits 10 (a.coefficient / 10 ^ a.places) ++
      '.' :: padded a.places (a.coefficient % 10 ^ a.places)

def value (a : DecimalNumber) : ℚ :=
  a.coefficient / 10 ^ a.places

end DecimalNumber

/-- The canonical text of a value. -/
structure IsCanonical (text : List Char) (value : ℚ) (whole places fraction : Nat) : Prop where
  fits : fraction < 10 ^ places
  no_zero : places ≠ 0 → fraction % 10 ≠ 0
  is_value : value = whole + fraction / 10 ^ places
  is_text : text = Nat.toDigits 10 whole ++
    if places = 0 then [] else '.' :: padded places fraction

def Canonical (text : List Char) (value : ℚ) : Prop :=
  ∃ whole places fraction, IsCanonical text value whole places fraction

/-! ## Digits -/

@[simp] theorem length_padded
    (places n : Nat) :
    (padded places n).length = places := by
  induction places generalizing n with
  | zero => rfl
  | succ places ih => simp [padded, ih]

theorem isDigit_lastDigit
    (n : Nat) :
    (lastDigit n).isDigit = true := by
  rw [lastDigit, Nat.isDigit_digitChar]
  exact decide_eq_true (Nat.mod_lt n (by omega))

theorem isDigit_padded
    {places n : Nat} {c : Char}
    (h : c ∈ padded places n) :
    c.isDigit = true := by
  induction places generalizing n with
  | zero => cases h
  | succ places ih =>
      rcases List.mem_append.mp h with hrest | hlast
      · exact ih hrest
      · rw [List.mem_singleton.mp hlast]
        exact isDigit_lastDigit n

theorem lastDigit_eq_zero_iff
    {n : Nat} :
    lastDigit n = '0' ↔ n % 10 = 0 := by
  rw [lastDigit, Nat.digitChar_eq_zero]

/-- The zeros at the end of a run of digits. -/
theorem rdropWhile_padded
    (places n : Nat) :
    (padded places n).rdropWhile (fun c => c == '0') =
      padded (dropZeros places n).1 (dropZeros places n).2 := by
  induction places generalizing n with
  | zero => simp [padded, dropZeros]
  | succ places ih =>
      rw [padded, dropZeros]
      by_cases hzero : n % 10 = 0
      · rw [if_pos hzero, List.rdropWhile_concat_pos _ _ _
          (by simpa using lastDigit_eq_zero_iff.mpr hzero), ih]
      · rw [if_neg hzero, List.rdropWhile_concat_neg _ _ _
          (by simpa using fun h => hzero (lastDigit_eq_zero_iff.mp h)), padded]

theorem dropZeros_le
    (places n : Nat) :
    (dropZeros places n).1 ≤ places := by
  induction places generalizing n with
  | zero => exact le_refl 0
  | succ places ih =>
      rw [dropZeros]
      split
      · exact (ih _).trans (Nat.le_succ places)
      · exact le_refl _

/-- What was dropped were zeros. -/
theorem dropZeros_mul
    (places n : Nat) :
    (dropZeros places n).2 * 10 ^ (places - (dropZeros places n).1) = n := by
  induction places generalizing n with
  | zero => simp [dropZeros]
  | succ places ih =>
      rw [dropZeros]
      split
      · next hzero =>
          have hle := dropZeros_le places (n / 10)
          have hrest := ih (n / 10)
          rw [Nat.succ_sub hle, pow_succ, ← mul_assoc, hrest]
          omega
      · simp

theorem dropZeros_no_zero
    {places n : Nat}
    (h : (dropZeros places n).1 ≠ 0) :
    (dropZeros places n).2 % 10 ≠ 0 := by
  induction places generalizing n with
  | zero => exact absurd rfl h
  | succ places ih =>
      rw [dropZeros] at h ⊢
      split at h
      · next hzero =>
          rw [if_pos hzero]
          exact ih h
      · next hzero =>
          rw [if_neg hzero]
          exact hzero

/-- A number with its zeros dropped, over the places that are left. -/
theorem dropZeros_value
    (places n : Nat) :
    ((dropZeros places n).2 : ℚ) / 10 ^ (dropZeros places n).1 = n / 10 ^ places := by
  have hle := dropZeros_le places n
  have hmul : ((dropZeros places n).2 : ℚ) * 10 ^ (places - (dropZeros places n).1) = n := by
    exact_mod_cast dropZeros_mul places n
  rw [div_eq_div_iff (by positivity) (by positivity), ← hmul, mul_assoc, ← pow_add,
    Nat.sub_add_cancel hle]

/-! ## Exact arithmetic -/

namespace DecimalNumber

@[simp] theorem value_ofNat
    (n : Nat) :
    (ofNat n).value = n := by
  simp [ofNat, value]

/-- A coefficient brought to more places. -/
theorem scaled_value
    {n places more : Nat}
    (h : places ≤ more) :
    ((n * 10 ^ (more - places) : Nat) : ℚ) / 10 ^ more = n / 10 ^ places := by
  rw [div_eq_div_iff (by positivity) (by positivity)]
  push_cast
  rw [mul_assoc, ← pow_add, Nat.sub_add_cancel h]

@[simp] theorem value_add
    (a b : DecimalNumber) :
    (a.add b).value = a.value + b.value := by
  have ha := scaled_value (n := a.coefficient) (le_max_left a.places b.places)
  have hb := scaled_value (n := b.coefficient) (le_max_right a.places b.places)
  rw [value, add, value, value, ← ha, ← hb, ← add_div]
  push_cast
  rfl

@[simp] theorem value_mul
    (a b : DecimalNumber) :
    (a.mul b).value = a.value * b.value := by
  simp only [value, mul]
  push_cast
  rw [pow_add, div_mul_div_comm]

@[simp] theorem value_overPow10
    (a : DecimalNumber) (k : Nat) :
    (a.overPow10 k).value = a.value / 10 ^ k := by
  have hdropped := dropZeros_value k a.coefficient
  rw [value, overPow10, value]
  dsimp only
  rw [pow_add, mul_comm, ← div_div, hdropped]
  ring

theorem overPow10_places_le
    (a : DecimalNumber) (k : Nat) :
    (a.overPow10 k).places ≤ a.places + k :=
  Nat.add_le_add_left (dropZeros_le k a.coefficient) a.places

end DecimalNumber

/-! ## Texts -/

/-- Taking away from the end stops at an element that stays. -/
theorem rdropWhile_append_cons
    {α : Type} {p : α → Bool} {y : α} (hy : p y = false) (xs ys : List α) :
    (xs ++ y :: ys).rdropWhile p = xs ++ y :: ys.rdropWhile p := by
  induction ys using List.reverseRecOn with
  | nil =>
      rw [List.rdropWhile_concat_neg _ _ _ (by simp [hy]), List.rdropWhile_nil]
  | append_singleton ys z ih =>
      have hassoc : xs ++ y :: (ys ++ [z]) = (xs ++ y :: ys) ++ [z] := by simp
      rw [hassoc, List.rdropWhile_concat, List.rdropWhile_concat, ih]
      split
      · rfl
      · exact hassoc.symm

/-- The zeros at the end of a text, and then the point. -/
def trimmed (text : List Char) : List Char :=
  (text.rdropWhile (fun c => c == '0')).rdropWhile (fun c => c == '.')

theorem point_not_mem
    {digits : List Char}
    (h : ∀ c ∈ digits, c.isDigit = true) :
    '.' ∉ digits :=
  fun hmem => absurd (h '.' hmem) (by decide)

theorem isDigit_toDigits
    {n : Nat} {c : Char}
    (h : c ∈ Nat.toDigits 10 n) :
    c.isDigit = true :=
  Nat.isDigit_of_mem_toDigits (by omega) (by omega) h

theorem point_ne_lastDigit
    (n : Nat) :
    '.' ≠ lastDigit n := by
  intro h
  have hdigit := isDigit_lastDigit n
  rw [← h] at hdigit
  revert hdigit
  decide

/-- A run without points keeps its end. -/
theorem rdropWhile_point_eq_self
    {text : List Char}
    (h : '.' ∉ text) :
    text.rdropWhile (fun c => c == '.') = text := by
  rw [List.rdropWhile_eq_self_iff]
  intro hne hlast
  rw [beq_iff_eq] at hlast
  exact h (hlast ▸ List.getLast_mem hne)

/-- A number with a fraction, trimmed. -/
theorem trimmed_point
    (whole places fraction : Nat) :
    trimmed (Nat.toDigits 10 whole ++ '.' :: padded places fraction) =
      Nat.toDigits 10 whole ++
        if (dropZeros places fraction).1 = 0 then []
        else '.' ::
          padded (dropZeros places fraction).1 (dropZeros places fraction).2 := by
  rw [trimmed, rdropWhile_append_cons (by decide), rdropWhile_padded]
  cases hplaces : (dropZeros places fraction).1 with
  | zero =>
      rw [if_pos rfl, padded, List.rdropWhile_concat_pos _ _ _ (by simp),
        rdropWhile_point_eq_self (point_not_mem (fun _ => isDigit_toDigits)), List.append_nil]
  | succ left =>
      have hassoc :
          ∀ fractional (last : Char),
            Nat.toDigits 10 whole ++ '.' :: (fractional ++ [last]) =
              (Nat.toDigits 10 whole ++ '.' :: fractional) ++ [last] := by
        intro fractional last
        simp
      rw [if_neg (Nat.succ_ne_zero left), padded, hassoc, List.rdropWhile_concat_neg _ _ _
        (by simpa using (point_ne_lastDigit _).symm)]

theorem dropZeros_fits
    {places n : Nat}
    (h : n < 10 ^ places) :
    (dropZeros places n).2 < 10 ^ (dropZeros places n).1 := by
  have hle := dropZeros_le places n
  have hmul := dropZeros_mul places n
  by_contra hlarge
  have hpow : 10 ^ (dropZeros places n).1 * 10 ^ (places - (dropZeros places n).1) = 10 ^ places := by
    rw [← pow_add, Nat.add_sub_cancel' hle]
  have hbound := Nat.mul_le_mul_right (10 ^ (places - (dropZeros places n).1)) (not_lt.mp hlarge)
  omega

/-- The trimmed text of a decimal number is the canonical text of its value. -/
theorem canonical_trimmed
    (a : DecimalNumber) (hplaces : a.places ≠ 0) :
    IsCanonical (trimmed a.fixedPoint) a.value (a.coefficient / 10 ^ a.places)
      (dropZeros a.places (a.coefficient % 10 ^ a.places)).1
      (dropZeros a.places (a.coefficient % 10 ^ a.places)).2 where
  fits := dropZeros_fits (Nat.mod_lt _ (by positivity))
  no_zero := dropZeros_no_zero
  is_value := by
    have hsplit : ((10 ^ a.places * (a.coefficient / 10 ^ a.places) +
        a.coefficient % 10 ^ a.places : Nat) : ℚ) = a.coefficient := by
      rw [Nat.div_add_mod]
    push_cast at hsplit
    rw [dropZeros_value, DecimalNumber.value, ← hsplit, add_div,
      mul_div_cancel_left₀ _ (by positivity)]
  is_text := by
    rw [DecimalNumber.fixedPoint, if_neg hplaces, trimmed_point]

/-- A decimal number without places is a canonical text as it stands. -/
theorem canonical_fixedPoint
    (a : DecimalNumber) (hplaces : a.places = 0) :
    IsCanonical a.fixedPoint a.value a.coefficient 0 0 where
  fits := Nat.one_pos
  no_zero := fun h => absurd rfl h
  is_value := by
    rw [DecimalNumber.value, hplaces]
    simp
  is_text := by
    rw [DecimalNumber.fixedPoint, if_pos hplaces, if_pos rfl, List.append_nil]

/-- The whole part of a canonical text is that of its value. -/
theorem IsCanonical.whole_eq
    {text : List Char} {value : ℚ} {whole places fraction : Nat}
    (h : IsCanonical text value whole places fraction) :
    whole = ⌊value⌋₊ := by
  have hfits : (fraction : ℚ) < 10 ^ places := by exact_mod_cast h.fits
  have hless : (fraction : ℚ) / 10 ^ places < 1 := (div_lt_one (by positivity)).mpr hfits
  have hpos : (0 : ℚ) ≤ fraction / 10 ^ places := by positivity
  symm
  rw [Nat.floor_eq_iff (by rw [h.is_value]; positivity), h.is_value]
  exact ⟨by linarith, by linarith⟩

/-- A fraction without a zero at its end needs all its places. -/
theorem places_le
    {fraction fraction' places places' : Nat}
    (heq : fraction * 10 ^ places' = fraction' * 10 ^ places)
    (hno : places' ≠ 0 → fraction' % 10 ≠ 0) :
    places' ≤ places := by
  by_contra hlarge
  obtain ⟨more, rfl⟩ := Nat.exists_eq_add_of_lt (not_le.mp hlarge)
  refine hno (by omega) ?_
  have hcancel : fraction * 10 ^ (more + 1) = fraction' := by
    refine Nat.eq_of_mul_eq_mul_right (Nat.pow_pos (n := places) (by omega : 0 < 10)) ?_
    rw [← heq, mul_assoc, ← pow_add]
    congr 2
    omega
  rw [← hcancel, pow_succ, ← mul_assoc, Nat.mul_mod_left]

/-- A value has one canonical text. -/
theorem Canonical.unique
    {text text' : List Char} {value : ℚ}
    (h : Canonical text value) (h' : Canonical text' value) :
    text = text' := by
  obtain ⟨whole, places, fraction, h⟩ := h
  obtain ⟨whole', places', fraction', h'⟩ := h'
  have hwhole : whole = whole' := h.whole_eq.trans h'.whole_eq.symm
  subst hwhole
  have hfractions : (fraction : ℚ) / 10 ^ places = fraction' / 10 ^ places' :=
    add_left_cancel (h.is_value.symm.trans h'.is_value)
  rw [div_eq_div_iff (by positivity) (by positivity)] at hfractions
  have heq : fraction * 10 ^ places' = fraction' * 10 ^ places := by exact_mod_cast hfractions
  have hplaces : places = places' :=
    le_antisymm (places_le heq.symm h.no_zero) (places_le heq h'.no_zero)
  subst hplaces
  have hfraction : fraction = fraction' :=
    Nat.eq_of_mul_eq_mul_right (Nat.pow_pos (by omega)) heq
  rw [h.is_text, h'.is_text, hfraction]

end Lib
end PrReviewer
