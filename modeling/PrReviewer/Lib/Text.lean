import Mathlib.Data.List.Basic
import Mathlib.Data.List.Infix
import Mathlib.Tactic
import PrReviewer.Lib.Python
import PrReviewer.Lib.Scan

/-!
# Methods of Python strings

The operators and methods of `str` the modules under verification call, on the
code points of a string.  A marker that is searched for, counted or removed is a
non-empty string here.
-/

namespace PrReviewer
namespace Lib

/-- `s + t`. -/
instance : Append PyStr where
  append s t := ⟨s.points ++ t.points⟩

@[simp] theorem PyStr.points_append
    (s t : PyStr) :
    (s ++ t).points = s.points ++ t.points := by
  rfl

theorem PyStr.append_assoc
    (s t u : PyStr) :
    s ++ t ++ u = s ++ (t ++ u) := by
  have h := List.append_assoc s.points t.points u.points
  exact congrArg PyStr.mk h

theorem PyStr.ofString_append
    (s t : String) :
    PyStr.ofString (s ++ t) = .ofString s ++ .ofString t := by
  refine congrArg PyStr.mk ?_
  simp [PyStr.ofString, String.toList_append]

/-- The code point of a character. -/
def pointOf (c : Char) : CodePoint :=
  ⟨c.toNat, codePoint_lt c⟩

theorem pointOf_injective :
    Function.Injective pointOf := by
  intro c d h
  have hnat : (pointOf c).val = (pointOf d).val := by rw [h]
  exact Char.toNat_inj.mp hnat

/-- Two lists agree up to an element that stands in neither of their first parts. -/
theorem append_cons_inj
    {α : Type} {c : α} {xs ys rest rest' : List α}
    (hxs : c ∉ xs) (hys : c ∉ ys)
    (h : xs ++ c :: rest = ys ++ c :: rest') :
    xs = ys ∧ rest = rest' := by
  induction xs generalizing ys with
  | nil =>
      cases ys with
      | nil => exact ⟨rfl, (List.cons.inj h).2⟩
      | cons y ys => exact absurd (List.cons.inj h).1 (fun hy => hys (by simp [hy]))
  | cons x xs ih =>
      cases ys with
      | nil => exact absurd (List.cons.inj h).1.symm (fun hx => hxs (by simp [hx]))
      | cons y ys =>
          obtain ⟨rfl, htail⟩ := List.cons.inj h
          have hrest := ih (fun hc => hxs (List.mem_cons_of_mem x hc))
            (fun hc => hys (List.mem_cons_of_mem x hc)) htail
          exact ⟨by rw [hrest.1], hrest.2⟩

/-- Two lists agree from an element on that stands in neither of their last parts. -/
theorem append_cons_inj_right
    {α : Type} {c : α} {xs ys rest rest' : List α}
    (hrest : c ∉ rest) (hrest' : c ∉ rest')
    (h : xs ++ c :: rest = ys ++ c :: rest') :
    xs = ys ∧ rest = rest' := by
  have hreverse := congrArg List.reverse h
  simp only [List.reverse_append, List.reverse_cons, List.append_assoc, List.singleton_append]
    at hreverse
  obtain ⟨hlast, hfirst⟩ :=
    append_cons_inj (by simpa using hrest) (by simpa using hrest') hreverse
  exact ⟨List.reverse_injective hfirst, List.reverse_injective hlast⟩

/-- Parts without the separator are recovered from what they were joined to. -/
theorem intercalate_inj
    {α : Type} {c : α} {xs ys : List (List α)}
    (hxs : ∀ x ∈ xs, c ∉ x) (hys : ∀ y ∈ ys, c ∉ y) (hne : xs ≠ []) (hne' : ys ≠ [])
    (h : [c].intercalate xs = [c].intercalate ys) :
    xs = ys := by
  induction xs generalizing ys with
  | nil => exact absurd rfl hne
  | cons x xs ih =>
      have hx := hxs x (List.mem_cons_self ..)
      cases ys with
      | nil => exact absurd rfl hne'
      | cons y ys =>
          have hy := hys y (List.mem_cons_self ..)
          cases xs with
          | nil =>
              cases ys with
              | nil => simpa using h
              | cons y' ys =>
                  simp only [List.intercalate_singleton, List.intercalate_cons_cons] at h
                  exact absurd (by rw [h]; simp) hx
          | cons x' xs =>
              cases ys with
              | nil =>
                  simp only [List.intercalate_singleton, List.intercalate_cons_cons] at h
                  exact absurd (by rw [← h]; simp) hy
              | cons y' ys =>
                  simp only [List.intercalate_cons_cons, List.append_assoc,
                    List.singleton_append] at h
                  obtain ⟨rfl, htail⟩ := append_cons_inj hx hy h
                  have hrest := ih (fun z hz => hxs z (List.mem_cons_of_mem _ hz))
                    (fun z hz => hys z (List.mem_cons_of_mem _ hz)) (List.cons_ne_nil _ _)
                    (List.cons_ne_nil _ _) htail
                  rw [hrest]

theorem pointOf_not_mem_ofString
    {c : Char} {text : String}
    (h : c ∉ text.toList) :
    pointOf c ∉ (PyStr.ofString text).points := by
  intro hmem
  obtain ⟨d, hd, heq⟩ := List.mem_map.mp hmem
  exact h (pointOf_injective heq ▸ hd)

/-- A text up to a character that does not stand in it. -/
theorem ofString_append_inj
    {c : Char} {text text' : String} {rest rest' : PyStr}
    (hnot : c ∉ text.toList) (hnot' : c ∉ text'.toList)
    (h : PyStr.ofString text ++ (⟨[pointOf c]⟩ ++ rest) =
      PyStr.ofString text' ++ (⟨[pointOf c]⟩ ++ rest')) :
    text = text' ∧ rest = rest' := by
  obtain ⟨htext, hrest⟩ :=
    append_cons_inj (pointOf_not_mem_ofString hnot) (pointOf_not_mem_ofString hnot')
      (congrArg PyStr.points h)
  exact ⟨PyStr.ofString_injective (congrArg PyStr.mk htext), congrArg PyStr.mk hrest⟩

/-- `"\n"`. -/
def newline : CodePoint := 0x0a

/-- `sep.join(parts)`. -/
def PyStr.join (sep : PyStr) (parts : List PyStr) : PyStr where
  points := sep.points.intercalate (parts.map PyStr.points)

/-- Parts without the separator are recovered from their join. -/
theorem join_inj
    {c : CodePoint} {parts parts' : List PyStr}
    (hparts : ∀ part ∈ parts, c ∉ part.points) (hparts' : ∀ part ∈ parts', c ∉ part.points)
    (hne : parts ≠ []) (hne' : parts' ≠ [])
    (h : PyStr.join ⟨[c]⟩ parts = PyStr.join ⟨[c]⟩ parts') :
    parts = parts' := by
  have hmaps := intercalate_inj (by simpa using hparts) (by simpa using hparts')
    (by simpa using hne) (by simpa using hne') (congrArg PyStr.points h)
  exact List.map_injective_iff.mpr (fun _ _ => congrArg PyStr.mk) hmaps

/-- A character of joined texts is one of a text or of the separator. -/
theorem mem_points_join
    {sep : PyStr} {parts : List PyStr} {c : CodePoint}
    (h : c ∈ (PyStr.join sep parts).points) :
    c ∈ sep.points ∨ ∃ part ∈ parts, c ∈ part.points := by
  induction parts with
  | nil => cases h
  | cons part parts ih =>
      cases parts with
      | nil =>
          simp only [PyStr.join, List.map_cons, List.map_nil, List.intercalate_singleton] at h
          exact .inr ⟨part, List.mem_singleton_self _, h⟩
      | cons next parts =>
          simp only [PyStr.join, List.map_cons, List.intercalate_cons_cons] at h ih
          rcases List.mem_append.mp h with h | h
          · rcases List.mem_append.mp h with h | h
            · exact .inr ⟨part, List.mem_cons_self .., h⟩
            · exact .inl h
          · rcases ih h with hsep | ⟨other, hother, hc⟩
            · exact .inl hsep
            · exact .inr ⟨other, List.mem_cons_of_mem part hother, hc⟩

/-- The characters of a joined text stand in the whole. -/
theorem subset_points_join
    {sep part : PyStr} {parts : List PyStr}
    (h : part ∈ parts) :
    part.points ⊆ (PyStr.join sep parts).points := by
  induction parts with
  | nil => cases h
  | cons first parts ih =>
      cases parts with
      | nil =>
          rw [List.mem_singleton] at h
          simp [h, PyStr.join]
      | cons next parts =>
          simp only [PyStr.join, List.map_cons, List.intercalate_cons_cons] at ih ⊢
          rcases List.mem_cons.mp h with rfl | h
          · intro c hc
            simp [hc]
          · exact fun c hc => List.mem_append_right _ (ih h hc)

/-- A marker stands at some place of a text. -/
def infixAt (marker : List CodePoint) : List CodePoint → Bool
  | [] => marker.isEmpty
  | c :: cs => marker.isPrefixOf (c :: cs) || infixAt marker cs

/-- `marker in text`. -/
def PyStr.contains (text marker : PyStr) : Bool :=
  infixAt marker.points text.points

/-- `text.replace(marker, "")`. -/
def PyStr.remove (text marker : PyStr) : PyStr where
  points := charsOf (scan (readMarkers [((), marker.points)]) 0 text.points)

/-- `text.count(marker)`. -/
def PyStr.count (text marker : PyStr) : Nat :=
  (tokensOf (scan (readMarkers [((), marker.points)]) 0 text.points)).length

theorem infixAt_iff
    {marker text : List CodePoint} :
    infixAt marker text = true ↔ marker <:+: text := by
  induction text with
  | nil => simp [infixAt]
  | cons c cs ih => simp [infixAt, ih, List.infix_cons_iff]

@[simp] theorem PyStr.contains_iff
    {text marker : PyStr} :
    text.contains marker = true ↔ marker.points <:+: text.points :=
  infixAt_iff

theorem PyStr.remove_length_le
    (text marker : PyStr) :
    (text.remove marker).points.length ≤ text.points.length :=
  (charsOf_scan_sublist _ 0 text.points).length_le

/-- Removing a marker that stands in the text makes it shorter. -/
theorem PyStr.remove_length_lt
    {text marker : PyStr}
    (hne : marker.points ≠ [])
    (h : text.contains marker = true) :
    (text.remove marker).points.length < text.points.length := by
  obtain ⟨before, after, heq⟩ := PyStr.contains_iff.mp h
  have hrest : marker.points ++ after <:+ text.points :=
    ⟨before, by rw [← heq, List.append_assoc]⟩
  refine charsOf_scan_lt hrest (by simp [hne]) ?_
  rw [Option.isSome_iff_ne_none, ne_eq, readMarkers_eq_none_iff]
  intro hnone
  exact hnone _ (List.mem_singleton_self _) (List.prefix_append _ _)

/-- Removing a marker that does not stand in the text changes nothing. -/
theorem PyStr.remove_eq_self
    {text marker : PyStr}
    (h : text.contains marker = false) :
    text.remove marker = text := by
  have hquiet : scan (readMarkers [((), marker.points)]) 0 text.points =
      text.points.map .inr := by
    apply scan_quiet
    intro rest hrest
    refine readMarkers_suffix ?_ hrest
    intro m hm
    rw [List.mem_singleton] at hm
    subst hm
    simpa only [← PyStr.contains_iff, Bool.not_eq_true] using h
  simp only [PyStr.remove, hquiet, charsOf_chars]

/-- `text.startswith(lead)`. -/
def PyStr.startsWith (text lead : PyStr) : Bool :=
  lead.points.isPrefixOf text.points

/-- `str(n)`: the number of digits is limited. -/
def intText (n : Int) : Except PyException PyStr :=
  if 10 ^ maxStrDigits ≤ n.natAbs then
    .error .valueError
  else
    .ok (.ofString (toString n))

/-! ## Words -/

/-- The white space of `str.split()`. -/
def isWhitespace (tables : UnicodeTables) (c : CodePoint) : Bool :=
  if c.val < 128 then
    decide ((0x09 ≤ c.val ∧ c.val ≤ 0x0d) ∨ (0x1c ≤ c.val ∧ c.val ≤ 0x20))
  else
    tables.isSpace c

/-- `text.split()`. -/
def PyStr.words (tables : UnicodeTables) (text : PyStr) : List PyStr :=
  ((text.points.splitOnP (isWhitespace tables)).filter (fun word => word ≠ [])).map PyStr.mk

/-- `text.strip()`. -/
def PyStr.strip (tables : UnicodeTables) (text : PyStr) : PyStr where
  points :=
    ((text.points.dropWhile (isWhitespace tables)).reverse.dropWhile (isWhitespace tables)).reverse

/-! ## Decimal numbers -/

section Decimal

/-- The decimal text of a natural number. -/
def decimal (n : Nat) : PyStr :=
  .ofString (toString n)

theorem decimal_points
    (n : Nat) :
    (decimal n).points = (Nat.toDigits 10 n).map (fun c => ⟨c.toNat, codePoint_lt c⟩) := by
  simp only [decimal, PyStr.ofString, Nat.toString_eq_ofList_toDigits, String.toList_ofList]

theorem decimal_ne_nil
    (n : Nat) :
    (decimal n).points ≠ [] := by
  simp [decimal_points, Nat.toDigits_ne_nil]

/-- The characters of a decimal text are ASCII digits. -/
theorem decimal_digit
    {n : Nat} {c : CodePoint}
    (hc : c ∈ (decimal n).points) :
    0x30 ≤ c.val ∧ c.val ≤ 0x39 := by
  rw [decimal_points, List.mem_map] at hc
  obtain ⟨char, hchar, rfl⟩ := hc
  have hdigit := Nat.isDigit_of_mem_toDigits (by omega) (by omega) hchar
  simp only [Char.isDigit, Bool.and_eq_true, decide_eq_true_eq] at hdigit
  exact ⟨hdigit.1, hdigit.2⟩

theorem intText_natCast
    {n : Nat} {text : PyStr}
    (h : intText n = .ok text) :
    text = decimal n := by
  unfold intText at h
  split at h
  · cases h
  · cases h
    rfl

/-- `str(n)` of a natural number, where it does not raise. -/
theorem intText_eq_ok_iff
    {n : Nat} {text : PyStr} :
    intText n = .ok text ↔ n < 10 ^ maxStrDigits ∧ text = decimal n := by
  unfold intText
  split
  · next hlong =>
      rw [Int.natAbs_natCast] at hlong
      constructor
      · intro h
        cases h
      · rintro ⟨hlimit, _⟩
        omega
  · next hshort =>
      rw [Int.natAbs_natCast] at hshort
      constructor
      · intro h
        cases h
        exact ⟨by omega, rfl⟩
      · rintro ⟨_, rfl⟩
        rfl

theorem length_decimal_le_iff
    {n : Nat} :
    (decimal n).points.length ≤ maxStrDigits ↔ n < 10 ^ maxStrDigits := by
  rw [decimal_points, List.length_map]
  exact Nat.length_toDigits_le_iff (by omega) (by decide)

/-- A run of digits is read whole. -/
theorem decimalDigits_digits
    {digits : List Nat}
    (hdigits : ∀ d ∈ digits, 0x30 ≤ d ∧ d ≤ 0x39) :
    decimalDigits true digits = some (digits.map (· - 0x30)) := by
  induction digits with
  | nil => rfl
  | cons d ds ih =>
      have hd := hdigits d (List.mem_cons_self ..)
      have hds := ih (fun e he => hdigits e (List.mem_cons_of_mem d he))
      simp only [decimalDigits, hd, and_self, if_true, hds, Option.map_some, List.map_cons]

/-- The codes of the decimal text of a number. -/
def digitCodes (n : Nat) : List Nat :=
  (Nat.toDigits 10 n).map Char.toNat

theorem digitCodes_digit
    {n d : Nat}
    (hd : d ∈ digitCodes n) :
    0x30 ≤ d ∧ d ≤ 0x39 := by
  obtain ⟨char, hchar, rfl⟩ := List.mem_map.mp hd
  have hdigit := Nat.isDigit_of_mem_toDigits (by omega) (by omega) hchar
  simp only [Char.isDigit, Bool.and_eq_true, decide_eq_true_eq] at hdigit
  exact ⟨hdigit.1, hdigit.2⟩

/-- The digits of a decimal text give the number back. -/
theorem digitCodes_value
    (n : Nat) :
    ((digitCodes n).map (· - 0x30)).foldl (fun m d => 10 * m + d) 0 = n := by
  rw [digitCodes, List.map_map, List.foldl_map]
  exact Nat.ofDigitChars_eq_foldl.symm.trans Nat.ofDigitChars_ten_toDigits

theorem decimal_injective :
    Function.Injective decimal := by
  intro n m h
  have hcodes : ∀ k, (decimal k).points.map Fin.val = digitCodes k := by
    intro k
    rw [decimal_points, List.map_map]
    rfl
  have hdigits := congrArg (fun text : PyStr => text.points.map Fin.val) h
  simp only [hcodes] at hdigits
  rw [← digitCodes_value n, ← digitCodes_value m, hdigits]

/-- `str(n)` of an integer, where it does not raise. -/
def intDigits (n : Int) : PyStr :=
  .ofString (toString n)

theorem intText_eq_ok
    {n : Int}
    (h : n.natAbs < 10 ^ maxStrDigits) :
    intText n = .ok (intDigits n) := by
  rw [intText, if_neg (by omega)]
  rfl

theorem intDigits_negSucc
    (n : Nat) :
    intDigits (Int.negSucc n) = .ofString "-" ++ decimal (n + 1) :=
  PyStr.ofString_append "-" (toString (n + 1))

theorem intDigits_injective :
    Function.Injective intDigits := by
  -- a decimal text does not begin with a minus sign
  have hminus : ∀ n m : Nat, intDigits (Int.ofNat n) ≠ intDigits (Int.negSucc m) := by
    intro n m h
    rw [intDigits_negSucc] at h
    have hmem : (0x2d : CodePoint) ∈ (intDigits (Int.ofNat n)).points := by
      rw [h, PyStr.points_append]
      exact List.mem_append_left _ (by decide +kernel)
    have hdigit := decimal_digit (n := n) hmem
    revert hdigit
    decide
  intro n m h
  cases n with
  | ofNat n =>
      cases m with
      | ofNat m => rw [decimal_injective h]
      | negSucc m => exact absurd h (hminus n m)
  | negSucc n =>
      cases m with
      | ofNat m => exact absurd h.symm (hminus m n)
      | negSucc m =>
          rw [intDigits_negSucc, intDigits_negSucc] at h
          have hpoints := List.append_cancel_left (congrArg PyStr.points h)
          have hnumber := decimal_injective (congrArg PyStr.mk hpoints)
          rw [Nat.succ.inj hnumber]

/-- `int()` replaces nothing in a decimal text. -/
theorem transformDecimalAndSpace_decimal
    (tables : UnicodeTables) (n : Nat) :
    transformDecimalAndSpace tables (decimal n) = digitCodes n := by
  have hascii : (decimal n).points.all (fun c => c.val < 128) = true := by
    rw [List.all_eq_true]
    intro c hc
    have hdigit := decimal_digit hc
    simp only [decide_eq_true_eq]
    omega
  rw [transformDecimalAndSpace, if_pos hascii, decimal_points, List.map_map]
  rfl

/-- Digits have no space around them. -/
theorem dropWhile_isAsciiSpace
    {digits : List Nat}
    (hdigits : ∀ d ∈ digits, 0x30 ≤ d ∧ d ≤ 0x39) :
    digits.dropWhile isAsciiSpace = digits := by
  cases digits with
  | nil => rfl
  | cons d ds =>
      have hd := hdigits d (List.mem_cons_self ..)
      have hspace : isAsciiSpace d = false := by
        simp only [isAsciiSpace, decide_eq_false_iff_not]
        omega
      rw [List.dropWhile_cons_of_neg (by simp [hspace])]

/-- A text of ASCII characters needs nothing of the Unicode database. -/
def bareTables : UnicodeTables where
  isSpace _ := false
  decimal _ := none

/-- `int()` of the decimal text of a number. -/
theorem intOfText_decimal_eq
    (tables : UnicodeTables) (n : Nat) :
    intOfText tables (decimal n) = if n < 10 ^ maxStrDigits then some (n : Int) else none := by
  have hdigits : ∀ d ∈ digitCodes n, 0x30 ≤ d ∧ d ≤ 0x39 := fun d hd => digitCodes_digit hd
  have hbare :
      (((digitCodes n).dropWhile isAsciiSpace).reverse.dropWhile isAsciiSpace).reverse =
        digitCodes n := by
    rw [dropWhile_isAsciiSpace hdigits,
      dropWhile_isAsciiSpace (fun d hd => hdigits d (List.mem_reverse.mp hd)),
      List.reverse_reverse]
  have hfold := digitCodes_value n
  have hlength : (digitCodes n).length ≤ maxStrDigits ↔ n < 10 ^ maxStrDigits := by
    rw [← length_decimal_le_iff, decimal_points, digitCodes, List.length_map, List.length_map]
  simp only [intOfText, transformDecimalAndSpace_decimal, hbare]
  cases hcodes : digitCodes n with
  | nil => exact absurd (List.map_eq_nil_iff.mp hcodes) Nat.toDigits_ne_nil
  | cons d ds =>
      rw [hcodes] at hdigits hfold hlength
      have hd := hdigits d (List.mem_cons_self ..)
      have hread : decimalDigits false (d :: ds) = some ((d :: ds).map (· - 0x30)) := by
        have hds := decimalDigits_digits (fun e he => hdigits e (List.mem_cons_of_mem d he))
        simp only [decimalDigits, hd, and_self, if_true, hds, Option.map_some, List.map_cons]
      have hplus : d ≠ 0x2b := by omega
      have hminus : d ≠ 0x2d := by omega
      split
      · next hnone => simp [hplus, hminus, hread] at hnone
      · next digits hsome =>
          simp [hplus, hminus, hread] at hsome
          subst hsome
          simp only [List.length_cons, List.length_map] at hlength ⊢
          simp at hfold
          split
          · next hlong => rw [if_neg (fun h => by have := hlength.mpr h; omega)]
          · next hshort =>
              rw [if_pos (hlength.mp (by omega))]
              simp [hplus, hminus]
              omega

/-- `int()` of the decimal text of a number, where it does not raise, is the number. -/
theorem intOfText_decimal
    {tables : UnicodeTables} {n : Nat} {value : Int}
    (h : intOfText tables (decimal n) = some value) :
    value = n := by
  rw [intOfText_decimal_eq] at h
  split at h
  · exact (Option.some.inj h).symm
  · cases h

/-- A text in which no minus sign stands is no negative number. -/
theorem intOfText_nonneg
    {tables : UnicodeTables} {s : PyStr} {n : Int}
    (hminus : 0x2d ∉ transformDecimalAndSpace tables s)
    (h : intOfText tables s = some n) :
    0 ≤ n := by
  have hbare : 0x2d ∉ (((transformDecimalAndSpace tables s).dropWhile isAsciiSpace).reverse.dropWhile
      isAsciiSpace).reverse := by
    intro hmem
    exact hminus ((List.dropWhile_sublist _).subset
      (List.mem_reverse.mp ((List.dropWhile_sublist _).subset (List.mem_reverse.mp hmem))))
  simp only [intOfText] at h
  generalize (((transformDecimalAndSpace tables s).dropWhile isAsciiSpace).reverse.dropWhile
    isAsciiSpace).reverse = bare at hbare h
  split at h
  · cases h
  · split at h
    · cases h
    · cases h
      split
      · simp
      · exact absurd (List.mem_cons_self ..) hbare
      · simp

end Decimal

/-! ## Lines -/

section Lines

/-- `"\r"`. -/
def carriageReturn : CodePoint := 0x0d

/-- The characters at which `str.splitlines` ends a line. -/
def isLineBreak (c : CodePoint) : Bool :=
  decide (c.val ∈ [0x0a, 0x0b, 0x0c, 0x0d, 0x1c, 0x1d, 0x1e, 0x85, 0x2028, 0x2029])

/-- A carriage return in front of a newline ends the line together with it. -/
def joinCrLf : List CodePoint → List CodePoint
  | [] => []
  | c :: cs => if c = carriageReturn ∧ cs.head? = some newline then joinCrLf cs else c :: joinCrLf cs

/-- A last line that is empty is none. -/
def dropEmptyLast (lines : List (List CodePoint)) : List (List CodePoint) :=
  if lines.getLast? = some [] then lines.dropLast else lines

/-- `text.splitlines()`. -/
def PyStr.splitlines (text : PyStr) : List PyStr :=
  (dropEmptyLast ((joinCrLf text.points).splitOnP isLineBreak)).map PyStr.mk

/-- `text.split("\n")`. -/
def PyStr.lines (text : PyStr) : List PyStr :=
  (text.points.splitOn newline).map PyStr.mk

theorem joinCrLf_quiet
    {line rest : List CodePoint}
    (hline : carriageReturn ∉ line) :
    joinCrLf (line ++ rest) = line ++ joinCrLf rest := by
  induction line with
  | nil => rfl
  | cons c cs ih =>
      have hc : c ≠ carriageReturn := by
        rintro rfl
        exact hline (List.mem_cons_self ..)
      have hcs : carriageReturn ∉ cs := fun hmem => hline (List.mem_cons_of_mem c hmem)
      simp only [List.cons_append, joinCrLf, hc, false_and, if_false, ih hcs]

/-- The end of a line: a newline, with a carriage return in front of it or not. -/
def eol (crlf : Bool) : List CodePoint :=
  if crlf then [carriageReturn] else []

theorem carriageReturn_not_mem
    {line : List CodePoint}
    (hline : ∀ c ∈ line, isLineBreak c = false) :
    carriageReturn ∉ line := by
  intro hmem
  have hbreak := hline _ hmem
  simp [isLineBreak, carriageReturn] at hbreak

/-- The first line of a text. -/
theorem splitlines_line
    {line : List CodePoint}
    (hline : ∀ c ∈ line, isLineBreak c = false)
    (crlf : Bool) (rest : List CodePoint) :
    (PyStr.mk (line ++ eol crlf ++ newline :: rest)).splitlines =
      ⟨line⟩ :: (PyStr.mk rest).splitlines := by
  have hjoin : joinCrLf (line ++ eol crlf ++ newline :: rest) =
      line ++ newline :: joinCrLf rest := by
    have hnewline : joinCrLf (newline :: rest) = newline :: joinCrLf rest := by
      simp [joinCrLf, newline, carriageReturn]
    rw [List.append_assoc, joinCrLf_quiet (carriageReturn_not_mem hline)]
    cases crlf with
    | false => simpa [eol] using hnewline
    | true => simpa [eol, joinCrLf] using hnewline
  have hsplit : (joinCrLf (line ++ eol crlf ++ newline :: rest)).splitOnP isLineBreak =
      line :: (joinCrLf rest).splitOnP isLineBreak := by
    rw [hjoin]
    exact List.splitOnP_append_cons_of_forall_mem hline newline (by decide) _
  have hne := List.splitOnP_ne_nil isLineBreak (joinCrLf rest)
  simp only [PyStr.splitlines, hsplit]
  generalize (joinCrLf rest).splitOnP isLineBreak = lines at hne
  obtain ⟨first, others, rfl⟩ := List.exists_cons_of_ne_nil hne
  simp only [dropEmptyLast, List.getLast?_cons_cons, List.dropLast_cons_cons]
  split
  · rfl
  · rfl

/-- The last line of a text. -/
theorem splitlines_last
    {line : List CodePoint}
    (hline : ∀ c ∈ line, isLineBreak c = false)
    (hne : line ≠ [])
    (crlf : Bool) :
    (PyStr.mk (line ++ eol crlf)).splitlines = [⟨line⟩] := by
  have hjoin : joinCrLf (line ++ eol crlf) = line ++ eol crlf := by
    rw [joinCrLf_quiet (carriageReturn_not_mem hline)]
    cases crlf with
    | false => rfl
    | true => rfl
  rw [PyStr.splitlines, hjoin]
  cases crlf with
  | false =>
      have hsplit : (line ++ eol false).splitOnP isLineBreak = [line] := by
        rw [eol, if_neg Bool.false_ne_true, List.append_nil, List.splitOnP_eq_singleton hline]
      simp [hsplit, dropEmptyLast, hne]
  | true =>
      have hsplit : (line ++ eol true).splitOnP isLineBreak = [line, []] :=
        List.splitOnP_append_cons_of_forall_mem hline carriageReturn (by decide) []
      simp [hsplit, dropEmptyLast]

/-- The parts of a list that is split hold no element it is split at. -/
theorem not_of_mem_splitOnP
    {p : CodePoint → Bool} {points part : List CodePoint}
    (hpart : part ∈ points.splitOnP p) :
    ∀ c ∈ part, p c = false := by
  revert part
  induction points with
  | nil => simp
  | cons c cs ih =>
      intro part hpart
      rw [List.splitOnP_cons_eq_if_modifyHead] at hpart
      obtain ⟨first, others, heq⟩ := List.exists_cons_of_ne_nil (List.splitOnP_ne_nil p cs)
      rw [heq] at ih hpart
      split at hpart
      · rcases List.mem_cons.mp hpart with rfl | hpart
        · simp
        · exact ih hpart
      · next hc =>
          rcases List.mem_cons.mp hpart with rfl | hpart
          · rw [List.forall_mem_cons]
            exact ⟨by simpa using hc, ih (List.mem_cons_self ..)⟩
          · exact ih (List.mem_cons_of_mem first hpart)

/-- The parts of a list that is split hold elements of the list. -/
theorem subset_of_mem_splitOnP
    {p : CodePoint → Bool} {points part : List CodePoint}
    (hpart : part ∈ points.splitOnP p) :
    part ⊆ points := by
  revert part
  induction points with
  | nil => simp
  | cons c cs ih =>
      intro part hpart
      rw [List.splitOnP_cons_eq_if_modifyHead] at hpart
      obtain ⟨first, others, heq⟩ := List.exists_cons_of_ne_nil (List.splitOnP_ne_nil p cs)
      rw [heq] at ih hpart
      split at hpart
      · rcases List.mem_cons.mp hpart with rfl | hpart
        · exact List.nil_subset _
        · exact List.subset_cons_of_subset c (ih hpart)
      · rcases List.mem_cons.mp hpart with rfl | hpart
        · exact List.cons_subset_cons c (ih (List.mem_cons_self ..))
        · exact List.subset_cons_of_subset c (ih (List.mem_cons_of_mem first hpart))

theorem mem_of_mem_dropEmptyLast
    {lines : List (List CodePoint)} {line : List CodePoint}
    (hline : line ∈ dropEmptyLast lines) :
    line ∈ lines := by
  unfold dropEmptyLast at hline
  split at hline
  · exact List.mem_of_mem_dropLast hline
  · exact hline

/-- The characters of the lines of a text end no line. -/
theorem splitlines_no_break
    {text line : PyStr}
    (hline : line ∈ text.splitlines) :
    ∀ c ∈ line.points, isLineBreak c = false := by
  simp only [PyStr.splitlines, List.mem_map] at hline
  obtain ⟨part, hpart, rfl⟩ := hline
  exact not_of_mem_splitOnP (mem_of_mem_dropEmptyLast hpart)

theorem joinCrLf_subset
    (points : List CodePoint) :
    joinCrLf points ⊆ points := by
  induction points with
  | nil => exact List.nil_subset _
  | cons c cs ih =>
      unfold joinCrLf
      split
      · exact List.subset_cons_of_subset c ih
      · exact List.cons_subset_cons c ih

/-- The characters of the lines of a text are the text's. -/
theorem splitlines_subset
    {text line : PyStr}
    (hline : line ∈ text.splitlines) :
    line.points ⊆ text.points := by
  simp only [PyStr.splitlines, List.mem_map] at hline
  obtain ⟨part, hpart, rfl⟩ := hline
  exact List.Subset.trans (subset_of_mem_splitOnP (mem_of_mem_dropEmptyLast hpart))
    (joinCrLf_subset _)

/-- The lines of a text in front of a newline. -/
def PyStr.pieces (text : PyStr) : List PyStr :=
  (PyStr.mk (text.points ++ [newline])).splitlines

/-- A line in front of a newline, which takes a last carriage return with it. -/
def bareLine : List CodePoint → List CodePoint
  | [] => []
  | [c] => if c = carriageReturn then [] else [c]
  | c :: d :: ds =>
      if c = carriageReturn ∧ d = newline then bareLine (d :: ds) else c :: bareLine (d :: ds)

theorem joinCrLf_append_newline
    (line rest : List CodePoint) :
    joinCrLf (line ++ newline :: rest) = bareLine line ++ newline :: joinCrLf rest := by
  have hnewline : joinCrLf (newline :: rest) = newline :: joinCrLf rest := by
    simp [joinCrLf, newline, carriageReturn]
  fun_induction bareLine line with
  | case1 => exact hnewline
  | case2 =>
      rw [List.cons_append, joinCrLf, if_pos ⟨rfl, rfl⟩]
      exact hnewline
  | case3 c hc =>
      rw [List.cons_append, joinCrLf, if_neg (fun h => hc h.1)]
      exact congrArg _ hnewline
  | case4 c d ds hboth ih =>
      rw [List.cons_append, joinCrLf, if_pos ⟨hboth.1, by simp [hboth.2]⟩, ih]
  | case5 c d ds hnot ih =>
      rw [List.cons_append, joinCrLf, if_neg (by simpa using hnot), ih]
      rfl

theorem bareLine_eq_or
    (line : List CodePoint) :
    joinCrLf line = bareLine line ∨ joinCrLf line = bareLine line ++ [carriageReturn] := by
  fun_induction bareLine line with
  | case1 => exact .inl rfl
  | case2 => exact .inr (by simp [joinCrLf])
  | case3 c hc => exact .inl (by simp [joinCrLf])
  | case4 c d ds hboth ih =>
      rw [joinCrLf, if_pos ⟨hboth.1, by simp [hboth.2]⟩]
      exact ih
  | case5 c d ds hnot ih =>
      rw [joinCrLf, if_neg (by simpa using hnot)]
      rcases ih with h | h
      · exact .inl (by rw [h])
      · exact .inr (by rw [h, List.cons_append])

theorem dropEmptyLast_append
    (lines : List (List CodePoint)) {rest : List (List CodePoint)}
    (hrest : rest ≠ []) :
    dropEmptyLast (lines ++ rest) = lines ++ dropEmptyLast rest := by
  have hlast : (lines ++ rest).getLast? = rest.getLast? := List.getLast?_append_of_ne_nil _ hrest
  unfold dropEmptyLast
  rw [hlast]
  split
  · rw [List.dropLast_append_of_ne_nil hrest]
  · rfl

theorem pieces_eq
    (line : List CodePoint) :
    (PyStr.mk line).pieces = ((bareLine line).splitOnP isLineBreak).map PyStr.mk := by
  have hsplit : (bareLine line ++ [newline]).splitOnP isLineBreak =
      (bareLine line).splitOnP isLineBreak ++ [[]] :=
    List.splitOnP_append_cons _ [] (by decide)
  rw [PyStr.pieces, PyStr.splitlines, joinCrLf_append_newline]
  simp only [joinCrLf, hsplit]
  rw [dropEmptyLast_append _ (List.cons_ne_nil _ _)]
  simp [dropEmptyLast]

/-- A newline ends a line, whatever stands behind it. -/
theorem splitlines_append_newline
    (line rest : List CodePoint) :
    (PyStr.mk (line ++ newline :: rest)).splitlines =
      (PyStr.mk line).pieces ++ (PyStr.mk rest).splitlines := by
  rw [pieces_eq, PyStr.splitlines, joinCrLf_append_newline,
    List.splitOnP_append_cons _ _ (by decide),
    dropEmptyLast_append _ (List.splitOnP_ne_nil _ _), List.map_append, PyStr.splitlines]

/-- The pieces of a text are its lines, or its lines and an empty one. -/
theorem pieces_eq_or
    (text : PyStr) :
    text.pieces = text.splitlines ∨ text.pieces = text.splitlines ++ [⟨[]⟩] := by
  have hdrop : ∀ lines : List (List CodePoint),
      lines = dropEmptyLast lines ∨ lines = dropEmptyLast lines ++ [[]] := by
    intro lines
    unfold dropEmptyLast
    split
    · next hlast => exact .inr (List.dropLast_append_getLast? _ hlast).symm
    · exact .inl rfl
  rw [PyStr.splitlines, show text = PyStr.mk text.points from rfl, pieces_eq]
  rcases bareLine_eq_or text.points with hline | hline
  · rw [hline]
    rcases hdrop ((bareLine text.points).splitOnP isLineBreak) with h | h
    · exact .inl (congrArg _ h)
    · right
      conv_lhs => rw [h]
      rw [List.map_append]
      rfl
  · have hsplit : (bareLine text.points ++ [carriageReturn]).splitOnP isLineBreak =
        (bareLine text.points).splitOnP isLineBreak ++ [[]] :=
      List.splitOnP_append_cons _ [] (by decide)
    left
    rw [hline, hsplit, dropEmptyLast_append _ (List.cons_ne_nil _ _)]
    simp [dropEmptyLast]

/-- A text without line breaks is its only piece. -/
theorem pieces_of_unbroken
    {text : PyStr}
    (h : ∀ c ∈ text.points, isLineBreak c = false) :
    text.pieces = [text] := by
  have hline := splitlines_line h false []
  rw [eol, if_neg Bool.false_ne_true, List.append_nil] at hline
  exact hline

/-- The first piece of a text that begins with unbroken characters. -/
theorem pieces_append
    {lead : PyStr}
    (hlead : ∀ c ∈ lead.points, isLineBreak c = false)
    (rest : PyStr) :
    ∃ first others, rest.pieces = first :: others ∧
      (lead ++ rest).pieces = (lead ++ first) :: others := by
  obtain ⟨points⟩ := lead
  obtain ⟨text⟩ := rest
  have hbare : bareLine (points ++ text) = points ++ bareLine text := by
    have hreturn := carriageReturn_not_mem hlead
    induction points with
    | nil => rfl
    | cons c points ih =>
        have hc : c ≠ carriageReturn := fun h => hreturn (h ▸ List.mem_cons_self ..)
        have hrest := ih (fun d hd => hlead d (List.mem_cons_of_mem c hd))
          (fun h => hreturn (List.mem_cons_of_mem c h))
        rw [List.cons_append, List.cons_append, ← hrest]
        cases points ++ text with
        | nil => simp [bareLine, hc]
        | cons d ds => simp [bareLine, hc]
  obtain ⟨first, others, hsplit⟩ :=
    List.exists_cons_of_ne_nil (List.splitOnP_ne_nil isLineBreak (bareLine text))
  have hjoin : (points ++ bareLine text).splitOnP isLineBreak = (points ++ first) :: others := by
    clear hbare
    induction points with
    | nil => exact hsplit
    | cons c points ih =>
        have hrest := ih (fun d hd => hlead d (List.mem_cons_of_mem c hd))
        rw [List.cons_append, List.splitOnP_cons_eq_if_modifyHead,
          if_neg (by simp [hlead c (by simp)]), hrest]
        rfl
  refine ⟨⟨first⟩, others.map PyStr.mk, ?_, ?_⟩
  · rw [pieces_eq, hsplit, List.map_cons]
  · change (PyStr.mk (points ++ text)).pieces = _
    rw [pieces_eq, hbare, hjoin, List.map_cons]
    rfl

/-- The lines Python reads in texts that were joined by newlines. -/
theorem splitlines_join_pieces
    (blocks : List PyStr) (last : PyStr) :
    (PyStr.join (.ofString "\n") (blocks ++ [last])).splitlines =
      blocks.flatMap PyStr.pieces ++ last.splitlines := by
  have hsep : (PyStr.ofString "\n").points = [newline] := by decide +kernel
  induction blocks with
  | nil => simp [PyStr.join]
  | cons block blocks ih =>
      obtain ⟨next, others, hnext⟩ : ∃ next others, blocks ++ [last] = next :: others :=
        List.exists_cons_of_ne_nil (by simp)
      rw [hnext] at ih
      rw [List.cons_append, hnext, List.flatMap_cons, List.append_assoc, ← ih,
        ← splitlines_append_newline]
      simp only [PyStr.join, hsep, List.map_cons, List.intercalate_cons_cons, List.append_assoc,
        List.singleton_append]

/-- The lines of texts joined by newlines are the lines of the texts. -/
theorem lines_join
    (first : PyStr) (blocks : List PyStr) :
    (PyStr.join (.ofString "\n") (first :: blocks)).lines =
      (first :: blocks).flatMap PyStr.lines := by
  have hsep : (PyStr.ofString "\n").points = [newline] := by decide +kernel
  induction blocks generalizing first with
  | nil => simp [PyStr.join, PyStr.lines, List.intercalate]
  | cons next blocks ih =>
      rw [List.flatMap_cons, ← ih next]
      simp only [PyStr.join, PyStr.lines, hsep, List.map_cons, List.intercalate_cons_cons,
        List.append_assoc, List.singleton_append, List.splitOn_append_cons_self,
        List.map_append]

/-- Lines that are joined with others are lines of the text. -/
theorem sublist_lines_join
    {lines blocks : List PyStr}
    (hsub : lines.Sublist blocks)
    (hlines : ∀ line ∈ lines, newline ∉ line.points) :
    lines.Sublist (PyStr.join (.ofString "\n") blocks).lines := by
  cases blocks with
  | nil =>
      rw [List.sublist_nil.mp hsub]
      exact List.nil_sublist _
  | cons first blocks =>
      rw [lines_join]
      have hself : lines.flatMap PyStr.lines = lines := by
        clear hsub
        induction lines with
        | nil => rfl
        | cons line lines ih =>
            have hline := hlines line (List.mem_cons_self ..)
            have hrest := ih (fun other hother => hlines other (List.mem_cons_of_mem line hother))
            rw [List.flatMap_cons, hrest]
            simp [PyStr.lines, List.splitOn_eq_singleton hline]
      have hflat := hsub.flatMap PyStr.lines
      rwa [hself] at hflat

/-- The characters of a line are characters of the text. -/
theorem subset_of_mem_lines
    {text line : PyStr}
    (h : line ∈ text.lines) :
    line.points ⊆ text.points := by
  obtain ⟨part, hpart, rfl⟩ := List.mem_map.mp h
  clear h
  generalize text.points = points at hpart ⊢
  induction points generalizing part with
  | nil => simp_all
  | cons c cs ih =>
      rw [List.splitOn_cons_eq_if_modifyHead] at hpart
      split at hpart
      · rcases List.mem_cons.mp hpart with rfl | hpart
        · simp
        · exact List.subset_cons_of_subset c (ih part hpart)
      · obtain ⟨first, others, heq⟩ :=
          List.exists_cons_of_ne_nil (List.splitOn_ne_nil newline cs)
        rw [heq] at hpart ih
        rcases List.mem_cons.mp hpart with rfl | hpart
        · exact List.cons_subset_cons c (ih first (List.mem_cons_self ..))
        · exact List.subset_cons_of_subset c (ih part (List.mem_cons_of_mem first hpart))

end Lines

end Lib
end PrReviewer
