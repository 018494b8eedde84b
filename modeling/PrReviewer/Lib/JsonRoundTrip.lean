import PrReviewer.Lib.JsonText

/-!
# What is written as JSON is read back

The round trip of `json.dumps` and `json.loads`.  A string is read back unless
`ensure_ascii` is on and a high surrogate stands directly before a low one, which the
reader joins; a float is read back if it is the float of its text; and the keys of a dict
are distinct.
-/

namespace PrReviewer
namespace Lib

/-! ## Strings -/

section Strings

theorem hexValue?_hexDigit :
    ∀ n : Nat, n < 16 → hexValue? (hexDigit n) = some n := by
  decide

/-- Four digits are read as the number they were written for. -/
theorem readHex_hexDigits
    {n : Nat}
    (hn : n < 0x10000) (rest : List CodePoint) :
    readHex (hexDigits n ++ rest) = some (n, rest) := by
  have hdigit : ∀ k, hexValue? (hexDigit (k % 16)) = some (k % 16) :=
    fun k => hexValue?_hexDigit _ (Nat.mod_lt _ (by omega))
  have hvalue : ((n / 4096 % 16 * 16 + n / 256 % 16) * 16 + n / 16 % 16) * 16 + n % 16 = n := by
    omega
  simp only [hexDigits, List.cons_append, List.nil_append, readHex, hdigit, Option.bind_eq_bind,
    Option.bind_some, hvalue]
  rfl

/-- The code point is a high surrogate. -/
def IsHigh (c : CodePoint) : Prop :=
  0xd800 ≤ c.val ∧ c.val ≤ 0xdbff

/-- The code point is a low surrogate. -/
def IsLow (c : CodePoint) : Prop :=
  0xdc00 ≤ c.val ∧ c.val ≤ 0xdfff

/-- No high surrogate stands directly before a low one. -/
def Unpaired (points : List CodePoint) : Prop :=
  points.IsChain (fun c d => ¬ (IsHigh c ∧ IsLow d))

theorem ofNat_val
    (c : CodePoint) :
    Fin.ofNat 0x110000 c.val = c := by
  apply Fin.ext
  simp

/-- A short escape is read as the character it was written for. -/
theorem shortEscapes_read
    {c letter : CodePoint}
    (h : shortEscapes.lookup c = some letter) :
    letter ≠ 0x75 ∧ escapeLetters.lookup letter = some c := by
  have hall : ∀ p ∈ shortEscapes, p.2 ≠ 0x75 ∧ escapeLetters.lookup p.2 = some p.1 := by
    simp [shortEscapes, escapeLetters, List.lookup_cons]
  obtain ⟨before, after, heq, _⟩ := List.lookup_eq_some_iff.mp h
  exact hall (c, letter) (by simp [heq])

theorem shortEscapes_none
    {c : CodePoint}
    (h : shortEscapes.lookup c = none) :
    c ≠ 0x22 ∧ c ≠ 0x5c := by
  rw [List.lookup_eq_none_iff] at h
  have hquote := h (0x22, 0x22) (by simp [shortEscapes])
  have hslash := h (0x5c, 0x5c) (by simp [shortEscapes])
  exact ⟨by simpa using hquote, by simpa using hslash⟩

theorem lowSurrogate?_unicodeEscape
    {n : Nat}
    (hn : n < 0x10000) (rest : List CodePoint) :
    lowSurrogate? (unicodeEscape n ++ rest) =
      if 0xdc00 ≤ n ∧ n ≤ 0xdfff then some (n, rest) else none := by
  simp only [unicodeEscape, List.cons_append, lowSurrogate?, and_self, if_true,
    readHex_hexDigits hn, Option.bind_eq_bind, Option.bind_some]

theorem readUnicode_other
    {n : Nat}
    (hn : n < 0x10000) {rest : List CodePoint}
    (h : ¬ (0xd800 ≤ n ∧ n ≤ 0xdbff) ∨ lowSurrogate? rest = none) :
    readUnicode (hexDigits n ++ rest) = some (Fin.ofNat _ n, rest) := by
  simp only [readUnicode, readHex_hexDigits hn, Option.bind_eq_bind, Option.bind_some]
  rcases h with hnot | hnone
  · rw [if_neg hnot]
  · rw [hnone]
    split
    · rfl
    · rfl

theorem readUnicode_pair
    {high low : Nat}
    (hhigh : 0xd800 ≤ high ∧ high ≤ 0xdbff) (hlow : 0xdc00 ≤ low ∧ low ≤ 0xdfff)
    (rest : List CodePoint) :
    readUnicode (hexDigits high ++ (unicodeEscape low ++ rest)) =
      some (Fin.ofNat _ (0x10000 + (high - 0xd800) * 1024 + (low - 0xdc00)), rest) := by
  have hn : high < 0x10000 := by omega
  have hm : low < 0x10000 := by omega
  simp only [readUnicode, readHex_hexDigits hn, Option.bind_eq_bind, Option.bind_some,
    lowSurrogate?_unicodeEscape hm, if_pos hlow]
  rw [if_pos hhigh]

/-- An escape is read as its character, unless it is joined with a low surrogate. -/
theorem readPoint_escapePoint
    {ascii : Bool} {c : CodePoint} {rest : List CodePoint}
    (h : ascii = true → IsHigh c → lowSurrogate? rest = none) :
    readPoint (escapePoint ascii c ++ rest) = some (some c, rest) := by
  unfold escapePoint
  cases hshort : shortEscapes.lookup c with
  | some letter =>
      obtain ⟨hletter, hread⟩ := shortEscapes_read hshort
      simp [readPoint, hletter, hread]
  | none =>
      obtain ⟨hquote, hslash⟩ := shortEscapes_none hshort
      simp only
      split
      · next hescaped =>
          split
          · next hplane =>
              have hread : readUnicode (hexDigits c.val ++ rest) = some (c, rest) := by
                have hother : ¬ (0xd800 ≤ c.val ∧ c.val ≤ 0xdbff) ∨ lowSurrogate? rest = none := by
                  by_cases hhigh : 0xd800 ≤ c.val ∧ c.val ≤ 0xdbff
                  · rcases hescaped with hcontrol | ⟨hascii, _⟩
                    · omega
                    · exact .inr (h hascii hhigh)
                  · exact .inl hhigh
                rw [readUnicode_other hplane hother, ofNat_val]
              simp [readPoint, unicodeEscape, hread]
          · next hplane =>
              have hc := c.isLt
              have hhigh : 0xd800 ≤ 0xd800 + (c.val - 0x10000) / 1024 ∧
                  0xd800 + (c.val - 0x10000) / 1024 ≤ 0xdbff := by omega
              have hlow : 0xdc00 ≤ 0xdc00 + (c.val - 0x10000) % 1024 ∧
                  0xdc00 + (c.val - 0x10000) % 1024 ≤ 0xdfff := by omega
              have hread := readUnicode_pair hhigh hlow rest
              have hjoined : 0x10000 + (0xd800 + (c.val - 0x10000) / 1024 - 0xd800) * 1024 +
                  (0xdc00 + (c.val - 0x10000) % 1024 - 0xdc00) = c.val := by omega
              rw [hjoined, ofNat_val] at hread
              simp only [unicodeEscape, List.cons_append, List.append_assoc] at hread ⊢
              simp [readPoint, hread]
      · next hplain =>
          have hcontrol : ¬ c.val < 0x20 := fun hlt => hplain (.inl hlt)
          simp [readPoint, hquote, hslash, hcontrol]

/-- A text that begins with the escape of a character other than a low surrogate. -/
theorem lowSurrogate?_escaped
    {ascii : Bool} {points rest : List CodePoint}
    (h : ∀ d, points.head? = some d → ¬ IsLow d) :
    lowSurrogate? (escaped ascii points ++ rest) = none := by
  cases points with
  | nil =>
      cases rest with
      | nil => rfl
      | cons c rest => simp [escaped, lowSurrogate?]
  | cons d points =>
      have hd := h d rfl
      simp only [escaped, List.flatMap_cons, List.append_assoc]
      generalize points.flatMap (escapePoint ascii) ++ ([0x22] ++ rest) = after
      unfold escapePoint
      cases hshort : shortEscapes.lookup d with
      | some letter =>
          have hletter := (shortEscapes_read hshort).1
          simp [lowSurrogate?, hletter]
      | none =>
          have hslash := (shortEscapes_none hshort).2
          simp only
          split
          · split
            · next hplane =>
                rw [lowSurrogate?_unicodeEscape hplane]
                exact if_neg hd
            · have hlt := d.isLt
              rw [List.append_assoc, lowSurrogate?_unicodeEscape (by omega), if_neg (by omega)]
          · cases after with
            | nil => rfl
            | cons c after => simp [lowSurrogate?, hslash]

theorem length_escaped
    (ascii : Bool) (points : List CodePoint) :
    points.length < (escaped ascii points).length := by
  induction points with
  | nil => simp [escaped]
  | cons c points ih =>
      have hpoint : 0 < (escapePoint ascii c).length := by
        unfold escapePoint
        split
        · simp
        · split
          · split
            · simp [unicodeEscape]
            · simp [unicodeEscape]
          · simp
      simp only [escaped, List.flatMap_cons, List.length_append, List.length_cons] at ih ⊢
      omega

/-- A string is read up to its closing quote. -/
theorem readString_escaped
    {ascii : Bool} {points : List CodePoint}
    (hpaired : ascii = true → Unpaired points)
    {fuel : Nat} (hfuel : points.length < fuel) (rest : List CodePoint) :
    readString fuel (escaped ascii points ++ rest) = some (points, rest) := by
  induction points generalizing fuel with
  | nil =>
      cases fuel with
      | zero => cases hfuel
      | succ fuel => simp [escaped, readString, readPoint]
  | cons c points ih =>
      cases fuel with
      | zero => cases hfuel
      | succ fuel =>
          have hpoint : readPoint (escapePoint ascii c ++ (escaped ascii points ++ rest)) =
              some (some c, escaped ascii points ++ rest) := by
            refine readPoint_escapePoint (fun hascii hhigh => lowSurrogate?_escaped ?_)
            intro d hd hlow
            have hchain := hpaired hascii
            cases points with
            | nil => cases hd
            | cons e points =>
                cases hd
                exact (List.isChain_cons_cons.mp hchain).1 ⟨hhigh, hlow⟩
          have hrest : ascii = true → Unpaired points :=
            fun hascii => (hpaired hascii).tail
          have hsplit : escaped ascii (c :: points) ++ rest =
              escapePoint ascii c ++ (escaped ascii points ++ rest) := by
            simp [escaped]
          rw [hsplit, readString, hpoint]
          simp only
          rw [ih hrest (Nat.lt_of_succ_lt_succ hfuel)]
          rfl

end Strings

/-! ## Numbers -/

section Numbers

/-- No number goes on with the text. -/
def Stops (text : List CodePoint) : Prop :=
  ∀ c, text.head? = some c → isDigitPoint c = false ∧ c ≠ 0x2e ∧ c ≠ 0x65 ∧ c ≠ 0x45

theorem takeWhile_digits
    {digits rest : List CodePoint}
    (hdigits : ∀ c ∈ digits, isDigitPoint c = true)
    (hstops : ∀ c, rest.head? = some c → isDigitPoint c = false) :
    (digits ++ rest).takeWhile isDigitPoint = digits ∧
      (digits ++ rest).dropWhile isDigitPoint = rest := by
  rw [List.takeWhile_append_of_pos hdigits, List.dropWhile_append_of_pos hdigits]
  cases rest with
  | nil => simp
  | cons c rest =>
      have hc := hstops c rfl
      rw [List.takeWhile_cons_of_neg (by simp [hc]), List.dropWhile_cons_of_neg (by simp [hc])]
      simp

theorem isDigitPoint_decimal
    {n : Nat} {c : CodePoint}
    (hc : c ∈ (decimal n).points) :
    isDigitPoint c = true := by
  simpa [isDigitPoint] using decimal_digit hc

/-- A decimal text of more than one digit does not begin with a zero. -/
theorem toDigits_head
    (n : Nat) (hn : 10 ≤ n) :
    ∃ c cs, Nat.toDigits 10 n = c :: cs ∧ c ≠ '0' := by
  induction n using Nat.strong_induction_on with
  | _ n ih =>
      rw [Nat.toDigits_of_base_le (by omega) hn]
      by_cases hsmall : n / 10 < 10
      · rw [Nat.toDigits_of_lt_base hsmall]
        refine ⟨_, _, rfl, ?_⟩
        have hpos : 0 < n / 10 := by omega
        generalize n / 10 = d at hsmall hpos
        interval_cases d <;> decide
      · obtain ⟨c, cs, hdigits, hc⟩ := ih (n / 10) (by omega) (by omega)
        exact ⟨c, cs ++ _, by rw [hdigits]; rfl, hc⟩

theorem matchInteger_decimal
    (n : Nat) {rest : List CodePoint}
    (hstops : ∀ c, rest.head? = some c → isDigitPoint c = false) :
    matchInteger ((decimal n).points ++ rest) = some ((decimal n).points, rest) := by
  by_cases hn : n < 10
  · have hpoints : (decimal n).points = [⟨n.digitChar.toNat, codePoint_lt _⟩] := by
      rw [decimal_points, Nat.toDigits_of_lt_base hn]
      rfl
    have hdigit := isDigitPoint_decimal (n := n) (by rw [hpoints]; exact List.mem_singleton_self _)
    have hnone : rest.takeWhile isDigitPoint = [] ∧ rest.dropWhile isDigitPoint = rest :=
      takeWhile_digits (List.forall_mem_nil _) hstops
    simp only [hpoints, List.cons_append, List.nil_append, matchInteger, hdigit, if_true, hnone]
    split
    · rfl
    · rfl
  · obtain ⟨c, cs, hdigits, hc⟩ := toDigits_head n (by omega)
    have hpoints : (decimal n).points = pointOf c :: cs.map pointOf := by
      rw [decimal_points, hdigits]
      rfl
    have hzero : pointOf c ≠ 0x30 := by
      intro heq
      exact hc (pointOf_injective heq)
    have hall : ∀ d ∈ pointOf c :: cs.map pointOf, isDigitPoint d = true :=
      fun d hd => isDigitPoint_decimal (n := n) (hpoints ▸ hd)
    rw [List.forall_mem_cons] at hall
    have hspan := takeWhile_digits hall.2 hstops
    rw [hpoints, List.cons_append]
    simp only [matchInteger, hzero, if_false, hall.1, if_true, hspan]

theorem digitsValue_decimal
    (n : Nat) :
    digitsValue (decimal n).points = n := by
  have hvalue := digitCodes_value n
  rw [digitCodes, List.map_map, List.foldl_map] at hvalue
  rw [digitsValue, decimal_points, List.foldl_map]
  exact hvalue

/-- The text of a fraction, which may be missing. -/
def IsFraction (text : List CodePoint) : Prop :=
  text = [] ∨ ∃ digits, text = 0x2e :: digits ∧ digits ≠ [] ∧ ∀ c ∈ digits, isDigitPoint c = true

/-- The text of an exponent, which may be missing. -/
def IsExponent (text : List CodePoint) : Prop :=
  text = [] ∨ ∃ sign digits, text = 0x65 :: sign :: digits ∧ (sign = 0x2b ∨ sign = 0x2d) ∧
    digits ≠ [] ∧ ∀ c ∈ digits, isDigitPoint c = true

theorem matchExponent_append
    {text rest : List CodePoint}
    (htext : IsExponent text) (hstops : Stops rest) :
    matchExponent (text ++ rest) = (text, rest) := by
  rcases htext with rfl | ⟨sign, digits, rfl, hsign, hne, hdigits⟩
  · cases rest with
    | nil => rfl
    | cons c rest =>
        obtain ⟨_, _, hlower, hupper⟩ := hstops c rfl
        simp [matchExponent, hlower, hupper]
  · have hspan := takeWhile_digits hdigits (fun c hc => (hstops c hc).1)
    have hmatch : matchSign (sign :: (digits ++ rest)) = ([sign], digits ++ rest) := by
      rw [matchSign, if_pos hsign]
    simp [matchExponent, hmatch, hspan, hne]

theorem matchFraction_append
    {text rest : List CodePoint}
    (htext : IsFraction text)
    (hstops : ∀ c, rest.head? = some c → isDigitPoint c = false ∧ c ≠ 0x2e) :
    matchFraction (text ++ rest) = (text, rest) := by
  rcases htext with rfl | ⟨digits, rfl, hne, hdigits⟩
  · cases rest with
    | nil => rfl
    | cons c rest =>
        have hpoint := (hstops c rfl).2
        simp [matchFraction, hpoint]
  · have hspan := takeWhile_digits hdigits (fun c hc => (hstops c hc).1)
    simp [matchFraction, hspan, hne]

/-- The exponent of a number, or what follows it, is no digit and no point. -/
theorem head_exponent
    {text rest : List CodePoint}
    (htext : IsExponent text) (hstops : Stops rest) :
    ∀ c, (text ++ rest).head? = some c → isDigitPoint c = false ∧ c ≠ 0x2e := by
  intro c hc
  rcases htext with rfl | ⟨sign, digits, rfl, _⟩
  · exact ⟨(hstops c hc).1, (hstops c hc).2.1⟩
  · cases hc
    exact ⟨rfl, by simp⟩

/-- Nor is its fraction a digit. -/
theorem head_fraction
    {fraction rest : List CodePoint}
    (hfraction : IsFraction fraction)
    (hrest : ∀ c, rest.head? = some c → isDigitPoint c = false ∧ c ≠ 0x2e) :
    ∀ c, (fraction ++ rest).head? = some c → isDigitPoint c = false := by
  intro c hc
  rcases hfraction with rfl | ⟨digits, rfl, _⟩
  · exact (hrest c hc).1
  · cases hc
    rfl

theorem readNumber_int
    (floats : FloatText) (negative : Bool) {n : Nat}
    (hn : n < 10 ^ maxStrDigits) {rest : List CodePoint} (hstops : Stops rest) :
    readNumber floats negative ((decimal n).points ++ rest) =
      .ok (.int (if negative then -(n : Int) else n), rest) := by
  have hinteger := matchInteger_decimal n (fun c hc => (hstops c hc).1)
  have hfraction : matchFraction rest = ([], rest) :=
    matchFraction_append (.inl rfl) (fun c hc => ⟨(hstops c hc).1, (hstops c hc).2.1⟩)
  have hexponent : matchExponent rest = ([], rest) := matchExponent_append (.inl rfl) hstops
  have hlength := Nat.not_lt.mpr (length_decimal_le_iff.mpr hn)
  simp only [readNumber, hinteger, hfraction, hexponent, List.isEmpty_nil, Bool.and_self,
    if_true, hlength, if_false, digitsValue_decimal]

/-- The text is a numeral with a fraction or an exponent. -/
structure IsFloatNumeral (text : List CodePoint) (negative : Bool) (whole : Nat)
    (fraction exponent : List CodePoint) : Prop where
  text_eq : text =
    (if negative then [0x2d] else []) ++ ((decimal whole).points ++ fraction ++ exponent)
  isFraction : IsFraction fraction
  isExponent : IsExponent exponent
  some_part : fraction ≠ [] ∨ exponent ≠ []

theorem readNumber_float
    (floats : FloatText) {text fraction exponent : List CodePoint} {negative : Bool} {whole : Nat}
    (h : IsFloatNumeral text negative whole fraction exponent)
    {rest : List CodePoint} (hstops : Stops rest) :
    readNumber floats negative ((decimal whole).points ++ (fraction ++ (exponent ++ rest))) =
      .ok (.float (floats.read text), rest) := by
  have hafter := head_exponent h.isExponent hstops
  have hinteger := matchInteger_decimal whole (head_fraction h.isFraction hafter)
  have hfraction := matchFraction_append h.isFraction hafter
  have hexponent := matchExponent_append h.isExponent hstops
  have hpart : (fraction.isEmpty && exponent.isEmpty) = false := by
    rcases h.some_part with hne | hne
    · simp [hne]
    · simp [hne]
  have htext : text = if negative then
      0x2d :: ((decimal whole).points ++ fraction ++ exponent)
      else (decimal whole).points ++ fraction ++ exponent := by
    rw [h.text_eq]
    cases negative with
    | true => rfl
    | false => rfl
  simp only [readNumber, hinteger, hfraction, hexponent, hpart, htext]
  rfl

/-- The float is read from its text. -/
def FloatText.Reads (floats : FloatText) : PyFloat → Prop
  | .finite mantissa exponent =>
      (∃ negative whole fraction power,
        IsFloatNumeral (floats.repr mantissa exponent) negative whole fraction power) ∧
      floats.read (floats.repr mantissa exponent) = .finite mantissa exponent
  | _ => True

end Numbers

/-! ## Values -/

section Scalars

variable (style : JsonStyle) (floats : FloatText)

/-- A value begins with a character that is no space and closes nothing. -/
def Opens (text : List CodePoint) : Prop :=
  ∃ c cs, text = c :: cs ∧ isJsonSpace c = false ∧ c ≠ 0x5d ∧ c ≠ 0x7d

/-- The text of a scalar: it opens with a character of its own and is read back. -/
structure ScalarText (text : List CodePoint) (value : PyJson) : Prop where
  opens : ∃ c cs, text = c :: cs ∧ isJsonSpace c = false ∧ c ∉ [0x5b, 0x5d, 0x7b, 0x7d]
  read : ∀ rest, Stops rest → readScalar floats (text ++ rest) = .ok (value, rest)

variable {style floats}

/-- The words of the scanner, one by one. -/
theorem null_word : (nullText, PyJson.null) ∈ jsonWords := by
  simp [jsonWords]

theorem bool_word
    (b : Bool) :
    (if b then trueText else falseText, PyJson.bool b) ∈ jsonWords := by
  cases b with
  | true => simp [jsonWords]
  | false => simp [jsonWords]

theorem nan_word : (nanText, PyJson.float .nan) ∈ jsonWords := by
  simp [jsonWords]

theorem infinity_word
    (negative : Bool) :
    (if negative then 0x2d :: infinityText else infinityText, PyJson.float (.infinity negative)) ∈
      jsonWords := by
  cases negative with
  | true => simp [jsonWords]
  | false => simp [jsonWords]

/-- The words of the scanner begin with different letters. -/
theorem readWord_word
    {word : List CodePoint × PyJson} (hword : word ∈ jsonWords) (rest : List CodePoint) :
    readWord (word.1 ++ rest) = some (word.2, rest) := by
  simp only [jsonWords, List.mem_cons, List.not_mem_nil, or_false] at hword
  rcases hword with rfl | rfl | rfl | rfl | rfl | rfl <;>
    simp [readWord, jsonWords, matchLiteral, nullText, trueText, falseText, nanText, infinityText]

theorem head_word
    {word : List CodePoint × PyJson} (hword : word ∈ jsonWords) :
    ∃ c cs, word.1 = c :: cs ∧ isJsonSpace c = false ∧ c ∉ [0x22, 0x5b, 0x5d, 0x7b, 0x7d] := by
  simp only [jsonWords, List.mem_cons, List.not_mem_nil, or_false] at hword
  rcases hword with rfl | rfl | rfl | rfl | rfl | rfl <;>
    exact ⟨_, _, rfl, by decide, by simp⟩

theorem scalarText_word
    {word : List CodePoint × PyJson} (hword : word ∈ jsonWords) :
    ScalarText floats word.1 word.2 := by
  have hread := readWord_word hword
  obtain ⟨c, cs, htext, hspace, hplain⟩ := head_word hword
  simp only [List.mem_cons, not_or] at hplain
  rw [htext] at hread ⊢
  refine ⟨⟨c, cs, rfl, hspace, by simp [hplain]⟩, ?_⟩
  intro rest _
  have hword := hread rest
  rw [List.cons_append] at hword ⊢
  simp only [readScalar, hplain, if_false, hword]

theorem scalarText_string
    {s : PyStr}
    (hs : style.ensureAscii = true → Unpaired s.points) :
    ScalarText floats (quoted style s) (.str s) := by
  refine ⟨⟨0x22, _, rfl, by decide, by simp⟩, ?_⟩
  intro rest _
  have hlength : s.points.length < (escaped style.ensureAscii s.points ++ rest).length + 1 := by
    have hle := length_escaped style.ensureAscii s.points
    rw [List.length_append]
    omega
  simp only [quoted, List.cons_append, readScalar, if_true,
    readString_escaped hs hlength rest]

/-- No word begins as a number does. -/
theorem readWord_digit
    {c : CodePoint} (hc : isDigitPoint c = true) (rest : List CodePoint) :
    readWord (c :: rest) = none ∧ readWord (0x2d :: c :: rest) = none := by
  have hother : ∀ d : CodePoint, isDigitPoint d = false → d ≠ c := by
    rintro d hd rfl
    rw [hc] at hd
    cases hd
  constructor
  · simp [readWord, jsonWords, matchLiteral, nullText, trueText, falseText, nanText,
      infinityText, hother 0x6e rfl, hother 0x74 rfl, hother 0x66 rfl, hother 0x4e rfl,
      hother 0x49 rfl, hother 0x2d rfl]
  · simp [readWord, jsonWords, matchLiteral, nullText, trueText, falseText, nanText,
      infinityText, hother 0x49 rfl]

/-- The text of a number: its sign, then digits. -/
theorem scalarText_number
    {text : List CodePoint} {value : PyJson} {negative : Bool} {whole : Nat}
    {after : List CodePoint}
    (htext : text = (if negative then [0x2d] else []) ++ ((decimal whole).points ++ after))
    (hread : ∀ rest, Stops rest →
      readNumber floats negative ((decimal whole).points ++ (after ++ rest)) = .ok (value, rest)) :
    ScalarText floats text value := by
  obtain ⟨c, cs, hpoints⟩ := List.exists_cons_of_ne_nil (decimal_ne_nil whole)
  have hc : isDigitPoint c = true := isDigitPoint_decimal (n := whole) (by simp [hpoints])
  have hother : ∀ d : CodePoint, isDigitPoint d = false → c ≠ d := by
    rintro d hd rfl
    rw [hc] at hd
    cases hd
  have hspace : isJsonSpace c = false := by
    simp [isJsonSpace, hother 0x20 rfl, hother 0x09 rfl, hother 0x0a rfl, hother 0x0d rfl]
  rw [hpoints] at htext hread
  subst htext
  cases negative with
  | true =>
      refine ⟨⟨0x2d, _, rfl, by decide, by simp⟩, ?_⟩
      intro rest hstops
      have hword := (readWord_digit hc (cs ++ (after ++ rest))).2
      have hnumber := hread rest hstops
      simp only [List.cons_append] at hnumber
      simp [readScalar, hword, hnumber]
  | false =>
      refine ⟨⟨c, _, rfl, hspace, ?_⟩, ?_⟩
      · simp [hother 0x5b rfl, hother 0x5d rfl, hother 0x7b rfl, hother 0x7d rfl]
      · intro rest hstops
        have hword := (readWord_digit hc (cs ++ (after ++ rest))).1
        have hnumber := hread rest hstops
        simp only [List.cons_append] at hnumber
        simp [readScalar, hword, hnumber, hother 0x22 rfl, hother 0x2d rfl]

theorem scalarText_int
    {n : Int} {text : List CodePoint}
    (htext : intPoints n = .ok text) :
    ScalarText floats text (.int n) := by
  have hn : n.natAbs < 10 ^ maxStrDigits := by
    by_contra hlarge
    rw [intPoints, if_pos (Nat.le_of_not_lt hlarge)] at htext
    cases htext
  rw [intPoints, if_neg (Nat.not_le.mpr hn)] at htext
  have hread : ∀ negative rest, Stops rest →
      readNumber floats negative ((decimal n.natAbs).points ++ ([] ++ rest)) =
        .ok (.int (if negative then -(n.natAbs : Int) else n.natAbs), rest) :=
    fun negative rest hstops => readNumber_int floats negative hn hstops
  by_cases hneg : n < 0
  · rw [if_pos hneg] at htext
    cases htext
    have hvalue : -(n.natAbs : Int) = n := by omega
    have hnumber := hread true
    simp only [if_true, hvalue] at hnumber
    exact scalarText_number (by simp) hnumber
  · rw [if_neg hneg] at htext
    cases htext
    have hvalue : (n.natAbs : Int) = n := by omega
    have hnumber := hread false
    simp only [Bool.false_eq_true, if_false, hvalue] at hnumber
    exact scalarText_number (by simp) hnumber

theorem scalarText_float
    {x : PyFloat}
    (hx : floats.Reads x) :
    ScalarText floats (floatText floats x) (.float x) := by
  cases x with
  | finite mantissa exponent =>
      obtain ⟨⟨negative, whole, fraction, power, hnumeral⟩, hread⟩ := hx
      have htext : floatText floats (.finite mantissa exponent) =
          (if negative then [0x2d] else []) ++
            ((decimal whole).points ++ (fraction ++ power)) := by
        rw [floatText, hnumeral.text_eq, List.append_assoc]
      refine scalarText_number htext ?_
      intro rest hstops
      have hnumber := readNumber_float floats hnumeral hstops
      rw [hread] at hnumber
      rw [List.append_assoc]
      exact hnumber
  | infinity negative => exact scalarText_word (infinity_word negative)
  | nan => exact scalarText_word nan_word

end Scalars

section Values

variable (style : JsonStyle) (floats : FloatText)

mutual

/-- How deeply lists and dicts are nested. -/
def jsonDepth : PyJson → Nat
  | .list items => jsonDepthItems items + 1
  | .dict items => jsonDepthMembers items + 1
  | _ => 0

def jsonDepthItems : List PyJson → Nat
  | [] => 0
  | item :: rest => max (jsonDepth item) (jsonDepthItems rest)

def jsonDepthMembers : List (PyStr × PyJson) → Nat
  | [] => 0
  | (_, value) :: rest => max (jsonDepth value) (jsonDepthMembers rest)

end

/-- The string is read back from its text. -/
def StringReads (s : PyStr) : Prop :=
  style.ensureAscii = true → Unpaired s.points

/-- No surrogate stands in a text. -/
theorem stringReads_ofString
    (text : String) :
    StringReads style (.ofString text) := by
  intro _
  have hpoints : ∀ c ∈ (PyStr.ofString text).points, ¬ IsHigh c := by
    intro c hc hhigh
    simp only [PyStr.ofString, List.mem_map] at hc
    obtain ⟨char, _, rfl⟩ := hc
    have hnat : char.toNat = char.val.toNat := rfl
    obtain ⟨hlow, hle⟩ := hhigh
    simp only at hlow hle
    rcases char.valid with hvalid | ⟨hvalid, _⟩
    · omega
    · omega
  have hpairs : (PyStr.ofString text).points.Pairwise (fun c d => ¬ (IsHigh c ∧ IsLow d)) :=
    List.pairwise_of_forall_mem_list (fun c hc _ _ h => hpoints c hc h.1)
  exact hpairs.isChain

mutual

/-- The strings and the floats of a value are read back, and its keys are distinct. -/
def JsonReads : PyJson → Prop
  | .null => True
  | .bool _ => True
  | .int _ => True
  | .float x => floats.Reads x
  | .str s => StringReads style s
  | .list items => JsonReadsItems items
  | .dict items => (items.map Prod.fst).Nodup ∧ JsonReadsMembers items

def JsonReadsItems : List PyJson → Prop
  | [] => True
  | item :: rest => JsonReads item ∧ JsonReadsItems rest

def JsonReadsMembers : List (PyStr × PyJson) → Prop
  | [] => True
  | (key, value) :: rest => StringReads style key ∧ JsonReads value ∧ JsonReadsMembers rest

end

variable {style floats}

theorem skipSpace_opens
    {lead text : List CodePoint}
    (hlead : ∀ c ∈ lead, isJsonSpace c = true) (hopens : Opens text) (rest : List CodePoint) :
    skipSpace (lead ++ (text ++ rest)) = text ++ rest := by
  obtain ⟨c, cs, rfl, hspace, _⟩ := hopens
  rw [skipSpace, List.dropWhile_append_of_pos hlead, List.cons_append,
    List.dropWhile_cons_of_neg (by simp [hspace])]

theorem skipSpace_self
    {text : List CodePoint}
    (hopens : Opens text) (rest : List CodePoint) :
    skipSpace (text ++ rest) = text ++ rest :=
  skipSpace_opens (List.forall_mem_nil _) hopens rest

theorem gap_space
    (style : JsonStyle) :
    ∀ c ∈ style.gap, isJsonSpace c = true := by
  intro c hc
  unfold JsonStyle.gap at hc
  split at hc
  · rw [List.mem_singleton.mp hc]
    decide
  · cases hc

/-- A text that is a value's is read back in front of whatever closes or separates. -/
structure ValueText (floats : FloatText) (frames : Nat) (text : List CodePoint)
    (value : PyJson) : Prop where
  opens : Opens text
  read : ∀ rest, Stops rest → readValue floats frames (text ++ rest) = .ok (value, rest)

theorem ScalarText.valueText
    {frames : Nat} {text : List CodePoint} {value : PyJson}
    (h : ScalarText floats text value) :
    ValueText floats frames text value := by
  obtain ⟨c, cs, htext, hspace, hplain⟩ := h.opens
  simp only [List.mem_cons, not_or] at hplain
  refine ⟨⟨c, cs, htext, hspace, hplain.2.1, hplain.2.2.2.1⟩, ?_⟩
  intro rest hstops
  have hread := h.read rest hstops
  rw [htext, List.cons_append] at hread ⊢
  cases frames with
  | zero => simp [readValue, hplain, hread]
  | succ frames => simp [readValue, hplain, hread]

/-- The items of a list are read back in front of its bracket. -/
theorem readItems_texts
    (style : JsonStyle) {frames : Nat} {items : List PyJson} {texts : List (List CodePoint)}
    (hne : items ≠ [])
    (htexts : List.Forall₂ (ValueText floats frames) texts items)
    (fuel : Nat) (hfuel : items.length ≤ fuel)
    (lead : List CodePoint) (hlead : ∀ c ∈ lead, isJsonSpace c = true) (rest : List CodePoint) :
    readItems (readValue floats frames) fuel
        (lead ++ (List.intercalate (0x2c :: style.gap) texts ++ 0x5d :: rest)) =
      .ok (items, rest) := by
  induction htexts generalizing fuel lead with
  | nil => exact absurd rfl hne
  | @cons text item texts items htext htexts ih =>
      cases fuel with
      | zero => simp at hfuel
      | succ fuel =>
          cases htexts with
          | nil =>
              have hread := htext.read (0x5d :: rest) (by rintro c ⟨⟩; simp [isDigitPoint])
              simp only [List.intercalate_singleton, readItems]
              rw [skipSpace_opens hlead htext.opens, hread, ok_bind]
              simp [skipSpace, isJsonSpace]
          | @cons text' item' texts items htext' htexts =>
              have hread := htext.read
                (0x2c :: (style.gap ++ (List.intercalate (0x2c :: style.gap) (text' :: texts) ++
                  0x5d :: rest))) (by rintro c ⟨⟩; simp [isDigitPoint])
              have hrest := ih (by simp) fuel (by simpa using hfuel) style.gap (gap_space style)
              rw [List.intercalate_cons_cons]
              simp only [List.append_assoc, List.cons_append, readItems]
              rw [skipSpace_opens hlead htext.opens, hread, ok_bind]
              simp [skipSpace, isJsonSpace, hrest]

/-- The text of a member: its key, the colon and its value. -/
def memberText (style : JsonStyle) (key : PyStr) (text : List CodePoint) : List CodePoint :=
  quoted style key ++ (0x3a :: style.gap ++ text)

/-- A member whose key and value are read back. -/
def MemberText (style : JsonStyle) (floats : FloatText) (frames : Nat)
    (text : List CodePoint) (member : PyStr × PyJson) : Prop :=
  StringReads style member.1 ∧
    ∃ value, text = memberText style member.1 value ∧ ValueText floats frames value member.2

theorem MemberText.opens
    {frames : Nat} {text : List CodePoint} {member : PyStr × PyJson}
    (h : MemberText style floats frames text member) :
    Opens text := by
  obtain ⟨_, value, rfl, _⟩ := h
  exact ⟨0x22, _, rfl, by decide, by simp, by simp⟩

theorem readKey_quoted
    {key : PyStr}
    (hkey : StringReads style key) (rest : List CodePoint) :
    readKey (quoted style key ++ (0x3a :: rest)) = .ok (key, rest) := by
  have hlength : key.points.length <
      (escaped style.ensureAscii key.points ++ 0x3a :: rest).length + 1 := by
    have hle := length_escaped style.ensureAscii key.points
    rw [List.length_append]
    omega
  simp only [quoted, List.cons_append, readKey, if_true, readString_escaped hkey hlength]
  simp [skipSpace, isJsonSpace]

theorem readMembers_texts
    {frames : Nat} {members : List (PyStr × PyJson)} {texts : List (List CodePoint)}
    (hne : members ≠ [])
    (htexts : List.Forall₂ (MemberText style floats frames) texts members)
    (fuel : Nat) (hfuel : members.length ≤ fuel)
    (lead : List CodePoint) (hlead : ∀ c ∈ lead, isJsonSpace c = true) (rest : List CodePoint) :
    readMembers (readValue floats frames) fuel
        (lead ++ (List.intercalate (0x2c :: style.gap) texts ++ 0x7d :: rest)) =
      .ok (members, rest) := by
  induction htexts generalizing fuel lead with
  | nil => exact absurd rfl hne
  | @cons text member texts members htext htexts ih =>
      cases fuel with
      | zero => simp at hfuel
      | succ fuel =>
          have hopens := htext.opens
          obtain ⟨hkey, value, rfl, hvalue⟩ := htext
          cases htexts with
          | nil =>
              have hread := hvalue.read (0x7d :: rest) (by rintro c ⟨⟩; simp [isDigitPoint])
              simp only [List.intercalate_singleton, readMembers]
              rw [skipSpace_opens hlead hopens]
              simp only [memberText, List.append_assoc, List.cons_append]
              rw [readKey_quoted hkey, ok_bind]
              simp only [skipSpace_opens (gap_space style) hvalue.opens]
              rw [hread, ok_bind]
              simp [skipSpace, isJsonSpace]
          | @cons text' member' texts members htext' htexts =>
              have hread := hvalue.read
                (0x2c :: (style.gap ++ (List.intercalate (0x2c :: style.gap) (text' :: texts) ++
                  0x7d :: rest))) (by rintro c ⟨⟩; simp [isDigitPoint])
              have hrest := ih (by simp) fuel (by simpa using hfuel) style.gap (gap_space style)
              rw [List.intercalate_cons_cons]
              simp only [List.append_assoc, List.cons_append, readMembers]
              rw [skipSpace_opens hlead hopens]
              simp only [memberText, List.append_assoc, List.cons_append]
              rw [readKey_quoted hkey, ok_bind]
              simp only [skipSpace_opens (gap_space style) hvalue.opens]
              rw [hread, ok_bind]
              simp [skipSpace, isJsonSpace, hrest]

/-- Members with distinct keys are the items of their dict. -/
theorem dictOf_eq
    {members : List (PyStr × PyJson)}
    (hnodup : (members.map Prod.fst).Nodup) :
    dictOf members = members := by
  have hfold : ∀ items, (items.map Prod.fst ++ members.map Prod.fst).Nodup →
      members.foldl (fun items member => setItem items member.1 member.2) items =
        items ++ members := by
    induction members with
    | nil =>
        intro items _
        simp
    | cons member members ih =>
        intro items hitems
        have hfree : member.1 ∉ items.map Prod.fst := by
          intro hmem
          have hdisjoint := (List.nodup_append.mp hitems).2.2
          exact hdisjoint _ hmem _ (by simp) rfl
        rw [List.map_cons, List.nodup_cons] at hnodup
        rw [List.foldl_cons, setItem, if_neg hfree, ih hnodup.2, List.append_assoc]
        · rfl
        · simpa using hitems
  exact hfold [] (by simpa using hnodup)

theorem length_le_intercalate
    {α : Type} {R : List CodePoint → α → Prop} (sep : List CodePoint)
    {texts : List (List CodePoint)} {items : List α}
    (hR : ∀ text item, R text item → Opens text) (h : List.Forall₂ R texts items) :
    items.length ≤ (List.intercalate sep texts).length := by
  induction h with
  | nil => simp
  | @cons text item texts items htext hrest ih =>
      obtain ⟨c, cs, rfl, _⟩ := hR text item htext
      cases hrest with
      | nil => simp
      | cons htext' hrest =>
          rw [List.intercalate_cons_cons]
          simp only [List.length_append, List.length_cons] at ih ⊢
          omega

theorem opens_intercalate
    {text : List CodePoint}
    (h : Opens text) (sep : List CodePoint) (texts : List (List CodePoint)) :
    Opens (List.intercalate sep (text :: texts)) := by
  obtain ⟨c, cs, rfl, hc⟩ := h
  cases texts with
  | nil => exact ⟨c, cs, List.intercalate_singleton, hc⟩
  | cons text' texts =>
      rw [List.intercalate_cons_cons]
      exact ⟨c, _, rfl, hc⟩

theorem valueText_list
    {frames : Nat} {items : List PyJson} {texts : List (List CodePoint)}
    (htexts : List.Forall₂ (ValueText floats frames) texts items) :
    ValueText floats (frames + 1)
      (0x5b :: (List.intercalate (0x2c :: style.gap) texts ++ [0x5d])) (.list items) := by
  refine ⟨⟨0x5b, _, rfl, by decide, by simp, by simp⟩, ?_⟩
  intro rest _
  simp only [List.cons_append, List.append_assoc, List.nil_append, readValue, if_true]
  have hfuel := length_le_intercalate (0x2c :: style.gap) (fun _ _ h => h.opens) htexts
  have hread := fun hne fuel hfuel =>
    readItems_texts style hne htexts fuel hfuel [] nofun rest
  cases htexts with
  | nil => simp [readList, skipSpace, isJsonSpace]
  | @cons text item texts items htext hrest =>
      have hopens := opens_intercalate htext.opens (0x2c :: style.gap) texts
      have hskip := skipSpace_self hopens (0x5d :: rest)
      obtain ⟨c, cs, heq, _, hclose, _⟩ := hopens
      rw [heq] at hfuel hread hskip ⊢
      simp only [List.nil_append, List.cons_append] at hread hskip
      simp only [readList, List.cons_append, hskip, hclose, if_false]
      rw [hread (by simp) _ (by simp at hfuel ⊢; omega)]
      rfl

theorem valueText_dict
    {frames : Nat} {members : List (PyStr × PyJson)} {texts : List (List CodePoint)}
    (hnodup : (members.map Prod.fst).Nodup)
    (htexts : List.Forall₂ (MemberText style floats frames) texts members) :
    ValueText floats (frames + 1)
      (0x7b :: (List.intercalate (0x2c :: style.gap) texts ++ [0x7d])) (.dict members) := by
  refine ⟨⟨0x7b, _, rfl, by decide, by simp, by simp⟩, ?_⟩
  intro rest _
  have hbrace : ((0x7b : CodePoint) = 0x5b) = False := by simp
  simp only [List.cons_append, List.append_assoc, List.nil_append, readValue, hbrace, if_false,
    if_true]
  have hfuel := length_le_intercalate (0x2c :: style.gap) (fun _ _ h => h.opens) htexts
  have hread := fun hne fuel hfuel =>
    readMembers_texts hne htexts fuel hfuel [] nofun rest
  cases htexts with
  | nil => simp [readDict, skipSpace, isJsonSpace]
  | @cons text member texts members htext hrest =>
      have hopens := opens_intercalate htext.opens (0x2c :: style.gap) texts
      have hskip := skipSpace_self hopens (0x7d :: rest)
      obtain ⟨c, cs, heq, _, _, hclose⟩ := hopens
      rw [heq] at hfuel hread hskip ⊢
      simp only [List.nil_append, List.cons_append] at hread hskip
      simp only [readDict, List.cons_append, hskip, hclose, if_false]
      rw [hread (by simp) _ (by simp at hfuel ⊢; omega), ok_bind, dictOf_eq hnodup]
      rfl

mutual

/-- The text of a value is read back. -/
theorem valueText_of_dumps
    (frames : Nat) :
    ∀ value text, JsonReads style floats value →
      jsonDumps style floats frames value = .ok text → ValueText floats frames text value
  | .null, text => by
      rintro _ ⟨⟩
      exact (scalarText_word null_word).valueText
  | .bool b, text => by
      rintro _ ⟨⟩
      exact (scalarText_word (bool_word b)).valueText
  | .int n, text => fun _ htext => (scalarText_int htext).valueText
  | .float x, text => by
      rintro hreads ⟨⟩
      exact (scalarText_float hreads).valueText
  | .str s, text => by
      rintro hreads ⟨⟩
      exact (scalarText_string hreads).valueText
  | .list items, text => by
      intro hreads htext
      cases frames with
      | zero => cases htext
      | succ frames =>
          simp only [jsonDumps] at htext
          obtain ⟨texts, htexts, htext⟩ := bind_eq_ok htext
          cases htext
          exact valueText_list (valueTexts_of_items frames items texts hreads htexts)
  | .dict items, text => by
      intro hreads htext
      cases frames with
      | zero => cases htext
      | succ frames =>
          simp only [jsonDumps] at htext
          obtain ⟨texts, htexts, htext⟩ := bind_eq_ok htext
          cases htext
          exact valueText_dict hreads.1 (memberTexts_of_members frames items texts hreads.2 htexts)

theorem valueTexts_of_items
    (frames : Nat) :
    ∀ items texts, JsonReadsItems style floats items →
      jsonItems style floats frames items = .ok texts →
        List.Forall₂ (ValueText floats frames) texts items
  | [], texts => by
      rintro _ ⟨⟩
      exact .nil
  | item :: rest, texts => by
      intro hreads htexts
      simp only [jsonItems] at htexts
      obtain ⟨text, htext, htexts⟩ := bind_eq_ok htexts
      obtain ⟨later, hlater, htexts⟩ := bind_eq_ok htexts
      cases htexts
      exact .cons (valueText_of_dumps frames item text hreads.1 htext)
        (valueTexts_of_items frames rest later hreads.2 hlater)

theorem memberTexts_of_members
    (frames : Nat) :
    ∀ members texts, JsonReadsMembers style floats members →
      jsonMembers style floats frames members = .ok texts →
        List.Forall₂ (MemberText style floats frames) texts members
  | [], texts => by
      rintro _ ⟨⟩
      exact .nil
  | (key, value) :: rest, texts => by
      intro hreads htexts
      simp only [jsonMembers] at htexts
      obtain ⟨text, htext, htexts⟩ := bind_eq_ok htexts
      obtain ⟨later, hlater, htexts⟩ := bind_eq_ok htexts
      cases htexts
      exact .cons
        ⟨hreads.1, text, rfl, valueText_of_dumps frames value text hreads.2.1 htext⟩
        (memberTexts_of_members frames rest later hreads.2.2 hlater)

end

/-- The round trip: `json.loads(json.dumps(value)) == value`. -/
theorem jsonLoads_jsonDumps
    {frames : Nat} {value : PyJson} {text : List CodePoint}
    (hreads : JsonReads style floats value)
    (htext : jsonDumps style floats frames value = .ok text) :
    jsonLoads floats frames text = .ok value := by
  have hvalue := valueText_of_dumps frames value text hreads htext
  have hskip := skipSpace_self hvalue.opens []
  have hread := hvalue.read [] nofun
  simp only [List.append_nil] at hskip hread
  rw [jsonLoads, hskip, hread]
  rfl

mutual

/-- The integers of a value have no more digits than `str` admits. -/
def Printable : PyJson → Prop
  | .int n => n.natAbs < 10 ^ maxStrDigits
  | .list items => PrintableItems items
  | .dict items => PrintableMembers items
  | _ => True

def PrintableItems : List PyJson → Prop
  | [] => True
  | item :: rest => Printable item ∧ PrintableItems rest

def PrintableMembers : List (PyStr × PyJson) → Prop
  | [] => True
  | (_, value) :: rest => Printable value ∧ PrintableMembers rest

end

mutual

/-- A value within the limits has a text. -/
theorem jsonDumps_total
    (frames : Nat) :
    ∀ value, Printable value → jsonDepth value ≤ frames →
      ∃ text, jsonDumps style floats frames value = .ok text
  | .null => fun _ _ => ⟨_, rfl⟩
  | .bool _ => fun _ _ => ⟨_, rfl⟩
  | .int n => by
      intro hprintable _
      simp only [jsonDumps, intPoints]
      rw [if_neg (Nat.not_le.mpr hprintable)]
      split
      · exact ⟨_, rfl⟩
      · exact ⟨_, rfl⟩
  | .float _ => fun _ _ => ⟨_, rfl⟩
  | .str _ => fun _ _ => ⟨_, rfl⟩
  | .list items => by
      intro hprintable hdepth
      cases frames with
      | zero => simp [jsonDepth] at hdepth
      | succ frames =>
          obtain ⟨texts, htexts⟩ := jsonItems_total frames items hprintable
            (by simpa [jsonDepth] using hdepth)
          exact ⟨_, by rw [jsonDumps, htexts]; rfl⟩
  | .dict items => by
      intro hprintable hdepth
      cases frames with
      | zero => simp [jsonDepth] at hdepth
      | succ frames =>
          obtain ⟨texts, htexts⟩ := jsonMembers_total frames items hprintable
            (by simpa [jsonDepth] using hdepth)
          exact ⟨_, by rw [jsonDumps, htexts]; rfl⟩

theorem jsonItems_total
    (frames : Nat) :
    ∀ items, PrintableItems items → jsonDepthItems items ≤ frames →
      ∃ texts, jsonItems style floats frames items = .ok texts
  | [] => fun _ _ => ⟨[], rfl⟩
  | item :: rest => by
      intro hprintable hdepth
      unfold jsonDepthItems at hdepth
      obtain ⟨text, htext⟩ := jsonDumps_total frames item hprintable.1
        (le_trans (le_max_left _ _) hdepth)
      obtain ⟨texts, htexts⟩ := jsonItems_total frames rest hprintable.2
        (le_trans (le_max_right _ _) hdepth)
      exact ⟨text :: texts, by rw [jsonItems, htext, ok_bind, htexts]; rfl⟩

theorem jsonMembers_total
    (frames : Nat) :
    ∀ members, PrintableMembers members → jsonDepthMembers members ≤ frames →
      ∃ texts, jsonMembers style floats frames members = .ok texts
  | [] => fun _ _ => ⟨[], rfl⟩
  | (key, value) :: rest => by
      intro hprintable hdepth
      unfold jsonDepthMembers at hdepth
      obtain ⟨text, htext⟩ := jsonDumps_total frames value hprintable.1
        (le_trans (le_max_left _ _) hdepth)
      obtain ⟨texts, htexts⟩ := jsonMembers_total frames rest hprintable.2
        (le_trans (le_max_right _ _) hdepth)
      exact ⟨_, by rw [jsonMembers, htext, ok_bind, htexts]; rfl⟩

end

mutual

/-- A value that has a text is within the limits. -/
theorem printable_of_jsonDumps
    (frames : Nat) :
    ∀ value text, jsonDumps style floats frames value = .ok text → Printable value
  | .null => fun _ _ => trivial
  | .bool _ => fun _ _ => trivial
  | .int n => by
      intro text htext
      rw [jsonDumps, intPoints] at htext
      by_contra hlong
      rw [if_pos (Nat.not_lt.mp hlong)] at htext
      cases htext
  | .float _ => fun _ _ => trivial
  | .str _ => fun _ _ => trivial
  | .list items => by
      intro text htext
      cases frames with
      | zero => cases htext
      | succ frames =>
          rw [jsonDumps] at htext
          obtain ⟨texts, htexts, _⟩ := bind_eq_ok htext
          exact printable_of_jsonItems frames items texts htexts
  | .dict items => by
      intro text htext
      cases frames with
      | zero => cases htext
      | succ frames =>
          rw [jsonDumps] at htext
          obtain ⟨texts, htexts, _⟩ := bind_eq_ok htext
          exact printable_of_jsonMembers frames items texts htexts

theorem printable_of_jsonItems
    (frames : Nat) :
    ∀ items texts, jsonItems style floats frames items = .ok texts → PrintableItems items
  | [] => fun _ _ => trivial
  | item :: rest => by
      intro texts htexts
      rw [jsonItems] at htexts
      obtain ⟨text, htext, htexts⟩ := bind_eq_ok htexts
      obtain ⟨later, hlater, _⟩ := bind_eq_ok htexts
      exact ⟨printable_of_jsonDumps frames item text htext,
        printable_of_jsonItems frames rest later hlater⟩

theorem printable_of_jsonMembers
    (frames : Nat) :
    ∀ members texts, jsonMembers style floats frames members = .ok texts →
      PrintableMembers members
  | [] => fun _ _ => trivial
  | (_, value) :: rest => by
      intro texts htexts
      rw [jsonMembers] at htexts
      obtain ⟨text, htext, htexts⟩ := bind_eq_ok htexts
      obtain ⟨later, hlater, _⟩ := bind_eq_ok htexts
      exact ⟨printable_of_jsonDumps frames value text htext,
        printable_of_jsonMembers frames rest later hlater⟩

end

/-- The members of a dict that has a text have one too, a frame deeper. -/
theorem jsonDumps_of_mem
    {frames : Nat} {items : List (PyStr × PyJson)} {item : PyStr × PyJson}
    {text : List CodePoint}
    (h : jsonDumps style floats frames (.dict items) = .ok text) (hitem : item ∈ items) :
    ∃ deeper part, frames = deeper + 1 ∧ jsonDumps style floats deeper item.2 = .ok part := by
  cases frames with
  | zero => cases h
  | succ deeper =>
      rw [jsonDumps] at h
      obtain ⟨texts, htexts, -⟩ := bind_eq_ok h
      clear h
      induction items generalizing texts with
      | nil => cases hitem
      | cons first rest ih =>
          obtain ⟨key, value⟩ := first
          rw [jsonMembers] at htexts
          obtain ⟨part, hpart, htexts⟩ := bind_eq_ok htexts
          obtain ⟨later, hlater, _⟩ := bind_eq_ok htexts
          rcases List.mem_cons.mp hitem with rfl | hitem
          · exact ⟨deeper, part, rfl, hpart⟩
          · exact ih hitem later hlater

theorem jsonReadsMembers_iff
    {items : List (PyStr × PyJson)} :
    JsonReadsMembers style floats items ↔
      ∀ item ∈ items, StringReads style item.1 ∧ JsonReads style floats item.2 := by
  induction items with
  | nil => simp [JsonReadsMembers]
  | cons item rest ih =>
      obtain ⟨key, value⟩ := item
      simp only [JsonReadsMembers, List.forall_mem_cons, ih, and_assoc]

/-- A dict whose texts come back keeps to that when an item is set. -/
theorem jsonReads_setItem
    {items : List (PyStr × PyJson)} {key : PyStr} {value : PyJson}
    (h : JsonReads style floats (.dict items)) (hkey : StringReads style key)
    (hvalue : JsonReads style floats value) :
    JsonReads style floats (.dict (setItem items key value)) := by
  obtain ⟨hnodup, hitems⟩ := h
  refine ⟨nodup_setItem hnodup, jsonReadsMembers_iff.mpr ?_⟩
  intro item hitem
  rcases mem_setItem hitem with hold | rfl
  · exact jsonReadsMembers_iff.mp hitems item hold
  · exact ⟨hkey, hvalue⟩

end Values

end Lib
end PrReviewer
