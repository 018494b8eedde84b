import Mathlib.Data.List.TakeWhile
import PrReviewer.Lib.JsonRoundTrip

/-!
# JSON texts that are cut short

What `json.loads` reads at the start of a text it reads at the start of every longer one: a
string ends with its quote, a list or a dict with its bracket, and a number in front of a
character that no number goes on with.  So the text of a dict is no JSON text when it is cut.
-/

namespace PrReviewer
namespace Lib

theorem dropWhile_append_of_ne
    {α : Type} {p : α → Bool} {xs : List α}
    (h : xs.dropWhile p ≠ []) (more : List α) :
    (xs ++ more).dropWhile p = xs.dropWhile p ++ more ∧
      (xs ++ more).takeWhile p = xs.takeWhile p := by
  refine ⟨?_, ?_⟩
  · rw [List.dropWhile_append, if_neg (by simpa using h)]
  · rw [List.takeWhile_append, if_neg ?_]
    intro hlength
    have hsum := congrArg List.length (List.takeWhile_append_dropWhile (p := p) (l := xs))
    rw [List.length_append, hlength] at hsum
    exact h (List.eq_nil_of_length_eq_zero (by omega))

theorem skipSpace_append
    {text : List CodePoint} (h : skipSpace text ≠ []) (more : List CodePoint) :
    skipSpace (text ++ more) = skipSpace text ++ more :=
  (dropWhile_append_of_ne h more).1

/-! ## Strings -/

section Strings

theorem readHex_append
    {text rest : List CodePoint} {n : Nat}
    (h : readHex text = some (n, rest)) (more : List CodePoint) :
    readHex (text ++ more) = some (n, rest ++ more) := by
  match text with
  | [] => cases h
  | [_] => cases h
  | [_, _] => cases h
  | [_, _, _] => cases h
  | a :: b :: c :: d :: text =>
      simp only [readHex, List.cons_append] at h ⊢
      obtain ⟨w, hw, h⟩ := Option.bind_eq_some_iff.mp h
      obtain ⟨x, hx, h⟩ := Option.bind_eq_some_iff.mp h
      obtain ⟨y, hy, h⟩ := Option.bind_eq_some_iff.mp h
      obtain ⟨z, hz, h⟩ := Option.bind_eq_some_iff.mp h
      cases h
      simp [hw, hx, hy, hz]

theorem lowSurrogate?_append_some
    {text rest : List CodePoint} {n : Nat}
    (h : lowSurrogate? text = some (n, rest)) (more : List CodePoint) :
    lowSurrogate? (text ++ more) = some (n, rest ++ more) := by
  match text with
  | [] => cases h
  | [_] => cases h
  | slash :: letter :: text =>
      simp only [lowSurrogate?, List.cons_append] at h ⊢
      split at h
      · next hescape =>
          obtain ⟨⟨low, left⟩, hhex, h⟩ := Option.bind_eq_some_iff.mp h
          rw [if_pos hescape, readHex_append hhex more]
          simp only at h
          split at h
          · next hrange =>
              cases h
              simp [hrange]
          · cases h
      · cases h

/-- Where the string goes on with a character, no low surrogate comes of what is behind it. -/
theorem lowSurrogate?_append_none
    {text : List CodePoint}
    (h : lowSurrogate? text = none) (hpoint : readPoint text ≠ none) (more : List CodePoint) :
    lowSurrogate? (text ++ more) = none := by
  match text with
  | [] => exact absurd rfl hpoint
  | [c] =>
      have hslash : c ≠ 0x5c := by
        rintro rfl
        exact hpoint rfl
      cases more with
      | nil => rfl
      | cons letter more => simp [lowSurrogate?, hslash]
  | slash :: letter :: text =>
      simp only [lowSurrogate?, List.cons_append] at h ⊢
      split at h
      · next hescape =>
          obtain ⟨rfl, rfl⟩ := hescape
          simp only [and_self, if_true]
          cases hhex : readHex text with
          | none =>
              have hunicode : readUnicode text = none := by
                rw [readUnicode, hhex]
                rfl
              refine absurd ?_ hpoint
              simp only [readPoint, hunicode, Option.map_none, if_true,
                if_neg (show ¬ (0x5c : CodePoint) = 0x22 by decide)]
          | some read =>
              obtain ⟨n, rest⟩ := read
              rw [hhex] at h
              rw [readHex_append hhex more]
              simp only [Option.bind_eq_bind, Option.bind_some] at h ⊢
              split at h
              · cases h
              · next hrange => rw [if_neg hrange]
      · next hescape => rw [if_neg hescape]

theorem readUnicode_append
    {text rest : List CodePoint} {c : CodePoint}
    (h : readUnicode text = some (c, rest)) (hpoint : readPoint rest ≠ none)
    (more : List CodePoint) :
    readUnicode (text ++ more) = some (c, rest ++ more) := by
  unfold readUnicode at h ⊢
  obtain ⟨⟨n, left⟩, hhex, h⟩ := Option.bind_eq_some_iff.mp h
  rw [readHex_append hhex more]
  simp only [Option.bind_eq_bind, Option.bind_some] at h ⊢
  split at h
  · next hhigh =>
      rw [if_pos hhigh]
      split at h
      · next low behind hlow =>
          simp only [Option.some.injEq, Prod.mk.injEq] at h
          obtain ⟨rfl, rfl⟩ := h
          rw [lowSurrogate?_append_some hlow more]
      · next hlow =>
          simp only [Option.some.injEq, Prod.mk.injEq] at h
          obtain ⟨rfl, rfl⟩ := h
          rw [lowSurrogate?_append_none hlow hpoint more]
  · next hhigh =>
      simp only [Option.some.injEq, Prod.mk.injEq] at h
      obtain ⟨rfl, rfl⟩ := h
      rw [if_neg hhigh]

/-- The next character of a string, where the string goes on or has ended. -/
theorem readPoint_append
    {text rest : List CodePoint} {point : Option CodePoint}
    (h : readPoint text = some (point, rest)) (hpoint : point = none ∨ readPoint rest ≠ none)
    (more : List CodePoint) :
    readPoint (text ++ more) = some (point, rest ++ more) := by
  cases text with
  | nil => cases h
  | cons c text =>
      simp only [readPoint, List.cons_append] at h ⊢
      split at h
      · next hquote =>
          cases h
          rw [if_pos hquote]
      · next hquote =>
          rw [if_neg hquote]
          split at h
          · next hslash =>
              rw [if_pos hslash]
              cases text with
              | nil => cases h
              | cons letter text =>
                  simp only [List.cons_append] at h ⊢
                  split at h
                  · next hletter =>
                      obtain ⟨⟨d, left⟩, hunicode, h⟩ := Option.map_eq_some_iff.mp h
                      cases h
                      have hnext := hpoint.resolve_left (Option.some_ne_none d)
                      rw [if_pos hletter, readUnicode_append hunicode hnext more]
                      rfl
                  · next hletter =>
                      obtain ⟨d, hlookup, h⟩ := Option.map_eq_some_iff.mp h
                      cases h
                      rw [if_neg hletter, hlookup]
                      rfl
          · next hslash =>
              rw [if_neg hslash]
              split at h
              · cases h
              · next hcontrol =>
                  cases h
                  rw [if_neg hcontrol]

theorem readString_append
    {fuel fuel' : Nat} {text points rest : List CodePoint}
    (h : readString fuel text = some (points, rest)) (hfuel : fuel ≤ fuel')
    (more : List CodePoint) :
    readString fuel' (text ++ more) = some (points, rest ++ more) := by
  induction fuel generalizing fuel' text points with
  | zero => cases h
  | succ fuel ih =>
      obtain ⟨fuel', rfl⟩ := Nat.exists_eq_succ_of_ne_zero (Nat.ne_zero_of_lt hfuel)
      rw [readString] at h ⊢
      split at h
      · cases h
      · next left hpoint =>
          cases h
          rw [readPoint_append hpoint (.inl rfl) more]
      · next c left hpoint =>
          obtain ⟨⟨later, behind⟩, hlater, h⟩ := Option.map_eq_some_iff.mp h
          cases h
          have hnext : readPoint left ≠ none := by
            intro hnone
            cases fuel with
            | zero => cases hlater
            | succ fuel =>
                rw [readString, hnone] at hlater
                cases hlater
          rw [readPoint_append hpoint (.inr hnext) more]
          simp only
          rw [ih hlater (Nat.le_of_succ_le_succ hfuel)]
          rfl

end Strings

/-! ## Numbers -/

section Numbers

theorem matchInteger_append
    {text digits rest : List CodePoint}
    (h : matchInteger text = some (digits, rest)) (hrest : rest ≠ []) (more : List CodePoint) :
    matchInteger (text ++ more) = some (digits, rest ++ more) := by
  cases text with
  | nil => cases h
  | cons c text =>
      simp only [matchInteger, List.cons_append] at h ⊢
      split at h
      · next hzero =>
          cases h
          rw [if_pos hzero]
      · next hzero =>
          rw [if_neg hzero]
          split at h
          · next hdigit =>
              cases h
              obtain ⟨hdrop, htake⟩ := dropWhile_append_of_ne hrest more
              rw [if_pos hdigit, hdrop, htake]
          · cases h

theorem matchSign_append
    {text : List CodePoint} (h : text ≠ []) (more : List CodePoint) :
    matchSign (text ++ more) = ((matchSign text).1, (matchSign text).2 ++ more) := by
  obtain ⟨c, text, rfl⟩ := List.exists_cons_of_ne_nil h
  simp only [matchSign, List.cons_append]
  split
  · rfl
  · rfl

/-- The exponent of a number that has ended. -/
theorem matchExponent_append_of_stops
    {text : List CodePoint}
    (hrest : (matchExponent text).2 ≠ []) (hstops : Stops (matchExponent text).2)
    (more : List CodePoint) :
    matchExponent (text ++ more) = ((matchExponent text).1, (matchExponent text).2 ++ more) := by
  cases text with
  | nil => exact absurd rfl hrest
  | cons c text =>
      by_cases hletter : c = 0x65 ∨ c = 0x45
      · cases hdigits : ((matchSign text).2.takeWhile isDigitPoint).isEmpty with
        | false =>
            have hne : text ≠ [] := by
              rintro rfl
              cases hdigits
            simp only [matchExponent, hletter, hdigits, and_self, if_true] at hrest ⊢
            obtain ⟨hdrop, htake⟩ := dropWhile_append_of_ne hrest more
            simp only [List.cons_append, matchSign_append hne more, hletter, hdrop, htake, hdigits,
              and_self, if_true]
        | true =>
            have hself : matchExponent (c :: text) = ([], c :: text) := by
              simp only [matchExponent, hdigits, Bool.true_eq_false, and_false, if_false]
            rw [hself] at hstops
            obtain ⟨_, _, hsmall, hlarge⟩ := hstops c rfl
            exact absurd hletter (not_or.mpr ⟨hsmall, hlarge⟩)
      · simp only [matchExponent, List.cons_append, hletter, false_and, if_false]

/-- The fraction of a number that goes on with an exponent at most. -/
theorem matchFraction_append_of_stops
    {text : List CodePoint}
    (hrest : (matchFraction text).2 ≠ [])
    (hstops : ∀ c, (matchFraction text).2.head? = some c → c ≠ 0x2e) (more : List CodePoint) :
    matchFraction (text ++ more) = ((matchFraction text).1, (matchFraction text).2 ++ more) := by
  cases text with
  | nil => exact absurd rfl hrest
  | cons c text =>
      by_cases hpoint : c = 0x2e
      · cases hdigits : (text.takeWhile isDigitPoint).isEmpty with
        | false =>
            simp only [matchFraction, hpoint, hdigits, and_self, if_true] at hrest ⊢
            obtain ⟨hdrop, htake⟩ := dropWhile_append_of_ne hrest more
            simp only [List.cons_append, hdrop, htake, hdigits, and_self, if_true]
        | true =>
            have hself : matchFraction (c :: text) = ([], c :: text) := by
              simp only [matchFraction, hdigits, Bool.true_eq_false, and_false, if_false]
            rw [hself] at hstops
            exact absurd hpoint (hstops c rfl)
      · simp only [matchFraction, List.cons_append, hpoint, false_and, if_false]

/-- What is behind a number begins with no point. -/
theorem head_of_matchExponent
    {text : List CodePoint} (hstops : Stops (matchExponent text).2) :
    ∀ c, text.head? = some c → c ≠ 0x2e := by
  cases text with
  | nil => nofun
  | cons c text =>
      rintro d ⟨⟩ rfl
      have hself : (matchExponent (0x2e :: text)).2 = 0x2e :: text := by
        simp [matchExponent]
      rw [hself] at hstops
      exact (hstops 0x2e rfl).2.1 rfl

/-- Nothing is taken from a text that has no exponent. -/
theorem matchExponent_of_isEmpty
    {text : List CodePoint} (h : (matchExponent text).1.isEmpty = true) :
    (matchExponent text).2 = text := by
  cases text with
  | nil => rfl
  | cons c text =>
      simp only [matchExponent] at h ⊢
      split at h
      · cases h
      · next hnone => rw [if_neg hnone]

theorem matchFraction_of_isEmpty
    {text : List CodePoint} (h : (matchFraction text).1.isEmpty = true) :
    (matchFraction text).2 = text := by
  cases text with
  | nil => rfl
  | cons c text =>
      simp only [matchFraction] at h ⊢
      split at h
      · cases h
      · next hnone => rw [if_neg hnone]

variable {floats : FloatText}

/-- A number is read in front of a character that no number goes on with. -/
theorem readNumber_append
    {negative : Bool} {text rest : List CodePoint} {value : PyJson}
    (h : readNumber floats negative text = .ok (value, rest))
    (hrest : rest ≠ []) (hstops : Stops rest) (more : List CodePoint) :
    readNumber floats negative (text ++ more) = .ok (value, rest ++ more) := by
  unfold readNumber at h ⊢
  cases hinteger : matchInteger text with
  | none =>
      rw [hinteger] at h
      cases h
  | some read =>
      obtain ⟨digits, behind⟩ := read
      rw [hinteger] at h
      simp only at h
      have hlast : (matchExponent (matchFraction behind).2).2 = rest := by
        split at h
        · next hpart =>
            simp only [Bool.and_eq_true] at hpart
            split at h
            · cases h
            · cases h
              rw [matchExponent_of_isEmpty hpart.2, matchFraction_of_isEmpty hpart.1]
        · cases h
          rfl
      subst hlast
      have hexponent := matchExponent_append_of_stops hrest hstops more
      have hbetween : (matchFraction behind).2 ≠ [] := by
        intro hnil
        rw [hnil] at hrest
        exact hrest rfl
      have hfraction := matchFraction_append_of_stops hbetween (head_of_matchExponent hstops) more
      have hbehind : behind ≠ [] := by
        rintro rfl
        exact hbetween rfl
      rw [matchInteger_append hinteger hbehind more]
      simp only [hfraction, hexponent]
      split at h
      · next hpart =>
          rw [if_pos hpart]
          split at h
          · cases h
          · next hdigits =>
              obtain ⟨rfl, hsame⟩ := Prod.mk.inj (Except.ok.inj h)
              rw [if_neg hdigits, ← hsame]
      · next hpart =>
          cases h
          rw [if_neg hpart]

end Numbers

/-! ## Values -/

section Values

variable {floats : FloatText}

/-- A word is read in every longer text. -/
theorem readWord_append
    {text rest : List CodePoint} {value : PyJson}
    (h : readWord text = some (value, rest)) (more : List CodePoint) :
    readWord (text ++ more) = some (value, rest ++ more) := by
  obtain ⟨word, hword, hliteral⟩ := List.exists_of_findSome?_eq_some h
  obtain ⟨left, hleft, h⟩ := Option.map_eq_some_iff.mp hliteral
  cases h
  unfold matchLiteral at hleft
  split at hleft
  · next hbegins =>
      cases hleft
      obtain ⟨behind, rfl⟩ := List.isPrefixOf_iff_prefix.mp hbegins
      rw [List.drop_left, List.append_assoc]
      exact readWord_word hword (behind ++ more)
  · cases hleft

/-- A number begins with a digit. -/
theorem digit_of_readNumber
    {text : List CodePoint} {negative : Bool} {result : PyJson × List CodePoint}
    (h : readNumber floats negative text = .ok result) :
    ∃ c behind, text = c :: behind ∧ isDigitPoint c = true := by
  cases text with
  | nil => cases h
  | cons c text =>
      refine ⟨c, text, rfl, ?_⟩
      by_contra hdigit
      have hzero : c ≠ 0x30 := by
        rintro rfl
        exact hdigit rfl
      have hnone : matchInteger (c :: text) = none := by
        rw [matchInteger, if_neg hzero, if_neg hdigit]
      rw [readNumber, hnone] at h
      cases h

theorem readScalar_append
    {text rest : List CodePoint} {value : PyJson}
    (h : readScalar floats text = .ok (value, rest))
    (hrest : rest ≠ []) (hstops : Stops rest) (more : List CodePoint) :
    readScalar floats (text ++ more) = .ok (value, rest ++ more) := by
  cases text with
  | nil => cases h
  | cons c text =>
      simp only [readScalar, List.cons_append] at h ⊢
      split at h
      · next hquote =>
          rw [if_pos hquote]
          split at h
          · next points left hstring =>
              cases h
              have hfuel : text.length + 1 ≤ (text ++ more).length + 1 := by simp
              rw [readString_append hstring hfuel more]
          · cases h
      · next hquote =>
          rw [if_neg hquote]
          split at h
          · next result hword =>
              cases h
              rw [← List.cons_append, readWord_append hword more]
          · next hword =>
              split at h
              · next hminus =>
                  subst hminus
                  obtain ⟨d, behind, rfl, hdigit⟩ := digit_of_readNumber h
                  have hnumber := readNumber_append h hrest hstops more
                  rw [List.cons_append] at hnumber ⊢
                  rw [(readWord_digit hdigit _).2]
                  simp only [if_true, hnumber]
              · next hminus =>
                  obtain ⟨d, behind, hsame, hdigit⟩ := digit_of_readNumber h
                  cases hsame
                  have hnumber := readNumber_append h hrest hstops more
                  rw [List.cons_append] at hnumber
                  rw [(readWord_digit hdigit _).1]
                  simp only [if_neg hminus, hnumber]

/-- What closes a value or separates it stops a number, and so does space in front of it. -/
theorem stops_of_skipSpace
    {text behind : List CodePoint} {c : CodePoint}
    (h : skipSpace text = c :: behind) (hc : c ∈ [0x2c, 0x5d, 0x7d]) :
    text ≠ [] ∧ Stops text := by
  cases text with
  | nil => cases h
  | cons d text =>
      refine ⟨List.cons_ne_nil d text, ?_⟩
      rintro _ ⟨⟩
      by_cases hspace : isJsonSpace d = true
      · simp only [isJsonSpace, decide_eq_true_eq] at hspace
        rcases hspace with rfl | rfl | rfl | rfl <;> decide
      · rw [skipSpace, List.dropWhile_cons_of_neg hspace] at h
        cases h
        simp only [List.mem_cons, List.not_mem_nil, or_false] at hc
        rcases hc with rfl | rfl | rfl <;> decide

/-- Values are read in every longer text, in front of what stops a number. -/
def ReadsOn (read : List CodePoint → Except PyException (PyJson × List CodePoint)) : Prop :=
  (∀ result, read [] ≠ .ok result) ∧
  ∀ {text rest value}, read text = .ok (value, rest) → rest ≠ [] → Stops rest →
    ∀ more, read (text ++ more) = .ok (value, rest ++ more)

variable {read : List CodePoint → Except PyException (PyJson × List CodePoint)}

/-- A value that a separator or a bracket follows. -/
theorem ReadsOn.followed
    (hread : ReadsOn read) {text rest behind : List CodePoint} {value : PyJson} {c : CodePoint}
    (h : read (skipSpace text) = .ok (value, rest)) (hnext : skipSpace rest = c :: behind)
    (hc : c ∈ [0x2c, 0x5d, 0x7d]) (more : List CodePoint) :
    read (skipSpace (text ++ more)) = .ok (value, rest ++ more) ∧
      skipSpace (rest ++ more) = c :: (behind ++ more) := by
  have htext : skipSpace text ≠ [] := by
    intro hnil
    rw [hnil] at h
    exact hread.1 _ h
  obtain ⟨hne, hstops⟩ := stops_of_skipSpace hnext hc
  refine ⟨?_, ?_⟩
  · rw [skipSpace_append htext]
    exact hread.2 h hne hstops more
  · rw [skipSpace_append (by rw [hnext]; exact List.cons_ne_nil c behind), hnext]
    rfl

theorem readItems_append
    (hread : ReadsOn read) {fuel fuel' : Nat} {text rest : List CodePoint} {items : List PyJson}
    (h : readItems read fuel text = .ok (items, rest)) (hfuel : fuel ≤ fuel')
    (more : List CodePoint) :
    readItems read fuel' (text ++ more) = .ok (items, rest ++ more) := by
  induction fuel generalizing fuel' text items with
  | zero => cases h
  | succ fuel ih =>
      obtain ⟨fuel', rfl⟩ := Nat.exists_eq_succ_of_ne_zero (Nat.ne_zero_of_lt hfuel)
      rw [readItems] at h ⊢
      obtain ⟨⟨item, left⟩, hitem, h⟩ := bind_eq_ok h
      simp only at h
      split at h
      · cases h
      · next c behind hnext =>
          split at h
          · next hcomma =>
              obtain ⟨⟨later, last⟩, hlater, h⟩ := bind_eq_ok h
              cases h
              obtain ⟨hvalue, hskip⟩ := hread.followed hitem hnext (by simp [hcomma]) more
              rw [hvalue, ok_bind]
              simp only [hskip, hcomma, if_true]
              rw [ih hlater (Nat.le_of_succ_le_succ hfuel), ok_bind]
              rfl
          · next hcomma =>
              split at h
              · next hclose =>
                  cases h
                  obtain ⟨hvalue, hskip⟩ := hread.followed hitem hnext (by simp [hclose]) more
                  rw [hvalue, ok_bind]
                  simp only [hskip, if_neg hcomma, if_pos hclose]
              · cases h

theorem readKey_append
    {text rest : List CodePoint} {key : PyStr}
    (h : readKey text = .ok (key, rest)) (more : List CodePoint) :
    readKey (text ++ more) = .ok (key, rest ++ more) := by
  cases text with
  | nil => cases h
  | cons c text =>
      simp only [readKey, List.cons_append] at h ⊢
      split at h
      · next hquote =>
          rw [if_pos hquote]
          split at h
          · cases h
          · next points left hstring =>
              have hfuel : text.length + 1 ≤ (text ++ more).length + 1 := by simp
              rw [readString_append hstring hfuel more]
              simp only
              split at h
              · cases h
              · next colon behind hskip =>
                  split at h
                  · next hcolon =>
                      cases h
                      rw [skipSpace_append (by rw [hskip]; exact List.cons_ne_nil _ _), hskip]
                      simp only [List.cons_append, if_pos hcolon]
                  · cases h
      · cases h

theorem readMembers_append
    (hread : ReadsOn read) {fuel fuel' : Nat} {text rest : List CodePoint}
    {members : List (PyStr × PyJson)}
    (h : readMembers read fuel text = .ok (members, rest)) (hfuel : fuel ≤ fuel')
    (more : List CodePoint) :
    readMembers read fuel' (text ++ more) = .ok (members, rest ++ more) := by
  induction fuel generalizing fuel' text members with
  | zero => cases h
  | succ fuel ih =>
      obtain ⟨fuel', rfl⟩ := Nat.exists_eq_succ_of_ne_zero (Nat.ne_zero_of_lt hfuel)
      rw [readMembers] at h ⊢
      obtain ⟨⟨key, between⟩, hkey, h⟩ := bind_eq_ok h
      obtain ⟨⟨value, left⟩, hvalue, h⟩ := bind_eq_ok h
      have htext : skipSpace text ≠ [] := by
        intro hnil
        rw [hnil] at hkey
        cases hkey
      rw [skipSpace_append htext, readKey_append hkey more, ok_bind]
      simp only at h ⊢
      split at h
      · cases h
      · next c behind hnext =>
          split at h
          · next hcomma =>
              obtain ⟨⟨later, last⟩, hlater, h⟩ := bind_eq_ok h
              cases h
              obtain ⟨hvalue, hskip⟩ := hread.followed hvalue hnext (by simp [hcomma]) more
              rw [hvalue, ok_bind]
              simp only [hskip, hcomma, if_true]
              rw [ih hlater (Nat.le_of_succ_le_succ hfuel), ok_bind]
              rfl
          · next hcomma =>
              split at h
              · next hclose =>
                  cases h
                  obtain ⟨hvalue, hskip⟩ := hread.followed hvalue hnext (by simp [hclose]) more
                  rw [hvalue, ok_bind]
                  simp only [hskip, if_neg hcomma, if_pos hclose]
              · cases h

/-- A list ends with its bracket. -/
theorem readList_append
    (hread : ReadsOn read) {text rest : List CodePoint} {value : PyJson}
    (h : readList read text = .ok (value, rest)) (more : List CodePoint) :
    readList read (text ++ more) = .ok (value, rest ++ more) := by
  unfold readList at h ⊢
  split at h
  · cases h
  · next c behind hskip =>
      rw [skipSpace_append (by rw [hskip]; exact List.cons_ne_nil c behind), hskip]
      simp only [List.cons_append]
      split at h
      · next hclose =>
          cases h
          rw [if_pos hclose]
      · next hclose =>
          obtain ⟨⟨items, left⟩, hitems, h⟩ := bind_eq_ok h
          cases h
          rw [if_neg hclose, ← List.cons_append,
            readItems_append hread hitems (by simp), ok_bind]
          rfl

/-- A dict ends with its brace. -/
theorem readDict_append
    (hread : ReadsOn read) {text rest : List CodePoint} {value : PyJson}
    (h : readDict read text = .ok (value, rest)) (more : List CodePoint) :
    readDict read (text ++ more) = .ok (value, rest ++ more) := by
  unfold readDict at h ⊢
  split at h
  · cases h
  · next c behind hskip =>
      rw [skipSpace_append (by rw [hskip]; exact List.cons_ne_nil c behind), hskip]
      simp only [List.cons_append]
      split at h
      · next hclose =>
          cases h
          rw [if_pos hclose]
      · next hclose =>
          obtain ⟨⟨members, left⟩, hmembers, h⟩ := bind_eq_ok h
          cases h
          rw [if_neg hclose, ← List.cons_append,
            readMembers_append hread hmembers (by simp), ok_bind]
          rfl

theorem readsOn_readValue
    (frames : Nat) :
    ReadsOn (readValue floats frames) := by
  induction frames with
  | zero =>
      refine ⟨fun _ h => (by cases h), ?_⟩
      intro text rest value h hrest hstops more
      cases text with
      | nil => cases h
      | cons c text =>
          rw [readValue] at h
          rw [List.cons_append, readValue]
          split at h
          · cases h
          · next hscalar =>
              rw [if_neg hscalar]
              exact readScalar_append h hrest hstops more
  | succ frames ih =>
      refine ⟨fun _ h => (by cases h), ?_⟩
      intro text rest value h hrest hstops more
      cases text with
      | nil => cases h
      | cons c text =>
          rw [readValue] at h
          rw [List.cons_append, readValue]
          split at h
          · next hlist =>
              rw [if_pos hlist]
              exact readList_append ih h more
          · next hlist =>
              rw [if_neg hlist]
              split at h
              · next hdict =>
                  rw [if_pos hdict]
                  exact readDict_append ih h more
              · next hdict =>
                  rw [if_neg hdict]
                  exact readScalar_append h hrest hstops more

/-- **A dict that is cut** is no JSON text: what is left out behind it is not space alone. -/
theorem jsonLoads_cut
    {frames : Nat} {text more : List CodePoint} {c : CodePoint} {value : PyJson}
    (hload : jsonLoads floats frames (0x7b :: text ++ c :: more) = .ok value)
    (hc : isJsonSpace c = false) :
    ∃ e, jsonLoads floats frames (0x7b :: text) = .error e := by
  cases hcut : jsonLoads floats frames (0x7b :: text) with
  | error e => exact ⟨e, rfl⟩
  | ok whole =>
      have hbrace : ∀ behind : List CodePoint, skipSpace (0x7b :: behind) = 0x7b :: behind :=
        fun behind => List.dropWhile_cons_of_neg (by decide)
      unfold jsonLoads at hcut hload
      rw [hbrace] at hcut
      rw [List.cons_append, hbrace] at hload
      obtain ⟨⟨read, rest⟩, hread, _⟩ := bind_eq_ok hcut
      have hlonger : readValue floats frames (0x7b :: (text ++ c :: more)) =
          .ok (read, rest ++ c :: more) := by
        cases frames with
        | zero => cases hread
        | succ frames => exact readDict_append (readsOn_readValue frames) hread (c :: more)
      rw [hlonger, ok_bind] at hload
      simp only at hload
      split at hload
      · next hspace =>
          rw [skipSpace, List.isEmpty_iff, List.dropWhile_eq_nil_iff] at hspace
          have hnone := hspace c (List.mem_append_right _ List.mem_cons_self)
          rw [hc] at hnone
          cases hnone
      · cases hload

end Values

end Lib
end PrReviewer
