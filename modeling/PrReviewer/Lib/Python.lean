import Mathlib.Data.List.Basic
import Mathlib.Tactic

/-!
# Python values out of `json.loads`

The values Python's json module builds, with the integers, floats and strings of
the language: integers are unbounded, a float is a dyadic number, an infinity or
NaN (the module accepts `Infinity` and `NaN`, and reads `1e400` as an infinity), and
a string is a list of code points in which lone surrogates may stand.

`intOf` and `strOf` are the built-in `int()` and `str()`.  What they need of the
Unicode database is a parameter, and so is the text `repr` gives a float, a list or
a dict.
-/

namespace PrReviewer
namespace Lib

/-- The built-in exceptions of reading and coercing a value, json's own, which is a ValueError, and
pydantic's. -/
inductive PyException where
  | keyError
  | typeError
  | valueError
  | jsonDecodeError
  | overflowError
  | recursionError
  | validationError
deriving DecidableEq, Repr

/-- A code point; the surrogates are among them. -/
abbrev CodePoint := Fin 0x110000

instance neZero_codePoints : NeZero 0x110000 :=
  ⟨by decide⟩

/-- A Python string. -/
structure PyStr where
  points : List CodePoint
deriving DecidableEq, Repr

theorem codePoint_lt
    (c : Char) :
    c.toNat < 0x110000 := by
  have hnat : c.toNat = c.val.toNat := rfl
  rcases c.valid with hlow | ⟨_, hhigh⟩
  · omega
  · omega

/-- The Python string with the characters of a Lean one. -/
def PyStr.ofString (text : String) : PyStr where
  points := text.toList.map (fun c => ⟨c.toNat, codePoint_lt c⟩)

/-- The string as UTF-8 can encode it: `none` where a surrogate stands in it. -/
def PyStr.text? (s : PyStr) : Option String :=
  (s.points.mapM (fun (c : CodePoint) =>
    if c.val.isValidChar then some (Char.ofNat c.val) else none)).map String.ofList

/-- The string with an encodable text is the string of that text. -/
theorem PyStr.eq_ofString
    {s : PyStr} {text : String}
    (h : s.text? = some text) :
    s = .ofString text := by
  obtain ⟨points⟩ := s
  simp only [PyStr.text?, Option.map_eq_some_iff] at h
  obtain ⟨chars, hchars, rfl⟩ := h
  simp only [PyStr.ofString, PyStr.mk.injEq, String.toList_ofList]
  induction points generalizing chars with
  | nil =>
      cases hchars
      rfl
  | cons c points ih =>
      simp only [List.mapM_cons, Option.bind_eq_bind, Option.bind_eq_some_iff] at hchars
      obtain ⟨char, hchar, rest, hrest, hcons⟩ := hchars
      cases hcons
      split at hchar
      · next hvalid =>
          cases hchar
          rw [List.map_cons, ← ih rest hrest]
          congr 1
          apply Fin.ext
          have hchar : Char.ofNat c.val = Char.ofNatAux c.val hvalid := dif_pos hvalid
          change c.val = (Char.ofNat c.val).toNat
          rw [hchar]
          rfl
      · cases hchar

/-- A Lean text has no surrogate in it. -/
theorem PyStr.text?_ofString
    (text : String) :
    (PyStr.ofString text).text? = some text := by
  have hchars :
      ∀ chars : List Char,
        (chars.map (fun c => (⟨c.toNat, codePoint_lt c⟩ : CodePoint))).mapM
            (fun (c : CodePoint) =>
              if c.val.isValidChar then some (Char.ofNat c.val) else none) =
          some chars := by
    intro chars
    induction chars with
    | nil => rfl
    | cons c chars ih =>
        have hvalid : c.toNat.isValidChar := c.valid
        simp [List.mapM_cons, hvalid, ih]
  simp only [PyStr.text?, PyStr.ofString, hchars]
  simp

/-- A string can be encoded where no surrogate stands in it. -/
theorem PyStr.text?_isSome_iff
    {s : PyStr} :
    s.text?.isSome = true ↔ ∀ c ∈ s.points, c.val.isValidChar := by
  obtain ⟨points⟩ := s
  simp only [PyStr.text?, Option.isSome_map]
  induction points with
  | nil => simp
  | cons c points ih =>
      rw [List.mapM_cons, List.forall_mem_cons, ← ih]
      by_cases hc : c.val.isValidChar
      · cases hrest : points.mapM (fun (c : CodePoint) =>
            if c.val.isValidChar then some (Char.ofNat c.val) else none) with
        | none => simp [hc]
        | some chars => simp [hc]
      · simp [hc]

theorem PyStr.ofString_injective :
    Function.Injective PyStr.ofString := by
  intro text text' h
  have htext := congrArg PyStr.text? h
  rw [PyStr.text?_ofString, PyStr.text?_ofString] at htext
  exact Option.some.inj htext

/-- A float: a dyadic number `mantissa * 2 ^ exponent`, an infinity or NaN. -/
inductive PyFloat where
  | finite (mantissa exponent : Int)
  | infinity (negative : Bool)
  | nan
deriving DecidableEq, Repr

/-- A value `json.loads` returns; the keys of a dict are distinct. -/
inductive PyJson where
  | null
  | bool (b : Bool)
  | int (n : Int)
  | float (x : PyFloat)
  | str (s : PyStr)
  | list (items : List PyJson)
  | dict (items : List (PyStr × PyJson))

/-- What `isinstance(value, int)` accepts: the integers and the two booleans. -/
inductive PyInt where
  | int (n : Int)
  | bool (b : Bool)
deriving DecidableEq, Repr

def PyJson.isInt? : PyJson → Option PyInt
  | .int n => some (.int n)
  | .bool b => some (.bool b)
  | _ => none

/-- `d.get(key)`. -/
def getItem? (items : List (PyStr × PyJson)) (key : String) : Option PyJson :=
  items.lookup (.ofString key)

/-- `d[key]`. -/
def getItem (items : List (PyStr × PyJson)) (key : String) : Except PyException PyJson :=
  match getItem? items key with
  | some value => .ok value
  | none => .error .keyError

/-- The part of the Unicode database `int()` reads. -/
structure UnicodeTables where
  isSpace : CodePoint → Bool
  decimal : CodePoint → Option (Fin 10)

/-- `sys.int_info.default_max_str_digits`. -/
def maxStrDigits : Nat := 4300

/-- The number has at most `k` decimal digits. -/
def withinDigits : Nat → Nat → Bool
  | 0, n => n = 0
  | k + 1, n => n < 10 || withinDigits k (n / 10)

/-- The white space of C's `isspace`. -/
def isAsciiSpace (c : Nat) : Bool :=
  c = 0x20 ∨ (0x09 ≤ c ∧ c ≤ 0x0d)

/--
The ASCII text `int()` parses: a string that is not ASCII has its spaces and decimal
digits replaced, and anything else beyond ASCII becomes a question mark.
-/
def transformDecimalAndSpace (tables : UnicodeTables) (s : PyStr) : List Nat :=
  if s.points.all (fun c => c.val < 128) then
    s.points.map (fun c => c.val)
  else
    s.points.map (fun c =>
      if c.val < 127 then c.val
      else if tables.isSpace c then 0x20
      else
        match tables.decimal c with
        | some d => 0x30 + d.val
        | none => 0x3f)

/--
The digits of a decimal literal: single underscores may stand between digits.  The
flag tells whether a digit stands before.
-/
def decimalDigits : Bool → List Nat → Option (List Nat)
  | afterDigit, [] => if afterDigit then some [] else none
  | afterDigit, c :: cs =>
      if 0x30 ≤ c ∧ c ≤ 0x39 then
        (decimalDigits true cs).map (fun ds => (c - 0x30) :: ds)
      else if c = 0x5f ∧ afterDigit then
        decimalDigits false cs
      else
        none

/-- `int(s)` of a string; `none` is its ValueError. -/
def intOfText (tables : UnicodeTables) (s : PyStr) : Option Int :=
  let ascii := transformDecimalAndSpace tables s
  let bare := ((ascii.dropWhile isAsciiSpace).reverse.dropWhile isAsciiSpace).reverse
  let literal : Bool × List Nat :=
    match bare with
    | 0x2b :: rest => (false, rest)
    | 0x2d :: rest => (true, rest)
    | _ => (false, bare)
  match decimalDigits false literal.2 with
  | none => none
  | some digits =>
      if maxStrDigits < digits.length then
        none
      else
        let magnitude : Nat := digits.foldl (fun n d => 10 * n + d) 0
        some (if literal.1 then -(magnitude : Int) else magnitude)

/-- `int(x)` of a float: truncation, or the exception of a float without an integer part. -/
def PyFloat.truncate : PyFloat → Except PyException Int
  | .finite mantissa exponent =>
      if 0 ≤ exponent then
        .ok (mantissa * 2 ^ exponent.toNat)
      else
        .ok (mantissa.tdiv (2 ^ (-exponent).toNat))
  | .infinity _ => .error .overflowError
  | .nan => .error .valueError

/-- `int(value)`. -/
def intOf (tables : UnicodeTables) : PyJson → Except PyException Int
  | .bool b => .ok (if b then 1 else 0)
  | .int n => .ok n
  | .float x => x.truncate
  | .str s =>
      match intOfText tables s with
      | some n => .ok n
      | none => .error .valueError
  | .null => .error .typeError
  | .list _ => .error .typeError
  | .dict _ => .error .typeError

/-- `str(value)`. -/
def strOf (repr : PyJson → PyStr) : PyJson → Except PyException PyStr
  | .null => .ok (.ofString "None")
  | .bool b => .ok (.ofString (if b then "True" else "False"))
  | .int n =>
      if 10 ^ maxStrDigits ≤ n.natAbs then
        .error .valueError
      else
        .ok (.ofString (toString n))
  | .str s => .ok s
  | value => .ok (repr value)

/-- The items a `for` over the value runs through. -/
def iterate : PyJson → Except PyException (List PyJson)
  | .list items => .ok items
  | .dict items => .ok (items.map (fun item => .str item.1))
  | .str s => .ok (s.points.map (fun c => .str ⟨[c]⟩))
  | _ => .error .typeError

theorem ok_bind
    {ε α β : Type}
    (a : α) (f : α → Except ε β) :
    (Except.ok a >>= f) = f a := by
  rfl

theorem error_bind
    {ε α β : Type}
    (e : ε) (f : α → Except ε β) :
    (Except.error e >>= f) = .error e := by
  rfl

/-- A sequence that returned: its first part returned. -/
theorem bind_eq_ok
    {ε α β : Type} {x : Except ε α} {f : α → Except ε β} {b : β}
    (h : x >>= f = .ok b) :
    ∃ a, x = .ok a ∧ f a = .ok b := by
  cases x with
  | error e => cases h
  | ok a => exact ⟨a, rfl, h⟩

/-- A loop no round of which raises. -/
theorem mapM_eq_ok
    {ε α β : Type} {f : α → Except ε β} {g : α → β} {items : List α}
    (h : ∀ a ∈ items, f a = .ok (g a)) :
    items.mapM f = .ok (items.map g) := by
  induction items with
  | nil => rfl
  | cons a items ih =>
      obtain ⟨ha, hrest⟩ := List.forall_mem_cons.mp h
      rw [List.mapM_cons, ha, ih hrest]
      rfl

/-- A loop every round of which returns or fails with one error, where one round fails. -/
theorem mapM_eq_error
    {ε α β : Type} {f : α → Except ε β} {e : ε} {items : List α}
    (hall : ∀ a ∈ items, (∃ b, f a = .ok b) ∨ f a = .error e)
    (hfails : ∃ a ∈ items, f a = .error e) :
    items.mapM f = .error e := by
  induction items with
  | nil =>
      obtain ⟨a, ha, _⟩ := hfails
      cases ha
  | cons a items ih =>
      obtain ⟨hfirst, hrest⟩ := List.forall_mem_cons.mp hall
      rw [List.mapM_cons]
      rcases hfirst with ⟨b, hb⟩ | hb
      · have hlater : ∃ c ∈ items, f c = .error e := by
          obtain ⟨c, hc, hfc⟩ := hfails
          rcases List.mem_cons.mp hc with rfl | hc
          · rw [hb] at hfc
            cases hfc
          · exact ⟨c, hc, hfc⟩
        rw [hb, ok_bind, ih hrest hlater]
        rfl
      · rw [hb]
        rfl

/-- What a loop that returned made of its items. -/
theorem mem_of_mapM_eq_ok
    {ε α β : Type} {f : α → Except ε β} {items : List α} {results : List β}
    (h : items.mapM f = .ok results) :
    (∀ a ∈ items, ∃ b ∈ results, f a = .ok b) ∧ ∀ b ∈ results, ∃ a ∈ items, f a = .ok b := by
  induction items generalizing results with
  | nil =>
      cases h
      exact ⟨fun a ha => absurd ha List.not_mem_nil, fun b hb => absurd hb List.not_mem_nil⟩
  | cons a items ih =>
      rw [List.mapM_cons] at h
      obtain ⟨b, hb, h⟩ := bind_eq_ok h
      obtain ⟨others, hothers, h⟩ := bind_eq_ok h
      cases h
      obtain ⟨hall, hfrom⟩ := ih hothers
      constructor
      · intro c hc
        rcases List.mem_cons.mp hc with rfl | hc
        · exact ⟨b, List.mem_cons_self .., hb⟩
        · obtain ⟨d, hd, hfd⟩ := hall c hc
          exact ⟨d, List.mem_cons_of_mem b hd, hfd⟩
      · intro d hd
        rcases List.mem_cons.mp hd with rfl | hd
        · exact ⟨a, List.mem_cons_self .., hb⟩
        · obtain ⟨c, hc, hfc⟩ := hfrom d hd
          exact ⟨c, List.mem_cons_of_mem a hc, hfc⟩

/-- What the results of a loop that returned say of its items. -/
theorem map_of_mapM_eq_ok
    {ε α β γ : Type} {f : α → Except ε β} {g : β → γ} {h : α → γ}
    (hsame : ∀ a b, f a = .ok b → g b = h a)
    {items : List α} {results : List β}
    (hrun : items.mapM f = .ok results) :
    results.map g = items.map h := by
  induction items generalizing results with
  | nil =>
      cases hrun
      rfl
  | cons a items ih =>
      rw [List.mapM_cons] at hrun
      obtain ⟨b, hb, hrun⟩ := bind_eq_ok hrun
      obtain ⟨others, hothers, hrun⟩ := bind_eq_ok hrun
      cases hrun
      rw [List.map_cons, List.map_cons, hsame a b hb, ih hothers]

/-- When a loop returns, and what, where that is known of every round. -/
theorem mapM_eq_ok_iff
    {ε α β : Type} {f : α → Except ε β} {p : α → Prop} {g : α → β} {items : List α}
    (h : ∀ a ∈ items, ∀ b, f a = .ok b ↔ p a ∧ b = g a) {results : List β} :
    items.mapM f = .ok results ↔ (∀ a ∈ items, p a) ∧ results = items.map g := by
  constructor
  · intro hrun
    have hround : ∀ a ∈ items, p a := by
      intro a ha
      obtain ⟨b, _, hb⟩ := (mem_of_mapM_eq_ok hrun).1 a ha
      exact ((h a ha b).mp hb).1
    have hall := mapM_eq_ok (fun a ha => (h a ha (g a)).mpr ⟨hround a ha, rfl⟩)
    rw [hall] at hrun
    exact ⟨hround, (Except.ok.inj hrun).symm⟩
  · rintro ⟨hround, rfl⟩
    exact mapM_eq_ok (fun a ha => (h a ha (g a)).mpr ⟨hround a ha, rfl⟩)

/-- A loop every round of which returns. -/
theorem mapM_total
    {ε α β : Type} {f : α → Except ε β} {items : List α}
    (h : ∀ a ∈ items, ∃ b, f a = .ok b) :
    ∃ results, items.mapM f = .ok results := by
  induction items with
  | nil => exact ⟨[], rfl⟩
  | cons a items ih =>
      obtain ⟨b, hb⟩ := h a (by simp)
      obtain ⟨results, hresults⟩ := ih (fun c hc => h c (List.mem_cons_of_mem a hc))
      exact ⟨b :: results, by rw [List.mapM_cons, hb, ok_bind, hresults]; rfl⟩

theorem mapM_returns_iff
    {ε α β : Type} {f : α → Except ε β} {items : List α} :
    (∃ results, items.mapM f = .ok results) ↔ ∀ a ∈ items, ∃ b, f a = .ok b := by
  constructor
  · rintro ⟨results, hrun⟩ a ha
    obtain ⟨b, _, hb⟩ := (mem_of_mapM_eq_ok hrun).1 a ha
    exact ⟨b, hb⟩
  · exact mapM_total

/-- Where every round keeps a property, those that have it are what a selection gives. -/
theorem mapM_filter
    {ε α β : Type} {f : α → Except ε β} {p : α → Bool} {q : β → Bool}
    (hkeep : ∀ a b, f a = .ok b → q b = p a)
    {items : List α} {results : List β}
    (h : items.mapM f = .ok results) :
    (items.filter p).mapM f = .ok (results.filter q) := by
  induction items generalizing results with
  | nil =>
      cases h
      rfl
  | cons a items ih =>
      rw [List.mapM_cons] at h
      obtain ⟨b, hb, h⟩ := bind_eq_ok h
      obtain ⟨others, hothers, h⟩ := bind_eq_ok h
      cases h
      have hrest := ih hothers
      have hsame := hkeep a b hb
      cases hp : p a with
      | true =>
          rw [List.filter_cons_of_pos hp, List.filter_cons_of_pos (hsame.trans hp),
            List.mapM_cons, hb, ok_bind, hrest]
          rfl
      | false =>
          rw [List.filter_cons_of_neg (by simp [hp]),
            List.filter_cons_of_neg (by simp [hsame, hp])]
          exact hrest

/-- Every exception the computation raises satisfies `P`. -/
def Raises {ε α : Type} (P : ε → Prop) (x : Except ε α) : Prop :=
  ∀ e, x = .error e → P e

theorem Raises.ok
    {ε α : Type} {P : ε → Prop}
    (a : α) :
    Raises P (.ok a : Except ε α) := by
  rintro e ⟨⟩

theorem Raises.error
    {ε α : Type} {P : ε → Prop} {e : ε}
    (h : P e) :
    Raises P (.error e : Except ε α) := by
  rintro e' ⟨⟩
  exact h

/-- A sequence raises what its parts raise. -/
theorem Raises.bind
    {ε α β : Type} {P : ε → Prop} {x : Except ε α} {f : α → Except ε β}
    (hx : Raises P x)
    (hf : ∀ a, x = .ok a → Raises P (f a)) :
    Raises P (x >>= f) := by
  intro e h
  cases x with
  | error e' =>
      cases h
      exact hx _ rfl
  | ok a => exact hf a rfl e h

theorem Raises.mono
    {ε α : Type} {P Q : ε → Prop} {x : Except ε α}
    (h : Raises P x)
    (hPQ : ∀ e, P e → Q e) :
    Raises Q x :=
  fun e he => hPQ e (h e he)

/-- The float is an infinity. -/
def PyJson.isInfinite : PyJson → Bool
  | .float (.infinity _) => true
  | _ => false

/-- `int()` of an infinity. -/
theorem intOf_infinite
    {tables : UnicodeTables} {value : PyJson}
    (h : value.isInfinite = true) :
    intOf tables value = .error .overflowError := by
  cases value with
  | float x =>
      cases x with
      | infinity negative => rfl
      | _ => cases h
  | _ => cases h

/-- What `int()` raises, for a value that is no infinity. -/
theorem intOf_raises
    {tables : UnicodeTables} {value : PyJson}
    (hfinite : value.isInfinite = false) :
    Raises (fun e => e = .typeError ∨ e = .valueError) (intOf tables value) := by
  cases value with
  | bool b => exact .ok _
  | int n => exact .ok _
  | float x =>
      cases x with
      | finite mantissa exponent =>
          simp only [intOf, PyFloat.truncate]
          split
          · exact .ok _
          · exact .ok _
      | infinity negative => cases hfinite
      | nan => exact .error (.inr rfl)
  | str s =>
      simp only [intOf]
      split
      · exact .ok _
      · exact .error (.inr rfl)
  | null => exact .error (.inl rfl)
  | list items => exact .error (.inl rfl)
  | dict items => exact .error (.inl rfl)

/-- What `str()` raises is a ValueError. -/
theorem strOf_raises
    {repr : PyJson → PyStr}
    (value : PyJson) :
    Raises (fun e => e = .valueError) (strOf repr value) := by
  cases value with
  | int n =>
      simp only [strOf]
      split
      · exact .error rfl
      · exact .ok _
  | _ => exact .ok _

theorem getItem_raises
    (items : List (PyStr × PyJson)) (key : String) :
    Raises (fun e => e = .keyError) (getItem items key) := by
  unfold getItem
  split
  · exact .ok _
  · exact .error rfl

end Lib
end PrReviewer
