import Mathlib.Data.List.Basic
import Mathlib.Tactic

/-!
# Scanning a text for markers

A scan walks a text from left to right.  At every place a reader may take a token
of some length; where it takes none, the character stands for itself.  What str
methods such as `count` and `replace` do with a marker is a scan.

A character that stands in no marker cuts a scan in two: nothing that is read
before it depends on what follows, and conversely.
-/

namespace PrReviewer
namespace Lib

universe u v

section Scan

variable {α : Type u}
variable {τ : Type v}

/-- What may be read at the head of a text: a token and the number of its characters. -/
abbrev Reader (α : Type u) (τ : Type v) :=
  List α → Option (τ × Nat)

/-- The scan of a text; the number is how many characters are still to skip. -/
def scan (read : Reader α τ) : Nat → List α → List (τ ⊕ α)
  | _, [] => []
  | skip + 1, _ :: cs => scan read skip cs
  | 0, c :: cs =>
      match read (c :: cs) with
      | some (t, n) => .inl t :: scan read (n - 1) cs
      | none => .inr c :: scan read 0 cs

/-- The tokens of a scan. -/
def tokensOf (pieces : List (τ ⊕ α)) : List τ :=
  pieces.filterMap Sum.getLeft?

/-- The characters of a scan. -/
def charsOf (pieces : List (τ ⊕ α)) : List α :=
  pieces.filterMap Sum.getRight?

@[simp] theorem tokensOf_append
    (xs ys : List (τ ⊕ α)) :
    tokensOf (xs ++ ys) = tokensOf xs ++ tokensOf ys := by
  simp [tokensOf]

@[simp] theorem tokensOf_chars
    (xs : List α) :
    tokensOf (xs.map (.inr : α → τ ⊕ α)) = [] := by
  simp [tokensOf, List.filterMap_eq_nil_iff]

@[simp] theorem charsOf_chars
    (xs : List α) :
    charsOf (xs.map (.inr : α → τ ⊕ α)) = xs := by
  simp only [charsOf, List.filterMap_map]
  exact List.filterMap_some

/-- What is left of a text is a part of it. -/
theorem charsOf_scan_sublist
    (read : Reader α τ) (skip : Nat) (text : List α) :
    (charsOf (scan read skip text)).Sublist text := by
  induction text generalizing skip with
  | nil => simp [scan, charsOf]
  | cons c cs ih =>
      cases skip with
      | succ skip => exact (ih skip).cons c
      | zero =>
          simp only [scan]
          split
          · exact (ih _).cons c
          · exact (ih 0).cons_cons c

/-- A text at no place of which a token is read. -/
theorem scan_quiet
    {read : Reader α τ} {text : List α}
    (h : ∀ rest, rest <:+ text → read rest = none) :
    scan read 0 text = text.map .inr := by
  induction text with
  | nil => rfl
  | cons c cs ih =>
      have hhere : read (c :: cs) = none := h _ (List.suffix_refl _)
      have hrest := ih (fun rest hrest => h rest (hrest.trans (List.suffix_cons c cs)))
      simp only [scan, hhere, hrest, List.map_cons]

/-- Before the rest of a text, characters at which no token is read stand for themselves. -/
theorem scan_append_quiet
    {read : Reader α τ} {lead text : List α}
    (h : ∀ rest, rest <:+ lead → rest ≠ [] → read (rest ++ text) = none) :
    scan read 0 (lead ++ text) = lead.map .inr ++ scan read 0 text := by
  induction lead with
  | nil => rfl
  | cons c cs ih =>
      have hhere : read (c :: (cs ++ text)) = none := h _ (List.suffix_refl _) (by simp)
      have hrest := ih (fun rest hrest => h rest (hrest.trans (List.suffix_cons c cs)))
      simp only [List.cons_append, scan, hhere, hrest, List.map_cons]

/-- A scan that takes a token leaves less than the text. -/
theorem charsOf_scan_lt
    {read : Reader α τ} {text rest : List α}
    (hrest : rest <:+ text)
    (hne : rest ≠ [])
    (htoken : (read rest).isSome) :
    (charsOf (scan read 0 text)).length < text.length := by
  induction text with
  | nil => exact absurd (List.suffix_nil.mp hrest) hne
  | cons c cs ih =>
      simp only [scan]
      split
      · next t n htaken =>
          have hle := (charsOf_scan_sublist read (n - 1) cs).length_le
          simp only [charsOf, List.filterMap_cons, Sum.getRight?_inl, List.length_cons]
          simp only [charsOf] at hle
          omega
      · next hnone =>
          have htail : rest <:+ cs := by
            rcases List.suffix_cons_iff.mp hrest with heq | htail
            · rw [heq, hnone] at htoken
              cases htoken
            · exact htail
          have hlt := ih htail
          simp only [charsOf, List.filterMap_cons, Sum.getRight?_inr, List.length_cons]
          simp only [charsOf] at hlt
          omega

/-- Where a text without line breaks begins a text, it does so before the first one. -/
theorem prefix_line_iff
    {nl : α} {text line rest : List α}
    (hnl : nl ∉ text) :
    text <+: line ++ nl :: rest ↔ text <+: line := by
  induction line generalizing text with
  | nil =>
      cases text with
      | nil => simp
      | cons c cs =>
          have hc : c ≠ nl := by
            rintro rfl
            exact hnl (List.mem_cons_self ..)
          simp [List.cons_prefix_cons, hc]
  | cons d line ih =>
      cases text with
      | nil => simp
      | cons c cs =>
          have hcs : nl ∉ cs := fun hmem => hnl (List.mem_cons_of_mem c hmem)
          rw [List.cons_append, List.cons_prefix_cons, List.cons_prefix_cons, ih hcs]

/-- A character that no token contains: what is read before it does not see past it. -/
structure Breaks (read : Reader α τ) (nl : α) : Prop where
  stop : ∀ rest, read (nl :: rest) = none
  apart : ∀ line rest, line ≠ [] → read (line ++ nl :: rest) = read line
  fits : ∀ text t n, read text = some (t, n) → n ≤ text.length

namespace Breaks

variable {read : Reader α τ} {nl : α}

theorem scan_skip
    (h : Breaks read nl)
    (line rest : List α) (skip : Nat)
    (hskip : skip ≤ line.length) :
    scan read skip (line ++ nl :: rest) =
      scan read skip line ++ .inr nl :: scan read 0 rest := by
  induction line generalizing skip with
  | nil =>
      obtain rfl : skip = 0 := by simpa using hskip
      simp only [List.nil_append, scan, h.stop]
  | cons c cs ih =>
      cases skip with
      | succ skip => exact ih skip (by simpa using hskip)
      | zero =>
          have hread := h.apart (c :: cs) rest (by simp)
          simp only [List.cons_append] at hread
          simp only [List.cons_append, scan, hread]
          cases htaken : read (c :: cs) with
          | none => simp only [ih 0 (by omega), List.cons_append]
          | some taken =>
              obtain ⟨t, n⟩ := taken
              have hfits := h.fits (c :: cs) t n htaken
              simp only [List.length_cons] at hfits
              simp only [ih (n - 1) (by omega), List.cons_append]

/-- The scan of a text around a line break. -/
theorem scan_line
    (h : Breaks read nl)
    (line rest : List α) :
    scan read 0 (line ++ nl :: rest) =
      scan read 0 line ++ .inr nl :: scan read 0 rest :=
  h.scan_skip line rest 0 (Nat.zero_le _)

/-- The scan of a text that goes on with lines. -/
theorem scan_lines
    (h : Breaks read nl)
    (lead : List α) (lines : List (List α)) :
    scan read 0 (lead ++ lines.flatMap (nl :: ·)) =
      scan read 0 lead ++ lines.flatMap (fun line => .inr nl :: scan read 0 line) := by
  induction lines generalizing lead with
  | nil => simp
  | cons line lines ih =>
      rw [List.flatMap_cons, List.cons_append, h.scan_line, ih line, List.flatMap_cons,
        List.cons_append]

end Breaks

end Scan

section Markers

variable {α : Type u} [DecidableEq α]
variable {τ : Type v}

/-- The reader of markers: the first of the list that stands at the head of the text. -/
def readMarkers (markers : List (τ × List α)) : Reader α τ :=
  fun text => (markers.find? (fun m => m.2.isPrefixOf text)).map (fun m => (m.1, m.2.length))

/-- The same reader, going on one character after the start of a marker. -/
def readEvery (markers : List (τ × List α)) : Reader α τ :=
  fun text => (readMarkers markers text).map (fun taken => (taken.1, 1))

/-- Every marker of the text, in the order of their first characters. -/
def occurrences (markers : List (τ × List α)) (text : List α) : List τ :=
  tokensOf (scan (readEvery markers) 0 text)

theorem readMarkers_eq_none_iff
    {markers : List (τ × List α)} {text : List α} :
    readMarkers markers text = none ↔ ∀ m ∈ markers, ¬ m.2 <+: text := by
  simp [readMarkers]

theorem readEvery_eq_none_iff
    {markers : List (τ × List α)} {text : List α} :
    readEvery markers text = none ↔ readMarkers markers text = none := by
  simp [readEvery]

/-- What is read in front of a line break, for markers without one. -/
theorem breaks_readMarkers
    {markers : List (τ × List α)} {nl : α}
    (hne : ∀ m ∈ markers, m.2 ≠ [])
    (hnl : ∀ m ∈ markers, nl ∉ m.2) :
    Breaks (readMarkers markers) nl where
  stop rest := by
    rw [readMarkers_eq_none_iff]
    intro m hm hstart
    cases hmark : m.2 with
    | nil => exact hne m hm hmark
    | cons c cs =>
        rw [hmark, List.cons_prefix_cons] at hstart
        exact hnl m hm (by simp [hmark, hstart.1])
  apart line rest _ := by
    have hsame : ∀ m ∈ markers,
        m.2.isPrefixOf (line ++ nl :: rest) = m.2.isPrefixOf line := by
      intro m hm
      rw [Bool.eq_iff_iff, List.isPrefixOf_iff_prefix, List.isPrefixOf_iff_prefix]
      exact prefix_line_iff (hnl m hm)
    have hfind : markers.find? (fun m => m.2.isPrefixOf (line ++ nl :: rest)) =
        markers.find? (fun m => m.2.isPrefixOf line) :=
      List.find?_congr hsame
    simp only [readMarkers, hfind]
  fits text t n hread := by
    simp only [readMarkers, Option.map_eq_some_iff] at hread
    obtain ⟨m, hm, heq⟩ := hread
    cases heq
    have hstart := List.find?_some hm
    exact (List.isPrefixOf_iff_prefix.mp hstart).length_le

/-- Going on after the first character of a marker reads lines apart as well. -/
theorem Breaks.every
    {markers : List (τ × List α)} {nl : α}
    (h : Breaks (readMarkers markers) nl)
    (hne : ∀ m ∈ markers, m.2 ≠ []) :
    Breaks (readEvery markers) nl where
  stop rest := readEvery_eq_none_iff.mpr (h.stop rest)
  apart line rest hline := by simp only [readEvery, h.apart line rest hline]
  fits text t n hread := by
    cases text with
    | nil =>
        have hnone : readMarkers markers [] = none := by
          rw [readMarkers_eq_none_iff]
          exact fun m hm hstart => hne m hm (List.prefix_nil.mp hstart)
        simp [readEvery, hnone] at hread
    | cons c cs =>
        simp only [readEvery, Option.map_eq_some_iff] at hread
        obtain ⟨taken, _, heq⟩ := hread
        cases heq
        simp

/-- At a character with which no marker begins none is read. -/
theorem readMarkers_cons
    {markers : List (τ × List α)} {c : α}
    (h : ∀ m ∈ markers, m.2 ≠ [] ∧ m.2.head? ≠ some c)
    (rest : List α) :
    readMarkers markers (c :: rest) = none := by
  rw [readMarkers_eq_none_iff]
  intro m hm hstart
  obtain ⟨hne, hhead⟩ := h m hm
  cases hmark : m.2 with
  | nil => exact hne hmark
  | cons d ds =>
      rw [hmark, List.cons_prefix_cons] at hstart
      exact hhead (by simp [hmark, hstart.1])

/-- Where no marker stands in a text none is read at any place of it. -/
theorem readMarkers_suffix
    {markers : List (τ × List α)} {text rest : List α}
    (h : ∀ m ∈ markers, ¬ m.2 <:+: text)
    (hrest : rest <:+ text) :
    readMarkers markers rest = none := by
  rw [readMarkers_eq_none_iff]
  intro m hm hstart
  have hhead : m.2 <:+: rest := hstart.isInfix
  exact h m hm (hhead.trans hrest.isInfix)

end Markers

/-! ## Blocks between an opening and a closing marker -/

section Fences

variable {α : Type u}

/-- The two markers of a block. -/
inductive Fence where
  | opening
  | closing
deriving DecidableEq, Repr

/-- The characters no block encloses; the flag tells whether a block is open. -/
def outsideFrom : Bool → List (Fence ⊕ α) → List α
  | _, [] => []
  | _, .inl .opening :: rest => outsideFrom true rest
  | _, .inl .closing :: rest => outsideFrom false rest
  | true, .inr _ :: rest => outsideFrom true rest
  | false, .inr c :: rest => c :: outsideFrom false rest

/-- The texts between an opening marker and the next closing one; first the open block's. -/
def blocksFrom : Option (List α) → List (Fence ⊕ α) → List (List α)
  | _, [] => []
  | _, .inl .opening :: rest => blocksFrom (some []) rest
  | some block, .inl .closing :: rest => block :: blocksFrom none rest
  | none, .inl .closing :: rest => blocksFrom none rest
  | some block, .inr c :: rest => blocksFrom (some (block ++ [c])) rest
  | none, .inr _ :: rest => blocksFrom none rest

/-- A text put together from plain text and from blocks. -/
inductive Piece (α : Type u) where
  | plain (text : List α)
  | block (text : List α)

/-- The scan of a piece, given the scans of the two markers. -/
def Piece.scanned (first last : List (Fence ⊕ α)) : Piece α → List (Fence ⊕ α)
  | .plain text => text.map .inr
  | .block text => first ++ text.map .inr ++ last

def Piece.plainText : Piece α → List α
  | .plain text => text
  | .block _ => []

def Piece.blockText : Piece α → Option (List α)
  | .plain _ => none
  | .block text => some text

theorem outsideFrom_plain
    (text : List α) (rest : List (Fence ⊕ α)) :
    outsideFrom false (text.map .inr ++ rest) = text ++ outsideFrom false rest := by
  induction text with
  | nil => rfl
  | cons c cs ih => simp only [List.map_cons, List.cons_append, outsideFrom, ih]

theorem outsideFrom_open
    (text : List α) (rest : List (Fence ⊕ α)) :
    outsideFrom true (text.map .inr ++ rest) = outsideFrom true rest := by
  induction text with
  | nil => rfl
  | cons c cs ih => simp only [List.map_cons, List.cons_append, outsideFrom, ih]

theorem blocksFrom_plain
    (text : List α) (rest : List (Fence ⊕ α)) :
    blocksFrom none (text.map .inr ++ rest) = blocksFrom none rest := by
  induction text with
  | nil => rfl
  | cons c cs ih => simp only [List.map_cons, List.cons_append, blocksFrom, ih]

theorem blocksFrom_open
    (block text : List α) (rest : List (Fence ⊕ α)) :
    blocksFrom (some block) (text.map .inr ++ rest) = blocksFrom (some (block ++ text)) rest := by
  induction text generalizing block with
  | nil => simp
  | cons c cs ih =>
      simp only [List.map_cons, List.cons_append, blocksFrom, ih, List.append_assoc,
        List.nil_append]

/-- What a reader finds outside the blocks is the plain text. -/
theorem outsideFrom_pieces
    (pieces : List (Piece α)) :
    outsideFrom false (pieces.flatMap (Piece.scanned [.inl .opening] [.inl .closing])) =
      pieces.flatMap Piece.plainText := by
  induction pieces with
  | nil => rfl
  | cons piece pieces ih =>
      rw [List.flatMap_cons, List.flatMap_cons, ← ih]
      cases piece with
      | plain text => exact outsideFrom_plain text _
      | block text =>
          simp only [Piece.scanned, Piece.plainText, List.cons_append, List.nil_append,
            List.append_assoc, outsideFrom, outsideFrom_open]

/-- What a reader finds in the blocks is their texts. -/
theorem blocksFrom_pieces
    (pieces : List (Piece α)) :
    blocksFrom none (pieces.flatMap (Piece.scanned [.inl .opening] [.inl .closing])) =
      pieces.filterMap Piece.blockText := by
  induction pieces with
  | nil => rfl
  | cons piece pieces ih =>
      rw [List.flatMap_cons]
      cases piece with
      | plain text =>
          simp only [List.filterMap_cons, Piece.blockText, ← ih]
          exact blocksFrom_plain text _
      | block text =>
          simp only [List.filterMap_cons, Piece.blockText, ← ih]
          simp only [Piece.scanned, List.cons_append, List.nil_append, List.append_assoc,
            blocksFrom, blocksFrom_open]

/-- The markers of the pieces are those of the blocks, an opening before a closing one. -/
theorem tokensOf_pieces
    {first last : List (Fence ⊕ α)}
    (hfirst : tokensOf first = [.opening])
    (hlast : tokensOf last = [.closing])
    (pieces : List (Piece α)) :
    tokensOf (pieces.flatMap (Piece.scanned first last)) =
      (List.replicate (pieces.filterMap Piece.blockText).length
        [Fence.opening, .closing]).flatten := by
  induction pieces with
  | nil => rfl
  | cons piece pieces ih =>
      rw [List.flatMap_cons, tokensOf_append, ih]
      cases piece with
      | plain text => simp [Piece.scanned, List.filterMap_cons, Piece.blockText]
      | block text =>
          simp [Piece.scanned, Piece.blockText, hfirst, hlast, List.replicate_succ]

end Fences

end Lib
end PrReviewer
