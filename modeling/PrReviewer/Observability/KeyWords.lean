import Mathlib.Data.List.Basic
import Mathlib.Data.List.Infix
import Mathlib.Tactic
import PrReviewer.Observability.Redaction

/-!
# The words of a spelled key

`_key_words` on the five usual spellings of a list of words.  In snake_case and kebab-case
every word is shown.  The capitals of the other spellings do not show where a word that
starts with a digit begins, nor where words of one letter end, and `_WORD_PATTERN` reads
a run of capitals without the digits behind it.
-/

namespace PrReviewer
namespace Observability

open Lib

/-! ## The scan for words -/

section Scan

/-- A text at whose head no character of a kind stands. -/
def Stops (kind : CodePoint → Bool) (text : List CodePoint) : Prop :=
  ∀ c, text.head? = some c → kind c = false

theorem stops_nil
    (kind : CodePoint → Bool) :
    Stops kind [] := by
  intro c h
  cases h

theorem stops_cons
    {kind : CodePoint → Bool} {c : CodePoint} {text : List CodePoint} :
    Stops kind (c :: text) ↔ kind c = false := by
  simp [Stops]

/-- The run of a kind at the head of a text. -/
theorem takeWhile_run
    {kind : CodePoint → Bool} {run text : List CodePoint}
    (hrun : ∀ c ∈ run, kind c = true)
    (hstops : Stops kind text) :
    (run ++ text).takeWhile kind = run ∧ (run ++ text).dropWhile kind = text := by
  rw [List.takeWhile_append_of_pos hrun, List.dropWhile_append_of_pos hrun]
  cases text with
  | nil => simp
  | cons c text =>
      have hc : kind c = false := stops_cons.mp hstops
      simp [hc]

theorem stops_dropWhile
    (kind : CodePoint → Bool) (text : List CodePoint) :
    Stops kind (text.dropWhile kind) := by
  intro c h
  have hnot := List.head?_dropWhile_not kind text
  rw [h] at hnot
  simpa using hnot

theorem isSmallOrDigit_of_isSmall
    {c : CodePoint}
    (h : isSmall c = true) :
    isSmallOrDigit c = true := by
  simp [isSmallOrDigit, h]

theorem isSmallOrDigit_of_isCapital
    {c : CodePoint}
    (h : isCapital c = true) :
    isSmallOrDigit c = false := by
  simp only [isCapital, decide_eq_true_eq] at h
  simp only [isSmallOrDigit, isSmall, Bool.or_eq_false_iff, decide_eq_false_iff_not]
  omega

theorem isCapital_of_isSmallOrDigit
    {c : CodePoint}
    (h : isSmallOrDigit c = true) :
    isCapital c = false := by
  by_contra hcapital
  rw [Bool.not_eq_false] at hcapital
  rw [isSmallOrDigit_of_isCapital hcapital] at h
  cases h

/-- A run without its last character, before that character and the rest of the text. -/
theorem giveBack_eq
    (kind : CodePoint → Bool) (text : List CodePoint) :
    (text.takeWhile kind).dropLast ++ text.drop ((text.takeWhile kind).length - 1) = text := by
  obtain ⟨behind, hbehind⟩ := List.takeWhile_prefix (l := text) kind
  generalize text.takeWhile kind = run at hbehind ⊢
  rw [← hbehind, List.dropLast_eq_take, List.drop_append_of_le_length (Nat.sub_le _ _),
    ← List.append_assoc, List.take_append_drop]

/-- A match is the text before what is left, and is not empty. -/
theorem matchWord_eq_some
    {text word behind : List CodePoint}
    (h : matchWord text = some (word, behind)) :
    word ++ behind = text ∧ word ≠ [] := by
  cases text with
  | nil => cases h
  | cons c rest =>
      simp only [matchWord] at h
      split at h
      · next hcapital =>
          split at h
          · cases h
            exact ⟨by rw [List.cons_append, List.takeWhile_append_dropWhile], List.cons_ne_nil _ _⟩
          · next hnone =>
              have hcapitals : (c :: rest).takeWhile isCapital = c :: rest.takeWhile isCapital := by
                rw [List.takeWhile_cons, if_pos hcapital]
              split at h
              · next hsmall =>
                  cases h
                  refine ⟨giveBack_eq isCapital (c :: rest), ?_⟩
                  -- A single capital before a small letter begins a word of its own.
                  cases hmore : rest.takeWhile isCapital with
                  | nil =>
                      refine absurd ?_ hnone
                      cases rest with
                      | nil => simp [List.dropWhile, hcapital] at hsmall
                      | cons d rest =>
                          have hd : isCapital d = false := by
                            by_contra hd
                            rw [Bool.not_eq_false] at hd
                            simp [hd] at hmore
                          have hsmall : isSmall d = true := by
                            simpa [List.dropWhile, hcapital, hd] using hsmall
                          simp [isSmallOrDigit_of_isSmall hsmall]
                  | cons d more => simp [hcapitals, hmore]
              · cases h
                exact ⟨List.takeWhile_append_dropWhile, by rw [hcapitals]; exact List.cons_ne_nil _ _⟩
      · split at h
        · next hplain =>
            cases h
            refine ⟨List.takeWhile_append_dropWhile, ?_⟩
            rw [List.takeWhile_cons, if_pos hplain]
            exact List.cons_ne_nil _ _
        · cases h

/-- The words of a text, with fuel for every character. -/
def wordsOf (text : List CodePoint) : List (List CodePoint) :=
  findWords text.length text

theorem findWords_of_le
    {fuel : Nat} {text : List CodePoint}
    (h : text.length ≤ fuel) :
    findWords fuel text = wordsOf text := by
  induction fuel using Nat.strong_induction_on generalizing text with
  | _ fuel ih =>
      cases text with
      | nil => cases fuel <;> rfl
      | cons c rest =>
          cases fuel with
          | zero => cases h
          | succ fuel =>
              have hrest : rest.length ≤ fuel := Nat.le_of_succ_le_succ h
              simp only [wordsOf, List.length_cons, findWords]
              split
              · next word behind hmatch =>
                  obtain ⟨heq, hne⟩ := matchWord_eq_some hmatch
                  have hlength := congrArg List.length heq
                  rw [List.length_append, List.length_cons] at hlength
                  have hpos := List.length_pos_iff.mpr hne
                  rw [ih fuel (Nat.lt_succ_self _) (by omega)]
                  rcases Nat.lt_or_ge rest.length fuel with hlt | hge
                  · rw [ih rest.length (by omega) (by omega)]
                  · rw [Nat.le_antisymm hrest hge, ih fuel (Nat.lt_succ_self _) (by omega)]
              · exact ih fuel (Nat.lt_succ_self _) hrest

theorem wordsOf_of_match
    {text word behind : List CodePoint}
    (h : matchWord text = some (word, behind)) :
    wordsOf text = word :: wordsOf behind := by
  obtain ⟨heq, hne⟩ := matchWord_eq_some h
  cases text with
  | nil => cases h
  | cons c rest =>
      have hlength := congrArg List.length heq
      rw [List.length_append, List.length_cons] at hlength
      have hpos := List.length_pos_iff.mpr hne
      rw [wordsOf, List.length_cons, findWords, h]
      simp only []
      rw [findWords_of_le (by omega)]

/-- A run of small letters and digits is a word. -/
theorem wordsOf_plain
    {run text : List CodePoint}
    (hne : run ≠ [])
    (hrun : ∀ c ∈ run, isSmallOrDigit c = true)
    (hstops : Stops isSmallOrDigit text) :
    wordsOf (run ++ text) = run :: wordsOf text := by
  obtain ⟨htake, hdrop⟩ := takeWhile_run hrun hstops
  refine wordsOf_of_match ?_
  cases run with
  | nil => exact absurd rfl hne
  | cons c run =>
      have hc := hrun c (List.mem_cons_self ..)
      rw [List.cons_append] at htake hdrop ⊢
      rw [matchWord, if_neg (by rw [isCapital_of_isSmallOrDigit hc]; exact Bool.false_ne_true),
        if_pos hc, htake, hdrop]

/-- So it is behind a capital. -/
theorem wordsOf_capital
    {c : CodePoint} {run text : List CodePoint}
    (hc : isCapital c = true)
    (hne : run ≠ [])
    (hrun : ∀ c ∈ run, isSmallOrDigit c = true)
    (hstops : Stops isSmallOrDigit text) :
    wordsOf (c :: (run ++ text)) = (c :: run) :: wordsOf text := by
  obtain ⟨htake, hdrop⟩ := takeWhile_run hrun hstops
  refine wordsOf_of_match ?_
  rw [matchWord, if_pos hc, htake, hdrop, if_pos hne]

/-- A run of capitals that no small letter follows is a word; one alone takes what follows. -/
theorem wordsOf_capitals
    {run text : List CodePoint}
    (hne : run ≠ [])
    (hrun : ∀ c ∈ run, isCapital c = true)
    (hcapital : Stops isCapital text)
    (hsmall : Stops isSmall text)
    (halone : 2 ≤ run.length ∨ Stops isSmallOrDigit text) :
    wordsOf (run ++ text) = run :: wordsOf text := by
  obtain ⟨htake, hdrop⟩ := takeWhile_run hrun hcapital
  refine wordsOf_of_match ?_
  cases run with
  | nil => exact absurd rfl hne
  | cons c run =>
      have hc := hrun c (List.mem_cons_self ..)
      have hnone : (run ++ text).takeWhile isSmallOrDigit = [] := by
        cases run with
        | nil =>
            rcases halone with hlength | hstops
            · simp at hlength
            · cases text with
              | nil => rfl
              | cons d text => simp [stops_cons.mp hstops]
        | cons d run =>
            have hd := isSmallOrDigit_of_isCapital (hrun d (by simp))
            simp [hd]
      have hbehind : text.head?.any isSmall = false := by
        cases text with
        | nil => rfl
        | cons d text => simpa using stops_cons.mp hsmall
      rw [List.cons_append] at htake hdrop ⊢
      rw [matchWord, if_pos hc, if_neg (by rw [hnone]; simp)]
      simp only [htake, hdrop]
      rw [if_neg (by rw [hbehind]; exact Bool.false_ne_true)]

/-- A run of capitals gives the last one to the small letters behind it. -/
theorem wordsOf_giveBack
    {run text : List CodePoint} {c d : CodePoint}
    (hne : run ≠ [])
    (hrun : ∀ c ∈ run, isCapital c = true)
    (hc : isCapital c = true)
    (hd : isSmall d = true) :
    wordsOf (run ++ c :: d :: text) = run :: wordsOf (c :: d :: text) := by
  have hstops : Stops isCapital (d :: text) :=
    stops_cons.mpr (isCapital_of_isSmallOrDigit (isSmallOrDigit_of_isSmall hd))
  have hall : ∀ c' ∈ run ++ [c], isCapital c' = true := by
    intro c' hc'
    rcases List.mem_append.mp hc' with hc' | hc'
    · exact hrun c' hc'
    · rw [List.mem_singleton] at hc'
      rw [hc', hc]
  obtain ⟨htake, hdrop⟩ := takeWhile_run hall hstops
  rw [List.append_assoc, List.singleton_append] at htake hdrop
  refine wordsOf_of_match ?_
  cases run with
  | nil => exact absurd rfl hne
  | cons b run =>
      have hb := hrun b (List.mem_cons_self ..)
      have hnone : (run ++ c :: d :: text).takeWhile isSmallOrDigit = [] := by
        cases run with
        | nil => simp [isSmallOrDigit_of_isCapital hc]
        | cons b' run =>
            have hb' := isSmallOrDigit_of_isCapital (hrun b' (by simp))
            simp [hb']
      rw [List.cons_append] at htake hdrop ⊢
      rw [matchWord, if_pos hb, if_neg (by rw [hnone]; simp)]
      simp only [htake, hdrop]
      have hlast : (b :: run ++ [c]).dropLast = b :: run := List.dropLast_concat
      rw [if_pos (by simpa using hd), hlast]
      simp

/-- A word is a part of the text. -/
theorem infix_of_mem_findWords
    {fuel : Nat} {text word : List CodePoint}
    (h : word ∈ findWords fuel text) :
    word <:+: text := by
  induction fuel generalizing text with
  | zero => cases h
  | succ fuel ih =>
      cases text with
      | nil => cases h
      | cons c rest =>
          simp only [findWords] at h
          split at h
          · next first behind hmatch =>
              obtain ⟨heq, _⟩ := matchWord_eq_some hmatch
              rcases List.mem_cons.mp h with rfl | h
              · exact ⟨[], behind, by rw [List.nil_append, heq]⟩
              · exact (ih h).trans ⟨first, [], by rw [List.append_nil, heq]⟩
          · exact (ih h).trans ⟨[c], [], by simp⟩

end Scan

/-! ## Spellings -/

section Spellings

/-- A word of lowercase letters and digits. -/
structure KeyWord where
  points : List CodePoint
  ne : points ≠ []
  plain : ∀ c ∈ points, isSmallOrDigit c = true

/-- The words of a key, the first of which starts with a letter. -/
structure KeyName where
  first : KeyWord
  others : List KeyWord
  letter : first.points.head?.any isSmall = true

def KeyName.words (name : KeyName) : List (List CodePoint) :=
  (name.first :: name.others).map KeyWord.points

/-- The capital of a small letter. -/
def capitalOf (c : CodePoint) : CodePoint :=
  if isSmall c then c - 0x20 else c

/-- A word with its first letter as a capital. -/
def capitalize : List CodePoint → List CodePoint
  | [] => []
  | c :: rest => capitalOf c :: rest

/-- The words with a separator between them. -/
def separated (separator : Char) (words : List (List CodePoint)) : PyStr where
  points := [pointOf separator].intercalate words

def KeyName.snakeCase (name : KeyName) : PyStr :=
  separated '_' name.words

def KeyName.kebabCase (name : KeyName) : PyStr :=
  separated '-' name.words

def KeyName.screamingSnakeCase (name : KeyName) : PyStr :=
  separated '_' (name.words.map (fun word => word.map capitalOf))

def KeyName.camelCase (name : KeyName) : PyStr where
  points := name.first.points ++ (name.others.map KeyWord.points).flatMap capitalize

def KeyName.pascalCase (name : KeyName) : PyStr where
  points := name.words.flatMap capitalize

/-- A word is one of the secret markers. -/
def isSecretMarker (word : List CodePoint) : Bool :=
  decide ((⟨word⟩ : PyStr) ∈ secretKeyMarkers)

/-! ## What the capitals show -/

/-- A word that starts with a digit is read as the end of the word before it. -/
def joinDigits (word : List CodePoint) : List (List CodePoint) → List (List CodePoint)
  | [] => [word]
  | next :: rest =>
      if next.head?.any isSmall = true then word :: joinDigits next rest
      else joinDigits (word ++ next) rest

/--
One-letter words in a row are read as one word, with the initial of a next word that goes on
with a digit; the rest of that word is read alone.
-/
def joinInitials (run : List CodePoint) : List (List CodePoint) → List (List CodePoint)
  | [] => if run = [] then [] else [run]
  | [] :: rest => joinInitials run rest
  | [c] :: rest => joinInitials (run ++ [c]) rest
  | (c :: d :: more) :: rest =>
      if run = [] then
        (c :: d :: more) :: joinInitials [] rest
      else if isSmall d = true then
        run :: (c :: d :: more) :: joinInitials [] rest
      else
        (run ++ [c]) :: (d :: more) :: joinInitials [] rest

/-- The words PascalCase shows. -/
def KeyName.pascalWords (name : KeyName) : List (List CodePoint) :=
  joinInitials [] (joinDigits name.first.points (name.others.map KeyWord.points))

/-- The words camelCase shows: the first one stands alone. -/
def KeyName.camelWords (name : KeyName) : List (List CodePoint) :=
  match joinDigits name.first.points (name.others.map KeyWord.points) with
  | [] => []
  | first :: rest => first :: joinInitials [] rest

/-- The runs of letters of the words. -/
def KeyName.letterRuns (name : KeyName) : List (List CodePoint) :=
  name.words.flatMap (fun word => word.splitOnP (fun c => !isSmall c))

end Spellings

/-! ## Capitals -/

section Capitals

theorem isCapital_capitalOf
    {c : CodePoint}
    (h : isSmall c = true) :
    isCapital (capitalOf c) = true := by
  have hc : 0x61 ≤ c.val ∧ c.val ≤ 0x7a := by simpa [isSmall] using h
  have hle : (0x20 : CodePoint) ≤ c := by
    rw [Fin.le_def]
    exact Nat.le_trans (by decide) hc.1
  have hval : (c - 0x20).val = c.val - 0x20 := Fin.sub_val_of_le hle
  rw [capitalOf, if_pos h, isCapital, decide_eq_true_eq, hval]
  omega

theorem capitalOf_of_not_isSmall
    {c : CodePoint}
    (h : isSmall c = false) :
    capitalOf c = c := by
  simp [capitalOf, h]

/-- `lower()` of a character takes the capital back. -/
theorem lower_capitalOf
    {c : CodePoint}
    (h : isSmallOrDigit c = true) :
    (if isCapital (capitalOf c) then capitalOf c + 0x20 else capitalOf c) = c := by
  cases hc : isSmall c with
  | true => rw [if_pos (isCapital_capitalOf hc), capitalOf, if_pos hc, sub_add_cancel]
  | false =>
      rw [capitalOf_of_not_isSmall hc, isCapital_of_isSmallOrDigit h, if_neg Bool.false_ne_true]

theorem lower_plain
    {word : List CodePoint}
    (h : ∀ c ∈ word, isSmallOrDigit c = true) :
    lowerAscii word = ⟨word⟩ := by
  rw [lowerAscii, PyStr.mk.injEq]
  refine (List.map_congr_left (fun c hc => ?_)).trans (List.map_id _)
  rw [isCapital_of_isSmallOrDigit (h c hc), if_neg Bool.false_ne_true, id_eq]

theorem lower_capitals
    {word : List CodePoint}
    (h : ∀ c ∈ word, isSmallOrDigit c = true) :
    lowerAscii (word.map capitalOf) = ⟨word⟩ := by
  rw [lowerAscii, PyStr.mk.injEq, List.map_map]
  refine (List.map_congr_left (fun c hc => ?_)).trans (List.map_id _)
  exact lower_capitalOf (h c hc)

theorem lower_capitalize
    {word : List CodePoint}
    (h : ∀ c ∈ word, isSmallOrDigit c = true) :
    lowerAscii (capitalize word) = ⟨word⟩ := by
  cases word with
  | nil => rfl
  | cons c word =>
      obtain ⟨hc, hword⟩ := List.forall_mem_cons.mp h
      have htail : word.map (fun c => if isCapital c then c + 0x20 else c) = word :=
        congrArg PyStr.points (lower_plain hword)
      rw [lowerAscii, capitalize, List.map_cons, lower_capitalOf hc, htail]

end Capitals

/-! ## Words between separators -/

section Separated

/-- The characters at which a key is cut. -/
def isSeparator (c : CodePoint) : Bool :=
  decide (c = pointOf '_' ∨ c = pointOf '-')

theorem splitOnP_intercalate
    {α : Type} {kind : α → Bool} {sep : α} {parts : List (List α)}
    (hsep : kind sep = true)
    (hparts : ∀ part ∈ parts, ∀ c ∈ part, kind c = false)
    (hne : parts ≠ []) :
    ([sep].intercalate parts).splitOnP kind = parts := by
  induction parts with
  | nil => exact absurd rfl hne
  | cons part parts ih =>
      obtain ⟨hpart, hrest⟩ := List.forall_mem_cons.mp hparts
      cases parts with
      | nil => rw [List.intercalate_singleton, List.splitOnP_eq_singleton hpart]
      | cons next parts =>
          rw [List.intercalate_cons_cons, List.append_assoc, List.singleton_append,
            List.splitOnP_append_cons_of_forall_mem hpart sep hsep, ih hrest (List.cons_ne_nil _ _)]

theorem keyWords_separated
    {separator : Char} {words : List (List CodePoint)}
    (hsep : isSeparator (pointOf separator) = true)
    (hwords : ∀ word ∈ words, ∀ c ∈ word, isSeparator c = false)
    (hne : words ≠ []) :
    keyWords (separated separator words) =
      words.flatMap (fun word => (wordsOf word).map lowerAscii) := by
  rw [keyWords, separated]
  exact congrArg _ (splitOnP_intercalate hsep hwords hne)

theorem keyWords_whole
    {key : PyStr}
    (h : ∀ c ∈ key.points, isSeparator c = false) :
    keyWords key = (wordsOf key.points).map lowerAscii := by
  have hsplit : key.points.splitOnP isSeparator = [key.points] := List.splitOnP_eq_singleton h
  rw [keyWords]
  exact (congrArg _ hsplit).trans (List.flatMap_singleton _ _)

theorem isSeparator_of_isSmallOrDigit
    {c : CodePoint}
    (h : isSmallOrDigit c = true) :
    isSeparator c = false := by
  rw [isSeparator, decide_eq_false_iff_not]
  rintro (rfl | rfl) <;> revert h <;> decide

theorem isSeparator_of_isCapital
    {c : CodePoint}
    (h : isCapital c = true) :
    isSeparator c = false := by
  rw [isSeparator, decide_eq_false_iff_not]
  rintro (rfl | rfl) <;> revert h <;> decide

theorem isSeparator_capitalOf
    {c : CodePoint}
    (h : isSmallOrDigit c = true) :
    isSeparator (capitalOf c) = false := by
  cases hc : isSmall c with
  | true => exact isSeparator_of_isCapital (isCapital_capitalOf hc)
  | false =>
      rw [capitalOf_of_not_isSmall hc]
      exact isSeparator_of_isSmallOrDigit h

theorem infix_of_mem_splitOnP
    {α : Type} {kind : α → Bool} {text part : List α}
    (h : part ∈ text.splitOnP kind) :
    part <:+: text := by
  induction hsize : text.length using Nat.strong_induction_on generalizing text with
  | _ size ih =>
      have hsplit := @List.takeWhile_append_dropWhile _ (fun c => !kind c) text
      have hrun : ∀ c ∈ text.takeWhile (fun c => !kind c), kind c = false :=
        fun c hc => by simpa using List.all_eq_true.mp List.all_takeWhile c hc
      have hnext := List.head?_dropWhile_not (fun c => !kind c) text
      generalize text.takeWhile (fun c => !kind c) = run at hsplit hrun
      generalize text.dropWhile (fun c => !kind c) = rest at hsplit hnext
      obtain rfl := hsplit
      cases rest with
      | nil =>
          rw [List.append_nil, List.splitOnP_eq_singleton hrun, List.mem_singleton] at h
          rw [h, List.append_nil]
      | cons c rest =>
          have hc : kind c = true := by simpa using hnext
          rw [List.splitOnP_append_cons_of_forall_mem hrun c hc] at h
          rcases List.mem_cons.mp h with rfl | h
          · exact (List.prefix_append part (c :: rest)).isInfix
          · have hinfix := ih rest.length (by rw [← hsize, List.length_append, List.length_cons]; omega)
              h rfl
            exact hinfix.trans ⟨run ++ [c], [], by simp⟩

/-- A word of a key is a part of it in small letters. -/
theorem infix_of_mem_keyWords
    {key word : PyStr}
    (h : word ∈ keyWords key) :
    ∃ part, part <:+: key.points ∧ lowerAscii part = word := by
  obtain ⟨between, hbetween, h⟩ := List.mem_flatMap.mp h
  obtain ⟨part, hpart, rfl⟩ := List.mem_map.mp h
  exact ⟨part, (infix_of_mem_findWords hpart).trans (infix_of_mem_splitOnP hbetween), rfl⟩

end Separated

/-! ## The words of a spelling -/

section Shown

/-- A word of lowercase letters and digits that starts with a letter. -/
structure Lettered (word : List CodePoint) : Prop where
  letter : word.head?.any isSmall = true
  plain : ∀ c ∈ word, isSmallOrDigit c = true

theorem wordsOf_word
    {word : List CodePoint}
    (hne : word ≠ [])
    (hplain : ∀ c ∈ word, isSmallOrDigit c = true) :
    wordsOf word = [word] := by
  have h := wordsOf_plain hne hplain (stops_nil _)
  rw [List.append_nil] at h
  rw [h]
  rfl

theorem words_plain
    (name : KeyName) :
    ∀ word ∈ name.words, word ≠ [] ∧ ∀ c ∈ word, isSmallOrDigit c = true := by
  intro word hword
  obtain ⟨keyWord, _, rfl⟩ := List.mem_map.mp hword
  exact ⟨keyWord.ne, keyWord.plain⟩

/-- snake_case and kebab-case show the words. -/
theorem keyWords_separated_words
    {separator : Char}
    (hsep : isSeparator (pointOf separator) = true) (name : KeyName) :
    keyWords (separated separator name.words) = name.words.map PyStr.mk := by
  have hne : name.words ≠ [] := List.cons_ne_nil _ _
  rw [keyWords_separated hsep _ hne, List.map_eq_flatMap]
  · refine List.flatMap_congr (fun word hword => ?_)
    obtain ⟨hne, hplain⟩ := words_plain name word hword
    rw [wordsOf_word hne hplain, List.map_singleton, lower_plain hplain]
  · intro word hword c hc
    exact isSeparator_of_isSmallOrDigit ((words_plain name word hword).2 c hc)

theorem capitalize_append
    {word : List CodePoint} (tail : List CodePoint)
    (hne : word ≠ []) :
    capitalize (word ++ tail) = capitalize word ++ tail := by
  cases word with
  | nil => exact absurd rfl hne
  | cons c word => rfl

/-- Joining words changes nothing in the spelling. -/
theorem joinDigits_spec
    (word : List CodePoint) {words : List (List CodePoint)}
    (hwords : ∀ next ∈ words, next ≠ []) :
    ∃ tail rest, joinDigits word words = (word ++ tail) :: rest ∧
      tail ++ rest.flatMap capitalize = words.flatMap capitalize := by
  induction words generalizing word with
  | nil => exact ⟨[], [], by simp [joinDigits], rfl⟩
  | cons next rest ih =>
      obtain ⟨hnext, hrest⟩ := List.forall_mem_cons.mp hwords
      rw [joinDigits]
      split
      · obtain ⟨tail, later, hjoined, htext⟩ := ih next hrest
        refine ⟨[], (next ++ tail) :: later, by rw [hjoined, List.append_nil], ?_⟩
        rw [List.nil_append, List.flatMap_cons, capitalize_append tail hnext, List.append_assoc,
          htext, List.flatMap_cons]
      · next hdigit =>
          obtain ⟨tail, later, hjoined, htext⟩ := ih (word ++ next) hrest
          refine ⟨next ++ tail, later, by rw [hjoined, List.append_assoc], ?_⟩
          have hplain : capitalize next = next := by
            cases next with
            | nil => rfl
            | cons d next => rw [capitalize, capitalOf_of_not_isSmall (by simpa using hdigit)]
          rw [List.append_assoc, htext, List.flatMap_cons, hplain]

theorem joinDigits_lettered
    {word : List CodePoint} {words : List (List CodePoint)}
    (hword : Lettered word)
    (hwords : ∀ next ∈ words, ∀ c ∈ next, isSmallOrDigit c = true) :
    ∀ joined ∈ joinDigits word words, Lettered joined := by
  induction words generalizing word with
  | nil =>
      intro joined hjoined
      rw [joinDigits, List.mem_singleton] at hjoined
      rwa [hjoined]
  | cons next rest ih =>
      obtain ⟨hnext, hrest⟩ := List.forall_mem_cons.mp hwords
      rw [joinDigits]
      split
      · next hletter =>
          exact List.forall_mem_cons.mpr ⟨hword, ih ⟨hletter, hnext⟩ hrest⟩
      · refine ih ⟨?_, List.forall_mem_append.mpr ⟨hword.plain, hnext⟩⟩ hrest
        cases word with
        | nil => cases hword.letter
        | cons c word => exact hword.letter

/-- The joined words end where the next capital stands. -/
theorem stops_capitalized
    {words : List (List CodePoint)}
    (hwords : ∀ word ∈ words, Lettered word) :
    Stops isSmallOrDigit (words.flatMap capitalize) := by
  cases words with
  | nil => exact stops_nil _
  | cons word words =>
      have hword := (hwords word (List.mem_cons_self ..)).letter
      cases word with
      | nil => cases hword
      | cons c word =>
          rw [List.flatMap_cons, capitalize, List.cons_append, stops_cons]
          exact isSmallOrDigit_of_isCapital (isCapital_capitalOf (by simpa using hword))

/-- The words that are read behind a run of one-letter words. -/
theorem wordsOf_joinInitials
    {run : List CodePoint} {words : List (List CodePoint)}
    (hrun : ∀ c ∈ run, isSmall c = true)
    (hwords : ∀ word ∈ words, Lettered word) :
    (wordsOf (run.map capitalOf ++ words.flatMap capitalize)).map lowerAscii =
      (joinInitials run words).map PyStr.mk := by
  have hcapitals : ∀ {run : List CodePoint}, (∀ c ∈ run, isSmall c = true) →
      ∀ c ∈ run.map capitalOf, isCapital c = true := by
    intro run hrun c hc
    obtain ⟨c', hc', rfl⟩ := List.mem_map.mp hc
    exact isCapital_capitalOf (hrun c' hc')
  have hlower : ∀ {run : List CodePoint}, (∀ c ∈ run, isSmall c = true) →
      lowerAscii (run.map capitalOf) = ⟨run⟩ := fun hrun =>
    lower_capitals (fun c hc => isSmallOrDigit_of_isSmall (hrun c hc))
  induction words generalizing run with
  | nil =>
      rw [List.flatMap_nil, joinInitials]
      split
      · next hnil => rw [hnil]; rfl
      · next hne =>
          rw [wordsOf_capitals (by simpa using hne) (hcapitals hrun) (stops_nil _) (stops_nil _)
            (.inr (stops_nil _)), List.map_cons, hlower hrun]
          rfl
  | cons word words ih =>
      obtain ⟨hword, hrest⟩ := List.forall_mem_cons.mp hwords
      obtain ⟨hletter, hplain⟩ := hword
      match word, hletter with
      | [c], hletter =>
          have hc : isSmall c = true := by simpa using hletter
          rw [joinInitials, ← ih (List.forall_mem_append.mpr ⟨hrun, by simpa using hc⟩) hrest]
          simp [capitalize]
      | c :: d :: more, hletter =>
          have hc : isSmall c = true := by simpa using hletter
          obtain ⟨hcplain, hdplain⟩ := List.forall_mem_cons.mp hplain
          have hstops := stops_capitalized hrest
          have hhere : wordsOf (capitalOf c :: (d :: more ++ words.flatMap capitalize)) =
              (capitalOf c :: d :: more) :: wordsOf (words.flatMap capitalize) :=
            wordsOf_capital (isCapital_capitalOf hc) (List.cons_ne_nil _ _) hdplain hstops
          have hlater : (wordsOf (words.flatMap capitalize)).map lowerAscii =
              (joinInitials [] words).map PyStr.mk := by
            have hnil : ∀ c ∈ ([] : List CodePoint), isSmall c = true := by simp
            exact ih hnil hrest
          have hcapitalized : lowerAscii (capitalOf c :: d :: more) = ⟨c :: d :: more⟩ :=
            lower_capitalize hplain
          rw [joinInitials, List.flatMap_cons, capitalize, List.cons_append]
          split
          · next hnil =>
              rw [hnil, List.map_nil, List.nil_append, hhere, List.map_cons, hcapitalized, hlater,
                List.map_cons]
          · next hne =>
              have hne' : run.map capitalOf ≠ [] := by simpa using hne
              split
              · next hsmall =>
                  rw [List.cons_append, wordsOf_giveBack hne' (hcapitals hrun)
                    (isCapital_capitalOf hc) hsmall, ← List.cons_append, hhere]
                  simp only [List.map_cons, hlower hrun, hcapitalized, hlater]
              · next hdigit =>
                  rw [Bool.not_eq_true] at hdigit
                  have hinitial : ∀ c' ∈ run ++ [c], isSmall c' = true :=
                    List.forall_mem_append.mpr ⟨hrun, by simpa using hc⟩
                  have hdigits : wordsOf (d :: more ++ words.flatMap capitalize) =
                      (d :: more) :: wordsOf (words.flatMap capitalize) :=
                    wordsOf_plain (List.cons_ne_nil _ _) hdplain hstops
                  have hd := (List.forall_mem_cons.mp hdplain).1
                  have hcapital : Stops isCapital (d :: more ++ words.flatMap capitalize) :=
                    stops_cons.mpr (isCapital_of_isSmallOrDigit hd)
                  have hsmall : Stops isSmall (d :: more ++ words.flatMap capitalize) :=
                    stops_cons.mpr hdigit
                  have hlength : 2 ≤ ((run ++ [c]).map capitalOf).length := by
                    have hpos := List.length_pos_iff.mpr hne
                    simp only [List.length_map, List.length_append, List.length_singleton]
                    omega
                  have hrun' : run.map capitalOf ++ capitalOf c :: (d :: more ++
                      words.flatMap capitalize) = (run ++ [c]).map capitalOf ++ (d :: more ++
                        words.flatMap capitalize) := by simp
                  rw [hrun', wordsOf_capitals (by simp) (hcapitals hinitial) hcapital hsmall
                    (.inl hlength), hdigits]
                  simp only [List.map_cons, hlower hinitial, lower_plain hdplain, hlater]

theorem others_plain
    (name : KeyName) :
    (∀ next ∈ name.others.map KeyWord.points, next ≠ []) ∧
      ∀ next ∈ name.others.map KeyWord.points, ∀ c ∈ next, isSmallOrDigit c = true := by
  constructor
  · intro next hnext
    exact (words_plain name next (List.mem_cons_of_mem _ hnext)).1
  · intro next hnext
    exact (words_plain name next (List.mem_cons_of_mem _ hnext)).2

theorem capitalize_unseparated
    {words : List (List CodePoint)}
    (h : ∀ word ∈ words, ∀ c ∈ word, isSmallOrDigit c = true) :
    ∀ c ∈ words.flatMap capitalize, isSeparator c = false := by
  intro c hc
  obtain ⟨word, hword, hc⟩ := List.mem_flatMap.mp hc
  cases word with
  | nil => cases hc
  | cons d word =>
      obtain ⟨hd, hplain⟩ := List.forall_mem_cons.mp (h _ hword)
      rcases List.mem_cons.mp hc with rfl | hc
      · exact isSeparator_capitalOf hd
      · exact isSeparator_of_isSmallOrDigit (hplain c hc)

/-- camelCase shows its first word and what is read behind it. -/
theorem keyWords_camelCase
    (name : KeyName) :
    keyWords name.camelCase = name.camelWords.map PyStr.mk := by
  obtain ⟨hne, hplain⟩ := others_plain name
  obtain ⟨tail, rest, hjoined, htext⟩ := joinDigits_spec name.first.points hne
  have hlettered := joinDigits_lettered ⟨name.letter, name.first.plain⟩ hplain
  rw [hjoined] at hlettered
  obtain ⟨hfirst, hrest⟩ := List.forall_mem_cons.mp hlettered
  have hpoints : name.camelCase.points =
      (name.first.points ++ tail) ++ rest.flatMap capitalize := by
    rw [List.append_assoc, htext]
    rfl
  have hwhole : ∀ c ∈ name.camelCase.points, isSeparator c = false :=
    List.forall_mem_append.mpr ⟨fun c hc => isSeparator_of_isSmallOrDigit (name.first.plain c hc),
      capitalize_unseparated hplain⟩
  have hlater : (wordsOf (rest.flatMap capitalize)).map lowerAscii =
      (joinInitials [] rest).map PyStr.mk := by
    have hnil : ∀ c ∈ ([] : List CodePoint), isSmall c = true := by simp
    exact wordsOf_joinInitials hnil hrest
  have hnonempty : name.first.points ++ tail ≠ [] := by simp [name.first.ne]
  rw [keyWords_whole hwhole, hpoints, wordsOf_plain hnonempty hfirst.plain
    (stops_capitalized hrest), KeyName.camelWords, hjoined]
  simp only [List.map_cons, lower_plain hfirst.plain, hlater]

theorem keyWords_pascalCase
    (name : KeyName) :
    keyWords name.pascalCase = name.pascalWords.map PyStr.mk := by
  obtain ⟨hne, hplain⟩ := others_plain name
  obtain ⟨tail, rest, hjoined, htext⟩ := joinDigits_spec name.first.points hne
  have hlettered := joinDigits_lettered ⟨name.letter, name.first.plain⟩ hplain
  have hpoints : name.pascalCase.points = ((name.first.points ++ tail) :: rest).flatMap capitalize := by
    rw [List.flatMap_cons, capitalize_append tail name.first.ne, List.append_assoc, htext]
    rfl
  have hwhole : ∀ c ∈ name.pascalCase.points, isSeparator c = false :=
    capitalize_unseparated (fun word hword => (words_plain name word hword).2)
  have hnil : ∀ c ∈ ([] : List CodePoint), isSmall c = true := by simp
  rw [keyWords_whole hwhole, hpoints, KeyName.pascalWords, hjoined]
  rw [hjoined] at hlettered
  exact wordsOf_joinInitials hnil hlettered

end Shown

/-! ## Runs of capitals and digits -/

section Runs

/-- A word with a digit in it is no run of letters. -/
theorem lowerAscii_ne
    {word run : List CodePoint} {d : CodePoint}
    (hmem : d ∈ word)
    (hd : isSmallOrDigit d = true)
    (hdigit : isSmall d = false)
    (hrun : ∀ c ∈ run, isSmall c = true) :
    (⟨run⟩ : PyStr) ≠ lowerAscii word := by
  intro h
  have hpoints : run = word.map (fun c => if isCapital c then c + 0x20 else c) :=
    congrArg PyStr.points h
  have hin : d ∈ run := by
    rw [hpoints, List.mem_map]
    exact ⟨d, hmem, by rw [isCapital_of_isSmallOrDigit hd, if_neg Bool.false_ne_true]⟩
  rw [hrun d hin] at hdigit
  cases hdigit

/-- The words of a text of capitals and digits from a digit on. -/
theorem wordsOf_digit
    {d : CodePoint} {text : List CodePoint}
    (hd : isSmallOrDigit d = true) :
    wordsOf (d :: text) = (d :: text.takeWhile isSmallOrDigit) ::
      wordsOf (text.dropWhile isSmallOrDigit) := by
  have hrun : ∀ c ∈ d :: text.takeWhile isSmallOrDigit, isSmallOrDigit c = true :=
    List.forall_mem_cons.mpr ⟨hd, fun c hc => List.all_eq_true.mp List.all_takeWhile c hc⟩
  have h := wordsOf_plain (List.cons_ne_nil _ _) hrun (stops_dropWhile isSmallOrDigit text)
  rwa [List.cons_append, List.takeWhile_append_dropWhile] at h

theorem wordsOf_capital_digit
    {c d : CodePoint} {text : List CodePoint}
    (hc : isCapital c = true)
    (hd : isSmallOrDigit d = true) :
    wordsOf (c :: d :: text) = (c :: d :: text.takeWhile isSmallOrDigit) ::
      wordsOf (text.dropWhile isSmallOrDigit) := by
  have hrun : ∀ c ∈ d :: text.takeWhile isSmallOrDigit, isSmallOrDigit c = true :=
    List.forall_mem_cons.mpr ⟨hd, fun c hc => List.all_eq_true.mp List.all_takeWhile c hc⟩
  have h := wordsOf_capital hc (List.cons_ne_nil _ _) hrun (stops_dropWhile isSmallOrDigit text)
  rwa [List.cons_append, List.takeWhile_append_dropWhile] at h

/-- A run of letters is a word behind a digit where it is one without the digit. -/
theorem mem_wordsOf_digit
    {d : CodePoint} {text run : List CodePoint}
    (hd : isSmallOrDigit d = true)
    (hdigit : isSmall d = false)
    (htext : ∀ c ∈ text, isSmall c = false)
    (hrun : ∀ c ∈ run, isSmall c = true) :
    (⟨run⟩ : PyStr) ∈ (wordsOf (d :: text)).map lowerAscii ↔
      (⟨run⟩ : PyStr) ∈ (wordsOf text).map lowerAscii := by
  have hhead : ∀ more, (⟨run⟩ : PyStr) ≠ lowerAscii (d :: more) :=
    fun more => lowerAscii_ne (List.mem_cons_self ..) hd hdigit hrun
  rw [wordsOf_digit hd, List.map_cons, List.mem_cons, or_iff_right (hhead _)]
  cases text with
  | nil => rfl
  | cons e text =>
      cases he : isSmallOrDigit e with
      | true =>
          have hskip : ∀ more, (⟨run⟩ : PyStr) ≠ lowerAscii (e :: more) :=
            fun more => lowerAscii_ne (List.mem_cons_self ..) he
              (htext e (List.mem_cons_self ..)) hrun
          rw [wordsOf_digit he, List.map_cons, List.mem_cons, or_iff_right (hskip _)]
          simp [he]
      | false => simp [he]

theorem isSmall_capitalOf
    {c : CodePoint} :
    isSmall (capitalOf c) = false := by
  cases h : isSmall c with
  | true =>
      have hcapital := isSmallOrDigit_of_isCapital (isCapital_capitalOf h)
      rw [isSmallOrDigit, Bool.or_eq_false_iff] at hcapital
      exact hcapital.1
  | false => rw [capitalOf_of_not_isSmall h, h]

/-- The runs of letters of a word in capitals are the words that are read of it. -/
theorem mem_wordsOf_capitals
    {word run : List CodePoint}
    (hword : ∀ c ∈ word, isSmallOrDigit c = true)
    (hrun : ∀ c ∈ run, isSmall c = true)
    (hlength : 2 ≤ run.length) :
    (⟨run⟩ : PyStr) ∈ (wordsOf (word.map capitalOf)).map lowerAscii ↔
      run ∈ word.splitOnP (fun c => !isSmall c) := by
  induction hsize : word.length using Nat.strong_induction_on generalizing word with
  | _ size ih =>
      have hsplit := @List.takeWhile_append_dropWhile _ isSmall word
      have hletters : ∀ c ∈ word.takeWhile isSmall, isSmall c = true :=
        fun c hc => List.all_eq_true.mp List.all_takeWhile c hc
      have hstops := stops_dropWhile isSmall word
      generalize word.takeWhile isSmall = letters at hsplit hletters
      generalize word.dropWhile isSmall = rest at hsplit hstops
      obtain rfl := hsplit
      obtain ⟨_, hrest⟩ := List.forall_mem_append.mp hword
      have hcapitals : ∀ c ∈ letters.map capitalOf, isCapital c = true := by
        intro c hc
        obtain ⟨c', hc', rfl⟩ := List.mem_map.mp hc
        exact isCapital_capitalOf (hletters c' hc')
      have hlower : lowerAscii (letters.map capitalOf) = ⟨letters⟩ :=
        lower_capitals (fun c hc => isSmallOrDigit_of_isSmall (hletters c hc))
      have hkind : ∀ c ∈ letters, (!isSmall c) = false := fun c hc => by rw [hletters c hc]; rfl
      cases rest with
      | nil =>
          rw [List.append_nil, List.splitOnP_eq_singleton hkind, List.mem_singleton]
          cases letters with
          | nil =>
              refine iff_of_false (by rintro ⟨⟩) ?_
              rintro rfl
              cases hlength
          | cons c letters =>
              have hwords := wordsOf_capitals (by simp) hcapitals (stops_nil _) (stops_nil _)
                (.inr (stops_nil _))
              rw [List.append_nil] at hwords
              rw [hwords, List.map_cons, hlower]
              simp [wordsOf, findWords]
      | cons d rest =>
          have hdigit : isSmall d = false := stops_cons.mp hstops
          obtain ⟨hd, hrest⟩ := List.forall_mem_cons.mp hrest
          have hsmall : ∀ c ∈ rest.map capitalOf, isSmall c = false := by
            intro c hc
            obtain ⟨c', _, rfl⟩ := List.mem_map.mp hc
            exact isSmall_capitalOf
          have hlater := ih rest.length (by rw [← hsize, List.length_append, List.length_cons]; omega)
            hrest rfl
          have hfrom := mem_wordsOf_digit hd hdigit hsmall hrun
          rw [List.splitOnP_append_cons_of_forall_mem hkind d (by rw [hdigit]; rfl),
            List.mem_cons, ← hlater, ← hfrom, List.map_append, List.map_cons,
            capitalOf_of_not_isSmall hdigit]
          match letters, hlower, hcapitals with
          | [], _, _ =>
              rw [List.map_nil, List.nil_append, or_iff_right]
              rintro rfl
              cases hlength
          | [c], _, hcapitals =>
              -- A single capital takes the digits.
              have hc := hcapitals (capitalOf c) (by simp)
              rw [List.map_singleton, List.singleton_append, wordsOf_capital_digit hc hd,
                wordsOf_digit hd, List.map_cons, List.map_cons, List.mem_cons, List.mem_cons]
              have hfirst : ∀ more, (⟨run⟩ : PyStr) ≠ lowerAscii (capitalOf c :: d :: more) :=
                fun more => lowerAscii_ne (List.mem_cons_of_mem _ (List.mem_cons_self ..)) hd hdigit
                  hrun
              have hsecond : ∀ more, (⟨run⟩ : PyStr) ≠ lowerAscii (d :: more) :=
                fun more => lowerAscii_ne (List.mem_cons_self ..) hd hdigit hrun
              have hsingle : run ≠ [c] := by
                rintro rfl
                cases Nat.le_of_succ_le_succ hlength
              rw [or_iff_right (hfirst _), or_iff_right hsingle, or_iff_right (hsecond _)]
          | c :: c' :: letters, hlower, hcapitals =>
              rw [wordsOf_capitals (by simp) hcapitals
                (stops_cons.mpr (isCapital_of_isSmallOrDigit hd)) (stops_cons.mpr hdigit)
                (.inl (by simp)), List.map_cons, List.mem_cons, hlower, PyStr.mk.injEq]

end Runs

/-! ## Secret keys -/

section Flagged

theorem looksLikeSecretKey_of_words
    {key : PyStr} {words : List (List CodePoint)}
    (h : keyWords key = words.map PyStr.mk) :
    looksLikeSecretKey key = words.any isSecretMarker := by
  rw [looksLikeSecretKey, h, List.any_map]
  rfl

/-- A marker has at least two characters, and all are letters. -/
theorem letters_of_isSecretMarker
    {word : List CodePoint}
    (h : isSecretMarker word = true) :
    2 ≤ word.length ∧ ∀ c ∈ word, isSmall c = true := by
  have hall : secretKeyMarkers.all (fun marker =>
      decide (2 ≤ marker.points.length) && marker.points.all isSmall) = true := by decide +kernel
  have hword := List.all_eq_true.mp hall ⟨word⟩ (of_decide_eq_true h)
  rw [Bool.and_eq_true, decide_eq_true_eq, List.all_eq_true] at hword
  exact hword

theorem looksLikeSecretKey_screamingSnakeCase
    (name : KeyName) :
    looksLikeSecretKey name.screamingSnakeCase = name.letterRuns.any isSecretMarker := by
  have hwords : keyWords name.screamingSnakeCase =
      name.words.flatMap (fun word => (wordsOf (word.map capitalOf)).map lowerAscii) := by
    rw [KeyName.screamingSnakeCase, keyWords_separated (by decide) _ (by simp [KeyName.words]),
      List.flatMap_map]
    intro capitals hcapitals c hc
    obtain ⟨word, hword, rfl⟩ := List.mem_map.mp hcapitals
    obtain ⟨c', hc', rfl⟩ := List.mem_map.mp hc
    exact isSeparator_capitalOf ((words_plain name word hword).2 c' hc')
  rw [Bool.eq_iff_iff, looksLikeSecretKey, hwords, KeyName.letterRuns, List.any_eq_true,
    List.any_eq_true]
  constructor
  · rintro ⟨⟨run⟩, hmem, hmarker⟩
    obtain ⟨word, hword, hmem⟩ := List.mem_flatMap.mp hmem
    have hmarker : isSecretMarker run = true := hmarker
    obtain ⟨hlength, hletters⟩ := letters_of_isSecretMarker hmarker
    have hrun := (mem_wordsOf_capitals (words_plain name word hword).2 hletters hlength).mp hmem
    exact ⟨run, List.mem_flatMap.mpr ⟨word, hword, hrun⟩, hmarker⟩
  · rintro ⟨run, hmem, hmarker⟩
    obtain ⟨word, hword, hmem⟩ := List.mem_flatMap.mp hmem
    obtain ⟨hlength, hletters⟩ := letters_of_isSecretMarker hmarker
    have hrun := (mem_wordsOf_capitals (words_plain name word hword).2 hletters hlength).mpr hmem
    exact ⟨⟨run⟩, List.mem_flatMap.mpr ⟨word, hword, hrun⟩, hmarker⟩

/-- A marker is a run of letters of itself. -/
theorem letterRuns_of_marker
    {name : KeyName}
    (h : name.words.any isSecretMarker = true) :
    name.letterRuns.any isSecretMarker = true := by
  obtain ⟨word, hword, hmarker⟩ := List.any_eq_true.mp h
  have hletters := (letters_of_isSecretMarker hmarker).2
  have hsplit : word.splitOnP (fun c => !isSmall c) = [word] :=
    List.splitOnP_eq_singleton (fun c hc => by rw [hletters c hc]; rfl)
  refine List.any_eq_true.mpr ⟨word, List.mem_flatMap.mpr ⟨word, hword, ?_⟩, hmarker⟩
  rw [hsplit]
  exact List.mem_singleton_self word

/-- Every word begins with two letters, and no run of letters in another word is a marker. -/
structure KeyName.Regular (name : KeyName) : Prop where
  letters : ∀ word ∈ name.words, ∃ c d more, word = c :: d :: more ∧
    isSmall c = true ∧ isSmall d = true
  runs : ∀ run ∈ name.letterRuns, isSecretMarker run = true → run ∈ name.words

theorem joinDigits_regular
    {word : List CodePoint} {words : List (List CodePoint)}
    (h : ∀ next ∈ words, next.head?.any isSmall = true) :
    joinDigits word words = word :: words := by
  induction words generalizing word with
  | nil => rfl
  | cons next rest ih =>
      obtain ⟨hnext, hrest⟩ := List.forall_mem_cons.mp h
      rw [joinDigits, if_pos hnext, ih hrest]

theorem joinInitials_regular
    {words : List (List CodePoint)}
    (h : ∀ word ∈ words, 2 ≤ word.length) :
    joinInitials [] words = words := by
  induction words with
  | nil => rfl
  | cons word rest ih =>
      obtain ⟨hword, hrest⟩ := List.forall_mem_cons.mp h
      match word, hword with
      | c :: d :: more, _ => rw [joinInitials, if_pos rfl, ih hrest]

/-- The capitals of a regular name show its words. -/
theorem KeyName.Regular.shown
    {name : KeyName}
    (h : name.Regular) :
    name.camelWords = name.words ∧ name.pascalWords = name.words := by
  have hlength : ∀ word ∈ name.words, 2 ≤ word.length := by
    intro word hword
    obtain ⟨c, d, more, rfl, _, _⟩ := h.letters word hword
    simp
  have hletter : ∀ next ∈ name.others.map KeyWord.points, next.head?.any isSmall = true := by
    intro next hnext
    obtain ⟨c, d, more, rfl, hc, _⟩ := h.letters next (List.mem_cons_of_mem _ hnext)
    simpa using hc
  have hjoined : joinDigits name.first.points (name.others.map KeyWord.points) = name.words :=
    joinDigits_regular hletter
  have hothers : joinInitials [] (name.others.map KeyWord.points) =
      name.others.map KeyWord.points :=
    joinInitials_regular (fun word hword => hlength word (List.mem_cons_of_mem _ hword))
  constructor
  · rw [KeyName.camelWords, hjoined]
    exact congrArg (List.cons name.first.points) hothers
  · rw [KeyName.pascalWords, hjoined, joinInitials_regular hlength]

/-- Which spellings of a key are flagged. -/
theorem spelled_key_flagged
    (name : KeyName) :
    looksLikeSecretKey name.snakeCase = name.words.any isSecretMarker ∧
    looksLikeSecretKey name.kebabCase = name.words.any isSecretMarker ∧
    looksLikeSecretKey name.screamingSnakeCase = name.letterRuns.any isSecretMarker ∧
    (name.words.any isSecretMarker = true → name.letterRuns.any isSecretMarker = true) ∧
    looksLikeSecretKey name.camelCase = name.camelWords.any isSecretMarker ∧
    looksLikeSecretKey name.pascalCase = name.pascalWords.any isSecretMarker ∧
    (name.Regular →
      name.letterRuns.any isSecretMarker = name.words.any isSecretMarker ∧
      name.camelWords = name.words ∧ name.pascalWords = name.words) := by
  refine ⟨looksLikeSecretKey_of_words (keyWords_separated_words (by decide) name),
    looksLikeSecretKey_of_words (keyWords_separated_words (by decide) name),
    looksLikeSecretKey_screamingSnakeCase name, letterRuns_of_marker,
    looksLikeSecretKey_of_words (keyWords_camelCase name),
    looksLikeSecretKey_of_words (keyWords_pascalCase name), ?_⟩
  intro hregular
  refine ⟨?_, hregular.shown⟩
  rw [Bool.eq_iff_iff]
  refine ⟨fun h => ?_, letterRuns_of_marker⟩
  obtain ⟨run, hrun, hmarker⟩ := List.any_eq_true.mp h
  exact List.any_eq_true.mpr ⟨run, hregular.runs run hrun hmarker, hmarker⟩

/-- The word with the characters of a text. -/
def asciiWord (text : String) (hne : (PyStr.ofString text).points ≠ [])
    (hplain : (PyStr.ofString text).points.all isSmallOrDigit = true) : KeyWord where
  points := (PyStr.ofString text).points
  ne := hne
  plain := List.all_eq_true.mp hplain

def githubToken : KeyName where
  first := asciiWord "github" (by decide) (by decide +kernel)
  others := [asciiWord "token" (by decide) (by decide +kernel)]
  letter := by decide +kernel

theorem spelled_key_flagged_githubToken :
    githubToken.letterRuns.any isSecretMarker = githubToken.words.any isSecretMarker ∧
      githubToken.camelWords = githubToken.words ∧ githubToken.pascalWords = githubToken.words := by
  refine (spelled_key_flagged githubToken).2.2.2.2.2.2 ⟨?_, ?_⟩
  · intro word hword
    have hwords : githubToken.words = [0x67 :: 0x69 :: (PyStr.ofString "thub").points,
        0x74 :: 0x6f :: (PyStr.ofString "ken").points] := by decide +kernel
    rw [hwords] at hword
    rcases List.mem_cons.mp hword with rfl | hword
    · exact ⟨0x67, 0x69, _, rfl, by decide, by decide⟩
    · rw [List.mem_singleton] at hword
      exact ⟨0x74, 0x6f, _, hword, by decide, by decide⟩
  · have hruns : githubToken.letterRuns = githubToken.words := by decide +kernel
    intro run hrun _
    rwa [← hruns]

/-- `token2`, `token_2x` and `k_e_y`, of which only the second has a marker among its words. -/
def digitNames : KeyName × KeyName × KeyName :=
  (⟨asciiWord "token2" (by decide) (by decide +kernel), [], by decide +kernel⟩,
    ⟨asciiWord "token" (by decide) (by decide +kernel),
      [asciiWord "2x" (by decide) (by decide +kernel)], by decide +kernel⟩,
    ⟨asciiWord "k" (by decide) (by decide +kernel),
      [asciiWord "e" (by decide) (by decide +kernel),
        asciiWord "y" (by decide) (by decide +kernel)], by decide +kernel⟩)

/-- `TOKEN2` and `KEY` are flagged, and `token2x` is not. -/
theorem spellings_disagree :
    (looksLikeSecretKey digitNames.1.snakeCase = false ∧
      looksLikeSecretKey digitNames.1.screamingSnakeCase = true) ∧
    (looksLikeSecretKey digitNames.2.1.snakeCase = true ∧
      looksLikeSecretKey digitNames.2.1.camelCase = false) ∧
    (looksLikeSecretKey digitNames.2.2.snakeCase = false ∧
      looksLikeSecretKey digitNames.2.2.pascalCase = true) := by
  decide +kernel

end Flagged

end Observability
end PrReviewer
