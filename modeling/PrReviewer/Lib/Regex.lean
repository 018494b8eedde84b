import Mathlib.Data.List.Infix
import Mathlib.Tactic
import PrReviewer.Lib.Scan

/-!
# Matching by backtracking, and substitution

A matcher gives the lengths of its matches at the head of a text in the order in which a
backtracking engine tries them, so the first is the one that counts.  The matchers are built
of classes of elements, sequences, alternatives and repetitions.

A substitution replaces the leftmost matches by one text.  Where that text begins with an
element no match can take up, a matcher that finds nothing in the text finds nothing in
what the substitution makes of it: a match would begin between two replacements and end
before the second, and so stand in the text already.
-/

namespace PrReviewer
namespace Lib

universe u v

section Matchers

variable {α : Type u} {β : Type v}

/-- The lengths of the matches at the head of a text. -/
abbrev Matcher (α : Type u) := List α → List Nat

/-- One element of a class. -/
def one (p : α → Bool) : Matcher α
  | [] => []
  | c :: _ => if p c = true then [1] else []

/-- A word, the elements of the text being folded first. -/
def literal [DecidableEq β] (fold : α → β) (word : List β) : Matcher α :=
  fun text => if (text.take word.length).map fold = word then [word.length] else []

def andThen (m n : Matcher α) : Matcher α :=
  fun text => (m text).flatMap fun k => (n (text.drop k)).map fun l => k + l

def either (m n : Matcher α) : Matcher α :=
  fun text => m text ++ n text

/-- `(…)?`. -/
def optional (m : Matcher α) : Matcher α :=
  fun text => m text ++ [0]

/-- Elements of a class, as many as there are and no fewer than the bound. -/
def atLeast (least : Nat) (p : α → Bool) : Matcher α :=
  fun text => (List.range' least ((text.takeWhile p).length + 1 - least)).reverse

/-- `.*?`, any elements. -/
def anyLazily : Matcher α :=
  fun text => List.range (text.length + 1)

/-- The matcher matches nowhere in the text. -/
def Absent (m : Matcher α) (text : List α) : Prop :=
  ∀ rest, rest <:+ text → m rest = []

/-- Where the leftmost match begins. -/
def search (m : Matcher α) : List α → Option Nat
  | [] => if m [] = [] then none else some 0
  | c :: cs => if m (c :: cs) = [] then (search m cs).map (· + 1) else some 0

/-- The match that counts at the head of a text. -/
def reader (m : Matcher α) : Reader α Unit :=
  fun text => (m text).head?.map fun n => ((), n)

/-- What a scan of the text makes of it, with the elements still to skip. -/
def subFrom (m : Matcher α) (replacement : List α) (skip : Nat) (text : List α) : List α :=
  (scan (reader m) skip text).flatMap fun
    | .inl _ => replacement
    | .inr c => [c]

/-- `sub`, for a matcher that matches no empty text. -/
def sub (m : Matcher α) (replacement text : List α) : List α :=
  subFrom m replacement 0 text

theorem mem_andThen
    {m n : Matcher α} {text : List α} {length : Nat} :
    length ∈ andThen m n text ↔
      ∃ k ∈ m text, ∃ l ∈ n (text.drop k), k + l = length := by
  simp [andThen]

theorem mem_atLeast
    {least : Nat} {p : α → Bool} {text : List α} {length : Nat} :
    length ∈ atLeast least p text ↔ least ≤ length ∧ length ≤ (text.takeWhile p).length := by
  simp only [atLeast, List.mem_reverse, List.mem_range'_1]
  omega

theorem Absent.of_suffix
    {m : Matcher α} {text rest : List α} (h : Absent m text) (hrest : rest <:+ text) :
    Absent m rest :=
  fun other hother => h other (hother.trans hrest)

theorem absent_cons_iff
    {m : Matcher α} {c : α} {cs : List α} :
    Absent m (c :: cs) ↔ m (c :: cs) = [] ∧ Absent m cs := by
  constructor
  · intro h
    exact ⟨h _ (List.suffix_refl _), h.of_suffix (List.suffix_cons c cs)⟩
  · rintro ⟨hhere, hrest⟩ rest hsuffix
    rcases List.suffix_cons_iff.mp hsuffix with rfl | hlater
    · exact hhere
    · exact hrest rest hlater

theorem search_eq_none_iff
    {m : Matcher α} {text : List α} :
    search m text = none ↔ Absent m text := by
  induction text with
  | nil => simp [search, Absent]
  | cons c cs ih =>
      rw [search, absent_cons_iff, ← ih]
      by_cases hhere : m (c :: cs) = []
      · simp [hhere]
      · simp [hhere]

/-- Before the leftmost match nothing matches. -/
theorem search_eq_some
    {m : Matcher α} {text : List α} {start : Nat} (h : search m text = some start) :
    ∃ lead rest, text = lead ++ rest ∧ lead.length = start ∧ m rest ≠ [] ∧
      ∀ gap, gap <:+ lead → gap ≠ [] → m (gap ++ rest) = [] := by
  induction text generalizing start with
  | nil =>
      rw [search] at h
      split at h
      · cases h
      · next hmatch =>
          cases h
          exact ⟨[], [], rfl, rfl, hmatch, fun gap hgap hne => absurd (List.suffix_nil.mp hgap) hne⟩
  | cons c cs ih =>
      rw [search] at h
      split at h
      · next hnone =>
          obtain ⟨later, hlater, rfl⟩ := Option.map_eq_some_iff.mp h
          obtain ⟨lead, rest, rfl, hlength, hmatch, hbefore⟩ := ih hlater
          refine ⟨c :: lead, rest, rfl, by simp [hlength], hmatch, ?_⟩
          intro gap hgap hne
          rcases List.suffix_cons_iff.mp hgap with rfl | hinner
          · exact hnone
          · exact hbefore gap hinner hne
      · next hmatch =>
          cases h
          exact ⟨[], c :: cs, rfl, rfl, hmatch,
            fun gap hgap hne => absurd (List.suffix_nil.mp hgap) hne⟩

theorem reader_eq_none_iff
    {m : Matcher α} {text : List α} :
    reader m text = none ↔ m text = [] := by
  simp [reader]

/-- A text in which nothing matches is left as it is. -/
theorem sub_of_absent
    {m : Matcher α} {replacement text : List α} (h : Absent m text) :
    sub m replacement text = text := by
  rw [sub, subFrom, scan_quiet fun rest hrest => reader_eq_none_iff.mpr (h rest hrest),
    List.flatMap_map]
  exact List.flatMap_singleton' text

/-! ## Matches and a mark -/

/-- No match reaches a mark, and what stands behind a match does not matter. -/
def Closed (mark : α) (m : Matcher α) : Prop :=
  ∀ gap after, ∀ n ∈ m (gap ++ mark :: after), n ≤ gap.length ∧ ∀ other, n ∈ m (gap ++ other)

/-- A text is matched where its first element is of a class. -/
def OpensWith (p : α → Bool) (m : Matcher α) : Prop :=
  ∀ text, m text ≠ [] ↔ ∃ c cs, text = c :: cs ∧ p c = true

/-- What is matched up to a mark, or with it, is matched with plain elements behind it too. -/
def Robust (mark : α) (plain : α → Prop) (m : Matcher α) : Prop :=
  ∀ gap after c other, plain c → m (gap ++ mark :: after) ≠ [] → m (gap ++ c :: other) ≠ []

/-- What is matched begins with one of some words. -/
def Leads (fold : α → β) (words : List (List β)) (m : Matcher α) : Prop :=
  ∀ text, m text ≠ [] → ∃ word ∈ words, (text.take word.length).map fold = word

/-- A word and a text that differ where both have an element. -/
def clashes [DecidableEq β] (fold : α → β) (word : List β) (text : List α) : Bool :=
  (List.zip word text).any fun pair => fold pair.2 ≠ pair.1

section Closed

variable {mark : α}

theorem closed_one {p : α → Bool} (hmark : p mark = false) : Closed mark (one p) := by
  intro gap after n hn
  cases gap with
  | nil => simp [one, hmark] at hn
  | cons c gap =>
      by_cases hc : p c = true
      · simp only [List.cons_append, one, if_pos hc, List.mem_singleton] at hn ⊢
        rw [hn]
        exact ⟨by simp, fun _ => rfl⟩
      · simp [one, hc] at hn

theorem closed_literal [DecidableEq β] {fold : α → β} {word : List β} (hmark : fold mark ∉ word) :
    Closed mark (literal fold word) := by
  intro gap after n hn
  rw [literal] at hn
  split at hn
  · next hword =>
      have hlength : n = word.length := by simpa using hn
      have hle : word.length ≤ gap.length := by
        by_contra hlong
        have hmem : mark ∈ (gap ++ mark :: after).take word.length := by
          rw [List.take_append]
          refine List.mem_append_right _ ?_
          obtain ⟨k, hk⟩ : ∃ k, word.length - gap.length = k + 1 :=
            ⟨word.length - gap.length - 1, by omega⟩
          rw [hk, List.take_succ_cons]
          exact List.mem_cons_self
        exact hmark (hword ▸ List.mem_map_of_mem hmem)
      rw [List.take_append_of_le_length hle] at hword
      rw [hlength]
      refine ⟨hle, fun other => ?_⟩
      rw [literal, List.take_append_of_le_length hle, if_pos hword]
      exact List.mem_singleton_self _
  · cases hn

theorem closed_atLeast {least : Nat} {p : α → Bool} (hmark : p mark = false) :
    Closed mark (atLeast least p) := by
  intro gap after n hn
  obtain ⟨hleast, hmost⟩ := mem_atLeast.mp hn
  have hrun : (gap ++ mark :: after).takeWhile p = gap.takeWhile p := by
    rw [List.takeWhile_append, List.takeWhile_cons_of_neg (by simp [hmark]), List.append_nil]
    split
    · next hall => exact ((List.takeWhile_prefix p).eq_of_length hall).symm
    · rfl
  rw [hrun] at hmost
  refine ⟨hmost.trans (List.takeWhile_sublist p).length_le, fun other => ?_⟩
  refine mem_atLeast.mpr ⟨hleast, hmost.trans ?_⟩
  rw [List.takeWhile_append]
  split
  · next hall => simp [hall]
  · exact le_refl _

theorem closed_andThen {m n : Matcher α} (hm : Closed mark m) (hn : Closed mark n) :
    Closed mark (andThen m n) := by
  intro gap after length hlength
  obtain ⟨k, hk, l, hl, rfl⟩ := mem_andThen.mp hlength
  obtain ⟨hkle, hkother⟩ := hm gap after k hk
  rw [List.drop_append_of_le_length hkle] at hl
  obtain ⟨hlle, hlother⟩ := hn (gap.drop k) after l hl
  rw [List.length_drop] at hlle
  refine ⟨by omega, fun other => ?_⟩
  refine mem_andThen.mpr ⟨k, hkother other, l, ?_, rfl⟩
  rw [List.drop_append_of_le_length hkle]
  exact hlother other

theorem closed_either {m n : Matcher α} (hm : Closed mark m) (hn : Closed mark n) :
    Closed mark (either m n) := by
  intro gap after length hlength
  rcases List.mem_append.mp hlength with h | h
  · exact ⟨(hm gap after length h).1, fun other =>
      List.mem_append_left _ ((hm gap after length h).2 other)⟩
  · exact ⟨(hn gap after length h).1, fun other =>
      List.mem_append_right _ ((hn gap after length h).2 other)⟩

theorem closed_optional {m : Matcher α} (hm : Closed mark m) : Closed mark (optional m) := by
  intro gap after length hlength
  rcases List.mem_append.mp hlength with h | h
  · exact ⟨(hm gap after length h).1, fun other =>
      List.mem_append_left _ ((hm gap after length h).2 other)⟩
  · rw [List.mem_singleton.mp h]
    exact ⟨Nat.zero_le _, fun other => List.mem_append_right _ (List.mem_singleton_self 0)⟩

end Closed

section Robust

variable {mark : α} {plain : α → Prop}

theorem Closed.robust {m : Matcher α} (hm : Closed mark m) : Robust mark plain m := by
  intro gap after c other _ hmatch
  obtain ⟨n, hn⟩ := List.exists_mem_of_ne_nil _ hmatch
  exact List.ne_nil_of_mem ((hm gap after n hn).2 (c :: other))

theorem opensWith_atLeast {p : α → Bool} : OpensWith p (atLeast 1 p) := by
  intro text
  constructor
  · intro hmatch
    obtain ⟨n, hn⟩ := List.exists_mem_of_ne_nil _ hmatch
    obtain ⟨hpos, hle⟩ := mem_atLeast.mp hn
    cases text with
    | nil =>
        simp only [List.takeWhile_nil, List.length_nil] at hle
        omega
    | cons c cs =>
        refine ⟨c, cs, rfl, ?_⟩
        by_contra hc
        rw [List.takeWhile_cons_of_neg hc] at hle
        simp only [List.length_nil] at hle
        omega
  · rintro ⟨c, cs, rfl, hc⟩
    refine List.ne_nil_of_mem (a := 1) (mem_atLeast.mpr ⟨le_refl 1, ?_⟩)
    rw [List.takeWhile_cons_of_pos hc, List.length_cons]
    omega

theorem OpensWith.robust
    {p : α → Bool} {m : Matcher α} (hm : OpensWith p m) (hplain : ∀ c, plain c → p c = true) :
    Robust mark plain m := by
  intro gap after c other hc hmatch
  rw [hm] at hmatch ⊢
  cases gap with
  | nil => exact ⟨c, other, rfl, hplain c hc⟩
  | cons d gap =>
      obtain ⟨first, rest, heq, hfirst⟩ := hmatch
      obtain ⟨rfl, -⟩ := List.cons.inj heq
      exact ⟨d, gap ++ c :: other, rfl, hfirst⟩

theorem robust_andThen
    {m n : Matcher α} (hm : Closed mark m) (hn : Robust mark plain n) :
    Robust mark plain (andThen m n) := by
  intro gap after c other hc hmatch
  obtain ⟨length, hlength⟩ := List.exists_mem_of_ne_nil _ hmatch
  obtain ⟨k, hk, l, hl, rfl⟩ := mem_andThen.mp hlength
  obtain ⟨hkle, hkother⟩ := hm gap after k hk
  rw [List.drop_append_of_le_length hkle] at hl
  have hrest := hn (gap.drop k) after c other hc (List.ne_nil_of_mem hl)
  obtain ⟨l', hl'⟩ := List.exists_mem_of_ne_nil _ hrest
  rw [← List.drop_append_of_le_length hkle] at hl'
  exact List.ne_nil_of_mem (mem_andThen.mpr ⟨k, hkother (c :: other), l', hl', rfl⟩)

end Robust

section Leads

variable {fold : α → β}

theorem leads_literal [DecidableEq β] {word : List β} :
    Leads fold [word] (literal fold word) := by
  intro text hmatch
  rw [literal] at hmatch
  split at hmatch
  · next hword => exact ⟨word, List.mem_singleton_self word, hword⟩
  · exact absurd rfl hmatch

theorem leads_andThen {words : List (List β)} {m n : Matcher α} (hm : Leads fold words m) :
    Leads fold words (andThen m n) := by
  intro text hmatch
  refine hm text fun hnone => hmatch ?_
  rw [andThen, hnone]
  rfl

theorem leads_either
    {words words' : List (List β)} {m n : Matcher α}
    (hm : Leads fold words m) (hn : Leads fold words' n) :
    Leads fold (words ++ words') (either m n) := by
  intro text hmatch
  obtain ⟨length, hlength⟩ := List.exists_mem_of_ne_nil _ hmatch
  rcases List.mem_append.mp hlength with h | h
  · obtain ⟨word, hword, heq⟩ := hm text (List.ne_nil_of_mem h)
    exact ⟨word, List.mem_append_left _ hword, heq⟩
  · obtain ⟨word, hword, heq⟩ := hn text (List.ne_nil_of_mem h)
    exact ⟨word, List.mem_append_right _ hword, heq⟩

theorem leads_optional
    {words words' : List (List β)} {m n : Matcher α}
    (hm : Leads fold words m) (hn : Leads fold words' n) :
    Leads fold (words ++ words') (andThen (optional m) n) := by
  intro text hmatch
  obtain ⟨length, hlength⟩ := List.exists_mem_of_ne_nil _ hmatch
  obtain ⟨k, hk, l, hl, -⟩ := mem_andThen.mp hlength
  rcases List.mem_append.mp hk with h | h
  · obtain ⟨word, hword, heq⟩ := hm text (List.ne_nil_of_mem h)
    exact ⟨word, List.mem_append_left _ hword, heq⟩
  · rw [List.mem_singleton.mp h, List.drop_zero] at hl
    obtain ⟨word, hword, heq⟩ := hn text (List.ne_nil_of_mem hl)
    exact ⟨word, List.mem_append_right _ hword, heq⟩

theorem not_lead_of_clashes
    [DecidableEq β] {word : List β} {text : List α} (h : clashes fold word text = true)
    (after : List α) :
    ((text ++ after).take word.length).map fold ≠ word := by
  induction word generalizing text with
  | nil => simp [clashes] at h
  | cons first word ih =>
      cases text with
      | nil => simp [clashes] at h
      | cons c text =>
          intro heq
          simp only [List.cons_append, List.length_cons, List.take_succ_cons, List.map_cons,
            List.cons.injEq] at heq
          have hrest : clashes fold word text = true := by
            simpa [clashes, heq.1] using h
          exact ih hrest heq.2

/-- No match begins inside a text that clashes with every word a match begins with. -/
theorem Leads.eq_nil
    [DecidableEq β] {words : List (List β)} {m : Matcher α} (hm : Leads fold words m)
    {text : List α} (h : words.all (fun word => clashes fold word text) = true)
    (after : List α) :
    m (text ++ after) = [] := by
  by_contra hmatch
  obtain ⟨word, hword, heq⟩ := hm _ hmatch
  exact not_lead_of_clashes (List.all_eq_true.mp h word hword) after heq

/-- The first element of what is matched is that of one of the words. -/
theorem Leads.head
    {words : List (List β)} {m : Matcher α} (hm : Leads fold words m) (hne : [] ∉ words)
    {c : α} {cs : List α} (hmatch : m (c :: cs) ≠ []) :
    fold c ∈ words.filterMap List.head? := by
  obtain ⟨word, hword, heq⟩ := hm _ hmatch
  cases word with
  | nil => exact absurd hword hne
  | cons first word =>
      simp only [List.length_cons, List.take_succ_cons, List.map_cons, List.cons.injEq] at heq
      exact List.mem_filterMap.mpr ⟨_, hword, by rw [heq.1]; rfl⟩

end Leads

/-! ## What a substitution leaves -/

section Sub

variable {mark : α} {plain : α → Prop} {f g : Matcher α} {tail : List α}

/-- No match begins inside the replacement. -/
def Outside (g : Matcher α) (replacement : List α) : Prop :=
  ∀ rest, rest <:+ replacement → rest ≠ [] → ∀ after, g (rest ++ after) = []

theorem Leads.outside
    [DecidableEq β] {fold : α → β} {words : List (List β)} (hg : Leads fold words g)
    {replacement : List α}
    (h : replacement.tails.all (fun rest =>
      rest.isEmpty || words.all fun word => clashes fold word rest) = true) :
    Outside g replacement := by
  intro rest hrest hne after
  have hclash := List.all_eq_true.mp h rest ((List.mem_tails _ _).mpr hrest)
  rw [Bool.or_eq_true, List.isEmpty_iff] at hclash
  exact hg.eq_nil (hclash.resolve_left hne) after

theorem subFrom_cons
    (f : Matcher α) (replacement : List α) (c : α) (cs : List α) :
    subFrom f replacement 0 (c :: cs) =
      match (f (c :: cs)).head? with
      | some n => replacement ++ subFrom f replacement (n - 1) cs
      | none => c :: subFrom f replacement 0 cs := by
  cases hmatch : (f (c :: cs)).head? with
  | none => simp [subFrom, scan, reader, hmatch]
  | some n => simp [subFrom, scan, reader, hmatch]

/-- Up to the next replacement the text is as it was. -/
theorem subFrom_gap
    (f : Matcher α) (mark : α) (tail text : List α) :
    subFrom f (mark :: tail) 0 text = text ∨
      ∃ gap c cs after, text = gap ++ c :: cs ∧ f (c :: cs) ≠ [] ∧
        subFrom f (mark :: tail) 0 text = gap ++ mark :: after := by
  induction text with
  | nil => exact Or.inl rfl
  | cons c cs ih =>
      rw [subFrom_cons]
      cases hmatch : (f (c :: cs)).head? with
      | some n =>
          refine Or.inr ⟨[], c, cs, _, rfl, ?_, rfl⟩
          intro hnil
          rw [hnil] at hmatch
          cases hmatch
      | none =>
          rcases ih with hsame | ⟨gap, d, ds, after, rfl, hd, heq⟩
          · exact Or.inl (by simp [hsame])
          · exact Or.inr ⟨c :: gap, d, ds, after, rfl, hd, by simp [heq]⟩

theorem absent_append
    {lead text : List α} (htext : Absent g text)
    (hlead : ∀ gap, gap <:+ lead → gap ≠ [] → g (gap ++ text) = []) :
    Absent g (lead ++ text) := by
  induction lead with
  | nil => exact htext
  | cons c lead ih =>
      rw [List.cons_append, absent_cons_iff]
      refine ⟨hlead (c :: lead) (List.suffix_refl _) (List.cons_ne_nil c lead), ih ?_⟩
      exact fun gap hgap hne => hlead gap (hgap.trans (List.suffix_cons c lead)) hne

/-- Where the substituted matches are not, a matcher that found nothing finds nothing. -/
theorem absent_subFrom
    (hrobust : Robust mark plain g) (hplain : ∀ c cs, f (c :: cs) ≠ [] → plain c)
    (houtside : Outside g (mark :: tail)) (hnil : g [] = [])
    (skip : Nat) (text : List α)
    (hgap : ∀ c cs, c :: cs <:+ text → f (c :: cs) = [] → g (c :: cs) = []) :
    Absent g (subFrom f (mark :: tail) skip text) := by
  induction text generalizing skip with
  | nil =>
      intro rest hrest
      have hempty : rest = [] := List.suffix_nil.mp (by simpa [subFrom, scan] using hrest)
      rw [hempty, hnil]
  | cons c cs ih =>
      have hlater := fun skip => ih skip fun d ds hds => hgap d ds (hds.trans (List.suffix_cons c cs))
      cases skip with
      | succ skip => exact hlater skip
      | zero =>
          rw [subFrom_cons]
          cases hmatch : (f (c :: cs)).head? with
          | some n => exact absent_append (hlater (n - 1)) fun gap hsuffix hne => houtside gap hsuffix hne _
          | none =>
              have hhere : g (c :: cs) = [] :=
                hgap c cs (List.suffix_refl _) (List.head?_eq_none_iff.mp hmatch)
              refine absent_cons_iff.mpr ⟨?_, hlater 0⟩
              rcases subFrom_gap f mark tail cs with hsame | ⟨gap, d, ds, after, rfl, hd, heq⟩
              · rw [hsame]
                exact hhere
              · -- A match up to the replacement would be one in the text.
                by_contra hmatched
                rw [heq] at hmatched
                exact hrobust (c :: gap) after d ds (hplain d ds hd) hmatched hhere

variable {replacement : List α} (hmark : replacement.head? = some mark)

include hmark

theorem absent_sub_of_absent
    (hrobust : Robust mark plain g) (hplain : ∀ c cs, f (c :: cs) ≠ [] → plain c)
    (houtside : Outside g replacement) {text : List α} (habsent : Absent g text) :
    Absent g (sub f replacement text) := by
  obtain ⟨tail, rfl⟩ := List.head?_eq_some_iff.mp hmark
  exact absent_subFrom hrobust hplain houtside (habsent [] List.nil_suffix) 0 text
    fun _ _ hsuffix _ => habsent _ hsuffix

theorem absent_sub_self
    (hrobust : Robust mark plain f) (hplain : ∀ c cs, f (c :: cs) ≠ [] → plain c)
    (houtside : Outside f replacement) (hnil : f [] = []) (text : List α) :
    Absent f (sub f replacement text) := by
  obtain ⟨tail, rfl⟩ := List.head?_eq_some_iff.mp hmark
  exact absent_subFrom hrobust hplain houtside hnil 0 text fun _ _ _ h => h

/-- Cut off at its leftmost match, a text matches nowhere. -/
theorem absent_cut
    (hrobust : Robust mark plain f) (hplain : ∀ c cs, f (c :: cs) ≠ [] → plain c)
    (houtside : Outside f replacement) (hnil : f [] = [])
    {text : List α} {start : Nat} (hsearch : search f text = some start) :
    Absent f (text.take start ++ replacement) := by
  obtain ⟨tail, rfl⟩ := List.head?_eq_some_iff.mp hmark
  obtain ⟨lead, rest, rfl, rfl, hmatch, hbefore⟩ := search_eq_some hsearch
  rw [List.take_left]
  have htail : Absent f (mark :: tail) := by
    intro other hother
    by_cases hne : other = []
    · rw [hne, hnil]
    · simpa using houtside other hother hne []
  refine absent_append htail fun gap hsuffix hne => ?_
  cases rest with
  | nil => exact absurd hnil hmatch
  | cons c cs =>
      by_contra hmatched
      exact hrobust gap tail c cs (hplain c cs hmatch) hmatched (hbefore gap hsuffix hne)

end Sub

end Matchers

end Lib
end PrReviewer
