import PrReviewer.Lib.JsonRoundTrip

/-!
# The characters of a JSON text

With `ensure_ascii` a text is plain ASCII.  Without it the characters beyond ASCII that
stand in a text are those its strings and keys hold.
-/

namespace PrReviewer
namespace Lib

section Characters

variable {style : JsonStyle} {floats : FloatText}

mutual

/-- The characters of the strings and the keys of a value. -/
def jsonPoints : PyJson → List CodePoint
  | .str s => s.points
  | .list items => jsonPointsItems items
  | .dict items => jsonPointsMembers items
  | _ => []

def jsonPointsItems : List PyJson → List CodePoint
  | [] => []
  | item :: rest => jsonPoints item ++ jsonPointsItems rest

def jsonPointsMembers : List (PyStr × PyJson) → List CodePoint
  | [] => []
  | (key, value) :: rest => key.points ++ (jsonPoints value ++ jsonPointsMembers rest)

end

theorem forall_jsonPointsMembers
    {p : CodePoint → Prop} {items : List (PyStr × PyJson)} :
    (∀ c ∈ jsonPointsMembers items, p c) ↔
      ∀ item ∈ items, (∀ c ∈ item.1.points, p c) ∧ ∀ c ∈ jsonPoints item.2, p c := by
  induction items with
  | nil => simp [jsonPointsMembers]
  | cons item rest ih =>
      obtain ⟨key, value⟩ := item
      simp only [jsonPointsMembers, List.forall_mem_append, List.forall_mem_cons, ih, and_assoc]

/-- The characters of a dict where an item is set. -/
theorem forall_jsonPoints_setItem
    {p : CodePoint → Prop} {items : List (PyStr × PyJson)} {key : PyStr} {value : PyJson}
    (hitems : ∀ c ∈ jsonPointsMembers items, p c) (hkey : ∀ c ∈ key.points, p c)
    (hvalue : ∀ c ∈ jsonPoints value, p c) :
    ∀ c ∈ jsonPointsMembers (setItem items key value), p c := by
  rw [forall_jsonPointsMembers] at hitems ⊢
  intro item hitem
  rcases mem_setItem hitem with hold | rfl
  · exact hitems item hold
  · exact ⟨hkey, hvalue⟩

/-- A character that is written as it is whatever the style. -/
def IsPlain (c : CodePoint) : Prop :=
  0x20 ≤ c.val ∧ c.val ≤ 0x7e

instance (c : CodePoint) : Decidable (IsPlain c) :=
  inferInstanceAs (Decidable (_ ∧ _))

/-- Plain characters can be encoded. -/
theorem text?_of_isPlain
    {points : List CodePoint}
    (hplain : ∀ c ∈ points, IsPlain c) :
    ∃ text, PyStr.text? ⟨points⟩ = some text := by
  have hchars : ∃ chars, points.mapM (fun (c : CodePoint) =>
      if c.val.isValidChar then some (Char.ofNat c.val) else none) = some chars := by
    induction points with
    | nil => exact ⟨[], rfl⟩
    | cons c points ih =>
        obtain ⟨chars, hchars⟩ := ih (fun d hd => hplain d (List.mem_cons_of_mem c hd))
        obtain ⟨_, hhigh⟩ := hplain c (by simp)
        have hvalid : c.val.isValidChar := .inl (by omega)
        exact ⟨Char.ofNat c.val :: chars, by rw [List.mapM_cons, if_pos hvalid, hchars]; rfl⟩
  obtain ⟨chars, hchars⟩ := hchars
  exact ⟨String.ofList chars, by rw [PyStr.text?, hchars]; rfl⟩

/-- A character of a text: a plain one, or one a string holds that is not escaped. -/
def Written (style : JsonStyle) (points : List CodePoint) (c : CodePoint) : Prop :=
  IsPlain c ∨ (style.ensureAscii = false ∧ 0x7e < c.val ∧ c ∈ points)

theorem isPlain_unicodeEscape
    {n : Nat} {c : CodePoint}
    (hc : c ∈ unicodeEscape n) :
    IsPlain c := by
  have hdigit : ∀ k, k < 16 → IsPlain (hexDigit k) := by decide
  simp only [unicodeEscape, hexDigits, List.mem_cons, List.not_mem_nil, or_false] at hc
  rcases hc with rfl | rfl | rfl | rfl | rfl | rfl
  · decide
  · decide
  all_goals exact hdigit _ (Nat.mod_lt _ (by omega))

theorem written_escapePoint
    {c d : CodePoint} {points : List CodePoint}
    (hd : d ∈ points) (hc : c ∈ escapePoint style.ensureAscii d) :
    Written style points c := by
  unfold escapePoint at hc
  cases hshort : shortEscapes.lookup d with
  | some letter =>
      rw [hshort] at hc
      obtain ⟨before, after, heq, _⟩ := List.lookup_eq_some_iff.mp hshort
      have hletters : ∀ p ∈ shortEscapes, IsPlain p.2 := by
        simp [shortEscapes, IsPlain]
      have hletter := hletters (d, letter) (by simp [heq])
      simp only [List.mem_cons, List.not_mem_nil, or_false] at hc
      rcases hc with rfl | rfl
      · exact .inl (by decide)
      · exact .inl hletter
  | none =>
      rw [hshort] at hc
      simp only at hc
      split at hc
      · split at hc
        · exact .inl (isPlain_unicodeEscape hc)
        · rcases List.mem_append.mp hc with hhigh | hlow
          · exact .inl (isPlain_unicodeEscape hhigh)
          · exact .inl (isPlain_unicodeEscape hlow)
      · next hraw =>
          rw [not_or, not_and_or, Bool.not_eq_true] at hraw
          rw [List.mem_singleton.mp hc]
          by_cases hplain : IsPlain d
          · exact .inl hplain
          · unfold IsPlain at hplain
            rcases hraw.2 with hascii | hlow
            · exact .inr ⟨hascii, by omega, hd⟩
            · omega

theorem written_quoted
    {s : PyStr} {c : CodePoint}
    (hc : c ∈ quoted style s) :
    Written style s.points c := by
  simp only [quoted, escaped, List.mem_cons, List.mem_append, List.mem_flatMap,
    List.not_mem_nil, or_false] at hc
  rcases hc with rfl | ⟨d, hd, hc⟩ | rfl
  · exact .inl (by decide)
  · exact written_escapePoint hd hc
  · exact .inl (by decide)

theorem isPlain_digit
    {c : CodePoint}
    (hc : isDigitPoint c = true) :
    IsPlain c := by
  have hbounds : 0x30 ≤ c.val ∧ c.val ≤ 0x39 := by simpa [isDigitPoint] using hc
  unfold IsPlain
  omega

theorem isPlain_word
    {word : List CodePoint × PyJson} (hword : word ∈ jsonWords)
    {c : CodePoint} (hc : c ∈ word.1) :
    IsPlain c := by
  have hall : ∀ word ∈ jsonWords.map Prod.fst, ∀ c ∈ word, IsPlain c := by
    simp [jsonWords, nullText, trueText, falseText, nanText, infinityText, IsPlain]
  exact hall word.1 (List.mem_map_of_mem hword) c hc

theorem isPlain_intPoints
    {n : Int} {text : List CodePoint}
    (htext : intPoints n = .ok text) {c : CodePoint} (hc : c ∈ text) :
    IsPlain c := by
  unfold intPoints at htext
  split at htext
  · cases htext
  · split at htext
    · cases htext
      rcases List.mem_cons.mp hc with rfl | hc
      · decide
      · exact isPlain_digit (isDigitPoint_decimal hc)
    · cases htext
      exact isPlain_digit (isDigitPoint_decimal hc)

theorem isPlain_floatText
    {x : PyFloat}
    (hx : floats.Reads x) {c : CodePoint} (hc : c ∈ floatText floats x) :
    IsPlain c := by
  cases x with
  | finite mantissa exponent =>
      obtain ⟨⟨negative, whole, fraction, power, hnumeral⟩, _⟩ := hx
      rw [floatText, hnumeral.text_eq] at hc
      simp only [List.mem_append] at hc
      rcases hc with hsign | (hwhole | hfraction) | hpower
      · split at hsign
        · rw [List.mem_singleton.mp hsign]
          decide
        · cases hsign
      · exact isPlain_digit (isDigitPoint_decimal hwhole)
      · rcases hnumeral.isFraction with rfl | ⟨digits, rfl, _, hdigits⟩
        · cases hfraction
        · rcases List.mem_cons.mp hfraction with rfl | hfraction
          · decide
          · exact isPlain_digit (hdigits c hfraction)
      · rcases hnumeral.isExponent with rfl | ⟨sign, digits, rfl, hsign, _, hdigits⟩
        · cases hpower
        · rcases List.mem_cons.mp hpower with rfl | hpower
          · decide
          · rcases List.mem_cons.mp hpower with rfl | hpower
            · rcases hsign with rfl | rfl
              · decide
              · decide
            · exact isPlain_digit (hdigits c hpower)
  | infinity negative => exact isPlain_word (infinity_word negative) hc
  | nan => exact isPlain_word nan_word hc

theorem mem_intercalate
    {sep : List CodePoint} {texts : List (List CodePoint)} {c : CodePoint}
    (hc : c ∈ List.intercalate sep texts) :
    c ∈ sep ∨ ∃ text ∈ texts, c ∈ text := by
  have hjoin : c ∈ (PyStr.join ⟨sep⟩ (texts.map PyStr.mk)).points := by
    simpa [PyStr.join, Function.comp_def] using hc
  rcases mem_points_join hjoin with hsep | ⟨part, hpart, hmem⟩
  · exact .inl hsep
  · obtain ⟨text, htext, rfl⟩ := List.mem_map.mp hpart
    exact .inr ⟨text, htext, hmem⟩

theorem Written.mono
    {points points' : List CodePoint} {c : CodePoint}
    (h : Written style points c) (hsub : ∀ d ∈ points, d ∈ points') :
    Written style points' c := by
  rcases h with hplain | ⟨hascii, hlow, hmem⟩
  · exact .inl hplain
  · exact .inr ⟨hascii, hlow, hsub c hmem⟩

theorem isPlain_gap
    {c : CodePoint}
    (hc : c ∈ style.gap) :
    IsPlain c := by
  unfold JsonStyle.gap at hc
  split at hc
  · rw [List.mem_singleton.mp hc]
    decide
  · cases hc

/-- The characters of a list or a dict: its brackets, the separators, and its parts. -/
theorem written_enclosed
    {opening closing : CodePoint} {points : List CodePoint} {texts : List (List CodePoint)}
    (hopening : IsPlain opening) (hclosing : IsPlain closing)
    (htexts : ∀ text ∈ texts, ∀ c ∈ text, Written style points c) {c : CodePoint}
    (hc : c ∈ opening :: (List.intercalate (0x2c :: style.gap) texts ++ [closing])) :
    Written style points c := by
  simp only [List.mem_cons, List.mem_append, List.not_mem_nil, or_false] at hc
  rcases hc with rfl | hc | rfl
  · exact .inl hopening
  · rcases mem_intercalate hc with hsep | ⟨text, htext, hmem⟩
    · rcases List.mem_cons.mp hsep with rfl | hgap
      · exact .inl (by decide)
      · exact .inl (isPlain_gap hgap)
    · exact htexts text htext c hmem
  · exact .inl hclosing

mutual

/-- The characters of a text. -/
theorem written_jsonDumps
    (frames : Nat) :
    ∀ value text, JsonReads style floats value →
      jsonDumps style floats frames value = .ok text →
        ∀ c ∈ text, Written style (jsonPoints value) c
  | .null, text => by
      rintro _ ⟨⟩ c hc
      exact .inl (isPlain_word null_word hc)
  | .bool b, text => by
      rintro _ ⟨⟩ c hc
      exact .inl (isPlain_word (bool_word b) hc)
  | .int n, text => fun _ htext c hc => .inl (isPlain_intPoints htext hc)
  | .float x, text => by
      rintro hreads ⟨⟩ c hc
      exact .inl (isPlain_floatText hreads hc)
  | .str s, text => by
      rintro _ ⟨⟩ c hc
      exact written_quoted hc
  | .list items, text => by
      intro hreads htext c hc
      cases frames with
      | zero => cases htext
      | succ frames =>
          simp only [jsonDumps] at htext
          obtain ⟨texts, htexts, htext⟩ := bind_eq_ok htext
          cases htext
          exact written_enclosed (by decide) (by decide)
            (written_jsonItems frames items texts hreads htexts) hc
  | .dict items, text => by
      intro hreads htext c hc
      cases frames with
      | zero => cases htext
      | succ frames =>
          simp only [jsonDumps] at htext
          obtain ⟨texts, htexts, htext⟩ := bind_eq_ok htext
          cases htext
          exact written_enclosed (by decide) (by decide)
            (written_jsonMembers frames items texts hreads.2 htexts) hc

theorem written_jsonItems
    (frames : Nat) :
    ∀ items texts, JsonReadsItems style floats items →
      jsonItems style floats frames items = .ok texts →
        ∀ text ∈ texts, ∀ c ∈ text, Written style (jsonPointsItems items) c
  | [], texts => by
      rintro _ ⟨⟩ text htext
      cases htext
  | item :: rest, texts => by
      intro hreads htexts text htext c hc
      simp only [jsonItems] at htexts
      obtain ⟨first, hfirst, htexts⟩ := bind_eq_ok htexts
      obtain ⟨later, hlater, htexts⟩ := bind_eq_ok htexts
      cases htexts
      rcases List.mem_cons.mp htext with rfl | htext
      · exact (written_jsonDumps frames item _ hreads.1 hfirst c hc).mono
          (fun d hd => List.mem_append_left _ hd)
      · exact (written_jsonItems frames rest later hreads.2 hlater text htext c hc).mono
          (fun d hd => List.mem_append_right _ hd)

theorem written_jsonMembers
    (frames : Nat) :
    ∀ members texts, JsonReadsMembers style floats members →
      jsonMembers style floats frames members = .ok texts →
        ∀ text ∈ texts, ∀ c ∈ text, Written style (jsonPointsMembers members) c
  | [], texts => by
      rintro _ ⟨⟩ text htext
      cases htext
  | (key, value) :: rest, texts => by
      intro hreads htexts text htext c hc
      simp only [jsonMembers] at htexts
      obtain ⟨first, hfirst, htexts⟩ := bind_eq_ok htexts
      obtain ⟨later, hlater, htexts⟩ := bind_eq_ok htexts
      cases htexts
      simp only [jsonPointsMembers]
      rcases List.mem_cons.mp htext with rfl | htext
      · simp only [List.mem_append, List.mem_cons] at hc
        rcases hc with hkey | (rfl | hgap) | hvalue
        · exact (written_quoted hkey).mono (fun d hd => by simp [hd])
        · exact .inl (by decide)
        · exact .inl (isPlain_gap hgap)
        · exact (written_jsonDumps frames value first hreads.2.1 hfirst c hvalue).mono
            (fun d hd => by simp [hd])
      · exact (written_jsonMembers frames rest later hreads.2.2 hlater text htext c hc).mono
          (fun d hd => by simp [hd])

end

/-- With `ensure_ascii` a text is plain. -/
theorem isPlain_jsonDumps
    {frames : Nat} {value : PyJson} {text : List CodePoint}
    (hascii : style.ensureAscii = true) (hreads : JsonReads style floats value)
    (htext : jsonDumps style floats frames value = .ok text) {c : CodePoint} (hc : c ∈ text) :
    IsPlain c := by
  rcases written_jsonDumps frames value text hreads htext c hc with hplain | ⟨hraw, _⟩
  · exact hplain
  · rw [hascii] at hraw
    cases hraw

end Characters

end Lib
end PrReviewer
