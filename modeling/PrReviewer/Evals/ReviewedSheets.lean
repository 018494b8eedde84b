import PrReviewer.Evals.ReviewSessions
import PrReviewer.LocalStore.RoundTrip

/-!
# The builder takes what a session judged

A sheet is mined from git, judged in a session, and built into a holdout.  Of a row the session
included the builder reads back every field the session wrote; what it can still miss is what
git did not give: the date of the commit, or its diff.
-/

namespace PrReviewer
namespace Evals

open Lib LocalStore

/-! ## Fields of a row -/

/-- A key reads what was set for it, and any other key what was there. -/
theorem getItem?_setItem
    (items : JsonRow) (name key : String) (value : PyJson) :
    getItem? (setItem items (.ofString name) value) key =
      if key = name then some value else getItem? items key := by
  have happend : ∀ items : JsonRow, PyStr.ofString name ∉ items.map Prod.fst →
      getItem? (items ++ [(PyStr.ofString name, value)]) key =
        if key = name then some value else getItem? items key := by
    intro items hname
    have hnone : key = name → getItem? items key = none := by
      rintro rfl
      refine List.lookup_eq_none_iff.mpr ?_
      intro item hitem
      refine bne_iff_ne.mpr ?_
      rintro hkey
      exact hname (hkey ▸ List.mem_map_of_mem hitem)
    have hlookup : getItem? (items ++ [(PyStr.ofString name, value)]) key =
        (getItem? items key).or (getItem? [(PyStr.ofString name, value)] key) :=
      List.lookup_append
    rw [hlookup, getItem?_cons]
    split
    · next hkey =>
        rw [hnone hkey]
        rfl
    · exact Option.or_none
  have hreplace : PyStr.ofString name ∈ items.map Prod.fst →
      getItem? (items.map (fun item =>
          if item.1 = PyStr.ofString name then (PyStr.ofString name, value) else item)) key =
        if key = name then some value else getItem? items key := by
    intro hname
    induction items with
    | nil => cases hname
    | cons item items ih =>
        obtain ⟨itemKey, itemValue⟩ := item
        simp only [List.map_cons]
        by_cases hitem : itemKey = PyStr.ofString name
        · subst hitem
          simp only [if_true]
          rw [getItem?_cons, getItem?_cons]
          by_cases hkey : key = name
          · simp only [hkey, if_true]
          · simp only [hkey, if_false]
            by_cases hrest : PyStr.ofString name ∈ items.map Prod.fst
            · simpa only [hkey, if_false] using ih hrest
            · congr 1
              refine List.map_congr_left ?_ |>.trans (List.map_id items)
              intro item hmem
              refine if_neg ?_
              intro hfirst
              exact hrest (hfirst ▸ List.mem_map_of_mem hmem)
        · simp only [hitem, if_false]
          have hrest : PyStr.ofString name ∈ items.map Prod.fst :=
            (List.mem_cons.mp hname).resolve_left (fun h => hitem h.symm)
          have hrec := ih hrest
          unfold getItem? at hrec ⊢
          rw [List.lookup_cons, List.lookup_cons]
          by_cases hkey : PyStr.ofString key = itemKey
          · have hne : key ≠ name := by
              rintro rfl
              exact hitem hkey.symm
            simp only [beq_iff_eq.mpr hkey, hne, if_false]
          · simp only [beq_eq_false_iff_ne.mpr hkey]
            exact hrec
  unfold setItem
  split
  · next hname => exact hreplace hname
  · next hname => exact happend items hname

theorem textOr_of_str
    {repr : PyJson → PyStr} {row : JsonRow} {key : String} {s : PyStr}
    (h : getItem? row key = some (.str s)) :
    textOr repr row key = .ok s := by
  rw [textOr, getOr, h]
  obtain ⟨points⟩ := s
  cases points with
  | nil => rfl
  | cons c points => rfl

theorem getOr_of_list
    {row : JsonRow} {key : String} {items : List PyJson}
    (h : getItem? row key = some (.list items)) :
    getOr row key (.list []) = .list items := by
  rw [getOr, h]
  cases items with
  | nil => rfl
  | cons item items => rfl

/-- The fields of a row the builder reads, as the miner wrote them. -/
structure MinedFields {dates : DateText} (idPrefix : PyStr) (index : Nat)
    (candidate : EvalCandidate dates) (row : JsonRow) : Prop where
  id : getItem? row "id" = some (.str (idPrefix ++ .ofString "-" ++ threeDigits index))
  committedAt : getItem? row "committed_at" =
    some (.str (candidate.committedAt.elim ⟨[]⟩ dates.isoformat))
  evidence : getItem? row "source_evidence" = some (.list (candidate.sourceEvidence.map .str))
  diff : getItem? row "diff" = some (.str candidate.diff)

section Fields

variable {dates : DateText} {idPrefix : PyStr} {index : Nat} {candidate : EvalCandidate dates}

variable (idPrefix index candidate) in
theorem minedFields_candidateRow :
    MinedFields idPrefix index candidate (candidateRow idPrefix index candidate) := by
  refine ⟨?_, ?_, ?_, ?_⟩
  all_goals simp [candidateRow, dictEntry, getItem?_cons]

variable (idPrefix index candidate) in
theorem verdict_candidateRow :
    getItem? (candidateRow idPrefix index candidate) "verdict" = some (.str ⟨[]⟩) := by
  simp [candidateRow, dictEntry, getItem?_cons]

theorem verdict_excluded
    (row : JsonRow) :
    getItem? (excluded row) "verdict" = some (.str (.ofString "exclude")) := by
  simp [excluded, getItem?_setItem]

theorem verdict_included
    (row : JsonRow) (auditor : PyStr) (labels : List EvalLabel) (split : EvalSplit) :
    getItem? (included row auditor labels split) "verdict" =
      some (.str (.ofString "include")) := by
  simp [included, getItem?_setItem]

theorem verdicts_differ
    {s t : String} (h : s ≠ t) :
    some (PyJson.str (.ofString s)) ≠ some (.str (.ofString t)) := by
  intro hsame
  exact h (PyStr.ofString_injective (PyJson.str.inj (Option.some.inj hsame)))

theorem minedFields_included
    {row : JsonRow} (h : MinedFields idPrefix index candidate row) (auditor : PyStr)
    (labels : List EvalLabel) (split : EvalSplit) :
    MinedFields idPrefix index candidate (included row auditor labels split) := by
  refine ⟨?_, ?_, ?_, ?_⟩
  all_goals simp [included, getItem?_setItem, h.id, h.committedAt, h.evidence, h.diff]

/-- What a session wrote into a row it included. -/
structure JudgedFields (auditor : PyStr) (labels : List EvalLabel) (split : EvalSplit)
    (row : JsonRow) : Prop where
  auditor : getItem? row "human_auditor" = some (.str auditor)
  split : getItem? row "split" = some (.str (.ofString split.value))
  labels : getItem? row "labels" = some (.list (labels.map labelJson))

theorem judgedFields_included
    (row : JsonRow) (auditor : PyStr) (labels : List EvalLabel) (split : EvalSplit) :
    JudgedFields auditor labels split (included row auditor labels split) := by
  refine ⟨?_, ?_, ?_⟩
  all_goals simp [included, getItem?_setItem]

end Fields

/-! ## White space -/

section White

variable {tables : UnicodeTables}

theorem strip_eq_self
    {text : PyStr} (h : ∀ c ∈ text.points, isWhitespace tables c = false) :
    text.strip tables = text := by
  have hdrop : ∀ points : List CodePoint, (∀ c ∈ points, isWhitespace tables c = false) →
      points.dropWhile (isWhitespace tables) = points := by
    intro points hpoints
    cases points with
    | nil => rfl
    | cons c points => exact List.dropWhile_cons_of_neg (by simp [hpoints c List.mem_cons_self])
  obtain ⟨points⟩ := text
  have hreverse : ∀ c ∈ points.reverse, isWhitespace tables c = false :=
    fun c hc => h c (List.mem_reverse.mp hc)
  simp only [PyStr.strip]
  rw [hdrop points h, hdrop _ hreverse, List.reverse_reverse]

theorem not_isWhitespace_of_isPlain
    {c : CodePoint} (h : IsPlain c) (hspace : c ≠ 0x20) :
    isWhitespace tables c = false := by
  obtain ⟨hlow, hhigh⟩ := h
  have hne : c.val ≠ 0x20 := fun heq => hspace (Fin.ext heq)
  rw [isWhitespace, if_pos (by omega)]
  simp only [decide_eq_false_iff_not]
  omega

/-- A word without a space is left by `strip`. -/
theorem strip_ofString
    {s : String} (h : ∀ c ∈ s.toList, 0x21 ≤ c.toNat ∧ c.toNat ≤ 0x7e) :
    (PyStr.ofString s).strip tables = .ofString s :=
  strip_eq_self (fun c hc =>
    not_isWhitespace_of_isPlain (isPlain_ofString h c hc).1 (isPlain_ofString h c hc).2)

theorem mem_of_mem_strip
    {text : PyStr} {c : CodePoint} (hc : c ∈ (text.strip tables).points) :
    c ∈ text.points := by
  simp only [PyStr.strip, List.mem_reverse] at hc
  exact (List.dropWhile_sublist _).subset
    (List.mem_reverse.mp ((List.dropWhile_sublist _).subset hc))

/-- A text that was stripped has text again. -/
theorem lineHasText_strip
    {text : PyStr} (h : lineHasText tables text = true) :
    lineHasText tables (text.strip tables) = true := by
  have hne := of_decide_eq_true h
  simp only [PyStr.strip, ne_eq, List.reverse_eq_nil_iff] at hne
  have hhead := List.head_dropWhile_not (isWhitespace tables) hne
  refine lineHasText_of_mem ?_ hhead
  simp only [PyStr.strip, List.mem_reverse]
  exact List.head_mem hne

end White

/-! ## What was written can be encoded -/

section Encoded

variable {floats : FloatText} {frames : Nat}

/-- The texts of rows that were written hold no surrogate. -/
theorem isValidChar_of_written
    {rows : List JsonRow} {text : PyStr} {bytes : List UInt8}
    (htext : jsonLines sheetStyle floats frames rows = .ok text)
    (hbytes : writeText text = .ok bytes) :
    ∀ row ∈ rows, ∀ c ∈ jsonPointsMembers row, c.val.isValidChar := by
  have hvalid : ∀ c ∈ text.points, c.val.isValidChar := by
    rw [← PyStr.text?_isSome_iff]
    rw [writeText, encodeUtf8] at hbytes
    split at hbytes
    · next s hs =>
        rw [hs]
        rfl
    · cases hbytes
  obtain ⟨texts, htexts, h⟩ := bind_eq_ok htext
  cases h
  intro row hrow c hc
  by_cases hlow : c.val ≤ 0x7e
  · exact .inl (by omega)
  · obtain ⟨line, hline, hdumps⟩ := (mem_of_mapM_eq_ok htexts).1 row hrow
    refine hvalid c (List.mem_flatMap.mpr ⟨line, hline, List.mem_append_left _ ?_⟩)
    exact mem_jsonDumps rfl frames (by omega) (.dict row) line hdumps hc

theorem mem_jsonPointsMembers
    {row : JsonRow} {key : String} {value : PyJson} {c : CodePoint}
    (hget : getItem? row key = some value) (hc : c ∈ jsonPoints value) :
    c ∈ jsonPointsMembers row := by
  obtain ⟨before, after, heq, hbefore⟩ := List.lookup_eq_some_iff.mp hget
  rw [heq]
  clear heq hget hbefore
  induction before with
  | nil => exact List.mem_append_right _ (List.mem_append_left _ hc)
  | cons item before ih =>
      exact List.mem_append_right _ (List.mem_append_right _ ih)

theorem mem_jsonPoints_strings
    {texts : List PyStr} {text : PyStr} {c : CodePoint}
    (htext : text ∈ texts) (hc : c ∈ text.points) :
    c ∈ jsonPoints (.list (texts.map .str)) := by
  simp only [jsonPoints]
  induction texts with
  | nil => cases htext
  | cons first texts ih =>
      rcases List.mem_cons.mp htext with rfl | htext
      · exact List.mem_append_left _ hc
      · exact List.mem_append_right _ (ih htext)

theorem validText_of_valid
    {s : PyStr} (h : ∀ c ∈ s.points, c.val.isValidChar) :
    ∃ text, validText (.str s) = .ok text ∧ s = .ofString text := by
  obtain ⟨text, htext⟩ := Option.isSome_iff_exists.mp (PyStr.text?_isSome_iff.mpr h)
  refine ⟨text, ?_, PyStr.eq_ofString htext⟩
  simp only [validText, htext]

theorem validTexts_of_valid
    {texts : List PyStr} (h : ∀ text ∈ texts, ∀ c ∈ text.points, c.val.isValidChar) :
    ∃ valid, (texts.map PyJson.str).mapM validText = .ok valid ∧ valid.length = texts.length := by
  induction texts with
  | nil => exact ⟨[], rfl, rfl⟩
  | cons text texts ih =>
      obtain ⟨first, hfirst, _⟩ := validText_of_valid (h text List.mem_cons_self)
      obtain ⟨rest, hrest, hlength⟩ := ih (fun s hs => h s (List.mem_cons_of_mem _ hs))
      refine ⟨first :: rest, ?_, congrArg Nat.succ hlength⟩
      rw [List.map_cons, List.mapM_cons, hfirst, ok_bind, hrest]
      rfl

end Encoded

/-! ## The builder on a row -/

section Builder

variable {dates : DateText} {floats : FloatText} {tables : UnicodeTables} {frames : Nat}
variable {repr : PyJson → PyStr} {models : CaseModels dates floats frames}
variable {idPrefix : PyStr} {index : Nat} {candidate : EvalCandidate dates}

theorem ok_python
    {α : Type} (a : α) :
    python (.ok a) = .ok a :=
  rfl

theorem buildRow_unjudged
    {row : JsonRow} {rowId : PyStr}
    (hid : getItem? row "id" = some (.str rowId))
    (hverdict : getItem? row "verdict" = some (.str ⟨[]⟩)) :
    buildRow tables repr models row = .error (.unjudged rowId) := by
  rw [buildRow, textOr_of_str hid, ok_python, ok_bind, textOr_of_str hverdict, ok_python, ok_bind]
  exact if_pos rfl

theorem buildRow_exclude
    {row : JsonRow} {rowId : PyStr}
    (hid : getItem? row "id" = some (.str rowId))
    (hverdict : getItem? row "verdict" = some (.str (.ofString "exclude"))) :
    buildRow tables repr models row = .ok none := by
  have hstrip : (PyStr.ofString "exclude").strip tables = .ofString "exclude" :=
    strip_ofString (by simp)
  rw [buildRow, textOr_of_str hid, ok_python, ok_bind, textOr_of_str hverdict, ok_python, ok_bind,
    hstrip, if_neg (by decide), if_pos rfl]
  rfl

theorem validateLabels
    (labels : List EvalLabel) :
    (labels.map labelJson).mapM models.modelValidate = .ok labels := by
  induction labels with
  | nil => rfl
  | cons label labels ih =>
      have hlabel : models.modelValidate (labelJson label) = .ok label := by
        rw [CaseModels.modelValidate, models.reads_label]
      rw [List.map_cons, List.mapM_cons, hlabel, ok_bind, ih]
      rfl

theorem strip_isoformat
    (date : dates.Date) :
    (dates.isoformat date).strip tables = dates.isoformat date :=
  strip_eq_self (fun c hc =>
    not_isWhitespace_of_isPlain ((dates.plain date).2 c hc).1 ((dates.plain date).2 c hc).2)

theorem strip_splitValue
    (split : EvalSplit) :
    (PyStr.ofString split.value).strip tables = .ofString split.value := by
  cases split with
  | dev => exact strip_ofString (by simp [EvalSplit.value])
  | holdout => exact strip_ofString (by simp [EvalSplit.value])

theorem ofString_ne_nil
    {s : String} (h : PyStr.ofString s ≠ ⟨[]⟩) :
    s ≠ "" := by
  rintro rfl
  exact h rfl

variable (models) in
/-- Once the fields are there the case is built. -/
theorem caseOfRow_ok
    {rowId diff auditor : PyStr} {evidence : List PyStr} {labels : List EvalLabel}
    (split : EvalSplit) (date : dates.Date)
    (hid : rowId ≠ ⟨[]⟩ ∧ ∀ c ∈ rowId.points, c.val.isValidChar)
    (hdiff : diff ≠ ⟨[]⟩ ∧ ∀ c ∈ diff.points, c.val.isValidChar)
    (hauditor : auditor ≠ ⟨[]⟩ ∧ ∀ c ∈ auditor.points, c.val.isValidChar)
    (hevidence : evidence ≠ [] ∧ ∀ text ∈ evidence, ∀ c ∈ text.points, c.val.isValidChar)
    (hlabels : labels ≠ []) :
    ∃ evalCase, evalCase.expectedLabels = labels ∧
      caseOfRow models rowId split diff (.list (labels.map labelJson))
        (.list (evidence.map .str)) auditor (dates.isoformat date) = .ok evalCase := by
  obtain ⟨id, hidText, rfl⟩ := validText_of_valid hid.2
  obtain ⟨diff, hdiffText, rfl⟩ := validText_of_valid hdiff.2
  obtain ⟨auditor, hauditorText, rfl⟩ := validText_of_valid hauditor.2
  obtain ⟨texts, htexts, hlength⟩ := validTexts_of_valid hevidence.2
  have htextsNe : texts ≠ [] := by
    rintro rfl
    exact hevidence.1 (List.eq_nil_of_length_eq_zero hlength.symm)
  rw [caseOfRow]
  simp only [iterate, ok_bind, validateLabels, dates.reads, hidText, hdiffText, htexts,
    hauditorText]
  unfold EvalCase.build
  rw [dif_pos ⟨⟨ofString_ne_nil hid.1, ofString_ne_nil hdiff.1⟩,
    ⟨hlabels, htextsNe⟩, fun _ => ofString_ne_nil hauditor.1⟩]
  exact ⟨_, rfl, rfl⟩

/-- A row that was included is built with its labels where git gave it a date and a diff, and
refused elsewhere. -/
theorem buildRow_include
    {row : JsonRow} {auditor : PyStr} {labels : List EvalLabel} {split : EvalSplit}
    (hmined : MinedFields idPrefix index candidate row)
    (hverdict : getItem? row "verdict" = some (.str (.ofString "include")))
    (hjudged : JudgedFields auditor labels split row)
    (hvalid : ∀ c ∈ jsonPointsMembers row, c.val.isValidChar)
    (hauditor : lineHasText tables auditor = true) (hlabels : labels ≠ [])
    (hevidence : candidate.sourceEvidence ≠ []) :
    ((candidate.committedAt ≠ none ∧ candidate.diff ≠ ⟨[]⟩) ∧
      ∃ evalCase, evalCase.expectedLabels = labels ∧
        buildRow tables repr models row = .ok (some evalCase)) ∨
    (¬ (candidate.committedAt ≠ none ∧ candidate.diff ≠ ⟨[]⟩) ∧
      ∃ e, buildRow tables repr models row = .error e) := by
  have hinclude : (PyStr.ofString "include").strip tables = .ofString "include" :=
    strip_ofString (by simp)
  have hstripped : auditor.strip tables ≠ ⟨[]⟩ := by
    intro h
    have hne := of_decide_eq_true hauditor
    rw [h] at hne
    exact hne rfl
  have htruthyLabels : truthy (.list (labels.map labelJson)) = true := by
    simpa [truthy] using hlabels
  have htruthyEvidence : truthy (.list (candidate.sourceEvidence.map .str)) = true := by
    simpa [truthy] using hevidence
  have hid : idPrefix ++ .ofString "-" ++ threeDigits index ≠ ⟨[]⟩ := by
    intro h
    have hpoints := congrArg PyStr.points h
    simp [PyStr.points_append, PyStr.ofString] at hpoints
  have hrow : buildRow tables repr models row =
      if candidate.committedAt.elim ⟨[]⟩ dates.isoformat = ⟨[]⟩ ∨ candidate.diff = ⟨[]⟩ then
        .error (.missingCaseFields (idPrefix ++ .ofString "-" ++ threeDigits index))
      else do
        let evalCase ← python
          (caseOfRow models (idPrefix ++ .ofString "-" ++ threeDigits index) split candidate.diff
            (.list (labels.map labelJson)) (.list (candidate.sourceEvidence.map .str))
            (auditor.strip tables) (candidate.committedAt.elim ⟨[]⟩ dates.isoformat))
        return some evalCase := by
    have hcommitted : (candidate.committedAt.elim ⟨[]⟩ dates.isoformat).strip tables =
        candidate.committedAt.elim ⟨[]⟩ dates.isoformat := by
      cases candidate.committedAt with
      | none => rfl
      | some date => exact strip_isoformat date
    rw [buildRow]
    simp only [textOr_of_str hmined.id, textOr_of_str hverdict, textOr_of_str hjudged.auditor,
      textOr_of_str hjudged.split, textOr_of_str hmined.committedAt, textOr_of_str hmined.diff,
      getOr_of_list hjudged.labels, getOr_of_list hmined.evidence, ok_python, ok_bind, hinclude,
      strip_splitValue, splitOf_value, hcommitted, hstripped, htruthyLabels, htruthyEvidence]
    simp [show PyStr.ofString "include" ≠ ⟨[]⟩ by decide,
      show PyStr.ofString "include" ≠ .ofString "exclude" by decide]
  rw [hrow]
  cases hdate : candidate.committedAt with
  | none => exact .inr ⟨fun h => h.1 rfl, _, if_pos (.inl rfl)⟩
  | some date =>
      have hiso : dates.isoformat date ≠ ⟨[]⟩ := (dates.plain date).1
      by_cases hdiff : candidate.diff = ⟨[]⟩
      · exact .inr ⟨fun h => h.2 hdiff, _, if_pos (.inr hdiff)⟩
      · rw [Option.elim_some, if_neg (not_or.mpr ⟨hiso, hdiff⟩)]
        obtain ⟨evalCase, hsame, hcase⟩ := caseOfRow_ok models split date
          ⟨hid, fun c hc => hvalid c (mem_jsonPointsMembers hmined.id hc)⟩
          ⟨hdiff, fun c hc => hvalid c (mem_jsonPointsMembers hmined.diff hc)⟩
          ⟨hstripped, fun c hc =>
            hvalid c (mem_jsonPointsMembers hjudged.auditor (mem_of_mem_strip hc))⟩
          ⟨hevidence, fun text htext c hc =>
            hvalid c (mem_jsonPointsMembers hmined.evidence (mem_jsonPoints_strings htext hc))⟩
          hlabels
        rw [hcase]
        exact .inl ⟨⟨Option.some_ne_none date, hdiff⟩, evalCase, hsame, rfl⟩

/-! ## From git to the holdout -/

theorem forall₂_getElem?
    {α β : Type} {R : α → β → Prop} {xs : List α} {ys : List β} {index : Nat} {a : α} {b : β}
    (h : List.Forall₂ R xs ys) (ha : xs[index]? = some a) (hb : ys[index]? = some b) :
    R a b := by
  induction h generalizing index with
  | nil => cases ha
  | cons hhead htail ih =>
      cases index with
      | zero =>
          cases ha
          cases hb
          exact hhead
      | succ index => exact ih ha hb

theorem buildCases_ok_iff
    {rows : List JsonRow} :
    (∃ cases, buildCases tables repr models rows = .ok cases) ↔
      ∀ row ∈ rows, ∃ evalCase, buildRow tables repr models row = .ok evalCase := by
  rw [← mapM_returns_iff, buildCases]
  constructor
  · rintro ⟨cases, h⟩
    obtain ⟨built, hbuilt, _⟩ := bind_eq_ok h
    exact ⟨built, hbuilt⟩
  · rintro ⟨built, hbuilt⟩
    exact ⟨_, by rw [hbuilt]; rfl⟩

theorem candidateRows_getElem?
    (candidates : List (EvalCandidate dates)) (index : Nat) :
    (candidateRows idPrefix candidates)[index]? =
      candidates[index]?.map (candidateRow idPrefix (index + 1)) := by
  simp only [candidateRows, List.getElem?_map, List.getElem?_zipIdx, Option.map_map, Nat.zero_add]
  rfl

/-! ## Lines of the sheet -/

/-- Nothing a person wrote into a row ends a line. -/
def QuietTexts (tables : UnicodeTables) (session : Session dates) (labels : List EvalLabel) :
    Prop :=
  Quiet (session.auditor.strip tables) ∧
    ∀ label ∈ labels, Quiet (.ofString label.category) ∧ Quiet (.ofString label.filePath)

theorem quiet_labels_iff
    {labels : List EvalLabel} :
    (∀ c ∈ jsonPoints (.list (labels.map labelJson)), breaksLine c = false) ↔
      ∀ label ∈ labels, Quiet (.ofString label.category) ∧ Quiet (.ofString label.filePath) := by
  have hkey : ∀ key ∈ ["concern", "category", "file_path", "line_start", "line_end"],
      ∀ c ∈ (PyStr.ofString key).points, breaksLine c = false := by
    have hascii : ∀ key ∈ ["concern", "category", "file_path", "line_start", "line_end"],
        ∀ c ∈ key.toList, c.toNat < 0x80 := by
      simp
    exact fun key hkey => quiet_ofString (hascii key hkey)
  have hconcern : ∀ concern : Concern, Quiet (.ofString concern.value) := by
    intro concern
    cases concern <;> exact quiet_ofString (by simp [Concern.value])
  have hlabel : ∀ label, (∀ c ∈ jsonPoints (labelJson label), breaksLine c = false) ↔
      Quiet (.ofString label.category) ∧ Quiet (.ofString label.filePath) := by
    intro label
    simp only [labelJson, jsonPoints, forall_jsonPoints_entry]
    constructor
    · rintro ⟨_, _, _, hcategory, _, hfile, _⟩
      exact ⟨hcategory, hfile⟩
    · rintro ⟨hcategory, hfile⟩
      exact ⟨hkey _ (by simp), hconcern _, hkey _ (by simp), hcategory, hkey _ (by simp), hfile,
        hkey _ (by simp), List.forall_mem_nil _, hkey _ (by simp), List.forall_mem_nil _,
        List.forall_mem_nil _⟩
  simp only [jsonPoints]
  induction labels with
  | nil => simp [jsonPointsItems]
  | cons label labels ih =>
      simp only [List.map_cons, jsonPointsItems, List.forall_mem_append, List.forall_mem_cons,
        hlabel, ih]

theorem quiet_excluded
    {row : JsonRow} (h : ∀ c ∈ jsonPointsMembers row, breaksLine c = false) :
    ∀ c ∈ jsonPointsMembers (excluded row), breaksLine c = false :=
  forall_jsonPoints_setItem h (quiet_ofString (by simp)) (quiet_ofString (by simp))

/-- A row that was included ends a line where the person's texts do. -/
theorem quiet_included_iff
    {row : JsonRow} (h : ∀ c ∈ jsonPointsMembers row, breaksLine c = false)
    (session : Session dates) (labels : List EvalLabel) (split : EvalSplit) :
    (∀ c ∈ jsonPointsMembers (included row (session.auditor.strip tables) labels split),
      breaksLine c = false) ↔ QuietTexts tables session labels := by
  have hjudged := judgedFields_included row (session.auditor.strip tables) labels split
  have hsplit : Quiet (.ofString split.value) := by
    cases split <;> exact quiet_ofString (by simp [EvalSplit.value])
  constructor
  · intro hquiet
    exact ⟨fun c hc => hquiet c (mem_jsonPointsMembers hjudged.auditor hc),
      quiet_labels_iff.mp (fun c hc => hquiet c (mem_jsonPointsMembers hjudged.labels hc))⟩
  · rintro ⟨hauditor, hlabels⟩
    have hverdict : ∀ c ∈ jsonPointsMembers
        (setItem row (.ofString "verdict") (.str (.ofString "include"))), breaksLine c = false :=
      forall_jsonPoints_setItem h (quiet_ofString (by simp)) (quiet_ofString (by simp))
    exact forall_jsonPoints_setItem
      (forall_jsonPoints_setItem
        (forall_jsonPoints_setItem hverdict (quiet_ofString (by simp)) hauditor)
        (quiet_ofString (by simp)) hsplit)
      (quiet_ofString (by simp)) (quiet_labels_iff.mpr hlabels)

/-- A row that was judged is one the writer's text comes back from. -/
theorem KeptOrJudged.reads
    {session : Session dates} {row row' : JsonRow}
    (h : KeptOrJudged repr tables session row row')
    (hrow : JsonReads sheetStyle floats (.dict row)) :
    JsonReads sheetStyle floats (.dict row') := by
  have hstring : ∀ s, StringReads sheetStyle s := fun s hascii => by cases hascii
  rcases h with rfl | hjudged
  · exact hrow
  · cases hjudged with
    | excluded _ => exact jsonReads_setItem hrow (hstring _) (hstring _)
    | included _ labels split _ _ =>
        exact jsonReads_setItem (jsonReads_setItem (jsonReads_setItem (jsonReads_setItem hrow
          (hstring _) (hstring _)) (hstring _) (hstring _)) (hstring _) (hstring _)) (hstring _)
          (labelJson_reads rfl labels)

/-! ## The holdout -/

/-- No surrogate stands in a case. -/
theorem caseJson_valid
    (evalCase : EvalCase dates) :
    ∀ c ∈ jsonPointsMembers (caseJson evalCase), c.val.isValidChar := by
  have hlabel : ∀ label : EvalLabel, ∀ c ∈ jsonPoints (labelJson label), c.val.isValidChar := by
    intro label
    simp only [labelJson, jsonPoints, forall_jsonPoints_entry]
    exact ⟨valid_ofString _, valid_ofString _, valid_ofString _, valid_ofString _,
      valid_ofString _, valid_ofString _, valid_ofString _, List.forall_mem_nil _,
      valid_ofString _, List.forall_mem_nil _, List.forall_mem_nil _⟩
  have hlabels : ∀ labels : List EvalLabel,
      ∀ c ∈ jsonPoints (.list (labels.map labelJson)), c.val.isValidChar := by
    intro labels
    simp only [jsonPoints]
    induction labels with
    | nil => exact List.forall_mem_nil _
    | cons label labels ih => exact List.forall_mem_append.mpr ⟨hlabel label, ih⟩
  have hevidence : ∀ texts : List String,
      ∀ c ∈ jsonPoints (.list (texts.map (fun s => .str (.ofString s)))), c.val.isValidChar := by
    intro texts
    simp only [jsonPoints]
    induction texts with
    | nil => exact List.forall_mem_nil _
    | cons text texts ih => exact List.forall_mem_append.mpr ⟨valid_ofString text, ih⟩
  have hauditor : ∀ humanAuditor : Option String, ∀ c ∈ jsonPoints
      (humanAuditor.elim .null (fun s => .str (.ofString s))), c.val.isValidChar := by
    intro humanAuditor
    cases humanAuditor with
    | none => exact List.forall_mem_nil _
    | some auditor => exact valid_ofString auditor
  have hdate : ∀ c ∈ (dates.isoformat evalCase.committedAt).points, c.val.isValidChar := by
    intro c hc
    have hhigh := ((dates.plain evalCase.committedAt).2 c hc).1.2
    exact .inl (by omega)
  simp only [caseJson, forall_jsonPoints_entry]
  exact ⟨valid_ofString _, valid_ofString _, valid_ofString _, valid_ofString _,
    valid_ofString _, valid_ofString _, valid_ofString _, hlabels _, valid_ofString _,
    hevidence _, valid_ofString _, hauditor _, valid_ofString _, hdate, List.forall_mem_nil _⟩

/-- A case can be written once its labels can: its other texts are within the limits. -/
theorem casesText_written
    {cases : List (EvalCase dates)}
    (hcases : ∀ evalCase ∈ cases,
      PrintableItems (evalCase.expectedLabels.map labelJson) ∧ 3 ≤ frames) :
    ∃ text bytes, casesText floats frames cases = .ok text ∧ writeText text = .ok bytes := by
  have hstrings : ∀ texts : List String,
      PrintableItems (texts.map (fun s => .str (.ofString s))) ∧
        jsonDepthItems (texts.map (fun s => .str (.ofString s))) = 0 := by
    intro texts
    induction texts with
    | nil => exact ⟨trivial, rfl⟩
    | cons text texts ih => exact ⟨⟨trivial, ih.1⟩, by simp [jsonDepthItems, jsonDepth, ih.2]⟩
  have hlabels : ∀ labels : List EvalLabel, jsonDepthItems (labels.map labelJson) ≤ 1 := by
    intro labels
    induction labels with
    | nil => exact Nat.zero_le 1
    | cons label labels ih =>
        simp [jsonDepthItems, labelJson, jsonDepth, jsonDepthMembers, dictEntry, ih]
  have hauditor : ∀ humanAuditor : Option String,
      Printable (humanAuditor.elim .null (fun s => .str (.ofString s))) ∧
        jsonDepth (humanAuditor.elim .null (fun s => .str (.ofString s))) = 0 := by
    intro humanAuditor
    cases humanAuditor with
    | none => exact ⟨trivial, rfl⟩
    | some auditor => exact ⟨trivial, rfl⟩
  obtain ⟨text, htext⟩ : ∃ text, casesText floats frames cases = .ok text := by
    refine jsonLines_total ?_
    intro row hrow
    obtain ⟨evalCase, hmem, rfl⟩ := List.mem_map.mp hrow
    obtain ⟨hprintable, hframes⟩ := hcases evalCase hmem
    refine ⟨⟨trivial, trivial, trivial, hprintable, (hstrings _).1, (hauditor _).1, trivial,
      trivial⟩, le_trans ?_ hframes⟩
    have hdepth := hlabels evalCase.expectedLabels
    simp only [caseJson, dictEntry, jsonDepth, jsonDepthMembers, (hstrings _).2, (hauditor _).2]
    omega
  have hreads : ∀ row ∈ cases.map caseJson, JsonReads caseStyle floats (.dict row) := by
    intro row hrow
    obtain ⟨evalCase, _, rfl⟩ := List.mem_map.mp hrow
    exact caseJson_reads evalCase
  obtain ⟨bytes, hbytes⟩ := writeText_jsonLines hreads (fun row hrow => by
    obtain ⟨evalCase, _, rfl⟩ := List.mem_map.mp hrow
    exact caseJson_valid evalCase) htext
  exact ⟨text, bytes, htext, hbytes⟩

/-- The labels of a row that was included are within the limits, as the row was written. -/
theorem printable_of_included
    {row : JsonRow} {line : List CodePoint} {auditor : PyStr} {labels : List EvalLabel}
    {split : EvalSplit}
    (hline : jsonDumps sheetStyle floats frames (.dict row) = .ok line)
    (hjudged : JudgedFields auditor labels split row) (hlabels : labels ≠ []) :
    PrintableItems (labels.map labelJson) ∧ 3 ≤ frames := by
  obtain ⟨before, after, heq, _⟩ := List.lookup_eq_some_iff.mp hjudged.labels
  have hmem : (PyStr.ofString "labels", PyJson.list (labels.map labelJson)) ∈ row := by
    simp [heq]
  obtain ⟨deeper, part, rfl, hpart⟩ := jsonDumps_of_mem hline hmem
  refine ⟨printable_of_jsonDumps deeper _ part hpart, ?_⟩
  obtain ⟨label, others, rfl⟩ := List.exists_cons_of_ne_nil hlabels
  cases deeper with
  | zero => cases hpart
  | succ deeper =>
      cases deeper with
      | zero => cases hpart
      | succ deeper => omega

/-- `build_holdout` of a sheet that was written: its rows stay on their lines and are built. -/
theorem buildHoldout_ok_iff
    {rows : List JsonRow} {text : PyStr} {bytes : List UInt8}
    (hreads : ∀ row ∈ rows, JsonReads sheetStyle floats (.dict row))
    (htext : jsonLines sheetStyle floats frames rows = .ok text)
    (hbytes : writeText text = .ok bytes)
    (hlabels : ∀ row ∈ rows, ∀ evalCase, buildRow tables repr models row = .ok (some evalCase) →
      PrintableItems (evalCase.expectedLabels.map labelJson) ∧ 3 ≤ frames) :
    (∃ built, buildHoldout tables repr models bytes = .ok built) ↔
      ∀ row ∈ rows, (∀ c ∈ jsonPointsMembers row, breaksLine c = false) ∧
        ∃ evalCase, buildRow tables repr models row = .ok evalCase := by
  have hload := @loadSheetRows_eq_ok_iff floats tables frames _ _ _ hreads htext hbytes
  rw [forall₂_and]
  constructor
  · rintro ⟨built, hbuilt⟩
    obtain ⟨rows', hrows', hbuilt⟩ := bind_eq_ok hbuilt
    obtain ⟨cases, hcases, _⟩ := bind_eq_ok hbuilt
    have hquiet : ∀ row ∈ rows, ∀ c ∈ jsonPointsMembers row, breaksLine c = false := by
      by_contra hbroken
      obtain ⟨e, he⟩ := @loadSheetRows_broken floats tables frames _ _ _ hreads htext hbytes
        hbroken
      rw [he] at hrows'
      cases hrows'
    rw [hload.mpr hquiet] at hrows'
    cases hrows'
    exact ⟨hquiet, buildCases_ok_iff.mp ⟨cases, hcases⟩⟩
  · rintro ⟨hquiet, hrows⟩
    obtain ⟨cases, hcases⟩ := buildCases_ok_iff.mpr hrows
    have hwritten : ∀ evalCase ∈ cases,
        PrintableItems (evalCase.expectedLabels.map labelJson) ∧ 3 ≤ frames := by
      intro evalCase hmem
      obtain ⟨built, hbuilt, hcases⟩ := bind_eq_ok hcases
      cases hcases
      obtain ⟨result, hresult, rfl⟩ := List.mem_filterMap.mp hmem
      obtain ⟨row, hrow, hsome⟩ := (mem_of_mapM_eq_ok hbuilt).2 _ hresult
      exact hlabels row hrow evalCase hsome
    obtain ⟨caseText, written, hcaseText, hwritten⟩ : ∃ caseText written,
        casesText floats frames cases = .ok caseText ∧ writeText caseText = .ok written :=
      casesText_written hwritten
    refine ⟨(cases, written), ?_⟩
    rw [buildHoldout, hload.mpr hquiet]
    simp only [python, Except.mapError, ok_bind, hcases, hcaseText, hwritten]
    rfl

/-! ## The sheet a session leaves -/

theorem openSheet_eq_ok
    {session : Session dates} {fs : Files} {rows : List JsonRow}
    (h : openSheet floats frames tables session fs = .ok rows) :
    lineHasText tables session.auditor = true ∧
      ∃ bytes, fs session.sheet = some bytes ∧
        loadSheetRows floats tables frames bytes = .ok rows := by
  unfold openSheet at h
  split at h
  · cases h
  · next hauditor =>
      refine ⟨by simpa using hauditor, ?_⟩
      split at h
      · cases h
      · next bytes hbytes =>
          refine ⟨bytes, hbytes, ?_⟩
          cases hload : loadSheetRows floats tables frames bytes with
          | error e =>
              rw [hload] at h
              cases h
          | ok rows' =>
              rw [hload] at h
              cases h
              rfl

/-- A session that did not raise, over a sheet that was mined, began with the rows that were
mined. -/
theorem reviewSheet_of_mined
    {session : Session dates} {lower : PyStr → PyStr} {faults : Nat → Option WriteFault}
    {fs : Files} {input : List Reading} {candidates : List (EvalCandidate dates)} {text : PyStr}
    {bytes : List UInt8}
    (htext : candidateSheetText floats frames idPrefix candidates = .ok text)
    (hbytes : writeText text = .ok bytes) (hsheet : fs session.sheet = some bytes)
    (hraised : (reviewSheet tables lower repr models session faults fs input).raised = none) :
    lineHasText tables session.auditor = true ∧
      (∀ row ∈ candidateRows idPrefix candidates,
        ∀ c ∈ jsonPointsMembers row, breaksLine c = false) ∧
      reviewSheet tables lower repr models session faults fs input =
        reviewRows tables lower repr models session faults []
          (candidateRows idPrefix candidates) fs input := by
  rw [candidateSheetText_eq] at htext
  have hreads : ∀ row ∈ candidateRows idPrefix candidates,
      JsonReads sheetStyle floats (.dict row) := by
    intro row hrow
    obtain ⟨index, candidate, _, rfl⟩ := mem_candidateRows.mp hrow
    exact candidateRow_reads idPrefix (index + 1) candidate
  cases hopen : openSheet floats frames tables session fs with
  | error e =>
      rw [reviewSheet, hopen] at hraised
      cases hraised
  | ok rows =>
      obtain ⟨hauditor, bytes', hheld, hload⟩ := openSheet_eq_ok hopen
      rw [hsheet] at hheld
      cases hheld
      have hquiet : ∀ row ∈ candidateRows idPrefix candidates,
          ∀ c ∈ jsonPointsMembers row, breaksLine c = false := by
        by_contra hbroken
        obtain ⟨e, he⟩ := @loadSheetRows_broken floats tables frames _ _ _ hreads htext hbytes
          hbroken
        rw [he] at hload
        cases hload
      rw [(@loadSheetRows_eq_ok_iff floats tables frames _ _ _ hreads htext hbytes).mpr hquiet]
        at hload
      cases hload
      refine ⟨hauditor, hquiet, ?_⟩
      rw [reviewSheet, hopen]

/-- What the builder takes of the row of a candidate: it was excluded, or it was included, git gave
its commit a date and a diff, and nothing the person wrote ends a line. -/
def Builds (tables : UnicodeTables) (session : Session dates) (idPrefix : PyStr) (index : Nat)
    (candidate : EvalCandidate dates) (row : JsonRow) : Prop :=
  row = excluded (candidateRow idPrefix index candidate) ∨
    ∃ labels split,
      row = included (candidateRow idPrefix index candidate) (session.auditor.strip tables)
        labels split ∧
      (candidate.committedAt ≠ none ∧ candidate.diff ≠ ⟨[]⟩) ∧ QuietTexts tables session labels

/-- The row of a candidate as a session leaves it: the builder reads and builds it, or not. -/
theorem builds_iff
    {session : Session dates} {row : JsonRow}
    (hjudged : KeptOrJudged repr tables session (candidateRow idPrefix index candidate) row)
    (hquiet : ∀ c ∈ jsonPointsMembers (candidateRow idPrefix index candidate),
      breaksLine c = false)
    (hvalid : ∀ c ∈ jsonPointsMembers row, c.val.isValidChar)
    (hauditor : lineHasText tables session.auditor = true)
    (hevidence : candidate.sourceEvidence ≠ []) :
    ((∀ c ∈ jsonPointsMembers row, breaksLine c = false) ∧
      ∃ evalCase, buildRow tables repr models row = .ok evalCase) ↔
        Builds tables session idPrefix index candidate row := by
  have hfields := minedFields_candidateRow idPrefix index candidate
  have hverdict := verdict_candidateRow idPrefix index candidate
  rcases hjudged with rfl | hrow
  · rw [buildRow_unjudged hfields.id hverdict]
    refine iff_of_false ?_ ?_
    · rintro ⟨_, evalCase, h⟩
      cases h
    · rintro (h | ⟨labels, split, h, _⟩)
      · rw [h, verdict_excluded] at hverdict
        exact verdicts_differ (t := "") (by decide) hverdict
      · rw [h, verdict_included] at hverdict
        exact verdicts_differ (t := "") (by decide) hverdict
  · cases hrow with
    | excluded _ =>
        have hid : getItem? (excluded (candidateRow idPrefix index candidate)) "id" =
            some (.str (idPrefix ++ .ofString "-" ++ threeDigits index)) := by
          rw [excluded, getItem?_setItem]
          exact hfields.id
        rw [buildRow_exclude hid (verdict_excluded _)]
        exact iff_of_true ⟨quiet_excluded hquiet, none, rfl⟩ (.inl rfl)
    | included _ labels split hlabels _ =>
        rw [quiet_included_iff hquiet session labels split]
        rcases buildRow_include (minedFields_included hfields _ _ _) (verdict_included _ _ _ _)
          (judgedFields_included _ _ _ _) hvalid (lineHasText_strip hauditor) hlabels hevidence
          with ⟨hgiven, evalCase, _, hcase⟩ | ⟨hmissing, e, herror⟩
        · rw [hcase]
          constructor
          · exact fun h => .inr ⟨labels, split, rfl, hgiven, h.1⟩
          · rintro (h | ⟨labels', split', h, _, htexts⟩)
            · have hsame := congrArg (fun row => getItem? row "verdict") h
              simp only [verdict_included, verdict_excluded] at hsame
              exact absurd hsame (verdicts_differ (by decide))
            · refine ⟨?_, _, rfl⟩
              rw [← quiet_included_iff hquiet session labels split, h,
                quiet_included_iff hquiet session labels' split']
              exact htexts
        · rw [herror]
          refine iff_of_false ?_ ?_
          · rintro ⟨_, evalCase, h⟩
            cases h
          · rintro (h | ⟨_, _, _, hgiven, _⟩)
            · have hsame := congrArg (fun row => getItem? row "verdict") h
              simp only [verdict_included, verdict_excluded] at hsame
              exact absurd hsame (verdicts_differ (by decide))
            · exact hmissing hgiven

/-- The labels of a case that was built are within the limits, as its row was written. -/
theorem printable_of_built
    {session : Session dates} {row : JsonRow} {line : List CodePoint} {evalCase : EvalCase dates}
    (hjudged : KeptOrJudged repr tables session (candidateRow idPrefix index candidate) row)
    (hline : jsonDumps sheetStyle floats frames (.dict row) = .ok line)
    (hvalid : ∀ c ∈ jsonPointsMembers row, c.val.isValidChar)
    (hauditor : lineHasText tables session.auditor = true)
    (hevidence : candidate.sourceEvidence ≠ [])
    (hbuilt : buildRow tables repr models row = .ok (some evalCase)) :
    PrintableItems (evalCase.expectedLabels.map labelJson) ∧ 3 ≤ frames := by
  have hfields := minedFields_candidateRow idPrefix index candidate
  rcases hjudged with rfl | hrow
  · rw [buildRow_unjudged hfields.id (verdict_candidateRow idPrefix index candidate)] at hbuilt
    cases hbuilt
  · cases hrow with
    | excluded _ =>
        have hid : getItem? (excluded (candidateRow idPrefix index candidate)) "id" =
            some (.str (idPrefix ++ .ofString "-" ++ threeDigits index)) := by
          rw [excluded, getItem?_setItem]
          exact hfields.id
        rw [buildRow_exclude hid (verdict_excluded _)] at hbuilt
        cases hbuilt
    | included _ labels split hlabels _ =>
        have hjudged := judgedFields_included (candidateRow idPrefix index candidate)
          (session.auditor.strip tables) labels split
        rcases buildRow_include (minedFields_included hfields _ _ _) (verdict_included _ _ _ _)
          hjudged hvalid (lineHasText_strip hauditor) hlabels hevidence
          with ⟨_, given, hsame, hcase⟩ | ⟨_, e, herror⟩
        · rw [hcase] at hbuilt
          cases hbuilt
          rw [hsame]
          exact printable_of_included hline hjudged hlabels
        · rw [herror] at hbuilt
          cases hbuilt

/--
**A sheet that was mined and judged is built** exactly where every row was judged, git gave a date
and a diff for each row that was included, and nothing the person wrote there ends a line.
-/
theorem reviewed_sheet_builds_iff
    {git : GitCommand dates → PyStr} {isRepository : Bool} {maxCases : Int} {budget : Nat}
    {since until? : Option dates.Date} {perWindow : Option Int} {mined : MineResult dates}
    {text : PyStr} {bytes : List UInt8} {session : Session dates} {lower : PyStr → PyStr}
    {faults : Nat → Option WriteFault} {fs : Files} {input : List Reading}
    (hmined : mineEvalCandidates tables git isRepository maxCases budget since until? perWindow =
      .ok mined)
    (htext : candidateSheetText floats frames idPrefix mined.candidates = .ok text)
    (hbytes : writeText text = .ok bytes) (hsheet : fs session.sheet = some bytes)
    (hraised : (reviewSheet tables lower repr models session faults fs input).raised = none) :
    (∃ saved built, (reviewSheet tables lower repr models session faults fs input).files
        session.sheet = some saved ∧ buildHoldout tables repr models saved = .ok built) ↔
      ∀ index candidate, mined.candidates[index]? = some candidate →
        ∃ row, (reviewSheet tables lower repr models session faults fs input).rows[index]? =
            some row ∧
          Builds tables session idPrefix (index + 1) candidate row := by
  obtain ⟨hauditor, hquiet, hsession⟩ := reviewSheet_of_mined htext hbytes hsheet hraised
  rw [hsession] at hraised ⊢
  obtain ⟨rows, hrows, hjudged⟩ := reviewRows_rows tables lower repr models session faults []
    (candidateRows idPrefix mined.candidates) fs input
  obtain ⟨saved, _, hholds, hend, _⟩ := reviewRows_saved tables lower repr models input []
    (SheetHolds.start session.sheet fs ([] ++ candidateRows idPrefix mined.candidates))
  rw [hend hraised, hrows] at hholds
  simp only [hrows, List.nil_append] at hholds ⊢
  -- the sheet holds the rows of the session, also where nothing was judged
  obtain ⟨text', bytes', htext', hbytes', hheld⟩ : ∃ text' bytes',
      jsonLines sheetStyle floats frames rows = .ok text' ∧ writeText text' = .ok bytes' ∧
        (reviewRows tables lower repr models session faults []
          (candidateRows idPrefix mined.candidates) fs input).files session.sheet =
            some bytes' := by
    rcases hholds.held with ⟨hsame, hkept⟩ | hwritten
    · rw [candidateSheetText_eq] at htext
      exact ⟨text, bytes, hkept ▸ htext, hbytes, hsame.trans hsheet⟩
    · exact hwritten
  have hlength : rows.length = mined.candidates.length := by
    rw [← hjudged.length_eq, candidateRows, List.length_map, List.length_zipIdx]
  have hcandidate : ∀ index candidate, mined.candidates[index]? = some candidate →
      (candidateRows idPrefix mined.candidates)[index]? =
        some (candidateRow idPrefix (index + 1) candidate) := by
    intro index candidate h
    rw [candidateRows_getElem?, h]
    rfl
  have hrow : ∀ row ∈ rows, ∃ index candidate, mined.candidates[index]? = some candidate ∧
      rows[index]? = some row ∧
      KeptOrJudged repr tables session (candidateRow idPrefix (index + 1) candidate) row := by
    intro row hmem
    obtain ⟨index, hget⟩ := List.mem_iff_getElem?.mp hmem
    have hlt : index < mined.candidates.length := by
      rw [← hlength]
      exact (List.getElem?_eq_some_iff.mp hget).1
    have hsome := List.getElem?_eq_getElem hlt
    exact ⟨index, _, hsome, hget, forall₂_getElem? hjudged (hcandidate index _ hsome) hget⟩
  have hvalid := isValidChar_of_written htext' hbytes'
  have hevidence : ∀ (index : Nat) (candidate : EvalCandidate dates),
      mined.candidates[index]? = some candidate → candidate.sourceEvidence ≠ [] :=
    fun index candidate h =>
      (mineEvalCandidates_fromLines hmined candidate (List.mem_of_getElem? h)).evidence_ne
  have hbuilds := @buildHoldout_ok_iff dates floats tables frames repr models rows text' bytes'
    (fun row hmem => by
      obtain ⟨index, candidate, _, _, hkept⟩ := hrow row hmem
      exact hkept.reads (candidateRow_reads idPrefix (index + 1) candidate))
    htext' hbytes'
    (fun row hmem evalCase hbuilt => by
      obtain ⟨index, candidate, hsome, _, hkept⟩ := hrow row hmem
      obtain ⟨lines, hlines, _⟩ := bind_eq_ok htext'
      obtain ⟨line, _, hline⟩ := (mem_of_mapM_eq_ok hlines).1 row hmem
      exact printable_of_built hkept hline (hvalid row hmem) hauditor
        (hevidence index candidate hsome) hbuilt)
  simp only [hheld, Option.some.injEq, exists_and_left, exists_eq_left', hbuilds]
  constructor
  · intro h index candidate hsome
    have hlt : index < rows.length := by
      rw [hlength]
      exact (List.getElem?_eq_some_iff.mp hsome).1
    have hget := List.getElem?_eq_getElem hlt
    have hmem := List.getElem_mem hlt
    have hbefore := hcandidate index candidate hsome
    exact ⟨rows[index], hget, (builds_iff (forall₂_getElem? hjudged hbefore hget)
      (hquiet _ (List.mem_of_getElem? hbefore)) (hvalid _ hmem) hauditor
      (hevidence index candidate hsome)).mp (h _ hmem)⟩
  · intro h row hmem
    obtain ⟨index, candidate, hsome, hget, hkept⟩ := hrow row hmem
    obtain ⟨row', hget', hbuilt⟩ := h index candidate hsome
    rw [hget] at hget'
    cases hget'
    exact (builds_iff hkept (hquiet _ (List.mem_of_getElem? (hcandidate index candidate hsome)))
      (hvalid row hmem) hauditor (hevidence index candidate hsome)).mpr hbuilt

end Builder

def adaSession : Session oneDay where
  sheet := "sheet.jsonl"
  auditor := .ofString "ada"
  splitAfter := none
  tty := false

def adaInput : List Reading :=
  ["i", "2", "leak", "1", "1", "n", "dev"].map (fun line => .line (.ofString line))

abbrev coffeeRow : JsonRow :=
  candidateRow (.ofString "cand") 1 coffee

theorem adaInput_labels :
    promptLabels bareTables id (strictModels oneDay zeroFloats 10) [.ofString "a.py"]
      (adaInput.drop 1) = .answered [closeLabel] [.line (.ofString "dev")] := by
  rw [promptLabels, Prompt.loop_eq]
  rfl

theorem adaInput_judged :
    judgeRow bareTables id (fun _ => ⟨[]⟩) (strictModels oneDay zeroFloats 10) none coffeeRow
      adaInput = .answered (.includeRow [closeLabel] .dev) [] := by
  have hfiles : filePaths (fun _ => ⟨[]⟩) coffeeRow = .ok [.ofString "a.py"] := rfl
  have hround : menuRound bareTables id (fun _ => ⟨[]⟩) (strictModels oneDay zeroFloats 10) none
      coffeeRow () adaInput = .answered (.inl (.includeRow [closeLabel] .dev)) [] := by
    have hlabels := adaInput_labels
    have hcommand : askLine (fun raw => .ok (some (menuCommand bareTables id raw))) adaInput =
      .answered .includeRow (adaInput.drop 1) := rfl
    unfold menuRound Prompt.andThen
    rw [hcommand]
    simp only [liftValue, Prompt.lift, hfiles, Except.mapError, hlabels]
    rfl
  rw [judgeRow, Prompt.loop_eq, hround]

/-- The row of the commit as the session leaves it. -/
abbrev coffeeIncluded : JsonRow :=
  included coffeeRow (.ofString "ada") [closeLabel] .dev

theorem coffeeIncluded_eq :
    coffeeIncluded = coffeeRow.take 8 ++
      [dictEntry "verdict" (.str (.ofString "include")),
        dictEntry "human_auditor" (.str (.ofString "ada")),
        dictEntry "split" (.str (.ofString "dev")),
        dictEntry "labels" (.list [labelJson closeLabel])] := by
  rfl

theorem coffeeIncluded_written :
    ∃ text bytes, jsonLines sheetStyle zeroFloats 10 [coffeeIncluded] = .ok text ∧
      writeText text = .ok bytes := by
  have hsmall : ∀ n : Int, n.natAbs < 10 ^ 1 → n.natAbs < 10 ^ maxStrDigits := fun n hn =>
    Nat.lt_of_lt_of_le hn (Nat.pow_le_pow_right (by decide) (by decide))
  have hstring : ∀ s, StringReads sheetStyle s := fun s hascii => by cases hascii
  have hreads : JsonReads sheetStyle zeroFloats (.dict coffeeIncluded) := by
    rw [coffeeIncluded_eq]
    refine ⟨?_, ?_⟩
    · exact (@candidateRow_reads zeroFloats oneDay (.ofString "cand") 1 coffee).1
    · exact ⟨hstring _, hstring _, hstring _, hstring _, hstring _, hstring _, hstring _,
        hstring _, hstring _, ⟨hstring _, trivial⟩, hstring _, trivial, hstring _,
        ⟨hstring _, trivial⟩, hstring _, hstring _, hstring _, hstring _, hstring _, hstring _,
        hstring _, hstring _, hstring _, labelJson_reads rfl [closeLabel], trivial⟩
  have hvalid : ∀ c ∈ jsonPointsMembers coffeeIncluded, c.val.isValidChar := by
    have hone := fun s => forall_singleton (valid_ofString s)
    rw [coffeeIncluded_eq]
    simp only [candidateRow, List.take, List.cons_append, List.nil_append, forall_jsonPoints_entry,
      forall_jsonPoints_strings]
    exact ⟨valid_ofString _, valid_ofString "cand-001", valid_ofString _, valid_ofString "c0ffee",
      valid_ofString _, valid_ofString "2025-03-01", valid_ofString _,
      valid_ofString "Close the file", valid_ofString _, hone "a.py", valid_ofString _,
      List.forall_mem_nil _,
      valid_ofString _, hone "Close the file", valid_ofString _, valid_ofString "+f.close()\n",
      valid_ofString _, valid_ofString "include", valid_ofString _, valid_ofString "ada",
      valid_ofString _, valid_ofString "dev", valid_ofString _,
      closeLabel_texts_all (fun s _ => valid_ofString s), List.forall_mem_nil _⟩
  obtain ⟨text, htext⟩ : ∃ text, jsonLines sheetStyle zeroFloats 10 [coffeeIncluded] =
      .ok text := by
    refine jsonLines_total ?_
    intro row hrow
    rw [List.mem_singleton.mp hrow, coffeeIncluded_eq]
    exact ⟨⟨trivial, trivial, trivial, trivial, ⟨trivial, trivial⟩, hsmall _ (by decide),
      ⟨trivial, trivial⟩, trivial, trivial, trivial, trivial,
      ⟨⟨trivial, trivial, trivial, hsmall 1 (by decide), hsmall 1 (by decide), trivial⟩, trivial⟩,
      trivial⟩, by decide⟩
  obtain ⟨bytes, hbytes⟩ := writeText_jsonLines
    (fun row hrow => by rw [List.mem_singleton.mp hrow]; exact hreads)
    (fun row hrow => by rw [List.mem_singleton.mp hrow]; exact hvalid) htext
  exact ⟨text, bytes, htext, hbytes⟩

/-- The sheet of one commit is written, and read. -/
theorem coffee_sheet :
    ∃ text bytes, candidateSheetText zeroFloats 10 (.ofString "cand") [coffee] = .ok text ∧
      writeText text = .ok bytes ∧
      loadSheetRows zeroFloats bareTables 10 bytes =
        .ok (candidateRows (.ofString "cand") [coffee]) := by
  obtain ⟨text, bytes, htext, hbytes⟩ := coffee_written
  refine ⟨text, bytes, htext, hbytes, ?_⟩
  rw [candidateSheetText_eq] at htext
  have hrow : ∀ row ∈ candidateRows (.ofString "cand") [coffee],
      row = candidateRow (.ofString "cand") 1 coffee := fun row hrow => List.mem_singleton.mp hrow
  have hlines := mineEvalCandidates_fromLines mineEvalCandidates_oneCommit coffee
    List.mem_cons_self
  refine (loadSheetRows_eq_ok_iff ?_ htext hbytes).mpr ?_
  · intro row hmem
    rw [hrow row hmem]
    exact candidateRow_reads _ _ _
  · intro row hmem
    rw [hrow row hmem]
    exact (candidateRow_quiet_iff hlines _ _).mpr
      ⟨quiet_ofString (by simp), quiet_ofString (by simp)⟩

/-- The files of a machine with this sheet. -/
def onlySheet (bytes : List UInt8) : Files :=
  fun path => if path = "sheet.jsonl" then some bytes else none

theorem adaSession_ends
    {bytes : List UInt8}
    (hload : loadSheetRows zeroFloats bareTables 10 bytes =
      .ok (candidateRows (.ofString "cand") [coffee])) :
    (reviewSheet bareTables id (fun _ => ⟨[]⟩) (strictModels oneDay zeroFloats 10) adaSession
        (fun _ => none) (onlySheet bytes) adaInput).rows = [coffeeIncluded] ∧
      (reviewSheet bareTables id (fun _ => ⟨[]⟩) (strictModels oneDay zeroFloats 10) adaSession
        (fun _ => none) (onlySheet bytes) adaInput).raised = none := by
  obtain ⟨text, written, htext, hwritten⟩ := coffeeIncluded_written
  have hwrite := atomicWriteRows_ok (onlySheet bytes) adaSession.sheet htext hwritten
  have hopen : openSheet zeroFloats 10 bareTables adaSession (onlySheet bytes) =
      .ok [coffeeRow] := by
    have hauditor : lineHasText bareTables adaSession.auditor ≠ false := by decide
    have hheld : onlySheet bytes adaSession.sheet = some bytes := rfl
    rw [openSheet, if_neg hauditor, hheld]
    simp only [hload]
    rfl
  have hshown : judgeShown bareTables id (fun _ => ⟨[]⟩) (strictModels oneDay zeroFloats 10)
      adaSession coffeeRow (.ofString "+f.close()\n") adaInput =
        .answered (.includeRow [closeLabel] .dev) [] := adaInput_judged
  have hverdict : textOr (fun _ => ⟨[]⟩) coffeeRow "verdict" = .ok ⟨[]⟩ := rfl
  have hdiff : textOr (fun _ => ⟨[]⟩) coffeeRow "diff" = .ok (.ofString "+f.close()\n") := rfl
  have htext' : lineHasText bareTables ⟨[]⟩ = false := rfl
  have hrow : [] ++ included coffeeRow (adaSession.auditor.strip bareTables) [closeLabel] .dev ::
      [] = [coffeeIncluded] := rfl
  rw [reviewSheet, hopen]
  simp only [reviewRows, hverdict, hdiff, htext', hshown, hrow, hwrite, Bool.false_eq_true,
    if_false, and_self]

/-- A commit that is included is built. -/
theorem reviewed_sheet_builds_coffee :
    ∃ bytes saved built, (reviewSheet bareTables id (fun _ => ⟨[]⟩)
        (strictModels oneDay zeroFloats 10) adaSession (fun _ => none) (onlySheet bytes)
        adaInput).files "sheet.jsonl" = some saved ∧
      buildHoldout bareTables (fun _ => ⟨[]⟩) (strictModels oneDay zeroFloats 10) saved =
        .ok built := by
  obtain ⟨text, bytes, htext, hbytes, hload⟩ := coffee_sheet
  obtain ⟨hrows, hraised⟩ := adaSession_ends hload
  refine ⟨bytes, ?_⟩
  refine (reviewed_sheet_builds_iff mineEvalCandidates_oneCommit htext hbytes rfl hraised).mpr ?_
  intro index candidate hcandidate
  rw [hrows]
  cases index with
  | zero =>
      cases hcandidate
      have hauditor : Quiet ((PyStr.ofString "ada").strip bareTables) := by
        rw [strip_ofString (by simp)]
        exact quiet_ofString (by simp)
      have hlabel : Quiet (.ofString "leak") ∧ Quiet (.ofString "a.py") :=
        ⟨quiet_ofString (by simp), quiet_ofString (by simp)⟩
      refine ⟨_, rfl, .inr ⟨[closeLabel], .dev, rfl, ⟨Option.some_ne_none _, by decide⟩,
        hauditor, ?_⟩⟩
      intro label hmem
      rw [List.mem_singleton.mp hmem]
      exact hlabel
  | succ index => cases hcandidate

end Evals
end PrReviewer
