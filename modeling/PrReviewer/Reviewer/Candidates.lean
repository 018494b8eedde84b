import Mathlib.Data.Finset.Basic
import Mathlib.Order.Interval.Finset.Nat
import Mathlib.Tactic
import PrReviewer.Lib.Selection
import PrReviewer.Reviewer.FindingCandidate
import PrReviewer.Reviewer.RenderedLines

/-!
# The findings of a model's answer

reviewer/review_pull_request.py from the answer of the model on.  The findings are taken
in their order: an entry that is no draft, whose lines are not all in the rendered diff,
or that repeats the key of an accepted one is passed over, and after `MAX_FINDING_DRAFTS`
findings the loop ends.

`FindingDraft.model_validate` is a parameter; `none` is its ValidationError.
-/

namespace PrReviewer
namespace Reviewer

open Lib

/-- `MAX_FINDING_DRAFTS`. -/
def maxFindingDrafts : Nat := 32

section Reading

variable (tables : UnicodeTables)

/-- `_new_side_lines`: the loop of `_line_range`, whose numbers become a set. -/
def newSideLines (content : PyStr) : Except PyException (Finset Nat) := do
  let numbers ← collectNumbers tables false content.splitlines
  return numbers.toFinset

/-- `lines_by_path`. -/
def linesByPath (packed : PackedDiff) : Except PyException (List (String × Finset Nat)) :=
  packed.items.mapM (fun item => do
    let lines ← newSideLines tables item.content
    return (item.filePath, lines))

/-- `_in_changed_diff`; of two items with one path the later one is in the dict. -/
def inChangedDiff (draft : FindingDraft) (lines : List (String × Finset Nat)) : Bool :=
  match lines.reverse.lookup draft.filePath with
  | none => false
  | some numbers =>
      !decide (numbers = ∅) &&
        (List.range' draft.lineStart (draft.lineEnd + 1 - draft.lineStart)).all
          (fun line => decide (line ∈ numbers))

/-- The key under which a finding is accepted once. -/
def draftKey (draft : FindingDraft) : String × Nat × Nat × String :=
  (draft.filePath, draft.lineStart, draft.lineEnd, draft.title)

variable (validate : PyJson → Option FindingDraft)

/-- The loop of `_candidates_from_parsed`. -/
def acceptFrom (lines : List (String × Finset Nat)) (seen : List (String × Nat × Nat × String))
    (accepted : List FindingCandidate) : List PyJson → List FindingCandidate
  | [] => accepted
  | item :: rest =>
      match validate item with
      | none => acceptFrom lines seen accepted rest
      | some draft =>
          if inChangedDiff draft lines = false then
            acceptFrom lines seen accepted rest
          else if draftKey draft ∈ seen then
            acceptFrom lines seen accepted rest
          else if maxFindingDrafts ≤ (accepted ++ [candidateFromDraft draft]).length then
            accepted ++ [candidateFromDraft draft]
          else
            acceptFrom lines (draftKey draft :: seen) (accepted ++ [candidateFromDraft draft]) rest

/-- `_candidates_from_parsed`. -/
def candidatesFromParsed (parsed : PyJson) (packed : PackedDiff) :
    Except PyException (List FindingCandidate) :=
  match parsed with
  | .dict entries =>
      match getItem? entries "findings" with
      | some (.list rawFindings) => do
          let lines ← linesByPath tables packed
          return acceptFrom validate lines [] [] rawFindings
      | _ => .ok []
  | _ => .ok []

end Reading

/-! ## The loop as a pipeline -/

section Pipeline

variable {validate : PyJson → Option FindingDraft}

/-- The drafts that are accepted: the well-formed ones in the diff, one of every key. -/
def acceptedDrafts (validate : PyJson → Option FindingDraft) (inDiff : FindingDraft → Bool)
    (entries : List PyJson) : List FindingDraft :=
  (distinctBy draftKey ((entries.filterMap validate).filter inDiff)).take maxFindingDrafts

/-- The loop takes one of every key it has not seen, up to the bound. -/
theorem acceptFrom_eq
    (lines : List (String × Finset Nat)) (seen : List (String × Nat × Nat × String))
    (accepted : List FindingCandidate) (entries : List PyJson)
    (hroom : accepted.length < maxFindingDrafts) :
    acceptFrom validate lines seen accepted entries =
      accepted ++ ((distinctBy draftKey
        (((entries.filterMap validate).filter (fun draft => inChangedDiff draft lines)).filter
          (fun draft => decide (draftKey draft ∉ seen)))).take
        (maxFindingDrafts - accepted.length)).map candidateFromDraft := by
  induction entries generalizing seen accepted with
  | nil => simp [acceptFrom, distinctBy]
  | cons item rest ih =>
      rw [acceptFrom]
      cases hvalid : validate item with
      | none => rw [List.filterMap_cons_none hvalid, ih seen accepted hroom]
      | some draft =>
          rw [List.filterMap_cons_some hvalid]
          simp only
          cases hdiff : inChangedDiff draft lines with
          | false =>
              rw [if_pos rfl, List.filter_cons_of_neg (by simp [hdiff]), ih seen accepted hroom]
          | true =>
              rw [if_neg (by simp),
                List.filter_cons_of_pos (p := fun draft => inChangedDiff draft lines) hdiff]
              split
              · next hseen =>
                  rw [List.filter_cons_of_neg (by simp [hseen]), ih seen accepted hroom]
              · next hnew =>
                  rw [List.filter_cons_of_pos (by simp [hnew]), distinctBy_cons,
                    List.length_append, List.length_singleton]
                  split
                  · next hfull =>
                      have hone : maxFindingDrafts - accepted.length = 1 := by omega
                      rw [hone, List.take_succ_cons, List.take_zero]
                      rfl
                  · next hfull =>
                      have hmore : maxFindingDrafts - accepted.length =
                          maxFindingDrafts - (accepted ++ [candidateFromDraft draft]).length + 1 := by
                        rw [List.length_append, List.length_singleton]
                        omega
                      have hfilter : ∀ drafts : List FindingDraft,
                          drafts.filter
                            (fun other => decide (draftKey other ∉ draftKey draft :: seen)) =
                          (drafts.filter (fun other => decide (draftKey other ∉ seen))).filter
                            (fun other => decide (draftKey other ≠ draftKey draft)) := by
                        intro drafts
                        rw [List.filter_filter]
                        refine List.filter_congr (fun other _ => ?_)
                        simp [List.mem_cons, not_or]
                      rw [ih _ _ (by rw [List.length_append, List.length_singleton]; omega),
                        hmore, List.take_succ_cons, hfilter, List.map_cons, List.append_assoc]
                      rfl

/-- An entry is passed over where it is no draft, is not in the diff or repeats a key. -/
def PassedOver (validate : PyJson → Option FindingDraft) (inDiff : FindingDraft → Bool)
    (before : List PyJson) (entry : PyJson) : Prop :=
  ∀ draft, validate entry = some draft → inDiff draft = true →
    ∃ earlier ∈ before, ∃ other, validate earlier = some other ∧ inDiff other = true ∧
      draftKey other = draftKey draft

/-- An entry that is passed over displaces no draft. -/
theorem acceptedDrafts_passedOver
    {inDiff : FindingDraft → Bool} {before after : List PyJson} {entry : PyJson}
    (hpassed : PassedOver validate inDiff before entry) :
    acceptedDrafts validate inDiff (before ++ entry :: after) =
      acceptedDrafts validate inDiff (before ++ after) := by
  unfold acceptedDrafts
  congr 1
  rw [List.filterMap_append, List.filter_append, List.filterMap_append, List.filter_append]
  cases hvalid : validate entry with
  | none => rw [List.filterMap_cons_none hvalid]
  | some draft =>
      rw [List.filterMap_cons_some hvalid]
      cases hdiff : inDiff draft with
      | false => rw [List.filter_cons_of_neg (by simp [hdiff])]
      | true =>
          rw [List.filter_cons_of_pos hdiff]
          obtain ⟨earlier, hearlier, other, hother, hotherDiff, hkey⟩ := hpassed draft hvalid hdiff
          refine distinctBy_append_duplicate (List.mem_filter.mpr ⟨?_, hotherDiff⟩) hkey
          exact List.mem_filterMap.mpr ⟨earlier, hearlier, hother⟩

theorem inDiff_of_mem_acceptedDrafts
    {inDiff : FindingDraft → Bool} {entries : List PyJson} {draft : FindingDraft}
    (h : draft ∈ acceptedDrafts validate inDiff entries) :
    inDiff draft = true :=
  (List.mem_filter.mp (distinctBy_subset _ (List.mem_of_mem_take h))).2

end Pipeline

/-! ## The lines of the included files -/

section Shown

variable (tables : UnicodeTables)

/-- `int()` reads every number of the item. -/
def Legible (item : ReviewContextItem) : Prop :=
  ∀ digits ∈ numberTexts tables false item.content.splitlines,
    (intOfText tables digits).isSome = true

/-- The numbers of the new-side lines of a rendered text. -/
def newSideNumbersOf (content : PyStr) : List Nat :=
  (numberTexts tables false content.splitlines).filterMap
    (fun digits => (intOfText tables digits).map Int.toNat)

/-- Every line of the draft is a new-side line of an item of its path. -/
def DraftShown (packed : PackedDiff) (draft : FindingDraft) : Prop :=
  ∃ item ∈ packed.items, item.filePath = draft.filePath ∧
    ∀ line ∈ List.range' draft.lineStart (draft.lineEnd + 1 - draft.lineStart),
      line ∈ newSideNumbersOf tables item.content

instance decidableDraftShown (packed : PackedDiff) (draft : FindingDraft) :
    Decidable (DraftShown tables packed draft) :=
  inferInstanceAs (Decidable (∃ item ∈ packed.items, _))

variable {tables}

theorem newSideLines_of_legible
    {item : ReviewContextItem}
    (h : Legible tables item) :
    newSideLines tables item.content = .ok (newSideNumbersOf tables item.content).toFinset := by
  have hnumbers := mapM_numberOf_eq_ok_iff.mpr ⟨h, rfl⟩
  rw [newSideLines, collectNumbers_eq, hnumbers]
  rfl

theorem newSideLines_of_not_legible
    {item : ReviewContextItem}
    (h : ¬ Legible tables item) :
    newSideLines tables item.content = .error .valueError := by
  unfold Legible at h
  push Not at h
  obtain ⟨digits, hdigits, hread⟩ := h
  have hfails : (numberTexts tables false item.content.splitlines).mapM (numberOf tables) =
      .error .valueError := by
    refine mapM_eq_error (fun text _ => ?_) ⟨digits, hdigits, ?_⟩
    · cases hnumber : intOfText tables text with
      | none => exact .inr (by rw [numberOf, hnumber])
      | some number => exact .inl ⟨number.toNat, by rw [numberOf, hnumber]⟩
    · rw [numberOf, Option.not_isSome_iff_eq_none.mp hread]
  rw [newSideLines, collectNumbers_eq, hfails]
  rfl

theorem linesByPath_eq_ok
    {packed : PackedDiff}
    (hlegible : ∀ item ∈ packed.items, Legible tables item) :
    linesByPath tables packed = .ok (packed.items.map
      (fun item => (item.filePath, (newSideNumbersOf tables item.content).toFinset))) := by
  refine mapM_eq_ok (fun item hitem => ?_)
  rw [newSideLines_of_legible (hlegible item hitem)]
  rfl

theorem linesByPath_eq_error
    {packed : PackedDiff}
    (h : ∃ item ∈ packed.items, ¬ Legible tables item) :
    linesByPath tables packed = .error .valueError := by
  have hfails : ∀ item, ¬ Legible tables item →
      (do
        let lines ← newSideLines tables item.content
        return (item.filePath, lines)) = .error .valueError := by
    intro item hitem
    rw [newSideLines_of_not_legible hitem]
    rfl
  obtain ⟨item, hitem, hillegible⟩ := h
  refine mapM_eq_error (fun other _ => ?_) ⟨item, hitem, hfails item hillegible⟩
  by_cases hother : Legible tables other
  · exact .inl ⟨_, by rw [newSideLines_of_legible hother]; rfl⟩
  · exact .inr (hfails other hother)

/-- `_in_changed_diff`, where no path stands twice in the packed diff. -/
theorem inChangedDiff_eq
    {packed : PackedDiff}
    (hdistinct : (packed.items.map ReviewContextItem.filePath).Nodup)
    (draft : FindingDraft) :
    inChangedDiff draft (packed.items.map
      (fun item => (item.filePath, (newSideNumbersOf tables item.content).toFinset))) =
      decide (DraftShown tables packed draft) := by
  have hstart : draft.lineStart ∈
      List.range' draft.lineStart (draft.lineEnd + 1 - draft.lineStart) := by
    have hordered := draft.lines_ordered.2
    rw [List.mem_range'_1]
    omega
  rw [Bool.eq_iff_iff, decide_eq_true_eq, inChangedDiff]
  constructor
  · intro h
    split at h
    · cases h
    · next numbers hlookup =>
        obtain ⟨item, hitem, hpath, rfl⟩ := (lookup_reverse_map_iff hdistinct).mp hlookup
        have hall := List.all_eq_true.mp (Bool.and_eq_true_iff.mp h).2
        refine ⟨item, hitem, hpath, fun line hline => ?_⟩
        exact List.mem_toFinset.mp (of_decide_eq_true (hall line hline))
  · rintro ⟨item, hitem, hpath, hall⟩
    have hin : ∀ line ∈ List.range' draft.lineStart (draft.lineEnd + 1 - draft.lineStart),
        line ∈ (newSideNumbersOf tables item.content).toFinset :=
      fun line hline => List.mem_toFinset.mpr (hall line hline)
    rw [(lookup_reverse_map_iff hdistinct).mpr ⟨item, hitem, hpath, rfl⟩]
    simp only [Bool.and_eq_true, List.all_eq_true, decide_eq_true_eq, Bool.not_eq_true',
      decide_eq_false_iff_not]
    exact ⟨Finset.ne_empty_of_mem (hin _ hstart), hin⟩

end Shown

/-! ## The findings of an answer -/

section Answers

variable (tables : UnicodeTables)
variable (validate : PyJson → Option FindingDraft)

/-- The findings of an answer, where it has a list of them. -/
def rawFindings : PyJson → Option (List PyJson)
  | .dict entries =>
      match getItem? entries "findings" with
      | some (.list findings) => some findings
      | _ => none
  | _ => none

/-- The drafts of a packed diff's answer that are accepted. -/
def draftsOf (packed : PackedDiff) (entries : List PyJson) : List FindingDraft :=
  acceptedDrafts validate (fun draft => decide (DraftShown tables packed draft)) entries

variable {tables validate}

theorem candidatesFromParsed_eq
    (parsed : PyJson) (packed : PackedDiff) :
    candidatesFromParsed tables validate parsed packed =
      match rawFindings parsed with
      | none => .ok []
      | some entries => do
          let lines ← linesByPath tables packed
          return acceptFrom validate lines [] [] entries := by
  unfold candidatesFromParsed rawFindings
  split
  · next entries =>
      cases getItem? entries "findings" with
      | none => rfl
      | some value => cases value <;> rfl
  · rfl

theorem candidatesFromParsed_of_some
    {parsed : PyJson} {packed : PackedDiff} {entries : List PyJson}
    (h : rawFindings parsed = some entries) :
    candidatesFromParsed tables validate parsed packed =
      linesByPath tables packed >>= fun lines => .ok (acceptFrom validate lines [] [] entries) := by
  rw [candidatesFromParsed_eq, h]
  rfl

variable (tables validate)

/--
The candidates of an answer are the accepted drafts; where `int()` does not read a number of
an item, there are none.  An entry that is passed over displaces no draft, and no candidate
names an omitted file.
-/
theorem candidates_are_accepted_drafts
    (parsed : PyJson) (packed : PackedDiff)
    (hdistinct : (packed.items.map ReviewContextItem.filePath ++
      packed.omittedFiles.map OmittedFile.path).Nodup) :
    (rawFindings parsed = none →
      candidatesFromParsed tables validate parsed packed = .ok []) ∧
    ∀ entries, rawFindings parsed = some entries →
      ((∀ item ∈ packed.items, Legible tables item) →
        candidatesFromParsed tables validate parsed packed =
          .ok ((draftsOf tables validate packed entries).map candidateFromDraft)) ∧
      ((∃ item ∈ packed.items, ¬ Legible tables item) →
        candidatesFromParsed tables validate parsed packed = .error .valueError) ∧
      (∀ before entry after, entries = before ++ entry :: after →
        PassedOver validate (fun draft => decide (DraftShown tables packed draft)) before entry →
          draftsOf tables validate packed entries =
            draftsOf tables validate packed (before ++ after)) ∧
      ∀ draft ∈ draftsOf tables validate packed entries,
        draft.filePath ∉ packed.omittedFiles.map OmittedFile.path := by
  have hitems := hdistinct.of_append_left
  refine ⟨fun hnone => by rw [candidatesFromParsed_eq, hnone], fun entries hsome =>
    ⟨fun hlegible => ?_, fun hfails => ?_, fun before entry after hsplit hpassed => ?_,
      fun draft hdraft homitted => ?_⟩⟩
  · have hshown : (fun draft => inChangedDiff draft (packed.items.map
        (fun item => (item.filePath, (newSideNumbersOf tables item.content).toFinset)))) =
        fun draft => decide (DraftShown tables packed draft) :=
      funext (inChangedDiff_eq hitems)
    rw [candidatesFromParsed_of_some hsome, linesByPath_eq_ok hlegible, ok_bind,
      acceptFrom_eq _ _ _ _ (by decide), hshown]
    simp [draftsOf, acceptedDrafts]
  · rw [candidatesFromParsed_of_some hsome, linesByPath_eq_error hfails]
    rfl
  · rw [draftsOf, hsplit, acceptedDrafts_passedOver hpassed]
    rfl
  · have hshown := inDiff_of_mem_acceptedDrafts hdraft
    obtain ⟨item, hitem, hpath, _⟩ := of_decide_eq_true hshown
    have hdisjoint := List.disjoint_of_nodup_append hdistinct
    exact hdisjoint (hpath ▸ List.mem_map_of_mem hitem) homitted

end Answers

/-! ## An answer with one finding -/

def vatItem : ReviewContextItem where
  sourceKind := .diffFile
  filePath := "vat.py"
  lineStart := 1
  lineEnd := 2
  content := .ofString "NEW vat.py\n1| total\n2| vat\nOLD vat.py\ntotal"
  contentHash := "7454a7f9a6757f92d8f3737fcdca066bddd3cabaa51caea81218e4ad3e6546a7"
  filePath_ne := by decide
  contentHash_length := by decide
  ordered := by decide

def vatPacked : PackedDiff where
  packingStrategyVersion := packingStrategyVersion
  items := [vatItem]
  includedFiles := ["vat.py"]
  omittedFiles := [⟨"logo.png", .binary, 0, by decide⟩]
  promptTokens := 11
  coversAllChangedFiles := false
  packingStrategyVersion_ne := packingStrategyVersion_nonempty

theorem vatConfidence_bounds :
    (0 : Rat) ≤ 1 ∧ (1 : Rat) ≤ 1 :=
  ⟨by decide, by decide⟩

def vatDraft : FindingDraft where
  concern := .correctness
  severity := .high
  category := "tax"
  filePath := "vat.py"
  lineStart := 1
  lineEnd := 2
  title := "The vat is added twice"
  rationale := "The total has it already."
  evidence := [.ofString "2| vat"]
  confidence := .number 1 vatConfidence_bounds
  texts_ne := by decide
  lines_ordered := by decide
  evidence_ne := List.cons_ne_nil _ _

/-- The entry of the draft; a text is no entry. -/
def vatEntries : List PyJson :=
  [.str (.ofString "no findings"), .dict [
    (.ofString "concern", .str (.ofString "correctness")),
    (.ofString "severity", .str (.ofString "high")),
    (.ofString "category", .str (.ofString "tax")),
    (.ofString "file_path", .str (.ofString "vat.py")),
    (.ofString "line_start", .int 1),
    (.ofString "line_end", .int 2),
    (.ofString "title", .str (.ofString "The vat is added twice")),
    (.ofString "rationale", .str (.ofString "The total has it already.")),
    (.ofString "evidence", .list [.str (.ofString "2| vat")]),
    (.ofString "confidence", .int 1)]]

/-- What `model_validate` makes of these entries. -/
def vatValidate : PyJson → Option FindingDraft
  | .dict _ => some vatDraft
  | _ => none

theorem candidates_are_accepted_drafts_vat :
    candidatesFromParsed bareTables vatValidate (.dict [(.ofString "findings", .list vatEntries)])
        vatPacked =
      .ok ((draftsOf bareTables vatValidate vatPacked vatEntries).map candidateFromDraft) ∧
    (draftsOf bareTables vatValidate vatPacked vatEntries).map draftKey =
      [("vat.py", 1, 2, "The vat is added twice")] := by
  have hfindings : rawFindings (.dict [(.ofString "findings", .list vatEntries)]) =
      some vatEntries := by
    simp [rawFindings, getItem?]
  have hlegible : ∀ item ∈ vatPacked.items, Legible bareTables item := by
    intro item hitem
    obtain rfl := List.mem_singleton.mp hitem
    unfold Legible
    decide +kernel
  exact ⟨((candidates_are_accepted_drafts bareTables vatValidate _ vatPacked
    (by decide)).2 vatEntries hfindings).1 hlegible, by decide +kernel⟩

/-! ## A number that is too long -/

/-- A rendered file whose one line has a number of 4301 digits. -/
def longNumberBlocks : List PyStr :=
  [.ofString "NEW a.py", numbered (10 ^ maxStrDigits, ⟨[]⟩)]

theorem longNumberPath_nonempty :
    "a.py" ≠ "" := by
  decide

def longNumberItem : ReviewContextItem where
  sourceKind := .diffFile
  filePath := "a.py"
  lineStart := 1
  lineEnd := 1
  content := PyStr.join (.ofString "\n") longNumberBlocks
  contentHash := "555ce7a52c98becdb7e69aacc3e37fb701d86f65d0e86597b96b6fe7d965902b"
  filePath_ne := longNumberPath_nonempty
  contentHash_length := by decide
  ordered := by decide

def longNumberPacked : PackedDiff where
  packingStrategyVersion := packingStrategyVersion
  items := [longNumberItem]
  includedFiles := ["a.py"]
  omittedFiles := []
  promptTokens := 1077
  coversAllChangedFiles := true
  packingStrategyVersion_ne := packingStrategyVersion_nonempty

theorem longNumberItem_not_legible :
    ¬ Legible bareTables longNumberItem := by
  have hpieces : longNumberBlocks.flatMap PyStr.pieces = longNumberBlocks := by
    have hname : Unbroken (.ofString "NEW a.py") := unbroken_ofString (by decide +kernel)
    have hline : Unbroken (numbered (10 ^ maxStrDigits, ⟨[]⟩)) :=
      unbroken_append (unbroken_append (unbroken_decimal _) (unbroken_ofString (by decide +kernel)))
        (fun c hc => absurd hc List.not_mem_nil)
    simp only [longNumberBlocks, List.flatMap_cons, List.flatMap_nil, pieces_of_unbroken hname,
      pieces_of_unbroken hline, List.append_nil, List.singleton_append]
  have htexts : numberTexts bareTables false longNumberItem.content.splitlines =
      [decimal (10 ^ maxStrDigits)] := by
    have hname : (PyStr.ofString "NEW a.py").startsWith (.ofString "NEW ") = true := by
      decide +kernel
    have hshown : numberTexts bareTables true
        (shownFrom (10 ^ maxStrDigits) [⟨[]⟩] ++ []) = _ := numberTexts_shownFrom _ _ _
    simp only [longNumberItem]
    rw [numberTexts_join, hpieces, longNumberBlocks, numberTexts, if_pos hname]
    exact hshown
  intro hlegible
  have hread := hlegible (decimal (10 ^ maxStrDigits)) (by simp [htexts])
  rw [intOfText_decimal_eq, if_neg (lt_irrefl _)] at hread
  cases hread

/-- The answer has no finding, and the reading of the rendered file raises. -/
theorem long_number_raises :
    candidatesFromParsed bareTables (fun _ => none)
      (.dict [(.ofString "findings", .list [])]) longNumberPacked = .error .valueError := by
  have hfindings : rawFindings (.dict [(.ofString "findings", .list [])]) = some [] := by
    simp [rawFindings, getItem?]
  have hfails : linesByPath bareTables longNumberPacked = .error .valueError :=
    linesByPath_eq_error ⟨longNumberItem, List.mem_singleton.mpr rfl, longNumberItem_not_legible⟩
  rw [candidatesFromParsed_of_some hfindings, hfails]
  rfl

end Reviewer
end PrReviewer
