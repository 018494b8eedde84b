import Mathlib.Data.List.Basic
import Mathlib.Tactic
import PrReviewer.Lib.Text

/-!
# Boundaries of untrusted text in a prompt

security/prompt_boundaries.py.  Repository text enters a prompt only in a block
between two markers, after every marker has been deleted from it.  Deleting one
marker may splice the text around it into another, so the deletion is a loop; each
pass shrinks a text with a marker in it, so the loop ends and its guard never
raises.

A wrapped text is read by the markers that stand in it.  The label and the text
are kept off the markers by line breaks, which no marker contains, and by the
characters of `name: `, with which none begins.
-/

namespace PrReviewer
namespace Security

open Lib

/-- `RuntimeError(message)`. -/
structure RuntimeError where
  message : String
deriving DecidableEq, Repr

/-- Repository text that cannot be interpolated. -/
structure UntrustedText where
  raw : PyStr
deriving DecidableEq, Repr

def untrustedBegin : PyStr := .ofString "-----BEGIN UNTRUSTED INPUT-----"

def untrustedEnd : PyStr := .ofString "-----END UNTRUSTED INPUT-----"

/-- One of the two markers stands in the text. -/
def hasMarker (text : PyStr) : Bool :=
  text.contains untrustedBegin || text.contains untrustedEnd

/-- One pass of the loop of `_strip_markers`. -/
def stripPass (text : PyStr) : PyStr :=
  (text.remove untrustedBegin).remove untrustedEnd

/-- `_strip_markers`. -/
def stripMarkers (text : PyStr) : Except RuntimeError PyStr :=
  if hasMarker text then
    if text.points.length ≤ (stripPass text).points.length then
      .error ⟨"untrusted marker strip did not shrink"⟩
    else
      stripMarkers (stripPass text)
  else
    .ok text
termination_by text.points.length
decreasing_by omega

/-- The text `wrap_untrusted` builds from the stripped label and content. -/
def block (safeLabel safeContent : PyStr) : PyStr :=
  untrustedBegin ++ .ofString "\nname: " ++ safeLabel ++ .ofString "\n" ++ safeContent ++
    .ofString "\n" ++ untrustedEnd

/-- `wrap_untrusted`. -/
def wrapUntrusted
    (label : PyStr) (content : UntrustedText) :
    Except RuntimeError PyStr := do
  let safeLabel ← stripMarkers label
  let safeContent ← stripMarkers content.raw
  let wrapped := block safeLabel safeContent
  if wrapped.count untrustedBegin ≠ 1 ∨ wrapped.count untrustedEnd ≠ 1 then
    .error ⟨"wrap_untrusted must emit exactly one BEGIN and one END"⟩
  else
    .ok wrapped

/-- `wrap_untrusted_review_inputs`. -/
def wrapUntrustedReviewInputs
    (diff title body : UntrustedText)
    (commitMessages reviewComments retrievedChunks : List UntrustedText) :
    Except RuntimeError (List PyStr) := do
  let diffSection ← wrapUntrusted (.ofString "diff") diff
  let titleSection ← wrapUntrusted (.ofString "pr_title") title
  let bodySection ← wrapUntrusted (.ofString "pr_body") body
  let messages ← commitMessages.mapM (wrapUntrusted (.ofString "commit_message"))
  let comments ← reviewComments.mapM (wrapUntrusted (.ofString "review_comment"))
  let chunks ← retrievedChunks.mapM (wrapUntrusted (.ofString "retrieved_chunk"))
  return [diffSection, titleSection, bodySection] ++ messages ++ comments ++ chunks

/-! ## The texts of the markers -/

/-- What is computed from the texts of the markers and of the words around them. -/
structure MarkerTexts : Prop where
  markers : ∀ m ∈ [untrustedBegin.points, untrustedEnd.points],
    m ≠ [] ∧ m.head? = some 45 ∧ newline ∉ m
  name : 45 ∉ (PyStr.ofString "name: ").points
  nameLine : (PyStr.ofString "\nname: ").points = newline :: (PyStr.ofString "name: ").points
  line : (PyStr.ofString "\n").points = [newline]
  begins : untrustedBegin.count untrustedBegin + untrustedEnd.count untrustedBegin = 1
  ends : untrustedBegin.count untrustedEnd + untrustedEnd.count untrustedEnd = 1

theorem markerTexts : MarkerTexts := by
  have h : (∀ m ∈ [untrustedBegin.points, untrustedEnd.points],
      m ≠ [] ∧ m.head? = some 45 ∧ newline ∉ m) ∧
      45 ∉ (PyStr.ofString "name: ").points ∧
      (PyStr.ofString "\nname: ").points = newline :: (PyStr.ofString "name: ").points ∧
      (PyStr.ofString "\n").points = [newline] ∧
      untrustedBegin.count untrustedBegin + untrustedEnd.count untrustedBegin = 1 ∧
      untrustedBegin.count untrustedEnd + untrustedEnd.count untrustedEnd = 1 := by
    decide +kernel
  exact ⟨h.1, h.2.1, h.2.2.1, h.2.2.2.1, h.2.2.2.2.1, h.2.2.2.2.2⟩

/-! ## The stripping loop -/

section Stripping

/-- Each pass over a text with a marker in it shrinks the text. -/
theorem stripPass_length_lt
    {text : PyStr}
    (h : hasMarker text = true) :
    (stripPass text).points.length < text.points.length := by
  have hlast := (text.remove untrustedBegin).remove_length_le untrustedEnd
  have hfirst := text.remove_length_le untrustedBegin
  cases hbegin : text.contains untrustedBegin with
  | true =>
      have hlt := PyStr.remove_length_lt (markerTexts.markers _ (by simp)).1 hbegin
      simp only [stripPass]
      omega
  | false =>
      have hend : text.contains untrustedEnd = true := by simpa [hasMarker, hbegin] using h
      have hlt := PyStr.remove_length_lt (markerTexts.markers _ (by simp)).1 hend
      simpa only [stripPass, PyStr.remove_eq_self hbegin] using hlt

/-- The loop of `_strip_markers` without its guard. -/
def bare (text : PyStr) : PyStr :=
  if hasMarker text then bare (stripPass text) else text
termination_by text.points.length
decreasing_by exact stripPass_length_lt (by assumption)

/-- The guard never raises, and the loop leaves a text without markers, as it is without one. -/
theorem stripMarkers_spec
    (text : PyStr) :
    stripMarkers text = .ok (bare text) ∧ hasMarker (bare text) = false ∧
      (hasMarker text = false → bare text = text) := by
  induction text using bare.induct with
  | case1 text hmarker ih =>
      have hlt := stripPass_length_lt hmarker
      rw [stripMarkers, if_pos hmarker, if_neg (by omega), bare, if_pos hmarker]
      exact ⟨ih.1, ih.2.1, fun hnone => absurd hmarker (by simp [hnone])⟩
  | case2 text hmarker =>
      rw [stripMarkers, if_neg hmarker, bare, if_neg hmarker]
      exact ⟨rfl, Bool.eq_false_of_not_eq_true hmarker, fun _ => rfl⟩

theorem stripMarkers_eq
    (text : PyStr) :
    stripMarkers text = .ok (bare text) :=
  (stripMarkers_spec text).1

theorem hasMarker_bare
    (text : PyStr) :
    hasMarker (bare text) = false :=
  (stripMarkers_spec text).2.1

theorem bare_eq_self
    {text : PyStr}
    (h : hasMarker text = false) :
    bare text = text :=
  (stripMarkers_spec text).2.2 h

end Stripping

/-! ## Reading a wrapped text -/

section Reading

/-- The markers of a block. -/
def fences : List (Fence × List CodePoint) :=
  [(.opening, untrustedBegin.points), (.closing, untrustedEnd.points)]

/-- The text between the two markers of a wrapped value. -/
def blockText (label content : PyStr) : List CodePoint :=
  (PyStr.ofString "\nname: ").points ++ (bare label).points ++
    newline :: ((bare content).points ++ [newline])

variable {τ : Type}

/--
A way to read the two markers: it takes nothing across a line break, and nothing
out of a text without them, even after `name: `.
-/
structure ReadsFences (read : Reader CodePoint τ) : Prop where
  breaks : Breaks read newline
  quiet : ∀ text, hasMarker text = false → scan read 0 text.points = text.points.map .inr
  named : ∀ text, hasMarker text = false →
    scan read 0 ((PyStr.ofString "name: ").points ++ text.points) =
      ((PyStr.ofString "name: ").points ++ text.points).map .inr

/-- The scan of a wrapped text and of what stands behind it on the line. -/
theorem ReadsFences.scan_block
    {read : Reader CodePoint τ}
    (h : ReadsFences read)
    (label content : PyStr) (tail : List CodePoint) :
    scan read 0 ((block (bare label) (bare content)).points ++ tail) =
      scan read 0 untrustedBegin.points ++ (blockText label content).map .inr ++
        scan read 0 (untrustedEnd.points ++ tail) := by
  have hname := markerTexts.nameLine
  have hline := markerTexts.line
  have hpoints : (block (bare label) (bare content)).points ++ tail =
      untrustedBegin.points ++ newline ::
        (((PyStr.ofString "name: ").points ++ (bare label).points) ++ newline ::
          ((bare content).points ++ newline :: (untrustedEnd.points ++ tail))) := by
    simp only [block, PyStr.points_append, hname, hline, List.append_assoc, List.cons_append,
      List.nil_append]
  have htext : blockText label content =
      newline :: (((PyStr.ofString "name: ").points ++ (bare label).points) ++ newline ::
        ((bare content).points ++ [newline])) := by
    simp only [blockText, hname, List.append_assoc, List.cons_append]
  rw [hpoints, htext, h.breaks.scan_line, h.breaks.scan_line, h.breaks.scan_line,
    h.named _ (hasMarker_bare label), h.quiet _ (hasMarker_bare content)]
  simp

/-- Where neither marker stands in a text, no marker of a list of the two does. -/
theorem not_infix_of_hasMarker
    {markers : List (τ × List CodePoint)} {text : PyStr}
    (hmarkers : ∀ m ∈ markers, m.2 ∈ [untrustedBegin.points, untrustedEnd.points])
    (h : hasMarker text = false) :
    ∀ m ∈ markers, ¬ m.2 <:+: text.points := by
  intro m hm hinfix
  have hone := hmarkers m hm
  simp only [List.mem_cons, List.not_mem_nil, or_false] at hone
  have hmarker : hasMarker text = true := by
    rcases hone with heq | heq
    · simp [hasMarker, ← heq, hinfix]
    · simp [hasMarker, ← heq, hinfix]
  simp [hmarker] at h

/-- A reader that takes tokens only at markers out of the two reads the fences. -/
theorem readsFences_of_markers
    {markers : List (τ × List CodePoint)} {read : Reader CodePoint τ}
    (hmarkers : ∀ m ∈ markers, m.2 ∈ [untrustedBegin.points, untrustedEnd.points])
    (hbreaks : Breaks read newline)
    (hread : ∀ text, readMarkers markers text = none → read text = none) :
    ReadsFences read where
  breaks := hbreaks
  quiet text h :=
    scan_quiet fun _ hrest =>
      hread _ (readMarkers_suffix (not_infix_of_hasMarker hmarkers h) hrest)
  named text h := by
    have hhead : ∀ m ∈ [untrustedBegin.points, untrustedEnd.points],
        m ≠ [] ∧ m.head? = some 45 :=
      fun m hm => ⟨(markerTexts.markers m hm).1, (markerTexts.markers m hm).2.1⟩
    have hlead := markerTexts.name
    have hquiet : scan read 0 text.points = text.points.map .inr :=
      scan_quiet fun _ hrest =>
        hread _ (readMarkers_suffix (not_infix_of_hasMarker hmarkers h) hrest)
    rw [List.map_append, ← hquiet]
    apply scan_append_quiet
    intro rest hrest hne
    cases rest with
    | nil => exact absurd rfl hne
    | cons c cs =>
        have hc : c ∈ (PyStr.ofString "name: ").points := hrest.subset (List.mem_cons_self ..)
        refine hread _ (readMarkers_cons ?_ _)
        intro m hm
        obtain ⟨hmark, hfirst⟩ := hhead m.2 (hmarkers m hm)
        refine ⟨hmark, fun hsome => hlead ?_⟩
        rw [hfirst] at hsome
        exact Option.some.inj hsome ▸ hc

/-- Markers out of the two are no empty text and contain no line break. -/
theorem breaks_of_markers
    {markers : List (τ × List CodePoint)}
    (hmarkers : ∀ m ∈ markers, m.2 ∈ [untrustedBegin.points, untrustedEnd.points]) :
    Breaks (readMarkers markers) newline := by
  have hboth : ∀ m ∈ [untrustedBegin.points, untrustedEnd.points], m ≠ [] ∧ newline ∉ m :=
    fun m hm => ⟨(markerTexts.markers m hm).1, (markerTexts.markers m hm).2.2⟩
  exact breaks_readMarkers
    (fun m hm => (hboth m.2 (hmarkers m hm)).1)
    (fun m hm => (hboth m.2 (hmarkers m hm)).2)

theorem readsFences_markers
    {markers : List (τ × List CodePoint)}
    (hmarkers : ∀ m ∈ markers, m.2 ∈ [untrustedBegin.points, untrustedEnd.points]) :
    ReadsFences (readMarkers markers) :=
  readsFences_of_markers hmarkers (breaks_of_markers hmarkers) (fun _ h => h)

theorem fences_markers :
    ∀ m ∈ fences, m.2 ∈ [untrustedBegin.points, untrustedEnd.points] := by
  simp [fences]

theorem readsFences_every :
    ReadsFences (readEvery fences) := by
  have hne : ∀ m ∈ fences, m.2 ≠ [] :=
    fun m hm => (markerTexts.markers m.2 (fences_markers m hm)).1
  exact readsFences_of_markers fences_markers ((breaks_of_markers fences_markers).every hne)
    (fun _ h => readEvery_eq_none_iff.mpr h)

theorem readsFences_fences :
    ReadsFences (readMarkers fences) :=
  readsFences_markers fences_markers

end Reading

/-! ## Wrapping -/

section Wrapping

/-- `str.count` of one of the markers in a wrapped text. -/
theorem count_block
    {marker : PyStr}
    (hmarker : marker.points ∈ [untrustedBegin.points, untrustedEnd.points])
    (label content : PyStr) :
    (block (bare label) (bare content)).count marker =
      untrustedBegin.count marker + untrustedEnd.count marker := by
  have hreads : ReadsFences (readMarkers [((), marker.points)]) :=
    readsFences_markers (by simpa using hmarker)
  have hscan := hreads.scan_block label content []
  simp only [List.append_nil] at hscan
  simp only [PyStr.count, hscan, tokensOf_append, tokensOf_chars, List.length_append,
    List.length_nil, Nat.add_zero]

/-- `wrap_untrusted` never raises. -/
theorem wrapUntrusted_eq
    (label : PyStr) (content : UntrustedText) :
    wrapUntrusted label content = .ok (block (bare label) (bare content.raw)) := by
  have hbegin : (block (bare label) (bare content.raw)).count untrustedBegin = 1 := by
    rw [count_block (by simp)]
    exact markerTexts.begins
  have hend : (block (bare label) (bare content.raw)).count untrustedEnd = 1 := by
    rw [count_block (by simp)]
    exact markerTexts.ends
  simp only [wrapUntrusted, stripMarkers_eq, ok_bind, hbegin, hend, ne_eq, not_true_eq_false,
    or_self, if_false]

/-- The sections of the review inputs, in order. -/
theorem wrapUntrustedReviewInputs_eq
    (diff title body : UntrustedText)
    (commitMessages reviewComments retrievedChunks : List UntrustedText) :
    wrapUntrustedReviewInputs diff title body commitMessages reviewComments retrievedChunks =
      .ok (((PyStr.ofString "diff", diff) :: (.ofString "pr_title", title) ::
          (.ofString "pr_body", body) ::
          (commitMessages.map (fun content => (.ofString "commit_message", content)) ++
          reviewComments.map (fun content => (.ofString "review_comment", content)) ++
          retrievedChunks.map (fun content => (.ofString "retrieved_chunk", content)))).map
        (fun value : PyStr × UntrustedText => block (bare value.1) (bare value.2.raw))) := by
  simp only [wrapUntrustedReviewInputs, wrapUntrusted_eq,
    mapM_eq_ok (fun text _ => wrapUntrusted_eq _ text), ok_bind]
  simp [pure, Except.pure, Function.comp_def]

end Wrapping

end Security
end PrReviewer
