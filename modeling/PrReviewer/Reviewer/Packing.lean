import Mathlib.Data.List.Basic
import Mathlib.Tactic
import PrReviewer.Lib.Selection
import PrReviewer.Reviewer.DiffBudget

/-!
# What the packer decides

The loop of `pack_diff` as a greedy selection: of the files `_classify` gives no reason
for, each one is included whose tokens are within what the included files before it left.
The loop returns where every such file can be rendered and every included one makes an
item.
-/

namespace PrReviewer
namespace Reviewer

open Lib
open Github

section Decisions

variable (tables : UnicodeTables)
variable (hexdigest : HexDigest)
variable (countTokens : PyStr → Int)
variable (options : PackOptions)

/-- What a file is rendered to. -/
def rendered (file : PullRequestFile) : Except PyException PyStr :=
  if h : file.patch.isSome = true then renderHunks tables (filePatch file h) else .ok ⟨[]⟩

/-- The tokens of a file that can be rendered. -/
def tokensOf (file : PullRequestFile) : Int :=
  match rendered tables file with
  | .ok content => countTokens content
  | .error _ => 0

/-- The item of a file. -/
def itemOf (file : PullRequestFile) : Except PyException ReviewContextItem := do
  let content ← rendered tables file
  contextItem tables hexdigest file content

/-- The files `_classify` gives no reason for. -/
def kept (files : List PullRequestFile) : List PullRequestFile :=
  files.filter (fun file => decide (classify options file = none))

/-- The files that are included, of files in the order of the loop. -/
def chosen (left : Int) (files : List PullRequestFile) : List PullRequestFile :=
  greedy (tokensOf tables countTokens) left (kept options files)

def omittedFile (file : PullRequestFile) (reason : OmissionReason) : OmittedFile where
  path := file.path
  reason := reason
  changeSize := changeSize file.patch
  path_ne := file.path_ne

/-- The files that are omitted, with their reasons. -/
def omissions (left : Int) : List PullRequestFile → List OmittedFile
  | [] => []
  | file :: rest =>
      match classify options file with
      | some reason => omittedFile file reason :: omissions left rest
      | none =>
          if tokensOf tables countTokens file ≤ left then
            omissions (left - tokensOf tables countTokens file) rest
          else
            omittedFile file .tokenBudget :: omissions left rest

end Decisions

section Loop

variable {tables : UnicodeTables}
variable {hexdigest : HexDigest}
variable {countTokens : PyStr → Int}
variable {options : PackOptions}

/-- A round of the loop for a file `_classify` has a reason for. -/
theorem packFile_of_reason
    {packing : Packing} {file : PullRequestFile} {reason : OmissionReason}
    (h : classify options file = some reason) :
    packFile tables hexdigest countTokens options packing file = .ok (packing.omit file reason) := by
  unfold packFile
  split
  · next hreason =>
      rw [h] at hreason
      cases hreason
      rfl
  · next hnone =>
      rw [h] at hnone
      cases hnone

/-- The packing with a file included. -/
def Packing.include (packing : Packing) (file : PullRequestFile) (item : ReviewContextItem)
    (tokens : Int) : Packing where
  remaining := packing.remaining - tokens
  items := packing.items ++ [item]
  included := packing.included ++ [file.path]
  omitted := packing.omitted

/-- A round of the loop for another file. -/
theorem packFile_of_none
    {packing : Packing} {file : PullRequestFile}
    (h : classify options file = none) :
    packFile tables hexdigest countTokens options packing file =
      rendered tables file >>= fun content =>
        if packing.remaining < countTokens content then
          .ok (packing.omit file .tokenBudget)
        else
          contextItem tables hexdigest file content >>= fun item =>
            .ok (packing.include file item (countTokens content)) := by
  unfold packFile
  split
  · next hreason =>
      rw [h] at hreason
      cases hreason
  · rw [rendered, dif_pos (patch_of_classify h)]
    rfl

theorem kept_cons_of_none
    {file : PullRequestFile} {rest : List PullRequestFile}
    (h : classify options file = none) :
    kept options (file :: rest) = file :: kept options rest :=
  List.filter_cons_of_pos (by simp [h])

theorem kept_cons_of_reason
    {file : PullRequestFile} {rest : List PullRequestFile} {reason : OmissionReason}
    (h : classify options file = some reason) :
    kept options (file :: rest) = kept options rest :=
  List.filter_cons_of_neg (by simp [h])

/-- Where every file that is kept can be rendered. -/
def Renderable (tables : UnicodeTables) (options : PackOptions)
    (files : List PullRequestFile) : Prop :=
  ∀ file ∈ files, classify options file = none → ∃ content, rendered tables file = .ok content

theorem renderable_cons_of_reason
    {file : PullRequestFile} {rest : List PullRequestFile} {reason : OmissionReason}
    (h : classify options file = some reason) :
    Renderable tables options (file :: rest) ↔ Renderable tables options rest := by
  simp [Renderable, h]

/-- The variables of the loop behind its last round. -/
def Packing.completed (packing : Packing) (tables : UnicodeTables) (countTokens : PyStr → Int)
    (options : PackOptions) (files : List PullRequestFile) (items : List ReviewContextItem) :
    Packing where
  remaining := leftOver (tokensOf tables countTokens) packing.remaining (kept options files)
  items := packing.items ++ items
  included := packing.included ++
    (chosen tables countTokens options packing.remaining files).map PullRequestFile.path
  omitted := packing.omitted ++ omissions tables countTokens options packing.remaining files

/-- The loop of `pack_diff`. -/
theorem foldlM_packFile_eq_ok_iff
    {files : List PullRequestFile} {packing final : Packing} :
    files.foldlM (packFile tables hexdigest countTokens options) packing = .ok final ↔
      Renderable tables options files ∧ ∃ items,
        (chosen tables countTokens options packing.remaining files).mapM
          (itemOf tables hexdigest) = .ok items ∧
        final = packing.completed tables countTokens options files items := by
  induction files generalizing packing with
  | nil =>
      rw [List.foldlM_nil]
      constructor
      · rintro ⟨⟩
        refine ⟨fun file hfile => absurd hfile List.not_mem_nil, [], rfl, ?_⟩
        simp [Packing.completed, chosen, kept, greedy, omissions, leftOver]
      · rintro ⟨_, items, ⟨⟩, rfl⟩
        simp [Packing.completed, chosen, kept, greedy, omissions, leftOver, pure, Except.pure]
  | cons file rest ih =>
      rw [List.foldlM_cons]
      cases hclass : classify options file with
      | some reason =>
          have hchosen : chosen tables countTokens options packing.remaining (file :: rest) =
              chosen tables countTokens options packing.remaining rest := by
            rw [chosen, kept_cons_of_reason hclass, chosen]
          have hcompleted : ∀ items, (packing.omit file reason).completed tables countTokens options
              rest items = packing.completed tables countTokens options (file :: rest) items := by
            intro items
            simp [Packing.completed, hchosen, kept_cons_of_reason hclass, omissions, hclass,
              Packing.omit, omittedFile]
          have hremaining : (packing.omit file reason).remaining = packing.remaining := rfl
          rw [packFile_of_reason hclass, ok_bind, ih, renderable_cons_of_reason hclass, hchosen]
          simp only [hcompleted, hremaining]
      | none =>
          rw [packFile_of_none hclass]
          cases hrendered : rendered tables file with
          | error e =>
              rw [error_bind, error_bind]
              constructor
              · rintro ⟨⟩
              · rintro ⟨hrenderable, _⟩
                obtain ⟨content, hcontent⟩ := hrenderable file (List.mem_cons_self ..) hclass
                rw [hrendered] at hcontent
                cases hcontent
          | ok content =>
              have htokens : tokensOf tables countTokens file = countTokens content := by
                simp only [tokensOf, hrendered]
              have hrenderable : Renderable tables options (file :: rest) ↔
                  Renderable tables options rest := by
                simp [Renderable, hrendered]
              rw [ok_bind, hrenderable]
              split
              · next hlarge =>
                  have hchosen : chosen tables countTokens options packing.remaining
                      (file :: rest) = chosen tables countTokens options packing.remaining rest := by
                    rw [chosen, kept_cons_of_none hclass, greedy, if_neg (by omega), chosen]
                  have hcompleted : ∀ items, (packing.omit file .tokenBudget).completed tables
                      countTokens options rest items =
                        packing.completed tables countTokens options (file :: rest) items := by
                    intro items
                    simp [Packing.completed, hchosen, kept_cons_of_none hclass, omissions, hclass,
                      Packing.omit, omittedFile, leftOver_cons, htokens, hlarge]
                  have hremaining : (packing.omit file .tokenBudget).remaining =
                      packing.remaining := rfl
                  rw [ok_bind, ih, hchosen]
                  simp only [hcompleted, hremaining]
              · next hfits =>
                  have hchosen : chosen tables countTokens options packing.remaining
                      (file :: rest) =
                        file :: chosen tables countTokens options
                          (packing.remaining - countTokens content) rest := by
                    rw [chosen, kept_cons_of_none hclass, greedy, if_pos (by omega), htokens, chosen]
                  have hitem : itemOf tables hexdigest file =
                      contextItem tables hexdigest file content := by
                    rw [itemOf, hrendered, ok_bind]
                  rw [hchosen, List.mapM_cons, hitem]
                  cases hcontext : contextItem tables hexdigest file content with
                  | error e =>
                      constructor
                      · rintro ⟨⟩
                      · rintro ⟨_, items, ⟨⟩, _⟩
                  | ok item =>
                      have hcompleted : ∀ items,
                          (packing.include file item (countTokens content)).completed
                            tables countTokens options rest items =
                          packing.completed tables countTokens options (file :: rest)
                            (item :: items) := by
                        intro items
                        simp [Packing.completed, hchosen, kept_cons_of_none hclass, omissions,
                          hclass, Packing.include, leftOver_cons, htokens, not_lt.mp hfits]
                      have hremaining :
                          (packing.include file item (countTokens content)).remaining =
                            packing.remaining - countTokens content := rfl
                      rw [ok_bind, ok_bind, ih, hremaining, ok_bind]
                      constructor
                      · rintro ⟨hrest, items, hitems, rfl⟩
                        rw [hitems]
                        exact ⟨hrest, item :: items, rfl, hcompleted items⟩
                      · rintro ⟨hrest, items, hitems, rfl⟩
                        obtain ⟨others, hothers, h⟩ := bind_eq_ok hitems
                        cases h
                        exact ⟨hrest, others, hothers, (hcompleted others).symm⟩

end Loop

end Reviewer
end PrReviewer
