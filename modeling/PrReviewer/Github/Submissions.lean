import PrReviewer.Github.PostHistories

/-!
# What a call of `post_review` submits

The submissions of a run, for any answers of the callables: they are made after the
earlier post was looked for and the public findings were anchored, and nothing that
`post_review` does later adds one.

A review is due when nothing was posted for its key and the live head is the reviewed
one.  It is submitted exactly when no listed review has the marker of the key in its body.
-/

namespace PrReviewer
namespace Github

open Lib
open Hosted
open Reviewer

section Submitted

variable {σ α β : Type} {answer : (op : PostOp) → σ → op.Result × σ} {s : σ}

/-- The submission a call makes. -/
def PostOp.submission? : PostOp → Option ReviewSubmission
  | .submit submission => some submission
  | _ => none

/-- The submissions among the calls of a run. -/
def submitted (steps : List (σ × PostOp)) : List ReviewSubmission :=
  steps.filterMap (fun x => x.2.submission?)

theorem PostOp.submission?_of_quiet
    {op : PostOp}
    (h : op.quiet) :
    op.submission? = none := by
  cases op with
  | submit submission => cases h
  | _ => rfl

/-- A program without a submission submits nothing. -/
theorem submitted_of_only
    {p : PostProgram α}
    (h : Program.Only PostOp.quiet p) :
    submitted (Program.steps answer p s) = [] := by
  refine List.filterMap_eq_nil_iff.mpr ?_
  intro x hx
  exact PostOp.submission?_of_quiet (h.steps s hx)

theorem submitted_bind
    {p : PostProgram α} {f : α → PostProgram β} :
    submitted (Program.steps answer (p.bind f) s) =
      submitted (Program.steps answer p s) ++
        match Program.run answer p s with
        | (.ok a, s') => submitted (Program.steps answer (f a) s')
        | (.error _, _) => [] := by
  rw [Program.steps_bind, submitted, List.filterMap_append]
  cases Program.run answer p s with
  | mk outcome s' =>
      cases outcome with
      | ok a => rfl
      | error e => rfl

/-- What comes after a program that submits nothing. -/
theorem submitted_bind_of_only
    {p : PostProgram α} {f : α → PostProgram β}
    (h : Program.Only PostOp.quiet p) :
    submitted (Program.steps answer (p.bind f) s) =
      match Program.run answer p s with
      | (.ok a, s') => submitted (Program.steps answer (f a) s')
      | (.error _, _) => [] := by
  rw [submitted_bind, submitted_of_only h, List.nil_append]

/-- What comes before programs that submit nothing. -/
theorem submitted_bind_only
    {p : PostProgram α} {f : α → PostProgram β}
    (h : ∀ a, Program.Only PostOp.quiet (f a)) :
    submitted (Program.steps answer (p.bind f) s) = submitted (Program.steps answer p s) := by
  rw [submitted_bind]
  cases Program.run answer p s with
  | mk outcome s' =>
      cases outcome with
      | ok a => simp only [submitted_of_only (h a), List.append_nil]
      | error e => simp only [List.append_nil]

variable {tables : UnicodeTables} {args : PostArguments} {given : PostCallables}

theorem only_quiet_existing :
    Program.Only PostOp.quiet (existing args.idempotencyKey args.ref given) :=
  (only_reads_existing ..).mono (fun _ => PostOp.quiet_of_reads)

theorem only_quiet_inlineComments
    (findings : List Finding) :
    Program.Only PostOp.quiet (inlineComments tables args.patches findings) :=
  (only_reads_inlineComments ..).mono (fun _ => PostOp.quiet_of_reads)

/-- The submissions of `post_review` depend on its public findings only. -/
theorem submitted_postReview :
    submitted (Program.steps answer (postReview tables args given) s) =
      match Program.run answer (existing args.idempotencyKey args.ref given) s with
      | (.ok none, s') =>
          match publicFindings args.findings with
          | [] => []
          | finding :: rest =>
              submitted (Program.steps answer (postPublic tables args given (finding :: rest)) s')
      | _ => [] := by
  unfold postReview
  rw [Program.bind_eq, submitted_bind_of_only only_quiet_existing]
  cases Program.run answer (existing args.idempotencyKey args.ref given) s with
  | mk outcome s' =>
      rcases outcome with _ | _ | review
      · rfl
      · cases publicFindings args.findings with
        | nil => rfl
        | cons finding rest => exact submitted_bind_only only_quiet_recorded
      · rfl

theorem run_callPost
    (op : PostOp) :
    Program.run answer (callPost op) s = ((answer op s).1, (answer op s).2) := by
  unfold callPost Program.perform
  simp only [Program.bind_eq, Program.bind, Program.run]
  cases (answer op s).1 with
  | ok value => rfl
  | error e => rfl

/-- The submission, where the head that is read is the reviewed one. -/
theorem submitted_submitAtHead
    {submission : ReviewSubmission} :
    submitted (Program.steps answer (submitAtHead args given submission) s) =
      match (answer .currentHeadSha s).1 with
      | .ok live => if args.headSha = live then [submission] else []
      | .error _ => [] := by
  have hread : Program.Only PostOp.quiet (callPost .currentHeadSha) := only_callPost trivial
  unfold submitAtHead
  rw [Program.bind_eq, submitted_bind_of_only hread, run_callPost]
  cases (answer .currentHeadSha s).1 with
  | error e => rfl
  | ok live =>
      by_cases hlive : args.headSha = live
      · have hcurrent : reviewedHeadIsCurrent args.headSha live = true := decide_eq_true hlive
        simp only [hcurrent, if_true, if_pos hlive]
        exact congrArg (List.cons submission)
          (submitted_of_only (only_quiet_afterSubmission args given _))
      · have hcurrent : reviewedHeadIsCurrent args.headSha live = false := decide_eq_false hlive
        simp only [hcurrent, Bool.false_eq_true, if_false, if_neg hlive]
        rfl

/-- A submission is made for the comments that anchoring returned. -/
theorem submitted_postPublic
    {findings : List Finding} :
    submitted (Program.steps answer (postPublic tables args given findings) s) =
      match Program.run answer (inlineComments tables args.patches findings) s with
      | (.ok inline, s') =>
          match (answer .currentHeadSha s').1 with
          | .ok live =>
              if args.headSha = live then [submissionOf args findings inline] else []
          | .error _ => []
      | (.error _, _) => [] := by
  unfold postPublic
  rw [Program.bind_eq, submitted_bind_of_only (only_quiet_inlineComments findings)]
  cases Program.run answer (inlineComments tables args.patches findings) s with
  | mk outcome s' =>
      cases outcome with
      | error e => rfl
      | ok inline =>
          have hlast : ∀ posted, Program.Only PostOp.quiet
              (pure (completedPost (submissionOf args findings inline) args.idempotencyKey posted) :
                PostProgram PostedReview) := fun _ => trivial
          simp only
          rw [Program.bind_eq, submitted_bind_only hlast, submitted_submitAtHead]

end Submitted

/-! ## The comments of a rendered patch -/

section Numbers

variable (tables : UnicodeTables)

/-- The numbers that open the lines below a NEW header. -/
def numberedLines : Bool → List PyStr → List PyStr
  | _, [] => []
  | inNew, line :: rest =>
      if line.startsWith (.ofString "NEW ") then
        numberedLines true rest
      else if line.startsWith (.ofString "OLD ") then
        numberedLines false rest
      else if inNew then
        (lineNumber tables line).toList ++ numberedLines inNew rest
      else
        numberedLines inNew rest

/-- `int()` accepts the numbers of a rendered text: none has more than 4300 digits. -/
def Readable (rendered : PyStr) : Prop :=
  ∀ digits ∈ numberedLines tables false rendered.splitlines, (intOfText tables digits).isSome

/-- The numbers of the lines a rendered text shows on the new side. -/
def shownNumbers (rendered : PyStr) : List Nat :=
  (numberedLines tables false rendered.splitlines).filterMap
    (fun digits => (intOfText tables digits).map Int.toNat)

variable {tables}

theorem collectNumbers_of_readable
    {inNew : Bool} {lines : List PyStr}
    (h : ∀ digits ∈ numberedLines tables inNew lines, (intOfText tables digits).isSome) :
    collectNumbers tables inNew lines =
      .ok ((numberedLines tables inNew lines).filterMap
        (fun digits => (intOfText tables digits).map Int.toNat)) := by
  induction lines generalizing inNew with
  | nil => rfl
  | cons line rest ih =>
      unfold collectNumbers
      unfold numberedLines at h ⊢
      split
      · next hnew =>
          rw [if_pos hnew] at h
          exact ih h
      · next hnew =>
          rw [if_neg hnew] at h
          split
          · next hold =>
              rw [if_pos hold] at h
              exact ih h
          · next hold =>
              rw [if_neg hold] at h
              cases inNew with
              | false => exact ih h
              | true =>
                  simp only [if_true] at h ⊢
                  cases hnumber : lineNumber tables line with
                  | none =>
                      rw [hnumber] at h
                      exact ih h
                  | some digits =>
                      rw [hnumber] at h
                      obtain ⟨n, hn⟩ := Option.isSome_iff_exists.mp (h digits (by simp))
                      have hrest := ih (fun d hd => h d (List.mem_append_right _ hd))
                      simp [hn, hrest, ok_bind, pure, Except.pure]

theorem collectNumbers_of_not_readable
    {inNew : Bool} {lines : List PyStr} {digits : PyStr}
    (hmem : digits ∈ numberedLines tables inNew lines)
    (hnone : intOfText tables digits = none) :
    ∃ e, collectNumbers tables inNew lines = .error e := by
  induction lines generalizing inNew with
  | nil => cases hmem
  | cons line rest ih =>
      unfold collectNumbers
      unfold numberedLines at hmem
      split
      · next hnew =>
          rw [if_pos hnew] at hmem
          exact ih hmem
      · next hnew =>
          rw [if_neg hnew] at hmem
          split
          · next hold =>
              rw [if_pos hold] at hmem
              exact ih hmem
          · next hold =>
              rw [if_neg hold] at hmem
              cases inNew with
              | false => exact ih hmem
              | true =>
                  simp only [if_true] at hmem ⊢
                  cases hnumber : lineNumber tables line with
                  | none =>
                      rw [hnumber] at hmem
                      exact ih hmem
                  | some first =>
                      rw [hnumber] at hmem
                      cases hfirst : intOfText tables first with
                      | none => exact ⟨.valueError, by simp only [hfirst]⟩
                      | some n =>
                          have hrest : digits ∈ numberedLines tables true rest := by
                            rcases List.mem_append.mp hmem with hd | hd
                            · rw [Option.toList_some, List.mem_singleton] at hd
                              rw [hd, hfirst] at hnone
                              cases hnone
                            · exact hd
                          obtain ⟨e, he⟩ := ih hrest
                          exact ⟨e, by simp only [hfirst, he, error_bind]⟩

/-- `_new_side_numbers` of a readable text. -/
theorem newSideNumbers_of_readable
    {rendered : PyStr}
    (h : Readable tables rendered) :
    newSideNumbers tables rendered = .ok (shownNumbers tables rendered) :=
  collectNumbers_of_readable h

theorem newSideNumbers_of_not_readable
    {rendered : PyStr}
    (h : ¬ Readable tables rendered) :
    ∃ e, newSideNumbers tables rendered = .error e := by
  unfold Readable at h
  push Not at h
  obtain ⟨digits, hmem, hdigits⟩ := h
  exact collectNumbers_of_not_readable hmem (by simpa using hdigits)

end Numbers

/-! ## A due review -/

section Due

variable {σ : Type} (answer : (op : PostOp) → σ → op.Result × σ)
variable (tables : UnicodeTables) (args : PostArguments) (given : PostCallables)

/-- The state in which `_existing` asks for the listing. -/
def afterLookup (s : σ) : σ :=
  if given.lookup then (answer (.lookup args.idempotencyKey) s).2 else s

/--
Nothing is recorded for the key, the reviews of the pull request are listed, the patches
are rendered, and the live head is the reviewed one.
-/
structure Due (reviews : List PostedReview) (rendered : FilePatch → PyStr) (s : σ) : Prop where
  lookup : given.lookup = true → (answer (.lookup args.idempotencyKey) s).1 = .ok none
  listReviews : given.listReviews = true →
    (answer (.listReviews args.ref) (afterLookup answer args given s)).1 = .ok reviews
  unlisted : given.listReviews = false → reviews = []
  renderHunks : ∀ patch s', (answer (.renderHunks patch) s').1 = .ok (rendered patch)
  currentHeadSha : ∀ s', (answer .currentHeadSha s').1 = .ok args.headSha

/-- The comments of the findings whose line is shown. -/
def inlineOf (rendered : FilePatch → PyStr) (findings : List Finding) : List ReviewComment :=
  findings.filterMap (fun finding =>
    (patchOf args.patches finding).bind (fun patch =>
      anchoredAt finding patch (shownNumbers tables (rendered patch))))

/-- The rendered patches of the findings are readable. -/
def AllReadable (rendered : FilePatch → PyStr) (findings : List Finding) : Prop :=
  ∀ finding ∈ findings, ∀ patch, patchOf args.patches finding = some patch →
    Readable tables (rendered patch)

variable {answer} {tables} {args} {given}
variable {reviews : List PostedReview} {rendered : FilePatch → PyStr} {s : σ}

theorem run_lookedUp
    (h : Due answer args given reviews rendered s) :
    Program.run answer (lookedUp args.idempotencyKey given) s =
      (.ok none, afterLookup answer args given s) := by
  unfold lookedUp afterLookup
  split
  · next hgiven => rw [run_callPost, h.lookup hgiven]
  · rfl

/-- `_existing` finds a listed review that has the marker in its body. -/
theorem run_existing
    (h : Due answer args given reviews rendered s) :
    ∃ s', Program.run answer (existing args.idempotencyKey args.ref given) s =
      (.ok (markedReview args.idempotencyKey reviews), s') := by
  unfold existing
  rw [Program.bind_eq, Program.run_bind, run_lookedUp h]
  simp only
  unfold listed
  cases hgiven : given.listReviews with
  | true =>
      simp only [if_true]
      rw [Program.bind_eq, Program.run_bind, run_callPost, h.listReviews hgiven]
      exact ⟨_, rfl⟩
  | false =>
      rw [h.unlisted hgiven]
      exact ⟨_, rfl⟩

theorem markedReview_eq_none_iff
    {key : PyStr} :
    markedReview key reviews = none ↔
      ∀ review ∈ reviews, review.body.contains (marker key) = false := by
  unfold markedReview
  rw [Option.map_eq_none_iff, List.find?_eq_none]
  simp only [Bool.not_eq_true]

/-- Anchoring a finding whose rendered patch is readable. -/
theorem run_anchor_of_readable
    {finding : Finding}
    (h : Due answer args given reviews rendered s) (s' : σ)
    (hreadable : ∀ patch, patchOf args.patches finding = some patch →
      Readable tables (rendered patch)) :
    ∃ s'', Program.run answer (anchor tables args.patches finding) s' =
      (.ok ((patchOf args.patches finding).bind (fun patch =>
        anchoredAt finding patch (shownNumbers tables (rendered patch)))), s'') := by
  unfold anchor
  cases hpatch : patchOf args.patches finding with
  | none => exact ⟨_, rfl⟩
  | some patch =>
      simp only
      rw [Program.bind_eq, Program.run_bind, run_callPost, h.renderHunks]
      simp only [newSideNumbers_of_readable (hreadable patch hpatch)]
      exact ⟨_, rfl⟩

theorem run_anchor_of_not_readable
    {finding : Finding} {patch : FilePatch}
    (h : Due answer args given reviews rendered s) (s' : σ)
    (hpatch : patchOf args.patches finding = some patch)
    (hnot : ¬ Readable tables (rendered patch)) :
    ∃ e s'', Program.run answer (anchor tables args.patches finding) s' = (.error e, s'') := by
  obtain ⟨e, he⟩ := newSideNumbers_of_not_readable hnot
  unfold anchor
  simp only [hpatch]
  rw [Program.bind_eq, Program.run_bind, run_callPost, h.renderHunks]
  simp only [he]
  exact ⟨_, _, rfl⟩

theorem run_inlineComments_of_readable
    {findings : List Finding}
    (h : Due answer args given reviews rendered s) (s' : σ)
    (hreadable : AllReadable tables args rendered findings) :
    ∃ s'', Program.run answer (inlineComments tables args.patches findings) s' =
      (.ok (inlineOf tables args rendered findings), s'') := by
  induction findings generalizing s' with
  | nil => exact ⟨s', rfl⟩
  | cons finding rest ih =>
      obtain ⟨s₁, hfirst⟩ := run_anchor_of_readable h s' (hreadable finding (by simp))
      obtain ⟨s₂, hrest⟩ := ih s₁ (fun f hf => hreadable f (List.mem_cons_of_mem _ hf))
      refine ⟨s₂, ?_⟩
      simp only [inlineComments, Program.bind_eq, Program.run_bind, hfirst, hrest]
      simp only [Program.pure_eq, Program.run, inlineOf, List.filterMap_cons]
      split
      · next hnone => rw [hnone]; rfl
      · next comment hsome => rw [hsome]; rfl

theorem run_inlineComments_of_not_readable
    {findings : List Finding}
    (h : Due answer args given reviews rendered s) (s' : σ)
    (hnot : ¬ AllReadable tables args rendered findings) :
    ∃ e s'', Program.run answer (inlineComments tables args.patches findings) s' =
      (.error e, s'') := by
  induction findings generalizing s' with
  | nil =>
      refine absurd ?_ hnot
      intro finding hfinding
      cases hfinding
  | cons finding rest ih =>
      by_cases hfirst : ∀ patch, patchOf args.patches finding = some patch →
        Readable tables (rendered patch)
      · have hrest : ¬ AllReadable tables args rendered rest := by
          intro hall
          refine hnot ?_
          intro f hf
          rcases List.mem_cons.mp hf with rfl | hf
          · exact hfirst
          · exact hall f hf
        obtain ⟨s₁, hrun⟩ := run_anchor_of_readable h s' hfirst
        obtain ⟨e, s₂, hrun'⟩ := ih s₁ hrest
        refine ⟨e, s₂, ?_⟩
        simp only [inlineComments, Program.bind_eq, Program.run_bind, hrun, hrun']
      · push Not at hfirst
        obtain ⟨patch, hpatch, hunreadable⟩ := hfirst
        obtain ⟨e, s₁, hrun⟩ := run_anchor_of_not_readable h s' hpatch hunreadable
        refine ⟨e, s₁, ?_⟩
        simp only [inlineComments, Program.bind_eq, Program.run_bind, hrun]

/--
A due review with public findings is submitted exactly once, as the review of these
findings, if and only if no listed review has the marker of the key in its body and the
rendered patches of the findings are readable.
-/
theorem due_review_submitted_iff
    (hdue : Due answer args given reviews rendered s)
    (hpublic : publicFindings args.findings ≠ []) :
    submitted (Program.steps answer (postReview tables args given) s) =
        [submissionOf args (publicFindings args.findings)
          (inlineOf tables args rendered (publicFindings args.findings))] ↔
      (∀ review ∈ reviews, review.body.contains (marker args.idempotencyKey) = false) ∧
        AllReadable tables args rendered (publicFindings args.findings) := by
  obtain ⟨s', hexisting⟩ := run_existing hdue
  rw [submitted_postReview, hexisting, ← markedReview_eq_none_iff]
  cases hmarked : markedReview args.idempotencyKey reviews with
  | some review =>
      constructor
      · intro h
        cases h
      · rintro ⟨h, _⟩
        cases h
  | none =>
      cases hfindings : publicFindings args.findings with
      | nil => exact absurd hfindings hpublic
      | cons finding rest =>
          simp only
          rw [submitted_postPublic]
          by_cases hreadable : AllReadable tables args rendered (finding :: rest)
          · obtain ⟨s'', hinline⟩ := run_inlineComments_of_readable hdue s' hreadable
            rw [hinline]
            simp only [hdue.currentHeadSha, if_true, true_and, hreadable]
          · obtain ⟨e, s'', hinline⟩ := run_inlineComments_of_not_readable hdue s' hreadable
            rw [hinline]
            simp only [hreadable, and_false, iff_false]
            exact nofun

end Due

section Example

/-- Callables that answer with the given reviews and raise nothing. -/
def answerWith (reviews : List PostedReview) : (op : PostOp) → Unit → op.Result × Unit
  | .lookup _, s => (.ok none, s)
  | .listReviews _, s => (.ok reviews, s)
  | .renderHunks _, s => (.ok ⟨[]⟩, s)
  | .currentHeadSha, s => (.ok (.ofString "a"), s)
  | .submit _, s => (.ok emptyPost, s)
  | .recordPost _, s => (.ok (), s)
  | .recordEvent _ _ _, s => (.ok (), s)

def widgetsArguments : PostArguments where
  ref := widgetsPull
  headSha := .ofString "a"
  findings := [(returnChanged, ⟨true, .ordinary⟩)]
  idempotencyKey := .ofString "acme/widgets#17@a:v1"
  patches := []

def allCallables : PostCallables where
  lookup := true
  listReviews := true
  recordPost := true
  recordEvent := true

theorem due_widgets
    (reviews : List PostedReview) :
    Due (answerWith reviews) widgetsArguments allCallables reviews (fun _ => ⟨[]⟩) () :=
  ⟨fun _ => rfl, fun _ => rfl, nofun, fun _ _ => rfl, fun _ => rfl⟩

theorem publicFindings_widgets :
    publicFindings widgetsArguments.findings = [returnChanged] := by
  rfl

/-- What is listed on the pull request: a person's review, and the post for an earlier head. -/
def otherReviews : List PostedReview :=
  [{ emptyPost with body := .ofString "Looks good to me" },
    { emptyPost with body := .ofString "No findings" ++ marker (.ofString "acme/widgets#17@0:v1") }]

theorem otherReviews_unmarked :
    ∀ review ∈ otherReviews,
      review.body.contains (marker widgetsArguments.idempotencyKey) = false := by
  decide +kernel

theorem due_review_submitted_iff_unlisted :
    submitted (Program.steps (answerWith otherReviews)
        (postReview ⟨fun _ => false, fun _ => none⟩ widgetsArguments allCallables) ()) =
      [submissionOf widgetsArguments [returnChanged] []] := by
  have hpublic : publicFindings widgetsArguments.findings ≠ [] := by
    rw [publicFindings_widgets]
    exact List.cons_ne_nil _ _
  have hreadable : AllReadable ⟨fun _ => false, fun _ => none⟩ widgetsArguments (fun _ => ⟨[]⟩)
      (publicFindings widgetsArguments.findings) := by
    intro finding _ patch hpatch
    cases hpatch
  have hsubmitted := (due_review_submitted_iff (due_widgets otherReviews) hpublic).mpr
    ⟨otherReviews_unmarked, hreadable⟩
  rw [publicFindings_widgets] at hsubmitted
  exact hsubmitted

/-- A review somebody else wrote, with the marker in it. -/
def quotingReview : PostedReview :=
  { emptyPost with body := .ofString "> " ++ marker widgetsArguments.idempotencyKey }

theorem due_review_of_quoted_marker :
    Due (answerWith [quotingReview]) widgetsArguments allCallables [quotingReview]
        (fun _ => ⟨[]⟩) () ∧
      publicFindings widgetsArguments.findings = [returnChanged] ∧
      submitted (Program.steps (answerWith [quotingReview])
        (postReview ⟨fun _ => false, fun _ => none⟩ widgetsArguments allCallables) ()) = [] := by
  refine ⟨due_widgets _, publicFindings_widgets, ?_⟩
  decide +kernel

end Example

end Github
end PrReviewer
