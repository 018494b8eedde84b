import PrReviewer.Hosted.PushThenRead

/-!
# Verified labels

A displayed finding is labelled as verified by the column the writer filled.  A pushed
finding never is; `project_review` takes the word of its caller, who is to convert each
finding with the receipt of its sandbox run.

As long as every verified finding comes with such a receipt, every verified label that is
displayed cites a sandbox run.
-/

namespace PrReviewer
namespace Hosted

open Lib

/-- Every verified finding comes with a receipt that names a sandbox run. -/
def CitesRuns (findings : List Finding) (receipts : List ReceiptInput) : Prop :=
  ∀ finding ∈ findings, finding.verified = true →
    ∃ receipt, receiptFor receipts finding.id = some receipt ∧
      receipt.sandboxRunId.isSome = true

/-- The step's call of `project_review`, if it is one, keeps to that. -/
def StoreAction.CitesRuns : StoreAction → Prop
  | .projectReview _ findings receipts => Hosted.CitesRuns findings receipts
  | _ => True

/-- Every stored verified finding names a sandbox run. -/
def RunsCited (s : HostedState) : Prop :=
  ∀ row ∈ s.reviewFindings.rows, row.verified = true → row.sandboxRunId.isSome = true

/-- The findings of a push are unverified. -/
theorem insertPushedFindings_cited
    {body : PushedReviewSummaryBody} {now : Nat} {entries : List (PushedFindingBody × Nat)}
    {stored : Table ReviewFindingRow.id}
    (hcited : ∀ row ∈ stored.rows, row.verified = true → row.sandboxRunId.isSome = true) :
    ∀ row ∈ (insertPushedFindings body now entries stored).rows,
      row.verified = true → row.sandboxRunId.isSome = true := by
  induction entries generalizing stored with
  | nil => exact hcited
  | cons entry rest ih =>
      obtain ⟨finding, index⟩ := entry
      apply ih
      cases hinsert : stored.insert? (pushedFindingRow body finding index now) with
      | none => exact hcited
      | some stored' =>
          rw [Option.getD_some, (Table.insert?_eq_some hinsert).2]
          intro row hrow hverified
          rcases List.mem_append.mp hrow with hold | hnew
          · exact hcited row hold hverified
          · rw [List.mem_singleton] at hnew
            subst hnew
            cases hverified

/-- The findings of a projection name the runs of their receipts. -/
theorem insertProjectedFindings_cited
    {reviewJobId : Uuid} {receipts : List ReceiptInput} {findings : List Finding}
    {s s' : HostedState}
    (hfindings : Hosted.CitesRuns findings receipts) (hcited : RunsCited s)
    (h : insertProjectedFindings reviewJobId receipts findings s = .ok s') :
    RunsCited s' := by
  induction findings generalizing s with
  | nil =>
      cases h
      exact hcited
  | cons finding rest ih =>
      simp only [insertProjectedFindings] at h
      split at h
      · cases h
      · split at h
        · cases h
        · split at h
          · cases h
          · next reviewFindings hinsert =>
              refine ih (fun other hother => hfindings other (List.mem_cons_of_mem _ hother)) ?_ h
              intro row hrow hverified
              rw [(Table.insert?_eq_some hinsert).2] at hrow
              rcases List.mem_append.mp hrow with hold | hnew
              · exact hcited row hold hverified
              · rw [List.mem_singleton] at hnew
                subst hnew
                obtain ⟨receipt, hreceipt, hrun⟩ :=
                  hfindings finding List.mem_cons_self hverified
                simp only [projectedFindingRow, hreceipt, Option.bind_some]
                exact hrun

section Plane

variable {hashRunnerCredential : String → String}

theorem runsCited_step
    {s : HostedStore} {a : StoreAction}
    (ha : a.CitesRuns) (hcited : RunsCited s.hosted) :
    RunsCited (hostedStoreStep hashRunnerCredential s a).hosted := by
  have hchange := hostedStoreStep_records hashRunnerCredential s a
  generalize (hostedStoreStep hashRunnerCredential s a).hosted = hosted at hchange ⊢
  cases hchange with
  | quiet hsame =>
      unfold RunsCited
      rw [hsame.reviewFindings]
      exact hcited
  | pushed hbody => exact insertPushedFindings_cited hcited
  | projected hok => exact insertProjectedFindings_cited ha hcited (projectReview_eq_ok hok)

/-- Of every run whose projections keep to their receipts. -/
theorem runsCited_storeAfter
    {actions : List StoreAction}
    (hactions : ∀ a ∈ actions, a.CitesRuns) :
    RunsCited (storeAfter hashRunnerCredential actions).hosted := by
  have hrun : ∀ (actions : List StoreAction) (s : HostedStore), (∀ a ∈ actions, a.CitesRuns) →
      RunsCited s.hosted →
        RunsCited (exec (hostedStoreStep hashRunnerCredential) s actions).hosted := by
    intro actions
    induction actions with
    | nil => exact fun s _ hcited => hcited
    | cons a rest ih =>
        intro s hactions hcited
        exact ih _ (fun b hb => hactions b (List.mem_cons_of_mem a hb))
          (runsCited_step (hactions a List.mem_cons_self) hcited)
  apply hrun actions _ hactions
  intro row hrow
  cases hrow

end Plane

/-- The label of a displayed finding: a verified one cites a sandbox run. -/
def LabelCitesRun (finding : ReviewFindingSummary) : Prop :=
  finding.verified = true →
    ∃ receipt, finding.receipt = some receipt ∧ receipt.verificationStatus = "verified" ∧
      receipt.sandboxRunId ≠ none

theorem findingSummary_cites
    {s : HostedState} {row : ReviewFindingRow}
    (hcited : row.verified = true → row.sandboxRunId.isSome = true) :
    LabelCitesRun (findingSummary s row) := by
  intro hverified
  have hrow : row.verified = true := hverified
  have hrun := hcited hrow
  refine ⟨_, if_pos ?_, ?_, ?_⟩
  · simp only [hrow, Bool.true_or]
  · simp only [hrow, if_true]
  · exact Option.isSome_iff_ne_none.mp hrun

theorem reviewSummaryForJob_cites
    {s : HostedState} (hcited : RunsCited s) (row : ReviewJobRow) :
    ∀ finding ∈ (reviewSummaryForJob s row).findings, LabelCitesRun finding := by
  intro finding hfinding
  simp only [reviewSummaryForJob, orderByCreatedAt, List.mem_map] at hfinding
  obtain ⟨stored, hstored, rfl⟩ := hfinding
  have hmem := (List.perm_insertionSort _ _).mem_iff.mp hstored
  exact findingSummary_cites (hcited stored (List.mem_filter.mp hmem).1)

theorem reviewById_cites
    {s : HostedState} (hcited : RunsCited s)
    {assertion : LiveInstallationAssertion} {text : String} {review : ReviewSummary}
    (hreview : reviewById s assertion text = some review) :
    ∀ finding ∈ review.findings, LabelCitesRun finding := by
  unfold reviewById at hreview
  split at hreview
  · cases hreview
  · split at hreview
    · cases hreview
    · next row _ =>
        split at hreview
        · split at hreview
          · cases hreview
            exact reviewSummaryForJob_cites hcited row
          · cases hreview
        · cases hreview

theorem reviewsForRepository_cites
    {s : HostedState} (hcited : RunsCited s)
    {assertion : LiveInstallationAssertion} {i r : Int} {reviews : List ReviewSummary}
    (hreviews : reviewsForRepository s assertion i r = some reviews) :
    ∀ review ∈ reviews, ∀ finding ∈ review.findings, LabelCitesRun finding := by
  unfold reviewsForRepository at hreviews
  split at hreviews
  · cases hreviews
    intro review hreview
    obtain ⟨row, _, rfl⟩ := List.mem_map.mp hreview
    exact reviewSummaryForJob_cites hcited row
  · cases hreviews

/--
Every verified label that is read cites a sandbox run, in every run whose projections bring
the receipts; a projection that is rejected writes nothing.
-/
theorem verified_labels_cite_runs
    (hashRunnerCredential : String → String) (actions : List StoreAction)
    (hactions : ∀ a ∈ actions, a.CitesRuns) :
    (∀ assertion text review,
      reviewById (storeAfter hashRunnerCredential actions).hosted assertion text = some review →
        ∀ finding ∈ review.findings, LabelCitesRun finding) ∧
    (∀ assertion i r reviews,
      reviewsForRepository (storeAfter hashRunnerCredential actions).hosted assertion i r =
          some reviews →
        ∀ review ∈ reviews, ∀ finding ∈ review.findings, LabelCitesRun finding) ∧
    (∀ reviewJobId findings receipts e,
      projectReview (storeAfter hashRunnerCredential actions).hosted reviewJobId findings
          receipts = .error e →
        storeAfter hashRunnerCredential
            (actions ++ [.projectReview reviewJobId findings receipts]) =
          storeAfter hashRunnerCredential actions) := by
  have hcited : RunsCited (storeAfter hashRunnerCredential actions).hosted :=
    runsCited_storeAfter hactions
  refine ⟨?_, ?_, ?_⟩
  · intro assertion text review hreview
    exact reviewById_cites hcited hreview
  · intro assertion i r reviews hreviews
    exact reviewsForRepository_cites hcited hreviews
  · intro reviewJobId findings receipts e he
    rw [storeAfter, exec_append]
    simp only [exec_cons, exec_nil, hostedStoreStep]
    rw [storeAfter] at he
    rw [he]
    rfl

/-! ## A verified finding with and without its receipt -/

def provenFinding : Finding where
  id := "finding-44"
  reviewJobId := firstJobId.text
  concern := .correctness
  severity := .high
  category := "null-check"
  filePath := "widget_44.py"
  lineStart := 10
  lineEnd := 12
  title := "widget.value can be None"
  rationale := "It is read without a check on this path."
  evidence := ["widget_44.py:10"]
  confidence := .number (9 / 10) (by decide +kernel)
  verified := true
  verificationMethod := .sandbox
  publicSafe := true
  status := .posted
  texts_ne := by decide
  evidence_ne := by decide
  lines_ordered := by decide

def sandboxReceipt : ReceiptInput where
  findingId := "finding-44"
  reviewJobId := firstJobId.text
  promptVersionId := firstTraceId
  contextSources := []
  verified := true
  verificationReason := none
  sandboxRunId := some "run-44"
  commandId := some "command-44"
  verificationDetail := none

/-- A job whose review is projected with these receipts. -/
def projectedWith (receipts : List ReceiptInput) : List StoreAction :=
  installed ++ [pushOf withoutFindings, .projectReview firstJobId [provenFinding] receipts]

theorem proven_finding_cites_run :
    (reviewById (storeAfter sampleHash (projectedWith [sandboxReceipt])).hosted viewerOfEleven
      firstJobId.text).map (fun review => review.findings.map (·.verified)) = some [true] ∧
    ∀ review, reviewById (storeAfter sampleHash (projectedWith [sandboxReceipt])).hosted
        viewerOfEleven firstJobId.text = some review →
      ∀ finding ∈ review.findings, LabelCitesRun finding := by
  refine ⟨by decide +kernel, ?_⟩
  have hcites : Hosted.CitesRuns [provenFinding] [sandboxReceipt] := by
    intro finding hfinding _
    rw [List.mem_singleton] at hfinding
    subst hfinding
    exact ⟨sandboxReceipt, by decide, rfl⟩
  have hactions : ∀ a ∈ projectedWith [sandboxReceipt], a.CitesRuns := by
    intro a ha
    simp only [projectedWith, installed, List.cons_append, List.nil_append, List.mem_cons,
      List.not_mem_nil, or_false] at ha
    rcases ha with rfl | rfl | rfl
    · trivial
    · trivial
    · exact hcites
  intro review hreview
  exact (verified_labels_cite_runs sampleHash _ hactions).1 viewerOfEleven _ review hreview

/-- Without a receipt the finding is accepted, and displayed as verified without a run. -/
theorem verified_without_receipt :
    ∃ review finding,
      reviewById (storeAfter sampleHash (projectedWith [])).hosted viewerOfEleven
          firstJobId.text = some review ∧
        finding ∈ review.findings ∧ ¬ LabelCitesRun finding := by
  have hlabel : (reviewById (storeAfter sampleHash (projectedWith [])).hosted viewerOfEleven
      firstJobId.text).map (fun review =>
        review.findings.map (fun f => (f.verified, f.receipt.map (·.sandboxRunId)))) =
          some [(true, some none)] := by
    decide +kernel
  obtain ⟨review, hreview, hfindings⟩ := Option.map_eq_some_iff.mp hlabel
  obtain ⟨finding, hfinding, hshown⟩ : ∃ finding ∈ review.findings,
      (finding.verified, finding.receipt.map (·.sandboxRunId)) = (true, some none) := by
    rw [← List.mem_map, hfindings]
    exact List.mem_singleton_self _
  obtain ⟨hverified, hreceipt⟩ := Prod.mk.inj hshown
  refine ⟨review, finding, hreview, hfinding, ?_⟩
  intro hcites
  obtain ⟨receipt, hsome, _, hrun⟩ := hcites hverified
  rw [hsome, Option.map_some] at hreceipt
  exact hrun (Option.some.inj hreceipt)

end Hosted
end PrReviewer
