import PrReviewer.Hosted.ActiveJobs

/-!
# Isolation of the summary push

The route authorizes the runner for the installation and the repository that the
body names, and then writes to the row that the body's job id names.  The two are
the same tenant only when that id is free or its row already belongs to the named
repository; in that case, and only then, an accepted push leaves the jobs, the
findings and the views of every other repository alone.
-/

namespace PrReviewer
namespace Hosted

open Lib

/-- The row belongs to this repository of this installation. -/
def ReviewJobRow.ofRepository
    (row : ReviewJobRow) (installationId githubRepositoryId : Int) : Bool :=
  row.installationId = some installationId ∧
    row.githubRepositoryId = some githubRepositoryId

/-- The job a viewer reaches by this text belongs to the repository. -/
def reachesRepository
    (s : HostedState) (reviewJobId : String) (installationId githubRepositoryId : Int) : Prop :=
  ∃ parsedId row, Uuid.parse? reviewJobId = some parsedId ∧
    s.reviewJobs.find? parsedId = some row ∧
    row.ofRepository installationId githubRepositoryId = true

/-- Nothing of any other repository differs between the two states. -/
structure LeavesOthersAlone
    (s s' : HostedState) (installationId githubRepositoryId : Int) : Prop where
  jobs :
    ∀ j row, s.reviewJobs.find? j = some row →
      row.ofRepository installationId githubRepositoryId = false →
      s'.reviewJobs.find? j = some row
  findings :
    ∀ j row, s.reviewJobs.find? j = some row →
      row.ofRepository installationId githubRepositoryId = false →
      findingsOf s' j = findingsOf s j
  reviewsForRepository :
    ∀ assertion i r, (i, r) ≠ (installationId, githubRepositoryId) →
      reviewsForRepository s' assertion i r = reviewsForRepository s assertion i r
  reviewById :
    ∀ assertion reviewJobId summary,
      reviewById s assertion reviewJobId = some summary →
      ¬ reachesRepository s reviewJobId installationId githubRepositoryId →
      reviewById s' assertion reviewJobId = some summary

/-- The row the body's job id names, if there is one, belongs to the body's repository. -/
def ownsTarget (s : HostedState) (body : PushedReviewSummaryBody) : Prop :=
  ∀ row, s.reviewJobs.find? body.reviewJobId = some row →
    row.ofRepository body.installationId body.githubRepositoryId = true

theorem ofRepository_eq_true
    {row : ReviewJobRow} {i r : Int} :
    row.ofRepository i r = true ↔
      row.installationId = some i ∧ row.githubRepositoryId = some r := by
  simp only [ReviewJobRow.ofRepository, decide_eq_true_eq]

/-- A written row belongs to the body's repository and to no other. -/
theorem overwrittenBy_ofRepository
    (row : ReviewJobRow) (body : PushedReviewSummaryBody) (now : Nat) (i r : Int) :
    (row.overwrittenBy body now).ofRepository i r =
      decide ((i, r) = (body.installationId, body.githubRepositoryId)) := by
  unfold ReviewJobRow.ofRepository ReviewJobRow.overwrittenBy
  simp only [Option.some.injEq, Prod.mk.injEq]
  rw [decide_eq_decide]
  constructor
  · rintro ⟨hi, hr⟩
    exact ⟨hi.symm, hr.symm⟩
  · rintro ⟨hi, hr⟩
    exact ⟨hi.symm, hr.symm⟩

/-- The findings of a push are attached to its job; those of other jobs stay. -/
theorem insertPushedFindings_filter
    (body : PushedReviewSummaryBody) (now : Nat) (findings : List (PushedFindingBody × Nat))
    (stored : Table ReviewFindingRow.id) {j : Uuid}
    (hj : j ≠ body.reviewJobId) :
    (insertPushedFindings body now findings stored).rows.filter
        (fun f => decide (f.reviewJobId = j)) =
      stored.rows.filter (fun f => decide (f.reviewJobId = j)) := by
  induction findings generalizing stored with
  | nil =>
      rfl
  | cons entry rest ih =>
      obtain ⟨finding, index⟩ := entry
      simp only [insertPushedFindings]
      rw [ih]
      cases hinsert : stored.insert? (pushedFindingRow body finding index now) with
      | none =>
          rfl
      | some stored' =>
          rw [Option.getD_some]
          apply Table.filter_rows_insert? hinsert
          rw [decide_eq_false_iff_not]
          intro hsame
          exact hj hsame.symm

theorem recordedSummary_findingsOf
    (s : HostedState) (body : PushedReviewSummaryBody) {j : Uuid}
    (hj : j ≠ body.reviewJobId) :
    findingsOf (recordedSummary s body) j = findingsOf s j :=
  insertPushedFindings_filter body s.now body.findings.zipIdx s.reviewFindings hj

/-- The rows of another repository, when the written row is none of them. -/
theorem recordedSummary_rows_filter
    {s : HostedState} {body : PushedReviewSummaryBody} {i r : Int}
    (howns : ownsTarget s body)
    (hother : (i, r) ≠ (body.installationId, body.githubRepositoryId)) :
    (recordedSummary s body).reviewJobs.rows.filter (fun row => row.ofRepository i r) =
      s.reviewJobs.rows.filter (fun row => row.ofRepository i r) := by
  have hwritten : ∀ row : ReviewJobRow, ∀ now,
      (row.overwrittenBy body now).ofRepository i r = false := by
    intro row now
    rw [overwrittenBy_ofRepository, decide_eq_false_iff_not]
    exact hother
  unfold recordedSummary
  simp only
  cases hinsert : s.reviewJobs.insert? (pushedRow body s.now) with
  | some reviewJobs =>
      rw [Option.getD_some]
      exact Table.filter_rows_insert? hinsert _ (hwritten _ _)
  | none =>
      rw [Option.getD_none]
      apply Table.filter_rows_alter
      intro row hrow
      refine ⟨?_, hwritten row s.now⟩
      obtain ⟨hi, hr⟩ := ofRepository_eq_true.mp (howns row hrow)
      rw [Bool.eq_false_iff]
      intro hrepository
      obtain ⟨hi', hr'⟩ := ofRepository_eq_true.mp hrepository
      rw [hi] at hi'
      rw [hr] at hr'
      cases hi'
      cases hr'
      exact hother rfl

/-- A summary is read off its row, its findings and two tables no push writes. -/
theorem reviewSummaryForJob_recorded
    (s : HostedState) (body : PushedReviewSummaryBody) {row : ReviewJobRow}
    (hrow : row.id ≠ body.reviewJobId) :
    reviewSummaryForJob (recordedSummary s body) row = reviewSummaryForJob s row := by
  unfold reviewSummaryForJob
  rw [recordedSummary_findingsOf s body hrow]
  rfl

/-- A write to a row of the body's own repository leaves the others alone. -/
theorem recordedSummary_leavesOthersAlone
    {s : HostedState} {body : PushedReviewSummaryBody}
    (howns : ownsTarget s body) :
    LeavesOthersAlone s (recordedSummary s body)
      body.installationId body.githubRepositoryId := by
  have hne : ∀ j row, s.reviewJobs.find? j = some row →
      row.ofRepository body.installationId body.githubRepositoryId = false →
      j ≠ body.reviewJobId := by
    rintro j row hrow hother rfl
    rw [howns row hrow] at hother
    cases hother
  refine ⟨?_, ?_, ?_, ?_⟩
  · intro j row hrow hother
    rw [recordedSummary_find?, if_neg (hne j row hrow hother)]
    exact hrow
  · intro j row hrow hother
    exact recordedSummary_findingsOf s body (hne j row hrow hother)
  · intro assertion i r hother
    unfold reviewsForRepository
    split
    · have hrows := recordedSummary_rows_filter howns hother
      simp only [ReviewJobRow.ofRepository] at hrows
      rw [hrows]
      congr 1
      apply List.map_congr_left
      intro row hmem
      apply reviewSummaryForJob_recorded
      have hmem : row ∈ s.reviewJobs.rows.filter (fun row => row.ofRepository i r) :=
        (List.perm_insertionSort _ _).mem_iff.mp hmem
      rw [List.mem_filter] at hmem
      have hrow := Table.find?_of_mem hmem.1
      apply hne row.id row hrow
      rw [Bool.eq_false_iff]
      intro hrepository
      obtain ⟨hi, hr⟩ := ofRepository_eq_true.mp hrepository
      obtain ⟨hi', hr'⟩ := ofRepository_eq_true.mp hmem.2
      rw [hi] at hi'
      rw [hr] at hr'
      cases hi'
      cases hr'
      exact hother rfl
    · rfl
  · intro assertion reviewJobId summary hsummary hother
    unfold reviewById at hsummary ⊢
    split at hsummary
    · cases hsummary
    · next parsedId hparse =>
        split at hsummary
        · cases hsummary
        · next row hrow =>
            have hforeign :
                row.ofRepository body.installationId body.githubRepositoryId = false := by
              rw [Bool.eq_false_iff]
              intro hrepository
              exact hother ⟨parsedId, row, hparse, hrow, hrepository⟩
            have hj := hne parsedId row hrow hforeign
            have hid : row.id = parsedId := Table.key_of_find? hrow
            have hafter :
                (recordedSummary s body).reviewJobs.find? parsedId = some row := by
              rw [recordedSummary_find?, if_neg hj]
              exact hrow
            simp only [hafter]
            rw [reviewSummaryForJob_recorded s body (by rw [hid]; exact hj)]
            exact hsummary

/-- A write to a row of another repository takes that row away from it. -/
theorem recordedSummary_takes_foreign
    {s : HostedState} {body : PushedReviewSummaryBody}
    (h : LeavesOthersAlone s (recordedSummary s body)
      body.installationId body.githubRepositoryId) :
    ownsTarget s body := by
  intro row hrow
  by_contra hne
  have hforeign : row.ofRepository body.installationId body.githubRepositoryId = false := by
    simpa using hne
  have hkept := h.jobs body.reviewJobId row hrow hforeign
  rw [recordedSummary_find?, if_pos rfl, hrow] at hkept
  have hsame : row.overwrittenBy body s.now = row := Option.some.inj hkept
  have hwritten :=
    overwrittenBy_ofRepository row body s.now body.installationId body.githubRepositoryId
  rw [hsame, hforeign] at hwritten
  simp at hwritten

/-- The schema refuses what the push would write. -/
theorem leavesOthersAlone_refl
    (s : HostedState) (i r : Int) :
    LeavesOthersAlone s s i r := by
  refine ⟨?_, ?_, ?_, ?_⟩
  · intro j row hrow _
    exact hrow
  · intro j row _ _
    rfl
  · intro assertion i' r' _
    rfl
  · intro assertion reviewJobId summary hsummary _
    exact hsummary

/--
**Isolation of the push.**  In every state, for every runner that authenticates
and is granted the body's repository, the push leaves everything of every other
repository alone exactly when the schema refuses the body, or its job id is free,
or the row under that id belongs to the body's repository.
-/
theorem push_leavesOthersAlone_iff
    {hashRunnerCredential : String → String}
    (s : HostedState)
    (bearer : Option String)
    (body : PushedReviewSummaryBody)
    (runner : AuthenticatedRunner)
    (authorization : RepositoryAuthorization)
    (hauthenticated : authenticateBearer hashRunnerCredential s bearer = .ok runner)
    (hauthorized :
      authorizeRepository s body.installationId body.githubRepositoryId runner.runnerId =
        .ok authorization) :
    LeavesOthersAlone s
        (step hashRunnerCredential s (.pushReviewSummary bearer body))
        body.installationId body.githubRepositoryId ↔
      body.writable s = false ∨ ownsTarget s body := by
  by_cases hwritable : body.writable s = true
  · have hwrites :
        (HostedAction.pushReviewSummary bearer body).writesSummary hashRunnerCredential s =
          some body := by
      simp only [HostedAction.writesSummary, hauthenticated, hauthorized, hwritable, if_true]
    rw [step_writesSummary s _ body hwrites]
    constructor
    · intro halone
      exact .inr (recordedSummary_takes_foreign halone)
    · rintro (hrefused | howns)
      · rw [hwritable] at hrefused
        cases hrefused
      · exact recordedSummary_leavesOthersAlone howns
  · have hrefuses :
        (HostedAction.pushReviewSummary bearer body).writesSummary hashRunnerCredential s =
          none := by
      simp only [HostedAction.writesSummary, hauthenticated, hauthorized, if_neg hwritable]
    rw [pushReviewSummary_step_refused s bearer body hrefuses]
    constructor
    · intro _
      exact .inl (by simpa using hwritable)
    · intro _
      exact leavesOthersAlone_refl s _ _

/-- A job of the laptop's own repository. -/
def ownJobEnqueued : HostedState :=
  exec (step sampleHash) HostedState.empty
    (pairLaptop ++ [enqueueHead "delivery-1" firstJobId "head-1" firstHead_ne])

theorem push_own_job_leavesOthersAlone :
    LeavesOthersAlone ownJobEnqueued
      (step sampleHash ownJobEnqueued
        (.pushReviewSummary (some "laptop-credential") summaryOfFirstJob)) 1 11 := by
  have howns :
      (ownJobEnqueued.reviewJobs.find? firstJobId).all (fun row => row.ofRepository 1 11) =
        true := by
    decide
  refine (push_leavesOthersAlone_iff ownJobEnqueued (some "laptop-credential")
    summaryOfFirstJob laptopRunner _ rfl rfl).mpr (.inr ?_)
  intro row hrow
  have hrow : ownJobEnqueued.reviewJobs.find? firstJobId = some row := hrow
  rw [hrow] at howns
  exact howns

/-- A job of another installation, beside the laptop's own pairing. -/
def foreignJobEnqueued : HostedState :=
  exec (step sampleHash) HostedState.empty
    (pairLaptop ++
      [.registerInstallation 2 "globex",
        .registerRepository ⟨"bbbbbbbb-0000-4000-8000-000000000002", by decide⟩ 2 22
          "globex/api",
        .enqueueReviewJob "delivery-1" "pull_request"
          (some
            { installationId := 2
              githubRepositoryId := 22
              pullRequestNumber := 3
              baseSha := "globex-base"
              headSha := "secret-head"
              pullRequestNumber_pos := by decide
              baseSha_ne := by decide
              headSha_ne := by decide })
          firstJobId firstTraceId])

/-- The laptop's push, authorized for its own repository, takes the foreign job away. -/
theorem push_takes_foreign_job :
    authenticateBearer sampleHash foreignJobEnqueued (some "laptop-credential") =
        .ok laptopRunner ∧
      (authorizeRepository foreignJobEnqueued summaryOfFirstJob.installationId
        summaryOfFirstJob.githubRepositoryId laptopRunner.runnerId).isOk = true ∧
      ¬ LeavesOthersAlone foreignJobEnqueued
          (step sampleHash foreignJobEnqueued
            (.pushReviewSummary (some "laptop-credential") summaryOfFirstJob))
          summaryOfFirstJob.installationId summaryOfFirstJob.githubRepositoryId := by
  refine ⟨rfl, rfl, ?_⟩
  intro halone
  have hbefore :
      (foreignJobEnqueued.reviewJobs.find? firstJobId).map
          (fun row => (row.ofRepository 1 11, row.installationId)) =
        some (false, some 2) := by
    decide
  have hafter :
      ((step sampleHash foreignJobEnqueued
          (.pushReviewSummary (some "laptop-credential")
            summaryOfFirstJob)).reviewJobs.find? firstJobId).map
        ReviewJobRow.installationId = some (some 1) := by
    decide
  obtain ⟨row, hrow, hfacts⟩ := Option.map_eq_some_iff.mp hbefore
  obtain ⟨hforeign, hinstallation⟩ := Prod.mk.inj hfacts
  have hkept := halone.jobs firstJobId row hrow hforeign
  rw [hkept, Option.map_some, hinstallation] at hafter
  exact absurd hafter (by decide)

end Hosted
end PrReviewer
