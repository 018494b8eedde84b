import PrReviewer.Hosted.ReviewRecords
import PrReviewer.Hosted.PushIsolation
import PrReviewer.Hosted.Pairing
import PrReviewer.Hosted.BudgetSafety

/-!
# Forgetting a repository

All hosted tables together, and `purge_hosted_repository`: four deletions in one
transaction.  The schema refers to the deleted rows from other tables.  Events, model
calls and findings of a job, and the assignment of a repository, refuse the deletion;
connector runs go with their job; and three columns name what was deleted without a
foreign key: the repositories of a pairing code, the job of a reservation, and the trace
of a connector run.
-/

namespace PrReviewer
namespace Hosted

open Lib

/-- The columns of `connector_runs` that say what the run was for. -/
structure ConnectorRunRow where
  reviewJobId : Option Uuid
  traceId : Uuid
deriving DecidableEq, Repr

/-- The hosted store with all its tables. -/
structure HostedStore extends PairingState where
  budgets : BudgetTables
  promptVersions : List Uuid
  connectorRuns : List ConnectorRunRow

def HostedStore.empty : HostedStore where
  toPairingState := .empty
  budgets := .empty
  promptVersions := []
  connectorRuns := []

/-! ## The purge -/

/-- `installation_id = %s and github_repository_id = %s`. -/
def RepositoryRow.ofRepository (row : RepositoryRow) (i r : Int) : Bool :=
  row.installationId = i ∧ row.githubRepositoryId = r

namespace HostedStore

variable (s : HostedStore) (i r : Int)

/-- The id of a review job of the repository. -/
def jobOf (jobId : Uuid) : Bool :=
  (s.hosted.reviewJobs.find? jobId).any (fun row => row.ofRepository i r)

/-- The id of a row of the repository. -/
def repositoryOf (repositoryId : Uuid) : Bool :=
  (s.hosted.repositories.find? repositoryId).any (fun row => row.ofRepository i r)

/-- The trace of a review job of the repository. -/
def traceOf (traceId : Uuid) : Bool :=
  s.hosted.reviewJobs.rows.any (fun row => row.ofRepository i r ∧ row.traceId = some traceId)

/-- A row of `agent_events`, `model_calls` or `review_findings` refers to a job of it. -/
def hasRecords : Bool :=
  s.hosted.agentEvents.any (fun row => s.jobOf i r row.reviewJobId) ||
    s.hosted.modelCalls.rows.any (fun row => s.jobOf i r row.reviewJobId) ||
    s.hosted.reviewFindings.rows.any (fun row => s.jobOf i r row.reviewJobId)

/-- A row of `repository_assignments` refers to it. -/
def isAssigned : Bool :=
  s.hosted.repositoryAssignments.rows.any (fun row => s.repositoryOf i r row.repositoryId)

/-- `delete from repository_budget_reservations`. -/
def deleteReservations : HostedStore :=
  { s with
    budgets :=
      { s.budgets with
        repositoryBudgetReservations :=
          s.budgets.repositoryBudgetReservations.deleteWhere (fun row =>
            row.repository = (i, r)) } }

/-- `delete from review_jobs`; `connector_runs` is declared `on delete cascade`. -/
def deleteReviewJobs : Except HostedError HostedStore :=
  if s.hasRecords i r then
    .error .foreignKeyViolation
  else
    .ok
      { s with
        hosted :=
          { s.hosted with
            reviewJobs := s.hosted.reviewJobs.deleteWhere (fun row => row.ofRepository i r) }
        connectorRuns := s.connectorRuns.filter (fun run => !run.reviewJobId.any (s.jobOf i r)) }

/-- `delete from repository_budgets`. -/
def deleteBudget : HostedStore :=
  { s with
    budgets :=
      { s.budgets with
        repositoryBudgets :=
          s.budgets.repositoryBudgets.deleteWhere (fun b => b.repository = (i, r)) } }

/-- `delete from repositories`. -/
def deleteRepository : Except HostedError HostedStore :=
  if s.isAssigned i r then
    .error .foreignKeyViolation
  else
    .ok
      { s with
        hosted :=
          { s.hosted with
            repositories := s.hosted.repositories.deleteWhere (fun row => row.ofRepository i r) } }

end HostedStore

/-- `purge_hosted_repository`. -/
def purgeHostedRepository (s : HostedStore) (i r : Int) : Except HostedError HostedStore := do
  let s₁ ← (s.deleteReservations i r).deleteReviewJobs i r
  (s₁.deleteBudget i r).deleteRepository i r

/-! ## Runs of the whole plane -/

inductive StoreAction where
  | pairing (a : PairingAction)
  | budget (call : BudgetCall)
  | recordModelCall (drawnId : Uuid) (input : ModelCallInput)
  | projectReview (reviewJobId : Uuid) (findings : List Finding) (receipts : List ReceiptInput)
  | recordConnectorRun (run : ConnectorRunRow)
  | insertPromptVersion (id : Uuid)
  | purgeHostedRepository (i r : Int)

/-- `record_connector_run`. -/
def recordConnectorRun (s : HostedStore) (run : ConnectorRunRow) :
    Except HostedError HostedStore :=
  if run.reviewJobId.all (fun jobId => (s.hosted.reviewJobs.find? jobId).isSome) then
    .ok { s with connectorRuns := s.connectorRuns ++ [run] }
  else
    .error .foreignKeyViolation

/-- The state after a transaction on all the tables. -/
def HostedStore.commit (s : HostedStore) : Except HostedError HostedStore → HostedStore
  | .ok s' => s'
  | .error _ => s

section Machine

variable (hashRunnerCredential : String → String)

/-- One step of the whole plane. -/
def hostedStoreStep (s : HostedStore) : StoreAction → HostedStore
  | .pairing a =>
      { s with toPairingState := pairingStep hashRunnerCredential s.toPairingState a }
  | .budget call =>
      { s with
        budgets :=
          ((budgetStatements (fun id => (s.hosted.installations.find? id).isSome)).runAlone
            s.budgets call).2 }
  | .recordModelCall drawnId input =>
      { s with
        hosted := s.hosted.commit (recordModelCall s.promptVersions s.hosted drawnId input) }
  | .projectReview reviewJobId findings receipts =>
      { s with hosted := s.hosted.commit (projectReview s.hosted reviewJobId findings receipts) }
  | .recordConnectorRun run => s.commit (recordConnectorRun s run)
  | .insertPromptVersion id => { s with promptVersions := id :: s.promptVersions }
  | .purgeHostedRepository i r => s.commit (Hosted.purgeHostedRepository s i r)

/-- The tables after a run from the empty store. -/
def storeAfter (actions : List StoreAction) : HostedStore :=
  exec (hostedStoreStep hashRunnerCredential) .empty actions

end Machine

/-! ## What the purge has to do -/

/-- No row of a hosted table refers to the repository or to one of its review jobs. -/
structure Forgets (s s' : HostedStore) (i r : Int) : Prop where
  repositories : ∀ row ∈ s'.hosted.repositories.rows, row.ofRepository i r = false
  repositoryAssignments : ∀ row ∈ s'.hosted.repositoryAssignments.rows,
    s.repositoryOf i r row.repositoryId = false
  pairingCodes : ∀ row ∈ s'.pairingCodes.rows, ∀ approval ∈ row.approval,
    ∀ repositoryId ∈ approval.repositoryIds, s.repositoryOf i r repositoryId = false
  repositoryBudgets : ∀ b ∈ s'.budgets.repositoryBudgets.rows, b.repository ≠ (i, r)
  reservations : ∀ row ∈ s'.budgets.repositoryBudgetReservations.rows,
    row.repository ≠ (i, r) ∧ s.jobOf i r row.jobId = false
  reviewJobs : ∀ row ∈ s'.hosted.reviewJobs.rows, row.ofRepository i r = false
  agentEvents : ∀ row ∈ s'.hosted.agentEvents, s.jobOf i r row.reviewJobId = false
  modelCalls : ∀ row ∈ s'.hosted.modelCalls.rows, s.jobOf i r row.reviewJobId = false
  reviewFindings : ∀ row ∈ s'.hosted.reviewFindings.rows, s.jobOf i r row.reviewJobId = false
  findingContextSources : ∀ row ∈ s'.hosted.findingContextSources,
    ∀ finding ∈ s.hosted.reviewFindings.find? row.findingId,
      s.jobOf i r finding.reviewJobId = false
  connectorRuns : ∀ run ∈ s'.connectorRuns,
    run.reviewJobId.any (s.jobOf i r) = false ∧ s.traceOf i r run.traceId = false

/-- Every row that belongs to another repository or installation is unchanged. -/
structure KeepsOthers (s s' : HostedStore) (i r : Int) : Prop where
  installations : s'.hosted.installations = s.hosted.installations
  runners : s'.hosted.runners = s.hosted.runners
  repositoryAssignments : s'.hosted.repositoryAssignments = s.hosted.repositoryAssignments
  githubDeliveries : s'.hosted.githubDeliveries = s.hosted.githubDeliveries
  agentEvents : s'.hosted.agentEvents = s.hosted.agentEvents
  modelCalls : s'.hosted.modelCalls = s.hosted.modelCalls
  reviewFindings : s'.hosted.reviewFindings = s.hosted.reviewFindings
  findingContextSources : s'.hosted.findingContextSources = s.hosted.findingContextSources
  pairingCodes : s'.pairingCodes = s.pairingCodes
  promptVersions : s'.promptVersions = s.promptVersions
  repositories : s'.hosted.repositories.rows.filter (fun row => !row.ofRepository i r) =
    s.hosted.repositories.rows.filter (fun row => !row.ofRepository i r)
  reviewJobs : s'.hosted.reviewJobs.rows.filter (fun row => !row.ofRepository i r) =
    s.hosted.reviewJobs.rows.filter (fun row => !row.ofRepository i r)
  repositoryBudgets : s'.budgets.repositoryBudgets.rows.filter (·.repository ≠ (i, r)) =
    s.budgets.repositoryBudgets.rows.filter (·.repository ≠ (i, r))
  reservations :
    s'.budgets.repositoryBudgetReservations.rows.filter (·.repository ≠ (i, r)) =
      s.budgets.repositoryBudgetReservations.rows.filter (·.repository ≠ (i, r))
  connectorRuns : s'.connectorRuns.filter (fun run => !run.reviewJobId.any (s.jobOf i r)) =
    s.connectorRuns.filter (fun run => !run.reviewJobId.any (s.jobOf i r))

/-- The purge succeeds, is complete, and is confined to the repository. -/
def PurgeForgets (s : HostedStore) (i r : Int) : Prop :=
  ∃ s', purgeHostedRepository s i r = .ok s' ∧ Forgets s s' i r ∧ KeepsOthers s s' i r

/-- Nothing outside the four tables of the purge refers to the repository or its jobs. -/
def purgeable (s : HostedStore) (i r : Int) : Bool :=
  !s.hasRecords i r && !s.isAssigned i r &&
    s.pairingCodes.rows.all (fun row => row.approval.all (fun approval =>
      approval.repositoryIds.all (fun repositoryId => !s.repositoryOf i r repositoryId))) &&
    s.budgets.repositoryBudgetReservations.rows.all (fun row =>
      row.repository = (i, r) || !s.jobOf i r row.jobId) &&
    s.connectorRuns.all (fun run =>
      run.reviewJobId.any (s.jobOf i r) || !s.traceOf i r run.traceId)

section Purge

variable {s : HostedStore} {i r : Int}

/-- The tables a purge that succeeds leaves behind. -/
def purged (s : HostedStore) (i r : Int) : HostedStore :=
  { s with
    hosted :=
      { s.hosted with
        reviewJobs := s.hosted.reviewJobs.deleteWhere (fun row => row.ofRepository i r)
        repositories := s.hosted.repositories.deleteWhere (fun row => row.ofRepository i r) }
    budgets :=
      { repositoryBudgets :=
          s.budgets.repositoryBudgets.deleteWhere (fun b => b.repository = (i, r))
        repositoryBudgetReservations :=
          s.budgets.repositoryBudgetReservations.deleteWhere (fun row =>
            row.repository = (i, r)) }
    connectorRuns := s.connectorRuns.filter (fun run => !run.reviewJobId.any (s.jobOf i r)) }

/-- The foreign keys are all that can refuse a purge. -/
theorem purgeHostedRepository_eq
    (s : HostedStore) (i r : Int) :
    purgeHostedRepository s i r =
      if s.hasRecords i r || s.isAssigned i r then
        .error .foreignKeyViolation
      else
        .ok (purged s i r) := by
  have hrecords : (s.deleteReservations i r).hasRecords i r = s.hasRecords i r := rfl
  unfold purgeHostedRepository HostedStore.deleteReviewJobs
  rw [hrecords]
  cases s.hasRecords i r with
  | true => rfl
  | false =>
      simp only [Bool.false_eq_true, if_false, Bool.false_or]
      change HostedStore.deleteRepository _ i r = _
      unfold HostedStore.deleteRepository
      -- the assignments and the repositories are still those of the start
      change (if s.isAssigned i r then _ else _) = _
      cases s.isAssigned i r with
      | true => rfl
      | false => rfl

theorem keepsOthers_purged
    (s : HostedStore) (i r : Int) :
    KeepsOthers s (purged s i r) i r where
  installations := rfl
  runners := rfl
  repositoryAssignments := rfl
  githubDeliveries := rfl
  agentEvents := rfl
  modelCalls := rfl
  reviewFindings := rfl
  findingContextSources := rfl
  pairingCodes := rfl
  promptVersions := rfl
  repositories := Table.filter_deleteWhere s.hosted.repositories _
  reviewJobs := Table.filter_deleteWhere s.hosted.reviewJobs _
  repositoryBudgets := by
    have hkept := Table.filter_deleteWhere s.budgets.repositoryBudgets
      (fun b => decide (b.repository = (i, r)))
    simpa [purged] using hkept
  reservations := by
    have hkept := Table.filter_deleteWhere s.budgets.repositoryBudgetReservations
      (fun row => decide (row.repository = (i, r)))
    simpa [purged] using hkept
  connectorRuns := by
    simp [purged, List.filter_filter]

theorem hasRecords_eq_false_iff :
    s.hasRecords i r = false ↔
      (∀ row ∈ s.hosted.agentEvents, s.jobOf i r row.reviewJobId = false) ∧
      (∀ row ∈ s.hosted.modelCalls.rows, s.jobOf i r row.reviewJobId = false) ∧
      ∀ row ∈ s.hosted.reviewFindings.rows, s.jobOf i r row.reviewJobId = false := by
  simp [HostedStore.hasRecords, and_assoc]

/-- The columns without a foreign key name neither the repository nor one of its jobs. -/
structure Unnamed (s : HostedStore) (i r : Int) : Prop where
  pairingCodes : ∀ row ∈ s.pairingCodes.rows, ∀ approval ∈ row.approval,
    ∀ repositoryId ∈ approval.repositoryIds, s.repositoryOf i r repositoryId = false
  reservations : ∀ row ∈ s.budgets.repositoryBudgetReservations.rows,
    row.repository ≠ (i, r) → s.jobOf i r row.jobId = false
  connectorRuns : ∀ run ∈ s.connectorRuns, run.reviewJobId.any (s.jobOf i r) = false →
    s.traceOf i r run.traceId = false

theorem purgeable_iff :
    purgeable s i r = true ↔
      s.hasRecords i r = false ∧ s.isAssigned i r = false ∧ Unnamed s i r := by
  constructor
  · intro h
    simp only [purgeable, Bool.and_eq_true, Bool.not_eq_true', List.all_eq_true,
      Option.all_eq_true, Bool.or_eq_true, decide_eq_true_eq] at h
    obtain ⟨⟨⟨⟨hrecords, hassigned⟩, hcodes⟩, hreservations⟩, hruns⟩ := h
    refine ⟨hrecords, hassigned, ?_, ?_, ?_⟩
    · intro row hrow approval happroval
      exact hcodes row hrow approval happroval
    · intro row hrow hne
      exact (hreservations row hrow).resolve_left hne
    · intro run hrun hno
      exact (hruns run hrun).resolve_left (by simp [hno])
  · rintro ⟨hrecords, hassigned, hunnamed⟩
    simp only [purgeable, Bool.and_eq_true, Bool.not_eq_true', List.all_eq_true,
      Option.all_eq_true, Bool.or_eq_true, decide_eq_true_eq]
    refine ⟨⟨⟨⟨hrecords, hassigned⟩, ?_⟩, ?_⟩, ?_⟩
    · intro row hrow approval happroval
      exact hunnamed.pairingCodes row hrow approval happroval
    · intro row hrow
      exact or_iff_not_imp_left.mpr (hunnamed.reservations row hrow)
    · intro run hrun
      refine or_iff_not_imp_left.mpr ?_
      intro hno
      exact hunnamed.connectorRuns run hrun (by simpa using hno)

/-- What a purge leaves is forgotten if nothing else named it. -/
theorem forgets_purged
    (hrecords : s.hasRecords i r = false)
    (hassigned : s.isAssigned i r = false)
    (hunnamed : Unnamed s i r) :
    Forgets s (purged s i r) i r := by
  obtain ⟨hevents, hcalls, hfindings⟩ := hasRecords_eq_false_iff.mp hrecords
  refine
    { repositories := ?_, repositoryAssignments := ?_, pairingCodes := hunnamed.pairingCodes,
      repositoryBudgets := ?_, reservations := ?_, reviewJobs := ?_, agentEvents := hevents,
      modelCalls := hcalls, reviewFindings := hfindings, findingContextSources := ?_,
      connectorRuns := ?_ }
  · intro row hrow
    exact (Table.mem_deleteWhere.mp hrow).2
  · intro row hrow
    simp only [HostedStore.isAssigned, List.any_eq_false, Bool.not_eq_true] at hassigned
    exact hassigned row hrow
  · intro b hb
    simpa using (Table.mem_deleteWhere.mp hb).2
  · intro row hrow
    obtain ⟨hmem, hne⟩ := Table.mem_deleteWhere.mp hrow
    have hother : row.repository ≠ (i, r) := by simpa using hne
    exact ⟨hother, hunnamed.reservations row hmem hother⟩
  · intro row hrow
    exact (Table.mem_deleteWhere.mp hrow).2
  · intro row _ finding hfinding
    exact hfindings finding (Table.mem_of_find? hfinding)
  · intro run hrun
    obtain ⟨hmem, hno⟩ := List.mem_filter.mp hrun
    have hjob : run.reviewJobId.any (s.jobOf i r) = false := by simpa using hno
    exact ⟨hjob, hunnamed.connectorRuns run hmem hjob⟩

theorem unnamed_of_forgets
    (h : Forgets s (purged s i r) i r) :
    Unnamed s i r := by
  refine ⟨h.pairingCodes, ?_, ?_⟩
  · intro row hrow hother
    exact (h.reservations row (Table.mem_deleteWhere.mpr ⟨hrow, by simpa using hother⟩)).2
  · intro run hrun hjob
    exact (h.connectorRuns run (List.mem_filter.mpr ⟨hrun, by simp [hjob]⟩)).2

theorem purgeForgets_iff :
    PurgeForgets s i r ↔ purgeable s i r = true := by
  rw [purgeable_iff]
  unfold PurgeForgets
  rw [purgeHostedRepository_eq]
  constructor
  · rintro ⟨s', hpurge, hforgets, _⟩
    split at hpurge
    · cases hpurge
    · next hfree =>
        obtain rfl := Except.ok.inj hpurge
        rw [Bool.not_eq_true, Bool.or_eq_false_iff] at hfree
        exact ⟨hfree.1, hfree.2, unnamed_of_forgets hforgets⟩
  · rintro ⟨hrecords, hassigned, hunnamed⟩
    refine ⟨purged s i r, ?_, forgets_purged hrecords hassigned hunnamed,
      keepsOthers_purged s i r⟩
    simp [hrecords, hassigned]

end Purge

/--
In every state the hosted plane can reach, `purge_hosted_repository` succeeds, leaves no
row that refers to the repository or its jobs, and leaves every other row alone, if and
only if the jobs have no event, model call or finding, the repository is not assigned, and
no pairing code, other repository's reservation or stray connector run names them.
-/
theorem purge_forgets_iff
    (hashRunnerCredential : String → String) (actions : List StoreAction) (i r : Int) :
    PurgeForgets (storeAfter hashRunnerCredential actions) i r ↔
      purgeable (storeAfter hashRunnerCredential actions) i r = true :=
  purgeForgets_iff

/-- A review that a worker claimed and that failed once. -/
def failedReview : List StoreAction :=
  [.pairing (.elsewhere (.registerInstallation 1 "acme-labs") rfl),
    .pairing (.elsewhere
      (.registerRepository ⟨"bbbbbbbb-0000-4000-8000-0000000000d9", by decide⟩ 1 11
        "acme-labs/web") rfl),
    .pairing (.elsewhere (enqueueHead "delivery-d9" firstJobId "head-1" firstHead_ne) rfl),
    .pairing (.elsewhere (.claimReviewJob "worker-d9" firstJobId) rfl),
    .pairing (.elsewhere (.failReviewJob firstJobId "worker-d9" .workerCrashed) rfl)]

/-- The event of the failure refers to the job, so that the repository cannot be purged. -/
theorem failed_review_not_purged :
    (purgeHostedRepository (storeAfter sampleHash failedReview) 1 11).map (fun _ => ()) =
      .error .foreignKeyViolation ∧
    ¬ PurgeForgets (storeAfter sampleHash failedReview) 1 11 := by
  have hrefused : (purgeHostedRepository (storeAfter sampleHash failedReview) 1 11).map
      (fun _ => ()) = .error .foreignKeyViolation := by
    decide
  refine ⟨hrefused, ?_⟩
  rintro ⟨s', hpurge, _⟩
  rw [hpurge] at hrefused
  cases hrefused

end Hosted
end PrReviewer
