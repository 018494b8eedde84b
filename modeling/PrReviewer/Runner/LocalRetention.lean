import PrReviewer.Runner.LocalDatabase
import PrReviewer.Lib.Run

/-!
# Forgetting a repository on the runner

`purge_repository` deletes, job by job, what carries the id of the job.  A row can belong
to a job in other ways: an event by its trace alone, a workflow run by its job or its
trace, a workflow step by its run.  The later migrations added the workflow tables, and
the purge does not know them.
-/

namespace PrReviewer
namespace Runner

open Lib

/-! ## The rows of a repository -/

namespace LocalDatabase

variable {codec : Codec} (db : LocalDatabase codec) (repositoryId : Int)

/-- The text is the id of a job of the repository. -/
def jobOf (jobId : String) : Bool :=
  (db.jobIdsOf repositoryId).any (fun id => id.text = jobId)

/-- The text is the trace of a job of the repository. -/
def traceOf (traceId : String) : Bool :=
  db.jobs.rows.any (fun job =>
    job.envelope.repositoryId = repositoryId ∧ job.envelope.traceId.text = traceId)

/-- The text is the id of a finding of a job of the repository. -/
def findingOf (findingId : String) : Bool :=
  db.findings.rows.any (fun row => row.id = findingId ∧ db.jobOf repositoryId row.jobId)

/-- The event belongs to a job of the repository, by its job or by its trace. -/
def eventOf (event : LocalEvent) : Bool :=
  event.jobId.any (db.jobOf repositoryId) || db.traceOf repositoryId event.traceId

/-- The run belongs to a job of the repository, by its job or by its trace. -/
def runOf (run : WorkflowRun) : Bool :=
  db.jobOf repositoryId run.input.jobId || db.traceOf repositoryId run.input.traceId

/-- The step belongs to a workflow run of a job of the repository. -/
def stepOf (step : WorkflowStep) : Bool :=
  db.workflowRuns.rows.any (fun run =>
    run.workflowId = step.workflowId && db.runOf repositoryId run)

end LocalDatabase

/-- No table holds a row of a job of the repository. -/
structure ForgetsLocally {codec : Codec} (db db' : LocalDatabase codec) (repositoryId : Int) :
    Prop where
  jobs : ∀ job ∈ db'.jobs.rows, job.envelope.repositoryId ≠ repositoryId
  pending : ∀ row ∈ db'.pending.rows, db.jobOf repositoryId row.jobId.text = false
  snapshots : ∀ row ∈ db'.snapshots.rows, db.jobOf repositoryId row.jobId = false
  findings : ∀ row ∈ db'.findings.rows, db.jobOf repositoryId row.jobId = false
  humanDecisions : ∀ decision ∈ db'.humanDecisions,
    db.findingOf repositoryId decision.findingId = false
  events : ∀ event ∈ db'.events, db.eventOf repositoryId event = false
  jobBudgets : ∀ row ∈ db'.jobBudgets.rows, db.jobOf repositoryId row.jobId = false
  workflowRuns : ∀ run ∈ db'.workflowRuns.rows, db.runOf repositoryId run = false
  workflowSteps : ∀ step ∈ db'.workflowSteps.rows, db.stepOf repositoryId step = false

/-- Every row that belongs to no job of the repository is unchanged. -/
structure KeepsOtherRows {codec : Codec} (db db' : LocalDatabase codec) (repositoryId : Int) :
    Prop where
  jobs : db'.jobs.rows.filter (fun job => job.envelope.repositoryId ≠ repositoryId) =
    db.jobs.rows.filter (fun job => job.envelope.repositoryId ≠ repositoryId)
  pending : db'.pending.rows.filter (fun row => !db.jobOf repositoryId row.jobId.text) =
    db.pending.rows.filter (fun row => !db.jobOf repositoryId row.jobId.text)
  snapshots : db'.snapshots.rows.filter (fun row => !db.jobOf repositoryId row.jobId) =
    db.snapshots.rows.filter (fun row => !db.jobOf repositoryId row.jobId)
  findings : db'.findings.rows.filter (fun row => !db.jobOf repositoryId row.jobId) =
    db.findings.rows.filter (fun row => !db.jobOf repositoryId row.jobId)
  humanDecisions :
    db'.humanDecisions.filter (fun decision =>
        !db.findingOf repositoryId decision.findingId) =
      db.humanDecisions.filter (fun decision => !db.findingOf repositoryId decision.findingId)
  events : db'.events.filter (fun event => !db.eventOf repositoryId event) =
    db.events.filter (fun event => !db.eventOf repositoryId event)
  jobBudgets : db'.jobBudgets.rows.filter (fun row => !db.jobOf repositoryId row.jobId) =
    db.jobBudgets.rows.filter (fun row => !db.jobOf repositoryId row.jobId)
  workflowRuns : db'.workflowRuns.rows.filter (fun run => !db.runOf repositoryId run) =
    db.workflowRuns.rows.filter (fun run => !db.runOf repositoryId run)
  workflowSteps : db'.workflowSteps.rows.filter (fun step => !db.stepOf repositoryId step) =
    db.workflowSteps.rows.filter (fun step => !db.stepOf repositoryId step)

/-- The purge forgets the repository and leaves the other rows. -/
def PurgeForgetsLocally {codec : Codec} (db : LocalDatabase codec) (repositoryId : Int) : Prop :=
  ForgetsLocally db (db.purgeRepository repositoryId) repositoryId ∧
    KeepsOtherRows db (db.purgeRepository repositoryId) repositoryId

/--
No workflow run belongs to a job of the repository, and every event with the trace of one
also has the id of one.
-/
def reachedByJobIds {codec : Codec} (db : LocalDatabase codec) (repositoryId : Int) : Bool :=
  db.workflowRuns.rows.all (fun run => !db.runOf repositoryId run) &&
    db.events.all (fun event =>
      event.jobId.any (db.jobOf repositoryId) || !db.traceOf repositoryId event.traceId)

/-! ## What the purge leaves -/

section Purged

variable {codec : Codec} (db : LocalDatabase codec) (repositoryId : Int)

/-- A table from which each pass deletes the rows that have the text of the job's id. -/
theorem rows_purged
    {ρ : Type} (rows : LocalDatabase codec → List ρ) (jobId : ρ → String)
    (hpass : ∀ (db : LocalDatabase codec) (id : Uuid),
      rows (db.purgeJob id) = (rows db).filter (fun row => !decide (jobId row = id.text))) :
    rows (db.purgeRepository repositoryId) =
      (rows db).filter (fun row => !db.jobOf repositoryId (jobId row)) := by
  have hloop := exec_filter rows (fun id row => decide (jobId row = id.text)) hpass
    (db.jobIdsOf repositoryId) db
  refine hloop.trans ?_
  apply List.filter_congr
  intro row _
  simp [LocalDatabase.jobOf, eq_comm]

theorem pending_purged :
    (db.purgeRepository repositoryId).pending.rows =
      db.pending.rows.filter (fun row => !db.jobOf repositoryId row.jobId.text) := by
  apply rows_purged db repositoryId (fun db => db.pending.rows) (fun row => row.jobId.text)
  intro db id
  have hid : ∀ row : PendingRow codec, (row.jobId.text = id.text) = (row.jobId = id) :=
    fun row => propext Uuid.text_injective.eq_iff
  simp only [hid]
  rfl

theorem snapshots_purged :
    (db.purgeRepository repositoryId).snapshots.rows =
      db.snapshots.rows.filter (fun row => !db.jobOf repositoryId row.jobId) :=
  rows_purged db repositoryId (fun db => db.snapshots.rows) LocalSnapshotRow.jobId
    (fun _ _ => rfl)

theorem findings_purged :
    (db.purgeRepository repositoryId).findings.rows =
      db.findings.rows.filter (fun row => !db.jobOf repositoryId row.jobId) :=
  rows_purged db repositoryId (fun db => db.findings.rows) LocalFindingRow.jobId
    (fun _ _ => rfl)

theorem jobBudgets_purged :
    (db.purgeRepository repositoryId).jobBudgets.rows =
      db.jobBudgets.rows.filter (fun row => !db.jobOf repositoryId row.jobId) :=
  rows_purged db repositoryId (fun db => db.jobBudgets.rows) LocalJobBudget.jobId
    (fun _ _ => rfl)

theorem events_purged :
    (db.purgeRepository repositoryId).events =
      db.events.filter (fun event => !event.jobId.any (db.jobOf repositoryId)) := by
  have hpass : ∀ (db : LocalDatabase codec) (id : Uuid), (db.purgeJob id).events =
      db.events.filter (fun event => !decide (event.jobId = some id.text)) := by
    intro db id
    simp [LocalDatabase.purgeJob]
  have hloop := exec_filter (fun db : LocalDatabase codec => db.events)
    (fun id event => decide (event.jobId = some id.text)) hpass (db.jobIdsOf repositoryId) db
  refine hloop.trans ?_
  apply List.filter_congr
  intro event _
  cases event.jobId with
  | none => simp
  | some jobId => simp [LocalDatabase.jobOf, eq_comm]

/-- A stored job is deleted when its repository is purged. -/
theorem jobs_purged :
    (db.purgeRepository repositoryId).jobs.rows =
      db.jobs.rows.filter (fun job => job.envelope.repositoryId ≠ repositoryId) := by
  have hpass : ∀ (db : LocalDatabase codec) (id : Uuid), (db.purgeJob id).jobs.rows =
      db.jobs.rows.filter (fun job => !decide (job.jobId = id)) := by
    intro db id
    rfl
  have hloop := exec_filter (fun db : LocalDatabase codec => db.jobs.rows)
    (fun id job => decide (job.jobId = id)) hpass (db.jobIdsOf repositoryId) db
  refine hloop.trans ?_
  apply List.filter_congr
  intro job hjob
  have hids : ((db.jobIdsOf repositoryId).any fun id => decide (job.jobId = id)) =
      decide (job.envelope.repositoryId = repositoryId) := by
    rw [Bool.eq_iff_iff, List.any_eq_true]
    constructor
    · rintro ⟨id, hid, hsame⟩
      obtain ⟨job', hjob', rfl⟩ := List.mem_map.mp hid
      obtain ⟨hmem, hrepository⟩ := List.mem_filter.mp hjob'
      -- the job ids of the table are distinct
      rw [db.jobs.eq_of_key_eq hjob hmem (of_decide_eq_true hsame)]
      exact hrepository
    · intro hrepository
      refine ⟨job.jobId, List.mem_map.mpr ⟨job, ?_, rfl⟩, by simp⟩
      exact List.mem_filter.mpr ⟨hjob, hrepository⟩
  rw [hids, decide_not]

/-- The decisions on findings, whose rows are deleted on the way. -/
theorem humanDecisions_loop
    (ids : List Uuid) (db : LocalDatabase codec) :
    (exec LocalDatabase.purgeJob db ids).humanDecisions =
      db.humanDecisions.filter (fun decision => !ids.any (fun id =>
        db.findings.rows.any (fun row =>
          row.id = decision.findingId ∧ row.jobId = id.text))) := by
  induction ids generalizing db with
  | nil =>
      simp
  | cons id ids ih =>
      rw [exec_cons, ih]
      change (db.humanDecisions.filter _).filter _ = _
      rw [List.filter_filter]
      apply List.filter_congr
      intro decision _
      rw [Bool.eq_iff_iff]
      simp only [LocalDatabase.purgeJob, Table.deleteWhere, List.any_filter, Bool.and_eq_true,
        Bool.not_eq_true', List.any_eq_false, List.any_cons, Bool.or_eq_false_iff,
        decide_eq_true_eq, Bool.not_eq_true, decide_eq_false_iff_not, not_and]
      -- a decision that this pass keeps is on no finding that this pass deletes
      constructor
      · rintro ⟨hrest, hfirst⟩
        exact ⟨hfirst, fun id' hid' row hrow hsame =>
          hrest id' hid' row hrow (hfirst row hrow hsame) hsame⟩
      · rintro ⟨hfirst, hrest⟩
        exact ⟨fun id' hid' row hrow _ hsame => hrest id' hid' row hrow hsame, hfirst⟩

theorem humanDecisions_purged :
    (db.purgeRepository repositoryId).humanDecisions =
      db.humanDecisions.filter (fun decision =>
        !db.findingOf repositoryId decision.findingId) := by
  refine (humanDecisions_loop (db.jobIdsOf repositoryId) db).trans ?_
  apply List.filter_congr
  intro decision _
  rw [Bool.eq_iff_iff]
  simp only [LocalDatabase.findingOf, LocalDatabase.jobOf, Bool.not_eq_true', List.any_eq_false,
    List.any_eq_true, decide_eq_true_eq, not_and, not_exists]
  constructor
  · intro h row hrow hsame id hid hjob
    exact h id hid row hrow hsame hjob.symm
  · intro h id hid row hrow hsame hjob
    exact h row hrow hsame id hid hjob.symm

theorem workflowRuns_purged :
    (db.purgeRepository repositoryId).workflowRuns = db.workflowRuns := by
  have hpass : ∀ (db : LocalDatabase codec) (id : Uuid),
      (db.purgeJob id).workflowRuns = db.workflowRuns :=
    fun _ _ => rfl
  exact exec_same (fun db : LocalDatabase codec => db.workflowRuns) hpass
    (db.jobIdsOf repositoryId) db

theorem workflowSteps_purged :
    (db.purgeRepository repositoryId).workflowSteps = db.workflowSteps := by
  have hpass : ∀ (db : LocalDatabase codec) (id : Uuid),
      (db.purgeJob id).workflowSteps = db.workflowSteps :=
    fun _ _ => rfl
  exact exec_same (fun db : LocalDatabase codec => db.workflowSteps) hpass
    (db.jobIdsOf repositoryId) db

/-- What is left of a purged table has nothing of the repository. -/
theorem of_mem_purged
    {ρ : Type} {rows rows' : List ρ} {p : ρ → Bool}
    (h : rows' = rows.filter (fun row => !p row)) :
    ∀ row ∈ rows', p row = false := by
  intro row hrow
  rw [h] at hrow
  simpa using (List.mem_filter.mp hrow).2

/-- And everything else. -/
theorem filter_purged
    {ρ : Type} {rows rows' : List ρ} {p : ρ → Bool}
    (h : rows' = rows.filter (fun row => !p row)) :
    rows'.filter (fun row => !p row) = rows.filter (fun row => !p row) := by
  rw [h, List.filter_filter]
  simp

/-- The purge never touches a row that belongs to no job of the repository. -/
theorem keepsOtherRows_purged :
    KeepsOtherRows db (db.purgeRepository repositoryId) repositoryId where
  jobs := by
    rw [jobs_purged, List.filter_filter]
    simp
  pending := filter_purged (pending_purged db repositoryId)
  snapshots := filter_purged (snapshots_purged db repositoryId)
  findings := filter_purged (findings_purged db repositoryId)
  humanDecisions := filter_purged (humanDecisions_purged db repositoryId)
  events := by
    rw [events_purged, List.filter_filter]
    apply List.filter_congr
    intro event _
    cases hjob : event.jobId.any (db.jobOf repositoryId) with
    | true => simp [LocalDatabase.eventOf, hjob]
    | false => simp
  jobBudgets := filter_purged (jobBudgets_purged db repositoryId)
  workflowRuns := by
    rw [workflowRuns_purged]
  workflowSteps := by
    rw [workflowSteps_purged]

/-- The rows that carry the id of a job are gone; the runs and the other events decide. -/
theorem forgetsLocally_iff :
    ForgetsLocally db (db.purgeRepository repositoryId) repositoryId ↔
      reachedByJobIds db repositoryId = true := by
  simp only [reachedByJobIds, Bool.and_eq_true, List.all_eq_true, Bool.not_eq_true',
    Bool.or_eq_true]
  constructor
  · intro h
    refine ⟨?_, ?_⟩
    · intro run hrun
      exact h.workflowRuns run (by rw [workflowRuns_purged]; exact hrun)
    · intro event hevent
      cases hjob : event.jobId.any (db.jobOf repositoryId) with
      | true => exact .inl rfl
      | false =>
          right
          have hkept : event ∈ (db.purgeRepository repositoryId).events := by
            rw [events_purged]
            exact List.mem_filter.mpr ⟨hevent, by simp [hjob]⟩
          have hforgotten := h.events event hkept
          simpa [LocalDatabase.eventOf, hjob] using hforgotten
  · rintro ⟨hruns, hevents⟩
    refine
      { jobs := ?_
        pending := of_mem_purged (pending_purged db repositoryId)
        snapshots := of_mem_purged (snapshots_purged db repositoryId)
        findings := of_mem_purged (findings_purged db repositoryId)
        humanDecisions := of_mem_purged (humanDecisions_purged db repositoryId)
        events := ?_
        jobBudgets := of_mem_purged (jobBudgets_purged db repositoryId)
        workflowRuns := ?_
        workflowSteps := ?_ }
    · intro job hjob
      rw [jobs_purged] at hjob
      simpa using (List.mem_filter.mp hjob).2
    · intro event hevent
      rw [events_purged] at hevent
      obtain ⟨hmem, hkept⟩ := List.mem_filter.mp hevent
      have hjob : event.jobId.any (db.jobOf repositoryId) = false := by simpa using hkept
      have htrace := (hevents event hmem).resolve_left (by simp [hjob])
      simp [LocalDatabase.eventOf, hjob, htrace]
    · intro run hrun
      rw [workflowRuns_purged] at hrun
      exact hruns run hrun
    · intro step _
      simp only [LocalDatabase.stepOf, List.any_eq_false, Bool.and_eq_true, not_and,
        Bool.not_eq_true]
      intro run hrun _
      exact hruns run hrun

end Purged

/-- The file after a run of calls. -/
def databaseAfter (codec : Codec) (costs : CostArithmetic) (calls : List LocalAction) :
    LocalDatabase codec :=
  exec (localStep costs) (.empty codec) calls

/--
After any calls on the store, the purge of a repository forgets it and leaves the rows of
the others, if and only if no workflow run belongs to one of its jobs, and every event with
the trace of one of its jobs also has the id of one.
-/
theorem local_purge_forgets_iff
    (codec : Codec) (costs : CostArithmetic) (calls : List LocalAction) (repositoryId : Int) :
    PurgeForgetsLocally (databaseAfter codec costs calls) repositoryId ↔
      reachedByJobIds (databaseAfter codec costs calls) repositoryId = true := by
  rw [← forgetsLocally_iff]
  constructor
  · intro h
    exact h.1
  · intro h
    exact ⟨h, keepsOtherRows_purged _ repositoryId⟩

def reviewedJob : JobEnvelope where
  jobId := ⟨"cccccccc-0000-4000-8000-0000000000f1", by decide⟩
  installationId := 1
  repositoryId := 11
  pullRequestNumber := 9
  baseSha := "base-9"
  headSha := "head-9"
  policyVersion := "v9"
  budget := { maxTokens := 100, maxCostUsd := { text := "1" } }
  traceId := ⟨"dddddddd-0000-4000-8000-0000000000f1", by decide⟩
  leaseToken := "lease-9"
  pullRequestNumber_pos := by decide
  baseSha_ne := by decide
  headSha_ne := by decide
  policyVersion_ne := by decide
  leaseToken_ne := by decide

def reviewedRun : WorkflowRun where
  workflowId := "workflow-1"
  input :=
    { jobId := reviewedJob.jobId.text
      headSha := "head-9"
      traceId := reviewedJob.traceId.text
      leaseToken := "lease-9" }
  outcome := none
  reason := none
  createdAt := 2

/-- A claimed job whose workflow has started. -/
def startedWorkflow : List LocalAction :=
  [.recordClaimed reviewedJob 1, .ensureRun "workflow-1" reviewedRun.input 2]

/-- Any arithmetic serves a run that reserves nothing. -/
def sampleCosts : CostArithmetic where
  positive := fun _ => true
  add? := fun _ cost _ => some cost

/-- The workflow run of the job survives the purge of its repository. -/
theorem workflow_run_survives_purge :
    let db := databaseAfter strictCodec sampleCosts startedWorkflow
    db.jobOf 11 reviewedRun.input.jobId = true ∧
    reviewedRun ∈ (db.purgeRepository 11).workflowRuns.rows ∧
    ¬ PurgeForgetsLocally db 11 := by
  have hjob : (databaseAfter strictCodec sampleCosts startedWorkflow).runOf 11 reviewedRun =
      true := by
    decide
  have hrun : reviewedRun ∈
      ((databaseAfter strictCodec sampleCosts startedWorkflow).purgeRepository
        11).workflowRuns.rows := by
    decide
  refine ⟨by decide, hrun, ?_⟩
  intro h
  have hforgotten := h.1.workflowRuns reviewedRun hrun
  rw [hjob] at hforgotten
  cases hforgotten

end Runner
end PrReviewer
