import PrReviewer.Runner.Wire
import PrReviewer.Lib.Table
import Mathlib.Data.List.Sort

/-!
# The runner's local store

local_store/sqlite.py as far as the daemon uses it: the claimed jobs and the
pending acknowledgements.  Every method commits before it returns, so each is one
atomic update of the store.

A stored result is the JSON text of an acknowledgement.  It is only ever written
by `record`, so that it validates is a field of the row, as is the autoincrement
key a field of the store.
-/

namespace PrReviewer
namespace Runner

open Lib

/-- `LocalJobStatus`. -/
inductive LocalJobStatus where
  | claimed
  | completed
  | abandoned
deriving DecidableEq, Repr

/-- A row of `local_jobs`: the columns of the envelope, the status and the time. -/
structure LocalJob where
  envelope : JobEnvelope
  status : LocalJobStatus
  claimedAt : Nat
deriving DecidableEq, Repr

def LocalJob.jobId (job : LocalJob) : Uuid :=
  job.envelope.jobId

def LocalJob.leaseToken (job : LocalJob) : String :=
  job.envelope.leaseToken

/-- `PendingAcknowledgementReason`. -/
inductive PendingAcknowledgementReason where
  | invalidOrExpired
  | networkUnreachable
deriving DecidableEq, Repr

/-- A row of `local_pending_acknowledgements`. -/
structure PendingRow (codec : Codec) where
  id : Nat
  jobId : Uuid
  leaseToken : String
  resultJson : Json
  reason : PendingAcknowledgementReason
  attempts : Nat
  createdAt : Nat
  decodes : (codec.validateAcknowledgement resultJson).isSome = true

/-- `PendingAcknowledgement`: a row with its result decoded. -/
structure PendingAcknowledgement where
  id : Nat
  jobId : Uuid
  leaseToken : String
  result : JobAcknowledgement
  reason : PendingAcknowledgementReason
  attempts : Nat
  createdAt : Nat
deriving DecidableEq, Repr

/-- `_row_to_pending`. -/
def rowToPending {codec : Codec} (row : PendingRow codec) : PendingAcknowledgement where
  id := row.id
  jobId := row.jobId
  leaseToken := row.leaseToken
  result := (codec.validateAcknowledgement row.resultJson).get row.decodes
  reason := row.reason
  attempts := row.attempts
  createdAt := row.createdAt

/-- The two tables, and the next value of the autoincrement key. -/
structure LocalStore (codec : Codec) where
  jobs : Table LocalJob.jobId
  pending : Table (@PendingRow.id codec)
  nextPendingId : Nat
  pending_lt : ∀ row ∈ pending.rows, row.id < nextPendingId

/-- A store just opened on a new file. -/
def LocalStore.empty (codec : Codec) : LocalStore codec where
  jobs := .empty
  pending := .empty
  nextPendingId := 1
  pending_lt := by
    intro row hrow
    cases hrow

/-- The range of an integer SQLite can bind. -/
def fitsSqlite (n : Int) : Bool :=
  -(2 ^ 63) ≤ n ∧ n < 2 ^ 63

/-- The integers `record_claimed` binds are in range; otherwise it raises OverflowError. -/
def fitsLocalJobs (job : JobEnvelope) : Bool :=
  fitsSqlite job.installationId ∧ fitsSqlite job.repositoryId ∧
    fitsSqlite job.pullRequestNumber ∧ fitsSqlite job.budget.maxTokens

section Operations

variable {codec : Codec}

/-- `insert or ignore into local_jobs …`: a stored row keeps its token and status. -/
def LocalStore.recordClaimed
    (store : LocalStore codec) (job : JobEnvelope) (now : Nat) : LocalStore codec :=
  { store with
    jobs :=
      (store.jobs.insert? { envelope := job, status := .claimed, claimedAt := now }).getD
        store.jobs }

/-- `jobs.get`. -/
def LocalStore.get (store : LocalStore codec) (jobId : Uuid) : Option LocalJob :=
  store.jobs.find? jobId

/-- `jobs.list_claimed`: `order by claimed_at`. -/
def LocalStore.listClaimed (store : LocalStore codec) : List LocalJob :=
  (store.jobs.rows.filter (fun job => job.status = .claimed)).insertionSort
    (fun job job' => job.claimedAt ≤ job'.claimedAt)

/-- `update local_jobs set status = … where job_id = …`. -/
def LocalStore.setStatus
    (store : LocalStore codec) (jobId : Uuid) (status : LocalJobStatus) : LocalStore codec :=
  { store with
    jobs := store.jobs.alter jobId (fun job => { job with status := status }) (fun _ => rfl) }

/-- `jobs.mark_abandoned`. -/
def LocalStore.markAbandoned (store : LocalStore codec) (jobId : Uuid) : LocalStore codec :=
  store.setStatus jobId .abandoned

/-- `jobs.mark_completed`. -/
def LocalStore.markCompleted (store : LocalStore codec) (jobId : Uuid) : LocalStore codec :=
  store.setStatus jobId .completed

/-- The row `record` inserts. -/
def pendingRow
    (codec : Codec) (id : Nat) (jobId : Uuid) (leaseToken : String)
    (result : JobAcknowledgement) (reason : PendingAcknowledgementReason) (now : Nat) :
    PendingRow codec where
  id := id
  jobId := jobId
  leaseToken := leaseToken
  resultJson := result.dump
  reason := reason
  attempts := 0
  createdAt := now
  decodes := by
    rw [codec.acknowledgement_roundtrip]
    rfl

/-- `pending_acknowledgements.record`. -/
def LocalStore.recordPending
    (store : LocalStore codec) (jobId : Uuid) (leaseToken : String)
    (result : JobAcknowledgement) (reason : PendingAcknowledgementReason) (now : Nat) :
    LocalStore codec where
  jobs := store.jobs
  pending :=
    store.pending.append
      (pendingRow codec store.nextPendingId jobId leaseToken result reason now)
      (fun row hrow => Nat.ne_of_lt (store.pending_lt row hrow))
  nextPendingId := store.nextPendingId + 1
  pending_lt := by
    intro row hrow
    rw [Table.rows_append, List.mem_append, List.mem_singleton] at hrow
    rcases hrow with hrow | rfl
    · exact Nat.lt_succ_of_lt (store.pending_lt row hrow)
    · exact Nat.lt_succ_self _

/-- `pending_acknowledgements.list_pending`: `order by created_at`. -/
def LocalStore.listPending (store : LocalStore codec) : List PendingAcknowledgement :=
  (store.pending.rows.insertionSort (fun row row' => row.createdAt ≤ row'.createdAt)).map
    rowToPending

/-- `pending_acknowledgements.resolve`. -/
def LocalStore.resolve (store : LocalStore codec) (entryId : Nat) : LocalStore codec where
  jobs := store.jobs
  pending := store.pending.deleteWhere (fun row => row.id = entryId)
  nextPendingId := store.nextPendingId
  pending_lt := by
    intro row hrow
    exact store.pending_lt row (List.mem_filter.mp hrow).1

/-- `pending_acknowledgements.bump_attempt`. -/
def LocalStore.bumpAttempt (store : LocalStore codec) (entryId : Nat) : LocalStore codec where
  jobs := store.jobs
  pending :=
    store.pending.alter entryId (fun row => { row with attempts := row.attempts + 1 })
      (fun _ => rfl)
  nextPendingId := store.nextPendingId
  pending_lt := by
    intro row hrow
    unfold Table.alter at hrow
    rw [Table.rows_updateWhere, List.mem_map] at hrow
    obtain ⟨old, hold, rfl⟩ := hrow
    split
    · exact store.pending_lt old hold
    · exact store.pending_lt old hold

/-- A pending acknowledgement of the job is stored. -/
def LocalStore.holdsPending (store : LocalStore codec) (jobId : Uuid) : Bool :=
  store.pending.rows.any (fun row => row.jobId = jobId)

/-- The stored acknowledgements of the job, decoded. -/
def LocalStore.pendingResults
    (store : LocalStore codec) (jobId : Uuid) : List JobAcknowledgement :=
  (store.listPending.filter (fun entry => entry.jobId = jobId)).map
    PendingAcknowledgement.result

end Operations

/-! ## Lookups after each operation -/

section Lookups

variable {codec : Codec} {store : LocalStore codec}

theorem LocalStore.get_recordClaimed
    (store : LocalStore codec) (job : JobEnvelope) (now : Nat) (jobId : Uuid) :
    (store.recordClaimed job now).get jobId =
      if jobId = job.jobId then
        some ((store.get jobId).getD { envelope := job, status := .claimed, claimedAt := now })
      else
        store.get jobId := by
  have hid :
      LocalJob.jobId { envelope := job, status := .claimed, claimedAt := now } = job.jobId :=
    rfl
  unfold LocalStore.get LocalStore.recordClaimed
  simp only
  cases hinsert :
      store.jobs.insert? { envelope := job, status := .claimed, claimedAt := now } with
  | some jobs =>
      have hfree := (Table.insert?_eq_some hinsert).1
      rw [hid] at hfree
      rw [Option.getD_some, Table.find?_insert? hinsert, hid]
      split
      · next hj =>
          rw [hj, hfree]
          rfl
      · rfl
  | none =>
      obtain ⟨stored, hstored⟩ := Table.insert?_eq_none_iff.mp hinsert
      rw [hid] at hstored
      rw [Option.getD_none]
      split
      · next hj =>
          rw [hj, hstored]
          rfl
      · rfl

theorem LocalStore.get_setStatus
    (store : LocalStore codec) (jobId : Uuid) (status : LocalJobStatus) (j : Uuid) :
    (store.setStatus jobId status).get j =
      if j = jobId then (store.get j).map (fun job => { job with status := status })
      else store.get j :=
  Table.find?_alter store.jobs jobId (fun job => { job with status := status })
    (fun _ => rfl) j

theorem LocalStore.mem_listClaimed
    {job : LocalJob} :
    job ∈ store.listClaimed ↔
      store.get job.jobId = some job ∧ job.status = .claimed := by
  unfold LocalStore.listClaimed LocalStore.get
  rw [(List.perm_insertionSort _ _).mem_iff, List.mem_filter, decide_eq_true_eq]
  constructor
  · rintro ⟨hmem, hstatus⟩
    exact ⟨Table.find?_of_mem hmem, hstatus⟩
  · rintro ⟨hfind, hstatus⟩
    exact ⟨Table.mem_of_find? hfind, hstatus⟩

theorem LocalStore.mem_listPending
    {entry : PendingAcknowledgement} :
    entry ∈ store.listPending ↔ ∃ row ∈ store.pending.rows, rowToPending row = entry := by
  unfold LocalStore.listPending
  rw [List.mem_map]
  constructor
  · rintro ⟨row, hrow, hentry⟩
    exact ⟨row, (List.perm_insertionSort _ _).mem_iff.mp hrow, hentry⟩
  · rintro ⟨row, hrow, hentry⟩
    exact ⟨row, (List.perm_insertionSort _ _).mem_iff.mpr hrow, hentry⟩

theorem LocalStore.holdsPending_iff
    {jobId : Uuid} :
    store.holdsPending jobId = true ↔ ∃ row ∈ store.pending.rows, row.jobId = jobId := by
  unfold LocalStore.holdsPending
  rw [List.any_eq_true]
  constructor
  · rintro ⟨row, hrow, hid⟩
    exact ⟨row, hrow, by simpa using hid⟩
  · rintro ⟨row, hrow, hid⟩
    exact ⟨row, hrow, by simpa using hid⟩

theorem LocalStore.mem_pendingResults
    {jobId : Uuid} {result : JobAcknowledgement} :
    result ∈ store.pendingResults jobId ↔
      ∃ row ∈ store.pending.rows, row.jobId = jobId ∧ (rowToPending row).result = result := by
  unfold LocalStore.pendingResults
  rw [List.mem_map]
  constructor
  · rintro ⟨entry, hentry, hresult⟩
    rw [List.mem_filter, decide_eq_true_eq, LocalStore.mem_listPending] at hentry
    obtain ⟨⟨row, hrow, rfl⟩, hid⟩ := hentry
    exact ⟨row, hrow, hid, hresult⟩
  · rintro ⟨row, hrow, hid, hresult⟩
    refine ⟨rowToPending row, ?_, hresult⟩
    rw [List.mem_filter, decide_eq_true_eq, LocalStore.mem_listPending]
    exact ⟨⟨row, hrow, rfl⟩, hid⟩

/-- The result of a recorded row decodes to what was recorded. -/
theorem rowToPending_pendingRow
    (codec : Codec) (id : Nat) (jobId : Uuid) (leaseToken : String)
    (result : JobAcknowledgement) (reason : PendingAcknowledgementReason) (now : Nat) :
    (rowToPending (pendingRow codec id jobId leaseToken result reason now)).result =
      result := by
  unfold rowToPending pendingRow
  simp only [codec.acknowledgement_roundtrip, Option.get_some]

theorem LocalStore.rows_recordPending
    (jobId : Uuid) (leaseToken : String) (result : JobAcknowledgement)
    (reason : PendingAcknowledgementReason) (now : Nat) :
    (store.recordPending jobId leaseToken result reason now).pending.rows =
      store.pending.rows ++
        [pendingRow codec store.nextPendingId jobId leaseToken result reason now] := by
  rfl

/-- What is recorded is held, decoded to the recorded result. -/
theorem LocalStore.mem_pendingResults_recordPending
    (store : LocalStore codec) (jobId : Uuid) (leaseToken : String)
    (result : JobAcknowledgement) (reason : PendingAcknowledgementReason) (now : Nat) :
    result ∈ (store.recordPending jobId leaseToken result reason now).pendingResults jobId := by
  rw [LocalStore.mem_pendingResults, LocalStore.rows_recordPending]
  refine ⟨_, List.mem_append_right _ (List.mem_singleton.mpr rfl), rfl, ?_⟩
  exact rowToPending_pendingRow codec _ jobId leaseToken result reason now

/-- The key of the entry still belongs to its job, or to no row at all. -/
def LocalStore.Tracks (store : LocalStore codec) (entry : PendingAcknowledgement) : Prop :=
  entry.id < store.nextPendingId ∧
    ∀ row ∈ store.pending.rows, row.id = entry.id → row.jobId = entry.jobId

theorem LocalStore.tracks_of_mem
    {entry : PendingAcknowledgement}
    (h : entry ∈ store.listPending) :
    store.Tracks entry := by
  obtain ⟨listed, hlisted, rfl⟩ := LocalStore.mem_listPending.mp h
  refine ⟨store.pending_lt listed hlisted, ?_⟩
  intro row hrow hid
  have hsame : row = listed := by
    have hfind := Table.find?_of_mem hrow
    rw [hid] at hfind
    have hfind' := Table.find?_of_mem hlisted
    change store.pending.find? listed.id = some row at hfind
    rw [hfind'] at hfind
    exact (Option.some.inj hfind).symm
  rw [hsame]
  rfl

theorem LocalStore.tracks_recordPending
    {entry : PendingAcknowledgement}
    (jobId : Uuid) (leaseToken : String) (result : JobAcknowledgement)
    (reason : PendingAcknowledgementReason) (now : Nat)
    (h : store.Tracks entry) :
    (store.recordPending jobId leaseToken result reason now).Tracks entry := by
  refine ⟨Nat.lt_succ_of_lt h.1, ?_⟩
  intro row hrow hid
  rw [LocalStore.rows_recordPending, List.mem_append, List.mem_singleton] at hrow
  rcases hrow with hrow | rfl
  · exact h.2 row hrow hid
  · have hkey : store.nextPendingId = entry.id := hid
    have hlt := h.1
    omega

theorem LocalStore.tracks_resolve
    {entry : PendingAcknowledgement}
    (entryId : Nat)
    (h : store.Tracks entry) :
    (store.resolve entryId).Tracks entry := by
  refine ⟨h.1, ?_⟩
  intro row hrow hid
  exact h.2 row (List.mem_filter.mp hrow).1 hid

/-- `bump_attempt` writes nothing but the attempts. -/
theorem LocalStore.of_mem_bumpAttempt
    {entryId : Nat} {row : PendingRow codec}
    (hrow : row ∈ (store.bumpAttempt entryId).pending.rows) :
    ∃ old ∈ store.pending.rows, old.id = row.id ∧ old.jobId = row.jobId ∧
      old.leaseToken = row.leaseToken ∧ old.reason = row.reason := by
  unfold LocalStore.bumpAttempt at hrow
  simp only at hrow
  obtain ⟨old, hold, hsame⟩ := Table.of_mem_alter
    (fun row : PendingRow codec => (row.id, row.jobId, row.leaseToken, row.reason))
    hrow (fun _ => rfl)
  simp only [Prod.mk.injEq] at hsame
  exact ⟨old, hold, hsame⟩

theorem LocalStore.tracks_bumpAttempt
    {entry : PendingAcknowledgement}
    (entryId : Nat)
    (h : store.Tracks entry) :
    (store.bumpAttempt entryId).Tracks entry := by
  refine ⟨h.1, ?_⟩
  intro row hrow hid
  obtain ⟨old, hold, hid', hjob, _⟩ := LocalStore.of_mem_bumpAttempt hrow
  rw [← hjob]
  exact h.2 old hold (hid'.trans hid)

end Lookups

end Runner
end PrReviewer
