import PrReviewer.Runner.PollLoop

/-!
# The loop of `recover`

`recover` goes through the claimed rows it listed at first.  For each it sends one
heartbeat, and what the client makes of the outcome decides: the row is abandoned,
or its job resumed, or nothing is done, or the exception ends the loop.

No iteration touches the rows of the other jobs, so every row is still claimed when
the loop comes to it.  A job that is resumed keeps its row only when its result is denied
and the claim that follows lands nothing.
-/

namespace PrReviewer
namespace Runner

open Lib

section Loop

variable (codec : Codec) (config : DaemonConfig)

/-- What `recover` does with a job once the client returned its lease. -/
def recoverLease (job : LocalJob) : LeaseState → Daemon Unit
  | .invalidOrExpired => askStore (.markAbandoned job.jobId)
  | .cancelled => askStore (.markAbandoned job.jobId)
  | .active =>
      if config.hasReview then do
        let result ← review job.envelope
        completeJob codec config job.envelope.jobId job.envelope.leaseToken result
      else
        pure ()

/-- What `recover` does with a job at what the client's `heartbeat` returned or raised. -/
def recoverOutcome (job : LocalJob) : Except PyError LeaseState → Daemon Unit
  | .ok lease => recoverLease codec config job lease
  | .error e => if e = .transportError then .ret () else .raise e

/-- A job of the recovery: one heartbeat, and what its outcome leads to. -/
theorem recoverJob_eq
    (job : LocalJob) :
    recoverJob codec config job =
      .call (.heartbeat .recover job.jobId job.leaseToken) (fun outcome =>
        recoverOutcome codec config job (received decodeHeartbeat outcome)) := by
  unfold recoverJob exceptTransport clientHeartbeat
  simp only [Program.bind_eq, ask, Program.perform, Program.bind, Program.catching]
  congr 1
  funext outcome
  cases received decodeHeartbeat outcome with
  | ok lease =>
      cases lease with
      | active => rfl
      | invalidOrExpired => rfl
      | cancelled => rfl
  | error e =>
      simp only [Program.ofExcept, Program.bind, Program.catching, recoverOutcome]
      split
      · rfl
      · rfl

variable {codec} {ω : Type} (surroundings : Surroundings ω)

/-- How the heartbeat of a job ends. -/
def heartbeatOutcome (w : RunnerState codec ω) (job : LocalJob) : Outcome :=
  (w.post surroundings (.heartbeat w.credential job.jobId job.leaseToken)).1

/-- The state in which the outcome of the heartbeat is handled. -/
def afterHeartbeat (w : RunnerState codec ω) (job : LocalJob) : RunnerState codec ω :=
  (w.post surroundings (.heartbeat w.credential job.jobId job.leaseToken)).2

/-- The run of one iteration. -/
def recovered (w : RunnerState codec ω) (job : LocalJob) :
    Except PyError Unit × RunnerState codec ω :=
  Program.run (answer surroundings) (recoverJob codec config job) w

/-- The jobs `recover` comes to, each with the state it finds there. -/
def recoverVisits (w : RunnerState codec ω) : List (RunnerState codec ω × LocalJob) :=
  match Program.run (answer surroundings) (askStore .listClaimed) w with
  | (.ok jobs, w') => Program.visits (answer surroundings) (recoverJob codec config) jobs w'
  | (.error _, _) => []

/-- The status of the row of a job. -/
def LocalStore.statusOf (store : LocalStore codec) (jobId : Uuid) : Option LocalJobStatus :=
  (store.get jobId).map LocalJob.status

variable {config surroundings}

theorem recovered_eq
    (w : RunnerState codec ω) (job : LocalJob) :
    recovered config surroundings w job =
      Program.run (answer surroundings)
        (recoverOutcome codec config job
          (received decodeHeartbeat (heartbeatOutcome surroundings w job)))
        (afterHeartbeat surroundings w job) := by
  unfold recovered
  rw [recoverJob_eq]
  rfl

end Loop

/-! ## Rows that an operation leaves -/

section Rows

variable {codec : Codec} {ω : Type} (surroundings : Surroundings ω)

/-- The operation sets the status of the job's row. -/
def DaemonOp.retires (jobId : Uuid) : DaemonOp → Bool
  | .store (.markAbandoned j) => j = jobId
  | .store (.markCompleted j) => j = jobId
  | _ => false

def DaemonOp.abandons : DaemonOp → Bool
  | .store (.markAbandoned _) => true
  | _ => false

theorem LocalStore.statusOf_setStatus
    (store : LocalStore codec) (jobId : Uuid) (status : LocalJobStatus) (j : Uuid) :
    (store.setStatus jobId status).statusOf j =
      if j = jobId then (store.statusOf j).map (fun _ => status) else store.statusOf j := by
  unfold LocalStore.statusOf
  rw [LocalStore.get_setStatus]
  split
  · rw [Option.map_map, Option.map_map]
    rfl
  · rfl

/-- A stored row stays as it is under what does not set its status. -/
theorem answer_get
    {op : DaemonOp} {jobId : Uuid} {row : LocalJob} {w : RunnerState codec ω}
    (hop : op.retires jobId = false)
    (h : w.store.get jobId = some row) :
    (answer surroundings op w).2.store.get jobId = some row := by
  have hset : ∀ j status, decide (j = jobId) = false →
      (w.store.setStatus j status).get jobId = some row := by
    intro j status hj
    have hne : jobId ≠ j := fun heq => of_decide_eq_false hj heq.symm
    rw [LocalStore.get_setStatus, if_neg hne]
    exact h
  rcases answer_leaves surroundings op w with hsame | ⟨storeOp, now, rfl, hleaves⟩
  · rw [hsame]
    exact h
  · rw [hleaves]
    cases storeOp with
    | recordClaimed job =>
        simp only [StoreOp.leaves]
        rw [LocalStore.get_recordClaimed, h]
        split
        · rfl
        · rfl
    | markAbandoned j => exact hset j .abandoned hop
    | markCompleted j => exact hset j .completed hop
    | _ => exact h

/-- Only `mark_abandoned` makes a row abandoned. -/
theorem answer_not_abandoned
    {op : DaemonOp} {jobId : Uuid} {w : RunnerState codec ω}
    (hop : op.abandons = false)
    (h : w.store.statusOf jobId ≠ some .abandoned) :
    (answer surroundings op w).2.store.statusOf jobId ≠ some .abandoned := by
  rcases answer_leaves surroundings op w with hsame | ⟨storeOp, now, rfl, hleaves⟩
  · rw [hsame]
    exact h
  · rw [hleaves]
    cases storeOp with
    | recordClaimed job =>
        unfold LocalStore.statusOf at h ⊢
        simp only [StoreOp.leaves]
        rw [LocalStore.get_recordClaimed]
        split
        · cases hget : w.store.get jobId with
          | none => simp
          | some row =>
              rw [hget] at h
              exact h
        · exact h
    | markAbandoned j => cases hop
    | markCompleted j =>
        simp only [StoreOp.leaves, LocalStore.markCompleted]
        rw [LocalStore.statusOf_setStatus]
        split
        · cases w.store.statusOf jobId with
          | none => simp
          | some status => simp
        · exact h
    | _ => exact h

end Rows

/-! ## What one job of the recovery does -/

section OneJob

variable {codec : Codec} {ω : Type} {config : DaemonConfig} {surroundings : Surroundings ω}

/-- A resumed job is reviewed and its result landed. -/
theorem resumed_only
    {P : DaemonOp → Prop} {job : LocalJob}
    (hreview : P (.review job.envelope))
    (hlands : ∀ op : DaemonOp, op.landsResult job.jobId = true → P op) :
    Program.Only P (recoverLease codec config job .active) := by
  simp only [recoverLease]
  split
  · refine Program.only_bind (Program.only_bind (Program.only_perform hreview) ?_) ?_
    · intro returned
      cases returned with
      | none => trivial
      | some result => trivial
    · intro result
      exact (completeJob_only job.jobId job.leaseToken result).mono hlands
  · trivial

theorem not_retires_of_landsResult
    {jobId j : Uuid}
    (hne : j ≠ jobId)
    (op : DaemonOp)
    (h : op.landsResult jobId = true) :
    op.retires j = false := by
  cases op with
  | store op =>
      cases op with
      | markAbandoned j' => cases h
      | markCompleted j' =>
          have hj' : j' = jobId := of_decide_eq_true h
          subst hj'
          exact decide_eq_false (fun heq => hne heq.symm)
      | _ => rfl
  | _ => rfl

theorem recoverOutcome_not_retires
    {job : LocalJob} {j : Uuid}
    (hne : j ≠ job.jobId)
    (outcome : Except PyError LeaseState) :
    Program.Only (fun op => op.retires j = false) (recoverOutcome codec config job outcome) := by
  have habandon : Program.Only (fun op => op.retires j = false)
      (askStore (.markAbandoned job.jobId)) :=
    only_askStore (decide_eq_false (fun heq => hne heq.symm))
  cases outcome with
  | ok lease =>
      cases lease with
      | invalidOrExpired => exact habandon
      | cancelled => exact habandon
      | active => exact resumed_only (by rfl) (not_retires_of_landsResult hne)
  | error e =>
      simp only [recoverOutcome]
      split
      · trivial
      · trivial

/-- The recovery of a job leaves the rows of the others. -/
theorem recovered_get
    {job row : LocalJob} {j : Uuid} {w : RunnerState codec ω}
    (hne : j ≠ job.jobId)
    (h : w.store.get j = some row) :
    (recovered config surroundings w job).2.store.get j = some row := by
  rw [recovered_eq]
  exact (recoverOutcome_not_retires hne _).run
    (I := fun w' : RunnerState codec ω => w'.store.get j = some row)
    (fun w' op hop hw' => answer_get surroundings hop hw') h

/-- A resumed job makes no row abandoned. -/
theorem resumed_not_abandoned
    {job : LocalJob} {j : Uuid} {w : RunnerState codec ω}
    (h : w.store.statusOf j ≠ some .abandoned) :
    (Program.run (answer surroundings) (recoverLease codec config job .active) w).2.store.statusOf
      j ≠ some .abandoned := by
  have honly : Program.Only (fun op => op.abandons = false)
      (recoverLease codec config job .active) := by
    refine resumed_only (by rfl) ?_
    intro op hop
    cases op with
    | store op =>
        cases op with
        | markAbandoned j' => cases hop
        | _ => rfl
    | _ => rfl
  exact honly.run (I := fun w' : RunnerState codec ω => w'.store.statusOf j ≠ some .abandoned)
    (fun w' op hop hw' => answer_not_abandoned surroundings hop hw') h

end OneJob

/-! ## Jobs that are resumed in vain -/

section InVain

variable {codec : Codec} {ω : Type} {config : DaemonConfig} {surroundings : Surroundings ω}

variable (surroundings) in
/--
The claim of the stored-result path is lost; or it hands the job back, and the second
acknowledgement is lost or denied as well.
-/
def landsNothing (w : RunnerState codec ω) (jobId : Uuid) (result : JobAcknowledgement) : Bool :=
  let claim := w.post surroundings (.claim w.credential)
  match received (decodeClaim codec) claim.1 with
  | .error e => e = .transportError
  | .ok (.envelope job) =>
      job.jobId = jobId &&
        match acknowledgeOutcome surroundings claim.2 job.jobId job.leaseToken result with
        | .error e => retryable e
        | .ok _ => false
  | .ok _ => false

variable (config surroundings) in
/-- The state in which a denied result of `complete_job` is followed by a claim. -/
def beforeLanding (w : RunnerState codec ω) (jobId : Uuid) (leaseToken : String)
    (result : JobAcknowledgement) : RunnerState codec ω :=
  (Program.run (answer surroundings)
    (do
      askStore (.recordPending jobId leaseToken result .invalidOrExpired)
      refreshCredential config)
    (afterAcknowledge surroundings w jobId leaseToken result)).2

variable (config surroundings) in
/-- The executor's result is denied, and the claim that follows lands nothing. -/
def resumedInVain (w : RunnerState codec ω) (job : LocalJob) : Bool :=
  let reviewed := (answer surroundings (.review job.envelope) w).2
  match (answer surroundings (.review job.envelope) w).1 with
  | none => false
  | some result =>
      decide (acknowledgeOutcome surroundings reviewed job.jobId job.leaseToken result =
          .error .jobProtocolDenied) &&
        (reviewed.onStoreThread &&
          landsNothing surroundings
            (beforeLanding config surroundings reviewed job.jobId job.leaseToken result)
            job.jobId result)

/-- The program returned and left the row of the job as it was. -/
def LeavesRow (surroundings : Surroundings ω) (jobId : Uuid) (p : Daemon Unit)
    (w : RunnerState codec ω) : Prop :=
  (Program.run (answer surroundings) p w).1 = .ok () ∧
    (Program.run (answer surroundings) p w).2.store.get jobId = w.store.get jobId

/-- A program that returns with another status of the job does not leave its claimed row. -/
theorem not_leavesRow_of_status
    {jobId : Uuid} {p : Daemon Unit} {w : RunnerState codec ω}
    (status : LocalJobStatus) (hstatus : status ≠ .claimed)
    (hclaimed : w.store.statusOf jobId = some .claimed)
    (hretires : Program.Safe (answer surroundings) (fun _ _ => True) (fun _ _ => True) p
      (fun _ w' => w'.store.statusOf jobId = some status) (fun _ _ => True) w) :
    ¬ LeavesRow surroundings jobId p w := by
  rintro ⟨hok, hsame⟩
  have hretired := hretires.of_ok (fun _ _ => trivial) hok
  unfold LocalStore.statusOf at hclaimed hretired
  rw [hsame, hclaimed] at hretired
  exact hstatus (Option.some.inj hretired).symm

theorem not_leavesRow_of_completed
    {jobId : Uuid} {p : Daemon Unit} {w : RunnerState codec ω}
    (hclaimed : w.store.statusOf jobId = some .claimed)
    (hcompletes : Program.Safe (answer surroundings) (fun _ _ => True) (fun _ _ => True) p
      (fun _ w' => w'.store.statusOf jobId = some .completed) (fun _ _ => True) w) :
    ¬ LeavesRow surroundings jobId p w :=
  not_leavesRow_of_status .completed (by decide) hclaimed hcompletes

theorem not_leavesRow_of_raised
    {jobId : Uuid} {p : Daemon Unit} {w : RunnerState codec ω} {e : PyError}
    (hraised : (Program.run (answer surroundings) p w).1 = .error e) :
    ¬ LeavesRow surroundings jobId p w := by
  rintro ⟨hok, _⟩
  rw [hraised] at hok
  cases hok

/-- The operations that set the status of a stored row. -/
theorem safe_retire_status
    {op : StoreOp} {jobId : Uuid} {status : LocalJobStatus} {row : LocalJob}
    {w : RunnerState codec ω}
    (hop : (op = .markCompleted jobId ∧ status = .completed) ∨
      (op = .markAbandoned jobId ∧ status = .abandoned))
    (hrow : w.store.get jobId = some row) :
    Program.Safe (answer surroundings) (fun _ _ => True) (fun _ _ => True) (askStore op)
      (fun _ w' => w'.store.statusOf jobId = some status) (fun _ _ => True) w := by
  have hset : (w.store.setStatus jobId status).statusOf jobId = some status := by
    rw [LocalStore.statusOf_setStatus, if_pos rfl, LocalStore.statusOf, hrow]
    rfl
  rcases hop with ⟨rfl, rfl⟩ | ⟨rfl, rfl⟩
  · refine safe_askStore_of trivial ?_ (fun _ => trivial)
    intro _ store _ _ happly
    cases happly
    exact hset
  · refine safe_askStore_of trivial ?_ (fun _ => trivial)
    intro _ store _ _ happly
    cases happly
    exact hset

theorem safe_markPendingTerminal_completed
    {jobId : Uuid} {row : LocalJob} {w : RunnerState codec ω}
    (hrow : w.store.get jobId = some row) :
    Program.Safe (answer surroundings) (fun _ _ => True) (fun _ _ => True)
      (markPendingTerminal jobId)
      (fun _ w' => w'.store.statusOf jobId = some .completed) (fun _ _ => True) w := by
  unfold markPendingTerminal
  simp only [Program.bind_eq]
  rw [Program.safe_bind]
  refine (safe_retire_status (.inl ⟨rfl, rfl⟩) hrow).mono ?_ (fun _ _ h => h)
  intro _ w₁ hcompleted
  -- resolving the pending acknowledgements leaves the rows
  obtain ⟨row', hrow', hstatus⟩ := Option.map_eq_some_iff.mp hcompleted
  have honly : Program.Only (fun op => op.retires jobId = false)
      ((askStore .listPending).bind (fun entries => Program.forEach entries (fun entry =>
        if entry.jobId = jobId then askStore (.resolve entry.id) else pure ()))) := by
    refine Program.only_bind (only_askStore rfl) (fun entries => ?_)
    refine Program.only_forEach (fun entry _ => ?_)
    split
    · exact only_askStore rfl
    · trivial
  refine (honly.safe (I := fun w' : RunnerState codec ω => w'.store.get jobId = some row')
    ?_ hrow').mono ?_ (fun _ _ _ => trivial)
  · intro w' op hop hw'
    exact ⟨trivial, fun _ => answer_get surroundings hop hw'⟩
  · intro _ w' hw'
    rw [LocalStore.statusOf, hw', Option.map_some, hstatus]

/-- What precedes the marking leaves the row of the job. -/
theorem safe_then_markPendingTerminal_completed
    {jobId : Uuid} {row : LocalJob} {p : Daemon Unit} {w : RunnerState codec ω}
    (honly : Program.Only (fun op => op.retires jobId = false) p)
    (hrow : w.store.get jobId = some row) :
    Program.Safe (answer surroundings) (fun _ _ => True) (fun _ _ => True)
      (p.bind (fun _ => markPendingTerminal jobId))
      (fun _ w' => w'.store.statusOf jobId = some .completed) (fun _ _ => True) w := by
  rw [Program.safe_bind]
  refine (honly.safe (I := fun w' : RunnerState codec ω => w'.store.get jobId = some row)
    ?_ hrow).mono ?_ (fun _ _ _ => trivial)
  · intro w' op hop hw'
    exact ⟨trivial, fun _ => answer_get surroundings hop hw'⟩
  · intro _ w' hw'
    exact safe_markPendingTerminal_completed hw'

variable (config surroundings) in
/-- Refreshing the credential returns and leaves the store. -/
theorem run_refreshCredential
    (w : RunnerState codec ω) :
    (Program.run (answer surroundings) (refreshCredential config) w).1 = .ok () ∧
      (Program.run (answer surroundings) (refreshCredential config) w).2.store = w.store := by
  unfold refreshCredential
  split
  · simp only [Program.bind_eq, ask, Program.run_bind, Program.run_perform]
    cases hsecret : (answer surroundings .secret w).1 with
    | none => exact ⟨rfl, rfl⟩
    | some credential => exact ⟨rfl, rfl⟩
  · exact ⟨rfl, rfl⟩

variable (surroundings) in
theorem run_askStore
    (op : StoreOp) (w : RunnerState codec ω) :
    Program.run (answer surroundings) (askStore op) w = answer surroundings (.store op) w := by
  unfold askStore
  simp only [Program.bind_eq, Program.run_bind, ask, Program.run_perform]
  cases answer surroundings (.store op) w with
  | mk result w' =>
      cases result with
      | ok _ => rfl
      | error _ => rfl

variable (surroundings) in
theorem run_review
    (job : JobEnvelope) (w : RunnerState codec ω) :
    Program.run (answer surroundings) (review job) w =
      (match (answer surroundings (.review job) w).1 with
        | some result => .ok result
        | none => .error .executorError,
        (answer surroundings (.review job) w).2) := by
  unfold review
  simp only [Program.bind_eq, Program.run_bind, ask, Program.run_perform]
  cases (answer surroundings (.review job) w).1 with
  | some _ => rfl
  | none => rfl

variable (surroundings) in
theorem run_claim
    (site : CallSite) (w : RunnerState codec ω) :
    Program.run (answer surroundings) (exceptTransport (clientClaim codec site)) w =
      (match received (decodeClaim codec) (w.post surroundings (.claim w.credential)).1 with
        | .ok claimed => .ok (some claimed)
        | .error e => if e = .transportError then .ok none else .error e,
        (w.post surroundings (.claim w.credential)).2) := by
  simp only [exceptTransport, clientClaim, ask, Program.bind_eq, Program.perform, Program.bind,
    Program.catching, Program.run, answer]
  cases received (decodeClaim codec) (w.post surroundings (.claim w.credential)).1 with
  | ok claimed => rfl
  | error e =>
      simp only [Program.ofExcept, Program.bind, Program.catching]
      split
      · rfl
      · rfl

variable (surroundings) in
theorem run_landing_acknowledge
    (landed jobId : Uuid) (leaseToken : String) (result : JobAcknowledgement)
    (w : RunnerState codec ω) :
    Program.run (answer surroundings)
        (exceptRetryable (clientAcknowledge (.land landed) jobId leaseToken result)) w =
      (match acknowledgeOutcome surroundings w jobId leaseToken result with
        | .ok _ => .ok true
        | .error e => if retryable e = true then .ok false else .error e,
        afterAcknowledge surroundings w jobId leaseToken result) := by
  unfold acknowledgeOutcome afterAcknowledge
  simp only [exceptRetryable, clientAcknowledge, ask, Program.bind_eq, Program.perform,
    Program.bind, Program.catching, Program.run, answer]
  cases received decodeAcknowledge
      (w.post surroundings (.acknowledge w.credential jobId leaseToken result)).1 with
  | ok _ => rfl
  | error e =>
      simp only [Program.ofExcept, Program.bind, Program.catching]
      split
      · rfl
      · rfl

theorem leavesRow_ret
    (jobId : Uuid) (w : RunnerState codec ω) :
    LeavesRow surroundings jobId (.ret ()) w :=
  ⟨rfl, rfl⟩

/-- What leaves the store is passed over. -/
theorem leavesRow_bind
    {α : Type} {jobId : Uuid} {p : Daemon α} {next : α → Daemon Unit} {w w' : RunnerState codec ω}
    {a : α}
    (hrun : Program.run (answer surroundings) p w = (.ok a, w'))
    (hstore : w'.store.get jobId = w.store.get jobId) :
    LeavesRow surroundings jobId (p.bind next) w ↔ LeavesRow surroundings jobId (next a) w' := by
  unfold LeavesRow
  rw [Program.run_bind, hrun]
  simp only [hstore]

theorem leavesRow_landPendingResult_iff
    {jobId : Uuid} {result : JobAcknowledgement} {w : RunnerState codec ω}
    (hclaimed : w.store.statusOf jobId = some .claimed) :
    LeavesRow surroundings jobId (landPendingResult codec config jobId result) w ↔
      landsNothing surroundings
        (Program.run (answer surroundings) (refreshCredential config) w).2 jobId result = true := by
  obtain ⟨hok, hstore⟩ := run_refreshCredential config surroundings w
  cases hrefresh : Program.run (answer surroundings) (refreshCredential config) w with
  | mk outcome w₁ =>
      rw [hrefresh] at hok hstore
      cases hok
      have hclaim := run_claim surroundings (.land jobId) w₁
      obtain ⟨row, hrow, _⟩ := Option.map_eq_some_iff.mp hclaimed
      have hrow₁ : (w₁.post surroundings (.claim w₁.credential)).2.store.get jobId = some row := by
        rw [← hrow]
        exact congrArg (fun store => store.get jobId) hstore
      have hclaimed₁ :
          (w₁.post surroundings (.claim w₁.credential)).2.store.statusOf jobId = some .claimed := by
        rw [← hclaimed]
        exact congrArg (fun store => store.statusOf jobId) hstore
      unfold landPendingResult landsNothing
      simp only [Program.bind_eq]
      rw [leavesRow_bind hrefresh (congrArg (fun store => store.get jobId) hstore)]
      cases hreceived :
          received (decodeClaim codec) (w₁.post surroundings (.claim w₁.credential)).1 with
      | error e =>
          rw [hreceived] at hclaim
          by_cases he : e = .transportError
          · simp only [he, if_true] at hclaim
            rw [leavesRow_bind hclaim rfl]
            exact iff_of_true (leavesRow_ret _ _) (by simp [he])
          · simp only [he, if_false] at hclaim
            refine iff_of_false (not_leavesRow_of_raised (e := e) ?_) (by simpa using he)
            rw [Program.run_bind, hclaim]
      | ok claimed =>
          rw [hreceived] at hclaim
          rw [leavesRow_bind hclaim rfl]
          cases claimed with
          | noJob =>
              refine iff_of_false (not_leavesRow_of_completed hclaimed₁ ?_) (by simp)
              exact safe_markPendingTerminal_completed hrow₁
          | denied reason =>
              refine iff_of_false (not_leavesRow_of_completed hclaimed₁ ?_) (by simp)
              exact safe_then_markPendingTerminal_completed (noteIfRevoked_only (by rfl) reason)
                hrow₁
          | envelope job =>
              by_cases hjob : job.jobId = jobId
              · have hacknowledge := run_landing_acknowledge surroundings jobId job.jobId
                  job.leaseToken result (w₁.post surroundings (.claim w₁.credential)).2
                simp only [hjob, if_true, decide_true, Bool.true_and]
                rw [hjob] at hacknowledge
                cases houtcome : acknowledgeOutcome surroundings
                    (w₁.post surroundings (.claim w₁.credential)).2 jobId job.leaseToken
                    result with
                | ok _ =>
                    rw [houtcome] at hacknowledge
                    rw [leavesRow_bind hacknowledge rfl]
                    refine iff_of_false (not_leavesRow_of_completed hclaimed₁ ?_) (by simp)
                    exact safe_markPendingTerminal_completed hrow₁
                | error e =>
                    rw [houtcome] at hacknowledge
                    by_cases he : retryable e = true
                    · simp only [he, if_true] at hacknowledge
                      rw [leavesRow_bind hacknowledge rfl]
                      exact iff_of_true (leavesRow_ret _ _) he
                    · simp only [he] at hacknowledge
                      refine iff_of_false (not_leavesRow_of_raised (e := e) ?_) he
                      rw [Program.run_bind, hacknowledge]
                      rfl
              · simp only [hjob, if_false]
                refine iff_of_false (not_leavesRow_of_completed hclaimed₁ ?_) (by simp)
                exact safe_then_markPendingTerminal_completed (only_askStore rfl) hrow₁

/-- A result of a claimed job leaves its row where it is denied and lands nothing. -/
theorem leavesRow_completeJob_iff
    {jobId : Uuid} {leaseToken : String} {result : JobAcknowledgement} {w : RunnerState codec ω}
    (hclaimed : w.store.statusOf jobId = some .claimed) :
    LeavesRow surroundings jobId (completeJob codec config jobId leaseToken result) w ↔
      acknowledgeOutcome surroundings w jobId leaseToken result = .error .jobProtocolDenied ∧
        w.onStoreThread = true ∧
        landsNothing surroundings (beforeLanding config surroundings w jobId leaseToken result)
          jobId result = true := by
  have hclauses : LeavesRow surroundings jobId (completeJob codec config jobId leaseToken result)
        w ↔
      LeavesRow surroundings jobId
        (completeClauses codec config jobId leaseToken result
          (failureOf (acknowledgeOutcome surroundings w jobId leaseToken result)))
        (afterAcknowledge surroundings w jobId leaseToken result) := by
    unfold LeavesRow
    rw [run_completeJob]
    rfl
  have hafter : (afterAcknowledge surroundings w jobId leaseToken result).store.statusOf jobId =
      some .claimed := hclaimed
  obtain ⟨row, hrow, _⟩ := Option.map_eq_some_iff.mp hafter
  rw [hclauses]
  cases houtcome : acknowledgeOutcome surroundings w jobId leaseToken result with
  | ok _ =>
      refine iff_of_false (not_leavesRow_of_completed hafter ?_) (by simp)
      exact safe_retire_status (.inl ⟨rfl, rfl⟩) hrow
  | error e =>
      cases e with
      | jobProtocolDenied =>
          simp only [failureOf, completeClauses, Program.bind_eq, true_and]
          cases hthread : w.onStoreThread with
          | false =>
              have hoff := (run_askStore_off_thread surroundings
                (w := afterAcknowledge surroundings w jobId leaseToken result)
                (.recordPending jobId leaseToken result .invalidOrExpired) hthread).1
              refine iff_of_false (not_leavesRow_of_raised (e := .programmingError) ?_) (by simp)
              rw [Program.run_bind, hoff]
          | true =>
              obtain ⟨w₁, hrecorded, hstore⟩ : ∃ w₁,
                  Program.run (answer surroundings)
                      (askStore (.recordPending jobId leaseToken result .invalidOrExpired))
                      (afterAcknowledge surroundings w jobId leaseToken result) = (.ok (), w₁) ∧
                    ∀ j, w₁.store.get j = w.store.get j := by
                have hanswer : answer surroundings
                    (.store (.recordPending jobId leaseToken result .invalidOrExpired))
                    (afterAcknowledge surroundings w jobId leaseToken result) = (.ok (), _) :=
                  if_pos hthread
                exact ⟨_, (run_askStore surroundings _ _).trans hanswer, fun _ => rfl⟩
              have hclaimed₁ : w₁.store.statusOf jobId = some .claimed := by
                rw [← hclaimed, LocalStore.statusOf, LocalStore.statusOf, hstore]
              rw [leavesRow_bind hrecorded (hstore jobId),
                leavesRow_landPendingResult_iff hclaimed₁]
              have hbefore : beforeLanding config surroundings w jobId leaseToken result =
                  (Program.run (answer surroundings) (refreshCredential config) w₁).2 := by
                unfold beforeLanding
                rw [Program.bind_eq, Program.run_bind, hrecorded]
              rw [hbefore]
              simp
      | transportError =>
          refine iff_of_false ?_ (by simp)
          rintro ⟨hok, _⟩
          simp only [failureOf, completeClauses, Program.bind_eq] at hok
          rw [Program.run_bind] at hok
          split at hok
          · cases hok
          · cases hok
      | _ => exact iff_of_false (not_leavesRow_of_raised rfl) (by simp)

theorem not_leavesRow_markAbandoned
    {jobId : Uuid} {w : RunnerState codec ω}
    (hclaimed : w.store.statusOf jobId = some .claimed) :
    ¬ LeavesRow surroundings jobId (askStore (.markAbandoned jobId)) w := by
  obtain ⟨row, hrow, _⟩ := Option.map_eq_some_iff.mp hclaimed
  exact not_leavesRow_of_status .abandoned (by decide) hclaimed
    (safe_retire_status (.inr ⟨rfl, rfl⟩) hrow)

/-- A job that is resumed leaves its row where it is resumed in vain. -/
theorem leavesRow_resumed_iff
    {job : LocalJob} {w : RunnerState codec ω}
    (hreview : config.hasReview = true)
    (hclaimed : w.store.statusOf job.jobId = some .claimed) :
    LeavesRow surroundings job.jobId (recoverLease codec config job .active) w ↔
      resumedInVain config surroundings w job = true := by
  have hreviewed := run_review surroundings job.envelope w
  unfold resumedInVain
  simp only [recoverLease]
  rw [if_pos hreview, Program.bind_eq]
  cases hresult : (answer surroundings (.review job.envelope) w).1 with
  | none =>
      rw [hresult] at hreviewed
      refine iff_of_false (not_leavesRow_of_raised (e := .executorError) ?_) (by simp)
      rw [Program.run_bind, hreviewed]
  | some result =>
      rw [hresult] at hreviewed
      rw [leavesRow_bind hreviewed rfl]
      have hclaimed₁ : (answer surroundings (.review job.envelope) w).2.store.statusOf
          job.jobId = some .claimed := hclaimed
      simp only [Bool.and_eq_true, decide_eq_true_eq]
      exact leavesRow_completeJob_iff hclaimed₁

end InVain

/-! ## The rows the loop finds -/

section Visits

variable {codec : Codec} {ω : Type} {config : DaemonConfig} {surroundings : Surroundings ω}

theorem LocalStore.listClaimed_nodup
    (store : LocalStore codec) :
    (store.listClaimed.map LocalJob.jobId).Nodup := by
  unfold LocalStore.listClaimed
  refine ((List.perm_insertionSort _ _).map LocalJob.jobId).nodup_iff.mpr ?_
  exact (List.filter_sublist.map LocalJob.jobId).nodup store.jobs.nodup

/-- The jobs still to come have their rows as they were listed. -/
structure Listed (jobs : List LocalJob) (store : LocalStore codec) : Prop where
  nodup : (jobs.map LocalJob.jobId).Nodup
  stored : ∀ job ∈ jobs, store.get job.jobId = some job
  claimed : ∀ job ∈ jobs, job.status = .claimed

theorem LocalStore.listed
    (store : LocalStore codec) :
    Listed store.listClaimed store where
  nodup := store.listClaimed_nodup
  stored := by
    intro job hjob
    exact (LocalStore.mem_listClaimed.mp hjob).1
  claimed := by
    intro job hjob
    exact (LocalStore.mem_listClaimed.mp hjob).2

theorem Listed.recovered
    {job : LocalJob} {jobs : List LocalJob} {w : RunnerState codec ω}
    (h : Listed (job :: jobs) w.store) :
    Listed jobs (recovered config surroundings w job).2.store := by
  obtain ⟨hnotin, hnodup⟩ := List.nodup_cons.mp h.nodup
  constructor
  · exact hnodup
  · intro other hother
    have hne : other.jobId ≠ job.jobId := by
      intro heq
      apply hnotin
      rw [← heq]
      exact List.mem_map_of_mem hother
    exact recovered_get hne (h.stored other (List.mem_cons_of_mem job hother))
  · intro other hother
    exact h.claimed other (List.mem_cons_of_mem job hother)

/-- The loop finds every row claimed. -/
theorem recoverVisits_claimed
    {w : RunnerState codec ω} {v : RunnerState codec ω × LocalJob}
    (hv : v ∈ recoverVisits config surroundings w) :
    v.1.store.statusOf v.2.jobId = some .claimed := by
  unfold recoverVisits at hv
  cases hlist : Program.run (answer surroundings) (askStore .listClaimed) w with
  | mk outcome w' =>
      rw [hlist] at hv
      cases outcome with
      | error e => cases hv
      | ok jobs =>
          have hlisted : Listed jobs w'.store := by
            have hsafe : Program.Safe (answer surroundings) (fun _ _ => True)
                (fun _ _ => True) (askStore .listClaimed)
                (fun jobs w' => Listed jobs w'.store) (fun _ _ => True) w := by
              refine safe_askStore_of trivial ?_ (fun _ => trivial)
              intro jobs store _ _ happly
              cases happly
              exact w.store.listed
            have hpost := hsafe.outcome (fun _ _ => trivial)
            rw [hlist] at hpost
            exact hpost
          obtain ⟨rest, hrest⟩ := Program.visits_rest
            (I := fun jobs w' => Listed jobs w'.store) (fun _ _ _ h => h.recovered) hlisted hv
          unfold LocalStore.statusOf
          rw [hrest.stored v.2 (by simp)]
          simp only [Option.map_some]
          rw [hrest.claimed v.2 (by simp)]

end Visits

/-! ## What ends the recovery -/

section Ends

variable {codec : Codec} {ω : Type} {config : DaemonConfig} {surroundings : Surroundings ω}

variable (surroundings) in
/--
The answers and states at which `recover` raises: a heartbeat whose response the client
cannot decode, an executor that raises, and in `complete_job` what ends the poll loop too.
-/
def endsRecovery (w : RunnerState codec ω) : DaemonOp → Bool
  | .heartbeat _ jobId leaseToken =>
      match received decodeHeartbeat
          (w.post surroundings (.heartbeat w.credential jobId leaseToken)).1 with
      | .ok _ => false
      | .error e => e ≠ .transportError
  | .review job => (surroundings.review job w.outside).1.isNone
  | op => endsLoop surroundings w op

theorem raisesAt_resumed
    (job : JobEnvelope) (w : RunnerState codec ω) :
    Program.RaisesAt (answer surroundings) (endsRecovery surroundings)
      (do
        let result ← review job
        completeJob codec config job.jobId job.leaseToken result) w := by
  refine Program.raisesAt_bind (Program.raisesAt_call ?_ ?_) ?_
  · intro hfatal
    have hnone : (answer surroundings (.review job) w).1 = none :=
      Option.isNone_iff_eq_none.mp hfatal
    rw [hnone]
    rfl
  · intro hfatal
    have hsome : (answer surroundings (.review job) w).1.isSome = true :=
      Option.isNone_eq_false_iff.mp hfatal
    obtain ⟨result, hresult⟩ := Option.isSome_iff_exists.mp hsome
    rw [hresult]
    exact Program.raisesAt_ret _ _
  · intro result w'
    refine (raisesAt_completeJob job.jobId job.leaseToken result w').congr
      (completeJob_only job.jobId job.leaseToken result) ?_
    intro w'' op hop
    cases op with
    | heartbeat site jobId leaseToken => cases hop
    | review job => cases hop
    | _ => rfl

theorem raisesAt_recoverJob
    (job : LocalJob) (w : RunnerState codec ω) :
    Program.RaisesAt (answer surroundings) (endsRecovery surroundings)
      (recoverJob codec config job) w := by
  have habandon : ∀ w' : RunnerState codec ω, Program.RaisesAt (answer surroundings)
      (endsRecovery surroundings) (askStore (.markAbandoned job.jobId)) w' := by
    intro w'
    refine (raisesAt_askStore (.markAbandoned job.jobId) w').congr
      (P := fun op => op = .store (.markAbandoned job.jobId)) (only_askStore rfl) ?_
    rintro w'' _ rfl
    rfl
  rw [recoverJob_eq]
  refine Program.raisesAt_call ?_ ?_
  · intro hfatal
    simp only [endsRecovery] at hfatal
    simp only [answer]
    split at hfatal
    · cases hfatal
    · next e he =>
        rw [he, recoverOutcome, if_neg (by simpa using hfatal)]
        rfl
  · intro hfatal
    simp only [endsRecovery] at hfatal
    simp only [answer]
    split at hfatal
    · next lease he =>
        rw [he]
        cases lease with
        | invalidOrExpired => exact habandon _
        | cancelled => exact habandon _
        | active =>
            simp only [recoverOutcome, recoverLease]
            split
            · exact raisesAt_resumed job.envelope _
            · exact Program.raisesAt_ret _ _
    · next e he =>
        rw [he, recoverOutcome, if_pos (by simpa using hfatal)]
        exact Program.raisesAt_ret _ _

/-- `recover` raises exactly at the operations that end it. -/
theorem raisesAt_recover
    (config : DaemonConfig) (surroundings : Surroundings ω) (w : RunnerState codec ω) :
    Program.RaisesAt (answer surroundings) (endsRecovery surroundings)
      (recover codec config) w := by
  refine Program.raisesAt_bind ?_ (fun jobs w' =>
    Program.raisesAt_forEach (fun job _ s => raisesAt_recoverJob job s) w')
  refine (raisesAt_askStore .listClaimed w).congr
    (P := fun op => op = .store .listClaimed) (only_askStore rfl) ?_
  rintro w' _ rfl
  rfl

end Ends

end Runner
end PrReviewer
