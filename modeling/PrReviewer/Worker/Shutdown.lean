import PrReviewer.Worker.Main

/-!
# Leases of the worker at a shutdown

While the thread of a claimed job is alive the worker should neither hand the job back
nor complete it, and a job whose thread outlives the shutdown deadline should keep its
lease.  `run_worker` waits for the thread on every way but one: past the deadline
`run_job_with_shutdown_deadline` raises, and the handler in `run_worker` that takes every
exception for a crash fails the job.
-/

namespace PrReviewer
namespace Worker

open Lib Hosted

section Leases

variable (hashRunnerCredential : String → String) (config : WorkerConfig)

/-- The status of a job and who holds it. -/
def leaseHolder (hosted : HostedState) (jobId : Uuid) :
    Option (ReviewJobStatus × Option String) :=
  (hosted.reviewJobs.find? jobId).map (fun row => (row.status, row.lockedBy))

/-- The thread of the claim is alive, or was when the shutdown deadline passed. -/
def WorkerClaim.inFlight (c : WorkerClaim) : Bool :=
  c.thread = .alive || c.overran

def WorkerAction.ofProcess : WorkerAction → Bool
  | .elsewhere _ => false
  | _ => true

/-- A step of the process leaves every job in flight with its status and its holder. -/
def KeepsLeases (s : WorkerState) (a : WorkerAction) : Prop :=
  a.ofProcess = true →
    ∀ c ∈ s.claims, c.inFlight = true →
      leaseHolder (workerStep config hashRunnerCredential s a).hosted c.job.id =
        leaseHolder s.hosted c.job.id

instance (s : WorkerState) (a : WorkerAction) :
    Decidable (KeepsLeases hashRunnerCredential config s a) :=
  inferInstanceAs (Decidable (_ → _))

/-- The join with the shutdown deadline is over, and the thread is alive. -/
def passesDeadline (s : WorkerState) : WorkerAction → Bool
  | .main _ => s.pc = .deadlineTest && s.threadIsAlive
  | _ => false

end Leases

/-! ## Where a thread may be alive -/

/-- `run_job_with_shutdown_deadline` watches the thread. -/
def MainPc.watches : MainPc → Bool
  | .aliveTest => true
  | .waitingStop => true
  | .sleeping => true
  | .settingJobStop => true
  | .joiningDeadline => true
  | .deadlineTest => true
  | _ => false

/-- No deadline was passed, and only a thread that is being watched is alive. -/
structure Watched (pc : MainPc) (claims : List WorkerClaim) : Prop where
  inTime : ∀ c ∈ claims, c.overran = false
  earlier : ∀ c ∈ claims.tail, c.thread ≠ .alive
  current : pc.watches = false → ∀ c ∈ claims.head?, c.thread ≠ .alive

section Invariant

variable {pc : MainPc} {claims : List WorkerClaim}

theorem watched_start
    (hosted : HostedState) :
    Watched (WorkerState.start hosted).pc (WorkerState.start hosted).claims := by
  constructor
  · intro c hc
    cases hc
  · intro c hc
    cases hc
  · intro _ c hc
    cases hc

/-- No claim is in flight where no thread is watched. -/
theorem Watched.not_inFlight
    (h : Watched pc claims)
    (hpc : pc.watches = false)
    {c : WorkerClaim}
    (hc : c ∈ claims) :
    c.inFlight = false := by
  have hquiet : c.thread ≠ .alive := by
    cases claims with
    | nil => cases hc
    | cons first rest =>
        rcases List.mem_cons.mp hc with rfl | hrest
        · exact h.current hpc c rfl
        · exact h.earlier c hrest
  unfold WorkerClaim.inFlight
  rw [h.inTime c hc, decide_eq_false hquiet]
  rfl

/-- `run_worker` may go where it watches the thread, and anywhere once it has ended. -/
theorem Watched.goto
    (h : Watched pc claims)
    {pc' : MainPc}
    (hended : pc'.watches = true ∨ ∀ c ∈ claims.head?, c.thread ≠ .alive) :
    Watched pc' claims := by
  refine ⟨h.inTime, h.earlier, ?_⟩
  intro hpc' c hc
  rcases hended with hwatches | hended
  · rw [hwatches] at hpc'
    cases hpc'
  · exact hended c hc

theorem forall_modify
    {P : WorkerClaim → Prop} {f : WorkerClaim → WorkerClaim}
    (hf : ∀ c, P c → P (f c))
    (k : Nat)
    (h : ∀ c ∈ claims, P c) :
    ∀ c ∈ claims.modify k f, P c := by
  induction claims generalizing k with
  | nil =>
      intro c hc
      rw [List.modify_nil] at hc
      cases hc
  | cons first rest ih =>
      have hrest : ∀ c ∈ rest, P c := fun c hc => h c (List.mem_cons_of_mem first hc)
      intro c hc
      cases k with
      | zero =>
          rw [List.modify_zero_cons] at hc
          rcases List.mem_cons.mp hc with rfl | hc
          · exact hf first (h first (by simp))
          · exact hrest c hc
      | succ k =>
          rw [List.modify_succ_cons] at hc
          rcases List.mem_cons.mp hc with rfl | hc
          · exact h c (by simp)
          · exact ih k hrest c hc

/-- A step that neither starts a thread nor passes a deadline. -/
theorem Watched.modify
    (h : Watched pc claims)
    {f : WorkerClaim → WorkerClaim}
    (hoverran : ∀ c, (f c).overran = c.overran)
    (hthread : ∀ c, (f c).thread = .alive → c.thread = .alive)
    (k : Nat) :
    Watched pc (claims.modify k f) := by
  have hquiet : ∀ c : WorkerClaim, c.thread ≠ .alive → (f c).thread ≠ .alive := by
    intro c hc halive
    exact hc (hthread c halive)
  have hinTime : ∀ c ∈ claims.modify k f, c.overran = false := by
    refine forall_modify ?_ k h.inTime
    intro c hc
    rw [hoverran]
    exact hc
  cases claims with
  | nil =>
      rw [List.modify_nil]
      exact h
  | cons first rest =>
      cases k with
      | zero =>
          rw [List.modify_zero_cons] at hinTime ⊢
          refine ⟨hinTime, h.earlier, ?_⟩
          rintro hpc c ⟨⟩
          exact hquiet first (h.current hpc first rfl)
      | succ k =>
          rw [List.modify_succ_cons] at hinTime ⊢
          exact ⟨hinTime, forall_modify hquiet k h.earlier, h.current⟩

end Invariant

/-! ## Steps -/

section Steps

variable {config : WorkerConfig} {s : WorkerState}

theorem threadIsAlive_eq_false :
    s.threadIsAlive = false ↔ ∀ c ∈ s.claims.head?, c.thread ≠ .alive := by
  unfold WorkerState.threadIsAlive
  cases s.claims.head? with
  | none => simp
  | some c => simp

theorem watched_claimStep
    (chance : Chance)
    (h : Watched s.pc s.claims)
    (hpc : s.pc.watches = false) :
    Watched (claimStep config chance s).pc (claimStep config chance s).claims := by
  have hquiet := h.current hpc
  unfold claimStep
  split
  · exact h.goto (.inr hquiet)
  · cases hclaim : claimReviewJob s.hosted config.workerId chance.tie with
    | mk job? hosted =>
        cases job? with
        | none => exact h.goto (.inr hquiet)
        | some job =>
            constructor
            · intro c hc
              rcases List.mem_cons.mp hc with rfl | hc
              · rfl
              · exact h.inTime c hc
            · intro c hc halive
              have hnot := h.not_inFlight hpc hc
              unfold WorkerClaim.inFlight at hnot
              rw [decide_eq_true halive] at hnot
              cases hnot
            · rintro _ c ⟨⟩ halive
              cases halive

@[simp] theorem storeStep_claims
    (chance : Chance)
    (statement : HostedState → Uuid → Except HostedError HostedState)
    (done refused : MainPc) (s : WorkerState) :
    (storeStep chance statement done refused s).claims = s.claims := by
  unfold storeStep
  split
  · rfl
  · rfl

/-- A thread is started where none is alive. -/
theorem Watched.started
    {pc' : MainPc}
    (h : Watched s.pc s.claims)
    (hpc' : pc'.watches = true) :
    Watched pc' (s.claims.modify 0 (fun c => { c with thread := .alive })) := by
  have hinTime := forall_modify (f := fun c => { c with thread := .alive })
    (fun _ hc => hc) 0 h.inTime
  refine ⟨hinTime, ?_, ?_⟩
  · cases hclaims : s.claims with
    | nil =>
        intro c hc
        cases hc
    | cons first rest =>
        have hearlier := h.earlier
        rw [hclaims] at hearlier
        exact hearlier
  · intro hnot
    rw [hpc'] at hnot
    cases hnot

/-- A step of `run_worker` that passes no deadline. -/
theorem watched_mainStep
    (chance : Chance)
    (h : Watched s.pc s.claims)
    (hdeadline : passesDeadline s (.main chance) = false) :
    Watched (mainStep config chance s).pc (mainStep config chance s).claims := by
  have hleave : s.pc.watches = false → ∀ pc', Watched pc' s.claims := by
    intro hpc pc'
    exact h.goto (.inr (h.current hpc))
  have hstay : ∀ pc', pc'.watches = true → Watched pc' s.claims := by
    intro pc' hpc'
    exact h.goto (.inl hpc')
  unfold mainStep
  cases hpc : s.pc with
  | loopTest => exact hleave (by rw [hpc]; rfl) _
  | iterationTest =>
      simp only
      split
      · exact hleave (by rw [hpc]; rfl) _
      · exact hleave (by rw [hpc]; rfl) _
  | claiming => exact watched_claimStep chance h (by rw [hpc]; rfl)
  | polling => exact hleave (by rw [hpc]; rfl) _
  | startingRenewal =>
      exact (hleave (by rw [hpc]; rfl) _).modify (by intro _; rfl) (by intro _ hc; exact hc) 0
  | startingThread => exact h.started rfl
  | aliveTest =>
      cases halive : s.threadIsAlive with
      | true => exact hstay _ rfl
      | false => exact h.goto (.inr (threadIsAlive_eq_false.mp halive))
  | waitingStop =>
      cases s.stop with
      | true => exact hstay _ rfl
      | false => exact hstay _ rfl
  | sleeping => exact hstay _ rfl
  | settingJobStop => exact (hstay _ rfl).modify (by intro _; rfl) (by intro _ hc; exact hc) 0
  | joiningDeadline =>
      simp only
      split
      · exact h
      · exact hstay _ rfl
  | deadlineTest =>
      have hended : s.threadIsAlive = false := by
        unfold passesDeadline at hdeadline
        rw [hpc] at hdeadline
        exact hdeadline
      simp only [hended]
      exact h.goto (.inr (threadIsAlive_eq_false.mp hended))
  | joining => exact hleave (by rw [hpc]; rfl) _
  | failingCrashed =>
      simp only [failStep, storeStep_claims]
      exact hleave (by rw [hpc]; rfl) _
  | stoppingRenewal next =>
      exact (hleave (by rw [hpc]; rfl) _).modify (by intro _; rfl) (by intro _ hc; exact hc) 0
  | joiningRenewal next =>
      simp only
      split
      · exact h
      · exact hleave (by rw [hpc]; rfl) _
  | stopTest => exact hleave (by rw [hpc]; rfl) _
  | failingShutdown =>
      simp only [failStep, storeStep_claims]
      exact hleave (by rw [hpc]; rfl) _
  | completing =>
      simp only [completeStep, storeStep_claims]
      exact hleave (by rw [hpc]; rfl) _
  | ended how => exact h

/-- A step of a renewal thread. -/
theorem watched_renewalStep
    (k : Nat) (chance : Chance)
    (h : Watched s.pc s.claims) :
    Watched (renewalStep config k chance s).pc (renewalStep config k chance s).claims := by
  unfold renewalStep
  cases s.claims[k]? with
  | none => exact h
  | some c =>
      simp only
      cases c.renewal with
      | notStarted => exact h
      | ended => exact h
      | waiting => exact h.modify (by intro _; rfl) (by intro _ hc; exact hc) k
      | renewing => exact h.modify (by intro _; rfl) (by intro _ hc; exact hc) k

/-- The end of a job thread. -/
theorem watched_jobEndsStep
    (k : Nat) (raises : Bool)
    (h : Watched s.pc s.claims) :
    Watched (jobEndsStep k raises s).pc (jobEndsStep k raises s).claims := by
  refine h.modify ?_ ?_ k
  · intro c
    split
    · rfl
    · rfl
  · intro c
    split
    · next halive => exact fun _ => halive
    · exact id

/-- The invariant is kept by every step that passes no deadline. -/
theorem watched_workerStep
    (hashRunnerCredential : String → String) (a : WorkerAction)
    (h : Watched s.pc s.claims)
    (hdeadline : passesDeadline s a = false) :
    Watched (workerStep config hashRunnerCredential s a).pc
      (workerStep config hashRunnerCredential s a).claims := by
  cases a with
  | main chance => exact watched_mainStep chance h hdeadline
  | renewal k chance => exact watched_renewalStep k chance h
  | jobEnds k raises => exact watched_jobEndsStep k raises h
  | setStop => exact h
  | elsewhere action => exact h

/-- `run_worker` leaves the store alone while it watches a thread. -/
theorem mainStep_hosted
    (chance : Chance)
    (hpc : s.pc.watches = true) :
    (mainStep config chance s).hosted = s.hosted := by
  unfold mainStep
  cases hs : s.pc with
  | aliveTest => rfl
  | waitingStop => rfl
  | sleeping => rfl
  | settingJobStop => rfl
  | joiningDeadline =>
      simp only
      split
      · rfl
      · rfl
  | deadlineTest =>
      simp only
      split
      · rfl
      · rfl
  | _ => simp [hs, MainPc.watches] at hpc

/-- A renewal leaves every job with its status and its holder. -/
theorem leaseHolder_renew
    (chance : Chance) (hosted : HostedState) (jobId : Uuid) (workerId : String) (j : Uuid) :
    leaseHolder (attempt chance hosted (renewReviewJobLease hosted jobId workerId)).2 j =
      leaseHolder hosted j := by
  unfold attempt
  split
  · rfl
  · cases hrenew : renewReviewJobLease hosted jobId workerId with
    | error e => rfl
    | ok hosted' =>
        obtain ⟨row, _, _, _, rfl⟩ := renewReviewJobLease_eq_ok hrenew
        unfold leaseHolder
        simp only
        rw [HostedState.alterJob_find?]
        split
        · rw [Option.map_map]
          rfl
        · rfl

theorem leaseHolder_renewalStep
    (k : Nat) (chance : Chance) (s : WorkerState) (j : Uuid) :
    leaseHolder (renewalStep config k chance s).hosted j = leaseHolder s.hosted j := by
  unfold renewalStep
  cases s.claims[k]? with
  | none => rfl
  | some c =>
      simp only
      cases c.renewal with
      | notStarted => rfl
      | ended => rfl
      | waiting => rfl
      | renewing => exact leaseHolder_renew chance s.hosted c.job.id config.workerId j

/-- No step takes a job in flight from the worker, as long as no deadline was passed. -/
theorem keepsLeases_of_watched
    (hashRunnerCredential : String → String)
    (h : Watched s.pc s.claims)
    (a : WorkerAction) :
    KeepsLeases hashRunnerCredential config s a := by
  intro hprocess c hc hinFlight
  cases a with
  | main chance =>
      cases hpc : s.pc.watches with
      | true =>
          change leaseHolder (mainStep config chance s).hosted c.job.id = _
          rw [mainStep_hosted chance hpc]
      | false =>
          rw [h.not_inFlight hpc hc] at hinFlight
          cases hinFlight
  | renewal k chance => exact leaseHolder_renewalStep k chance s c.job.id
  | jobEnds k raises => rfl
  | setStop => rfl
  | elsewhere action => cases hprocess

/-- Past the deadline the next call of the store fails the job, if the worker holds it. -/
theorem failed_past_deadline
    {chance chance' : Chance} {c : WorkerClaim} {row : ReviewJobRow}
    (hpass : passesDeadline s (.main chance) = true)
    (hclaim : s.claims.head? = some c)
    (hrow : s.hosted.reviewJobs.find? c.job.id = some row)
    (hheld : row.heldBy config.workerId = true)
    (havailable : chance'.unavailable = false) :
    (mainStep config chance' (mainStep config chance s)).hosted.reviewJobs.find? c.job.id =
      some (row.failedOnce .workerCrashed s.hosted.now) := by
  obtain ⟨hpc, halive⟩ : s.pc = .deadlineTest ∧ s.threadIsAlive = true := by
    simpa [passesDeadline] using hpass
  obtain ⟨rest, hclaims⟩ := List.head?_eq_some_iff.mp hclaim
  have hraised : mainStep config chance s =
      s.onCurrent .failingCrashed (fun c => { c with overran := true }) := by
    unfold mainStep
    rw [hpc]
    exact if_pos halive
  have hfail : ∃ hosted', failReviewJob s.hosted c.job.id config.workerId .workerCrashed =
      .ok hosted' ∧
      hosted'.reviewJobs.find? c.job.id = some (row.failedOnce .workerCrashed s.hosted.now) := by
    unfold failReviewJob updateReviewJob
    rw [hrow]
    simp only [hheld, if_true]
    refine ⟨_, rfl, ?_⟩
    rw [insertAgentEvent_reviewJobs]
    have hfound := s.hosted.alterJob_find? c.job.id
      (fun r => r.failedOnce .workerCrashed s.hosted.now)
      (fun r => r.failedOnce_id .workerCrashed s.hosted.now) c.job.id
    rw [if_pos rfl, hrow] at hfound
    exact hfound
  obtain ⟨hosted', hok, hfailed⟩ := hfail
  rw [hraised]
  simp only [mainStep, WorkerState.onCurrent, failStep, storeStep, hclaims,
    List.modify_zero_cons, attempt, havailable, hok]
  exact hfailed

end Steps

/-! ## Runs -/

/--
In a run in which no shutdown deadline passes with the thread alive, the worker takes no
job from a thread that is running it.
-/
theorem leases_kept_before_deadline
    (hashRunnerCredential : String → String) (config : WorkerConfig)
    (hosted : HostedState) (actions : List WorkerAction)
    (hdeadline :
      Along (workerStep config hashRunnerCredential)
        (fun s a => passesDeadline s a = false) (.start hosted) actions) :
    Along (workerStep config hashRunnerCredential)
      (KeepsLeases hashRunnerCredential config) (.start hosted) actions :=
  along_invariant (I := fun s => Watched s.pc s.claims)
    (fun _ a h hpass => watched_workerStep hashRunnerCredential a h hpass)
    (fun _ a h _ => keepsLeases_of_watched hashRunnerCredential h a)
    hdeadline (watched_start hosted)

/-- A worker for one job. -/
def sampleWorker : WorkerConfig where
  workerId := "worker_python"
  maxIterations := none

/-- A step that meets nothing out of the ordinary. -/
def quietChance : Chance where
  tie := firstJobId
  timedOut := false
  unavailable := false

/-- One job waits in the queue. -/
def queuedJob : HostedState :=
  exec (step sampleHash) HostedState.empty
    (pairLaptop ++ [enqueueHead "delivery-1" firstJobId "head-1" firstHead_ne])

/-- The job is claimed and started, and the stop event is set. -/
def stoppedAtWork : List WorkerAction :=
  List.replicate 6 (.main quietChance) ++ [.setStop, .main quietChance, .main quietChance]

/-- The thread ends within the deadline, and the job is failed as a shutdown. -/
theorem stopped_job_failed_after_thread :
    Along (workerStep sampleWorker sampleHash)
        (fun s a => passesDeadline s a = false) (.start queuedJob)
        (stoppedAtWork ++ .jobEnds 0 false :: List.replicate 6 (.main quietChance)) ∧
      Along (workerStep sampleWorker sampleHash)
        (KeepsLeases sampleHash sampleWorker) (.start queuedJob)
        (stoppedAtWork ++ .jobEnds 0 false :: List.replicate 6 (.main quietChance)) :=
  ⟨by decide, leases_kept_before_deadline sampleHash sampleWorker queuedJob _ (by decide)⟩

/-- The thread ignores the stop event: it is alive when the job is pending again. -/
def overranDeadline : List WorkerAction :=
  stoppedAtWork ++
    [.main { quietChance with timedOut := true }, .main quietChance, .main quietChance]

theorem overrun_job_pending_again :
    leaseHolder (exec (workerStep sampleWorker sampleHash) (.start queuedJob)
        stoppedAtWork).hosted firstJobId = some (.running, some "worker_python") ∧
      leaseHolder (exec (workerStep sampleWorker sampleHash) (.start queuedJob)
        overranDeadline).hosted firstJobId = some (.pending, none) ∧
      (exec (workerStep sampleWorker sampleHash) (.start queuedJob)
        overranDeadline).threadIsAlive = true ∧
      ¬ Along (workerStep sampleWorker sampleHash)
        (KeepsLeases sampleHash sampleWorker) (.start queuedJob) overranDeadline := by
  decide

end Worker
end PrReviewer
