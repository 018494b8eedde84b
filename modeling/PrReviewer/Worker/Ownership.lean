import PrReviewer.Worker.Shutdown

/-!
# The worker loop and lost jobs

`run_worker` should end only because the stop event is set or the iterations are used
up.  Between the claim of a job and the last call of the store about it, the job can be
lost to another writer at any statement: a webhook cancels or supersedes it, its lease
runs out and somebody else claims it, a pushed summary overwrites it.  The store reports
the loss by raising, in `complete` and in both calls of `fail`, and nothing in the loop
catches that.
-/

namespace PrReviewer
namespace Worker

open Lib Hosted

section Survival

variable (config : WorkerConfig)

/-- An exception is on its way out of `run_worker`, or has left it. -/
def MainPc.raising : MainPc → Bool
  | .stoppingRenewal .reraise => true
  | .joiningRenewal .reraise => true
  | .ended .raised => true
  | _ => false

/-- `max_iterations is not None and iterations >= max_iterations`. -/
def iterationsUsedUp (s : WorkerState) : Bool :=
  config.maxIterations.any (fun n => n ≤ (s.iterations : Int))

/-- No exception leaves the loop, and it ends for one of the two reasons it may end for. -/
structure LoopSurvives (s : WorkerState) : Prop where
  no_exception : s.pc.raising = false
  ended : ∀ how, s.pc = .ended how → s.stop = true ∨ iterationsUsedUp config s = true

/-- The job is running and locked by this worker. -/
def holdsJob (hosted : HostedState) (jobId : Uuid) : Bool :=
  (hosted.reviewJobs.find? jobId).any (fun row => row.heldBy config.workerId)

/-- The database answers, and the current job is still the worker's. -/
def ownsCurrent (chance : Chance) (s : WorkerState) : Bool :=
  s.claims.head?.all (fun c => !chance.unavailable && holdsJob config s.hosted c.job.id)

/-- No call of the store finds the current job lost, or no database. -/
def keepsJob (s : WorkerState) : WorkerAction → Bool
  | .main chance =>
      match s.pc with
      | .claiming => !chance.unavailable
      | .failingCrashed => ownsCurrent config chance s
      | .failingShutdown => ownsCurrent config chance s
      | .completing => ownsCurrent config chance s
      | _ => true
  | _ => true

end Survival

/-! ## Steps -/

section Steps

variable {config : WorkerConfig} {s : WorkerState}

/-- `store.fail` raises exactly when the worker does not hold the job. -/
theorem failReviewJob_isOk
    (hosted : HostedState) (jobId : Uuid) (error : ReviewJobErrorClass) :
    (failReviewJob hosted jobId config.workerId error).isOk =
      holdsJob config hosted jobId := by
  unfold failReviewJob updateReviewJob holdsJob
  cases hosted.reviewJobs.find? jobId with
  | none => rfl
  | some row =>
      cases hheld : row.heldBy config.workerId with
      | true => simp [hheld, Except.isOk, Except.toBool]
      | false => simp [hheld, Except.isOk, Except.toBool]

/-- `store.complete` raises exactly when the worker does not hold the job. -/
theorem completeReviewJob_isOk
    (hosted : HostedState) (jobId : Uuid) :
    (completeReviewJob hosted jobId config.workerId).isOk =
      holdsJob config hosted jobId := by
  unfold completeReviewJob updateReviewJob holdsJob
  cases hosted.reviewJobs.find? jobId with
  | none => rfl
  | some row =>
      cases hheld : row.heldBy config.workerId with
      | true => simp [hheld, Except.isOk, Except.toBool]
      | false => simp [hheld, Except.isOk, Except.toBool]

theorem attempt_raised
    (chance : Chance) (hosted : HostedState) (outcome : Except HostedError HostedState) :
    (attempt chance hosted outcome).1 = !(!chance.unavailable && outcome.isOk) := by
  unfold attempt
  cases chance.unavailable with
  | true => rfl
  | false =>
      cases outcome with
      | ok hosted' => rfl
      | error e => rfl

/-- Where a call of the store about the current job leads. -/
theorem storeStep_pc
    {statement : HostedState → Uuid → Except HostedError HostedState}
    {c : WorkerClaim} {rest : List WorkerClaim}
    (chance : Chance) (done refused : MainPc)
    (hclaims : s.claims = c :: rest)
    (hstatement : (statement s.hosted c.job.id).isOk = holdsJob config s.hosted c.job.id) :
    (storeStep chance statement done refused s).pc =
      if ownsCurrent config chance s = true then done else refused := by
  have howns : ownsCurrent config chance s =
      (!chance.unavailable && holdsJob config s.hosted c.job.id) := by
    unfold ownsCurrent
    rw [hclaims]
    rfl
  have hpc : (storeStep chance statement done refused s).pc =
      if (!(!chance.unavailable && holdsJob config s.hosted c.job.id)) = true then
        refused
      else
        done := by
    unfold storeStep
    rw [hclaims]
    simp only [attempt_raised, hstatement]
  rw [hpc, howns]
  cases (!chance.unavailable && holdsJob config s.hosted c.job.id) with
  | true => rfl
  | false => rfl

@[simp] theorem storeStep_stop
    (chance : Chance)
    (statement : HostedState → Uuid → Except HostedError HostedState)
    (done refused : MainPc) (s : WorkerState) :
    (storeStep chance statement done refused s).stop = s.stop := by
  unfold storeStep
  split
  · rfl
  · rfl

/-- A statement inside the loop is no end of it. -/
theorem LoopSurvives.of_inside
    (hraising : s.pc.raising = false)
    (hinside : ∀ how, s.pc ≠ .ended how) :
    LoopSurvives config s :=
  ⟨hraising, fun how hpc => absurd hpc (hinside how)⟩

/-- A call of the store is survived exactly when the worker owns the current job. -/
theorem loopSurvives_storeStep
    {chance : Chance} {statement : HostedState → Uuid → Except HostedError HostedState}
    {done refused : MainPc}
    (h : LoopSurvives config s)
    (hstatement : ∀ jobId,
      (statement s.hosted jobId).isOk = holdsJob config s.hosted jobId)
    (hdone : done.raising = false)
    (hreason : ∀ how, done = .ended how → s.stop = true)
    (hrefused : refused.raising = true) :
    LoopSurvives config (storeStep chance statement done refused s) ↔
      ownsCurrent config chance s = true := by
  cases hclaims : s.claims with
  | nil =>
      have hsame : storeStep chance statement done refused s = s := by
        unfold storeStep
        rw [hclaims]
      have howns : ownsCurrent config chance s = true := by
        unfold ownsCurrent
        rw [hclaims]
        rfl
      rw [hsame]
      exact ⟨fun _ => howns, fun _ => h⟩
  | cons c rest =>
      have hpc := storeStep_pc chance done refused hclaims (hstatement c.job.id)
      constructor
      · intro hsurvives
        by_contra hlost
        rw [if_neg hlost] at hpc
        have hraised := hsurvives.no_exception
        rw [hpc, hrefused] at hraised
        cases hraised
      · intro howns
        rw [if_pos howns] at hpc
        refine ⟨by rw [hpc]; exact hdone, ?_⟩
        intro how hended
        rw [hpc] at hended
        left
        rw [storeStep_stop]
        exact hreason how hended

/-- `store.fail` for a shutdown is reached only past a test of the stop event. -/
def ShutdownRequested (s : WorkerState) : Prop :=
  s.pc = .failingShutdown → s.stop = true

theorem storeStep_pc_cases
    (chance : Chance)
    (statement : HostedState → Uuid → Except HostedError HostedState)
    (done refused : MainPc) (s : WorkerState) :
    (storeStep chance statement done refused s).pc = s.pc ∨
      (storeStep chance statement done refused s).pc = done ∨
      (storeStep chance statement done refused s).pc = refused := by
  unfold storeStep
  split
  · exact .inl rfl
  · simp only
    split
    · exact .inr (.inr rfl)
    · exact .inr (.inl rfl)

theorem claimStep_pc_cases
    (config : WorkerConfig) (chance : Chance) (s : WorkerState) :
    (claimStep config chance s).pc = .ended .raised ∨
      (claimStep config chance s).pc = .polling ∨
      (claimStep config chance s).pc = .startingRenewal := by
  unfold claimStep
  split
  · exact .inl rfl
  · split
    · exact .inr (.inl rfl)
    · exact .inr (.inr rfl)

/-- The one way to `store.fail` for a shutdown. -/
theorem mainStep_failingShutdown
    {chance : Chance}
    (h : (mainStep config chance s).pc = .failingShutdown) :
    s.pc = .failingShutdown ∨ (s.pc = .stopTest ∧ s.stop = true) := by
  unfold mainStep at h
  cases hs : s.pc with
  | failingShutdown => exact .inl rfl
  | stopTest =>
      simp only [hs, WorkerState.goto] at h
      cases hstop : s.stop with
      | true => exact .inr ⟨rfl, rfl⟩
      | false => simp [hstop] at h
  | claiming =>
      simp only [hs] at h
      rcases claimStep_pc_cases config chance s with hpc | hpc | hpc <;>
        rw [hpc] at h <;> cases h
  | failingCrashed =>
      simp only [hs, failStep] at h
      rcases storeStep_pc_cases chance
          (fun hosted jobId => failReviewJob hosted jobId config.workerId .workerCrashed)
          (.stoppingRenewal .nextIteration) (.stoppingRenewal .reraise) s with
        hpc | hpc | hpc <;>
        rw [hpc] at h
      · rw [hs] at h
        cases h
      · cases h
      · cases h
  | completing =>
      simp only [hs, completeStep] at h
      rcases storeStep_pc_cases chance
          (fun hosted jobId => completeReviewJob hosted jobId config.workerId)
          .loopTest (.ended .raised) s with
        hpc | hpc | hpc <;>
        rw [hpc] at h
      · rw [hs] at h
        cases h
      · cases h
      · cases h
  | joiningRenewal next =>
      cases next <;> simp only [hs, WorkerState.goto] at h <;> split at h <;> simp_all
  | _ =>
      simp only [hs, WorkerState.goto, WorkerState.onCurrent] at h
      (try split at h) <;> simp_all

@[simp] theorem mainStep_stop
    (chance : Chance) (s : WorkerState) :
    (mainStep config chance s).stop = s.stop := by
  unfold mainStep claimStep
  split <;> simp only [WorkerState.goto, WorkerState.onCurrent, failStep, completeStep,
    storeStep_stop] <;> repeat' split
  all_goals rfl

@[simp] theorem renewalStep_pc
    (k : Nat) (chance : Chance) (s : WorkerState) :
    (renewalStep config k chance s).pc = s.pc := by
  unfold renewalStep
  repeat' split
  all_goals rfl

@[simp] theorem renewalStep_stop
    (k : Nat) (chance : Chance) (s : WorkerState) :
    (renewalStep config k chance s).stop = s.stop := by
  unfold renewalStep
  repeat' split
  all_goals rfl

@[simp] theorem renewalStep_iterations
    (k : Nat) (chance : Chance) (s : WorkerState) :
    (renewalStep config k chance s).iterations = s.iterations := by
  unfold renewalStep
  repeat' split
  all_goals rfl

/-- The stop event is set when `run_worker` fails a job for it, and stays set. -/
theorem shutdownRequested_step
    (hashRunnerCredential : String → String) (a : WorkerAction)
    (h : ShutdownRequested s) :
    ShutdownRequested (workerStep config hashRunnerCredential s a) := by
  intro hpc
  cases a with
  | main chance =>
      simp only [workerStep, mainStep_stop] at hpc ⊢
      rcases mainStep_failingShutdown hpc with hs | ⟨_, hstop⟩
      · exact h hs
      · exact hstop
  | renewal k chance =>
      simp only [workerStep, renewalStep_pc, renewalStep_stop] at hpc ⊢
      exact h hpc
  | jobEnds k raises => exact h hpc
  | setStop => rfl
  | elsewhere action => exact h hpc

/-- The statements of `run_worker` that call no store end it for no other reason. -/
theorem loopSurvives_quiet
    (chance : Chance)
    (h : LoopSurvives config s)
    (hquiet : s.pc ≠ .claiming ∧ s.pc ≠ .failingCrashed ∧ s.pc ≠ .failingShutdown ∧
      s.pc ≠ .completing) :
    LoopSurvives config (mainStep config chance s) := by
  have hinside : ∀ pc : MainPc, pc.raising = false → (∀ how, pc ≠ .ended how) →
      LoopSurvives config (s.goto pc) :=
    fun _ hraising hended => .of_inside hraising hended
  obtain ⟨hclaiming, hcrashed, hfailing, hcompleting⟩ := hquiet
  unfold mainStep
  cases hs : s.pc with
  | loopTest =>
      simp only
      by_cases hstop : s.stop = true
      · rw [if_pos hstop]
        exact ⟨rfl, fun _ _ => .inl hstop⟩
      · rw [if_neg hstop]
        exact hinside _ rfl (by rintro how ⟨⟩)
  | iterationTest =>
      simp only
      split
      · next hused => exact ⟨rfl, fun _ _ => .inr hused⟩
      · exact .of_inside rfl (by rintro how ⟨⟩)
  | claiming => exact absurd hs hclaiming
  | failingCrashed => exact absurd hs hcrashed
  | failingShutdown => exact absurd hs hfailing
  | completing => exact absurd hs hcompleting
  | polling => exact hinside _ rfl (by rintro how ⟨⟩)
  | startingRenewal => exact .of_inside rfl (by rintro how ⟨⟩)
  | startingThread => exact .of_inside rfl (by rintro how ⟨⟩)
  | aliveTest =>
      cases s.threadIsAlive with
      | true => exact hinside _ rfl (by rintro how ⟨⟩)
      | false => exact hinside _ rfl (by rintro how ⟨⟩)
  | waitingStop =>
      cases s.stop with
      | true => exact hinside _ rfl (by rintro how ⟨⟩)
      | false => exact hinside _ rfl (by rintro how ⟨⟩)
  | sleeping => exact hinside _ rfl (by rintro how ⟨⟩)
  | settingJobStop => exact .of_inside rfl (by rintro how ⟨⟩)
  | joiningDeadline =>
      simp only
      split
      · exact h
      · exact hinside _ rfl (by rintro how ⟨⟩)
  | deadlineTest =>
      simp only
      split
      · exact .of_inside rfl (by rintro how ⟨⟩)
      · exact hinside _ rfl (by rintro how ⟨⟩)
  | joining =>
      cases s.threadRaised with
      | true => exact hinside _ rfl (by rintro how ⟨⟩)
      | false => exact hinside _ rfl (by rintro how ⟨⟩)
  | stoppingRenewal next =>
      have hnext : next ≠ .reraise := by
        rintro rfl
        have hraising := h.no_exception
        rw [hs] at hraising
        cases hraising
      cases next with
      | nextIteration => exact .of_inside rfl (by rintro how ⟨⟩)
      | afterTry => exact .of_inside rfl (by rintro how ⟨⟩)
      | reraise => exact absurd rfl hnext
  | joiningRenewal next =>
      have hnext : next ≠ .reraise := by
        rintro rfl
        have hraising := h.no_exception
        rw [hs] at hraising
        cases hraising
      simp only
      split
      · exact h
      · cases next with
        | nextIteration => exact hinside _ rfl (by rintro how ⟨⟩)
        | afterTry => exact hinside _ rfl (by rintro how ⟨⟩)
        | reraise => exact absurd rfl hnext
  | stopTest =>
      cases s.stop with
      | true => exact hinside _ rfl (by rintro how ⟨⟩)
      | false => exact hinside _ rfl (by rintro how ⟨⟩)
  | ended how => exact h

/-- A claim raises only without a database. -/
theorem loopSurvives_claimStep
    (chance : Chance) (s : WorkerState) :
    LoopSurvives config (claimStep config chance s) ↔ chance.unavailable = false := by
  unfold claimStep
  cases hunavailable : chance.unavailable with
  | true =>
      refine ⟨fun hsurvives => ?_, by rintro ⟨⟩⟩
      cases hsurvives.no_exception
  | false =>
      refine ⟨fun _ => rfl, fun _ => ?_⟩
      rw [if_neg Bool.false_ne_true]
      split
      · exact .of_inside rfl (by rintro how ⟨⟩)
      · exact .of_inside rfl (by rintro how ⟨⟩)

/-- One statement of `run_worker`. -/
theorem loopSurvives_mainStep
    (chance : Chance)
    (h : LoopSurvives config s)
    (hshutdown : ShutdownRequested s) :
    LoopSurvives config (mainStep config chance s) ↔
      keepsJob config s (.main chance) = true := by
  cases hs : s.pc with
  | claiming =>
      simp only [mainStep, keepsJob, hs, Bool.not_eq_true']
      exact loopSurvives_claimStep chance s
  | failingCrashed =>
      simp only [mainStep, keepsJob, hs, failStep]
      refine loopSurvives_storeStep h ?_ rfl ?_ rfl
      · intro jobId
        exact failReviewJob_isOk s.hosted jobId .workerCrashed
      · rintro how ⟨⟩
  | failingShutdown =>
      simp only [mainStep, keepsJob, hs, failStep]
      refine loopSurvives_storeStep h ?_ rfl ?_ rfl
      · intro jobId
        exact failReviewJob_isOk s.hosted jobId .shutdownRequested
      · intro _ _
        exact hshutdown hs
  | completing =>
      simp only [mainStep, keepsJob, hs, completeStep]
      refine loopSurvives_storeStep h ?_ rfl ?_ rfl
      · intro jobId
        exact completeReviewJob_isOk s.hosted jobId
      · rintro how ⟨⟩
  | _ =>
      have hkeeps : keepsJob config s (.main chance) = true := by
        simp only [keepsJob, hs]
      refine ⟨fun _ => hkeeps, fun _ => loopSurvives_quiet chance h ?_⟩
      simp [hs]

/-- A step that leaves the thread of `run_worker` where it is. -/
theorem LoopSurvives.of_same
    {s' : WorkerState}
    (h : LoopSurvives config s)
    (hpc : s'.pc = s.pc)
    (hstop : s.stop = true → s'.stop = true)
    (hiterations : s'.iterations = s.iterations) :
    LoopSurvives config s' := by
  refine ⟨by rw [hpc]; exact h.no_exception, ?_⟩
  intro how hended
  rw [hpc] at hended
  unfold iterationsUsedUp
  rw [hiterations]
  exact (h.ended how hended).imp_left hstop

/-- One step of the process or of the others. -/
theorem loopSurvives_workerStep
    (hashRunnerCredential : String → String) (a : WorkerAction)
    (h : LoopSurvives config s)
    (hshutdown : ShutdownRequested s) :
    LoopSurvives config (workerStep config hashRunnerCredential s a) ↔
      keepsJob config s a = true := by
  cases a with
  | main chance => exact loopSurvives_mainStep chance h hshutdown
  | renewal k chance =>
      exact ⟨fun _ => rfl, fun _ =>
        h.of_same (by simp [workerStep]) (by simp [workerStep]) (by simp [workerStep])⟩
  | jobEnds k raises => exact ⟨fun _ => rfl, fun _ => h.of_same rfl id rfl⟩
  | setStop => exact ⟨fun _ => rfl, fun _ => h.of_same rfl (fun _ => rfl) rfl⟩
  | elsewhere action => exact ⟨fun _ => rfl, fun _ => h.of_same rfl id rfl⟩

end Steps

/-! ## Runs -/

/--
A run of the worker survives exactly when every call of the store finds the current job
still the worker's, and the database there.
-/
theorem loop_survives_iff_jobs_kept
    (hashRunnerCredential : String → String) (config : WorkerConfig)
    (hosted : HostedState) (actions : List WorkerAction) :
    Throughout (workerStep config hashRunnerCredential) (LoopSurvives config)
        (.start hosted) actions ↔
      Along (workerStep config hashRunnerCredential)
        (fun s a => keepsJob config s a = true) (.start hosted) actions := by
  have hstart : LoopSurvives config (.start hosted) := .of_inside rfl (by rintro how ⟨⟩)
  have hshutdown : ShutdownRequested (.start hosted) := by rintro ⟨⟩
  exact throughout_iff_along_under
    (fun _ a h => shutdownRequested_step hashRunnerCredential a h)
    (fun _ a hs h => loopSurvives_workerStep hashRunnerCredential a h hs)
    actions hshutdown hstart

/-- The pull request is closed while its job runs, then the job returns. -/
def closedAtWork : List WorkerAction :=
  List.replicate 6 (.main quietChance) ++
    .elsewhere
      (.cancelReviewJob "delivery-2" "pull_request" (headOfSeven "head-1" firstHead_ne).key) ::
    .jobEnds 0 false :: List.replicate 5 (.main quietChance) ++
    .renewal 0 quietChance :: List.replicate 3 (.main quietChance)

/-- `store.complete` raises out of the loop: no stop event, no bound, a database that answers. -/
theorem closed_pull_request_ends_worker :
    let s := exec (workerStep sampleWorker sampleHash) (.start queuedJob) closedAtWork
    s.pc = .ended .raised ∧ s.stop = false ∧ sampleWorker.maxIterations = none ∧
      ¬ LoopSurvives sampleWorker s := by
  refine ⟨by decide, by decide, rfl, ?_⟩
  intro hsurvives
  have hraising := hsurvives.no_exception
  revert hraising
  decide

end Worker
end PrReviewer
