import PrReviewer.Worker.Ownership
import PrReviewer.Hosted.LeaseExclusivity

/-!
# Several worker processes

Any number of processes run `run_worker` as `main` starts them, over one hosted store.
All of them are "worker_python": the id they lock a row under, and the only thing
`complete_review_job`, `fail_review_job` and `renew_review_job_lease` compare, is the
same for every process.  A call made for an earlier claim of a job therefore goes
through when a later claim of it is under way.

The history of a run keeps, for every job, who claimed it last.
-/

namespace PrReviewer
namespace Worker

open Lib Hosted

/-- How `main` calls `run_worker`. -/
def mainConfig : WorkerConfig where
  workerId := "worker_python"
  maxIterations := none

/-- The calls that only `run_worker` makes. -/
def isWorkerCall : HostedAction → Bool
  | .claimReviewJob .. => true
  | .renewReviewJobLease .. => true
  | .completeReviewJob .. => true
  | .failReviewJob .. => true
  | _ => false

/-- The store, and the processes; each sees the store in place of its own copy. -/
structure FleetState where
  hosted : HostedState
  workers : List WorkerState

/-- A step of one process, or a transaction of somebody who is no worker. -/
inductive FleetAction where
  | process (i : Nat) (a : WorkerAction) (h : a.ofProcess = true)
  | elsewhere (a : HostedAction) (h : isWorkerCall a = false)

/-- A claim of a job: the `n`-th of a process, counted from zero, or a runner's. -/
inductive Claimant where
  | worker (i n : Nat)
  | runner (runnerId : Uuid)
deriving DecidableEq, Repr

namespace FleetState

/-- `count` processes before their first statement. -/
def start (hosted : HostedState) (count : Nat) : FleetState where
  hosted := hosted
  workers := List.replicate count (.start hosted)

def worker? (f : FleetState) (i : Nat) : Option WorkerState :=
  (f.workers[i]?).map (fun w => { w with hosted := f.hosted })

end FleetState

section Fleet

variable (hashRunnerCredential : String → String)

def fleetStep (f : FleetState) : FleetAction → FleetState
  | .process i a _ =>
      match f.worker? i with
      | none => f
      | some s =>
          let s' := workerStep mainConfig hashRunnerCredential s a
          { hosted := s'.hosted, workers := f.workers.set i s' }
  | .elsewhere a _ => { f with hosted := step hashRunnerCredential f.hosted a }

/-- The job a step of `run_worker` claims. -/
def workerClaims (s : WorkerState) : WorkerAction → Option Uuid
  | .main chance =>
      if s.pc = .claiming ∧ chance.unavailable = false then
        (claimReviewJob s.hosted mainConfig.workerId chance.tie).1.map ReviewJobRow.id
      else
        none
  | _ => none

/-- The job a step claims, and for whom. -/
def claimed (f : FleetState) : FleetAction → Option (Uuid × Claimant)
  | .process i a _ =>
      (f.worker? i).bind (fun s =>
        (workerClaims s a).map (fun jobId => (jobId, .worker i s.claims.length)))
  | .elsewhere a _ =>
      match a with
      | .claimJob runner leaseToken tie =>
          match claimJob hashRunnerCredential f.hosted runner leaseToken tie with
          | .ok (.envelope e, _) => some (e.jobId, .runner runner.runnerId)
          | _ => none
      | _ => none

/-- The latest claim of every job. -/
def noteClaim
    (latest : Uuid → Option Claimant) (f : FleetState) (a : FleetAction) :
    Uuid → Option Claimant :=
  match claimed hashRunnerCredential f a with
  | none => latest
  | some (jobId, who) => Function.update latest jobId (some who)

/-- A call of `complete`, `fail` or `renew`: the claim it is made for, and its outcome. -/
structure StoreCall where
  k : Nat
  claim : WorkerClaim
  outcome : Except HostedError HostedState

def storeCall (s : WorkerState) : WorkerAction → Option StoreCall
  | .main chance =>
      if chance.unavailable then
        none
      else
        match s.pc, s.claims with
        | .failingCrashed, c :: _ =>
            some ⟨0, c, failReviewJob s.hosted c.job.id mainConfig.workerId .workerCrashed⟩
        | .failingShutdown, c :: _ =>
            some ⟨0, c, failReviewJob s.hosted c.job.id mainConfig.workerId .shutdownRequested⟩
        | .completing, c :: _ =>
            some ⟨0, c, completeReviewJob s.hosted c.job.id mainConfig.workerId⟩
        | _, _ => none
  | .renewal k chance =>
      if chance.unavailable then
        none
      else
        (s.claims[k]?).bind (fun c =>
          if c.renewal = .renewing then
            some ⟨k, c, renewReviewJobLease s.hosted c.job.id mainConfig.workerId⟩
          else
            none)
  | _ => none

/-- A call for a claim succeeds only if that claim is the latest one of the job. -/
def OnlyLatest (x : FleetState × (Uuid → Option Claimant)) : FleetAction → Prop
  | .process i a _ =>
      ∀ s ∈ x.1.worker? i, ∀ call ∈ storeCall s a, call.outcome.isOk = true →
        x.2 call.claim.job.id = some (.worker i (s.claims.length - (call.k + 1)))
  | .elsewhere _ _ => True

instance (x : FleetState × (Uuid → Option Claimant)) (a : FleetAction) :
    Decidable (OnlyLatest x a) :=
  match a with
  | .process i a _ =>
      inferInstanceAs (Decidable (∀ s ∈ x.1.worker? i, ∀ call ∈ storeCall s a,
        call.outcome.isOk = true →
          x.2 call.claim.job.id = some (.worker i (s.claims.length - (call.k + 1)))))
  | .elsewhere _ _ => inferInstanceAs (Decidable True)

/-- `run_worker` is between the claim of a job and its last call about it. -/
def MainPc.handlesClaim : MainPc → Bool
  | .startingRenewal => true
  | .startingThread => true
  | .aliveTest => true
  | .waitingStop => true
  | .sleeping => true
  | .settingJobStop => true
  | .joiningDeadline => true
  | .deadlineTest => true
  | .joining => true
  | .failingCrashed => true
  | .stoppingRenewal .afterTry => true
  | .joiningRenewal .afterTry => true
  | .stopTest => true
  | .failingShutdown => true
  | .completing => true
  | _ => false

/-- The renewal thread of the claim may call `store.renew`. -/
def WorkerClaim.mayRenew (c : WorkerClaim) : Bool :=
  c.renewal = .renewing ∨ (c.renewal = .waiting ∧ c.jobStop = false)

/-- One of the process's threads may still call the store about the claim. -/
def WorkerState.unfinished (s : WorkerState) (k : Nat) (c : WorkerClaim) : Bool :=
  (k = 0 ∧ s.pc.handlesClaim = true) ∨ c.mayRenew = true

/-- The process has an unfinished claim of the job. -/
def WorkerState.worksOn (s : WorkerState) (jobId : Uuid) : Bool :=
  s.claims.zipIdx.any (fun (c, k) => c.job.id = jobId ∧ s.unfinished k c)

/-- A worker claims no job of which some process has an unfinished claim. -/
def claimsFreely (f : FleetState) : FleetAction → Bool
  | .process i a _ =>
      (f.worker? i).all (fun s =>
        (workerClaims s a).all (fun jobId => f.workers.all (fun w => !w.worksOn jobId)))
  | .elsewhere _ _ => true

end Fleet

/-! ## The claims of one process -/

/-- The claims of a process go on: none is new, and no finished one is taken up again. -/
structure Continues (s s' : WorkerState) : Prop where
  length : s'.claims.length = s.claims.length
  claims : ∀ k c', s'.claims[k]? = some c' →
    ∃ c, s.claims[k]? = some c ∧ c'.job = c.job ∧
      (s'.unfinished k c' = true → s.unfinished k c = true)

section Process

variable {s s' : WorkerState}

theorem unfinished_iff
    {k : Nat} {c : WorkerClaim} :
    s.unfinished k c = true ↔
      (k = 0 ∧ s.pc.handlesClaim = true) ∨ c.mayRenew = true := by
  unfold WorkerState.unfinished
  rw [decide_eq_true_eq]

/-- The claim that `run_worker` has in hand is the newest one. -/
theorem head_unfinished
    {c : WorkerClaim} {rest : List WorkerClaim}
    (hclaims : s.claims = c :: rest)
    (hpc : s.pc.handlesClaim = true) :
    s.claims[0]? = some c ∧ s.unfinished 0 c = true := by
  constructor
  · rw [hclaims]
    rfl
  · exact unfinished_iff.mpr (.inl ⟨rfl, hpc⟩)

/-- Claims rewritten one by one. -/
theorem Continues.of_modify
    {k : Nat} {f : WorkerClaim → WorkerClaim}
    (hclaims : s'.claims = s.claims.modify k f)
    (hjob : ∀ c, (f c).job = c.job)
    (hpc : s'.pc.handlesClaim = true → s.pc.handlesClaim = true)
    (hrenew : ∀ c, s.claims[k]? = some c → (f c).mayRenew = true →
      s.unfinished k c = true) :
    Continues s s' := by
  refine ⟨by rw [hclaims, List.length_modify], ?_⟩
  intro j c' hc'
  rw [hclaims, List.getElem?_modify] at hc'
  obtain ⟨c, hc, rfl⟩ := Option.map_eq_some_iff.mp hc'
  refine ⟨c, hc, ?_, ?_⟩
  · split
    · exact hjob c
    · rfl
  · rw [unfinished_iff, unfinished_iff]
    rintro (⟨hj, hhandles⟩ | hmay)
    · exact .inl ⟨hj, hpc hhandles⟩
    · split at hmay
      · next hk =>
          subst hk
          exact unfinished_iff.mp (hrenew c hc hmay)
      · exact .inr hmay

/-- A statement that changes no claim. -/
theorem Continues.of_same
    (hclaims : s'.claims = s.claims)
    (hpc : s'.pc.handlesClaim = true → s.pc.handlesClaim = true) :
    Continues s s' := by
  refine ⟨by rw [hclaims], ?_⟩
  intro k c hc
  rw [hclaims] at hc
  refine ⟨c, hc, rfl, ?_⟩
  rw [unfinished_iff, unfinished_iff]
  exact Or.imp_left (And.imp_right hpc)

/-- Every statement of `run_worker` but the claim. -/
theorem continues_mainStep
    (chance : Chance)
    (hpc : s.pc ≠ .claiming) :
    Continues s (mainStep mainConfig chance s) := by
  unfold mainStep
  cases hs : s.pc with
  | claiming => exact absurd hs hpc
  | loopTest =>
      cases s.stop with
      | true => exact .of_same rfl (by rintro ⟨⟩)
      | false => exact .of_same rfl (by rintro ⟨⟩)
  | iterationTest =>
      simp only
      split
      · exact .of_same rfl (by rintro ⟨⟩)
      · exact .of_same rfl (by rintro ⟨⟩)
  | polling => exact .of_same rfl (by rintro ⟨⟩)
  | startingRenewal =>
      refine .of_modify rfl (fun _ => rfl) (fun _ => by rw [hs]; rfl) ?_
      intro c _ _
      exact unfinished_iff.mpr (.inl ⟨rfl, by rw [hs]; rfl⟩)
  | startingThread =>
      refine .of_modify rfl (fun _ => rfl) (fun _ => by rw [hs]; rfl) ?_
      intro c _ _
      exact unfinished_iff.mpr (.inl ⟨rfl, by rw [hs]; rfl⟩)
  | aliveTest => exact .of_same rfl (fun _ => by rw [hs]; rfl)
  | waitingStop => exact .of_same rfl (fun _ => by rw [hs]; rfl)
  | sleeping => exact .of_same rfl (fun _ => by rw [hs]; rfl)
  | settingJobStop =>
      refine .of_modify rfl (fun _ => rfl) (fun _ => by rw [hs]; rfl) ?_
      intro c _ _
      exact unfinished_iff.mpr (.inl ⟨rfl, by rw [hs]; rfl⟩)
  | joiningDeadline =>
      simp only
      split
      · exact .of_same rfl id
      · exact .of_same rfl (fun _ => by rw [hs]; rfl)
  | deadlineTest =>
      simp only
      split
      · refine .of_modify rfl (fun _ => rfl) (fun _ => by rw [hs]; rfl) ?_
        intro c _ _
        exact unfinished_iff.mpr (.inl ⟨rfl, by rw [hs]; rfl⟩)
      · exact .of_same rfl (fun _ => by rw [hs]; rfl)
  | joining => exact .of_same rfl (fun _ => by rw [hs]; rfl)
  | failingCrashed =>
      simp only [failStep]
      exact .of_same (storeStep_claims ..) (fun _ => by rw [hs]; rfl)
  | stoppingRenewal next =>
      refine .of_modify rfl (fun _ => rfl) ?_ ?_
      · cases next with
        | afterTry => exact fun _ => by rw [hs]; rfl
        | nextIteration => rintro ⟨⟩
        | reraise => rintro ⟨⟩
      · intro c _ hmay
        -- the event is set: only a renewal under way goes on
        refine unfinished_iff.mpr (.inr ?_)
        simp only [WorkerClaim.mayRenew, decide_eq_true_eq] at hmay ⊢
        rcases hmay with hrenewing | ⟨_, hset⟩
        · exact .inl hrenewing
        · cases hset
  | joiningRenewal next =>
      simp only
      split
      · exact .of_same rfl id
      · cases next with
        | afterTry => exact .of_same rfl (fun _ => by rw [hs]; rfl)
        | nextIteration => exact .of_same rfl (by rintro ⟨⟩)
        | reraise => exact .of_same rfl (by rintro ⟨⟩)
  | stopTest => exact .of_same rfl (fun _ => by rw [hs]; rfl)
  | failingShutdown =>
      simp only [failStep]
      exact .of_same (storeStep_claims ..) (fun _ => by rw [hs]; rfl)
  | completing =>
      simp only [completeStep]
      exact .of_same (storeStep_claims ..) (fun _ => by rw [hs]; rfl)
  | ended how => exact .of_same rfl id

theorem continues_renewalStep
    (k : Nat) (chance : Chance) :
    Continues s (renewalStep mainConfig k chance s) := by
  unfold renewalStep
  cases hc : s.claims[k]? with
  | none => exact .of_same rfl id
  | some c =>
      simp only
      cases hrenewal : c.renewal with
      | notStarted => exact .of_same rfl id
      | ended => exact .of_same rfl id
      | waiting =>
          refine .of_modify rfl (fun _ => rfl) id ?_
          intro c' hc' hmay
          rw [hc] at hc'
          cases hc'
          refine unfinished_iff.mpr (.inr ?_)
          cases hstop : c.jobStop with
          | true => simp [WorkerClaim.mayRenew, hstop] at hmay
          | false => simp [WorkerClaim.mayRenew, hrenewal, hstop]
      | renewing =>
          refine .of_modify rfl (fun _ => rfl) id ?_
          intro c' hc' _
          rw [hc] at hc'
          cases hc'
          refine unfinished_iff.mpr (.inr ?_)
          simp [WorkerClaim.mayRenew, hrenewal]

theorem continues_jobEndsStep
    (k : Nat) (raises : Bool) :
    Continues s (jobEndsStep k raises s) := by
  refine .of_modify rfl ?_ id ?_
  · intro c
    split
    · rfl
    · rfl
  · intro c _ hmay
    refine unfinished_iff.mpr (.inr ?_)
    split at hmay
    · exact hmay
    · exact hmay

/-- What a process does to its claims when it claims nothing. -/
theorem continues_workerStep
    (hashRunnerCredential : String → String) {a : WorkerAction}
    (ha : workerClaims s a = none) :
    Continues s (workerStep mainConfig hashRunnerCredential s a) := by
  cases a with
  | main chance =>
      by_cases hpc : s.pc = .claiming
      · simp only [workerStep, mainStep, hpc, claimStep]
        simp only [workerClaims, hpc, true_and] at ha
        split
        · exact .of_same rfl (by rintro ⟨⟩)
        · next havailable =>
            rw [Bool.not_eq_true] at havailable
            rw [if_pos havailable, Option.map_eq_none_iff] at ha
            cases hclaim : claimReviewJob s.hosted mainConfig.workerId chance.tie with
            | mk job? hosted =>
                rw [hclaim] at ha
                cases ha
                exact .of_same rfl (by rintro ⟨⟩)
      · exact continues_mainStep chance hpc
  | renewal k chance => exact continues_renewalStep k chance
  | jobEnds k raises => exact continues_jobEndsStep k raises
  | setStop => exact .of_same rfl id
  | elsewhere action => exact .of_same rfl id

/-- A claim of a process: a new claim in front of the others. -/
theorem workerStep_of_claims
    (hashRunnerCredential : String → String) {a : WorkerAction} {jobId : Uuid}
    (ha : workerClaims s a = some jobId) :
    ∃ job : ReviewJobRow, ∃ chance : Chance, job.id = jobId ∧ s.pc = .claiming ∧
      (claimReviewJob s.hosted mainConfig.workerId chance.tie).1 = some job ∧
      workerStep mainConfig hashRunnerCredential s a =
        { s with
          hosted := (claimReviewJob s.hosted mainConfig.workerId chance.tie).2
          pc := .startingRenewal
          claims := WorkerClaim.fresh job :: s.claims } := by
  cases a with
  | main chance =>
      unfold workerClaims at ha
      simp only at ha
      split at ha
      · next hguard =>
          obtain ⟨job, hjob, hid⟩ := Option.map_eq_some_iff.mp ha
          refine ⟨job, chance, hid, hguard.1, hjob, ?_⟩
          simp only [workerStep, mainStep, hguard.1, claimStep, hguard.2]
          cases hclaim : claimReviewJob s.hosted mainConfig.workerId chance.tie with
          | mk job? hosted =>
              rw [hclaim] at hjob
              cases hjob
              rfl
      · cases ha
  | _ => cases ha

end Process

/-! ## Who holds a job -/

section Holding

variable {s : HostedState} {j : Uuid}

theorem runner_ne_worker
    (runnerId : Uuid) :
    runnerId.text ≠ mainConfig.workerId := by
  intro htext
  have hcanonical := runnerId.canonical
  rw [htext] at hcanonical
  revert hcanonical
  decide

theorem heldBy_iff
    {row : ReviewJobRow} {holder : String} :
    row.heldBy holder = true ↔ row.status = .running ∧ row.lockedBy = some holder := by
  unfold ReviewJobRow.heldBy
  rw [decide_eq_true_eq]

/-- A row that is the workers' after a step was theirs before, unless a worker claimed it. -/
theorem RowChange.held
    {hashRunnerCredential : String → String} {a : HostedAction}
    {row? row?' : Option ReviewJobRow}
    (h : RowChange hashRunnerCredential s j a row? row?')
    (ha : ∀ workerId tie, a ≠ .claimReviewJob workerId tie)
    (hheld : row?'.any (fun row => row.heldBy mainConfig.workerId) = true) :
    row?.any (fun row => row.heldBy mainConfig.workerId) = true := by
  cases h with
  | unchanged => exact hheld
  | leasedToWorker hclaimable => exact absurd rfl (ha _ _)
  | leasedToRunner hclaimable henvelope =>
      have hlocked := (heldBy_iff.mp hheld).2
      exact absurd (Option.some.inj hlocked) (runner_ne_worker _)
  | renewed _ hlive => exact hheld
  | beaten hrunning hleased hlive => exact hheld
  | completed _ => cases (heldBy_iff.mp hheld).1
  | failedOnce _ => cases (heldBy_iff.mp hheld).2
  | acknowledged hleased hrunning hlive hwritten =>
      exact heldBy_iff.mpr ⟨hrunning, (heldBy_iff.mp hheld).2⟩
  | enqueuedBare => cases (heldBy_iff.mp hheld).1
  | enqueued hinstalled => cases (heldBy_iff.mp hheld).1
  | superseded hpr hactive => cases (heldBy_iff.mp hheld).1
  | cancelled hpr hactive => cases (heldBy_iff.mp hheld).1
  | requeued hfailed hfree => cases (heldBy_iff.mp hheld).1
  | @pushed _ body hbody hid =>
      have hrunning := (heldBy_iff.mp hheld).1
      cases hstatus : body.status <;>
        simp [pushedRow, ReviewJobRow.overwrittenBy, hstatus,
          PushedStatus.toReviewJobStatus] at hrunning
  | @overwritten _ body _ hbody hid =>
      have hrunning := (heldBy_iff.mp hheld).1
      cases hstatus : body.status <;>
        simp [ReviewJobRow.overwrittenBy, hstatus, PushedStatus.toReviewJobStatus] at hrunning

/-- Only a claim of a worker makes a job the workers'. -/
theorem holdsJob_step
    (hashRunnerCredential : String → String) {a : HostedAction}
    (ha : ∀ workerId tie, a ≠ .claimReviewJob workerId tie)
    (h : holdsJob mainConfig (step hashRunnerCredential s a) j = true) :
    holdsJob mainConfig s j = true :=
  RowChange.held (step_rowChange hashRunnerCredential s a j) ha h

/-- A call of the store that is no claim. -/
theorem holdsJob_attempt
    (hashRunnerCredential : String → String) (chance : Chance) {a : HostedAction}
    {outcome : Except HostedError HostedState}
    (ha : ∀ workerId tie, a ≠ .claimReviewJob workerId tie)
    (houtcome : step hashRunnerCredential s a = s.commit outcome)
    (h : holdsJob mainConfig (attempt chance s outcome).2 j = true) :
    holdsJob mainConfig s j = true := by
  unfold attempt at h
  cases hunavailable : chance.unavailable with
  | true =>
      rw [hunavailable] at h
      exact h
  | false =>
      rw [hunavailable] at h
      cases outcome with
      | error e => exact h
      | ok s' =>
          have hs' : step hashRunnerCredential s a = s' := houtcome
          refine holdsJob_step hashRunnerCredential ha ?_
          rw [hs']
          exact h

end Holding

section Held

variable {s : WorkerState} {j : Uuid}

theorem holdsJob_storeStep
    (hashRunnerCredential : String → String) (chance : Chance) {f : Uuid → HostedAction}
    {statement : HostedState → Uuid → Except HostedError HostedState}
    {done refused : MainPc}
    (ha : ∀ jobId workerId tie, f jobId ≠ .claimReviewJob workerId tie)
    (hstatement : ∀ jobId, step hashRunnerCredential s.hosted (f jobId) =
      s.hosted.commit (statement s.hosted jobId))
    (h : holdsJob mainConfig (storeStep chance statement done refused s).hosted j = true) :
    holdsJob mainConfig s.hosted j = true := by
  unfold storeStep at h
  cases hclaims : s.claims with
  | nil =>
      rw [hclaims] at h
      exact h
  | cons c rest =>
      rw [hclaims] at h
      exact holdsJob_attempt hashRunnerCredential chance (ha c.job.id) (hstatement c.job.id) h

/-- The statements of `run_worker` but the claim. -/
theorem holdsJob_mainStep
    (hashRunnerCredential : String → String) (chance : Chance)
    (hpc : s.pc ≠ .claiming)
    (h : holdsJob mainConfig (mainStep mainConfig chance s).hosted j = true) :
    holdsJob mainConfig s.hosted j = true := by
  unfold mainStep at h
  cases hs : s.pc with
  | claiming => exact absurd hs hpc
  | failingCrashed =>
      simp only [hs, failStep] at h
      exact holdsJob_storeStep hashRunnerCredential chance
        (f := fun jobId => .failReviewJob jobId mainConfig.workerId .workerCrashed)
        (by rintro _ _ _ ⟨⟩) (fun _ => rfl) h
  | failingShutdown =>
      simp only [hs, failStep] at h
      exact holdsJob_storeStep hashRunnerCredential chance
        (f := fun jobId => .failReviewJob jobId mainConfig.workerId .shutdownRequested)
        (by rintro _ _ _ ⟨⟩) (fun _ => rfl) h
  | completing =>
      simp only [hs, completeStep] at h
      exact holdsJob_storeStep hashRunnerCredential chance
        (f := fun jobId => .completeReviewJob jobId mainConfig.workerId)
        (by rintro _ _ _ ⟨⟩) (fun _ => rfl) h
  | iterationTest =>
      simp only [hs] at h
      split at h
      · exact h
      · exact h
  | joiningDeadline =>
      simp only [hs] at h
      split at h
      · exact h
      · exact h
  | deadlineTest =>
      simp only [hs] at h
      split at h
      · exact h
      · exact h
  | joiningRenewal next =>
      simp only [hs] at h
      split at h
      · exact h
      · exact h
  | _ =>
      simp only [hs] at h
      exact h

/-- A process that claims nothing makes no job the workers'. -/
theorem holdsJob_workerStep
    (hashRunnerCredential : String → String) {a : WorkerAction}
    (ha : workerClaims s a = none)
    (hprocess : a.ofProcess = true)
    (h : holdsJob mainConfig (workerStep mainConfig hashRunnerCredential s a).hosted j =
      true) :
    holdsJob mainConfig s.hosted j = true := by
  cases a with
  | main chance =>
      by_cases hpc : s.pc = .claiming
      · simp only [workerStep, mainStep, hpc, claimStep] at h
        simp only [workerClaims, hpc, true_and] at ha
        cases hunavailable : chance.unavailable with
        | true =>
            rw [if_pos hunavailable] at h
            exact h
        | false =>
            rw [if_pos hunavailable, Option.map_eq_none_iff] at ha
            rw [hunavailable, if_neg Bool.false_ne_true] at h
            rcases claimReviewJob_cases s.hosted mainConfig.workerId chance.tie with
              hnone | ⟨row, _, _, hsome⟩
            · rw [hnone] at h
              exact h
            · rw [hsome] at ha
              cases ha
      · exact holdsJob_mainStep hashRunnerCredential chance hpc h
  | renewal k chance =>
      simp only [workerStep, renewalStep] at h
      cases hc : s.claims[k]? with
      | none =>
          rw [hc] at h
          exact h
      | some c =>
          simp only [hc] at h
          cases hrenewal : c.renewal with
          | renewing =>
              simp only [hrenewal] at h
              exact holdsJob_attempt hashRunnerCredential chance
                (a := .renewReviewJobLease c.job.id mainConfig.workerId)
                (by rintro _ _ ⟨⟩) rfl h
          | _ =>
              simp only [hrenewal] at h
              exact h
  | jobEnds k raises => exact h
  | setStop => exact h
  | elsewhere action => cases hprocess

/-- A claim touches one row. -/
theorem holdsJob_claim
    {hosted : HostedState} {tie : Uuid} {job : ReviewJobRow}
    (hjob : (claimReviewJob hosted mainConfig.workerId tie).1 = some job)
    (hne : j ≠ job.id) :
    holdsJob mainConfig (claimReviewJob hosted mainConfig.workerId tie).2 j =
      holdsJob mainConfig hosted j := by
  rcases claimReviewJob_cases hosted mainConfig.workerId tie with hnone | ⟨row, _, _, hsome⟩
  · rw [hnone] at hjob
    cases hjob
  · rw [hsome] at hjob ⊢
    cases hjob
    rw [ReviewJobRow.leasedToWorker_id] at hne
    unfold holdsJob
    rw [HostedState.alterJob_find?, if_neg hne]

/-- A call is made for an unfinished claim, and succeeds only on a job that is the workers'. -/
theorem storeCall_spec
    {a : WorkerAction} {call : StoreCall}
    (h : storeCall s a = some call) :
    s.claims[call.k]? = some call.claim ∧ s.unfinished call.k call.claim = true ∧
      (call.outcome.isOk = true → holdsJob mainConfig s.hosted call.claim.job.id = true) := by
  cases a with
  | main chance =>
      unfold storeCall at h
      cases hunavailable : chance.unavailable with
      | true => simp [hunavailable] at h
      | false =>
          simp only [hunavailable, Bool.false_eq_true, if_false] at h
          split at h
          · next c rest hpc hclaims =>
              cases h
              obtain ⟨hhead, hunfinished⟩ := head_unfinished hclaims (by rw [hpc]; rfl)
              refine ⟨hhead, hunfinished, ?_⟩
              rw [failReviewJob_isOk]
              exact id
          · next c rest hpc hclaims =>
              cases h
              obtain ⟨hhead, hunfinished⟩ := head_unfinished hclaims (by rw [hpc]; rfl)
              refine ⟨hhead, hunfinished, ?_⟩
              rw [failReviewJob_isOk]
              exact id
          · next c rest hpc hclaims =>
              cases h
              obtain ⟨hhead, hunfinished⟩ := head_unfinished hclaims (by rw [hpc]; rfl)
              refine ⟨hhead, hunfinished, ?_⟩
              rw [completeReviewJob_isOk]
              exact id
          · cases h
  | renewal k chance =>
      unfold storeCall at h
      cases hunavailable : chance.unavailable with
      | true => simp [hunavailable] at h
      | false =>
          simp only [hunavailable, Bool.false_eq_true, if_false] at h
          obtain ⟨c, hc, hcall⟩ := Option.bind_eq_some_iff.mp h
          split at hcall
          · next hrenewing =>
              cases hcall
              refine ⟨hc, unfinished_iff.mpr (.inr ?_), ?_⟩
              · simp [WorkerClaim.mayRenew, hrenewing]
              · intro hok
                cases hrenew : renewReviewJobLease s.hosted c.job.id mainConfig.workerId with
                | error e =>
                    rw [hrenew] at hok
                    cases hok
                | ok hosted' =>
                    obtain ⟨row, hrow, hheld, _, _⟩ := renewReviewJobLease_eq_ok hrenew
                    unfold holdsJob
                    rw [hrow]
                    exact hheld
          · cases hcall
  | _ => cases h

theorem worksOn_eq_false
    {w : WorkerState} {k : Nat} {c : WorkerClaim}
    (h : w.worksOn j = false)
    (hc : w.claims[k]? = some c)
    (hunfinished : w.unfinished k c = true) :
    c.job.id ≠ j := by
  intro hj
  unfold WorkerState.worksOn at h
  rw [List.any_eq_false] at h
  refine h (c, k) (List.mem_zipIdx_iff_getElem?.mpr hc) ?_
  simp [hj, hunfinished]

end Held

/-! ## Runs -/

/-- An unfinished claim is the latest one of its job while the job is the workers'. -/
def LatestHeld (x : FleetState × (Uuid → Option Claimant)) : Prop :=
  ∀ i w, x.1.workers[i]? = some w →
    ∀ k c, w.claims[k]? = some c → w.unfinished k c = true →
      holdsJob mainConfig x.1.hosted c.job.id = true →
        x.2 c.job.id = some (.worker i (w.claims.length - (k + 1)))

section Runs

variable {x : FleetState × (Uuid → Option Claimant)}

theorem worker?_eq_some
    {f : FleetState} {i : Nat} {s : WorkerState}
    (h : f.worker? i = some s) :
    ∃ w, f.workers[i]? = some w ∧ s.pc = w.pc ∧ s.claims = w.claims ∧
      s.hosted = f.hosted := by
  obtain ⟨w, hw, rfl⟩ := Option.map_eq_some_iff.mp h
  exact ⟨w, hw, rfl, rfl, rfl⟩

theorem LatestHeld.onlyLatest
    (h : LatestHeld x) (a : FleetAction) :
    OnlyLatest x a := by
  cases a with
  | elsewhere action hnot => trivial
  | process i a hprocess =>
      intro s hs call hcall hok
      obtain ⟨w, hw, hpc, hclaims, hhosted⟩ := worker?_eq_some hs
      obtain ⟨hclaim, hunfinished, hheld⟩ := storeCall_spec hcall
      have hheld' := hheld hok
      rw [hhosted] at hheld'
      rw [hclaims] at hclaim ⊢
      refine h i w hw call.k call.claim hclaim ?_ hheld'
      rw [unfinished_iff] at hunfinished ⊢
      rw [← hpc]
      exact hunfinished

/-- A process goes on with its claims. -/
theorem latestHeld_continues
    {i : Nat} {w s' : WorkerState} {s : WorkerState}
    (h : LatestHeld x)
    (hw : x.1.workers[i]? = some w)
    (hpc : s.pc = w.pc)
    (hclaims : s.claims = w.claims)
    (hcontinues : Continues s s')
    (hheld : ∀ j, holdsJob mainConfig s'.hosted j = true →
      holdsJob mainConfig x.1.hosted j = true) :
    LatestHeld ({ hosted := s'.hosted, workers := x.1.workers.set i s' }, x.2) := by
  intro i' w' hw' k c' hc' hunfinished hafter
  rw [List.getElem?_set] at hw'
  split at hw'
  · next hi =>
      subst hi
      split at hw'
      · cases hw'
        obtain ⟨c, hc, hjob, hwas⟩ := hcontinues.claims k c' hc'
        rw [hjob] at hafter ⊢
        rw [hcontinues.length, hclaims]
        rw [hclaims] at hc
        refine h i w hw k c hc ?_ (hheld _ hafter)
        have hbefore := hwas hunfinished
        rw [unfinished_iff] at hbefore ⊢
        rw [← hpc]
        exact hbefore
      · cases hw'
  · exact h i' w' hw' k c' hc' hunfinished (hheld _ hafter)

/-- A process claims a job nobody else is busy with. -/
theorem latestHeld_claim
    {i : Nat} {w s s' : WorkerState} {job : ReviewJobRow} {tie : Uuid}
    (h : LatestHeld x)
    (hw : x.1.workers[i]? = some w)
    (hfree : ∀ w ∈ x.1.workers, w.worksOn job.id = false)
    (hjob : (claimReviewJob x.1.hosted mainConfig.workerId tie).1 = some job)
    (hclaims : s.claims = w.claims)
    (hs' : s' =
      { s with
        hosted := (claimReviewJob x.1.hosted mainConfig.workerId tie).2
        pc := .startingRenewal
        claims := WorkerClaim.fresh job :: s.claims }) :
    LatestHeld
      ({ hosted := s'.hosted, workers := x.1.workers.set i s' },
        Function.update x.2 job.id (some (.worker i s.claims.length))) := by
  subst hs'
  -- an unfinished claim of before is one of another job
  have hearlier : ∀ i' w', x.1.workers[i']? = some w' →
      ∀ k c, w'.claims[k]? = some c → w'.unfinished k c = true →
        holdsJob mainConfig (claimReviewJob x.1.hosted mainConfig.workerId tie).2 c.job.id =
          true →
        Function.update x.2 job.id (some (.worker i s.claims.length)) c.job.id =
          some (.worker i' (w'.claims.length - (k + 1))) := by
    intro i' w' hw' k c hc hunfinished hheld
    have hne := worksOn_eq_false (hfree w' (List.mem_of_getElem? hw')) hc hunfinished
    rw [Function.update_of_ne hne]
    rw [holdsJob_claim hjob hne] at hheld
    exact h i' w' hw' k c hc hunfinished hheld
  intro i' w' hw' k c hc hunfinished hheld
  rw [List.getElem?_set] at hw'
  split at hw'
  · next hi =>
      subst hi
      split at hw'
      · cases hw'
        cases k with
        | zero =>
            cases hc
            simp [WorkerClaim.fresh]
        | succ k =>
            have hc' : w.claims[k]? = some c := by
              rw [← hclaims]
              exact hc
            have hmay : c.mayRenew = true := by
              rcases unfinished_iff.mp hunfinished with ⟨hk, _⟩ | hmay
              · cases hk
              · exact hmay
            have hlatest :=
              hearlier i w hw k c hc' (unfinished_iff.mpr (.inr hmay)) hheld
            rw [List.length_cons, Nat.add_sub_add_right, hclaims]
            rw [hclaims] at hlatest
            exact hlatest
      · cases hw'
  · exact hearlier i' w' hw' k c hc hunfinished hheld

/-- A job claimed by a runner is not the workers'. -/
theorem holdsJob_runner_claim
    {hashRunnerCredential : String → String} {f : FleetState} {a : HostedAction}
    {hnot : isWorkerCall a = false} {claim : Uuid × Claimant}
    (h : claimed hashRunnerCredential f (.elsewhere a hnot) = some claim) :
    holdsJob mainConfig (step hashRunnerCredential f.hosted a) claim.1 = false := by
  cases a with
  | claimJob runner leaseToken tie =>
      simp only [claimed] at h
      split at h
      · next e hosted' hclaim =>
          cases h
          obtain ⟨row, hrow⟩ := claimJob_envelope hclaim
          have hstep : step hashRunnerCredential f.hosted (.claimJob runner leaseToken tie) =
              hosted' := by
            simp only [step, hclaim, Except.map, HostedState.commit]
          unfold holdsJob
          rw [hstep, hrow, Option.any_some, ← Bool.not_eq_true, heldBy_iff]
          rintro ⟨_, hlocked⟩
          exact runner_ne_worker _ (Option.some.inj hlocked)
      · cases h
  | _ => cases h

/-- Somebody who is no worker. -/
theorem latestHeld_elsewhere
    (hashRunnerCredential : String → String) {a : HostedAction}
    (hnot : isWorkerCall a = false)
    (h : LatestHeld x) :
    LatestHeld
      (withHistory (fleetStep hashRunnerCredential) (noteClaim hashRunnerCredential) x
        (.elsewhere a hnot)) := by
  have hclaim : ∀ workerId tie, a ≠ .claimReviewJob workerId tie := by
    rintro workerId tie rfl
    cases hnot
  intro i w hw k c hc hunfinished hheld
  have hlatest := h i w hw k c hc hunfinished (holdsJob_step hashRunnerCredential hclaim hheld)
  change noteClaim hashRunnerCredential x.2 x.1 (.elsewhere a hnot) c.job.id = _
  unfold noteClaim
  cases hclaimed : claimed hashRunnerCredential x.1 (.elsewhere a hnot) with
  | none => exact hlatest
  | some claim =>
      have hne : c.job.id ≠ claim.1 := by
        intro hjob
        have hnotHeld := holdsJob_runner_claim hclaimed
        rw [← hjob] at hnotHeld
        exact Bool.false_ne_true (hnotHeld.symm.trans hheld)
      simp only
      rw [Function.update_of_ne hne]
      exact hlatest

/-- A step of a process. -/
theorem latestHeld_process
    (hashRunnerCredential : String → String) {i : Nat} {a : WorkerAction}
    (hprocess : a.ofProcess = true)
    (h : LatestHeld x)
    (hfree : claimsFreely x.1 (.process i a hprocess) = true) :
    LatestHeld
      (withHistory (fleetStep hashRunnerCredential) (noteClaim hashRunnerCredential) x
        (.process i a hprocess)) := by
  unfold withHistory fleetStep noteClaim claimed
  unfold claimsFreely at hfree
  cases hs : x.1.worker? i with
  | none =>
      simp only [hs, Option.bind_none]
      exact h
  | some s =>
      obtain ⟨w, hw, hpc, hclaims, hhosted⟩ := worker?_eq_some hs
      simp only [hs, Option.bind_some, Option.all_some] at hfree ⊢
      cases hjobId : workerClaims s a with
      | none =>
          refine latestHeld_continues h hw hpc hclaims
            (continues_workerStep hashRunnerCredential hjobId) ?_
          intro j hj
          rw [← hhosted]
          exact holdsJob_workerStep hashRunnerCredential hjobId hprocess hj
      | some jobId =>
          obtain ⟨job, chance, rfl, _, hjob, hs'⟩ :=
            workerStep_of_claims hashRunnerCredential hjobId
          rw [hhosted] at hjob hs'
          refine latestHeld_claim h hw ?_ hjob hclaims hs'
          intro w' hw'
          rw [hjobId, Option.all_some, List.all_eq_true] at hfree
          simpa using hfree w' hw'

end Runs

/--
In a run of any number of worker processes in which a worker claims a job only when every
earlier claim of it is finished, a call for a claim succeeds only if it is the latest.
-/
theorem only_latest_claim_finishes
    (hashRunnerCredential : String → String)
    (hosted : HostedState) (count : Nat) (actions : List FleetAction)
    (hfree :
      Along (withHistory (fleetStep hashRunnerCredential) (noteClaim hashRunnerCredential))
        (fun x a => claimsFreely x.1 a = true)
        (.start hosted count, fun _ => none) actions) :
    Along (withHistory (fleetStep hashRunnerCredential) (noteClaim hashRunnerCredential))
      OnlyLatest (.start hosted count, fun _ => none) actions := by
  refine along_invariant (I := LatestHeld) ?_ (fun _ a h _ => h.onlyLatest a) hfree ?_
  · intro x a h hfree
    cases a with
    | process i a hprocess => exact latestHeld_process hashRunnerCredential hprocess h hfree
    | elsewhere a hnot => exact latestHeld_elsewhere hashRunnerCredential hnot h
  · intro i w hw k c hc
    have hstart : w = .start hosted := List.eq_of_mem_replicate (List.mem_of_getElem? hw)
    subst hstart
    cases hc

/-- One process claims the job and starts it. -/
def fleetClaims (i : Nat) : List FleetAction :=
  List.replicate 5 (.process i (.main quietChance) rfl)

/-- The thread of the job returns, and `run_worker` comes to `store.complete` and calls it. -/
def fleetFinishes (i : Nat) : List FleetAction :=
  .process i (.jobEnds 0 false) rfl ::
    List.replicate 3 (.process i (.main quietChance) rfl) ++
    .process i (.renewal 0 quietChance) rfl ::
    List.replicate 3 (.process i (.main quietChance) rfl)

/-- Two processes, one job, claimed and finished by the first. -/
theorem finished_by_its_claimant :
    Along (withHistory (fleetStep sampleHash) (noteClaim sampleHash))
        (fun x a => claimsFreely x.1 a = true)
        (.start queuedJob 2, fun _ => none) (fleetClaims 0 ++ fleetFinishes 0) ∧
      Along (withHistory (fleetStep sampleHash) (noteClaim sampleHash))
        OnlyLatest (.start queuedJob 2, fun _ => none) (fleetClaims 0 ++ fleetFinishes 0) :=
  ⟨by decide, only_latest_claim_finishes sampleHash queuedJob 2 _ (by decide)⟩

/-- The first process is slow: its lease runs out and the second claims the job. -/
def reclaimedByFleet : List FleetAction :=
  fleetClaims 0 ++ .elsewhere (.advanceClock reviewJobLeaseInterval) rfl :: fleetClaims 1

/-- The first process completes the job of the second. -/
theorem earlier_claim_completes :
    let x := exec (withHistory (fleetStep sampleHash) (noteClaim sampleHash))
      (.start queuedJob 2, fun _ => none) (reclaimedByFleet ++ fleetFinishes 0)
    leaseHolder (exec (fleetStep sampleHash) (.start queuedJob 2)
        reclaimedByFleet).hosted firstJobId = some (.running, some "worker_python") ∧
      x.2 firstJobId = some (.worker 1 0) ∧
      leaseHolder x.1.hosted firstJobId = some (.succeeded, none) ∧
      ¬ Along (withHistory (fleetStep sampleHash) (noteClaim sampleHash))
        OnlyLatest (.start queuedJob 2, fun _ => none) (reclaimedByFleet ++ fleetFinishes 0) := by
  decide

end Worker
end PrReviewer
