import PrReviewer.Hosted.Machine

/-!
# The hosted worker

worker/main.py as a machine of three kinds of threads over the hosted state: the
thread of `run_worker`, and for each claim the thread that renews its lease and the
thread that runs the job.  An action is one step of one thread, the stop event being
set, or a transaction of somebody else, so a run is any interleaving of them.

What `run_job` does is left open: its thread ends when an action says so, and reads
the stop event of its job or ignores it.  Waits and joins with a timeout end when they
may; whether the time was up is part of the action.  The job store is the one of jobs/,
and any call of it may find the database unavailable, which raises and changes nothing.
-/

namespace PrReviewer
namespace Worker

open Lib Hosted

/-- How `run_worker` is called. -/
structure WorkerConfig where
  workerId : String
  maxIterations : Option Int
deriving DecidableEq, Repr

/-- The thread `review-job-…`. -/
inductive JobThread where
  | notStarted
  | alive
  | returned
  | raised
deriving DecidableEq, Repr

/-- The thread `lease-renewal-…`: before its wait, in `store.renew`, or at its end. -/
inductive RenewalThread where
  | notStarted
  | waiting
  | renewing
  | ended
deriving DecidableEq, Repr

/-- A claimed job with its stop event and its two threads. -/
structure WorkerClaim where
  job : ReviewJobRow
  jobStop : Bool
  thread : JobThread
  renewal : RenewalThread
  /-- The shutdown deadline passed while the thread was alive. -/
  overran : Bool
deriving DecidableEq, Repr

/-- How `run_worker` was left. -/
inductive WorkerEnd where
  | returned
  | raised
deriving DecidableEq, Repr

/-- Where `run_worker` goes once the `finally` clause is through. -/
inductive AfterFinally where
  | nextIteration
  | afterTry
  | reraise
deriving DecidableEq, Repr

/-- The next statement of `run_worker` and `run_job_with_shutdown_deadline`. -/
inductive MainPc where
  | loopTest
  | iterationTest
  | claiming
  | polling
  | startingRenewal
  | startingThread
  | aliveTest
  | waitingStop
  | sleeping
  | settingJobStop
  | joiningDeadline
  | deadlineTest
  | joining
  | failingCrashed
  | stoppingRenewal (next : AfterFinally)
  | joiningRenewal (next : AfterFinally)
  | stopTest
  | failingShutdown
  | completing
  | ended (how : WorkerEnd)
deriving DecidableEq, Repr

/-- The process: the stop event, the thread of `run_worker`, the claims, newest first. -/
structure WorkerState where
  hosted : HostedState
  stop : Bool
  iterations : Nat
  pc : MainPc
  claims : List WorkerClaim

/-- What a step meets: the row the database prefers, a timeout, a lost connection. -/
structure Chance where
  tie : Uuid
  timedOut : Bool
  unavailable : Bool
deriving DecidableEq, Repr

/-- One step of a thread; a claim is named by how many were made after it. -/
inductive WorkerAction where
  | main (chance : Chance)
  | renewal (k : Nat) (chance : Chance)
  | jobEnds (k : Nat) (raises : Bool)
  | setStop
  | elsewhere (action : HostedAction)
deriving DecidableEq, Repr

/-- A call of the job store: whether it raised, and the state it left. -/
def attempt
    (chance : Chance) (hosted : HostedState) (outcome : Except HostedError HostedState) :
    Bool × HostedState :=
  if chance.unavailable then
    (true, hosted)
  else
    match outcome with
    | .ok hosted' => (false, hosted')
    | .error _ => (true, hosted)

/-- A claim just made: its threads are not started. -/
def WorkerClaim.fresh (job : ReviewJobRow) : WorkerClaim where
  job := job
  jobStop := false
  thread := .notStarted
  renewal := .notStarted
  overran := false

namespace WorkerState

/-- `run_worker` before its first statement. -/
def start (hosted : HostedState) : WorkerState where
  hosted := hosted
  stop := false
  iterations := 0
  pc := .loopTest
  claims := []

def goto (s : WorkerState) (pc : MainPc) : WorkerState :=
  { s with pc := pc }

/-- A statement about the claim of the current iteration. -/
def onCurrent (s : WorkerState) (pc : MainPc) (f : WorkerClaim → WorkerClaim) : WorkerState :=
  { s with pc := pc, claims := s.claims.modify 0 f }

/-- `thread.is_alive()`. -/
def threadIsAlive (s : WorkerState) : Bool :=
  s.claims.head?.any (fun c => c.thread = .alive)

/-- The thread left an exception in `error`. -/
def threadRaised (s : WorkerState) : Bool :=
  s.claims.head?.any (fun c => c.thread = .raised)

def renewalIsAlive (s : WorkerState) : Bool :=
  s.claims.head?.any (fun c => c.renewal = .waiting ∨ c.renewal = .renewing)

end WorkerState

section Steps

variable (config : WorkerConfig)

/-- `job = store.claim(worker_id)`. -/
def claimStep (chance : Chance) (s : WorkerState) : WorkerState :=
  if chance.unavailable then
    s.goto (.ended .raised)
  else
    match claimReviewJob s.hosted config.workerId chance.tie with
    | (none, hosted) => { s with hosted := hosted, pc := .polling }
    | (some job, hosted) =>
        { s with
          hosted := hosted
          pc := .startingRenewal
          claims := WorkerClaim.fresh job :: s.claims }

/-- A call of the store about the current job, and where its outcome leads. -/
def storeStep
    (chance : Chance)
    (statement : HostedState → Uuid → Except HostedError HostedState)
    (done refused : MainPc)
    (s : WorkerState) : WorkerState :=
  match s.claims with
  | [] => s
  | c :: _ =>
      let attempted := attempt chance s.hosted (statement s.hosted c.job.id)
      { s with hosted := attempted.2, pc := if attempted.1 then refused else done }

/-- `store.fail(job.id, worker_id, …)`. -/
def failStep
    (chance : Chance) (error : ReviewJobErrorClass) (done refused : MainPc) :
    WorkerState → WorkerState :=
  storeStep chance (fun hosted jobId => failReviewJob hosted jobId config.workerId error)
    done refused

/-- `store.complete(job.id, worker_id)`. -/
def completeStep (chance : Chance) : WorkerState → WorkerState :=
  storeStep chance (fun hosted jobId => completeReviewJob hosted jobId config.workerId)
    .loopTest (.ended .raised)

/-- One statement of `run_worker`. -/
def mainStep (chance : Chance) (s : WorkerState) : WorkerState :=
  match s.pc with
  | .loopTest => s.goto (if s.stop then .ended .returned else .iterationTest)
  | .iterationTest =>
      if config.maxIterations.any (fun n => n ≤ (s.iterations : Int)) then
        s.goto (.ended .returned)
      else
        { s with iterations := s.iterations + 1, pc := .claiming }
  | .claiming => claimStep config chance s
  | .polling => s.goto .loopTest
  | .startingRenewal => s.onCurrent .startingThread (fun c => { c with renewal := .waiting })
  | .startingThread => s.onCurrent .aliveTest (fun c => { c with thread := .alive })
  | .aliveTest => s.goto (if s.threadIsAlive then .waitingStop else .joining)
  | .waitingStop => s.goto (if s.stop then .settingJobStop else .sleeping)
  | .sleeping => s.goto .aliveTest
  | .settingJobStop => s.onCurrent .joiningDeadline (fun c => { c with jobStop := true })
  | .joiningDeadline =>
      if s.threadIsAlive && !chance.timedOut then s else s.goto .deadlineTest
  | .deadlineTest =>
      -- the TimeoutError goes to the `except BaseException` of `run_worker`
      if s.threadIsAlive then
        s.onCurrent .failingCrashed (fun c => { c with overran := true })
      else
        s.goto (.stoppingRenewal .afterTry)
  | .joining =>
      s.goto (if s.threadRaised then .failingCrashed else .stoppingRenewal .afterTry)
  | .failingCrashed =>
      failStep config chance .workerCrashed
        (.stoppingRenewal .nextIteration) (.stoppingRenewal .reraise) s
  | .stoppingRenewal next =>
      s.onCurrent (.joiningRenewal next) (fun c => { c with jobStop := true })
  | .joiningRenewal next =>
      if s.renewalIsAlive && !chance.timedOut then
        s
      else
        s.goto
          (match next with
          | .nextIteration => .loopTest
          | .afterTry => .stopTest
          | .reraise => .ended .raised)
  | .stopTest => s.goto (if s.stop then .failingShutdown else .completing)
  | .failingShutdown =>
      failStep config chance .shutdownRequested (.ended .returned) (.ended .raised) s
  | .completing => completeStep config chance s
  | .ended _ => s

/-- One statement of the loop of a renewal thread; a failed renewal sets the job's event. -/
def renewalStep (k : Nat) (chance : Chance) (s : WorkerState) : WorkerState :=
  match s.claims[k]? with
  | none => s
  | some c =>
      match c.renewal with
      | .notStarted => s
      | .ended => s
      | .waiting =>
          let renewal := if c.jobStop then RenewalThread.ended else .renewing
          { s with claims := s.claims.modify k (fun c => { c with renewal := renewal }) }
      | .renewing =>
          let attempted :=
            attempt chance s.hosted (renewReviewJobLease s.hosted c.job.id config.workerId)
          { s with
            hosted := attempted.2
            claims := s.claims.modify k (fun c =>
              { c with renewal := .waiting, jobStop := c.jobStop || attempted.1 }) }

/-- `run_job` returns or raises. -/
def jobEndsStep (k : Nat) (raises : Bool) (s : WorkerState) : WorkerState :=
  { s with
    claims := s.claims.modify k (fun c =>
      if c.thread = .alive then
        { c with thread := if raises then .raised else .returned }
      else
        c) }

variable (hashRunnerCredential : String → String)

/-- One step of the process or of the others. -/
def workerStep (s : WorkerState) : WorkerAction → WorkerState
  | .main chance => mainStep config chance s
  | .renewal k chance => renewalStep config k chance s
  | .jobEnds k raises => jobEndsStep k raises s
  | .setStop => { s with stop := true }
  | .elsewhere action => { s with hosted := step hashRunnerCredential s.hosted action }

end Steps

end Worker
end PrReviewer
