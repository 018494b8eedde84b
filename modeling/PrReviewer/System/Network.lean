import PrReviewer.Hosted.LeaseExclusivity
import PrReviewer.Runner.Runs

/-!
# One runner and the control plane

The daemon of one runner composed with the hosted job machine.  A request of the
runner takes one turn of the network: others act first, then the request is lost
on its way, or it is served and the response is lost, or it is served and answered.
A route authenticates in one transaction and serves in another, and others may act
between the two.  The turns are a list given beforehand, so that a theorem about
every list is a theorem about every interleaving and every loss.

The routes are those of control_plane/runner_jobs.py, with the responses FastAPI
makes of what they return and raise.
-/

namespace PrReviewer
namespace System

open Lib Hosted Runner

/-- What becomes of a request. -/
inductive Fate where
  | delivered
  | lostBefore
  | lostAfter
deriving DecidableEq, Repr

/-- One turn: the others' actions around the request, its fate, and what a claim draws. -/
structure Turn where
  before : List HostedAction
  fate : Fate
  between : List HostedAction
  leaseToken : String
  tie : Uuid
deriving DecidableEq, Repr

/-- A request, whom the plane took its sender for, and how it ended for the runner. -/
structure Exchange where
  request : Request
  runner : Option AuthenticatedRunner
  outcome : Outcome

/-- The control plane, the turns to come, and the last exchange. -/
structure Network where
  plane : HostedState
  turns : List Turn
  last : Option Exchange

/-- The credential in the header of a request. -/
def bearerOf : Request → String
  | .claim bearer => bearer
  | .heartbeat bearer _ _ => bearer
  | .acknowledge bearer _ _ _ => bearer

/-! ## Routes -/

def statusResponse (status : String) : Response where
  statusCode := 200
  json := .ok (.obj [("status", .str status)])

/-- The response of an `HTTPException`. -/
def detailResponse (statusCode : Nat) (detail : String) : Response where
  statusCode := statusCode
  json := .ok (.obj [("detail", .str detail)])

/-- The response to an exception no route handles: plain text, which is not JSON. -/
def internalServerError : Response where
  statusCode := 500
  json := .error .valueError

section Routes

variable (hashRunnerCredential : String → String)

/-- `claim_jobs_route` after authentication. -/
def claimRoute
    (s : HostedState) (runner : AuthenticatedRunner) (leaseToken : String) (tie : Uuid) :
    Response × HostedState :=
  match claimJob hashRunnerCredential s runner leaseToken tie with
  | .ok (.noJob, s') => (statusResponse "no_job", s')
  | .ok (.envelope e, s') => ({ statusCode := 200, json := .ok e.dump }, s')
  | .error _ => (internalServerError, s)

/-- `heartbeat_jobs_route` after authentication. -/
def heartbeatRoute
    (s : HostedState) (runner : AuthenticatedRunner) (jobId : Uuid) (leaseToken : String) :
    Response × HostedState :=
  let answered := heartbeatJob hashRunnerCredential s runner.runnerId jobId leaseToken
  (statusResponse answered.1.text, answered.2)

/-- `acknowledge_jobs_route` after authentication. -/
def acknowledgeRoute
    (s : HostedState) (runner : AuthenticatedRunner)
    (jobId : Uuid) (leaseToken : String) (result : JobAcknowledgement) :
    Response × HostedState :=
  match acknowledgeJob hashRunnerCredential s runner.runnerId jobId leaseToken result with
  | .ok (_, s') => (statusResponse "ok", s')
  | .error .jobProtocolDenied => (detailResponse 409 invalidOrExpired, s)
  | .error _ => (internalServerError, s)

/-- An acknowledgement that cannot be written is answered with an error 500. -/
theorem acknowledgeRoute_refused
    {hashRunnerCredential : String → String} {s : HostedState} {runner : AuthenticatedRunner}
    {jobId : Uuid} {leaseToken : String} {result : JobAcknowledgement} {e : HostedError}
    (hrefusal : acknowledgementRefusal result = some e)
    (h : acknowledgeJob hashRunnerCredential s runner.runnerId jobId leaseToken result =
      .error e) :
    acknowledgeRoute hashRunnerCredential s runner jobId leaseToken result =
      (internalServerError, s) := by
  rw [acknowledgeRoute, h]
  cases e with
  | jobProtocolDenied => exact absurd hrefusal (acknowledgementRefusal_ne_denied result)
  | _ => rfl

/-- The part of a route after authentication. -/
def routed (turn : Turn) (s : HostedState) (runner : AuthenticatedRunner) :
    Request → Response × HostedState
  | .claim _ => claimRoute hashRunnerCredential s runner turn.leaseToken turn.tie
  | .heartbeat _ jobId leaseToken =>
      heartbeatRoute hashRunnerCredential s runner jobId leaseToken
  | .acknowledge _ jobId leaseToken result =>
      acknowledgeRoute hashRunnerCredential s runner jobId leaseToken result

/-- A request that arrived: whom it was taken to come from, the response, the state. -/
def serve (turn : Turn) (s : HostedState) (request : Request) :
    Option AuthenticatedRunner × Response × HostedState :=
  match authenticateRunner hashRunnerCredential s (bearerOf request) with
  | .error reason => (none, detailResponse 401 reason.text, s)
  | .ok runner =>
      (some runner,
        routed hashRunnerCredential turn
          (exec (step hashRunnerCredential) s turn.between) runner request)

/-- `client.post`: one turn of the network. -/
def Network.send (request : Request) (n : Network) : Outcome × Network :=
  match n.turns with
  | [] =>
      (.transportError,
        { n with last := some { request, runner := none, outcome := .transportError } })
  | turn :: turns =>
      let arrived := exec (step hashRunnerCredential) n.plane turn.before
      let served := serve hashRunnerCredential turn arrived request
      match turn.fate with
      | .lostBefore =>
          (.transportError,
            { plane := arrived
              turns := turns
              last := some { request, runner := none, outcome := .transportError } })
      | .lostAfter =>
          (.transportError,
            { plane := served.2.2
              turns := turns
              last := some { request, runner := served.1, outcome := .transportError } })
      | .delivered =>
          (.response served.2.1,
            { plane := served.2.2
              turns := turns
              last := some { request, runner := served.1, outcome := .response served.2.1 } })

/-- The surroundings of a runner on a host, connected to the control plane. -/
def networked {ρ : Type} (host : Host ρ) : Surroundings (Network × ρ) where
  send := fun request o =>
    let sent := o.1.send hashRunnerCredential request
    (sent.1, (sent.2, o.2))
  secret := fun o => ((host.secret o.2).1, (o.1, (host.secret o.2).2))
  review := fun job o => ((host.review job o.2).1, (o.1, (host.review job o.2).2))
  stopIsSet := fun o => ((host.stopIsSet o.2).1, (o.1, (host.stopIsSet o.2).2))
  clock := fun o => ((host.clock o.2).1, (o.1, (host.clock o.2).2))

end Routes

/-! ## What the client makes of the routes' responses -/

section Decoding

variable {codec : Codec}

@[simp] theorem decodeClaim_dump
    (e : JobEnvelope) :
    decodeClaim codec { statusCode := 200, json := .ok e.dump } = .ok (.envelope e) := by
  have hvalid := codec.envelope_roundtrip e
  unfold JobEnvelope.dump at hvalid
  unfold decodeClaim Response.decode JobEnvelope.dump
  simp [Json.field?, List.lookup_cons, hvalid]

@[simp] theorem decodeClaim_denied
    (reason : RunnerAuthDenialReason) :
    decodeClaim codec (detailResponse 401 reason.text) = .ok (.denied reason) := by
  cases reason with
  | unknownCredential => rfl
  | revokedRunner => rfl

@[simp] theorem decodeHeartbeat_status
    (state : LeaseState) :
    decodeHeartbeat (statusResponse state.text) = .ok state := by
  cases state with
  | active => rfl
  | invalidOrExpired => rfl
  | cancelled => rfl

@[simp] theorem decodeAcknowledge_conflict :
    decodeAcknowledge (detailResponse 409 invalidOrExpired) =
      .error .jobProtocolDenied := by
  rfl

@[simp] theorem decodeAcknowledge_internalServerError :
    decodeAcknowledge internalServerError = .error (.httpStatusError 500) := by
  rfl

@[simp] theorem decodeAcknowledge_denied
    (reason : RunnerAuthDenialReason) :
    decodeAcknowledge (detailResponse 401 reason.text) = .error (.httpStatusError 401) := by
  cases reason with
  | unknownCredential => rfl
  | revokedRunner => rfl

end Decoding

/-- What the last request, a claim, was answered with. -/
def Network.answeredClaim (codec : Codec) (n : Network) : Option ClaimAnswer :=
  match n.last with
  | some { request := .claim _, runner := _, outcome := .response r } =>
      (decodeClaim codec r).toOption
  | _ => none

/-! ## What a turn does to the plane -/

section Turns

variable {hashRunnerCredential : String → String}

/-- A request was answered by a turn that delivered it, or ended in a transport error. -/
theorem Network.send_cases
    (hashRunnerCredential : String → String) (request : Request) (n : Network) :
    (n.send hashRunnerCredential request).1 = .transportError ∨
      ∃ turn turns served, n.turns = turn :: turns ∧ turn.fate = .delivered ∧
        served = serve hashRunnerCredential turn
          (exec (step hashRunnerCredential) n.plane turn.before) request ∧
        n.send hashRunnerCredential request =
          (.response served.2.1,
            { plane := served.2.2
              turns := turns
              last := some
                { request := request, runner := served.1, outcome := .response served.2.1 } }) := by
  unfold Network.send
  cases hturns : n.turns with
  | nil => exact .inl rfl
  | cons turn turns =>
      simp only
      cases hfate : turn.fate with
      | lostBefore => exact .inl rfl
      | lostAfter => exact .inl rfl
      | delivered => exact .inr ⟨turn, turns, _, rfl, hfate, rfl, rfl⟩

/--
An answered claim: the credential was denied, or the runner it names got no job,
or a job under the token of the turn.
-/
theorem Network.send_claim_ok
    {codec : Codec} {n : Network} {bearer : String} {claimed : ClaimAnswer}
    (h : received (decodeClaim codec) (n.send hashRunnerCredential (.claim bearer)).1 =
      .ok claimed) :
    ∃ n' x, (n.send hashRunnerCredential (.claim bearer)).2 = n' ∧ n'.last = some x ∧
      x.request = .claim bearer ∧ n'.answeredClaim codec = some claimed ∧
      ((∃ reason, claimed = .denied reason ∧
          authenticateRunner hashRunnerCredential n'.plane bearer = .error reason) ∨
        (∃ runner, claimed = .noJob ∧ x.runner = some runner ∧
          ((∀ row, n'.plane.runners.find? runner.runnerId = some row →
              row.revokedAt.isSome = true) ∨
            ∀ row ∈ n'.plane.reviewJobs.rows,
              claimableByRunner n'.plane runner.runnerId row = false)) ∨
        ∃ e turn, claimed = .envelope e ∧ n.turns = turn :: n'.turns ∧
          e.leaseToken = turn.leaseToken) := by
  rcases n.send_cases hashRunnerCredential (.claim bearer) with
    hlost | ⟨turn, turns, served, hturns, _, hserved, hsend⟩
  · rw [hlost] at h
    cases h
  · rw [hsend] at h ⊢
    have hanswered : (decodeClaim codec served.2.1).toOption = some claimed := by
      change decodeClaim codec served.2.1 = .ok claimed at h
      rw [h]
      rfl
    refine ⟨_, _, rfl, rfl, rfl, hanswered, ?_⟩
    unfold serve at hserved
    cases hauth : authenticateRunner hashRunnerCredential
        (exec (step hashRunnerCredential) n.plane turn.before) (bearerOf (.claim bearer)) with
    | error reason =>
        rw [hauth] at hserved
        subst hserved
        simp only [received, decodeClaim_denied] at h
        cases h
        exact .inl ⟨reason, rfl, hauth⟩
    | ok runner =>
        rw [hauth] at hserved
        simp only [routed, claimRoute] at hserved
        rcases claimJob_cases hashRunnerCredential
            (exec (step hashRunnerCredential)
              (exec (step hashRunnerCredential) n.plane turn.before) turn.between)
            runner turn.leaseToken turn.tie with
          ⟨hnone, hwhy⟩ | ⟨e, herror⟩ | ⟨row, e, _, _, henvelope, hout⟩
        · rw [hnone] at hserved
          subst hserved
          cases h
          exact .inr (.inl ⟨runner, rfl, rfl, hwhy⟩)
        · rw [herror] at hserved
          subst hserved
          cases h
        · rw [hout] at hserved
          subst hserved
          simp only [received, decodeClaim_dump] at h
          cases h
          exact .inr (.inr ⟨e, turn, rfl, hturns, (jobEnvelope_fields henvelope).2⟩)

/-- An accepted acknowledgement: the job was finished before, or is finished by it. -/
theorem Network.send_acknowledge_ok
    {n : Network} {bearer leaseToken : String} {j : Uuid} {result : JobAcknowledgement}
    (h : received decodeAcknowledge
      (n.send hashRunnerCredential (.acknowledge bearer j leaseToken result)).1 = .ok ()) :
    ∃ s row, s.reviewJobs.find? j = some row ∧
      ((row.status = .succeeded ∨ row.status = .failed) ∧
          (n.send hashRunnerCredential (.acknowledge bearer j leaseToken result)).2.plane = s ∨
        (n.send hashRunnerCredential (.acknowledge bearer j leaseToken result)).2.plane =
          acknowledgedState s j result) := by
  rcases n.send_cases hashRunnerCredential (.acknowledge bearer j leaseToken result) with
    hlost | ⟨turn, turns, served, _, _, hserved, hsend⟩
  · rw [hlost] at h
    cases h
  · rw [hsend] at h ⊢
    unfold serve at hserved
    cases hauth : authenticateRunner hashRunnerCredential
        (exec (step hashRunnerCredential) n.plane turn.before)
        (bearerOf (.acknowledge bearer j leaseToken result)) with
    | error reason =>
        rw [hauth] at hserved
        subst hserved
        simp only [received, decodeAcknowledge_denied] at h
        cases h
    | ok runner =>
        rw [hauth] at hserved
        simp only [routed] at hserved
        rcases acknowledgeJob_cases hashRunnerCredential
            (exec (step hashRunnerCredential)
              (exec (step hashRunnerCredential) n.plane turn.before) turn.between)
            runner.runnerId j leaseToken result with
          hdenied | ⟨row, hrow, _, hfinished, hresult⟩ |
            ⟨row, e, _, _, _, _, hrefusal, hrefused⟩ | ⟨row, hrow, _, _, _, _, hresult⟩
        · rw [acknowledgeRoute, hdenied] at hserved
          subst hserved
          simp only [received, decodeAcknowledge_conflict] at h
          cases h
        · rw [acknowledgeRoute, hresult] at hserved
          subst hserved
          exact ⟨_, row, hrow, .inl ⟨hfinished, rfl⟩⟩
        · rw [acknowledgeRoute_refused hrefusal hrefused] at hserved
          subst hserved
          simp only [received, decodeAcknowledge_internalServerError] at h
          cases h
        · rw [acknowledgeRoute, hresult] at hserved
          subst hserved
          exact ⟨_, row, hrow, .inr rfl⟩

/-- Operations of the store do not touch the network. -/
theorem answer_store_network
    (hashRunnerCredential : String → String) {codec : Codec} {ρ : Type} (host : Host ρ)
    (op : StoreOp) (w : RunnerState codec (Network × ρ)) :
    (answer (networked hashRunnerCredential host) (.store op) w).2.outside.1 = w.outside.1 := by
  rcases answer_store_cases (networked hashRunnerCredential host) op w with
    ⟨result, store, _, _, hanswer⟩ | ⟨e, hanswer⟩
  · rw [hanswer]
    rfl
  · rw [hanswer]

end Turns

/-! ## The paired laptop, for concrete runs -/

/-- A host without secrets whose executor returns the sample result. -/
def quietHost : Host Unit where
  secret := fun u => (none, u)
  review := fun _ u => (some sampleResult, u)
  stopIsSet := fun u => (false, u)
  clock := fun u => (0, u)

/-- A turn in which nobody else acts. -/
def quietTurn (fate : Fate) (leaseToken : String) : Turn where
  before := []
  fate := fate
  between := []
  leaseToken := leaseToken
  tie := firstJobId

/-- The laptop on an empty store, with one job waiting at the plane. -/
def laptopProcess (turns : List Turn) : RunnerState strictCodec (Network × Unit) where
  store := .empty strictCodec
  onStoreThread := true
  gate := .new
  credential := "laptop-credential"
  outside :=
    ({ plane :=
        exec (step sampleHash) HostedState.empty
          (pairLaptop ++ [enqueueHead "delivery-1" firstJobId "head-1" firstHead_ne])
       turns := turns
       last := none }, ())

end System
end PrReviewer
