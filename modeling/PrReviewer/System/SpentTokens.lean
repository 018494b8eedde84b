import PrReviewer.System.Network

/-!
# Tokens the runner need not keep

A lease token is spent when the plane will never call it active again.  What others
do, and what the runner's own requests do, keeps a spent token spent, as long as no
turn draws it again.  The answers of the plane tell the runner when a token is spent:
a heartbeat that is not answered "active", an acknowledgement that is accepted, and
one that is denied, provided that the request was taken to come from the runner that
holds the lease.
-/

namespace PrReviewer
namespace System

open Lib Hosted Runner

/-- The tokens a turn draws, for others and for the runner. -/
def Turn.draws (turn : Turn) : List String :=
  (turn.before ++ turn.between).filterMap HostedAction.drawnToken? ++ [turn.leaseToken]

/-- The tokens still to be drawn. -/
def drawsOf (turns : List Turn) : List String :=
  turns.flatMap Turn.draws

/-- What is assumed of the turns to come. -/
structure HonestTurns (turns : List Turn) : Prop where
  freshTokens : (drawsOf turns).Nodup
  workersAreNotRunners :
    ∀ turn ∈ turns, ∀ workerId tie,
      .claimReviewJob workerId tie ∈ turn.before ++ turn.between →
        ∀ runnerId : Uuid, workerId ≠ runnerId.text

theorem HonestTurns.tail
    {turns : List Turn}
    (h : HonestTurns turns) :
    HonestTurns turns.tail := by
  cases turns with
  | nil => exact h
  | cons turn turns =>
      refine ⟨?_, ?_⟩
      · have hnodup := h.freshTokens
        unfold drawsOf at hnodup
        rw [List.flatMap_cons] at hnodup
        exact (List.nodup_append.mp hnodup).2.1
      · intro turn' hturn'
        exact h.workersAreNotRunners turn' (List.mem_cons_of_mem turn hturn')

theorem not_mem_drawsOf_tail
    {turns : List Turn} {t : String}
    (h : t ∉ drawsOf turns) :
    t ∉ drawsOf turns.tail := by
  cases turns with
  | nil => exact h
  | cons turn turns =>
      intro ht
      exact h (List.mem_flatMap.mpr (by
        obtain ⟨turn', hturn', htoken⟩ := List.mem_flatMap.mp ht
        exact ⟨turn', List.mem_cons_of_mem turn hturn', htoken⟩))

/-- The others' actions of a turn do not bring back a token that it does not draw. -/
theorem HonestTurns.keepsDisplaced
    {turn : Turn} {turns : List Turn} {t : String}
    (h : HonestTurns (turn :: turns))
    (ht : t ∉ drawsOf (turn :: turns)) :
    ∀ a ∈ turn.before ++ turn.between, KeepsDisplaced t a := by
  intro a ha
  refine ⟨?_, ?_⟩
  · intro hdrawn
    refine ht (List.mem_flatMap.mpr ⟨turn, by simp, ?_⟩)
    exact List.mem_append_left _ (List.mem_filterMap.mpr ⟨a, ha, hdrawn⟩)
  · intro workerId tie hworker
    subst hworker
    exact h.workersAreNotRunners turn (by simp) workerId tie ha

section SpentTokens

variable {hashRunnerCredential : String → String}

/-- The action of the machine that serves a request. -/
def ownAction (turn : Turn) (runner : AuthenticatedRunner) : Request → HostedAction
  | .claim _ => .claimJob runner turn.leaseToken turn.tie
  | .heartbeat _ jobId leaseToken => .heartbeatJob runner.runnerId jobId leaseToken
  | .acknowledge _ jobId leaseToken result =>
      .acknowledgeJob runner.runnerId jobId leaseToken result

/-- A route takes one step of the hosted machine. -/
theorem routed_plane
    (hashRunnerCredential : String → String)
    (turn : Turn) (s : HostedState) (runner : AuthenticatedRunner) (request : Request) :
    (routed hashRunnerCredential turn s runner request).2 =
      step hashRunnerCredential s (ownAction turn runner request) := by
  cases request with
  | claim bearer =>
      simp only [routed, claimRoute, ownAction, step]
      cases claimJob hashRunnerCredential s runner turn.leaseToken turn.tie with
      | error e => rfl
      | ok answered =>
          obtain ⟨claimed, s'⟩ := answered
          cases claimed with
          | envelope e => rfl
          | noJob => rfl
  | heartbeat bearer jobId leaseToken => rfl
  | acknowledge bearer jobId leaseToken result =>
      simp only [routed, acknowledgeRoute, ownAction, step]
      cases acknowledgeJob hashRunnerCredential s runner.runnerId jobId leaseToken result with
      | error e =>
          cases e with
          | _ => rfl
      | ok answered => rfl

/-- The runner's own action draws no token but the one of its turn. -/
theorem ownAction_keepsDisplaced
    {turn : Turn} {turns : List Turn} {t : String}
    (ht : t ∉ drawsOf (turn :: turns))
    (runner : AuthenticatedRunner) (request : Request) :
    KeepsDisplaced t (ownAction turn runner request) := by
  cases request with
  | claim bearer =>
      refine ⟨?_, by rintro workerId tie ⟨⟩⟩
      intro hdrawn
      have htoken : turn.leaseToken = t := Option.some.inj hdrawn
      refine ht (List.mem_flatMap.mpr ⟨turn, by simp, ?_⟩)
      rw [← htoken]
      exact List.mem_append_right _ (List.mem_singleton.mpr rfl)
  | heartbeat bearer jobId leaseToken => exact ⟨by rintro ⟨⟩, by rintro workerId tie ⟨⟩⟩
  | acknowledge bearer jobId leaseToken result =>
      exact ⟨by rintro ⟨⟩, by rintro workerId tie ⟨⟩⟩

theorem Network.send_turns
    (hashRunnerCredential : String → String) (request : Request) (n : Network) :
    (n.send hashRunnerCredential request).2.turns = n.turns.tail := by
  unfold Network.send
  cases hturns : n.turns with
  | nil => simp only [List.tail_nil]
  | cons turn turns =>
      simp only [List.tail_cons]
      cases turn.fate with
      | _ => rfl

/-- A spent token stays spent over a turn. -/
theorem Network.send_spent
    {n : Network} {j : Uuid} {t : String}
    (hinjective : Function.Injective hashRunnerCredential)
    (hhonest : HonestTurns n.turns)
    (ht : t ∉ drawsOf n.turns)
    (request : Request)
    (h : Spent hashRunnerCredential n.plane j t) :
    Spent hashRunnerCredential (n.send hashRunnerCredential request).2.plane j t := by
  unfold Network.send
  cases hturns : n.turns with
  | nil => exact h
  | cons turn turns =>
      rw [hturns] at hhonest ht
      have hkeeps := hhonest.keepsDisplaced ht
      have harrived :
          Spent hashRunnerCredential
            (exec (step hashRunnerCredential) n.plane turn.before) j t :=
        exec_spent hinjective (fun a ha => hkeeps a (List.mem_append_left _ ha)) h
      have hserved :
          Spent hashRunnerCredential
            (serve hashRunnerCredential turn
              (exec (step hashRunnerCredential) n.plane turn.before) request).2.2 j t := by
        unfold serve
        split
        · exact harrived
        · next runner _ =>
            simp only
            rw [routed_plane]
            refine step_spent hinjective (ownAction_keepsDisplaced ht runner request) ?_
            exact exec_spent hinjective
              (fun a ha => hkeeps a (List.mem_append_right _ ha)) harrived
      simp only
      cases turn.fate with
      | lostBefore => exact harrived
      | lostAfter => exact hserved
      | delivered => exact hserved

/-! ## What the answers tell -/

variable (hashRunnerCredential) in
/-- The state in which a request that arrived is decided. -/
def Turn.decided (turn : Turn) (arrived : HostedState) (request : Request) : HostedState :=
  match authenticateRunner hashRunnerCredential arrived (bearerOf request) with
  | .error _ => arrived
  | .ok _ => exec (step hashRunnerCredential) arrived turn.between

/-- The runner named by the row of the job. -/
def holder? (s : HostedState) (j : Uuid) : Option Uuid :=
  (s.reviewJobs.find? j).bind (fun row => row.lockedBy.bind Uuid.ofCanonical?)

variable (hashRunnerCredential) in
/--
If the token is active when the request is decided, and the request is answered, then
it is taken to come from the runner that holds the lease.
-/
def sentByHolder (n : Network) (request : Request) (j : Uuid) (t : String) : Bool :=
  match n.turns with
  | [] => true
  | turn :: _ =>
      let arrived := exec (step hashRunnerCredential) n.plane turn.before
      let decided := turn.decided hashRunnerCredential arrived request
      match holder? decided j with
      | none => true
      | some holder =>
          turn.fate ≠ .delivered ∨
            (heartbeatJob hashRunnerCredential decided holder j t).1 ≠ .active ∨
            (authenticateRunner hashRunnerCredential arrived (bearerOf request)).toOption.map
              AuthenticatedRunner.runnerId = some holder

/-- A runner for which the token is active is the holder. -/
theorem holder?_of_active
    {s : HostedState} {runnerId j : Uuid} {t : String}
    (h : (heartbeatJob hashRunnerCredential s runnerId j t).1 = .active) :
    holder? s j = some runnerId := by
  obtain ⟨row, hrow, _, hleased, _⟩ := heartbeatJob_active_iff.mp h
  have hlocked := (leasedUnder_eq_true.mp hleased).1
  unfold holder?
  rw [hrow, Option.bind_some, hlocked, Option.bind_some, Uuid.ofCanonical?_text]

/-- A request about an active token, sent by its holder, is authenticated as the holder. -/
theorem authenticated_of_active
    {n : Network} {turn : Turn} {turns : List Turn} {request : Request}
    {j : Uuid} {t : String} (runnerId : Uuid)
    (hholder : sentByHolder hashRunnerCredential n request j t = true)
    (hturns : n.turns = turn :: turns)
    (hfate : turn.fate = .delivered)
    (hactive :
      (heartbeatJob hashRunnerCredential
        (turn.decided hashRunnerCredential
          (exec (step hashRunnerCredential) n.plane turn.before) request)
        runnerId j t).1 = .active) :
    ∃ runner,
      authenticateRunner hashRunnerCredential
          (exec (step hashRunnerCredential) n.plane turn.before) (bearerOf request) =
        .ok runner ∧ runner.runnerId = runnerId := by
  unfold sentByHolder at hholder
  rw [hturns] at hholder
  simp only [holder?_of_active hactive, decide_eq_true_eq] at hholder
  rcases hholder with hother | hother | hrunner
  · exact absurd hfate hother
  · exact absurd hactive hother
  · cases hauth : authenticateRunner hashRunnerCredential
        (exec (step hashRunnerCredential) n.plane turn.before) (bearerOf request) with
    | error reason =>
        rw [hauth] at hrunner
        cases hrunner
    | ok runner =>
        rw [hauth] at hrunner
        exact ⟨runner, rfl, Option.some.inj hrunner⟩

/-- A heartbeat that is not answered "active" tells that the token is spent. -/
theorem spent_of_heartbeat
    {n : Network} {bearer : String} {j : Uuid} {t : String} {lease : LeaseState}
    (h : received decodeHeartbeat
      (n.send hashRunnerCredential (.heartbeat bearer j t)).1 = .ok lease)
    (hlease : lease ≠ .active)
    (hholder : sentByHolder hashRunnerCredential n (.heartbeat bearer j t) j t = true) :
    Spent hashRunnerCredential
      (n.send hashRunnerCredential (.heartbeat bearer j t)).2.plane j t := by
  rcases n.send_cases hashRunnerCredential (.heartbeat bearer j t) with
    hlost | ⟨turn, turns, served, hturns, hfate, hserved, hsend⟩
  · rw [hlost] at h
    cases h
  · rw [hsend] at h ⊢
    have hauthenticated := fun runnerId =>
      authenticated_of_active runnerId hholder hturns hfate
    unfold serve at hserved
    unfold Turn.decided at hauthenticated
    cases hauth : authenticateRunner hashRunnerCredential
        (exec (step hashRunnerCredential) n.plane turn.before)
        (bearerOf (.heartbeat bearer j t)) with
    | error reason =>
        rw [hauth] at hserved hauthenticated
        subst hserved
        intro runnerId hactive
        obtain ⟨runner, hrunner, _⟩ := hauthenticated runnerId hactive
        cases hrunner
    | ok runner =>
        rw [hauth] at hserved hauthenticated
        simp only [routed, heartbeatRoute] at hserved
        subst hserved
        simp only [received, decodeHeartbeat_status] at h
        have hanswer := Except.ok.inj h
        rcases heartbeatJob_cases hashRunnerCredential
            (exec (step hashRunnerCredential)
              (exec (step hashRunnerCredential) n.plane turn.before) turn.between)
            runner.runnerId j t with
          ⟨row, _, _, _, _, hresult⟩ | ⟨hinactive, hsame⟩
        · rw [hresult] at hanswer
          exact absurd hanswer.symm hlease
        · intro runnerId hactive
          simp only [hsame] at hactive
          obtain ⟨runner', hrunner', hid⟩ := hauthenticated runnerId hactive
          cases hrunner'
          rw [← hid] at hactive
          exact hinactive hactive

/-- An accepted acknowledgement spends the token. -/
theorem spent_of_accepted
    {n : Network} {bearer : String} {j : Uuid} {t : String} {result : JobAcknowledgement}
    (h : received decodeAcknowledge
      (n.send hashRunnerCredential (.acknowledge bearer j t result)).1 = .ok ()) :
    Spent hashRunnerCredential
      (n.send hashRunnerCredential (.acknowledge bearer j t result)).2.plane j t := by
  intro runnerId hactive
  obtain ⟨row', hrow', hrunning, _⟩ := heartbeatJob_active_iff.mp hactive
  have hfinished : row'.status = .succeeded ∨ row'.status = .failed := by
    obtain ⟨s, row, hrow, ⟨hfinished, hplane⟩ | hplane⟩ := Network.send_acknowledge_ok h
    · rw [hplane, hrow] at hrow'
      cases hrow'
      exact hfinished
    · rw [hplane, acknowledgedState_find?, if_pos rfl, hrow] at hrow'
      cases hrow'
      exact acknowledged_status row result s.now
  rw [hrunning] at hfinished
  rcases hfinished with hstatus | hstatus
  · cases hstatus
  · cases hstatus

/-- The runner for which a token is active is not denied. -/
theorem acknowledgeJob_of_active
    {s : HostedState} {runnerId j : Uuid} {t : String} (result : JobAcknowledgement)
    (h : (heartbeatJob hashRunnerCredential s runnerId j t).1 = .active) :
    acknowledgeJob hashRunnerCredential s runnerId j t result ≠ .error .jobProtocolDenied := by
  obtain ⟨row, hrow, hrunning, hleased, hlive⟩ := heartbeatJob_active_iff.mp h
  intro hdenied
  simp only [acknowledgeJob, hrow, hleased, hrunning, hlive] at hdenied
  cases hrefusal : acknowledgementRefusal result with
  | none => simp [hrefusal] at hdenied
  | some e =>
      simp [hrefusal] at hdenied
      subst hdenied
      exact acknowledgementRefusal_ne_denied result hrefusal

/-- A denied acknowledgement tells that the token is spent. -/
theorem spent_of_denied
    {n : Network} {bearer : String} {j : Uuid} {t : String} {result : JobAcknowledgement}
    (h : received decodeAcknowledge
        (n.send hashRunnerCredential (.acknowledge bearer j t result)).1 =
      .error .jobProtocolDenied)
    (hholder :
      sentByHolder hashRunnerCredential n (.acknowledge bearer j t result) j t = true) :
    Spent hashRunnerCredential
      (n.send hashRunnerCredential (.acknowledge bearer j t result)).2.plane j t := by
  rcases n.send_cases hashRunnerCredential (.acknowledge bearer j t result) with
    hlost | ⟨turn, turns, served, hturns, hfate, hserved, hsend⟩
  · rw [hlost] at h
    cases h
  · rw [hsend] at h ⊢
    have hauthenticated := fun runnerId =>
      authenticated_of_active runnerId hholder hturns hfate
    unfold serve at hserved
    unfold Turn.decided at hauthenticated
    cases hauth : authenticateRunner hashRunnerCredential
        (exec (step hashRunnerCredential) n.plane turn.before)
        (bearerOf (.acknowledge bearer j t result)) with
    | error reason =>
        rw [hauth] at hserved
        subst hserved
        simp only [received, decodeAcknowledge_denied] at h
        cases h
    | ok runner =>
        rw [hauth] at hserved hauthenticated
        simp only [routed] at hserved
        rcases acknowledgeJob_cases hashRunnerCredential
            (exec (step hashRunnerCredential)
              (exec (step hashRunnerCredential) n.plane turn.before) turn.between)
            runner.runnerId j t result with
          hdenied | ⟨row, _, _, _, hresult⟩ | ⟨row, e, _, _, _, _, hrefusal, hrefused⟩ |
          ⟨row, _, _, _, _, _, hresult⟩
        · rw [acknowledgeRoute, hdenied] at hserved
          subst hserved
          intro runnerId hactive
          obtain ⟨runner', hrunner', hid⟩ := hauthenticated runnerId hactive
          cases hrunner'
          rw [← hid] at hactive
          exact absurd hdenied (acknowledgeJob_of_active result hactive)
        · rw [acknowledgeRoute, hresult] at hserved
          subst hserved
          cases h
        · rw [acknowledgeRoute_refused hrefusal hrefused] at hserved
          subst hserved
          simp only [received, decodeAcknowledge_internalServerError] at h
          cases h
        · rw [acknowledgeRoute, hresult] at hserved
          subst hserved
          cases h

/-- The token of a claimed envelope is not drawn again. -/
theorem claimed_token_fresh
    {codec : Codec} {n : Network} {bearer : String} {e : JobEnvelope}
    (hhonest : HonestTurns n.turns)
    (h : received (decodeClaim codec) (n.send hashRunnerCredential (.claim bearer)).1 =
      .ok (.envelope e)) :
    e.leaseToken ∉ drawsOf (n.send hashRunnerCredential (.claim bearer)).2.turns := by
  obtain ⟨n', x, hsend, _, _, _, hcases⟩ := Network.send_claim_ok h
  rw [hsend]
  rcases hcases with ⟨reason, ⟨⟩, _⟩ | ⟨runner, ⟨⟩, _⟩ | ⟨e', turn, he, hturns, htoken⟩
  cases he
  have hnodup := hhonest.freshTokens
  rw [hturns] at hnodup
  unfold drawsOf at hnodup
  rw [List.flatMap_cons] at hnodup
  intro hlater
  have hdisjoint := (List.nodup_append.mp hnodup).2.2
  refine hdisjoint turn.leaseToken ?_ e.leaseToken hlater htoken.symm
  exact List.mem_append_right _ (List.mem_singleton.mpr rfl)

end SpentTokens

end System
end PrReviewer
