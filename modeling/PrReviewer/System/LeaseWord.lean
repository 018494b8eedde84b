import PrReviewer.System.Network
import PrReviewer.Runner.Recover

/-!
# Recovery and the control plane's word

Between the runner and the control plane anything may answer: a proxy with an error
page, or the plane itself with a 401 or a 500.  The network of before is put behind a
relay, which may put a response of its own in the place of whatever came back.

`RunnerClient.heartbeat` reads every JSON object without a known status as
`invalid_or_expired`, and raises on every other body; and a job whose lease is active is
resumed where there is an executor.  So recovery abandons a job only on the plane's word,
and otherwise leaves its row and goes on, exactly when each heartbeat comes back with that
word, or as active with nothing resumed, or not at all.
-/

namespace PrReviewer
namespace System

open Lib Hosted Runner

/-- The network behind a relay, and what the relay will put in the place of outcomes. -/
structure Relay where
  network : Network
  replies : List (Option Response)

section Relays

variable (hashRunnerCredential : String → String)

/-- `client.post` through the relay. -/
def Relay.send (request : Request) (r : Relay) : Outcome × Relay :=
  let sent := r.network.send hashRunnerCredential request
  match r.replies with
  | [] => (sent.1, { network := sent.2, replies := [] })
  | none :: replies => (sent.1, { network := sent.2, replies := replies })
  | some response :: replies =>
      (.response response, { network := sent.2, replies := replies })

/-- The surroundings of a runner on a host, connected through a relay. -/
def relayed {ρ : Type} (host : Host ρ) : Surroundings (Relay × ρ) where
  send := fun request o =>
    let sent := o.1.send hashRunnerCredential request
    (sent.1, (sent.2, o.2))
  secret := fun o => ((host.secret o.2).1, (o.1, (host.secret o.2).2))
  review := fun job o => ((host.review job o.2).1, (o.1, (host.review job o.2).2))
  stopIsSet := fun o => ((host.stopIsSet o.2).1, (o.1, (host.stopIsSet o.2).2))
  clock := fun o => ((host.clock o.2).1, (o.1, (host.clock o.2).2))

/-- What `heartbeat_job` itself answers in the turn to come, if the answer is delivered. -/
def Network.leaseWord (n : Network) (bearer : String) (jobId : Uuid) (leaseToken : String) :
    Option LeaseState :=
  match n.turns with
  | [] => none
  | turn :: _ =>
      let arrived := exec (step hashRunnerCredential) n.plane turn.before
      match turn.fate, authenticateRunner hashRunnerCredential arrived bearer with
      | .delivered, .ok runner =>
          some
            (heartbeatJob hashRunnerCredential
              (exec (step hashRunnerCredential) arrived turn.between)
              runner.runnerId jobId leaseToken).1
      | _, _ => none

/-- The same, unless the relay replaces it. -/
def Relay.leaseWord (r : Relay) (bearer : String) (jobId : Uuid) (leaseToken : String) :
    Option LeaseState :=
  match r.replies with
  | some _ :: _ => none
  | _ => r.network.leaseWord hashRunnerCredential bearer jobId leaseToken

variable {hashRunnerCredential}

/-- An answer of `heartbeat_job` that is delivered is what the client returns. -/
theorem Network.send_leaseWord
    {n : Network} {bearer leaseToken : String} {jobId : Uuid} {lease : LeaseState}
    (h : n.leaseWord hashRunnerCredential bearer jobId leaseToken = some lease) :
    received decodeHeartbeat
        (n.send hashRunnerCredential (.heartbeat bearer jobId leaseToken)).1 =
      .ok lease := by
  unfold Network.leaseWord at h
  unfold Network.send
  cases hturns : n.turns with
  | nil =>
      rw [hturns] at h
      cases h
  | cons turn turns =>
      rw [hturns] at h
      simp only at h ⊢
      split at h
      · next runner hfate hauth =>
          cases h
          rw [hfate]
          simp only [serve, bearerOf, hauth, routed, heartbeatRoute, received,
            decodeHeartbeat_status]
      · cases h

theorem Relay.send_leaseWord
    {r : Relay} {bearer leaseToken : String} {jobId : Uuid} {lease : LeaseState}
    (h : r.leaseWord hashRunnerCredential bearer jobId leaseToken = some lease) :
    received decodeHeartbeat
        (r.send hashRunnerCredential (.heartbeat bearer jobId leaseToken)).1 =
      .ok lease := by
  unfold Relay.leaseWord at h
  unfold Relay.send
  split at h
  · cases h
  · next hreplies =>
      have hword := Network.send_leaseWord h
      split
      · exact hword
      · exact hword
      · next response replies heq =>
          exact absurd heq (hreplies response replies)

end Relays

/-! ## Recovery on the word -/

section Recovery

variable {codec : Codec} {ρ : Type}
variable (hashRunnerCredential : String → String) (config : DaemonConfig) (host : Host ρ)

/-- What `heartbeat_job` itself answers about the job the recovery has come to. -/
def wordOn (w : RunnerState codec (Relay × ρ)) (job : LocalJob) : Option LeaseState :=
  w.outside.1.leaseWord hashRunnerCredential w.credential job.jobId job.leaseToken

/-- `heartbeat_job` itself says that the lease is gone, or that the job is cancelled. -/
def GivenUp (w : RunnerState codec (Relay × ρ)) (job : LocalJob) : Prop :=
  wordOn hashRunnerCredential w job = some .invalidOrExpired ∨
    wordOn hashRunnerCredential w job = some .cancelled

/--
The recovery of one job makes a claimed row abandoned on the word that its own lease is
gone or its job cancelled.  On any other outcome the row is left exactly as it was and the
loop goes on.
-/
structure KeepsToWord (w : RunnerState codec (Relay × ρ)) (job : LocalJob) : Prop where
  abandoned : ∀ j, w.store.statusOf j = some .claimed →
    (recovered config (relayed hashRunnerCredential host) w job).2.store.statusOf j =
        some .abandoned →
      j = job.jobId ∧ GivenUp hashRunnerCredential w job
  left : ¬ GivenUp hashRunnerCredential w job →
    (recovered config (relayed hashRunnerCredential host) w job).1 = .ok () ∧
      (recovered config (relayed hashRunnerCredential host) w job).2.store.get job.jobId =
        w.store.get job.jobId

/--
`heartbeat_job` says that the job is given up, or nothing answers, or what comes back says
"active" to a daemon that resumes nothing, or resumes it in vain.
-/
def GivenUpOrLeft (w : RunnerState codec (Relay × ρ)) (job : LocalJob) : Prop :=
  GivenUp hashRunnerCredential w job ∨
    heartbeatOutcome (relayed hashRunnerCredential host) w job = .transportError ∨
    (received decodeHeartbeat (heartbeatOutcome (relayed hashRunnerCredential host) w job) =
        .ok .active ∧
      (config.hasReview = true →
        resumedInVain config (relayed hashRunnerCredential host)
          (afterHeartbeat (relayed hashRunnerCredential host) w job) job = true))

variable {hashRunnerCredential config host}

/-- The word, where there is one, is what the client returns. -/
theorem received_of_wordOn
    {w : RunnerState codec (Relay × ρ)} {job : LocalJob} {lease : LeaseState}
    (h : wordOn hashRunnerCredential w job = some lease) :
    received decodeHeartbeat
        (heartbeatOutcome (relayed hashRunnerCredential host) w job) = .ok lease :=
  Relay.send_leaseWord h

theorem recovered_of_received
    {w : RunnerState codec (Relay × ρ)} {job : LocalJob} {lease : LeaseState}
    (h : received decodeHeartbeat
      (heartbeatOutcome (relayed hashRunnerCredential host) w job) = .ok lease) :
    recovered config (relayed hashRunnerCredential host) w job =
      Program.run (answer (relayed hashRunnerCredential host))
        (recoverLease codec config job lease)
        (afterHeartbeat (relayed hashRunnerCredential host) w job) := by
  rw [recovered_eq, h]
  rfl

/-- A row of another job stays claimed. -/
theorem recovered_claimed_other
    {w : RunnerState codec (Relay × ρ)} {job : LocalJob} {j : Uuid}
    (hne : j ≠ job.jobId)
    (h : w.store.statusOf j = some .claimed) :
    (recovered config (relayed hashRunnerCredential host) w job).2.store.statusOf j =
      some .claimed := by
  obtain ⟨row, hrow, hstatus⟩ := Option.map_eq_some_iff.mp h
  unfold LocalStore.statusOf
  rw [recovered_get hne hrow, Option.map_some, hstatus]

/-- A job that is resumed, or with which nothing is done, is not abandoned. -/
theorem recovered_not_abandoned
    {w : RunnerState codec (Relay × ρ)} {job : LocalJob} {j : Uuid}
    (houtcome : heartbeatOutcome (relayed hashRunnerCredential host) w job = .transportError ∨
      received decodeHeartbeat (heartbeatOutcome (relayed hashRunnerCredential host) w job) =
        .ok .active)
    (hclaimed : w.store.statusOf j = some .claimed) :
    (recovered config (relayed hashRunnerCredential host) w job).2.store.statusOf j ≠
      some .abandoned := by
  have hnot : w.store.statusOf j ≠ some .abandoned := by
    rw [hclaimed]
    decide
  rcases houtcome with hlost | hactive
  · rw [recovered_eq, hlost]
    exact hnot
  · rw [recovered_of_received hactive]
    exact resumed_not_abandoned hnot

/-- On the word that the job is given up its row alone may be abandoned. -/
theorem keepsToWord_of_givenUp
    {w : RunnerState codec (Relay × ρ)} {job : LocalJob}
    (h : GivenUp hashRunnerCredential w job) :
    KeepsToWord hashRunnerCredential config host w job := by
  refine ⟨?_, fun hnot => absurd h hnot⟩
  intro j hclaimed habandoned
  refine ⟨?_, h⟩
  by_contra hne
  rw [recovered_claimed_other hne hclaimed] at habandoned
  cases habandoned

theorem decodeHeartbeat_ne_transportError
    (r : Response) :
    decodeHeartbeat r ≠ .error .transportError := by
  unfold decodeHeartbeat Response.decode
  cases r.json with
  | error e =>
      cases e with
      | valueError => simp [BodyError.toPyError]
      | recursionError => simp [BodyError.toPyError]
  | ok payload =>
      cases payload with
      | obj fields =>
          simp only
          split
          · simp
          · simp
          · simp
      | _ => simp

/-- A claimed row is left where the loop goes on and leaves it. -/
theorem leavesRow_recovered_iff
    {w : RunnerState codec (Relay × ρ)} {job : LocalJob}
    (hclaimed : w.store.statusOf job.jobId = some .claimed) :
    ((recovered config (relayed hashRunnerCredential host) w job).1 = .ok () ∧
        (recovered config (relayed hashRunnerCredential host) w job).2.store.get job.jobId =
          w.store.get job.jobId) ↔
      heartbeatOutcome (relayed hashRunnerCredential host) w job = .transportError ∨
        (received decodeHeartbeat
            (heartbeatOutcome (relayed hashRunnerCredential host) w job) = .ok .active ∧
          (config.hasReview = true →
            resumedInVain config (relayed hashRunnerCredential host)
              (afterHeartbeat (relayed hashRunnerCredential host) w job) job = true)) := by
  have hclaimed₁ : (afterHeartbeat (relayed hashRunnerCredential host) w job).store.statusOf
      job.jobId = some .claimed := hclaimed
  rw [recovered_eq]
  change LeavesRow _ _ _ _ ↔ _
  cases houtcome : heartbeatOutcome (relayed hashRunnerCredential host) w job with
  | transportError => exact iff_of_true (leavesRow_ret _ _) (.inl rfl)
  | response r =>
      simp only [received, reduceCtorEq, false_or]
      cases hdecoded : decodeHeartbeat r with
      | error e =>
          have hne : e ≠ .transportError := by
            rintro rfl
            exact decodeHeartbeat_ne_transportError r hdecoded
          simp only [recoverOutcome]
          rw [if_neg hne]
          exact iff_of_false (not_leavesRow_of_raised rfl) (by simp)
      | ok lease =>
          cases lease with
          | invalidOrExpired =>
              exact iff_of_false (not_leavesRow_markAbandoned hclaimed₁) (by simp)
          | cancelled =>
              exact iff_of_false (not_leavesRow_markAbandoned hclaimed₁) (by simp)
          | active =>
              simp only [recoverOutcome, true_and]
              cases hreview : config.hasReview with
              | true =>
                  rw [leavesRow_resumed_iff hreview hclaimed₁]
                  exact ⟨fun hvain _ => hvain, fun hvain => hvain rfl⟩
              | false =>
                  simp only [recoverLease, hreview]
                  exact iff_of_true (leavesRow_ret _ _) (by simp)

theorem keepsToWord_iff
    {w : RunnerState codec (Relay × ρ)} {job : LocalJob}
    (hclaimed : w.store.statusOf job.jobId = some .claimed) :
    KeepsToWord hashRunnerCredential config host w job ↔
      GivenUpOrLeft hashRunnerCredential config host w job := by
  unfold GivenUpOrLeft
  rw [← leavesRow_recovered_iff hclaimed]
  constructor
  · intro h
    by_cases hgiven : GivenUp hashRunnerCredential w job
    · exact .inl hgiven
    · exact .inr (h.left hgiven)
  · rintro (hgiven | hleft)
    · exact keepsToWord_of_givenUp hgiven
    · refine ⟨?_, fun _ => hleft⟩
      intro j hclaimed' habandoned
      have houtcome := (leavesRow_recovered_iff hclaimed).mp hleft
      refine absurd habandoned (recovered_not_abandoned ?_ hclaimed')
      exact houtcome.imp_right And.left

/-- A daemon without an executor keeps to every word of `heartbeat_job`. -/
theorem keepsToWord_of_word
    {w : RunnerState codec (Relay × ρ)} {job : LocalJob} {lease : LeaseState}
    (hclaimed : w.store.statusOf job.jobId = some .claimed)
    (hreview : config.hasReview = false)
    (hword : wordOn hashRunnerCredential w job = some lease) :
    KeepsToWord hashRunnerCredential config host w job := by
  cases lease with
  | invalidOrExpired => exact keepsToWord_of_givenUp (.inl hword)
  | cancelled => exact keepsToWord_of_givenUp (.inr hword)
  | active =>
      refine (keepsToWord_iff hclaimed).mpr (.inr (.inr ⟨received_of_wordOn hword, ?_⟩))
      rw [hreview]
      exact nofun

/--
`recover` keeps to the word of `heartbeat_job` on every job it comes to exactly when each
of its heartbeats is answered with the word that the job is given up, or fails on its way,
or comes back as active and the job is not resumed, or in vain.
-/
theorem recover_keeps_to_word_iff
    (hashRunnerCredential : String → String) (config : DaemonConfig) (host : Host ρ)
    (w : RunnerState codec (Relay × ρ)) :
    (∀ v ∈ recoverVisits config (relayed hashRunnerCredential host) w,
        KeepsToWord hashRunnerCredential config host v.1 v.2) ↔
      ∀ v ∈ recoverVisits config (relayed hashRunnerCredential host) w,
        GivenUpOrLeft hashRunnerCredential config host v.1 v.2 := by
  constructor
  · intro h v hv
    exact (keepsToWord_iff (recoverVisits_claimed hv)).mp (h v hv)
  · intro h v hv
    exact (keepsToWord_iff (recoverVisits_claimed hv)).mpr (h v hv)

end Recovery

/-! ## A credential the plane does not know -/

/-- A daemon without an executor and without a secret store. -/
def idleConfig : DaemonConfig where
  hasSecretStore := false
  hasReview := false

/-- The laptop claims its job and is started again under a credential. -/
def restartedLaptop (credential : String) : RunnerState strictCodec (Relay × Unit) :=
  let turns := [quietTurn .delivered "lease-1", quietTurn .delivered "draw-2"]
  let laptop := laptopProcess turns
  let claimed :=
    (Program.run (answer (relayed sampleHash quietHost)) (processOnce strictCodec idleConfig)
      { laptop with outside := ({ network := laptop.outside.1, replies := [] }, ()) }).2
  { claimed with gate := .new, credential := credential }

/-- The plane answers 401 and holds the lease active; the job is abandoned. -/
theorem unknown_credential_abandons_leased_job :
    ∃ v ∈ recoverVisits idleConfig (relayed sampleHash quietHost)
        (restartedLaptop "replaced-credential"),
      (heartbeatJob sampleHash v.1.outside.1.network.plane laptopRunner.runnerId v.2.jobId
        v.2.leaseToken).1 = .active ∧
      v.1.store.statusOf v.2.jobId = some .claimed ∧
      (recovered idleConfig (relayed sampleHash quietHost) v.1 v.2).2.store.statusOf v.2.jobId =
        some .abandoned ∧
      ¬ KeepsToWord sampleHash idleConfig quietHost v.1 v.2 := by
  refine ⟨_, List.mem_cons_self, by decide, by decide, by decide, ?_⟩
  intro h
  have hword := h.abandoned firstJobId (by decide) (by decide)
  unfold GivenUp at hword
  revert hword
  decide

end System
end PrReviewer
