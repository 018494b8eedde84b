import PrReviewer.System.Network
import PrReviewer.Runner.CompleteJob

/-!
# When a stored result is removed

The daemon removes a pending acknowledgement of a job in two ways: its replay was
answered, or the stored-result path marked it terminal.  Whatever the others do and
whichever messages are lost, a removal follows an answer of the control plane.  The
plane has then recorded an acknowledgement of the job or finished it otherwise; or
it had no job to hand out to the runner, this one included; or it had revoked the
runner.

A claim that is answered with another job, or with an unknown credential, makes the
daemon remove the result as well.  What becomes of the job then is left open.
-/

namespace PrReviewer
namespace System

open Lib Hosted Runner

section Definitions

variable (hashRunnerCredential : String → String)

/-- The reasons for which a result of the job may be given up. -/
inductive Settled (codec : Codec) (n : Network) (j : Uuid) : Prop where
  | acknowledged
      (hevent : 1 ≤ acknowledgements n.plane j)
  | finished
      (row : ReviewJobRow)
      (hrow : n.plane.reviewJobs.find? j = some row)
      (hfinished : row.status = .succeeded ∨ row.status = .failed)
  | notClaimable
      (x : Exchange) (runner : AuthenticatedRunner)
      (hlast : n.last = some x)
      (hrunner : x.runner = some runner)
      (hanswer : n.answeredClaim codec = some .noJob)
      (hunclaimable : ∀ row, n.plane.reviewJobs.find? j = some row →
        claimableByRunner n.plane runner.runnerId row = false)
  | revoked
      (x : Exchange)
      (hlast : n.last = some x)
      (hrevoked :
        authenticateRunner hashRunnerCredential n.plane (bearerOf x.request) =
            .error .revokedRunner ∨
          ∃ runner, x.runner = some runner ∧
            ∀ row, n.plane.runners.find? runner.runnerId = some row →
              row.revokedAt.isSome = true)

/-- The last claim was answered with another job, or with an unknown credential. -/
def LeftOpen (codec : Codec) (n : Network) (j : Uuid) : Prop :=
  (∃ e : JobEnvelope, e.jobId ≠ j ∧ n.answeredClaim codec = some (.envelope e)) ∨
    n.answeredClaim codec = some (.denied .unknownCredential)

/-- A result may be removed. -/
def MayRemove (codec : Codec) (n : Network) (j : Uuid) : Prop :=
  Settled hashRunnerCredential codec n j ∨ LeftOpen codec n j

/-- The step removes no pending acknowledgement that may not be removed. -/
def RemovesRightly
    {codec : Codec} {ρ : Type} (w : RunnerState codec (Network × ρ)) : DaemonOp → Prop
  | .store (.resolve entryId) =>
      ∀ row ∈ w.store.pending.rows, row.id = entryId →
        MayRemove hashRunnerCredential codec w.outside.1 row.jobId
  | _ => True

end Definitions

/-! ## What an answer says -/

section Answers

variable {hashRunnerCredential : String → String} {codec : Codec}

/-- An answered claim that did not hand out the job settles it, or is left open. -/
theorem mayRemove_of_claim
    {n : Network} {bearer : String} {claimed : ClaimAnswer}
    (h : received (decodeClaim codec) (n.send hashRunnerCredential (.claim bearer)).1 =
      .ok claimed)
    (j : Uuid) :
    MayRemove hashRunnerCredential codec (n.send hashRunnerCredential (.claim bearer)).2 j ∨
      ∃ e, claimed = .envelope e ∧ e.jobId = j := by
  obtain ⟨n', x, hsend, hlast, hrequest, hanswer, hcases⟩ := Network.send_claim_ok h
  rw [hsend]
  rcases hcases with
    ⟨reason, rfl, hauth⟩ | ⟨runner, rfl, hrunner, hwhy⟩ | ⟨e, turn, rfl, _, _⟩
  · cases reason with
    | unknownCredential => exact .inl (.inr (.inr hanswer))
    | revokedRunner =>
        refine .inl (.inl (.revoked x hlast (.inl ?_)))
        rw [hrequest]
        exact hauth
  · rcases hwhy with hrevoked | hunclaimable
    · exact .inl (.inl (.revoked x hlast (.inr ⟨runner, hrunner, hrevoked⟩)))
    · refine .inl (.inl (.notClaimable x runner hlast hrunner hanswer ?_))
      intro row hrow
      exact hunclaimable row (Table.mem_of_find? hrow)
  · by_cases hjob : e.jobId = j
    · exact .inr ⟨e, rfl, hjob⟩
    · exact .inl (.inr (.inl ⟨e, hjob, hanswer⟩))

/-- An accepted acknowledgement is recorded, or the job was finished before. -/
theorem mayRemove_of_acknowledge
    {n : Network} {bearer leaseToken : String} {j : Uuid} {result : JobAcknowledgement}
    (h : received decodeAcknowledge
      (n.send hashRunnerCredential (.acknowledge bearer j leaseToken result)).1 = .ok ()) :
    MayRemove hashRunnerCredential codec
      (n.send hashRunnerCredential (.acknowledge bearer j leaseToken result)).2 j := by
  obtain ⟨s, row, hrow, ⟨hfinished, hplane⟩ | hplane⟩ := Network.send_acknowledge_ok h
  · refine .inl (.finished row ?_ hfinished)
    rw [hplane]
    exact hrow
  · refine .inl (.acknowledged ?_)
    rw [hplane, acknowledgements_acknowledgedState]
    exact Nat.le_add_left 1 _

end Answers

/-! ## The methods -/

section Methods

variable {hashRunnerCredential : String → String} {codec : Codec} {ρ : Type}
variable {config : DaemonConfig} {host : Host ρ}

/-- The operation deletes a pending acknowledgement. -/
def removes : DaemonOp → Bool
  | .store (.resolve _) => true
  | _ => false

/-- What never removes a pending acknowledgement is safe from any state. -/
theorem safe_of_without_removal
    {α : Type} {p : Daemon α}
    (h : Program.Only (fun op => removes op = false) p)
    (w : RunnerState codec (Network × ρ)) :
    Program.Safe (answer (networked hashRunnerCredential host)) (fun _ _ => True)
      (RemovesRightly hashRunnerCredential) p (fun _ _ => True) (fun _ _ => True) w := by
  refine h.safe (I := fun _ => True) ?_ trivial
  intro w' op hop _
  refine ⟨?_, fun _ => trivial⟩
  cases op with
  | store op =>
      cases op with
      | resolve entryId => cases hop
      | _ => trivial
  | _ => trivial

/-- The state of a removal loop: the plane is as it was, and the keys are tracked. -/
def Removing
    (n : Network) (entries : List PendingAcknowledgement)
    (w : RunnerState codec (Network × ρ)) : Prop :=
  w.outside.1 = n ∧ ∀ entry ∈ entries, w.store.Tracks entry

theorem safe_remove_entry
    {n : Network} {jobId : Uuid} {entries : List PendingAcknowledgement}
    {entry : PendingAcknowledgement}
    (hmay : MayRemove hashRunnerCredential codec n jobId)
    (hentry : entry ∈ entries)
    {w : RunnerState codec (Network × ρ)}
    (hw : Removing n entries w) :
    Program.Safe (answer (networked hashRunnerCredential host)) (fun _ _ => True)
      (RemovesRightly hashRunnerCredential)
      (if entry.jobId = jobId then askStore (.resolve entry.id) else pure ())
      (fun _ => Removing n entries) (fun _ _ => True) w := by
  by_cases hjob : entry.jobId = jobId
  · rw [if_pos hjob, safe_askStore]
    refine ⟨?_, fun _ => ?_⟩
    · intro row hrow hid
      have hrowJob := (hw.2 entry hentry).2 row hrow hid
      rw [hrowJob, hjob, hw.1]
      exact hmay
    · split
      · next w' hanswer =>
          refine ⟨?_, ?_⟩
          · have hsame :=
              answer_store_network hashRunnerCredential host (.resolve entry.id) w
            rw [hanswer] at hsame
            exact hsame.trans hw.1
          · intro other hother
            have htracks :=
              answer_tracks (networked hashRunnerCredential host) (.store (.resolve entry.id)) w
                (hw.2 other hother)
            rw [hanswer] at htracks
            exact htracks
      · trivial
  · rw [if_neg hjob]
    exact hw

theorem safe_markPendingTerminal_settled
    {jobId : Uuid} {w : RunnerState codec (Network × ρ)}
    (hmay : MayRemove hashRunnerCredential codec w.outside.1 jobId) :
    Program.Safe (answer (networked hashRunnerCredential host)) (fun _ _ => True)
      (RemovesRightly hashRunnerCredential) (markPendingTerminal jobId)
      (fun _ _ => True) (fun _ _ => True) w := by
  unfold markPendingTerminal
  simp only [Program.bind_eq]
  rw [Program.safe_bind, safe_askStore]
  refine ⟨trivial, fun _ => ?_⟩
  split
  · next w₁ hmarked =>
      have hsame₁ := answer_store_network hashRunnerCredential host (.markCompleted jobId) w
      rw [hmarked] at hsame₁
      rw [Program.safe_bind, safe_askStore]
      refine ⟨trivial, fun _ => ?_⟩
      rcases answer_store_cases (networked hashRunnerCredential host) .listPending w₁ with
        ⟨entries, store, _, happly, hanswer⟩ | ⟨e, hanswer⟩
      · rw [hanswer]
        cases happly
        have hloop : Removing w.outside.1 w₁.store.listPending
            { w₁ with
              outside := ((networked hashRunnerCredential host).clock w₁.outside).2 } := by
          refine ⟨hsame₁, ?_⟩
          intro entry hentry
          exact LocalStore.tracks_of_mem hentry
        refine Program.Safe.mono
          (Program.safe_forEach (fun entry hentry w' hw' => safe_remove_entry hmay hentry hw')
            hloop)
          (fun _ _ _ => trivial) (fun _ _ _ => trivial)
      · rw [hanswer]
        trivial
  · trivial

theorem safe_landPendingResult_settled
    (jobId : Uuid) (result : JobAcknowledgement) (w : RunnerState codec (Network × ρ)) :
    Program.Safe (answer (networked hashRunnerCredential host)) (fun _ _ => True)
      (RemovesRightly hashRunnerCredential) (landPendingResult codec config jobId result)
      (fun _ _ => True) (fun _ _ => True) w := by
  refine safe_landPendingResult_of (R := fun _ => True)
    (T := fun w₁ => MayRemove hashRunnerCredential codec w₁.outside.1 jobId)
    (safe_of_without_removal (refreshCredential_only rfl (fun _ => rfl)) w)
    (fun _ _ => trivial) (fun _ _ _ _ _ => ⟨trivial, trivial⟩) ?_ ?_ ?_ ?_ ?_
  · intro w₁ _ _ hclaimed
    refine (mayRemove_of_claim hclaimed jobId).resolve_right ?_
    rintro ⟨e, ⟨⟩, _⟩
  · intro w₁ reason _ _ hclaimed
    have hdenied := (mayRemove_of_claim hclaimed jobId).resolve_right (by rintro ⟨e, ⟨⟩, _⟩)
    unfold noteIfRevoked
    split
    · rw [safe_ask]
      exact ⟨trivial, fun _ => hdenied⟩
    · exact hdenied
  · rintro w₁ job _ _ _ rfl
    rw [safe_clientAcknowledge]
    refine ⟨trivial, fun _ => ?_⟩
    split
    · next hlanded => exact mayRemove_of_acknowledge hlanded
    · exact ⟨trivial, trivial⟩
  · intro w₁ job _ _ hclaimed hother
    refine safe_askStore_of trivial ?_ (fun _ => trivial)
    intro _ _ _ _ _
    refine (mayRemove_of_claim hclaimed jobId).resolve_right ?_
    rintro ⟨e, ⟨⟩, hsameJob⟩
    exact hother hsameJob
  · intro w₁ hmay
    exact safe_markPendingTerminal_settled hmay

theorem safe_completeJob_settled
    (jobId : Uuid) (leaseToken : String) (result : JobAcknowledgement)
    (w : RunnerState codec (Network × ρ)) :
    Program.Safe (answer (networked hashRunnerCredential host)) (fun _ _ => True)
      (RemovesRightly hashRunnerCredential) (completeJob codec config jobId leaseToken result)
      (fun _ _ => True) (fun _ _ => True) w := by
  refine safe_completeJob_of (D := fun _ => True) trivial ?_ ?_ ?_ ?_ (fun _ _ => trivial)
  · intro _ _
    exact safe_of_without_removal (only_askStore rfl) _
  · intro _ _
    exact safe_of_without_removal (only_askStore rfl) _
  · intro w₁ _
    exact safe_landPendingResult_settled jobId result w₁
  · intro _ _
    exact safe_of_without_removal (only_askStore rfl) _

/-- The executor is asked and its result completed. -/
theorem safe_review_then_complete_settled
    (job : JobEnvelope) (w : RunnerState codec (Network × ρ)) :
    Program.Safe (answer (networked hashRunnerCredential host)) (fun _ _ => True)
      (RemovesRightly hashRunnerCredential)
      (do
        let result ← review job
        completeJob codec config job.jobId job.leaseToken result)
      (fun _ _ => True) (fun _ _ => True) w := by
  rw [Program.bind_eq, Program.safe_bind, safe_review]
  refine ⟨trivial, fun _ => ?_⟩
  cases (answer (networked hashRunnerCredential host) (.review job) w).1 with
  | none => trivial
  | some result => exact safe_completeJob_settled job.jobId job.leaseToken result _

theorem safe_processOnce_settled
    (w : RunnerState codec (Network × ρ)) :
    Program.Safe (answer (networked hashRunnerCredential host)) (fun _ _ => True)
      (RemovesRightly hashRunnerCredential) (processOnce codec config)
      (fun _ _ => True) (fun _ _ => True) w := by
  refine safe_processOnce_of (R := fun _ => True) trivial trivial ?_ (fun _ _ => trivial)
    (fun _ _ _ _ _ => ⟨trivial, trivial⟩) (fun _ _ _ _ => trivial) ?_ ?_
  · intro _
    exact safe_of_without_removal (refreshCredential_only rfl (fun _ => rfl)) w
  · intro _ reason _ _ _
    exact safe_of_without_removal (noteIfRevoked_only (by rfl) reason) _
  · intro w₁ job _ _ _
    refine safe_runClaimedJob_of (R := fun _ => True)
      (safe_of_without_removal (only_askStore rfl) _) ?_ (fun _ _ => trivial)
    intro w₂ _ _
    exact safe_review_then_complete_settled job w₂

theorem safe_recoverJob_settled
    (job : LocalJob) (w : RunnerState codec (Network × ρ)) :
    Program.Safe (answer (networked hashRunnerCredential host)) (fun _ _ => True)
      (RemovesRightly hashRunnerCredential) (recoverJob codec config job)
      (fun _ _ => True) (fun _ _ => True) w := by
  refine safe_recoverJob_of trivial trivial (fun _ => trivial) ?_ ?_
  · intro _ _ _ _
    exact safe_of_without_removal (only_askStore rfl) _
  · intro _ _ _
    exact safe_review_then_complete_settled job.envelope _

/-- A replayed acknowledgement that was answered is removed, under its own key. -/
theorem safe_replayEntry_settled
    {entry : PendingAcknowledgement} {w : RunnerState codec (Network × ρ)}
    (htracks : w.store.Tracks entry) :
    Program.Safe (answer (networked hashRunnerCredential host)) (fun _ _ => True)
      (RemovesRightly hashRunnerCredential) (replayEntry codec config entry)
      (fun _ _ => True) (fun _ _ => True) w := by
  refine safe_replayEntry_of (B := fun _ => True)
    (T := fun w₁ => w₁.store.Tracks entry ∧
      MayRemove hashRunnerCredential codec w₁.outside.1 entry.jobId)
    (fun _ => safe_landPendingResult_settled entry.jobId entry.result w) ?_ ?_ ?_
  · intro _
    rw [safe_clientAcknowledge]
    refine ⟨trivial, fun _ => ?_⟩
    split
    · next hlanded => exact ⟨htracks, mayRemove_of_acknowledge hlanded⟩
    · exact ⟨trivial, trivial⟩
  · rintro w₁ ⟨htracks₁, hmay⟩
    rw [Program.bind_eq, Program.safe_bind]
    refine safe_askStore_of ?_ ?_ (fun _ => trivial)
    · intro row hrow hid
      rw [htracks₁.2 row hrow hid]
      exact hmay
    · intro _ _ _ _ _
      exact safe_of_without_removal (only_askStore rfl) _
  · intro w₁ _
    exact safe_of_without_removal (only_askStore rfl) w₁

theorem safe_replay_settled
    (w : RunnerState codec (Network × ρ)) :
    Program.Safe (answer (networked hashRunnerCredential host)) (fun _ _ => True)
      (RemovesRightly hashRunnerCredential) (replayPendingAcknowledgements codec config)
      (fun _ _ => True) (fun _ _ => True) w := by
  unfold replayPendingAcknowledgements
  rw [Program.bind_eq, Program.safe_bind, safe_askStore]
  refine ⟨trivial, fun _ => ?_⟩
  rcases answer_store_cases (networked hashRunnerCredential host) .listPending w with
    ⟨entries, store, _, happly, hanswer⟩ | ⟨e, hanswer⟩
  · rw [hanswer]
    cases happly
    refine Program.Safe.mono
      (Program.safe_forEach
        (I := fun w' => ∀ entry ∈ w.store.listPending, w'.store.Tracks entry)
        (E := fun _ _ => True) ?_
        (fun entry hentry => LocalStore.tracks_of_mem hentry))
      (fun _ _ _ => trivial) (fun _ _ _ => trivial)
    intro entry hentry w' hw'
    have hkeeps :
        Program.Safe (answer (networked hashRunnerCredential host)) (fun _ _ => True)
          (fun _ _ => True) (replayEntry codec config entry)
          (fun _ w'' => ∀ entry ∈ w.store.listPending, w''.store.Tracks entry)
          (fun _ w'' => ∀ entry ∈ w.store.listPending, w''.store.Tracks entry) w' := by
      refine Program.safe_of_invariant ?_ _ hw'
      intro w'' op hw'' _ other hother
      exact answer_tracks (networked hashRunnerCredential host) op w'' (hw'' other hother)
    exact ((safe_replayEntry_settled (hw' entry hentry)).and hkeeps).mono
      (fun _ _ h => h.2) (fun _ _ _ => trivial)
  · rw [hanswer]
    trivial

theorem safe_daemonMethod_settled
    (method : DaemonMethod) (w : RunnerState codec (Network × ρ)) :
    Program.Safe (answer (networked hashRunnerCredential host)) (fun _ _ => True)
      (RemovesRightly hashRunnerCredential) (method.program codec config)
      (fun _ _ => True) (fun _ _ => True) w := by
  cases method with
  | processOnce => exact safe_processOnce_settled w
  | replayPendingAcknowledgements => exact safe_replay_settled w
  | start =>
      simp only [DaemonMethod.program, start, recover, Program.bind_eq]
      rw [Program.safe_bind, Program.safe_bind]
      refine (safe_of_without_removal (only_askStore rfl) w).mono ?_ (fun _ _ _ => trivial)
      intro jobs w₁ _
      refine Program.Safe.mono
        (Program.safe_forEach (I := fun _ => True)
          (fun job _ w₂ _ => safe_recoverJob_settled job w₂) trivial)
        ?_ (fun _ _ _ => trivial)
      intro _ w₂ _
      exact safe_replay_settled w₂

end Methods

section LandingRuns

variable {codec : Codec} {ρ : Type}

/--
In every run of the daemon against the control plane, with any actions of others,
any losses, kills and restarts, a pending acknowledgement is removed only when its
job is settled, or after an answer that leaves it open.
-/
theorem removals_follow_answers
    (hashRunnerCredential : String → String) (host : Host ρ) (config : DaemonConfig)
    (w : RunnerState codec (Network × ρ)) (commands : List DaemonCommand) :
    ∀ x ∈ runSteps config (networked hashRunnerCredential host) w commands,
      RemovesRightly hashRunnerCredential x.1 x.2 :=
  runSteps_guaranteed (I := fun _ => True)
    (fun method w' _ => safe_daemonMethod_settled method w') (fun _ _ _ => trivial)
    (fun _ _ _ _ => trivial) commands w trivial (fun _ _ => trivial)

end LandingRuns

/-- The lease runs out during the review; the job is claimed again, and the result accepted. -/
def acceptedLanding : List Turn :=
  [quietTurn .delivered "lease-1",
    { quietTurn .delivered "" with before := [.advanceClock reviewJobLeaseInterval] },
    quietTurn .delivered "lease-2",
    quietTurn .delivered ""]

/-- The stored result is removed, and rightly so. -/
theorem accepted_result_removed :
    ∃ x ∈ runSteps sampleConfig (networked sampleHash quietHost) (laptopProcess acceptedLanding)
        [.call .processOnce none],
      (∃ row ∈ x.1.store.pending.rows, x.2 = .store (.resolve row.id)) ∧
        RemovesRightly sampleHash x.1 x.2 := by
  have hremoved :
      ∃ x ∈ runSteps sampleConfig (networked sampleHash quietHost)
          (laptopProcess acceptedLanding) [.call .processOnce none],
        ∃ row ∈ x.1.store.pending.rows, x.2 = .store (.resolve row.id) := by
    decide
  obtain ⟨x, hx, hrow⟩ := hremoved
  exact ⟨x, hx, hrow,
    removals_follow_answers sampleHash quietHost sampleConfig (laptopProcess acceptedLanding)
      [.call .processOnce none] x hx⟩

/--
The lease runs out during the review; the result is denied and the job claimed
again, but the second acknowledgement is lost.  After a restart the claim finds no
job, since the runner itself holds it.
-/
def lostLanding : List Turn :=
  [quietTurn .delivered "lease-1",
    { quietTurn .delivered "" with before := [.advanceClock reviewJobLeaseInterval] },
    quietTurn .delivered "lease-2",
    quietTurn .lostBefore "",
    quietTurn .delivered "",
    quietTurn .delivered "lease-3"]

/-- The result is removed although the plane would still accept it from this runner. -/
theorem result_removed_under_own_lease :
    ∃ x ∈ runSteps sampleConfig (networked sampleHash quietHost) (laptopProcess lostLanding)
        [.call .processOnce none, .restart "laptop-credential" true, .call .start none],
      ∃ row ∈ x.1.store.pending.rows,
        x.2 = .store (.resolve row.id) ∧
          acknowledgements x.1.outside.1.plane row.jobId = 0 ∧
          (acknowledgeJob sampleHash x.1.outside.1.plane laptopRunner.runnerId row.jobId
            "lease-2" sampleResult).isOk = true := by
  decide

end System
end PrReviewer
