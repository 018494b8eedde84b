import PrReviewer.Hosted.PairingSafety
import PrReviewer.Hosted.Retention
import PrReviewer.Hosted.StatusFinality

/-!
# What a step does to the records of a review

The findings and their context sources are written by two operations of the plane: a pushed
summary and `project_review`.  A job whose summary was pushed changes by a push to it and
goes by a purge.
-/

namespace PrReviewer
namespace Hosted

open Lib

/-- The findings and their context sources are the same. -/
structure SameFindings (s s' : HostedState) : Prop where
  reviewFindings : s'.reviewFindings = s.reviewFindings
  findingContextSources : s'.findingContextSources = s.findingContextSources

theorem SameFindings.refl
    (s : HostedState) :
    SameFindings s s :=
  ⟨rfl, rfl⟩

section Steps

variable {hashRunnerCredential : String → String}

theorem sameFindings_of_commit
    {ε : Type} {s : HostedState} {outcome : Except ε HostedState}
    (h : ∀ s', outcome = .ok s' → SameFindings s s') :
    SameFindings s (s.commit outcome) := by
  cases outcome with
  | error e => exact .refl s
  | ok s' => exact h s' rfl

/-- A step of the hosted machine that writes no summary leaves the records alone. -/
theorem step_sameFindings
    {s : HostedState} {a : HostedAction}
    (ha : a.writesSummary hashRunnerCredential s = none) :
    SameFindings s (step hashRunnerCredential s a) := by
  cases a with
  | registerInstallation installationId accountLogin =>
      simp only [step, registerInstallation]
      split
      · exact ⟨rfl, rfl⟩
      · exact ⟨rfl, rfl⟩
  | revokeInstallation installationId => exact ⟨rfl, rfl⟩
  | registerRepository drawnId installationId githubRepositoryId name =>
      apply sameFindings_of_commit
      intro s' hs'
      obtain ⟨⟨id, s₁⟩, hresult, rfl⟩ := map_eq_ok hs'
      rw [(registerRepository_eq_ok hresult).2.1]
      exact ⟨rfl, rfl⟩
  | registerRunner drawnId deviceName credential capabilities githubUserId installationId =>
      apply sameFindings_of_commit
      intro s' hs'
      obtain ⟨⟨id, s₁⟩, hresult, rfl⟩ := map_eq_ok hs'
      obtain ⟨_, runners, rfl, _⟩ := registerRunner_eq_ok hresult
      exact ⟨rfl, rfl⟩
  | assignRepositoryToRunner repositoryId runnerId =>
      apply sameFindings_of_commit
      intro s' hs'
      obtain ⟨⟨outcome, s₁⟩, hresult, rfl⟩ := map_eq_ok hs'
      rcases assignRepositoryToRunner_eq_ok hresult with ⟨_, _, rfl, _⟩ | ⟨_, _, rfl, _⟩
      · exact ⟨rfl, rfl⟩
      · exact ⟨rfl, rfl⟩
  | revokeRunner runnerId => exact ⟨rfl, rfl⟩
  | rotateRunnerCredential runnerId currentCredential newCredential =>
      apply sameFindings_of_commit
      intro s' hs'
      obtain ⟨_, _, _, _, rfl⟩ := rotateRunnerCredential_eq_ok hs'
      exact ⟨rfl, rfl⟩
  | enqueueReviewJob deliveryId eventName identity jobId traceId =>
      rcases enqueueReviewJob_cases s deliveryId eventName identity jobId traceId with
        ⟨e, hresult⟩ | ⟨_, _, hresult⟩ | ⟨_, _, _, _, _, hresult⟩ | ⟨_, _, _, _, _, _, _, hresult⟩
      all_goals
        simp only [step, hresult]
        exact ⟨rfl, rfl⟩
  | cancelReviewJob deliveryId eventName k =>
      rcases cancelReviewJob_cases s deliveryId eventName k with hresult | ⟨_, hresult⟩
      · simp only [step, hresult]
        exact .refl s
      · simp only [step, hresult]
        exact ⟨rfl, rfl⟩
  | claimJob runner leaseToken tie =>
      rcases claimJob_cases hashRunnerCredential s runner leaseToken tie with
        ⟨hresult, _⟩ | ⟨_, hresult⟩ | ⟨_, _, _, _, _, hresult⟩
      all_goals
        simp only [step, hresult]
        exact ⟨rfl, rfl⟩
  | claimReviewJob workerId tie =>
      rcases claimReviewJob_cases s workerId tie with hresult | ⟨_, _, _, hresult⟩
      · simp only [step, hresult]
        exact .refl s
      · simp only [step, hresult]
        exact ⟨rfl, rfl⟩
  | renewReviewJobLease jobId workerId =>
      apply sameFindings_of_commit
      intro s' hs'
      obtain ⟨_, _, _, _, rfl⟩ := renewReviewJobLease_eq_ok hs'
      exact ⟨rfl, rfl⟩
  | heartbeatJob runnerId jobId leaseToken =>
      rcases heartbeatJob_cases hashRunnerCredential s runnerId jobId leaseToken with
        ⟨_, _, _, _, _, hresult⟩ | ⟨_, hsame⟩
      · simp only [step, hresult]
        exact ⟨rfl, rfl⟩
      · simp only [step, hsame]
        exact .refl s
  | acknowledgeJob runnerId jobId leaseToken ack =>
      rcases acknowledgeJob_cases hashRunnerCredential s runnerId jobId leaseToken ack with
        hresult | ⟨_, _, _, _, hresult⟩ | ⟨_, _, _, _, _, _, _, hresult⟩ |
          ⟨_, _, _, _, _, _, hresult⟩
      all_goals
        simp only [step, hresult]
        exact ⟨rfl, rfl⟩
  | completeReviewJob jobId workerId =>
      apply sameFindings_of_commit
      intro s' hs'
      obtain ⟨_, _, _, rfl⟩ := completeReviewJob_eq_ok hs'
      exact ⟨rfl, rfl⟩
  | failReviewJob jobId workerId error =>
      apply sameFindings_of_commit
      intro s' hs'
      obtain ⟨_, _, _, _, _, _, rfl⟩ := failReviewJob_eq_ok hs'
      exact ⟨rfl, rfl⟩
  | requeueReviewJob jobId =>
      apply sameFindings_of_commit
      intro s' hs'
      obtain ⟨_, _, _, _, rfl⟩ := requeueReviewJob_eq_ok hs'
      exact ⟨rfl, rfl⟩
  | savePushedReviewSummary body =>
      rw [savePushedReviewSummary_step_refused s body ha]
      exact .refl s
  | pushReviewSummary bearer body =>
      rw [pushReviewSummary_step_refused s bearer body ha]
      exact .refl s
  | advanceClock elapsed => exact ⟨rfl, rfl⟩

/-- The summary a step of the whole plane writes. -/
def StoreAction.writesSummary (hashRunnerCredential : String → String) (s : HostedStore) :
    StoreAction → Option PushedReviewSummaryBody
  | .pairing (.elsewhere a _) => a.writesSummary hashRunnerCredential s.hosted
  | _ => none

/-- The calls of the pairing write neither records nor jobs. -/
theorem pairingStep_frame
    {s : PairingState} {a : PairingAction}
    (ha : ∀ b h, a ≠ .elsewhere b h) :
    SameFindings s.hosted (pairingStep hashRunnerCredential s a).hosted ∧
      (pairingStep hashRunnerCredential s a).hosted.reviewJobs = s.hosted.reviewJobs := by
  have hchange := pairingStep_change hashRunnerCredential s a
  generalize pairingStep hashRunnerCredential s a = s' at hchange ⊢
  generalize pairingEvent hashRunnerCredential s a = event at hchange
  cases hchange with
  | unchanged => exact ⟨.refl _, rfl⟩
  | created hinsert => exact ⟨⟨rfl, rfl⟩, rfl⟩
  | approved happroves =>
      rw [happroves.hosted]
      exact ⟨⟨rfl, rfl⟩, rfl⟩
  | exchanged hexchanges =>
      rw [hexchanges.hosted]
      exact ⟨⟨rfl, rfl⟩, rfl⟩
  | elsewhere hchange hnow hinstalled => exact absurd rfl (ha _ _)

/-- What `project_review` writes: findings and context sources. -/
theorem insertProjectedFindings_frame
    {reviewJobId : Uuid} {receipts : List ReceiptInput} {findings : List Finding}
    {s s' : HostedState}
    (h : insertProjectedFindings reviewJobId receipts findings s = .ok s') :
    s' =
      { s with
        reviewFindings := s'.reviewFindings
        findingContextSources := s'.findingContextSources } := by
  induction findings generalizing s with
  | nil =>
      cases h
      rfl
  | cons finding rest ih =>
      simp only [insertProjectedFindings] at h
      split at h
      · cases h
      · split at h
        · cases h
        · split at h
          · cases h
          · rw [ih h]

theorem projectReview_eq_ok
    {reviewJobId : Uuid} {receipts : List ReceiptInput} {findings : List Finding}
    {s s' : HostedState}
    (h : projectReview s reviewJobId findings receipts = .ok s') :
    insertProjectedFindings reviewJobId receipts findings s = .ok s' := by
  unfold projectReview at h
  split at h
  · cases h
  · exact h

theorem recordModelCall_frame
    {promptVersions : List Uuid} {s s' : HostedState} {drawnId : Uuid} {input : ModelCallInput}
    (h : recordModelCall promptVersions s drawnId input = .ok s') :
    s' = { s with modelCalls := s'.modelCalls, agentEvents := s'.agentEvents } := by
  unfold recordModelCall at h
  split at h
  · cases h
  · split at h
    · cases h
    · split at h
      · cases h
      · split at h
        · cases h
        · split at h
          · cases h
          · cases h
            rfl

/-- What a step of the whole plane does to the records. -/
inductive RecordsChange
    (hashRunnerCredential : String → String)
    (s : HostedStore) :
    StoreAction → HostedState → Prop
  | quiet
      {a : StoreAction} {hosted : HostedState}
      (hsame : SameFindings s.hosted hosted) :
      RecordsChange hashRunnerCredential s a hosted
  | pushed
      {a : StoreAction} {body : PushedReviewSummaryBody}
      (hbody : a.writesSummary hashRunnerCredential s = some body) :
      RecordsChange hashRunnerCredential s a (recordedSummary s.hosted body)
  | projected
      {reviewJobId : Uuid} {findings : List Finding} {receipts : List ReceiptInput}
      {hosted : HostedState}
      (hok : projectReview s.hosted reviewJobId findings receipts = .ok hosted) :
      RecordsChange hashRunnerCredential s (.projectReview reviewJobId findings receipts) hosted

variable (hashRunnerCredential) in
/-- **Inversion of the plane**, for the records of reviews. -/
theorem hostedStoreStep_records
    (s : HostedStore) (a : StoreAction) :
    RecordsChange hashRunnerCredential s a (hostedStoreStep hashRunnerCredential s a).hosted := by
  cases a with
  | pairing a =>
      cases a with
      | elsewhere a h =>
          cases hbody : a.writesSummary hashRunnerCredential s.hosted with
          | none => exact .quiet (step_sameFindings hbody)
          | some body =>
              have hstep := step_writesSummary s.hosted a body hbody
              simp only [hostedStoreStep, pairingStep, hstep]
              exact .pushed hbody
      | createPairingCode deviceName challenge code =>
          exact .quiet (pairingStep_frame (by simp)).1
      | approvePairingByHash codeHash access repositoryIds draw =>
          exact .quiet (pairingStep_frame (by simp)).1
      | exchangePairingCode code proof drawnId credential =>
          exact .quiet (pairingStep_frame (by simp)).1
  | budget call => exact .quiet (.refl _)
  | recordModelCall drawnId input =>
      apply RecordsChange.quiet
      apply sameFindings_of_commit
      intro s' hs'
      rw [recordModelCall_frame hs']
      exact ⟨rfl, rfl⟩
  | projectReview reviewJobId findings receipts =>
      simp only [hostedStoreStep]
      cases hok : projectReview s.hosted reviewJobId findings receipts with
      | error e => exact .quiet (.refl _)
      | ok hosted => exact .projected hok
  | recordConnectorRun run =>
      simp only [hostedStoreStep, recordConnectorRun]
      split
      · exact .quiet ⟨rfl, rfl⟩
      · exact .quiet ⟨rfl, rfl⟩
  | insertPromptVersion id => exact .quiet (.refl _)
  | purgeHostedRepository i r =>
      simp only [hostedStoreStep, purgeHostedRepository_eq]
      split
      · exact .quiet ⟨rfl, rfl⟩
      · exact .quiet ⟨rfl, rfl⟩

/-- What becomes of a job whose summary was pushed, or of any settled one. -/
inductive SettledChange
    (hashRunnerCredential : String → String)
    (s : HostedStore) (j : Uuid) (row : ReviewJobRow) :
    StoreAction → Option ReviewJobRow → Prop
  | kept
      {a : StoreAction} :
      SettledChange hashRunnerCredential s j row a (some row)
  | purged
      {i r : Int} :
      SettledChange hashRunnerCredential s j row (.purgeHostedRepository i r) none
  | overwritten
      {a : StoreAction} {body : PushedReviewSummaryBody}
      (hbody : a.writesSummary hashRunnerCredential s = some body)
      (hid : body.reviewJobId = j) :
      SettledChange hashRunnerCredential s j row a
        (some (row.overwrittenBy body s.hosted.now))

variable (hashRunnerCredential) in
/-- **Inversion of the plane**, for the row of a settled job. -/
theorem hostedStoreStep_settled
    {s : HostedStore} {j : Uuid} {row : ReviewJobRow} (a : StoreAction)
    (hrow : s.hosted.reviewJobs.find? j = some row) (hsettled : row.status.settled = true) :
    SettledChange hashRunnerCredential s j row a
      ((hostedStoreStep hashRunnerCredential s a).hosted.reviewJobs.find? j) := by
  have hkept : ∀ {a : StoreAction} {s' : HostedState},
      s'.reviewJobs = s.hosted.reviewJobs →
        SettledChange hashRunnerCredential s j row a (s'.reviewJobs.find? j) := by
    intro a s' hsame
    rw [hsame, hrow]
    exact .kept
  cases a with
  | pairing a =>
      cases a with
      | elsewhere a h =>
          have hchange := step_rowChange hashRunnerCredential s.hosted a j
          rw [hrow] at hchange
          obtain ⟨row', hrow'⟩ := hchange.persists
          rw [hrow'] at hchange
          simp only [hostedStoreStep, pairingStep, hrow']
          rcases hchange.of_inactive (ReviewJobStatus.active_of_settled hsettled) with
            rfl | ⟨_, hfailed, _⟩ | ⟨body, hbody, hid, rfl⟩
          · exact .kept
          · rw [hfailed] at hsettled
            cases hsettled
          · exact .overwritten hbody hid
      | createPairingCode deviceName challenge code =>
          exact hkept (pairingStep_frame (by simp)).2
      | approvePairingByHash codeHash access repositoryIds draw =>
          exact hkept (pairingStep_frame (by simp)).2
      | exchangePairingCode code proof drawnId credential =>
          exact hkept (pairingStep_frame (by simp)).2
  | budget call => exact hkept rfl
  | recordModelCall drawnId input =>
      simp only [hostedStoreStep]
      cases hok : recordModelCall s.promptVersions s.hosted drawnId input with
      | error e => exact hkept rfl
      | ok hosted =>
          have hframe : hosted.reviewJobs = s.hosted.reviewJobs := by
            rw [recordModelCall_frame hok]
          exact hkept hframe
  | projectReview reviewJobId findings receipts =>
      simp only [hostedStoreStep]
      cases hok : projectReview s.hosted reviewJobId findings receipts with
      | error e => exact hkept rfl
      | ok hosted =>
          have hframe : hosted.reviewJobs = s.hosted.reviewJobs := by
            rw [insertProjectedFindings_frame (projectReview_eq_ok hok)]
          exact hkept hframe
  | recordConnectorRun run =>
      simp only [hostedStoreStep, recordConnectorRun]
      split
      · exact hkept rfl
      · exact hkept rfl
  | insertPromptVersion id => exact hkept rfl
  | purgeHostedRepository i r =>
      simp only [hostedStoreStep, purgeHostedRepository_eq]
      split
      · exact hkept rfl
      · have hpurged : (purged s i r).hosted.reviewJobs =
            s.hosted.reviewJobs.deleteWhere (fun row => row.ofRepository i r) := rfl
        simp only [HostedStore.commit, hpurged]
        cases hleft : (s.hosted.reviewJobs.deleteWhere
            (fun row => row.ofRepository i r)).find? j with
        | none => exact .purged
        | some row' =>
            obtain ⟨hmem, hid⟩ := Table.find?_eq_some_iff.mp hleft
            have hstored := Table.find?_eq_some_iff.mpr ⟨(Table.mem_deleteWhere.mp hmem).1, hid⟩
            rw [hrow] at hstored
            cases hstored
            exact .kept

end Steps

end Hosted
end PrReviewer
