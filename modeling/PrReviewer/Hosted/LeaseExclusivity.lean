import PrReviewer.Hosted.Acknowledgements

/-!
# Lease exclusivity

A lease token is accepted for a job while the job's row names its runner in
`locked_by` and carries the token's hash.  Not every statement that takes the
lock away rotates the hash, and not every one that keeps the hash clears the
lock, so neither column alone tells who holds the job.  What no statement can
undo is their combination: once a later claim has been made, no runner is named
beside the hash of an earlier token, and no step but a claim that draws the same
token again would bring that back.
-/

namespace PrReviewer
namespace Hosted

open Lib

/-- The lease token an action draws. -/
def HostedAction.drawnToken? : HostedAction → Option String
  | .claimJob _ leaseToken _ => some leaseToken
  | _ => none

/-- What is assumed of the environment of a run. -/
structure HonestRun (actions : List HostedAction) : Prop where
  freshTokens : (actions.filterMap HostedAction.drawnToken?).Nodup
  workersAreNotRunners :
    ∀ workerId tie, .claimReviewJob workerId tie ∈ actions →
      ∀ runnerId : Uuid, workerId ≠ runnerId.text

section Leases

variable (hashRunnerCredential : String → String)

/-- The step hands the token `t` out for the job `j`. -/
def HandsOut (s : HostedState) (a : HostedAction) (j : Uuid) (t : String) : Prop :=
  ∃ runner tie e s', a = .claimJob runner t tie ∧
    claimJob hashRunnerCredential s runner t tie = .ok (.envelope e, s') ∧ e.jobId = j

/-- The step claims the job `j`, for a runner or for a hosted worker. -/
def Claims (s : HostedState) (a : HostedAction) (j : Uuid) : Prop :=
  (∃ t, HandsOut hashRunnerCredential s a j t) ∨
    ∃ workerId tie row, a = .claimReviewJob workerId tie ∧
      (claimReviewJob s workerId tie).1 = some row ∧ row.id = j

/-- The token is refused for the job, whichever runner presents it. -/
structure RefusesToken (s : HostedState) (j : Uuid) (t : String) : Prop where
  heartbeat :
    ∀ runnerId, (heartbeatJob hashRunnerCredential s runnerId j t).1 ≠ .active
  acknowledge :
    ∀ runnerId ack,
      acknowledgeJob hashRunnerCredential s runnerId j t ack = .error .jobProtocolDenied
  issue :
    ∀ runnerId,
      issueJobToken hashRunnerCredential s runnerId j t = .error .jobProtocolDenied

/-- No runner is named beside the hash of the token. -/
def Displaced (row? : Option ReviewJobRow) (t : String) : Prop :=
  ∀ row ∈ row?, ∀ runnerId : Uuid,
    row.leasedUnder runnerId (hashRunnerCredential t) = false

variable {hashRunnerCredential}

theorem leasedUnder_eq_true
    {row : ReviewJobRow} {runnerId : Uuid} {leaseTokenHash : String} :
    row.leasedUnder runnerId leaseTokenHash = true ↔
      row.lockedBy = some runnerId.text ∧ row.leaseTokenHash = some leaseTokenHash := by
  simp only [ReviewJobRow.leasedUnder, decide_eq_true_eq]

theorem displaced_of_hash_ne
    {row : ReviewJobRow} {t : String}
    (h : row.leaseTokenHash ≠ some (hashRunnerCredential t)) :
    Displaced hashRunnerCredential (some row) t := by
  rintro _ ⟨⟩ runnerId
  rw [Bool.eq_false_iff]
  intro hleased
  exact h (leasedUnder_eq_true.mp hleased).2

theorem displaced_of_holder_ne
    {row : ReviewJobRow} {t : String}
    (h : ∀ runnerId : Uuid, row.lockedBy ≠ some runnerId.text) :
    Displaced hashRunnerCredential (some row) t := by
  rintro _ ⟨⟩ runnerId
  rw [Bool.eq_false_iff]
  intro hleased
  exact h runnerId (leasedUnder_eq_true.mp hleased).1

/-- Writes that keep both lock columns keep a token displaced. -/
theorem Displaced.of_same_lock
    {row row' : ReviewJobRow} {t : String}
    (h : Displaced hashRunnerCredential (some row) t)
    (hlocked : row'.lockedBy = row.lockedBy)
    (hhash : row'.leaseTokenHash = row.leaseTokenHash) :
    Displaced hashRunnerCredential (some row') t := by
  rintro _ ⟨⟩ runnerId
  have hrow := h row rfl runnerId
  unfold ReviewJobRow.leasedUnder at hrow ⊢
  rw [hlocked, hhash]
  exact hrow

/-- A displaced token stays displaced under every step that does not draw it again. -/
theorem RowChange.displaced
    {s : HostedState} {j : Uuid} {a : HostedAction} {t : String}
    {row? row?' : Option ReviewJobRow}
    (hinjective : Function.Injective hashRunnerCredential)
    (hfresh : a.drawnToken? ≠ some t)
    (hworker : ∀ workerId tie, a = .claimReviewJob workerId tie →
      ∀ runnerId : Uuid, workerId ≠ runnerId.text)
    (h : RowChange hashRunnerCredential s j a row? row?')
    (hdisplaced : Displaced hashRunnerCredential row? t) :
    Displaced hashRunnerCredential row?' t := by
  cases h with
  | unchanged =>
      exact hdisplaced
  | enqueuedBare =>
      exact displaced_of_hash_ne (by rintro ⟨⟩)
  | enqueued hinstalled =>
      exact displaced_of_hash_ne (by rintro ⟨⟩)
  | superseded hpr hactive =>
      exact hdisplaced.of_same_lock rfl rfl
  | cancelled hpr hactive =>
      exact hdisplaced.of_same_lock rfl rfl
  | leasedToRunner hclaimable henvelope =>
      apply displaced_of_hash_ne
      intro hhash
      have hsame := hinjective (Option.some.inj hhash)
      exact hfresh (congrArg some hsame)
  | leasedToWorker hclaimable =>
      apply displaced_of_holder_ne
      intro runnerId hlocked
      exact hworker _ _ rfl runnerId (Option.some.inj hlocked)
  | renewed hheld hlive =>
      exact hdisplaced.of_same_lock rfl rfl
  | beaten hrunning hleased hlive =>
      exact hdisplaced.of_same_lock rfl rfl
  | acknowledged hleased hrunning hlive hwritten =>
      exact hdisplaced.of_same_lock rfl rfl
  | completed hheld =>
      exact displaced_of_holder_ne (by rintro runnerId ⟨⟩)
  | failedOnce hheld =>
      exact displaced_of_holder_ne (by rintro runnerId ⟨⟩)
  | requeued hfailed hok =>
      exact displaced_of_holder_ne (by rintro runnerId ⟨⟩)
  | pushed hbody hid =>
      exact displaced_of_hash_ne (by rintro ⟨⟩)
  | overwritten hbody hid =>
      exact hdisplaced.of_same_lock rfl rfl

/-- A step that does not draw `t` again and names no runner as a worker. -/
def KeepsDisplaced (t : String) (a : HostedAction) : Prop :=
  a.drawnToken? ≠ some t ∧
    ∀ workerId tie, a = .claimReviewJob workerId tie →
      ∀ runnerId : Uuid, workerId ≠ runnerId.text

/-- A displaced token stays displaced over every run that does not draw it again. -/
theorem exec_displaced
    {s : HostedState} {j : Uuid} {t : String} {actions : List HostedAction}
    (hinjective : Function.Injective hashRunnerCredential)
    (hkeeps : ∀ a ∈ actions, KeepsDisplaced t a)
    (hdisplaced : Displaced hashRunnerCredential (s.reviewJobs.find? j) t) :
    Displaced hashRunnerCredential
      ((exec (step hashRunnerCredential) s actions).reviewJobs.find? j) t := by
  induction actions generalizing s with
  | nil =>
      exact hdisplaced
  | cons a actions ih =>
      have ha := hkeeps a (by simp)
      have hstep :=
        (step_rowChange hashRunnerCredential s a j).displaced hinjective ha.1 ha.2 hdisplaced
      exact ih (fun b hb => hkeeps b (List.mem_cons_of_mem a hb)) hstep

/-- A claim that handed out an envelope leased the row it names. -/
theorem claimJob_envelope
    {s s' : HostedState} {runner : AuthenticatedRunner} {t : String} {tie : Uuid}
    {e : JobEnvelope}
    (h : claimJob hashRunnerCredential s runner t tie = .ok (.envelope e, s')) :
    ∃ row : ReviewJobRow, s'.reviewJobs.find? e.jobId =
      some (row.leasedToRunner runner.runnerId (hashRunnerCredential t) s.now) := by
  rcases claimJob_cases hashRunnerCredential s runner t tie with
    ⟨hresult, _⟩ | ⟨e', he⟩ | ⟨row, e', hrow, _, _, hresult⟩
  · rw [hresult] at h
    cases h
  · rw [he] at h
    cases h
  · rw [hresult] at h
    cases h
    refine ⟨row, ?_⟩
    rw [HostedState.alterJob_find?, if_pos rfl, hrow]
    rfl

/-- A worker's claim that returned a job leased its row. -/
theorem claimReviewJob_some
    {s : HostedState} {workerId : String} {tie : Uuid} {row' : ReviewJobRow}
    (h : (claimReviewJob s workerId tie).1 = some row') :
    (claimReviewJob s workerId tie).2.reviewJobs.find? row'.id = some row' ∧
      row'.lockedBy = some workerId := by
  rcases claimReviewJob_cases s workerId tie with hresult | ⟨row, hrow, _, hresult⟩
  · rw [hresult] at h
    cases h
  · rw [hresult] at h ⊢
    cases h
    refine ⟨?_, rfl⟩
    simp only [ReviewJobRow.leasedToWorker_id]
    rw [HostedState.alterJob_find?, if_pos rfl, hrow]
    rfl

/-- A later claim displaces every token but its own. -/
theorem claims_displace
    {s : HostedState} {a : HostedAction} {j : Uuid} {t : String}
    (hinjective : Function.Injective hashRunnerCredential)
    (hkeeps : KeepsDisplaced t a)
    (h : Claims hashRunnerCredential s a j) :
    Displaced hashRunnerCredential
      ((step hashRunnerCredential s a).reviewJobs.find? j) t := by
  rcases h with ⟨t', runner, tie, e, s', rfl, hclaim, rfl⟩ |
    ⟨workerId, tie, row, rfl, hrow, rfl⟩
  · obtain ⟨row, hafter⟩ := claimJob_envelope hclaim
    simp only [step, hclaim, Except.map, HostedState.commit]
    rw [hafter]
    apply displaced_of_hash_ne
    intro hhash
    have hsame : t' = t := hinjective (Option.some.inj hhash)
    exact hkeeps.1 (congrArg some hsame)
  · obtain ⟨hafter, hlocked⟩ := claimReviewJob_some hrow
    simp only [step]
    rw [hafter]
    apply displaced_of_holder_ne
    intro runnerId hholder
    rw [hlocked] at hholder
    exact hkeeps.2 workerId tie rfl runnerId (Option.some.inj hholder)

/-- A displaced token is refused by all three operations of the protocol. -/
theorem Displaced.refuses
    {s : HostedState} {j : Uuid} {t : String}
    (h : Displaced hashRunnerCredential (s.reviewJobs.find? j) t) :
    RefusesToken hashRunnerCredential s j t := by
  refine ⟨?_, ?_, ?_⟩
  · intro runnerId hactive
    obtain ⟨row, hrow, _, hleased, _⟩ := heartbeatJob_active_iff.mp hactive
    rw [h row hrow runnerId] at hleased
    cases hleased
  · intro runnerId ack
    rcases acknowledgeJob_cases hashRunnerCredential s runnerId j t ack with
      hdenied | ⟨row, hrow, hleased, _⟩ | ⟨row, _, hrow, hleased, _⟩ | ⟨row, hrow, hleased, _⟩
    · exact hdenied
    · rw [h row hrow runnerId] at hleased
      cases hleased
    · rw [h row hrow runnerId] at hleased
      cases hleased
    · rw [h row hrow runnerId] at hleased
      cases hleased
  · intro runnerId
    unfold issueJobToken
    cases hrow : s.reviewJobs.find? j with
    | none =>
        rfl
    | some row =>
        simp only [h row hrow runnerId]
        rfl

/-! ## Tokens that can never be active again -/

variable (hashRunnerCredential) in
/-- No runner is told that the token is active for the job. -/
def Spent (s : HostedState) (j : Uuid) (t : String) : Prop :=
  ∀ runnerId, (heartbeatJob hashRunnerCredential s runnerId j t).1 ≠ .active

/-- A lease that is live later was live before. -/
theorem leaseLive_of_le
    {row : ReviewJobRow} {now now' : Nat}
    (hle : now ≤ now')
    (h : row.leaseLive now' = true) :
    row.leaseLive now = true := by
  unfold ReviewJobRow.leaseLive at h ⊢
  rw [decide_eq_true_eq] at h ⊢
  obtain ⟨t, ht, hlt⟩ := h
  exact ⟨t, ht, Nat.lt_of_le_of_lt hle hlt⟩

/-- A step that does not draw the token again does not make it active. -/
theorem step_spent
    {s : HostedState} {j : Uuid} {t : String} {a : HostedAction}
    (hinjective : Function.Injective hashRunnerCredential)
    (hkeeps : KeepsDisplaced t a)
    (h : Spent hashRunnerCredential s j t) :
    Spent hashRunnerCredential (step hashRunnerCredential s a) j t := by
  intro runnerId hactive
  obtain ⟨row', hrow', hrunning, hleased, hlive⟩ := heartbeatJob_active_iff.mp hactive
  have hnow := step_now_le hashRunnerCredential s a
  have hchange := step_rowChange hashRunnerCredential s a j
  rw [hrow'] at hchange
  -- what was active before the step contradicts the hypothesis
  have hbefore : ∀ row, s.reviewJobs.find? j = some row → row.status = .running →
      row.leasedUnder runnerId (hashRunnerCredential t) = true →
      row.leaseLive s.now = true → False := by
    intro row hrow hrunning hleased hlive
    exact h runnerId (heartbeatJob_active_iff.mpr ⟨row, hrow, hrunning, hleased, hlive⟩)
  have hlocked := (leasedUnder_eq_true.mp hleased).1
  have hhash := (leasedUnder_eq_true.mp hleased).2
  cases hrow : s.reviewJobs.find? j with
  | none =>
      rw [hrow] at hchange
      cases hchange with
      | enqueuedBare => cases hhash
      | enqueued hinstalled => cases hhash
      | pushed hbody hid => cases hhash
  | some row =>
      rw [hrow] at hchange
      cases hchange with
      | unchanged => exact hbefore row' hrow hrunning hleased (leaseLive_of_le hnow hlive)
      | superseded hpr hactive => cases hrunning
      | cancelled hpr hactive => cases hrunning
      | leasedToRunner hclaimable henvelope =>
          have hsame := hinjective (Option.some.inj hhash)
          exact hkeeps.1 (congrArg some hsame)
      | leasedToWorker hclaimable =>
          exact hkeeps.2 _ _ rfl runnerId (Option.some.inj hlocked)
      | renewed hheld hstill => exact hbefore row hrow hrunning hleased hstill
      | beaten hwas hleased' hstill => exact hbefore row hrow hwas hleased hstill
      | acknowledged hleased' hwas hstill hwritten =>
          rcases acknowledged_status row _ s.now with hstatus | hstatus
          · rw [hstatus] at hrunning
            cases hrunning
          · rw [hstatus] at hrunning
            cases hrunning
      | completed hheld => cases hlocked
      | failedOnce hheld => cases hlocked
      | requeued hfailed hfree => cases hlocked
      | @overwritten _ body _ hbody hid =>
          have hinactive := row.overwrittenBy_inactive body s.now
          rw [hrunning] at hinactive
          cases hinactive

/-- A spent token stays spent over every run that does not draw it again. -/
theorem exec_spent
    {s : HostedState} {j : Uuid} {t : String} {actions : List HostedAction}
    (hinjective : Function.Injective hashRunnerCredential)
    (hkeeps : ∀ a ∈ actions, KeepsDisplaced t a)
    (h : Spent hashRunnerCredential s j t) :
    Spent hashRunnerCredential (exec (step hashRunnerCredential) s actions) j t := by
  induction actions generalizing s with
  | nil =>
      exact h
  | cons a actions ih =>
      have hstep := step_spent hinjective (hkeeps a (by simp)) h
      exact ih (fun b hb => hkeeps b (List.mem_cons_of_mem a hb)) hstep

/-- At most one runner, with one token, is told that the job is active. -/
def AtMostOneActive
    (hashRunnerCredential : String → String) (s : HostedState) (j : Uuid) : Prop :=
  ∀ runnerId t runnerId' t',
    (heartbeatJob hashRunnerCredential s runnerId j t).1 = .active →
    (heartbeatJob hashRunnerCredential s runnerId' j t').1 = .active →
    runnerId = runnerId' ∧ t = t'

theorem atMostOneActive_of_injective
    (hinjective : Function.Injective hashRunnerCredential)
    (s : HostedState) (j : Uuid) :
    AtMostOneActive hashRunnerCredential s j := by
  intro runnerId t runnerId' t' hactive hactive'
  obtain ⟨row, hrow, _, hleased, _⟩ := heartbeatJob_active_iff.mp hactive
  obtain ⟨row', hrow', _, hleased', _⟩ := heartbeatJob_active_iff.mp hactive'
  rw [hrow] at hrow'
  cases hrow'
  obtain ⟨hlocked, hhash⟩ := leasedUnder_eq_true.mp hleased
  obtain ⟨hlocked', hhash'⟩ := leasedUnder_eq_true.mp hleased'
  rw [hlocked] at hlocked'
  rw [hhash] at hhash'
  exact ⟨Uuid.text_injective (Option.some.inj hlocked'),
    hinjective (Option.some.inj hhash')⟩

/-- What follows a draw in an honest run does not draw the same token again. -/
theorem HonestRun.keepsDisplaced
    {before rest : List HostedAction} {a : HostedAction} {t : String}
    (h : HonestRun (before ++ a :: rest))
    (ha : a.drawnToken? = some t) :
    ∀ b ∈ rest, KeepsDisplaced t b := by
  intro b hb
  refine ⟨?_, ?_⟩
  · intro hdrawn
    have hnodup := h.freshTokens
    rw [List.filterMap_append, List.filterMap_cons_some ha, List.nodup_append] at hnodup
    have hnotin := (List.nodup_cons.mp hnodup.2.1).1
    exact hnotin (List.mem_filterMap.mpr ⟨b, hb, hdrawn⟩)
  · intro workerId tie hworker runnerId
    subst hworker
    exact h.workersAreNotRunners workerId tie (by simp [hb]) runnerId

/--
**Lease exclusivity.**  In every honest run from the empty store, a token handed
out for a job is refused, in every state after a later claim of that job, and in
every state at most one runner and token are accepted as active for a job.
-/
theorem earlier_tokens_refused
    (hinjective : Function.Injective hashRunnerCredential)
    (actions : List HostedAction)
    (hhonest : HonestRun actions) :
    (∀ before first between second after j t,
      actions = before ++ first :: (between ++ second :: after) →
      HandsOut hashRunnerCredential
        (exec (step hashRunnerCredential) HostedState.empty before) first j t →
      Claims hashRunnerCredential
        (exec (step hashRunnerCredential) HostedState.empty (before ++ first :: between))
        second j →
      RefusesToken hashRunnerCredential
        (exec (step hashRunnerCredential) HostedState.empty actions) j t) ∧
    ∀ j,
      AtMostOneActive hashRunnerCredential
        (exec (step hashRunnerCredential) HostedState.empty actions) j := by
  refine ⟨?_, atMostOneActive_of_injective hinjective _⟩
  rintro before first between second after j t rfl hout hclaims
  obtain ⟨runner, tie, e, s', rfl, _, _⟩ := hout
  have hkeeps := hhonest.keepsDisplaced (t := t) rfl
  have hdisplaced :=
    claims_displace hinjective (hkeeps second (by simp)) hclaims
  apply Displaced.refuses
  have hsplit :
      before ++ .claimJob runner t tie :: (between ++ second :: after) =
        (before ++ .claimJob runner t tie :: between) ++ second :: after := by
    simp
  rw [hsplit, exec_append, exec_cons]
  apply exec_displaced hinjective _ hdisplaced
  intro a ha
  exact hkeeps a (by simp [ha])

end Leases

/-- A job is claimed, its lease runs out, and the same runner claims it again. -/
def reclaimedByLaptop : List HostedAction :=
  (pairLaptop ++ [enqueueHead "delivery-1" firstJobId "head-1" firstHead_ne]) ++
    .claimJob laptopRunner "lease-1" firstJobId ::
      ([.advanceClock reviewJobLeaseInterval] ++
        .claimJob laptopRunner "lease-2" firstJobId :: [])

theorem reclaimedByLaptop_refuses_first_token :
    RefusesToken sampleHash
      (exec (step sampleHash) HostedState.empty reclaimedByLaptop) firstJobId "lease-1" := by
  refine (earlier_tokens_refused sampleHash_injective reclaimedByLaptop ⟨?_, ?_⟩).1
    _ _ _ _ _ firstJobId "lease-1" rfl ?_ (.inl ⟨"lease-2", ?_⟩)
  · decide
  · intro workerId tie hmem
    simp [reclaimedByLaptop, pairLaptop, enqueueHead] at hmem
  · exact ⟨laptopRunner, firstJobId, _, _, rfl, rfl, rfl⟩
  · exact ⟨laptopRunner, firstJobId, _, _, rfl, rfl, rfl⟩

end Hosted
end PrReviewer
