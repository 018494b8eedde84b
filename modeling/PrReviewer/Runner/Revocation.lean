import PrReviewer.Runner.Watch

/-!
# Claims of a revoked runner

The methods of one process, called in any order.  Once a claim is answered with
`revoked_runner` the gate is closed, and `process_once` asks it before it claims.
`_land_pending_result` does not: it claims for every stored result whose token was
refused.  A session makes no claim after it was told of the revocation as long as
it does not come to such a result with the gate closed.
-/

namespace PrReviewer
namespace Runner

open Lib

/-- The methods a process calls. -/
inductive PublicCall where
  | processOnce
  | completeJob (jobId : Uuid) (leaseToken : String) (result : JobAcknowledgement)
  | recover
  | replayPendingAcknowledgements
deriving DecidableEq, Repr

def DaemonOp.isClaim : DaemonOp → Bool
  | .claim _ => true
  | _ => false

section Sessions

variable (codec : Codec) (config : DaemonConfig)

def PublicCall.program : PublicCall → Daemon Unit
  | .processOnce => Runner.processOnce codec config
  | .completeJob jobId leaseToken result =>
      Runner.completeJob codec config jobId leaseToken result
  | .recover => Runner.recover codec config
  | .replayPendingAcknowledgements => Runner.replayPendingAcknowledgements codec config

/-- One call; what it raises does not end the process. -/
def sessionCall (call : PublicCall) : Daemon Unit :=
  (call.program codec config).catching (fun _ => pure ())

/-- The lifetime of a process: the methods called in it. -/
def session (calls : List PublicCall) : Daemon Unit :=
  Program.forEach calls (sessionCall codec config)

end Sessions

section Revocation

variable {codec : Codec} {ω : Type} (config : DaemonConfig) (surroundings : Surroundings ω)

/-- The response tells the client that the runner is revoked. -/
def tellsRevoked (codec : Codec) (outcome : Outcome) : Bool :=
  match received (decodeClaim codec) outcome with
  | .ok (.denied .revokedRunner) => true
  | _ => false

/-- The step is a claim, and its answer is `RunnerAuthDenied('revoked_runner')`. -/
def answersRevoked (x : RunnerState codec ω × DaemonOp) : Bool :=
  match x.2 with
  | .claim _ => tellsRevoked codec (surroundings.send (.claim x.1.credential) x.1.outside).1
  | _ => false

/-- No claim comes after one that was answered with `revoked_runner`. -/
def RevocationStopsClaims (steps : List (RunnerState codec ω × DaemonOp)) : Prop :=
  ∀ before x after, steps = before ++ x :: after → answersRevoked surroundings x = true →
    ∀ y ∈ after, y.2.isClaim = false

/-- An acknowledgement of `complete_job` is denied when the gate is closed. -/
def deniedWhileStopped (w : RunnerState codec ω) : DaemonOp → Bool
  | .acknowledge .complete jobId leaseToken result =>
      match received decodeAcknowledge
          (surroundings.send (.acknowledge w.credential jobId leaseToken result)
            w.outside).1 with
      | .error .jobProtocolDenied => !w.gate.allowNewWork && w.onStoreThread
      | _ => false
  | _ => false

/-- The entries a replay comes to, each with the state it finds there. -/
def replayVisits (w : RunnerState codec ω) :
    List (RunnerState codec ω × PendingAcknowledgement) :=
  match Program.run (answer surroundings) (askStore .listPending) w with
  | (.ok entries, w') =>
      Program.visits (answer surroundings) (replayEntry codec config) entries w'
  | (.error _, _) => []

/-- A replay comes to refused results only while the gate is open. -/
def ReplaysWhileAllowed (w : RunnerState codec ω) (call : PublicCall) : Prop :=
  call = .replayPendingAcknowledgements →
    ∀ v ∈ replayVisits config surroundings w,
      v.2.reason = .invalidOrExpired → v.1.gate.allowNewWork = true

/--
In the session no result is to be landed once the gate is closed: no acknowledgement
of `complete_job` is denied then, and no replay comes to a refused result.
-/
structure LandsWhileAllowed (calls : List PublicCall) (w : RunnerState codec ω) : Prop where
  completes :
    ∀ x ∈ Program.steps (answer surroundings) (session codec config calls) w,
      deniedWhileStopped surroundings x.1 x.2 = false
  replays :
    ∀ v ∈ Program.visits (answer surroundings) (sessionCall codec config) calls w,
      ReplaysWhileAllowed config surroundings v.1 v.2

end Revocation

/-! ## The methods, watched -/

section Methods

variable {codec : Codec} {ω : Type} {config : DaemonConfig} {surroundings : Surroundings ω}

/-- Remember whether some claim was answered with `revoked_runner`. -/
def watchRevocation (codec : Codec) (told : Bool) : Request → Outcome → Bool
  | .claim _, outcome => told || tellsRevoked codec outcome
  | _, _ => told

/-- Who was told of the revocation has closed the gate. -/
def GateFollows (w : RunnerState codec (ω × Bool)) : Prop :=
  w.outside.2 = true → w.gate.allowNewWork = false

/-- The judgement of this section. -/
abbrev ClaimsWhileUntold
    {α : Type}
    (surroundings : Surroundings ω)
    (p : Daemon α)
    (Q : α → RunnerState codec (ω × Bool) → Prop)
    (E : PyError → RunnerState codec (ω × Bool) → Prop)
    (w : RunnerState codec (ω × Bool)) :
    Prop :=
  Program.Safe (answer (surroundings.watched (watchRevocation codec)))
    (fun w op => deniedWhileStopped surroundings w.forget op = false)
    (fun w op => op.isClaim = true → w.outside.2 = false) p Q E w

theorem memory_of_not_claim
    {op : DaemonOp}
    (hop : op.isClaim = false)
    (w : RunnerState codec (ω × Bool)) :
    (answer (surroundings.watched (watchRevocation codec)) op w).2.outside.2 =
      w.outside.2 := by
  rw [answer_memory]
  cases op with
  | claim site => cases hop
  | _ => rfl

theorem gateFollows_of_not_claim
    {op : DaemonOp}
    (hop : op.isClaim = false)
    {w : RunnerState codec (ω × Bool)}
    (h : GateFollows w) :
    GateFollows (answer (surroundings.watched (watchRevocation codec)) op w).2 := by
  intro htold
  rw [memory_of_not_claim hop] at htold
  cases op with
  | claim site => cases hop
  | noteRunnerRevoked => rfl
  | store op =>
      rcases answer_store_cases (surroundings.watched (watchRevocation codec)) op w with
        ⟨result, store, _, _, hanswer⟩ | ⟨e, hanswer⟩
      · rw [hanswer]
        exact h htold
      · rw [hanswer]
        exact h htold
  | _ => exact h htold

/-- What makes no claim is safe, and leaves the gate following. -/
theorem untold_of_without_claim
    {α : Type} {p : Daemon α} {w : RunnerState codec (ω × Bool)}
    (hp : Program.Only (fun op => op.isClaim = false) p)
    (h : GateFollows w) :
    ClaimsWhileUntold surroundings p (fun _ => GateFollows) (fun _ => GateFollows) w := by
  refine hp.safe ?_ h
  intro w' op hop hw'
  refine ⟨?_, fun _ => gateFollows_of_not_claim hop hw'⟩
  intro hclaim
  rw [hop] at hclaim
  cases hclaim

theorem gateFollows_of_untold
    {w : RunnerState codec (ω × Bool)}
    (h : w.outside.2 = false) :
    GateFollows w := by
  intro htold
  rw [h] at htold
  cases htold

theorem untold_of_allowed
    {w : RunnerState codec (ω × Bool)}
    (h : GateFollows w)
    (hallowed : w.gate.allowNewWork = true) :
    w.outside.2 = false := by
  by_contra htold
  rw [Bool.not_eq_false] at htold
  rw [h htold] at hallowed
  cases hallowed

/-- A process that was not told yet is told only by a claim denied as revoked. -/
theorem claimed_untold
    {w : RunnerState codec (ω × Bool)}
    (huntold : w.outside.2 = false)
    (hother :
      received (decodeClaim codec)
          (w.post (surroundings.watched (watchRevocation codec)) (.claim w.credential)).1 ≠
        .ok (.denied .revokedRunner)) :
    (w.post (surroundings.watched (watchRevocation codec))
      (.claim w.credential)).2.outside.2 = false := by
  have hmemory :
      (w.post (surroundings.watched (watchRevocation codec))
          (.claim w.credential)).2.outside.2 =
        tellsRevoked codec
          (w.post (surroundings.watched (watchRevocation codec)) (.claim w.credential)).1 := by
    change (w.outside.2 || _) = _
    rw [huntold]
    rfl
  rw [hmemory]
  unfold tellsRevoked
  split
  · next hrevoked => exact absurd hrevoked hother
  · rfl

/-- The answer is no denial, so it does not tell of a revocation. -/
theorem claimed_follows
    {w : RunnerState codec (ω × Bool)} {outcome : Except PyError ClaimAnswer}
    (huntold : w.outside.2 = false)
    (hreceived :
      received (decodeClaim codec)
          (w.post (surroundings.watched (watchRevocation codec)) (.claim w.credential)).1 =
        outcome)
    (hundenied : ∀ reason, outcome ≠ .ok (.denied reason)) :
    GateFollows
      (w.post (surroundings.watched (watchRevocation codec)) (.claim w.credential)).2 := by
  apply gateFollows_of_untold
  apply claimed_untold huntold
  rw [hreceived]
  exact hundenied .revokedRunner

/-- A denial is noted; when it is a revocation the gate is closed by that. -/
theorem noteIfRevoked_untold
    {reason : RunnerAuthDenialReason} {w : RunnerState codec (ω × Bool)}
    (h : reason ≠ .revokedRunner → w.outside.2 = false) :
    ClaimsWhileUntold surroundings (noteIfRevoked reason) (fun _ => GateFollows)
      (fun _ => GateFollows) w := by
  unfold noteIfRevoked
  by_cases hrevoked : reason = .revokedRunner
  · rw [if_pos hrevoked]
    refine ⟨?_, ?_⟩
    · intro hclaim
      cases hclaim
    · intro _ _
      rfl
  · rw [if_neg hrevoked]
    exact gateFollows_of_untold (h hrevoked)

/-- The denial of a claim is noted by a process that was not told before. -/
theorem noteIfRevoked_claimed
    {reason : RunnerAuthDenialReason} {w : RunnerState codec (ω × Bool)}
    (huntold : w.outside.2 = false)
    (hreceived :
      received (decodeClaim codec)
          (w.post (surroundings.watched (watchRevocation codec)) (.claim w.credential)).1 =
        .ok (.denied reason)) :
    ClaimsWhileUntold surroundings (noteIfRevoked reason) (fun _ => GateFollows)
      (fun _ => GateFollows)
      (w.post (surroundings.watched (watchRevocation codec)) (.claim w.credential)).2 := by
  apply noteIfRevoked_untold
  intro hne
  apply claimed_untold huntold
  rw [hreceived]
  intro heq
  cases heq
  exact hne rfl

theorem refreshCredential_untold
    {w : RunnerState codec (ω × Bool)}
    (h : w.outside.2 = false) :
    ClaimsWhileUntold surroundings (refreshCredential config)
      (fun _ w' => w'.outside.2 = false) (fun _ w' => w'.outside.2 = false) w := by
  have honly : Program.Only (fun op => op.isClaim = false) (refreshCredential config) :=
    refreshCredential_only rfl (fun _ => rfl)
  refine honly.safe (I := fun w' : RunnerState codec (ω × Bool) => w'.outside.2 = false) ?_ h
  intro w' op hop hw'
  refine ⟨fun _ => hw', fun _ => ?_⟩
  rw [memory_of_not_claim hop]
  exact hw'

theorem landPendingResult_untold
    {w : RunnerState codec (ω × Bool)}
    (jobId : Uuid) (result : JobAcknowledgement)
    (h : w.outside.2 = false) :
    ClaimsWhileUntold surroundings (landPendingResult codec config jobId result)
      (fun _ => GateFollows) (fun _ => GateFollows) w := by
  have hrefresh :
      ClaimsWhileUntold surroundings (refreshCredential config)
        (fun _ w₁ => w₁.outside.2 = false) (fun _ w₁ => w₁.outside.2 = false) w :=
    refreshCredential_untold h
  refine safe_landPendingResult_of (T := GateFollows)
    (hrefresh.mono (fun _ _ hw₁ => hw₁) (fun _ _ hw₁ => gateFollows_of_untold hw₁))
    (fun _ hw₁ _ => hw₁) ?_ ?_ ?_ ?_ ?_ ?_
  · intro w₁ e hw₁ _ hreceived
    have hfollows := claimed_follows hw₁ hreceived (by rintro _ ⟨⟩)
    exact ⟨hfollows, hfollows⟩
  · intro w₁ hw₁ _ hreceived
    exact claimed_follows hw₁ hreceived (by rintro _ ⟨⟩)
  · intro w₁ reason hw₁ _ hreceived
    exact noteIfRevoked_claimed hw₁ hreceived
  · intro w₁ job hw₁ _ hreceived _
    have hacknowledge :
        ClaimsWhileUntold surroundings
          (clientAcknowledge (.land jobId) job.jobId job.leaseToken result)
          (fun _ => GateFollows) (fun _ => GateFollows) _ :=
      untold_of_without_claim (clientAcknowledge_only rfl)
        (claimed_follows hw₁ hreceived (by rintro _ ⟨⟩))
    exact hacknowledge.mono (fun _ _ hw₂ => hw₂) (fun _ _ hw₂ => ⟨hw₂, hw₂⟩)
  · intro w₁ job hw₁ _ hreceived _
    exact untold_of_without_claim (only_askStore rfl)
      (claimed_follows hw₁ hreceived (by rintro _ ⟨⟩))
  · intro w₁ hw₁
    exact untold_of_without_claim (markPendingTerminal_only rfl rfl (fun _ => rfl)) hw₁

theorem completeJob_untold
    {w : RunnerState codec (ω × Bool)}
    (jobId : Uuid) (leaseToken : String) (result : JobAcknowledgement)
    (h : GateFollows w) :
    ClaimsWhileUntold surroundings (completeJob codec config jobId leaseToken result)
      (fun _ => GateFollows) (fun _ => GateFollows) w := by
  -- the request leaves the gate and the memory as they were
  have hafter :
      GateFollows
        (w.post (surroundings.watched (watchRevocation codec))
          (.acknowledge w.credential jobId leaseToken result)).2 := h
  refine safe_completeJob_of (D := fun w₁ => w₁.outside.2 = false) ?_ ?_ ?_ ?_ ?_
    (fun _ _ => hafter)
  · intro hclaim
    cases hclaim
  · intro _ _
    exact untold_of_without_claim (only_askStore rfl) hafter
  · intro hassumed hdenied
    refine safe_askStore_of ?_ ?_ (fun _ => hafter)
    · intro hclaim
      cases hclaim
    · intro _ store _ hthread _
      have hsent :
          received decodeAcknowledge
              (surroundings.send
                (.acknowledge w.forget.credential jobId leaseToken result)
                w.forget.outside).1 =
            .error .jobProtocolDenied := hdenied
      have hsame : w.forget.onStoreThread = true := hthread
      simp only [deniedWhileStopped, hsent, hsame, Bool.and_true,
        Bool.not_eq_false'] at hassumed
      exact untold_of_allowed h hassumed
  · intro w₁ hw₁
    exact landPendingResult_untold jobId result hw₁
  · intro _ _
    exact untold_of_without_claim (only_askStore rfl) hafter

/-- The executor is asked, and what it returns is completed. -/
theorem review_then_complete_untold
    {w : RunnerState codec (ω × Bool)}
    (job : JobEnvelope)
    (h : GateFollows w) :
    ClaimsWhileUntold surroundings
      (do
        let result ← review job
        completeJob codec config job.jobId job.leaseToken result)
      (fun _ => GateFollows) (fun _ => GateFollows) w := by
  unfold ClaimsWhileUntold
  rw [Program.bind_eq, Program.safe_bind]
  have honly : Program.Only (fun op => op.isClaim = false) (review job) := by
    refine Program.only_bind (Program.only_perform rfl) ?_
    intro returned
    cases returned with
    | none => trivial
    | some result => trivial
  refine (untold_of_without_claim honly h).mono ?_ (fun _ _ h' => h')
  intro result w' hw'
  exact completeJob_untold job.jobId job.leaseToken result hw'

theorem processOnce_untold
    {w : RunnerState codec (ω × Bool)}
    (h : GateFollows w) :
    ClaimsWhileUntold surroundings (processOnce codec config)
      (fun _ => GateFollows) (fun _ => GateFollows) w := by
  refine safe_processOnce_of (R := fun w₁ => w₁.outside.2 = false) ?_ h ?_
    (fun _ hw₁ _ => hw₁) ?_ ?_ ?_ ?_
  · intro hclaim
    cases hclaim
  · intro hallowed
    have hrefresh :
        ClaimsWhileUntold surroundings (refreshCredential config)
          (fun _ w₁ => w₁.outside.2 = false) (fun _ w₁ => w₁.outside.2 = false) w :=
      refreshCredential_untold (untold_of_allowed h hallowed)
    exact hrefresh.mono (fun _ _ hw₁ => hw₁) (fun _ _ hw₁ => gateFollows_of_untold hw₁)
  · intro w₁ e hw₁ _ hreceived
    have hfollows := claimed_follows hw₁ hreceived (by rintro _ ⟨⟩)
    exact ⟨hfollows, hfollows⟩
  · intro w₁ hw₁ _ hreceived
    exact claimed_follows hw₁ hreceived (by rintro _ ⟨⟩)
  · intro w₁ reason hw₁ _ hreceived
    exact noteIfRevoked_claimed hw₁ hreceived
  · intro w₁ job hw₁ _ hreceived
    refine safe_runClaimedJob_of (R := GateFollows)
      (untold_of_without_claim (only_askStore rfl)
        (claimed_follows hw₁ hreceived (by rintro _ ⟨⟩)))
      ?_ (fun _ hw₂ => hw₂)
    intro w₂ hw₂ _
    exact review_then_complete_untold job hw₂

theorem recoverJob_untold
    {w : RunnerState codec (ω × Bool)}
    (job : LocalJob)
    (h : GateFollows w) :
    ClaimsWhileUntold surroundings (recoverJob codec config job)
      (fun _ => GateFollows) (fun _ => GateFollows) w := by
  have hafter :
      GateFollows
        (w.post (surroundings.watched (watchRevocation codec))
          (.heartbeat w.credential job.jobId job.leaseToken)).2 := by
    have hnot : (DaemonOp.heartbeat .recover job.jobId job.leaseToken).isClaim = false := rfl
    exact gateFollows_of_not_claim hnot h
  refine safe_recoverJob_of ?_ hafter (fun _ => hafter) ?_ ?_
  · intro hclaim
    cases hclaim
  · intro _ _ _ _
    exact untold_of_without_claim (only_askStore rfl) hafter
  · intro _ _ _
    exact review_then_complete_untold job.envelope hafter

theorem recover_untold
    {w : RunnerState codec (ω × Bool)}
    (h : GateFollows w) :
    ClaimsWhileUntold surroundings (recover codec config)
      (fun _ => GateFollows) (fun _ => GateFollows) w := by
  unfold recover ClaimsWhileUntold
  rw [Program.bind_eq, Program.safe_bind]
  refine (untold_of_without_claim (only_askStore rfl) h).mono ?_ (fun _ _ h' => h')
  intro jobs w' hw'
  exact Program.safe_forEach (fun job _ w'' hw'' => recoverJob_untold job hw'') hw'

theorem replayEntry_untold
    {w : RunnerState codec (ω × Bool)}
    (entry : PendingAcknowledgement)
    (h : GateFollows w)
    (hallowed : entry.reason = .invalidOrExpired → w.gate.allowNewWork = true) :
    ClaimsWhileUntold surroundings (replayEntry codec config entry)
      (fun _ => GateFollows) (fun _ => GateFollows) w := by
  refine safe_replayEntry_of (T := GateFollows) (B := GateFollows) ?_ ?_ ?_ ?_
  · intro hreason
    exact landPendingResult_untold entry.jobId entry.result
      (untold_of_allowed h (hallowed hreason))
  · intro _
    have hacknowledge :
        ClaimsWhileUntold surroundings
          (clientAcknowledge .replay entry.jobId entry.leaseToken entry.result)
          (fun _ => GateFollows) (fun _ => GateFollows) w :=
      untold_of_without_claim (clientAcknowledge_only rfl) h
    exact hacknowledge.mono (fun _ _ hw₁ => hw₁) (fun _ _ hw₁ => ⟨hw₁, hw₁⟩)
  · intro w₁ hw₁
    exact untold_of_without_claim
      (Program.only_bind (only_askStore rfl) (fun _ => only_askStore rfl)) hw₁
  · intro w₁ hw₁
    exact untold_of_without_claim (only_askStore rfl) hw₁

/-- A replay, whose visits are those of the process without its memory. -/
theorem replayPendingAcknowledgements_untold
    {w : RunnerState codec (ω × Bool)}
    (h : GateFollows w)
    (hallowed : ∀ v ∈ replayVisits config surroundings w.forget,
      v.2.reason = .invalidOrExpired → v.1.gate.allowNewWork = true) :
    ClaimsWhileUntold surroundings (replayPendingAcknowledgements codec config)
      (fun _ => GateFollows) (fun _ => GateFollows) w := by
  unfold replayPendingAcknowledgements ClaimsWhileUntold
  rw [Program.bind_eq, Program.safe_bind]
  have hlist :
      ClaimsWhileUntold surroundings (askStore .listPending) (fun _ => GateFollows)
        (fun _ => GateFollows) w :=
    untold_of_without_claim (only_askStore rfl) h
  refine hlist.at_run.mono ?_ (fun _ _ h' => h'.1)
  rintro entries w' ⟨hw', hrun⟩
  refine Program.safe_forEach_visits
    (V := fun s entry => entry.reason = .invalidOrExpired → s.gate.allowNewWork = true)
    ?_ ?_ hw'
  · intro entry w'' hw'' hentry
    exact replayEntry_untold entry hw'' hentry
  · intro v hv
    apply hallowed (v.1.forget, v.2)
    unfold replayVisits
    rw [watched_extends.run, hrun]
    simp only
    rw [watched_extends.visits]
    exact List.mem_map_of_mem hv

theorem sessionCall_untold
    {w : RunnerState codec (ω × Bool)}
    (call : PublicCall)
    (h : GateFollows w)
    (hallowed : ReplaysWhileAllowed config surroundings w.forget call) :
    ClaimsWhileUntold surroundings (sessionCall codec config call)
      (fun _ => GateFollows) (fun _ => GateFollows) w := by
  unfold sessionCall ClaimsWhileUntold
  rw [Program.safe_catching]
  cases call with
  | processOnce => exact processOnce_untold h
  | completeJob jobId leaseToken result => exact completeJob_untold jobId leaseToken result h
  | recover => exact recover_untold h
  | replayPendingAcknowledgements =>
      exact replayPendingAcknowledgements_untold h (hallowed rfl)

/-- The whole session, watched from a state in which nothing was told. -/
theorem session_untold
    {calls : List PublicCall} {w : RunnerState codec (ω × Bool)}
    (h : GateFollows w)
    (hreplays : ∀ v ∈ Program.visits (answer surroundings) (sessionCall codec config) calls
        w.forget,
      ReplaysWhileAllowed config surroundings v.1 v.2) :
    ClaimsWhileUntold surroundings (session codec config calls)
      (fun _ => GateFollows) (fun _ => GateFollows) w := by
  refine Program.safe_forEach_visits
    (V := fun s call => ReplaysWhileAllowed config surroundings s.forget call) ?_ ?_ h
  · intro call w' hw' hcall
    exact sessionCall_untold call hw' hcall
  · intro v hv
    apply hreplays (v.1.forget, v.2)
    rw [watched_extends.visits]
    exact List.mem_map_of_mem hv

/-- Once told, the watcher keeps it in mind. -/
theorem remembered_revocation
    {past : List (RunnerState codec ω × DaemonOp)} {x : RunnerState codec ω × DaemonOp}
    (hx : x ∈ past)
    (hrevoked : answersRevoked surroundings x = true)
    (told : Bool) :
    remembered surroundings (watchRevocation codec) told past = true := by
  obtain ⟨before, after, rfl⟩ := List.append_of_mem hx
  have hkept :
      ∀ later : List (RunnerState codec ω × DaemonOp),
        remembered surroundings (watchRevocation codec) true later = true := by
    intro later
    induction later with
    | nil =>
        rfl
    | cons y later ih =>
        have hy : remember surroundings (watchRevocation codec) true y = true := by
          obtain ⟨w, op⟩ := y
          cases op with
          | _ => rfl
        unfold remembered at ih ⊢
        rw [List.foldl_cons, hy]
        exact ih
  have hstep :
      ∀ memory, remember surroundings (watchRevocation codec) memory x = true := by
    intro memory
    obtain ⟨w, op⟩ := x
    cases op with
    | claim site =>
        change (memory || answersRevoked surroundings (w, DaemonOp.claim site)) = true
        rw [hrevoked, Bool.or_true]
    | _ => cases hrevoked
  rw [remembered_append]
  unfold remembered
  rw [List.foldl_cons, hstep]
  exact hkept after

end Methods

/--
**Revocation and claims.**  In the lifetime of a process, whatever its methods, their
order and the client's answers, no claim comes after one that was answered with
`revoked_runner`, provided that nothing is to be landed once the gate is closed: no
acknowledgement of `complete_job` is denied then, and no replay comes to a result
whose token was refused.
-/
theorem revocation_stops_claims
    {codec : Codec} {ω : Type}
    (config : DaemonConfig) (surroundings : Surroundings ω)
    (calls : List PublicCall) (w : RunnerState codec ω)
    (hlands : LandsWhileAllowed config surroundings calls w) :
    RevocationStopsClaims surroundings
      (Program.steps (answer surroundings) (session codec config calls) w) := by
  intro before x after hsteps hrevoked y hy
  obtain ⟨between, rest, rfl⟩ := List.append_of_mem hy
  have hsafe :
      ClaimsWhileUntold surroundings (session codec config calls) (fun _ => GateFollows)
        (fun _ => GateFollows) (w.remembering false) := by
    apply session_untold
    · exact gateFollows_of_untold rfl
    · exact hlands.replays
  have hsplit :
      Program.steps (answer surroundings) (session codec config calls)
          (w.remembering false).forget =
        (before ++ x :: between) ++ y :: rest := by
    rw [List.append_assoc, List.cons_append]
    exact hsteps
  have hclaim :=
    guaranteed_of_watched
      (fun _ s op => deniedWhileStopped surroundings s op = false)
      (fun told _ op => op.isClaim = true → told = false) hsafe hsplit ?_
  · have hx : x ∈ before ++ x :: between := List.mem_append_right _ List.mem_cons_self
    have htold := remembered_revocation hx hrevoked false
    by_contra hisClaim
    rw [Bool.not_eq_false] at hisClaim
    have huntold := hclaim hisClaim
    rw [show (w.remembering false).outside.2 = false from rfl, htold] at huntold
    cases huntold
  · intro past z later hpast
    apply hlands.completes z
    rw [hsteps]
    have hz : z ∈ before ++ x :: between := by
      rw [hpast]
      exact List.mem_append_right _ List.mem_cons_self
    rcases List.mem_append.mp hz with hz | hz
    · exact List.mem_append_left _ hz
    · refine List.mem_append_right _ ?_
      rcases List.mem_cons.mp hz with rfl | hz
      · exact List.mem_cons_self
      · exact List.mem_cons_of_mem _ (List.mem_append_left _ hz)

/-! ## A revoked runner with refused results -/

def otherJobId : Uuid := ⟨"cccccccc-0000-4000-8000-00000000000b", by decide⟩

/-- The control plane says that the runner is revoked. -/
def revokedAnswer : Outcome :=
  answered 401 (.obj [("detail", .str "revoked_runner")])

/-- A process whose store holds refused results of the given jobs. -/
def refusedResults (jobIds : List Uuid) : RunnerState strictCodec (List Outcome) :=
  { freshProcess strictCodec (List.replicate 4 revokedAnswer) with
    store :=
      jobIds.foldl
        (fun store jobId =>
          store.recordPending jobId "first" sampleResult .invalidOrExpired 0)
        (.empty strictCodec) }

/-- One refused result: the replay is told of the revocation, and polling stops. -/
theorem one_refused_result_one_claim :
    RevocationStopsClaims (scripted none)
      (Program.steps (answer (scripted none))
        (session strictCodec sampleConfig [.replayPendingAcknowledgements, .processOnce])
        (refusedResults [sampleJobId])) := by
  apply revocation_stops_claims
  refine ⟨by decide, ?_⟩
  unfold ReplaysWhileAllowed
  decide

/-- Two refused results: the second is claimed for after the first was answered. -/
theorem second_refused_result_claims_again :
    ¬ RevocationStopsClaims (scripted none)
        (Program.steps (answer (scripted none))
          (session strictCodec sampleConfig [.replayPendingAcknowledgements])
          (refusedResults [sampleJobId, otherJobId])) := by
  intro hstops
  have hclaims :=
    hstops
      ((Program.steps (answer (scripted none))
        (session strictCodec sampleConfig [.replayPendingAcknowledgements])
        (refusedResults [sampleJobId, otherJobId])).take 1) _ _ rfl (by decide)
  revert hclaims
  decide

end Runner
end PrReviewer
