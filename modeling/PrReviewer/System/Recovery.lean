import PrReviewer.System.LiveLease
import PrReviewer.Runner.Recover

/-!
# Recovery under the live lease

The methods of the daemon, one by one, keep the local store in step with the plane
as long as every claimed envelope can be recorded and the answers about an active
lease are answers to its holder.  A row leaves the claimed ones after an accepted
acknowledgement of its token, after a denied one, or after a heartbeat that was not
answered "active"; each of these tells that the token is spent.
-/

namespace PrReviewer
namespace System

open Lib Hosted Runner

section Methods

variable {hashRunnerCredential : String → String} {codec : Codec} {ρ : Type}
variable {config : DaemonConfig} {host : Host ρ}

/-- The program keeps the store in step, and respects the lease at every operation. -/
def KeepsStep
    (hashRunnerCredential : String → String) (host : Host ρ)
    {α : Type} (p : Daemon α) (w : RunnerState codec (Network × ρ)) : Prop :=
  Program.Safe (answer (networked hashRunnerCredential host))
    (fun w' op => meetsLease hashRunnerCredential w' op = true)
    (LeaseGuarantee hashRunnerCredential) p
    (fun _ => InStep hashRunnerCredential) (fun _ => InStep hashRunnerCredential) w

/-- The operations about which the lease says nothing. -/
def outsideLease (op : DaemonOp) : Bool :=
  match op with
  | .store _ => false
  | .heartbeat _ _ _ => false
  | _ => true

theorem keepsStep_of_outsideLease
    (hinjective : Function.Injective hashRunnerCredential)
    {α : Type} {p : Daemon α}
    (h : Program.Only (fun op => outsideLease op = true) p)
    {w : RunnerState codec (Network × ρ)}
    (hw : InStep hashRunnerCredential w) :
    KeepsStep hashRunnerCredential host p w := by
  refine h.safe (I := InStep hashRunnerCredential) ?_ hw
  intro w' op hop hw'
  cases op with
  | store op => cases hop
  | heartbeat site jobId leaseToken => cases hop
  | _ => exact ⟨⟨hw', trivial⟩, fun _ => answer_inStep host hinjective _ rfl hw'⟩

/-- A method of the store that keeps the rows in step with the plane. -/
theorem keepsStep_askStore
    {op : StoreOp} {w : RunnerState codec (Network × ρ)}
    (hw : InStep hashRunnerCredential w)
    (hrespects : RespectsLease hashRunnerCredential w (.store op))
    (hop : ∀ now result store, applyStore w.store now op = .ok (result, store) →
      Kept hashRunnerCredential store w.outside.1) :
    KeepsStep hashRunnerCredential host (askStore op) w := by
  refine safe_askStore_of ⟨hw, hrespects⟩ ?_ (fun _ => hw)
  intro result store _ _ happly
  exact hop _ result store happly

/-- A row whose token is spent may leave the claimed ones. -/
theorem keepsStep_retire
    {op : StoreOp} {jobId : Uuid} {w : RunnerState codec (Network × ρ)}
    (hw : InStep hashRunnerCredential w)
    (hspent : SpentRow hashRunnerCredential jobId w)
    (hop : op = .markCompleted jobId ∨ op = .markAbandoned jobId) :
    KeepsStep hashRunnerCredential host (askStore op) w := by
  have hretired : ∀ status, Kept hashRunnerCredential (w.store.setStatus jobId status)
      w.outside.1 := by
    intro status
    exact hw.setStatus (fun t htoken => hspent.spent htoken)
  rcases hop with rfl | rfl
  · refine keepsStep_askStore hw trivial ?_
    intro now result store happly
    cases happly
    exact hretired .completed
  · refine keepsStep_askStore hw hspent ?_
    intro now result store happly
    cases happly
    exact hretired .abandoned

theorem keepsStep_resolve
    (entryId : Nat) {w : RunnerState codec (Network × ρ)}
    (hw : InStep hashRunnerCredential w) :
    KeepsStep hashRunnerCredential host (askStore (.resolve entryId)) w := by
  refine keepsStep_askStore hw trivial ?_
  intro now result store happly
  cases happly
  exact hw.resolve entryId

theorem keepsStep_bumpAttempt
    (entryId : Nat) {w : RunnerState codec (Network × ρ)}
    (hw : InStep hashRunnerCredential w) :
    KeepsStep hashRunnerCredential host (askStore (.bumpAttempt entryId)) w := by
  refine keepsStep_askStore hw trivial ?_
  intro now result store happly
  cases happly
  exact hw.bumpAttempt entryId

theorem keepsStep_recordPending
    {jobId : Uuid} {leaseToken : String} {result : JobAcknowledgement}
    {reason : PendingAcknowledgementReason} {w : RunnerState codec (Network × ρ)}
    (hw : InStep hashRunnerCredential w)
    (htoken : HasToken w.store jobId leaseToken)
    (hdenied : reason = .invalidOrExpired →
      Spent hashRunnerCredential w.outside.1.plane jobId leaseToken) :
    KeepsStep hashRunnerCredential host
      (askStore (.recordPending jobId leaseToken result reason)) w := by
  refine keepsStep_askStore hw trivial ?_
  intro now _ store happly
  cases happly
  exact hw.recordPending htoken hdenied result now

/-- The row of the job stays spent along a program. -/
theorem carrying_spentRow
    (hinjective : Function.Injective hashRunnerCredential)
    {α : Type} {p : Daemon α} {Q : α → RunnerState codec (Network × ρ) → Prop}
    {E : PyError → RunnerState codec (Network × ρ) → Prop}
    {w : RunnerState codec (Network × ρ)} {jobId : Uuid}
    (h : Program.Safe (answer (networked hashRunnerCredential host))
      (fun w' op => meetsLease hashRunnerCredential w' op = true)
      (LeaseGuarantee hashRunnerCredential) p Q E w)
    (hspent : SpentRow hashRunnerCredential jobId w) :
    Program.Safe (answer (networked hashRunnerCredential host))
      (fun w' op => meetsLease hashRunnerCredential w' op = true)
      (LeaseGuarantee hashRunnerCredential) p
      (fun a w' => Q a w' ∧ SpentRow hashRunnerCredential jobId w') E w := by
  refine (h.frame (F := SpentRow hashRunnerCredential jobId) ?_ hspent).mono
    (fun _ _ hpost => hpost) (fun _ _ hpost => hpost.1)
  intro w' op hspent' hguarantee _
  exact answer_spentRow host hinjective hguarantee.1 hspent' op

theorem keepsStep_markPendingTerminal
    {jobId : Uuid} {w : RunnerState codec (Network × ρ)}
    (hw : InStep hashRunnerCredential w)
    (hspent : SpentRow hashRunnerCredential jobId w) :
    KeepsStep hashRunnerCredential host (markPendingTerminal jobId) w := by
  unfold markPendingTerminal KeepsStep
  simp only [Program.bind_eq]
  rw [Program.safe_bind]
  refine (keepsStep_retire hw hspent (.inl rfl)).mono ?_ (fun _ _ h => h)
  intro _ w₁ hw₁
  rw [Program.safe_bind]
  have hlist : KeepsStep hashRunnerCredential host (askStore .listPending) w₁ := by
    refine keepsStep_askStore hw₁ trivial ?_
    intro now result store happly
    cases happly
    exact hw₁
  refine hlist.mono ?_ (fun _ _ h => h)
  intro entries w₂ hw₂
  refine Program.safe_forEach ?_ hw₂
  intro entry _ w₃ hw₃
  split
  · exact keepsStep_resolve entry.id hw₃
  · exact hw₃

/-- The envelope can be recorded, so its row carries its token afterwards. -/
theorem safe_recordClaimed_lease
    {job : JobEnvelope} {w : RunnerState codec (Network × ρ)}
    (hw : InStep hashRunnerCredential w)
    (hfresh : job.leaseToken ∉ drawsOf w.outside.1.turns) :
    Program.Safe (answer (networked hashRunnerCredential host))
      (fun w' op => meetsLease hashRunnerCredential w' op = true)
      (LeaseGuarantee hashRunnerCredential) (askStore (.recordClaimed job))
      (fun _ w' => InStep hashRunnerCredential w' ∧
        HasToken w'.store job.jobId job.leaseToken)
      (fun _ => InStep hashRunnerCredential) w := by
  refine safe_askStore_of ⟨hw, trivial⟩ ?_ (fun _ => hw)
  intro result store hrecordable hthread happly
  have hcarries := carriesLease_recordClaimed (networked hashRunnerCredential host) w job
  rw [show recordable w job = true from hrecordable] at hcarries
  have hanswer :
      (answer (networked hashRunnerCredential host) (.store (.recordClaimed job)) w).2 =
        { w with
          store := store
          outside := ((networked hashRunnerCredential host).clock w.outside).2 } := by
    simp only [answer]
    rw [if_pos hthread, happly]
  rw [hanswer] at hcarries
  refine ⟨?_, hasToken_of_carriesLease hcarries⟩
  simp only [applyStore] at happly
  split at happly
  · cases happly
    exact hw.recordClaimed hfresh _
  · cases happly

/-- The stored-result path starts from a denied acknowledgement, so the row is spent. -/
theorem keepsStep_landPendingResult
    (hinjective : Function.Injective hashRunnerCredential)
    {jobId : Uuid} {result : JobAcknowledgement} {w : RunnerState codec (Network × ρ)}
    (hw : InStep hashRunnerCredential w)
    (hspent : SpentRow hashRunnerCredential jobId w) :
    KeepsStep hashRunnerCredential host (landPendingResult codec config jobId result) w := by
  have hrefresh : KeepsStep hashRunnerCredential host (refreshCredential config) w :=
    keepsStep_of_outsideLease hinjective (refreshCredential_only rfl (fun _ => rfl)) hw
  have hclaimed : ∀ w₁ : RunnerState codec (Network × ρ),
      InStep hashRunnerCredential w₁ ∧ SpentRow hashRunnerCredential jobId w₁ →
      InStep hashRunnerCredential
          (w₁.post (networked hashRunnerCredential host) (.claim w₁.credential)).2 ∧
        SpentRow hashRunnerCredential jobId
          (w₁.post (networked hashRunnerCredential host) (.claim w₁.credential)).2 := by
    rintro w₁ ⟨hw₁, hspent₁⟩
    exact ⟨answer_inStep host hinjective (.claim (.land jobId)) rfl hw₁,
      answer_spentRow host hinjective hw₁ hspent₁ (.claim (.land jobId))⟩
  refine safe_landPendingResult_of
    (T := fun w₁ => InStep hashRunnerCredential w₁ ∧ SpentRow hashRunnerCredential jobId w₁)
    (carrying_spentRow hinjective hrefresh hspent) (fun _ hw₁ => ⟨hw₁.1, trivial⟩) ?_ ?_ ?_
    ?_ ?_ ?_
  · intro w₁ _ hw₁ _ _
    exact ⟨(hclaimed w₁ hw₁).1, (hclaimed w₁ hw₁).1⟩
  · intro w₁ hw₁ _ _
    exact hclaimed w₁ hw₁
  · intro w₁ reason hw₁ _ _
    obtain ⟨hw₂, hspent₂⟩ := hclaimed w₁ hw₁
    have hnote : KeepsStep hashRunnerCredential host (noteIfRevoked reason) _ :=
      keepsStep_of_outsideLease hinjective (noteIfRevoked_only (by rfl) reason) hw₂
    exact carrying_spentRow hinjective hnote hspent₂
  · intro w₁ job hw₁ _ _ _
    obtain ⟨hw₂, hspent₂⟩ := hclaimed w₁ hw₁
    have hacknowledge :
        KeepsStep hashRunnerCredential host
          (clientAcknowledge (.land jobId) job.jobId job.leaseToken result)
          (w₁.post (networked hashRunnerCredential host) (.claim w₁.credential)).2 :=
      keepsStep_of_outsideLease hinjective (clientAcknowledge_only rfl) hw₂
    exact (carrying_spentRow hinjective hacknowledge hspent₂).mono (fun _ _ h => h)
      (fun _ _ h => ⟨h, h⟩)
  · intro w₁ job hw₁ _ hreceived _
    obtain ⟨hw₂, hspent₂⟩ := hclaimed w₁ hw₁
    have hfresh : job.leaseToken ∉
        drawsOf (w₁.post (networked hashRunnerCredential host)
          (.claim w₁.credential)).2.outside.1.turns :=
      claimed_token_fresh hw₁.1.honest hreceived
    refine (carrying_spentRow hinjective
      (safe_recordClaimed_lease hw₂ hfresh) hspent₂).mono ?_ (fun _ _ h => h)
    rintro _ w₃ ⟨⟨hw₃, _⟩, hspent₃⟩
    exact ⟨hw₃, hspent₃⟩
  · rintro w₁ ⟨hw₁, hspent₁⟩
    exact keepsStep_markPendingTerminal hw₁ hspent₁

/-- The result of a job whose row carries the token is completed. -/
theorem keepsStep_completeJob
    (hinjective : Function.Injective hashRunnerCredential)
    {jobId : Uuid} {leaseToken : String} {result : JobAcknowledgement}
    {w : RunnerState codec (Network × ρ)}
    (hw : InStep hashRunnerCredential w)
    (htoken : HasToken w.store jobId leaseToken) :
    KeepsStep hashRunnerCredential host
      (completeJob codec config jobId leaseToken result) w := by
  have hw₁ := answer_inStep host hinjective (.acknowledge .complete jobId leaseToken result) rfl hw
  refine safe_completeJob_of
    (D := fun w₂ => InStep hashRunnerCredential w₂ ∧ SpentRow hashRunnerCredential jobId w₂)
    ⟨hw, trivial⟩ ?_ ?_ ?_ ?_ (fun _ _ => hw₁)
  · intro _ haccepted
    have hspent := spent_of_accepted haccepted
    exact keepsStep_retire hw₁ ⟨leaseToken, htoken, hspent⟩ (.inl rfl)
  · intro hholder hdenied
    have hspent := spent_of_denied hdenied hholder
    have hrecord :
        KeepsStep hashRunnerCredential host
          (askStore (.recordPending jobId leaseToken result .invalidOrExpired))
          (w.post (networked hashRunnerCredential host)
            (.acknowledge w.credential jobId leaseToken result)).2 :=
      keepsStep_recordPending hw₁ htoken (fun _ => hspent)
    exact carrying_spentRow hinjective hrecord ⟨leaseToken, htoken, hspent⟩
  · rintro w₂ ⟨hw₂, hspent₂⟩
    exact keepsStep_landPendingResult hinjective hw₂ hspent₂
  · intro _ _
    exact keepsStep_recordPending hw₁ htoken (by rintro ⟨⟩)

/-- The executor is asked and its result completed. -/
theorem keepsStep_review_then_complete
    (hinjective : Function.Injective hashRunnerCredential)
    {job : JobEnvelope} {w : RunnerState codec (Network × ρ)}
    (hw : InStep hashRunnerCredential w)
    (htoken : HasToken w.store job.jobId job.leaseToken) :
    KeepsStep hashRunnerCredential host
      (do
        let result ← review job
        completeJob codec config job.jobId job.leaseToken result) w := by
  unfold KeepsStep
  rw [Program.bind_eq, Program.safe_bind, safe_review]
  refine ⟨⟨hw, trivial⟩, fun _ => ?_⟩
  have hw₁ := answer_inStep host hinjective (.review job) rfl hw
  cases (answer (networked hashRunnerCredential host) (.review job) w).1 with
  | none => exact hw₁
  | some result => exact keepsStep_completeJob hinjective hw₁ htoken

theorem keepsStep_runClaimedJob
    (hinjective : Function.Injective hashRunnerCredential)
    {job : JobEnvelope} {w : RunnerState codec (Network × ρ)}
    (hw : InStep hashRunnerCredential w)
    (hfresh : job.leaseToken ∉ drawsOf w.outside.1.turns) :
    KeepsStep hashRunnerCredential host (runClaimedJob codec config job) w := by
  refine safe_runClaimedJob_of
    (R := fun w₁ => InStep hashRunnerCredential w₁ ∧
      HasToken w₁.store job.jobId job.leaseToken)
    (safe_recordClaimed_lease hw hfresh) ?_ (fun _ hw₁ => hw₁.1)
  rintro w₁ ⟨hw₁, htoken⟩ _
  exact keepsStep_review_then_complete hinjective hw₁ htoken

theorem keepsStep_processOnce
    (hinjective : Function.Injective hashRunnerCredential)
    {w : RunnerState codec (Network × ρ)}
    (hw : InStep hashRunnerCredential w) :
    KeepsStep hashRunnerCredential host (processOnce codec config) w := by
  have hclaimed : ∀ w₁ : RunnerState codec (Network × ρ),
      InStep hashRunnerCredential w₁ →
      InStep hashRunnerCredential
        (w₁.post (networked hashRunnerCredential host) (.claim w₁.credential)).2 := by
    intro w₁ hw₁
    exact answer_inStep host hinjective (.claim .poll) rfl hw₁
  refine safe_processOnce_of ⟨hw, trivial⟩ hw ?_ (fun _ hw₁ => ⟨hw₁, trivial⟩) ?_ ?_ ?_ ?_
  · intro _
    exact keepsStep_of_outsideLease hinjective (refreshCredential_only rfl (fun _ => rfl)) hw
  · intro w₁ _ hw₁ _ _
    exact ⟨hclaimed w₁ hw₁, hclaimed w₁ hw₁⟩
  · intro w₁ hw₁ _ _
    exact hclaimed w₁ hw₁
  · intro w₁ reason hw₁ _ _
    exact keepsStep_of_outsideLease hinjective (noteIfRevoked_only (by rfl) reason)
      (hclaimed w₁ hw₁)
  · intro w₁ job hw₁ _ hreceived
    exact keepsStep_runClaimedJob hinjective (hclaimed w₁ hw₁)
      (claimed_token_fresh hw₁.honest hreceived)

/-- A row is recovered with its own token. -/
theorem keepsStep_recoverJob
    (hinjective : Function.Injective hashRunnerCredential)
    {job : LocalJob} {w : RunnerState codec (Network × ρ)}
    (hw : InStep hashRunnerCredential w)
    (htoken : HasToken w.store job.jobId job.leaseToken) :
    KeepsStep hashRunnerCredential host (recoverJob codec config job) w := by
  have hw₁ := answer_inStep host hinjective (.heartbeat .recover job.jobId job.leaseToken) rfl hw
  refine safe_recoverJob_of ⟨hw, htoken⟩ hw₁ (fun _ => hw₁) ?_ ?_
  · intro lease hlease hinactive hholder
    have hspent := spent_of_heartbeat hlease hinactive hholder
    exact keepsStep_retire hw₁ ⟨job.leaseToken, htoken, hspent⟩ (.inr rfl)
  · intro _ _ _
    exact keepsStep_review_then_complete hinjective hw₁ htoken

theorem keepsStep_recover
    (hinjective : Function.Injective hashRunnerCredential)
    {w : RunnerState codec (Network × ρ)}
    (hw : InStep hashRunnerCredential w) :
    KeepsStep hashRunnerCredential host (recover codec config) w := by
  unfold recover KeepsStep
  rw [Program.bind_eq, Program.safe_bind]
  refine safe_askStore_of ⟨hw, trivial⟩ ?_ (fun _ => hw)
  intro jobs store _ _ happly
  cases happly
  -- The rows that were listed keep their tokens while the loop handles the others.
  have htokens : ∀ job ∈ w.store.listClaimed, HasToken w.store job.jobId job.leaseToken := by
    intro job hjob
    exact ⟨job, (LocalStore.mem_listClaimed.mp hjob).1, rfl⟩
  refine Program.Safe.mono
    (Program.safe_forEach
      (I := fun w' => InStep hashRunnerCredential w' ∧
        ∀ job ∈ w.store.listClaimed, HasToken w'.store job.jobId job.leaseToken)
      ?_ ⟨hw, htokens⟩)
    (fun _ _ h => h.1) (fun _ _ h => h)
  rintro job hjob w₁ ⟨hw₁, htokens₁⟩
  have hbody : KeepsStep hashRunnerCredential host (recoverJob codec config job) w₁ :=
    keepsStep_recoverJob hinjective hw₁ (htokens₁ job hjob)
  refine (hbody.frame ?_ htokens₁).mono (fun _ _ h => h) (fun _ _ h => h.1)
  intro w' op htokens' _ _ other hother
  exact answer_hasToken _ op w' (htokens' other hother)

/-- What is known of an entry while the replay goes on. -/
def Replayable
    (hashRunnerCredential : String → String) (entry : PendingAcknowledgement)
    (w : RunnerState codec (Network × ρ)) : Prop :=
  HasToken w.store entry.jobId entry.leaseToken ∧
    (entry.reason = .invalidOrExpired → SpentRow hashRunnerCredential entry.jobId w)

theorem keepsStep_replayEntry
    (hinjective : Function.Injective hashRunnerCredential)
    {entry : PendingAcknowledgement} {w : RunnerState codec (Network × ρ)}
    (hw : InStep hashRunnerCredential w)
    (hentry : Replayable hashRunnerCredential entry w) :
    KeepsStep hashRunnerCredential host (replayEntry codec config entry) w := by
  have hw₁ := answer_inStep host hinjective
    (.acknowledge .replay entry.jobId entry.leaseToken entry.result) rfl hw
  refine safe_replayEntry_of (B := InStep hashRunnerCredential)
    (T := fun w₁ => InStep hashRunnerCredential w₁ ∧
      SpentRow hashRunnerCredential entry.jobId w₁) ?_ ?_ ?_ ?_
  · intro hreason
    exact keepsStep_landPendingResult hinjective hw (hentry.2 hreason)
  · intro _
    rw [safe_clientAcknowledge]
    refine ⟨⟨hw, trivial⟩, fun _ => ?_⟩
    split
    · next hlanded => exact ⟨hw₁, entry.leaseToken, hentry.1, spent_of_accepted hlanded⟩
    · exact ⟨hw₁, hw₁⟩
  · rintro w₂ ⟨hw₂, hspent₂⟩
    rw [Program.bind_eq, Program.safe_bind]
    refine (carrying_spentRow hinjective (keepsStep_resolve entry.id hw₂) hspent₂).mono ?_
      (fun _ _ h => h)
    rintro _ w₃ ⟨hw₃, hspent₃⟩
    exact keepsStep_retire hw₃ hspent₃ (.inl rfl)
  · intro w₂ hw₂
    exact keepsStep_bumpAttempt entry.id hw₂

theorem keepsStep_replayPendingAcknowledgements
    (hinjective : Function.Injective hashRunnerCredential)
    {w : RunnerState codec (Network × ρ)}
    (hw : InStep hashRunnerCredential w) :
    KeepsStep hashRunnerCredential host (replayPendingAcknowledgements codec config) w := by
  unfold replayPendingAcknowledgements KeepsStep
  rw [Program.bind_eq, Program.safe_bind]
  refine safe_askStore_of ⟨hw, trivial⟩ ?_ (fun _ => hw)
  intro entries store _ _ happly
  cases happly
  have hentries : ∀ entry ∈ w.store.listPending,
      Replayable hashRunnerCredential entry w := by
    intro entry hentry
    obtain ⟨row, hrow, rfl⟩ := LocalStore.mem_listPending.mp hentry
    obtain ⟨htoken, hdenied⟩ := hw.pending row hrow
    exact ⟨htoken, fun hreason => ⟨row.leaseToken, htoken, hdenied hreason⟩⟩
  refine Program.Safe.mono
    (Program.safe_forEach
      (I := fun w' => InStep hashRunnerCredential w' ∧
        ∀ entry ∈ w.store.listPending, Replayable hashRunnerCredential entry w')
      ?_ ⟨hw, hentries⟩)
    (fun _ _ h => h.1) (fun _ _ h => h)
  rintro entry hentry w₁ ⟨hw₁, hentries₁⟩
  have hbody : KeepsStep hashRunnerCredential host (replayEntry codec config entry) w₁ :=
    keepsStep_replayEntry hinjective hw₁ (hentries₁ entry hentry)
  refine (hbody.frame ?_ hentries₁).mono (fun _ _ h => h) (fun _ _ h => h.1)
  intro w' op hentries' hguarantee _ other hother
  obtain ⟨htoken, hspent⟩ := hentries' other hother
  exact ⟨answer_hasToken _ op w' htoken,
    fun hreason => answer_spentRow host hinjective hguarantee.1 (hspent hreason) op⟩

theorem keepsStep_daemonMethod
    (hinjective : Function.Injective hashRunnerCredential)
    (method : DaemonMethod) {w : RunnerState codec (Network × ρ)}
    (hw : InStep hashRunnerCredential w) :
    KeepsStep hashRunnerCredential host (method.program codec config) w := by
  cases method with
  | processOnce => exact keepsStep_processOnce hinjective hw
  | replayPendingAcknowledgements =>
      exact keepsStep_replayPendingAcknowledgements hinjective hw
  | start =>
      simp only [DaemonMethod.program, start, KeepsStep, Program.bind_eq]
      rw [Program.safe_bind]
      refine (keepsStep_recover hinjective hw).mono ?_ (fun _ _ h => h)
      intro _ w₁ hw₁
      exact keepsStep_replayPendingAcknowledgements hinjective hw₁

end Methods

/-! ## Every listed row is heartbeated -/

section Heartbeats

variable {codec : Codec} {ω : Type} {config : DaemonConfig} {surroundings : Surroundings ω}

/-- Nothing that `recover` does before its heartbeat with the token ends it. -/
def ReachesHeartbeat (config : DaemonConfig) (surroundings : Surroundings ω)
    (w : RunnerState codec ω) (j : Uuid) (t : String) : Prop :=
  ∀ before y after,
    Program.steps (answer surroundings) (recover codec config) w = before ++ y :: after →
    (∀ z ∈ before ++ [y], z.2 ≠ .heartbeat .recover j t) →
    endsRecovery surroundings y.1 y.2 = false

/-- A recovery that nothing ends earlier sends a heartbeat for a claimed row. -/
theorem recover_heartbeats
    {w : RunnerState codec ω} {row : LocalJob}
    (hreaches : ReachesHeartbeat config surroundings w row.jobId row.leaseToken)
    (hrow : row ∈ w.store.listClaimed) :
    ∃ w', (w', .heartbeat .recover row.jobId row.leaseToken) ∈
      Program.steps (answer surroundings) (recover codec config) w := by
  by_contra hnone
  -- Without the heartbeat nothing ends the recovery, so it returns.
  have hreturns : (Program.run (answer surroundings) (recover codec config) w).1.isOk = true := by
    rw [raisesAt_recover config surroundings w, List.all_eq_true]
    intro y hy
    obtain ⟨before, after, hsplit⟩ := List.append_of_mem hy
    have hmem : ∀ z ∈ before ++ [y],
        z ∈ Program.steps (answer surroundings) (recover codec config) w := by
      intro z hz
      rw [hsplit, ← List.singleton_append, ← List.append_assoc]
      exact List.mem_append_left _ hz
    rw [hreaches before y after hsplit ?_]
    · rfl
    · intro z hz hop
      exact hnone ⟨z.1, hop ▸ hmem z hz⟩
  have hlisted :
      ∃ w₁, Program.run (answer surroundings) (askStore .listClaimed) w =
        (.ok w.store.listClaimed, w₁) := by
    have hrun := run_askStore surroundings .listClaimed w
    rcases answer_store_cases surroundings .listClaimed w with
      ⟨jobs, store, _, happly, hanswer⟩ | ⟨e, hanswer⟩
    · cases happly
      exact ⟨_, hrun.trans hanswer⟩
    · rw [hanswer] at hrun
      unfold recover at hreturns
      rw [Program.bind_eq, Program.run_bind, hrun] at hreturns
      cases hreturns
  obtain ⟨w₁, hlisted⟩ := hlisted
  apply hnone
  unfold recover at hreturns ⊢
  rw [Program.bind_eq, Program.run_bind, hlisted] at hreturns
  rw [Program.bind_eq, Program.steps_bind, hlisted]
  obtain ⟨w', hw'⟩ := Program.steps_forEach_of_ok hreturns hrow
  refine ⟨w', List.mem_append_right _ (hw' _ ?_)⟩
  -- The heartbeat is the first operation of the body.
  exact List.mem_cons_self

end Heartbeats

/-! ## Runs -/

section Runs

variable {codec : Codec} {ρ : Type}

/-- The envelope an operation records. -/
def recordedEnvelope? : DaemonOp → Option JobEnvelope
  | .store (.recordClaimed e) => some e
  | _ => none

/-- The token of the envelope, if the operation records one of the job. -/
def recordedToken? (j : Uuid) (op : DaemonOp) : Option String :=
  ((recordedEnvelope? op).filter (fun e => e.jobId = j)).map JobEnvelope.leaseToken

/-- The token of the envelope that was recorded last for the job. -/
def lastRecorded {ω : Type} (past : List (RunnerState codec ω × DaemonOp)) (j : Uuid) :
    Option String :=
  (past.filterMap (fun x => recordedToken? j x.2)).getLast?

theorem recordedToken?_eq_some
    {j : Uuid} {op : DaemonOp} {t : String}
    (h : recordedToken? j op = some t) :
    ∃ e, op = .store (.recordClaimed e) ∧ e.jobId = j ∧ e.leaseToken = t := by
  obtain ⟨e, he, htoken⟩ := Option.map_eq_some_iff.mp h
  obtain ⟨hrecorded, hjob⟩ := Option.filter_eq_some_iff.mp he
  cases op with
  | store op =>
      cases op with
      | recordClaimed e' =>
          cases hrecorded
          exact ⟨e, rfl, of_decide_eq_true hjob, htoken⟩
      | _ => cases hrecorded
  | _ => cases hrecorded

theorem lastRecorded_append
    {ω : Type} (past : List (RunnerState codec ω × DaemonOp)) (w : RunnerState codec ω)
    (op : DaemonOp) (j : Uuid) :
    lastRecorded (past ++ [(w, op)]) j =
      (recordedToken? j op).or (lastRecorded past j) := by
  unfold lastRecorded
  rw [List.filterMap_append]
  cases htoken : recordedToken? j op with
  | none => simp [htoken]
  | some t => simp [htoken]

variable {hashRunnerCredential : String → String} {config : DaemonConfig} {host : Host ρ}

/-- The row of a job carries the token that was recorded last, in a run that meets the lease. -/
theorem runSteps_hasToken
    {w : RunnerState codec (Network × ρ)} {commands : List DaemonCommand}
    (hmeets : ∀ x ∈ runSteps config (networked hashRunnerCredential host) w commands,
      meetsLease hashRunnerCredential x.1 x.2 = true)
    {before after : List (RunnerState codec (Network × ρ) × DaemonOp)}
    {x : RunnerState codec (Network × ρ) × DaemonOp}
    (hsplit : runSteps config (networked hashRunnerCredential host) w commands =
      before ++ x :: after)
    {j : Uuid} {t : String}
    (hlast : lastRecorded before j = some t) :
    HasToken x.1.store j t := by
  have hop :
      ∀ past (w' : RunnerState codec (Network × ρ)) op,
        (lastRecorded past j = some t → HasToken w'.store j t) →
        meetsLease hashRunnerCredential w' op = true →
        lastRecorded (past ++ [(w', op)]) j = some t →
          HasToken (answer (networked hashRunnerCredential host) op w').2.store j t := by
    intro past w' op hpast hassumed hrecorded
    rw [lastRecorded_append] at hrecorded
    cases htoken : recordedToken? j op with
    | none =>
        rw [htoken, Option.none_or] at hrecorded
        exact answer_hasToken _ op w' (hpast hrecorded)
    | some t' =>
        rw [htoken, Option.some_or] at hrecorded
        cases hrecorded
        obtain ⟨e, rfl, hjob, rfl⟩ := recordedToken?_eq_some htoken
        have hcarries :=
          carriesLease_recordClaimed (networked hashRunnerCredential host) w' e
        rw [show recordable w' e = true from hassumed] at hcarries
        rw [← hjob]
        exact hasToken_of_carriesLease hcarries
  have hnone : lastRecorded ([] : List (RunnerState codec (Network × ρ) × DaemonOp)) j =
      some t → HasToken w.store j t := by
    rintro ⟨⟩
  have hbefore : ∀ y ∈ before, meetsLease hashRunnerCredential y.1 y.2 = true := by
    intro y hy
    refine hmeets y ?_
    rw [hsplit]
    exact List.mem_append_left _ hy
  exact runSteps_history
    (R := fun past w' => lastRecorded past j = some t → HasToken w'.store j t)
    hop (fun _ _ _ _ hpast => hpast) commands hnone hsplit hbefore hlast

/-- A process on an empty store is in step with any plane. -/
theorem inStep_of_empty
    {w : RunnerState codec (Network × ρ)}
    (hempty : w.store = .empty codec)
    (hhonest : HonestTurns w.outside.1.turns) :
    InStep hashRunnerCredential w := by
  unfold InStep
  rw [hempty]
  refine ⟨hhonest, ?_, ?_, ?_⟩
  · rintro j t ⟨row, hrow, _⟩
    cases hrow
  · intro j row hrow
    cases hrow
  · intro row hrow
    cases hrow

/--
`record_claimed` leaves the row under the envelope's token exactly when there was no
row and one could be written, or the row was claimed under that token already.  In a
run that meets the lease, a token that was recorded last for its job and that the
plane calls active is the token of a claimed row: recovery sends its heartbeat with
it, unless something before that ends it, and with no other, and the job is not abandoned.
-/
theorem recorded_lease_recovered
    (hashRunnerCredential : String → String)
    (hinjective : Function.Injective hashRunnerCredential)
    (codec : Codec) (config : DaemonConfig) (host : Host ρ)
    (w : RunnerState codec (Network × ρ)) :
    (∀ e, carriesLease
        (answer (networked hashRunnerCredential host) (.store (.recordClaimed e)) w).2 e = true ↔
      recordable w e = true) ∧
    (w.store = .empty codec → HonestTurns w.outside.1.turns →
      ∀ commands,
        (∀ x ∈ runSteps config (networked hashRunnerCredential host) w commands,
          meetsLease hashRunnerCredential x.1 x.2 = true) →
        ∀ before x after,
          runSteps config (networked hashRunnerCredential host) w commands =
            before ++ x :: after →
          ∀ j t runnerId,
            lastRecorded before j = some t →
            (heartbeatJob hashRunnerCredential x.1.outside.1.plane runnerId j t).1 = .active →
            (∃ row ∈ x.1.store.listClaimed, row.jobId = j ∧ row.leaseToken = t) ∧
            (ReachesHeartbeat config (networked hashRunnerCredential host) x.1 j t →
              ∃ w', (w', .heartbeat .recover j t) ∈
                Program.steps (answer (networked hashRunnerCredential host))
                  (recover codec config) x.1) ∧
            (∀ t', x.2 = .heartbeat .recover j t' → t' = t) ∧
            x.2 ≠ .store (.markAbandoned j)) := by
  refine ⟨?_, ?_⟩
  · intro e
    rw [carriesLease_recordClaimed]
  · intro hempty hhonest commands hmeets before x after hsplit j t runnerId hlast hactive
    have hguarantee :
        ∀ y ∈ runSteps config (networked hashRunnerCredential host) w commands,
          LeaseGuarantee hashRunnerCredential y.1 y.2 :=
      runSteps_guaranteed
        (fun method w' hw' => keepsStep_daemonMethod hinjective method hw')
        (fun _ _ h => h.1) (fun _ _ _ h => h) commands w
        (inStep_of_empty hempty hhonest) hmeets
    obtain ⟨hstep, hrespects⟩ := hguarantee x (by rw [hsplit]; simp)
    obtain ⟨row, hrow, hrowToken⟩ := runSteps_hasToken hmeets hsplit hlast
    have htoken : HasToken x.1.store j t := ⟨row, hrow, hrowToken⟩
    have hjob : row.jobId = j := Table.key_of_find? hrow
    have hclaimed : row ∈ x.1.store.listClaimed := by
      rw [LocalStore.mem_listClaimed, hjob]
      refine ⟨hrow, ?_⟩
      rcases hstep.rows j row hrow with hstatus | hspent
      · exact hstatus
      · rw [hrowToken] at hspent
        exact absurd hactive (hspent runnerId)
    refine ⟨⟨row, hclaimed, hjob, hrowToken⟩, ?_, ?_, ?_⟩
    · intro hreaches
      rw [← hjob, ← hrowToken] at hreaches ⊢
      exact recover_heartbeats hreaches hclaimed
    · intro t' hop
      rw [hop] at hrespects
      exact hasToken_unique hrespects htoken
    · intro hop
      rw [hop] at hrespects
      exact hrespects.spent htoken runnerId hactive

end Runs

/-- A list at one of its positions. -/
theorem split_at_position
    {α : Type} (xs : List α) (n : Nat) (h : n < xs.length) :
    xs = xs.take n ++ xs.get ⟨n, h⟩ :: xs.drop (n + 1) := by
  calc
    xs = xs.take n ++ xs.drop n := (List.take_append_drop n xs).symm
    _ = xs.take n ++ xs.get ⟨n, h⟩ :: xs.drop (n + 1) := by
      rw [List.drop_eq_getElem_cons h, List.get_eq_getElem]

/-- The acknowledgement is lost, and the process is started again under the same lease. -/
def restartUnderLease : List (RunnerState strictCodec (Network × Unit) × DaemonOp) :=
  runSteps sampleConfig (networked sampleHash quietHost)
    (laptopProcess
      [quietTurn .delivered "lease-1", quietTurn .lostBefore "draw-2",
        quietTurn .delivered "draw-3", quietTurn .delivered "draw-4"])
    [.call .processOnce none, .restart "laptop-credential" true, .call .start none]

/-- The recovery lists the row under the active token, and heartbeats with it. -/
theorem restart_recovers_active_lease :
    ∃ before x after,
      restartUnderLease = before ++ x :: after ∧
        lastRecorded before firstJobId = some "lease-1" ∧
        (heartbeatJob sampleHash x.1.outside.1.plane laptopRunner.runnerId firstJobId
          "lease-1").1 = .active ∧
        (∃ row ∈ x.1.store.listClaimed,
          row.jobId = firstJobId ∧ row.leaseToken = "lease-1") ∧
        ∃ w', (w', .heartbeat .recover firstJobId "lease-1") ∈
          Program.steps (answer (networked sampleHash quietHost))
            (recover strictCodec sampleConfig) x.1 := by
  have hsplit := split_at_position restartUnderLease 6 (by decide)
  have hhonest :
      HonestTurns
        [quietTurn .delivered "lease-1", quietTurn .lostBefore "draw-2",
          quietTurn .delivered "draw-3", quietTurn .delivered "draw-4"] := by
    refine ⟨by decide, ?_⟩
    intro turn hturn workerId tie hworker
    simp only [List.mem_cons, List.not_mem_nil, or_false] at hturn
    rcases hturn with rfl | rfl | rfl | rfl
    · cases hworker
    · cases hworker
    · cases hworker
    · cases hworker
  have hrecovered :=
    (recorded_lease_recovered sampleHash sampleHash_injective strictCodec sampleConfig quietHost
      _).2 rfl hhonest _ (by decide) _ _ _ hsplit firstJobId "lease-1" laptopRunner.runnerId
      (by decide) (by decide)
  refine ⟨_, _, _, hsplit, by decide, by decide, hrecovered.1, hrecovered.2.1 ?_⟩
  have hreaches : ∀ y ∈ Program.steps (answer (networked sampleHash quietHost))
      (recover strictCodec sampleConfig) (restartUnderLease.get ⟨6, by decide⟩).1,
      endsRecovery (networked sampleHash quietHost) y.1 y.2 = false := by
    decide
  intro before y after hsteps _
  exact hreaches y (by rw [hsteps]; simp)

/--
The lease runs out before the restart, the recovery abandons the row, and the next
poll is handed the same job under a new token.
-/
def reclaimedJob : List (RunnerState strictCodec (Network × Unit) × DaemonOp) :=
  runSteps sampleConfig (networked sampleHash quietHost)
    (laptopProcess
      [quietTurn .delivered "lease-1", quietTurn .lostBefore "draw-2",
        { quietTurn .delivered "draw-3" with before := [.advanceClock reviewJobLeaseInterval] },
        quietTurn .delivered "draw-4", quietTurn .delivered "lease-2",
        quietTurn .lostBefore "draw-6"])
    [.call .processOnce none, .restart "laptop-credential" true, .call .start none,
      .call .processOnce none, .restart "laptop-credential" true, .call .start none]

/-- The row keeps the old token, and the next recovery finds nothing to heartbeat. -/
theorem reclaimed_lease_not_recovered :
    ∃ before x after,
      reclaimedJob = before ++ x :: after ∧
        (∃ y ∈ before, ∃ e ∈ recordedEnvelope? y.2,
          carriesLease (answer (networked sampleHash quietHost) y.2 y.1).2 e = false) ∧
        lastRecorded before firstJobId = some "lease-2" ∧
        (heartbeatJob sampleHash x.1.outside.1.plane laptopRunner.runnerId firstJobId
          "lease-2").1 = .active ∧
        x.2 = .store .listClaimed ∧ x.1.store.listClaimed = [] := by
  have hsplit := split_at_position reclaimedJob 18 (by decide)
  exact ⟨_, _, _, hsplit, by decide, by decide, by decide, by decide, by decide⟩

end System
end PrReviewer
