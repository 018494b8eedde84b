import PrReviewer.Runner.Runs

/-!
# A finished result is persisted

`complete_job` acknowledges a result.  When it returns or raises, the control plane
should have accepted the result, or the stored-result path should have marked it
terminal after a claim, or the result should be among the pending acknowledgements.
The client raises three families of exceptions and `complete_job` handles two.
-/

namespace PrReviewer
namespace Runner

open Lib

/-- What a `try` block of an acknowledgement raised. -/
def failureOf : Except PyError Unit → Option PyError
  | .ok _ => none
  | .error e => some e

section CompleteJob

variable {codec : Codec} {ω : Type} (config : DaemonConfig) (surroundings : Surroundings ω)
variable (w : RunnerState codec ω)
variable (jobId : Uuid) (leaseToken : String) (result : JobAcknowledgement)

/-- What the acknowledgement request of `complete_job` returns or raises. -/
def acknowledgeOutcome : Except PyError Unit :=
  received decodeAcknowledge
    (w.post surroundings (.acknowledge w.credential jobId leaseToken result)).1

/-- The state in which the outcome of the acknowledgement is handled. -/
def afterAcknowledge : RunnerState codec ω :=
  (w.post surroundings (.acknowledge w.credential jobId leaseToken result)).2

/-- The step is a claim of the stored-result path, and it was answered. -/
def answeredLanding (x : RunnerState codec ω × DaemonOp) : Bool :=
  x.2 = .claim (.land jobId) ∧
    (received (decodeClaim codec) (x.1.post surroundings (.claim x.1.credential)).1).isOk

/-- Nothing is pending for the job, and its local row, if there is one, is completed. -/
def LocalStore.terminal (store : LocalStore codec) : Bool :=
  !store.holdsPending jobId && (store.get jobId).all (fun job => job.status = .completed)

/-- What should hold when `complete_job` returns or raises. -/
def Persisted : Prop :=
  let steps :=
    Program.steps (answer surroundings) (completeJob codec config jobId leaseToken result) w
  let store :=
    (Program.run (answer surroundings)
      (completeJob codec config jobId leaseToken result) w).2.store
  ((acknowledgeOutcome surroundings w jobId leaseToken result).isOk = true ∧
      (store.get jobId).map LocalJob.status = some .completed) ∨
    ((∃ x ∈ steps, answeredLanding surroundings jobId x = true) ∧
      store.terminal jobId = true) ∨
    result ∈ store.pendingResults jobId

instance : Decidable (Persisted config surroundings w jobId leaseToken result) :=
  inferInstanceAs (Decidable (_ ∨ _ ∨ _))

/-- The outcomes of the acknowledgement and the states in which nothing is lost. -/
def persistable : Bool :=
  decide (result ∈ w.store.pendingResults jobId) ||
    match acknowledgeOutcome surroundings w jobId leaseToken result with
    | .ok _ =>
        (w.onStoreThread && (w.store.get jobId).isSome) ||
          (w.store.get jobId).any (fun job => job.status = .completed)
    | .error .jobProtocolDenied => w.onStoreThread
    | .error .transportError => w.onStoreThread
    | .error _ => false

end CompleteJob

/-! ## What `complete_job` does with the outcome -/

section Clauses

variable {codec : Codec} {ω : Type} {config : DaemonConfig} {surroundings : Surroundings ω}
variable {w : RunnerState codec ω}
variable {jobId : Uuid} {leaseToken : String} {result : JobAcknowledgement}

theorem run_completeJob :
    Program.run (answer surroundings) (completeJob codec config jobId leaseToken result) w =
      Program.run (answer surroundings)
        (completeClauses codec config jobId leaseToken result
          (failureOf (acknowledgeOutcome surroundings w jobId leaseToken result)))
        (afterAcknowledge surroundings w jobId leaseToken result) := by
  unfold acknowledgeOutcome afterAcknowledge
  simp only [completeJob, clientAcknowledge, ask, Program.bind_eq, Program.perform,
    Program.bind, Program.catching, Program.run, answer]
  cases received decodeAcknowledge
      (w.post surroundings (.acknowledge w.credential jobId leaseToken result)).1 with
  | ok _ => rfl
  | error _ => rfl

theorem steps_completeJob :
    Program.steps (answer surroundings) (completeJob codec config jobId leaseToken result) w =
      (w, .acknowledge .complete jobId leaseToken result) ::
        Program.steps (answer surroundings)
          (completeClauses codec config jobId leaseToken result
            (failureOf (acknowledgeOutcome surroundings w jobId leaseToken result)))
          (afterAcknowledge surroundings w jobId leaseToken result) := by
  unfold acknowledgeOutcome afterAcknowledge
  simp only [completeJob, clientAcknowledge, ask, Program.bind_eq, Program.perform,
    Program.bind, Program.catching, Program.steps, answer]
  cases received decodeAcknowledge
      (w.post surroundings (.acknowledge w.credential jobId leaseToken result)).1 with
  | ok _ => rfl
  | error _ => rfl

end Clauses

/-! ## The stored-result path -/

section Landing

variable {codec : Codec} {ω : Type} {config : DaemonConfig} {surroundings : Surroundings ω}
variable {assumed : RunnerState codec ω → DaemonOp → Prop}

/-- The rows still pending for the job are among the entries still to resolve. -/
def Resolving
    (jobId : Uuid) (rest : List PendingAcknowledgement) (w : RunnerState codec ω) : Prop :=
  w.onStoreThread = true ∧
    (w.store.get jobId).all (fun job => job.status = .completed) = true ∧
    ∀ row ∈ w.store.pending.rows, row.jobId = jobId →
      ∃ entry ∈ rest, entry.id = row.id ∧ entry.jobId = jobId

theorem Resolving.terminal
    {jobId : Uuid} {w : RunnerState codec ω}
    (h : Resolving jobId [] w) :
    w.store.terminal jobId = true := by
  have hnone : w.store.holdsPending jobId = false := by
    rw [Bool.eq_false_iff]
    intro hholds
    obtain ⟨row, hrow, hid⟩ := LocalStore.holdsPending_iff.mp hholds
    obtain ⟨entry, hentry, _⟩ := h.2.2 row hrow hid
    cases hentry
  unfold LocalStore.terminal
  rw [hnone, h.2.1]
  rfl

theorem safe_resolve_entry
    {jobId : Uuid} {entry : PendingAcknowledgement} {rest : List PendingAcknowledgement}
    {w : RunnerState codec ω}
    (h : Resolving jobId (entry :: rest) w) :
    Program.Safe (answer surroundings) assumed (fun _ _ => True)
      (if entry.jobId = jobId then askStore (.resolve entry.id) else pure ())
      (fun _ => Resolving jobId rest) (fun _ _ => False) w := by
  by_cases hentry : entry.jobId = jobId
  · rw [if_pos hentry, safe_askStore_of_thread h.1 rfl]
    refine ⟨trivial, fun _ => ⟨h.1, h.2.1, ?_⟩⟩
    intro row hrow hid
    obtain ⟨hrow, hne⟩ := List.mem_filter.mp hrow
    obtain ⟨found, hfound, hsame, hjob⟩ := h.2.2 row hrow hid
    rcases List.mem_cons.mp hfound with rfl | hfound
    · simp [hsame] at hne
    · exact ⟨found, hfound, hsame, hjob⟩
  · rw [if_neg hentry]
    refine ⟨h.1, h.2.1, ?_⟩
    intro row hrow hid
    obtain ⟨found, hfound, hsame, hjob⟩ := h.2.2 row hrow hid
    rcases List.mem_cons.mp hfound with rfl | hfound
    · exact absurd hjob hentry
    · exact ⟨found, hfound, hsame, hjob⟩

theorem safe_markPendingTerminal
    {jobId : Uuid} {w : RunnerState codec ω}
    (hthread : w.onStoreThread = true) :
    Program.Safe (answer surroundings) assumed (fun _ _ => True) (markPendingTerminal jobId)
      (fun _ w' => w'.store.terminal jobId = true) (fun _ _ => False) w := by
  unfold markPendingTerminal
  simp only [Program.bind_eq]
  rw [Program.safe_bind, safe_askStore_of_thread hthread rfl]
  refine ⟨trivial, fun _ => ?_⟩
  rw [Program.safe_bind]
  refine (safe_askStore_of_thread ?_ rfl).mpr ?_
  · exact hthread
  refine ⟨trivial, fun _ => ?_⟩
  refine Program.Safe.mono
    (Program.safe_forEach_rest (I := Resolving jobId)
      (fun entry rest w' hw' => safe_resolve_entry hw') ⟨hthread, ?_, ?_⟩)
    (fun _ _ hw' => hw'.terminal) (fun _ _ hfalse => hfalse)
  · change (((w.store.setStatus jobId .completed).get jobId).all
      (fun job => job.status = .completed)) = true
    rw [LocalStore.get_setStatus, if_pos rfl]
    cases w.store.get jobId with
    | none => rfl
    | some job => rfl
  · intro row hrow hid
    exact ⟨rowToPending row, LocalStore.mem_listPending.mpr ⟨row, hrow, rfl⟩, rfl, hid⟩

/-- The result is still stored, or the job was settled after an answered claim. -/
def Landed
    (answeredClaim : Prop) (jobId : Uuid) (result : JobAcknowledgement)
    (w : RunnerState codec ω) : Prop :=
  result ∈ w.store.pendingResults jobId ∨ (answeredClaim ∧ w.store.terminal jobId = true)

theorem safe_landPendingResult
    {answeredClaim : Prop} {jobId : Uuid} {result : JobAcknowledgement}
    {w : RunnerState codec ω}
    (hclaim : ∀ w', assumed w' (.claim (.land jobId)) →
      answeredLanding surroundings jobId (w', .claim (.land jobId)) = true → answeredClaim)
    (hthread : w.onStoreThread = true)
    (hstored : result ∈ w.store.pendingResults jobId) :
    Program.Safe (answer surroundings) assumed (fun _ _ => True)
      (landPendingResult codec config jobId result)
      (fun _ => Landed answeredClaim jobId result)
      (fun _ => Landed answeredClaim jobId result) w := by
  -- the result is stored until the job is marked terminal
  have hrefresh :
      Program.Safe (answer surroundings) assumed (fun _ _ => True) (refreshCredential config)
        (fun _ w₁ => w₁.store = w.store ∧ w₁.onStoreThread = w.onStoreThread)
        (fun _ w₁ => w₁.store = w.store ∧ w₁.onStoreThread = w.onStoreThread) w :=
    safe_of_without_store (refreshCredential_only rfl (fun _ => rfl)) (fun _ _ _ _ _ => trivial)
  have hanswered : ∀ w₁ claimed, assumed w₁ (.claim (.land jobId)) →
      received (decodeClaim codec) (w₁.post surroundings (.claim w₁.credential)).1 =
        .ok claimed →
      answeredClaim := by
    intro w₁ claimed hassumed hreceived
    refine hclaim w₁ hassumed ?_
    unfold answeredLanding
    rw [hreceived]
    simp [Except.isOk, Except.toBool]
  refine safe_landPendingResult_of
    (R := fun w₁ => result ∈ w₁.store.pendingResults jobId ∧ w₁.onStoreThread = true)
    (T := fun w₁ => answeredClaim ∧ w₁.onStoreThread = true)
    (hrefresh.mono ?_ ?_) (fun _ _ => trivial) ?_ ?_ ?_ ?_ ?_ ?_
  · intro _ w₁ hw₁
    rw [hw₁.1, hw₁.2]
    exact ⟨hstored, hthread⟩
  · intro _ w₁ hw₁
    refine .inl ?_
    rw [hw₁.1]
    exact hstored
  · intro w₁ e hw₁ _ _
    exact ⟨.inl hw₁.1, .inl hw₁.1⟩
  · intro w₁ hw₁ hassumed hreceived
    exact ⟨hanswered w₁ _ hassumed hreceived, hw₁.2⟩
  · intro w₁ reason hw₁ hassumed hreceived
    refine (safe_of_without_store (noteIfRevoked_only (by rfl) reason)
      (fun _ _ _ _ _ => trivial)).mono ?_ ?_
    · intro _ w₂ hw₂
      exact ⟨hanswered w₁ _ hassumed hreceived, hw₂.2.trans hw₁.2⟩
    · intro _ w₂ hw₂
      refine .inl ?_
      rw [hw₂.1]
      exact hw₁.1
  · intro w₁ job hw₁ hassumed hreceived _
    rw [safe_clientAcknowledge]
    refine ⟨trivial, fun _ => ?_⟩
    split
    · exact ⟨hanswered w₁ _ hassumed hreceived, hw₁.2⟩
    · exact ⟨.inl hw₁.1, .inl hw₁.1⟩
  · intro w₁ job hw₁ hassumed hreceived _
    exact safe_recordClaimed_of_thread hw₁.2 trivial
      (fun _ _ => ⟨hanswered w₁ _ hassumed hreceived, hw₁.2⟩) (fun _ _ => .inl hw₁.1)
  · intro w₁ hw₁
    exact (safe_markPendingTerminal hw₁.2).mono (fun _ _ h => .inr ⟨hw₁.1, h⟩)
      (fun _ _ h => h.elim)

end Landing

/-! ## When nothing is lost -/

section Persisted

variable {codec : Codec} {ω : Type} {config : DaemonConfig} {surroundings : Surroundings ω}
variable {w : RunnerState codec ω}
variable {jobId : Uuid} {leaseToken : String} {result : JobAcknowledgement}

variable (surroundings) in
theorem run_askStore_off_thread
    (op : StoreOp)
    (hthread : w.onStoreThread = false) :
    Program.run (answer surroundings) (askStore op) w = (.error .programmingError, w) ∧
      Program.steps (answer surroundings) (askStore op) w = [(w, .store op)] := by
  have hanswer :
      answer surroundings (.store op) w = (.error .programmingError, w) := by
    simp only [answer]
    rw [hthread]
    rfl
  simp only [askStore, ask, Program.bind_eq, Program.perform, Program.bind, Program.run,
    Program.steps, hanswer, Program.ofExcept]
  exact ⟨trivial, trivial⟩

/-- Where the store is left as it was and no claim is made, only what was there counts. -/
theorem persisted_iff_of_stopped
    (hstore :
      (Program.run (answer surroundings)
        (completeJob codec config jobId leaseToken result) w).2.store = w.store)
    (hsteps : ∀ x ∈ Program.steps (answer surroundings)
        (completeJob codec config jobId leaseToken result) w,
      x.2 ≠ .claim (.land jobId)) :
    Persisted config surroundings w jobId leaseToken result ↔
      ((acknowledgeOutcome surroundings w jobId leaseToken result).isOk = true ∧
          (w.store.get jobId).map LocalJob.status = some .completed) ∨
        result ∈ w.store.pendingResults jobId := by
  unfold Persisted
  simp only [hstore]
  constructor
  · rintro (haccepted | ⟨⟨x, hx, hlanding⟩, _⟩ | hpending)
    · exact .inl haccepted
    · unfold answeredLanding at hlanding
      rw [decide_eq_true_eq] at hlanding
      exact absurd hlanding.1 (hsteps x hx)
    · exact .inr hpending
  · rintro (haccepted | hpending)
    · exact .inl haccepted
    · exact .inr (.inr hpending)

/-- On another thread the first use of the store raises. -/
theorem persisted_iff_off_thread
    (hthread : w.onStoreThread = false) :
    Persisted config surroundings w jobId leaseToken result ↔
      ((acknowledgeOutcome surroundings w jobId leaseToken result).isOk = true ∧
          (w.store.get jobId).map LocalJob.status = some .completed) ∨
        result ∈ w.store.pendingResults jobId := by
  have hafter :
      (afterAcknowledge surroundings w jobId leaseToken result).onStoreThread = false :=
    hthread
  have hstops :
      (Program.run (answer surroundings)
          (completeClauses codec config jobId leaseToken result
            (failureOf (acknowledgeOutcome surroundings w jobId leaseToken result)))
          (afterAcknowledge surroundings w jobId leaseToken result)).2 =
        afterAcknowledge surroundings w jobId leaseToken result ∧
      ∀ x ∈ Program.steps (answer surroundings)
          (completeClauses codec config jobId leaseToken result
            (failureOf (acknowledgeOutcome surroundings w jobId leaseToken result)))
          (afterAcknowledge surroundings w jobId leaseToken result),
        x.2 ≠ .claim (.land jobId) := by
    cases failureOf (acknowledgeOutcome surroundings w jobId leaseToken result) with
    | none =>
        obtain ⟨hrun, hsteps⟩ :=
          run_askStore_off_thread surroundings (.markCompleted jobId) hafter
        simp only [completeClauses, hrun, hsteps]
        simp
    | some e =>
        cases e with
        | jobProtocolDenied =>
            obtain ⟨hrun, hsteps⟩ :=
              run_askStore_off_thread surroundings
                (.recordPending jobId leaseToken result .invalidOrExpired) hafter
            simp only [completeClauses, Program.bind_eq, Program.run_bind,
              Program.steps_bind, hrun, hsteps]
            simp
        | transportError =>
            obtain ⟨hrun, hsteps⟩ :=
              run_askStore_off_thread surroundings
                (.recordPending jobId leaseToken result .networkUnreachable) hafter
            simp only [completeClauses, Program.bind_eq, Program.run_bind,
              Program.steps_bind, hrun, hsteps]
            simp
        | _ => simp [completeClauses, Program.steps]
  refine persisted_iff_of_stopped ?_ ?_
  · rw [run_completeJob, hstops.1]
    rfl
  · intro x hx
    rw [steps_completeJob, List.mem_cons] at hx
    rcases hx with rfl | hx
    · simp
    · exact hstops.2 x hx

/-- An outcome that no clause handles passes through. -/
theorem persisted_iff_of_unhandled
    {e : PyError}
    (houtcome : acknowledgeOutcome surroundings w jobId leaseToken result = .error e)
    (hdenied : e ≠ .jobProtocolDenied)
    (htransport : e ≠ .transportError) :
    Persisted config surroundings w jobId leaseToken result ↔
      result ∈ w.store.pendingResults jobId := by
  have hclauses :
      completeClauses codec config jobId leaseToken result (some e) = Program.raise e := by
    cases e with
    | jobProtocolDenied => exact absurd rfl hdenied
    | transportError => exact absurd rfl htransport
    | _ => rfl
  rw [persisted_iff_of_stopped, houtcome]
  · simp [Except.isOk, Except.toBool]
  · rw [run_completeJob, houtcome, failureOf, hclauses]
    rfl
  · intro x hx
    rw [steps_completeJob, houtcome, failureOf, hclauses, List.mem_cons] at hx
    rcases hx with rfl | hx
    · simp
    · cases hx

/-- An accepted result completes the local row. -/
theorem persisted_iff_of_accepted
    (hthread : w.onStoreThread = true)
    (houtcome : acknowledgeOutcome surroundings w jobId leaseToken result = .ok ()) :
    Persisted config surroundings w jobId leaseToken result ↔
      (w.store.get jobId).isSome = true ∨ result ∈ w.store.pendingResults jobId := by
  have hanswer :
      answer surroundings (.store (.markCompleted jobId))
          (afterAcknowledge surroundings w jobId leaseToken result) =
        (.ok (),
          { afterAcknowledge surroundings w jobId leaseToken result with
            store := w.store.markCompleted jobId
            outside :=
              (surroundings.clock
                (afterAcknowledge surroundings w jobId leaseToken result).outside).2 }) := by
    have hafter :
        (afterAcknowledge surroundings w jobId leaseToken result).onStoreThread = true :=
      hthread
    simp only [answer]
    rw [if_pos hafter]
    rfl
  have hstore :
      (Program.run (answer surroundings)
        (completeJob codec config jobId leaseToken result) w).2.store =
      w.store.markCompleted jobId := by
    rw [run_completeJob, houtcome]
    simp only [failureOf, completeClauses, askStore, ask, Program.bind_eq, Program.perform,
      Program.bind, Program.run, hanswer, Program.ofExcept]
  have hsteps :
      Program.steps (answer surroundings)
          (completeJob codec config jobId leaseToken result) w =
        [(w, .acknowledge .complete jobId leaseToken result),
          (afterAcknowledge surroundings w jobId leaseToken result,
            .store (.markCompleted jobId))] := by
    rw [steps_completeJob, houtcome]
    simp only [failureOf, completeClauses, askStore, ask, Program.bind_eq, Program.perform,
      Program.bind, Program.steps, hanswer, Program.ofExcept]
  have hget :
      ((w.store.markCompleted jobId).get jobId).map LocalJob.status = some .completed ↔
        (w.store.get jobId).isSome = true := by
    unfold LocalStore.markCompleted
    rw [LocalStore.get_setStatus, if_pos rfl]
    cases w.store.get jobId with
    | none => simp
    | some job => simp
  have hpending :
      (w.store.markCompleted jobId).pendingResults jobId = w.store.pendingResults jobId :=
    rfl
  unfold Persisted
  simp only [hstore, hsteps, houtcome, hget, hpending]
  simp [answeredLanding, Except.isOk, Except.toBool]

/-- A denied result is stored and then landed, or kept. -/
theorem persisted_of_denied
    (hthread : w.onStoreThread = true)
    (houtcome :
      acknowledgeOutcome surroundings w jobId leaseToken result = .error .jobProtocolDenied) :
    Persisted config surroundings w jobId leaseToken result := by
  have hsafe :
      Program.Safe (answer surroundings)
        (fun w' op => (w', op) ∈ Program.steps (answer surroundings)
          (completeJob codec config jobId leaseToken result) w)
        (fun _ _ => True)
        (completeClauses codec config jobId leaseToken result (some .jobProtocolDenied))
        (fun _ => Landed
          (∃ x ∈ Program.steps (answer surroundings)
            (completeJob codec config jobId leaseToken result) w,
            answeredLanding surroundings jobId x = true) jobId result)
        (fun _ => Landed
          (∃ x ∈ Program.steps (answer surroundings)
            (completeJob codec config jobId leaseToken result) w,
            answeredLanding surroundings jobId x = true) jobId result)
        (afterAcknowledge surroundings w jobId leaseToken result) := by
    simp only [completeClauses, Program.bind_eq]
    rw [Program.safe_bind]
    refine (safe_askStore_of_thread ?_ rfl).mpr ?_
    · exact hthread
    refine ⟨trivial, fun _ => ?_⟩
    refine safe_landPendingResult ?_ hthread ?_
    · intro w' hw' hanswered
      exact ⟨_, hw', hanswered⟩
    · exact LocalStore.mem_pendingResults_recordPending _ jobId leaseToken result _ _
  have hend := hsafe.outcome (fun x hx => by
    rw [steps_completeJob, houtcome]
    exact List.mem_cons_of_mem _ hx)
  have hlanded :
      Landed
        (∃ x ∈ Program.steps (answer surroundings)
          (completeJob codec config jobId leaseToken result) w,
          answeredLanding surroundings jobId x = true) jobId result
        (Program.run (answer surroundings)
          (completeJob codec config jobId leaseToken result) w).2 := by
    rw [run_completeJob, houtcome, failureOf]
    split at hend
    · next hrun =>
        rw [hrun]
        exact hend
    · next hrun =>
        rw [hrun]
        exact hend
  unfold Persisted
  rcases hlanded with hpending | hterminal
  · exact .inr (.inr hpending)
  · exact .inr (.inl hterminal)

/-- A result that met a transport error is stored before the error is raised again. -/
theorem persisted_of_transportError
    (hthread : w.onStoreThread = true)
    (houtcome :
      acknowledgeOutcome surroundings w jobId leaseToken result = .error .transportError) :
    Persisted config surroundings w jobId leaseToken result := by
  have hafter :
      (afterAcknowledge surroundings w jobId leaseToken result).onStoreThread = true :=
    hthread
  unfold Persisted
  refine .inr (.inr ?_)
  rw [run_completeJob, houtcome]
  simp only [failureOf, completeClauses, askStore, ask, Program.bind_eq, Program.perform,
    Program.bind, Program.run, answer]
  rw [if_pos hafter]
  exact LocalStore.mem_pendingResults_recordPending _ jobId leaseToken result _ _

/--
`complete_job` loses nothing exactly when the outcome of the acknowledgement is one
its clauses handle, on the thread of the store, and an accepted job has its local
row; or when an equal result was pending before.
-/
theorem completeJob_persists_iff
    (config : DaemonConfig) (surroundings : Surroundings ω) (w : RunnerState codec ω)
    (jobId : Uuid) (leaseToken : String) (result : JobAcknowledgement) :
    Persisted config surroundings w jobId leaseToken result ↔
      persistable surroundings w jobId leaseToken result = true := by
  unfold persistable
  rw [Bool.or_eq_true, decide_eq_true_eq]
  cases hthread : w.onStoreThread with
  | false =>
      rw [persisted_iff_off_thread hthread]
      cases hget : w.store.get jobId with
      | none =>
          cases acknowledgeOutcome surroundings w jobId leaseToken result with
          | ok _ => simp
          | error e =>
              cases e with
              | _ => simp
      | some job =>
          cases acknowledgeOutcome surroundings w jobId leaseToken result with
          | ok _ => simp [Except.isOk, Except.toBool, or_comm]
          | error e =>
              cases e with
              | _ => simp [Except.isOk, Except.toBool]
  | true =>
      cases houtcome : acknowledgeOutcome surroundings w jobId leaseToken result with
      | ok _ =>
          rw [persisted_iff_of_accepted hthread houtcome]
          cases hget : w.store.get jobId with
          | none => simp
          | some job => simp
      | error e =>
          cases e with
          | jobProtocolDenied => simp [persisted_of_denied hthread houtcome]
          | transportError => simp [persisted_of_transportError hthread houtcome]
          | _ => simp [persisted_iff_of_unhandled houtcome (by simp) (by simp)]

end Persisted

/-- A process that has claimed the sample job, and the answers it will meet. -/
def claimedProcess (script : List Outcome) : RunnerState strictCodec (List Outcome) :=
  { freshProcess strictCodec script with
    store := (LocalStore.empty strictCodec).recordClaimed firstEnvelope 0 }

/-- A 500 on the acknowledgement raises `HTTPStatusError`, which no clause handles. -/
theorem server_error_loses_result :
    ¬ Persisted sampleConfig (scripted (some sampleResult))
      (claimedProcess [answered 500 (.obj [("detail", .str "Internal Server Error")])])
      sampleJobId "first" sampleResult := by
  decide

end Runner
end PrReviewer
