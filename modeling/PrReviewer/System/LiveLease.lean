import PrReviewer.System.SpentTokens
import PrReviewer.Runner.CompleteJob

/-!
# The local row and the live lease

`record_claimed` is an insert-or-ignore keyed by the job, so a row that is already
there keeps its token and its status.  The row carries the token of the envelope
exactly when there was no row, or one that is still claimed under the same token.

In a run whose claims all meet that condition, and whose heartbeats and
acknowledgements are authenticated as the holder of the lease, the local row is in
step with the plane: a row that is no longer claimed has a spent token.  Recovery
then heartbeats with the token the plane knows, and does not abandon an active job.
-/

namespace PrReviewer
namespace System

open Lib Hosted Runner

/-! ## One call of `record_claimed` -/

section RecordClaimed

variable {codec : Codec} {ω : Type}

/-- The row of the envelope's job is claimed under the envelope's token. -/
def carriesLease (w : RunnerState codec ω) (e : JobEnvelope) : Bool :=
  (w.store.get e.jobId).any
    (fun row => row.status = .claimed ∧ row.leaseToken = e.leaseToken)

/-- There is no row yet and one can be written, or the row already carries the lease. -/
def recordable (w : RunnerState codec ω) (e : JobEnvelope) : Bool :=
  match w.store.get e.jobId with
  | none => w.onStoreThread && fitsLocalJobs e
  | some row => row.status = .claimed ∧ row.leaseToken = e.leaseToken

theorem carriesLease_recordClaimed
    (surroundings : Surroundings ω) (w : RunnerState codec ω) (e : JobEnvelope) :
    carriesLease (answer surroundings (.store (.recordClaimed e)) w).2 e = recordable w e := by
  rcases answer_store_cases surroundings (.recordClaimed e) w with
    ⟨result, store, hthread, happly, hanswer⟩ | ⟨error, hanswer⟩
  · rw [hanswer]
    simp only [applyStore] at happly
    by_cases hfits : fitsLocalJobs e = true
    · rw [if_pos hfits] at happly
      cases happly
      unfold carriesLease recordable
      simp only [LocalStore.get_recordClaimed, if_true]
      cases hget : w.store.get e.jobId with
      | none => simp [hthread, hfits, LocalJob.leaseToken]
      | some row => simp
    · rw [if_neg hfits] at happly
      cases happly
  · have hrefused : w.onStoreThread = false ∨ fitsLocalJobs e = false := by
      by_contra hboth
      rw [not_or, Bool.not_eq_false, Bool.not_eq_false] at hboth
      simp [answer, applyStore, hboth.1, hboth.2] at hanswer
    rw [hanswer]
    unfold carriesLease recordable
    cases hget : w.store.get e.jobId with
    | none =>
        rcases hrefused with hthread | hfits
        · simp [hthread]
        · simp [hfits]
    | some row => simp

end RecordClaimed

/-! ## The store in step with the plane -/

section Kept

variable {codec : Codec}

/-- The row of the job carries the token. -/
def HasToken (store : LocalStore codec) (j : Uuid) (t : String) : Prop :=
  ∃ row, store.get j = some row ∧ row.leaseToken = t

variable (hashRunnerCredential : String → String)

/--
A row that is not claimed any more has a spent token, and so has an acknowledgement
that was denied; the tokens of the rows are not drawn again.
-/
structure Kept (store : LocalStore codec) (n : Network) : Prop where
  honest : HonestTurns n.turns
  fresh : ∀ j t, HasToken store j t → t ∉ drawsOf n.turns
  rows : ∀ j row, store.get j = some row →
    row.status = .claimed ∨ Spent hashRunnerCredential n.plane j row.leaseToken
  pending : ∀ row ∈ store.pending.rows,
    HasToken store row.jobId row.leaseToken ∧
      (row.reason = .invalidOrExpired →
        Spent hashRunnerCredential n.plane row.jobId row.leaseToken)

variable {hashRunnerCredential} {store : LocalStore codec} {n : Network}

/-- A turn of the network keeps it. -/
theorem Kept.send
    (hinjective : Function.Injective hashRunnerCredential)
    (h : Kept hashRunnerCredential store n) (request : Request) :
    Kept hashRunnerCredential store (n.send hashRunnerCredential request).2 := by
  have hspent : ∀ j t, HasToken store j t → Spent hashRunnerCredential n.plane j t →
      Spent hashRunnerCredential (n.send hashRunnerCredential request).2.plane j t := by
    intro j t htoken hspent
    exact Network.send_spent hinjective h.honest (h.fresh j t htoken) request hspent
  refine ⟨?_, ?_, ?_, ?_⟩
  · rw [Network.send_turns]
    exact h.honest.tail
  · intro j t htoken
    rw [Network.send_turns]
    exact not_mem_drawsOf_tail (h.fresh j t htoken)
  · intro j row hrow
    rcases h.rows j row hrow with hclaimed | hrowSpent
    · exact .inl hclaimed
    · exact .inr (hspent j row.leaseToken ⟨row, hrow, rfl⟩ hrowSpent)
  · intro row hrow
    obtain ⟨htoken, hdenied⟩ := h.pending row hrow
    exact ⟨htoken, fun hreason => hspent _ _ htoken (hdenied hreason)⟩

theorem hasToken_of_carriesLease
    {ω : Type} {w : RunnerState codec ω} {e : JobEnvelope}
    (h : carriesLease w e = true) :
    HasToken w.store e.jobId e.leaseToken := by
  obtain ⟨row, hrow, hboth⟩ := (Option.any_eq_true _ _).mp h
  exact ⟨row, hrow, (of_decide_eq_true hboth).2⟩

theorem hasToken_setStatus
    {j k : Uuid} {t : String} {status : LocalJobStatus} :
    HasToken (store.setStatus k status) j t ↔ HasToken store j t := by
  unfold HasToken
  rw [LocalStore.get_setStatus]
  by_cases hj : j = k
  · rw [if_pos hj]
    cases hget : store.get j with
    | none => simp
    | some row => simp [LocalJob.leaseToken]
  · rw [if_neg hj]

theorem hasToken_recordClaimed
    {j : Uuid} {t : String} (job : JobEnvelope) (now : Nat)
    (h : HasToken store j t) :
    HasToken (store.recordClaimed job now) j t := by
  obtain ⟨row, hrow, htoken⟩ := h
  refine ⟨row, ?_, htoken⟩
  rw [LocalStore.get_recordClaimed, hrow]
  split
  · rfl
  · rfl

/-- A row may leave the claimed ones when its token is spent. -/
theorem Kept.setStatus
    (h : Kept hashRunnerCredential store n) {k : Uuid} {status : LocalJobStatus}
    (hspent : ∀ t, HasToken store k t → Spent hashRunnerCredential n.plane k t) :
    Kept hashRunnerCredential (store.setStatus k status) n := by
  refine ⟨h.honest, ?_, ?_, ?_⟩
  · intro j t htoken
    exact h.fresh j t (hasToken_setStatus.mp htoken)
  · intro j row hrow
    have htoken : HasToken store j row.leaseToken :=
      hasToken_setStatus.mp ⟨row, hrow, rfl⟩
    rw [LocalStore.get_setStatus] at hrow
    by_cases hj : j = k
    · subst hj
      exact .inr (hspent row.leaseToken htoken)
    · rw [if_neg hj] at hrow
      exact h.rows j row hrow
  · intro row hrow
    obtain ⟨htoken, hdenied⟩ := h.pending row hrow
    exact ⟨hasToken_setStatus.mpr htoken, hdenied⟩

/-- A new row carries a token that is not drawn again. -/
theorem Kept.recordClaimed
    (h : Kept hashRunnerCredential store n) {job : JobEnvelope}
    (hfresh : job.leaseToken ∉ drawsOf n.turns) (now : Nat) :
    Kept hashRunnerCredential (store.recordClaimed job now) n := by
  have hrow' : ∀ j row, (store.recordClaimed job now).get j = some row →
      store.get j = some row ∨
        (row.status = .claimed ∧ row.leaseToken = job.leaseToken) := by
    intro j row hrow
    rw [LocalStore.get_recordClaimed] at hrow
    split at hrow
    · cases hget : store.get j with
      | none =>
          rw [hget] at hrow
          cases hrow
          exact .inr ⟨rfl, rfl⟩
      | some old =>
          rw [hget] at hrow
          exact .inl hrow
    · exact .inl hrow
  refine ⟨h.honest, ?_, ?_, ?_⟩
  · rintro j t ⟨row, hrow, rfl⟩
    rcases hrow' j row hrow with hold | ⟨_, htoken⟩
    · exact h.fresh j row.leaseToken ⟨row, hold, rfl⟩
    · rw [htoken]
      exact hfresh
  · intro j row hrow
    rcases hrow' j row hrow with hold | ⟨hclaimed, _⟩
    · exact h.rows j row hold
    · exact .inl hclaimed
  · intro row hrow
    obtain ⟨htoken, hdenied⟩ := h.pending row hrow
    exact ⟨hasToken_recordClaimed job now htoken, hdenied⟩

theorem Kept.recordPending
    (h : Kept hashRunnerCredential store n)
    {jobId : Uuid} {leaseToken : String} {reason : PendingAcknowledgementReason}
    (htoken : HasToken store jobId leaseToken)
    (hdenied : reason = .invalidOrExpired →
      Spent hashRunnerCredential n.plane jobId leaseToken)
    (result : JobAcknowledgement) (now : Nat) :
    Kept hashRunnerCredential (store.recordPending jobId leaseToken result reason now) n := by
  refine ⟨h.honest, h.fresh, h.rows, ?_⟩
  intro row hrow
  rw [LocalStore.rows_recordPending, List.mem_append, List.mem_singleton] at hrow
  rcases hrow with hrow | rfl
  · exact h.pending row hrow
  · exact ⟨htoken, hdenied⟩

theorem Kept.resolve
    (h : Kept hashRunnerCredential store n) (entryId : Nat) :
    Kept hashRunnerCredential (store.resolve entryId) n := by
  refine ⟨h.honest, h.fresh, h.rows, ?_⟩
  intro row hrow
  exact h.pending row (List.mem_filter.mp hrow).1

theorem Kept.bumpAttempt
    (h : Kept hashRunnerCredential store n) (entryId : Nat) :
    Kept hashRunnerCredential (store.bumpAttempt entryId) n := by
  refine ⟨h.honest, h.fresh, h.rows, ?_⟩
  intro row hrow
  obtain ⟨old, hold, _, hjob, htoken, hreason⟩ := LocalStore.of_mem_bumpAttempt hrow
  rw [← hjob, ← htoken, ← hreason]
  exact h.pending old hold

end Kept

/-! ## The operations -/

section Operations

variable {codec : Codec} {ω : Type}

/-- No operation changes the token of a row, or deletes one. -/
theorem answer_hasToken
    (surroundings : Surroundings ω) (op : DaemonOp) (w : RunnerState codec ω)
    {j : Uuid} {t : String}
    (h : HasToken w.store j t) :
    HasToken (answer surroundings op w).2.store j t := by
  cases op with
  | store op =>
      rcases answer_store_cases surroundings op w with
        ⟨result, store, _, happly, hanswer⟩ | ⟨e, hanswer⟩
      · rw [hanswer]
        cases op with
        | recordClaimed job =>
            simp only [applyStore] at happly
            split at happly
            · cases happly
              exact hasToken_recordClaimed job _ h
            · cases happly
        | markAbandoned jobId =>
            cases happly
            exact hasToken_setStatus.mpr h
        | markCompleted jobId =>
            cases happly
            exact hasToken_setStatus.mpr h
        | _ =>
            cases happly
            exact h
      · rw [hanswer]
        exact h
  | _ => exact h

variable {ρ : Type} (hashRunnerCredential : String → String) (host : Host ρ)

/-- An operation leaves the network as it is, or takes one turn of it. -/
theorem answer_network_cases
    (op : DaemonOp) (w : RunnerState codec (Network × ρ)) :
    (answer (networked hashRunnerCredential host) op w).2.outside.1 = w.outside.1 ∨
      ∃ request, (answer (networked hashRunnerCredential host) op w).2.outside.1 =
        (w.outside.1.send hashRunnerCredential request).2 := by
  cases op with
  | claim site => exact .inr ⟨.claim w.credential, rfl⟩
  | heartbeat site jobId leaseToken =>
      exact .inr ⟨.heartbeat w.credential jobId leaseToken, rfl⟩
  | acknowledge site jobId leaseToken result =>
      exact .inr ⟨.acknowledge w.credential jobId leaseToken result, rfl⟩
  | store op => exact .inl (answer_store_network hashRunnerCredential host op w)
  | _ => exact .inl rfl

/-- The store of the process is in step with the plane. -/
def InStep (w : RunnerState codec (Network × ρ)) : Prop :=
  Kept hashRunnerCredential w.store w.outside.1

/-- The row of the job has a token, and that token is spent. -/
def SpentRow (j : Uuid) (w : RunnerState codec (Network × ρ)) : Prop :=
  ∃ t, HasToken w.store j t ∧ Spent hashRunnerCredential w.outside.1.plane j t

/--
What the run is to meet: a claimed envelope can be recorded, and the heartbeat or the
acknowledgement of an active lease is taken to come from its holder.
-/
def meetsLease (w : RunnerState codec (Network × ρ)) : DaemonOp → Bool
  | .store (.recordClaimed e) => recordable w e
  | .heartbeat _ jobId leaseToken =>
      sentByHolder hashRunnerCredential w.outside.1
        (.heartbeat w.credential jobId leaseToken) jobId leaseToken
  | .acknowledge .complete jobId leaseToken result =>
      sentByHolder hashRunnerCredential w.outside.1
        (.acknowledge w.credential jobId leaseToken result) jobId leaseToken
  | _ => true

/-- A row is abandoned only when its token is spent, and recovered only with its token. -/
def RespectsLease (w : RunnerState codec (Network × ρ)) : DaemonOp → Prop
  | .store (.markAbandoned j) => SpentRow hashRunnerCredential j w
  | .heartbeat .recover j t => HasToken w.store j t
  | _ => True

/-- Every operation starts in step, and respects the lease. -/
def LeaseGuarantee (w : RunnerState codec (Network × ρ)) (op : DaemonOp) : Prop :=
  InStep hashRunnerCredential w ∧ RespectsLease hashRunnerCredential w op

variable {hashRunnerCredential} {host}

theorem hasToken_unique
    {store : LocalStore codec} {j : Uuid} {t t' : String}
    (h : HasToken store j t) (h' : HasToken store j t') :
    t = t' := by
  obtain ⟨row, hrow, htoken⟩ := h
  obtain ⟨row', hrow', htoken'⟩ := h'
  rw [hrow] at hrow'
  cases hrow'
  exact htoken.symm.trans htoken'

theorem SpentRow.spent
    {j : Uuid} {t : String} {w : RunnerState codec (Network × ρ)}
    (h : SpentRow hashRunnerCredential j w)
    (htoken : HasToken w.store j t) :
    Spent hashRunnerCredential w.outside.1.plane j t := by
  obtain ⟨t', htoken', hspent⟩ := h
  rw [hasToken_unique htoken htoken']
  exact hspent

variable (host) in
/-- A spent row stays spent over every operation that starts in step. -/
theorem answer_spentRow
    (hinjective : Function.Injective hashRunnerCredential)
    {w : RunnerState codec (Network × ρ)}
    (hstep : InStep hashRunnerCredential w)
    {j : Uuid}
    (h : SpentRow hashRunnerCredential j w) (op : DaemonOp) :
    SpentRow hashRunnerCredential j
      (answer (networked hashRunnerCredential host) op w).2 := by
  obtain ⟨t, htoken, hspent⟩ := h
  refine ⟨t, answer_hasToken _ op w htoken, ?_⟩
  rcases answer_network_cases hashRunnerCredential host op w with hsame | ⟨request, hsent⟩
  · rw [hsame]
    exact hspent
  · rw [hsent]
    exact Network.send_spent hinjective hstep.honest (hstep.fresh j t htoken) request hspent

variable (host) in
/-- The operations that leave the store alone keep it in step. -/
theorem answer_inStep
    (hinjective : Function.Injective hashRunnerCredential)
    (op : DaemonOp)
    (hop : op.isStore = false)
    {w : RunnerState codec (Network × ρ)}
    (h : InStep hashRunnerCredential w) :
    InStep hashRunnerCredential (answer (networked hashRunnerCredential host) op w).2 := by
  unfold InStep at h ⊢
  rw [(answer_of_isStore_false (networked hashRunnerCredential host) hop w).1]
  rcases answer_network_cases hashRunnerCredential host op w with hsame | ⟨request, hsent⟩
  · rw [hsame]
    exact h
  · rw [hsent]
    exact h.send hinjective request

end Operations

end System
end PrReviewer
