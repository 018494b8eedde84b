import PrReviewer.Hosted.BudgetSessions

/-!
# The repository budget is never oversubscribed

Runs of any number of sessions from empty tables.  In every state on the way the totals
are the sums over the held reservations, and every step keeps to the limits; the
committed tables are always those of some of the calls done one after the other.
-/

namespace PrReviewer
namespace Hosted

open Lib

section Runs

variable (installationExists : Int → Bool)

/-- A reservation of the job stands under this status. -/
def BudgetTables.hasStatus (s : BudgetTables) (jobId : Uuid) (status : ReservationStatus) : Bool :=
  (s.repositoryBudgetReservations.find? jobId).any (·.status = status)

/-- The repository has both limits, and what is reserved and spent is within them. -/
def BudgetTables.WithinLimits (s : BudgetTables) (repository : Int × Int) : Prop :=
  ∃ b maxTokens maxCostUsd, s.repositoryBudgets.find? repository = some b ∧
    b.maxTokens = some maxTokens ∧ b.maxCostUsd = some maxCostUsd ∧
    ((b.reservedTokens + b.spentTokens : Nat) : Int) ≤ maxTokens ∧
    ((b.reservedCostUsd + b.spentCostUsd : Nat) : Int) ≤ maxCostUsd

/-- A reserve or release that has nothing to do: its job is held already, or released already. -/
def BudgetCall.Repeats (s : BudgetTables) : BudgetCall → Prop
  | .upsertRepositoryBudget _ _ _ _ => False
  | .reserveRepositoryBudget _ _ jobId _ _ =>
      s.hasStatus jobId .held = true ∨ s.hasStatus jobId .released = true
  | .releaseRepositoryReservation jobId => s.hasStatus jobId .released = true

/-- What holds of the committed tables. -/
structure BudgetSafe (x : BudgetSessions) : Prop where
  reserved_tokens : ∀ b ∈ x.store.repositoryBudgets.rows,
    b.reservedTokens = x.store.heldTotal (·.tokens) b.repository
  reserved_cost : ∀ b ∈ x.store.repositoryBudgets.rows,
    b.reservedCostUsd = x.store.heldTotal (·.costUsd) b.repository
  repeated_alone : ∀ call : BudgetCall, call.Repeats x.store →
    ((budgetStatements installationExists).runAlone x.store call).2 = x.store
  denied_alone : ∀ (call : BudgetCall) reason s',
    Program.run (budgetStatements installationExists).answer call.program x.store =
        (.error (.budgetDenied reason), s') →
      s' = x.store

/-- What holds of a step of one of the sessions. -/
structure BudgetStepSafe (x : BudgetSessions) (a : SessionAction BudgetCall) : Prop where
  newly_held : ∀ jobId row,
    (sessionStep (budgetStatements installationExists) x a).store.repositoryBudgetReservations.find?
        jobId = some row →
      row.status = .held → x.store.hasStatus jobId .held = false →
        (sessionStep (budgetStatements installationExists) x a).store.WithinLimits row.repository
  repeated : ∀ id session, a = .proceed id → x.inFlight id = some session →
    session.call.Repeats x.store →
      (sessionStep (budgetStatements installationExists) x a).store = x.store
  denied : ∀ id session reason, a = .proceed id → x.inFlight id = some session →
    session.program = .raise (.budgetDenied reason) →
      session.writes = [] ∧
      (sessionStep (budgetStatements installationExists) x a).store = x.store

variable {installationExists} {s : BudgetTables}

theorem hasStatus_of_find?
    {jobId : Uuid} {row : RepositoryBudgetReservationRow}
    (hrow : s.repositoryBudgetReservations.find? jobId = some row)
    (status : ReservationStatus) :
    s.hasStatus jobId status = decide (row.status = status) := by
  simp [BudgetTables.hasStatus, hrow]

/-- A call that repeats an earlier one has nothing to commit. -/
theorem BudgetCommit.of_repeats
    {call : BudgetCall} {writes : List BudgetWrite}
    (h : BudgetCommit installationExists s call writes)
    (hrepeats : call.Repeats s) :
    writes = [] := by
  cases h with
  | unchanged => rfl
  | limitsSet => exact hrepeats.elim
  | budgetCreated => exact hrepeats.elim
  | reserved i r jobId tokens costUsd b hb hallows hjob =>
      simp [BudgetCall.Repeats, BudgetTables.hasStatus, hjob] at hrepeats
  | released jobId row b hrow hheld hb hle =>
      simp [BudgetCall.Repeats, BudgetTables.hasStatus, hrow, hheld] at hrepeats

/-- A call that is denied has written nothing. -/
theorem BudgetProgress.denied_writes
    {call : BudgetCall} {reason : BudgetDeniedReason} {writes : List BudgetWrite}
    (h : BudgetProgress installationExists s call (.raise (.budgetDenied reason)) writes) :
    writes = [] := by
  generalize hp : (Program.raise (.budgetDenied reason) : BudgetProgram Unit) = p at h
  cases h with
  | begun => rfl
  | returned => cases hp
  | notHeld => rfl
  | denied => rfl
  | added => cases hp
  | releasing => cases hp
  | raised call e writes hdenied =>
      cases hp
      exact hdenied reason rfl

/-- Only a reservation that fits makes a job held. -/
theorem BudgetCommit.newly_held
    {call : BudgetCall} {writes : List BudgetWrite}
    (h : BudgetCommit installationExists s call writes)
    {jobId : Uuid} {row : RepositoryBudgetReservationRow}
    (hrow : ((budgetStatements installationExists).view s writes).repositoryBudgetReservations.find?
      jobId = some row)
    (hheld : row.status = .held)
    (hbefore : s.hasStatus jobId .held = false) :
    ((budgetStatements installationExists).view s writes).WithinLimits row.repository := by
  have hnew : s.repositoryBudgetReservations.find? jobId ≠ some row := by
    intro hsame
    rw [hasStatus_of_find? hsame, hheld] at hbefore
    cases hbefore
  cases h with
  | unchanged => exact absurd hrow hnew
  | limitsSet => exact absurd hrow hnew
  | budgetCreated => exact absurd hrow hnew
  | released jobId' row' b hrow' hheld' hb hle =>
      change (s.repositoryBudgetReservations.put _).find? jobId = some row at hrow
      rw [Table.find?_put] at hrow
      split at hrow
      · obtain rfl := Option.some.inj hrow
        cases hheld
      · exact absurd hrow hnew
  | reserved i r jobId' tokens costUsd b hb hallows hjob =>
      change (s.repositoryBudgetReservations.put _).find? jobId = some row at hrow
      rw [Table.find?_put] at hrow
      split at hrow
      · obtain rfl := Option.some.inj hrow
        have hkey : (b.addReserved tokens costUsd).repository = (i, r) :=
          (Table.key_of_find? hb : b.repository = (i, r))
        have hafter : (s.repositoryBudgets.put (b.addReserved tokens costUsd)).find? (i, r) =
            some (b.addReserved tokens costUsd) := by
          rw [Table.find?_put, hkey, if_pos rfl]
        simp only [RepositoryBudgetRow.allows, Bool.and_eq_true] at hallows
        obtain ⟨maxTokens, maxCostUsd, htokens, hcost, htokens_le, hcost_le⟩ :=
          fits_iff.mp hallows.2
        refine ⟨b.addReserved tokens costUsd, maxTokens, maxCostUsd, hafter, htokens, hcost,
          ?_, ?_⟩
        · simp only [RepositoryBudgetRow.addReserved]
          omega
        · simp only [RepositoryBudgetRow.addReserved]
          omega
      · exact absurd hrow hnew

/-- The sessions of a run rely on the tables, and the tables are sound. -/
def BudgetCoherent (installationExists : Int → Bool) (x : BudgetSessions) : Prop :=
  x.Coherent (budgetStatements installationExists) BudgetTables.Sound
    (BudgetProgress installationExists)

theorem budgetCoherent_step
    (x : BudgetSessions) (a : SessionAction BudgetCall)
    (h : BudgetCoherent installationExists x) :
    BudgetCoherent installationExists
      (sessionStep (budgetStatements installationExists) x a) :=
  coherent_step (budget_relies installationExists) x a h

theorem budgetCoherent_empty
    (installationExists : Int → Bool) :
    BudgetCoherent installationExists (.ofStore .empty) := by
  apply coherent_ofStore
  constructor
  · intro b hb
    cases hb
  · intro b hb
    cases hb
  · intro row hrow
    cases hrow

theorem safe_of_budgetCoherent
    (x : BudgetSessions)
    (h : BudgetCoherent installationExists x) :
    BudgetSafe installationExists x := by
  refine ⟨h.store.tokens, h.store.costUsd, ?_, ?_⟩
  · intro call hrepeats
    cases hrun : Program.run (budgetStatements installationExists).answer call.program
        x.store with
    | mk outcome s' =>
        cases outcome with
        | error e => rw [Statements.runAlone_of_error hrun]
        | ok u =>
            obtain ⟨writes, hprogress, hs'⟩ :=
              (budget_relies installationExists).run h.store (.begun call) hrun
            rw [Statements.runAlone_of_ok hrun, hs', hprogress.commit.of_repeats hrepeats]
            rfl
  · intro call reason s' hrun
    obtain ⟨writes, hprogress, hs'⟩ :=
      (budget_relies installationExists).run h.store (.begun call) hrun
    rw [hs', hprogress.denied_writes]
    rfl

theorem stepSafe_of_budgetCoherent
    (x : BudgetSessions) (a : SessionAction BudgetCall)
    (h : BudgetCoherent installationExists x) :
    BudgetStepSafe installationExists x a := by
  have hstep := h.store_step a
  constructor
  · intro jobId row hrow hheld hbefore
    rcases hstep with hsame | ⟨id, session, _, _, hprogress, hstore⟩
    · rw [hsame] at hrow
      rw [hasStatus_of_find? hrow, hheld] at hbefore
      cases hbefore
    · rw [hstore] at hrow ⊢
      exact hprogress.commit.newly_held hrow hheld hbefore
  · intro id session ha hsession hrepeats
    rcases hstep with hsame | ⟨id', session', ha', hsession', hprogress, hstore⟩
    · exact hsame
    · cases ha.symm.trans ha'
      cases hsession.symm.trans hsession'
      rw [hstore, hprogress.commit.of_repeats hrepeats]
      rfl
  · intro id session reason ha hsession hprogram
    have hprogress := h.relies id session hsession
    rw [hprogram] at hprogress
    refine ⟨hprogress.denied_writes, ?_⟩
    subst ha
    simp only [sessionStep, hsession, hprogram]
    rfl

/-- The tables after some calls, one after the other, each in a transaction of its own. -/
def runCalls (installationExists : Int → Bool) (s : BudgetTables) (calls : List BudgetCall) :
    BudgetTables :=
  calls.foldl (fun s call => ((budgetStatements installationExists).runAlone s call).2) s

/-- Whatever the sessions do, the committed tables are those of some calls in sequence. -/
theorem committed_serial
    (installationExists : Int → Bool) (actions : List (SessionAction BudgetCall)) :
    ∃ calls, (exec (sessionStep (budgetStatements installationExists)) (.ofStore .empty)
      actions).store = runCalls installationExists .empty calls := by
  have hstep : ∀ (x : BudgetSessions) (a : SessionAction BudgetCall),
      (BudgetCoherent installationExists x ∧
        ∃ calls, x.store = runCalls installationExists .empty calls) →
      BudgetCoherent installationExists
          (sessionStep (budgetStatements installationExists) x a) ∧
        ∃ calls, (sessionStep (budgetStatements installationExists) x a).store =
          runCalls installationExists .empty calls := by
    rintro x a ⟨hcoherent, calls, hcalls⟩
    refine ⟨budgetCoherent_step x a hcoherent, ?_⟩
    rcases hcoherent.store_step a with hsame | ⟨_, session, _, _, hprogress, hstore⟩
    · exact ⟨calls, hsame.trans hcalls⟩
    · rcases hprogress.commit.runAlone with hnothing | halone
      · refine ⟨calls, ?_⟩
        rw [hstore, hnothing]
        exact hcalls
      · refine ⟨calls ++ [session.call], ?_⟩
        have happend : runCalls installationExists .empty (calls ++ [session.call]) =
            ((budgetStatements installationExists).runAlone x.store session.call).2 := by
          rw [hcalls]
          simp [runCalls]
        rw [hstore, happend, halone]
  exact (exec_preserves hstep actions
    ⟨budgetCoherent_empty installationExists, [], rfl⟩).2

/--
The repository budget is never oversubscribed: whatever sessions do to the tables, the
totals of a repository are the sums over its held reservations, a reservation is held
only within both limits, and a call that repeats an earlier one or is denied changes
nothing.
-/
theorem repository_budget_never_oversubscribed
    (installationExists : Int → Bool) (actions : List (SessionAction BudgetCall)) :
    Throughout (sessionStep (budgetStatements installationExists))
        (BudgetSafe installationExists) (.ofStore .empty) actions ∧
      Along (sessionStep (budgetStatements installationExists))
        (BudgetStepSafe installationExists) (.ofStore .empty) actions := by
  constructor
  · exact throughout_of_preserves budgetCoherent_step safe_of_budgetCoherent actions
      (budgetCoherent_empty installationExists)
  · exact along_invariant (P := fun _ _ => True)
      (fun x a h _ => budgetCoherent_step x a h)
      (fun x a h _ => stepSafe_of_budgetCoherent x a h)
      (along_of_forall (fun _ _ => trivial) _ actions)
      (budgetCoherent_empty installationExists)

end Runs

end Hosted
end PrReviewer
