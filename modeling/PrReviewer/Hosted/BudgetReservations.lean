import PrReviewer.Hosted.BudgetSafety

/-!
# When a reservation succeeds

`reserve_repository_budget` looks for a held reservation of its job, and inserts a new
row if there is none.  A released reservation is still a row under the same key, so that
a job that was released cannot reserve again: the insert breaks the primary key, whatever
the budget has left.  And a request that is too large is refused by the arithmetic of the
database, not by the budget, when the sum leaves the range of an integer.
-/

namespace PrReviewer
namespace Hosted

open Lib

section Reservations

variable (installationExists : Int → Bool) (s : BudgetTables)

/--
The call succeeds exactly when the request fits under both limits of the budget, and
raises nothing but `BudgetDenied` otherwise.
-/
def ReservesAsBudgeted
    (b : RepositoryBudgetRow) (jobId : Uuid) (tokens costUsd : Nat) : Prop :=
  ((((budgetStatements installationExists).runAlone s
      (.reserveRepositoryBudget b.installationId b.githubRepositoryId jobId tokens
        costUsd)).1 = .ok ()) ↔ b.fits tokens costUsd = true) ∧
    ∀ e, ((budgetStatements installationExists).runAlone s
        (.reserveRepositoryBudget b.installationId b.githubRepositoryId jobId tokens
          costUsd)).1 = .error e →
      ∃ reason, e = .budgetDenied reason

/--
A request that fits is for a job without a row, and one that does not fit has a sum in the
range of its type.
-/
def reservable
    (s : BudgetTables) (b : RepositoryBudgetRow) (jobId : Uuid) (tokens costUsd : Nat) : Bool :=
  if b.fits tokens costUsd then
    (s.repositoryBudgetReservations.find? jobId).isNone
  else
    !b.overflows tokens

variable {installationExists s}

/-- Under a limit of the integer type nothing overflows. -/
theorem overflows_of_fits
    {b : RepositoryBudgetRow} {tokens costUsd : Nat}
    (h : b.fits tokens costUsd = true) :
    b.overflows tokens = false := by
  obtain ⟨maxTokens, _, htokens, _, hle, _⟩ := fits_iff.mp h
  have hmax := b.maxTokens_fits
  rw [htokens] at hmax
  simp only [Option.all_some, fitsInteger, decide_eq_true_eq] at hmax
  have hsum : fitsInteger (b.reservedTokens + b.spentTokens : Nat) = true := by
    simp only [fitsInteger, decide_eq_true_eq]
    omega
  have hrequest : fitsInteger tokens = true := by
    simp only [fitsInteger, decide_eq_true_eq]
    omega
  have htotal : fitsInteger (b.reservedTokens + b.spentTokens + tokens : Nat) = true := by
    simp only [fitsInteger, decide_eq_true_eq]
    omega
  simp only [RepositoryBudgetRow.overflows, hsum, hrequest, htotal, Bool.not_true, if_true,
    Bool.or_self]

/-- What `reserve_repository_budget` answers for a configured repository. -/
theorem runAlone_reserve
    {b : RepositoryBudgetRow} {jobId : Uuid} (tokens costUsd : Nat)
    (hb : s.repositoryBudgets.find? b.repository = some b)
    (hconfigured : b.configured = true)
    (hfree : s.hasStatus jobId .held = false) :
    ((budgetStatements installationExists).runAlone s
      (.reserveRepositoryBudget b.installationId b.githubRepositoryId jobId tokens costUsd)).1 =
      if b.overflows tokens then
        .error (.database .numericValueOutOfRange)
      else if b.fits tokens costUsd = false then
        .error (.budgetDenied .insufficient)
      else if (s.repositoryBudgetReservations.find? jobId).isSome then
        .error (.database .uniqueViolation)
      else
        .ok () := by
  have hrun : Program.run (budgetStatements installationExists).answer
      (reserveRepositoryBudget b.installationId b.githubRepositoryId jobId tokens costUsd) s =
      Program.run (budgetStatements installationExists).answer
        (holdReservation b.installationId b.githubRepositoryId jobId tokens costUsd) s := by
    rw [run_reserveRepositoryBudget, if_neg]
    exact Bool.eq_false_iff.mp hfree
  have hrow : s.repositoryBudgets.find? (b.installationId, b.githubRepositoryId) = some b := hb
  rw [run_holdReservation, hrow] at hrun
  simp only [hconfigured, Bool.true_eq_false, if_false] at hrun
  split
  · next hoverflows =>
      rw [if_pos hoverflows] at hrun
      rw [Statements.runAlone_of_error hrun]
  · next hoverflows =>
      rw [if_neg hoverflows] at hrun
      split
      · next hfits =>
          rw [if_pos hfits] at hrun
          rw [Statements.runAlone_of_error hrun]
      · next hfits =>
          rw [if_neg hfits] at hrun
          cases hjob : s.repositoryBudgetReservations.find? jobId with
          | some row =>
              rw [hjob] at hrun
              rw [Statements.runAlone_of_error hrun]
              rfl
          | none =>
              rw [hjob] at hrun
              rw [Statements.runAlone_of_ok hrun]
              rfl

theorem reservesAsBudgeted_iff
    {b : RepositoryBudgetRow} {jobId : Uuid} (tokens costUsd : Nat)
    (hb : s.repositoryBudgets.find? b.repository = some b)
    (hconfigured : b.configured = true)
    (hfree : s.hasStatus jobId .held = false) :
    ReservesAsBudgeted installationExists s b jobId tokens costUsd ↔
      reservable s b jobId tokens costUsd = true := by
  unfold ReservesAsBudgeted reservable
  rw [runAlone_reserve tokens costUsd hb hconfigured hfree]
  by_cases hfits : b.fits tokens costUsd = true
  · have hoverflows := overflows_of_fits hfits
    cases hjob : s.repositoryBudgetReservations.find? jobId with
    | none => simp [hfits, hoverflows]
    | some row => simp [hfits, hoverflows]
  · cases hoverflows : b.overflows tokens with
    | true => simp [hfits]
    | false => simp [hfits]

end Reservations

/-- The committed tables after what the sessions did. -/
def budgetsAfter
    (installationExists : Int → Bool) (actions : List (SessionAction BudgetCall)) :
    BudgetTables :=
  (exec (sessionStep (budgetStatements installationExists)) (.ofStore .empty) actions).store

/--
In every state the sessions can reach, a job that holds no reservation reserves from a
configured budget as the budget allows, if and only if its request fits and the job has
never reserved, or its request does not fit and the sum of the tokens is in range.
-/
theorem reserves_as_budgeted_iff
    (installationExists : Int → Bool) (actions : List (SessionAction BudgetCall))
    (b : RepositoryBudgetRow) (jobId : Uuid) (tokens costUsd : Nat)
    (hb : (budgetsAfter installationExists actions).repositoryBudgets.find? b.repository =
      some b)
    (hconfigured : b.configured = true)
    (hfree : (budgetsAfter installationExists actions).hasStatus jobId .held = false) :
    ReservesAsBudgeted installationExists (budgetsAfter installationExists actions) b jobId
        tokens costUsd ↔
      reservable (budgetsAfter installationExists actions) b jobId tokens costUsd = true :=
  reservesAsBudgeted_iff tokens costUsd hb hconfigured hfree

/-- A session that starts a call and goes through its statements to the end. -/
def oneCall (call : BudgetCall) (statements : Nat) : List (SessionAction BudgetCall) :=
  .start 0 call :: List.replicate (statements + 1) (.proceed 0)

def budgetedJob : Uuid :=
  ⟨"5b0e7c1a-0000-4000-8000-00000000b0d9", by decide⟩

/-- A budget of 100 tokens and 10 dollars, set for an installation. -/
def limitsOfHundred : List (SessionAction BudgetCall) :=
  oneCall (.upsertRepositoryBudget 1 11 (some 100) (some 10000000)) 1

def budgetOfHundred : RepositoryBudgetRow :=
  .new 1 11 (some 100) (some 10000000) ⟨by decide, by decide⟩

/-- The first reservation of a job succeeds, because 60 tokens fit. -/
theorem first_reservation_as_budgeted :
    ReservesAsBudgeted (fun _ => true) (budgetsAfter (fun _ => true) limitsOfHundred)
      budgetOfHundred budgetedJob 60 1000000 :=
  (reserves_as_budgeted_iff (fun _ => true) limitsOfHundred budgetOfHundred budgetedJob 60
    1000000 (by decide) (by decide) (by decide)).mpr (by decide)

/-- The job reserves, is released, and is queued again. -/
def releasedJob : List (SessionAction BudgetCall) :=
  limitsOfHundred ++
    oneCall (.reserveRepositoryBudget 1 11 budgetedJob 60 1000000) 3 ++
    oneCall (.releaseRepositoryReservation budgetedJob) 2

/--
A job whose reservation was released cannot reserve again, although the whole budget is
free: the insert violates the primary key of the reservations.
-/
theorem released_job_cannot_reserve :
    let s := budgetsAfter (fun _ => true) releasedJob
    s.hasStatus budgetedJob .released = true ∧
    s.repositoryBudgets.find? (1, 11) = some budgetOfHundred ∧
    budgetOfHundred.configured = true ∧
    budgetOfHundred.fits 60 1000000 = true ∧
    ((budgetStatements (fun _ => true)).runAlone s
      (.reserveRepositoryBudget 1 11 budgetedJob 60 1000000)).1 =
        .error (.database .uniqueViolation) ∧
    ¬ ReservesAsBudgeted (fun _ => true) s budgetOfHundred budgetedJob 60 1000000 := by
  refine ⟨by decide, by decide, by decide, by decide, by decide, ?_⟩
  intro h
  have hok := h.1.mpr (by decide)
  revert hok
  decide

end Hosted
end PrReviewer
