import PrReviewer.Hosted.Schema
import PrReviewer.Lib.Sessions

/-!
# The repository budget

`upsert_repository_budget`, `reserve_repository_budget` and
`release_repository_reservation`, statement by statement, over the two tables of
202609010400_reliability_and_budget.sql.  The running totals of a repository stand in
`repository_budgets`; a reservation stands under its job, and a row of it stays when it
is released.

Costs are in millionths of a dollar, the unit of `numeric(18, 6)`.  Each call is one
transaction, and several of them may be under way at once (`Lib.Sessions`).
-/

namespace PrReviewer
namespace Hosted

open Lib

/-- `BudgetDeniedReason`. -/
inductive BudgetDeniedReason where
  | unset
  | insufficient
deriving DecidableEq, Repr

/-- What a budget call raises: `BudgetDenied`, or an error of the database. -/
inductive BudgetError where
  | budgetDenied (reason : BudgetDeniedReason)
  | database (error : HostedError)
deriving DecidableEq, Repr

/-- The values the check on `repository_budget_reservations.status` admits. -/
inductive ReservationStatus where
  | held
  | released
  | committed
deriving DecidableEq, Repr

/-- The range of a `numeric(18, 6)` column, in millionths. -/
def fitsNumeric (n : Int) : Bool :=
  -(10 ^ 18) < n ∧ n < 10 ^ 18

structure RepositoryBudgetRow where
  installationId : Int
  githubRepositoryId : Int
  maxTokens : Option Int
  maxCostUsd : Option Int
  reservedTokens : Nat
  reservedCostUsd : Nat
  spentTokens : Nat
  spentCostUsd : Nat
  maxTokens_fits : maxTokens.all fitsInteger = true
  maxCostUsd_fits : maxCostUsd.all fitsNumeric = true
deriving DecidableEq, Repr

structure RepositoryBudgetReservationRow where
  jobId : Uuid
  installationId : Int
  githubRepositoryId : Int
  tokens : Nat
  costUsd : Nat
  status : ReservationStatus
deriving DecidableEq, Repr

/-- The primary key of `repository_budgets`. -/
def RepositoryBudgetRow.repository (b : RepositoryBudgetRow) : Int × Int :=
  (b.installationId, b.githubRepositoryId)

def RepositoryBudgetReservationRow.repository (row : RepositoryBudgetReservationRow) :
    Int × Int :=
  (row.installationId, row.githubRepositoryId)

structure BudgetTables where
  repositoryBudgets : Table RepositoryBudgetRow.repository
  repositoryBudgetReservations : Table RepositoryBudgetReservationRow.jobId

def BudgetTables.empty : BudgetTables where
  repositoryBudgets := .empty
  repositoryBudgetReservations := .empty

namespace RepositoryBudgetRow

/-- `max_tokens is not null and max_tokens > 0`, and the same of the cost. -/
def configured (b : RepositoryBudgetRow) : Bool :=
  b.maxTokens.any (0 < ·) && b.maxCostUsd.any (0 < ·)

/-- `reserved + spent + requested <= max`, of the tokens and of the cost. -/
def fits (b : RepositoryBudgetRow) (tokens costUsd : Nat) : Bool :=
  b.maxTokens.any
      (fun m => decide (((b.reservedTokens + b.spentTokens + tokens : Nat) : Int) ≤ m)) &&
    b.maxCostUsd.any
      (fun m => decide (((b.reservedCostUsd + b.spentCostUsd + costUsd : Nat) : Int) ≤ m))

/--
`reserved_tokens + spent_tokens + %s` leaves the range of its type: the parameter is sent
as the smallest type that holds it, and a sum of integers is an integer.
-/
def overflows (b : RepositoryBudgetRow) (tokens : Nat) : Bool :=
  !fitsInteger (b.reservedTokens + b.spentTokens : Nat) ||
    if fitsInteger tokens then
      !fitsInteger (b.reservedTokens + b.spentTokens + tokens : Nat)
    else
      fitsBigint tokens && !fitsBigint (b.reservedTokens + b.spentTokens + tokens : Nat)

/-- The conditions of the update in `reserve_repository_budget`. -/
def allows (b : RepositoryBudgetRow) (tokens costUsd : Nat) : Bool :=
  b.configured && !b.overflows tokens && b.fits tokens costUsd

/-- A row with its limits set, and nothing reserved or spent. -/
def new
    (installationId githubRepositoryId : Int) (maxTokens maxCostUsd : Option Int)
    (h : maxTokens.all fitsInteger = true ∧ maxCostUsd.all fitsNumeric = true) :
    RepositoryBudgetRow where
  installationId := installationId
  githubRepositoryId := githubRepositoryId
  maxTokens := maxTokens
  maxCostUsd := maxCostUsd
  reservedTokens := 0
  reservedCostUsd := 0
  spentTokens := 0
  spentCostUsd := 0
  maxTokens_fits := h.1
  maxCostUsd_fits := h.2

def setLimits
    (b : RepositoryBudgetRow) (maxTokens maxCostUsd : Option Int)
    (h : maxTokens.all fitsInteger = true ∧ maxCostUsd.all fitsNumeric = true) :
    RepositoryBudgetRow :=
  { b with
    maxTokens := maxTokens
    maxCostUsd := maxCostUsd
    maxTokens_fits := h.1
    maxCostUsd_fits := h.2 }

def addReserved (b : RepositoryBudgetRow) (tokens costUsd : Nat) : RepositoryBudgetRow :=
  { b with
    reservedTokens := b.reservedTokens + tokens
    reservedCostUsd := b.reservedCostUsd + costUsd }

def subtractReserved (b : RepositoryBudgetRow) (tokens costUsd : Nat) : RepositoryBudgetRow :=
  { b with
    reservedTokens := b.reservedTokens - tokens
    reservedCostUsd := b.reservedCostUsd - costUsd }

end RepositoryBudgetRow

theorem fits_iff
    {b : RepositoryBudgetRow} {tokens costUsd : Nat} :
    b.fits tokens costUsd = true ↔
      ∃ maxTokens maxCostUsd, b.maxTokens = some maxTokens ∧ b.maxCostUsd = some maxCostUsd ∧
        ((b.reservedTokens + b.spentTokens + tokens : Nat) : Int) ≤ maxTokens ∧
        ((b.reservedCostUsd + b.spentCostUsd + costUsd : Nat) : Int) ≤ maxCostUsd := by
  unfold RepositoryBudgetRow.fits
  cases b.maxTokens with
  | none => simp
  | some maxTokens =>
      cases b.maxCostUsd with
      | none => simp
      | some maxCostUsd => simp

/-- What fits under the limits is in the range of its column. -/
theorem fits_range
    {b : RepositoryBudgetRow} {tokens costUsd : Nat}
    (h : b.fits tokens costUsd = true) :
    (fitsInteger tokens && fitsNumeric costUsd) = true := by
  obtain ⟨maxTokens, maxCostUsd, htokens, hcost, htokens_le, hcost_le⟩ := fits_iff.mp h
  have htokens_fits := b.maxTokens_fits
  have hcost_fits := b.maxCostUsd_fits
  rw [htokens] at htokens_fits
  rw [hcost] at hcost_fits
  simp only [Option.all_some, fitsInteger, fitsNumeric, decide_eq_true_eq, Bool.and_eq_true]
    at htokens_fits hcost_fits ⊢
  omega

/-! ## The statements -/

inductive BudgetStatement where
  | upsertLimits (installationId githubRepositoryId : Int) (maxTokens maxCostUsd : Option Int)
  | selectHeld (jobId : Uuid)
  | addReserved (installationId githubRepositoryId : Int) (tokens costUsd : Nat)
  | selectConfigured (installationId githubRepositoryId : Int)
  | insertReservation (row : RepositoryBudgetReservationRow)
  | releaseHeld (jobId : Uuid)
  | subtractReserved (installationId githubRepositoryId : Int) (tokens costUsd : Nat)

/-- What a statement returns: whether there was a row, or the row of `returning`. -/
abbrev BudgetStatement.Rows : BudgetStatement → Type
  | .upsertLimits _ _ _ _ => Unit
  | .selectHeld _ => Bool
  | .addReserved _ _ _ _ => Bool
  | .selectConfigured _ _ => Bool
  | .insertReservation _ => Unit
  | .releaseHeld _ => Option RepositoryBudgetReservationRow
  | .subtractReserved _ _ _ _ => Unit

abbrev BudgetStatement.Result (op : BudgetStatement) : Type :=
  Except HostedError op.Rows

/-- A row written by a statement. -/
inductive BudgetWrite where
  | budget (row : RepositoryBudgetRow)
  | reservation (row : RepositoryBudgetReservationRow)

/-- The row a write locks. -/
inductive BudgetLock where
  | budget (repository : Int × Int)
  | reservation (jobId : Uuid)
deriving DecidableEq, Repr

def BudgetWrite.lock : BudgetWrite → BudgetLock
  | .budget row => .budget row.repository
  | .reservation row => .reservation row.jobId

def BudgetTables.put (s : BudgetTables) : BudgetWrite → BudgetTables
  | .budget row => { s with repositoryBudgets := s.repositoryBudgets.put row }
  | .reservation row =>
      { s with repositoryBudgetReservations := s.repositoryBudgetReservations.put row }

section Outcomes

variable (installationExists : Int → Bool) (s : BudgetTables)

/-- `insert into repository_budgets … on conflict … do update`. -/
def upsertLimitsOutcome
    (installationId githubRepositoryId : Int) (maxTokens maxCostUsd : Option Int) :
    Except HostedError Unit × Option BudgetWrite :=
  if h : maxTokens.all fitsInteger = true ∧ maxCostUsd.all fitsNumeric = true then
    if fitsBigint installationId && fitsBigint githubRepositoryId then
      match s.repositoryBudgets.find? (installationId, githubRepositoryId) with
      | some b => (.ok (), some (.budget (b.setLimits maxTokens maxCostUsd h)))
      | none =>
          -- the foreign key on installations
          if installationExists installationId then
            (.ok (), some (.budget (.new installationId githubRepositoryId maxTokens maxCostUsd h)))
          else
            (.error .foreignKeyViolation, none)
    else
      (.error .numericValueOutOfRange, none)
  else
    (.error .numericValueOutOfRange, none)

/-- `update repository_budgets set reserved = reserved + … where … returning 1`. -/
def addReservedOutcome
    (installationId githubRepositoryId : Int) (tokens costUsd : Nat) :
    Except HostedError Bool × Option BudgetWrite :=
  match s.repositoryBudgets.find? (installationId, githubRepositoryId) with
  | none => (.ok false, none)
  | some b =>
      if b.configured then
        if b.overflows tokens then
          (.error .numericValueOutOfRange, none)
        else if b.fits tokens costUsd then
          (.ok true, some (.budget (b.addReserved tokens costUsd)))
        else
          (.ok false, none)
      else
        (.ok false, none)

/-- `insert into repository_budget_reservations`. -/
def insertReservationOutcome (row : RepositoryBudgetReservationRow) :
    Except HostedError Unit × Option BudgetWrite :=
  if fitsInteger row.tokens && fitsNumeric row.costUsd then
    match s.repositoryBudgetReservations.find? row.jobId with
    | none => (.ok (), some (.reservation row))
    | some _ => (.error .uniqueViolation, none)
  else
    (.error .numericValueOutOfRange, none)

/-- `update repository_budget_reservations set status = 'released' where … returning …`. -/
def releaseHeldOutcome (jobId : Uuid) :
    Except HostedError (Option RepositoryBudgetReservationRow) × Option BudgetWrite :=
  match s.repositoryBudgetReservations.find? jobId with
  | none => (.ok none, none)
  | some row =>
      if row.status = .held then
        (.ok (some row), some (.reservation { row with status := .released }))
      else
        (.ok none, none)

/-- `update repository_budgets set reserved = reserved - …`, with the checks `>= 0`. -/
def subtractReservedOutcome
    (installationId githubRepositoryId : Int) (tokens costUsd : Nat) :
    Except HostedError Unit × Option BudgetWrite :=
  match s.repositoryBudgets.find? (installationId, githubRepositoryId) with
  | none => (.ok (), none)
  | some b =>
      if tokens ≤ b.reservedTokens ∧ costUsd ≤ b.reservedCostUsd then
        (.ok (), some (.budget (b.subtractReserved tokens costUsd)))
      else
        (.error .checkViolation, none)

def BudgetStatement.outcome : (op : BudgetStatement) → op.Result × Option BudgetWrite
  | .upsertLimits installationId githubRepositoryId maxTokens maxCostUsd =>
      upsertLimitsOutcome installationExists s installationId githubRepositoryId maxTokens
        maxCostUsd
  | .selectHeld jobId =>
      (.ok ((s.repositoryBudgetReservations.find? jobId).any (·.status = .held)), none)
  | .addReserved installationId githubRepositoryId tokens costUsd =>
      addReservedOutcome s installationId githubRepositoryId tokens costUsd
  | .selectConfigured installationId githubRepositoryId =>
      (.ok ((s.repositoryBudgets.find? (installationId, githubRepositoryId)).any
        RepositoryBudgetRow.configured), none)
  | .insertReservation row => insertReservationOutcome s row
  | .releaseHeld jobId => releaseHeldOutcome s jobId
  | .subtractReserved installationId githubRepositoryId tokens costUsd =>
      subtractReservedOutcome s installationId githubRepositoryId tokens costUsd

end Outcomes

/-! ## The calls -/

abbrev BudgetProgram (α : Type) : Type :=
  Program BudgetStatement.Result BudgetError α

/-- `conn.execute`: an error of the database is raised. -/
def executeBudget (op : BudgetStatement) : BudgetProgram op.Rows :=
  .call op (fun result =>
    match result with
    | .ok rows => .ret rows
    | .error error => .raise (.database error))

def upsertRepositoryBudget
    (installationId githubRepositoryId : Int) (maxTokens maxCostUsd : Option Int) :
    BudgetProgram Unit :=
  executeBudget (.upsertLimits installationId githubRepositoryId maxTokens maxCostUsd)

/-- The row `reserve_repository_budget` inserts. -/
def heldReservation
    (installationId githubRepositoryId : Int) (jobId : Uuid) (tokens costUsd : Nat) :
    RepositoryBudgetReservationRow where
  jobId := jobId
  installationId := installationId
  githubRepositoryId := githubRepositoryId
  tokens := tokens
  costUsd := costUsd
  status := .held

/-- `reserve_repository_budget` when the update found no row: why it is denied. -/
def denyReservation (installationId githubRepositoryId : Int) : BudgetProgram Unit := do
  let configured ← executeBudget (.selectConfigured installationId githubRepositoryId)
  .raise (.budgetDenied (if configured then .insufficient else .unset))

/-- `reserve_repository_budget` after its first statement. -/
def holdReservation
    (installationId githubRepositoryId : Int) (jobId : Uuid) (tokens costUsd : Nat) :
    BudgetProgram Unit := do
  let updated ← executeBudget (.addReserved installationId githubRepositoryId tokens costUsd)
  if updated then
    executeBudget (.insertReservation
      (heldReservation installationId githubRepositoryId jobId tokens costUsd))
  else
    denyReservation installationId githubRepositoryId

def reserveRepositoryBudget
    (installationId githubRepositoryId : Int) (jobId : Uuid) (tokens costUsd : Nat) :
    BudgetProgram Unit := do
  let existing ← executeBudget (.selectHeld jobId)
  if existing then
    pure ()
  else
    holdReservation installationId githubRepositoryId jobId tokens costUsd

def releaseRepositoryReservation (jobId : Uuid) : BudgetProgram Unit := do
  let row ← executeBudget (.releaseHeld jobId)
  match row with
  | none => pure ()
  | some row =>
      executeBudget (.subtractReserved row.installationId row.githubRepositoryId row.tokens
        row.costUsd)

inductive BudgetCall where
  | upsertRepositoryBudget
      (installationId githubRepositoryId : Int) (maxTokens maxCostUsd : Option Int)
  | reserveRepositoryBudget
      (installationId githubRepositoryId : Int) (jobId : Uuid) (tokens costUsd : Nat)
  | releaseRepositoryReservation (jobId : Uuid)
deriving DecidableEq, Repr

def BudgetCall.program : BudgetCall → BudgetProgram Unit
  | .upsertRepositoryBudget installationId githubRepositoryId maxTokens maxCostUsd =>
      Hosted.upsertRepositoryBudget installationId githubRepositoryId maxTokens maxCostUsd
  | .reserveRepositoryBudget installationId githubRepositoryId jobId tokens costUsd =>
      Hosted.reserveRepositoryBudget installationId githubRepositoryId jobId tokens costUsd
  | .releaseRepositoryReservation jobId => Hosted.releaseRepositoryReservation jobId

/-- The budget tables and their statements; the installations are those of the hosted store. -/
def budgetStatements (installationExists : Int → Bool) :
    Statements BudgetTables BudgetWrite BudgetLock BudgetCall BudgetStatement.Result
      BudgetError where
  outcome := fun op s => op.outcome installationExists s
  put := BudgetTables.put
  lockOf := BudgetWrite.lock
  program := BudgetCall.program

/-- The budget tables with the transactions under way. -/
abbrev BudgetSessions : Type :=
  Shared BudgetTables BudgetWrite BudgetLock BudgetCall BudgetStatement.Result BudgetError

end Hosted
end PrReviewer
