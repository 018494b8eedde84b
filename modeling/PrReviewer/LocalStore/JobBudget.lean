import Mathlib.Algebra.Order.Floor.Ring
import Mathlib.Algebra.Order.BigOperators.Group.List
import Mathlib.Data.Rat.Floor
import Mathlib.Tactic
import PrReviewer.Hosted.Budget
import PrReviewer.Runner.LocalStore

/-!
# The budget of a local job

local_store/budget.py (`reserve_job_budget`), with `is_configured` of reliability/budget.py
and `cost_usd_for` of models/provider.py.  Amounts of money are exact; what `printf` writes
to the cost column is the sum rounded to six places.

The rounded sum is what the next call is checked against, so the costs that were granted may
come to more than the limit.  They do not as long as rounding has not lost anything of them.
-/

namespace PrReviewer
namespace LocalStore

open Hosted (BudgetDeniedReason)
open Runner (fitsSqlite)

/-- `BudgetLimit`. -/
structure BudgetLimit where
  maxTokens : Option Int
  maxCostUsd : Option ℚ

def isConfigured : Option BudgetLimit → Bool
  | none => false
  | some limit =>
      match limit.maxTokens, limit.maxCostUsd with
      | some maxTokens, some maxCostUsd => 0 < maxTokens ∧ 0 < maxCostUsd
      | _, _ => false

/-- The columns of the budget in a row of `local_jobs`. -/
structure JobLimits where
  maxTokens : Nat
  maxCostUsd : ℚ
  maxTokens_fits : fitsSqlite maxTokens = true
  maxCostUsd_nonneg : 0 ≤ maxCostUsd

/-- A row of `local_job_budgets`. -/
structure JobBudgetRow where
  reservedTokens : Nat
  reservedCostUsd : ℚ

/-- The two tables, by the id of the job. -/
structure BudgetStore where
  jobs : String → Option JobLimits
  budgets : String → Option JobBudgetRow

structure ReserveCall where
  jobId : String
  tokens : Nat
  costUsd : ℚ
  costUsd_nonneg : 0 ≤ costUsd
deriving DecidableEq

inductive ReserveError where
  | budgetDenied (reason : BudgetDeniedReason)
  | overflowError
deriving DecidableEq, Repr

/-- `printf('%.6f', …)` of an amount that is not negative. -/
def sixPlaces (x : ℚ) : ℚ :=
  ⌊x * 10 ^ 6 + 1 / 2⌋ / 10 ^ 6

/-- `_PRICE_PER_MILLION`. -/
def pricePerMillion : String × String → Option (ℚ × ℚ)
  | ("openai", "gpt-4o-mini") => some (15 / 100, 60 / 100)
  | ("anthropic", "claude-3-5-haiku-latest") => some (80 / 100, 400 / 100)
  | _ => none

/-- `cost_usd_for`, an unknown model raising ModelProviderFailure. -/
def costUsdFor (provider model : String) (inputTokens outputTokens : Nat) : Option ℚ :=
  match pricePerMillion (provider, model) with
  | none => none
  | some (inputPrice, outputPrice) =>
      some (inputTokens / 1000000 * inputPrice + outputTokens / 1000000 * outputPrice)

/-- A store with jobs, nothing reserved for any. -/
def BudgetStore.opened (jobs : String → Option JobLimits) : BudgetStore :=
  ⟨jobs, fun _ => none⟩

def BudgetStore.setRow (store : BudgetStore) (jobId : String) (row : JobBudgetRow) :
    BudgetStore :=
  { store with budgets := Function.update store.budgets jobId (some row) }

/-- The amounts reserved for a job, none at first. -/
def BudgetStore.row (store : BudgetStore) (jobId : String) : JobBudgetRow :=
  (store.budgets jobId).getD ⟨0, 0⟩

/-- `reserve_job_budget`. -/
def reserveJobBudget (store : BudgetStore) (call : ReserveCall) :
    BudgetStore × Except ReserveError Unit :=
  match store.jobs call.jobId with
  | none => (store, .error (.budgetDenied .unset))
  | some job =>
      if isConfigured (some ⟨some job.maxTokens, some job.maxCostUsd⟩) = false then
        (store, .error (.budgetDenied .unset))
      else
        let row := store.row call.jobId
        let inserted := store.setRow call.jobId row
        if fitsSqlite call.tokens = false then
          (inserted, .error .overflowError)
        else if row.reservedTokens + call.tokens ≤ job.maxTokens ∧
            row.reservedCostUsd + call.costUsd ≤ job.maxCostUsd then
          (inserted.setRow call.jobId
            ⟨row.reservedTokens + call.tokens, sixPlaces (row.reservedCostUsd + call.costUsd)⟩,
            .ok ())
        else (inserted, .error (.budgetDenied .insufficient))

/-- A sequence of calls, and those of them that were granted, in order. -/
def reserveAll : BudgetStore → List ReserveCall → BudgetStore × List ReserveCall
  | store, [] => (store, [])
  | store, call :: rest =>
      let first := reserveJobBudget store call
      let later := reserveAll first.1 rest
      (later.1, match first.2 with
        | .ok _ => call :: later.2
        | .error _ => later.2)

/-- The calls of one job. -/
def ofJob (jobId : String) (calls : List ReserveCall) : List ReserveCall :=
  calls.filter (fun call => call.jobId = jobId)

/-- The calls granted to a job, of a sequence made on a store just opened. -/
def grantedTo (jobs : String → Option JobLimits) (jobId : String) (calls : List ReserveCall) :
    List ReserveCall :=
  ofJob jobId (reserveAll (.opened jobs) calls).2

def totalTokens (calls : List ReserveCall) : Nat :=
  (calls.map ReserveCall.tokens).sum

def totalCost (calls : List ReserveCall) : ℚ :=
  (calls.map ReserveCall.costUsd).sum

/-- The costs, each rounded to six places. -/
def roundedCost (calls : List ReserveCall) : ℚ :=
  (calls.map fun call => sixPlaces call.costUsd).sum

/-- Rounding has lost some of the costs. -/
def RoundingLoses (calls : List ReserveCall) : Prop :=
  roundedCost calls < totalCost calls

section Rounding

/-- Rounding a sum whose first part has six places rounds its second part. -/
theorem sixPlaces_add (x y : ℚ) :
    sixPlaces (sixPlaces x + y) = sixPlaces x + sixPlaces y := by
  have hscaled : (sixPlaces x + y) * 10 ^ 6 + 1 / 2 =
      (⌊x * 10 ^ 6 + 1 / 2⌋ : ℚ) + (y * 10 ^ 6 + 1 / 2) := by
    rw [sixPlaces]
    ring
  rw [sixPlaces, hscaled, Int.floor_intCast_add]
  push_cast
  rw [add_div]
  rfl

/-- An amount of at most six places is written as it is. -/
theorem sixPlaces_of_millionths (n : ℕ) : sixPlaces (n / 10 ^ 6) = n / 10 ^ 6 := by
  have hscaled : (n : ℚ) / 10 ^ 6 * 10 ^ 6 + 1 / 2 = (n : ℤ) + 1 / 2 := by
    push_cast
    ring
  have hhalf : ⌊(1 / 2 : ℚ)⌋ = 0 := by norm_num
  rw [sixPlaces, hscaled, Int.floor_intCast_add, hhalf]
  simp

end Rounding

section Totals

theorem ofJob_append_same
    (calls : List ReserveCall) (call : ReserveCall) :
    ofJob call.jobId (calls ++ [call]) = ofJob call.jobId calls ++ [call] := by
  simp [ofJob]

theorem ofJob_append_other
    (jobId : String) (calls : List ReserveCall) (call : ReserveCall)
    (hother : jobId ≠ call.jobId) :
    ofJob jobId (calls ++ [call]) = ofJob jobId calls := by
  simp [ofJob, hother.symm]

@[simp] theorem totalTokens_append (calls : List ReserveCall) (call : ReserveCall) :
    totalTokens (calls ++ [call]) = totalTokens calls + call.tokens := by
  simp [totalTokens]

@[simp] theorem totalCost_append (calls : List ReserveCall) (call : ReserveCall) :
    totalCost (calls ++ [call]) = totalCost calls + call.costUsd := by
  simp [totalCost]

@[simp] theorem roundedCost_append (calls : List ReserveCall) (call : ReserveCall) :
    roundedCost (calls ++ [call]) = roundedCost calls + sixPlaces call.costUsd := by
  simp [roundedCost]

theorem sixPlaces_roundedCost_add (calls : List ReserveCall) (x : ℚ) :
    sixPlaces (roundedCost calls + x) = roundedCost calls + sixPlaces x := by
  induction calls using List.reverseRecOn generalizing x with
  | nil => simp [roundedCost]
  | append_singleton calls call ih =>
      rw [roundedCost_append, add_assoc, ih, sixPlaces_add, add_assoc]

/-- Nothing is lost of costs that are not rounded down. -/
theorem not_roundingLoses
    (calls : List ReserveCall) (hcosts : ∀ call ∈ calls, call.costUsd ≤ sixPlaces call.costUsd) :
    ¬ RoundingLoses calls :=
  not_lt.mpr (List.sum_le_sum hcosts)

end Totals

section Rows

variable (store : BudgetStore)

@[simp] theorem setRow_jobs (jobId : String) (row : JobBudgetRow) :
    (store.setRow jobId row).jobs = store.jobs := by
  rfl

@[simp] theorem setRow_row_same (jobId : String) (row : JobBudgetRow) :
    (store.setRow jobId row).row jobId = row := by
  simp [BudgetStore.setRow, BudgetStore.row]

theorem setRow_row_other
    (jobId other : String) (row : JobBudgetRow) (hother : other ≠ jobId) :
    (store.setRow jobId row).row other = store.row other := by
  simp [BudgetStore.setRow, BudgetStore.row, Function.update_of_ne hother]

/-- Inserting the row that is read when there is none changes no amount. -/
@[simp] theorem setRow_row_row (jobId other : String) :
    (store.setRow jobId (store.row jobId)).row other = store.row other := by
  by_cases hother : other = jobId
  · rw [hother, setRow_row_same]
  · exact setRow_row_other store jobId other _ hother

/-- The update grants a call. -/
def Grants (call : ReserveCall) (job : JobLimits) : Prop :=
  store.jobs call.jobId = some job ∧ 0 < job.maxTokens ∧ 0 < job.maxCostUsd ∧
    fitsSqlite call.tokens = true ∧
    (store.row call.jobId).reservedTokens + call.tokens ≤ job.maxTokens ∧
    (store.row call.jobId).reservedCostUsd + call.costUsd ≤ job.maxCostUsd

/-- What is written for a call that is granted. -/
def grantedRow (call : ReserveCall) : JobBudgetRow :=
  ⟨(store.row call.jobId).reservedTokens + call.tokens,
    sixPlaces ((store.row call.jobId).reservedCostUsd + call.costUsd)⟩

theorem isConfigured_iff (job : JobLimits) :
    isConfigured (some ⟨some job.maxTokens, some job.maxCostUsd⟩) = true ↔
      0 < job.maxTokens ∧ 0 < job.maxCostUsd := by
  simp [isConfigured]

/-- What a call does: it raises and changes no amount, or its amounts are added. -/
theorem reserveJobBudget_cases (call : ReserveCall) :
    ((∀ job, ¬ Grants store call job) ∧
      (∃ error, (reserveJobBudget store call).2 = .error error) ∧
      (reserveJobBudget store call).1.jobs = store.jobs ∧
      ∀ jobId, (reserveJobBudget store call).1.row jobId = store.row jobId) ∨
    (∃ job, Grants store call job ∧
      (reserveJobBudget store call).2 = .ok () ∧
      (reserveJobBudget store call).1.jobs = store.jobs ∧
      (reserveJobBudget store call).1.row call.jobId = grantedRow store call ∧
      ∀ jobId, jobId ≠ call.jobId →
        (reserveJobBudget store call).1.row jobId = store.row jobId) := by
  cases hjob : store.jobs call.jobId with
  | none =>
      left
      have hcall : reserveJobBudget store call = (store, .error (.budgetDenied .unset)) := by
        simp [reserveJobBudget, hjob]
      rw [hcall]
      exact ⟨fun job h => by simp [Grants, hjob] at h, ⟨_, rfl⟩, rfl, fun _ => rfl⟩
  | some job =>
      by_cases hset : isConfigured (some ⟨some job.maxTokens, some job.maxCostUsd⟩) = true
      · by_cases hfits : fitsSqlite call.tokens = true
        · by_cases hroom : (store.row call.jobId).reservedTokens + call.tokens ≤ job.maxTokens ∧
              (store.row call.jobId).reservedCostUsd + call.costUsd ≤ job.maxCostUsd
          · right
            have hcall : reserveJobBudget store call =
                ((store.setRow call.jobId (store.row call.jobId)).setRow call.jobId
                  (grantedRow store call), .ok ()) := by
              simp [reserveJobBudget, hjob, hset, hfits, hroom, grantedRow]
            obtain ⟨htokens, hcost⟩ := (isConfigured_iff job).mp hset
            rw [hcall]
            refine ⟨job, ⟨hjob, htokens, hcost, hfits, hroom⟩, rfl, rfl, ?_, ?_⟩
            · exact setRow_row_same _ _ _
            · intro jobId hother
              rw [setRow_row_other _ _ _ _ hother, setRow_row_row]
          · left
            have hcall : reserveJobBudget store call =
                (store.setRow call.jobId (store.row call.jobId),
                  .error (.budgetDenied .insufficient)) := by
              simp [reserveJobBudget, hjob, hset, hfits, hroom]
            rw [hcall]
            refine ⟨?_, ⟨_, rfl⟩, rfl, setRow_row_row store call.jobId⟩
            rintro other ⟨hother, -, -, -, htokens, hcost⟩
            rw [hjob] at hother
            cases hother
            exact hroom ⟨htokens, hcost⟩
        · left
          have hcall : reserveJobBudget store call =
              (store.setRow call.jobId (store.row call.jobId), .error .overflowError) := by
            simp [reserveJobBudget, hjob, hset, hfits]
          rw [hcall]
          exact ⟨fun _ h => hfits h.2.2.2.1, ⟨_, rfl⟩, rfl, setRow_row_row store call.jobId⟩
      · left
        have hcall : reserveJobBudget store call = (store, .error (.budgetDenied .unset)) := by
          simp [reserveJobBudget, hjob, hset]
        rw [hcall]
        refine ⟨?_, ⟨_, rfl⟩, rfl, fun _ => rfl⟩
        rintro other ⟨hother, htokens, hcost, -⟩
        rw [hjob] at hother
        cases hother
        exact hset ((isConfigured_iff job).mpr ⟨htokens, hcost⟩)

end Rows

section Runs

variable (jobs : String → Option JobLimits)

theorem reserveAll_append
    (store : BudgetStore) (calls : List ReserveCall) (call : ReserveCall) :
    reserveAll store (calls ++ [call]) =
      ((reserveJobBudget (reserveAll store calls).1 call).1,
        match (reserveJobBudget (reserveAll store calls).1 call).2 with
        | .ok _ => (reserveAll store calls).2 ++ [call]
        | .error _ => (reserveAll store calls).2) := by
  induction calls generalizing store with
  | nil =>
      rfl
  | cons first rest ih =>
      rw [List.cons_append, reserveAll, ih, reserveAll]
      cases (reserveJobBudget store first).2 <;>
        cases (reserveJobBudget
          (reserveAll (reserveJobBudget store first).1 rest).1 call).2 <;> rfl

/-- The rows hold the sums of what was granted, the costs rounded one by one. -/
structure Ledger (store : BudgetStore) (granted : List ReserveCall) : Prop where
  jobs_eq : store.jobs = jobs
  tokens : ∀ jobId, (store.row jobId).reservedTokens = totalTokens (ofJob jobId granted)
  cost : ∀ jobId, (store.row jobId).reservedCostUsd = roundedCost (ofJob jobId granted)
  within : ∀ jobId job, jobs jobId = some job →
    totalTokens (ofJob jobId granted) ≤ job.maxTokens
  configured : ∀ jobId job, jobs jobId = some job → ofJob jobId granted ≠ [] →
    0 < job.maxTokens ∧ 0 < job.maxCostUsd

theorem Ledger.opened : Ledger jobs (.opened jobs) [] where
  jobs_eq := rfl
  tokens _ := rfl
  cost _ := rfl
  within _ _ _ := Nat.zero_le _
  configured _ _ _ hgranted := absurd rfl hgranted

variable {jobs}

theorem Ledger.grant
    {store : BudgetStore} {granted : List ReserveCall} (hledger : Ledger jobs store granted)
    (call : ReserveCall) (job : JobLimits) (hgrants : Grants store call job)
    {after : BudgetStore} (hjobs : after.jobs = store.jobs)
    (hsame : after.row call.jobId = grantedRow store call)
    (hother : ∀ jobId, jobId ≠ call.jobId → after.row jobId = store.row jobId) :
    Ledger jobs after (granted ++ [call]) where
  jobs_eq := hjobs.trans hledger.jobs_eq
  tokens jobId := by
    by_cases hid : jobId = call.jobId
    · rw [hid, hsame, ofJob_append_same, totalTokens_append, grantedRow, hledger.tokens]
    · rw [hother jobId hid, ofJob_append_other jobId granted call hid, hledger.tokens]
  cost jobId := by
    by_cases hid : jobId = call.jobId
    · rw [hid, hsame, ofJob_append_same, roundedCost_append, grantedRow, hledger.cost,
        sixPlaces_roundedCost_add]
    · rw [hother jobId hid, ofJob_append_other jobId granted call hid, hledger.cost]
  within jobId other hlimits := by
    by_cases hid : jobId = call.jobId
    · obtain ⟨hjob, -, -, -, htokens, -⟩ := hgrants
      rw [hledger.jobs_eq, ← hid, hlimits] at hjob
      cases hjob
      rw [hid, ofJob_append_same, totalTokens_append, ← hledger.tokens]
      exact htokens
    · rw [ofJob_append_other jobId granted call hid]
      exact hledger.within jobId other hlimits
  configured jobId other hlimits hgranted := by
    by_cases hid : jobId = call.jobId
    · obtain ⟨hjob, htokens, hcost, -⟩ := hgrants
      rw [hledger.jobs_eq, ← hid, hlimits] at hjob
      cases hjob
      exact ⟨htokens, hcost⟩
    · rw [ofJob_append_other jobId granted call hid] at hgranted
      exact hledger.configured jobId other hlimits hgranted

theorem Ledger.deny
    {store after : BudgetStore} {granted : List ReserveCall} (hledger : Ledger jobs store granted)
    (hjobs : after.jobs = store.jobs) (hrows : ∀ jobId, after.row jobId = store.row jobId) :
    Ledger jobs after granted where
  jobs_eq := hjobs.trans hledger.jobs_eq
  tokens jobId := by rw [hrows, hledger.tokens]
  cost jobId := by rw [hrows, hledger.cost]
  within := hledger.within
  configured := hledger.configured

variable (jobs)

theorem reserveAll_ledger (calls : List ReserveCall) :
    Ledger jobs (reserveAll (.opened jobs) calls).1 (reserveAll (.opened jobs) calls).2 := by
  induction calls using List.reverseRecOn with
  | nil => exact Ledger.opened jobs
  | append_singleton calls call ih =>
      rw [reserveAll_append]
      rcases reserveJobBudget_cases (reserveAll (.opened jobs) calls).1 call with
        ⟨-, ⟨error, herror⟩, hjobs, hrows⟩ | ⟨job, hgrants, hok, hjobs, hsame, hother⟩
      · simp only [herror]
        exact ih.deny hjobs hrows
      · simp only [hok]
        exact ih.grant call job hgrants hjobs hsame hother

theorem reserveAll_subset (store : BudgetStore) (calls : List ReserveCall) :
    (reserveAll store calls).2 ⊆ calls := by
  induction calls generalizing store with
  | nil => exact List.Subset.refl []
  | cons first rest ih =>
      rw [reserveAll]
      cases (reserveJobBudget store first).2 with
      | ok _ => exact List.cons_subset_cons first (ih _)
      | error _ => exact List.subset_cons_of_subset first (ih _)

/-- What is granted of a sequence with one call more. -/
theorem grantedTo_append
    (calls : List ReserveCall) (call : ReserveCall) (job : JobLimits)
    (hjob : jobs call.jobId = some job) :
    (Grants (reserveAll (.opened jobs) calls).1 call job ∧
      grantedTo jobs call.jobId (calls ++ [call]) = grantedTo jobs call.jobId calls ++ [call]) ∨
    (¬ Grants (reserveAll (.opened jobs) calls).1 call job ∧
      grantedTo jobs call.jobId (calls ++ [call]) = grantedTo jobs call.jobId calls) := by
  have hledger := reserveAll_ledger jobs calls
  rcases reserveJobBudget_cases (reserveAll (.opened jobs) calls).1 call with
    ⟨hnone, ⟨error, herror⟩, -, -⟩ | ⟨other, hgrants, hok, -, -, -⟩
  · refine Or.inr ⟨hnone job, ?_⟩
    simp only [grantedTo, reserveAll_append, herror]
  · have hother := hgrants.1
    rw [hledger.jobs_eq, hjob] at hother
    cases hother
    refine Or.inl ⟨hgrants, ?_⟩
    simp only [grantedTo, reserveAll_append, hok, ofJob_append_same]

theorem grantedTo_append_other
    (calls : List ReserveCall) (call : ReserveCall) (jobId : String)
    (hother : jobId ≠ call.jobId) :
    grantedTo jobs jobId (calls ++ [call]) = grantedTo jobs jobId calls := by
  simp only [grantedTo, reserveAll_append]
  cases (reserveJobBudget (reserveAll (.opened jobs) calls).1 call).2 with
  | ok _ => exact ofJob_append_other jobId _ call hother
  | error _ => rfl

/-- A call that is granted leaves the exact sum within the limit, if nothing was lost before. -/
theorem totalCost_append_le
    (calls : List ReserveCall) (call : ReserveCall) (job : JobLimits)
    (hjob : jobs call.jobId = some job)
    (hcost : totalCost (grantedTo jobs call.jobId calls) ≤ job.maxCostUsd)
    (hkept : ¬ RoundingLoses (grantedTo jobs call.jobId calls)) :
    totalCost (grantedTo jobs call.jobId (calls ++ [call])) ≤ job.maxCostUsd := by
  rcases grantedTo_append jobs calls call job hjob with ⟨hgrants, heq⟩ | ⟨-, heq⟩
  · obtain ⟨-, -, -, -, -, hroom⟩ := hgrants
    rw [(reserveAll_ledger jobs calls).cost] at hroom
    have hsum : totalCost (grantedTo jobs call.jobId calls) ≤
        roundedCost (grantedTo jobs call.jobId calls) := not_lt.mp hkept
    rw [heq, totalCost_append]
    calc
      totalCost (grantedTo jobs call.jobId calls) + call.costUsd
          ≤ roundedCost (grantedTo jobs call.jobId calls) + call.costUsd := by linarith
      _ ≤ job.maxCostUsd := hroom
  · rw [heq]
    exact hcost

/-- When rounding has lost something, a call for all that seems left exceeds the limit. -/
theorem exceeding_call
    (calls : List ReserveCall) (jobId : String) (job : JobLimits)
    (hjob : jobs jobId = some job)
    (hcost : totalCost (grantedTo jobs jobId calls) ≤ job.maxCostUsd)
    (hlost : RoundingLoses (grantedTo jobs jobId calls)) :
    ∃ call : ReserveCall, call.jobId = jobId ∧
      job.maxCostUsd < totalCost (grantedTo jobs jobId (calls ++ [call])) := by
  have hlost' : roundedCost (grantedTo jobs jobId calls) <
      totalCost (grantedTo jobs jobId calls) := hlost
  let call : ReserveCall :=
    ⟨jobId, 0, job.maxCostUsd - roundedCost (grantedTo jobs jobId calls), by linarith⟩
  refine ⟨call, rfl, ?_⟩
  have hledger := reserveAll_ledger jobs calls
  have hgranted : grantedTo jobs jobId calls ≠ [] := by
    intro hnil
    rw [hnil] at hlost'
    simp [roundedCost, totalCost] at hlost'
  have hset := hledger.configured jobId job hjob hgranted
  have hfits : fitsSqlite ((0 : Nat) : Int) = true := by decide
  have hgrants : Grants (reserveAll (.opened jobs) calls).1 call job := by
    refine ⟨by rw [hledger.jobs_eq, hjob], hset.1, hset.2, hfits, ?_, ?_⟩
    · rw [hledger.tokens]
      exact hledger.within jobId job hjob
    · rw [hledger.cost]
      change roundedCost (grantedTo jobs jobId calls) + call.costUsd ≤ job.maxCostUsd
      simp [call]
  rcases grantedTo_append jobs calls call job hjob with ⟨-, heq⟩ | ⟨hdenied, -⟩
  · rw [heq, totalCost_append]
    change job.maxCostUsd < totalCost (grantedTo jobs jobId calls) +
      (job.maxCostUsd - roundedCost (grantedTo jobs jobId calls))
    linarith
  · exact absurd hgrants hdenied

/-- While nothing is lost before a call, the exact sum stays within the limit. -/
theorem totalCost_le
    (calls : List ReserveCall) (jobId : String) (job : JobLimits)
    (hjob : jobs jobId = some job)
    (hkept : ∀ front call back, calls = front ++ call :: back →
      ¬ RoundingLoses (grantedTo jobs jobId front)) :
    totalCost (grantedTo jobs jobId calls) ≤ job.maxCostUsd := by
  induction calls using List.reverseRecOn with
  | nil => exact job.maxCostUsd_nonneg
  | append_singleton calls call ih =>
      have hearlier := ih fun front c back heq =>
        hkept front c (back ++ [call]) (by simp [heq])
      by_cases hid : jobId = call.jobId
      · rw [hid] at hjob hearlier ⊢
        refine totalCost_append_le jobs calls call job hjob hearlier ?_
        rw [← hid]
        exact hkept calls call [] rfl
      · rw [grantedTo_append_other jobs calls call jobId hid]
        exact hearlier

theorem totalTokens_le
    (calls : List ReserveCall) (jobId : String) (job : JobLimits)
    (hjob : jobs jobId = some job) :
    totalTokens (grantedTo jobs jobId calls) ≤ job.maxTokens :=
  (reserveAll_ledger jobs calls).within jobId job hjob

theorem denied_changes_nothing
    (store : BudgetStore) (call : ReserveCall) (error : ReserveError)
    (herror : (reserveJobBudget store call).2 = .error error) (jobId : String) :
    (reserveJobBudget store call).1.row jobId = store.row jobId := by
  rcases reserveJobBudget_cases store call with ⟨-, -, -, hrows⟩ | ⟨job, -, hok, -⟩
  · exact hrows jobId
  · rw [hok] at herror
    cases herror

/-- The tokens of a job stay within its limit in every run, and a call that raises changes
no amount.  The costs stay within it in every run in which, before each call, rounding has
lost nothing of what was granted; and once it has lost something, the limit is not kept by
every next call. -/
theorem job_budget_holds_unless_rounding_loses
    (calls : List ReserveCall) (jobId : String) (job : JobLimits)
    (hjob : jobs jobId = some job) :
    totalTokens (grantedTo jobs jobId calls) ≤ job.maxTokens ∧
      (∀ store call error, (reserveJobBudget store call).2 = .error error →
        ∀ other, (reserveJobBudget store call).1.row other = store.row other) ∧
      ((∀ front call back, calls = front ++ call :: back →
          ¬ RoundingLoses (grantedTo jobs jobId front)) →
        totalCost (grantedTo jobs jobId calls) ≤ job.maxCostUsd) ∧
      (totalCost (grantedTo jobs jobId calls) ≤ job.maxCostUsd →
        ((∀ call : ReserveCall, call.jobId = jobId →
            totalCost (grantedTo jobs jobId (calls ++ [call])) ≤ job.maxCostUsd) ↔
          ¬ RoundingLoses (grantedTo jobs jobId calls))) := by
  refine ⟨totalTokens_le jobs calls jobId job hjob, denied_changes_nothing,
    totalCost_le jobs calls jobId job hjob, fun hcost => ⟨?_, ?_⟩⟩
  · intro hnext hlost
    obtain ⟨call, hid, hexceeds⟩ := exceeding_call jobs calls jobId job hjob hcost hlost
    exact absurd (hnext call hid) (not_le.mpr hexceeds)
  · rintro hkept call rfl
    exact totalCost_append_le jobs calls call job hjob hcost hkept

end Runs

/-- A job that may spend 100 tokens and a millionth of a dollar. -/
def smallJob : JobLimits :=
  ⟨100, 1 / 10 ^ 6, by decide, by norm_num⟩

/-- A prompt of one token. -/
def smallCall : ReserveCall :=
  ⟨"job", 1, 15 / 10 ^ 8, by norm_num⟩

theorem twoHundred_fits : fitsSqlite 200 = true := by decide

theorem dollar_nonneg : (0 : ℚ) ≤ 1 := by norm_num

theorem twentyCents_nonneg : (0 : ℚ) ≤ 1 / 5 := by norm_num

/-- Two calls for twenty cents each are written as they are. -/
theorem job_budget_holds_unless_rounding_loses_cents :
    let call : ReserveCall := ⟨"job", 60, 1 / 5, twentyCents_nonneg⟩
    let job : JobLimits := ⟨200, 1, twoHundred_fits, dollar_nonneg⟩
    grantedTo (fun _ => some job) "job" [call, call] = [call, call] ∧
      totalCost (grantedTo (fun _ => some job) "job" [call, call]) ≤ job.maxCostUsd := by
  intro call job
  refine ⟨by decide +kernel, (job_budget_holds_unless_rounding_loses (fun _ => some job)
    [call, call] "job" job rfl).2.2.1 ?_⟩
  intro front next back hsplit
  refine not_roundingLoses _ fun granted hgranted => ?_
  have hmem : granted ∈ front := reserveAll_subset _ front (List.mem_of_mem_filter hgranted)
  have hcall : granted = call := by
    have hall : granted ∈ [call, call] := by simp [hsplit, hmem]
    simpa using hall
  have hcost : call.costUsd = (200000 : ℕ) / 10 ^ 6 := by norm_num [call]
  rw [hcall, hcost, sixPlaces_of_millionths]

/-- Seven prompts of one token cost more than a millionth of a dollar, and each is granted:
what is written for each is 0. -/
theorem small_calls_exceed :
    costUsdFor "openai" "gpt-4o-mini" 1 0 = some smallCall.costUsd ∧
      grantedTo (fun _ => some smallJob) "job" (List.replicate 7 smallCall) =
        List.replicate 7 smallCall ∧
      smallJob.maxCostUsd < totalCost (List.replicate 7 smallCall) := by
  decide +kernel

end LocalStore
end PrReviewer
