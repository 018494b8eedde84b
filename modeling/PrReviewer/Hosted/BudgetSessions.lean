import PrReviewer.Hosted.Budget

/-!
# Budget calls under way

How far a budget call is, given the committed tables: `BudgetProgress` has one case for
each point between two statements, with what the rows the call has locked still say.
The statements of the call and the commits of the others keep it (`Lib.Relies`), so that
a commit is the whole call done at once, and the sums over the held reservations follow
from what a whole call writes.
-/

namespace PrReviewer
namespace Hosted

open Lib

/-! ## The sums -/

/-- What a reservation holds of a repository, in tokens or in cost. -/
def heldAmount
    (amount : RepositoryBudgetReservationRow → Nat) (repository : Int × Int)
    (row : RepositoryBudgetReservationRow) : Nat :=
  if row.status = .held ∧ row.repository = repository then amount row else 0

/-- The sum over the held reservations of a repository. -/
def BudgetTables.heldTotal
    (s : BudgetTables) (amount : RepositoryBudgetReservationRow → Nat)
    (repository : Int × Int) : Nat :=
  (s.repositoryBudgetReservations.rows.map (heldAmount amount repository)).sum

/-- The totals of every repository are the sums over its held reservations. -/
structure BudgetTables.Sound (s : BudgetTables) : Prop where
  tokens : ∀ b ∈ s.repositoryBudgets.rows,
    b.reservedTokens = s.heldTotal (·.tokens) b.repository
  costUsd : ∀ b ∈ s.repositoryBudgets.rows,
    b.reservedCostUsd = s.heldTotal (·.costUsd) b.repository
  budgeted : ∀ row ∈ s.repositoryBudgetReservations.rows, row.status = .held →
    s.repositoryBudgets.find? row.repository ≠ none

/-! ## How far a call is -/

/-- The writes of a call that returns, with what its rows say in the committed tables. -/
inductive BudgetCommit (installationExists : Int → Bool) (s : BudgetTables) :
    BudgetCall → List BudgetWrite → Prop
  | unchanged (call : BudgetCall) : BudgetCommit installationExists s call []
  | limitsSet (i r : Int) (maxTokens maxCostUsd : Option Int) (b : RepositoryBudgetRow)
      (h : maxTokens.all fitsInteger = true ∧ maxCostUsd.all fitsNumeric = true)
      (hids : (fitsBigint i && fitsBigint r) = true)
      (hb : s.repositoryBudgets.find? (i, r) = some b) :
      BudgetCommit installationExists s (.upsertRepositoryBudget i r maxTokens maxCostUsd)
        [.budget (b.setLimits maxTokens maxCostUsd h)]
  | budgetCreated (i r : Int) (maxTokens maxCostUsd : Option Int)
      (h : maxTokens.all fitsInteger = true ∧ maxCostUsd.all fitsNumeric = true)
      (hids : (fitsBigint i && fitsBigint r) = true)
      (hnone : s.repositoryBudgets.find? (i, r) = none)
      (hinstallation : installationExists i = true) :
      BudgetCommit installationExists s (.upsertRepositoryBudget i r maxTokens maxCostUsd)
        [.budget (.new i r maxTokens maxCostUsd h)]
  | reserved (i r : Int) (jobId : Uuid) (tokens costUsd : Nat) (b : RepositoryBudgetRow)
      (hb : s.repositoryBudgets.find? (i, r) = some b)
      (hallows : b.allows tokens costUsd = true)
      (hjob : s.repositoryBudgetReservations.find? jobId = none) :
      BudgetCommit installationExists s (.reserveRepositoryBudget i r jobId tokens costUsd)
        [.budget (b.addReserved tokens costUsd),
          .reservation (heldReservation i r jobId tokens costUsd)]
  | released (jobId : Uuid) (row : RepositoryBudgetReservationRow) (b : RepositoryBudgetRow)
      (hrow : s.repositoryBudgetReservations.find? jobId = some row)
      (hheld : row.status = .held)
      (hb : s.repositoryBudgets.find? row.repository = some b)
      (hle : row.tokens ≤ b.reservedTokens ∧ row.costUsd ≤ b.reservedCostUsd) :
      BudgetCommit installationExists s (.releaseRepositoryReservation jobId)
        [.reservation { row with status := .released },
          .budget (b.subtractReserved row.tokens row.costUsd)]

/-- The points between two statements of a budget call. -/
inductive BudgetProgress (installationExists : Int → Bool) (s : BudgetTables) :
    BudgetCall → BudgetProgram Unit → List BudgetWrite → Prop
  | begun (call : BudgetCall) : BudgetProgress installationExists s call call.program []
  | returned (call : BudgetCall) (writes : List BudgetWrite)
      (h : BudgetCommit installationExists s call writes) :
      BudgetProgress installationExists s call (.ret ()) writes
  | raised (call : BudgetCall) (e : BudgetError) (writes : List BudgetWrite)
      (hdenied : ∀ reason, e = .budgetDenied reason → writes = []) :
      BudgetProgress installationExists s call (.raise e) writes
  | notHeld (i r : Int) (jobId : Uuid) (tokens costUsd : Nat) :
      BudgetProgress installationExists s (.reserveRepositoryBudget i r jobId tokens costUsd)
        (holdReservation i r jobId tokens costUsd) []
  | denied (i r : Int) (jobId : Uuid) (tokens costUsd : Nat) :
      BudgetProgress installationExists s (.reserveRepositoryBudget i r jobId tokens costUsd)
        (denyReservation i r) []
  | added (i r : Int) (jobId : Uuid) (tokens costUsd : Nat) (b : RepositoryBudgetRow)
      (hb : s.repositoryBudgets.find? (i, r) = some b)
      (hallows : b.allows tokens costUsd = true) :
      BudgetProgress installationExists s (.reserveRepositoryBudget i r jobId tokens costUsd)
        (executeBudget (.insertReservation (heldReservation i r jobId tokens costUsd)))
        [.budget (b.addReserved tokens costUsd)]
  | releasing (jobId : Uuid) (row : RepositoryBudgetReservationRow)
      (hrow : s.repositoryBudgetReservations.find? jobId = some row)
      (hheld : row.status = .held) :
      BudgetProgress installationExists s (.releaseRepositoryReservation jobId)
        (executeBudget (.subtractReserved row.installationId row.githubRepositoryId row.tokens
          row.costUsd))
        [.reservation { row with status := .released }]

/-! ## What a statement that answers found -/

section Answers

variable {installationExists : Int → Bool} {s : BudgetTables}

theorem upsertLimitsOutcome_ok
    {i r : Int} {maxTokens maxCostUsd : Option Int} {write : Option BudgetWrite}
    (h : upsertLimitsOutcome installationExists s i r maxTokens maxCostUsd = (.ok (), write)) :
    ∃ hlimits, (fitsBigint i && fitsBigint r) = true ∧
      ((∃ b, s.repositoryBudgets.find? (i, r) = some b ∧
        write = some (.budget (b.setLimits maxTokens maxCostUsd hlimits))) ∨
      (s.repositoryBudgets.find? (i, r) = none ∧ installationExists i = true ∧
        write = some (.budget (.new i r maxTokens maxCostUsd hlimits)))) := by
  unfold upsertLimitsOutcome at h
  split at h
  · next hlimits =>
      split at h
      · next hids =>
          refine ⟨hlimits, hids, ?_⟩
          split at h
          · next b hb =>
              cases h
              exact .inl ⟨b, hb, rfl⟩
          · next hnone =>
              split at h
              · next hinstallation =>
                  cases h
                  exact .inr ⟨hnone, hinstallation, rfl⟩
              · cases h
      · cases h
  · cases h

theorem addReservedOutcome_ok
    {i r : Int} {tokens costUsd : Nat} {updated : Bool} {write : Option BudgetWrite}
    (h : addReservedOutcome s i r tokens costUsd = (.ok updated, write)) :
    (updated = false ∧ write = none) ∨
      ∃ b, s.repositoryBudgets.find? (i, r) = some b ∧ b.allows tokens costUsd = true ∧
        updated = true ∧ write = some (.budget (b.addReserved tokens costUsd)) := by
  unfold addReservedOutcome at h
  split at h
  · cases h
    exact .inl ⟨rfl, rfl⟩
  · next b hb =>
      split at h
      · next hconfigured =>
          split at h
          · cases h
          · next hoverflows =>
              split at h
              · next hfits =>
                  cases h
                  exact .inr
                    ⟨b, hb, by simp [RepositoryBudgetRow.allows, hconfigured, hoverflows, hfits],
                      rfl, rfl⟩
              · cases h
                exact .inl ⟨rfl, rfl⟩
      · cases h
        exact .inl ⟨rfl, rfl⟩

theorem insertReservationOutcome_ok
    {row : RepositoryBudgetReservationRow} {write : Option BudgetWrite}
    (h : insertReservationOutcome s row = (.ok (), write)) :
    s.repositoryBudgetReservations.find? row.jobId = none ∧ write = some (.reservation row) := by
  unfold insertReservationOutcome at h
  split at h
  · split at h
    · next hnone =>
        cases h
        exact ⟨hnone, rfl⟩
    · cases h
  · cases h

theorem releaseHeldOutcome_ok
    {jobId : Uuid} {returned : Option RepositoryBudgetReservationRow}
    {write : Option BudgetWrite}
    (h : releaseHeldOutcome s jobId = (.ok returned, write)) :
    (returned = none ∧ write = none) ∨
      ∃ row, s.repositoryBudgetReservations.find? jobId = some row ∧ row.status = .held ∧
        returned = some row ∧ write = some (.reservation { row with status := .released }) := by
  unfold releaseHeldOutcome at h
  split at h
  · cases h
    exact .inl ⟨rfl, rfl⟩
  · next row hrow =>
      split at h
      · next hheld =>
          cases h
          exact .inr ⟨row, hrow, hheld, rfl, rfl⟩
      · cases h
        exact .inl ⟨rfl, rfl⟩

theorem subtractReservedOutcome_ok
    {i r : Int} {tokens costUsd : Nat} {write : Option BudgetWrite}
    (h : subtractReservedOutcome s i r tokens costUsd = (.ok (), write)) :
    (s.repositoryBudgets.find? (i, r) = none ∧ write = none) ∨
      ∃ b, s.repositoryBudgets.find? (i, r) = some b ∧
        (tokens ≤ b.reservedTokens ∧ costUsd ≤ b.reservedCostUsd) ∧
        write = some (.budget (b.subtractReserved tokens costUsd)) := by
  unfold subtractReservedOutcome at h
  split at h
  · next hnone =>
      cases h
      exact .inl ⟨hnone, rfl⟩
  · next b hb =>
      split at h
      · next hle =>
          cases h
          exact .inr ⟨b, hb, hle, rfl⟩
      · cases h

end Answers

/-! ## Every statement carries a call to its next point -/

section Progress

variable {installationExists : Int → Bool} {s : BudgetTables}

/-- An error of the database is raised, and no denial; the rest is what an answer leads to. -/
theorem progress_call
    {call : BudgetCall} {writes : List BudgetWrite} {op : BudgetStatement}
    {next : op.Result → BudgetProgram Unit}
    (hok : ∀ rows write,
      op.outcome installationExists ((budgetStatements installationExists).view s writes) =
        (.ok rows, write) →
      BudgetProgress installationExists s call (next (.ok rows)) (writes ++ write.toList))
    (herror : ∀ e, next (.error e) = .raise (.database e)) :
    AfterStatement (budgetStatements installationExists) (BudgetProgress installationExists) s
      call writes (.call op next) := by
  unfold AfterStatement
  change BudgetProgress installationExists s call
    (next (op.outcome installationExists
      ((budgetStatements installationExists).view s writes)).1)
    (writes ++ (op.outcome installationExists
      ((budgetStatements installationExists).view s writes)).2.toList)
  cases houtcome : op.outcome installationExists
      ((budgetStatements installationExists).view s writes) with
  | mk result write =>
      cases result with
      | ok rows => exact hok rows write houtcome
      | error e =>
          simp only
          rw [herror]
          exact .raised call _ _ (fun reason h => by cases h)

/-- The next statement of a call, in tables whose held reservations have a budget. -/
theorem progress_own
    (hsound : s.Sound)
    {call : BudgetCall} {p : BudgetProgram Unit} {writes : List BudgetWrite}
    (h : BudgetProgress installationExists s call p writes) :
    AfterStatement (budgetStatements installationExists) (BudgetProgress installationExists) s
      call writes p := by
  cases h with
  | returned => trivial
  | raised => trivial
  | begun =>
      cases call with
      | upsertRepositoryBudget i r maxTokens maxCostUsd =>
          refine progress_call ?_ (fun _ => rfl)
          intro rows write h
          obtain ⟨hlimits, hids, ⟨b, hb, rfl⟩ | ⟨hnone, hinstallation, rfl⟩⟩ :=
            upsertLimitsOutcome_ok h
          · exact .returned _ _ (.limitsSet i r maxTokens maxCostUsd b hlimits hids hb)
          · exact .returned _ _
              (.budgetCreated i r maxTokens maxCostUsd hlimits hids hnone hinstallation)
      | reserveRepositoryBudget i r jobId tokens costUsd =>
          refine progress_call ?_ (fun _ => rfl)
          intro existing write h
          have hwrite : write = none := (congrArg Prod.snd h).symm
          subst hwrite
          cases existing with
          | true => exact .returned _ _ (.unchanged _)
          | false => exact .notHeld i r jobId tokens costUsd
      | releaseRepositoryReservation jobId =>
          refine progress_call ?_ (fun _ => rfl)
          intro returned write h
          obtain ⟨rfl, rfl⟩ | ⟨row, hrow, hheld, rfl, rfl⟩ := releaseHeldOutcome_ok h
          · exact .returned _ _ (.unchanged _)
          · exact .releasing jobId row hrow hheld
  | notHeld i r jobId tokens costUsd =>
      refine progress_call ?_ (fun _ => rfl)
      intro updated write h
      obtain ⟨rfl, rfl⟩ | ⟨b, hb, hallows, rfl, rfl⟩ := addReservedOutcome_ok h
      · exact .denied i r jobId tokens costUsd
      · exact .added i r jobId tokens costUsd b hb hallows
  | denied i r jobId tokens costUsd =>
      refine progress_call ?_ (fun _ => rfl)
      intro configured write h
      have hwrite : write = none := (congrArg Prod.snd h).symm
      subst hwrite
      exact .raised _ _ _ (fun _ _ => rfl)
  | added i r jobId tokens costUsd b hb hallows =>
      refine progress_call ?_ (fun _ => rfl)
      intro rows write h
      obtain ⟨hjob, rfl⟩ := insertReservationOutcome_ok h
      exact .returned _ _ (.reserved i r jobId tokens costUsd b hb hallows hjob)
  | releasing jobId row hrow hheld =>
      refine progress_call ?_ (fun _ => rfl)
      intro rows write h
      obtain ⟨hnone, rfl⟩ | ⟨b, hb, hle, rfl⟩ := subtractReservedOutcome_ok h
      · exact absurd hnone (hsound.budgeted row (Table.mem_of_find? hrow) hheld)
      · exact .returned _ _ (.released jobId row b hrow hheld hb hle)

theorem program_ne_ret
    (call : BudgetCall) :
    call.program ≠ .ret () := by
  cases call with
  | upsertRepositoryBudget => intro h; cases h
  | reserveRepositoryBudget => intro h; cases h
  | releaseRepositoryReservation => intro h; cases h

theorem BudgetProgress.commit
    {call : BudgetCall} {writes : List BudgetWrite}
    (h : BudgetProgress installationExists s call (.ret ()) writes) :
    BudgetCommit installationExists s call writes := by
  generalize hp : (Program.ret () : BudgetProgram Unit) = p at h
  cases h with
  | begun => exact absurd hp.symm (program_ne_ret call)
  | returned call writes hcommit => exact hcommit
  | raised => cases hp
  | notHeld => cases hp
  | denied => cases hp
  | added => cases hp
  | releasing => cases hp

end Progress

/-! ## The commits of the others -/

section Others

variable {installationExists : Int → Bool} {s : BudgetTables} {writes : List BudgetWrite}

/-- A row of the budgets that no write is about. -/
theorem find?_repositoryBudgets_view
    {repository : Int × Int}
    (h : ∀ w ∈ writes, w.lock ≠ .budget repository) :
    ((budgetStatements installationExists).view s writes).repositoryBudgets.find? repository =
      s.repositoryBudgets.find? repository := by
  induction writes generalizing s with
  | nil => rfl
  | cons w writes ih =>
      have hrest := ih (s := s.put w) (fun w' hw' => h w' (List.mem_cons_of_mem w hw'))
      have hfirst : (s.put w).repositoryBudgets.find? repository =
          s.repositoryBudgets.find? repository := by
        cases w with
        | reservation row => rfl
        | budget row =>
            have hne : repository ≠ row.repository := by
              intro hsame
              exact h (.budget row) (by simp) (by rw [hsame]; rfl)
            simp [BudgetTables.put, hne]
      exact hrest.trans hfirst

/-- A reservation that no write is about. -/
theorem find?_repositoryBudgetReservations_view
    {jobId : Uuid}
    (h : ∀ w ∈ writes, w.lock ≠ .reservation jobId) :
    ((budgetStatements installationExists).view s writes).repositoryBudgetReservations.find?
        jobId =
      s.repositoryBudgetReservations.find? jobId := by
  induction writes generalizing s with
  | nil => rfl
  | cons w writes ih =>
      have hrest := ih (s := s.put w) (fun w' hw' => h w' (List.mem_cons_of_mem w hw'))
      have hfirst : (s.put w).repositoryBudgetReservations.find? jobId =
          s.repositoryBudgetReservations.find? jobId := by
        cases w with
        | budget row => rfl
        | reservation row =>
            have hne : jobId ≠ row.jobId := by
              intro hsame
              exact h (.reservation row) (by simp) (by rw [hsame]; rfl)
            simp [BudgetTables.put, hne]
      exact hrest.trans hfirst

/-- The rows a call relies on are among those it has written. -/
theorem progress_other
    {call : BudgetCall} {p : BudgetProgram Unit} {writes' : List BudgetWrite}
    (h : BudgetProgress installationExists s call p writes)
    (hdisjoint : ∀ w ∈ writes, ∀ w' ∈ writes', w.lock ≠ w'.lock) :
    BudgetProgress installationExists
      ((budgetStatements installationExists).view s writes') call p writes := by
  have hbudget : ∀ b : RepositoryBudgetRow, .budget b ∈ writes →
      ((budgetStatements installationExists).view s writes').repositoryBudgets.find?
        b.repository = s.repositoryBudgets.find? b.repository := by
    intro b hb
    apply find?_repositoryBudgets_view
    intro w' hw' hsame
    exact hdisjoint _ hb w' hw' hsame.symm
  -- the old version of a row the call has rewritten
  have hbefore : ∀ {repository : Int × Int} {b : RepositoryBudgetRow} (b' : RepositoryBudgetRow),
      s.repositoryBudgets.find? repository = some b → b'.repository = b.repository →
      .budget b' ∈ writes →
      ((budgetStatements installationExists).view s writes').repositoryBudgets.find?
        repository = some b := by
    intro repository b b' hb hsame hwritten
    have hkept := hbudget b' hwritten
    rw [hsame, Table.key_of_find? hb] at hkept
    exact hkept.trans hb
  have hreservation : ∀ row : RepositoryBudgetReservationRow, .reservation row ∈ writes →
      ((budgetStatements installationExists).view s writes').repositoryBudgetReservations.find?
        row.jobId = s.repositoryBudgetReservations.find? row.jobId := by
    intro row hrow
    apply find?_repositoryBudgetReservations_view
    intro w' hw' hsame
    exact hdisjoint _ hrow w' hw' hsame.symm
  cases h with
  | begun => exact .begun call
  | raised call e writes hdenied => exact .raised call e writes hdenied
  | notHeld i r jobId tokens costUsd => exact .notHeld i r jobId tokens costUsd
  | denied i r jobId tokens costUsd => exact .denied i r jobId tokens costUsd
  | added i r jobId tokens costUsd b hb hallows =>
      have hb' := hbefore (b.addReserved tokens costUsd) hb rfl (by simp)
      exact .added i r jobId tokens costUsd b hb' hallows
  | releasing jobId row hrow hheld =>
      obtain rfl : row.jobId = jobId := Table.key_of_find? hrow
      have hkept := hreservation { row with status := .released } (by simp)
      exact .releasing row.jobId row (hkept.trans hrow) hheld
  | returned call writes hcommit =>
      apply BudgetProgress.returned
      cases hcommit with
      | unchanged => exact .unchanged call
      | limitsSet i r maxTokens maxCostUsd b hlimits hids hb =>
          have hb' := hbefore (b.setLimits maxTokens maxCostUsd hlimits) hb rfl (by simp)
          exact .limitsSet i r maxTokens maxCostUsd b hlimits hids hb'
      | budgetCreated i r maxTokens maxCostUsd hlimits hids hnone hinstallation =>
          have hfree := hbudget (.new i r maxTokens maxCostUsd hlimits) (by simp)
          exact .budgetCreated i r maxTokens maxCostUsd hlimits hids (hfree.trans hnone)
            hinstallation
      | reserved i r jobId tokens costUsd b hb hallows hjob =>
          have hb' := hbefore (b.addReserved tokens costUsd) hb rfl (by simp)
          have hfree := hreservation (heldReservation i r jobId tokens costUsd) (by simp)
          exact .reserved i r jobId tokens costUsd b hb' hallows (hfree.trans hjob)
      | released jobId row b hrow hheld hb hle =>
          obtain rfl : row.jobId = jobId := Table.key_of_find? hrow
          have hb' := hbefore (b.subtractReserved row.tokens row.costUsd) hb rfl (by simp)
          have hkept := hreservation { row with status := .released } (by simp)
          exact .released row.jobId row b (hkept.trans hrow) hheld hb' hle

end Others

/-! ## A whole call keeps the sums -/

section Sums

variable {s : BudgetTables}

theorem heldAmount_of_ne
    {amount : RepositoryBudgetReservationRow → Nat} {repository : Int × Int}
    {row : RepositoryBudgetReservationRow}
    (h : row.repository ≠ repository) :
    heldAmount amount repository row = 0 := by
  simp [heldAmount, h]

theorem heldAmount_of_held
    {amount : RepositoryBudgetReservationRow → Nat} {row : RepositoryBudgetReservationRow}
    (h : row.status = .held) :
    heldAmount amount row.repository row = amount row := by
  simp [heldAmount, h]

theorem heldAmount_of_not_held
    {amount : RepositoryBudgetReservationRow → Nat} {repository : Int × Int}
    {row : RepositoryBudgetReservationRow}
    (h : row.status ≠ .held) :
    heldAmount amount repository row = 0 := by
  simp [heldAmount, h]

/-- Without a budget there is nothing held. -/
theorem BudgetTables.Sound.heldTotal_eq_zero
    (h : s.Sound)
    (amount : RepositoryBudgetReservationRow → Nat)
    {repository : Int × Int}
    (hnone : s.repositoryBudgets.find? repository = none) :
    s.heldTotal amount repository = 0 := by
  unfold BudgetTables.heldTotal
  rw [List.sum_eq_zero_iff]
  intro n hn
  obtain ⟨row, hrow, rfl⟩ := List.mem_map.mp hn
  unfold heldAmount
  rw [if_neg]
  rintro ⟨hheld, rfl⟩
  exact h.budgeted row hrow hheld hnone

/-- The totals, by the keys of the rows. -/
theorem sound_iff_find?
    (s : BudgetTables) :
    s.Sound ↔
      (∀ repository b, s.repositoryBudgets.find? repository = some b →
        b.reservedTokens = s.heldTotal (·.tokens) repository ∧
        b.reservedCostUsd = s.heldTotal (·.costUsd) repository) ∧
      ∀ jobId row, s.repositoryBudgetReservations.find? jobId = some row → row.status = .held →
        s.repositoryBudgets.find? row.repository ≠ none := by
  constructor
  · intro h
    refine ⟨?_, ?_⟩
    · intro repository b hb
      obtain ⟨hmem, rfl⟩ := Table.find?_eq_some_iff.mp hb
      exact ⟨h.tokens b hmem, h.costUsd b hmem⟩
    · intro jobId row hrow
      exact h.budgeted row (Table.mem_of_find? hrow)
  · rintro ⟨hsums, hbudgeted⟩
    refine ⟨?_, ?_, ?_⟩
    · intro b hb
      exact (hsums _ b (Table.find?_of_mem hb)).1
    · intro b hb
      exact (hsums _ b (Table.find?_of_mem hb)).2
    · intro row hrow
      exact hbudgeted _ row (Table.find?_of_mem hrow)

/-- A budget written with the total its reservations come to. -/
theorem BudgetTables.Sound.put_budget
    (h : s.Sound)
    {b : RepositoryBudgetRow}
    (htokens : b.reservedTokens = s.heldTotal (·.tokens) b.repository)
    (hcost : b.reservedCostUsd = s.heldTotal (·.costUsd) b.repository) :
    (s.put (.budget b)).Sound := by
  obtain ⟨hsums, hbudgeted⟩ := (sound_iff_find? s).mp h
  rw [sound_iff_find?]
  constructor
  · intro repository b' hb'
    rw [BudgetTables.put, Table.find?_put] at hb'
    split at hb'
    · next hkey =>
        obtain rfl := Option.some.inj hb'
        rw [hkey]
        exact ⟨htokens, hcost⟩
    · exact hsums repository b' hb'
  · intro jobId row hrow hheld
    rw [BudgetTables.put, Table.find?_put]
    split
    · exact Option.some_ne_none b
    · exact hbudgeted jobId row hrow hheld

/--
A reservation and the budget of its repository written together: the budget takes over
the difference between what the old row and the new one hold.
-/
theorem BudgetTables.Sound.put_both
    (h : s.Sound)
    {b : RepositoryBudgetRow} (b' : RepositoryBudgetRow) (row : RepositoryBudgetReservationRow)
    (hb : s.repositoryBudgets.find? row.repository = some b)
    (hkey : b'.repository = row.repository)
    (hold : ∀ old, s.repositoryBudgetReservations.find? row.jobId = some old →
      old.repository = row.repository)
    (htokens : b'.reservedTokens +
        (s.repositoryBudgetReservations.find? row.jobId).elim 0
          (heldAmount (·.tokens) row.repository) =
      b.reservedTokens + heldAmount (·.tokens) row.repository row)
    (hcost : b'.reservedCostUsd +
        (s.repositoryBudgetReservations.find? row.jobId).elim 0
          (heldAmount (·.costUsd) row.repository) =
      b.reservedCostUsd + heldAmount (·.costUsd) row.repository row) :
    ((s.put (.budget b')).put (.reservation row)).Sound := by
  obtain ⟨hsums, hbudgeted⟩ := (sound_iff_find? s).mp h
  -- what the write of the reservation does to every sum
  have htotal : ∀ (amount : RepositoryBudgetReservationRow → Nat) (repository : Int × Int),
      ((s.put (.budget b')).put (.reservation row)).heldTotal amount repository +
          (s.repositoryBudgetReservations.find? row.jobId).elim 0
            (heldAmount amount repository) =
        s.heldTotal amount repository + heldAmount amount repository row := by
    intro amount repository
    exact s.repositoryBudgetReservations.sum_put row (heldAmount amount repository)
  have hother : ∀ (amount : RepositoryBudgetReservationRow → Nat) (repository : Int × Int),
      row.repository ≠ repository →
      ((s.put (.budget b')).put (.reservation row)).heldTotal amount repository =
        s.heldTotal amount repository := by
    intro amount repository hne
    have hsum := htotal amount repository
    rw [heldAmount_of_ne hne] at hsum
    cases hfind : s.repositoryBudgetReservations.find? row.jobId with
    | none =>
        rw [hfind] at hsum
        exact hsum
    | some old =>
        rw [hfind, Option.elim, heldAmount_of_ne ((hold old hfind).trans_ne hne)] at hsum
        exact hsum
  rw [sound_iff_find?]
  constructor
  · intro repository b₁ hb₁
    change (s.repositoryBudgets.put b').find? repository = some b₁ at hb₁
    rw [Table.find?_put, hkey] at hb₁
    split at hb₁
    · next hrepository =>
        subst hrepository
        obtain rfl := Option.some.inj hb₁
        obtain ⟨htokens₀, hcost₀⟩ := hsums row.repository b hb
        have htokens₁ := htotal (·.tokens) row.repository
        have hcost₁ := htotal (·.costUsd) row.repository
        constructor
        · omega
        · omega
    · next hne =>
        rw [hother _ _ (Ne.symm hne), hother _ _ (Ne.symm hne)]
        exact hsums repository b₁ hb₁
  · intro jobId row' hrow' hheld
    change (s.repositoryBudgets.put b').find? row'.repository ≠ none
    change (s.repositoryBudgetReservations.put row).find? jobId = some row' at hrow'
    rw [Table.find?_put, hkey]
    rw [Table.find?_put] at hrow'
    split
    · exact Option.some_ne_none b'
    · next hne =>
        split at hrow'
        · obtain rfl := Option.some.inj hrow'
          exact absurd rfl hne
        · exact hbudgeted jobId row' hrow' hheld

theorem BudgetTables.Sound.commit
    {installationExists : Int → Bool} {call : BudgetCall} {writes : List BudgetWrite}
    (h : s.Sound)
    (hcommit : BudgetCommit installationExists s call writes) :
    ((budgetStatements installationExists).view s writes).Sound := by
  obtain ⟨hsums, _⟩ := (sound_iff_find? s).mp h
  cases hcommit with
  | unchanged => exact h
  | limitsSet i r maxTokens maxCostUsd b hlimits hids hb =>
      obtain ⟨htokens, hcost⟩ := hsums (i, r) b hb
      have hkey : b.repository = (i, r) := Table.key_of_find? hb
      rw [← hkey] at htokens hcost
      exact h.put_budget htokens hcost
  | budgetCreated i r maxTokens maxCostUsd hlimits hids hnone hinstallation =>
      exact h.put_budget (h.heldTotal_eq_zero _ hnone).symm (h.heldTotal_eq_zero _ hnone).symm
  | reserved i r jobId tokens costUsd b hb hallows hjob =>
      have hkey : b.repository = (i, r) := Table.key_of_find? hb
      have hfree : s.repositoryBudgetReservations.find?
          (heldReservation i r jobId tokens costUsd).jobId = none := hjob
      refine h.put_both _ _ hb hkey ?_ ?_ ?_
      · intro old hold
        rw [hfree] at hold
        cases hold
      · rw [hfree, heldAmount_of_held rfl]
        rfl
      · rw [hfree, heldAmount_of_held rfl]
        rfl
  | released jobId row b hrow hheld hb hle =>
      obtain rfl : row.jobId = jobId := Table.key_of_find? hrow
      have hkey : b.repository = row.repository := Table.key_of_find? hb
      have hsame : RepositoryBudgetReservationRow.repository { row with status := .released } =
          row.repository := rfl
      have hnot : RepositoryBudgetReservationRow.status { row with status := .released } ≠
          .held := by
        simp
      refine h.put_both _ { row with status := .released } hb hkey ?_ ?_ ?_
      · intro old hold
        rw [hrow] at hold
        obtain rfl := Option.some.inj hold
        rfl
      · rw [hsame, heldAmount_of_not_held hnot, hrow, Option.elim, heldAmount_of_held hheld]
        exact Nat.sub_add_cancel hle.1
      · rw [hsame, heldAmount_of_not_held hnot, hrow, Option.elim, heldAmount_of_held hheld]
        exact Nat.sub_add_cancel hle.2

end Sums

theorem budget_relies
    (installationExists : Int → Bool) :
    Relies (budgetStatements installationExists) BudgetTables.Sound
      (BudgetProgress installationExists) where
  start := fun _ call _ => .begun call
  own := fun _ _ _ _ hsound h => progress_own hsound h
  other := fun _ _ _ _ _ _ _ h _ hdisjoint => progress_other h hdisjoint
  commit := fun _ _ _ hsound h => hsound.commit h.commit

/-! ## A commit is the whole call at once -/

section Serial

variable {installationExists : Int → Bool} {s : BudgetTables}

/-- A statement, by its outcome. -/
theorem run_executeBudget
    {op : BudgetStatement} {result : op.Result} {write : Option BudgetWrite}
    (h : op.outcome installationExists s = (result, write)) :
    Program.run (budgetStatements installationExists).answer (executeBudget op) s =
      (result.mapError .database,
        (budgetStatements installationExists).view s write.toList) := by
  have houtcome : (budgetStatements installationExists).outcome op s = (result, write) := h
  simp only [executeBudget, Program.run, Statements.answer, houtcome]
  cases result with
  | ok rows => rfl
  | error e => rfl

/-- A statement that answers, and what follows it. -/
theorem run_executeBudget_ok
    {op : BudgetStatement} {rows : op.Rows} {write : Option BudgetWrite}
    (f : op.Rows → BudgetProgram Unit)
    (h : op.outcome installationExists s = (.ok rows, write)) :
    Program.run (budgetStatements installationExists).answer ((executeBudget op).bind f) s =
      Program.run (budgetStatements installationExists).answer (f rows)
        ((budgetStatements installationExists).view s write.toList) := by
  rw [Program.run_bind, run_executeBudget h]
  rfl

theorem run_executeBudget_error
    {op : BudgetStatement} {e : HostedError} {write : Option BudgetWrite}
    (f : op.Rows → BudgetProgram Unit)
    (h : op.outcome installationExists s = (.error e, write)) :
    Program.run (budgetStatements installationExists).answer ((executeBudget op).bind f) s =
      (.error (.database e), (budgetStatements installationExists).view s write.toList) := by
  rw [Program.run_bind, run_executeBudget h]
  rfl

theorem run_denyReservation
    (i r : Int) :
    Program.run (budgetStatements installationExists).answer (denyReservation i r) s =
      (.error (.budgetDenied
        (if (s.repositoryBudgets.find? (i, r)).any RepositoryBudgetRow.configured then
          .insufficient
        else
          .unset)), s) := by
  rfl

/-- The insert, of amounts in the range of their columns. -/
theorem run_insertReservation
    {row : RepositoryBudgetReservationRow}
    (hrange : (fitsInteger row.tokens && fitsNumeric row.costUsd) = true) :
    Program.run (budgetStatements installationExists).answer
        (executeBudget (.insertReservation row)) s =
      match s.repositoryBudgetReservations.find? row.jobId with
      | some _ => (.error (.database .uniqueViolation), s)
      | none => (.ok (), s.put (.reservation row)) := by
  let op : BudgetStatement := .insertReservation row
  cases hjob : s.repositoryBudgetReservations.find? row.jobId with
  | some old =>
      have hinsert : op.outcome installationExists s = (.error .uniqueViolation, none) := by
        simp only [op, BudgetStatement.outcome, insertReservationOutcome, hrange, hjob, if_true]
      exact run_executeBudget hinsert
  | none =>
      have hinsert : op.outcome installationExists s = (.ok (), some (.reservation row)) := by
        simp only [op, BudgetStatement.outcome, insertReservationOutcome, hrange, hjob, if_true]
      exact run_executeBudget hinsert

/-- What a reservation of a job that holds none comes to, run alone. -/
theorem run_holdReservation
    (i r : Int) (jobId : Uuid) (tokens costUsd : Nat) :
    Program.run (budgetStatements installationExists).answer
        (holdReservation i r jobId tokens costUsd) s =
      match s.repositoryBudgets.find? (i, r) with
      | none => (.error (.budgetDenied .unset), s)
      | some b =>
          if b.configured = false then
            (.error (.budgetDenied .unset), s)
          else if b.overflows tokens then
            (.error (.database .numericValueOutOfRange), s)
          else if b.fits tokens costUsd = false then
            (.error (.budgetDenied .insufficient), s)
          else
            match s.repositoryBudgetReservations.find? jobId with
            | some _ =>
                (.error (.database .uniqueViolation),
                  s.put (.budget (b.addReserved tokens costUsd)))
            | none =>
                (.ok (), (s.put (.budget (b.addReserved tokens costUsd))).put
                  (.reservation (heldReservation i r jobId tokens costUsd))) := by
  let op : BudgetStatement := .addReserved i r tokens costUsd
  cases hb : s.repositoryBudgets.find? (i, r) with
  | none =>
      have hadd : op.outcome installationExists s = (.ok false, none) := by
        simp [op, BudgetStatement.outcome, addReservedOutcome, hb]
      refine (run_executeBudget_ok _ hadd).trans ?_
      simp [run_denyReservation, hb]
  | some b =>
      simp only
      by_cases hconfigured : b.configured = true
      · by_cases hoverflows : b.overflows tokens = true
        · have hadd : op.outcome installationExists s =
              (.error .numericValueOutOfRange, none) := by
            simp [op, BudgetStatement.outcome, addReservedOutcome, hb, hconfigured, hoverflows]
          refine (run_executeBudget_error _ hadd).trans ?_
          simp [hconfigured, hoverflows]
        · by_cases hfits : b.fits tokens costUsd = true
          · have hadd : op.outcome installationExists s =
                (.ok true, some (.budget (b.addReserved tokens costUsd))) := by
              simp [op, BudgetStatement.outcome, addReservedOutcome, hb, hconfigured, hoverflows,
                hfits]
            refine (run_executeBudget_ok _ hadd).trans ?_
            have hrange : (fitsInteger (heldReservation i r jobId tokens costUsd).tokens &&
                fitsNumeric (heldReservation i r jobId tokens costUsd).costUsd) = true :=
              fits_range hfits
            refine (run_insertReservation hrange).trans ?_
            simp only [hconfigured, hoverflows, hfits, Bool.true_eq_false, if_false]
            rfl
          · have hadd : op.outcome installationExists s = (.ok false, none) := by
              simp [op, BudgetStatement.outcome, addReservedOutcome, hb, hconfigured, hoverflows,
                hfits]
            refine (run_executeBudget_ok _ hadd).trans ?_
            simp [run_denyReservation, hb, hconfigured, hoverflows, hfits]
      · have hadd : op.outcome installationExists s = (.ok false, none) := by
          simp [op, BudgetStatement.outcome, addReservedOutcome, hb, hconfigured]
        refine (run_executeBudget_ok _ hadd).trans ?_
        simp [run_denyReservation, hb, hconfigured]

/-- A reservation, run alone, by whether its job holds one. -/
theorem run_reserveRepositoryBudget
    (i r : Int) (jobId : Uuid) (tokens costUsd : Nat) :
    Program.run (budgetStatements installationExists).answer
        (reserveRepositoryBudget i r jobId tokens costUsd) s =
      if (s.repositoryBudgetReservations.find? jobId).any (·.status = .held) then
        (.ok (), s)
      else
        Program.run (budgetStatements installationExists).answer
          (holdReservation i r jobId tokens costUsd) s := by
  let op : BudgetStatement := .selectHeld jobId
  cases hheld : (s.repositoryBudgetReservations.find? jobId).any (·.status = .held) with
  | true =>
      have hselect : op.outcome installationExists s = (.ok true, none) := by
        simp only [op, BudgetStatement.outcome, hheld]
      exact run_executeBudget_ok _ hselect
  | false =>
      have hselect : op.outcome installationExists s = (.ok false, none) := by
        simp only [op, BudgetStatement.outcome, hheld]
      exact run_executeBudget_ok _ hselect

/-- A call that changed the tables did what it does alone. -/
theorem BudgetCommit.runAlone
    {call : BudgetCall} {writes : List BudgetWrite}
    (h : BudgetCommit installationExists s call writes) :
    writes = [] ∨
      (budgetStatements installationExists).runAlone s call =
        (.ok (), (budgetStatements installationExists).view s writes) := by
  cases h with
  | unchanged => exact .inl rfl
  | limitsSet i r maxTokens maxCostUsd b hlimits hids hb =>
      right
      let op : BudgetStatement := .upsertLimits i r maxTokens maxCostUsd
      have hset : op.outcome installationExists s =
          (.ok (), some (.budget (b.setLimits maxTokens maxCostUsd hlimits))) := by
        simp [op, BudgetStatement.outcome, upsertLimitsOutcome, hlimits, hids, hb]
      exact Statements.runAlone_of_ok (run_executeBudget hset)
  | budgetCreated i r maxTokens maxCostUsd hlimits hids hnone hinstallation =>
      right
      let op : BudgetStatement := .upsertLimits i r maxTokens maxCostUsd
      have hcreated : op.outcome installationExists s =
          (.ok (), some (.budget (.new i r maxTokens maxCostUsd hlimits))) := by
        simp [op, BudgetStatement.outcome, upsertLimitsOutcome, hlimits, hids, hnone,
          hinstallation]
      exact Statements.runAlone_of_ok (run_executeBudget hcreated)
  | reserved i r jobId tokens costUsd b hb hallows hjob =>
      right
      apply Statements.runAlone_of_ok
      refine (run_reserveRepositoryBudget i r jobId tokens costUsd).trans ?_
      simp only [RepositoryBudgetRow.allows, Bool.and_eq_true, Bool.not_eq_true'] at hallows
      obtain ⟨⟨hconfigured, hoverflows⟩, hfits⟩ := hallows
      simp only [hjob, Option.any_none, Bool.false_eq_true, if_false, run_holdReservation, hb,
        hconfigured, hoverflows, hfits, Bool.true_eq_false]
      rfl
  | released jobId row b hrow hheld hb hle =>
      right
      let op : BudgetStatement := .releaseHeld jobId
      have hrelease : op.outcome installationExists s =
          (.ok (some row), some (.reservation { row with status := .released })) := by
        simp [op, BudgetStatement.outcome, releaseHeldOutcome, hrow, hheld]
      let op' : BudgetStatement :=
        .subtractReserved row.installationId row.githubRepositoryId row.tokens row.costUsd
      have hsubtract : op'.outcome installationExists
          (s.put (.reservation { row with status := .released })) =
          (.ok (), some (.budget (b.subtractReserved row.tokens row.costUsd))) := by
        have hbudget :
            (s.put (.reservation { row with status := .released })).repositoryBudgets.find?
              (row.installationId, row.githubRepositoryId) = some b := hb
        simp [op', BudgetStatement.outcome, subtractReservedOutcome, hbudget, hle]
      apply Statements.runAlone_of_ok
      refine (run_executeBudget_ok _ hrelease).trans ?_
      exact run_executeBudget hsubtract

end Serial

end Hosted
end PrReviewer
