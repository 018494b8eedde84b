import PrReviewer.Hosted.ActiveJobs

/-!
# Claims and the token broker

The rule that a runner may work on a repository is written twice: as the `exists`
subquery of `claim_job`, and as the lookups of `authorize_repository`, which the
token broker asks again.  In every state a run can reach the two agree on the
repository, the runner and the assignment, because (installation, numeric
repository id) names one repository row and every job's installation is known.
They differ in one lookup: the claim does not read `installations.revoked_at`.
-/

namespace PrReviewer
namespace Hosted

open Lib

section TokenAgreement

variable (hashRunnerCredential : String → String)

/-- The installation is known and not revoked. -/
def installationLive (s : HostedState) (installationId : Int) : Prop :=
  ∃ row, s.installations.find? installationId = some row ∧ row.revokedAt = none

/-- The row the query of `claim_job` selects, for a runner that may claim at all. -/
def claimOffer
    (s : HostedState)
    (runner : AuthenticatedRunner)
    (tie : Uuid) :
    Option ReviewJobRow :=
  match s.runners.find? runner.runnerId with
  | none => none
  | some runnerRow =>
      if runnerRow.revokedAt.isSome then
        none
      else
        nextJob s.reviewJobs.rows (claimableByRunner s runner.runnerId) tie

/--
The claim and the broker agree: a claimed job is of an installation that is not
revoked, and until its lease runs out the broker mints for its repository.
-/
def ClaimHonoured
    (s : HostedState)
    (runner : AuthenticatedRunner)
    (leaseToken : String)
    (tie : Uuid) :
    Prop :=
  ∀ e s', claimJob hashRunnerCredential s runner leaseToken tie = .ok (.envelope e, s') →
    installationLive s' e.installationId ∧
      ∀ elapsed, elapsed < reviewJobLeaseInterval →
        issueJobToken hashRunnerCredential
            (step hashRunnerCredential s' (.advanceClock elapsed))
            runner.runnerId e.jobId e.leaseToken =
          .ok
            { installationId := e.installationId
              repositoryIds := [e.repositoryId]
              permissions := tokenPermissions }

/-- The row that is offered, if its envelope can be built, is of a live installation. -/
def OffersLiveInstallation
    (s : HostedState)
    (runner : AuthenticatedRunner)
    (leaseToken : String)
    (tie : Uuid) :
    Prop :=
  ∀ row, claimOffer s runner tie = some row → (jobEnvelope row leaseToken).isSome = true →
    ∀ i ∈ row.installationId, installationLive s i

/-- The unique constraint of `repositories`. -/
def RepositoryPairsUnique (s : HostedState) : Prop :=
  ∀ r ∈ s.repositories.rows, ∀ r' ∈ s.repositories.rows,
    r.installationId = r'.installationId →
    r.githubRepositoryId = r'.githubRepositoryId → r = r'

variable {hashRunnerCredential}

theorem findRepository_spec
    {s : HostedState} {i g : Int} {r : RepositoryRow}
    (h : findRepository s i g = some r) :
    r ∈ s.repositories.rows ∧ r.installationId = i ∧ r.githubRepositoryId = g := by
  unfold findRepository at h
  have hpair := List.find?_some h
  rw [decide_eq_true_eq] at hpair
  exact ⟨List.mem_of_find?_eq_some h, hpair.1, hpair.2⟩

/-- A registered repository is the one the lookup finds. -/
theorem findRepository_of_mem
    {s : HostedState} {r : RepositoryRow}
    (hunique : RepositoryPairsUnique s)
    (hr : r ∈ s.repositories.rows) :
    findRepository s r.installationId r.githubRepositoryId = some r := by
  cases hfind : findRepository s r.installationId r.githubRepositoryId with
  | none =>
      unfold findRepository at hfind
      have hnone := List.find?_eq_none.mp hfind r hr
      simp at hnone
  | some r' =>
      obtain ⟨hr', hinstallation, hrepository⟩ := findRepository_spec hfind
      rw [hunique r' hr' r hr hinstallation hrepository]

/-- The upsert of a repository: a row renamed, or a new row for a pair without one. -/
theorem registerRepository_cases
    {s : HostedState} {drawnId : Uuid} {i g : Int} {name : String}
    {result : Uuid × HostedState}
    (h : registerRepository s drawnId i g name = .ok result) :
    (∃ r, findRepository s i g = some r ∧ result.1 = r.id ∧
      result.2 =
        { s with
          repositories :=
            s.repositories.alter r.id (fun r => { r with name := name }) (fun _ => rfl) }) ∨
    (∃ repositories, findRepository s i g = none ∧ result.1 = drawnId ∧
      s.installations.find? i ≠ none ∧
      s.repositories.insert?
          { id := drawnId, installationId := i, githubRepositoryId := g, name := name } =
        some repositories ∧
      result.2 = { s with repositories := repositories }) := by
  unfold registerRepository at h
  cases hfind : findRepository s i g with
  | some r =>
      rw [hfind] at h
      cases h
      exact .inl ⟨r, rfl, rfl, rfl⟩
  | none =>
      rw [hfind] at h
      simp only at h
      split at h
      · cases h
      · next hknown =>
          split at h
          · cases h
          · split at h
            · next repositories hinsert =>
                cases h
                exact .inr ⟨repositories, rfl, rfl, hknown, hinsert, rfl⟩
            · cases h

/-- Only `register_repository` writes to `repositories`. -/
theorem step_repositories
    (s : HostedState)
    {a : HostedAction}
    (ha : ∀ drawnId i g name, a ≠ .registerRepository drawnId i g name) :
    (step hashRunnerCredential s a).repositories = s.repositories := by
  cases a with
  | registerInstallation installationId accountLogin =>
      simp only [step, registerInstallation]
      split
      · rfl
      · rfl
  | revokeInstallation installationId =>
      rfl
  | registerRepository drawnId i g name =>
      exact absurd rfl (ha drawnId i g name)
  | registerRunner drawnId deviceName credential capabilities githubUserId installationId =>
      simp only [step, registerRunner]
      split
      · rfl
      · split
        · rfl
        · split
          · rfl
          · rfl
  | assignRepositoryToRunner repositoryId runnerId =>
      simp only [step, assignRepositoryToRunner]
      split
      · rfl
      · split
        · rfl
        · split
          · rfl
          · rfl
  | revokeRunner runnerId =>
      rfl
  | rotateRunnerCredential runnerId currentCredential newCredential =>
      simp only [step, rotateRunnerCredential]
      split
      · rfl
      · split
        · rfl
        · split
          · rfl
          · rfl
  | _ =>
      exact (step_queue_frame s rfl).1.policy.repositories

/-- Renaming a row keeps every pair unique. -/
theorem repositoryPairsUnique_renamed
    {s : HostedState}
    (h : RepositoryPairsUnique s)
    (k : Uuid) (name : String) :
    RepositoryPairsUnique
      { s with
        repositories :=
          s.repositories.alter k (fun r => { r with name := name }) (fun _ => rfl) } := by
  intro r hr r' hr' hinstallation hrepository
  simp only [Table.alter, Table.rows_updateWhere, List.mem_map] at hr hr'
  obtain ⟨r₀, hr₀, rfl⟩ := hr
  obtain ⟨r₁, hr₁, rfl⟩ := hr'
  have hsame : r₀ = r₁ := by
    apply h r₀ hr₀ r₁ hr₁
    · simpa [apply_ite RepositoryRow.installationId] using hinstallation
    · simpa [apply_ite RepositoryRow.githubRepositoryId] using hrepository
  rw [hsame]

/-- A row for a pair without one keeps every pair unique. -/
theorem repositoryPairsUnique_inserted
    {s : HostedState} {row : RepositoryRow} {repositories : Table RepositoryRow.id}
    (h : RepositoryPairsUnique s)
    (hfree : findRepository s row.installationId row.githubRepositoryId = none)
    (hinsert : s.repositories.insert? row = some repositories) :
    RepositoryPairsUnique { s with repositories := repositories } := by
  have hnew :
      ∀ r ∈ s.repositories.rows, r.installationId = row.installationId →
        r.githubRepositoryId ≠ row.githubRepositoryId := by
    intro r hr hinstallation hrepository
    have hnone := List.find?_eq_none.mp hfree r hr
    rw [decide_eq_true_eq] at hnone
    exact hnone ⟨hinstallation, hrepository⟩
  intro r hr r' hr' hinstallation hrepository
  simp only [(Table.insert?_eq_some hinsert).2, List.mem_append, List.mem_singleton] at hr hr'
  rcases hr with hr | rfl
  · rcases hr' with hr' | rfl
    · exact h r hr r' hr' hinstallation hrepository
    · exact absurd hrepository (hnew r hr hinstallation)
  · rcases hr' with hr' | rfl
    · exact absurd hrepository.symm (hnew r' hr' hinstallation.symm)
    · rfl

theorem step_repositoryPairsUnique
    {s : HostedState}
    (a : HostedAction)
    (h : RepositoryPairsUnique s) :
    RepositoryPairsUnique (step hashRunnerCredential s a) := by
  cases a with
  | registerRepository drawnId i g name =>
      cases hresult : registerRepository s drawnId i g name with
      | error e =>
          simp only [step, hresult]
          exact h
      | ok result =>
          simp only [step, hresult, Except.map, HostedState.commit]
          rcases registerRepository_cases hresult with
            ⟨r, _, _, hstate⟩ | ⟨repositories, hfree, _, _, hinsert, hstate⟩
          · rw [hstate]
            exact repositoryPairsUnique_renamed h r.id name
          · rw [hstate]
            exact repositoryPairsUnique_inserted h hfree hinsert
  | _ =>
      unfold RepositoryPairsUnique
      rw [step_repositories s (by rintro _ _ _ _ ⟨⟩)]
      exact h

/-- The columns an envelope was built from. -/
theorem jobEnvelope_columns
    {row : ReviewJobRow} {t : String} {e : JobEnvelope}
    (h : jobEnvelope row t = some e) :
    row.installationId = some e.installationId ∧
      row.githubRepositoryId = some e.repositoryId := by
  unfold jobEnvelope at h
  simp only at h
  split at h
  · next hinstallation hrepository _ _ _ _ =>
      split at h
      · cases h
        exact ⟨hinstallation, hrepository⟩
      · cases h
  · cases h

/-- A claim hands out the row it is offered. -/
theorem claimJob_eq_envelope
    {s s' : HostedState} {runner : AuthenticatedRunner} {t : String} {tie : Uuid}
    {e : JobEnvelope} :
    claimJob hashRunnerCredential s runner t tie = .ok (.envelope e, s') ↔
      ∃ row, claimOffer s runner tie = some row ∧ jobEnvelope row t = some e ∧
        s' =
          s.alterJob row.id
            (fun r => r.leasedToRunner runner.runnerId (hashRunnerCredential t) s.now)
            (fun r => r.leasedToRunner_id runner.runnerId (hashRunnerCredential t) s.now) := by
  unfold claimJob claimOffer
  cases hrunner : s.runners.find? runner.runnerId with
  | none =>
      simp
  | some runnerRow =>
      simp only
      by_cases hrevoked : runnerRow.revokedAt.isSome = true
      · simp [hrevoked]
      · rw [if_neg hrevoked, if_neg hrevoked]
        cases hnext :
            nextJob s.reviewJobs.rows (claimableByRunner s runner.runnerId) tie with
        | none =>
            simp
        | some row =>
            simp only
            cases henvelope : jobEnvelope row t with
            | none =>
                simp [henvelope]
            | some e' =>
                constructor
                · intro h
                  cases h
                  exact ⟨row, rfl, henvelope, rfl⟩
                · rintro ⟨row', hrow', henvelope', rfl⟩
                  cases hrow'
                  rw [henvelope] at henvelope'
                  cases henvelope'
                  rfl

/-- What holds of the row a claim is offered. -/
theorem claimOffer_spec
    {s : HostedState} {runner : AuthenticatedRunner} {tie : Uuid} {row : ReviewJobRow}
    (h : claimOffer s runner tie = some row) :
    (∃ runnerRow, s.runners.find? runner.runnerId = some runnerRow ∧
        runnerRow.revokedAt = none) ∧
      s.reviewJobs.find? row.id = some row ∧
      assignedTo s runner.runnerId row = true := by
  unfold claimOffer at h
  cases hrunner : s.runners.find? runner.runnerId with
  | none =>
      rw [hrunner] at h
      cases h
  | some runnerRow =>
      rw [hrunner] at h
      simp only at h
      split at h
      · cases h
      · next hrevoked =>
          obtain ⟨hmem, heligible, _⟩ := nextJob_spec h
          simp only [claimableByRunner, decide_eq_true_eq] at heligible
          refine ⟨⟨runnerRow, rfl, ?_⟩, Table.find?_of_mem hmem, heligible.2.2.2.2⟩
          simpa using hrevoked

/--
For a runner that may claim and a repository assigned to it, `authorize_repository`
comes down to the installation.
-/
theorem authorizeRepository_of_assigned
    {s : HostedState} {runnerId : Uuid} {runnerRow : RunnerRow} {row : ReviewJobRow}
    {i g : Int}
    (hunique : RepositoryPairsUnique s)
    (hknown : s.installations.find? i ≠ none)
    (hrunner : s.runners.find? runnerId = some runnerRow)
    (hlive : runnerRow.revokedAt = none)
    (hinstallation : row.installationId = some i)
    (hrepository : row.githubRepositoryId = some g)
    (hassigned : assignedTo s runnerId row = true) :
    (∃ authorization, authorizeRepository s i g runnerId = .ok authorization) ↔
      installationLive s i := by
  simp only [assignedTo, List.any_eq_true, decide_eq_true_eq] at hassigned
  obtain ⟨r, hr, hri, hrg, a, ha, harepository, harunner⟩ := hassigned
  rw [hinstallation] at hri
  rw [hrepository] at hrg
  cases hri
  cases hrg
  have hfind := findRepository_of_mem hunique hr
  have hany :
      s.repositoryAssignments.rows.any (fun a => a.repositoryId = r.id ∧ a.runnerId = runnerId)
        = true := by
    rw [List.any_eq_true]
    exact ⟨a, ha, by simp [harepository, harunner]⟩
  obtain ⟨installation, hrow⟩ := Option.ne_none_iff_exists'.mp hknown
  unfold authorizeRepository installationLive
  rw [hrow]
  simp only
  by_cases hrevoked : installation.revokedAt = none
  · have hsome : ¬ installation.revokedAt.isSome = true := by simp [hrevoked]
    have hfree : ¬ runnerRow.revokedAt.isSome = true := by simp [hlive]
    rw [if_neg hsome, hfind, hrunner]
    simp only
    rw [if_neg hfree, if_pos hany]
    exact ⟨fun _ => ⟨installation, rfl, hrevoked⟩, fun _ => ⟨_, rfl⟩⟩
  · have hsome : installation.revokedAt.isSome = true :=
      Option.isSome_iff_ne_none.mpr hrevoked
    rw [if_pos hsome]
    constructor
    · rintro ⟨authorization, hok⟩
      cases hok
    · rintro ⟨row', hrow', hnone⟩
      cases hrow'
      exact absurd hnone hrevoked

/-- Under a live lease the broker's answer is that of `authorize_repository`. -/
theorem issueJobToken_of_leased
    {s : HostedState} {runnerId jobId : Uuid} {t : String} {row : ReviewJobRow} {i g : Int}
    (hrow : s.reviewJobs.find? jobId = some row)
    (hleased : row.leasedUnder runnerId (hashRunnerCredential t) = true)
    (hlive : row.status = .running ∧ row.leaseLive s.now = true)
    (hinstallation : row.installationId = some i)
    (hrepository : row.githubRepositoryId = some g) :
    issueJobToken hashRunnerCredential s runnerId jobId t =
      match authorizeRepository s i g runnerId with
      | .error _ => .error .jobProtocolDenied
      | .ok _ =>
          .ok
            { installationId := i, repositoryIds := [g], permissions := tokenPermissions } := by
  unfold issueJobToken
  rw [hrow]
  refine (if_neg (not_not.mpr hleased)).trans ((if_neg (not_not.mpr hlive)).trans ?_)
  cases hauthorized : authorizeRepository s i g runnerId with
  | error reason => simp only [hinstallation, hrepository, hauthorized]
  | ok authorized => simp only [hinstallation, hrepository, hauthorized]

/-- Before a fresh lease runs out, the broker asks for the installation and repository claimed. -/
theorem issueJobToken_of_claimed
    {s : HostedState} {runner : AuthenticatedRunner} {t : String} {row : ReviewJobRow}
    {e : JobEnvelope} {elapsed : Nat}
    (hrow : s.reviewJobs.find? row.id = some row)
    (henvelope : jobEnvelope row t = some e)
    (hbefore : elapsed < reviewJobLeaseInterval) :
    issueJobToken hashRunnerCredential
        (step hashRunnerCredential
          (s.alterJob row.id
            (fun r => r.leasedToRunner runner.runnerId (hashRunnerCredential t) s.now)
            (fun r => r.leasedToRunner_id runner.runnerId (hashRunnerCredential t) s.now))
          (.advanceClock elapsed))
        runner.runnerId e.jobId e.leaseToken =
      match authorizeRepository s e.installationId e.repositoryId runner.runnerId with
      | .error _ => .error .jobProtocolDenied
      | .ok _ =>
          .ok
            { installationId := e.installationId
              repositoryIds := [e.repositoryId]
              permissions := tokenPermissions } := by
  obtain ⟨hid, htoken⟩ := jobEnvelope_fields henvelope
  obtain ⟨hinstallation, hrepository⟩ := jobEnvelope_columns henvelope
  have hafter :
      (step hashRunnerCredential
        (s.alterJob row.id
          (fun r => r.leasedToRunner runner.runnerId (hashRunnerCredential t) s.now)
          (fun r => r.leasedToRunner_id runner.runnerId (hashRunnerCredential t) s.now))
        (.advanceClock elapsed)).reviewJobs.find? row.id =
          some (row.leasedToRunner runner.runnerId (hashRunnerCredential t) s.now) := by
    simp only [step]
    rw [HostedState.alterJob_find?, if_pos rfl, hrow]
    rfl
  have hlive :
      (row.leasedToRunner runner.runnerId (hashRunnerCredential t) s.now).leaseLive
        (s.now + elapsed) = true := by
    simp only [ReviewJobRow.leaseLive, decide_eq_true_eq]
    exact ⟨s.now + reviewJobLeaseInterval, rfl, by omega⟩
  rw [hid, htoken]
  refine (issueJobToken_of_leased hafter ?_ ⟨rfl, hlive⟩ hinstallation hrepository).trans rfl
  simp [ReviewJobRow.leasedUnder, ReviewJobRow.leasedToRunner]

variable (hashRunnerCredential) in
/--
**When a claim agrees with the token broker.**  In every state a run reaches, a
claim is honoured by the broker exactly when the row it is offered is of an
installation that is not revoked.
-/
theorem claimHonoured_iff_offersLive
    (actions : List HostedAction)
    (runner : AuthenticatedRunner) (t : String) (tie : Uuid) :
    ClaimHonoured hashRunnerCredential
        (exec (step hashRunnerCredential) HostedState.empty actions) runner t tie ↔
      OffersLiveInstallation
        (exec (step hashRunnerCredential) HostedState.empty actions) runner t tie := by
  have hunique :
      RepositoryPairsUnique (exec (step hashRunnerCredential) HostedState.empty actions) := by
    apply exec_preserves (fun s a h => step_repositoryPairsUnique a h) actions
    rintro r ⟨⟩
  have hinstalled :
      InstallationsKnown (exec (step hashRunnerCredential) HostedState.empty actions) := by
    apply exec_preserves (fun s a h => step_installationsKnown a h) actions
    rintro j row i ⟨⟩
  generalize exec (step hashRunnerCredential) HostedState.empty actions = s at *
  constructor
  · intro hhonoured row hoffer hsome i hi
    obtain ⟨e, henvelope⟩ := Option.isSome_iff_exists.mp hsome
    obtain ⟨hlive, _⟩ := hhonoured e _ (claimJob_eq_envelope.mpr ⟨row, hoffer, henvelope, rfl⟩)
    have hcolumn := (jobEnvelope_columns henvelope).1
    rw [Option.mem_def, hcolumn] at hi
    cases hi
    exact hlive
  · intro hoffers e s' hclaim
    obtain ⟨row, hoffer, henvelope, rfl⟩ := claimJob_eq_envelope.mp hclaim
    obtain ⟨hinstallation, hrepository⟩ := jobEnvelope_columns henvelope
    obtain ⟨⟨runnerRow, hrunner, hfree⟩, hrow, hassigned⟩ := claimOffer_spec hoffer
    have hlive : installationLive s e.installationId :=
      hoffers row hoffer (by rw [henvelope]; rfl) e.installationId hinstallation
    refine ⟨hlive, ?_⟩
    intro elapsed hbefore
    obtain ⟨authorization, hauthorized⟩ :=
      (authorizeRepository_of_assigned hunique
        (hinstalled row.id row e.installationId hrow hinstallation) hrunner hfree
        hinstallation hrepository hassigned).mpr hlive
    rw [issueJobToken_of_claimed hrow henvelope hbefore, hauthorized]

end TokenAgreement

/-- The installation is suspended while a job of it waits. -/
def suspendedWhileWaiting : List HostedAction :=
  pairLaptop ++
    [enqueueHead "delivery-1" firstJobId "head-1" firstHead_ne,
      .revokeInstallation 1]

/-- The job of the revoked installation is handed out, and the broker refuses it. -/
theorem revoked_installation_claimed :
    ¬ ClaimHonoured sampleHash (exec (step sampleHash) HostedState.empty suspendedWhileWaiting)
        laptopRunner "lease-1" firstJobId := by
  intro hhonoured
  have hclaim :
      ∃ e s',
        claimJob sampleHash
            (exec (step sampleHash) HostedState.empty suspendedWhileWaiting)
            laptopRunner "lease-1" firstJobId = .ok (.envelope e, s') ∧
          (s'.installations.find? e.installationId).all (fun row => row.revokedAt.isSome) =
            true :=
    ⟨_, _, rfl, by decide⟩
  obtain ⟨e, s', hclaim, hrevoked⟩ := hclaim
  obtain ⟨⟨row, hrow, hnone⟩, _⟩ := hhonoured e s' hclaim
  rw [hrow] at hrevoked
  simp only [Option.all_some, hnone] at hrevoked
  cases hrevoked

end Hosted
end PrReviewer
