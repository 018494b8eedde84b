import PrReviewer.Hosted.Machine

/-!
# Pairing a runner

control_plane/pairing.py and the approval route.  A pairing code is created by the
runner, approved by a signed-in user for some repositories of one installation, and
exchanged for a runner and its credential.  The table `pairing_codes` stands beside the
hosted tables; its rows are addressed by the unique `code_hash`.

Codes, credentials and the ids that the database draws are arguments.  A drawn id or a
code hash that is taken makes the insertion fail, as the keys of the schema demand.
-/

namespace PrReviewer
namespace Hosted

open Lib

/-- `interval '10 minutes'`. -/
def pairingLifetime : Nat := 10 * 60 * 1000000

/-- The columns that `approve_pairing_by_hash` writes in its one update. -/
structure PairingApproval where
  githubUserId : Int
  installationId : Int
  repositoryIds : List Uuid
  approvedAt : Nat
deriving DecidableEq, Repr

structure PairingCodeRow where
  deviceName : String
  codeHash : String
  challenge : String
  approval : Option PairingApproval
  exchangedAt : Option Nat
  createdAt : Nat
deriving DecidableEq, Repr

/-- `created_at > now() - interval '10 minutes'`. -/
def PairingCodeRow.live (row : PairingCodeRow) (now : Nat) : Bool :=
  now < row.createdAt + pairingLifetime

/-- What GitHub said a user controls: an installation and the names of its repositories. -/
structure VerifiedInstallationAccess where
  githubUserId : Int
  installationId : Int
  repositories : List (Int × String)
deriving DecidableEq, Repr

/-- The sealed assertion with the fields an approval reads; `expires_at` is in seconds. -/
structure SignInAssertion extends LiveInstallationAssertion where
  githubUserId : Int
  expiresAt : Int
deriving DecidableEq, Repr

inductive PairingDenialReason where
  | invalidOrExpiredCode
  | repositoryNotInInstallation
  | revokedInstallation
  | unknownInstallation
deriving DecidableEq, Repr

structure PairingChallenge where
  code : String
  expiresAt : Nat
deriving DecidableEq, Repr

/-- The two answers of `approve_pairing_by_hash`. -/
inductive ApprovalOutcome where
  | approved (installationId : Int) (repositoryIds : List Uuid)
  | denied (reason : PairingDenialReason)
deriving DecidableEq, Repr

/-- The three answers of `exchange_pairing_code`. -/
inductive ExchangeOutcome where
  | credential (runnerId : Uuid) (credential : String)
  | denied (reason : PairingDenialReason)
  | refused (repositoryId : Uuid) (activeRunner : RunnerRef)
deriving DecidableEq, Repr

inductive PairingStatus where
  | pending
  | exchangeable
  | invalidOrExpired
deriving DecidableEq, Repr

/-- `_INITIAL_RUNNER_CAPABILITIES`. -/
def initialRunnerCapabilities : RunnerCapabilities where
  mode := .analysisOnly
  dockerAvailable := false
  retrievalAvailable := false
  verificationAvailable := false
  platform := "unknown"
  version := "unknown"

/-- The hosted store with its pairing codes. -/
structure PairingState where
  hosted : HostedState
  pairingCodes : Table PairingCodeRow.codeHash

def PairingState.empty : PairingState where
  hosted := .empty
  pairingCodes := .empty

section Pairing

variable (hashRunnerCredential : String → String)

/-- The row `create_pairing_code` inserts. -/
def createdCode (deviceName codeHash challenge : String) (now : Nat) : PairingCodeRow where
  deviceName := deviceName
  codeHash := codeHash
  challenge := challenge
  approval := none
  exchangedAt := none
  createdAt := now

/-- `create_pairing_code`; `code` is the token drawn for it. -/
def createPairingCode
    (s : PairingState)
    (deviceName challenge code : String) :
    Except HostedError (PairingChallenge × PairingState) :=
  let row := createdCode deviceName (hashRunnerCredential code) challenge s.hosted.now
  match s.pairingCodes.insert? row with
  | some pairingCodes =>
      .ok ({ code := code, expiresAt := row.createdAt }, { s with pairingCodes := pairingCodes })
  | none => .error .uniqueViolation

/-- One `_upsert_repository` after the other; the `k`-th may draw the id `draw k`. -/
def upsertRepositories
    (installationId : Int)
    (draw : Nat → Uuid) :
    HostedState → Nat → List (Int × String) → Except HostedError (List Uuid × HostedState)
  | s, _, [] => .ok ([], s)
  | s, k, (githubRepositoryId, name) :: rest =>
      match registerRepository s (draw k) installationId githubRepositoryId name with
      | .error e => .error e
      | .ok (id, s₁) =>
          match upsertRepositories installationId draw s₁ (k + 1) rest with
          | .error e => .error e
          | .ok (ids, s₂) => .ok (id :: ids, s₂)

/-- The requested repositories, each with the name GitHub gave. -/
def VerifiedInstallationAccess.selected
    (access : VerifiedInstallationAccess) (repositoryIds : List Int) : List (Int × String) :=
  repositoryIds.filterMap (fun id => (access.repositories.lookup id).map (fun name => (id, name)))

/-- `approve_pairing_by_hash`, with its checks in the order of the source. -/
def approvePairingByHash
    (s : PairingState)
    (codeHash : String)
    (access : VerifiedInstallationAccess)
    (repositoryIds : List Int)
    (draw : Nat → Uuid) :
    Except HostedError (ApprovalOutcome × PairingState) :=
  match s.pairingCodes.find? codeHash with
  | none => .ok (.denied .invalidOrExpiredCode, s)
  | some row =>
      if ¬ (row.approval = none ∧ row.live s.hosted.now) then
        .ok (.denied .invalidOrExpiredCode, s)
      else
        match s.hosted.installations.find? access.installationId with
        | none => .ok (.denied .unknownInstallation, s)
        | some installation =>
            if installation.revokedAt.isSome then
              .ok (.denied .revokedInstallation, s)
            else if repositoryIds.any (fun id => (access.repositories.lookup id).isNone) then
              .ok (.denied .repositoryNotInInstallation, s)
            else
              match
                  upsertRepositories access.installationId draw s.hosted 0
                    (access.selected repositoryIds) with
              | .error e => .error e
              | .ok (ids, hosted) =>
                  if ¬ fitsBigint access.githubUserId then
                    .error .numericValueOutOfRange
                  else
                    let approval : PairingApproval :=
                      { githubUserId := access.githubUserId
                        installationId := access.installationId
                        repositoryIds := ids
                        approvedAt := s.hosted.now }
                    .ok (.approved access.installationId ids,
                      { hosted := hosted
                        pairingCodes :=
                          s.pairingCodes.alter codeHash
                            (fun r => { r with approval := some approval }) (fun _ => rfl) })

/-- `approve_pairing`. -/
def approvePairing
    (s : PairingState)
    (code : String)
    (access : VerifiedInstallationAccess)
    (repositoryIds : List Int)
    (draw : Nat → Uuid) :
    Except HostedError (ApprovalOutcome × PairingState) :=
  approvePairingByHash s (hashRunnerCredential code) access repositoryIds draw

/-- `verify_installation_access` with an assertion, at the second `time`. -/
def verifyInstallationAccess
    (assertion : Option SignInAssertion)
    (time installationId : Int) :
    Option VerifiedInstallationAccess :=
  match assertion with
  | none => none
  | some assertion =>
      if assertion.expiresAt ≤ time then
        none
      else
        (assertion.installations.lookup installationId).map (fun matched =>
          { githubUserId := assertion.githubUserId
            installationId := installationId
            repositories := matched })

/-- `submit_pairing_approval` of the approval route; `none` is `AccessDenied`. -/
def submitPairingApproval
    (s : PairingState)
    (assertion : Option SignInAssertion)
    (time : Int)
    (code : String)
    (installationId : Int)
    (repositoryIds : List Int)
    (draw : Nat → Uuid) :
    Except HostedError (Option ApprovalOutcome × PairingState) :=
  match verifyInstallationAccess assertion time installationId with
  | none => .ok (none, s)
  | some access =>
      (approvePairing hashRunnerCredential s code access repositoryIds draw).map
        (fun answer => (some answer.1, answer.2))

/-- The loop of `exchange_pairing_code`: it stops at the first refusal. -/
def assignRepositories
    (runnerId : Uuid) :
    HostedState → List Uuid → Except HostedError (Option (Uuid × RunnerRef) × HostedState)
  | s, [] => .ok (none, s)
  | s, repositoryId :: rest =>
      match assignRepositoryToRunner s repositoryId runnerId with
      | .error e => .error e
      | .ok (.refused repositoryId holder, _) => .ok (some (repositoryId, holder), s)
      | .ok (.granted _ _, s₁) => assignRepositories runnerId s₁ rest

/-- The `where` clause of `exchange_pairing_code`, apart from `code_hash`. -/
def PairingCodeRow.exchangeable
    (row : PairingCodeRow) (challenge : String) (now : Nat) : Bool :=
  row.challenge = challenge ∧ row.approval.isSome ∧ row.exchangedAt = none ∧ row.live now

/-- `exchange_pairing_code`; a refusal rolls back everything it did. -/
def exchangePairingCode
    (s : PairingState)
    (code proof : String)
    (drawnId : Uuid)
    (credential : String) :
    Except HostedError (ExchangeOutcome × PairingState) :=
  match s.pairingCodes.find? (hashRunnerCredential code) with
  | none => .ok (.denied .invalidOrExpiredCode, s)
  | some row =>
      if ¬ row.exchangeable (hashRunnerCredential proof) s.hosted.now then
        .ok (.denied .invalidOrExpiredCode, s)
      else
        match
            registerRunner hashRunnerCredential s.hosted drawnId row.deviceName credential
              initialRunnerCapabilities (row.approval.map (·.githubUserId))
              (row.approval.map (·.installationId)) with
        | .error e => .error e
        | .ok (runnerId, hosted) =>
            match
                assignRepositories runnerId hosted
                  ((row.approval.map (·.repositoryIds)).getD []) with
            | .error e => .error e
            | .ok (some (repositoryId, holder), _) => .ok (.refused repositoryId holder, s)
            | .ok (none, hosted') =>
                .ok (.credential runnerId credential,
                  { hosted := hosted'
                    pairingCodes :=
                      s.pairingCodes.alter row.codeHash
                        (fun r => { r with exchangedAt := some s.hosted.now })
                        (fun _ => rfl) })

/-- `pairing_status`. -/
def pairingStatus (s : PairingState) (code challenge : String) : PairingStatus :=
  match s.pairingCodes.find? (hashRunnerCredential code) with
  | none => .invalidOrExpired
  | some row =>
      if ¬ (row.challenge = challenge ∧ row.live s.hosted.now) then
        .invalidOrExpired
      else if row.exchangedAt.isSome then
        .invalidOrExpired
      else if row.approval.isSome then
        .exchangeable
      else
        .pending

end Pairing

/-! ## The machine -/

/-- The two calls that only `exchange_pairing_code` makes. -/
def HostedAction.ofExchange : HostedAction → Bool
  | .registerRunner .. => true
  | .assignRepositoryToRunner .. => true
  | _ => false

/-- One transaction of the pairing protocol, or one of the rest of the control plane. -/
inductive PairingAction where
  | createPairingCode (deviceName challenge code : String)
  | approvePairingByHash
      (codeHash : String) (access : VerifiedInstallationAccess) (repositoryIds : List Int)
      (draw : Nat → Uuid)
  | exchangePairingCode (code proof : String) (drawnId : Uuid) (credential : String)
  | elsewhere (a : HostedAction) (h : a.ofExchange = false)

/-- The state after a transaction: the old one when it raised. -/
def PairingState.commit {α : Type}
    (s : PairingState)
    (outcome : Except HostedError (α × PairingState)) :
    PairingState :=
  match outcome with
  | .ok (_, s') => s'
  | .error _ => s

section Machine

variable (hashRunnerCredential : String → String)

def pairingStep (s : PairingState) : PairingAction → PairingState
  | .createPairingCode deviceName challenge code =>
      s.commit (createPairingCode hashRunnerCredential s deviceName challenge code)
  | .approvePairingByHash codeHash access repositoryIds draw =>
      s.commit (approvePairingByHash s codeHash access repositoryIds draw)
  | .exchangePairingCode code proof drawnId credential =>
      s.commit (exchangePairingCode hashRunnerCredential s code proof drawnId credential)
  | .elsewhere a _ => { s with hosted := step hashRunnerCredential s.hosted a }

end Machine

/-! ## What the calls do -/

/-- Every repository stays, with its installation and its numbers; its name may change. -/
structure RepositoriesKept (s s' : HostedState) : Prop where
  row : ∀ id row, s.repositories.find? id = some row →
    ∃ name, s'.repositories.find? id = some { row with name := name }
  number : ∀ i n row, findRepository s i n = some row →
    ∃ name, findRepository s' i n = some { row with name := name }

/-- The id under which an installation's repository is stored. -/
def repositoryIdOf (s : HostedState) (installationId githubRepositoryId : Int) : Option Uuid :=
  (findRepository s installationId githubRepositoryId).map RepositoryRow.id

section Repositories

theorem RepositoriesKept.of_same
    {s s' : HostedState}
    (h : s'.repositories = s.repositories) :
    RepositoriesKept s s' := by
  constructor
  · intro id row hrow
    rw [h]
    exact ⟨row.name, hrow⟩
  · intro i n row hrow
    unfold findRepository
    rw [h]
    exact ⟨row.name, hrow⟩

theorem RepositoriesKept.trans
    {s s₁ s₂ : HostedState}
    (h : RepositoriesKept s s₁)
    (h' : RepositoriesKept s₁ s₂) :
    RepositoriesKept s s₂ := by
  constructor
  · intro id row hrow
    obtain ⟨name, hrow₁⟩ := h.row id row hrow
    obtain ⟨name', hrow₂⟩ := h'.row id _ hrow₁
    exact ⟨name', hrow₂⟩
  · intro i n row hrow
    obtain ⟨name, hrow₁⟩ := h.number i n row hrow
    obtain ⟨name', hrow₂⟩ := h'.number i n _ hrow₁
    exact ⟨name', hrow₂⟩

theorem RepositoriesKept.id_kept
    {s s' : HostedState} {i n : Int} {id : Uuid}
    (h : RepositoriesKept s s')
    (hid : repositoryIdOf s i n = some id) :
    repositoryIdOf s' i n = some id := by
  obtain ⟨row, hrow, rfl⟩ := Option.map_eq_some_iff.mp hid
  obtain ⟨name, hrow'⟩ := h.number i n row hrow
  unfold repositoryIdOf
  rw [hrow']
  rfl

/-- A repository found by its numbers is found by its id. -/
theorem findRepository_eq_some
    {s : HostedState} {i n : Int} {row : RepositoryRow}
    (h : findRepository s i n = some row) :
    s.repositories.find? row.id = some row ∧ row.installationId = i ∧
      row.githubRepositoryId = n := by
  have hnumbers := List.find?_some h
  rw [decide_eq_true_eq] at hnumbers
  exact ⟨Table.find?_of_mem (List.mem_of_find?_eq_some h), hnumbers⟩

theorem repositoriesKept_rename
    (s : HostedState) (id : Uuid) (name : String) :
    RepositoriesKept s
      { s with
        repositories :=
          s.repositories.alter id (fun r => { r with name := name }) (fun _ => rfl) } := by
  have hname : ∀ row : RepositoryRow, ∃ name',
      (if decide (row.id = id) then { row with name := name } else row) =
        { row with name := name' } := by
    intro row
    split
    · exact ⟨name, rfl⟩
    · exact ⟨row.name, rfl⟩
  constructor
  · intro id' row hrow
    obtain ⟨name', hname'⟩ := hname row
    refine ⟨name', ?_⟩
    simp only [Table.alter, Table.find?_updateWhere, hrow, Option.map_some]
    rw [← hname']
  · intro i n row hrow
    obtain ⟨name', hname'⟩ := hname row
    refine ⟨name', ?_⟩
    unfold findRepository at hrow ⊢
    simp only [Table.alter, Table.rows_updateWhere]
    rw [List.find?_map]
    have hpredicate : ((fun r : RepositoryRow =>
          decide (r.installationId = i ∧ r.githubRepositoryId = n)) ∘
        fun r => if decide (r.id = id) then { r with name := name } else r) =
        fun r => decide (r.installationId = i ∧ r.githubRepositoryId = n) := by
      funext r
      simp only [Function.comp]
      split
      · rfl
      · rfl
    rw [hpredicate, hrow, Option.map_some, ← hname']

/-- An upsert of a repository: the others are kept, and its id is the one returned. -/
theorem registerRepository_eq_ok
    {s s' : HostedState} {drawnId id : Uuid} {i n : Int} {name : String}
    (h : registerRepository s drawnId i n name = .ok (id, s')) :
    RepositoriesKept s s' ∧ s' = { s with repositories := s'.repositories } ∧
      repositoryIdOf s' i n = some id := by
  unfold registerRepository at h
  cases hfound : findRepository s i n with
  | some row =>
      rw [hfound] at h
      cases h
      have hkept := repositoriesKept_rename s row.id name
      have hid : repositoryIdOf s i n = some row.id := by
        unfold repositoryIdOf
        rw [hfound]
        rfl
      exact ⟨hkept, rfl, hkept.id_kept hid⟩
  | none =>
      simp only [hfound] at h
      split at h
      · cases h
      · split at h
        · cases h
        · cases hinsert : s.repositories.insert?
              { id := drawnId, installationId := i, githubRepositoryId := n, name := name } with
          | none =>
              rw [hinsert] at h
              cases h
          | some repositories =>
              rw [hinsert] at h
              cases h
              obtain ⟨hfree, hrows⟩ := Table.insert?_eq_some hinsert
              refine ⟨⟨?_, ?_⟩, rfl, ?_⟩
              · intro id' row hrow
                refine ⟨row.name, ?_⟩
                rw [Table.find?_insert? hinsert, if_neg ?_]
                · exact hrow
                · intro hid
                  rw [hid, hfree] at hrow
                  cases hrow
              · intro i' n' row hrow
                refine ⟨row.name, ?_⟩
                unfold findRepository at hrow ⊢
                simp only
                rw [hrows, List.find?_append, hrow]
                rfl
              · unfold repositoryIdOf findRepository
                unfold findRepository at hfound
                simp only
                rw [hrows, List.find?_append, hfound]
                simp

/-- The upserts of an approval: every requested repository has the id returned for it. -/
theorem upsertRepositories_eq_ok
    {installationId : Int} {draw : Nat → Uuid} {s s' : HostedState} {k : Nat}
    {entries : List (Int × String)} {ids : List Uuid}
    (h : upsertRepositories installationId draw s k entries = .ok (ids, s')) :
    RepositoriesKept s s' ∧ s' = { s with repositories := s'.repositories } ∧
      entries.map (fun entry => repositoryIdOf s' installationId entry.1) = ids.map some := by
  induction entries generalizing s k ids with
  | nil =>
      cases h
      exact ⟨.of_same rfl, rfl, rfl⟩
  | cons entry rest ih =>
      simp only [upsertRepositories] at h
      split at h
      · cases h
      · next id s₁ hfirst =>
          split at h
          · cases h
          · next ids s₂ hrest =>
              cases h
              obtain ⟨hkept₁, hsame₁, hid⟩ := registerRepository_eq_ok hfirst
              obtain ⟨hkept₂, hsame₂, hids⟩ := ih hrest
              refine ⟨hkept₁.trans hkept₂, ?_, ?_⟩
              · rw [hsame₂, hsame₁]
              · rw [List.map_cons, List.map_cons, hkept₂.id_kept hid, hids]

end Repositories

section Assignments

/-- An assignment of a free repository, or the refusal of one that is held. -/
theorem assignRepositoryToRunner_eq_ok
    {s s' : HostedState} {repositoryId runnerId : Uuid} {outcome : AssignmentOutcome}
    (h : assignRepositoryToRunner s repositoryId runnerId = .ok (outcome, s')) :
    (∃ holder, outcome = .refused repositoryId holder ∧ s' = s ∧
      ∃ held, s.repositoryAssignments.find? repositoryId = some held) ∨
      (∃ assignments, outcome = .granted repositoryId runnerId ∧
        s' = { s with repositoryAssignments := assignments } ∧
        s.repositoryAssignments.insert?
          { repositoryId := repositoryId, runnerId := runnerId } = some assignments) := by
  unfold assignRepositoryToRunner at h
  split at h
  · cases h
  · cases hinsert : s.repositoryAssignments.insert?
        { repositoryId := repositoryId, runnerId := runnerId } with
    | some assignments =>
        simp only [hinsert] at h
        cases h
        exact .inr ⟨assignments, rfl, rfl, rfl⟩
    | none =>
        simp only [hinsert] at h
        split at h
        · next holder _ =>
            cases h
            exact .inl ⟨holder, rfl, rfl, Table.insert?_eq_none_iff.mp hinsert⟩
        · cases h

/-- The assignments of an exchange that met no refusal. -/
theorem assignRepositories_eq_ok
    {runnerId : Uuid} {s s' : HostedState} {ids : List Uuid}
    (h : assignRepositories runnerId s ids = .ok (none, s')) :
    s' = { s with repositoryAssignments := s'.repositoryAssignments } ∧
      s'.repositoryAssignments.rows = s.repositoryAssignments.rows ++
        ids.map (fun id => { repositoryId := id, runnerId := runnerId }) := by
  induction ids generalizing s with
  | nil =>
      cases h
      simp
  | cons id rest ih =>
      simp only [assignRepositories] at h
      split at h
      · cases h
      · cases h
      · next hfirst =>
          rcases assignRepositoryToRunner_eq_ok hfirst with
            ⟨_, hrefused, _⟩ | ⟨assignments, _, rfl, hinsert⟩
          · cases hrefused
          · obtain ⟨hsame, hrows⟩ := ih h
            refine ⟨hsame, ?_⟩
            rw [hrows, (Table.insert?_eq_some hinsert).2]
            simp

end Assignments

section Calls

variable {hashRunnerCredential : String → String}

theorem registerRunner_eq_ok
    {s s' : HostedState} {drawnId runnerId : Uuid} {deviceName credential : String}
    {capabilities : RunnerCapabilities} {githubUserId installationId : Option Int}
    (h : registerRunner hashRunnerCredential s drawnId deviceName credential capabilities
      githubUserId installationId = .ok (runnerId, s')) :
    runnerId = drawnId ∧ ∃ runners, s' = { s with runners := runners } ∧
      s.runners.insert?
        { id := drawnId
          deviceName := deviceName
          credentialHash := hashRunnerCredential credential
          capabilities := capabilities
          revokedAt := none
          githubUserId := githubUserId
          installationId := installationId } = some runners := by
  unfold registerRunner at h
  split at h
  · cases h
  · split at h
    · cases h
    · simp only at h
      split at h
      · next runners hinsert =>
          cases h
          exact ⟨rfl, runners, rfl, hinsert⟩
      · cases h

variable (hashRunnerCredential) in
/-- The ways of `create_pairing_code`. -/
theorem createPairingCode_cases
    (s : PairingState) (deviceName challenge code : String) :
    (∃ e, createPairingCode hashRunnerCredential s deviceName challenge code = .error e) ∨
      ∃ pairingCodes,
        s.pairingCodes.insert?
          (createdCode deviceName (hashRunnerCredential code) challenge s.hosted.now) =
            some pairingCodes ∧
        createPairingCode hashRunnerCredential s deviceName challenge code =
          .ok ({ code := code, expiresAt := s.hosted.now },
            { s with pairingCodes := pairingCodes }) := by
  unfold createPairingCode
  cases hinsert : s.pairingCodes.insert?
      (createdCode deviceName (hashRunnerCredential code) challenge s.hosted.now) with
  | none => exact .inl ⟨.uniqueViolation, by simp only [hinsert]⟩
  | some pairingCodes => exact .inr ⟨pairingCodes, rfl, by simp only [hinsert]; rfl⟩

/-- An accepted approval. -/
structure Approves
    (s s' : PairingState) (codeHash : String) (access : VerifiedInstallationAccess)
    (repositoryIds : List Int) (ids : List Uuid) : Prop where
  open_code : ∃ row, s.pairingCodes.find? codeHash = some row ∧ row.approval = none ∧
    row.live s.hosted.now = true
  installed : s.hosted.installations.find? access.installationId ≠ none
  covered : ∀ n ∈ repositoryIds, (access.repositories.lookup n).isSome = true
  kept : RepositoriesKept s.hosted s'.hosted
  hosted : s'.hosted = { s.hosted with repositories := s'.hosted.repositories }
  numbered : repositoryIds.map (repositoryIdOf s'.hosted access.installationId) = ids.map some
  pairingCodes : s'.pairingCodes =
    s.pairingCodes.alter codeHash
      (fun r =>
        { r with
          approval := some
            { githubUserId := access.githubUserId
              installationId := access.installationId
              repositoryIds := ids
              approvedAt := s.hosted.now } })
      (fun _ => rfl)

/-- The selected repositories carry the requested numbers. -/
theorem selected_map_fst
    {access : VerifiedInstallationAccess} {repositoryIds : List Int}
    (h : ∀ n ∈ repositoryIds, (access.repositories.lookup n).isSome = true) :
    (access.selected repositoryIds).map Prod.fst = repositoryIds := by
  unfold VerifiedInstallationAccess.selected
  induction repositoryIds with
  | nil => rfl
  | cons n rest ih =>
      obtain ⟨name, hname⟩ := Option.isSome_iff_exists.mp (h n (by simp))
      have hrest := ih (fun m hm => h m (List.mem_cons_of_mem n hm))
      simp [hname, hrest]

/-- The ways of `approve_pairing_by_hash`. -/
theorem approvePairingByHash_cases
    (s : PairingState) (codeHash : String) (access : VerifiedInstallationAccess)
    (repositoryIds : List Int) (draw : Nat → Uuid) :
    (∃ reason, approvePairingByHash s codeHash access repositoryIds draw =
      .ok (.denied reason, s)) ∨
      (∃ e, approvePairingByHash s codeHash access repositoryIds draw = .error e) ∨
      ∃ ids s', approvePairingByHash s codeHash access repositoryIds draw =
        .ok (.approved access.installationId ids, s') ∧
        Approves s s' codeHash access repositoryIds ids := by
  unfold approvePairingByHash
  cases hrow : s.pairingCodes.find? codeHash with
  | none => exact .inl ⟨_, rfl⟩
  | some row =>
      simp only
      split
      · exact .inl ⟨_, rfl⟩
      · next hopen =>
          rw [not_not] at hopen
          cases hinstallation : s.hosted.installations.find? access.installationId with
          | none => exact .inl ⟨_, rfl⟩
          | some installation =>
              have hregistered :
                  s.hosted.installations.find? access.installationId ≠ none := by
                rw [hinstallation]
                rintro ⟨⟩
              simp only
              split
              · exact .inl ⟨_, rfl⟩
              · split
                · exact .inl ⟨_, rfl⟩
                · next hcovered =>
                    have hcovered' : ∀ n ∈ repositoryIds,
                        (access.repositories.lookup n).isSome = true := by
                      simpa [Option.isSome_iff_ne_none] using hcovered
                    split
                    · exact .inr (.inl ⟨_, rfl⟩)
                    · next ids hosted hupsert =>
                        split
                        · exact .inr (.inl ⟨_, rfl⟩)
                        · obtain ⟨hkept, hsame, hids⟩ := upsertRepositories_eq_ok hupsert
                          refine .inr (.inr ⟨ids, _, rfl, ⟨row, hrow, hopen⟩, hregistered,
                            hcovered', hkept, hsame, ?_, rfl⟩)
                          rw [← hids, ← selected_map_fst hcovered', List.map_map]
                          simp only [selected_map_fst hcovered']
                          rfl

/-- An exchange that returned a credential: the runner it made and what it was assigned. -/
structure Exchanges
    (hashRunnerCredential : String → String)
    (s s' : PairingState) (code proof : String) (drawnId : Uuid) (credential : String)
    (row : PairingCodeRow) (approval : PairingApproval) : Prop where
  found : s.pairingCodes.find? (hashRunnerCredential code) = some row
  approved : row.approval = some approval
  challenge : row.challenge = hashRunnerCredential proof
  unused : row.exchangedAt = none
  live : row.live s.hosted.now = true
  runners : s.hosted.runners.insert?
    { id := drawnId
      deviceName := row.deviceName
      credentialHash := hashRunnerCredential credential
      capabilities := initialRunnerCapabilities
      revokedAt := none
      githubUserId := some approval.githubUserId
      installationId := some approval.installationId } = some s'.hosted.runners
  assignments : s'.hosted.repositoryAssignments.rows = s.hosted.repositoryAssignments.rows ++
    approval.repositoryIds.map (fun id => { repositoryId := id, runnerId := drawnId })
  hosted : s'.hosted =
    { s.hosted with
      runners := s'.hosted.runners
      repositoryAssignments := s'.hosted.repositoryAssignments }
  pairingCodes : s'.pairingCodes =
    s.pairingCodes.alter row.codeHash
      (fun r => { r with exchangedAt := some s.hosted.now }) (fun _ => rfl)

theorem exchangeable_iff
    {row : PairingCodeRow} {challenge : String} {now : Nat} :
    row.exchangeable challenge now = true ↔
      row.challenge = challenge ∧ row.approval.isSome = true ∧ row.exchangedAt = none ∧
        row.live now = true := by
  unfold PairingCodeRow.exchangeable
  rw [decide_eq_true_eq]

variable (hashRunnerCredential) in
/-- The ways of `exchange_pairing_code`. -/
theorem exchangePairingCode_cases
    (s : PairingState) (code proof : String) (drawnId : Uuid) (credential : String) :
    (exchangePairingCode hashRunnerCredential s code proof drawnId credential =
      .ok (.denied .invalidOrExpiredCode, s)) ∨
      (∃ e, exchangePairingCode hashRunnerCredential s code proof drawnId credential =
        .error e) ∨
      (∃ id holder, exchangePairingCode hashRunnerCredential s code proof drawnId credential =
        .ok (.refused id holder, s)) ∨
      ∃ row approval s', exchangePairingCode hashRunnerCredential s code proof drawnId
          credential = .ok (.credential drawnId credential, s') ∧
        Exchanges hashRunnerCredential s s' code proof drawnId credential row approval := by
  unfold exchangePairingCode
  cases hrow : s.pairingCodes.find? (hashRunnerCredential code) with
  | none => exact .inl rfl
  | some row =>
      simp only
      split
      · exact .inl rfl
      · next hexchangeable =>
          rw [not_not] at hexchangeable
          obtain ⟨hchallenge, hsome, hunused, hlive⟩ := exchangeable_iff.mp hexchangeable
          obtain ⟨approval, happroval⟩ := Option.isSome_iff_exists.mp hsome
          simp only [happroval, Option.map_some, Option.getD_some]
          split
          · exact .inr (.inl ⟨_, rfl⟩)
          · next runnerId hosted hregister =>
              obtain ⟨rfl, runners, rfl, hinsert⟩ := registerRunner_eq_ok hregister
              split
              · exact .inr (.inl ⟨_, rfl⟩)
              · exact .inr (.inr (.inl ⟨_, _, rfl⟩))
              · next hosted' hassign =>
                  obtain ⟨hsame, hrows⟩ := assignRepositories_eq_ok hassign
                  have hrunners : hosted'.runners = runners := by rw [hsame]
                  refine .inr (.inr (.inr ⟨row, approval, _, rfl, hrow, happroval, hchallenge,
                    hunused, hlive, ?_, hrows, ?_, rfl⟩))
                  · rw [hrunners]
                    exact hinsert
                  · rw [hrunners]
                    exact hsame

end Calls

/-! ## What happens outside the exchange -/

/-- What a step outside the exchange does to repositories, runners and assignments. -/
inductive PolicyChange
    (hashRunnerCredential : String → String)
    (s : HostedState) :
    HostedAction → HostedState → Prop
  | quiet
      {a : HostedAction} {s' : HostedState}
      (hkept : RepositoriesKept s s')
      (hrunners : s'.runners = s.runners)
      (hassignments : s'.repositoryAssignments = s.repositoryAssignments) :
      PolicyChange hashRunnerCredential s a s'
  | revoked
      {runnerId : Uuid} :
      PolicyChange hashRunnerCredential s (.revokeRunner runnerId) (revokeRunner s runnerId)
  | rotated
      {runnerId : Uuid} {currentCredential newCredential : String} {row : RunnerRow}
      (hrow : s.runners.find? runnerId = some row)
      (hcurrent : row.credentialHash = hashRunnerCredential currentCredential)
      (hactive : row.revokedAt = none) :
      PolicyChange hashRunnerCredential s
        (.rotateRunnerCredential runnerId currentCredential newCredential)
        { s with
          runners :=
            s.runners.alter runnerId
              (fun r => { r with credentialHash := hashRunnerCredential newCredential })
              (fun _ => rfl) }

section Elsewhere

variable {hashRunnerCredential : String → String} {s s' : HostedState}

/-- A rotation that returned. -/
theorem rotateRunnerCredential_eq_ok
    {runnerId : Uuid} {currentCredential newCredential : String}
    (h : rotateRunnerCredential hashRunnerCredential s runnerId currentCredential
      newCredential = .ok s') :
    ∃ row, s.runners.find? runnerId = some row ∧
      row.credentialHash = hashRunnerCredential currentCredential ∧ row.revokedAt = none ∧
      s' =
        { s with
          runners :=
            s.runners.alter runnerId
              (fun r => { r with credentialHash := hashRunnerCredential newCredential })
              (fun _ => rfl) } := by
  unfold rotateRunnerCredential at h
  cases hrow : s.runners.find? runnerId with
  | none =>
      rw [hrow] at h
      cases h
  | some row =>
      simp only [hrow] at h
      split at h
      · cases h
      · next hcurrent =>
          split at h
          · cases h
          · next hactive =>
              cases h
              rw [not_not] at hcurrent
              exact ⟨row, rfl, hcurrent, by simpa using hactive, rfl⟩

variable (hashRunnerCredential s) in
/-- **Inversion of the steps outside the exchange**, for the policy tables. -/
theorem step_policyChange
    {a : HostedAction}
    (ha : a.ofExchange = false) :
    PolicyChange hashRunnerCredential s a (step hashRunnerCredential s a) := by
  by_cases hpolicy : a.policy = true
  · cases a with
    | registerInstallation installationId accountLogin =>
        simp only [step, registerInstallation]
        split
        · exact .quiet (.of_same rfl) rfl rfl
        · exact .quiet (.of_same rfl) rfl rfl
    | revokeInstallation installationId => exact .quiet (.of_same rfl) rfl rfl
    | registerRepository drawnId installationId githubRepositoryId name =>
        cases hregister :
            registerRepository s drawnId installationId githubRepositoryId name with
        | error e =>
            simp only [step, hregister]
            exact .quiet (.of_same rfl) rfl rfl
        | ok answer =>
            obtain ⟨hkept, hsame, _⟩ := registerRepository_eq_ok hregister
            have hrunners : answer.2.runners = s.runners := by rw [hsame]
            have hassignments :
                answer.2.repositoryAssignments = s.repositoryAssignments := by rw [hsame]
            simp only [step, hregister]
            exact .quiet hkept hrunners hassignments
    | revokeRunner runnerId => exact .revoked
    | rotateRunnerCredential runnerId currentCredential newCredential =>
        cases hrotate : rotateRunnerCredential hashRunnerCredential s runnerId
            currentCredential newCredential with
        | error reason =>
            simp only [step, hrotate]
            exact .quiet (.of_same rfl) rfl rfl
        | ok s' =>
            obtain ⟨row, hrow, hcurrent, hactive, rfl⟩ := rotateRunnerCredential_eq_ok hrotate
            simp only [step, hrotate]
            exact .rotated hrow hcurrent hactive
    | registerRunner drawnId deviceName credential capabilities githubUserId installationId =>
        cases ha
    | assignRepositoryToRunner repositoryId runnerId => cases ha
    | _ => cases hpolicy
  · have hframe : SamePolicy s (step hashRunnerCredential s a) :=
      (step_queue_frame s (by simpa using hpolicy)).1.policy
    exact .quiet (.of_same hframe.repositories) hframe.runners hframe.repositoryAssignments

end Elsewhere

/-! ## A code of a laptop, for concrete runs -/

/-- The installation is known, and the runner of a laptop has created a code. -/
def laptopCode : List PairingAction :=
  [.elsewhere (.registerInstallation 1 "acme") rfl,
    .createPairingCode "laptop" (sampleHash "verifier") "code"]

def sampleAccess : VerifiedInstallationAccess where
  githubUserId := 7
  installationId := 1
  repositories := [(11, "acme/web")]

def webRepositoryId : Uuid := ⟨"bbbbbbbb-0000-4000-8000-000000000003", by decide⟩

end Hosted
end PrReviewer
