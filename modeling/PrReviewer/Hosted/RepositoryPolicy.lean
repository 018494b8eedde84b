import PrReviewer.Hosted.Schema

/-!
# Installations, repositories, runners and their assignments

control_plane/repository_policy.py and control_plane/runner_auth.py.  The hash of
a credential is a parameter: hashlib's SHA-256 of the credential's bytes.  Ids
that the database draws with `gen_random_uuid()` are arguments; a drawn id that
is already taken makes the insertion fail, as the primary key demands.
-/

namespace PrReviewer
namespace Hosted

open Lib

section RepositoryPolicy

variable (hashRunnerCredential : String → String)

/-- `register_installation`: an upsert that always clears `revoked_at`. -/
def registerInstallation
    (s : HostedState)
    (installationId : Int)
    (accountLogin : String) :
    HostedState :=
  let row : InstallationRow :=
    { id := installationId, accountLogin := accountLogin, revokedAt := none }
  match s.installations.insert? row with
  | some installations => { s with installations := installations }
  | none =>
      { s with
        installations :=
          s.installations.alter installationId
            (fun r => { r with accountLogin := accountLogin, revokedAt := none })
            (fun _ => rfl) }

/-- `revoke_installation`. -/
def revokeInstallation
    (s : HostedState)
    (installationId : Int) :
    HostedState :=
  { s with
    installations :=
      s.installations.updateWhere
        (fun r => r.id = installationId ∧ r.revokedAt = none)
        (fun r => { r with revokedAt := some s.now })
        (fun _ => rfl) }

/-- `select … from repositories where installation_id = … and github_repository_id = …`. -/
def findRepository
    (s : HostedState)
    (installationId githubRepositoryId : Int) :
    Option RepositoryRow :=
  s.repositories.rows.find? (fun r =>
    r.installationId = installationId ∧ r.githubRepositoryId = githubRepositoryId)

/-- `register_repository`: an upsert on (installation, numeric repository id). -/
def registerRepository
    (s : HostedState)
    (drawnId : Uuid)
    (installationId githubRepositoryId : Int)
    (name : String) :
    Except HostedError (Uuid × HostedState) :=
  match findRepository s installationId githubRepositoryId with
  | some row =>
      .ok (row.id,
        { s with
          repositories :=
            s.repositories.alter row.id
              (fun r => { r with name := name }) (fun _ => rfl) })
  | none =>
      if s.installations.find? installationId = none then
        .error .foreignKeyViolation
      else if ¬ fitsBigint githubRepositoryId then
        .error .numericValueOutOfRange
      else
        let row : RepositoryRow :=
          { id := drawnId
            installationId := installationId
            githubRepositoryId := githubRepositoryId
            name := name }
        match s.repositories.insert? row with
        | some repositories => .ok (drawnId, { s with repositories := repositories })
        | none => .error .uniqueViolation

/-- `register_runner`. -/
def registerRunner
    (s : HostedState)
    (drawnId : Uuid)
    (deviceName credential : String)
    (capabilities : RunnerCapabilities)
    (githubUserId installationId : Option Int) :
    Except HostedError (Uuid × HostedState) :=
  if githubUserId.isNone ≠ installationId.isNone then
    .error (.valueError "runner pairing identity requires both github user and installation")
  else if installationId.any (fun i => (s.installations.find? i).isNone) then
    .error .foreignKeyViolation
  else
    let row : RunnerRow :=
      { id := drawnId
        deviceName := deviceName
        credentialHash := hashRunnerCredential credential
        capabilities := capabilities
        revokedAt := none
        githubUserId := githubUserId
        installationId := installationId }
    match s.runners.insert? row with
    | some runners => .ok (drawnId, { s with runners := runners })
    | none => .error .uniqueViolation

/-- `revoke_runner`: a timestamp on the runner, and its assignments released. -/
def revokeRunner
    (s : HostedState)
    (runnerId : Uuid) :
    HostedState :=
  { s with
    runners :=
      s.runners.updateWhere
        (fun r => r.id = runnerId ∧ r.revokedAt = none)
        (fun r => { r with revokedAt := some s.now })
        (fun _ => rfl)
    repositoryAssignments :=
      s.repositoryAssignments.deleteWhere (fun a => a.runnerId = runnerId) }

/-- The two answers of `assign_repository_to_runner`. -/
inductive AssignmentOutcome where
  | granted (repositoryId runnerId : Uuid)
  | refused (repositoryId : Uuid) (activeRunner : RunnerRef)
deriving DecidableEq, Repr

/-- The runner that holds a repository: the join the refusal is built from. -/
def activeRunner
    (s : HostedState)
    (repositoryId : Uuid) :
    Option RunnerRef :=
  (s.repositoryAssignments.find? repositoryId).bind (fun assignment =>
    (s.runners.find? assignment.runnerId).map (fun runner =>
      { runnerId := runner.id, deviceName := runner.deviceName }))

/-- `assign_repository_to_runner`: refused, not stolen, when the repository is held. -/
def assignRepositoryToRunner
    (s : HostedState)
    (repositoryId runnerId : Uuid) :
    Except HostedError (AssignmentOutcome × HostedState) :=
  if s.repositories.find? repositoryId = none ∨ s.runners.find? runnerId = none then
    .error .foreignKeyViolation
  else
    let row : RepositoryAssignmentRow :=
      { repositoryId := repositoryId, runnerId := runnerId }
    match s.repositoryAssignments.insert? row with
    | some assignments =>
        .ok (.granted repositoryId runnerId, { s with repositoryAssignments := assignments })
    | none =>
        match activeRunner s repositoryId with
        | some holder => .ok (.refused repositoryId holder, s)
        | none => .error .assertionError

/-- `authorize_repository`, with its checks in the order of the source. -/
def authorizeRepository
    (s : HostedState)
    (installationId githubRepositoryId : Int)
    (runnerId : Uuid) :
    Except AuthorizationDenialReason RepositoryAuthorization :=
  match s.installations.find? installationId with
  | none => .error .unknownInstallation
  | some installation =>
      if installation.revokedAt.isSome then
        .error .revokedInstallation
      else
        match findRepository s installationId githubRepositoryId with
        | none => .error .unknownRepository
        | some repository =>
            match s.runners.find? runnerId with
            | none => .error .unknownRunner
            | some runner =>
                if runner.revokedAt.isSome then
                  .error .revokedRunner
                else if
                    s.repositoryAssignments.rows.any (fun a =>
                      a.repositoryId = repository.id ∧ a.runnerId = runnerId) then
                  .ok
                    { installationId := installationId
                      githubRepositoryId := githubRepositoryId
                      repositoryId := repository.id
                      runnerId := runnerId }
                else
                  .error .runnerNotAssignedToRepository

/-- `authenticate_runner`. -/
def authenticateRunner
    (s : HostedState)
    (credential : String) :
    Except RunnerAuthDenialReason AuthenticatedRunner :=
  match
      s.runners.rows.find? (fun r =>
        r.credentialHash = hashRunnerCredential credential) with
  | none => .error .unknownCredential
  | some row =>
      if row.revokedAt.isSome then
        .error .revokedRunner
      else
        .ok { runnerId := row.id, deviceName := row.deviceName, mode := row.capabilities.mode }

/--
`_authenticate_bearer`.  The header is given as the credential after `Bearer `;
`none` is a header that is missing or has another form.
-/
def authenticateBearer
    (s : HostedState)
    (bearer : Option String) :
    Except HostedError AuthenticatedRunner :=
  match bearer with
  | none => .error (.httpException 401 "missing bearer credential")
  | some credential =>
      match authenticateRunner hashRunnerCredential s credential with
      | .error reason => .error (.httpException 401 reason.text)
      | .ok runner => .ok runner

/-- `rotate_runner_credential`; `newCredential` is the token drawn for it. -/
def rotateRunnerCredential
    (s : HostedState)
    (runnerId : Uuid)
    (currentCredential newCredential : String) :
    Except RunnerAuthDenialReason HostedState :=
  match s.runners.find? runnerId with
  | none => .error .unknownCredential
  | some row =>
      if row.credentialHash ≠ hashRunnerCredential currentCredential then
        .error .unknownCredential
      else if row.revokedAt.isSome then
        .error .revokedRunner
      else
        .ok
          { s with
            runners :=
              s.runners.alter runnerId
                (fun r => { r with credentialHash := hashRunnerCredential newCredential })
                (fun _ => rfl) }

end RepositoryPolicy

end Hosted
end PrReviewer
