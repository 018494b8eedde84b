import PrReviewer.Hosted.Machine
import PrReviewer.Hosted.WebhookPayload

/-!
# The GitHub webhook

`github_webhook` of control_plane/app.py with the handlers behind it:
github/lifecycle.py for pull requests and control_plane/installation_lifecycle.py for
installations.  Each write is a transaction of its own, so a handler that raises in
the middle leaves what it has committed; the result of a request is therefore a
state together with a response or the exception that escaped.

The body's signature is taken as checked or not, and what GitHub answers when the
repositories of an installation are listed is part of the request's surroundings, as
are the ids the database draws.
-/

namespace PrReviewer
namespace Hosted

open Lib

/-- What can escape from the handler. -/
inductive WebhookError where
  | python (e : PyException)
  | hosted (e : HostedError)
  | sqlError
  | githubError
deriving DecidableEq, Repr

/-- The body of a response: an error or a result. -/
inductive ResponseBody where
  | error (text : String)
  | result (text : String)
deriving DecidableEq, Repr

structure JSONResponse where
  body : ResponseBody
  statusCode : Nat
deriving DecidableEq, Repr

/-- A text as a SQL parameter: a surrogate has no encoding, PostgreSQL refuses NUL. -/
def sqlText (s : PyStr) : Except WebhookError String :=
  match s.text? with
  | none => .error (.python .valueError)
  | some text => if text.toList.contains '\x00' then .error .sqlError else .ok text

/-- A `bigint` parameter: a boolean has another SQL type. -/
def sqlInteger : PyInt → Except WebhookError Int
  | .int n => .ok n
  | .bool _ => .error .sqlError

/-! ## Installations -/

/-- `_REGISTER_ACTIONS`. -/
def registerActions : List PyStr :=
  [.ofString "created", .ofString "unsuspend", .ofString "new_permissions_accepted"]

/-- `_REVOKE_ACTIONS`. -/
def revokeActions : List PyStr :=
  [.ofString "deleted", .ofString "suspend"]

/-- The part of an `InstallationRepository` that is registered. -/
structure InstallationRepository where
  id : PyInt
  fullName : PyStr
deriving DecidableEq, Repr

/--
What a request meets: drawn ids, the heads an entry of the index
`review_jobs_one_active_head_idx` has room for, and GitHub's listing, `none` where it
raises.
-/
structure WebhookSurroundings where
  jobId : Uuid
  traceId : Uuid
  repositoryId : Nat → Uuid
  indexTakes : String → Bool
  listing : Option (List InstallationRepository)

/-- One call of `register_installation` with values out of a payload. -/
def callRegisterInstallation
    (s : HostedState)
    (installationId : PyInt)
    (accountLogin : PyStr) :
    Except WebhookError HostedState := do
  let installationId ← sqlInteger installationId
  let accountLogin ← sqlText accountLogin
  if fitsBigint installationId then
    return registerInstallation s installationId accountLogin
  else
    .error (.hosted .numericValueOutOfRange)

/-- One call of `register_repository` with values out of a payload or a listing. -/
def callRegisterRepository
    (s : HostedState)
    (drawnId : Uuid)
    (installationId : PyInt)
    (repository : InstallationRepository) :
    Except WebhookError HostedState := do
  let installationId ← sqlInteger installationId
  let githubRepositoryId ← sqlInteger repository.id
  let name ← sqlText repository.fullName
  match registerRepository s drawnId installationId githubRepositoryId name with
  | .ok (_, s') => return s'
  | .error e => .error (.hosted e)

/-- The loop of registrations; the first that raises ends it. -/
def registerRepositories
    (drawn : Nat → Uuid)
    (installationId : PyInt) :
    HostedState → Nat → List InstallationRepository → HostedState × Except WebhookError Unit
  | s, _, [] => (s, .ok ())
  | s, n, repository :: rest =>
      match callRegisterRepository s (drawn n) installationId repository with
      | .error e => (s, .error e)
      | .ok s' => registerRepositories drawn installationId s' (n + 1) rest

/-- The action, installation id and account login of an `installation` payload. -/
structure InstallationEvent where
  action : PyStr
  installationId : PyInt
  accountLogin : PyStr

/-- The checks of `handle_installation_event`; `none` is its early return. -/
def installationEvent (payload : PyJson) : Option InstallationEvent :=
  match payload with
  | .dict items =>
      match getItem? items "action", getItem? items "installation" with
      | some (.str action), some (.dict installation) =>
          match (getItem? installation "id").bind PyJson.isInt?,
              getItem? installation "account" with
          | some installationId, some (.dict account) =>
              match getItem? account "login" with
              | some (.str accountLogin) =>
                  some
                    { action := action
                      installationId := installationId
                      accountLogin := accountLogin }
              | _ => none
          | _, _ => none
      | _, _ => none
  | _ => none

/-- `handle_installation_event`, with `_sync_repositories`. -/
def handleInstallationEvent
    (s : HostedState)
    (payload : PyJson)
    (w : WebhookSurroundings) :
    HostedState × Except WebhookError Unit :=
  match installationEvent payload with
  | none => (s, .ok ())
  | some event =>
      if event.action ∈ registerActions then
        match callRegisterInstallation s event.installationId event.accountLogin with
        | .error e => (s, .error e)
        | .ok s₁ =>
            match w.listing with
            | none => (s₁, .error .githubError)
            | some repositories =>
                registerRepositories w.repositoryId event.installationId s₁ 0 repositories
      else if event.action ∈ revokeActions then
        match sqlInteger event.installationId with
        | .error e => (s, .error e)
        | .ok installationId => (revokeInstallation s installationId, .ok ())
      else
        (s, .ok ())

/-- An entry of `repositories_added`; `none` is skipped by the loop. -/
def addedRepository (entry : PyJson) : Option InstallationRepository :=
  match entry with
  | .dict repository =>
      match (getItem? repository "id").bind PyJson.isInt?, getItem? repository "full_name" with
      | some id, some (.str fullName) => some { id := id, fullName := fullName }
      | _, _ => none
  | _ => none

/-- The checks of `handle_installation_repositories_event`. -/
def repositoriesAdded (payload : PyJson) : Option (PyInt × List InstallationRepository) :=
  match payload with
  | .dict items =>
      match getItem? items "installation", getItem? items "repositories_added" with
      | some (.dict installation), some (.list added) =>
          match (getItem? installation "id").bind PyJson.isInt? with
          | some installationId => some (installationId, added.filterMap addedRepository)
          | none => none
      | _, _ => none
  | _ => none

/-- `handle_installation_repositories_event`. -/
def handleInstallationRepositoriesEvent
    (s : HostedState)
    (payload : PyJson)
    (w : WebhookSurroundings) :
    HostedState × Except WebhookError Unit :=
  match repositoriesAdded payload with
  | none => (s, .ok ())
  | some (installationId, repositories) =>
      registerRepositories w.repositoryId installationId s 0 repositories

/-! ## Pull requests -/

/-- `LifecycleKind`. -/
inductive LifecycleKind where
  | enqueue
  | ignore
  | cancel
deriving DecidableEq, Repr

/-- `_ENQUEUE_ACTIONS`. -/
def enqueueActions : List String :=
  ["opened", "reopened", "ready_for_review", "synchronize"]

/-- `_CANCEL_ACTIONS`. -/
def cancelActions : List String :=
  ["closed", "converted_to_draft"]

/-- `handle_pull_request_event`. -/
def handlePullRequestEvent (delivery : GitHubDelivery) : LifecycleKind :=
  if delivery.event ≠ "pull_request" then .ignore
  else if delivery.action ∈ cancelActions then .cancel
  else if delivery.action ∉ enqueueActions then .ignore
  else if delivery.action = "opened" ∧ delivery.draft then .ignore
  else .enqueue

/-- The pull request whose rows `cancel_review_job` marks. -/
def GitHubDelivery.key (delivery : GitHubDelivery) : PullRequestKey where
  installationId := delivery.repositoryIdentity.installationId
  githubRepositoryId := delivery.repositoryIdentity.repositoryId
  pullRequestNumber := delivery.pullRequest.number

/-- The columns of an identity, whose texts must have an encoding. -/
def PayloadIdentity.columns
    (identity : PayloadIdentity) :
    Except WebhookError PullRequestIdentity :=
  match identity.baseSha.text?, identity.headSha.text? with
  | some baseSha, some headSha =>
      if h : 0 < identity.pullRequestNumber ∧ baseSha ≠ "" ∧ headSha ≠ "" then
        .ok
          { installationId := identity.installationId
            githubRepositoryId := identity.githubRepositoryId
            pullRequestNumber := identity.pullRequestNumber
            baseSha := baseSha
            headSha := headSha
            pullRequestNumber_pos := h.1
            baseSha_ne := h.2.1
            headSha_ne := h.2.2 }
      else
        .error .sqlError
  | _, _ => .error (.python .valueError)

/-- The identity a delivery names. -/
def GitHubDelivery.identity (delivery : GitHubDelivery) : PullRequestIdentity where
  installationId := delivery.repositoryIdentity.installationId
  githubRepositoryId := delivery.repositoryIdentity.repositoryId
  pullRequestNumber := delivery.pullRequest.number
  baseSha := delivery.baseSha
  headSha := delivery.headSha
  pullRequestNumber_pos := delivery.pullRequest.number_pos
  baseSha_ne := delivery.baseSha_ne
  headSha_ne := delivery.headSha_ne

/-- The insert of a row whose head the index has no room for is refused. -/
def WebhookSurroundings.indexed
    (w : WebhookSurroundings)
    (outcome : Except HostedError (EnqueueReviewJobResult × HostedState)) :
    Except HostedError (EnqueueReviewJobResult × HostedState) :=
  match outcome with
  | .error e => .error e
  | .ok (result, s') =>
      if
          result = .enqueued ∧
            (s'.reviewJobs.find? w.jobId).any (fun row =>
              row.headSha.any (fun headSha => ¬ w.indexTakes headSha)) then
        .error .programLimitExceeded
      else
        .ok (result, s')

def EnqueueReviewJobResult.text : EnqueueReviewJobResult → String
  | .enqueued => "enqueued"
  | .duplicate => "duplicate"
  | .ignored => "ignored"

def CancelReviewJobResult.text : CancelReviewJobResult → String
  | .cancelled => "cancelled"
  | .duplicate => "duplicate"

section Handler

variable (tables : UnicodeTables) (repr : PyJson → PyStr)

/-- The response made of what `enqueue_review_job` returned. -/
def enqueueResponse
    (s : HostedState)
    (outcome : Except HostedError (EnqueueReviewJobResult × HostedState)) :
    HostedState × Except WebhookError JSONResponse :=
  match outcome with
  | .error e => (s, .error (.hosted e))
  | .ok (result, s') =>
      (s',
        .ok
          { body := .result result.text
            statusCode := if result = .enqueued then 202 else 200 })

/-- The columns `enqueue_review_job` fills from a payload. -/
def payloadColumns (payload : PyJson) : Except WebhookError (Option PullRequestIdentity) :=
  match pullRequestIdentity tables repr payload with
  | .error e => .error (.python e)
  | .ok none => .ok none
  | .ok (some identity) => identity.columns.map some

/-- `enqueue_review_job` as the webhook calls it. -/
def enqueueFromPayload
    (s : HostedState)
    (deliveryId eventName : String)
    (payload : PyJson)
    (w : WebhookSurroundings) :
    HostedState × Except WebhookError JSONResponse :=
  match payloadColumns tables repr payload with
  | .error e => (s, .error e)
  | .ok identity =>
      enqueueResponse s
        (w.indexed (enqueueReviewJob s deliveryId eventName identity w.jobId w.traceId))

/-- The branch of `github_webhook` for pull_request events. -/
def pullRequestBranch
    (s : HostedState)
    (deliveryId eventName : String)
    (payload : PyJson)
    (w : WebhookSurroundings) :
    HostedState × Except WebhookError JSONResponse :=
  match deliveryFromWebhook tables repr deliveryId eventName payload with
  | .error e =>
      if webhookCatches e then
        (s, .ok { body := .error "incomplete pull_request payload", statusCode := 400 })
      else
        (s, .error (.python e))
  | .ok delivery =>
      match handlePullRequestEvent delivery with
      | .ignore => (s, .ok { body := .result "ignored", statusCode := 200 })
      | .cancel =>
          let cancelled :=
            cancelReviewJob s delivery.deliveryId delivery.event delivery.key
          (cancelled.2, .ok { body := .result cancelled.1.text, statusCode := 200 })
      | .enqueue => enqueueFromPayload tables repr s deliveryId eventName payload w

/-- A request as the handler sees it. -/
structure WebhookRequest where
  contentLength : Option PyStr
  bodyLength : Nat
  deliveryId : String
  eventName : String
  signatureValid : Bool
  json : Except PyException PyJson

/-- `MAX_WEBHOOK_BODY_BYTES`. -/
def maxWebhookBodyBytes : Nat := 1024 * 1024

/-- The checks `github_webhook` makes before it reads the body as JSON. -/
def WebhookRequest.refusal (r : WebhookRequest) : Option JSONResponse :=
  match r.contentLength.map (intOfText tables) with
  | some none => some { body := .error "invalid content length", statusCode := 400 }
  | declared =>
      if declared.any (fun size => size.any (fun n => (maxWebhookBodyBytes : Int) < n)) then
        some { body := .error "payload too large", statusCode := 413 }
      else if maxWebhookBodyBytes < r.bodyLength then
        some { body := .error "payload too large", statusCode := 413 }
      else if r.deliveryId = "" ∨ r.eventName = "" then
        some { body := .error "missing github headers", statusCode := 400 }
      else if ¬ r.signatureValid then
        some { body := .error "invalid signature", statusCode := 401 }
      else
        none

/-- `github_webhook`. -/
def githubWebhook
    (s : HostedState)
    (r : WebhookRequest)
    (w : WebhookSurroundings) :
    HostedState × Except WebhookError JSONResponse :=
  match r.refusal tables with
  | some response => (s, .ok response)
  | none =>
      match r.json with
      | .error e =>
          if e = .valueError ∨ e = .jsonDecodeError then
            (s, .ok { body := .error "malformed json", statusCode := 400 })
          else
            (s, .error (.python e))
      | .ok payload =>
          if r.eventName = "installation" then
            let handled := handleInstallationEvent s payload w
            (handled.1,
              handled.2.map (fun _ => { body := .result "processed", statusCode := 200 }))
          else if r.eventName = "installation_repositories" then
            let handled := handleInstallationRepositoriesEvent s payload w
            (handled.1,
              handled.2.map (fun _ => { body := .result "processed", statusCode := 200 }))
          else if r.eventName ≠ "pull_request" then
            (s, .ok { body := .result EnqueueReviewJobResult.ignored.text, statusCode := 200 })
          else
            pullRequestBranch tables repr s r.deliveryId r.eventName payload w

/-- One step of the control plane: a webhook request, or a transaction of the machine. -/
inductive PlaneAction where
  | webhook (r : WebhookRequest) (w : WebhookSurroundings)
  | hosted (a : HostedAction)

/-- The state after one step of the control plane. -/
def planeStep
    (hashRunnerCredential : String → String)
    (s : HostedState) :
    PlaneAction → HostedState
  | .webhook r w => (githubWebhook tables repr s r w).1
  | .hosted a => step hashRunnerCredential s a

end Handler

/-! ## The two readers -/

section Readers

variable (tables : UnicodeTables) (repr : PyJson → PyStr) (indexTakes : String → Bool)

/--
What it means that the two readers agree on a payload and that the branch answers.
The exceptions of `delivery_from_webhook` are caught, and a response is made from every
stored state and every free job id, as long as the database has bigint ids of
installations only.  A delivery it returns has the identity `_pull_request_identity`
returns, so that what is enqueued belongs to the pull request that would be cancelled.
-/
structure WebhookReadersAgree (payload : PyJson) : Prop where
  total :
    ∀ deliveryId eventName e,
      deliveryFromWebhook tables repr deliveryId eventName payload = .error e →
      e = .validationError ∨ e = .valueError ∨ e = .typeError ∨ e = .keyError
  answers :
    ∀ s deliveryId eventName w,
      (∀ row ∈ s.installations.rows, fitsBigint row.id = true) →
      s.reviewJobs.find? w.jobId = none → w.indexTakes = indexTakes →
      ∃ response,
        (pullRequestBranch tables repr s deliveryId eventName payload w).2 = .ok response
  same_identity :
    ∀ deliveryId eventName d,
      deliveryFromWebhook tables repr deliveryId eventName payload = .ok d →
      pullRequestIdentity tables repr payload =
        .ok (some
          { installationId := d.repositoryIdentity.installationId
            githubRepositoryId := d.repositoryIdentity.repositoryId
            pullRequestNumber := d.pullRequest.number
            baseSha := .ofString d.baseSha
            headSha := .ofString d.headSha })
  same_rows :
    ∀ s deliveryId eventName w d,
      deliveryFromWebhook tables repr deliveryId eventName payload = .ok d →
      handlePullRequestEvent d = .enqueue →
      ∃ identity : PullRequestIdentity, identity.key = d.key ∧
        identity.baseSha = d.baseSha ∧ identity.headSha = d.headSha ∧
        (pullRequestBranch tables repr s deliveryId eventName payload w).1 =
          s.commit
            ((w.indexed
              (enqueueReviewJob s deliveryId eventName (some identity) w.jobId
                w.traceId)).map Prod.snd)

/-- PostgreSQL takes the row of a delivery: the ids fit, and both texts, the head's index entry. -/
structure GitHubDelivery.Storable (d : GitHubDelivery) : Prop where
  repository_fits : fitsBigint d.key.githubRepositoryId = true
  number_fits : fitsInteger d.key.pullRequestNumber = true
  baseSha_fits : fitsText d.baseSha = true
  headSha_fits : fitsText d.headSha = true
  headSha_indexed : indexTakes d.headSha = true

/-- What a payload enqueues under an installation that can be registered is storable. -/
def EnqueuesStorable (payload : PyJson) : Prop :=
  ∀ deliveryId eventName d,
    deliveryFromWebhook tables repr deliveryId eventName payload = .ok d →
    handlePullRequestEvent d = .enqueue → fitsBigint d.key.installationId = true →
    d.Storable indexTakes

variable {tables} {repr} {indexTakes}

/-- A delivery's texts have an encoding, so that its columns are its identity. -/
@[simp] theorem payloadIdentity_columns
    (d : GitHubDelivery) :
    d.payloadIdentity.columns = .ok d.identity := by
  have hbase : d.payloadIdentity.baseSha.text? = some d.baseSha := PyStr.text?_ofString _
  have hhead : d.payloadIdentity.headSha.text? = some d.headSha := PyStr.text?_ofString _
  unfold PayloadIdentity.columns
  rw [hbase, hhead]
  exact dif_pos ⟨d.pullRequest.number_pos, d.baseSha_ne, d.headSha_ne⟩

/-- The enqueue of a delivery's own payload: with its identity, never without one. -/
theorem enqueueFromPayload_of_delivery
    {deliveryId eventName : String} {payload : PyJson} {d : GitHubDelivery}
    (h : deliveryFromWebhook tables repr deliveryId eventName payload = .ok d)
    (s : HostedState) (w : WebhookSurroundings) :
    enqueueFromPayload tables repr s deliveryId eventName payload w =
      enqueueResponse s
        (w.indexed
          (enqueueReviewJob s deliveryId eventName (some d.identity) w.jobId w.traceId)) := by
  unfold enqueueFromPayload payloadColumns
  rw [pullRequestIdentity_of_delivery h]
  simp only [payloadIdentity_columns]
  rfl

@[simp] theorem enqueueResponse_fst
    (s : HostedState)
    (outcome : Except HostedError (EnqueueReviewJobResult × HostedState)) :
    (enqueueResponse s outcome).1 = s.commit (outcome.map Prod.snd) := by
  cases outcome with
  | error e => rfl
  | ok result => rfl

theorem enqueueResponse_answers_iff
    {s : HostedState}
    {outcome : Except HostedError (EnqueueReviewJobResult × HostedState)} :
    (∃ response, (enqueueResponse s outcome).2 = .ok response) ↔
      ∃ result, outcome = .ok result := by
  cases outcome with
  | error e => simp [enqueueResponse]
  | ok result => simp [enqueueResponse]

/-- The branch of a delivery that is enqueued. -/
theorem pullRequestBranch_of_enqueue
    {payload : PyJson} {deliveryId eventName : String} {d : GitHubDelivery}
    (hread : deliveryFromWebhook tables repr deliveryId eventName payload = .ok d)
    (henqueue : handlePullRequestEvent d = .enqueue)
    (s : HostedState) (w : WebhookSurroundings) :
    pullRequestBranch tables repr s deliveryId eventName payload w =
      enqueueResponse s
        (w.indexed
          (enqueueReviewJob s deliveryId eventName (some d.identity) w.jobId w.traceId)) := by
  unfold pullRequestBranch
  rw [hread]
  simp only [henqueue]
  exact enqueueFromPayload_of_delivery hread s w

/-- What the index refuses was enqueued; nothing else changes. -/
theorem WebhookSurroundings.indexed_cases
    (w : WebhookSurroundings)
    (outcome : Except HostedError (EnqueueReviewJobResult × HostedState)) :
    w.indexed outcome = outcome ∨ ∃ e, w.indexed outcome = .error e := by
  cases outcome with
  | error e => exact .inl rfl
  | ok result =>
      unfold WebhookSurroundings.indexed
      simp only
      split
      · exact .inr ⟨_, rfl⟩
      · exact .inl rfl

theorem pullRequestIdentity_fits_iff
    {d : GitHubDelivery} :
    d.identity.Fits ∧ indexTakes d.headSha = true ↔ d.Storable indexTakes := by
  constructor
  · rintro ⟨⟨⟨hbase, hhead⟩, hrepository, hnumber⟩, hindexed⟩
    exact ⟨hrepository, hnumber, hbase, hhead, hindexed⟩
  · rintro ⟨hrepository, hnumber, hbase, hhead, hindexed⟩
    exact ⟨⟨⟨hbase, hhead⟩, hrepository, hnumber⟩, hindexed⟩

/-- A delivery whose row is storable where its installation is known is answered. -/
theorem enqueue_answers
    {d : GitHubDelivery} {s : HostedState} {w : WebhookSurroundings}
    (hfree : s.reviewJobs.find? w.jobId = none) (hindex : w.indexTakes = indexTakes)
    (hstorable : s.installations.find? d.key.installationId ≠ none → d.Storable indexTakes)
    (deliveryId eventName : String) :
    ∃ result,
      w.indexed
          (enqueueReviewJob s deliveryId eventName (some d.identity) w.jobId w.traceId) =
        .ok result := by
  obtain ⟨result, s', hresult, hheads⟩ :=
    enqueueReviewJob_returns deliveryId eventName w.traceId hfree
      (fun hinstalled => (pullRequestIdentity_fits_iff.mpr (hstorable hinstalled)).1)
  refine ⟨(result, s'), ?_⟩
  rw [hresult, WebhookSurroundings.indexed, if_neg]
  simp only [Option.any_eq_true, decide_eq_true_eq]
  rintro ⟨henqueued, row, hrow, headSha, hhead, hrefused⟩
  obtain ⟨hinstalled, rfl⟩ := hheads henqueued row hrow headSha hhead
  rw [hindex] at hrefused
  exact hrefused (hstorable hinstalled).headSha_indexed

/-- Where the installation is registered, nothing but a storable row is answered. -/
theorem storable_of_answer
    {d : GitHubDelivery} {s : HostedState} {w : WebhookSurroundings} {deliveryId : String}
    (hnew : s.githubDeliveries.find? deliveryId = none)
    (hfree : s.reviewJobs.find? w.jobId = none) (hindex : w.indexTakes = indexTakes)
    (hinstalled : s.installations.find? d.key.installationId ≠ none)
    (hanswer : ∃ result,
      w.indexed
          (enqueueReviewJob s deliveryId "pull_request" (some d.identity) w.jobId w.traceId) =
        .ok result) :
    d.Storable indexTakes := by
  obtain ⟨result, hanswer⟩ := hanswer
  rcases enqueueReviewJob_of_installed d.identity w.traceId hnew
      hinstalled hfree with ⟨hfits, s', hresult, hrow⟩ | ⟨_, e, hresult⟩
  · refine pullRequestIdentity_fits_iff.mp ⟨hfits, ?_⟩
    by_contra hindexed
    rw [hresult, WebhookSurroundings.indexed, if_pos] at hanswer
    · cases hanswer
    · refine ⟨rfl, ?_⟩
      rw [hrow, hindex]
      simp only [enqueuedRow, Option.any_some, decide_eq_true_eq]
      exact hindexed
  · rw [hresult] at hanswer
    cases hanswer

/-- A database that knows one installation and nothing else. -/
def installedAlone (installationId : Int) : HostedState :=
  registerInstallation HostedState.empty installationId ""

theorem installedAlone_installations
    (installationId : Int) :
    (installedAlone installationId).installations.rows = [⟨installationId, "", none⟩] := by
  rfl

theorem deliveryFromWebhook_event
    {deliveryId eventName : String} {payload : PyJson} {d : GitHubDelivery}
    (hread : deliveryFromWebhook tables repr deliveryId eventName payload = .ok d) :
    d.event = eventName :=
  (PyStr.ofString_injective (deliveryFromWebhook_headers hread).2).symm

theorem pullRequest_of_enqueue
    {d : GitHubDelivery}
    (henqueue : handlePullRequestEvent d = .enqueue) :
    d.event = "pull_request" := by
  by_contra hevent
  rw [handlePullRequestEvent, if_pos hevent] at henqueue
  cases henqueue

variable (indexTakes) in
/-- The branch answers when no infinity is reached and what it enqueues is storable. -/
theorem pullRequestBranch_answers
    {payload : PyJson}
    (hfinite : ¬ ReachesInfinity tables payload)
    (hstorable : EnqueuesStorable tables repr indexTakes payload)
    (s : HostedState) (deliveryId eventName : String) (w : WebhookSurroundings)
    (hbigint : ∀ row ∈ s.installations.rows, fitsBigint row.id = true)
    (hfree : s.reviewJobs.find? w.jobId = none) (hindex : w.indexTakes = indexTakes) :
    ∃ response,
      (pullRequestBranch tables repr s deliveryId eventName payload w).2 = .ok response := by
  cases hread : deliveryFromWebhook tables repr deliveryId eventName payload with
  | error e =>
      have hcaught := (deliveryFromWebhook_raises hfinite deliveryId eventName e hread).caught
      unfold pullRequestBranch
      simp only [hread, hcaught]
      exact ⟨_, rfl⟩
  | ok d =>
      cases hkind : handlePullRequestEvent d with
      | ignore =>
          unfold pullRequestBranch
          simp only [hread, hkind]
          exact ⟨_, rfl⟩
      | cancel =>
          unfold pullRequestBranch
          simp only [hread, hkind]
          exact ⟨_, rfl⟩
      | enqueue =>
          rw [pullRequestBranch_of_enqueue hread hkind, enqueueResponse_answers_iff]
          refine enqueue_answers hfree hindex ?_ deliveryId eventName
          intro hinstalled
          obtain ⟨row, hrow⟩ := Option.ne_none_iff_exists'.mp hinstalled
          refine hstorable deliveryId eventName d hread hkind ?_
          rw [← Table.key_of_find? hrow]
          exact hbigint row (Table.mem_of_find? hrow)

variable (tables) (repr) (indexTakes) in
/--
**When the two readers agree and the branch answers.**  They agree on every payload, and
the branch answers exactly when `delivery_from_webhook` comes to no `int()` of an infinite
float and every delivery that is enqueued, under an installation id that can be
registered, has values PostgreSQL stores.
-/
theorem webhookReadersAgree_iff
    (payload : PyJson) :
    WebhookReadersAgree tables repr indexTakes payload ↔
      ¬ ReachesInfinity tables payload ∧
        EnqueuesStorable tables repr indexTakes payload := by
  constructor
  · intro hagree
    refine ⟨?_, ?_⟩
    · intro hinfinite
      have hraised := deliveryFromWebhook_infinite repr hinfinite "delivery" "pull_request"
      rcases hagree.total _ _ _ hraised with h | h | h | h
      · cases h
      · cases h
      · cases h
      · cases h
    · intro deliveryId eventName d hread henqueue hbigint
      have hevent := deliveryFromWebhook_event hread
      rw [pullRequest_of_enqueue henqueue] at hevent
      subst hevent
      -- the database that has only the installation of the delivery
      have hanswer :=
        hagree.answers (installedAlone d.key.installationId) deliveryId "pull_request"
          ⟨⟨"cccccccc-0000-4000-8000-000000000001", by decide⟩,
            ⟨"dddddddd-0000-4000-8000-000000000001", by decide⟩,
            fun _ => ⟨"aaaaaaaa-0000-4000-8000-000000000001", by decide⟩, indexTakes, none⟩
          (by simpa [installedAlone_installations] using hbigint) rfl rfl
      rw [pullRequestBranch_of_enqueue hread henqueue, enqueueResponse_answers_iff] at hanswer
      refine storable_of_answer rfl rfl rfl ?_ hanswer
      simp [Table.find?, installedAlone_installations]
  · rintro ⟨hfinite, hstorable⟩
    refine ⟨?_, ?_, ?_, ?_⟩
    · intro deliveryId eventName e he
      exact deliveryFromWebhook_raises hfinite deliveryId eventName e he
    · intro s deliveryId eventName w hbigint hfree hindex
      exact pullRequestBranch_answers indexTakes hfinite hstorable s deliveryId eventName w
        hbigint hfree hindex
    · intro deliveryId eventName d hread
      exact pullRequestIdentity_of_delivery hread
    · intro s deliveryId eventName w d hread henqueue
      refine ⟨d.identity, rfl, rfl, rfl, ?_⟩
      rw [pullRequestBranch_of_enqueue hread henqueue]
      exact enqueueResponse_fst _ _

end Readers

/-! ## A payload, for concrete requests -/

/-- The Unicode tables restricted to ASCII. -/
def asciiTables : UnicodeTables where
  isSpace := fun c => isAsciiSpace c.val
  decimal := fun _ => none

/-- A stand-in for `repr`, which no sample payload comes to. -/
def sampleRepr (_ : PyJson) : PyStr :=
  .ofString "<repr>"

/-- A pull_request payload for number 7 of repository 11. -/
def samplePayload
    (action : String)
    (installationId : PyJson)
    (draft : Bool)
    (headSha : String) :
    PyJson :=
  .dict
    [(.ofString "action", .str (.ofString action)),
      (.ofString "installation", .dict [(.ofString "id", installationId)]),
      (.ofString "repository",
        .dict
          [(.ofString "id", .int 11),
            (.ofString "name", .str (.ofString "web")),
            (.ofString "owner", .dict [(.ofString "login", .str (.ofString "acme"))])]),
      (.ofString "pull_request",
        .dict
          [(.ofString "number", .int 7),
            (.ofString "draft", .bool draft),
            (.ofString "base", .dict [(.ofString "sha", .str (.ofString "base"))]),
            (.ofString "head", .dict [(.ofString "sha", .str (.ofString headSha))])])]

/-- The JSON number `1e400` as an installation id raises OverflowError out of the handler. -/
theorem infinite_installation_id_escapes :
    ¬ WebhookReadersAgree asciiTables sampleRepr (fun _ => true)
        (samplePayload "opened" (.float (.infinity false)) false "head-1") := by
  intro hagree
  have hraised :
      deliveryFromWebhook asciiTables sampleRepr "delivery-1" "pull_request"
        (samplePayload "opened" (.float (.infinity false)) false "head-1") =
          .error .overflowError := by
    rfl
  rcases hagree.total _ _ _ hraised with h | h | h | h
  · cases h
  · cases h
  · cases h
  · cases h

end Hosted
end PrReviewer
