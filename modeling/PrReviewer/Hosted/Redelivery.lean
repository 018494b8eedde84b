import PrReviewer.Hosted.Webhook

/-!
# Redelivered webhooks

A delivery id is remembered by `enqueue_review_job` and `cancel_review_job`, and once
remembered it stays, so a pull_request request that was processed changes nothing
when it is sent again.  The handlers of `installation` and
`installation_repositories` events remember nothing: sent again, they write again.
Their second copy is without effect when what it writes is already stored.
-/

namespace PrReviewer
namespace Hosted

open Lib

/-! ## What is recorded in `github_deliveries` -/

/-- No delivery but `d?` is new, and none is forgotten. -/
def DeliveriesGrow (s s' : HostedState) (d? : Option String) : Prop :=
  ∀ x, s'.githubDeliveries.find? x = s.githubDeliveries.find? x ∨
    (d? = some x ∧ s'.githubDeliveries.find? x ≠ none)

theorem DeliveriesGrow.of_eq
    {s s' : HostedState} {d? : Option String}
    (h : s'.githubDeliveries = s.githubDeliveries) :
    DeliveriesGrow s s' d? := by
  intro x
  rw [h]
  exact .inl rfl

/-- A delivery, once recorded, stays recorded. -/
theorem DeliveriesGrow.known
    {s s' : HostedState} {d? : Option String} {x : String}
    (h : DeliveriesGrow s s' d?)
    (hknown : s.githubDeliveries.find? x ≠ none) :
    s'.githubDeliveries.find? x ≠ none := by
  rcases h x with hsame | ⟨_, hnew⟩
  · rw [hsame]
    exact hknown
  · exact hnew

theorem recordDelivery_find?
    {s s' : HostedState} {deliveryId eventName : String}
    (h : recordDelivery s deliveryId eventName = some s')
    (x : String) :
    s'.githubDeliveries.find? x =
      if x = deliveryId then some { id := deliveryId, eventName := eventName }
      else s.githubDeliveries.find? x := by
  unfold recordDelivery at h
  rw [Option.map_eq_some_iff] at h
  obtain ⟨deliveries, hinsert, rfl⟩ := h
  exact Table.find?_insert? hinsert x

/-- Recording a delivery, whatever the transaction does besides. -/
theorem DeliveriesGrow.of_recorded
    {s s₁ s' : HostedState} {deliveryId eventName : String}
    (hrecord : recordDelivery s deliveryId eventName = some s₁)
    (hsame : s'.githubDeliveries = s₁.githubDeliveries) :
    DeliveriesGrow s s' (some deliveryId) ∧ s'.githubDeliveries.find? deliveryId ≠ none := by
  have hfind := recordDelivery_find? hrecord
  refine ⟨?_, ?_⟩
  · intro x
    rw [hsame, hfind]
    split
    · next hx =>
        subst hx
        refine .inr ⟨rfl, ?_⟩
        rintro ⟨⟩
    · exact .inl rfl
  · rw [hsame, hfind, if_pos rfl]
    rintro ⟨⟩

/-- An insertion into `review_jobs` leaves the deliveries alone. -/
theorem insertReviewJob_deliveries
    {s s' : HostedState} {row : ReviewJobRow}
    (h : insertReviewJob s row = .ok s') :
    s'.githubDeliveries = s.githubDeliveries := by
  obtain ⟨reviewJobs, _, rfl⟩ := insertReviewJob_eq_ok h
  rfl

/-- An enqueue that returned has its delivery recorded. -/
theorem enqueueReviewJob_deliveries
    {s s' : HostedState} {deliveryId : String} {identity : Option PullRequestIdentity}
    {jobId traceId : Uuid} {result : EnqueueReviewJobResult}
    (h : enqueueReviewJob s deliveryId "pull_request" identity jobId traceId =
      .ok (result, s')) :
    DeliveriesGrow s s' (some deliveryId) ∧ s'.githubDeliveries.find? deliveryId ≠ none := by
  unfold enqueueReviewJob at h
  rw [if_neg (not_not.mpr rfl)] at h
  cases hrecord : recordDelivery s deliveryId "pull_request" with
  | none =>
      rw [hrecord] at h
      cases h
      exact ⟨.of_eq rfl, recordDelivery_eq_none_iff.mp hrecord⟩
  | some s₁ =>
      rw [hrecord] at h
      simp only at h
      -- whichever row is inserted, the deliveries are those of `s₁`
      have hinserted :
          ∀ {s₂ : HostedState} {row : ReviewJobRow},
            s₂.githubDeliveries = s₁.githubDeliveries →
            (insertReviewJob s₂ row).map (fun s₃ => (EnqueueReviewJobResult.enqueued, s₃)) =
              .ok (result, s') →
            s'.githubDeliveries = s₁.githubDeliveries := by
        intro s₂ row hs₂ hmap
        obtain ⟨s₃, hs₃, heq⟩ := map_eq_ok hmap
        cases heq
        rw [insertReviewJob_deliveries hs₃, hs₂]
      apply DeliveriesGrow.of_recorded hrecord
      cases identity with
      | none => exact hinserted rfl h
      | some identity =>
          simp only at h
          split at h
          · exact hinserted rfl h
          · split at h
            · cases h
            · split at h
              · cases h
              · refine hinserted ?_ h
                rfl

theorem cancelReviewJob_deliveries
    (s : HostedState) (deliveryId eventName : String) (k : PullRequestKey) :
    DeliveriesGrow s (cancelReviewJob s deliveryId eventName k).2 (some deliveryId) ∧
      (cancelReviewJob s deliveryId eventName k).2.githubDeliveries.find? deliveryId ≠
        none := by
  unfold cancelReviewJob
  cases hrecord : recordDelivery s deliveryId eventName with
  | none => exact ⟨.of_eq rfl, recordDelivery_eq_none_iff.mp hrecord⟩
  | some s₁ => exact DeliveriesGrow.of_recorded hrecord rfl

/-- Only an enqueue and a cancellation record a delivery. -/
theorem step_deliveries
    (hashRunnerCredential : String → String)
    (s : HostedState) (a : HostedAction) :
    DeliveriesGrow s (step hashRunnerCredential s a) a.delivery? := by
  by_cases hpolicy : a.policy = true
  · exact .of_eq (step_policy_frame s hpolicy).1.githubDeliveries
  · have hframe : QueueFrame s (step hashRunnerCredential s a) a :=
      (step_queue_frame s (by simpa using hpolicy)).1
    cases a with
    | enqueueReviewJob deliveryId eventName identity jobId traceId =>
        cases hresult : enqueueReviewJob s deliveryId eventName identity jobId traceId with
        | error e =>
            simp only [step, hresult]
            exact .of_eq rfl
        | ok result =>
            simp only [step, hresult]
            by_cases hevent : eventName = "pull_request"
            · subst hevent
              exact (enqueueReviewJob_deliveries hresult).1
            · unfold enqueueReviewJob at hresult
              rw [if_pos hevent] at hresult
              cases hresult
              exact .of_eq rfl
    | cancelReviewJob deliveryId eventName k =>
        exact (cancelReviewJob_deliveries s deliveryId eventName k).1
    | _ => exact .of_eq (hframe.githubDeliveries rfl)

/-! ## What a request leaves alone -/

theorem SameQueue.refl
    (s : HostedState) :
    SameQueue s s :=
  ⟨rfl, rfl, rfl, rfl, rfl⟩

theorem SameQueue.trans
    {s s' s'' : HostedState}
    (h : SameQueue s s')
    (h' : SameQueue s' s'') :
    SameQueue s s'' :=
  ⟨h'.now.trans h.now, h'.githubDeliveries.trans h.githubDeliveries,
    h'.reviewJobs.trans h.reviewJobs, h'.agentEvents.trans h.agentEvents,
    h'.reviewFindings.trans h.reviewFindings⟩

theorem callRegisterInstallation_ok
    {s s' : HostedState} {installationId : PyInt} {accountLogin : PyStr}
    (h : callRegisterInstallation s installationId accountLogin = .ok s') :
    ∃ i login, sqlInteger installationId = .ok i ∧ sqlText accountLogin = .ok login ∧
      s' = registerInstallation s i login := by
  obtain ⟨i, hi, h⟩ := bind_eq_ok h
  obtain ⟨login, hlogin, h⟩ := bind_eq_ok h
  split at h
  · cases h
    exact ⟨i, login, hi, hlogin, rfl⟩
  · cases h

theorem callRegisterRepository_ok
    {s s' : HostedState} {drawnId : Uuid} {installationId : PyInt}
    {repository : InstallationRepository}
    (h : callRegisterRepository s drawnId installationId repository = .ok s') :
    ∃ i g name result, sqlInteger installationId = .ok i ∧ sqlInteger repository.id = .ok g ∧
      sqlText repository.fullName = .ok name ∧
      registerRepository s drawnId i g name = .ok result ∧ s' = result.2 := by
  obtain ⟨i, hi, h⟩ := bind_eq_ok h
  obtain ⟨g, hg, h⟩ := bind_eq_ok h
  obtain ⟨name, hname, h⟩ := bind_eq_ok h
  split at h
  · next drawn s'' hregister =>
      cases h
      exact ⟨i, g, name, (drawn, s'), hi, hg, hname, hregister, rfl⟩
  · cases h

theorem registerRepositories_sameQueue
    (drawn : Nat → Uuid) (installationId : PyInt)
    (s : HostedState) (n : Nat) (repositories : List InstallationRepository) :
    SameQueue s (registerRepositories drawn installationId s n repositories).1 := by
  induction repositories generalizing s n with
  | nil =>
      exact .refl s
  | cons repository rest ih =>
      unfold registerRepositories
      cases hcall : callRegisterRepository s (drawn n) installationId repository with
      | error e => exact .refl s
      | ok s' =>
          obtain ⟨i, g, name, result, _, _, _, hregister, rfl⟩ :=
            callRegisterRepository_ok hcall
          exact (registerRepository_frame hregister).1.trans (ih result.2 (n + 1))

/-- The handlers of installation events leave the queue alone. -/
theorem handleInstallationEvent_sameQueue
    (s : HostedState) (payload : PyJson) (w : WebhookSurroundings) :
    SameQueue s (handleInstallationEvent s payload w).1 := by
  unfold handleInstallationEvent
  cases installationEvent payload with
  | none => exact .refl s
  | some event =>
      simp only
      split
      · cases hcall : callRegisterInstallation s event.installationId event.accountLogin with
        | error e => exact .refl s
        | ok s₁ =>
            obtain ⟨i, login, _, _, rfl⟩ := callRegisterInstallation_ok hcall
            have hfirst := registerInstallation_sameQueue s i login
            simp only
            cases w.listing with
            | none => exact hfirst
            | some repositories =>
                exact hfirst.trans (registerRepositories_sameQueue _ _ _ _ repositories)
      · split
        · cases sqlInteger event.installationId with
          | error e => exact .refl s
          | ok i => exact ⟨rfl, rfl, rfl, rfl, rfl⟩
        · exact .refl s

theorem handleInstallationRepositoriesEvent_sameQueue
    (s : HostedState) (payload : PyJson) (w : WebhookSurroundings) :
    SameQueue s (handleInstallationRepositoriesEvent s payload w).1 := by
  unfold handleInstallationRepositoriesEvent
  cases repositoriesAdded payload with
  | none => exact .refl s
  | some added => exact registerRepositories_sameQueue _ _ _ _ added.2

section Requests

variable (tables : UnicodeTables) (repr : PyJson → PyStr)

/-- The delivery of a well-formed pull_request request that passes the handler's checks. -/
def WebhookRequest.delivery? (r : WebhookRequest) : Option GitHubDelivery :=
  if (r.refusal tables).isSome ∨ r.eventName ≠ "pull_request" then
    none
  else
    match r.json with
    | .error _ => none
    | .ok payload =>
        match deliveryFromWebhook tables repr r.deliveryId r.eventName payload with
        | .error _ => none
        | .ok d => some d

variable {tables} {repr}

/-- The handler of a well-formed pull_request request is its branch. -/
theorem githubWebhook_of_delivery
    {r : WebhookRequest} {d : GitHubDelivery}
    (h : r.delivery? tables repr = some d) :
    ∃ payload,
      deliveryFromWebhook tables repr r.deliveryId "pull_request" payload = .ok d ∧
      d.deliveryId = r.deliveryId ∧ d.event = "pull_request" ∧
      ∀ s w, githubWebhook tables repr s r w =
        pullRequestBranch tables repr s r.deliveryId "pull_request" payload w := by
  unfold WebhookRequest.delivery? at h
  split at h
  · cases h
  · next hchecks =>
      simp only [not_or, not_not, Option.not_isSome_iff_eq_none] at hchecks
      obtain ⟨hrefusal, hevent⟩ := hchecks
      split at h
      · cases h
      · next payload hjson =>
          split at h
          · cases h
          · next d' hread =>
              cases h
              rw [hevent] at hread
              refine ⟨payload, hread, ?_, ?_, ?_⟩
              · exact (PyStr.ofString_injective (deliveryFromWebhook_headers hread).1).symm
              · exact (PyStr.ofString_injective (deliveryFromWebhook_headers hread).2).symm
              · intro s w
                have hinstallation : ¬ r.eventName = "installation" := by
                  rw [hevent]
                  decide
                have hrepositories : ¬ r.eventName = "installation_repositories" := by
                  rw [hevent]
                  decide
                unfold githubWebhook
                rw [hrefusal, hjson]
                simp only
                rw [if_neg hinstallation, if_neg hrepositories, if_neg (not_not.mpr hevent),
                  hevent]

/-- A request that brings no delivery comes to one of the two other handlers, or to none. -/
theorem githubWebhook_of_no_delivery
    {r : WebhookRequest}
    (h : r.delivery? tables repr = none)
    (s : HostedState) (w : WebhookSurroundings) :
    (githubWebhook tables repr s r w).1 = s ∨
    (∃ payload, r.eventName = "installation" ∧ r.json = .ok payload ∧
      (githubWebhook tables repr s r w).1 = (handleInstallationEvent s payload w).1) ∨
    (∃ payload, r.eventName = "installation_repositories" ∧ r.json = .ok payload ∧
      (githubWebhook tables repr s r w).1 =
        (handleInstallationRepositoriesEvent s payload w).1) := by
  unfold githubWebhook
  cases hrefusal : r.refusal tables with
  | some response => exact .inl rfl
  | none =>
      simp only
      cases hjson : r.json with
      | error e =>
          simp only
          split
          · exact .inl rfl
          · exact .inl rfl
      | ok payload =>
          simp only
          split
          · next hevent => exact .inr (.inl ⟨payload, hevent, rfl, rfl⟩)
          · split
            · next hevent => exact .inr (.inr ⟨payload, hevent, rfl, rfl⟩)
            · split
              · exact .inl rfl
              · next hevent =>
                  -- a pull_request payload that is no delivery is refused or raises
                  rw [not_not] at hevent
                  unfold WebhookRequest.delivery? at h
                  rw [if_neg (by simp [hrefusal, hevent]), hjson] at h
                  simp only at h
                  cases hread : deliveryFromWebhook tables repr r.deliveryId r.eventName
                      payload with
                  | ok d =>
                      rw [hread] at h
                      cases h
                  | error e =>
                      refine .inl ?_
                      unfold pullRequestBranch
                      simp only [hread]
                      split
                      · rfl
                      · rfl

/-- Such a request leaves the queue alone. -/
theorem githubWebhook_sameQueue
    {r : WebhookRequest}
    (h : r.delivery? tables repr = none)
    (s : HostedState) (w : WebhookSurroundings) :
    SameQueue s (githubWebhook tables repr s r w).1 := by
  rcases githubWebhook_of_no_delivery h s w with
    hsame | ⟨payload, _, _, hhandled⟩ | ⟨payload, _, _, hhandled⟩
  · rw [hsame]
    exact .refl s
  · rw [hhandled]
    exact handleInstallationEvent_sameQueue s payload w
  · rw [hhandled]
    exact handleInstallationRepositoriesEvent_sameQueue s payload w

/-- A delivery that is not ignored, if it was answered, is recorded. -/
theorem pullRequestBranch_deliveries
    {payload : PyJson} {deliveryId : String} {d : GitHubDelivery}
    (hread : deliveryFromWebhook tables repr deliveryId "pull_request" payload = .ok d)
    (hid : d.deliveryId = deliveryId)
    (s : HostedState) (w : WebhookSurroundings) :
    DeliveriesGrow s (pullRequestBranch tables repr s deliveryId "pull_request" payload w).1
        (some deliveryId) ∧
      (handlePullRequestEvent d ≠ .ignore →
        ∀ response,
          (pullRequestBranch tables repr s deliveryId "pull_request" payload w).2 =
              .ok response →
          (pullRequestBranch tables repr s deliveryId "pull_request" payload
            w).1.githubDeliveries.find? deliveryId ≠ none) := by
  unfold pullRequestBranch
  rw [hread]
  simp only
  cases hkind : handlePullRequestEvent d with
  | ignore =>
      refine ⟨.of_eq rfl, ?_⟩
      intro hne
      exact absurd rfl hne
  | cancel =>
      have hcancelled := cancelReviewJob_deliveries s d.deliveryId d.event d.key
      rw [hid] at hcancelled
      simp only [hid]
      refine ⟨hcancelled.1, ?_⟩
      intro _ _ _
      exact hcancelled.2
  | enqueue =>
      simp only
      rw [enqueueFromPayload_of_delivery hread]
      rcases w.indexed_cases
          (enqueueReviewJob s deliveryId "pull_request" (some d.identity) w.jobId w.traceId) with
        hsame | ⟨e, hrefused⟩
      · rw [hsame]
        cases hresult :
            enqueueReviewJob s deliveryId "pull_request" (some d.identity) w.jobId
              w.traceId with
        | error e =>
            refine ⟨.of_eq rfl, ?_⟩
            rintro _ response ⟨⟩
        | ok result =>
            have henqueued := enqueueReviewJob_deliveries hresult
            refine ⟨henqueued.1, ?_⟩
            intro _ _ _
            exact henqueued.2
      · rw [hrefused]
        refine ⟨.of_eq rfl, ?_⟩
        rintro _ response ⟨⟩

/-- A delivery that is recorded already, or ignored, changes nothing. -/
theorem pullRequestBranch_known
    {payload : PyJson} {deliveryId : String} {d : GitHubDelivery}
    (hread : deliveryFromWebhook tables repr deliveryId "pull_request" payload = .ok d)
    (hid : d.deliveryId = deliveryId)
    (s : HostedState) (w : WebhookSurroundings)
    (hknown : handlePullRequestEvent d = .ignore ∨
      s.githubDeliveries.find? deliveryId ≠ none) :
    (pullRequestBranch tables repr s deliveryId "pull_request" payload w).1 = s := by
  have hduplicate :
      handlePullRequestEvent d ≠ .ignore →
        ∀ eventName, recordDelivery s deliveryId eventName = none := by
    intro hne eventName
    exact recordDelivery_eq_none_iff.mpr (hknown.resolve_left hne)
  unfold pullRequestBranch
  rw [hread]
  simp only
  cases hkind : handlePullRequestEvent d with
  | ignore => rfl
  | cancel =>
      have hnone := hduplicate (by rw [hkind]; rintro ⟨⟩) d.event
      simp only [cancelReviewJob, hid, hnone]
  | enqueue =>
      have hnone := hduplicate (by rw [hkind]; rintro ⟨⟩) "pull_request"
      simp only
      rw [enqueueFromPayload_of_delivery hread]
      have hagain :
          enqueueReviewJob s deliveryId "pull_request" (some d.identity) w.jobId
            w.traceId = .ok (.duplicate, s) := by
        unfold enqueueReviewJob
        rw [if_neg (not_not.mpr rfl), hnone]
      rw [hagain]
      rfl

end Requests

/-! ## A second copy -/

/-- An installation with its timestamp reduced to whether it is revoked. -/
def InstallationRow.untimed (row : InstallationRow) : Int × String × Bool :=
  (row.id, row.accountLogin, row.revokedAt.isSome)

/-- The tables the webhook writes are the same, timestamps aside. -/
structure SameRecords (s s' : HostedState) : Prop where
  installations :
    s'.installations.rows.map InstallationRow.untimed =
      s.installations.rows.map InstallationRow.untimed
  repositories : s'.repositories = s.repositories
  githubDeliveries : s'.githubDeliveries = s.githubDeliveries
  reviewJobs : s'.reviewJobs = s.reviewJobs

theorem SameRecords.of_eq
    {s s' : HostedState}
    (h : s' = s) :
    SameRecords s s' := by
  subst h
  exact ⟨rfl, rfl, rfl, rfl⟩

/-- The repository is registered under the name the entry gives it. -/
def RepositorySettled
    (s : HostedState)
    (installationId : PyInt)
    (repository : InstallationRepository) :
    Prop :=
  ∀ i g name,
    sqlInteger installationId = .ok i →
    sqlInteger repository.id = .ok g →
    sqlText repository.fullName = .ok name →
    ∃ row, findRepository s i g = some row ∧ row.name = name

/--
The installation is as the event says: for a register action it is stored under the
event's login and not revoked, and the repositories GitHub lists are registered under
their names; for a revoke action it is revoked already, if it is stored at all.
-/
structure InstallationSettled
    (s : HostedState)
    (event : InstallationEvent)
    (w : WebhookSurroundings) :
    Prop where
  registered :
    event.action ∈ registerActions →
    ∀ i login,
      sqlInteger event.installationId = .ok i →
      sqlText event.accountLogin = .ok login →
      s.installations.find? i =
          some { id := i, accountLogin := login, revokedAt := none } ∧
        ∀ repositories, w.listing = some repositories →
          ∀ repository ∈ repositories, RepositorySettled s event.installationId repository
  revoked :
    event.action ∈ revokeActions →
    ∀ i row,
      sqlInteger event.installationId = .ok i →
      s.installations.find? i = some row →
      row.revokedAt ≠ none

/-- What an installation event would store is stored; a pull_request event is free. -/
structure RedeliverySettled
    (s : HostedState)
    (r : WebhookRequest)
    (w : WebhookSurroundings) :
    Prop where
  installation :
    ∀ payload event,
      r.eventName = "installation" →
      r.json = .ok payload →
      installationEvent payload = some event →
      InstallationSettled s event w
  repositories :
    ∀ payload added,
      r.eventName = "installation_repositories" →
      r.json = .ok payload →
      repositoriesAdded payload = some added →
      ∀ repository ∈ added.2, RepositorySettled s added.1 repository

theorem registerInstallation_settled
    {s : HostedState} {i : Int} {login : String}
    (h : s.installations.find? i =
      some { id := i, accountLogin := login, revokedAt := none }) :
    registerInstallation s i login = s := by
  unfold registerInstallation
  have hstored :
      s.installations.insert? { id := i, accountLogin := login, revokedAt := none } =
        none :=
    Table.insert?_eq_none_iff.mpr ⟨_, h⟩
  simp only
  rw [hstored]
  simp only
  rw [Table.alter_eq_self]
  intro row hrow
  rw [h] at hrow
  cases hrow
  rfl

theorem revokeInstallation_settled
    {s : HostedState} {i : Int}
    (h : ∀ row, s.installations.find? i = some row → row.revokedAt ≠ none) :
    revokeInstallation s i = s := by
  unfold revokeInstallation
  rw [Table.updateWhere_eq_self]
  intro row hrow hselected
  rw [decide_eq_true_eq] at hselected
  have hfind : s.installations.find? i = some row :=
    Table.find?_eq_some_iff.mpr ⟨hrow, hselected.1⟩
  exact absurd hselected.2 (h row hfind)

theorem callRegisterRepository_settled
    {s s' : HostedState} {drawnId : Uuid} {installationId : PyInt}
    {repository : InstallationRepository}
    (hsettled : RepositorySettled s installationId repository)
    (h : callRegisterRepository s drawnId installationId repository = .ok s') :
    s' = s := by
  obtain ⟨i, g, name, result, hi, hg, hname, hregister, rfl⟩ := callRegisterRepository_ok h
  obtain ⟨row, hrow, rfl⟩ := hsettled i g name hi hg hname
  unfold registerRepository at hregister
  rw [hrow] at hregister
  cases hregister
  simp only
  rw [Table.alter_eq_self]
  intro row' hrow'
  have hmem : row ∈ s.repositories.rows := List.mem_of_find?_eq_some hrow
  have hsame : row' = row :=
    s.repositories.eq_of_key_eq (Table.mem_of_find? hrow') hmem (Table.key_of_find? hrow')
  subst hsame
  rfl

theorem registerRepositories_settled
    {s : HostedState} {installationId : PyInt} {repositories : List InstallationRepository}
    (hsettled :
      ∀ repository ∈ repositories, RepositorySettled s installationId repository)
    (drawn : Nat → Uuid) (n : Nat) :
    (registerRepositories drawn installationId s n repositories).1 = s := by
  induction repositories generalizing n with
  | nil =>
      rfl
  | cons repository rest ih =>
      unfold registerRepositories
      cases hcall : callRegisterRepository s (drawn n) installationId repository with
      | error e => rfl
      | ok s' =>
          have hsame :=
            callRegisterRepository_settled (hsettled repository List.mem_cons_self) hcall
          subst hsame
          exact ih (fun repository' hrest => hsettled repository' (List.mem_cons_of_mem _ hrest))
            (n + 1)

theorem handleInstallationEvent_settled
    {s : HostedState} {payload : PyJson} {w : WebhookSurroundings}
    (hsettled :
      ∀ event, installationEvent payload = some event → InstallationSettled s event w) :
    (handleInstallationEvent s payload w).1 = s := by
  unfold handleInstallationEvent
  cases hevent : installationEvent payload with
  | none => rfl
  | some event =>
      have hstored := hsettled event hevent
      simp only
      split
      · next hregister =>
          cases hcall : callRegisterInstallation s event.installationId event.accountLogin with
          | error e => rfl
          | ok s₁ =>
              obtain ⟨i, login, hi, hlogin, rfl⟩ := callRegisterInstallation_ok hcall
              obtain ⟨hrow, hlisted⟩ := hstored.registered hregister i login hi hlogin
              rw [registerInstallation_settled hrow]
              simp only
              cases hlisting : w.listing with
              | none => rfl
              | some repositories =>
                  exact registerRepositories_settled (hlisted repositories hlisting) _ _
      · split
        · next hrevoke =>
            cases hi : sqlInteger event.installationId with
            | error e => rfl
            | ok i =>
                simp only
                apply revokeInstallation_settled
                intro row hrow
                exact hstored.revoked hrevoke i row hi hrow
        · rfl

theorem handleInstallationRepositoriesEvent_settled
    {s : HostedState} {payload : PyJson} {w : WebhookSurroundings}
    (hsettled :
      ∀ added, repositoriesAdded payload = some added →
        ∀ repository ∈ added.2, RepositorySettled s added.1 repository) :
    (handleInstallationRepositoriesEvent s payload w).1 = s := by
  unfold handleInstallationRepositoriesEvent
  cases hadded : repositoriesAdded payload with
  | none => rfl
  | some added => exact registerRepositories_settled (hsettled added hadded) _ _

section Runs

variable {tables : UnicodeTables} {repr : PyJson → PyStr}
variable {hashRunnerCredential : String → String}

/-- A request records at most the delivery its header names. -/
theorem githubWebhook_deliveries
    (s : HostedState) (r : WebhookRequest) (w : WebhookSurroundings) :
    DeliveriesGrow s (githubWebhook tables repr s r w).1 (some r.deliveryId) := by
  cases hdelivery : r.delivery? tables repr with
  | none => exact .of_eq (githubWebhook_sameQueue hdelivery s w).githubDeliveries
  | some d =>
      obtain ⟨payload, hread, hid, _, hbranch⟩ := githubWebhook_of_delivery hdelivery
      rw [hbranch]
      exact (pullRequestBranch_deliveries hread hid s w).1

/-- A recorded delivery stays recorded, whatever the control plane does next. -/
theorem planeStep_known
    {x : String}
    (s : HostedState) (a : PlaneAction)
    (h : s.githubDeliveries.find? x ≠ none) :
    (planeStep tables repr hashRunnerCredential s a).githubDeliveries.find? x ≠ none := by
  cases a with
  | webhook r w => exact (githubWebhook_deliveries s r w).known h
  | hosted a => exact (step_deliveries hashRunnerCredential s a).known h

/-- What the tables remember of a request that was answered. -/
def Remembered (tables : UnicodeTables) (repr : PyJson → PyStr)
    (r : WebhookRequest) (s : HostedState) : Prop :=
  ∀ d, r.delivery? tables repr = some d →
    handlePullRequestEvent d = .ignore ∨ s.githubDeliveries.find? r.deliveryId ≠ none

theorem remembered_of_answered
    {s : HostedState} {r : WebhookRequest} {w : WebhookSurroundings}
    {response : JSONResponse}
    (h : (githubWebhook tables repr s r w).2 = .ok response) :
    Remembered tables repr r (githubWebhook tables repr s r w).1 := by
  intro d hdelivery
  obtain ⟨payload, hread, hid, _, hbranch⟩ := githubWebhook_of_delivery hdelivery
  rw [hbranch] at h ⊢
  by_cases hignored : handlePullRequestEvent d = .ignore
  · exact .inl hignored
  · exact .inr ((pullRequestBranch_deliveries hread hid s w).2 hignored response h)

/-- A remembered request, sent again where it is settled, changes nothing. -/
theorem githubWebhook_again
    {s : HostedState} {r : WebhookRequest} {w : WebhookSurroundings}
    (hremembered : Remembered tables repr r s)
    (hsettled : RedeliverySettled s r w) :
    (githubWebhook tables repr s r w).1 = s := by
  cases hdelivery : r.delivery? tables repr with
  | some d =>
      obtain ⟨payload, hread, hid, _, hbranch⟩ := githubWebhook_of_delivery hdelivery
      rw [hbranch]
      exact pullRequestBranch_known hread hid s w (hremembered d hdelivery)
  | none =>
      rcases githubWebhook_of_no_delivery hdelivery s w with
        hsame | ⟨payload, hevent, hjson, hhandled⟩ | ⟨payload, hevent, hjson, hhandled⟩
      · exact hsame
      · rw [hhandled]
        apply handleInstallationEvent_settled
        intro event hread
        exact hsettled.installation payload event hevent hjson hread
      · rw [hhandled]
        apply handleInstallationRepositoriesEvent_settled
        intro added hread
        exact hsettled.repositories payload added hevent hjson hread

variable (tables) (repr) (hashRunnerCredential) in
/--
**When a second copy of a request changes nothing.**  In every run of the control
plane, a request that was answered and is sent again at any later point leaves the
four tables as they are, provided that the state it meets is settled: an
installation event must find stored what it would store.  A pull_request event finds
that by its delivery id, in every run.
-/
theorem redelivery_unchanged_of_settled
    (s₀ : HostedState)
    (before later : List PlaneAction)
    (r : WebhookRequest)
    (w w' : WebhookSurroundings)
    (response : JSONResponse)
    (hprocessed :
      (githubWebhook tables repr
        (exec (planeStep tables repr hashRunnerCredential) s₀ before) r w).2 = .ok response)
    (hsettled :
      RedeliverySettled
        (exec (planeStep tables repr hashRunnerCredential) s₀
          (before ++ .webhook r w :: later)) r w') :
    SameRecords
      (exec (planeStep tables repr hashRunnerCredential) s₀
        (before ++ .webhook r w :: later))
      (exec (planeStep tables repr hashRunnerCredential) s₀
        (before ++ .webhook r w :: later ++ [.webhook r w'])) := by
  rw [exec_append s₀ (before ++ _) [_], exec_cons, exec_nil]
  apply SameRecords.of_eq
  apply githubWebhook_again _ hsettled
  rw [exec_append, exec_cons]
  have hremembered := remembered_of_answered hprocessed
  -- the record of the first copy lives through the rest of the run
  intro d hdelivery
  rcases hremembered d hdelivery with hignored | hknown
  · exact .inl hignored
  · exact .inr (exec_preserves (fun s a h => planeStep_known s a h) later hknown)

end Runs

/-! ## Installation events, sent again -/

/-- An `installation` request of installation 1, account acme. -/
def installationRequest (deliveryId action : String) : WebhookRequest where
  contentLength := none
  bodyLength := 256
  deliveryId := deliveryId
  eventName := "installation"
  signatureValid := true
  json :=
    .ok (.dict
      [(.ofString "action", .str (.ofString action)),
        (.ofString "installation",
          .dict
            [(.ofString "id", .int 1),
              (.ofString "account", .dict [(.ofString "login", .str (.ofString "acme"))])])])

def firstRepositoryId : Uuid := ⟨"aaaaaaaa-0000-4000-8000-000000000011", by decide⟩

/-- GitHub lists one repository of the installation. -/
def sampleSurroundings : WebhookSurroundings where
  jobId := firstJobId
  traceId := firstTraceId
  repositoryId := fun _ => firstRepositoryId
  indexTakes := fun _ => true
  listing := some [{ id := .int 11, fullName := .ofString "acme/web" }]

/-- A second copy of the first event of an installation, a minute later. -/
theorem redelivered_created_unchanged :
    SameRecords
      (exec (planeStep asciiTables sampleRepr id) HostedState.empty
        [.webhook (installationRequest "delivery-1" "created") sampleSurroundings,
          .hosted (.advanceClock 60)])
      (exec (planeStep asciiTables sampleRepr id) HostedState.empty
        [.webhook (installationRequest "delivery-1" "created") sampleSurroundings,
          .hosted (.advanceClock 60),
          .webhook (installationRequest "delivery-1" "created") sampleSurroundings]) := by
  apply redelivery_unchanged_of_settled asciiTables sampleRepr id HostedState.empty []
    [.hosted (.advanceClock 60)] (installationRequest "delivery-1" "created")
    sampleSurroundings sampleSurroundings { body := .result "processed", statusCode := 200 }
  · rfl
  · refine ⟨?_, ?_⟩
    · rintro payload event - ⟨⟩ ⟨⟩
      refine ⟨?_, ?_⟩
      · rintro - i login ⟨⟩ hlogin
        have hacme : login = "acme" := by
          have hread : sqlText (.ofString "acme") = .ok "acme" := by rfl
          rw [hread] at hlogin
          cases hlogin
          rfl
        subst hacme
        refine ⟨rfl, ?_⟩
        rintro repositories ⟨⟩ repository hmem i g name ⟨⟩ hg hname
        rw [List.mem_singleton] at hmem
        subst hmem
        have hread : sqlText (.ofString "acme/web") = .ok "acme/web" := by rfl
        rw [hread] at hname
        cases hg
        cases hname
        exact ⟨⟨firstRepositoryId, 1, 11, "acme/web"⟩, rfl, rfl⟩
      · intro hrevoke
        exact absurd hrevoke (by decide)
    · intro payload added hevent
      exact absurd hevent (by decide)

/--
An installation is created and then deleted; the `created` delivery, which was answered
with 200, is sent again and the installation is no longer revoked.
-/
theorem redelivered_created_reactivates :
    (githubWebhook asciiTables sampleRepr HostedState.empty
        (installationRequest "delivery-1" "created") sampleSurroundings).2 =
      .ok { body := .result "processed", statusCode := 200 } ∧
    ¬ SameRecords
        (exec (planeStep asciiTables sampleRepr id) HostedState.empty
          [.webhook (installationRequest "delivery-1" "created") sampleSurroundings,
            .webhook (installationRequest "delivery-2" "deleted") sampleSurroundings])
        (exec (planeStep asciiTables sampleRepr id) HostedState.empty
          [.webhook (installationRequest "delivery-1" "created") sampleSurroundings,
            .webhook (installationRequest "delivery-2" "deleted") sampleSurroundings,
            .webhook (installationRequest "delivery-1" "created") sampleSurroundings]) := by
  refine ⟨by rfl, ?_⟩
  intro hsame
  have hrevoked := hsame.installations
  revert hrevoked
  decide

end Hosted
end PrReviewer
