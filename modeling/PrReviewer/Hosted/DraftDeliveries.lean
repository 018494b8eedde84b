import PrReviewer.Hosted.ActiveJobs
import PrReviewer.Hosted.Redelivery

/-!
# Deliveries of drafts and of closed pull requests

A delivery whose action is `closed` or `converted_to_draft` leaves its pull request
without an active job.  The draft flag is looked at for `opened` only: a draft that
is synchronized, reopened or marked ready is enqueued, and an action that is ignored
leaves an active job where it was.  So a draft has no active job after its delivery
exactly when it had none before and nothing is stored for it.
-/

namespace PrReviewer
namespace Hosted

open Lib

/-- The pull request has neither a pending nor a running job. -/
def NoActiveJob (s : HostedState) (k : PullRequestKey) : Prop :=
  ∀ row ∈ s.reviewJobs.rows, row.ofPullRequest k = true → row.status.active = false

/-- The delivery is of a closed pull request or of a draft. -/
def GitHubDelivery.wantsNoJob (d : GitHubDelivery) : Bool :=
  d.action ∈ cancelActions ∨ d.draft

/-- `enqueue_review_job` accepts the delivery and stores a job of its pull request. -/
structure StoresJob (s : HostedState) (d : GitHubDelivery) (w : WebhookSurroundings) :
    Prop where
  enqueues : handlePullRequestEvent d = .enqueue
  storable : d.Storable w.indexTakes
  installed : s.installations.find? d.key.installationId ≠ none
  fresh : s.reviewJobs.find? w.jobId = none

/-! ## The two writers -/

/-- Retiring a pull request leaves it without an active job. -/
theorem retirePullRequest_noActiveJob
    (s : HostedState) (k : PullRequestKey) {status : ReviewJobStatus}
    (hinactive : status.active = false) :
    NoActiveJob (retirePullRequest s k status) k := by
  intro row hrow hpr
  simp only [retirePullRequest, Table.rows_updateWhere] at hrow
  obtain ⟨old, _, rfl⟩ := List.mem_map.mp hrow
  split
  · exact hinactive
  · next hguard =>
      rw [if_neg hguard] at hpr
      rw [decide_eq_true_eq, not_and, Bool.not_eq_true] at hguard
      exact hguard hpr

/-- A row of no pull request makes no pull request active. -/
theorem noActiveJob_inserted
    {s : HostedState} {reviewJobs : Table ReviewJobRow.id} {row : ReviewJobRow}
    {k : PullRequestKey}
    (hinsert : s.reviewJobs.insert? row = some reviewJobs)
    (hother : row.ofPullRequest k = false)
    (s' : HostedState)
    (hs' : s'.reviewJobs = reviewJobs) :
    NoActiveJob s' k ↔ NoActiveJob s k := by
  unfold NoActiveJob
  rw [hs', (Table.insert?_eq_some hinsert).2]
  constructor
  · intro h old hold
    exact h old (List.mem_append_left _ hold)
  · intro h old hold hpr
    rcases List.mem_append.mp hold with hold | hnew
    · exact h old hold hpr
    · rw [List.mem_singleton] at hnew
      subst hnew
      rw [hother] at hpr
      cases hpr

theorem enqueuedRow_of_key
    (jobId traceId : Uuid) (deliveryId : String) (pullRequest : PullRequestIdentity)
    (now : Nat) :
    (enqueuedRow jobId traceId deliveryId pullRequest now).ofPullRequest pullRequest.key =
      true := by
  exact ofPullRequest_eq_true.mpr ⟨rfl, rfl, rfl⟩

section Deliveries

variable {tables : UnicodeTables} {repr : PyJson → PyStr}
variable {payload : PyJson} {deliveryId : String} {d : GitHubDelivery}

/-- A stored job is active. -/
theorem not_noActiveJob_of_storesJob
    {s : HostedState} {w : WebhookSurroundings}
    (hread : deliveryFromWebhook tables repr deliveryId "pull_request" payload = .ok d)
    (hnew : s.githubDeliveries.find? deliveryId = none)
    (hstores : StoresJob s d w) :
    ¬ NoActiveJob (pullRequestBranch tables repr s deliveryId "pull_request" payload w).1
        d.key := by
  intro hnone
  obtain ⟨hfits, hindexed⟩ := pullRequestIdentity_fits_iff.mpr hstores.storable
  rcases enqueueReviewJob_of_installed d.identity w.traceId hnew
      hstores.installed hstores.fresh with ⟨_, s', hresult, hrow⟩ | ⟨hunfit, _⟩
  · have htaken : w.indexed (.ok (.enqueued, s')) = .ok (.enqueued, s') := by
      rw [WebhookSurroundings.indexed, if_neg]
      rw [hrow]
      simp only [enqueuedRow, Option.any_some, decide_eq_true_eq, not_and, not_not]
      exact fun _ => hindexed
    rw [pullRequestBranch_of_enqueue hread hstores.enqueues, enqueueResponse_fst, hresult,
      htaken] at hnone
    simp only [Except.map, HostedState.commit] at hnone
    have hinactive :=
      hnone _ (Table.mem_of_find? hrow)
        (enqueuedRow_of_key w.jobId w.traceId deliveryId d.identity s.now)
    cases hinactive
  · exact hunfit hfits

/-- A delivery that stores no job and does not cancel leaves the active jobs as they are. -/
theorem noActiveJob_iff_of_not_storesJob
    {s : HostedState} {w : WebhookSurroundings}
    (hread : deliveryFromWebhook tables repr deliveryId "pull_request" payload = .ok d)
    (hcancel : handlePullRequestEvent d ≠ .cancel)
    (hstores : ¬ StoresJob s d w) :
    NoActiveJob (pullRequestBranch tables repr s deliveryId "pull_request" payload w).1
        d.key ↔
      NoActiveJob s d.key := by
  cases hkind : handlePullRequestEvent d with
  | cancel => exact absurd hkind hcancel
  | ignore =>
      unfold pullRequestBranch
      rw [hread]
      simp only [hkind]
  | enqueue =>
      rw [pullRequestBranch_of_enqueue hread hkind, enqueueResponse_fst]
      rcases enqueueReviewJob_cases s deliveryId "pull_request" (some d.identity) w.jobId
          w.traceId with
        ⟨e, he⟩ | ⟨result, hother, hresult⟩ |
          ⟨deliveries, reviewJobs, _, _, hinsert, hresult⟩ |
          ⟨pullRequest, deliveries, reviewJobs, _, hsame, hinstalled, hinsert, hresult⟩
      · rw [he]
        exact Iff.rfl
      · rw [hresult, WebhookSurroundings.indexed, if_neg (fun h => hother h.1)]
        exact Iff.rfl
      · rcases w.indexed_cases
            (enqueueReviewJob s deliveryId "pull_request" (some d.identity) w.jobId
              w.traceId) with hindexed | ⟨e, hrefused⟩
        · rw [hindexed, hresult]
          exact noActiveJob_inserted hinsert fresh_ofPullRequest _ rfl
        · rw [hrefused]
          exact Iff.rfl
      · -- a row that was stored is one that `StoresJob` describes
        cases hsame
        rcases w.indexed_cases
            (enqueueReviewJob s deliveryId "pull_request" (some d.identity) w.jobId
              w.traceId) with hindexed | ⟨e, hrefused⟩
        · have hfree := (Table.insert?_eq_some hinsert).1
          simp only [retirePullRequest, Table.find?_updateWhere, enqueuedRow_id,
            Option.map_eq_none_iff] at hfree
          refine absurd ⟨hkind, ?_, hinstalled, hfree⟩ hstores
          exact storable_of_answer (enqueueReviewJob_new hresult) hfree rfl hinstalled
            ⟨_, hindexed.trans hresult⟩
        · rw [hrefused]
          exact Iff.rfl

/-- A cancellation that was not recorded before leaves no active job. -/
theorem pullRequestBranch_cancelled
    {s : HostedState} {w : WebhookSurroundings}
    (hread : deliveryFromWebhook tables repr deliveryId "pull_request" payload = .ok d)
    (hid : d.deliveryId = deliveryId)
    (hnew : s.githubDeliveries.find? deliveryId = none)
    (hcancel : handlePullRequestEvent d = .cancel) :
    NoActiveJob (pullRequestBranch tables repr s deliveryId "pull_request" payload w).1
      d.key := by
  unfold pullRequestBranch
  rw [hread]
  simp only [hcancel, cancelReviewJob, hid]
  cases hrecord : recordDelivery s deliveryId d.event with
  | none => exact absurd hnew (recordDelivery_eq_none_iff.mp hrecord)
  | some s₁ => exact retirePullRequest_noActiveJob s₁ d.key rfl

end Deliveries

/-! ## Runs of deliveries -/

section Runs

variable (tables : UnicodeTables) (repr : PyJson → PyStr)

/-- The delivery a step brings. -/
def PlaneAction.delivery? : PlaneAction → Option GitHubDelivery
  | .webhook r _ => r.delivery? tables repr
  | .hosted _ => none

/-- After a delivery of a closed pull request or of a draft no job of it is active. -/
def DraftsHaveNoJob
    (hashRunnerCredential : String → String)
    (s : HostedState)
    (a : PlaneAction) :
    Prop :=
  ∀ d, a.delivery? tables repr = some d → d.wantsNoJob = true →
    NoActiveJob (planeStep tables repr hashRunnerCredential s a) d.key

/--
A draft whose delivery does not cancel has no active job when it is delivered, and
none is stored for it.
-/
def DraftsMeetNoJob (s : HostedState) : PlaneAction → Prop
  | .webhook r w =>
      ∀ d, r.delivery? tables repr = some d → d.draft = true → d.action ∉ cancelActions →
        NoActiveJob s d.key ∧ ¬ StoresJob s d w
  | .hosted _ => True

/-- The run's other transactions bring no delivery of their own. -/
def PlaneAction.quiet : PlaneAction → Prop
  | .webhook _ _ => True
  | .hosted a => a.delivery? = none

variable {tables} {repr} {hashRunnerCredential : String → String}

/-- The id recorded for a delivery is the one it carries. -/
theorem WebhookRequest.deliveryId_of_delivery
    {r : WebhookRequest} {d : GitHubDelivery}
    (h : r.delivery? tables repr = some d) :
    d.deliveryId = r.deliveryId := by
  obtain ⟨_, _, hid, _, _⟩ := githubWebhook_of_delivery h
  exact hid

/-- A step records at most the delivery it brings. -/
theorem planeStep_deliveries
    (s : HostedState) (a : PlaneAction)
    (hquiet : a.quiet) :
    DeliveriesGrow s (planeStep tables repr hashRunnerCredential s a)
      ((a.delivery? tables repr).map GitHubDelivery.deliveryId) := by
  cases a with
  | hosted a =>
      have hgrow := step_deliveries hashRunnerCredential s a
      rw [show a.delivery? = none from hquiet] at hgrow
      exact hgrow
  | webhook r w =>
      simp only [PlaneAction.delivery?, planeStep]
      cases hdelivery : r.delivery? tables repr with
      | none => exact .of_eq (githubWebhook_sameQueue hdelivery s w).githubDeliveries
      | some d =>
          rw [Option.map_some, WebhookRequest.deliveryId_of_delivery hdelivery]
          exact githubWebhook_deliveries s r w

/-- A recorded delivery was brought by the run. -/
theorem exec_deliveries
    {actions : List PlaneAction}
    (hquiet : ∀ a ∈ actions, a.quiet)
    {s : HostedState} {x : String}
    (h : (exec (planeStep tables repr hashRunnerCredential) s actions).githubDeliveries.find? x ≠
      none) :
    s.githubDeliveries.find? x ≠ none ∨
      x ∈ actions.filterMap (fun a =>
        (a.delivery? tables repr).map GitHubDelivery.deliveryId) := by
  induction actions generalizing s with
  | nil =>
      exact .inl h
  | cons a actions ih =>
      have hlater :=
        ih (fun b hb => hquiet b (List.mem_cons_of_mem _ hb))
          (s := planeStep tables repr hashRunnerCredential s a) h
      rcases hlater with hknown | hbrought
      · rcases planeStep_deliveries s a (hquiet a List.mem_cons_self) x with hsame | ⟨hid, _⟩
        · left
          rw [← hsame]
          exact hknown
        · right
          exact List.mem_filterMap.mpr ⟨a, List.mem_cons_self, hid⟩
      · right
        obtain ⟨b, hb, hid⟩ := List.mem_filterMap.mp hbrought
        exact List.mem_filterMap.mpr ⟨b, List.mem_cons_of_mem _ hb, hid⟩

/-- One delivery that was not recorded before. -/
theorem draftsHaveNoJob_step
    (s : HostedState) (a : PlaneAction)
    (hnew : ∀ d, a.delivery? tables repr = some d →
      s.githubDeliveries.find? d.deliveryId = none) :
    DraftsHaveNoJob tables repr hashRunnerCredential s a ↔
      DraftsMeetNoJob tables repr s a := by
  cases a with
  | hosted a =>
      constructor
      · intro _
        trivial
      · rintro _ d ⟨⟩
  | webhook r w =>
      apply forall_congr'
      intro d
      apply imp_congr_right
      intro hdelivery
      obtain ⟨payload, hread, hid, hevent, hbranch⟩ := githubWebhook_of_delivery hdelivery
      have hfresh := hnew d hdelivery
      rw [hid] at hfresh
      simp only [planeStep, hbranch]
      by_cases hcancel : d.action ∈ cancelActions
      · have hkind : handlePullRequestEvent d = .cancel := by
          unfold handlePullRequestEvent
          rw [if_neg (not_not.mpr hevent), if_pos hcancel]
        have hnone :=
          pullRequestBranch_cancelled (w := w) hread hid hfresh hkind
        constructor
        · intro _ _ hother
          exact absurd hcancel hother
        · intro _ _
          exact hnone
      · have hkind : handlePullRequestEvent d ≠ .cancel := by
          unfold handlePullRequestEvent
          rw [if_neg (not_not.mpr hevent), if_neg hcancel]
          split
          · rintro ⟨⟩
          · split
            · rintro ⟨⟩
            · rintro ⟨⟩
        have hwants : d.wantsNoJob = d.draft := by
          unfold GitHubDelivery.wantsNoJob
          simp [hcancel]
        rw [hwants]
        by_cases hstores : StoresJob s d w
        · have hactive := not_noActiveJob_of_storesJob hread hfresh hstores
          constructor
          · intro h hdraft
            exact absurd (h hdraft) hactive
          · intro h hdraft
            exact absurd hstores (h hdraft hcancel).2
        · have hsame := noActiveJob_iff_of_not_storesJob hread hkind hstores
          rw [hsame]
          constructor
          · intro h hdraft _
            exact ⟨h hdraft, hstores⟩
          · intro h hdraft
            exact (h hdraft hcancel).1

variable (tables) (repr) (hashRunnerCredential) in
/--
**Drafts and closed pull requests.**  In a run of the control plane from the empty
store whose deliveries have distinct ids, every delivery of a closed pull request or
of a draft leaves its pull request without an active job, exactly when every delivery
of a draft that does not cancel meets its pull request without one and stores none.
-/
theorem draftsHaveNoJob_iff_draftsMeetNoJob
    (actions : List PlaneAction)
    (hdistinct :
      (actions.filterMap (fun a =>
        (a.delivery? tables repr).map GitHubDelivery.deliveryId)).Nodup)
    (hquiet : ∀ a ∈ actions, a.quiet) :
    Along (planeStep tables repr hashRunnerCredential)
        (DraftsHaveNoJob tables repr hashRunnerCredential) HostedState.empty actions ↔
      Along (planeStep tables repr hashRunnerCredential)
        (DraftsMeetNoJob tables repr) HostedState.empty actions := by
  have hnew :
      ∀ before a rest, actions = before ++ a :: rest →
        ∀ d, a.delivery? tables repr = some d →
          (exec (planeStep tables repr hashRunnerCredential) HostedState.empty
            before).githubDeliveries.find? d.deliveryId = none := by
    rintro before a rest rfl d hdelivery
    by_contra hknown
    rcases exec_deliveries (fun b hb => hquiet b (List.mem_append_left _ hb)) hknown with
      hempty | hbrought
    · exact hempty rfl
    · rw [List.filterMap_append, List.nodup_append] at hdistinct
      refine hdistinct.2.2 d.deliveryId hbrought d.deliveryId ?_ rfl
      apply List.mem_filterMap.mpr
      exact ⟨a, List.mem_cons_self, by rw [hdelivery]; rfl⟩
  rw [along_iff_split, along_iff_split]
  constructor
  · intro h before a rest hsplit
    exact (draftsHaveNoJob_step _ a (hnew before a rest hsplit)).mp (h before a rest hsplit)
  · intro h before a rest hsplit
    exact (draftsHaveNoJob_step _ a (hnew before a rest hsplit)).mpr (h before a rest hsplit)

end Runs

/-! ## A draft on its way -/

/-- A pull_request request for number 7 of the sample repository. -/
def pullRequestRequest (deliveryId action : String) (draft : Bool) : WebhookRequest where
  contentLength := none
  bodyLength := 512
  deliveryId := deliveryId
  eventName := "pull_request"
  signatureValid := true
  json := .ok (samplePayload action (.int 1) draft "head-1")

/-- The installation is created, and a pull request is opened as a draft. -/
def draftOpened : List PlaneAction :=
  [.webhook (installationRequest "delivery-1" "created") sampleSurroundings,
    .webhook (pullRequestRequest "delivery-2" "opened" true) sampleSurroundings]

/-- The draft is then closed. -/
def draftClosed : List PlaneAction :=
  draftOpened ++ [.webhook (pullRequestRequest "delivery-3" "closed" true) sampleSurroundings]

/-- The draft is then pushed to. -/
def draftSynchronized : List PlaneAction :=
  draftOpened ++
    [.webhook (pullRequestRequest "delivery-3" "synchronize" true) sampleSurroundings]

theorem closed_draft_has_no_job :
    Along (planeStep asciiTables sampleRepr id)
      (DraftsHaveNoJob asciiTables sampleRepr id) HostedState.empty draftClosed := by
  refine (draftsHaveNoJob_iff_draftsMeetNoJob asciiTables sampleRepr id draftClosed ?_ ?_).mpr ?_
  · have hids :
        draftClosed.filterMap (fun a =>
          (a.delivery? asciiTables sampleRepr).map GitHubDelivery.deliveryId) =
            ["delivery-2", "delivery-3"] := by
      rfl
    rw [hids]
    decide
  · intro a ha
    fin_cases ha
    · trivial
    · trivial
    · trivial
  · refine ⟨?_, ?_, ?_, trivial⟩
    · rintro d ⟨⟩
    · intro d hd _ _
      refine ⟨?_, ?_⟩
      · rintro row ⟨⟩
      · intro hstores
        have henqueues := hstores.enqueues
        cases hd
        cases henqueues
    · intro d hd _ hother
      cases hd
      exact absurd (by decide) hother

/--
A draft that is pushed to gets a pending job: all its deliveries are well formed, with
ids of their own, and its installation is registered.
-/
theorem synchronized_draft_has_a_job :
    draftSynchronized.filterMap (fun a =>
        (a.delivery? asciiTables sampleRepr).map GitHubDelivery.deliveryId) =
      ["delivery-2", "delivery-3"] ∧
    (∃ row, (exec (planeStep asciiTables sampleRepr id) HostedState.empty
      draftOpened).installations.find? 1 = some row) ∧
    ¬ Along (planeStep asciiTables sampleRepr id)
        (DraftsHaveNoJob asciiTables sampleRepr id) HostedState.empty draftSynchronized := by
  refine ⟨by rfl, ⟨_, rfl⟩, ?_⟩
  rintro ⟨_, _, hpushed, _⟩
  have hnone := hpushed _ rfl rfl
  have hactive := hnone _ (List.mem_singleton.mpr rfl) rfl
  cases hactive

end Hosted
end PrReviewer
