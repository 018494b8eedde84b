import Mathlib.Data.List.Basic
import Mathlib.Tactic
import PrReviewer.Hosted.Webhook
import PrReviewer.Lib.Records
import PrReviewer.Lib.Text

/-!
# Auto-review in the terminal

tui/auto_review.py: `AutoReviewCoordinator.handle`, which asks the lifecycle policy about an
event and remembers the head that is under review for each pull request number.

The number is all that the coordinator knows a pull request by.  The repositories of a run
are kept apart exactly where, in front of every event that is to start a review, the events
with its number leave the head that those of its own pull request leave.
-/

namespace PrReviewer
namespace Tui

open Lib
open Hosted

universe u

structure PullRequestSyncEvent where
  action : PyStr
  pullRequestNumber : Int
  headSha : PyStr
  draft : Bool
  installationId : Int
  repositoryId : Int
  owner : PyStr
  repository : PyStr
deriving DecidableEq

/-- `AutoReviewOutcomeKind`. -/
inductive AutoReviewOutcomeKind where
  | started
  | superseded
  | ignored
  | cancelled
  | notRunning
deriving DecidableEq, Repr

structure AutoReviewOutcome where
  kind : AutoReviewOutcomeKind
  pullRequestNumber : Int
  headSha : PyStr
  previousHeadSha : PyStr
deriving DecidableEq

/-- A call of `on_start_review`. -/
structure StartedReview where
  event : PullRequestSyncEvent
  superseded : Bool
  previousHead : PyStr
deriving DecidableEq

/-- What escapes from `handle`. -/
inductive HandleError (ε : Type u) where
  | delivery (error : PyException)
  | callback (error : ε)

/-- What a call of `handle` returns or raises, and the review it starts. -/
structure Handled (ε : Type u) where
  outcome : Except (HandleError ε) AutoReviewOutcome
  review : Option StartedReview

structure AutoReviewCoordinator where
  running : Bool
  activeHeads : Int → Option PyStr

/-- A coordinator that is started or not, before the first event. -/
def AutoReviewCoordinator.fresh (running : Bool) : AutoReviewCoordinator where
  running := running
  activeHeads _ := none

/-- `_delivery_from_event`. -/
def deliveryFromEvent (event : PullRequestSyncEvent) : Except PyException GitHubDelivery := do
  let identity ← RepositoryIdentity.build event.installationId event.repositoryId event.owner
    event.repository
  let number ← intText event.pullRequestNumber
  let pullRequest ← PullRequestRef.build event.owner event.repository event.pullRequestNumber
  GitHubDelivery.build (.ofString "tui-auto-review-" ++ number) (.ofString "pull_request")
    event.action identity pullRequest event.draft ⟨List.replicate 40 (pointOf 'a')⟩ event.headSha

/-- What the lifecycle policy says about the event. -/
def decision (event : PullRequestSyncEvent) : Except PyException LifecycleKind := do
  let delivery ← deliveryFromEvent event
  return handlePullRequestEvent delivery

section Handle

variable {ε : Type u}
-- `on_start_review`: whether it is given, and what it raises.
variable (onStartReview : Option (PullRequestSyncEvent → Bool → PyStr → Except ε Unit))

/-- `AutoReviewCoordinator.handle`. -/
def handle (coordinator : AutoReviewCoordinator) (event : PullRequestSyncEvent) :
    AutoReviewCoordinator × Handled ε :=
  if coordinator.running = false then
    (coordinator, ⟨.ok ⟨.notRunning, event.pullRequestNumber, ⟨[]⟩, ⟨[]⟩⟩, none⟩)
  else
    match decision event with
    | .error error => (coordinator, ⟨.error (.delivery error), none⟩)
    | .ok .ignore =>
        (coordinator, ⟨.ok ⟨.ignored, event.pullRequestNumber, event.headSha, ⟨[]⟩⟩, none⟩)
    | .ok .cancel =>
        ({ coordinator with
            activeHeads := Function.update coordinator.activeHeads event.pullRequestNumber none },
          ⟨.ok ⟨.cancelled, event.pullRequestNumber, event.headSha, ⟨[]⟩⟩, none⟩)
    | .ok .enqueue =>
        let previousHead := coordinator.activeHeads event.pullRequestNumber
        if previousHead = some event.headSha then
          (coordinator, ⟨.ok ⟨.ignored, event.pullRequestNumber, event.headSha, ⟨[]⟩⟩, none⟩)
        else
          let superseded := previousHead.isSome
          let previous := previousHead.getD ⟨[]⟩
          let outcome : AutoReviewOutcome :=
            ⟨if superseded then .superseded else .started, event.pullRequestNumber, event.headSha,
              previous⟩
          let coordinator := { coordinator with
            activeHeads := Function.update coordinator.activeHeads event.pullRequestNumber
              (some event.headSha) }
          match onStartReview with
          | none => (coordinator, ⟨.ok outcome, none⟩)
          | some start =>
              let review := some ⟨event, superseded, previous⟩
              match start event superseded previous with
              | .error error => (coordinator, ⟨.error (.callback error), review⟩)
              | .ok () => (coordinator, ⟨.ok outcome, review⟩)

/-- The review a call starts: whether another one is superseded, and its head. -/
def Handled.start (handled : Handled ε) : Option (Bool × PyStr) :=
  match handled.review, handled.outcome with
  | some review, _ => some (review.superseded, review.previousHead)
  | none, .ok ⟨.started, _, _, previous⟩ => some (false, previous)
  | none, .ok ⟨.superseded, _, _, previous⟩ => some (true, previous)
  | none, _ => none

/-- The head under review after the event of a pull request. -/
def headAfter (head : Option PyStr) (event : PullRequestSyncEvent) : Option PyStr :=
  match decision event with
  | .ok .enqueue => some event.headSha
  | .ok .cancel => none
  | _ => head

/-- The head that the events leave under review, where they are all of one pull request. -/
def lastHead (events : List PullRequestSyncEvent) : Option PyStr :=
  events.foldl headAfter none

def inRepository (installationId repositoryId : Int) (event : PullRequestSyncEvent) : Bool :=
  event.installationId = installationId ∧ event.repositoryId = repositoryId

def samePullRequest (event other : PullRequestSyncEvent) : Bool :=
  inRepository event.installationId event.repositoryId other ∧
    other.pullRequestNumber = event.pullRequestNumber

/-- The reviews of one pull request, given the records of its events: one at most for a run of
events with one head, and each superseding the review of another head exactly where there is
one. -/
structure FollowsHeads (running : Bool)
    (records : List (PullRequestSyncEvent × Handled ε)) : Prop where
  once : ∀ head segment, segment <:+: records →
    (∀ record ∈ segment, decision record.1 = .ok .enqueue → record.1.headSha = head) →
    (∀ record ∈ segment, decision record.1 ≠ .ok .cancel) →
    (segment.filter (fun record => record.2.start.isSome)).length ≤ 1
  supersedes : ∀ front record back, records = front ++ record :: back →
    ∀ previous, record.2.start = some (true, previous) ↔
      running = true ∧ decision record.1 = .ok .enqueue ∧
        lastHead (front.map Prod.fst) = some previous ∧ previous ≠ record.1.headSha
  starts : ∀ front record back, records = front ++ record :: back →
    ∀ previous, record.2.start = some (false, previous) ↔
      running = true ∧ decision record.1 = .ok .enqueue ∧
        lastHead (front.map Prod.fst) = none ∧ previous = ⟨[]⟩

/-- The events of a repository are handled as if there were no others, and those of a pull
request follow its heads. -/
structure KeepsApart (running : Bool) (events : List PullRequestSyncEvent) : Prop where
  apart : ∀ installationId repositoryId,
    (records (handle onStartReview) (.fresh running) events).filter
        (fun record => inRepository installationId repositoryId record.1) =
      records (handle onStartReview) (.fresh running)
        (events.filter (inRepository installationId repositoryId))
  follows : ∀ event, FollowsHeads running
    ((records (handle onStartReview) (.fresh running) events).filter
      (fun record => samePullRequest event record.1))

/-! ## One event -/

section Steps

variable {onStartReview} {coordinator coordinator' : AutoReviewCoordinator}

@[simp] theorem running_handle
    (onStartReview : Option (PullRequestSyncEvent → Bool → PyStr → Except ε Unit))
    (coordinator : AutoReviewCoordinator) (event : PullRequestSyncEvent) :
    (handle onStartReview coordinator event).1.running = coordinator.running := by
  rw [handle]
  split
  · rfl
  · split
    · rfl
    · rfl
    · rfl
    · dsimp only
      split
      · rfl
      · split
        · rfl
        · split
          · rfl
          · rfl

theorem handle_stopped
    (hstopped : coordinator.running = false) (event : PullRequestSyncEvent) :
    (handle onStartReview coordinator event).2 =
      ⟨.ok ⟨.notRunning, event.pullRequestNumber, ⟨[]⟩, ⟨[]⟩⟩, none⟩ := by
  rw [handle, if_pos hstopped]

/-- The answer to an event that is to start a review, by the head under review. -/
def enqueued (onStartReview : Option (PullRequestSyncEvent → Bool → PyStr → Except ε Unit))
    (previousHead : Option PyStr) (event : PullRequestSyncEvent) : Handled ε :=
  if previousHead = some event.headSha then
    ⟨.ok ⟨.ignored, event.pullRequestNumber, event.headSha, ⟨[]⟩⟩, none⟩
  else
    let previous := previousHead.getD ⟨[]⟩
    let outcome : AutoReviewOutcome :=
      ⟨if previousHead.isSome then .superseded else .started, event.pullRequestNumber,
        event.headSha, previous⟩
    match onStartReview with
    | none => ⟨.ok outcome, none⟩
    | some start =>
        ⟨(start event previousHead.isSome previous).mapError HandleError.callback |>.map
            (fun _ => outcome), some ⟨event, previousHead.isSome, previous⟩⟩

theorem handle_enqueue
    (hrunning : coordinator.running = true) {event : PullRequestSyncEvent}
    (henqueue : decision event = .ok .enqueue) :
    (handle onStartReview coordinator event).2 =
      enqueued onStartReview (coordinator.activeHeads event.pullRequestNumber) event := by
  rw [handle, if_neg (by rw [hrunning]; exact Bool.noConfusion), henqueue, enqueued]
  dsimp only
  split
  · rfl
  · cases onStartReview with
    | none => rfl
    | some start =>
        dsimp only
        cases start event (coordinator.activeHeads event.pullRequestNumber).isSome
            ((coordinator.activeHeads event.pullRequestNumber).getD ⟨[]⟩) with
        | ok _ => rfl
        | error error => rfl

/-- Other events are answered alike whatever is under review. -/
theorem handle_of_not_enqueue
    (hrunning : coordinator.running = coordinator'.running) {event : PullRequestSyncEvent}
    (hother : decision event ≠ .ok .enqueue) :
    (handle onStartReview coordinator event).2 = (handle onStartReview coordinator' event).2 := by
  rw [handle, handle, hrunning]
  split
  · rfl
  · cases hdecision : decision event with
    | error error => rfl
    | ok kind =>
        cases kind with
        | ignore => rfl
        | cancel => rfl
        | enqueue => exact absurd hdecision hother

/-- The event of a pull request changes its head, and no other. -/
theorem activeHeads_handle
    (hrunning : coordinator.running = true) (event : PullRequestSyncEvent) (number : Int) :
    (handle onStartReview coordinator event).1.activeHeads number =
      if event.pullRequestNumber = number then
        headAfter (coordinator.activeHeads number) event
      else
        coordinator.activeHeads number := by
  rw [handle, if_neg (by rw [hrunning]; exact Bool.noConfusion), headAfter]
  cases hdecision : decision event with
  | error error => simp
  | ok kind =>
      cases kind with
      | ignore => simp
      | cancel =>
          dsimp only
          rw [Function.update_apply]
          simp only [eq_comm]
      | enqueue =>
          dsimp only
          split
          · next hsame =>
              split
              · next hnumber => rw [← hnumber, hsame]
              · rfl
          · have hupdate : Function.update coordinator.activeHeads event.pullRequestNumber
                (some event.headSha) number = if event.pullRequestNumber = number then
                  some event.headSha else coordinator.activeHeads number := by
              rw [Function.update_apply]
              simp only [eq_comm]
            cases onStartReview with
            | none => exact hupdate
            | some start =>
                dsimp only
                split
                · exact hupdate
                · exact hupdate

theorem start_enqueued
    (head : Option PyStr) (event : PullRequestSyncEvent) :
    (enqueued onStartReview head event).start =
      if head = some event.headSha then none else some (head.isSome, head.getD ⟨[]⟩) := by
  rw [enqueued]
  split
  · rfl
  · cases onStartReview with
    | some start => rfl
    | none =>
        cases head with
        | none => rfl
        | some previous => rfl

/-- The answer to an event tells which head is under review. -/
theorem enqueued_injective
    (event : PullRequestSyncEvent) :
    Function.Injective (fun head => enqueued onStartReview head event) := by
  intro head head' h
  have hstart : (enqueued onStartReview head event).start =
      (enqueued onStartReview head' event).start := congrArg Handled.start h
  rw [start_enqueued, start_enqueued] at hstart
  by_cases hhead : head = some event.headSha
  · by_cases hhead' : head' = some event.headSha
    · rw [hhead, hhead']
    · rw [if_pos hhead, if_neg hhead'] at hstart
      cases hstart
  · by_cases hhead' : head' = some event.headSha
    · rw [if_neg hhead, if_pos hhead'] at hstart
      cases hstart
    · rw [if_neg hhead, if_neg hhead'] at hstart
      obtain ⟨hsome, hprevious⟩ := Prod.mk.inj (Option.some.inj hstart)
      cases head with
      | none =>
          cases head' with
          | none => rfl
          | some previous' => cases hsome
      | some previous =>
          cases head' with
          | none => cases hsome
          | some previous' => exact congrArg some hprevious

/-- When two coordinators answer an event alike. -/
theorem handle_eq_iff
    (hrunning : coordinator.running = true) (hrunning' : coordinator'.running = true)
    (event : PullRequestSyncEvent) :
    (handle onStartReview coordinator event).2 = (handle onStartReview coordinator' event).2 ↔
      (decision event = .ok .enqueue →
        coordinator.activeHeads event.pullRequestNumber =
          coordinator'.activeHeads event.pullRequestNumber) := by
  by_cases henqueue : decision event = .ok .enqueue
  · rw [handle_enqueue hrunning henqueue, handle_enqueue hrunning' henqueue,
      forall_prop_of_true henqueue]
    exact (enqueued_injective event).eq_iff
  · exact iff_of_true (handle_of_not_enqueue (hrunning.trans hrunning'.symm) henqueue)
      (fun h => absurd h henqueue)

/-- The review an event starts. -/
theorem start_handle
    (onStartReview : Option (PullRequestSyncEvent → Bool → PyStr → Except ε Unit))
    (hrunning : coordinator.running = true) (event : PullRequestSyncEvent) :
    (handle onStartReview coordinator event).2.start =
      if decision event = .ok .enqueue ∧
          coordinator.activeHeads event.pullRequestNumber ≠ some event.headSha then
        some ((coordinator.activeHeads event.pullRequestNumber).isSome,
          (coordinator.activeHeads event.pullRequestNumber).getD ⟨[]⟩)
      else
        none := by
  by_cases henqueue : decision event = .ok .enqueue
  · rw [handle_enqueue hrunning henqueue, start_enqueued]
    simp only [henqueue, true_and, ne_eq, ite_not]
  · rw [if_neg (fun h => henqueue h.1), handle, if_neg (by rw [hrunning]; exact Bool.noConfusion)]
    cases hdecision : decision event with
    | error error => rfl
    | ok kind =>
        cases kind with
        | ignore => rfl
        | cancel => rfl
        | enqueue => exact absurd hdecision henqueue

/-! ## Runs of events -/

@[simp] theorem running_stateAfter
    (coordinator : AutoReviewCoordinator) (events : List PullRequestSyncEvent) :
    (stateAfter (handle onStartReview) coordinator events).running = coordinator.running := by
  induction events generalizing coordinator with
  | nil => rfl
  | cons event events ih => exact (ih _).trans (running_handle onStartReview coordinator event)

/-- The head of a number is the one its events leave. -/
theorem activeHeads_stateAfter
    (hrunning : coordinator.running = true) (events : List PullRequestSyncEvent) (number : Int) :
    (stateAfter (handle onStartReview) coordinator events).activeHeads number =
      (events.filter (fun event => event.pullRequestNumber = number)).foldl headAfter
        (coordinator.activeHeads number) := by
  induction events generalizing coordinator with
  | nil => rfl
  | cons event events ih =>
      have hnext : (handle onStartReview coordinator event).1.running = true :=
        (running_handle onStartReview coordinator event).trans hrunning
      refine (ih hnext).trans ?_
      rw [activeHeads_handle hrunning]
      by_cases hnumber : event.pullRequestNumber = number
      · rw [if_pos hnumber, List.filter_cons_of_pos (by simpa using hnumber), List.foldl_cons]
      · rw [if_neg hnumber, List.filter_cons_of_neg (by simpa using hnumber)]

theorem activeHeads_fresh
    (onStartReview : Option (PullRequestSyncEvent → Bool → PyStr → Except ε Unit))
    (events : List PullRequestSyncEvent) (number : Int) :
    (stateAfter (handle onStartReview) (.fresh true) events).activeHeads number =
      lastHead (events.filter (fun event => event.pullRequestNumber = number)) :=
  activeHeads_stateAfter rfl events number

/-- A part of the events that holds with an event all events of its pull request is answered as
if it were alone exactly where their heads are those of the number. -/
theorem filter_records_handle_iff
    (keep : PullRequestSyncEvent → Bool) (events : List PullRequestSyncEvent)
    (hkeep : ∀ event, keep event = true → ∀ other,
      (keep other && decide (other.pullRequestNumber = event.pullRequestNumber)) =
        samePullRequest event other) :
    (records (handle onStartReview) (.fresh true) events).filter (fun record => keep record.1) =
        records (handle onStartReview) (.fresh true) (events.filter keep) ↔
      ∀ front event back, events = front ++ event :: back → keep event = true →
        decision event = .ok .enqueue →
          lastHead (front.filter (fun other =>
              other.pullRequestNumber = event.pullRequestNumber)) =
            lastHead (front.filter (samePullRequest event)) := by
  rw [filter_records_iff]
  -- what stands in front of an event leaves a head for its number, and the part of it another
  have heach : ∀ front event, keep event = true →
      ((handle onStartReview (stateAfter (handle onStartReview) (.fresh true) front) event).2 =
          (handle onStartReview
            (stateAfter (handle onStartReview) (.fresh true) (front.filter keep)) event).2 ↔
        (decision event = .ok .enqueue →
          lastHead (front.filter (fun other =>
              other.pullRequestNumber = event.pullRequestNumber)) =
            lastHead (front.filter (samePullRequest event)))) := by
    intro front event hevent
    rw [handle_eq_iff (running_stateAfter _ _) (running_stateAfter _ _), activeHeads_fresh,
      activeHeads_fresh, List.filter_filter]
    have hsame : ∀ other, (decide (other.pullRequestNumber = event.pullRequestNumber) &&
        keep other) = samePullRequest event other := by
      intro other
      rw [Bool.and_comm]
      exact hkeep event hevent other
    simp only [hsame]
  constructor
  · intro h front event back hsplit hevent
    exact (heach front event hevent).mp (h front event back hsplit hevent)
  · intro h front event back hsplit hevent
    exact (heach front event hevent).mpr (h front event back hsplit hevent)

/-! ## One pull request -/

theorem lastHead_of_number
    {events : List PullRequestSyncEvent} {number : Int}
    (hnumber : ∀ event ∈ events, event.pullRequestNumber = number) :
    events.filter (fun event => event.pullRequestNumber = number) = events :=
  List.filter_eq_self.mpr (fun event hevent => decide_eq_true (hnumber event hevent))

/-- Events with one head start one review at most, and none while that head is under review. -/
theorem starts_le
    (onStartReview : Option (PullRequestSyncEvent → Bool → PyStr → Except ε Unit))
    (hrunning : coordinator.running = true) {number : Int} {head : PyStr}
    (events : List PullRequestSyncEvent)
    (hnumber : ∀ event ∈ events, event.pullRequestNumber = number)
    (hhead : ∀ event ∈ events, decision event = .ok .enqueue → event.headSha = head)
    (hcancel : ∀ event ∈ events, decision event ≠ .ok .cancel) :
    ((records (handle onStartReview) coordinator events).filter
        (fun record => record.2.start.isSome)).length ≤
      if coordinator.activeHeads number = some head then 0 else 1 := by
  induction events generalizing coordinator with
  | nil => exact Nat.zero_le _
  | cons event events ih =>
      rw [List.forall_mem_cons] at hnumber hhead hcancel
      obtain ⟨rfl, hnumber⟩ := hnumber
      have hrest := ih ((running_handle onStartReview coordinator event).trans
        hrunning) hnumber hhead.2 hcancel.2
      rw [activeHeads_handle hrunning, if_pos rfl] at hrest
      have hstart := start_handle onStartReview hrunning event
      rw [records, List.filter_cons]
      dsimp only
      rw [hstart]
      by_cases henqueue : decision event = .ok .enqueue
      · have hafter : headAfter (coordinator.activeHeads event.pullRequestNumber) event =
            some head := by
          rw [headAfter, henqueue]
          exact congrArg some (hhead.1 henqueue)
        rw [hafter, if_pos rfl] at hrest
        rw [hhead.1 henqueue]
        by_cases hactive : coordinator.activeHeads event.pullRequestNumber = some head
        · have hno : ¬ (decision event = .ok .enqueue ∧
              coordinator.activeHeads event.pullRequestNumber ≠ some head) :=
            fun h => h.2 hactive
          rw [if_neg hno, if_pos hactive]
          exact hrest
        · have hyes : decision event = .ok .enqueue ∧
              coordinator.activeHeads event.pullRequestNumber ≠ some head :=
            ⟨henqueue, hactive⟩
          rw [if_pos hyes, if_neg hactive]
          exact Nat.succ_le_succ hrest
      · have hafter : headAfter (coordinator.activeHeads event.pullRequestNumber) event =
            coordinator.activeHeads event.pullRequestNumber := by
          rw [headAfter]
          cases hdecision : decision event with
          | error error => rfl
          | ok kind =>
              cases kind with
              | ignore => rfl
              | cancel => exact absurd hdecision hcancel.1
              | enqueue => exact absurd hdecision henqueue
        have hno : ¬ (decision event = .ok .enqueue ∧
            coordinator.activeHeads event.pullRequestNumber ≠ some event.headSha) :=
          fun h => henqueue h.1
        rw [hafter] at hrest
        rw [if_neg hno]
        exact hrest

/-- The review a record of one pull request starts. -/
theorem start_record
    {events : List PullRequestSyncEvent} {number : Int}
    (hnumber : ∀ event ∈ events, event.pullRequestNumber = number)
    {front back : List (PullRequestSyncEvent × Handled ε)}
    {record : PullRequestSyncEvent × Handled ε}
    (hsplit : records (handle onStartReview) (.fresh true) events = front ++ record :: back) :
    record.2.start =
      if decision record.1 = .ok .enqueue ∧
          lastHead (front.map Prod.fst) ≠ some record.1.headSha then
        some ((lastHead (front.map Prod.fst)).isSome, (lastHead (front.map Prod.fst)).getD ⟨[]⟩)
      else
        none := by
  obtain ⟨rest, hevents, hanswer⟩ := records_split hsplit
  have hfront : ∀ event ∈ front.map Prod.fst,
      event.pullRequestNumber = record.1.pullRequestNumber := by
    intro event hevent
    rw [hnumber event (hevents ▸ List.mem_append_left _ hevent), hnumber record.1
      (hevents ▸ List.mem_append_right _ (List.mem_cons_self ..))]
  rw [hanswer, start_handle onStartReview (running_stateAfter _ _), activeHeads_fresh,
    lastHead_of_number hfront]

/-- A running coordinator follows the heads of the events of one number. -/
theorem followsHeads_running
    {events : List PullRequestSyncEvent} {number : Int}
    (hnumber : ∀ event ∈ events, event.pullRequestNumber = number) :
    FollowsHeads true (records (handle onStartReview) (.fresh true) events) where
  once := by
    intro head segment hsegment hhead hcancel
    have hmem : ∀ event ∈ segment.map Prod.fst, event.pullRequestNumber = number := by
      intro event hevent
      have hevents := List.map_subset Prod.fst hsegment.sublist.subset hevent
      rw [map_fst_records] at hevents
      exact hnumber event hevents
    obtain ⟨front, hfront⟩ := records_infix hsegment
    have hrunning : (stateAfter (handle onStartReview) (.fresh true) front).running = true :=
      running_stateAfter _ front
    have hstarts := starts_le onStartReview hrunning
      (segment.map Prod.fst) hmem (List.forall_mem_map.mpr hhead) (List.forall_mem_map.mpr hcancel)
    rw [← hfront] at hstarts
    refine hstarts.trans ?_
    split
    · exact Nat.zero_le 1
    · exact le_refl 1
  supersedes := by
    intro front record back hsplit previous
    rw [start_record hnumber hsplit]
    cases hlast : lastHead (front.map Prod.fst) with
    | none => simp
    | some active =>
        by_cases hstarts : decision record.1 = .ok .enqueue ∧
            some active ≠ some record.1.headSha
        · rw [if_pos hstarts]
          constructor
          · rintro ⟨⟩
            exact ⟨rfl, hstarts.1, rfl, fun heq => hstarts.2 (congrArg some heq)⟩
          · rintro ⟨_, _, ⟨⟩, _⟩
            rfl
        · rw [if_neg hstarts]
          refine iff_of_false nofun ?_
          rintro ⟨_, henqueue, ⟨⟩, hne⟩
          exact hstarts ⟨henqueue, fun heq => hne (Option.some.inj heq)⟩
  starts := by
    intro front record back hsplit previous
    rw [start_record hnumber hsplit]
    cases hlast : lastHead (front.map Prod.fst) with
    | none => simp [eq_comm]
    | some active => simp

/-- A coordinator that is not running starts nothing. -/
theorem followsHeads_stopped
    (events : List PullRequestSyncEvent) :
    FollowsHeads false (records (handle onStartReview) (.fresh false) events) := by
  have hnone : ∀ record ∈ records (handle onStartReview) (.fresh false) events,
      record.2.start = none := by
    intro record hrecord
    obtain ⟨front, back, hsplit⟩ := List.append_of_mem hrecord
    obtain ⟨rest, _, hanswer⟩ := records_split hsplit
    rw [hanswer, handle_stopped (running_stateAfter _ _)]
    rfl
  refine ⟨?_, ?_, ?_⟩
  · intro head segment hsegment hhead hcancel
    have hempty : segment.filter (fun record => record.2.start.isSome) = [] := by
      refine List.filter_eq_nil_iff.mpr (fun record hrecord => ?_)
      rw [hnone record (hsegment.sublist.subset hrecord)]
      exact Bool.false_ne_true
    rw [hempty]
    exact Nat.zero_le 1
  · intro front record back hsplit previous
    rw [hnone record (hsplit ▸ List.mem_append_right _ (List.mem_cons_self ..))]
    simp
  · intro front record back hsplit previous
    rw [hnone record (hsplit ▸ List.mem_append_right _ (List.mem_cons_self ..))]
    simp

/-! ## Repositories -/

theorem samePullRequest_trans
    {event other : PullRequestSyncEvent} (h : samePullRequest event other = true) :
    samePullRequest other = samePullRequest event := by
  simp only [samePullRequest, inRepository, Bool.decide_and, decide_eq_true_eq,
    Bool.and_eq_true] at h
  obtain ⟨⟨hinstallation, hrepository⟩, hnumber⟩ := h
  funext third
  rw [samePullRequest, samePullRequest, hinstallation, hrepository, hnumber]

/-- In front of every event that is to start a review, the events with its number leave the head
that those of its own pull request leave. -/
def NumbersApart (events : List PullRequestSyncEvent) : Prop :=
  ∀ front event back, events = front ++ event :: back → decision event = .ok .enqueue →
    lastHead (front.filter (fun other => other.pullRequestNumber = event.pullRequestNumber)) =
      lastHead (front.filter (samePullRequest event))

/-- The events of a pull request are answered as if they were alone where the numbers keep the
pull requests apart. -/
theorem filter_records_pullRequest
    {events : List PullRequestSyncEvent} (hnumbers : NumbersApart events)
    (event : PullRequestSyncEvent) :
    (records (handle onStartReview) (.fresh true) events).filter
        (fun record => samePullRequest event record.1) =
      records (handle onStartReview) (.fresh true) (events.filter (samePullRequest event)) := by
  refine (filter_records_handle_iff _ events (fun other hother third => ?_)).mpr
    (fun front other back hsplit _ henqueue => hnumbers front other back hsplit henqueue)
  have hnumber : other.pullRequestNumber = event.pullRequestNumber := by
    simp only [samePullRequest, Bool.decide_and, Bool.and_eq_true, decide_eq_true_eq] at hother
    exact hother.2
  rw [samePullRequest_trans hother, samePullRequest, hnumber]
  by_cases hthird : third.pullRequestNumber = event.pullRequestNumber
  · simp [hthird]
  · simp [hthird]

theorem filter_records_repository_iff
    (installationId repositoryId : Int) (events : List PullRequestSyncEvent) :
    (records (handle onStartReview) (.fresh true) events).filter
          (fun record => inRepository installationId repositoryId record.1) =
        records (handle onStartReview) (.fresh true)
          (events.filter (inRepository installationId repositoryId)) ↔
      ∀ front event back, events = front ++ event :: back →
        inRepository installationId repositoryId event = true → decision event = .ok .enqueue →
          lastHead (front.filter (fun other =>
              other.pullRequestNumber = event.pullRequestNumber)) =
            lastHead (front.filter (samePullRequest event)) := by
  refine filter_records_handle_iff _ events (fun event hevent other => ?_)
  simp only [inRepository, Bool.decide_and, Bool.and_eq_true, decide_eq_true_eq] at hevent
  obtain ⟨rfl, rfl⟩ := hevent
  simp [samePullRequest]

/-- A coordinator that is not running answers every event alike. -/
theorem filter_records_stopped
    (keep : PullRequestSyncEvent → Bool) (events : List PullRequestSyncEvent) :
    (records (handle onStartReview) (.fresh false) events).filter (fun record => keep record.1) =
      records (handle onStartReview) (.fresh false) (events.filter keep) := by
  refine (filter_records_iff _ _ _).mpr (fun front event back _ _ => ?_)
  rw [handle_stopped (running_stateAfter _ _), handle_stopped (running_stateAfter _ _)]

end Steps

/-- The repositories of a run are kept apart exactly where the coordinator is not running or the
numbers keep the pull requests apart. -/
theorem repositories_kept_apart_iff
    (running : Bool) (events : List PullRequestSyncEvent) :
    KeepsApart onStartReview running events ↔ (running = true → NumbersApart events) := by
  cases running with
  | false =>
      refine iff_of_true ⟨fun _ _ => filter_records_stopped _ events, fun event => ?_⟩ nofun
      rw [filter_records_stopped]
      exact followsHeads_stopped _
  | true =>
      rw [forall_prop_of_true rfl]
      constructor
      · intro h front event back hsplit henqueue
        have hrepository := (filter_records_repository_iff _ _ events).mp
          (h.apart event.installationId event.repositoryId)
        exact hrepository front event back hsplit (by simp [inRepository]) henqueue
      · intro hnumbers
        refine ⟨fun installationId repositoryId => ?_, fun event => ?_⟩
        · exact (filter_records_repository_iff _ _ events).mpr
            (fun front event back hsplit _ henqueue =>
              hnumbers front event back hsplit henqueue)
        · have hnumber : ∀ other ∈ events.filter (samePullRequest event),
              other.pullRequestNumber = event.pullRequestNumber := by
            intro other hother
            have hsame := (List.mem_filter.mp hother).2
            simp only [samePullRequest, Bool.decide_and, Bool.and_eq_true,
              decide_eq_true_eq] at hsame
            exact hsame.2
          rw [filter_records_pullRequest hnumbers event]
          exact followsHeads_running hnumber

end Handle

/-- The first pull request of a repository of `acme`. -/
def openedIn (repositoryId : Int) (headSha : String) : PullRequestSyncEvent where
  action := .ofString "opened"
  pullRequestNumber := 1
  headSha := .ofString headSha
  draft := false
  installationId := 7201
  repositoryId := repositoryId
  owner := .ofString "acme"
  repository := .ofString "widgets"

/-- The review of a pull request supersedes that of another repository with its number. -/
theorem other_repository_superseded :
    ¬ KeepsApart (ε := Empty) (some fun _ _ _ => .ok ()) true
      [openedIn 82001 "a1", openedIn 82002 "b2"] := by
  intro h
  have hstarts := congrArg (List.map (fun record => record.2.start)) (h.apart 7201 82002)
  revert hstarts
  decide +kernel

end Tui
end PrReviewer
