import PrReviewer.Hosted.ReviewJobs
import PrReviewer.Lib.Python

/-!
# The two readers of a pull_request payload

github/delivery.py builds the `GitHubDelivery` the lifecycle policy decides on, and
`_pull_request_identity` of jobs/enqueue_review_job.py reads the same payload again
for the row that is enqueued.  Both coerce with `int()` and `str()`; they catch
different exceptions.

The field constraints of contracts/github.py are fields of the structures.
-/

namespace PrReviewer
namespace Hosted

open Lib

structure RepositoryIdentity where
  installationId : Int
  repositoryId : Int
  owner : String
  name : String
  installationId_pos : 0 < installationId
  repositoryId_pos : 0 < repositoryId
  owner_ne : owner ≠ ""
  name_ne : name ≠ ""

structure PullRequestRef where
  owner : String
  repository : String
  number : Int
  owner_ne : owner ≠ ""
  repository_ne : repository ≠ ""
  number_pos : 0 < number

structure GitHubDelivery where
  deliveryId : String
  event : String
  action : String
  repositoryIdentity : RepositoryIdentity
  pullRequest : PullRequestRef
  draft : Bool
  baseSha : String
  headSha : String
  repository : String
  deliveryId_ne : deliveryId ≠ ""
  event_ne : event ≠ ""
  action_ne : action ≠ ""
  baseSha_ne : baseSha ≠ ""
  headSha_ne : headSha ≠ ""

/-- A `str` field with `min_length=1`: a lone surrogate or an empty text is refused. -/
def nonEmptyField (s : PyStr) : Except PyException { text : String // text ≠ "" } :=
  match s.text? with
  | none => .error .validationError
  | some text => if h : text ≠ "" then .ok ⟨text, h⟩ else .error .validationError

/-- An `int` field with `gt=0`. -/
def positiveField (n : Int) : Except PyException { n : Int // 0 < n } :=
  if h : 0 < n then .ok ⟨n, h⟩ else .error .validationError

/-- `RepositoryIdentity(…)`. -/
def RepositoryIdentity.build
    (installationId repositoryId : Int)
    (owner name : PyStr) :
    Except PyException RepositoryIdentity := do
  let installationId ← positiveField installationId
  let repositoryId ← positiveField repositoryId
  let owner ← nonEmptyField owner
  let name ← nonEmptyField name
  return {
    installationId := installationId.val
    repositoryId := repositoryId.val
    owner := owner.val
    name := name.val
    installationId_pos := installationId.property
    repositoryId_pos := repositoryId.property
    owner_ne := owner.property
    name_ne := name.property }

/-- `PullRequestRef(…)`. -/
def PullRequestRef.build
    (owner repository : PyStr)
    (number : Int) :
    Except PyException PullRequestRef := do
  let owner ← nonEmptyField owner
  let repository ← nonEmptyField repository
  let number ← positiveField number
  return {
    owner := owner.val
    repository := repository.val
    number := number.val
    owner_ne := owner.property
    repository_ne := repository.property
    number_pos := number.property }

/-- `GitHubDelivery(…)`; `default_repository` fills in the full name. -/
def GitHubDelivery.build
    (deliveryId event action : PyStr)
    (repositoryIdentity : RepositoryIdentity)
    (pullRequest : PullRequestRef)
    (draft : Bool)
    (baseSha headSha : PyStr) :
    Except PyException GitHubDelivery := do
  let deliveryId ← nonEmptyField deliveryId
  let event ← nonEmptyField event
  let action ← nonEmptyField action
  let baseSha ← nonEmptyField baseSha
  let headSha ← nonEmptyField headSha
  return {
    deliveryId := deliveryId.val
    event := event.val
    action := action.val
    repositoryIdentity := repositoryIdentity
    pullRequest := pullRequest
    draft := draft
    baseSha := baseSha.val
    headSha := headSha.val
    repository := repositoryIdentity.owner ++ "/" ++ repositoryIdentity.name
    deliveryId_ne := deliveryId.property
    event_ne := event.property
    action_ne := action.property
    baseSha_ne := baseSha.property
    headSha_ne := headSha.property }

/-- `isinstance(value, dict)`, else ValueError. -/
def requireDict : Option PyJson → Except PyException (List (PyStr × PyJson))
  | some (.dict items) => .ok items
  | _ => .error .valueError

/-- `isinstance(value, str) and value`, else ValueError. -/
def requireText : Option PyJson → Except PyException PyStr
  | some (.str s) => if s.points ≠ [] then .ok s else .error .valueError
  | _ => .error .valueError

/-- `pull_request.get("draft", False)`, which must be a bool. -/
def requireDraft : Option PyJson → Except PyException Bool
  | none => .ok false
  | some (.bool b) => .ok b
  | some _ => .error .valueError

/-- The parts of a payload the checks of `delivery_from_webhook` let through. -/
structure PullRequestPayload where
  action : PyStr
  installation : List (PyStr × PyJson)
  repository : List (PyStr × PyJson)
  pullRequest : List (PyStr × PyJson)
  owner : PyStr
  name : PyStr
  base : List (PyStr × PyJson)
  head : List (PyStr × PyJson)
  draft : Bool

/-- The checks of `delivery_from_webhook` before it coerces anything. -/
def pullRequestPayload : PyJson → Except PyException PullRequestPayload
  | .dict payload => do
      let action ← requireText (getItem? payload "action")
      let installation ← requireDict (getItem? payload "installation")
      let repository ← requireDict (getItem? payload "repository")
      let pullRequest ← requireDict (getItem? payload "pull_request")
      let ownerObj ← requireDict (getItem? repository "owner")
      let owner ← requireText (getItem? ownerObj "login")
      let name ← requireText (getItem? repository "name")
      let base ← requireDict (getItem? pullRequest "base")
      let head ← requireDict (getItem? pullRequest "head")
      let draft ← requireDraft (getItem? pullRequest "draft")
      return {
        action := action
        installation := installation
        repository := repository
        pullRequest := pullRequest
        owner := owner
        name := name
        base := base
        head := head
        draft := draft }
  | _ => .error .typeError

section Readers

variable (tables : UnicodeTables) (repr : PyJson → PyStr)

/-- `int(d[key])`. -/
def intAt (items : List (PyStr × PyJson)) (key : String) : Except PyException Int :=
  getItem items key >>= intOf tables

/-- `str(d[key])`. -/
def strAt (items : List (PyStr × PyJson)) (key : String) : Except PyException PyStr :=
  getItem items key >>= strOf repr

/-- `delivery_from_webhook`. -/
def deliveryFromWebhook
    (deliveryId eventName : String)
    (payload : PyJson) :
    Except PyException GitHubDelivery := do
  let parts ← pullRequestPayload payload
  let installationId ← intAt tables parts.installation "id"
  let repositoryId ← intAt tables parts.repository "id"
  let identity ←
    RepositoryIdentity.build installationId repositoryId parts.owner parts.name
  let number ← intAt tables parts.pullRequest "number"
  let pullRequest ← PullRequestRef.build parts.owner parts.name number
  let baseSha ← strAt repr parts.base "sha"
  let headSha ← strAt repr parts.head "sha"
  GitHubDelivery.build (.ofString deliveryId) (.ofString eventName) parts.action identity
    pullRequest parts.draft baseSha headSha

/-- The tuple `_pull_request_identity` returns. -/
structure PayloadIdentity where
  installationId : Int
  githubRepositoryId : Int
  pullRequestNumber : Int
  baseSha : PyStr
  headSha : PyStr
deriving DecidableEq

/-- The coercions of `_pull_request_identity`. -/
def payloadIdentity
    (installation repository pullRequest base head : List (PyStr × PyJson)) :
    Except PyException PayloadIdentity := do
  let installationId ← intAt tables installation "id"
  let githubRepositoryId ← intAt tables repository "id"
  let pullRequestNumber ← intAt tables pullRequest "number"
  let baseSha ← strAt repr base "sha"
  let headSha ← strAt repr head "sha"
  return {
    installationId := installationId
    githubRepositoryId := githubRepositoryId
    pullRequestNumber := pullRequestNumber
    baseSha := baseSha
    headSha := headSha }

/-- `except (KeyError, TypeError, ValueError)`; pydantic's error is a ValueError. -/
def identityCatches : PyException → Bool
  | .keyError => true
  | .typeError => true
  | .valueError => true
  | .jsonDecodeError => true
  | .validationError => true
  | _ => false

/-- `_pull_request_identity`. -/
def pullRequestIdentity (payload : PyJson) : Except PyException (Option PayloadIdentity) :=
  match payload with
  | .dict items =>
      match getItem? items "installation", getItem? items "repository",
          getItem? items "pull_request" with
      | some (.dict installation), some (.dict repository), some (.dict pullRequest) =>
          match getItem? pullRequest "base", getItem? pullRequest "head" with
          | some (.dict base), some (.dict head) =>
              match payloadIdentity tables repr installation repository pullRequest base head with
              | .error e => if identityCatches e then .ok none else .error e
              | .ok identity =>
                  if identity.pullRequestNumber ≤ 0 ∨ identity.baseSha.points = [] ∨
                      identity.headSha.points = [] then
                    .ok none
                  else
                    .ok (some identity)
          | _, _ => .ok none
      | _, _, _ => .ok none
  | _ => .ok none

/-- The value under the key is an infinite float. -/
def infiniteAt (items : List (PyStr × PyJson)) (key : String) : Bool :=
  match getItem? items key with
  | some value => value.isInfinite
  | none => false

/--
`delivery_from_webhook` comes to an `int()` of an infinite float: the installation
id, the repository id after an installation id it could read, or the number after a
repository identity the contract accepts.
-/
def ReachesInfinity (payload : PyJson) : Prop :=
  ∃ parts, pullRequestPayload payload = .ok parts ∧
    (infiniteAt parts.installation "id" = true ∨
      ∃ installationId, intAt tables parts.installation "id" = .ok installationId ∧
        (infiniteAt parts.repository "id" = true ∨
          ∃ repositoryId identity, intAt tables parts.repository "id" = .ok repositoryId ∧
            RepositoryIdentity.build installationId repositoryId parts.owner parts.name =
              .ok identity ∧
            infiniteAt parts.pullRequest "number" = true))

/-- `except (ValidationError, ValueError, TypeError, KeyError)` of the webhook. -/
def webhookCatches : PyException → Bool
  | .validationError => true
  | .valueError => true
  | .jsonDecodeError => true
  | .typeError => true
  | .keyError => true
  | _ => false

end Readers

section Agreement

variable {tables : UnicodeTables} {repr : PyJson → PyStr}

theorem nonEmptyField_ok
    {s : PyStr} {text : { text : String // text ≠ "" }}
    (h : nonEmptyField s = .ok text) :
    s = .ofString text.val := by
  unfold nonEmptyField at h
  split at h
  · cases h
  · next text' htext =>
      split at h
      · cases h
        exact PyStr.eq_ofString htext
      · cases h

theorem nonEmptyField_raises
    (s : PyStr) :
    Raises (fun e => e = .validationError) (nonEmptyField s) := by
  unfold nonEmptyField
  split
  · exact .error rfl
  · split
    · exact .ok _
    · exact .error rfl

theorem positiveField_ok
    {n : Int} {m : { n : Int // 0 < n }}
    (h : positiveField n = .ok m) :
    n = m.val := by
  unfold positiveField at h
  split at h
  · cases h
    rfl
  · cases h

theorem positiveField_raises
    (n : Int) :
    Raises (fun e => e = .validationError) (positiveField n) := by
  unfold positiveField
  split
  · exact .ok _
  · exact .error rfl

/-- What an accepted `RepositoryIdentity` was built from. -/
theorem RepositoryIdentity.build_ok
    {i r : Int} {owner name : PyStr} {identity : RepositoryIdentity}
    (h : RepositoryIdentity.build i r owner name = .ok identity) :
    identity.installationId = i ∧ identity.repositoryId = r := by
  obtain ⟨i', hi, h⟩ := bind_eq_ok h
  obtain ⟨r', hr, h⟩ := bind_eq_ok h
  obtain ⟨owner', _, h⟩ := bind_eq_ok h
  obtain ⟨name', _, h⟩ := bind_eq_ok h
  cases h
  exact ⟨(positiveField_ok hi).symm, (positiveField_ok hr).symm⟩

theorem RepositoryIdentity.build_raises
    (i r : Int) (owner name : PyStr) :
    Raises (fun e => e = .validationError) (RepositoryIdentity.build i r owner name) := by
  refine .bind (positiveField_raises i) fun i' _ => ?_
  refine .bind (positiveField_raises r) fun r' _ => ?_
  refine .bind (nonEmptyField_raises owner) fun owner' _ => ?_
  refine .bind (nonEmptyField_raises name) fun name' _ => ?_
  exact .ok _

theorem PullRequestRef.build_ok
    {owner repository : PyStr} {n : Int} {pullRequest : PullRequestRef}
    (h : PullRequestRef.build owner repository n = .ok pullRequest) :
    pullRequest.number = n := by
  obtain ⟨owner', _, h⟩ := bind_eq_ok h
  obtain ⟨repository', _, h⟩ := bind_eq_ok h
  obtain ⟨n', hn, h⟩ := bind_eq_ok h
  cases h
  exact (positiveField_ok hn).symm

theorem PullRequestRef.build_raises
    (owner repository : PyStr) (n : Int) :
    Raises (fun e => e = .validationError) (PullRequestRef.build owner repository n) := by
  refine .bind (nonEmptyField_raises owner) fun owner' _ => ?_
  refine .bind (nonEmptyField_raises repository) fun repository' _ => ?_
  refine .bind (positiveField_raises n) fun n' _ => ?_
  exact .ok _

/-- What an accepted `GitHubDelivery` was built from. -/
theorem GitHubDelivery.build_ok
    {deliveryId event action baseSha headSha : PyStr} {identity : RepositoryIdentity}
    {pullRequest : PullRequestRef} {draft : Bool} {d : GitHubDelivery}
    (h : GitHubDelivery.build deliveryId event action identity pullRequest draft baseSha
      headSha = .ok d) :
    deliveryId = .ofString d.deliveryId ∧ event = .ofString d.event ∧
      d.repositoryIdentity = identity ∧ d.pullRequest = pullRequest ∧
      baseSha = .ofString d.baseSha ∧ headSha = .ofString d.headSha := by
  obtain ⟨deliveryId', hdelivery, h⟩ := bind_eq_ok h
  obtain ⟨event', hevent, h⟩ := bind_eq_ok h
  obtain ⟨action', _, h⟩ := bind_eq_ok h
  obtain ⟨baseSha', hbase, h⟩ := bind_eq_ok h
  obtain ⟨headSha', hhead, h⟩ := bind_eq_ok h
  cases h
  exact ⟨nonEmptyField_ok hdelivery, nonEmptyField_ok hevent, rfl, rfl,
    nonEmptyField_ok hbase, nonEmptyField_ok hhead⟩

theorem GitHubDelivery.build_raises
    (deliveryId event action : PyStr) (identity : RepositoryIdentity)
    (pullRequest : PullRequestRef) (draft : Bool) (baseSha headSha : PyStr) :
    Raises (fun e => e = .validationError)
      (GitHubDelivery.build deliveryId event action identity pullRequest draft baseSha
        headSha) := by
  refine .bind (nonEmptyField_raises deliveryId) fun deliveryId' _ => ?_
  refine .bind (nonEmptyField_raises event) fun event' _ => ?_
  refine .bind (nonEmptyField_raises action) fun action' _ => ?_
  refine .bind (nonEmptyField_raises baseSha) fun baseSha' _ => ?_
  refine .bind (nonEmptyField_raises headSha) fun headSha' _ => ?_
  exact .ok _

theorem requireDict_ok
    {value? : Option PyJson} {items : List (PyStr × PyJson)}
    (h : requireDict value? = .ok items) :
    value? = some (.dict items) := by
  unfold requireDict at h
  split at h
  · cases h
    rfl
  · cases h

theorem requireDict_raises
    (value? : Option PyJson) :
    Raises (fun e => e = .valueError) (requireDict value?) := by
  unfold requireDict
  split
  · exact .ok _
  · exact .error rfl

theorem requireText_raises
    (value? : Option PyJson) :
    Raises (fun e => e = .valueError) (requireText value?) := by
  unfold requireText
  split
  · split
    · exact .ok _
    · exact .error rfl
  · exact .error rfl

theorem requireDraft_raises
    (value? : Option PyJson) :
    Raises (fun e => e = .valueError) (requireDraft value?) := by
  unfold requireDraft
  split
  · exact .ok _
  · exact .ok _
  · exact .error rfl

/-- A payload that is a dict fails its checks with a ValueError only. -/
theorem pullRequestPayload_raises
    (payload : PyJson) :
    Raises (fun e => e = .typeError ∨ e = .valueError) (pullRequestPayload payload) := by
  cases payload with
  | dict items =>
      refine Raises.mono (P := fun e => e = .valueError) ?_ (fun e he => .inr he)
      refine .bind (requireText_raises _) fun action _ => ?_
      refine .bind (requireDict_raises _) fun installation _ => ?_
      refine .bind (requireDict_raises _) fun repository _ => ?_
      refine .bind (requireDict_raises _) fun pullRequest _ => ?_
      refine .bind (requireDict_raises _) fun ownerObj _ => ?_
      refine .bind (requireText_raises _) fun owner _ => ?_
      refine .bind (requireText_raises _) fun name _ => ?_
      refine .bind (requireDict_raises _) fun base _ => ?_
      refine .bind (requireDict_raises _) fun head _ => ?_
      refine .bind (requireDraft_raises _) fun draft _ => ?_
      exact .ok _
  | _ => exact .error (.inl rfl)

/-- Where the parts of a payload that passed the checks stand in it. -/
theorem pullRequestPayload_ok
    {payload : PyJson} {parts : PullRequestPayload}
    (h : pullRequestPayload payload = .ok parts) :
    ∃ items, payload = .dict items ∧
      getItem? items "installation" = some (.dict parts.installation) ∧
      getItem? items "repository" = some (.dict parts.repository) ∧
      getItem? items "pull_request" = some (.dict parts.pullRequest) ∧
      getItem? parts.pullRequest "base" = some (.dict parts.base) ∧
      getItem? parts.pullRequest "head" = some (.dict parts.head) := by
  cases payload with
  | dict items =>
      obtain ⟨action, _, h⟩ := bind_eq_ok h
      obtain ⟨installation, hinstallation, h⟩ := bind_eq_ok h
      obtain ⟨repository, hrepository, h⟩ := bind_eq_ok h
      obtain ⟨pullRequest, hpullRequest, h⟩ := bind_eq_ok h
      obtain ⟨ownerObj, _, h⟩ := bind_eq_ok h
      obtain ⟨owner, _, h⟩ := bind_eq_ok h
      obtain ⟨name, _, h⟩ := bind_eq_ok h
      obtain ⟨base, hbase, h⟩ := bind_eq_ok h
      obtain ⟨head, hhead, h⟩ := bind_eq_ok h
      obtain ⟨draft, _, h⟩ := bind_eq_ok h
      cases h
      exact ⟨items, rfl, requireDict_ok hinstallation, requireDict_ok hrepository,
        requireDict_ok hpullRequest, requireDict_ok hbase, requireDict_ok hhead⟩
  | _ => cases h

theorem intAt_infinite
    {items : List (PyStr × PyJson)} {key : String}
    (h : infiniteAt items key = true) :
    intAt tables items key = .error .overflowError := by
  unfold infiniteAt at h
  split at h
  · next value hvalue =>
      simp only [intAt, getItem, hvalue]
      exact intOf_infinite h
  · cases h

/-- The exceptions that reading a payload raises where it comes to no infinity. -/
def IsPayloadError (e : PyException) : Prop :=
  e = .validationError ∨ e = .valueError ∨ e = .typeError ∨ e = .keyError

theorem IsPayloadError.caught
    {e : PyException}
    (h : IsPayloadError e) :
    webhookCatches e = true := by
  rcases h with rfl | rfl | rfl | rfl <;> rfl

/-- Apart from an infinity, what `int(d[key])` raises is caught. -/
theorem intAt_raises
    {items : List (PyStr × PyJson)} {key : String}
    (hfinite : infiniteAt items key = false) :
    Raises IsPayloadError (intAt tables items key) := by
  refine .bind ?_ ?_
  · refine (getItem_raises items key).mono ?_
    rintro e rfl
    exact .inr (.inr (.inr rfl))
  · intro value hvalue
    have hitem : getItem? items key = some value := by
      unfold getItem at hvalue
      split at hvalue
      · next value' hvalue' =>
          cases hvalue
          exact hvalue'
      · cases hvalue
    simp only [infiniteAt, hitem] at hfinite
    refine (intOf_raises hfinite).mono ?_
    rintro e (rfl | rfl)
    · exact .inr (.inr (.inl rfl))
    · exact .inr (.inl rfl)

theorem strAt_raises
    (items : List (PyStr × PyJson)) (key : String) :
    Raises IsPayloadError (strAt repr items key) := by
  refine .bind ?_ ?_
  · refine (getItem_raises items key).mono ?_
    rintro e rfl
    exact .inr (.inr (.inr rfl))
  · intro value _
    refine (strOf_raises value).mono ?_
    rintro e rfl
    exact .inr (.inl rfl)

/-- What a delivery was read from. -/
theorem deliveryFromWebhook_ok
    {deliveryId eventName : String} {payload : PyJson} {d : GitHubDelivery}
    (h : deliveryFromWebhook tables repr deliveryId eventName payload = .ok d) :
    ∃ parts, pullRequestPayload payload = .ok parts ∧
      intAt tables parts.installation "id" = .ok d.repositoryIdentity.installationId ∧
      intAt tables parts.repository "id" = .ok d.repositoryIdentity.repositoryId ∧
      intAt tables parts.pullRequest "number" = .ok d.pullRequest.number ∧
      strAt repr parts.base "sha" = .ok (.ofString d.baseSha) ∧
      strAt repr parts.head "sha" = .ok (.ofString d.headSha) := by
  obtain ⟨parts, hparts, h⟩ := bind_eq_ok h
  obtain ⟨installationId, hinstallation, h⟩ := bind_eq_ok h
  obtain ⟨repositoryId, hrepository, h⟩ := bind_eq_ok h
  obtain ⟨identity, hidentity, h⟩ := bind_eq_ok h
  obtain ⟨number, hnumber, h⟩ := bind_eq_ok h
  obtain ⟨pullRequest, hpullRequest, h⟩ := bind_eq_ok h
  obtain ⟨baseSha, hbase, h⟩ := bind_eq_ok h
  obtain ⟨headSha, hhead, h⟩ := bind_eq_ok h
  obtain ⟨_, _, rfl, rfl, rfl, rfl⟩ := GitHubDelivery.build_ok h
  obtain ⟨rfl, rfl⟩ := RepositoryIdentity.build_ok hidentity
  obtain rfl := PullRequestRef.build_ok hpullRequest
  exact ⟨parts, hparts, hinstallation, hrepository, hnumber, hbase, hhead⟩

/-- A delivery carries the headers of its request. -/
theorem deliveryFromWebhook_headers
    {deliveryId eventName : String} {payload : PyJson} {d : GitHubDelivery}
    (h : deliveryFromWebhook tables repr deliveryId eventName payload = .ok d) :
    PyStr.ofString deliveryId = .ofString d.deliveryId ∧
      PyStr.ofString eventName = .ofString d.event := by
  obtain ⟨parts, _, h⟩ := bind_eq_ok h
  obtain ⟨installationId, _, h⟩ := bind_eq_ok h
  obtain ⟨repositoryId, _, h⟩ := bind_eq_ok h
  obtain ⟨identity, _, h⟩ := bind_eq_ok h
  obtain ⟨number, _, h⟩ := bind_eq_ok h
  obtain ⟨pullRequest, _, h⟩ := bind_eq_ok h
  obtain ⟨baseSha, _, h⟩ := bind_eq_ok h
  obtain ⟨headSha, _, h⟩ := bind_eq_ok h
  obtain ⟨hdelivery, hevent, _⟩ := GitHubDelivery.build_ok h
  exact ⟨hdelivery, hevent⟩

/-- The identity a delivery names. -/
def GitHubDelivery.payloadIdentity (d : GitHubDelivery) : PayloadIdentity where
  installationId := d.repositoryIdentity.installationId
  githubRepositoryId := d.repositoryIdentity.repositoryId
  pullRequestNumber := d.pullRequest.number
  baseSha := .ofString d.baseSha
  headSha := .ofString d.headSha

theorem PyStr.points_ne_nil
    {text : String}
    (h : text ≠ "") :
    (PyStr.ofString text).points ≠ [] := by
  intro hnil
  apply h
  simpa [PyStr.ofString] using hnil

/-- Whenever the first reader returns a delivery, the second returns its identity. -/
theorem pullRequestIdentity_of_delivery
    {deliveryId eventName : String} {payload : PyJson} {d : GitHubDelivery}
    (h : deliveryFromWebhook tables repr deliveryId eventName payload = .ok d) :
    pullRequestIdentity tables repr payload = .ok (some d.payloadIdentity) := by
  obtain ⟨parts, hparts, hinstallation, hrepository, hnumber, hbase, hhead⟩ :=
    deliveryFromWebhook_ok h
  obtain ⟨items, rfl, hi, hr, hp, hb, hh⟩ := pullRequestPayload_ok hparts
  have hread :
      Hosted.payloadIdentity tables repr parts.installation parts.repository
        parts.pullRequest parts.base parts.head = .ok d.payloadIdentity := by
    simp only [Hosted.payloadIdentity, hinstallation, hrepository, hnumber, hbase, hhead]
    rfl
  have hnumberPos : ¬ d.pullRequest.number ≤ 0 := Int.not_le.mpr d.pullRequest.number_pos
  unfold pullRequestIdentity
  simp only [hi, hr, hp, hb, hh, hread]
  rw [if_neg]
  rintro (hle | hnil | hnil)
  · exact hnumberPos hle
  · exact PyStr.points_ne_nil d.baseSha_ne hnil
  · exact PyStr.points_ne_nil d.headSha_ne hnil

/-- The exceptions of `delivery_from_webhook` are caught unless it comes to an infinity. -/
theorem deliveryFromWebhook_raises
    {payload : PyJson}
    (hfinite : ¬ ReachesInfinity tables payload)
    (deliveryId eventName : String) :
    Raises IsPayloadError
      (deliveryFromWebhook tables repr deliveryId eventName payload) := by
  have hvalidation : ∀ e, e = PyException.validationError → IsPayloadError e :=
    fun e he => .inl he
  refine .bind ?_ fun parts hparts => ?_
  · refine (pullRequestPayload_raises payload).mono ?_
    rintro e (rfl | rfl)
    · exact .inr (.inr (.inl rfl))
    · exact .inr (.inl rfl)
  refine .bind (intAt_raises ?_) fun installationId hinstallation => ?_
  · rw [Bool.eq_false_iff]
    intro hinfinite
    exact hfinite ⟨parts, hparts, .inl hinfinite⟩
  refine .bind (intAt_raises ?_) fun repositoryId hrepository => ?_
  · rw [Bool.eq_false_iff]
    intro hinfinite
    exact hfinite ⟨parts, hparts, .inr ⟨installationId, hinstallation, .inl hinfinite⟩⟩
  refine .bind ((RepositoryIdentity.build_raises _ _ _ _).mono hvalidation)
    fun identity hidentity => ?_
  refine .bind (intAt_raises ?_) fun number _ => ?_
  · rw [Bool.eq_false_iff]
    intro hinfinite
    exact hfinite ⟨parts, hparts, .inr ⟨installationId, hinstallation,
      .inr ⟨repositoryId, identity, hrepository, hidentity, hinfinite⟩⟩⟩
  refine .bind ((PullRequestRef.build_raises _ _ _).mono hvalidation)
    fun pullRequest _ => ?_
  refine .bind (strAt_raises parts.base "sha") fun baseSha _ => ?_
  refine .bind (strAt_raises parts.head "sha") fun headSha _ => ?_
  exact (GitHubDelivery.build_raises _ _ _ _ _ _ _ _).mono hvalidation

variable (repr) in
/-- An infinity that is reached escapes as an OverflowError. -/
theorem deliveryFromWebhook_infinite
    {payload : PyJson}
    (h : ReachesInfinity tables payload)
    (deliveryId eventName : String) :
    deliveryFromWebhook tables repr deliveryId eventName payload = .error .overflowError := by
  obtain ⟨parts, hparts, hinfinite | ⟨installationId, hinstallation, hrest⟩⟩ := h
  · rw [deliveryFromWebhook, hparts, ok_bind, intAt_infinite hinfinite, error_bind]
  · rcases hrest with hinfinite | ⟨repositoryId, identity, hrepository, hidentity, hinfinite⟩
    · rw [deliveryFromWebhook, hparts, ok_bind, hinstallation, ok_bind,
        intAt_infinite hinfinite, error_bind]
    · rw [deliveryFromWebhook, hparts, ok_bind, hinstallation, ok_bind, hrepository, ok_bind,
        hidentity, ok_bind, intAt_infinite hinfinite, error_bind]

end Agreement

end Hosted
end PrReviewer
