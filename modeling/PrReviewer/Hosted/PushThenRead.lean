import PrReviewer.Hosted.ActiveJobs
import PrReviewer.Hosted.RecordChanges
import PrReviewer.Lib.Text

/-!
# A pushed summary, read and pushed again

`save_pushed_review_summary` and `review_by_id` are two mappings of the same rows.  The
findings of a summary are stored under ids made of the job and their positions, and an id
that is taken is passed over.

What a viewer reads mirrors the body when the ids were free.  A second push of the body
finds its job and its ids, and changes the time of the job's row alone, as long as the job
was not purged.
-/

namespace PrReviewer
namespace Hosted

open Lib

/-- The id a pushed finding is stored under. -/
def PushedReviewSummaryBody.findingId (body : PushedReviewSummaryBody) (index : Nat) : String :=
  body.reviewJobId.text ++ ":" ++ toString index

theorem findingId_injective
    (body : PushedReviewSummaryBody) :
    Function.Injective body.findingId := by
  intro index index' h
  have hdigits : toString index = toString index' := (String.append_right_inj _).mp h
  exact decimal_injective (congrArg PyStr.ofString hdigits)

@[simp] theorem pushedFindingRow_id
    (body : PushedReviewSummaryBody) (finding : PushedFindingBody) (index now : Nat) :
    (pushedFindingRow body finding index now).id = body.findingId index := by
  rfl

/-! ## The insertion of the findings -/

section Insertion

variable {body : PushedReviewSummaryBody} {now : Nat}

/-- One insertion: the row of the finding, or nothing where its id is taken. -/
theorem insertPushedFindings_cons
    (body : PushedReviewSummaryBody) (now : Nat) (finding : PushedFindingBody)
    (rest : List PushedFindingBody) (start : Nat)
    (stored : Table ReviewFindingRow.id) :
    ∃ stored' : Table ReviewFindingRow.id,
      insertPushedFindings body now ((finding :: rest).zipIdx start) stored =
          insertPushedFindings body now (rest.zipIdx (start + 1)) stored' ∧
        (stored.find? (body.findingId start) = none →
          stored'.rows = stored.rows ++ [pushedFindingRow body finding start now]) ∧
        (stored.find? (body.findingId start) ≠ none → stored' = stored) ∧
        ∀ id, stored'.find? id =
          if id = body.findingId start ∧ stored.find? id = none then
            some (pushedFindingRow body finding start now)
          else
            stored.find? id := by
  cases hinsert : stored.insert? (pushedFindingRow body finding start now) with
  | none =>
      refine ⟨stored, ?_, ?_, fun _ => rfl, ?_⟩
      · simp only [List.zipIdx_cons, insertPushedFindings, hinsert, Option.getD_none]
      · intro hfree
        obtain ⟨row, hrow⟩ := Table.insert?_eq_none_iff.mp hinsert
        rw [pushedFindingRow_id, hfree] at hrow
        cases hrow
      · intro id
        rw [if_neg]
        rintro ⟨rfl, hfree⟩
        obtain ⟨row, hrow⟩ := Table.insert?_eq_none_iff.mp hinsert
        rw [pushedFindingRow_id, hfree] at hrow
        cases hrow
  | some stored' =>
      obtain ⟨hfree, hrows⟩ := Table.insert?_eq_some hinsert
      rw [pushedFindingRow_id] at hfree
      refine ⟨stored', ?_, fun _ => hrows, fun htaken => absurd hfree htaken, ?_⟩
      · simp only [List.zipIdx_cons, insertPushedFindings, hinsert, Option.getD_some]
      · intro id
        rw [Table.find?_insert? hinsert, pushedFindingRow_id]
        by_cases hid : id = body.findingId start
        · subst hid
          rw [if_pos rfl, if_pos ⟨rfl, hfree⟩]
        · rw [if_neg hid, if_neg (fun h => hid h.1)]

/-- Where the ids are free, every finding gets its row. -/
theorem insertPushedFindings_free
    (findings : List PushedFindingBody) (start : Nat) (stored : Table ReviewFindingRow.id)
    (hfree : ∀ k, start ≤ k → k < start + findings.length →
      stored.find? (body.findingId k) = none) :
    (insertPushedFindings body now (findings.zipIdx start) stored).rows =
      stored.rows ++
        (findings.zipIdx start).map (fun entry => pushedFindingRow body entry.1 entry.2 now) := by
  induction findings generalizing start stored with
  | nil => simp [insertPushedFindings]
  | cons finding rest ih =>
      simp only [List.length_cons] at hfree
      obtain ⟨stored', hinsert, hrows, -, hfind⟩ :=
        insertPushedFindings_cons body now finding rest start stored
      rw [hinsert, ih, hrows (hfree start le_rfl (by omega))]
      · simp
      · intro k hle hlt
        rw [hfind, if_neg]
        · exact hfree k (by omega) (by omega)
        · rintro ⟨hid, -⟩
          have hk := findingId_injective body hid
          omega

/-- No id is given up. -/
theorem insertPushedFindings_keeps
    (findings : List PushedFindingBody) (start : Nat) (stored : Table ReviewFindingRow.id)
    {id : String}
    (hid : stored.find? id ≠ none) :
    (insertPushedFindings body now (findings.zipIdx start) stored).find? id ≠ none := by
  induction findings generalizing start stored with
  | nil => exact hid
  | cons finding rest ih =>
      obtain ⟨stored', hinsert, -, -, hfind⟩ :=
        insertPushedFindings_cons body now finding rest start stored
      rw [hinsert]
      apply ih
      rw [hfind, if_neg (fun h => hid h.2)]
      exact hid

/-- Afterwards the ids of the findings are taken. -/
theorem insertPushedFindings_taken
    (findings : List PushedFindingBody) (start : Nat) (stored : Table ReviewFindingRow.id) :
    ∀ k, start ≤ k → k < start + findings.length →
      (insertPushedFindings body now (findings.zipIdx start) stored).find?
        (body.findingId k) ≠ none := by
  induction findings generalizing start stored with
  | nil =>
      intro k hle hlt
      simp only [List.length_nil] at hlt
      omega
  | cons finding rest ih =>
      intro k hle hlt
      simp only [List.length_cons] at hlt
      obtain ⟨stored', hinsert, -, -, hfind⟩ :=
        insertPushedFindings_cons body now finding rest start stored
      rw [hinsert]
      rcases Nat.eq_or_lt_of_le hle with rfl | hlater
      · apply insertPushedFindings_keeps
        rw [hfind]
        split
        · exact Option.some_ne_none _
        · next htaken => exact fun hfree => htaken ⟨rfl, hfree⟩
      · exact ih (start + 1) stored' k hlater (by omega)

/-- Where the ids are taken, nothing is inserted. -/
theorem insertPushedFindings_of_taken
    (findings : List PushedFindingBody) (start : Nat) (stored : Table ReviewFindingRow.id)
    (htaken : ∀ k, start ≤ k → k < start + findings.length →
      stored.find? (body.findingId k) ≠ none) :
    insertPushedFindings body now (findings.zipIdx start) stored = stored := by
  induction findings generalizing start stored with
  | nil => rfl
  | cons finding rest ih =>
      simp only [List.length_cons] at htaken
      obtain ⟨stored', hinsert, -, hsame, -⟩ :=
        insertPushedFindings_cons body now finding rest start stored
      rw [hinsert, hsame (htaken start le_rfl (by omega))]
      exact ih (start + 1) stored (fun k hle hlt => htaken k (by omega) (by omega))

end Insertion

/-! ## The records grow -/

/-- What refers to a finding refers to a stored one. -/
def SourcesKnown (s : HostedState) : Prop :=
  ∀ source ∈ s.findingContextSources, s.reviewFindings.find? source.findingId ≠ none

/-- No finding goes, and context sources come with their finding. -/
structure RecordsGrow (s s' : HostedState) : Prop where
  kept : ∀ id, s.reviewFindings.find? id ≠ none → s'.reviewFindings.find? id ≠ none
  known : SourcesKnown s → SourcesKnown s'

theorem insertProjectedFindings_grow
    {reviewJobId : Uuid} {receipts : List ReceiptInput} {findings : List Finding}
    {s s' : HostedState}
    (h : insertProjectedFindings reviewJobId receipts findings s = .ok s') :
    RecordsGrow s s' := by
  induction findings generalizing s with
  | nil =>
      cases h
      exact ⟨fun _ hid => hid, fun hknown => hknown⟩
  | cons finding rest ih =>
      simp only [insertProjectedFindings] at h
      split at h
      · cases h
      · split at h
        · cases h
        · split at h
          · cases h
          · next reviewFindings hinsert =>
              have hrest := ih h
              have hkept : ∀ id, s.reviewFindings.find? id ≠ none →
                  reviewFindings.find? id ≠ none := by
                intro id hid
                rw [Table.find?_insert? hinsert]
                split
                · simp
                · exact hid
              refine ⟨fun id hid => hrest.kept id (hkept id hid), fun hknown => hrest.known ?_⟩
              intro source hsource
              rcases List.mem_append.mp hsource with hold | hnew
              · exact hkept _ (hknown source hold)
              · simp only [contextSourceRows, List.mem_map] at hnew
                obtain ⟨input, _, rfl⟩ := hnew
                rw [Table.find?_insert? hinsert]
                simp [projectedFindingRow]

theorem recordedSummary_grow
    (s : HostedState) (body : PushedReviewSummaryBody) :
    RecordsGrow s (recordedSummary s body) := by
  have hkept : ∀ id, s.reviewFindings.find? id ≠ none →
      (recordedSummary s body).reviewFindings.find? id ≠ none :=
    fun id hid => insertPushedFindings_keeps body.findings 0 s.reviewFindings hid
  exact ⟨hkept, fun hknown source hsource => hkept _ (hknown source hsource)⟩

section Plane

variable {hashRunnerCredential : String → String}

theorem hostedStoreStep_grow
    (s : HostedStore) (a : StoreAction) :
    RecordsGrow s.hosted (hostedStoreStep hashRunnerCredential s a).hosted := by
  have hchange := hostedStoreStep_records hashRunnerCredential s a
  generalize (hostedStoreStep hashRunnerCredential s a).hosted = hosted at hchange ⊢
  cases hchange with
  | quiet hsame =>
      constructor
      · intro id hid
        rw [hsame.reviewFindings]
        exact hid
      · intro hknown
        unfold SourcesKnown
        rw [hsame.reviewFindings, hsame.findingContextSources]
        exact hknown
  | pushed hbody => exact recordedSummary_grow s.hosted _
  | projected hok => exact insertProjectedFindings_grow (projectReview_eq_ok hok)

/-- Of every run, from the empty store. -/
theorem sourcesKnown_storeAfter
    (actions : List StoreAction) :
    SourcesKnown (storeAfter hashRunnerCredential actions).hosted := by
  refine exec_preserves (I := fun s : HostedStore => SourcesKnown s.hosted) ?_ actions ?_
  · intro s a hknown
    exact (hostedStoreStep_grow s a).known hknown
  · intro source hsource
    cases hsource

end Plane

/-! ## Reading what was pushed -/

/-- What a pushed finding and a displayed one have in common. -/
structure ShownFinding where
  concern : Concern
  severity : Severity
  filePath : String
  lineStart : Nat
  lineEnd : Nat
  title : String
  status : FindingStatus
deriving DecidableEq, Repr

def PushedFindingBody.shown (finding : PushedFindingBody) : ShownFinding :=
  ⟨finding.concern, finding.severity, finding.filePath, finding.lineStart, finding.lineEnd,
    finding.title, finding.status⟩

def ReviewFindingSummary.shown (finding : ReviewFindingSummary) : ShownFinding :=
  ⟨finding.concern, finding.severity, finding.filePath, finding.lineStart, finding.lineEnd,
    finding.title, finding.status⟩

/-- The review says what the body says: its findings are those of the body, each once. -/
structure Mirrors (review : ReviewSummary) (body : PushedReviewSummaryBody) : Prop where
  pullRequestNumber : review.pullRequestNumber = some body.pullRequestNumber
  headSha : review.headSha = some body.headSha
  status : review.status = body.status.toReviewJobStatus
  stoppedEarly : review.stoppedEarly = body.stoppedEarly
  findings : (review.findings.map ReviewFindingSummary.shown).Perm
    (body.findings.map PushedFindingBody.shown)
  unverified : ∀ finding ∈ review.findings, finding.verified = false ∧ finding.receipt = none

section Reading

variable {s : HostedState} {body : PushedReviewSummaryBody}

theorem savePushedReviewSummary_eq_ok
    {s' : HostedState}
    (h : savePushedReviewSummary s body = .ok s') :
    s' = recordedSummary s body := by
  by_cases hwritable : body.writable s = true
  · rw [savePushedReviewSummary_of_writable hwritable] at h
    exact (Except.ok.inj h).symm
  · obtain ⟨e, he⟩ := savePushedReviewSummary_of_not_writable hwritable
    rw [he] at h
    cases h

/-- The row of the job after the push. -/
theorem recordedSummary_row
    (s : HostedState) (body : PushedReviewSummaryBody) :
    ∃ row : ReviewJobRow, (recordedSummary s body).reviewJobs.find? body.reviewJobId =
      some (row.overwrittenBy body s.now) := by
  rw [recordedSummary_find?, if_pos rfl]
  cases s.reviewJobs.find? body.reviewJobId with
  | none => exact ⟨_, rfl⟩
  | some row => exact ⟨row, rfl⟩

/-- The findings of the job after the push, when it had none and the ids were free. -/
theorem findingsOf_recordedSummary
    (hnone : findingsOf s body.reviewJobId = [])
    (hfree : ∀ k < body.findings.length, s.reviewFindings.find? (body.findingId k) = none) :
    findingsOf (recordedSummary s body) body.reviewJobId =
      body.findings.zipIdx.map (fun entry => pushedFindingRow body entry.1 entry.2 s.now) := by
  have hrows : (recordedSummary s body).reviewFindings.rows = s.reviewFindings.rows ++
      body.findings.zipIdx.map (fun entry => pushedFindingRow body entry.1 entry.2 s.now) :=
    insertPushedFindings_free body.findings 0 s.reviewFindings
      (fun k _ hk => hfree k (by omega))
  have hpushed : ∀ row ∈ body.findings.zipIdx.map
      (fun entry => pushedFindingRow body entry.1 entry.2 s.now),
      decide (row.reviewJobId = body.reviewJobId) = true := by
    intro row hrow
    obtain ⟨entry, _, rfl⟩ := List.mem_map.mp hrow
    exact decide_eq_true rfl
  unfold findingsOf at hnone ⊢
  rw [hrows, List.filter_append, hnone, List.nil_append, List.filter_eq_self.mpr hpushed]

/-- A pushed finding is displayed as it was pushed, without a receipt. -/
theorem findingSummary_pushed
    {finding : PushedFindingBody} {index now : Nat}
    (hsources : ∀ source ∈ s.findingContextSources, source.findingId ≠ body.findingId index) :
    (findingSummary s (pushedFindingRow body finding index now)).shown = finding.shown ∧
      (findingSummary s (pushedFindingRow body finding index now)).verified = false ∧
      (findingSummary s (pushedFindingRow body finding index now)).receipt = none := by
  have hnone : s.findingContextSources.filter
      (fun source => source.findingId = body.findingId index) = [] := by
    rw [List.filter_eq_nil_iff]
    intro source hsource hid
    exact hsources source hsource (by simpa using hid)
  refine ⟨rfl, rfl, ?_⟩
  simp only [findingSummary, pushedFindingRow_id, hnone]
  rfl

/-- A viewer with the repository reads the body back. -/
theorem reviewById_recordedSummary
    (hknown : SourcesKnown s) (hnone : findingsOf s body.reviewJobId = [])
    (hfree : ∀ k < body.findings.length, s.reviewFindings.find? (body.findingId k) = none)
    {assertion : LiveInstallationAssertion} {text : String}
    (htext : Uuid.parse? text = some body.reviewJobId)
    (hgrants : assertion.grants body.installationId body.githubRepositoryId = true) :
    ∃ review, reviewById (recordedSummary s body) assertion text = some review ∧
      Mirrors review body := by
  obtain ⟨row, hrow⟩ := recordedSummary_row s body
  have hkey := Table.key_of_find? hrow
  have hid : row.id = body.reviewJobId := hkey
  refine ⟨reviewSummaryForJob (recordedSummary s body) (row.overwrittenBy body s.now), ?_, ?_⟩
  · simp only [reviewById, htext, hrow, ReviewJobRow.overwrittenBy, hgrants, if_true]
  · have hrows := findingsOf_recordedSummary hnone hfree
    rw [← hid] at hrows
    have hperm := List.perm_insertionSort
      (fun row row' : ReviewFindingRow => row.createdAt ≤ row'.createdAt)
      (findingsOf (recordedSummary s body) row.id)
    have hshown : ∀ entry ∈ body.findings.zipIdx,
        (findingSummary (recordedSummary s body)
          (pushedFindingRow body entry.1 entry.2 s.now)).shown = entry.1.shown ∧
        (findingSummary (recordedSummary s body)
          (pushedFindingRow body entry.1 entry.2 s.now)).verified = false ∧
        (findingSummary (recordedSummary s body)
          (pushedFindingRow body entry.1 entry.2 s.now)).receipt = none := by
      intro entry hentry
      apply findingSummary_pushed
      intro source hsource hsame
      have hlt : entry.2 < body.findings.length := by
        have hlast := List.snd_lt_add_of_mem_zipIdx hentry
        omega
      exact hknown source hsource (hsame ▸ hfree entry.2 hlt)
    refine ⟨rfl, rfl, rfl, ?_, ?_, ?_⟩
    · have hstatus : decide (body.status.toReviewJobStatus = .stoppedEarly) =
          decide (body.status = .stoppedEarly) := by
        cases body.status with
        | completed => rfl
        | stoppedEarly => rfl
      exact hstatus.trans body.stoppedEarly_eq.symm
    · have hmap : ((findingsOf (recordedSummary s body) row.id).map
          (findingSummary (recordedSummary s body))).map ReviewFindingSummary.shown =
            body.findings.map PushedFindingBody.shown := by
        rw [hrows, List.map_map, List.map_map]
        have hentries : body.findings.zipIdx.map
            ((ReviewFindingSummary.shown ∘ findingSummary (recordedSummary s body)) ∘
              fun entry => pushedFindingRow body entry.1 entry.2 s.now) =
            body.findings.zipIdx.map (PushedFindingBody.shown ∘ Prod.fst) :=
          List.map_congr_left (fun entry hentry => (hshown entry hentry).1)
        rw [hentries, ← List.map_map, List.zipIdx_map_fst]
      have hsorted := (hperm.map (findingSummary (recordedSummary s body))).map
        ReviewFindingSummary.shown
      exact hsorted.trans (.of_eq hmap)
    · intro finding hfinding
      simp only [reviewSummaryForJob, orderByCreatedAt, List.mem_map] at hfinding
      obtain ⟨stored, hstored, rfl⟩ := hfinding
      have hmem : stored ∈ findingsOf (recordedSummary s body) row.id := hperm.mem_iff.mp hstored
      rw [hrows, List.mem_map] at hmem
      obtain ⟨entry, hentry, rfl⟩ := hmem
      exact (hshown entry hentry).2

end Reading

/-! ## Pushing again -/

/-- The state with another time in the row of a job. -/
def HostedState.touched (s : HostedState) (jobId : Uuid) (now : Nat) : HostedState :=
  s.alterJob jobId (fun row => { row with updatedAt := now }) (fun _ => rfl)

/-- The body was pushed: its job has it, and the ids of its findings are taken. -/
structure Pushed (body : PushedReviewSummaryBody) (s : HostedState) : Prop where
  row : ∃ row : ReviewJobRow, s.reviewJobs.find? body.reviewJobId =
    some (row.overwrittenBy body row.updatedAt)
  taken : ∀ k < body.findings.length, s.reviewFindings.find? (body.findingId k) ≠ none

theorem pushed_recordedSummary
    (s : HostedState) (body : PushedReviewSummaryBody) :
    Pushed body (recordedSummary s body) := by
  obtain ⟨row, hrow⟩ := recordedSummary_row s body
  refine ⟨⟨row.overwrittenBy body s.now, hrow⟩, ?_⟩
  intro k hk
  exact insertPushedFindings_taken body.findings 0 s.reviewFindings k (by omega) (by omega)

/-- A second push finds everything but the time. -/
theorem recordedSummary_of_pushed
    {s : HostedState} {body : PushedReviewSummaryBody}
    (hpushed : Pushed body s) :
    recordedSummary s body = s.touched body.reviewJobId s.now := by
  obtain ⟨row, hrow⟩ := hpushed.row
  have hinsert : s.reviewJobs.insert? (pushedRow body s.now) = none :=
    Table.insert?_eq_none_iff.mpr ⟨_, hrow⟩
  have hfindings : insertPushedFindings body s.now body.findings.zipIdx s.reviewFindings =
      s.reviewFindings :=
    insertPushedFindings_of_taken body.findings 0 s.reviewFindings
      (fun k _ hk => hpushed.taken k (by omega))
  have hjobs : s.reviewJobs.alter body.reviewJobId (fun row => row.overwrittenBy body s.now)
      (fun row => row.overwrittenBy_id body s.now) =
        s.reviewJobs.alter body.reviewJobId (fun row => { row with updatedAt := s.now })
          (fun _ => rfl) := by
    apply Table.alter_congr
    intro stored hstored
    rw [hrow] at hstored
    cases hstored
    rfl
  rw [recordedSummary, hinsert, Option.getD_none, hfindings, hjobs]
  rfl

section Again

variable (hashRunnerCredential : String → String)

/-- A step between two pushes: it pushes no other body to the job, and the job stays. -/
def BetweenPushes (body : PushedReviewSummaryBody) (s : HostedStore) (a : StoreAction) : Prop :=
  (∀ other, a.writesSummary hashRunnerCredential s = some other →
    other.reviewJobId = body.reviewJobId → other = body) ∧
  (hostedStoreStep hashRunnerCredential s a).hosted.reviewJobs.find? body.reviewJobId ≠ none

variable {hashRunnerCredential}

theorem pushed_step
    {body : PushedReviewSummaryBody} {s : HostedStore} {a : StoreAction}
    (hpushed : Pushed body s.hosted) (hbetween : BetweenPushes hashRunnerCredential body s a) :
    Pushed body (hostedStoreStep hashRunnerCredential s a).hosted := by
  obtain ⟨row, hrow⟩ := hpushed.row
  obtain ⟨honly, hstays⟩ := hbetween
  have hsettled : (row.overwrittenBy body row.updatedAt).status.settled = true :=
    body.status.toReviewJobStatus_settled
  have hchange := hostedStoreStep_settled hashRunnerCredential a hrow hsettled
  refine ⟨?_, fun k hk => (hostedStoreStep_grow s a).kept _ (hpushed.taken k hk)⟩
  generalize (hostedStoreStep hashRunnerCredential s a).hosted.reviewJobs.find?
    body.reviewJobId = row? at hchange hstays ⊢
  cases hchange with
  | kept => exact ⟨row, rfl⟩
  | purged => exact absurd rfl hstays
  | @overwritten _ other hbody hid =>
      rw [honly other hbody hid]
      exact ⟨row.overwrittenBy body s.hosted.now, rfl⟩

/-- The push of a body, as a step of the plane. -/
def pushOf (body : PushedReviewSummaryBody) : StoreAction :=
  .pairing (.elsewhere (.savePushedReviewSummary body) rfl)

/--
A push is read back when the job had no findings and the ids were free, and pushed again it
changes one time, after any steps that push no other body to the job and leave it there.
-/
theorem pushed_summary_read_back
    (hashRunnerCredential : String → String) (actions : List StoreAction)
    (body : PushedReviewSummaryBody) (s' : HostedState)
    (hsave : savePushedReviewSummary (storeAfter hashRunnerCredential actions).hosted body =
      .ok s') :
    (findingsOf (storeAfter hashRunnerCredential actions).hosted body.reviewJobId = [] →
      (∀ k < body.findings.length,
        (storeAfter hashRunnerCredential actions).hosted.reviewFindings.find?
          (body.findingId k) = none) →
      ∀ assertion text, Uuid.parse? text = some body.reviewJobId →
        assertion.grants body.installationId body.githubRepositoryId = true →
        ∃ review, reviewById s' assertion text = some review ∧ Mirrors review body) ∧
    (∀ later, Along (hostedStoreStep hashRunnerCredential)
        (BetweenPushes hashRunnerCredential body)
        (storeAfter hashRunnerCredential (actions ++ [pushOf body])) later →
      ∀ s₃, savePushedReviewSummary
          (storeAfter hashRunnerCredential (actions ++ pushOf body :: later)).hosted body =
            .ok s₃ →
        ∃ now, s₃ = (storeAfter hashRunnerCredential
          (actions ++ pushOf body :: later)).hosted.touched body.reviewJobId now) := by
  have hs' := savePushedReviewSummary_eq_ok hsave
  constructor
  · intro hnone hfree assertion text htext hgrants
    rw [hs']
    exact reviewById_recordedSummary (sourcesKnown_storeAfter actions) hnone hfree htext hgrants
  · intro later hbetween s₃ hagain
    have hfirst : (storeAfter hashRunnerCredential (actions ++ [pushOf body])).hosted = s' := by
      rw [storeAfter, exec_append]
      simp only [exec_cons, exec_nil, pushOf, hostedStoreStep, pairingStep, step]
      rw [storeAfter] at hsave
      rw [hsave]
      rfl
    have hpushed : Pushed body
        (storeAfter hashRunnerCredential (actions ++ [pushOf body])).hosted := by
      rw [hfirst, hs']
      exact pushed_recordedSummary _ body
    have hlater : Pushed body
        (storeAfter hashRunnerCredential (actions ++ pushOf body :: later)).hosted := by
      have hrun : storeAfter hashRunnerCredential (actions ++ pushOf body :: later) =
          exec (hostedStoreStep hashRunnerCredential)
            (storeAfter hashRunnerCredential (actions ++ [pushOf body])) later := by
        rw [storeAfter, storeAfter, ← exec_append, List.append_assoc, List.singleton_append]
      rw [hrun]
      exact exec_invariant (I := fun s : HostedStore => Pushed body s.hosted)
        (fun s a hI hP => pushed_step hI hP) hbetween hpushed
    rw [savePushedReviewSummary_eq_ok hagain]
    exact ⟨_, recordedSummary_of_pushed hlater⟩

end Again

/-! ## Two runs -/

/-- The body of the first job, with any findings. -/
def bodyWith (findings : List PushedFindingBody) : PushedReviewSummaryBody :=
  { summaryOfFirstJob with findings := findings }

def unescapedQuery : PushedFindingBody where
  concern := .security
  severity := .high
  filePath := "src/query_43.py"
  lineStart := 4
  lineEnd := 9
  title := "Query text is not escaped"
  status := .posted
  filePath_ne := by decide
  lineStart_pos := by decide
  lineRange := by decide
  title_ne := by decide

def viewerOfEleven : LiveInstallationAssertion :=
  ⟨[(1, [(11, "acme-labs/web")])]⟩

theorem registerInstallation_ofExchange
    (installationId : Nat) (account : String) :
    (HostedAction.registerInstallation installationId account).ofExchange = false := by
  rfl

def installed : List StoreAction :=
  [.pairing (.elsewhere (.registerInstallation 1 "acme-labs")
    (registerInstallation_ofExchange 1 "acme-labs"))]

def equalFindings : PushedReviewSummaryBody :=
  bodyWith [unescapedQuery, unescapedQuery]

def pushedTwice : List StoreAction :=
  installed ++ pushOf equalFindings :: [pushOf equalFindings]

/-- Two equal findings are read back, and pushed a second and a third time. -/
theorem equal_findings_read_back :
    (∃ review, reviewById (recordedSummary (storeAfter sampleHash installed).hosted equalFindings)
        viewerOfEleven firstJobId.text = some review ∧ Mirrors review equalFindings) ∧
    (∀ s₃, savePushedReviewSummary (storeAfter sampleHash pushedTwice).hosted equalFindings =
        .ok s₃ →
      ∃ now, s₃ = (storeAfter sampleHash pushedTwice).hosted.touched firstJobId now) := by
  have hsave : savePushedReviewSummary (storeAfter sampleHash installed).hosted equalFindings =
      .ok (recordedSummary (storeAfter sampleHash installed).hosted equalFindings) :=
    savePushedReviewSummary_of_writable (by decide)
  obtain ⟨hread, hagain⟩ := pushed_summary_read_back sampleHash installed equalFindings _ hsave
  refine ⟨hread rfl (by decide) viewerOfEleven firstJobId.text (Uuid.parse?_text firstJobId)
    (by decide), ?_⟩
  apply hagain
  refine ⟨⟨?_, by decide⟩, trivial⟩
  intro other hother _
  have hbody : (pushOf equalFindings).writesSummary sampleHash
      (storeAfter sampleHash (installed ++ [pushOf equalFindings])) = some equalFindings := by
    decide
  rw [hbody] at hother
  exact (Option.some.inj hother).symm

/-- A finding of another job, under the id of the first finding of a push to the first job. -/
def namesake : Finding where
  id := firstJobId.text ++ ":0"
  reviewJobId := secondJobId.text
  concern := .docs
  severity := .low
  category := "typo"
  filePath := "README.md"
  lineStart := 1
  lineEnd := 1
  title := "Typo"
  rationale := "A letter is missing."
  evidence := ["README.md:1"]
  confidence := .number (1 / 2) (by decide +kernel)
  verified := false
  verificationMethod := .notApplicable
  publicSafe := true
  status := .posted
  texts_ne := by decide
  evidence_ne := by decide
  lines_ordered := by decide

def withoutFindings : PushedReviewSummaryBody :=
  bodyWith []

def pushedAndPurged : List StoreAction :=
  installed ++ pushOf withoutFindings :: [.purgeHostedRepository 1 11]

def withNamesake : List StoreAction :=
  installed ++
    [pushOf { summaryOfFirstJob with reviewJobId := secondJobId },
      .projectReview secondJobId [namesake] []]

/--
A finding whose id another job has is lost, and a job that was purged is inserted again.
-/
theorem pushed_finding_lost_and_purged_job_inserted :
    (findingsOf (storeAfter sampleHash withNamesake).hosted firstJobId = [] ∧
      ∃ s', savePushedReviewSummary (storeAfter sampleHash withNamesake).hosted
          (bodyWith [unescapedQuery]) = .ok s' ∧
        ¬ ∃ review, reviewById s' viewerOfEleven firstJobId.text = some review ∧
          Mirrors review (bodyWith [unescapedQuery])) ∧
    (∃ s₃, savePushedReviewSummary (storeAfter sampleHash pushedAndPurged).hosted
        withoutFindings = .ok s₃ ∧
      ∀ now, s₃ ≠ (storeAfter sampleHash pushedAndPurged).hosted.touched firstJobId now) := by
  refine ⟨⟨by decide, _, savePushedReviewSummary_of_writable (by decide), ?_⟩,
    _, savePushedReviewSummary_of_writable (by decide), ?_⟩
  · rintro ⟨review, hreview, hmirrors⟩
    have hlost : (reviewById
        (recordedSummary (storeAfter sampleHash withNamesake).hosted (bodyWith [unescapedQuery]))
        viewerOfEleven firstJobId.text).map (fun review => review.findings.length) = some 0 := by
      decide +kernel
    rw [hreview, Option.map_some] at hlost
    have hlength := hmirrors.findings.length_eq
    rw [List.length_map, List.length_map, Option.some.inj hlost] at hlength
    exact absurd hlength (by decide)
  · intro now hsame
    have hjobs := congrArg (fun s : HostedState => s.reviewJobs.find? firstJobId) hsame
    simp only [HostedState.touched, HostedState.alterJob_find?] at hjobs
    have hgone : (storeAfter sampleHash pushedAndPurged).hosted.reviewJobs.find? firstJobId =
        none := by
      decide +kernel
    obtain ⟨row, hrow⟩ :=
      recordedSummary_row (storeAfter sampleHash pushedAndPurged).hosted withoutFindings
    have hid : withoutFindings.reviewJobId = firstJobId := rfl
    rw [hid] at hrow
    rw [hrow, hgone] at hjobs
    cases hjobs

end Hosted
end PrReviewer
