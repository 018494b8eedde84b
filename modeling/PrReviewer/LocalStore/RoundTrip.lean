import PrReviewer.Lib.JsonCharacters
import PrReviewer.LocalStore.Columns

/-!
# Round trips of the local store

What `record_claimed`, `snapshots.record`, `findings.record` and
`pending_acknowledgements.record` write is compared with what the methods that read give
back.

A finding or an acknowledgement is only ever written by its `record`, so that its row is
readable is a field of the store.  A snapshot keeps neither its identity nor its draft flag.
-/

namespace PrReviewer
namespace LocalStore

open Lib
open Github
open Runner (fitsSqlite fitsLocalJobs PendingAcknowledgementReason)

/-! ## Columns read back -/

theorem bindInteger_eq_ok
    {n m : Int} :
    bindInteger n = .ok m ↔ fitsSqlite n = true ∧ n = m := by
  unfold bindInteger
  split
  · next hfits => simp [hfits]
  · next hfits => simp [hfits]

theorem bindText_eq_ok
    {s : PyStr} {text : String} :
    bindText s = .ok text ↔ s.text? = some text := by
  unfold bindText
  split
  · next hs => simp [hs]
  · next hs => simp [hs]

@[simp] theorem bindInteger_natural
    (n : Nat) :
    natural n = .ok n := by
  simp [natural]

/-- A literal is read back from its text. -/
theorem literal_value
    {α : Type} {members : List α} {value : α → String} {a : α}
    (hmem : a ∈ members) (hinj : ∀ b ∈ members, value b = value a → b = a) :
    literal members value (value a) = .ok a := by
  have hfind : members.find? (fun b => value b = value a) = some a := by
    cases hf : members.find? (fun b => value b = value a) with
    | none =>
        have hnone := List.find?_eq_none.mp hf a hmem
        simp at hnone
    | some b =>
        have hvalue := List.find?_some hf
        rw [hinj b (List.mem_of_find?_eq_some hf) (by simpa using hvalue)]
  rw [literal, hfind]

@[simp] theorem textOf_ofString
    (text : String) :
    textOf (.str (.ofString text)) = .ok text := by
  simp [textOf, PyStr.text?_ofString]

@[simp] theorem optionalText_optionalJson
    (s : Option PyStr) :
    optionalText (some (optionalJson s)) = .ok s := by
  cases s with
  | none => rfl
  | some s => rfl

@[simp] theorem optionalString_optionalJson
    (text : Option String) :
    optionalString (some (optionalJson (text.map PyStr.ofString))) = .ok text := by
  cases text with
  | none => rfl
  | some text => simp [optionalJson, optionalString]

theorem literal_gitHubFileStatus
    (status : GitHubFileStatus) :
    literal gitHubFileStatuses GitHubFileStatus.value (GitHubFileStatus.value status) =
      .ok status := by
  apply literal_value
  · cases status <;> decide
  · cases status <;> decide

theorem literal_omissionReason
    (reason : OmissionReason) :
    literal omissionReasons OmissionReason.value reason.value = .ok reason := by
  apply literal_value
  · cases reason <;> decide
  · cases reason <;> decide

@[simp] theorem optionalReason_optionalJson
    (reason : Option OmissionReason) :
    optionalReason (some (optionalJson (reason.map (fun r => .ofString r.value)))) =
      .ok reason := by
  cases reason with
  | none => rfl
  | some reason =>
      simp only [Option.map_some, optionalJson, optionalReason, textOf_ofString, ok_bind,
        literal_omissionReason]
      rfl

/-- A key of a dict with literal keys. -/
theorem getItem?_cons
    (name key : String) (value : PyJson) (items : List (PyStr × PyJson)) :
    getItem? ((.ofString name, value) :: items) key =
      if key = name then some value else getItem? items key := by
  unfold getItem?
  rw [List.lookup_cons]
  by_cases hkey : key = name
  · simp [hkey]
  · have hne : PyStr.ofString key ≠ PyStr.ofString name :=
      fun h => hkey (PyStr.ofString_injective h)
    simp [hkey, beq_eq_false_iff_ne.mpr hne]

/-- `PullRequestFile.model_validate(file.model_dump(mode="json"))`. -/
theorem validateFile_fileJson
    (file : PullRequestFile) :
    validateFile (fileJson file) = .ok file := by
  have hstatus := literal_gitHubFileStatus file.status
  simp [fileJson, validateFile, field, getItem?_cons, ok_bind, hstatus, boolOr, file.path_ne]

theorem validateFile_files
    (files : List PullRequestFile) :
    (files.map fileJson).mapM validateFile = .ok files := by
  induction files with
  | nil => rfl
  | cons file files ih =>
      rw [List.map_cons, List.mapM_cons, validateFile_fileJson, ok_bind, ih]
      rfl

/-- `JobAcknowledgement.model_validate(result.model_dump(mode="json"))`. -/
theorem validateAcknowledgement_acknowledgementJson
    (result : JobAcknowledgement) :
    validateAcknowledgement (acknowledgementJson result) = .ok result := by
  have hstate : literal jobTerminalStates JobTerminalState.text result.terminalState.text =
      .ok result.terminalState := by
    apply literal_value
    · cases result.terminalState <;> decide
    · cases result.terminalState <;> decide
  simp [acknowledgementJson, validateAcknowledgement, field, getItem?_cons, ok_bind, hstate,
    naturalOf, result.localResultHash_ne, acknowledgementFields]

theorem literal_jobColumns
    (finding : Finding) :
    literal concerns Concern.value (Concern.value finding.concern) = .ok finding.concern ∧
      literal severities Severity.value (Severity.value finding.severity) =
        .ok finding.severity ∧
      literal verificationMethods VerificationMethod.value
        (VerificationMethod.value finding.verificationMethod) =
          .ok finding.verificationMethod ∧
      literal findingStatuses FindingStatus.value (FindingStatus.value finding.status) =
        .ok finding.status := by
  refine ⟨literal_value ?_ ?_, literal_value ?_ ?_, literal_value ?_ ?_, literal_value ?_ ?_⟩
  · cases finding.concern <;> decide
  · cases finding.concern <;> decide
  · cases finding.severity <;> decide
  · cases finding.severity <;> decide
  · cases finding.verificationMethod <;> decide
  · cases finding.verificationMethod <;> decide
  · cases finding.status <;> decide
  · cases finding.status <;> decide

/-! ## Rows read back -/

/-- `_envelope_from_local_job(_row_to_local_job(row))` of the row of an envelope. -/
theorem envelope_localJobRow
    {e : JobEnvelope} {now : Nat} {row : LocalJobRow}
    (hrow : localJobRow e now = .ok row) :
    (rowToLocalJob row >>= envelopeFromLocalJob) = .ok e := by
  obtain ⟨installationId, hinstallation, hrow⟩ := bind_eq_ok hrow
  obtain ⟨repositoryId, hrepository, hrow⟩ := bind_eq_ok hrow
  obtain ⟨number, hnumber, hrow⟩ := bind_eq_ok hrow
  obtain ⟨maxTokens, htokens, hrow⟩ := bind_eq_ok hrow
  obtain ⟨-, rfl⟩ := bindInteger_eq_ok.mp hinstallation
  obtain ⟨-, rfl⟩ := bindInteger_eq_ok.mp hrepository
  obtain ⟨-, rfl⟩ := bindInteger_eq_ok.mp hnumber
  obtain ⟨-, rfl⟩ := bindInteger_eq_ok.mp htokens
  cases hrow
  simp [rowToLocalJob, envelopeFromLocalJob, ok_bind, uuidOf, Uuid.parse?_text,
    e.pullRequestNumber_pos, e.baseSha_ne, e.headSha_ne, e.policyVersion_ne, e.leaseToken_ne]

theorem localJobRow_jobId
    {e : JobEnvelope} {now : Nat} {row : LocalJobRow}
    (hrow : localJobRow e now = .ok row) :
    row.jobId = e.jobId.text := by
  obtain ⟨_, _, hrow⟩ := bind_eq_ok hrow
  obtain ⟨_, _, hrow⟩ := bind_eq_ok hrow
  obtain ⟨_, _, hrow⟩ := bind_eq_ok hrow
  obtain ⟨_, _, hrow⟩ := bind_eq_ok hrow
  cases hrow
  rfl

/-- The row of an envelope can be bound when its integers have 64 bits. -/
theorem localJobRow_eq_ok
    (e : JobEnvelope) (now : Nat) :
    (∃ row, localJobRow e now = .ok row) ↔ fitsLocalJobs e = true := by
  constructor
  · rintro ⟨row, hrow⟩
    obtain ⟨installationId, hinstallation, hrow⟩ := bind_eq_ok hrow
    obtain ⟨repositoryId, hrepository, hrow⟩ := bind_eq_ok hrow
    obtain ⟨number, hnumber, hrow⟩ := bind_eq_ok hrow
    obtain ⟨maxTokens, htokens, hrow⟩ := bind_eq_ok hrow
    have hi := (bindInteger_eq_ok.mp hinstallation).1
    have hr := (bindInteger_eq_ok.mp hrepository).1
    have hn := (bindInteger_eq_ok.mp hnumber).1
    have ht := (bindInteger_eq_ok.mp htokens).1
    simp [fitsLocalJobs, hi, hr, hn, ht]
  · intro hfits
    simp only [fitsLocalJobs, decide_eq_true_eq] at hfits
    obtain ⟨hi, hr, hn, ht⟩ := hfits
    exact ⟨_, by simp only [localJobRow, bindInteger, hi, hr, hn, ht, if_true, ok_bind]; rfl⟩

section Json

variable {json : JsonModule}

/-- A value that is read back by JSON is read back from its column. -/
theorem loads_dumps
    {value : PyJson} {points : PyStr} {text : String}
    (hreads : JsonReads ⟨true, true⟩ json.floats value)
    (hpoints : json.dumps value = .ok points) (htext : bindText points = .ok text) :
    json.loads text = .ok value := by
  unfold JsonModule.dumps at hpoints
  split at hpoints
  · next written hwritten =>
      cases hpoints
      have hsame := PyStr.eq_ofString (bindText_eq_ok.mp htext)
      rw [JsonModule.loads, ← hsame, jsonLoads_jsonDumps hreads hwritten]
  · cases hpoints

/-- A value JSON reads back and can write has a column. -/
theorem dumps_total
    {value : PyJson}
    (hreads : JsonReads ⟨true, true⟩ json.floats value) (hprintable : Printable value)
    (hdepth : jsonDepth value ≤ json.frames) :
    ∃ points text, json.dumps value = .ok points ∧ bindText points = .ok text := by
  have htotal : ∃ text, jsonDumps ⟨true, true⟩ json.floats json.frames value = .ok text :=
    jsonDumps_total json.frames value hprintable hdepth
  obtain ⟨written, hwritten⟩ := htotal
  have hplain : ∀ c ∈ written, IsPlain c := fun c hc => isPlain_jsonDumps rfl hreads hwritten hc
  obtain ⟨text, htext⟩ := text?_of_isPlain hplain
  exact ⟨⟨written⟩, text, by rw [JsonModule.dumps, hwritten], bindText_eq_ok.mpr htext⟩

/-- What the columns of a snapshot keep of it. -/
def KeepsSnapshot (s : PullRequestSnapshot) : Prop :=
  s.identity = none ∧ s.draft = false ∧ fitsSqlite s.number = true ∧
    s.title.text?.isSome = true ∧ s.body.text?.isSome = true

theorem fileJson_depth
    (files : List PullRequestFile) :
    jsonDepthItems (files.map fileJson) ≤ 1 := by
  induction files with
  | nil => simp [jsonDepthItems]
  | cons file files ih =>
      have hfile : jsonDepth (fileJson file) ≤ 1 := by
        have hoptional : ∀ s, jsonDepth (optionalJson s) = 0 := by
          intro s
          cases s with
          | none => rfl
          | some s => rfl
        simp [fileJson, jsonDepth, jsonDepthMembers, hoptional]
      rw [List.map_cons, jsonDepthItems]
      omega

theorem fileJson_printable
    (files : List PullRequestFile) :
    PrintableItems (files.map fileJson) := by
  induction files with
  | nil => trivial
  | cons file files ih =>
      have hoptional : ∀ s, Printable (optionalJson s) := by
        intro s
        cases s with
        | none => trivial
        | some s => trivial
      exact ⟨by simp [fileJson, Printable, PrintableMembers, hoptional], ih⟩

/-- The snapshot a row gives back. -/
theorem rowToSnapshot_localSnapshotRow
    {jobId : String} {s : PullRequestSnapshot} {now : Nat} {row : LocalSnapshotRow}
    (hreads : JsonReads ⟨true, true⟩ json.floats (.list (s.files.map fileJson)))
    (hrow : localSnapshotRow json jobId s now = .ok row) :
    rowToSnapshot json row = .ok { s with identity := none, draft := false } := by
  obtain ⟨points, hpoints, hrow⟩ := bind_eq_ok hrow
  obtain ⟨number, hnumber, hrow⟩ := bind_eq_ok hrow
  obtain ⟨title, htitle, hrow⟩ := bind_eq_ok hrow
  obtain ⟨body, hbody, hrow⟩ := bind_eq_ok hrow
  obtain ⟨filesJson, hfiles, hrow⟩ := bind_eq_ok hrow
  obtain ⟨-, rfl⟩ := bindInteger_eq_ok.mp hnumber
  cases hrow
  have hloads := loads_dumps hreads hpoints hfiles
  have htitle' := PyStr.eq_ofString (bindText_eq_ok.mp htitle)
  have hbody' := PyStr.eq_ofString (bindText_eq_ok.mp hbody)
  simp only [rowToSnapshot, hloads, itemsOf, ok_bind, validateFile_files]
  simp [snapshotOf, ok_bind, s.repoOwner_ne, s.repoName_ne, s.number_pos, s.baseSha_ne,
    s.headSha_ne, ← htitle', ← hbody']

theorem localSnapshotRow_jobId
    {jobId : String} {s : PullRequestSnapshot} {now : Nat} {row : LocalSnapshotRow}
    (hrow : localSnapshotRow json jobId s now = .ok row) :
    row.jobId = jobId := by
  obtain ⟨_, _, hrow⟩ := bind_eq_ok hrow
  obtain ⟨_, _, hrow⟩ := bind_eq_ok hrow
  obtain ⟨_, _, hrow⟩ := bind_eq_ok hrow
  obtain ⟨_, _, hrow⟩ := bind_eq_ok hrow
  obtain ⟨_, _, hrow⟩ := bind_eq_ok hrow
  cases hrow
  rfl

/-- The row of a snapshot can be bound when its number and its texts can. -/
theorem localSnapshotRow_eq_ok
    (jobId : String) {s : PullRequestSnapshot} (now : Nat)
    (hreads : JsonReads ⟨true, true⟩ json.floats (.list (s.files.map fileJson)))
    (hframes : 2 ≤ json.frames) :
    (∃ row, localSnapshotRow json jobId s now = .ok row) ↔
      fitsSqlite s.number = true ∧ s.title.text?.isSome = true ∧ s.body.text?.isSome = true := by
  constructor
  · rintro ⟨row, hrow⟩
    obtain ⟨points, hpoints, hrow⟩ := bind_eq_ok hrow
    obtain ⟨number, hnumber, hrow⟩ := bind_eq_ok hrow
    obtain ⟨title, htitle, hrow⟩ := bind_eq_ok hrow
    obtain ⟨body, hbody, hrow⟩ := bind_eq_ok hrow
    refine ⟨(bindInteger_eq_ok.mp hnumber).1, ?_, ?_⟩
    · rw [bindText_eq_ok.mp htitle, Option.isSome_some]
    · rw [bindText_eq_ok.mp hbody, Option.isSome_some]
  · rintro ⟨hnumber, htitle, hbody⟩
    obtain ⟨title, htitle⟩ := Option.isSome_iff_exists.mp htitle
    obtain ⟨body, hbody⟩ := Option.isSome_iff_exists.mp hbody
    have hdepth := fileJson_depth s.files
    obtain ⟨points, text, hpoints, htext⟩ := dumps_total hreads (fileJson_printable s.files)
      (by rw [jsonDepth]; omega)
    have hnumber := bindInteger_eq_ok.mpr ⟨hnumber, rfl⟩
    have htitle := bindText_eq_ok.mpr htitle
    have hbody := bindText_eq_ok.mpr hbody
    exact ⟨_, by
      simp only [localSnapshotRow, hpoints, hnumber, htitle, hbody, htext, ok_bind]
      rfl⟩

/-- The JSON value of a finding's evidence. -/
def evidenceJson (finding : Finding) : PyJson :=
  .list (finding.evidence.map (fun item => .str (.ofString item)))

theorem evidence_limits
    (json : JsonModule) (texts : List String) :
    JsonReadsItems ⟨true, true⟩ json.floats
        (texts.map (fun item => .str (.ofString item))) ∧
      PrintableItems (texts.map (fun item => .str (.ofString item))) ∧
      jsonDepthItems (texts.map (fun item => .str (.ofString item))) = 0 ∧
      (texts.map (fun item => PyJson.str (.ofString item))).mapM textOf = .ok texts := by
  induction texts with
  | nil => exact ⟨trivial, trivial, rfl, rfl⟩
  | cons text texts ih =>
      obtain ⟨hreads, hprintable, hdepth, htexts⟩ := ih
      refine ⟨⟨stringReads_ofString _ text, hreads⟩, ⟨trivial, hprintable⟩, ?_, ?_⟩
      · simp [jsonDepthItems, jsonDepth, hdepth]
      · rw [List.map_cons, List.mapM_cons, textOf_ofString, ok_bind, htexts]
        rfl

theorem bindReal_eq_ok
    {confidence : Confidence} {value : Rat} :
    bindReal confidence = .ok value ↔ ∃ unit, confidence = .number value unit := by
  cases confidence with
  | nan => simp [bindReal]
  | number value' unit =>
      simp only [bindReal, Except.ok.injEq, Confidence.number.injEq]
      constructor
      · rintro rfl
        exact ⟨unit, rfl⟩
      · rintro ⟨_, rfl⟩
        rfl

/-- `_row_to_finding` of the row of a finding. -/
theorem rowToFinding_localFindingRow
    {finding : Finding} {now : Nat} {row : LocalFindingRow}
    (hrow : localFindingRow json finding now = .ok row) :
    rowToFinding json row = .ok finding := by
  obtain ⟨points, hpoints, hrow⟩ := bind_eq_ok hrow
  obtain ⟨lineStart, hstart, hrow⟩ := bind_eq_ok hrow
  obtain ⟨lineEnd, hend, hrow⟩ := bind_eq_ok hrow
  obtain ⟨text, htext, hrow⟩ := bind_eq_ok hrow
  obtain ⟨confidence, hconfidence, hrow⟩ := bind_eq_ok hrow
  obtain ⟨-, rfl⟩ := bindInteger_eq_ok.mp hstart
  obtain ⟨-, rfl⟩ := bindInteger_eq_ok.mp hend
  obtain ⟨hunit, hconfidence⟩ := bindReal_eq_ok.mp hconfidence
  cases hrow
  have hreads : JsonReads ⟨true, true⟩ json.floats (evidenceJson finding) :=
    (evidence_limits json finding.evidence).1
  have htexts := (evidence_limits json finding.evidence).2.2.2
  have hloads := loads_dumps hreads hpoints htext
  obtain ⟨hconcern, hseverity, hmethod, hstatus⟩ := literal_jobColumns finding
  have hbool : ∀ b : Bool, decide (intOfBool b ≠ 0) = b := by decide
  simp only [rowToFinding, hloads, evidenceJson, itemsOf, ok_bind, htexts, hconcern, hseverity,
    hmethod, hstatus, bindInteger_natural, hbool]
  rw [dif_pos ⟨finding.texts_ne, finding.evidence_ne, finding.lines_ordered, hunit⟩]
  change Except.ok { finding with confidence := .number confidence hunit } = _
  rw [← hconfidence]

theorem localFindingRow_ids
    {finding : Finding} {now : Nat} {row : LocalFindingRow}
    (hrow : localFindingRow json finding now = .ok row) :
    row.id = finding.id ∧ row.jobId = finding.reviewJobId := by
  obtain ⟨_, _, hrow⟩ := bind_eq_ok hrow
  obtain ⟨_, _, hrow⟩ := bind_eq_ok hrow
  obtain ⟨_, _, hrow⟩ := bind_eq_ok hrow
  obtain ⟨_, _, hrow⟩ := bind_eq_ok hrow
  obtain ⟨_, _, hrow⟩ := bind_eq_ok hrow
  cases hrow
  exact ⟨rfl, rfl⟩

theorem rowToFinding_id
    {row : LocalFindingRow} {finding : Finding}
    (hread : rowToFinding json row = .ok finding) :
    finding.id = row.id := by
  obtain ⟨_, _, hread⟩ := bind_eq_ok hread
  obtain ⟨_, _, hread⟩ := bind_eq_ok hread
  obtain ⟨_, _, hread⟩ := bind_eq_ok hread
  obtain ⟨_, _, hread⟩ := bind_eq_ok hread
  obtain ⟨_, _, hread⟩ := bind_eq_ok hread
  obtain ⟨_, _, hread⟩ := bind_eq_ok hread
  obtain ⟨_, _, hread⟩ := bind_eq_ok hread
  obtain ⟨_, _, hread⟩ := bind_eq_ok hread
  obtain ⟨_, _, hread⟩ := bind_eq_ok hread
  split at hread
  · cases hread
    rfl
  · cases hread

theorem rowToPending_id
    {row : LocalPendingRow} {entry : PendingAcknowledgement}
    (hread : rowToPending json row = .ok entry) :
    entry.id = row.id := by
  obtain ⟨_, _, hread⟩ := bind_eq_ok hread
  obtain ⟨_, _, hread⟩ := bind_eq_ok hread
  cases hread
  rfl

/-- The row of a finding can be bound when its lines can and its confidence is a number. -/
theorem localFindingRow_eq_ok
    (finding : Finding) (now : Nat)
    (hframes : 1 ≤ json.frames) :
    (∃ row, localFindingRow json finding now = .ok row) ↔
      fitsSqlite finding.lineStart = true ∧ fitsSqlite finding.lineEnd = true ∧
        finding.confidence ≠ .nan := by
  constructor
  · rintro ⟨row, hrow⟩
    obtain ⟨points, hpoints, hrow⟩ := bind_eq_ok hrow
    obtain ⟨lineStart, hstart, hrow⟩ := bind_eq_ok hrow
    obtain ⟨lineEnd, hend, hrow⟩ := bind_eq_ok hrow
    obtain ⟨text, htext, hrow⟩ := bind_eq_ok hrow
    obtain ⟨confidence, hconfidence, hrow⟩ := bind_eq_ok hrow
    obtain ⟨hunit, hconfidence⟩ := bindReal_eq_ok.mp hconfidence
    refine ⟨(bindInteger_eq_ok.mp hstart).1, (bindInteger_eq_ok.mp hend).1, ?_⟩
    rw [hconfidence]
    rintro ⟨⟩
  · rintro ⟨hstart, hend, hnumber⟩
    obtain ⟨confidence, hconfidence⟩ : ∃ value, bindReal finding.confidence = .ok value := by
      cases h : finding.confidence with
      | nan => exact absurd h hnumber
      | number value unit => exact ⟨value, rfl⟩
    obtain ⟨hreads, hprintable, hdepth, -⟩ := evidence_limits json finding.evidence
    have hlimit : jsonDepth (evidenceJson finding) ≤ json.frames := by
      rw [evidenceJson, jsonDepth, hdepth]
      exact hframes
    have hvalue : JsonReads ⟨true, true⟩ json.floats (evidenceJson finding) := hreads
    obtain ⟨points, text, hpoints, htext⟩ := dumps_total hvalue hprintable hlimit
    rw [evidenceJson] at hpoints
    have hstart := bindInteger_eq_ok.mpr ⟨hstart, rfl⟩
    have hend := bindInteger_eq_ok.mpr ⟨hend, rfl⟩
    exact ⟨_, by
      simp only [localFindingRow, hpoints, hstart, hend, htext, hconfidence, ok_bind]
      rfl⟩

theorem acknowledgementJson_reads
    (json : JsonModule) (result : JobAcknowledgement) :
    JsonReads ⟨true, true⟩ json.floats (acknowledgementJson result) := by
  have hclass : JsonReads ⟨true, true⟩ json.floats
      (optionalJson (result.errorClass.map PyStr.ofString)) := by
    cases result.errorClass with
    | none => trivial
    | some text => exact stringReads_ofString _ text
  refine ⟨?_, ?_⟩
  · have hkeys : (acknowledgementFields.map PyStr.ofString).Nodup :=
      List.Nodup.map PyStr.ofString_injective (by decide)
    exact hkeys
  · simp [JsonReadsMembers, JsonReads, stringReads_ofString, hclass]

/-- `_row_to_pending` reads the column of a result. -/
theorem loads_resultColumn
    {result : JobAcknowledgement} {text : String}
    (htext : resultColumn json result = .ok text) :
    (json.loads text >>= validateAcknowledgement) = .ok result := by
  obtain ⟨points, hpoints, htext⟩ := bind_eq_ok htext
  rw [loads_dumps (acknowledgementJson_reads json result) hpoints htext, ok_bind,
    validateAcknowledgement_acknowledgementJson]

/-- A result whose integers have a text has a column. -/
theorem resultColumn_total
    {result : JobAcknowledgement}
    (hprintable : Printable (acknowledgementJson result)) (hframes : 1 ≤ json.frames) :
    ∃ text, resultColumn json result = .ok text := by
  have hdepth : jsonDepth (acknowledgementJson result) ≤ 1 := by
    cases hclass : result.errorClass with
    | none => simp [acknowledgementJson, hclass, optionalJson, jsonDepth, jsonDepthMembers]
    | some text => simp [acknowledgementJson, hclass, optionalJson, jsonDepth, jsonDepthMembers]
  obtain ⟨points, text, hpoints, htext⟩ := dumps_total (acknowledgementJson_reads json result)
    hprintable (hdepth.trans hframes)
  exact ⟨text, by rw [resultColumn, hpoints, ok_bind, htext]⟩

/-! ## The store -/

/-- The tables with what is written and read here. -/
structure LocalRecords (json : JsonModule) where
  jobs : Table LocalJobRow.jobId
  snapshots : Table LocalSnapshotRow.jobId
  findings : Table LocalFindingRow.id
  pending : Table LocalPendingRow.id
  nextPendingId : Nat
  findings_read : ∀ row ∈ findings.rows, ∃ finding, rowToFinding json row = .ok finding
  pending_read : ∀ row ∈ pending.rows, ∃ entry, rowToPending json row = .ok entry
  pending_lt : ∀ row ∈ pending.rows, row.id < nextPendingId

/-- The store of a new file. -/
def LocalRecords.empty (json : JsonModule) : LocalRecords json where
  jobs := .empty
  snapshots := .empty
  findings := .empty
  pending := .empty
  nextPendingId := 1
  findings_read := nofun
  pending_read := nofun
  pending_lt := nofun

namespace LocalRecords

variable (store : LocalRecords json)

/-- `jobs.record_claimed`: `insert or ignore`. -/
def recordClaimed (job : JobEnvelope) (now : Nat) : Stored (LocalRecords json) := do
  let row ← localJobRow job now
  return { store with jobs := (store.jobs.insert? row).getD store.jobs }

/-- `jobs.get`. -/
def getJob (jobId : String) : Stored (Option LocalJob) :=
  match store.jobs.find? jobId with
  | none => .ok none
  | some row => do
      let job ← rowToLocalJob row
      return some job

/-- `snapshots.record`: `insert or replace`. -/
def recordSnapshot (jobId : String) (snapshot : PullRequestSnapshot) (now : Nat) :
    Stored (LocalRecords json) := do
  let row ← localSnapshotRow json jobId snapshot now
  return { store with snapshots := store.snapshots.put row }

/-- `snapshots.get`. -/
def getSnapshot (jobId : String) : Stored (Option PullRequestSnapshot) :=
  match store.snapshots.find? jobId with
  | none => .ok none
  | some row => do
      let snapshot ← rowToSnapshot json row
      return some snapshot

/-- `findings.record`: `insert or replace`. -/
def recordFinding (finding : Finding) (now : Nat) : Stored (LocalRecords json) :=
  match hrow : localFindingRow json finding now with
  | .error error => .error error
  | .ok row => .ok
      { store with
        findings := store.findings.put row
        findings_read := by
          intro row' hrow'
          rcases Table.mem_put hrow' with rfl | hold
          · exact ⟨finding, rowToFinding_localFindingRow hrow⟩
          · exact store.findings_read row' hold }

/-- The rows of a job in the order of `created_at`. -/
def findingRows (jobId : String) : List LocalFindingRow :=
  (store.findings.rows.filter (fun row => row.jobId = jobId)).insertionSort
    (fun row row' => row.createdAt ≤ row'.createdAt)

/-- `findings.list_for_job`. -/
def listForJob (jobId : String) : Stored (List Finding) :=
  (store.findingRows jobId).mapM (rowToFinding json)

/-- `pending_acknowledgements.record`; what it returns is the id of the row. -/
def recordPending
    (jobId leaseToken : String) (result : JobAcknowledgement)
    (reason : PendingAcknowledgementReason) (now : Nat) : Stored (Nat × LocalRecords json) :=
  match htext : resultColumn json result with
  | .error error => .error error
  | .ok text =>
      let row : LocalPendingRow :=
        { id := store.nextPendingId
          jobId := jobId
          leaseToken := leaseToken
          resultJson := text
          reason := reason
          attempts := 0
          createdAt := now }
      .ok (store.nextPendingId,
        { store with
          pending := store.pending.append row
            (fun row' hrow' => Nat.ne_of_lt (store.pending_lt row' hrow'))
          nextPendingId := store.nextPendingId + 1
          pending_read := by
            intro row' hrow'
            rw [Table.rows_append, List.mem_append, List.mem_singleton] at hrow'
            rcases hrow' with hold | rfl
            · exact store.pending_read row' hold
            · obtain ⟨value, hvalue, hresult⟩ := bind_eq_ok (loads_resultColumn htext)
              exact ⟨_, by rw [rowToPending, hvalue, ok_bind, hresult]; rfl⟩
          pending_lt := by
            intro row' hrow'
            rw [Table.rows_append, List.mem_append, List.mem_singleton] at hrow'
            rcases hrow' with hold | rfl
            · exact Nat.lt_succ_of_lt (store.pending_lt row' hold)
            · exact Nat.lt_succ_self _ })

/-- `pending_acknowledgements.list_pending`. -/
def listPending : Stored (List PendingAcknowledgement) :=
  (store.pending.rows.insertionSort (fun row row' => row.createdAt ≤ row'.createdAt)).mapM
    (rowToPending json)

/-! ## What was recorded is read back -/

/-- The envelope that is recorded is the one the daemon recovers. -/
def JobReturns (e : JobEnvelope) (now : Nat) : Prop :=
  ∃ store' job, store.recordClaimed e now = .ok store' ∧
    store'.getJob e.jobId.text = .ok (some job) ∧ envelopeFromLocalJob job = .ok e

def SnapshotReturns (jobId : String) (s : PullRequestSnapshot) (now : Nat) : Prop :=
  ∃ store', store.recordSnapshot jobId s now = .ok store' ∧
    store'.getSnapshot jobId = .ok (some s)

/-- Under its id the finding is listed once, and no other is. -/
def FindingReturns (finding : Finding) (now : Nat) : Prop :=
  ∃ store' findings, store.recordFinding finding now = .ok store' ∧
    store'.listForJob finding.reviewJobId = .ok findings ∧
    findings.filter (fun f => f.id = finding.id) = [finding]

def AcknowledgementReturns
    (jobId leaseToken : String) (result : JobAcknowledgement)
    (reason : PendingAcknowledgementReason) (now : Nat) : Prop :=
  ∃ id store' entries, store.recordPending jobId leaseToken result reason now = .ok (id, store') ∧
    store'.listPending = .ok entries ∧
    (entries.filter (fun entry => entry.id = id)).map (·.result) = [result]

variable {store}

theorem jobReturns_iff
    {e : JobEnvelope} {now : Nat}
    (hfree : store.jobs.find? e.jobId.text = none) :
    store.JobReturns e now ↔ fitsLocalJobs e = true := by
  rw [← localJobRow_eq_ok e now]
  constructor
  · rintro ⟨store', job, hrecord, -, -⟩
    obtain ⟨row, hrow, -⟩ := bind_eq_ok hrecord
    exact ⟨row, hrow⟩
  · rintro ⟨row, hrow⟩
    have henvelope := envelope_localJobRow hrow
    obtain ⟨job, hjob, hjobEnvelope⟩ := bind_eq_ok henvelope
    have hid : row.jobId = e.jobId.text := localJobRow_jobId hrow
    obtain ⟨jobs, hjobs⟩ : ∃ jobs, store.jobs.insert? row = some jobs := by
      rw [← Option.ne_none_iff_exists', ne_eq, Table.insert?_eq_none_iff, hid, hfree]
      simp
    have hfind := Table.find?_insert? hjobs e.jobId.text
    rw [if_pos hid.symm] at hfind
    refine ⟨{ store with jobs := jobs }, job, ?_, ?_, hjobEnvelope⟩
    · rw [recordClaimed, hrow, ok_bind, hjobs]
      rfl
    · rw [getJob]
      simp only [hfind, hjob, ok_bind]
      rfl

/-- A snapshot is read back without its identity and its draft flag. -/
theorem getSnapshot_recordSnapshot
    {jobId : String} {s : PullRequestSnapshot} {now : Nat} {store' : LocalRecords json}
    (hreads : JsonReads ⟨true, true⟩ json.floats (.list (s.files.map fileJson)))
    (hrecord : store.recordSnapshot jobId s now = .ok store') :
    store'.getSnapshot jobId = .ok (some { s with identity := none, draft := false }) := by
  obtain ⟨row, hrow, hrecord⟩ := bind_eq_ok hrecord
  cases hrecord
  have hid : row.jobId = jobId := localSnapshotRow_jobId hrow
  rw [getSnapshot]
  simp only [Table.find?_put, hid, if_true, rowToSnapshot_localSnapshotRow hreads hrow, ok_bind]
  rfl

theorem snapshotReturns_iff
    {jobId : String} {s : PullRequestSnapshot} {now : Nat}
    (hreads : JsonReads ⟨true, true⟩ json.floats (.list (s.files.map fileJson)))
    (hframes : 2 ≤ json.frames) :
    store.SnapshotReturns jobId s now ↔ KeepsSnapshot s := by
  constructor
  · rintro ⟨store', hrecord, hget⟩
    have hread := getSnapshot_recordSnapshot hreads hrecord
    rw [hget] at hread
    have hsame : s = { s with identity := none, draft := false } :=
      Option.some.inj (Except.ok.inj hread)
    obtain ⟨row, hrow, -⟩ := bind_eq_ok hrecord
    have hbound := (localSnapshotRow_eq_ok jobId now hreads hframes).mp ⟨row, hrow⟩
    exact ⟨congrArg (·.identity) hsame, congrArg (·.draft) hsame, hbound⟩
  · rintro ⟨hidentity, hdraft, hbound⟩
    obtain ⟨row, hrow⟩ := (localSnapshotRow_eq_ok jobId now hreads hframes).mpr hbound
    have hrecord : ∃ store', store.recordSnapshot jobId s now = .ok store' :=
      ⟨_, by rw [recordSnapshot, hrow]; rfl⟩
    obtain ⟨store', hrecord⟩ := hrecord
    refine ⟨store', hrecord, ?_⟩
    rw [getSnapshot_recordSnapshot hreads hrecord]
    cases s
    cases hidentity
    cases hdraft
    rfl

/-- The rows a reader makes something of, the one of a key among them. -/
theorem listed_once
    {ρ α κ : Type} [DecidableEq κ] {rows : List ρ} {read : ρ → Stored α} {key : ρ → κ}
    {id : α → κ} {row : ρ} {a : α}
    (hnodup : (rows.map key).Nodup) (htotal : ∀ row ∈ rows, ∃ b, read row = .ok b)
    (hkey : ∀ row b, read row = .ok b → id b = key row)
    (hrow : row ∈ rows) (hread : read row = .ok a) :
    ∃ items, rows.mapM read = .ok items ∧ items.filter (fun b => id b = key row) = [a] := by
  obtain ⟨items, hitems⟩ := mapM_total htotal
  have hselected := mapM_filter (p := fun row' => decide (key row' = key row))
    (q := fun b => decide (id b = key row)) (fun row' b hb => by rw [hkey row' b hb]) hitems
  rw [Table.filter_key hnodup hrow, List.mapM_cons, hread] at hselected
  exact ⟨items, hitems, (Except.ok.inj hselected).symm⟩

theorem findingReturns_iff
    {finding : Finding} {now : Nat}
    (hframes : 1 ≤ json.frames) :
    store.FindingReturns finding now ↔
      fitsSqlite finding.lineStart = true ∧ fitsSqlite finding.lineEnd = true ∧
        finding.confidence ≠ .nan := by
  rw [← localFindingRow_eq_ok finding now hframes]
  constructor
  · rintro ⟨store', findings, hrecord, -, -⟩
    unfold recordFinding at hrecord
    split at hrecord
    · cases hrecord
    · next row hrow => exact ⟨row, hrow⟩
  · rintro ⟨row, hrow⟩
    have hrecord : ∃ store', store.recordFinding finding now = .ok store' ∧
        store'.findings = store.findings.put row := by
      unfold recordFinding
      split
      · next error herror =>
          rw [hrow] at herror
          cases herror
      · next row' hrow' =>
          rw [hrow] at hrow'
          cases hrow'
          exact ⟨_, rfl, rfl⟩
    obtain ⟨store', hrecord, hfindings⟩ := hrecord
    obtain ⟨hid, hjob⟩ := localFindingRow_ids hrow
    have hfind : store'.findings.find? row.id = some row := by
      rw [hfindings, Table.find?_put, if_pos rfl]
    have hperm := List.perm_insertionSort
      (fun row row' : LocalFindingRow => row.createdAt ≤ row'.createdAt)
      (store'.findings.rows.filter (fun row => row.jobId = finding.reviewJobId))
    have hmem : row ∈ store'.findingRows finding.reviewJobId := by
      rw [findingRows, hperm.mem_iff, List.mem_filter, decide_eq_true_eq]
      exact ⟨Table.mem_of_find? hfind, hjob⟩
    have hnodup : ((store'.findingRows finding.reviewJobId).map LocalFindingRow.id).Nodup := by
      rw [findingRows, (hperm.map _).nodup_iff]
      exact (List.Sublist.map _ List.filter_sublist).nodup store'.findings.nodup
    have htotal : ∀ row ∈ store'.findingRows finding.reviewJobId,
        ∃ f, rowToFinding json row = .ok f := by
      intro row hrow
      rw [findingRows, hperm.mem_iff, List.mem_filter] at hrow
      exact store'.findings_read row hrow.1
    obtain ⟨findings, hlist, hfilter⟩ := listed_once hnodup htotal
      (fun _ _ => rowToFinding_id) hmem (rowToFinding_localFindingRow hrow)
    rw [hid] at hfilter
    exact ⟨store', findings, hrecord, hlist, hfilter⟩

theorem acknowledgementReturns
    {jobId leaseToken : String} {result : JobAcknowledgement}
    {reason : PendingAcknowledgementReason} {now : Nat}
    (hprintable : Printable (acknowledgementJson result)) (hframes : 1 ≤ json.frames) :
    store.AcknowledgementReturns jobId leaseToken result reason now := by
  obtain ⟨text, htext⟩ := resultColumn_total hprintable hframes
  obtain ⟨value, hvalue, hresult⟩ := bind_eq_ok (loads_resultColumn htext)
  have hrecord : ∃ store' row, store.recordPending jobId leaseToken result reason now =
      .ok (row.id, store') ∧ row ∈ store'.pending.rows ∧ row.resultJson = text := by
    unfold recordPending
    split
    · next error herror =>
        rw [htext] at herror
        cases herror
    · next text' htext' =>
        rw [htext] at htext'
        cases htext'
        let row : LocalPendingRow :=
          ⟨store.nextPendingId, jobId, leaseToken, text, reason, 0, now⟩
        have hrow : row ∈ store.pending.rows ++ [row] := List.mem_concat_self
        exact ⟨_, row, rfl, hrow, rfl⟩
  obtain ⟨store', row, hrecord, hmem, hjson⟩ := hrecord
  have hperm := List.perm_insertionSort
    (fun row row' : LocalPendingRow => row.createdAt ≤ row'.createdAt) store'.pending.rows
  have hread : ∃ entry, rowToPending json row = .ok entry ∧ entry.result = result :=
    ⟨_, by rw [rowToPending, hjson, hvalue, ok_bind, hresult]; rfl, rfl⟩
  obtain ⟨entry, hread, hentry⟩ := hread
  obtain ⟨entries, hlist, hfilter⟩ := listed_once
    ((hperm.map _).nodup_iff.mpr store'.pending.nodup)
    (fun row hrow => store'.pending_read row (hperm.mem_iff.mp hrow))
    (fun _ _ => rowToPending_id) (hperm.mem_iff.mpr hmem) hread
  refine ⟨row.id, store', entries, hrecord, hlist, ?_⟩
  rw [hfilter, List.map_singleton, hentry]

end LocalRecords

/--
What comes back of what is recorded, from every store: an envelope with integers of 64 bits,
a snapshot without identity that is no draft, a finding with lines of 64 bits and a number
as its confidence, every acknowledgement.
-/
theorem local_records_round_trip
    (json : JsonModule) (store : LocalRecords json) (now : Nat) (hframes : 2 ≤ json.frames) :
    (∀ e : JobEnvelope, store.jobs.find? e.jobId.text = none →
      (store.JobReturns e now ↔ fitsLocalJobs e = true)) ∧
    (∀ jobId s, JsonReads ⟨true, true⟩ json.floats (.list (s.files.map fileJson)) →
      (store.SnapshotReturns jobId s now ↔ KeepsSnapshot s)) ∧
    (∀ finding, store.FindingReturns finding now ↔
      fitsSqlite finding.lineStart = true ∧ fitsSqlite finding.lineEnd = true ∧
        finding.confidence ≠ .nan) ∧
    (∀ jobId leaseToken result reason, Printable (acknowledgementJson result) →
      store.AcknowledgementReturns jobId leaseToken result reason now) := by
  refine ⟨?_, ?_, ?_, ?_⟩
  · intro e hfree
    exact LocalRecords.jobReturns_iff hfree
  · intro jobId s hreads
    exact LocalRecords.snapshotReturns_iff hreads hframes
  · intro finding
    exact LocalRecords.findingReturns_iff (by omega)
  · intro jobId leaseToken result reason hprintable
    exact LocalRecords.acknowledgementReturns hprintable (by omega)

end Json

/-- json with a thousand frames; no float is written. -/
def deepJson : JsonModule where
  floats := ⟨fun _ _ => [], fun _ => .nan⟩
  frames := 1000

def smallEnvelope : JobEnvelope where
  jobId := ⟨"cccccccc-0000-4000-8000-00000000000c", by decide⟩
  installationId := 1
  repositoryId := 2
  pullRequestNumber := 42
  baseSha := "base-42"
  headSha := "head-42"
  policyVersion := "policy-42"
  budget := ⟨100, ⟨"0.50"⟩⟩
  traceId := ⟨"dddddddd-0000-4000-8000-00000000000c", by decide⟩
  leaseToken := "lease-42"
  pullRequestNumber_pos := by decide
  baseSha_ne := by decide
  headSha_ne := by decide
  policyVersion_ne := by decide
  leaseToken_ne := by decide

/-- A snapshot with one file, of a pull request that is a draft or not. -/
def smallSnapshot (draft : Bool) : PullRequestSnapshot where
  repoOwner := "owner-42"
  repoName := "name-42"
  number := 42
  baseSha := "base-42"
  headSha := "head-42"
  title := .ofString "title"
  body := .ofString ""
  files :=
    [{ path := "module_42.py"
       status := .modified
       patch := some (.ofString "@@ -1 +1 @@")
       previousPath := none
       truncated := false
       binary := false
       omissionReason := none
       path_ne := by decide }]
  identity := none
  draft := draft
  repoOwner_ne := by decide
  repoName_ne := by decide
  number_pos := by decide
  baseSha_ne := by decide
  headSha_ne := by decide

def smallAcknowledgement : JobAcknowledgement where
  terminalState := .failed
  errorClass := some "timeout"
  inputTokens := 10
  outputTokens := 20
  costUsd := ⟨"0.01"⟩
  latencyMs := 30
  localResultHash := "hash-42"
  localResultHash_ne := by decide

theorem smallSnapshot_reads
    (draft : Bool) :
    JsonReads ⟨true, true⟩ deepJson.floats (.list ((smallSnapshot draft).files.map fileJson)) := by
  have hkeys : (["path", "status", "patch", "previous_path", "truncated", "binary",
      "omission_reason"].map PyStr.ofString).Nodup :=
    List.Nodup.map PyStr.ofString_injective (by decide)
  refine ⟨⟨hkeys, ?_⟩, trivial⟩
  simp [JsonReadsMembers, JsonReads, stringReads_ofString, optionalJson]

theorem local_records_round_trip_empty :
    (LocalRecords.empty deepJson).JobReturns smallEnvelope 0 ∧
      (LocalRecords.empty deepJson).SnapshotReturns "job" (smallSnapshot false) 0 ∧
      (LocalRecords.empty deepJson).AcknowledgementReturns "job" "token" smallAcknowledgement
        .networkUnreachable 0 := by
  obtain ⟨hjob, hsnapshot, -, hresult⟩ :=
    local_records_round_trip deepJson (.empty deepJson) 0 (by decide)
  refine ⟨(hjob smallEnvelope rfl).mpr (by decide), ?_, ?_⟩
  · have hkeeps : KeepsSnapshot (smallSnapshot false) :=
      ⟨rfl, rfl, by decide, by simp [smallSnapshot, PyStr.text?_ofString],
        by simp [smallSnapshot, PyStr.text?_ofString]⟩
    exact (hsnapshot "job" (smallSnapshot false) (smallSnapshot_reads false)).mpr hkeeps
  · apply hresult
    have hlimit : ∀ n : Nat, n < 10 ^ 2 → n < 10 ^ maxStrDigits :=
      fun n hn => Nat.lt_of_lt_of_le hn (Nat.pow_le_pow_right (by decide) (by decide))
    simp [acknowledgementJson, smallAcknowledgement, Printable, PrintableMembers, optionalJson,
      hlimit]

/-- A draft is not read back as one. -/
theorem snapshot_of_draft_read_back :
    ¬ (LocalRecords.empty deepJson).SnapshotReturns "job" (smallSnapshot true) 0 := by
  intro hreturns
  have hkeeps := (LocalRecords.snapshotReturns_iff (smallSnapshot_reads true)
    (by decide)).mp hreturns
  exact absurd hkeeps.2.1 (by decide)

end LocalStore
end PrReviewer
