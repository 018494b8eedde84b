import Mathlib.Data.List.Basic
import Mathlib.Data.Rat.Defs
import Mathlib.Tactic

/-!
# Contracts shared by the hosted control plane and the runner

The vocabulary of contracts/runner.py and contracts/finding.py: identifiers, the
job envelope a claim hands out, the acknowledgement a runner sends back, and the
answers of the job protocol.  The field constraints of the pydantic models
(positive numbers, non-empty strings, ordered line ranges) are fields of the
structures, so that only values those models accept can be built.

Moments are microseconds since the epoch.  A decimal is carried by the text
Python's `str` gives it.
-/

namespace PrReviewer

/-- A lower-case hexadecimal digit. -/
def isLowerHex (c : Char) : Bool :=
  ('0' ≤ c ∧ c ≤ '9') ∨ ('a' ≤ c ∧ c ≤ 'f')

/-- The 8-4-4-4-12 text that `str` of a uuid produces. -/
def isCanonicalUuid (text : String) : Bool :=
  text.toList.length == 36 &&
    text.toList.zipIdx.all (fun p =>
      if p.2 = 8 ∨ p.2 = 13 ∨ p.2 = 18 ∨ p.2 = 23 then p.1 == '-' else isLowerHex p.1)

/-- A uuid, carried by its canonical text: what every SQL parameter receives. -/
structure Uuid where
  text : String
  canonical : isCanonicalUuid text = true
deriving DecidableEq, Repr

theorem Uuid.text_injective :
    Function.Injective Uuid.text := by
  rintro ⟨text, _⟩ ⟨text', _⟩ h
  cases h
  rfl

/-- Python's `str.replace(pat, "")` on characters; the number is how many are still to skip. -/
def removeText (pat : List Char) : Nat → List Char → List Char
  | _, [] => []
  | 0, c :: cs =>
      if pat.isPrefixOf (c :: cs) then
        removeText pat (pat.length - 1) cs
      else
        c :: removeText pat 0 cs
  | n + 1, _ :: cs => removeText pat n cs

/-- Python's `str.strip(chars)` on characters. -/
def stripChars (chars : List Char) (cs : List Char) : List Char :=
  ((cs.dropWhile (· ∈ chars)).reverse.dropWhile (· ∈ chars)).reverse

/--
`uuid.UUID(text)`: thirty-two hexadecimal digits, with hyphens, braces and a urn
prefix optional; `none` is its ValueError.
-/
def Uuid.parse? (text : String) : Option Uuid :=
  let bare :=
    stripChars ['{', '}']
      (removeText "uuid:".toList 0 (removeText "urn:".toList 0 text.toList))
  let digits := (bare.filter (· ≠ '-')).map Char.toLower
  let grouped :=
    digits.take 8 ++ ['-'] ++ (digits.drop 8).take 4 ++ ['-'] ++
      (digits.drop 12).take 4 ++ ['-'] ++ (digits.drop 16).take 4 ++ ['-'] ++
      digits.drop 20
  if h : isCanonicalUuid (String.ofList grouped) = true then
    some { text := String.ofList grouped, canonical := h }
  else
    none

/-- The five groups of a canonical text. -/
theorem canonical_groups
    {text : String}
    (h : isCanonicalUuid text = true) :
    ∃ a b c d e : List Char,
      text.toList = a ++ '-' :: (b ++ '-' :: (c ++ '-' :: (d ++ '-' :: e))) ∧
        a.length = 8 ∧ b.length = 4 ∧ c.length = 4 ∧ d.length = 4 ∧ e.length = 12 ∧
        ∀ digit ∈ a ++ b ++ c ++ d ++ e, isLowerHex digit = true := by
  simp only [isCanonicalUuid, Bool.and_eq_true, beq_iff_eq, List.all_eq_true] at h
  obtain ⟨hlength, hall⟩ := h
  generalize text.toList = chars at hlength hall
  have hat : ∀ i (hi : i < chars.length),
      if i = 8 ∨ i = 13 ∨ i = 18 ∨ i = 23 then chars[i] = '-' else isLowerHex chars[i] = true := by
    intro i hi
    have hmem := hall (chars[i], i) (by simp [List.mem_zipIdx_iff_getElem?])
    split
    · next hyphen => simpa [hyphen] using hmem
    · next hyphen => simpa [hyphen] using hmem
  have hhyphen : ∀ i, i = 8 ∨ i = 13 ∨ i = 18 ∨ i = 23 →
      chars.drop i = '-' :: chars.drop (i + 1) := by
    intro i hi
    have hlt : i < chars.length := by omega
    have hchar := hat i hlt
    rw [if_pos hi] at hchar
    rw [List.drop_eq_getElem_cons hlt, hchar]
  have hgroup : ∀ i n, (∀ j, j < n → ¬ (i + j = 8 ∨ i + j = 13 ∨ i + j = 18 ∨ i + j = 23)) →
      ∀ digit ∈ (chars.drop i).take n, isLowerHex digit = true := by
    intro i n hplain digit hdigit
    obtain ⟨j, hj, rfl⟩ := List.getElem_of_mem hdigit
    have hj' : j < n ∧ i + j < chars.length := by
      simp only [List.length_take, List.length_drop] at hj
      omega
    have hchar := hat (i + j) hj'.2
    rw [if_neg (hplain j hj'.1)] at hchar
    simpa using hchar
  have hsplit : ∀ i n, chars.drop i = (chars.drop i).take n ++ chars.drop (i + n) := by
    intro i n
    rw [← List.drop_drop, List.take_append_drop]
  refine ⟨chars.take 8, (chars.drop 9).take 4, (chars.drop 14).take 4, (chars.drop 19).take 4,
    chars.drop 24, ?_, ?_, ?_, ?_, ?_, ?_, ?_⟩
  · rw [← hhyphen 23 (by omega), ← hsplit 19 4, ← hhyphen 18 (by omega), ← hsplit 14 4,
      ← hhyphen 13 (by omega), ← hsplit 9 4, ← hhyphen 8 (by omega), List.take_append_drop]
  · simp [hlength]
  · simp [hlength]
  · simp [hlength]
  · simp [hlength]
  · simp [hlength]
  · intro digit hdigit
    simp only [List.mem_append] at hdigit
    rcases hdigit with (((ha | hb) | hc) | hd) | he
    · exact hgroup 0 8 (by omega) digit (by simpa using ha)
    · exact hgroup 9 4 (by omega) digit hb
    · exact hgroup 14 4 (by omega) digit hc
    · exact hgroup 19 4 (by omega) digit hd
    · refine hgroup 24 12 (by omega) digit ?_
      rw [List.take_of_length_le (by simp [hlength])]
      exact he

theorem removeText_of_not_mem
    {first : Char} {pat cs : List Char}
    (h : first ∉ cs) :
    removeText (first :: pat) 0 cs = cs := by
  induction cs with
  | nil => rfl
  | cons c cs ih =>
      rw [List.mem_cons, not_or] at h
      have hlead : (first :: pat).isPrefixOf (c :: cs) = false := by
        simp [List.isPrefixOf, h.1]
      rw [removeText, hlead, ih h.2]
      rfl

theorem stripChars_eq_self
    {chars cs : List Char}
    (h : ∀ c ∈ cs, c ∉ chars) :
    stripChars chars cs = cs := by
  have hdrop : ∀ l : List Char, (∀ c ∈ l, c ∉ chars) → l.dropWhile (· ∈ chars) = l := by
    intro l hl
    cases l with
    | nil => rfl
    | cons c l => rw [List.dropWhile_cons_of_neg (by simpa using hl c List.mem_cons_self)]
  rw [stripChars, hdrop cs h, hdrop _ (fun c hc => h c (List.mem_reverse.mp hc)),
    List.reverse_reverse]

theorem isLowerHex_plain
    {c : Char}
    (h : isLowerHex c = true) :
    c.toLower = c ∧ c ∉ ['-', 'u', '{', '}'] := by
  have hbounds : (48 ≤ c.toNat ∧ c.toNat ≤ 57) ∨ (97 ≤ c.toNat ∧ c.toNat ≤ 102) := by
    simpa [isLowerHex, Char.le_def, UInt32.le_iff_toNat_le] using h
  constructor
  · unfold Char.toLower
    rw [dif_neg]
    rintro ⟨hlow, hhigh⟩
    have hlow' : 65 ≤ c.toNat := hlow
    have hhigh' : c.toNat ≤ 90 := hhigh
    omega
  · intro hmem
    simp only [List.mem_cons, List.not_mem_nil, or_false] at hmem
    rcases hmem with rfl | rfl | rfl | rfl
    · simp at hbounds
    · simp at hbounds
    · simp at hbounds
    · simp at hbounds

/-- `uuid.UUID(str(u)) == u`. -/
theorem Uuid.parse?_text
    (u : Uuid) :
    Uuid.parse? u.text = some u := by
  obtain ⟨a, b, c, d, e, htext, ha, hb, hc, hd, he, hhex⟩ := canonical_groups u.canonical
  have hplain : ∀ x ∈ u.text.toList, x ∉ ['u', '{', '}'] := by
    intro x hx
    rw [htext] at hx
    simp only [List.mem_append, List.mem_cons] at hx
    by_cases hyphen : x = '-'
    · subst hyphen
      decide
    · have hdigit := (isLowerHex_plain (hhex x (by simp [List.mem_append]; tauto))).2
      simp at hdigit ⊢
      tauto
  have hbare : stripChars ['{', '}']
      (removeText "uuid:".toList 0 (removeText "urn:".toList 0 u.text.toList)) =
        u.text.toList := by
    have hu : 'u' ∉ u.text.toList := fun hmem => hplain _ hmem (by simp)
    rw [show "urn:".toList = 'u' :: ['r', 'n', ':'] by decide,
      show "uuid:".toList = 'u' :: ['u', 'i', 'd', ':'] by decide,
      removeText_of_not_mem hu, removeText_of_not_mem hu]
    apply stripChars_eq_self
    intro x hx hmem
    exact hplain x hx (List.mem_cons_of_mem _ hmem)
  have hgroup : ∀ l : List Char, (∀ x ∈ l, isLowerHex x = true) →
      l.filter (· ≠ '-') = l ∧ l.map Char.toLower = l := by
    intro l hl
    constructor
    · rw [List.filter_eq_self]
      intro x hx
      have hne := (isLowerHex_plain (hl x hx)).2
      simp at hne
      simp [hne]
    · rw [List.map_congr_left (fun x hx => (isLowerHex_plain (hl x hx)).1), List.map_id']
  have hof : ∀ l, l ∈ [a, b, c, d, e] → l.filter (· ≠ '-') = l ∧ l.map Char.toLower = l := by
    intro l hl
    apply hgroup
    intro x hx
    apply hhex
    simp only [List.mem_cons, List.not_mem_nil, or_false] at hl
    simp only [List.mem_append]
    rcases hl with rfl | rfl | rfl | rfl | rfl <;> simp [hx]
  have hdigits : (u.text.toList.filter (· ≠ '-')).map Char.toLower =
      a ++ (b ++ (c ++ (d ++ e))) := by
    have hdash : ∀ l : List Char, ('-' :: l).filter (· ≠ '-') = l.filter (· ≠ '-') :=
      fun l => List.filter_cons_of_neg (by simp)
    rw [htext]
    simp only [List.filter_append, List.map_append, hdash, hof, List.mem_cons, true_or, or_true]
  have hgrouped : String.ofList (a ++ ['-'] ++ b ++ ['-'] ++ c ++ ['-'] ++ d ++ ['-'] ++ e) =
      u.text := by
    rw [← String.toList_inj, String.toList_ofList, htext]
    simp
  have h8 : (a ++ (b ++ (c ++ (d ++ e)))).drop 8 = b ++ (c ++ (d ++ e)) := List.drop_left' ha
  have h12 : (a ++ (b ++ (c ++ (d ++ e)))).drop 12 = c ++ (d ++ e) := by
    rw [← List.append_assoc]
    exact List.drop_left' (by simp [ha, hb])
  have h16 : (a ++ (b ++ (c ++ (d ++ e)))).drop 16 = d ++ e := by
    rw [← List.append_assoc, ← List.append_assoc]
    exact List.drop_left' (by simp [ha, hb, hc])
  have h20 : (a ++ (b ++ (c ++ (d ++ e)))).drop 20 = e := by
    rw [← List.append_assoc, ← List.append_assoc, ← List.append_assoc]
    exact List.drop_left' (by simp [ha, hb, hc, hd])
  unfold Uuid.parse?
  simp only [hbare, hdigits, h8, h12, h16, h20, List.take_left' ha, List.take_left' hb,
    List.take_left' hc, List.take_left' hd, hgrouped]
  rw [dif_pos u.canonical]

/-- A decimal amount. -/
structure Decimal where
  text : String
deriving DecidableEq, Repr

/-- `RunnerMode`. -/
inductive RunnerMode where
  | analysisOnly
  | full
deriving DecidableEq, Repr

structure RunnerCapabilities where
  mode : RunnerMode
  dockerAvailable : Bool
  retrievalAvailable : Bool
  verificationAvailable : Bool
  platform : String
  version : String
deriving DecidableEq, Repr

structure RunnerRef where
  runnerId : Uuid
  deviceName : String
deriving DecidableEq, Repr

/-- `AuthorizationDenialReason`. -/
inductive AuthorizationDenialReason where
  | unknownInstallation
  | revokedInstallation
  | unknownRepository
  | unknownRunner
  | revokedRunner
  | runnerNotAssignedToRepository
deriving DecidableEq, Repr

/-- `RunnerAuthDenialReason`. -/
inductive RunnerAuthDenialReason where
  | unknownCredential
  | revokedRunner
deriving DecidableEq, Repr

/-- The reason as it stands in the response body. -/
def RunnerAuthDenialReason.text : RunnerAuthDenialReason → String
  | .unknownCredential => "unknown_credential"
  | .revokedRunner => "revoked_runner"

structure AuthenticatedRunner where
  runnerId : Uuid
  deviceName : String
  mode : RunnerMode
deriving DecidableEq, Repr

structure RepositoryAuthorization where
  installationId : Int
  githubRepositoryId : Int
  repositoryId : Uuid
  runnerId : Uuid
deriving DecidableEq, Repr

/-- `JobTerminalState`. -/
inductive JobTerminalState where
  | succeeded
  | failed
deriving DecidableEq, Repr

structure JobBudget where
  maxTokens : Nat
  maxCostUsd : Decimal
deriving DecidableEq, Repr

/-- Typed identifiers and policy for one leased review. -/
structure JobEnvelope where
  jobId : Uuid
  installationId : Int
  repositoryId : Int
  pullRequestNumber : Int
  baseSha : String
  headSha : String
  policyVersion : String
  budget : JobBudget
  traceId : Uuid
  leaseToken : String
  pullRequestNumber_pos : 0 < pullRequestNumber
  baseSha_ne : baseSha ≠ ""
  headSha_ne : headSha ≠ ""
  policyVersion_ne : policyVersion ≠ ""
  leaseToken_ne : leaseToken ≠ ""
deriving DecidableEq, Repr

/-- `LeaseState.status`. -/
inductive LeaseState where
  | active
  | invalidOrExpired
  | cancelled
deriving DecidableEq, Repr

/-- The status as it stands in the response body. -/
def LeaseState.text : LeaseState → String
  | .active => "active"
  | .invalidOrExpired => "invalid_or_expired"
  | .cancelled => "cancelled"

/-- What a runner reports when it has finished a job. -/
structure JobAcknowledgement where
  terminalState : JobTerminalState
  errorClass : Option String
  inputTokens : Nat
  outputTokens : Nat
  costUsd : Decimal
  latencyMs : Nat
  localResultHash : String
  localResultHash_ne : localResultHash ≠ ""
deriving DecidableEq, Repr

inductive Concern where
  | security
  | correctness
  | tests
  | docs
  | maintainability
deriving DecidableEq, Repr

/-- The texts of the `Literal` types. -/
def Concern.value : Concern → String
  | .security => "security"
  | .correctness => "correctness"
  | .tests => "tests"
  | .docs => "docs"
  | .maintainability => "maintainability"

inductive Severity where
  | critical
  | high
  | medium
  | low
  | info
deriving DecidableEq, Repr

def Severity.value : Severity → String
  | .critical => "critical"
  | .high => "high"
  | .medium => "medium"
  | .low => "low"
  | .info => "info"

inductive VerificationMethod where
  | sandbox
  | static
  | notApplicable
  | failed
deriving DecidableEq, Repr

def VerificationMethod.value : VerificationMethod → String
  | .sandbox => "sandbox"
  | .static => "static"
  | .notApplicable => "not_applicable"
  | .failed => "failed"

inductive FindingStatus where
  | draft
  | queuedForHuman
  | posted
  | rejected
  | disputed
deriving DecidableEq, Repr

def FindingStatus.value : FindingStatus → String
  | .draft => "draft"
  | .queuedForHuman => "queued_for_human"
  | .posted => "posted"
  | .rejected => "rejected"
  | .disputed => "disputed"

/-- A float that is neither below zero nor above one; `nan` is neither. -/
inductive Confidence where
  | nan
  | number (value : Rat) (unit : 0 ≤ value ∧ value ≤ 1)
deriving DecidableEq, Repr

/-- `Finding`. -/
structure Finding where
  id : String
  reviewJobId : String
  concern : Concern
  severity : Severity
  category : String
  filePath : String
  lineStart : Nat
  lineEnd : Nat
  title : String
  rationale : String
  evidence : List String
  confidence : Confidence
  verified : Bool
  verificationMethod : VerificationMethod
  publicSafe : Bool
  status : FindingStatus
  texts_ne : "" ∉ [id, reviewJobId, category, filePath, title, rationale]
  evidence_ne : evidence ≠ []
  lines_ordered : 0 < lineStart ∧ lineStart ≤ lineEnd
deriving DecidableEq, Repr

/-- `ReviewJobErrorClass` of contracts/errors.py. -/
inductive ReviewJobErrorClass where
  | workerCrashed
  | shutdownRequested
deriving DecidableEq, Repr

/-- The member's value, as it is written to `review_jobs.last_error`. -/
def ReviewJobErrorClass.value : ReviewJobErrorClass → String
  | .workerCrashed => "worker_crashed"
  | .shutdownRequested => "shutdown_requested"

end PrReviewer
