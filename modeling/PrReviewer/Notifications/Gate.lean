import PrReviewer.Github.Submissions

/-!
# The gate of the findings

notifications/gate.py.  The destination of a finding is computed from the finding, the
policy of the repository, the sensitivity of the file and the verification; the model
does not choose it.

`route_finding` and `_is_public` of `post_review` filter one after the other.  Together
they let the eligible findings through, and no other finding has an influence on what is
submitted.
-/

namespace PrReviewer
namespace Notifications

open Lib
open Github
open Reviewer

inductive NotifyPurpose where
  | securityAlert
  | reviewPing
deriving DecidableEq, Repr

inductive VerificationStatus where
  | passed
  | failed
  | inconclusive
  | notApplicable
deriving DecidableEq, Repr

/-- `VerificationResult`, as far as the gate reads it. -/
structure VerificationResult where
  status : VerificationStatus

/-- `SensitivityScore`, as far as the gate reads it. -/
structure SensitivityScore where
  fixDensity : PyFloat
  callerCount : Int
  structuralFlags : List PyStr

/-- The flags of `ReviewPolicy` the gate reads. -/
structure ReviewPolicy where
  autoPost : Bool
  publicPosting : Bool

structure GateDecision where
  queueForHuman : Bool
  confidentiality : Confidentiality
  notifyPurpose : Option NotifyPurpose
  allowPublicPost : Bool
  reason : String
deriving DecidableEq, Repr

def highFixDensity : Rat := 1 / 4

def highCallerCount : Int := 3

/-- `x >= bound`; a NaN is not. -/
def floatAtLeast (x : PyFloat) (bound : Rat) : Bool :=
  match x with
  | .finite mantissa exponent => decide (bound ≤ (mantissa : Rat) * (2 : Rat) ^ exponent)
  | .infinity negative => !negative
  | .nan => false

/-- `is_high_sensitivity`. -/
def isHighSensitivity (score : SensitivityScore) : Bool :=
  !score.structuralFlags.isEmpty || floatAtLeast score.fixDensity highFixDensity ||
    decide (highCallerCount ≤ score.callerCount)

/-- `private`: a critical or unsafe security finding. -/
def isPrivate (finding : Finding) : Bool :=
  decide (finding.concern = .security) &&
    (!finding.publicSafe || decide (finding.severity = .critical))

/-- `high`: the finding is in a high-sensitivity file. -/
def isHigh (sensitivityByPath : Option (String → Option SensitivityScore)) (finding : Finding) :
    Bool :=
  match sensitivityByPath with
  | none => false
  | some scores =>
      match scores finding.filePath with
      | none => false
      | some score => isHighSensitivity score

/-- `inconclusive`. -/
def isInconclusive (verification : Option VerificationResult) : Bool :=
  match verification with
  | none => false
  | some result => decide (result.status = .failed ∨ result.status = .inconclusive)

/-- `route_finding`. -/
def routeFinding (finding : Finding) (policy : ReviewPolicy)
    (sensitivityByPath : Option (String → Option SensitivityScore))
    (verification : Option VerificationResult) : GateDecision :=
  let hidden := isPrivate finding
  let high := isHigh sensitivityByPath finding
  let inconclusive := isInconclusive verification
  let allowPublicPost :=
    policy.autoPost && policy.publicPosting && finding.verified && finding.publicSafe &&
      !hidden && !high && !inconclusive
  let queueForHuman := !allowPublicPost
  { queueForHuman := queueForHuman
    confidentiality := if hidden then .restricted else .ordinary
    notifyPurpose := if hidden then some .securityAlert else none
    allowPublicPost := allowPublicPost
    reason :=
      if hidden then "unsafe or critical security finding"
      else if !finding.verified || inconclusive then "unverified or inconclusive finding"
      else if high then "high-sensitivity file"
      else if queueForHuman then "policy queues for a person"
      else "public-safe and verified" }

/-- The posting half of a decision. -/
def GateDecision.route (decision : GateDecision) : RouteDecision where
  allowPublicPost := decision.allowPublicPost
  confidentiality := decision.confidentiality

/-! ## The findings that are let through -/

section Eligible

variable (policy : ReviewPolicy)
variable (sensitivityByPath : Option (String → Option SensitivityScore))

/-- What a finding that may be posted satisfies. -/
structure Eligible (finding : Finding) (verification : Option VerificationResult) : Prop where
  verified : finding.verified = true
  publicSafe : finding.publicSafe = true
  notRejected : finding.status ≠ .rejected
  autoPost : policy.autoPost = true
  publicPosting : policy.publicPosting = true
  notCritical : ¬ (finding.concern = .security ∧
    (finding.publicSafe = false ∨ finding.severity = .critical))
  notSensitive : ∀ scores score, sensitivityByPath = some scores →
    scores finding.filePath = some score → isHighSensitivity score = false
  conclusive : ∀ result, verification = some result →
    result.status ≠ .failed ∧ result.status ≠ .inconclusive

theorem isPrivate_eq_false_iff
    {finding : Finding} :
    isPrivate finding = false ↔
      ¬ (finding.concern = .security ∧
        (finding.publicSafe = false ∨ finding.severity = .critical)) := by
  unfold isPrivate
  rw [← Bool.not_eq_true]
  simp only [Bool.and_eq_true, Bool.or_eq_true, decide_eq_true_eq, Bool.not_eq_true']

theorem isHigh_eq_false_iff
    {finding : Finding} :
    isHigh sensitivityByPath finding = false ↔
      ∀ scores score, sensitivityByPath = some scores →
        scores finding.filePath = some score → isHighSensitivity score = false := by
  cases sensitivityByPath with
  | none =>
      refine ⟨?_, fun _ => rfl⟩
      intro _ scores score hscores
      cases hscores
  | some scores =>
      cases hscore : scores finding.filePath with
      | none =>
          refine ⟨?_, fun _ => by simp only [isHigh, hscore]⟩
          intro _ scores' score hscores hsome
          cases hscores
          rw [hscore] at hsome
          cases hsome
      | some score =>
          simp only [isHigh, hscore]
          constructor
          · intro hlow scores' other hscores hsome
            cases hscores
            rw [hscore] at hsome
            cases hsome
            exact hlow
          · intro h
            exact h scores score rfl hscore

theorem isInconclusive_eq_false_iff
    {verification : Option VerificationResult} :
    isInconclusive verification = false ↔
      ∀ result, verification = some result →
        result.status ≠ .failed ∧ result.status ≠ .inconclusive := by
  cases verification with
  | none => simp [isInconclusive]
  | some result => simp [isInconclusive]

variable {policy} {sensitivityByPath}

/-- What the gate and `_is_public` let through together. -/
theorem isPublic_route_iff
    {finding : Finding} {verification : Option VerificationResult} :
    isPublic finding (routeFinding finding policy sensitivityByPath verification).route = true ↔
      Eligible policy sensitivityByPath finding verification := by
  have hpublic : isPublic finding
      (routeFinding finding policy sensitivityByPath verification).route = true ↔
      finding.status ≠ .rejected ∧ isPrivate finding = false ∧ policy.autoPost = true ∧
        policy.publicPosting = true ∧ finding.verified = true ∧ finding.publicSafe = true ∧
        isHigh sensitivityByPath finding = false ∧ isInconclusive verification = false := by
    unfold isPublic routeFinding GateDecision.route
    cases isPrivate finding with
    | true => simp
    | false => simp [and_assoc]
  rw [hpublic, isPrivate_eq_false_iff, isHigh_eq_false_iff, isInconclusive_eq_false_iff]
  constructor
  · rintro ⟨hstatus, hcritical, hauto, hposting, hverified, hsafe, hhigh, hconclusive⟩
    exact ⟨hverified, hsafe, hstatus, hauto, hposting, hcritical, hhigh, hconclusive⟩
  · rintro ⟨hverified, hsafe, hstatus, hauto, hposting, hcritical, hhigh, hconclusive⟩
    exact ⟨hstatus, hcritical, hauto, hposting, hverified, hsafe, hhigh, hconclusive⟩

instance (finding : Finding) (verification : Option VerificationResult) :
    Decidable (Eligible policy sensitivityByPath finding verification) :=
  decidable_of_iff _ isPublic_route_iff

end Eligible

/-! ## What is submitted of the findings -/

section Submitted

variable (policy : ReviewPolicy)
variable (sensitivityByPath : Option (String → Option SensitivityScore))

/-- The findings with their decisions, as `post_review` gets them. -/
def routed (findings : List (Finding × Option VerificationResult)) :
    List (Finding × RouteDecision) :=
  findings.map (fun p =>
    (p.1, (routeFinding p.1 policy sensitivityByPath p.2).route))

/-- The eligible findings, in their order. -/
def eligibleFindings (findings : List (Finding × Option VerificationResult)) : List Finding :=
  (findings.filter (fun p => Eligible policy sensitivityByPath p.1 p.2)).map Prod.fst

/-- `post_review` keeps the eligible findings. -/
theorem publicFindings_routed
    (findings : List (Finding × Option VerificationResult)) :
    publicFindings (routed policy sensitivityByPath findings) =
      eligibleFindings policy sensitivityByPath findings := by
  unfold publicFindings routed eligibleFindings
  rw [List.filter_map, List.map_map]
  have hfilter : (findings.filter
      ((fun p => isPublic p.1 p.2) ∘ fun p =>
        (p.1, (routeFinding p.1 policy sensitivityByPath p.2).route))) =
      findings.filter (fun p => Eligible policy sensitivityByPath p.1 p.2) := by
    apply List.filter_congr
    intro p _
    rw [Bool.eq_iff_iff, decide_eq_true_eq]
    exact isPublic_route_iff
  rw [hfilter]
  rfl

variable {σ : Type} (answer : (op : PostOp) → σ → op.Result × σ)
variable (tables : UnicodeTables) (args : PostArguments) (given : PostCallables)

/-- What `post_review` submits of the findings, after the gate has routed them. -/
def submittedFor (findings : List (Finding × Option VerificationResult)) (s : σ) :
    List ReviewSubmission :=
  submitted (Program.steps answer
    (postReview tables { args with findings := routed policy sensitivityByPath findings } given) s)

/-- The comment is the comment of the finding. -/
def CommentOf (finding : Finding) (comment : ReviewComment) : Prop :=
  comment.path = .ofString finding.filePath ∧ comment.line = finding.lineStart ∧
    comment.side = .right ∧ comment.body = .ofString finding.title

/-- The body and the comments of a submission are of the findings. -/
structure SubmissionOf (headSha key : PyStr) (findings : List Finding)
    (submission : ReviewSubmission) : Prop where
  commit : submission.commitId = headSha
  body : submission.body = reviewBody key (findings.map Finding.title)
  comments : ∀ comment ∈ submission.comments, ∃ finding ∈ findings, CommentOf finding comment

end Submitted

section Comments

variable {tables : UnicodeTables} {patches : List FilePatch}

theorem commentOf_anchor
    (finding : Finding) :
    Program.Returns (fun comment => ∀ c, comment = some c → CommentOf finding c)
      (anchor tables patches finding) := by
  unfold anchor
  cases hpatch : patchOf patches finding with
  | none => exact nofun
  | some patch =>
      have hpath : patch.path = finding.filePath := by
        simpa using List.find?_some hpatch
      refine Program.returns_bind (Program.returns_true _) (fun rendered _ => ?_)
      refine Program.returns_bind (Program.returns_true _) (fun numbers _ => ?_)
      intro comment hcomment
      unfold anchoredAt at hcomment
      split at hcomment
      · cases hcomment
        exact ⟨congrArg PyStr.ofString hpath, rfl, rfl, rfl⟩
      · cases hcomment

/-- Every comment is the comment of one of the findings. -/
theorem commentOf_inlineComments
    (findings : List Finding) :
    Program.Returns (fun comments => ∀ c ∈ comments, ∃ finding ∈ findings, CommentOf finding c)
      (inlineComments tables patches findings) := by
  induction findings with
  | nil => exact nofun
  | cons finding rest ih =>
      refine Program.returns_bind (commentOf_anchor finding) (fun comment hcomment => ?_)
      refine Program.returns_bind ih (fun comments hcomments => ?_)
      intro c hc
      rcases List.mem_append.mp hc with hfirst | hlater
      · exact ⟨finding, List.mem_cons_self .., hcomment c (Option.mem_toList.mp hfirst)⟩
      · obtain ⟨other, hother, hof⟩ := hcomments c hlater
        exact ⟨other, List.mem_cons_of_mem finding hother, hof⟩

end Comments

section Noninterference

variable {policy : ReviewPolicy}
variable {sensitivityByPath : Option (String → Option SensitivityScore)}
variable {σ : Type} {answer : (op : PostOp) → σ → op.Result × σ}
variable {tables : UnicodeTables} {args : PostArguments} {given : PostCallables}

theorem submissionOf_postPublic
    {findings : List Finding} {s : σ} {submission : ReviewSubmission}
    (h : submission ∈ submitted
      (Program.steps answer (postPublic tables args given findings) s)) :
    SubmissionOf args.headSha args.idempotencyKey findings submission := by
  rw [submitted_postPublic] at h
  split at h
  · next inline s' hinline =>
      have hcomments := (commentOf_inlineComments findings).of_ok (congrArg Prod.fst hinline)
      split at h
      · split at h
        · rw [List.mem_singleton] at h
          subst h
          exact ⟨rfl, rfl, hcomments⟩
        · cases h
      · cases h
  · cases h

variable (policy sensitivityByPath answer tables args given)

/--
Two lists with the same eligible findings have the same submissions, under any answers of
the callables; and every submission is of the eligible findings.
-/
theorem private_findings_do_not_influence
    (findings findings' : List (Finding × Option VerificationResult)) (s : σ)
    (hsame : eligibleFindings policy sensitivityByPath findings =
      eligibleFindings policy sensitivityByPath findings') :
    submittedFor policy sensitivityByPath answer tables args given findings s =
        submittedFor policy sensitivityByPath answer tables args given findings' s ∧
      ∀ submission ∈ submittedFor policy sensitivityByPath answer tables args given findings s,
        SubmissionOf args.headSha args.idempotencyKey
          (eligibleFindings policy sensitivityByPath findings) submission := by
  unfold submittedFor
  constructor
  · rw [submitted_postReview, submitted_postReview, publicFindings_routed,
      publicFindings_routed, hsame]
    rfl
  · intro submission hsubmission
    rw [submitted_postReview, publicFindings_routed] at hsubmission
    split at hsubmission
    · cases heligible : eligibleFindings policy sensitivityByPath findings with
      | nil =>
          rw [heligible] at hsubmission
          cases hsubmission
      | cons finding rest =>
          rw [heligible] at hsubmission
          exact submissionOf_postPublic hsubmission
    · cases hsubmission

end Noninterference

section Example

/-- A finding that must not be posted. -/
def criticalFinding : Finding :=
  { returnChanged with
    id := "finding-2"
    concern := .security
    severity := .critical
    title := "SQL injection in auth.ts line 42"
    texts_ne := by simp [returnChanged] }

def postingPolicy : ReviewPolicy where
  autoPost := true
  publicPosting := true

theorem private_findings_do_not_influence_critical :
    submittedFor postingPolicy none (answerWith []) ⟨fun _ => false, fun _ => none⟩
        widgetsArguments allCallables [(criticalFinding, none), (returnChanged, none)] () =
      submittedFor postingPolicy none (answerWith []) ⟨fun _ => false, fun _ => none⟩
        widgetsArguments allCallables [(returnChanged, none)] () := by
  have hsame : eligibleFindings postingPolicy none
        [(criticalFinding, none), (returnChanged, none)] =
      eligibleFindings postingPolicy none [(returnChanged, none)] := by
    rw [← publicFindings_routed, ← publicFindings_routed]
    rfl
  exact (private_findings_do_not_influence postingPolicy none (answerWith []) _
    widgetsArguments allCallables _ _ () hsame).1

end Example

end Notifications
end PrReviewer
