import Mathlib.Data.List.Dedup
import Mathlib.Data.Prod.Lex
import Mathlib.Data.String.Basic
import Mathlib.Tactic
import PrReviewer.Lib.Clusters
import PrReviewer.Lib.Selection
import PrReviewer.Lib.Sorting
import PrReviewer.Reviewer.FindingCandidate

/-!
# The merge of specialist findings

reviewer/aggregate_findings.py.  The findings are sorted by a key of texts, clustered by
file, normalised category and overlapping lines, and every cluster becomes one finding.
The case folding of a character is a parameter.
-/

namespace PrReviewer
namespace Reviewer

open Lib

/-- `_SEVERITY_RANK`. -/
def severityRank : Severity → Nat
  | .info => 0
  | .low => 1
  | .medium => 2
  | .high => 3
  | .critical => 4

theorem severityRank_injective :
    Function.Injective severityRank := by
  intro a b h
  cases a <;> cases b <;> first | rfl | cases h

section Aggregation

variable (casefold : CodePoint → List CodePoint)
variable (tables : UnicodeTables)

/-- `normalise_category`. -/
def normaliseCategory (value : String) : PyStr :=
  let folded := (PyStr.ofString value).points.flatMap casefold
  let hyphened := folded.map (fun c => if c = pointOf '_' then pointOf '-' else c)
  PyStr.join (.ofString "-") (PyStr.words tables ⟨hyphened⟩)

/-- `_cluster_overlaps`. -/
def clusterOverlaps (item : FindingCandidate) (cluster : Cluster FindingCandidate) : Bool :=
  let start := cluster.lower FindingCandidate.lineStart
  let stop := cluster.upper FindingCandidate.lineEnd
  decide (item.lineStart ≤ stop ∧ start ≤ item.lineEnd)

/-- `same_key and _cluster_overlaps(item, cluster)`. -/
def joinsCluster (item : FindingCandidate) (cluster : Cluster FindingCandidate) : Bool :=
  let head := cluster.head
  decide (item.filePath = head.filePath ∧
    normaliseCategory casefold tables item.category =
      normaliseCategory casefold tables head.category) &&
  clusterOverlaps item cluster

/-- `f"{n:010d}"`. -/
def paddedText (n : Nat) : Except PyException PyStr := do
  let digits ← intText n
  return ⟨List.replicate (10 - digits.points.length) 0x30 ++ digits.points⟩

/-- `_sort_key`; the tuples are compared as lists of one length. -/
def sortKey (repository headSha : String) (item : FindingCandidate) :
    Except PyException (List PyStr) := do
  let start ← paddedText item.lineStart
  let stop ← paddedText item.lineEnd
  return [.ofString repository, .ofString headSha, .ofString item.filePath,
    normaliseCategory casefold tables item.category, start, stop, .ofString item.title,
    .ofString item.rationale]

/-- The key of `_pick_representative`. -/
def rankKey (item : FindingCandidate) : Nat ×ₗ (String ×ₗ String) :=
  toLex (severityRank item.severity, toLex (item.title, item.rationale))

/-- `_pick_representative`. -/
def pickRepresentative (cluster : Cluster FindingCandidate) : FindingCandidate :=
  maxOn rankKey cluster.head cluster.rest

/-- `sorted({entry for member in cluster for entry in member.evidence})`. -/
def clusterEvidence (cluster : Cluster FindingCandidate) : List PyStr :=
  sortOn id (cluster.members.flatMap FindingCandidate.evidence).dedup

theorem hull_ordered
    (cluster : Cluster FindingCandidate) :
    0 < cluster.lower FindingCandidate.lineStart ∧
      cluster.lower FindingCandidate.lineStart ≤ cluster.upper FindingCandidate.lineEnd := by
  obtain ⟨member, _, hlower⟩ := List.mem_map.mp
    (cluster.lower_spec FindingCandidate.lineStart).1
  have hstart : cluster.lower FindingCandidate.lineStart ≤ cluster.head.lineStart :=
    Cluster.lower_le cluster.head_mem
  have hstop : cluster.head.lineEnd ≤ cluster.upper FindingCandidate.lineEnd :=
    Cluster.le_upper cluster.head_mem
  have hmember := member.lines_ordered
  have hhead := cluster.head.lines_ordered
  omega

theorem mem_clusterEvidence
    {cluster : Cluster FindingCandidate} {text : PyStr} :
    text ∈ clusterEvidence cluster ↔ ∃ member ∈ cluster.members, text ∈ member.evidence := by
  rw [clusterEvidence, (perm_sortOn id _).mem_iff, List.mem_dedup, List.mem_flatMap]

theorem clusterEvidence_ne
    (cluster : Cluster FindingCandidate) :
    clusterEvidence cluster ≠ [] := by
  intro hempty
  obtain ⟨text, htext⟩ := List.exists_mem_of_ne_nil _ cluster.head.evidence_ne
  have hmem := mem_clusterEvidence.mpr ⟨cluster.head, cluster.head_mem, htext⟩
  rw [hempty] at hmem
  cases hmem

/-- The finding of a cluster. -/
def mergeCluster (cluster : Cluster FindingCandidate) : FindingCandidate :=
  { pickRepresentative cluster with
    lineStart := cluster.lower FindingCandidate.lineStart
    lineEnd := cluster.upper FindingCandidate.lineEnd
    evidence := clusterEvidence cluster
    lines_ordered := hull_ordered cluster
    evidence_ne := clusterEvidence_ne cluster }

/-- `aggregate_findings`. -/
def aggregateFindings (repository headSha : String) (findings : List FindingCandidate) :
    Except PyException (List FindingCandidate) := do
  let ordered ← sortByKey (sortKey casefold tables repository headSha) findings
  return (gather (joinsCluster casefold tables) ordered).map mergeCluster

end Aggregation

/-! ## Padded numbers -/

section Padding

/-- The number a text of digits stands for. -/
def digitValue (digits : List CodePoint) (start : Nat) : Nat :=
  digits.foldl (fun n d => 10 * n + (d.val - 0x30)) start

def AreDigits (digits : List CodePoint) : Prop :=
  ∀ d ∈ digits, 0x30 ≤ d.val ∧ d.val ≤ 0x39

theorem digitValue_lt
    {digits digits' : List CodePoint} {start start' : Nat}
    (hdigits : AreDigits digits)
    (hlength : digits.length = digits'.length)
    (hstart : start < start') :
    digitValue digits start < digitValue digits' start' := by
  induction digits generalizing digits' start start' with
  | nil =>
      obtain rfl := List.eq_nil_of_length_eq_zero hlength.symm
      exact hstart
  | cons d digits ih =>
      cases digits' with
      | nil => cases hlength
      | cons d' digits' =>
          obtain ⟨hd, hdigits⟩ := List.forall_mem_cons.mp hdigits
          have hrest : digits.length = digits'.length := by simpa using hlength
          have hnext : 10 * start + (d.val - 0x30) < 10 * start' + (d'.val - 0x30) := by omega
          have hless := ih hdigits hrest hnext
          exact hless

/-- Texts of digits of one length are in the order of their numbers. -/
theorem digitValue_le
    {digits digits' : List CodePoint} (start : Nat)
    (hdigits : AreDigits digits) (hdigits' : AreDigits digits')
    (hlength : digits.length = digits'.length)
    (hle : digits ≤ digits') :
    digitValue digits start ≤ digitValue digits' start := by
  induction digits generalizing digits' start with
  | nil =>
      obtain rfl := List.eq_nil_of_length_eq_zero hlength.symm
      exact le_refl _
  | cons d digits ih =>
      cases digits' with
      | nil => cases hlength
      | cons d' digits' =>
          obtain ⟨hd, htail⟩ := List.forall_mem_cons.mp hdigits
          obtain ⟨hd', htail'⟩ := List.forall_mem_cons.mp hdigits'
          have hrest : digits.length = digits'.length := by simpa using hlength
          rcases cons_le_cons_iff.mp hle with hless | ⟨rfl, htails⟩
          · have hvalue : d.val < d'.val := hless
            have hnext : 10 * start + (d.val - 0x30) < 10 * start + (d'.val - 0x30) := by omega
            exact (digitValue_lt htail hrest hnext).le
          · exact ih _ htail htail' hrest htails

/-- The padded text of a number that has one. -/
def padded (n : Nat) : PyStr where
  points := List.replicate (10 - (decimal n).points.length) 0x30 ++ (decimal n).points

theorem paddedText_eq
    (n : Nat) :
    paddedText n = if n < 10 ^ maxStrDigits then .ok (padded n) else .error .valueError := by
  unfold paddedText
  split
  · next hshort =>
      rw [intText_eq_ok_iff.mpr ⟨hshort, rfl⟩]
      rfl
  · next hlong =>
      rw [intText, if_pos (by rw [Int.natAbs_natCast]; omega)]
      rfl

theorem padded_digits
    (n : Nat) :
    AreDigits (padded n).points := by
  intro d hd
  rcases List.mem_append.mp hd with hd | hd
  · rw [List.eq_of_mem_replicate hd]
    decide
  · exact decimal_digit hd

theorem digitValue_padded
    (n : Nat) :
    digitValue (padded n).points 0 = n := by
  have hzeros : ∀ count, digitValue (List.replicate count 0x30) 0 = 0 := by
    intro count
    induction count with
    | zero => rfl
    | succ count ih => exact ih
  have hcodes : (decimal n).points.map Fin.val = digitCodes n := by
    rw [decimal_points, List.map_map]
    rfl
  have hvalue : digitValue (decimal n).points 0 = n := by
    have hdigits := digitCodes_value n
    rw [← hcodes, List.map_map, List.foldl_map] at hdigits
    exact hdigits
  unfold digitValue at hzeros hvalue ⊢
  rw [padded, List.foldl_append, hzeros, hvalue]

theorem padded_injective :
    Function.Injective padded := by
  intro n m h
  rw [← digitValue_padded n, ← digitValue_padded m, h]

/-- Padded texts of numbers of at most ten digits are in the order of the numbers. -/
theorem le_of_padded_le
    {n m : Nat}
    (hn : n < 10 ^ 10) (hm : m < 10 ^ 10)
    (h : padded n ≤ padded m) :
    n ≤ m := by
  have hlength : ∀ k, k < 10 ^ 10 → (padded k).points.length = 10 := by
    intro k hk
    have hdigits : (decimal k).points.length ≤ 10 := by
      rw [decimal_points, List.length_map]
      exact (Nat.length_toDigits_le_iff (by omega) (by decide)).mpr hk
    rw [padded, List.length_append, List.length_replicate]
    omega
  have hvalues := digitValue_le 0 (padded_digits n) (padded_digits m)
    ((hlength n hn).trans (hlength m hm).symm) h
  rwa [digitValue_padded, digitValue_padded] at hvalues

end Padding

end Reviewer
end PrReviewer
