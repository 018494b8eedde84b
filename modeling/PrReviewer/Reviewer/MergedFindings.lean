import Mathlib.Data.List.Pairwise
import Mathlib.Tactic
import PrReviewer.Reviewer.AggregateFindings

/-!
# The merged findings

What `aggregate_findings` returns for findings whose line numbers have at most ten digits:
the key of texts is then in the order of the numbers, so no later finding lies between two
clusters.  The merged findings of a file and category are apart, each one is the hull of
the findings it covers, and merging them again changes nothing.
-/

namespace PrReviewer
namespace Reviewer

open Lib

section Keys

variable (casefold : CodePoint → List CodePoint)
variable (tables : UnicodeTables)
variable (repository headSha : String)

/-- The file and the normalised category of a finding. -/
def mergeGroup (item : FindingCandidate) : String × PyStr :=
  (item.filePath, normaliseCategory casefold tables item.category)

/-- The key of `_sort_key` where the line numbers can be written out. -/
def orderKey (item : FindingCandidate) : List PyStr :=
  [.ofString repository, .ofString headSha, .ofString item.filePath,
    normaliseCategory casefold tables item.category, padded item.lineStart, padded item.lineEnd,
    .ofString item.title, .ofString item.rationale]

/-- The clusters of findings in the order of their keys. -/
def clustersOf (findings : List FindingCandidate) : List (Cluster FindingCandidate) :=
  gather (overlaps (mergeGroup casefold tables) FindingCandidate.lineStart
    FindingCandidate.lineEnd) (sortOn (orderKey casefold tables repository headSha) findings)

theorem joinsCluster_eq :
    joinsCluster casefold tables =
      overlaps (mergeGroup casefold tables) FindingCandidate.lineStart
        FindingCandidate.lineEnd := by
  funext item cluster
  rw [Bool.eq_iff_iff]
  simp [joinsCluster, clusterOverlaps, overlaps, mergeGroup, and_assoc]

variable {casefold tables repository headSha}

theorem sortKey_eq_ok
    {item : FindingCandidate}
    (hlines : item.lineEnd < 10 ^ maxStrDigits) :
    sortKey casefold tables repository headSha item =
      .ok (orderKey casefold tables repository headSha item) := by
  have hordered := item.lines_ordered.2
  rw [sortKey, paddedText_eq, paddedText_eq, if_pos (by omega), if_pos hlines]
  rfl

theorem aggregateFindings_eq
    {findings : List FindingCandidate}
    (hlines : ∀ finding ∈ findings, finding.lineEnd < 10 ^ maxStrDigits) :
    aggregateFindings casefold tables repository headSha findings =
      .ok ((clustersOf casefold tables repository headSha findings).map mergeCluster) := by
  have hkeys : ∀ finding ∈ findings, sortKey casefold tables repository headSha finding =
      .ok (orderKey casefold tables repository headSha finding) :=
    fun finding hfinding => sortKey_eq_ok (hlines finding hfinding)
  rw [aggregateFindings, sortByKey_eq hkeys, ok_bind, joinsCluster_eq]
  rfl

/-- What the key compares first. -/
theorem orderKey_le_iff
    {a b : FindingCandidate} :
    orderKey casefold tables repository headSha a ≤
        orderKey casefold tables repository headSha b ↔
      PyStr.ofString a.filePath < .ofString b.filePath ∨
      PyStr.ofString a.filePath = .ofString b.filePath ∧
        (normaliseCategory casefold tables a.category <
            normaliseCategory casefold tables b.category ∨
          normaliseCategory casefold tables a.category =
            normaliseCategory casefold tables b.category ∧
          (padded a.lineStart < padded b.lineStart ∨
            padded a.lineStart = padded b.lineStart ∧
              [padded a.lineEnd, .ofString a.title, .ofString a.rationale] ≤
                [padded b.lineEnd, .ofString b.title, .ofString b.rationale])) := by
  simp only [orderKey, cons_le_cons_iff, lt_irrefl, false_or, true_and]

theorem mergeGroup_eq_iff
    {a b : FindingCandidate} :
    mergeGroup casefold tables a = mergeGroup casefold tables b ↔
      PyStr.ofString a.filePath = .ofString b.filePath ∧
        normaliseCategory casefold tables a.category =
          normaliseCategory casefold tables b.category := by
  rw [mergeGroup, mergeGroup, Prod.mk.injEq, PyStr.ofString_injective.eq_iff]

/-- Findings of a group are in the order of their first lines. -/
theorem lineStart_le_of_key
    {a b : FindingCandidate}
    (ha : a.lineEnd < 10 ^ 10) (hb : b.lineEnd < 10 ^ 10)
    (hkey : orderKey casefold tables repository headSha a ≤
      orderKey casefold tables repository headSha b)
    (hgroup : mergeGroup casefold tables a = mergeGroup casefold tables b) :
    a.lineStart ≤ b.lineStart := by
  have hstart := a.lines_ordered.2
  have hstart' := b.lines_ordered.2
  obtain ⟨hpath, hcategory⟩ := mergeGroup_eq_iff.mp hgroup
  rw [orderKey_le_iff, hpath, hcategory] at hkey
  simp only [lt_irrefl, false_or, true_and] at hkey
  refine le_of_padded_le (by omega) (by omega) ?_
  rcases hkey with hless | ⟨heq, _⟩
  · exact hless.le
  · exact heq.le

end Keys

/-! ## One cluster -/

section OneCluster

variable {casefold : CodePoint → List CodePoint}
variable {tables : UnicodeTables}
variable {cluster : Cluster FindingCandidate}

theorem pickRepresentative_spec
    (cluster : Cluster FindingCandidate) :
    ∃ before after, cluster.members = before ++ pickRepresentative cluster :: after ∧
      (∀ member ∈ before, rankKey member < rankKey (pickRepresentative cluster)) ∧
      ∀ member ∈ after, rankKey member ≤ rankKey (pickRepresentative cluster) :=
  maxOn_spec cluster.head cluster.rest

theorem pickRepresentative_mem
    (cluster : Cluster FindingCandidate) :
    pickRepresentative cluster ∈ cluster.members := by
  obtain ⟨before, after, hsplit, _⟩ := pickRepresentative_spec cluster
  simp [hsplit]

theorem rankKey_le_pick
    {member : FindingCandidate}
    (hmember : member ∈ cluster.members) :
    rankKey member ≤ rankKey (pickRepresentative cluster) := by
  obtain ⟨before, after, hsplit, hbefore, hafter⟩ := pickRepresentative_spec cluster
  rw [hsplit] at hmember
  rcases List.mem_append.mp hmember with hmember | hmember
  · exact (hbefore member hmember).le
  · rcases List.mem_cons.mp hmember with rfl | hmember
    · exact le_refl _
    · exact hafter member hmember

theorem severityRank_le_pick
    {member : FindingCandidate}
    (hmember : member ∈ cluster.members) :
    severityRank member.severity ≤ severityRank (mergeCluster cluster).severity :=
  Prod.Lex.monotone_fst _ _ (rankKey_le_pick hmember)

theorem mergeGroup_mergeCluster
    (hgrouped : ∀ member ∈ cluster.members,
      mergeGroup casefold tables member = mergeGroup casefold tables cluster.head) :
    mergeGroup casefold tables (mergeCluster cluster) =
      mergeGroup casefold tables cluster.head :=
  hgrouped (pickRepresentative cluster) (pickRepresentative_mem cluster)

theorem clusterEvidence_sorted
    (cluster : Cluster FindingCandidate) :
    (clusterEvidence cluster).Pairwise (· < ·) := by
  have hnodup : (clusterEvidence cluster).Nodup :=
    (perm_sortOn id _).nodup_iff.mpr (List.nodup_dedup _)
  have hsorted : (clusterEvidence cluster).Pairwise (· ≤ ·) :=
    pairwise_sortOn id (cluster.members.flatMap FindingCandidate.evidence).dedup
  exact (hsorted.and hnodup).imp (fun ⟨hle, hne⟩ => lt_of_le_of_ne hle hne)

/-- A finding whose evidence is in order is left as it is. -/
theorem mergeCluster_single
    {finding : FindingCandidate}
    (hevidence : finding.evidence.Pairwise (· < ·)) :
    mergeCluster ⟨finding, []⟩ = finding := by
  have hsame : clusterEvidence ⟨finding, []⟩ = finding.evidence := by
    have hnodup : finding.evidence.Nodup := hevidence.imp ne_of_lt
    have hsorted : finding.evidence.Pairwise (· ≤ ·) := hevidence.imp le_of_lt
    rw [clusterEvidence, Cluster.members, List.flatMap_singleton, hnodup.dedup]
    exact sortOn_eq_self hsorted
  obtain ⟨⟩ := finding
  simp only [mergeCluster, hsame]
  rfl

end OneCluster

/-! ## All clusters -/

section AllClusters

variable (casefold : CodePoint → List CodePoint)
variable (tables : UnicodeTables)

/-- The finding is of the output's file and category, and within its lines. -/
def Covers (output finding : FindingCandidate) : Prop :=
  mergeGroup casefold tables finding = mergeGroup casefold tables output ∧
    output.lineStart ≤ finding.lineStart ∧ finding.lineEnd ≤ output.lineEnd

/-- The outputs divide the findings and combine what they cover. -/
structure Merges (findings outputs : List FindingCandidate) : Prop where
  apart : outputs.Pairwise (fun a b =>
    mergeGroup casefold tables a = mergeGroup casefold tables b → a.lineEnd < b.lineStart)
  covered : ∀ finding ∈ findings, ∃! output, output ∈ outputs ∧
    Covers casefold tables output finding
  start : ∀ output ∈ outputs, ∃ finding ∈ findings, Covers casefold tables output finding ∧
    finding.lineStart = output.lineStart
  stop : ∀ output ∈ outputs, ∃ finding ∈ findings, Covers casefold tables output finding ∧
    finding.lineEnd = output.lineEnd
  severity : ∀ output ∈ outputs, ∃ finding ∈ findings, Covers casefold tables output finding ∧
    finding.severity = output.severity
  greatest : ∀ output ∈ outputs, ∀ finding ∈ findings, Covers casefold tables output finding →
    severityRank finding.severity ≤ severityRank output.severity
  evidence : ∀ output ∈ outputs, ∀ text, text ∈ output.evidence ↔
    ∃ finding ∈ findings, Covers casefold tables output finding ∧ text ∈ finding.evidence
  sorted : ∀ output ∈ outputs, output.evidence.Pairwise (· < ·)

variable {casefold tables}
variable {findings : List FindingCandidate}

variable {repository headSha : String}

/-- In the order of the keys, no later finding of a group starts earlier. -/
theorem starts_sorted
    (hlines : ∀ finding ∈ findings, finding.lineEnd < 10 ^ 10) :
    (sortOn (orderKey casefold tables repository headSha) findings).Pairwise (fun a b =>
      mergeGroup casefold tables a = mergeGroup casefold tables b → a.lineStart ≤ b.lineStart) := by
  refine (pairwise_sortOn (orderKey casefold tables repository headSha) findings).imp_of_mem ?_
  intro a b ha hb hkey hgroup
  have hperm := perm_sortOn (orderKey casefold tables repository headSha) findings
  exact lineStart_le_of_key (hlines a (hperm.mem_iff.mp ha)) (hlines b (hperm.mem_iff.mp hb))
    hkey hgroup

theorem clustersOf_separate
    (hlines : ∀ finding ∈ findings, finding.lineEnd < 10 ^ 10) :
    Separate (mergeGroup casefold tables) FindingCandidate.lineStart FindingCandidate.lineEnd
      (clustersOf casefold tables repository headSha findings) :=
  separate_gather (fun a _ => a.lines_ordered.2) (starts_sorted hlines)

theorem mem_findings_of_mem
    {cluster : Cluster FindingCandidate} {finding : FindingCandidate}
    (hcluster : cluster ∈ clustersOf casefold tables repository headSha findings)
    (hfinding : finding ∈ cluster.members) :
    finding ∈ findings :=
  (perm_sortOn _ findings).mem_iff.mp (mem_of_mem_gather hcluster hfinding)

theorem covers_of_mem
    {clusters : List (Cluster FindingCandidate)} {cluster : Cluster FindingCandidate}
    {finding : FindingCandidate}
    (hseparate : Separate (mergeGroup casefold tables) FindingCandidate.lineStart
      FindingCandidate.lineEnd clusters)
    (hcluster : cluster ∈ clusters) (hfinding : finding ∈ cluster.members) :
    Covers casefold tables (mergeCluster cluster) finding := by
  have hgrouped := hseparate.grouped cluster hcluster
  refine ⟨?_, Cluster.lower_le hfinding, Cluster.le_upper hfinding⟩
  rw [hgrouped finding hfinding, mergeGroup_mergeCluster hgrouped]

/-- A finding is covered by one cluster only. -/
theorem eq_of_covers
    {clusters : List (Cluster FindingCandidate)} {c d : Cluster FindingCandidate}
    {finding : FindingCandidate}
    (hseparate : Separate (mergeGroup casefold tables) FindingCandidate.lineStart
      FindingCandidate.lineEnd clusters)
    (hc : c ∈ clusters) (hd : d ∈ clusters)
    (hcovers : Covers casefold tables (mergeCluster c) finding)
    (hcovers' : Covers casefold tables (mergeCluster d) finding) :
    c = d := by
  have hnever : clusters.Pairwise (fun a b =>
      ¬ (Covers casefold tables (mergeCluster a) finding ∧
        Covers casefold tables (mergeCluster b) finding)) := by
    refine hseparate.apart.imp_of_mem ?_
    rintro a b ha hb happart ⟨⟨hgroup, _, hstop⟩, hgroup', hstart', _⟩
    rw [mergeGroup_mergeCluster (hseparate.grouped a ha)] at hgroup
    rw [mergeGroup_mergeCluster (hseparate.grouped b hb)] at hgroup'
    have hbetween := happart (hgroup.symm.trans hgroup')
    have hordered := finding.lines_ordered.2
    simp only [mergeCluster] at hstop hstart'
    omega
  have hsymmetric : Std.Symm (fun a b : Cluster FindingCandidate =>
      ¬ (Covers casefold tables (mergeCluster a) finding ∧
        Covers casefold tables (mergeCluster b) finding)) :=
    ⟨fun _ _ h hboth => h hboth.symm⟩
  by_contra hne
  exact hnever.forall hc hd hne ⟨hcovers, hcovers'⟩

theorem covers_iff
    {cluster : Cluster FindingCandidate} {finding : FindingCandidate}
    (hlines : ∀ finding ∈ findings, finding.lineEnd < 10 ^ 10)
    (hcluster : cluster ∈ clustersOf casefold tables repository headSha findings)
    (hfinding : finding ∈ findings) :
    Covers casefold tables (mergeCluster cluster) finding ↔ finding ∈ cluster.members := by
  have hseparate : Separate (mergeGroup casefold tables) FindingCandidate.lineStart
      FindingCandidate.lineEnd (clustersOf casefold tables repository headSha findings) :=
    clustersOf_separate hlines
  refine ⟨fun hcovers => ?_, covers_of_mem hseparate hcluster⟩
  have hordered := (perm_sortOn (orderKey casefold tables repository headSha) findings).mem_iff.mpr
    hfinding
  obtain ⟨other, hother, hmember⟩ := exists_cluster hordered
  rwa [eq_of_covers hseparate hcluster hother hcovers (covers_of_mem hseparate hother hmember)]

theorem merges_clustersOf
    (hlines : ∀ finding ∈ findings, finding.lineEnd < 10 ^ 10) :
    Merges casefold tables findings
      ((clustersOf casefold tables repository headSha findings).map mergeCluster) := by
  have hseparate : Separate (mergeGroup casefold tables) FindingCandidate.lineStart
      FindingCandidate.lineEnd (clustersOf casefold tables repository headSha findings) :=
    clustersOf_separate hlines
  have hmembers : ∀ cluster ∈ clustersOf casefold tables repository headSha findings,
      ∀ member ∈ cluster.members, member ∈ findings ∧
        Covers casefold tables (mergeCluster cluster) member :=
    fun cluster hcluster member hmember =>
      ⟨mem_findings_of_mem hcluster hmember, covers_of_mem hseparate hcluster hmember⟩
  constructor
  case apart =>
    refine List.pairwise_map.mpr (hseparate.apart.imp_of_mem ?_)
    intro a b ha hb happart hgroup
    rw [mergeGroup_mergeCluster (hseparate.grouped a ha),
      mergeGroup_mergeCluster (hseparate.grouped b hb)] at hgroup
    exact happart hgroup
  case covered =>
    intro finding hfinding
    have hordered :=
      (perm_sortOn (orderKey casefold tables repository headSha) findings).mem_iff.mpr hfinding
    obtain ⟨cluster, hcluster, hmember⟩ := exists_cluster hordered
    have hcovers := covers_of_mem hseparate hcluster hmember
    refine ⟨mergeCluster cluster, ⟨List.mem_map_of_mem hcluster, hcovers⟩, ?_⟩
    rintro output ⟨houtput, hcovers'⟩
    obtain ⟨other, hother, rfl⟩ := List.mem_map.mp houtput
    rw [eq_of_covers hseparate hother hcluster hcovers' hcovers]
  case start =>
    rintro output houtput
    obtain ⟨cluster, hcluster, rfl⟩ := List.mem_map.mp houtput
    obtain ⟨member, hmember, hstart⟩ := List.mem_map.mp
      (cluster.lower_spec FindingCandidate.lineStart).1
    exact ⟨member, (hmembers cluster hcluster member hmember).1,
      (hmembers cluster hcluster member hmember).2, hstart⟩
  case stop =>
    rintro output houtput
    obtain ⟨cluster, hcluster, rfl⟩ := List.mem_map.mp houtput
    obtain ⟨member, hmember, hstop⟩ := List.mem_map.mp
      (cluster.upper_spec FindingCandidate.lineEnd).1
    exact ⟨member, (hmembers cluster hcluster member hmember).1,
      (hmembers cluster hcluster member hmember).2, hstop⟩
  case severity =>
    rintro output houtput
    obtain ⟨cluster, hcluster, rfl⟩ := List.mem_map.mp houtput
    have hpick := hmembers cluster hcluster _ (pickRepresentative_mem cluster)
    exact ⟨pickRepresentative cluster, hpick.1, hpick.2, rfl⟩
  case greatest =>
    rintro output houtput finding hfinding hcovers
    obtain ⟨cluster, hcluster, rfl⟩ := List.mem_map.mp houtput
    exact severityRank_le_pick ((covers_iff hlines hcluster hfinding).mp hcovers)
  case evidence =>
    rintro output houtput text
    obtain ⟨cluster, hcluster, rfl⟩ := List.mem_map.mp houtput
    refine mem_clusterEvidence.trans ?_
    constructor
    · rintro ⟨member, hmember, htext⟩
      exact ⟨member, (hmembers cluster hcluster member hmember).1,
        (hmembers cluster hcluster member hmember).2, htext⟩
    · rintro ⟨finding, hfinding, hcovers, htext⟩
      exact ⟨finding, (covers_iff hlines hcluster hfinding).mp hcovers, htext⟩
  case sorted =>
    rintro output houtput
    obtain ⟨cluster, hcluster, rfl⟩ := List.mem_map.mp houtput
    exact clusterEvidence_sorted cluster

/-- The merged findings stand in the order of their keys. -/
theorem outputs_sorted
    (hlines : ∀ finding ∈ findings, finding.lineEnd < 10 ^ 10) :
    ((clustersOf casefold tables repository headSha findings).map mergeCluster).Pairwise
      (fun a b => orderKey casefold tables repository headSha a ≤
        orderKey casefold tables repository headSha b) := by
  have hseparate : Separate (mergeGroup casefold tables) FindingCandidate.lineStart
      FindingCandidate.lineEnd (clustersOf casefold tables repository headSha findings) :=
    clustersOf_separate hlines
  have hheads : ((clustersOf casefold tables repository headSha findings).map
      Cluster.head).Pairwise (fun a b => orderKey casefold tables repository headSha a ≤
        orderKey casefold tables repository headSha b) :=
    (pairwise_sortOn _ findings).sublist (heads_sublist _)
  refine List.pairwise_map.mpr
    (((List.pairwise_map.mp hheads).and hseparate.apart).imp_of_mem ?_)
  rintro c d hc hd ⟨hkey, happart⟩
  have hgroup := mergeGroup_mergeCluster (hseparate.grouped c hc)
  have hgroup' := mergeGroup_mergeCluster (hseparate.grouped d hd)
  obtain ⟨hpath, hcategory⟩ := mergeGroup_eq_iff.mp hgroup
  obtain ⟨hpath', hcategory'⟩ := mergeGroup_eq_iff.mp hgroup'
  rw [orderKey_le_iff] at hkey ⊢
  rw [hpath, hcategory, hpath', hcategory']
  rcases hkey with hless | ⟨heq, hless | ⟨hsame, _⟩⟩
  · exact .inl hless
  · exact .inr ⟨heq, .inl hless⟩
  · have hbetween := happart (mergeGroup_eq_iff.mpr ⟨heq, hsame⟩)
    obtain ⟨member, hmember, hlower⟩ := List.mem_map.mp
      (d.lower_spec FindingCandidate.lineStart).1
    have hlimit := hlines member (mem_findings_of_mem hd hmember)
    have hmember := member.lines_ordered.2
    have hordered := hull_ordered c
    refine .inr ⟨heq, .inr ⟨hsame, .inl (not_le.mp (fun hle => ?_))⟩⟩
    have hstarts := le_of_padded_le (by simp only [mergeCluster]; omega)
      (by simp only [mergeCluster]; omega) hle
    simp only [mergeCluster] at hstarts
    omega

/-- Findings that stand apart and in order make a cluster each. -/
theorem clustersOf_apart
    {outputs : List FindingCandidate}
    (hsorted : outputs.Pairwise (fun a b => orderKey casefold tables repository headSha a ≤
      orderKey casefold tables repository headSha b))
    (happart : outputs.Pairwise (fun a b =>
      mergeGroup casefold tables a = mergeGroup casefold tables b → a.lineEnd < b.lineStart)) :
    clustersOf casefold tables repository headSha outputs =
      outputs.map (fun output => ⟨output, []⟩) := by
  rw [clustersOf, sortOn_eq_self hsorted, gather_of_apart happart]

end AllClusters

/--
For findings with line numbers of at most ten digits: the merged findings divide the
findings and combine them, and merging them again returns them.
-/
theorem aggregate_findings_merges
    (casefold : CodePoint → List CodePoint) (tables : UnicodeTables)
    (repository headSha : String) (findings : List FindingCandidate)
    (hlines : ∀ finding ∈ findings, finding.lineStart < 10 ^ 10 ∧ finding.lineEnd < 10 ^ 10) :
    ∃ outputs, aggregateFindings casefold tables repository headSha findings = .ok outputs ∧
      Merges casefold tables findings outputs ∧
      aggregateFindings casefold tables repository headSha outputs = .ok outputs := by
  have hends : ∀ finding ∈ findings, finding.lineEnd < 10 ^ 10 :=
    fun finding hfinding => (hlines finding hfinding).2
  have hlimit : 10 ^ 10 ≤ 10 ^ maxStrDigits := Nat.pow_le_pow_right (by omega) (by decide)
  have hmerges : Merges casefold tables findings
      ((clustersOf casefold tables repository headSha findings).map mergeCluster) :=
    merges_clustersOf hends
  refine ⟨_, aggregateFindings_eq (fun finding hfinding => ?_), hmerges, ?_⟩
  · exact lt_of_lt_of_le (hends finding hfinding) hlimit
  · rw [aggregateFindings_eq, clustersOf_apart (outputs_sorted hends) hmerges.apart, List.map_map]
    · refine congrArg Except.ok (List.map_congr_left (fun output houtput => ?_) |>.trans
        (List.map_id _))
      exact mergeCluster_single (hmerges.sorted output houtput)
    · intro output houtput
      obtain ⟨finding, hfinding, _, hstop⟩ := hmerges.stop output houtput
      rw [← hstop]
      exact lt_of_lt_of_le (hends finding hfinding) hlimit

/-! ## Two findings that overlap -/

/-- The case folding of ASCII. -/
def asciiFold (c : CodePoint) : List CodePoint :=
  [if 0x41 ≤ c.val ∧ c.val ≤ 0x5a then c + 0x20 else c]

def leftFinding : FindingCandidate where
  concern := .correctness
  severity := .high
  category := "null-check"
  filePath := "src/widget.py"
  lineStart := 10
  lineEnd := 14
  title := "Null A"
  rationale := "widget.value can be None."
  evidence := [.ofString "src/widget.py:10"]
  confidence := .number 1 ⟨by decide, by decide⟩
  texts_ne := by decide
  lines_ordered := by decide
  evidence_ne := List.cons_ne_nil _ _

def rightFinding : FindingCandidate where
  concern := .correctness
  severity := .low
  category := "Null Check"
  filePath := "src/widget.py"
  lineStart := 12
  lineEnd := 16
  title := "Null B"
  rationale := "widget.value can be None."
  evidence := [.ofString "src/widget.py:12"]
  confidence := .number 1 ⟨by decide, by decide⟩
  texts_ne := by decide
  lines_ordered := by decide
  evidence_ne := List.cons_ne_nil _ _

theorem aggregate_findings_merges_widget :
    ∃ outputs, aggregateFindings asciiFold bareTables "acme/widgets" "b1f5e3a"
        [rightFinding, leftFinding] = .ok outputs ∧
      Merges asciiFold bareTables [rightFinding, leftFinding] outputs ∧
      aggregateFindings asciiFold bareTables "acme/widgets" "b1f5e3a" outputs = .ok outputs :=
  aggregate_findings_merges asciiFold bareTables "acme/widgets" "b1f5e3a"
    [rightFinding, leftFinding] (by
      intro finding hfinding
      simp only [List.mem_cons, List.not_mem_nil, or_false] at hfinding
      rcases hfinding with rfl | rfl
      · decide
      · decide)

end Reviewer
end PrReviewer
