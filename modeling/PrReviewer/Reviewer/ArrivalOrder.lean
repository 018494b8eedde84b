import Mathlib.Data.List.Forall2
import Mathlib.Tactic
import PrReviewer.Reviewer.MergedFindings

/-!
# The merge and the order of arrival

Findings with one key are sorted in the order in which they arrive, and `max` takes the
first of several greatest ones.  So of the findings with one key and severity that stand for
their cluster, the first to arrive gives its concern, category and confidence.
-/

namespace PrReviewer
namespace Reviewer

open Lib

section Arrival

variable (casefold : CodePoint → List CodePoint)
variable (tables : UnicodeTables)
variable (repository headSha : String)

/-- The two findings are in one cluster. -/
def Together (findings : List FindingCandidate) (a b : FindingCandidate) : Prop :=
  ∃ cluster ∈ clustersOf casefold tables repository headSha findings,
    a ∈ cluster.members ∧ b ∈ cluster.members

/--
The finding stands for its cluster: no other one ranks higher, and of those that rank
equal none is sorted before it.
-/
def Leads (findings : List FindingCandidate) (a : FindingCandidate) : Prop :=
  ∀ b, Together casefold tables repository headSha findings a b →
    rankKey b < rankKey a ∨ rankKey b = rankKey a ∧
      orderKey casefold tables repository headSha a ≤ orderKey casefold tables repository headSha b

/-- Neither the key nor the rank tells the findings apart. -/
def Tied (a b : FindingCandidate) : Prop :=
  orderKey casefold tables repository headSha a = orderKey casefold tables repository headSha b ∧
    a.severity = b.severity

/-- The findings agree in what neither the key nor the rank mentions. -/
def Alike (a b : FindingCandidate) : Prop :=
  a.concern = b.concern ∧ a.category = b.category ∧ a.confidence = b.confidence

variable {casefold tables repository headSha}

/-- What the key tells of a finding. -/
theorem fields_of_orderKey
    {a b : FindingCandidate}
    (h : orderKey casefold tables repository headSha a =
      orderKey casefold tables repository headSha b) :
    mergeGroup casefold tables a = mergeGroup casefold tables b ∧
      a.lineStart = b.lineStart ∧ a.lineEnd = b.lineEnd ∧ a.title = b.title ∧
      a.rationale = b.rationale := by
  simp only [orderKey, List.cons.injEq, true_and, and_true] at h
  obtain ⟨hpath, hcategory, hstart, hstop, htitle, hrationale⟩ := h
  exact ⟨mergeGroup_eq_iff.mpr ⟨hpath, hcategory⟩, padded_injective hstart,
    padded_injective hstop, PyStr.ofString_injective htitle,
    PyStr.ofString_injective hrationale⟩

theorem orderKey_tells
    (a b : FindingCandidate)
    (h : orderKey casefold tables repository headSha a =
      orderKey casefold tables repository headSha b) :
    mergeGroup casefold tables a = mergeGroup casefold tables b ∧
      a.lineStart = b.lineStart ∧ a.lineEnd = b.lineEnd := by
  obtain ⟨hgroup, hstart, hstop, _⟩ := fields_of_orderKey h
  exact ⟨hgroup, hstart, hstop⟩

/-- Two tied findings rank equal. -/
theorem rankKey_of_tied
    {a b : FindingCandidate}
    (h : Tied casefold tables repository headSha a b) :
    rankKey a = rankKey b := by
  obtain ⟨_, _, _, htitle, hrationale⟩ := fields_of_orderKey h.1
  rw [rankKey, rankKey, h.2, htitle, hrationale]

theorem severity_of_rankKey
    {a b : FindingCandidate}
    (h : rankKey a = rankKey b) :
    a.severity = b.severity :=
  severityRank_injective (congrArg (fun key => (ofLex key).1) h)

variable {findings findings' : List FindingCandidate}

theorem clustersOf_whole :
    Whole (orderKey casefold tables repository headSha)
      (sortOn (orderKey casefold tables repository headSha) findings)
      (clustersOf casefold tables repository headSha findings) :=
  whole_gather orderKey_tells (fun a _ => a.lines_ordered.2) (pairwise_sortOn _ findings)

/-- The clusters of findings that arrive in another order have the same keys. -/
theorem clustersOf_keys
    (hperm : findings'.Perm findings) :
    (clustersOf casefold tables repository headSha findings').map
        (Cluster.map (orderKey casefold tables repository headSha)) =
      (clustersOf casefold tables repository headSha findings).map
        (Cluster.map (orderKey casefold tables repository headSha)) := by
  have : Nonempty (String × PyStr) := ⟨("", ⟨[]⟩)⟩
  exact gather_keys orderKey_tells (map_sortOn_of_perm hperm)

/-- Clusters with the same keys have the same members. -/
theorem perm_members
    {cluster cluster' : Cluster FindingCandidate}
    (hperm : findings'.Perm findings)
    (hcluster : cluster ∈ clustersOf casefold tables repository headSha findings)
    (hcluster' : cluster' ∈ clustersOf casefold tables repository headSha findings')
    (hkeys : cluster'.map (orderKey casefold tables repository headSha) =
      cluster.map (orderKey casefold tables repository headSha)) :
    cluster'.members.Perm cluster.members := by
  have hsorted : (sortOn (orderKey casefold tables repository headSha) findings').Perm
      (sortOn (orderKey casefold tables repository headSha) findings) :=
    (perm_sortOn _ findings').trans (hperm.trans (perm_sortOn _ findings).symm)
  have hmembers := congrArg Cluster.members hkeys
  rw [Cluster.members_map, Cluster.members_map] at hmembers
  rw [clustersOf_whole.whole cluster' hcluster', clustersOf_whole.whole cluster hcluster, hmembers]
  exact hsorted.filter _

/-- Where the finding leads the members of a cluster. -/
def LeadsIn (casefold : CodePoint → List CodePoint) (tables : UnicodeTables)
    (repository headSha : String) (members : List FindingCandidate) (a : FindingCandidate) : Prop :=
  a ∈ members ∧ ∀ b ∈ members, rankKey b < rankKey a ∨ rankKey b = rankKey a ∧
    orderKey casefold tables repository headSha a ≤ orderKey casefold tables repository headSha b

/-- The representative is the first of the greatest members, and these are sorted. -/
theorem leadsIn_pick
    {cluster : Cluster FindingCandidate}
    (hcluster : cluster ∈ clustersOf casefold tables repository headSha findings) :
    LeadsIn casefold tables repository headSha cluster.members (pickRepresentative cluster) := by
  have hsorted : cluster.members.Pairwise (fun a b =>
      orderKey casefold tables repository headSha a ≤
        orderKey casefold tables repository headSha b) := by
    rw [clustersOf_whole.whole cluster hcluster]
    exact (pairwise_sortOn _ findings).filter _
  obtain ⟨before, after, hsplit, hbefore, hafter⟩ := pickRepresentative_spec cluster
  refine ⟨pickRepresentative_mem cluster, fun b hb => ?_⟩
  rw [hsplit] at hb hsorted
  rcases List.mem_append.mp hb with hb | hb
  · exact .inl (hbefore b hb)
  · rcases List.mem_cons.mp hb with rfl | hb
    · exact .inr ⟨rfl, le_refl _⟩
    · have hkey := List.rel_of_pairwise_cons (List.pairwise_append.mp hsorted).2.1 hb
      exact (hafter b hb).lt_or_eq.imp_right (fun hrank => ⟨hrank, hkey⟩)

/-- All that lead the members of a cluster are tied. -/
theorem tied_of_leadsIn
    {members : List FindingCandidate} {a b : FindingCandidate}
    (ha : LeadsIn casefold tables repository headSha members a)
    (hb : LeadsIn casefold tables repository headSha members b) :
    Tied casefold tables repository headSha a b := by
  have hrank : rankKey a = rankKey b := by
    rcases ha.2 b hb.1 with hless | ⟨heq, _⟩
    · rcases hb.2 a ha.1 with hless' | ⟨heq, _⟩
      · exact absurd hless hless'.asymm
      · exact heq
    · exact heq.symm
  have hle : orderKey casefold tables repository headSha a ≤
      orderKey casefold tables repository headSha b := by
    rcases ha.2 b hb.1 with hless | ⟨_, hle⟩
    · exact absurd hrank.symm hless.ne
    · exact hle
  have hge : orderKey casefold tables repository headSha b ≤
      orderKey casefold tables repository headSha a := by
    rcases hb.2 a ha.1 with hless | ⟨_, hle⟩
    · exact absurd hrank hless.ne
    · exact hle
  exact ⟨le_antisymm hle hge, severity_of_rankKey hrank⟩

theorem LeadsIn.perm
    {members members' : List FindingCandidate} {a : FindingCandidate}
    (hperm : members'.Perm members)
    (h : LeadsIn casefold tables repository headSha members a) :
    LeadsIn casefold tables repository headSha members' a :=
  ⟨hperm.mem_iff.mpr h.1, fun b hb => h.2 b (hperm.mem_iff.mp hb)⟩

/-- What is tied with a leading member leads too. -/
theorem LeadsIn.of_tied
    {cluster : Cluster FindingCandidate} {a b : FindingCandidate}
    (hcluster : cluster ∈ clustersOf casefold tables repository headSha findings)
    (hleads : LeadsIn casefold tables repository headSha cluster.members a)
    (hb : b ∈ findings)
    (htied : Tied casefold tables repository headSha a b) :
    LeadsIn casefold tables repository headSha cluster.members b := by
  have hordered := (perm_sortOn (orderKey casefold tables repository headSha) findings).mem_iff.mpr hb
  refine ⟨clustersOf_whole.mem hcluster hleads.1 hordered htied.1.symm, fun c hc => ?_⟩
  rw [← rankKey_of_tied htied, ← htied.1]
  exact hleads.2 c hc

/-- The first finding to arrive represents its cluster, where it leads it. -/
theorem pick_of_first
    {cluster : Cluster FindingCandidate} {a : FindingCandidate} {rest : List FindingCandidate}
    (hcluster : cluster ∈ clustersOf casefold tables repository headSha (a :: rest))
    (hleads : LeadsIn casefold tables repository headSha cluster.members a) :
    pickRepresentative cluster = a := by
  obtain ⟨before, after, hsplit, hbefore, hafter⟩ := pickRepresentative_spec cluster
  obtain ⟨hkey, hseverity⟩ := tied_of_leadsIn (leadsIn_pick hcluster) hleads
  have hrank := rankKey_of_tied ⟨hkey, hseverity⟩
  -- the sort keeps the order of arrival, so `a` is the first member with its key
  have hfirst : ∃ others, cluster.members.filter (fun b => decide
      (orderKey casefold tables repository headSha b =
        orderKey casefold tables repository headSha a)) = a :: others := by
    have hmem : orderKey casefold tables repository headSha a ∈
        cluster.members.map (orderKey casefold tables repository headSha) :=
      List.mem_map_of_mem hleads.1
    have hmembers : cluster.members.filter (fun b => decide
        (orderKey casefold tables repository headSha b =
          orderKey casefold tables repository headSha a)) =
        (sortOn (orderKey casefold tables repository headSha) (a :: rest)).filter (fun b => decide
          (orderKey casefold tables repository headSha b =
            orderKey casefold tables repository headSha a)) := by
      conv_lhs => rw [clustersOf_whole.whole cluster hcluster]
      rw [List.filter_filter]
      refine List.filter_congr (fun b _ => ?_)
      by_cases heq : orderKey casefold tables repository headSha b =
          orderKey casefold tables repository headSha a
      · rw [decide_eq_true heq, Bool.true_and, heq]
        simpa using hmem
      · rw [decide_eq_false heq, Bool.false_and]
    rw [hmembers, filter_sortOn (fun b c hb hc =>
      (of_decide_eq_true hb).trans (of_decide_eq_true hc).symm)]
    exact ⟨_, List.filter_cons_of_pos (by simp)⟩
  obtain ⟨others, hfirst⟩ := hfirst
  rw [hsplit, List.filter_append, List.filter_cons_of_pos (by simpa using hkey)] at hfirst
  cases hkept : before.filter (fun b => decide
      (orderKey casefold tables repository headSha b =
        orderKey casefold tables repository headSha a)) with
  | nil =>
      rw [hkept] at hfirst
      exact (List.cons.inj hfirst).1
  | cons b kept =>
      rw [hkept] at hfirst
      obtain rfl : b = a := (List.cons.inj hfirst).1
      have hmem : b ∈ before := (List.mem_filter.mp (hkept ▸ List.mem_cons_self ..)).1
      exact absurd hrank.symm (hbefore b hmem).ne

theorem together_iff
    {cluster : Cluster FindingCandidate} {a b : FindingCandidate}
    (hcluster : cluster ∈ clustersOf casefold tables repository headSha findings)
    (ha : a ∈ cluster.members) :
    Together casefold tables repository headSha findings a b ↔ b ∈ cluster.members := by
  refine ⟨?_, fun hb => ⟨cluster, hcluster, ha, hb⟩⟩
  rintro ⟨other, hother, ha', hb⟩
  by_contra hout
  have hdistinct : other ≠ cluster := fun heq => hout (heq ▸ hb)
  have hsymmetric : Std.Symm (fun c d : Cluster FindingCandidate => ∀ a ∈ c.members,
      ∀ b ∈ d.members, orderKey casefold tables repository headSha a ≠
        orderKey casefold tables repository headSha b) :=
    ⟨fun _ _ h x hx y hy heq => h y hy x hx heq.symm⟩
  exact clustersOf_whole.parted.forall hother hcluster hdistinct a ha' a ha rfl

/-- Findings with line numbers of at most ten digits, joined by overlapping ranges. -/
theorem together_iff_chain
    {a b : FindingCandidate}
    (hlines : ∀ finding ∈ findings, finding.lineEnd < 10 ^ 10)
    (ha : a ∈ findings) :
    Together casefold tables repository headSha findings a b ↔
      Relation.ReflTransGen (Meets (mergeGroup casefold tables) FindingCandidate.lineStart
        FindingCandidate.lineEnd findings) a b := by
  have hperm := perm_sortOn (orderKey casefold tables repository headSha) findings
  have hsame : Meets (mergeGroup casefold tables) FindingCandidate.lineStart
      FindingCandidate.lineEnd (sortOn (orderKey casefold tables repository headSha) findings) =
      Meets (mergeGroup casefold tables) FindingCandidate.lineStart
        FindingCandidate.lineEnd findings := by
    funext c d
    simp only [Meets, hperm.mem_iff]
  rw [← hsame]
  exact same_cluster_iff (fun c _ => c.lines_ordered.2) (starts_sorted hlines)
    (hperm.mem_iff.mpr ha)

theorem leads_iff
    {cluster : Cluster FindingCandidate} {a : FindingCandidate}
    (hcluster : cluster ∈ clustersOf casefold tables repository headSha findings)
    (ha : a ∈ cluster.members) :
    Leads casefold tables repository headSha findings a ↔
      LeadsIn casefold tables repository headSha cluster.members a := by
  constructor
  · exact fun h => ⟨ha, fun b hb => h b ((together_iff hcluster ha).mpr hb)⟩
  · exact fun h b hb => h.2 b ((together_iff hcluster ha).mp hb)

/-- The findings of two clusters with the same members, by their representatives. -/
theorem mergeCluster_eq_iff
    {cluster cluster' : Cluster FindingCandidate}
    (hmembers : cluster'.members.Perm cluster.members)
    (htied : Tied casefold tables repository headSha (pickRepresentative cluster')
      (pickRepresentative cluster)) :
    mergeCluster cluster' = mergeCluster cluster ↔
      Alike (pickRepresentative cluster') (pickRepresentative cluster) := by
  have hlower : cluster'.lower FindingCandidate.lineStart =
      cluster.lower FindingCandidate.lineStart :=
    Cluster.lower_of_perm hmembers
  have hupper : cluster'.upper FindingCandidate.lineEnd =
      cluster.upper FindingCandidate.lineEnd :=
    Cluster.upper_of_perm hmembers
  have hevidence : clusterEvidence cluster' = clusterEvidence cluster :=
    sortOn_eq_of_perm (hmembers.flatMap_right _).dedup (fun _ _ _ _ heq => heq)
  obtain ⟨hgroup, _, _, htitle, hrationale⟩ := fields_of_orderKey htied.1
  have hpath := congrArg Prod.fst hgroup
  simp only [mergeGroup] at hpath
  simp only [mergeCluster, FindingCandidate.mk.injEq, Alike, hlower, hupper, hevidence, htied.2,
    hpath, htitle, hrationale, true_and]

/-- The representatives of two orders of arrival. -/
theorem tied_picks
    {cluster cluster' : Cluster FindingCandidate}
    (hcluster : cluster ∈ clustersOf casefold tables repository headSha findings)
    (hcluster' : cluster' ∈ clustersOf casefold tables repository headSha findings')
    (hmembers : cluster'.members.Perm cluster.members) :
    Tied casefold tables repository headSha (pickRepresentative cluster')
      (pickRepresentative cluster) :=
  tied_of_leadsIn (leadsIn_pick hcluster') ((leadsIn_pick hcluster).perm hmembers)

theorem lines_of_aggregateFindings
    {outputs : List FindingCandidate}
    (h : aggregateFindings casefold tables repository headSha findings = .ok outputs) :
    ∀ finding ∈ findings, finding.lineEnd < 10 ^ maxStrDigits := by
  intro finding hfinding
  obtain ⟨ordered, hordered, _⟩ := bind_eq_ok h
  obtain ⟨keyed, hkeyed, _⟩ := bind_eq_ok hordered
  obtain ⟨pair, _, hpair⟩ := (mem_of_mapM_eq_ok hkeyed).1 finding hfinding
  obtain ⟨key, hkey, _⟩ := bind_eq_ok hpair
  obtain ⟨start, _, hkey⟩ := bind_eq_ok hkey
  obtain ⟨stop, hstop, _⟩ := bind_eq_ok hkey
  by_contra hlong
  rw [paddedText_eq, if_neg hlong] at hstop
  cases hstop

/-- Where all that are tied with a leading finding are alike, the order does not matter. -/
theorem outputs_of_alike
    (hperm : findings'.Perm findings)
    (halike : ∀ a ∈ findings, ∀ b ∈ findings, Leads casefold tables repository headSha findings a →
      Tied casefold tables repository headSha a b → Alike a b) :
    (clustersOf casefold tables repository headSha findings').map mergeCluster =
      (clustersOf casefold tables repository headSha findings).map mergeCluster := by
  refine (map_eq_of_keys (clustersOf_keys hperm).symm ?_).symm
  intro cluster hcluster cluster' hcluster' hkeys
  have hmembers := perm_members hperm hcluster hcluster' hkeys.symm
  have hpick := leadsIn_pick hcluster
  have htied := tied_picks hcluster hcluster' hmembers
  have hmem := mem_findings_of_mem hcluster hpick.1
  have hmem' := hperm.mem_iff.mp
    (mem_findings_of_mem hcluster' (pickRepresentative_mem cluster'))
  obtain ⟨hconcern, hcategory, hconfidence⟩ := halike _ hmem _ hmem'
    ((leads_iff hcluster hpick.1).mpr hpick) ⟨htied.1.symm, htied.2.symm⟩
  exact ((mergeCluster_eq_iff hmembers htied).mpr
    ⟨hconcern.symm, hcategory.symm, hconfidence.symm⟩).symm

/-- A leading finding that arrives first gives its cluster's output its fields. -/
theorem exists_output_alike
    {a : FindingCandidate} {cluster : Cluster FindingCandidate}
    (hcluster : cluster ∈ clustersOf casefold tables repository headSha findings)
    (hleads : LeadsIn casefold tables repository headSha cluster.members a) :
    ∃ findings', findings'.Perm findings ∧
      ∀ cluster' ∈ clustersOf casefold tables repository headSha findings',
        cluster'.map (orderKey casefold tables repository headSha) =
          cluster.map (orderKey casefold tables repository headSha) →
        pickRepresentative cluster' = a := by
  obtain ⟨before, after, hsplit⟩ := List.append_of_mem (mem_findings_of_mem hcluster hleads.1)
  have hperm : (a :: (before ++ after)).Perm findings := hsplit ▸ List.perm_middle.symm
  refine ⟨a :: (before ++ after), hperm, fun cluster' hcluster' hkeys => ?_⟩
  exact pick_of_first hcluster' (hleads.perm (perm_members hperm hcluster hcluster' hkeys))

end Arrival

/--
The merge returns the same findings in every order of arrival if and only if every line
number can be written out, and findings that are tied with one that leads its cluster agree
in concern, category and confidence.  A cluster is what overlapping ranges join, where the
line numbers have at most ten digits.
-/
theorem aggregate_findings_order_iff
    (casefold : CodePoint → List CodePoint) (tables : UnicodeTables)
    (repository headSha : String) (findings : List FindingCandidate) :
    ((∃ outputs, ∀ findings', findings'.Perm findings →
      aggregateFindings casefold tables repository headSha findings' = .ok outputs) ↔
    (∀ finding ∈ findings, finding.lineEnd < 10 ^ maxStrDigits) ∧
    ∀ a ∈ findings, ∀ b ∈ findings, Leads casefold tables repository headSha findings a →
      Tied casefold tables repository headSha a b → Alike a b) ∧
    ((∀ finding ∈ findings, finding.lineEnd < 10 ^ 10) → ∀ a ∈ findings, ∀ b,
      Together casefold tables repository headSha findings a b ↔
        Relation.ReflTransGen (Meets (mergeGroup casefold tables) FindingCandidate.lineStart
          FindingCandidate.lineEnd findings) a b) := by
  refine ⟨?_, fun hlines a ha b => together_iff_chain hlines ha⟩
  constructor
  · rintro ⟨outputs, hsame⟩
    have hlines := lines_of_aggregateFindings (hsame findings (List.Perm.refl _))
    refine ⟨hlines, fun a ha b hb hleads htied => ?_⟩
    have houtputs : ∀ findings', findings'.Perm findings →
        (clustersOf casefold tables repository headSha findings').map mergeCluster = outputs := by
      intro findings' hperm
      have hreturns := hsame findings' hperm
      rw [aggregateFindings_eq (fun finding hfinding =>
        hlines finding (hperm.mem_iff.mp hfinding))] at hreturns
      exact Except.ok.inj hreturns
    have hordered :=
      (perm_sortOn (orderKey casefold tables repository headSha) findings).mem_iff.mpr ha
    obtain ⟨cluster, hcluster, hmember⟩ := exists_cluster hordered
    have hleadsIn := (leads_iff hcluster hmember).mp hleads
    -- one order in which `a` arrives first, and one in which `b` does
    obtain ⟨first, hfirst, hpick⟩ := exists_output_alike hcluster hleadsIn
    obtain ⟨second, hsecond, hpick'⟩ :=
      exists_output_alike hcluster (hleadsIn.of_tied hcluster hb htied)
    have hkeys : ∀ findings', findings'.Perm findings →
        (clustersOf casefold tables repository headSha findings').map
            (Cluster.map (orderKey casefold tables repository headSha)) =
          (clustersOf casefold tables repository headSha findings).map
            (Cluster.map (orderKey casefold tables repository headSha)) :=
      fun _ hperm => clustersOf_keys hperm
    obtain ⟨cluster₁, hcluster₁, hkey, _⟩ :=
      exists_of_map_eq (hkeys first hfirst).symm (hkeys first hfirst).symm hcluster
    obtain ⟨cluster₂, hcluster₂, hkey', hmerged⟩ :=
      exists_of_map_eq ((hkeys first hfirst).trans (hkeys second hsecond).symm)
        ((houtputs first hfirst).trans (houtputs second hsecond).symm) hcluster₁
    rw [← hpick cluster₁ hcluster₁ hkey.symm,
      ← hpick' cluster₂ hcluster₂ (hkey'.symm.trans hkey.symm)]
    have hconcern : (mergeCluster cluster₁).concern = (mergeCluster cluster₂).concern :=
      congrArg FindingCandidate.concern hmerged
    have hcategory : (mergeCluster cluster₁).category = (mergeCluster cluster₂).category :=
      congrArg FindingCandidate.category hmerged
    have hconfidence : (mergeCluster cluster₁).confidence = (mergeCluster cluster₂).confidence :=
      congrArg FindingCandidate.confidence hmerged
    exact ⟨hconcern, hcategory, hconfidence⟩
  · rintro ⟨hlines, halike⟩
    refine ⟨(clustersOf casefold tables repository headSha findings).map mergeCluster,
      fun findings' hperm => ?_⟩
    rw [aggregateFindings_eq (fun finding hfinding => hlines finding (hperm.mem_iff.mp hfinding)),
      outputs_of_alike hperm halike]

/-- The finding of another specialist in the same words. -/
def securityFinding : FindingCandidate :=
  { leftFinding with concern := .security }

/-- Whose finding arrives first gives the merged one its concern. -/
theorem concern_follows_arrival :
    (aggregateFindings asciiFold bareTables "acme/widgets" "b1f5e3a"
        [leftFinding, securityFinding]).map (List.map FindingCandidate.concern) =
      .ok [.correctness] ∧
    (aggregateFindings asciiFold bareTables "acme/widgets" "b1f5e3a"
        [securityFinding, leftFinding]).map (List.map FindingCandidate.concern) =
      .ok [.security] := by
  decide +kernel

end Reviewer
end PrReviewer
