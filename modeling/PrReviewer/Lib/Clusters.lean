import Mathlib.Data.List.Forall2
import Mathlib.Data.List.Induction
import Mathlib.Data.List.Pairwise
import Mathlib.Data.List.Perm.Basic
import Mathlib.Logic.Relation
import Mathlib.Tactic

/-!
# Clusters of ranges

A list is read once, and every item joins the first cluster it can join or makes a new
one.  Where an item joins a cluster whose hull its range overlaps, a list in which no
later range of a group starts earlier is divided into clusters with disjoint hulls.  Where
the list is sorted by a key that tells the groups and ranges, items with one key are in one
cluster.
-/

namespace PrReviewer
namespace Lib

/-- A cluster has a first item. -/
structure Cluster (α : Type) where
  head : α
  rest : List α

section FirstFit

variable {α : Type}

def Cluster.members (cluster : Cluster α) : List α :=
  cluster.head :: cluster.rest

def Cluster.add (cluster : Cluster α) (item : α) : Cluster α where
  head := cluster.head
  rest := cluster.rest ++ [item]

@[simp] theorem Cluster.members_add
    (cluster : Cluster α) (item : α) :
    (cluster.add item).members = cluster.members ++ [item] := by
  rfl

@[simp] theorem Cluster.head_add
    (cluster : Cluster α) (item : α) :
    (cluster.add item).head = cluster.head := by
  rfl

theorem Cluster.head_mem
    (cluster : Cluster α) :
    cluster.head ∈ cluster.members :=
  List.mem_cons_self ..

variable (joins : α → Cluster α → Bool)

/-- The item joins the first cluster it can join; otherwise it makes a new one. -/
def place (item : α) : List (Cluster α) → List (Cluster α)
  | [] => [⟨item, []⟩]
  | cluster :: rest =>
      if joins item cluster = true then
        cluster.add item :: rest
      else
        cluster :: place item rest

/-- The clusters of the items, which are placed in their order. -/
def gather (items : List α) : List (Cluster α) :=
  items.foldl (fun clusters item => place joins item clusters) []

variable {joins}

theorem place_of_join
    {item : α} {before after : List (Cluster α)} {cluster : Cluster α}
    (hbefore : ∀ other ∈ before, joins item other = false)
    (hjoins : joins item cluster = true) :
    place joins item (before ++ cluster :: after) = before ++ cluster.add item :: after := by
  induction before with
  | nil => rw [List.nil_append, place, if_pos hjoins, List.nil_append]
  | cons other before ih =>
      obtain ⟨hother, hbefore⟩ := List.forall_mem_cons.mp hbefore
      rw [List.cons_append, place, if_neg (by simp [hother]), ih hbefore, List.cons_append]

theorem place_of_none
    {item : α} {clusters : List (Cluster α)}
    (hnone : ∀ cluster ∈ clusters, joins item cluster = false) :
    place joins item clusters = clusters ++ [⟨item, []⟩] := by
  induction clusters with
  | nil => rfl
  | cons cluster rest ih =>
      obtain ⟨hfirst, hrest⟩ := List.forall_mem_cons.mp hnone
      rw [place, if_neg (by simp [hfirst]), ih hrest, List.cons_append]

variable (joins) in
/-- Where an item is placed. -/
theorem place_cases
    (item : α) (clusters : List (Cluster α)) :
    (∃ before cluster after, clusters = before ++ cluster :: after ∧
      (∀ other ∈ before, joins item other = false) ∧ joins item cluster = true) ∨
    ∀ cluster ∈ clusters, joins item cluster = false := by
  induction clusters with
  | nil => exact .inr (fun cluster hcluster => absurd hcluster List.not_mem_nil)
  | cons first rest ih =>
      cases hfirst : joins item first with
      | true => exact .inl ⟨[], first, rest, rfl, by simp, hfirst⟩
      | false =>
          rcases ih with ⟨before, cluster, after, rfl, hbefore, hjoins⟩ | hnone
          · refine .inl ⟨first :: before, cluster, after, rfl, ?_, hjoins⟩
            exact List.forall_mem_cons.mpr ⟨hfirst, hbefore⟩
          · exact .inr (List.forall_mem_cons.mpr ⟨hfirst, hnone⟩)

theorem gather_append
    (items : List α) (item : α) :
    gather joins (items ++ [item]) = place joins item (gather joins items) := by
  rw [gather, List.foldl_append]
  rfl

/-- Every item is in one cluster. -/
theorem perm_gather
    (items : List α) :
    ((gather joins items).flatMap Cluster.members).Perm items := by
  induction items using List.reverseRecOn with
  | nil => exact List.Perm.refl _
  | append_singleton items item ih =>
      rw [gather_append]
      rcases place_cases joins item (gather joins items) with
        ⟨before, cluster, after, hsplit, hbefore, hjoins⟩ | hnone
      · rw [hsplit] at ih ⊢
        rw [place_of_join hbefore hjoins]
        simp only [List.flatMap_append, List.flatMap_cons, Cluster.members_add] at ih ⊢
        have hswap : ([item] ++ after.flatMap Cluster.members).Perm
            (after.flatMap Cluster.members ++ [item]) :=
          List.perm_append_comm
        refine List.Perm.trans ?_ (ih.append_right [item])
        simp only [List.append_assoc]
        exact (hswap.append_left _).append_left _
      · rw [place_of_none hnone, List.flatMap_append]
        exact ih.append_right [item]

/-- The first items of the clusters stand in the order of the items. -/
theorem heads_sublist
    (items : List α) :
    ((gather joins items).map Cluster.head).Sublist items := by
  induction items using List.reverseRecOn with
  | nil => exact List.Sublist.refl _
  | append_singleton items item ih =>
      rw [gather_append]
      rcases place_cases joins item (gather joins items) with
        ⟨before, cluster, after, hsplit, hbefore, hjoins⟩ | hnone
      · rw [hsplit] at ih ⊢
        rw [place_of_join hbefore hjoins]
        simp only [List.map_append, List.map_cons, Cluster.head_add] at ih ⊢
        exact ih.trans (List.sublist_append_left items [item])
      · rw [place_of_none hnone, List.map_append]
        exact ih.append (List.Sublist.refl _)

theorem mem_of_mem_gather
    {items : List α} {cluster : Cluster α} {a : α}
    (hcluster : cluster ∈ gather joins items) (ha : a ∈ cluster.members) :
    a ∈ items :=
  (perm_gather items).mem_iff.mp (List.mem_flatMap.mpr ⟨cluster, hcluster, ha⟩)

theorem exists_cluster
    {items : List α} {a : α}
    (ha : a ∈ items) :
    ∃ cluster ∈ gather joins items, a ∈ cluster.members :=
  List.mem_flatMap.mp ((perm_gather items).mem_iff.mpr ha)

end FirstFit

section Ranges

variable {α γ : Type} [DecidableEq γ]
variable (group : α → γ) (low high : α → Nat)

/-- The least value of the items. -/
def Cluster.lower (cluster : Cluster α) : Nat :=
  (cluster.rest.map low).foldl min (low cluster.head)

/-- The greatest value of the items. -/
def Cluster.upper (cluster : Cluster α) : Nat :=
  (cluster.rest.map high).foldl max (high cluster.head)

/-- The item is of the group of the cluster, and its range meets the hull of the cluster. -/
def overlaps (item : α) (cluster : Cluster α) : Bool :=
  decide (group item = group cluster.head ∧
    low item ≤ cluster.upper high ∧ cluster.lower low ≤ high item)

variable {group low high}

@[simp] theorem Cluster.lower_add
    (cluster : Cluster α) (item : α) :
    (cluster.add item).lower low = min (cluster.lower low) (low item) := by
  simp [Cluster.lower, Cluster.add]

@[simp] theorem Cluster.upper_add
    (cluster : Cluster α) (item : α) :
    (cluster.add item).upper high = max (cluster.upper high) (high item) := by
  simp [Cluster.upper, Cluster.add]

variable (low) in
theorem Cluster.lower_spec
    (cluster : Cluster α) :
    cluster.lower low ∈ cluster.members.map low ∧
      ∀ n ∈ cluster.members.map low, cluster.lower low ≤ n :=
  List.min?_eq_some_iff.mp List.min?_cons'

variable (high) in
theorem Cluster.upper_spec
    (cluster : Cluster α) :
    cluster.upper high ∈ cluster.members.map high ∧
      ∀ n ∈ cluster.members.map high, n ≤ cluster.upper high :=
  List.max?_eq_some_iff.mp List.max?_cons'

theorem Cluster.lower_le
    {cluster : Cluster α} {a : α}
    (ha : a ∈ cluster.members) :
    cluster.lower low ≤ low a :=
  (cluster.lower_spec low).2 (low a) (List.mem_map_of_mem ha)

theorem Cluster.le_upper
    {cluster : Cluster α} {a : α}
    (ha : a ∈ cluster.members) :
    high a ≤ cluster.upper high :=
  (cluster.upper_spec high).2 (high a) (List.mem_map_of_mem ha)

theorem Cluster.lower_of_perm
    {cluster cluster' : Cluster α}
    (hperm : cluster'.members.Perm cluster.members) :
    cluster'.lower low = cluster.lower low := by
  have hsame := (hperm.map low).mem_iff (a := cluster.lower low)
  have hsame' := (hperm.map low).mem_iff (a := cluster'.lower low)
  have hle := (cluster'.lower_spec low).2 _ (hsame.mpr (cluster.lower_spec low).1)
  have hge := (cluster.lower_spec low).2 _ (hsame'.mp (cluster'.lower_spec low).1)
  omega

theorem Cluster.upper_of_perm
    {cluster cluster' : Cluster α}
    (hperm : cluster'.members.Perm cluster.members) :
    cluster'.upper high = cluster.upper high := by
  have hsame := (hperm.map high).mem_iff (a := cluster.upper high)
  have hsame' := (hperm.map high).mem_iff (a := cluster'.upper high)
  have hge := (cluster'.upper_spec high).2 _ (hsame.mpr (cluster.upper_spec high).1)
  have hle := (cluster.upper_spec high).2 _ (hsame'.mp (cluster'.upper_spec high).1)
  omega

variable (group low high)

/-- The clusters of what was read: of one group each, with disjoint hulls in rising order. -/
structure Separate (clusters : List (Cluster α)) : Prop where
  grouped : ∀ cluster ∈ clusters, ∀ a ∈ cluster.members, group a = group cluster.head
  apart : clusters.Pairwise (fun c d => group c.head = group d.head →
    c.upper high < d.lower low)

variable {group low high}

/-- An item that starts no earlier than those before it keeps the clusters separate. -/
theorem Separate.place
    {clusters : List (Cluster α)} {item : α}
    (hrange : low item ≤ high item)
    (hlater : ∀ cluster ∈ clusters, ∀ a ∈ cluster.members, group a = group item →
      low a ≤ low item)
    (h : Separate group low high clusters) :
    Separate group low high (place (overlaps group low high) item clusters) := by
  have hheads : ∀ cluster ∈ clusters, group cluster.head = group item →
      cluster.lower low ≤ low item := by
    intro cluster hcluster hgroup
    have hhead := hlater cluster hcluster cluster.head cluster.head_mem hgroup
    exact le_trans (Cluster.lower_le cluster.head_mem) hhead
  rcases place_cases (overlaps group low high) item clusters with
    ⟨before, cluster, after, rfl, hbefore, hjoins⟩ | hnone
  · rw [place_of_join hbefore hjoins]
    obtain ⟨hgroup, hmeets, _⟩ := of_decide_eq_true hjoins
    have hlower := hheads cluster (by simp) hgroup.symm
    obtain ⟨hfirst, hrest, hacross⟩ := List.pairwise_append.mp h.apart
    obtain ⟨hnext, hrest⟩ := List.pairwise_cons.mp hrest
    constructor
    · intro other hother a ha
      rcases List.mem_append.mp hother with hother | hother
      · exact h.grouped other (List.mem_append_left _ hother) a ha
      · rcases List.mem_cons.mp hother with rfl | hother
        · rw [Cluster.members_add, List.mem_append] at ha
          rcases ha with ha | ha
          · exact h.grouped cluster (by simp) a ha
          · rw [List.mem_singleton.mp ha]
            exact hgroup
        · exact h.grouped other (by simp [hother]) a ha
    · refine List.pairwise_append.mpr ⟨hfirst, List.pairwise_cons.mpr ⟨?_, hrest⟩, ?_⟩
      · -- a later cluster of the group starts behind this one, where the item could not join
        intro other hother hsame
        have hbehind := hnext other hother hsame
        have hstart := hheads other (by simp [hother]) (hsame.symm.trans hgroup.symm)
        omega
      · intro other hother later hlater' hsame
        rcases List.mem_cons.mp hlater' with rfl | hlater'
        · have hbehind := hacross other hother cluster (List.mem_cons_self ..) hsame
          rw [Cluster.lower_add]
          omega
        · exact hacross other hother later (List.mem_cons_of_mem _ hlater') hsame
  · rw [place_of_none hnone]
    constructor
    · intro cluster hcluster a ha
      rcases List.mem_append.mp hcluster with hcluster | hcluster
      · exact h.grouped cluster hcluster a ha
      · rw [List.mem_singleton.mp hcluster] at ha ⊢
        rw [List.mem_singleton.mp ha]
    · refine List.pairwise_append.mpr ⟨h.apart, List.pairwise_singleton _ _, ?_⟩
      intro cluster hcluster other hother hsame
      rw [List.mem_singleton.mp hother] at hsame ⊢
      have hmisses := of_decide_eq_false (hnone cluster hcluster)
      have hlower := hheads cluster hcluster hsame
      have hgroup : group item = group cluster.head := hsame.symm
      have hsingle : (⟨item, []⟩ : Cluster α).lower low = low item := rfl
      by_contra hmeets
      exact hmisses ⟨hgroup, by omega, by omega⟩

/-- A list in which no later range of a group starts earlier. -/
theorem separate_gather
    {items : List α}
    (hranges : ∀ a ∈ items, low a ≤ high a)
    (hsorted : items.Pairwise (fun a b => group a = group b → low a ≤ low b)) :
    Separate group low high (gather (overlaps group low high) items) := by
  induction items using List.reverseRecOn with
  | nil => exact ⟨by simp [gather], by simp [gather]⟩
  | append_singleton items item ih =>
      obtain ⟨hitems, -, hlater⟩ := List.pairwise_append.mp hsorted
      rw [gather_append]
      refine Separate.place (hranges item (by simp)) ?_
        (ih (fun a ha => hranges a (List.mem_append_left _ ha)) hitems)
      intro cluster hcluster a ha hgroup
      exact hlater a (mem_of_mem_gather hcluster ha) item (by simp) hgroup

/-- Ranges that are apart already make a cluster each. -/
theorem gather_of_apart
    {items : List α}
    (hapart : items.Pairwise (fun a b => group a = group b → high a < low b)) :
    gather (overlaps group low high) items = items.map (fun a => ⟨a, []⟩) := by
  induction items using List.reverseRecOn with
  | nil => rfl
  | append_singleton items item ih =>
      obtain ⟨hitems, -, hlater⟩ := List.pairwise_append.mp hapart
      rw [gather_append, ih hitems, place_of_none, List.map_append]
      · rfl
      · intro cluster hcluster
        obtain ⟨a, ha, rfl⟩ := List.mem_map.mp hcluster
        refine decide_eq_false ?_
        rintro ⟨hgroup, hmeets, _⟩
        have hbehind := hlater a ha item (by simp) hgroup.symm
        have hsingle : (⟨a, []⟩ : Cluster α).upper high = high a := rfl
        omega

/-! ## Chains of overlapping ranges -/

variable (group low high) in
/-- Two items of a list are of one group, and their ranges overlap. -/
def Meets (items : List α) (a b : α) : Prop :=
  a ∈ items ∧ b ∈ items ∧ group a = group b ∧ low a ≤ high b ∧ low b ≤ high a

omit [DecidableEq γ] in
theorem Meets.symm
    {items : List α} {a b : α}
    (h : Meets group low high items a b) :
    Meets group low high items b a := by
  obtain ⟨ha, hb, hgroup, hab, hba⟩ := h
  exact ⟨hb, ha, hgroup.symm, hba, hab⟩

omit [DecidableEq γ] in
theorem Meets.append
    {items : List α} {item a b : α}
    (h : Meets group low high items a b) :
    Meets group low high (items ++ [item]) a b :=
  ⟨List.mem_append_left _ h.1, List.mem_append_left _ h.2.1, h.2.2⟩

omit [DecidableEq γ] in
/-- Items of two clusters with disjoint hulls do not overlap. -/
theorem eq_of_meets
    {clusters : List (Cluster α)} {c d : Cluster α} {items : List α} {a b : α}
    (hseparate : Separate group low high clusters)
    (hc : c ∈ clusters) (hd : d ∈ clusters) (ha : a ∈ c.members) (hb : b ∈ d.members)
    (hmeets : Meets group low high items a b) :
    c = d := by
  have hnever : clusters.Pairwise (fun c d => ∀ a ∈ c.members, ∀ b ∈ d.members,
      ¬ Meets group low high items a b) := by
    refine hseparate.apart.imp_of_mem ?_
    rintro c d hc hd happart a ha b hb ⟨_, _, hgroup, _, hmeets⟩
    have hbetween := happart ((hseparate.grouped c hc a ha).symm.trans
      (hgroup.trans (hseparate.grouped d hd b hb)))
    have hupper : high a ≤ c.upper high := Cluster.le_upper ha
    have hlower : d.lower low ≤ low b := Cluster.lower_le hb
    omega
  have hsymmetric : Std.Symm (fun c d : Cluster α => ∀ a ∈ c.members, ∀ b ∈ d.members,
      ¬ Meets group low high items a b) :=
    ⟨fun _ _ h b hb a ha hmeets => h a ha b hb hmeets.symm⟩
  by_contra hne
  exact hnever.forall hc hd hne a ha b hb hmeets

/-- A chain of overlapping ranges leads from the first item of a cluster to each of its items. -/
theorem chain_gather
    {items : List α}
    (hranges : ∀ a ∈ items, low a ≤ high a)
    (hsorted : items.Pairwise (fun a b => group a = group b → low a ≤ low b)) :
    ∀ cluster ∈ gather (overlaps group low high) items, ∀ a ∈ cluster.members,
      Relation.ReflTransGen (Meets group low high items) cluster.head a := by
  induction items using List.reverseRecOn with
  | nil => simp [gather]
  | append_singleton items item ih =>
      obtain ⟨hitems, -, hlater⟩ := List.pairwise_append.mp hsorted
      have hranges' : ∀ a ∈ items, low a ≤ high a :=
        fun a ha => hranges a (List.mem_append_left _ ha)
      have hseparate : Separate group low high (gather (overlaps group low high) items) :=
        separate_gather hranges' hitems
      have hchain : ∀ cluster ∈ gather (overlaps group low high) items, ∀ a ∈ cluster.members,
          Relation.ReflTransGen (Meets group low high (items ++ [item])) cluster.head a :=
        fun cluster hcluster a ha => (ih hranges' hitems cluster hcluster a ha).lift id
          (fun _ _ => Meets.append)
      rw [gather_append]
      rcases place_cases (overlaps group low high) item
        (gather (overlaps group low high) items) with
        ⟨before, joined, after, hsplit, hbefore, hjoins⟩ | hnone
      · rw [hsplit] at hchain hseparate
        rw [hsplit, place_of_join hbefore hjoins]
        intro cluster hcluster a ha
        have hsame : cluster ∈ before ++ joined :: after ∨ cluster = joined.add item := by
          simp only [List.mem_append, List.mem_cons] at hcluster ⊢
          tauto
        rcases hsame with hcluster | rfl
        · exact hchain cluster hcluster a ha
        · rw [Cluster.members_add, List.mem_append] at ha
          rcases ha with ha | ha
          · exact hchain joined (by simp) a ha
          · -- the item overlaps the member that reaches farthest
            obtain ⟨hgroup, hmeets, _⟩ := of_decide_eq_true hjoins
            obtain ⟨member, hmember, hupper⟩ := List.mem_map.mp (joined.upper_spec high).1
            have hcluster' : joined ∈ gather (overlaps group low high) items := by simp [hsplit]
            have hin := mem_of_mem_gather hcluster' hmember
            have hgroup' : group member = group item :=
              (hseparate.grouped joined (by simp) member hmember).trans hgroup.symm
            have hstart := hlater member hin item (by simp) hgroup'
            have hitem := hranges item (by simp)
            rw [List.mem_singleton.mp ha]
            refine (hchain joined (by simp) member hmember).tail ?_
            exact ⟨List.mem_append_left _ hin, by simp, hgroup', by omega, by omega⟩
      · rw [place_of_none hnone]
        intro cluster hcluster a ha
        rcases List.mem_append.mp hcluster with hcluster | hcluster
        · exact hchain cluster hcluster a ha
        · obtain rfl := List.mem_singleton.mp hcluster
          rw [List.mem_singleton.mp ha]

/-- Two items are in one cluster if and only if a chain of overlapping ranges joins them. -/
theorem same_cluster_iff
    {items : List α} {a b : α}
    (hranges : ∀ a ∈ items, low a ≤ high a)
    (hsorted : items.Pairwise (fun a b => group a = group b → low a ≤ low b))
    (ha : a ∈ items) :
    (∃ cluster ∈ gather (overlaps group low high) items,
      a ∈ cluster.members ∧ b ∈ cluster.members) ↔
        Relation.ReflTransGen (Meets group low high items) a b := by
  have hseparate : Separate group low high (gather (overlaps group low high) items) :=
    separate_gather hranges hsorted
  constructor
  · rintro ⟨cluster, hcluster, ha, hb⟩
    have hchain := chain_gather hranges hsorted cluster hcluster
    have hsymmetric : Std.Symm (Meets group low high items) := ⟨fun _ _ => Meets.symm⟩
    exact (Relation.ReflTransGen.stdSymm.symm _ _ (hchain a ha)).trans (hchain b hb)
  · intro hchain
    induction hchain with
    | refl =>
        obtain ⟨cluster, hcluster, hmember⟩ := exists_cluster ha
        exact ⟨cluster, hcluster, hmember, hmember⟩
    | tail _ hmeets ih =>
        obtain ⟨cluster, hcluster, hfirst, hmember⟩ := ih
        obtain ⟨other, hother, hnext⟩ := exists_cluster hmeets.2.1
        obtain rfl := eq_of_meets hseparate hcluster hother hmember hnext hmeets
        exact ⟨cluster, hcluster, hfirst, hnext⟩

end Ranges

/-! ## Items with one key -/

section Maps

variable {α β γ : Type} [DecidableEq γ]

def Cluster.map (f : α → β) (cluster : Cluster α) : Cluster β where
  head := f cluster.head
  rest := cluster.rest.map f

@[simp] theorem Cluster.members_map
    (f : α → β) (cluster : Cluster α) :
    (cluster.map f).members = cluster.members.map f := by
  rfl

@[simp] theorem Cluster.lower_map
    (f : α → β) (low : β → Nat) (cluster : Cluster α) :
    (cluster.map f).lower low = cluster.lower (fun a => low (f a)) := by
  simp [Cluster.lower, Cluster.map, Function.comp_def]

@[simp] theorem Cluster.upper_map
    (f : α → β) (high : β → Nat) (cluster : Cluster α) :
    (cluster.map f).upper high = cluster.upper (fun a => high (f a)) := by
  simp [Cluster.upper, Cluster.map, Function.comp_def]

/-- What is clustered are the groups and the ranges; the items are carried along. -/
theorem gather_map
    (f : α → β) (group : β → γ) (low high : β → Nat) (items : List α) :
    gather (overlaps group low high) (items.map f) =
      (gather (overlaps (fun a => group (f a)) (fun a => low (f a)) (fun a => high (f a)))
        items).map (Cluster.map f) := by
  have hplace : ∀ item (clusters : List (Cluster α)),
      place (overlaps group low high) (f item) (clusters.map (Cluster.map f)) =
        (place (overlaps (fun a => group (f a)) (fun a => low (f a)) (fun a => high (f a)))
          item clusters).map (Cluster.map f) := by
    intro item clusters
    induction clusters with
    | nil => rfl
    | cons cluster rest ih =>
        have hjoins : overlaps group low high (f item) (cluster.map f) =
            overlaps (fun a => group (f a)) (fun a => low (f a)) (fun a => high (f a))
              item cluster := by
          rw [overlaps, Cluster.upper_map, Cluster.lower_map]
          rfl
        rw [List.map_cons, place, place, hjoins, ih]
        split
        · simp [Cluster.map, Cluster.add]
        · rfl
  induction items using List.reverseRecOn with
  | nil => rfl
  | append_singleton items item ih =>
      rw [List.map_append, List.map_singleton, gather_append, gather_append, ih, hplace]

end Maps

/-- Items with the same keys, in order, are clustered in the same way. -/
theorem gather_keys
    {α γ κ : Type} [DecidableEq γ] [Nonempty γ]
    {group : α → γ} {low high : α → Nat} {key : α → κ}
    (htells : ∀ a b, key a = key b → group a = group b ∧ low a = low b ∧ high a = high b)
    {items items' : List α}
    (hkeys : items.map key = items'.map key) :
    (gather (overlaps group low high) items).map (Cluster.map key) =
      (gather (overlaps group low high) items').map (Cluster.map key) := by
  obtain ⟨groupOf, rfl⟩ := (Function.factorsThrough_iff group).mp
    (fun a b hkey => (htells a b hkey).1)
  obtain ⟨lowOf, rfl⟩ := (Function.factorsThrough_iff low).mp
    (fun a b hkey => (htells a b hkey).2.1)
  obtain ⟨highOf, rfl⟩ := (Function.factorsThrough_iff high).mp
    (fun a b hkey => (htells a b hkey).2.2)
  have hsame := gather_map key groupOf lowOf highOf
  exact (hsame items).symm.trans (hkeys ▸ hsame items')

section Ties

variable {α γ κ : Type} [DecidableEq γ] [LinearOrder κ]
variable {group : α → γ} {low high : α → Nat}
variable (key : α → κ)

/-- The items with a key of the cluster are in it, in their order. -/
structure Whole (items : List α) (clusters : List (Cluster α)) : Prop where
  whole : ∀ cluster ∈ clusters, cluster.members =
    items.filter (fun a => decide (key a ∈ cluster.members.map key))
  parted : clusters.Pairwise (fun c d => ∀ a ∈ c.members, ∀ b ∈ d.members, key a ≠ key b)

variable {key}

theorem Whole.mem
    {items : List α} {clusters : List (Cluster α)} {cluster : Cluster α} {a b : α}
    (h : Whole key items clusters) (hcluster : cluster ∈ clusters) (ha : a ∈ cluster.members)
    (hb : b ∈ items) (hkey : key b = key a) :
    b ∈ cluster.members := by
  rw [h.whole cluster hcluster]
  refine List.mem_filter.mpr ⟨hb, decide_eq_true ?_⟩
  exact hkey ▸ List.mem_map_of_mem ha

/-- An item with a key of no other cluster is added. -/
theorem Whole.filter_add
    {items : List α} {cluster : Cluster α} {item : α}
    (hwhole : cluster.members =
      items.filter (fun a => decide (key a ∈ cluster.members.map key)))
    (hother : key item ∉ cluster.members.map key) :
    cluster.members =
      (items ++ [item]).filter (fun a => decide (key a ∈ cluster.members.map key)) := by
  rw [List.filter_append, List.filter_singleton, decide_eq_false hother, cond_false,
    List.append_nil]
  exact hwhole

theorem Whole.add
    {items : List α} {before after : List (Cluster α)} {cluster : Cluster α} {item : α}
    (h : Whole key items (before ++ cluster :: after))
    (htied : ∀ a ∈ items, key a = key item → a ∈ cluster.members)
    (hothers : ∀ other ∈ before ++ after, key item ∉ other.members.map key) :
    Whole key (items ++ [item]) (before ++ cluster.add item :: after) := by
  obtain ⟨hfirst, hrest, hacross⟩ := List.pairwise_append.mp h.parted
  obtain ⟨hnext, hrest⟩ := List.pairwise_cons.mp hrest
  have hitem : ∀ other ∈ before ++ after, ∀ a ∈ other.members, key a ≠ key item :=
    fun other hother a ha hkey => hothers other hother (hkey ▸ List.mem_map_of_mem ha)
  constructor
  · intro other hother
    have hsame : other ∈ before ++ after ∨ other = cluster.add item := by
      simp only [List.mem_append, List.mem_cons] at hother ⊢
      tauto
    rcases hsame with hother | rfl
    · refine Whole.filter_add (h.whole other ?_) (hothers other hother)
      simp only [List.mem_append, List.mem_cons] at hother ⊢
      tauto
    · have hkeys : items.filter (fun a => decide (key a ∈ (cluster.add item).members.map key)) =
          items.filter (fun a => decide (key a ∈ cluster.members.map key)) := by
        refine List.filter_congr (fun a ha => decide_eq_decide.mpr ?_)
        rw [Cluster.members_add, List.map_append, List.mem_append]
        constructor
        · rintro (hmem | hlast)
          · exact hmem
          · exact List.mem_map_of_mem (htied a ha (by simpa using hlast))
        · exact .inl
      rw [List.filter_append, hkeys, ← h.whole cluster (by simp)]
      simp
  · refine List.pairwise_append.mpr ⟨hfirst, List.pairwise_cons.mpr ⟨?_, hrest⟩, ?_⟩
    · intro other hother a ha b hb
      rw [Cluster.members_add, List.mem_append] at ha
      rcases ha with ha | ha
      · exact hnext other hother a ha b hb
      · rw [List.mem_singleton.mp ha]
        exact (hitem other (List.mem_append_right _ hother) b hb).symm
    · intro other hother later hlater a ha b hb
      rcases List.mem_cons.mp hlater with rfl | hlater
      · rw [Cluster.members_add, List.mem_append] at hb
        rcases hb with hb | hb
        · exact hacross other hother cluster (List.mem_cons_self ..) a ha b hb
        · rw [List.mem_singleton.mp hb]
          exact hitem other (List.mem_append_left _ hother) a ha
      · exact hacross other hother later (List.mem_cons_of_mem _ hlater) a ha b hb

/-- An item with a new key makes a new cluster. -/
theorem Whole.new
    {items : List α} {clusters : List (Cluster α)} {item : α}
    (h : Whole key items clusters)
    (hfresh : ∀ a ∈ items, key a ≠ key item) :
    Whole key (items ++ [item]) (clusters ++ [⟨item, []⟩]) := by
  have hmembers : ∀ cluster ∈ clusters, ∀ a ∈ cluster.members, key a ≠ key item := by
    intro cluster hcluster a ha
    rw [h.whole cluster hcluster] at ha
    exact hfresh a (List.mem_filter.mp ha).1
  constructor
  · intro cluster hcluster
    rcases List.mem_append.mp hcluster with hcluster | hcluster
    · refine Whole.filter_add (h.whole cluster hcluster) (fun hkey => ?_)
      obtain ⟨a, ha, heq⟩ := List.mem_map.mp hkey
      exact hmembers cluster hcluster a ha heq
    · obtain rfl := List.mem_singleton.mp hcluster
      have hnone : items.filter (fun a => decide (key a = key item)) = [] :=
        List.filter_eq_nil_iff.mpr (fun a ha => by simpa using hfresh a ha)
      simp [Cluster.members, List.filter_append, hnone]
  · refine List.pairwise_append.mpr ⟨h.parted, List.pairwise_singleton _ _, ?_⟩
    intro cluster hcluster other hother a ha b hb
    obtain rfl := List.mem_singleton.mp hother
    obtain rfl := List.mem_singleton.mp hb
    exact hmembers cluster hcluster a ha

variable (group low high) in
omit [LinearOrder κ] in
/-- Behind an item, every item of its key joins its cluster. -/
theorem joined_last
    (htells : ∀ a b, key a = key b → group a = group b ∧ low a = low b ∧ high a = high b)
    (items : List α) {last : α}
    (hrange : low last ≤ high last) :
    ∃ before cluster after,
      gather (overlaps group low high) (items ++ [last]) = before ++ cluster :: after ∧
      last ∈ cluster.members ∧
      ∀ item, key item = key last →
        (∀ other ∈ before, overlaps group low high item other = false) ∧
        overlaps group low high item cluster = true := by
  have hsame : ∀ item cluster, key item = key last →
      overlaps group low high item cluster = overlaps group low high last cluster := by
    intro item cluster hkey
    obtain ⟨hgroup, hlow, hhigh⟩ := htells item last hkey
    rw [overlaps, overlaps, hgroup, hlow, hhigh]
  rw [gather_append]
  rcases place_cases (overlaps group low high) last
    (gather (overlaps group low high) items) with
    ⟨before, cluster, after, hsplit, hbefore, hjoins⟩ | hnone
  · obtain ⟨hgroup, hmeets, hmeets'⟩ := of_decide_eq_true hjoins
    rw [hsplit, place_of_join hbefore hjoins]
    refine ⟨before, cluster.add last, after, rfl, by simp, fun item hkey => ⟨?_, ?_⟩⟩
    · intro other hother
      rw [hsame item other hkey]
      exact hbefore other hother
    · rw [hsame item _ hkey, overlaps, Cluster.upper_add, Cluster.lower_add]
      exact decide_eq_true ⟨hgroup, by omega, by omega⟩
  · rw [place_of_none hnone]
    refine ⟨_, ⟨last, []⟩, [], rfl, Cluster.head_mem _, fun item hkey => ⟨?_, ?_⟩⟩
    · intro other hother
      rw [hsame item other hkey]
      exact hnone other hother
    · rw [hsame item _ hkey]
      exact decide_eq_true ⟨rfl, hrange, hrange⟩

/-- A key behind a sorted list that is not the last one's is no earlier one's either. -/
theorem fresh_of_last
    {items : List α} {k : κ}
    (hsorted : items.Pairwise (fun a b => key a ≤ key b))
    (hle : ∀ a ∈ items, key a ≤ k)
    (hlast : ∀ earlier last, items = earlier ++ [last] → k ≠ key last) :
    ∀ a ∈ items, key a ≠ k := by
  rintro a ha rfl
  rcases List.eq_nil_or_concat items with rfl | ⟨earlier, last, hconcat⟩
  · cases ha
  · rw [List.concat_eq_append] at hconcat
    refine hlast earlier last hconcat (le_antisymm ?_ (hle last (by simp [hconcat])))
    rw [hconcat, List.pairwise_append] at hsorted
    rw [hconcat] at ha
    rcases List.mem_append.mp ha with ha | ha
    · exact hsorted.2.2 a ha last (by simp)
    · rw [List.mem_singleton.mp ha]

/-- In a sorted list, the items with one key are in one cluster. -/
theorem whole_gather
    (htells : ∀ a b, key a = key b → group a = group b ∧ low a = low b ∧ high a = high b)
    {items : List α}
    (hranges : ∀ a ∈ items, low a ≤ high a)
    (hsorted : items.Pairwise (fun a b => key a ≤ key b)) :
    Whole key items (gather (overlaps group low high) items) := by
  induction items using List.reverseRecOn with
  | nil => exact ⟨by simp [gather], by simp [gather]⟩
  | append_singleton items item ih =>
      obtain ⟨hitems, -, hlater⟩ := List.pairwise_append.mp hsorted
      have hle : ∀ a ∈ items, key a ≤ key item := fun a ha => hlater a ha item (by simp)
      have hwhole := ih (fun a ha => hranges a (List.mem_append_left _ ha)) hitems
      rw [gather_append]
      by_cases hlast : ∃ earlier last, items = earlier ++ [last] ∧ key item = key last
      · obtain ⟨earlier, last, rfl, hkey⟩ := hlast
        obtain ⟨before, cluster, after, hsplit, hmem, hjoin⟩ :=
          joined_last group low high htells earlier (hranges last (by simp))
        obtain ⟨hbefore, hjoins⟩ := hjoin item hkey
        rw [hsplit] at hwhole ⊢
        rw [place_of_join hbefore hjoins]
        refine hwhole.add (fun a ha hsame => ?_) (fun other hother hkeys => ?_)
        · exact hwhole.mem (by simp) hmem ha (hsame.trans hkey)
        · obtain ⟨b, hb, hsame⟩ := List.mem_map.mp hkeys
          obtain ⟨-, hrest, hacross⟩ := List.pairwise_append.mp hwhole.parted
          rcases List.mem_append.mp hother with hother | hother
          · exact hacross other hother cluster (List.mem_cons_self ..) b hb last hmem
              (hsame.trans hkey)
          · exact (List.pairwise_cons.mp hrest).1 other hother last hmem b hb
              (hkey.symm.trans hsame.symm)
      · have hfresh := fresh_of_last hitems hle
          (fun earlier last hsplit hkey => hlast ⟨earlier, last, hsplit, hkey⟩)
        rcases place_cases (overlaps group low high) item
          (gather (overlaps group low high) items) with
          ⟨before, cluster, after, hsplit, hbefore, hjoins⟩ | hnone
        · have hmembers := hwhole.whole
          rw [hsplit] at hwhole hmembers ⊢
          rw [place_of_join hbefore hjoins]
          refine hwhole.add (fun a ha hsame => absurd hsame (hfresh a ha))
            (fun other hother hkeys => ?_)
          obtain ⟨b, hb, hsame⟩ := List.mem_map.mp hkeys
          have hin : other ∈ before ++ cluster :: after := by
            simp only [List.mem_append, List.mem_cons] at hother ⊢
            tauto
          rw [hmembers other hin] at hb
          exact hfresh b (List.mem_filter.mp hb).1 hsame
        · rw [place_of_none hnone]
          exact hwhole.new hfresh

end Ties

end Lib
end PrReviewer
