import Mathlib.Data.Finset.Card
import Mathlib.Data.List.Nodup
import Mathlib.Tactic

/-!
# Breadth-first search to a depth

A queue of nodes with their levels, and the nodes that were found so far.  The start is in
the queue and is not found before it is met again.  The search may be interrupted at the
head of its loop.

Every node is found once, its level is the length of its shortest way to the start, and the
levels do not decrease.
-/

namespace PrReviewer
namespace Lib

universe u

structure Search (α : Type u) where
  seen : Finset α
  found : List α
  queue : List (α × Nat)

section Search

variable {α : Type u}

/-- The loop over the neighbours of a node of some level. -/
def visit [DecidableEq α] (level : Nat) : Search α → List α → Search α
  | s, [] => s
  | s, y :: ys =>
      if y ∈ s.seen then visit level s ys
      else visit level ⟨insert y s.seen, s.found ++ [y], s.queue ++ [(y, level + 1)]⟩ ys

/-- The loop over the queue; `none` says that the fuel is spent. -/
def searchFrom [DecidableEq α] (next : α → List α) (depth : Int) (interrupted : Nat → Bool) :
    Nat → Nat → Search α → Option (Option (List α))
  | 0, _, _ => none
  | fuel + 1, turn, s =>
      match s.queue with
      | [] => some (some s.found)
      | (current, level) :: queue =>
          if interrupted turn = true then some none
          else if (level : Int) ≥ depth then
            searchFrom next depth interrupted fuel (turn + 1) { s with queue := queue }
          else
            searchFrom next depth interrupted fuel (turn + 1)
              (visit level { s with queue := queue } (next current))

/-- A way of some length to the start, along the neighbours. -/
def Way (next : α → List α) (start : α) : Nat → α → Prop
  | 0, y => y = start
  | n + 1, y => ∃ x, Way next start n x ∧ y ∈ next x

/-- The length of the shortest way that is not empty. -/
def Distance (next : α → List α) (start y : α) (n : Nat) : Prop :=
  1 ≤ n ∧ Way next start n y ∧ ∀ m, 1 ≤ m → Way next start m y → n ≤ m

/-- What the neighbours of a node add to a search. -/
structure Visited (level : Nat) (ys : List α) (s s' : Search α) (fresh : List α) : Prop where
  seen : ∀ y, y ∈ s'.seen ↔ y ∈ s.seen ∨ y ∈ fresh
  found : s'.found = s.found ++ fresh
  queue : s'.queue = s.queue ++ fresh.map fun y => (y, level + 1)
  nodup : fresh.Nodup
  new : ∀ y ∈ fresh, y ∉ s.seen ∧ y ∈ ys
  met : ∀ y ∈ ys, y ∈ s'.seen

theorem visit_visited [DecidableEq α] (level : Nat) (s : Search α) (ys : List α) :
    ∃ fresh, Visited level ys s (visit level s ys) fresh := by
  induction ys generalizing s with
  | nil => exact ⟨[], by simp [visit], by simp [visit], by simp [visit], List.nodup_nil,
      nofun, nofun⟩
  | cons y ys ih =>
      by_cases hy : y ∈ s.seen
      · obtain ⟨fresh, hseen, hfound, hqueue, hnodup, hnew, hmet⟩ := ih s
        rw [visit, if_pos hy]
        refine ⟨fresh, hseen, hfound, hqueue, hnodup, ?_, ?_⟩
        · exact fun z hz => ⟨(hnew z hz).1, List.mem_cons_of_mem y (hnew z hz).2⟩
        · intro z hz
          rcases List.mem_cons.mp hz with rfl | hz
          · exact (hseen z).mpr (Or.inl hy)
          · exact hmet z hz
      · obtain ⟨fresh, hseen, hfound, hqueue, hnodup, hnew, hmet⟩ :=
          ih ⟨insert y s.seen, s.found ++ [y], s.queue ++ [(y, level + 1)]⟩
        rw [visit, if_neg hy]
        refine ⟨y :: fresh, ?_, by simp [hfound], by simp [hqueue], ?_, ?_, ?_⟩
        · intro z
          rw [hseen]
          simp only [Finset.mem_insert, List.mem_cons]
          tauto
        · exact List.nodup_cons.mpr ⟨fun h => (hnew y h).1 (Finset.mem_insert_self y s.seen), hnodup⟩
        · intro z hz
          rcases List.mem_cons.mp hz with rfl | hz
          · exact ⟨hy, List.mem_cons_self⟩
          · refine ⟨fun h => (hnew z hz).1 (Finset.mem_insert_of_mem h), ?_⟩
            exact List.mem_cons_of_mem y (hnew z hz).2
        · intro z hz
          rcases List.mem_cons.mp hz with rfl | hz
          · exact (hseen z).mpr (Or.inl (Finset.mem_insert_self z s.seen))
          · exact hmet z hz

/-- The invariant of the loop, with the nodes that have left the queue. -/
structure Searched (next : α → List α) (start : α) (depth : Int)
    (done ranked : List (α × Nat)) (s : Search α) : Prop where
  split : (start, 0) :: ranked = done ++ s.queue
  found : s.found = ranked.map Prod.fst
  seen : ∀ y, y ∈ s.seen ↔ y ∈ s.found
  nodup : s.found.Nodup
  way : ∀ node ∈ ranked, 1 ≤ node.2 ∧ (node.2 : Int) ≤ depth ∧ Way next start node.2 node.1
  sorted : ((start, 0) :: ranked).Pairwise fun a b => a.2 ≤ b.2
  near : ∀ first ∈ s.queue.head?, ∀ node ∈ ranked, node.2 ≤ first.2 + 1
  closed : ∀ node ∈ done, (node.2 : Int) < depth → ∀ y ∈ next node.1,
    ∃ n, (y, n) ∈ ranked ∧ n ≤ node.2 + 1

variable {next : α → List α} {start : α} {depth : Int}

theorem Searched.begin :
    Searched next start depth [] [] ⟨∅, [], [(start, 0)]⟩ where
  split := rfl
  found := rfl
  seen := by simp
  nodup := List.nodup_nil
  way := nofun
  sorted := List.pairwise_singleton _ _
  near := nofun
  closed := nofun

section Head

variable {done ranked : List (α × Nat)} {s : Search α} {current : α} {level : Nat}
variable {queue : List (α × Nat)}

/-- No node behind the first of the queue has a lower level. -/
theorem Searched.level_le
    (h : Searched next start depth done ranked s) (hqueue : s.queue = (current, level) :: queue)
    (node : α × Nat) (hnode : node ∈ queue) :
    level ≤ node.2 := by
  have hsorted := h.sorted
  rw [h.split, hqueue, List.pairwise_append] at hsorted
  exact List.rel_of_pairwise_cons hsorted.2.1 hnode

theorem Searched.way_head
    (h : Searched next start depth done ranked s) (hqueue : s.queue = (current, level) :: queue) :
    Way next start level current := by
  have hmem : (current, level) ∈ (start, 0) :: ranked := by
    rw [h.split, hqueue]
    simp
  rcases List.mem_cons.mp hmem with heq | hranked
  · cases heq
    rfl
  · exact (h.way _ hranked).2.2

/-- A node at the depth leaves the queue. -/
theorem Searched.skip
    (h : Searched next start depth done ranked s) (hqueue : s.queue = (current, level) :: queue)
    (hdepth : (level : Int) ≥ depth) :
    Searched next start depth (done ++ [(current, level)]) ranked { s with queue := queue } where
  split := by simp [h.split, hqueue]
  found := h.found
  seen := h.seen
  nodup := h.nodup
  way := h.way
  sorted := h.sorted
  near := by
    intro first hfirst node hnode
    have hle := h.level_le hqueue first (List.mem_of_mem_head? hfirst)
    have hnear := h.near (current, level) (by simp [hqueue]) node hnode
    simp only at hnear
    omega
  closed := by
    intro node hnode hlow
    rcases List.mem_append.mp hnode with hdone | hlast
    · exact h.closed node hdone hlow
    · have heq : node = (current, level) := by simpa using hlast
      rw [heq] at hlow
      exact absurd hlow (not_lt.mpr hdepth)

/-- A node above the depth leaves the queue, and its neighbours are visited. -/
theorem Searched.step
    (h : Searched next start depth done ranked s) (hqueue : s.queue = (current, level) :: queue)
    (hdepth : (level : Int) < depth) {s' : Search α} {fresh : List α}
    (hvisited : Visited level (next current) { s with queue := queue } s' fresh) :
    Searched next start depth (done ++ [(current, level)])
      (ranked ++ fresh.map fun y => (y, level + 1)) s' := by
  obtain ⟨hseen, hfound, hqueue', hnodup, hnew, hmet⟩ := hvisited
  simp only at hseen hfound hqueue' hnew
  have hnear : ∀ node ∈ ranked, node.2 ≤ level + 1 :=
    h.near (current, level) (by simp [hqueue])
  have hlevels : ∀ node ∈ ranked ++ fresh.map (fun y => (y, level + 1)), node.2 ≤ level + 1 := by
    intro node hnode
    rcases List.mem_append.mp hnode with hold | hfresh
    · exact hnear node hold
    · obtain ⟨y, -, rfl⟩ := List.mem_map.mp hfresh
      exact le_refl _
  have hseen' : ∀ y, y ∈ s'.seen ↔ y ∈ s'.found := by
    intro y
    rw [hseen, h.seen, hfound, List.mem_append]
  have hfound' : s'.found = (ranked ++ fresh.map fun y => (y, level + 1)).map Prod.fst := by
    simp [hfound, h.found, Function.comp_def]
  refine ⟨?_, hfound', hseen', ?_, ?_, ?_, ?_, ?_⟩
  · rw [hqueue', ← List.cons_append, h.split, hqueue]
    simp
  · rw [hfound, List.nodup_append]
    refine ⟨h.nodup, hnodup, ?_⟩
    rintro x hx y hy rfl
    exact (hnew x hy).1 ((h.seen x).mpr hx)
  · intro node hnode
    rcases List.mem_append.mp hnode with hold | hfresh
    · exact h.way node hold
    · obtain ⟨y, hy, rfl⟩ := List.mem_map.mp hfresh
      refine ⟨by omega, by push_cast; omega, current, h.way_head hqueue, (hnew y hy).2⟩
  · rw [← List.cons_append, List.pairwise_append]
    refine ⟨h.sorted, ?_, ?_⟩
    · exact List.pairwise_map.mpr (List.pairwise_of_forall fun _ _ => le_refl _)
    · intro a ha b hb
      obtain ⟨y, -, rfl⟩ := List.mem_map.mp hb
      rcases List.mem_cons.mp ha with rfl | hranked
      · exact Nat.zero_le _
      · exact hnear a hranked
  · intro first hfirst node hnode
    have hlevel := hlevels node hnode
    have hmem : first ∈ queue ++ fresh.map fun y => (y, level + 1) := by
      rw [← hqueue']
      exact List.mem_of_mem_head? hfirst
    have hle : level ≤ first.2 := by
      rcases List.mem_append.mp hmem with hold | hfresh
      · exact h.level_le hqueue first hold
      · obtain ⟨y, -, rfl⟩ := List.mem_map.mp hfresh
        exact Nat.le_succ level
    omega
  · intro node hnode hlow y hy
    rcases List.mem_append.mp hnode with hdone | hlast
    · obtain ⟨n, hn, hle⟩ := h.closed node hdone hlow y hy
      exact ⟨n, List.mem_append_left _ hn, hle⟩
    · have heq : node = (current, level) := by simpa using hlast
      rw [heq] at hy ⊢
      -- A neighbour met before has a level as well, and none is above the next one.
      have hmem := (hseen' y).mp (hmet y hy)
      rw [hfound'] at hmem
      obtain ⟨ranking, hranking, rfl⟩ := List.mem_map.mp hmem
      exact ⟨ranking.2, hranking, hlevels ranking hranking⟩

end Head

/-- What a finished search has found. -/
structure Found (next : α → List α) (start : α) (depth : Int) (found : List α) : Prop where
  nodup : found.Nodup
  mem_iff : ∀ y, y ∈ found ↔ ∃ n : Nat, 1 ≤ n ∧ (n : Int) ≤ depth ∧ Way next start n y
  distance : ∀ y ∈ found, ∃ n, Distance next start y n
  sorted : found.Pairwise fun x y =>
    ∀ m n, Distance next start x m → Distance next start y n → m ≤ n

theorem Distance.unique
    {y : α} {m n : Nat} (hm : Distance next start y m) (hn : Distance next start y n) :
    m = n :=
  le_antisymm (hm.2.2 n hn.1 hn.2.1) (hn.2.2 m hm.1 hm.2.1)

section Finished

variable {done ranked : List (α × Nat)} {s : Search α}

/-- A node on a way within the depth was ranked, no higher than the way is long. -/
theorem Searched.ranked_of_way
    (h : Searched next start depth done ranked s) (hqueue : s.queue = [])
    (n : Nat) (y : α) (hdepth : ((n + 1 : Nat) : Int) ≤ depth) (hway : Way next start (n + 1) y) :
    ∃ m, (y, m) ∈ ranked ∧ m ≤ n + 1 := by
  have hdone : done = (start, 0) :: ranked := by simp [h.split, hqueue]
  induction n generalizing y with
  | zero =>
      obtain ⟨x, rfl, hy⟩ := hway
      have hlow : ((0 : Nat) : Int) < depth := by omega
      exact h.closed (x, 0) (by simp [hdone]) hlow y hy
  | succ n ih =>
      obtain ⟨x, hx, hy⟩ := hway
      obtain ⟨m, hm, hle⟩ := ih x (by omega) hx
      have hlow : (m : Int) < depth := by omega
      obtain ⟨k, hk, hkle⟩ := h.closed (x, m) (by simp [hdone, hm]) hlow y hy
      exact ⟨k, hk, by simp only at hkle; omega⟩

/-- The levels are the distances. -/
theorem Searched.distance
    (h : Searched next start depth done ranked s) (hqueue : s.queue = [])
    (node : α × Nat) (hnode : node ∈ ranked) :
    Distance next start node.1 node.2 := by
  obtain ⟨hpos, hdepth, hway⟩ := h.way node hnode
  refine ⟨hpos, hway, ?_⟩
  intro m hm hother
  by_contra hlt
  obtain ⟨n, rfl⟩ : ∃ n, m = n + 1 := ⟨m - 1, by omega⟩
  obtain ⟨k, hk, hle⟩ := h.ranked_of_way hqueue n node.1 (by omega) hother
  -- The node is ranked once.
  have hsame : node = (node.1, k) := by
    have hnodup := h.nodup
    rw [h.found] at hnodup
    exact List.inj_on_of_nodup_map hnodup hnode hk rfl
  have hlevel : node.2 = k := congrArg Prod.snd hsame
  omega

theorem Searched.result
    (h : Searched next start depth done ranked s) (hqueue : s.queue = []) :
    Found next start depth s.found where
  nodup := h.nodup
  mem_iff y := by
    rw [h.found]
    constructor
    · intro hy
      obtain ⟨node, hnode, rfl⟩ := List.mem_map.mp hy
      exact ⟨node.2, h.way node hnode⟩
    · rintro ⟨n, hpos, hdepth, hway⟩
      obtain ⟨m, rfl⟩ : ∃ m, n = m + 1 := ⟨n - 1, by omega⟩
      obtain ⟨k, hk, -⟩ := h.ranked_of_way hqueue m y hdepth hway
      exact List.mem_map.mpr ⟨(y, k), hk, rfl⟩
  distance y hy := by
    rw [h.found] at hy
    obtain ⟨node, hnode, rfl⟩ := List.mem_map.mp hy
    exact ⟨node.2, h.distance hqueue node hnode⟩
  sorted := by
    rw [h.found, List.pairwise_map]
    refine (List.pairwise_cons.mp h.sorted).2.imp_of_mem ?_
    intro a b ha hb hle m n hm hn
    rw [hm.unique (h.distance hqueue a ha), hn.unique (h.distance hqueue b hb)]
    exact hle

end Finished

/-- With fuel for the nodes that can be found, a search that is not interrupted ends. -/
theorem searchFrom_found
    [DecidableEq α]
    {interrupted : Nat → Bool} {limit : Nat} (hquiet : ∀ turn < limit, interrupted turn = false)
    (nodes : Finset α) (hnodes : ∀ x, ∀ y ∈ next x, y ∈ nodes)
    (fuel turn : Nat) (s : Search α) (done ranked : List (α × Nat))
    (h : Searched next start depth done ranked s) (hsub : ∀ y ∈ s.found, y ∈ nodes)
    (hlimit : turn + (nodes.card - s.found.length + s.queue.length) ≤ limit)
    (hfuel : nodes.card - s.found.length + s.queue.length < fuel) :
    ∃ found, searchFrom next depth interrupted fuel turn s = some (some found) ∧
      Found next start depth found := by
  induction fuel generalizing turn s done ranked with
  | zero => omega
  | succ fuel ih =>
      cases hqueue : s.queue with
      | nil => exact ⟨s.found, by simp [searchFrom, hqueue], h.result hqueue⟩
      | cons first queue =>
          obtain ⟨current, level⟩ := first
          rw [hqueue, List.length_cons] at hfuel hlimit
          have hturn := hquiet turn (by omega)
          by_cases hdepth : (level : Int) ≥ depth
          · obtain ⟨found, heq, hfound⟩ := ih (turn + 1) { s with queue := queue } _ ranked
              (h.skip hqueue hdepth) hsub (by simp only; omega) (by simp only; omega)
            exact ⟨found, by simp [searchFrom, hqueue, hturn, hdepth, heq], hfound⟩
          · obtain ⟨fresh, hvisited⟩ := visit_visited level { s with queue := queue } (next current)
            have hstep := h.step hqueue (not_le.mp hdepth) hvisited
            have hsub' : ∀ y ∈ (visit level { s with queue := queue } (next current)).found,
                y ∈ nodes := by
              intro y hy
              rw [hvisited.found] at hy
              rcases List.mem_append.mp hy with hold | hfresh
              · exact hsub y hold
              · exact hnodes current y (hvisited.new y hfresh).2
            -- What is found are different nodes, so no more than there are.
            have hcard : (visit level { s with queue := queue } (next current)).found.length ≤
                nodes.card := by
              rw [← List.toFinset_card_of_nodup hstep.nodup]
              exact Finset.card_le_card fun y hy => hsub' y (List.mem_toFinset.mp hy)
            have hless : nodes.card -
                (visit level { s with queue := queue } (next current)).found.length +
                (visit level { s with queue := queue } (next current)).queue.length + 1 =
                  nodes.card - s.found.length + (queue.length + 1) := by
              rw [hvisited.found, List.length_append] at hcard ⊢
              rw [hvisited.queue, List.length_append, List.length_map]
              simp only at hcard ⊢
              omega
            obtain ⟨found, heq, hfound⟩ :=
              ih (turn + 1) _ _ _ hstep hsub' (by omega) (by omega)
            exact ⟨found, by simp [searchFrom, hqueue, hturn, hdepth, heq], hfound⟩

end Search

end Lib
end PrReviewer
