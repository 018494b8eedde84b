import Mathlib.Data.Finset.Card
import Mathlib.Data.Rat.Defs
import Mathlib.Tactic
import PrReviewer.Lib.BoundedSearch
import PrReviewer.Lib.Text

/-!
# The blast radius of a symbol

retrieval/code_graph.py.  The walk goes from a symbol along its callers; it reads a clock at
the head of its loop and gives up after five seconds.  A graph may have cycles, repeated
edges, and edges whose ends are no nodes.
-/

namespace PrReviewer
namespace Retrieval

open Lib

structure GraphEdge where
  source : PyStr
  target : PyStr
  relation : PyStr
  confidence : PyStr
deriving DecidableEq

/-- `CodeGraph`, of whose nodes the ids are read. -/
structure CodeGraph where
  nodes : List PyStr
  edges : List GraphEdge

/-- `_BLAST_RELATIONS`. -/
def blastRelations : List PyStr :=
  [.ofString "calls", .ofString "re_exports"]

/-- `_WALK_SECONDS`. -/
def walkSeconds : ℚ := 5

/-- The edges the walk follows. -/
def GraphEdge.isBlast (edge : GraphEdge) : Bool :=
  edge.confidence = .ofString "EXTRACTED" ∧ edge.relation ∈ blastRelations

/-- `inbound.get(target, [])`. -/
def CodeGraph.inbound (graph : CodeGraph) (target : PyStr) : List PyStr :=
  (graph.edges.filter fun edge => edge.isBlast ∧ edge.target = target).map GraphEdge.source

/-- `symbol in known`. -/
def CodeGraph.known (graph : CodeGraph) (symbol : PyStr) : Bool :=
  symbol ∈ graph.nodes ∨ ∃ edge ∈ graph.edges, edge.source = symbol ∨ edge.target = symbol

/-- RuntimeError, with the symbol of its message. -/
inductive WalkError where
  | timeout (symbol : PyStr)
deriving DecidableEq

/-- The deadline has passed at a reading of the clock; the first reading sets it. -/
def deadlinePassed (clock : Nat → ℚ) (turn : Nat) : Bool :=
  clock 0 + walkSeconds - clock (turn + 1) ≤ 0

/-- `blast_radius`; `none` says that the turns of the loop are spent. -/
def CodeGraph.blastRadius (graph : CodeGraph) (clock : Nat → ℚ) (turns : Nat)
    (symbol : PyStr) (depth : Int) : Option (Except WalkError (List PyStr)) :=
  if graph.known symbol = false then some (.ok [])
  else
    match searchFrom graph.inbound depth (deadlinePassed clock) turns 0
        ⟨∅, [], [(symbol, 0)]⟩ with
    | none => none
    | some none => some (.error (.timeout symbol))
    | some (some found) => some (.ok found)

/-- A path of some length along edges the walk follows. -/
inductive CallPath (graph : CodeGraph) : Nat → PyStr → PyStr → Prop where
  | nil (node : PyStr) : CallPath graph 0 node node
  | cons {n : Nat} {target : PyStr} (edge : GraphEdge) (hedge : edge ∈ graph.edges)
      (hblast : edge.isBlast = true) (rest : CallPath graph n edge.target target) :
      CallPath graph (n + 1) edge.source target

/-- The length of the shortest path of at least one edge. -/
def CallDistance (graph : CodeGraph) (node symbol : PyStr) (n : Nat) : Prop :=
  1 ≤ n ∧ CallPath graph n node symbol ∧ ∀ m, 1 ≤ m → CallPath graph m node symbol → n ≤ m

@[simp] theorem mem_inbound
    (graph : CodeGraph) (source target : PyStr) :
    source ∈ graph.inbound target ↔
      ∃ edge ∈ graph.edges, edge.isBlast = true ∧ edge.target = target ∧ edge.source = source := by
  simp only [CodeGraph.inbound, List.mem_map, List.mem_filter, decide_eq_true_eq]
  constructor
  · rintro ⟨edge, ⟨hedge, hblast, htarget⟩, hsource⟩
    exact ⟨edge, hedge, hblast, htarget, hsource⟩
  · rintro ⟨edge, hedge, hblast, htarget, hsource⟩
    exact ⟨edge, ⟨hedge, hblast, htarget⟩, hsource⟩

/-- A path is a way of the search, from its other end. -/
theorem way_iff_callPath
    (graph : CodeGraph) (symbol : PyStr) (n : Nat) (node : PyStr) :
    Way graph.inbound symbol n node ↔ CallPath graph n node symbol := by
  induction n generalizing node with
  | zero =>
      constructor
      · rintro rfl
        exact CallPath.nil node
      · rintro ⟨⟩
        rfl
  | succ n ih =>
      constructor
      · rintro ⟨x, hx, hnode⟩
        obtain ⟨edge, hedge, hblast, rfl, rfl⟩ := (mem_inbound graph node x).mp hnode
        exact CallPath.cons edge hedge hblast ((ih edge.target).mp hx)
      · intro hpath
        cases hpath with
        | cons edge hedge hblast rest =>
            exact ⟨edge.target, (ih edge.target).mpr rest,
              (mem_inbound graph edge.source edge.target).mpr ⟨edge, hedge, hblast, rfl, rfl⟩⟩

theorem distance_iff_callDistance
    (graph : CodeGraph) (symbol node : PyStr) (n : Nat) :
    Distance graph.inbound symbol node n ↔ CallDistance graph node symbol n := by
  simp only [Distance, CallDistance, way_iff_callPath]

/-- The end of a path of at least one edge is known. -/
theorem known_of_callPath
    {graph : CodeGraph} {n : Nat} {node symbol : PyStr}
    (hpath : CallPath graph (n + 1) node symbol) :
    graph.known symbol = true := by
  induction n generalizing node with
  | zero =>
      cases hpath with
      | cons edge hedge hblast rest =>
          cases rest
          simp only [CodeGraph.known, decide_eq_true_eq]
          exact Or.inr ⟨edge, hedge, Or.inr rfl⟩
  | succ n ih =>
      cases hpath with
      | cons edge hedge hblast rest => exact ih rest

/-- The sources of edges. -/
def CodeGraph.sources (graph : CodeGraph) : Finset PyStr :=
  (graph.edges.map GraphEdge.source).toFinset

theorem mem_sources_of_inbound
    (graph : CodeGraph) (target : PyStr) :
    ∀ source ∈ graph.inbound target, source ∈ graph.sources := by
  intro source hsource
  obtain ⟨edge, hedge, -, -, rfl⟩ := (mem_inbound graph source target).mp hsource
  exact List.mem_toFinset.mpr (List.mem_map_of_mem hedge)

/-- A blast radius: every caller once, the nearer ones first. -/
structure BlastRadius (graph : CodeGraph) (symbol : PyStr) (depth : Int) (found : List PyStr) :
    Prop where
  nodup : found.Nodup
  mem_iff : ∀ node, node ∈ found ↔
    ∃ n : Nat, 1 ≤ n ∧ (n : Int) ≤ depth ∧ CallPath graph n node symbol
  distance : ∀ node ∈ found, ∃ n, CallDistance graph node symbol n
  sorted : found.Pairwise fun node node' =>
    ∀ m n, CallDistance graph node symbol m → CallDistance graph node' symbol n → m ≤ n

theorem blastRadius_of_found
    {graph : CodeGraph} {symbol : PyStr} {depth : Int} {found : List PyStr}
    (h : Found graph.inbound symbol depth found) :
    BlastRadius graph symbol depth found where
  nodup := h.nodup
  mem_iff node := by simp only [h.mem_iff, way_iff_callPath]
  distance node hnode := by
    obtain ⟨n, hn⟩ := h.distance node hnode
    exact ⟨n, (distance_iff_callDistance graph symbol node n).mp hn⟩
  sorted := by simpa only [distance_iff_callDistance] using h.sorted

/-- Of a symbol that is not known the empty list is the blast radius. -/
theorem blastRadius_of_unknown
    {graph : CodeGraph} {symbol : PyStr} {depth : Int} (hknown : graph.known symbol = false) :
    BlastRadius graph symbol depth [] where
  nodup := List.nodup_nil
  mem_iff node := by
    constructor
    · nofun
    · rintro ⟨n, hpos, -, hpath⟩
      obtain ⟨m, rfl⟩ : ∃ m, n = m + 1 := ⟨n - 1, by omega⟩
      have hsymbol := known_of_callPath hpath
      rw [hknown] at hsymbol
      cases hsymbol
  distance := nofun
  sorted := List.Pairwise.nil

/-- While the deadline is not hit, the loop ends within as many turns as there are edges and
one, and gives the nodes with a path of 1 to `depth` edges to the symbol, each once and in
the order of their distances; the symbol is among them where a cycle that short goes through
it. -/
theorem blast_radius_is_bounded_reachability
    (graph : CodeGraph) (clock : Nat → ℚ) (symbol : PyStr) (depth : Int)
    (hclock : ∀ turn ≤ graph.edges.length, clock (turn + 1) < clock 0 + walkSeconds)
    (turns : Nat) (hturns : graph.edges.length + 2 ≤ turns) :
    ∃ found, graph.blastRadius clock turns symbol depth = some (.ok found) ∧
      BlastRadius graph symbol depth found ∧
      (symbol ∈ found ↔
        ∃ n : Nat, 1 ≤ n ∧ (n : Int) ≤ depth ∧ CallPath graph n symbol symbol) := by
  cases hknown : graph.known symbol with
  | false =>
      have hradius : BlastRadius graph symbol depth [] := blastRadius_of_unknown hknown
      exact ⟨[], by simp [CodeGraph.blastRadius, hknown], hradius, hradius.mem_iff symbol⟩
  | true =>
      have hquiet : ∀ turn < graph.edges.length + 1, deadlinePassed clock turn = false := by
        intro turn hturn
        have hlt := hclock turn (Nat.le_of_lt_succ hturn)
        simp only [deadlinePassed, decide_eq_false_iff_not, not_le]
        linarith
      have hcard : graph.sources.card ≤ graph.edges.length := by
        have h := List.toFinset_card_le (graph.edges.map GraphEdge.source)
        rwa [List.length_map] at h
      have hbegin : Searched graph.inbound symbol depth [] [] ⟨∅, [], [(symbol, 0)]⟩ :=
        Searched.begin
      obtain ⟨found, heq, hfound⟩ := searchFrom_found hquiet graph.sources
        (mem_sources_of_inbound graph) turns 0 ⟨∅, [], [(symbol, 0)]⟩ [] [] hbegin nofun
        (by simp only [List.length_nil, List.length_singleton]; omega)
        (by simp only [List.length_nil, List.length_singleton]; omega)
      have hradius := blastRadius_of_found hfound
      exact ⟨found, by simp [CodeGraph.blastRadius, hknown, heq], hradius,
        hradius.mem_iff symbol⟩

/-- Two functions that call each other, a caller of one of them twice, and a clock that has
stopped. -/
theorem blast_radius_is_bounded_reachability_cycle :
    let call (source target : String) : GraphEdge :=
      ⟨.ofString source, .ofString target, .ofString "calls", .ofString "EXTRACTED"⟩
    let graph : CodeGraph :=
      ⟨[], [call "a" "b", call "b" "a", call "c" "a", call "c" "a"]⟩
    graph.blastRadius (fun _ => 0) 6 (.ofString "a") 2 =
        some (.ok [.ofString "b", .ofString "c", .ofString "a"]) ∧
      ∃ found, graph.blastRadius (fun _ => 0) 6 (.ofString "a") 2 = some (.ok found) ∧
        BlastRadius graph (.ofString "a") 2 found := by
  intro call graph
  obtain ⟨found, heq, hradius, -⟩ := blast_radius_is_bounded_reachability graph (fun _ => 0)
    (.ofString "a") 2 (fun _ _ => by norm_num [walkSeconds]) 6 (by decide)
  exact ⟨by decide +kernel, found, heq, hradius⟩

end Retrieval
end PrReviewer
