import Recompile.ImportGraph.Adjacency
import Recompile.Json.Shape

/-!
# Import graphs

An import graph says which modules depend on which.  Its edges are added one by one and removed only
all at once.  They are kept twice, once under the importer and once under the imported module, and
they are counted as they are added; only an edge that is new changes anything.  That both indexes
have the same edges, and as many as were counted, is part of the type, so a graph is determined by
the edges that it contains (`ImportGraph.ext_contains`).

Invalidation follows edges in both directions.  `ImportGraph.reachable` lists the modules connected
to some roots, breadth first: the roots in the order in which they are given, and for each module in
turn its importers and then its imports, in order, as far as they are new.
-/

namespace Recompile

/-- One module depends on another. -/
structure Edge where
  /-- The module that depends. -/
  importer : ModuleId
  /-- The module it depends on. -/
  imported : ModuleId
deriving DecidableEq, Inhabited

namespace Edge

/-- Edges are ordered by the importer, then by the imported module. -/
instance : Ord Edge := ⟨compareLex (compareOn importer) (compareOn imported)⟩

instance : Std.OrientedOrd Edge :=
  inferInstanceAs (Std.OrientedCmp (compareLex (compareOn importer) (compareOn imported)))

instance : Std.TransOrd Edge :=
  inferInstanceAs (Std.TransCmp (compareLex (compareOn importer) (compareOn imported)))

instance : Std.LawfulEqOrd Edge where
  eq_of_compare {a b} h := by
    have h : (compare a.importer b.importer).then (compare a.imported b.imported) = .eq := h
    rw [Ordering.then_eq_eq] at h
    have importers := Std.LawfulEqOrd.eq_of_compare h.1
    have importeds := Std.LawfulEqOrd.eq_of_compare h.2
    cases a; cases b; simp_all

instance : JsonShape Edge where
  toJson e := .record [("dependent", toJson e.importer), ("dependency", toJson e.imported)]
  ofJson? json := do
    match ← JsonShape.allFields? ["dependent", "dependency"] json with
    | [importer, imported] =>
      return ⟨← JsonShape.required importer, ← JsonShape.required imported⟩
    | _ => none

end Edge

/-- Which modules depend on which. -/
structure ImportGraph where
  /-- What each importer imports. -/
  imports : Adjacency
  /-- What each imported module is imported by. -/
  importers : Adjacency
  /-- The number of edges. -/
  size : Nat
  /-- Both indexes have the same edges. -/
  mirrored : ∀ importer imported,
    importer ∈ importers.get imported ↔ imported ∈ imports.get importer
  /-- Each edge was counted once. -/
  counted : size = imports.pairs.length

namespace ImportGraph

/-- A graph is determined by its first index. -/
theorem ext_imports {graph other : ImportGraph} (h : graph.imports = other.imports) :
    graph = other := by
  have hsecond : graph.importers = other.importers := by
    refine Adjacency.ext_get fun imported => Std.ExtTreeSet.ext_mem fun importer => ?_
    rw [graph.mirrored, other.mirrored, h]
  have hsize : graph.size = other.size := by
    rw [graph.counted, other.counted, h]
  cases graph
  cases other
  cases h
  cases hsecond
  cases hsize
  rfl

instance : DecidableEq ImportGraph :=
  fun _ _ => decidable_of_iff _ ⟨ext_imports, congrArg imports⟩

/-- The graph without edges. -/
def empty : ImportGraph where
  imports := .empty
  importers := .empty
  size := 0
  mirrored _ _ := by simp only [Adjacency.get_empty, Std.ExtTreeSet.not_mem_empty]
  counted := rfl

instance : Inhabited ImportGraph := ⟨empty⟩

/-- Whether an edge is in the graph. -/
def contains (graph : ImportGraph) (edge : Edge) : Bool :=
  (graph.imports.get edge.importer).contains edge.imported

/-- An edge is in the graph if its importer imports its other end. -/
theorem contains_iff {graph : ImportGraph} {edge : Edge} :
    graph.contains edge = true ↔ edge.imported ∈ graph.imports.get edge.importer :=
  Std.ExtTreeSet.contains_iff_mem

/-- The empty graph has no edges. -/
theorem not_contains_empty (edge : Edge) : ¬ empty.contains edge = true := by
  rw [contains_iff, empty, Adjacency.get_empty]
  exact Std.ExtTreeSet.not_mem_empty

/-- An edge that is added to both indexes stands in both. -/
theorem mirrored_add (graph : ImportGraph) (edge : Edge) (importer imported : ModuleId) :
    importer ∈ (graph.importers.add edge.imported edge.importer).get imported ↔
      imported ∈ (graph.imports.add edge.importer edge.imported).get importer := by
  rw [Adjacency.mem_get_add, Adjacency.mem_get_add, graph.mirrored, and_comm]

/-- A new edge adds one pair to the index by importers. -/
theorem counted_add {graph : ImportGraph} {edge : Edge} (h : ¬ graph.contains edge = true) :
    graph.size + 1 = (graph.imports.add edge.importer edge.imported).pairs.length := by
  rw [Adjacency.length_pairs_add (mt contains_iff.mpr h), graph.counted]

/-- The graph with an edge added.  The second index and the count change only if the edge is new in
the first index. -/
def insert (graph : ImportGraph) (edge : Edge) : ImportGraph :=
  if h : graph.contains edge then graph
  else
    { imports := graph.imports.add edge.importer edge.imported
      importers := graph.importers.add edge.imported edge.importer
      size := graph.size + 1
      mirrored := graph.mirrored_add edge
      counted := counted_add h }

/-- An edge is in the graph after it, or before it another way, was added. -/
theorem contains_insert (graph : ImportGraph) (edge other : Edge) :
    (graph.insert edge).contains other = (decide (edge = other) || graph.contains other) := by
  rw [Bool.eq_iff_iff, Bool.or_eq_true, decide_eq_true_iff]
  unfold insert
  split
  case isTrue h =>
    constructor
    · exact .inr
    · rintro (rfl | hother)
      · exact h
      · exact hother
  case isFalse =>
    rw [contains_iff, contains_iff, Adjacency.mem_get_add]
    cases edge
    cases other
    simp only [Edge.mk.injEq]

/-- The graph with several edges added. -/
def insertAll (graph : ImportGraph) (edges : List Edge) : ImportGraph :=
  edges.foldl insert graph

/-- The edges, in order. -/
def edges (graph : ImportGraph) : List Edge :=
  graph.imports.pairs.map fun (importer, imported) => ⟨importer, imported⟩

/-- The listed edges are those in the graph. -/
theorem mem_edges {graph : ImportGraph} {edge : Edge} :
    edge ∈ graph.edges ↔ graph.contains edge := by
  rw [edges, List.mem_map, contains_iff]
  constructor
  · rintro ⟨pair, hpair, rfl⟩
    exact Adjacency.mem_pairs.mp hpair
  · intro hedge
    exact ⟨(edge.importer, edge.imported), Adjacency.mem_pairs.mpr hedge, rfl⟩

/-- The edges are listed in order. -/
theorem pairwise_edges (graph : ImportGraph) :
    graph.edges.Pairwise fun a b => compare a b = .lt :=
  List.pairwise_map.mpr graph.imports.pairwise_pairs

/-- The modules that depend on a module, in order. -/
def importersOf (graph : ImportGraph) (id : ModuleId) : List ModuleId :=
  (graph.importers.get id).toList

/-- The importers of a module have an edge to it. -/
theorem mem_importersOf {graph : ImportGraph} {a b : ModuleId} :
    b ∈ graph.importersOf a ↔ graph.contains ⟨b, a⟩ := by
  rw [importersOf, Std.ExtTreeSet.mem_toList, graph.mirrored, contains_iff]

/-- The modules that a module depends on, in order. -/
def importsOf (graph : ImportGraph) (id : ModuleId) : List ModuleId :=
  (graph.imports.get id).toList

/-- The imports of a module have an edge from it. -/
theorem mem_importsOf {graph : ImportGraph} {a b : ModuleId} :
    b ∈ graph.importsOf a ↔ graph.contains ⟨a, b⟩ := by
  rw [importsOf, Std.ExtTreeSet.mem_toList, contains_iff]

/-- A graph is determined by its edges. -/
theorem ext_contains {graph other : ImportGraph}
    (h : ∀ edge, graph.contains edge = true ↔ other.contains edge = true) : graph = other := by
  refine ext_imports (Adjacency.ext_get fun importer => Std.ExtTreeSet.ext_mem fun imported => ?_)
  have hedge := h ⟨importer, imported⟩
  rwa [contains_iff, contains_iff] at hedge

/-- The modules next to a module in either direction. -/
def neighbours (graph : ImportGraph) (id : ModuleId) : List ModuleId :=
  graph.importersOf id ++ graph.importsOf id

/-- The items that are neither among those seen nor repeated, in the order in which they come. -/
def newItems (seen : List ModuleId) : List ModuleId → List ModuleId
  | [] => []
  | id :: rest =>
    if id ∈ seen then newItems seen rest else id :: newItems (id :: seen) rest

/-- The breadth-first order: what is queued, followed by what is discovered from it. -/
def explore (graph : ImportGraph) : Nat → List ModuleId → List ModuleId → List ModuleId
  | 0, _, _ => []
  | _ + 1, _, [] => []
  | fuel + 1, seen, id :: queue =>
    let found := newItems seen (graph.neighbours id)
    id :: graph.explore fuel (found ++ seen) (queue ++ found)

/-- The modules connected to the roots, breadth first. -/
def reachable (graph : ImportGraph) (roots : List ModuleId) : List ModuleId :=
  let start := newItems [] roots
  -- Every module that is listed is a root or an end of an edge, and is listed once.
  graph.explore (start.length + 2 * graph.edges.length + 1) start start

end ImportGraph

end Recompile
