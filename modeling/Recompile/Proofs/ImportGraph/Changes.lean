import Mathlib.Data.Set.Card
import Recompile.ImportGraph.Basic

/-!
# Changes of import graphs

A graph starts without edges and is changed by adding an edge, by adding several and by removing all
of them (`ImportGraph.Change`).  An edge is kept if it was added and nothing was removed since
(`ImportGraph.kept`).

The two indexes of a graph and its count are written one after the other.  They agree all the same:
after any changes, what a module imports, what it is imported by, the number of edges and their list
all say which edges are kept (`ImportGraph.records_ofChanges`).  So nothing depends on the order in
which edges were added, and adding the listed edges to the empty graph makes the same graph again.
-/

namespace Recompile.ImportGraph

/-! ### Several edges -/

/-- The edges after several were added. -/
lemma contains_insertAll (graph : ImportGraph) (edges : List Edge) (edge : Edge) :
    (graph.insertAll edges).contains edge = true ↔ edge ∈ edges ∨ graph.contains edge = true := by
  unfold insertAll
  induction edges generalizing graph with
  | nil => simp
  | cons first rest ih =>
    rw [List.foldl_cons, ih, contains_insert, Bool.or_eq_true, decide_eq_true_iff, List.mem_cons,
      eq_comm]
    tauto

/-- Edges that are added to the empty graph make the graph that has exactly them. -/
lemma insertAll_empty_eq {graph : ImportGraph} {edges : List Edge} :
    empty.insertAll edges = graph ↔ ∀ edge, edge ∈ edges ↔ graph.contains edge = true := by
  have hall : ∀ edge, (empty.insertAll edges).contains edge = true ↔ edge ∈ edges := fun edge =>
    (contains_insertAll empty edges edge).trans (or_iff_left (not_contains_empty edge))
  constructor
  · rintro rfl edge
    exact (hall edge).symm
  · exact fun h => ext_contains fun edge => (hall edge).trans (h edge)

/-! ### Changes -/

/-- A change of a graph. -/
inductive Change where
  /-- Add an edge. -/
  | insert (edge : Edge)
  /-- Add several edges. -/
  | insertAll (edges : List Edge)
  /-- Remove all edges. -/
  | clear

namespace Change

/-- The graph after a change. -/
def apply (graph : ImportGraph) : Change → ImportGraph
  | insert edge => graph.insert edge
  | insertAll edges => graph.insertAll edges
  | clear => empty

/-- The edges that a change adds. -/
def added : Change → List Edge
  | insert edge => [edge]
  | insertAll edges => edges
  | clear => []

/-- After a change there are the edges that it adds, and those before unless it removes them. -/
lemma contains_apply (change : Change) (graph : ImportGraph) (edge : Edge) :
    (change.apply graph).contains edge = true ↔
      edge ∈ change.added ∨ (change ≠ clear ∧ graph.contains edge = true) := by
  cases change with
  | insert first =>
    rw [apply, added, contains_insert, Bool.or_eq_true, decide_eq_true_iff, List.mem_singleton,
      eq_comm]
    simp
  | insertAll edges =>
    rw [apply, added, contains_insertAll]
    simp
  | clear => simp [apply, added, not_contains_empty]

end Change

/-- The empty graph after several changes. -/
def ofChanges (changes : List Change) : ImportGraph :=
  changes.foldl (fun graph change => change.apply graph) empty

/-- The edges that were added and not removed since. -/
def kept (changes : List Change) : Set Edge :=
  {edge | ∃ before change after, changes = before ++ change :: after ∧ edge ∈ change.added ∧
    Change.clear ∉ after}

/-- An edge is kept if a later change adds it, or the first one does and no later one removes it. -/
lemma mem_kept_cons {change : Change} {rest : List Change} {edge : Edge} :
    edge ∈ kept (change :: rest) ↔
      edge ∈ kept rest ∨ (edge ∈ change.added ∧ Change.clear ∉ rest) := by
  constructor
  · rintro ⟨before, found, after, heq, hadded, hclear⟩
    rcases List.cons_eq_append_iff.mp heq with ⟨rfl, hfound⟩ | ⟨before, rfl, rfl⟩
    · cases hfound
      exact .inr ⟨hadded, hclear⟩
    · exact .inl ⟨before, found, after, rfl, hadded, hclear⟩
  · rintro (⟨before, found, after, rfl, hadded, hclear⟩ | ⟨hadded, hclear⟩)
    · exact ⟨change :: before, found, after, rfl, hadded, hclear⟩
    · exact ⟨[], change, rest, rfl, hadded, hclear⟩

/-- After several changes of any graph there are the kept edges, and those before if none of the
changes removes them. -/
lemma contains_foldl_apply (graph : ImportGraph) (changes : List Change) (edge : Edge) :
    (changes.foldl (fun graph change => change.apply graph) graph).contains edge = true ↔
      edge ∈ kept changes ∨ (Change.clear ∉ changes ∧ graph.contains edge = true) := by
  induction changes generalizing graph with
  | nil => simp [kept]
  | cons change rest ih =>
    rw [List.foldl_cons, ih, Change.contains_apply, mem_kept_cons, List.mem_cons, ne_comm]
    tauto

/-- After any changes there are the kept edges. -/
lemma contains_ofChanges {changes : List Change} {edge : Edge} :
    (ofChanges changes).contains edge = true ↔ edge ∈ kept changes := by
  unfold ofChanges
  rw [contains_foldl_apply, or_iff_left]
  exact fun h => not_contains_empty edge h.2

/-! ### What a graph says -/

/-- Everything that a graph says about its edges is said of these edges. -/
structure Records (graph : ImportGraph) (all : Set Edge) : Prop where
  /-- They are found under their importers. -/
  mem_importsOf : ∀ edge, edge.imported ∈ graph.importsOf edge.importer ↔ edge ∈ all
  /-- They are found under the modules that they import. -/
  mem_importersOf : ∀ edge, edge.importer ∈ graph.importersOf edge.imported ↔ edge ∈ all
  /-- They are in the graph. -/
  contains : ∀ edge, graph.contains edge = true ↔ edge ∈ all
  /-- As many were counted. -/
  size : graph.size = all.ncard
  /-- They are listed. -/
  mem_edges : ∀ edge, edge ∈ graph.edges ↔ edge ∈ all
  /-- They are listed in strictly increasing order, so none of them twice. -/
  ordered : graph.edges.Pairwise fun a b => compare a b = .lt

/-- The count is the number of edges in the graph. -/
lemma size_eq_ncard (graph : ImportGraph) :
    graph.size = {edge | graph.contains edge = true}.ncard := by
  have hlisted : {edge | graph.contains edge = true} = ↑graph.edges.toFinset := by
    ext edge
    rw [Finset.mem_coe, List.mem_toFinset, ImportGraph.mem_edges]
    rfl
  rw [hlisted, Set.ncard_coe_finset,
    List.toFinset_card_of_nodup (nodup_of_pairwise graph.pairwise_edges), graph.counted, edges,
    List.length_map]

/-- A graph records the edges that it contains. -/
lemma records_contains (graph : ImportGraph) :
    graph.Records {edge | graph.contains edge = true} where
  mem_importsOf _ := ImportGraph.mem_importsOf
  mem_importersOf _ := ImportGraph.mem_importersOf
  contains _ := Iff.rfl
  size := graph.size_eq_ncard
  mem_edges _ := ImportGraph.mem_edges
  ordered := graph.pairwise_edges

/-- After any changes a graph records exactly the edges that are kept, in both indexes, in its count
and in its list.  The list depends on nothing else, and from it the empty graph becomes the same
graph again, whatever is asked of it. -/
theorem records_ofChanges (changes : List Change) :
    (ofChanges changes).Records (kept changes) ∧
    (∀ others, (ofChanges changes).edges = (ofChanges others).edges ↔
      kept changes = kept others) ∧
    empty.insertAll (ofChanges changes).edges = ofChanges changes := by
  have hkept : ∀ changes, {edge | (ofChanges changes).contains edge = true} = kept changes :=
    fun changes => Set.ext fun edge => contains_ofChanges
  refine ⟨?_, fun others => ⟨fun heq => ?_, fun heq => ?_⟩, ?_⟩
  · rw [← hkept]
    exact records_contains _
  · ext edge
    rw [← contains_ofChanges, ← contains_ofChanges, ← mem_edges, ← mem_edges, heq]
  · have hsame : ofChanges changes = ofChanges others := ext_contains fun edge => by
      rw [contains_ofChanges, contains_ofChanges, heq]
    rw [hsame]
  · exact insertAll_empty_eq.mpr fun edge => mem_edges

-- Edges that are added twice, in another order or before a removal make no difference.
example : ofChanges [.insert ⟨⟨"c"⟩, ⟨"b"⟩⟩, .clear, .insert ⟨⟨"b"⟩, ⟨"a"⟩⟩,
      .insertAll [⟨⟨"a"⟩, ⟨"c"⟩⟩, ⟨⟨"b"⟩, ⟨"a"⟩⟩]] =
    ofChanges [.insertAll [⟨⟨"a"⟩, ⟨"c"⟩⟩, ⟨⟨"b"⟩, ⟨"a"⟩⟩]] := by
  decide +kernel

end Recompile.ImportGraph
