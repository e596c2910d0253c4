import Mathlib.Order.Lattice.Nat
import Recompile.Proofs.ImportGraph.Connected

/-!
# The breadth-first order

The search keeps three lists: the modules that it has listed, the queue, and the seen modules.  Each
step lists the first of the queue and appends the new neighbours of that module.  So at any time
what was listed, followed by the queue, is the list of the roots and of the neighbours of all that
was listed, each at its first occurrence (`ImportGraph.Search.discovered`).  When the queue is empty
this says how the whole order comes about.

The distance of a module from the roots is the length of the shortest chain of links
(`ImportGraph.distance`).  The queue is sorted by distance and spans at most two consecutive
distances; a module that was not seen is further away than the first of the queue, because the last
but one module of a shortest chain to it was not listed either.

Together (`ImportGraph.reachable_breadthFirst`): the search ends, it lists the smallest set of
modules that has the roots and is closed under links, nothing is listed twice, the roots come first,
the distance never decreases, and what is discovered from one module stands together.
-/

namespace Recompile.ImportGraph

variable {graph : ImportGraph} {roots seen front queue : List ModuleId} {id : ModuleId}

/-! ### First occurrences -/

/-- New items are the first occurrences of the items that were not seen. -/
lemma newItems_eq_eraseDups (seen items : List ModuleId) :
    newItems seen items = (items.filter fun b => !seen.elem b).eraseDups := by
  induction items generalizing seen with
  | nil => rfl
  | cons item rest ih =>
    unfold newItems
    split_ifs with hseen
    · rw [ih, List.filter_cons_of_neg (by simpa using hseen)]
    · rw [ih, List.filter_cons_of_pos (by simpa using hseen), List.eraseDups_cons,
        List.filter_filter]
      congr 2
      refine List.filter_congr fun b _ => ?_
      by_cases hb : b = item <;> simp [hb]

/-- If nothing was seen, every item is new at its first occurrence. -/
lemma newItems_nil (items : List ModuleId) : newItems [] items = items.eraseDups := by
  have hall : (items.filter fun b => !([] : List ModuleId).elem b) = items :=
    List.filter_eq_self.mpr fun _ _ => rfl
  rw [newItems_eq_eraseDups, hall]

/-- Items that do not repeat are their first occurrences. -/
lemma eraseDups_of_nodup {items : List ModuleId} (h : items.Nodup) : items.eraseDups = items := by
  induction items with
  | nil => rfl
  | cons item rest ih =>
    obtain ⟨hitem, hrest⟩ := List.nodup_cons.mp h
    rw [List.eraseDups_cons, List.filter_eq_self.mpr, ih hrest]
    intro b hb
    have hne : b ≠ item := by
      rintro rfl
      exact hitem hb
    simpa using hne

/-! ### Importers and imports in order -/

/-- The importers of a module are listed in order. -/
lemma pairwise_importersOf (graph : ImportGraph) (id : ModuleId) :
    (graph.importersOf id).Pairwise fun a b => compare a b = .lt :=
  Std.ExtTreeSet.ordered_toList

/-- The imports of a module are listed in order. -/
lemma pairwise_importsOf (graph : ImportGraph) (id : ModuleId) :
    (graph.importsOf id).Pairwise fun a b => compare a b = .lt :=
  Std.ExtTreeSet.ordered_toList

/-! ### Distances -/

/-- A chain of so many links leads from one module to the other. -/
inductive Chain (graph : ImportGraph) : Nat → ModuleId → ModuleId → Prop where
  /-- No link leads from a module to itself. -/
  | refl (a : ModuleId) : Chain graph 0 a a
  /-- One more link is added at the end. -/
  | tail {n : Nat} {a b c : ModuleId} : Chain graph n a b → graph.Linked b c →
      Chain graph (n + 1) a c

/-- Connected modules have a chain of some length between them. -/
lemma Connected.exists_chain {a b : ModuleId} (h : graph.Connected a b) :
    ∃ n, graph.Chain n a b := by
  induction h with
  | refl => exact ⟨0, .refl a⟩
  | tail _ hlink ih =>
    obtain ⟨n, hchain⟩ := ih
    exact ⟨n + 1, hchain.tail hlink⟩

/-- The lengths of the chains from a root to a module. -/
def lengths (graph : ImportGraph) (roots : List ModuleId) (b : ModuleId) : Set Nat :=
  {n | ∃ root ∈ roots, graph.Chain n root b}

/-- The length of the shortest chain from a root to a module; zero if there is no chain. -/
noncomputable def distance (graph : ImportGraph) (roots : List ModuleId) (b : ModuleId) : Nat :=
  sInf (graph.lengths roots b)

/-- Roots have distance zero. -/
lemma distance_root (h : id ∈ roots) : graph.distance roots id = 0 :=
  Nat.sInf_eq_zero.mpr (.inl ⟨id, h, .refl id⟩)

/-- A module linked to one that a chain leads to is at most one link further away. -/
lemma distance_le_of_linked {a b : ModuleId} (ha : (graph.lengths roots a).Nonempty)
    (hlink : graph.Linked a b) : graph.distance roots b ≤ graph.distance roots a + 1 := by
  obtain ⟨root, hroot, hchain⟩ := Nat.sInf_mem ha
  exact Nat.sInf_le ⟨root, hroot, hchain.tail hlink⟩

/-- A module that a chain leads to is a root, or it is linked to one that is one link nearer. -/
lemma exists_nearer {b : ModuleId} (hb : (graph.lengths roots b).Nonempty) :
    b ∈ roots ∨ ∃ a, graph.Linked a b ∧ (graph.lengths roots a).Nonempty ∧
      graph.distance roots a + 1 ≤ graph.distance roots b := by
  obtain ⟨root, hroot, hchain⟩ := Nat.sInf_mem hb
  change graph.Chain (graph.distance roots b) root b at hchain
  generalize hn : graph.distance roots b = n at hchain
  cases hchain with
  | refl => exact .inl hroot
  | tail hfront hlink =>
    refine .inr ⟨_, hlink, ⟨_, root, hroot, hfront⟩, Nat.succ_le_succ ?_⟩
    exact Nat.sInf_le ⟨root, hroot, hfront⟩

/-! ### The search -/

/-- The state of a search: what was listed, the queue, and what was seen. -/
structure Search (graph : ImportGraph) (roots front queue seen : List ModuleId) : Prop where
  /-- What was listed and the queue are the first occurrences of the roots and of the neighbours of
  what was listed. -/
  discovered : front ++ queue = (roots ++ front.flatMap graph.neighbours).eraseDups
  /-- They are what was seen. -/
  mem_seen : ∀ b, b ∈ seen ↔ b ∈ front ++ queue
  /-- Chains lead to all of it. -/
  reached : ∀ b ∈ front ++ queue, (graph.lengths roots b).Nonempty
  /-- It is sorted by distance. -/
  sorted : (front ++ queue).Pairwise fun a b => graph.distance roots a ≤ graph.distance roots b
  /-- Nothing of it is much further away than anything in the queue. -/
  near : ∀ a ∈ queue, ∀ b ∈ front ++ queue,
    graph.distance roots b ≤ graph.distance roots a + 1

namespace Search

/-- At the start the roots are in the queue. -/
lemma start (graph : ImportGraph) (roots : List ModuleId) :
    graph.Search roots [] (newItems [] roots) (newItems [] roots) := by
  have hmem : ∀ b ∈ newItems [] roots, b ∈ roots := by
    intro b hb
    exact (mem_newItems.mp hb).1
  constructor
  · rw [List.nil_append, newItems_nil, List.flatMap_nil, List.append_nil]
  · exact fun b => Iff.rfl
  · intro b hb
    exact ⟨0, b, hmem b hb, .refl b⟩
  · rw [List.nil_append]
    refine List.pairwise_of_forall_mem_list fun a ha b _ => ?_
    rw [distance_root (hmem a ha)]
    exact Nat.zero_le _
  · intro a _ b hb
    rw [distance_root (hmem b hb)]
    exact Nat.zero_le _

/-- The neighbours of what was listed were seen, and so were the roots. -/
lemma mem_seen_iff (h : graph.Search roots front queue seen) (b : ModuleId) :
    b ∈ seen ↔ b ∈ roots ∨ ∃ a ∈ front, graph.Linked a b := by
  rw [h.mem_seen, h.discovered, List.mem_eraseDups, List.mem_append, List.mem_flatMap]
  simp only [mem_neighbours]

/-- A module that was not seen is further away than the first of the queue. -/
lemma distance_lt_of_not_seen (h : graph.Search roots front (id :: queue) seen) {b : ModuleId}
    (hb : (graph.lengths roots b).Nonempty) (hnew : b ∉ seen) :
    graph.distance roots id < graph.distance roots b := by
  induction hn : graph.distance roots b using Nat.strong_induction_on generalizing b with
  | _ n ih =>
    rcases exists_nearer hb with hroot | ⟨a, hlink, ha, hle⟩
    · exact absurd ((h.mem_seen_iff b).mpr (.inl hroot)) hnew
    have hlisted : a ∉ front := fun hmem =>
      hnew ((h.mem_seen_iff b).mpr (.inr ⟨a, hmem, hlink⟩))
    by_cases hseen : a ∈ seen
    · -- The nearer module is in the queue, which is sorted.
      have hqueue : a ∈ id :: queue :=
        (List.mem_append.mp ((h.mem_seen a).mp hseen)).resolve_left hlisted
      have hsorted := (List.pairwise_append.mp h.sorted).2.1
      have hid : graph.distance roots id ≤ graph.distance roots a := by
        rcases List.mem_cons.mp hqueue with rfl | hrest
        · exact Nat.le_refl _
        · exact (List.pairwise_cons.mp hsorted).1 a hrest
      omega
    · have hless := ih (graph.distance roots a) (by omega) ha hseen rfl
      omega

/-- What is discovered from the first of the queue is exactly one link further away. -/
lemma distance_found (h : graph.Search roots front (id :: queue) seen) {b : ModuleId}
    (hb : b ∈ newItems seen (graph.neighbours id)) :
    (graph.lengths roots b).Nonempty ∧
      graph.distance roots b = graph.distance roots id + 1 := by
  obtain ⟨hlink, hnew⟩ := mem_newItems.mp hb
  rw [mem_neighbours] at hlink
  have hid := h.reached id (List.mem_append_right _ List.mem_cons_self)
  have hreached : (graph.lengths roots b).Nonempty := by
    obtain ⟨n, root, hroot, hchain⟩ := hid
    exact ⟨n + 1, root, hroot, hchain.tail hlink⟩
  have hle := distance_le_of_linked hid hlink
  have hlt := h.distance_lt_of_not_seen hreached hnew
  exact ⟨hreached, by omega⟩

/-- A step of the search: the first of the queue is listed and its new neighbours are queued. -/
lemma step (h : graph.Search roots front (id :: queue) seen) :
    graph.Search roots (front ++ [id]) (queue ++ newItems seen (graph.neighbours id))
      (newItems seen (graph.neighbours id) ++ seen) := by
  set found := newItems seen (graph.neighbours id) with hfound
  have hwhole : front ++ [id] ++ (queue ++ found) = front ++ id :: queue ++ found := by
    simp only [List.append_assoc, List.cons_append, List.nil_append]
  have hreach : ∀ b ∈ front ++ id :: queue ++ found,
      (graph.lengths roots b).Nonempty ∧
        graph.distance roots b ≤ graph.distance roots id + 1 := by
    intro b hb
    rcases List.mem_append.mp hb with hold | hnew
    · exact ⟨h.reached b hold, h.near id List.mem_cons_self b hold⟩
    · obtain ⟨hreached, hdistance⟩ := h.distance_found hnew
      exact ⟨hreached, Nat.le_of_eq hdistance⟩
  have hfar : ∀ a ∈ queue ++ found, graph.distance roots id ≤ graph.distance roots a := by
    intro a ha
    rcases List.mem_append.mp ha with hqueue | hnew
    · have hsorted := (List.pairwise_append.mp h.sorted).2.1
      exact (List.pairwise_cons.mp hsorted).1 a hqueue
    · rw [(h.distance_found hnew).2]
      exact Nat.le_succ _
  constructor
  · have hnot : (graph.neighbours id).removeAll (roots ++ front.flatMap graph.neighbours) =
        (graph.neighbours id).filter fun b => !seen.elem b := by
      refine List.filter_congr fun b _ => ?_
      have hiff := h.mem_seen b
      rw [h.discovered, List.mem_eraseDups] at hiff
      rw [List.elem_eq_mem, List.elem_eq_mem, decide_eq_decide.mpr hiff]
    rw [hwhole, List.flatMap_append, List.flatMap_singleton, ← List.append_assoc,
      List.eraseDups_append, ← h.discovered, hnot, hfound, newItems_eq_eraseDups]
  · intro b
    rw [hwhole, List.mem_append, List.mem_append, h.mem_seen b]
    exact Or.comm
  · intro b hb
    rw [hwhole] at hb
    exact (hreach b hb).1
  · rw [hwhole]
    refine List.pairwise_append.mpr ⟨h.sorted, ?_, fun a ha b hb => ?_⟩
    · refine List.pairwise_of_forall_mem_list fun a ha b hb => ?_
      rw [(h.distance_found ha).2, (h.distance_found hb).2]
    · rw [(h.distance_found hb).2]
      exact (hreach a (List.mem_append_left _ ha)).2
  · intro a ha b hb
    rw [hwhole] at hb
    exact Nat.le_trans (hreach b hb).2 (Nat.succ_le_succ (hfar a ha))

/-- With fuel enough the search goes on until the queue is empty. -/
lemma finish {fuel : Nat} {others : Finset ModuleId} (h : graph.Search roots front queue seen)
    (henough : graph.Enough fuel seen queue others) :
    ∃ all, graph.Search roots (front ++ graph.explore fuel seen queue) [] all := by
  induction fuel generalizing seen queue front others with
  | zero => exact absurd henough.fuel_lt (Nat.not_lt_zero _)
  | succ fuel ih =>
    cases queue with
    | nil =>
      refine ⟨seen, ?_⟩
      rw [explore, List.append_nil]
      exact h
    | cons id queue =>
      obtain ⟨all, hall⟩ := ih h.step henough.next
      refine ⟨all, ?_⟩
      rw [explore]
      rwa [List.append_assoc] at hall

end Search

/-- With fuel enough the search has ended: more steps list nothing more. -/
lemma explore_add {fuel : Nat} {others : Finset ModuleId}
    (h : graph.Enough fuel seen queue others) (more : Nat) :
    graph.explore (fuel + more) seen queue = graph.explore fuel seen queue := by
  induction fuel generalizing seen queue others with
  | zero => exact absurd h.fuel_lt (Nat.not_lt_zero _)
  | succ fuel ih =>
    rw [Nat.succ_add]
    cases queue with
    | nil => rfl
    | cons id queue =>
      rw [explore, explore]
      exact congrArg (id :: ·) (ih h.next)

/-- The search from some roots ends by itself. -/
lemma exists_explore_eq (graph : ImportGraph) (roots : List ModuleId) :
    ∃ steps, ∀ fuel, steps ≤ fuel →
      graph.explore fuel roots.eraseDups roots.eraseDups = graph.reachable roots := by
  refine ⟨roots.eraseDups.length + 2 * graph.edges.length + 1, fun fuel hfuel => ?_⟩
  obtain ⟨more, rfl⟩ := Nat.exists_eq_add_of_le hfuel
  rw [explore_add (graph.enough_reachable roots.eraseDups), reachable, newItems_nil]

/-! ### The order -/

/-- The search from some roots is over when it has listed what it lists. -/
lemma search_reachable (graph : ImportGraph) (roots : List ModuleId) :
    ∃ all, graph.Search roots (graph.reachable roots) [] all :=
  (Search.start graph roots).finish (graph.enough_reachable _)

/-- The list is the first occurrences of the roots and of the neighbours of what it lists. -/
lemma reachable_eq (graph : ImportGraph) (roots : List ModuleId) :
    graph.reachable roots =
      (roots ++ (graph.reachable roots).flatMap graph.neighbours).eraseDups := by
  obtain ⟨all, hall⟩ := graph.search_reachable roots
  have hlist := hall.discovered
  rwa [List.append_nil] at hlist

/-- A set of modules is closed if each edge has both ends in it or none. -/
def Closed (graph : ImportGraph) (modules : Set ModuleId) : Prop :=
  ∀ edge, graph.contains edge → (edge.importer ∈ modules ↔ edge.imported ∈ modules)

/-- A closed set has what is connected to its modules. -/
lemma Closed.mem_of_connected {modules : Set ModuleId} (h : graph.Closed modules)
    {a b : ModuleId} (hconnected : graph.Connected a b) (ha : a ∈ modules) : b ∈ modules := by
  induction hconnected with
  | refl => exact ha
  | tail _ hlink ih =>
    rcases hlink with hedge | hedge
    · exact (h _ hedge).mp ih
    · exact (h _ hedge).mpr ih

/-- What is connected to a root is closed. -/
lemma closed_connected (graph : ImportGraph) (roots : List ModuleId) :
    graph.Closed {b | ∃ a ∈ roots, graph.Connected a b} := by
  intro edge hedge
  constructor
  · rintro ⟨a, ha, hconnected⟩
    exact ⟨a, ha, hconnected.tail (.inl hedge)⟩
  · rintro ⟨a, ha, hconnected⟩
    exact ⟨a, ha, hconnected.tail (.inr hedge)⟩

/-- After the modules that are known from the roots and from what stands before a module, the list
has the other importers of that module, in order, and then its other imports, in order. -/
def Continues (graph : ImportGraph) (roots before : List ModuleId) (a : ModuleId)
    (list : List ModuleId) : Prop :=
  ∃ known importers imports, known ++ importers ++ imports <+: list ∧
    (∀ b, b ∈ known ↔ b ∈ roots ∨ ∃ c ∈ before, graph.Linked c b) ∧
    (∀ b, b ∈ importers ↔ graph.contains ⟨b, a⟩ ∧ b ∉ known) ∧
    importers.Pairwise (fun b c => compare b c = .lt) ∧
    (∀ b, b ∈ imports ↔ graph.contains ⟨a, b⟩ ∧ b ∉ known ∧ b ∉ importers) ∧
    imports.Pairwise (fun b c => compare b c = .lt)

/-- A list of modules in the breadth-first order from some roots. -/
structure BreadthFirst (graph : ImportGraph) (roots list : List ModuleId) : Prop where
  /-- Nothing is listed twice. -/
  nodup : list.Nodup
  /-- The members are those of the smallest set that has the roots and is closed under edges. -/
  mem_iff : ∀ b, b ∈ list ↔
    ∀ modules : Set ModuleId, (∀ root ∈ roots, root ∈ modules) → graph.Closed modules → b ∈ modules
  /-- The roots come first, in the order of their first occurrences. -/
  roots_first : roots.eraseDups <+: list
  /-- The distance from the roots never decreases. -/
  distance_le : list.Pairwise fun a b => graph.distance roots a ≤ graph.distance roots b
  /-- What is discovered from one module stands together. -/
  continues : ∀ before a after, list = before ++ a :: after → graph.Continues roots before a list

/-- The first occurrences of neighbours that are not known: the importers in order, then the imports
in order. -/
lemma eraseDups_neighbours (graph : ImportGraph) (id : ModuleId) (known : List ModuleId) :
    ((graph.neighbours id).removeAll known).eraseDups =
      (graph.importersOf id).removeAll known ++
        ((graph.importsOf id).removeAll known).removeAll
          ((graph.importersOf id).removeAll known) := by
  have hnodup : ∀ {items : List ModuleId}, items.Pairwise (fun a b => compare a b = .lt) →
      ∀ others, (items.removeAll others).Nodup := fun hitems others =>
    nodup_of_pairwise (hitems.filter _)
  have happend : (graph.neighbours id).removeAll known =
      (graph.importersOf id).removeAll known ++ (graph.importsOf id).removeAll known :=
    List.filter_append ..
  have himports : (((graph.importsOf id).removeAll known).removeAll
      ((graph.importersOf id).removeAll known)).Nodup :=
    (hnodup (graph.pairwise_importsOf id) known).filter _
  rw [happend, List.eraseDups_append, eraseDups_of_nodup (hnodup (graph.pairwise_importersOf id) _),
    eraseDups_of_nodup himports]

/-- What is discovered from one module stands together in a list of first occurrences. -/
lemma continues_of_eq {before after list : List ModuleId}
    (h : list = (roots ++ list.flatMap graph.neighbours).eraseDups)
    (hsplit : list = before ++ id :: after) : graph.Continues roots before id list := by
  set known := roots ++ before.flatMap graph.neighbours with hknown
  have hparts : roots ++ list.flatMap graph.neighbours =
      known ++ graph.neighbours id ++ after.flatMap graph.neighbours := by
    rw [hsplit, List.flatMap_append, List.flatMap_cons, hknown]
    simp only [List.append_assoc]
  rw [hparts, List.eraseDups_append, List.eraseDups_append, graph.eraseDups_neighbours] at h
  refine ⟨known.eraseDups, (graph.importersOf id).removeAll known,
    ((graph.importsOf id).removeAll known).removeAll ((graph.importersOf id).removeAll known),
    ?_, ?_, ?_, (graph.pairwise_importersOf id).filter _, ?_,
    ((graph.pairwise_importsOf id).filter _).filter _⟩
  · rw [h, ← List.append_assoc known.eraseDups]
    exact List.prefix_append _ _
  · intro b
    rw [List.mem_eraseDups, hknown, List.mem_append, List.mem_flatMap]
    simp only [mem_neighbours]
  · intro b
    rw [List.mem_eraseDups]
    simp only [List.removeAll, List.mem_filter, mem_importersOf, List.elem_eq_mem,
      Bool.not_eq_true', decide_eq_false_iff_not]
  · intro b
    rw [List.mem_eraseDups]
    simp only [List.removeAll, List.mem_filter, mem_importsOf, List.elem_eq_mem,
      Bool.not_eq_true', decide_eq_false_iff_not, and_assoc]

/-- The search ends by itself, and it lists what is connected to the roots in breadth-first order.
So one of two modules is listed from the other exactly if the other is listed from it. -/
theorem reachable_breadthFirst (graph : ImportGraph) (roots : List ModuleId) :
    (∃ steps, ∀ fuel, steps ≤ fuel →
      graph.explore fuel roots.eraseDups roots.eraseDups = graph.reachable roots) ∧
    graph.BreadthFirst roots (graph.reachable roots) ∧
    ∀ a b, b ∈ graph.reachable [a] ↔ a ∈ graph.reachable [b] := by
  obtain ⟨all, hsearch⟩ := graph.search_reachable roots
  have hlist := graph.reachable_eq roots
  refine ⟨graph.exists_explore_eq roots, ⟨graph.nodup_reachable roots, fun b => ?_, ?_, ?_, ?_⟩,
    fun a b => ?_⟩
  · rw [mem_reachable]
    constructor
    · rintro ⟨root, hroot, hconnected⟩ modules hroots hclosed
      exact hclosed.mem_of_connected hconnected (hroots root hroot)
    · intro hleast
      exact hleast {b | ∃ a ∈ roots, graph.Connected a b}
        (fun root hroot => ⟨root, hroot, .refl⟩) (graph.closed_connected roots)
  · rw [hlist, List.eraseDups_append]
    exact List.prefix_append _ _
  · have hsorted := hsearch.sorted
    rwa [List.append_nil] at hsorted
  · intro before a after hsplit
    exact continues_of_eq hlist hsplit
  · rw [mem_reachable_singleton, mem_reachable_singleton]
    exact ⟨Connected.symm, Connected.symm⟩

-- `main` imports `a`, and both `a` and `b` import `util`.
example : ((empty.insertAll [⟨⟨"main"⟩, ⟨"a"⟩⟩, ⟨⟨"a"⟩, ⟨"util"⟩⟩, ⟨⟨"b"⟩, ⟨"util"⟩⟩]).reachable
    [⟨"util"⟩, ⟨"c"⟩, ⟨"util"⟩]).map ModuleId.text = ["util", "c", "a", "b", "main"] := by
  decide +kernel

end Recompile.ImportGraph
