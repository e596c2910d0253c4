import Mathlib.Data.Finset.Card
import Mathlib.Logic.Relation
import Recompile.ImportGraph.Basic

/-!
# Connected modules

Two modules are linked if one imports the other, and connected if a chain of links leads from one to
the other (`ImportGraph.Connected`).  The breadth-first search lists exactly the modules connected
to a root (`ImportGraph.mem_reachable`), each of them once (`ImportGraph.nodup_reachable`).

The search keeps the seen modules and a queue of those that were seen but not listed.  It has fuel
enough as long as there is one step for each module in the queue and for each end of an edge that
was not seen.
-/

namespace Recompile.ImportGraph

variable {graph : ImportGraph}

/-! ### Links -/

/-- One module imports the other. -/
def Linked (graph : ImportGraph) (a b : ModuleId) : Prop :=
  graph.contains ⟨a, b⟩ ∨ graph.contains ⟨b, a⟩

/-- A chain of links leads from one module to the other. -/
def Connected (graph : ImportGraph) : ModuleId → ModuleId → Prop :=
  Relation.ReflTransGen graph.Linked

/-- Links have no direction. -/
lemma Linked.symm {a b : ModuleId} (h : graph.Linked a b) : graph.Linked b a :=
  Or.symm h

/-- Neither have chains of links. -/
theorem Connected.symm {a b : ModuleId} (h : graph.Connected a b) : graph.Connected b a := by
  induction h with
  | refl => exact .refl
  | tail _ hlink ih => exact .head hlink.symm ih

/-- Adding an edge keeps modules connected. -/
lemma Connected.insert {a b : ModuleId} (h : graph.Connected a b) (edge : Edge) :
    (graph.insert edge).Connected a b := by
  induction h with
  | refl => exact .refl
  | tail _ hlink ih =>
    refine ih.tail (Or.imp ?_ ?_ hlink)
    all_goals
      intro hcontains
      rw [contains_insert, hcontains, Bool.or_true]

/-- The neighbours of a module are the modules linked to it. -/
lemma mem_neighbours {a b : ModuleId} : b ∈ graph.neighbours a ↔ graph.Linked a b := by
  rw [neighbours, List.mem_append, mem_importersOf, mem_importsOf]
  exact Or.comm

/-! ### New items -/

/-- An item is new if it is listed and was not seen. -/
lemma mem_newItems {seen items : List ModuleId} {id : ModuleId} :
    id ∈ newItems seen items ↔ id ∈ items ∧ id ∉ seen := by
  induction items generalizing seen with
  | nil => simp [newItems]
  | cons item rest ih =>
    unfold newItems
    split_ifs with hseen
    · rw [ih, List.mem_cons]
      constructor
      · exact fun h => ⟨.inr h.1, h.2⟩
      · rintro ⟨rfl | hrest, hnew⟩
        · exact absurd hseen hnew
        · exact ⟨hrest, hnew⟩
    · rw [List.mem_cons, ih, List.mem_cons, List.mem_cons]
      by_cases hid : id = item
      · subst hid
        simp [hseen]
      · simp [hid]

/-- New items do not repeat. -/
lemma nodup_newItems (seen items : List ModuleId) : (newItems seen items).Nodup := by
  induction items generalizing seen with
  | nil => exact List.nodup_nil
  | cons item rest ih =>
    unfold newItems
    split_ifs
    · exact ih seen
    · refine List.nodup_cons.mpr ⟨fun hmem => ?_, ih _⟩
      exact (mem_newItems.mp hmem).2 List.mem_cons_self

/-! ### The search -/

/-- What the search lists is connected to something in the queue. -/
lemma connected_of_mem_explore {fuel : Nat} {seen queue : List ModuleId} {b : ModuleId}
    (h : b ∈ graph.explore fuel seen queue) : ∃ a ∈ queue, graph.Connected a b := by
  induction fuel generalizing seen queue with
  | zero => cases h
  | succ fuel ih =>
    cases queue with
    | nil => cases h
    | cons id queue =>
      rw [explore] at h
      rcases List.mem_cons.mp h with rfl | h
      · exact ⟨b, List.mem_cons_self, .refl⟩
      · obtain ⟨a, ha, hconnected⟩ := ih h
        rcases List.mem_append.mp ha with hqueue | hfound
        · exact ⟨a, List.mem_cons_of_mem _ hqueue, hconnected⟩
        · have hlink := mem_neighbours.mp (mem_newItems.mp hfound).1
          exact ⟨id, List.mem_cons_self, .head hlink hconnected⟩

/-- What the search lists is in the queue or was not seen. -/
lemma mem_queue_of_mem_explore {fuel : Nat} {seen queue : List ModuleId} {b : ModuleId}
    (h : b ∈ graph.explore fuel seen queue) (hseen : b ∈ seen) : b ∈ queue := by
  induction fuel generalizing seen queue with
  | zero => cases h
  | succ fuel ih =>
    cases queue with
    | nil => cases h
    | cons id queue =>
      rw [explore] at h
      rcases List.mem_cons.mp h with rfl | h
      · exact List.mem_cons_self
      · rcases List.mem_append.mp (ih h (List.mem_append_right _ hseen)) with hqueue | hfound
        · exact List.mem_cons_of_mem _ hqueue
        · exact absurd hseen (mem_newItems.mp hfound).2

/-- The queue stays free of repetitions. -/
lemma nodup_queue {seen queue : List ModuleId} {id : ModuleId} (hqueue : (id :: queue).Nodup)
    (hseen : ∀ b ∈ id :: queue, b ∈ seen) (items : List ModuleId) :
    (queue ++ newItems seen items).Nodup := by
  refine List.nodup_append.mpr ⟨(List.nodup_cons.mp hqueue).2, nodup_newItems _ _, ?_⟩
  rintro a ha b hb rfl
  exact (mem_newItems.mp hb).2 (hseen a (List.mem_cons_of_mem _ ha))

/-- Everything in the queue stays seen. -/
lemma seen_queue {seen queue : List ModuleId} {id : ModuleId}
    (hseen : ∀ b ∈ id :: queue, b ∈ seen) (found : List ModuleId) :
    ∀ b ∈ queue ++ found, b ∈ found ++ seen := by
  intro b hb
  rcases List.mem_append.mp hb with hqueue | hfound
  · exact List.mem_append_right _ (hseen b (List.mem_cons_of_mem _ hqueue))
  · exact List.mem_append_left _ hfound

/-- The search lists nothing twice. -/
lemma nodup_explore {fuel : Nat} {seen queue : List ModuleId} (hqueue : queue.Nodup)
    (hseen : ∀ b ∈ queue, b ∈ seen) : (graph.explore fuel seen queue).Nodup := by
  induction fuel generalizing seen queue with
  | zero => exact List.nodup_nil
  | succ fuel ih =>
    cases queue with
    | nil => exact List.nodup_nil
    | cons id queue =>
      rw [explore]
      refine List.nodup_cons.mpr ⟨fun hmem => ?_, ih (nodup_queue hqueue hseen _)
        (seen_queue hseen _)⟩
      have hid : id ∈ seen := hseen id List.mem_cons_self
      rcases List.mem_append.mp (mem_queue_of_mem_explore hmem (List.mem_append_right _ hid))
        with hrest | hfound
      · exact (List.nodup_cons.mp hqueue).1 hrest
      · exact (mem_newItems.mp hfound).2 hid

/-- Fuel for a search: one step for each module in the queue, and for each of the others. -/
structure Enough (graph : ImportGraph) (fuel : Nat) (seen queue : List ModuleId)
    (others : Finset ModuleId) : Prop where
  /-- The others are all neighbours that were not seen. -/
  covers : ∀ a b, graph.Linked a b → b ∉ seen → b ∈ others
  /-- There are steps for all of them. -/
  fuel_lt : queue.length + others.card < fuel

/-- Fuel that is enough stays enough when a module is taken from the queue. -/
lemma Enough.next {fuel : Nat} {seen queue : List ModuleId} {id : ModuleId}
    {others : Finset ModuleId} (h : graph.Enough (fuel + 1) seen (id :: queue) others) :
    graph.Enough fuel (newItems seen (graph.neighbours id) ++ seen)
      (queue ++ newItems seen (graph.neighbours id))
      (others \ (newItems seen (graph.neighbours id)).toFinset) := by
  set found := newItems seen (graph.neighbours id) with hfound
  have hsub : found.toFinset ⊆ others := by
    intro b hb
    obtain ⟨hlink, hnew⟩ := mem_newItems.mp (List.mem_toFinset.mp hb)
    exact h.covers id b (mem_neighbours.mp hlink) hnew
  have hcard : found.toFinset.card = found.length :=
    List.toFinset_card_of_nodup (nodup_newItems _ _)
  constructor
  · intro a b hlink hb
    obtain ⟨hfresh, hseen⟩ := not_or.mp (mt List.mem_append.mpr hb)
    rw [Finset.mem_sdiff, List.mem_toFinset]
    exact ⟨h.covers a b hlink hseen, hfresh⟩
  · have hlt := h.fuel_lt
    have hle := Finset.card_le_card hsub
    rw [Finset.card_sdiff_of_subset hsub, hcard, List.length_append]
    rw [List.length_cons] at hlt
    omega

/-- With fuel enough, everything in the queue is listed. -/
lemma mem_explore_of_mem_queue {fuel : Nat} {seen queue : List ModuleId}
    {others : Finset ModuleId} (h : graph.Enough fuel seen queue others) {b : ModuleId}
    (hb : b ∈ queue) : b ∈ graph.explore fuel seen queue := by
  induction fuel generalizing seen queue others with
  | zero => exact absurd h.fuel_lt (Nat.not_lt_zero _)
  | succ fuel ih =>
    cases queue with
    | nil => cases hb
    | cons id queue =>
      rw [explore]
      rcases List.mem_cons.mp hb with rfl | hb
      · exact List.mem_cons_self
      · exact List.mem_cons_of_mem _ (ih h.next (List.mem_append_left _ hb))

/-- With fuel enough, the neighbours of what is listed are listed or were seen. -/
lemma mem_explore_of_linked {fuel : Nat} {seen queue : List ModuleId}
    {others : Finset ModuleId} (h : graph.Enough fuel seen queue others) {a b : ModuleId}
    (ha : a ∈ graph.explore fuel seen queue) (hlink : graph.Linked a b) :
    b ∈ graph.explore fuel seen queue ∨ b ∈ seen := by
  induction fuel generalizing seen queue others with
  | zero => cases ha
  | succ fuel ih =>
    cases queue with
    | nil => cases ha
    | cons id queue =>
      rw [explore] at ha ⊢
      -- What is found now is put into the queue, and so it is listed later.
      have hlater : b ∈ newItems seen (graph.neighbours id) →
          b ∈ graph.explore fuel (newItems seen (graph.neighbours id) ++ seen)
            (queue ++ newItems seen (graph.neighbours id)) := fun hfound =>
        mem_explore_of_mem_queue h.next (List.mem_append_right _ hfound)
      rcases List.mem_cons.mp ha with rfl | ha
      · by_cases hseen : b ∈ seen
        · exact .inr hseen
        · have hfound := mem_newItems.mpr ⟨mem_neighbours.mpr hlink, hseen⟩
          exact .inl (List.mem_cons_of_mem _ (hlater hfound))
      · rcases ih h.next ha with hlisted | hseen
        · exact .inl (List.mem_cons_of_mem _ hlisted)
        · rcases List.mem_append.mp hseen with hfound | hseen
          · exact .inl (List.mem_cons_of_mem _ (hlater hfound))
          · exact .inr hseen

/-! ### Connected modules -/

/-- The ends of the edges. -/
def ends (graph : ImportGraph) : Finset ModuleId :=
  (graph.edges.map Edge.importer ++ graph.edges.map Edge.imported).toFinset

/-- The modules linked to a module are ends of edges. -/
lemma mem_ends {a b : ModuleId} (h : graph.Linked a b) : b ∈ graph.ends := by
  rw [ends, List.mem_toFinset, List.mem_append, List.mem_map, List.mem_map]
  rcases h with h | h
  · exact .inr ⟨_, mem_edges.mpr h, rfl⟩
  · exact .inl ⟨_, mem_edges.mpr h, rfl⟩

/-- The search from some roots has fuel enough. -/
lemma enough_reachable (graph : ImportGraph) (start : List ModuleId) :
    graph.Enough (start.length + 2 * graph.edges.length + 1) start start graph.ends where
  covers _ _ hlink _ := mem_ends hlink
  fuel_lt := by
    have hcard : graph.ends.card ≤ _ := List.toFinset_card_le _
    rw [List.length_append, List.length_map, List.length_map] at hcard
    omega

/-- The search lists exactly the modules connected to a root. -/
theorem mem_reachable {roots : List ModuleId} {b : ModuleId} :
    b ∈ graph.reachable roots ↔ ∃ a ∈ roots, graph.Connected a b := by
  have hstart : ∀ a, a ∈ newItems [] roots ↔ a ∈ roots := fun a => by
    rw [mem_newItems]
    simp
  have henough := graph.enough_reachable (newItems [] roots)
  constructor
  · intro h
    obtain ⟨a, ha, hconnected⟩ := connected_of_mem_explore h
    exact ⟨a, (hstart a).mp ha, hconnected⟩
  · rintro ⟨a, ha, hconnected⟩
    have hroot := mem_explore_of_mem_queue henough ((hstart a).mpr ha)
    induction hconnected with
    | refl => exact hroot
    | tail _ hlink ih =>
      rcases mem_explore_of_linked henough ih hlink with hlisted | hseen
      · exact hlisted
      · exact mem_explore_of_mem_queue henough hseen

/-- The search lists nothing twice. -/
theorem nodup_reachable (graph : ImportGraph) (roots : List ModuleId) :
    (graph.reachable roots).Nodup :=
  nodup_explore (nodup_newItems _ _) fun _ h => h

/-- The search from one module lists the modules connected to it. -/
lemma mem_reachable_singleton {a b : ModuleId} :
    b ∈ graph.reachable [a] ↔ graph.Connected a b := by
  rw [mem_reachable]
  constructor
  · rintro ⟨root, hroot, hconnected⟩
    rwa [List.mem_singleton.mp hroot] at hconnected
  · exact fun h => ⟨a, List.mem_singleton_self a, h⟩

end Recompile.ImportGraph
