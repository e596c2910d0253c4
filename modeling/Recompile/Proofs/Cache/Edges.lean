import Recompile.Proofs.Cache.Restart
import Recompile.Proofs.Cache.Standing

/-!
# Edges over restarts

The edges of a cache are stored with its manifest, and a process that opens the namespace has the
edges of the manifest that stands.  A flush stores all edges, if it stores anything.  So after a
flush that did not fail the edges of the cache and those of the next process are the same, unless
nothing was stored although the manifest lacks an edge (`World.edges_survive_iff`).

Recording an import marks the cache as dirty, so that the next flush stores something; an edge that
the manifest lacks is therefore marked (`Cache.MarksEdges`) as long as a process stays under its
configuration (`World.edges_survive`).  Going over to another configuration carries the edges over
to a namespace whose manifest may lack them, and marks nothing by itself: a flush that finds no
changed text there does not store them (`World.edges_lost`).
-/

namespace Recompile

namespace Cache

variable {cache : Cache} {disk : Disk}

/-- If the manifest of a cache lacks an edge, the cache is dirty. -/
def MarksEdges (cache : Cache) : Prop :=
  cache.dirty = false → ∀ edge, cache.graph.contains edge = true → edge ∈ cache.manifest.edges

namespace MarksEdges

/-- A cache without edges lacks none. -/
lemma of_empty (h : cache.graph = .empty) : cache.MarksEdges := by
  intro _ edge hedge
  rw [h] at hedge
  exact absurd hedge (ImportGraph.not_contains_empty edge)

/-- What happens inside a process is marked. -/
lemma follows {after : Cache} (h : cache.MarksEdges) (hfollows : cache.Follows after) :
    after.MarksEdges := by
  intro hdirty edge hedge
  obtain ⟨hdirty', hmanifest, hgraph⟩ := hfollows.quiet hdirty
  rw [hgraph] at hedge
  rw [hmanifest]
  exact h hdirty' edge hedge

/-- A flush stores all edges, or leaves what is marked. -/
lemma done (h : cache.MarksEdges) (disk : Disk) : (cache.done disk).2.1.MarksEdges := by
  rcases cache.done_cases disk with ⟨-, -, heq⟩ | ⟨-, ⟨error, left, -, heq⟩ |
    ⟨error, written, left, -, -, heq⟩ | ⟨written, left, -, -, heq⟩⟩
  · rw [heq]
    exact h
  · rw [heq]
    exact h
  · rw [heq]
    exact fun _ edge hedge => ImportGraph.mem_edges.mpr hedge
  · rw [heq]
    exact fun _ edge hedge => ImportGraph.mem_edges.mpr hedge

/-- A process that opens a namespace has the edges of the manifest. -/
lemma openAt (disk : Disk) (root : Path) (config : Digest) (tool : String)
    (entries : List ModuleId) : (Cache.openAt disk root config tool entries).1.MarksEdges := by
  unfold Cache.openAt
  rcases (fresh root config tool entries).attach_of_load disk with ⟨manifest, -, -, heq⟩ |
    ⟨manifest, -, -, heq⟩ | ⟨-, heq⟩
  · rw [heq]
    intro _ edge hedge
    rcases (ImportGraph.contains_insertAll _ _ _).mp hedge with hmem | hempty
    · exact hmem
    · exact absurd hempty (ImportGraph.not_contains_empty edge)
  · rw [heq]
    exact of_empty rfl
  · rw [heq]
    exact of_empty rfl

end MarksEdges

/-- The manifest that a flush leaves has the edges of the cache, if something was stored. -/
lemma edges_done (h : (cache.done disk).1.isFailed = false) :
    ((cache.done disk).1 = .clean ∧ (cache.done disk).2.1 = cache) ∨
      (cache.done disk).1 ≠ .clean ∧ (cache.done disk).2.1.manifest.edges = cache.graph.edges := by
  rcases cache.done_cases disk with ⟨-, -, heq⟩ | ⟨-, ⟨error, left, -, heq⟩ |
    ⟨error, written, left, -, -, heq⟩ | ⟨written, left, -, -, heq⟩⟩
  · rw [heq]
    exact .inl ⟨rfl, rfl⟩
  · rw [heq] at h
    cases h
  · rw [heq] at h
    cases h
  · rw [heq]
    exact .inr ⟨FlushOutcome.noConfusion, rfl⟩

end Cache

namespace World

variable {world : World} {root : Path} {first : Disk}

/-- A process that opens the namespace after a flush that did not fail has the edges of the manifest
that the flush left. -/
lemma graph_reopen (h : Alone root first world) (hfirst : first.Spelled)
    (hdone : (world.cache.done world.disk).1.isFailed = false) (entries : List ModuleId) :
    ((world.take .done).take (.reopen world.cache.config world.cache.tool entries)).cache.graph =
      ImportGraph.empty.insertAll (world.cache.done world.disk).2.1.manifest.edges := by
  have hadmits : world.Admits .done := trivial
  have hopen := h.openAt_done hfirst hdone ((h.take hadmits).leaves_self hfirst) entries
  have hroot := (h.take hadmits).root_eq
  simp only [World.take, put] at hopen hroot ⊢
  rw [hroot, hopen]

/-- The edges of a cache are those of the next process over the same namespace, after a flush that
did not fail, if and only if something was stored or the manifest has all edges. -/
theorem edges_survive_iff (h : Alone root first world) (hfirst : first.Spelled)
    (hdone : (world.cache.done world.disk).1.isFailed = false) (entries : List ModuleId) :
    ((world.take .done).take (.reopen world.cache.config world.cache.tool entries)).cache.graph =
        world.cache.graph ↔
      ((world.cache.done world.disk).1 = .clean →
        ∀ edge, world.cache.graph.contains edge = true → edge ∈ world.cache.manifest.edges) := by
  rw [graph_reopen h hfirst hdone, ImportGraph.insertAll_empty_eq]
  rcases Cache.edges_done hdone with ⟨hclean, hsame⟩ | ⟨hstored, hedges⟩
  · rw [hsame]
    constructor
    · exact fun heq _ edge hedge => (heq edge).mpr hedge
    · exact fun hall edge => ⟨(h.stands hfirst).edges edge, hall hclean edge⟩
  · rw [hedges]
    exact iff_of_true (fun _ => ImportGraph.mem_edges) fun hclean => absurd hclean hstored

/-- The edges of a world with an import survive. -/
theorem edges_survive_iff_importing :
    Alone ⟨"cache"⟩ .empty importing ∧
      (importing.cache.done importing.disk).1.isFailed = false ∧
      (((importing.take .done).take
          (.reopen importing.cache.config importing.cache.tool [])).cache.graph =
          importing.cache.graph ↔
        ((importing.cache.done importing.disk).1 = .clean →
          ∀ edge, importing.cache.graph.contains edge = true →
            edge ∈ importing.cache.manifest.edges)) := by
  have halone : Alone ⟨"cache"⟩ .empty importing := by
    unfold importing
    exact (Alone.start .zero "" []).run ⟨trivial, trivial, trivial⟩
  obtain ⟨left, hdone⟩ := done_importing
  have hstored : (importing.cache.done importing.disk).1.isFailed = false := by
    rw [hdone]
    rfl
  exact ⟨halone, hstored, edges_survive_iff halone .empty hstored []⟩

/-- After an import was recorded and the configuration was changed, nothing is to be stored, and the
next process has lost the import. -/
theorem edges_lost :
    ∃ world : World, Alone ⟨"cache"⟩ .empty world ∧
      (world.cache.done world.disk).1 = .clean ∧
      world.cache.graph.contains ⟨⟨"b"⟩, ⟨"a"⟩⟩ = true ∧
      ((world.take .done).take
        (.reopen world.cache.config world.cache.tool [])).cache.graph.contains
          ⟨⟨"b"⟩, ⟨"a"⟩⟩ = false := by
  have halone : Alone ⟨"cache"⟩ .empty ((start .empty ⟨"cache"⟩ .zero "" []).run
      [.addImport ⟨⟨"b"⟩, ⟨"a"⟩⟩, .reconfigure (.ofBytes [])]) :=
    (Alone.start .zero "" []).run ⟨trivial, trivial, trivial⟩
  refine ⟨_, halone, ?_, ?_, ?_⟩ <;> decide +kernel

/-! ### Processes that stay under their configuration -/

/-- No call goes over to another configuration. -/
def Remains : World → List Call → Prop
  | _, [] => True
  | world, call :: rest =>
    (∀ config, call = .reconfigure config → config = world.cache.config) ∧
      (world.take call).Remains rest

/-- Edges stay marked in every call that does not go over to another configuration. -/
theorem marksEdges_take (h : world.cache.MarksEdges) {call : Call}
    (hremains : ∀ config, call = .reconfigure config → config = world.cache.config) :
    (world.take call).cache.MarksEdges := by
  cases call with
  | reopen config tool entries =>
    simp only [World.take, put]
    exact Cache.MarksEdges.openAt _ _ _ _ _
  | submit path text =>
    simp only [World.take]
    exact h.follows (world.cache.follows_submit _ text)
  | addImport edge =>
    simp only [World.take]
    exact h.follows (world.cache.follows_addImport edge)
  | ask part snapshot value =>
    exact cache_ask_induction (motive := Cache.MarksEdges)
      (h.follows (world.cache.follows_lookup world.disk part snapshot))
      fun hlookup => hlookup.follows (Cache.follows_keep _ part snapshot value)
  | done =>
    simp only [World.take, put]
    exact h.done world.disk
  | collect =>
    simp only [World.take]
    exact h
  | clean =>
    simp only [World.take, put]
    exact Cache.MarksEdges.of_empty rfl
  | reconfigure config =>
    simp only [World.take, put]
    rw [hremains config rfl, Cache.reconfigure_self]
    exact h.done world.disk
  | edit disk =>
    simp only [World.take]
    exact h

/-- So do they in several calls. -/
lemma marksEdges_run (h : world.cache.MarksEdges) {calls : List Call}
    (hremains : world.Remains calls) : (world.run calls).cache.MarksEdges := by
  induction calls generalizing world with
  | nil => exact h
  | cons call rest ih => exact ih (marksEdges_take h hremains.1) hremains.2

/-- As long as no process goes over to another configuration after one has opened the root, the
edges of the cache are those of the next process, after every flush that did not fail. -/
theorem edges_survive (h : Alone root first world) (hfirst : first.Spelled) {config : Digest}
    {tool : String} {entries : List ModuleId} {opened last : World}
    (hopened : opened = world.take (.reopen config tool entries)) {calls : List Call}
    (hcalls : opened.AdmitsAll calls) (hremains : opened.Remains calls)
    (hlast : last = opened.run calls) (hdone : (last.cache.done last.disk).1.isFailed = false) :
    ((last.take .done).take (.reopen last.cache.config last.cache.tool entries)).cache.graph =
      last.cache.graph := by
  have hadmits : world.Admits (.reopen config tool entries) := trivial
  have halone : Alone root first opened := hopened ▸ h.take hadmits
  have hmarks : opened.cache.MarksEdges := by
    rw [hopened]
    simp only [World.take, put]
    exact Cache.MarksEdges.openAt _ _ _ _ _
  have hmarksLast := marksEdges_run hmarks hremains
  rw [← hlast] at hmarksLast
  refine (edges_survive_iff (hlast ▸ halone.run hcalls) hfirst hdone entries).mpr fun hclean => ?_
  refine hmarksLast ?_
  rcases last.cache.done_cases last.disk with ⟨-, hdirty, -⟩ | ⟨-, ⟨error, left, -, heq⟩ |
    ⟨error, written, left, -, -, heq⟩ | ⟨written, left, -, -, heq⟩⟩
  · exact hdirty
  all_goals
    rw [heq] at hclean
    cases hclean

end World

end Recompile
