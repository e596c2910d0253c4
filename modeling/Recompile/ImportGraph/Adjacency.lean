import Recompile.ModuleId

/-!
# Adjacency

An adjacency lists under each of some modules a set of others, in order.  A module is entered when
something is first listed under it, so no set is empty, and an adjacency is determined by what is
listed under each module (`Adjacency.ext_get`).

An import graph has two of them, one for each direction of its edges.
-/

namespace Recompile

/-- What is listed in order does not repeat. -/
theorem nodup_of_pairwise {α : Type} {order : α → α → Ordering} [Std.ReflCmp order]
    {items : List α} (h : items.Pairwise fun a b => order a b = .lt) : items.Nodup := by
  refine h.imp fun {a b} hlt heq => ?_
  have hself : order a b = .eq := heq ▸ Std.ReflCmp.compare_self
  rw [hself] at hlt
  cases hlt

/-- For each of some modules, the others that are listed under it. -/
structure Adjacency where
  /-- The sets, by the module that they belong to. -/
  sets : Std.ExtTreeMap ModuleId (Std.ExtTreeSet ModuleId)
  /-- No set is empty. -/
  ne_empty : ∀ (id : ModuleId) (others : Std.ExtTreeSet ModuleId),
    sets[id]? = some others → others ≠ ∅

namespace Adjacency

/-- An adjacency is determined by its sets. -/
theorem ext_sets {index other : Adjacency} (h : index.sets = other.sets) : index = other := by
  cases index
  cases other
  cases h
  rfl

-- The derived instance gets stuck on the proof field when it is evaluated.
instance : DecidableEq Adjacency := fun _ _ => decidable_of_iff _ ⟨ext_sets, congrArg sets⟩

/-- Nothing is listed. -/
def empty : Adjacency := ⟨∅, by simp⟩

/-- What is listed under a module. -/
def get (index : Adjacency) (id : ModuleId) : Std.ExtTreeSet ModuleId :=
  index.sets[id]?.getD ∅

/-- The adjacency with one more module listed under another. -/
def add (index : Adjacency) (id other : ModuleId) : Adjacency where
  sets := index.sets.insert id ((index.get id).insert other)
  ne_empty := by
    intro key others h
    rw [Std.ExtTreeMap.getElem?_insert] at h
    split at h
    · cases h
      intro hempty
      exact Std.ExtTreeSet.not_mem_empty (hempty ▸ Std.ExtTreeSet.mem_insert_self)
    · exact index.ne_empty key others h

/-- All pairs of a module and one that is listed under it, in order. -/
def pairs (index : Adjacency) : List (ModuleId × ModuleId) :=
  index.sets.toList.flatMap fun entry => entry.2.toList.map (entry.1, ·)

variable {index : Adjacency}

/-- Nothing is listed under a module of the empty adjacency. -/
theorem get_empty (id : ModuleId) : empty.get id = ∅ := by
  simp [empty, get]

/-- Listing one more module changes the set that it is added to. -/
theorem get_add (index : Adjacency) (id other key : ModuleId) :
    (index.add id other).get key =
      if id = key then (index.get id).insert other else index.get key := by
  unfold get add
  rw [Std.ExtTreeMap.getElem?_insert]
  simp only [Std.LawfulEqCmp.compare_eq_iff_eq]
  split <;> rfl

/-- What is listed after one more module was. -/
theorem mem_get_add {id other key item : ModuleId} :
    item ∈ (index.add id other).get key ↔ (id = key ∧ other = item) ∨ item ∈ index.get key := by
  rw [get_add]
  split
  case isTrue h =>
    subst h
    simp [Std.ExtTreeSet.mem_insert]
  case isFalse h => simp [h]

/-- An adjacency is determined by what is listed under each module. -/
theorem ext_get {index other : Adjacency} (h : ∀ id, index.get id = other.get id) :
    index = other := by
  have hsome : ∀ {a b : Adjacency} {id others}, a.get id = b.get id → a.sets[id]? = some others →
      b.sets[id]? = some others := by
    intro a b id others hget hothers
    unfold get at hget
    rw [hothers, Option.getD_some] at hget
    cases hb : b.sets[id]? with
    | none =>
      rw [hb, Option.getD_none] at hget
      exact absurd hget (a.ne_empty id others hothers)
    | some found =>
      rw [hb, Option.getD_some] at hget
      rw [hget]
  refine ext_sets (Std.ExtTreeMap.ext_getElem? fun id => Option.ext fun others => ?_)
  exact ⟨hsome (h id), hsome (h id).symm⟩

/-- The pairs are those of a module and one that is listed under it. -/
theorem mem_pairs {id item : ModuleId} : (id, item) ∈ index.pairs ↔ item ∈ index.get id := by
  unfold pairs get
  rw [List.mem_flatMap]
  constructor
  · rintro ⟨entry, hentry, hitem⟩
    obtain ⟨found, hfound, heq⟩ := List.mem_map.mp hitem
    cases heq
    rw [Std.ExtTreeMap.mem_toList_iff_getElem?_eq_some.mp hentry]
    exact Std.ExtTreeSet.mem_toList.mp hfound
  · intro hitem
    cases hothers : index.sets[id]? with
    | none =>
      rw [hothers] at hitem
      exact absurd hitem Std.ExtTreeSet.not_mem_empty
    | some others =>
      rw [hothers] at hitem
      exact ⟨(id, others), Std.ExtTreeMap.mem_toList_iff_getElem?_eq_some.mpr hothers,
        List.mem_map.mpr ⟨item, Std.ExtTreeSet.mem_toList.mpr hitem, rfl⟩⟩

/-- The pairs are listed in order. -/
theorem pairwise_pairs (index : Adjacency) :
    index.pairs.Pairwise fun a b =>
      compareLex (compareOn Prod.fst) (compareOn Prod.snd) a b = .lt := by
  unfold pairs
  rw [List.pairwise_flatMap]
  constructor
  · intro entry _
    rw [List.pairwise_map]
    refine Std.ExtTreeSet.ordered_toList.imp fun {a b} hlt => ?_
    rw [compareLex, compareOn, Std.ReflOrd.compare_self]
    exact hlt
  · refine Std.ExtTreeMap.ordered_keys_toList.imp fun {a b} hlt => ?_
    intro x hx y hy
    obtain ⟨-, -, rfl⟩ := List.mem_map.mp hx
    obtain ⟨-, -, rfl⟩ := List.mem_map.mp hy
    rw [compareLex, compareOn, hlt]
    rfl

/-- Listing a module that was not listed adds one pair. -/
theorem length_pairs_add {id other : ModuleId} (h : other ∉ index.get id) :
    (index.add id other).pairs.length = index.pairs.length + 1 := by
  have hnew : (id, other) ∉ index.pairs := mt mem_pairs.mp h
  have hperm : (index.add id other).pairs.Perm ((id, other) :: index.pairs) := by
    refine (List.perm_ext_iff_of_nodup (nodup_of_pairwise (pairwise_pairs _))
      (List.nodup_cons.mpr ⟨hnew, nodup_of_pairwise index.pairwise_pairs⟩)).mpr
        fun (key, item) => ?_
    rw [List.mem_cons, mem_pairs, mem_pairs, mem_get_add, Prod.mk.injEq, eq_comm,
      @eq_comm _ other]
  exact hperm.length_eq

end Adjacency

end Recompile
