import Recompile.Proofs.Cache.Collecting
import Recompile.Proofs.Cache.Winding

/-!
# Crashes in the middle of a flush

A flush replaces files one after the other, and a process may die after any number of them.  Whoever
opens the namespace then (`World.crash`) takes over the manifest that was there before, or the one
that the flush was about to leave (`Cache.openAt_flush`), and finds every artifact that it names.

What is on the disk then was there or in memory before, so it came from computing it, and so does
everything that is answered later without computing it (`World.crash_is_harmless`).

This holds for roots that are not reached through one of their own namespaces.  If such a namespace
is thrown away, the root is out of reach until a flush makes the namespace again, and with the root
an old manifest comes back, whose artifacts may be gone by then
(`World.crash_through_namespace_harms`).
-/

namespace Recompile

namespace Cache

variable {cache : Cache} {disk : Disk}

/-! ### Opening after a crash -/

/-- What a cache becomes that attaches where a manifest is loaded. -/
def adopt (cache : Cache) (manifest : Manifest) : Cache :=
  if manifest.isCompatible cache.tool cache.config then
    { cache with
      graph := cache.graph.insertAll manifest.edges
      unobserved := unseen cache.snapshots manifest
      manifest }
  else { cache with manifest := .fresh cache.tool cache.config, dirty := false, unobserved := ∅ }

/-- Attaching adopts the manifest that is loaded. -/
lemma attach_eq_adopt {manifest : Manifest}
    (h : Manifest.load disk cache.directory = .ok (some manifest)) :
    (cache.attach disk).1 = cache.adopt manifest := by
  unfold attach adopt
  rw [h]
  simp only
  split_ifs <;> rfl

/-- What attaching takes over depends on the manifest that is loaded alone. -/
lemma attach_congr {other : Disk}
    (h : ∀ manifest, Manifest.load other cache.directory = .ok (some manifest) ↔
      Manifest.load disk cache.directory = .ok (some manifest)) :
    (cache.attach other).1 = (cache.attach disk).1 := by
  by_cases hload : ∃ manifest, Manifest.load disk cache.directory = .ok (some manifest)
  · obtain ⟨manifest, hmanifest⟩ := hload
    rw [attach_eq_adopt hmanifest, attach_eq_adopt ((h manifest).mpr hmanifest)]
  · have hnone : ∀ manifest, Manifest.load disk cache.directory ≠ .ok (some manifest) :=
      fun manifest hmanifest => hload ⟨manifest, hmanifest⟩
    rw [attach_of_not_load hnone,
      attach_of_not_load fun manifest hmanifest => hnone manifest ((h manifest).mp hmanifest)]

/-- However many writes of a flush took effect, whoever opens the namespace takes over what was
there before or the manifest that the flush was about to leave. -/
theorem openAt_flush {count : Nat} (hbefore : disk.Whole cache.root)
    (hafter : (Write.runAll (cache.flushWrites.take count) disk).2.Whole cache.root)
    (entries : List ModuleId) :
    (openAt (Write.runAll (cache.flushWrites.take count) disk).2 cache.root cache.config
          cache.tool entries).1 = (openAt disk cache.root cache.config cache.tool entries).1 ∨
      (openAt (Write.runAll (cache.flushWrites.take count) disk).2 cache.root cache.config
          cache.tool entries).1 =
        (fresh cache.root cache.config cache.tool entries).adopt cache.flushedManifest := by
  unfold openAt
  rcases cache.flush_cases disk count with hmanifests | ⟨written, left, -, hsave, hleft⟩
  · refine .inl (attach_congr fun manifest => ?_)
    have hbefore := hbefore.load_iff cache.config manifest
    have hafter := hafter.load_iff cache.config manifest
    rw [hmanifests] at hafter
    exact hafter.trans hbefore.symm
  · rw [hleft]
    exact .inr (attach_eq_adopt (Manifest.load_of_save hsave))

end Cache

namespace World

variable {world : World} {root : Path} {first : Disk}

/-- The world after so many writes of a flush took effect. -/
def cut (world : World) (count : Nat) : World :=
  { world with disk := (Write.runAll (world.cache.flushWrites.take count) world.disk).2 }

/-- The world of a process that opens the namespace after the one before it died there. -/
def crash (world : World) (count : Nat) (entries : List ModuleId) : World :=
  (world.cut count).take (.reopen world.cache.config world.cache.tool entries)

/-- Several calls keep everything accounted for. -/
lemma Accounted.run (h : world.Accounted) {calls : List Call} (hcalls : world.AllowsAll calls) :
    (world.run calls).Accounted := by
  induction calls generalizing world with
  | nil => exact h
  | cons call rest ih => exact ih (h.take hcalls.1) hcalls.2

/-- After a crash everything is accounted for. -/
lemma Accounted.crash (h : world.Accounted) (count : Nat) (entries : List ModuleId) :
    (world.crash count entries).Accounted := by
  have hcut : (world.cut count).Accounted :=
    ⟨keeps_mk (Cache.Keeps.flush h.records count), h.answers⟩
  have hallows : (world.cut count).Allows
    (.reopen world.cache.config world.cache.tool entries) := trivial
  exact hcut.take hallows

/-! ### Answers whose records fit -/

/-- Both parts of a module with an empty text, computed one after the other. -/
def bothParts : List Served :=
  [⟨⟨.output, ⟨"a"⟩, Digest.ofText "", .zero, "", 0, .nothing⟩, true⟩,
    ⟨⟨.findings .form, ⟨"a"⟩, Digest.ofText "", .zero, "", 0, []⟩, true⟩]

/-- Both answers are about the same. -/
lemma stamp_bothParts : ∀ served ∈ bothParts,
    served.answer.stamp = ⟨⟨"a"⟩, Digest.ofText "", .zero, 0⟩ ∧ served.answer.tool = "" :=
  List.forall_mem_cons.mpr ⟨⟨rfl, rfl⟩, List.forall_mem_singleton.mpr ⟨rfl, rfl⟩⟩

/-- Records of both parts fit. -/
lemma fitting_bothParts : Fitting bothParts := by
  intro served hserved record shelf hstamp _ hsound
  obtain ⟨hsame, htool⟩ := stamp_bothParts served hserved
  rw [hsame] at hstamp
  obtain ⟨file, content, generation, output, findings⟩ := record
  obtain ⟨rfl, rfl, -, rfl⟩ := Stamp.mk.inj hstamp
  -- The output is nothing, if there is one, and the first pass found nothing, if it was run.
  have honly : ∀ (part : Part) (value : part.Value),
      part.get? ⟨⟨"a"⟩, Digest.ofText "", 0, output, findings⟩ = some value →
        (⟨part, value⟩ : (part : Part) × part.Value) = ⟨.output, .nothing⟩ ∨
          (⟨part, value⟩ : (part : Part) × part.Value) = ⟨.findings .form, []⟩ := by
    have hgiven : ∀ one two : Served, one = two → (⟨one.answer.part, one.answer.value⟩ :
        (part : Part) × part.Value) = ⟨two.answer.part, two.answer.value⟩ := by
      rintro one - rfl
      rfl
    intro part value hvalue
    exact (List.mem_pair.mp (hsound part value hvalue)).imp (hgiven _ _) (hgiven _ _)
  have houtput : output = none ∨ output = some .nothing := by
    cases output with
    | none => exact .inl rfl
    | some value =>
      rcases honly .output value rfl with heq | heq
      · exact .inr (congrArg some (eq_of_heq (Sigma.mk.inj heq).2))
      · cases (Sigma.mk.inj heq).1
  have hform : ∀ form meaning, findings = some ⟨form, meaning⟩ →
      (form = none ∨ form = some []) ∧ meaning = none := by
    rintro form meaning rfl
    refine ⟨?_, ?_⟩
    · cases form with
      | none => exact .inl rfl
      | some value =>
        rcases honly (.findings .form) value rfl with heq | heq
        · cases (Sigma.mk.inj heq).1
        · exact .inr (congrArg some (eq_of_heq (Sigma.mk.inj heq).2))
    · cases meaning with
      | none => rfl
      | some value =>
        rcases honly (.findings .meaning) value rfl with heq | heq <;> cases (Sigma.mk.inj heq).1
  rw [htool]
  cases findings with
  | none => rcases houtput with rfl | rfl <;> exact ⟨by decide +kernel, by decide +kernel⟩
  | some found =>
    obtain ⟨form, meaning⟩ := found
    obtain ⟨rfl | rfl, rfl⟩ := hform form meaning rfl
    all_goals rcases houtput with rfl | rfl <;> exact ⟨by decide +kernel, by decide +kernel⟩

/-- So do those of one of them. -/
lemma fitting_answered : Fitting answered.log := by
  have hlog : answered.log =
      [⟨⟨.output, ⟨"a"⟩, Digest.ofText "", .zero, "", 0, .nothing⟩, true⟩] := by
    decide +kernel
  rw [hlog]
  exact fitting_bothParts.mono (List.cons_subset_cons _ (List.nil_subset _))

/-! ### Crashes -/

/-- A crash in the middle of a flush is harmless, after any number of its writes.  Whoever opens the
namespace takes over what was there before the flush or the manifest that the flush was about to
leave; every key in the manifest that is taken over names an artifact that can be read and belongs
to its module; and whatever happens then, an answer that is not computed was computed before: the
same value, for the same part of the same module, with the same text, configuration, tool and
generation. -/
theorem crash_is_harmless (h : Alone root first world) (hbare : first.IsBare root.place)
    (hfirst : first.Spelled) (hclear : root.Clear) (hunique : KeysUnique world.log)
    (hfitting : Fitting world.log) (count : Nat) (entries : List ModuleId) :
    ((world.crash count entries).cache =
          (world.take (.reopen world.cache.config world.cache.tool entries)).cache ∨
        (world.crash count entries).cache =
          { Cache.fresh world.cache.root world.cache.config world.cache.tool entries with
            graph := ImportGraph.empty.insertAll world.cache.flushedManifest.edges
            unobserved := Cache.unseen .empty world.cache.flushedManifest
            manifest := world.cache.flushedManifest }) ∧
      (world.crash count entries).cache.manifest.Held (world.crash count entries).disk
        (world.crash count entries).cache.archive (world.crash count entries).cache.config ∧
      ∀ calls, (world.crash count entries).AllowsAll calls →
        ∀ (before after : List Served) (answer : Answer),
          ((world.crash count entries).run calls).log = before ++ ⟨answer, false⟩ :: after →
            ⟨answer, true⟩ ∈ before := by
  have hintact := h.intact hbare hfirst hclear hunique hfitting
  have hcompatible := (h.stands hfirst).compatible
  have hwhole := hintact.whole_flush hcompatible (h.reachable hbare).asked hunique
    (h.fits hbare hfirst hunique hfitting) count
  have hroot : world.cache.root.Clear := h.root_eq ▸ hclear
  refine ⟨?_, ?_, fun calls hcalls => ?_⟩
  · have hopen := Cache.openAt_flush hintact.whole hwhole entries
    unfold Cache.adopt at hopen
    rw [if_pos (by rw [Cache.isCompatible_flushedManifest]; exact hcompatible)] at hopen
    simp only [crash, cut, World.take, put]
    exact hopen
  · simp only [crash, cut, World.take, put]
    exact (Cache.intact_openAt hwhole hroot _ _ entries).held
  · exact (((h.reachable hbare).accounted.crash count entries).run hcalls).answers

/-- A process dies after it wrote the artifact of an output and before it saved the manifest. -/
theorem crash_is_harmless_answered :
    answered.cache.flushWrites.length = 2 ∧
      ((answered.crash 1 []).cache =
            (answered.take (.reopen answered.cache.config answered.cache.tool [])).cache ∨
          (answered.crash 1 []).cache =
            { Cache.fresh answered.cache.root answered.cache.config answered.cache.tool [] with
              graph := ImportGraph.empty.insertAll answered.cache.flushedManifest.edges
              unobserved := Cache.unseen .empty answered.cache.flushedManifest
              manifest := answered.cache.flushedManifest }) ∧
        (answered.crash 1 []).cache.manifest.Held (answered.crash 1 []).disk
          (answered.crash 1 []).cache.archive (answered.crash 1 []).cache.config ∧
        ∀ calls, (answered.crash 1 []).AllowsAll calls →
          ∀ (before after : List Served) (answer : Answer),
            ((answered.crash 1 []).run calls).log = before ++ ⟨answer, false⟩ :: after →
              ⟨answer, true⟩ ∈ before := by
  have hclear : Path.Clear ⟨"cache"⟩ := Path.clear_of_no_up (by decide +kernel)
  exact ⟨by decide +kernel, crash_is_harmless alone_answered (isBare_empty _) .empty hclear
    keysUnique_answered fitting_answered 1 []⟩

/-! ### A root that is reached through a namespace -/

/-- A root that is reached through the namespace of another configuration. -/
@[irreducible]
def crooked : Path := ⟨(Digest.ofBytes []).hex ++ "/.."⟩

/-- The key of the artifacts of a module with an empty text. -/
@[irreducible]
def onlyKey : String := artifactKey ⟨"a"⟩ (Digest.ofText "") .zero 0

/-- It is a key. -/
lemma isKey_onlyKey : Archive.IsKey onlyKey := by
  unfold onlyKey
  exact Archive.isKey_hex _

/-- A disk with the directories of two namespaces, one of them in the place of an artifact, and
without files.  Whoever stores something makes every directory that the path of the root leads
through, so a longer path can leave the same. -/
def furnished : Disk :=
  ((((Disk.empty.insert ["", (Digest.ofBytes []).hex] .directory).insert ["", Digest.zero.hex]
    .directory).insert ["", Digest.zero.hex, "code"] .directory).insert
    ["", Digest.zero.hex, "diagnostics"] .directory).insert
    ["", Digest.zero.hex, "diagnostics", onlyKey ++ "." ++ Archive.ending] .directory

/-- What is listed on it has a name. -/
lemma spelled_furnished : furnished.Spelled := by
  exact (((((Disk.Spelled.empty.insert [""] (Digest.ofBytes []).isName_hex _).insert [""]
    Digest.zero.isName_hex _).insert ["", Digest.zero.hex] Shelf.code.isName_directory _).insert
    ["", Digest.zero.hex] Shelf.diagnostics.isName_directory _).insert
    ["", Digest.zero.hex, "diagnostics"] isKey_onlyKey.isName _)

/-- There is no file on it. -/
lemma isBare_furnished (root : Location) : furnished.IsBare root :=
  (((((isBare_empty root).insert_directory _).insert_directory _).insert_directory
    _).insert_directory _).insert_directory _

/-- A world where the output of a module was asked for. -/
@[irreducible]
def unstored : World :=
  (start furnished crooked .zero "" []).run
    [.submit "a" "", .ask .output ⟨⟨"a"⟩, "", 1⟩ .nothing]

/-- The output is stored.  Then the other namespace is thrown away, so that the root is not reached
any more and its manifest is not found, and findings are asked for. -/
@[irreducible]
def estranged : World :=
  unstored.run [.reconfigure (.ofBytes []), .clean, .reconfigure .zero,
    .ask (.findings .form) ⟨⟨"a"⟩, "", 1⟩ []]

/-- The findings cannot be stored, but the root is reached again, and the output that the manifest
in memory does not name is removed. -/
@[irreducible]
def orphaned : World := estranged.run [.done, .collect]

/-- The root is the current directory, by a path that is not too long, and the other namespace is
another one.  The directories of the namespaces and of both shelves are there. -/
lemma evaluated_crooked :
    (crooked.place = [""] ∧ crooked.text.utf8ByteSize + 82 < Disk.maxPath ∧
        Digest.ofBytes [] ≠ .zero) ∧
      furnished.isDirectory (crooked.join ⟨(Digest.ofBytes []).hex⟩) = true ∧
      ∀ shelf ∈ [Shelf.code, Shelf.diagnostics], furnished.isDirectory
        ((crooked.join ⟨Digest.zero.hex⟩).join ⟨shelf.directory⟩) = true := by
  decide +kernel

/-- Where the namespace is. -/
lemma place_crooked : (crooked.join ⟨Digest.zero.hex⟩).place = ["", Digest.zero.hex] := by
  rw [Path.place_join _ Digest.zero.isName_hex, evaluated_crooked.1.1]
  rfl

/-- Where a shelf is. -/
lemma place_shelf (shelf : Shelf) :
    ((crooked.join ⟨Digest.zero.hex⟩).join ⟨shelf.directory⟩).place =
      ["", Digest.zero.hex, shelf.directory] := by
  rw [Path.place_join _ shelf.isName_directory, place_crooked]
  rfl

/-- Its directory is there. -/
lemma opens_furnished (shelf : Shelf) :
    furnished.Opens ((crooked.join ⟨Digest.zero.hex⟩).join ⟨shelf.directory⟩) :=
  Disk.opens_of_isDirectory (evaluated_crooked.2.2 shelf (by cases shelf <;> simp))

/-- The cache in which the output was computed. -/
@[irreducible]
def computing : Cache.Laden crooked .zero "" ⟨.code, ⟨"a"⟩⟩
    ⟨⟨"a"⟩, .ofText "", 0, some .nothing, none⟩ onlyKey where
  cache := ((Cache.fresh crooked .zero "" []).submit (.ofPath "a") "").2.keep .output
    ⟨⟨"a"⟩, "", 1⟩ .nothing
  root_eq := rfl
  config_eq := rfl
  tool_eq := rfl
  records_eq := by decide +kernel
  key_eq := by
    unfold onlyKey
    rfl

/-- The cache that has forgotten the output and computed the findings. -/
@[irreducible]
def recovering : Cache.Laden crooked .zero "" ⟨.diagnostics, ⟨"a"⟩⟩
    ⟨⟨"a"⟩, .ofText "", 0, none, some ⟨some [], none⟩⟩ onlyKey where
  cache := computing.cache.forgotten.recordSnapshots.keep (.findings .form) ⟨⟨"a"⟩, "", 1⟩ []
  root_eq := computing.cache.forgotten.hears_recordSnapshots.root.trans computing.root_eq
  config_eq := computing.cache.forgotten.hears_recordSnapshots.config.trans computing.config_eq
  tool_eq := computing.cache.forgotten.hears_recordSnapshots.tool.trans computing.tool_eq
  records_eq := by decide +kernel
  key_eq := by
    unfold onlyKey
    rfl

/-- The second cache takes over what the first one will store, which names the artifact of the
output; the second one names no output itself; and this is what they computed. -/
lemma evaluated_computing :
    (computing.cache.flushedManifest.isCompatible recovering.cache.tool
          recovering.cache.config = true ∧
        (computing.cache.flushedManifest.state ⟨"a"⟩).key? .code = some onlyKey) ∧
      recovering.cache.manifest.liveKeys .code = [] ∧
      [⟨answerOf computing.cache .output ⟨⟨"a"⟩, "", 1⟩ .nothing, true⟩,
        ⟨answerOf recovering.cache (.findings .form) ⟨⟨"a"⟩, "", 1⟩ [], true⟩] = bothParts := by
  decide +kernel

/-- One of them is in the place of an artifact. -/
lemma place_furnished : furnished.node?
    ["", Digest.zero.hex, "diagnostics", onlyKey ++ "." ++ Archive.ending] = some .directory := by
  unfold furnished
  rw [Disk.node?_insert _ _ (by simp) (by simp [Disk.current]), if_pos rfl]

/-- Nothing is in the first namespace but them. -/
lemma mem_of_node?_furnished {rest : Location} {node : Node}
    (h : furnished.node? ("" :: Digest.zero.hex :: rest) = some node) :
    rest ∈ [[], ["code"], ["diagnostics"],
      ["diagnostics", onlyKey ++ "." ++ Archive.ending]] := by
  obtain ⟨-, -, hne⟩ := evaluated_crooked.1
  have hhex : (Digest.ofBytes []).hex ≠ Digest.zero.hex :=
    fun heq => hne (Digest.hex_injective heq)
  rw [Disk.node?_cons_cons] at h
  unfold furnished Disk.insert Disk.empty at h
  simp only [Std.ExtTreeMap.getElem?_insert, Std.LawfulEqCmp.compare_eq_iff_eq, List.cons.injEq,
    true_and, hhex, false_and, if_false, Std.ExtTreeMap.getElem?_empty] at h
  split_ifs at h with hartifact hdiagnostics hcode hroot
  · simp [← hartifact]
  · simp [← hdiagnostics]
  · simp [← hcode]
  · simp [← hroot]

/-- The output is computed and not stored. -/
lemma evaluated_unstored : unstored.cache = computing.cache ∧ unstored.disk = furnished ∧
    unstored.log = [⟨answerOf computing.cache .output ⟨⟨"a"⟩, "", 1⟩ .nothing, true⟩] := by
  obtain ⟨cache, texts, rfl, hrun⟩ := first_answer (isBare_furnished crooked.place) .zero "" []
    "a" "" .output ⟨⟨"a"⟩, "", 1⟩ .nothing
  unfold unstored computing
  rw [hrun]
  exact ⟨rfl, rfl, rfl⟩

/-- The disk with the artifact of the output and a manifest that names it. -/
@[irreducible]
def stored : Disk :=
  (furnished.insert ["", Digest.zero.hex, "code", onlyKey ++ "." ++ Archive.ending]
      (.file (Artifact.encode ""
        (Record.toBytes ⟨⟨"a"⟩, .ofText "", 0, some .nothing, none⟩)))).insert
    ["", Digest.zero.hex, "manifest.json"]
    (.file (Bytes.ofText computing.cache.flushedManifest.document))

/-- Where the artifact and the manifest go there is no directory. -/
lemma free_furnished {rest : Location}
    (h : rest = ["code", onlyKey ++ "." ++ Archive.ending] ∨ rest = ["manifest.json"]) :
    furnished.node? ("" :: Digest.zero.hex :: rest) ≠ some .directory := by
  intro hnode
  have hmem := mem_of_node?_furnished hnode
  rcases h with rfl | rfl <;> simp at hmem

/-- The first flush leaves that disk. -/
lemma done_computing : computing.cache.done furnished = (.flushed 1,
    { computing.cache with
      manifest := computing.cache.flushedManifest, pending := ∅, dirty := false },
    stored) := by
  have hdone := computing.done place_crooked (opens_furnished .code) evaluated_crooked.1.2.1
  unfold stored
  exact hdone (free_furnished (.inl rfl)) (free_furnished (.inr rfl))

/-- What the first flush put in the namespace, and what was there. -/
lemma node?_stored (rest : Location) : stored.node? ("" :: Digest.zero.hex :: rest) =
    if rest = ["manifest.json"] then
      some (.file (Bytes.ofText computing.cache.flushedManifest.document))
    else if rest = ["code", onlyKey ++ "." ++ Archive.ending] then
      some (.file (Artifact.encode ""
        (Record.toBytes ⟨⟨"a"⟩, .ofText "", 0, some .nothing, none⟩)))
    else furnished.node? ("" :: Digest.zero.hex :: rest) := by
  unfold stored
  rw [Disk.node?_insert _ _ (by simp) (by simp [Disk.current]),
    Disk.node?_insert _ _ (by simp) (by simp [Disk.current])]
  simp only [List.cons.injEq, true_and]

/-- All directories are still there. -/
lemma keeps_stored : furnished.KeepsDirectories stored := by
  have hkeeps := computing.cache.keeps_done furnished
  rw [done_computing] at hkeeps
  exact hkeeps

/-- What is left once the other namespace was thrown away. -/
@[irreducible]
def pruned : Disk := stored.prune ["", (Digest.ofBytes []).hex]

/-- In this namespace that is the same. -/
lemma node?_pruned (rest : Location) : pruned.node? ("" :: Digest.zero.hex :: rest) =
    stored.node? ("" :: Digest.zero.hex :: rest) := by
  have hapart : ¬ ["", (Digest.ofBytes []).hex] <+: "" :: Digest.zero.hex :: rest := by
    intro hprefix
    obtain ⟨-, -, hne⟩ := evaluated_crooked.1
    exact hne (Digest.hex_injective (List.cons_prefix_cons.mp
      (List.cons_prefix_cons.mp hprefix).2).1)
  unfold pruned
  rw [Disk.node?_prune, if_neg (by simp [Disk.current]), if_neg hapart]

/-- Then the root is out of reach, and the findings are computed. -/
lemma estranged_eq : ∃ texts, estranged = ⟨recovering.cache, pruned, bothParts, texts⟩ := by
  obtain ⟨hcache, hdisk, hlog⟩ := evaluated_unstored
  obtain ⟨⟨hplace, -, hne⟩, hdirectory, -⟩ := evaluated_crooked
  have hroot := computing.root_eq
  have hconfig := computing.config_eq
  have hway : ¬ crooked.Avoids (Digest.ofBytes []).hex := by
    unfold crooked
    exact Path.not_avoids_back (Digest.isName_hex _)
  rw [← hcache] at hroot hconfig
  rw [← hconfig] at hne
  rw [← hroot] at hway
  have hopens : unstored.disk.Opens (unstored.cache.root.join ⟨(Digest.ofBytes []).hex⟩) := by
    rw [hdisk, hroot]
    exact Disk.opens_of_isDirectory hdirectory
  obtain ⟨texts, hforgets⟩ := forgets_on_the_way hne hway (hdisk ▸ isBare_furnished _ _) hopens
  have hrun : estranged = (unstored.run [.reconfigure (.ofBytes []), .clean,
      .reconfigure unstored.cache.config]).ask (.findings .form) ⟨⟨"a"⟩, "", 1⟩ [] := by
    unfold estranged
    rw [hconfig]
    rfl
  have hblank := (Cache.Blank.forgotten computing.cache).recordSnapshots
  have hask := (@ask_of_none ⟨_, pruned, unstored.log, texts⟩ _ _
    (hblank.lookup pruned (.findings .form) ⟨⟨"a"⟩, "", 1⟩) []).2
  rw [hroot, hcache, hdisk, done_computing, hplace] at hforgets
  unfold pruned at hask ⊢
  rw [hrun, hcache, hforgets, ← evaluated_computing.2.2]
  rw [hlog] at hask ⊢
  unfold recovering
  exact ⟨_, hask⟩

/-- A disk that the second flush leaves: the findings are not stored, but the root is reached
again. -/
structure Regained (made : Disk) : Prop where
  /-- The flush fails. -/
  done : ∃ error, recovering.cache.done pruned = (.failed error, recovering.cache, made)
  /-- The directory of the namespace is there. -/
  opens : made.Opens (crooked.join ⟨Digest.zero.hex⟩)
  /-- What the first flush left in the namespace is there, and no more than directories. -/
  node? : ∀ rest, made.node? ("" :: Digest.zero.hex :: rest) =
      stored.node? ("" :: Digest.zero.hex :: rest) ∨
    made.node? ("" :: Digest.zero.hex :: rest) = some .directory ∧
      furnished.node? ("" :: Digest.zero.hex :: rest) = some .directory

/-- The second flush leaves one. -/
lemma exists_regained : ∃ made, Regained made := by
  obtain ⟨-, hfits, -⟩ := evaluated_crooked.1
  have hway : ∀ passed, furnished.node? passed = some .directory → ∀ content,
      pruned.node? passed ≠ some (.file content) := by
    intro passed hdirectory content hfile
    unfold pruned at hfile
    rw [Disk.node?_prune, keeps_stored passed hdirectory] at hfile
    split_ifs at hfile <;> cases hfile
  obtain ⟨error, made, hdone, hmade, hadds⟩ := recovering.failed place_crooked hfits
    (opens_furnished .diagnostics) hway ((node?_pruned _).trans (keeps_stored _ place_furnished))
  have hnamespace : made.Opens (crooked.join ⟨Digest.zero.hex⟩) :=
    ((Disk.leads_join Shelf.diagnostics.isName_directory
      (crooked.join_ne_empty Digest.zero.isName_hex)).mp hmade.1).2.2
  refine ⟨made, ⟨error, hdone⟩, hnamespace, fun rest => ?_⟩
  rw [← node?_pruned]
  exact (hadds _).imp Disk.node?_congr fun hmore => ⟨hmore.2.1, hmore.2.2⟩

namespace Regained

variable {made : Disk}

/-- The manifest of the first flush can be read again. -/
lemma read_manifest (h : Regained made) :
    made.read (recovering.cache.directory.join Manifest.fileName) =
      .ok (Bytes.ofText computing.cache.flushedManifest.document) := by
  obtain ⟨hplace, hfits, -⟩ := evaluated_crooked.1
  have hnode := (h.node? ["manifest.json"]).resolve_right
    fun hmore => free_furnished (.inr rfl) hmore.2
  rw [node?_stored, if_pos rfl] at hnode
  refine Disk.read_eq_ok.mpr ⟨recovering.directory_eq ▸ h.opens.leads_manifest hfits, ?_⟩
  rw [Cache.place_manifest, recovering.root_eq, recovering.config_eq, hplace]
  exact Disk.content?_of_node? hnode

/-- The directory of the first shelf is there. -/
lemma opens_code (h : Regained made) :
    made.Opens ((crooked.join ⟨Digest.zero.hex⟩).join ⟨Shelf.code.directory⟩) := by
  obtain ⟨-, hfits, -⟩ := evaluated_crooked.1
  have hthere := (opens_furnished .code).2
  rw [place_shelf] at hthere
  refine ⟨h.opens.leads_shelf hfits .code, ?_⟩
  rw [place_shelf]
  rcases h.node? [Shelf.code.directory] with hsame | hmore
  · exact hsame.trans (keeps_stored _ hthere)
  · exact hmore.1

/-- The artifact of the output is all that is listed there, and it can be read. -/
lemma read_listed (h : Regained made) {name : String} {node : Node}
    (hnode : made.nodes[["", Digest.zero.hex, Shelf.code.directory, name]]? = some node) :
    Path.IsName name ∧ ∃ content,
      made.read (((crooked.join ⟨Digest.zero.hex⟩).join ⟨Shelf.code.directory⟩).join ⟨name⟩) =
        .ok content := by
  obtain ⟨-, hfits, -⟩ := evaluated_crooked.1
  have hempty : ∀ node, furnished.node? ["", Digest.zero.hex, "code", name] ≠ some node := by
    intro node hthere
    simpa using mem_of_node?_furnished hthere
  have hmade : made.node? ["", Digest.zero.hex, "code", name] = some node :=
    (made.node?_cons_cons _ _ _).trans hnode
  have hsame := (h.node? ["code", name]).resolve_right fun hmore => hempty _ hmore.2
  rw [node?_stored, if_neg (by simp)] at hsame
  -- It is the file that the first flush left.
  split_ifs at hsame with hname
  · obtain rfl : name = onlyKey ++ "." ++ Archive.ending := by simpa using hname
    have hleads := h.opens_code.leads_artifact hfits isKey_onlyKey
    have hplace := Path.place_join ((crooked.join ⟨Digest.zero.hex⟩).join
      ⟨Shelf.code.directory⟩) isKey_onlyKey.isName
    rw [place_shelf] at hplace
    have hcontent := (congrArg made.content? hplace).trans (Disk.content?_of_node? hsame)
    exact ⟨isKey_onlyKey.isName, _, Disk.read_eq_ok.mpr ⟨hleads, hcontent⟩⟩
  · exact absurd (hsame.symm.trans hmade) (hempty node)

/-- It is gone once artifacts that the manifest in memory does not name were removed. -/
lemma gone (h : Regained made) :
    (recovering.cache.archive.read (recovering.cache.collect made).2 Shelf.code.directory
      onlyKey).isOk = false := by
  have hopens := h.opens_code
  rw [← recovering.directory_eq] at hopens
  refine Cache.not_read_collect hopens (fun name node hnode => ?_) isKey_onlyKey ?_
  · rw [recovering.root_eq, recovering.config_eq, evaluated_crooked.1.1] at hnode
    rw [recovering.directory_eq]
    exact h.read_listed hnode
  · rw [evaluated_computing.2.1]
    exact List.not_mem_nil

end Regained

/-- In the end the manifest of the first flush is loaded, and the artifact that it names is gone. -/
lemma evaluated_orphaned :
    (orphaned.log = bothParts ∧ orphaned.cache = recovering.cache) ∧
      Manifest.load orphaned.disk orphaned.cache.directory =
        .ok (some computing.cache.flushedManifest) ∧
      (orphaned.cache.archive.read orphaned.disk Shelf.code.directory onlyKey).isOk = false := by
  obtain ⟨made, hregained⟩ := exists_regained
  obtain ⟨texts, hestranged⟩ := estranged_eq
  obtain ⟨error, hdone⟩ := hregained.done
  have horphaned : orphaned =
      ⟨recovering.cache, (recovering.cache.collect made).2, bothParts, texts⟩ := by
    unfold orphaned
    rw [hestranged]
    simp only [World.run, List.foldl_cons, List.foldl_nil, World.take, put, hdone]
  have hspelled : made.Spelled := by
    have hstored := @Cache.spelled_done computing.cache furnished spelled_furnished
    rw [done_computing] at hstored
    have hpruned : pruned.Spelled := by
      unfold pruned
      exact Disk.Spelled.prune hstored _
    have hmade := @Cache.spelled_done recovering.cache pruned hpruned
    rw [hdone] at hmade
    exact hmade
  rw [horphaned]
  refine ⟨⟨rfl, rfl⟩, Manifest.load_eq_some.mpr ⟨_, ?_, Manifest.ofContent?_saving _ ⟨""⟩⟩,
    hregained.gone⟩
  refine (Cache.read_collect hspelled fun shelf name _ _ => ?_).mpr hregained.read_manifest
  rw [Cache.place_manifest]
  exact Cache.artifact_ne_manifest.symm

/-- Nobody else touches the root. -/
lemma alone_unstored : Alone crooked furnished unstored := by
  unfold unstored
  exact (Alone.start .zero "" []).run ⟨trivial, trivial, trivial⟩

/-- Nor while the other namespace is thrown away. -/
lemma alone_estranged : Alone crooked furnished estranged := by
  unfold estranged
  exact alone_unstored.run ⟨trivial, trivial, trivial, trivial, trivial⟩

/-- Nor afterwards. -/
lemma alone_orphaned : Alone crooked furnished orphaned := by
  unfold orphaned
  exact alone_estranged.run ⟨trivial, trivial, trivial⟩

/-- A manifest that names an artifact that is gone is taken over if the process dies. -/
lemma not_held_crash {world : World} {manifest : Manifest} {id : ModuleId} {shelf : Shelf}
    {key : String} (hload : Manifest.load world.disk world.cache.directory = .ok (some manifest))
    (hcompatible : manifest.isCompatible world.cache.tool world.cache.config)
    (hkey : (manifest.state id).key? shelf = some key)
    (hgone : (world.cache.archive.read world.disk shelf.directory key).isOk = false)
    (entries : List ModuleId) :
    ¬ (world.crash 0 entries).cache.manifest.Held (world.crash 0 entries).disk
      (world.crash 0 entries).cache.archive (world.crash 0 entries).cache.config := by
  have hcrash : world.crash 0 entries = world.put (Cache.openAt world.disk world.cache.root
    world.cache.config world.cache.tool entries) := rfl
  rw [hcrash, Cache.openAt_of_load hload hcompatible]
  intro hheld
  obtain ⟨payload, record, hread, -⟩ := hheld id shelf key hkey
  have harchive : world.cache.archive.read world.disk shelf.directory key = .ok payload := hread
  rw [harchive] at hgone
  cases hgone

/-- Whoever opens the namespace then takes over a manifest that names an artifact that is gone:
nothing but `Path.Clear` is missing. -/
theorem crash_through_namespace_harms :
    Alone crooked furnished orphaned ∧ furnished.IsBare crooked.place ∧ furnished.Spelled ∧
      KeysUnique orphaned.log ∧ Fitting orphaned.log ∧
      ¬ (orphaned.crash 0 []).cache.manifest.Held (orphaned.crash 0 []).disk
        (orphaned.crash 0 []).cache.archive (orphaned.crash 0 []).cache.config := by
  obtain ⟨⟨hlog, hcache⟩, hload, hgone⟩ := evaluated_orphaned
  obtain ⟨⟨hcompatible, hkey⟩, -⟩ := evaluated_computing
  rw [← hcache] at hcompatible
  refine ⟨alone_orphaned, isBare_furnished _, spelled_furnished, ?_, ?_,
    not_held_crash hload hcompatible hkey hgone []⟩
  · exact keysUnique_of_stamp fun served hserved => (stamp_bothParts served (hlog ▸ hserved)).1
  · rw [hlog]
    exact fitting_bothParts

end World

end Recompile
