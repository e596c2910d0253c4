import Recompile.Proofs.Cache.Backed
import Recompile.Proofs.Cache.Winding

/-!
# Caches that do not notice what was removed

Two runs of the same calls are compared: one on a disk, the other on the disk that lacks the files
that collecting removed.  Both give the same as long as no artifact is missing that the manifest of
the cache names, or that a manifest names which a later process may take over (`Cache.Bears`).  Each
operation keeps this up, since a key comes into a manifest only when its artifact was written just
before: flushes (`Cache.Bears.done`), changes of the configuration (`Cache.Bears.reconfigure`) and
new processes (`Cache.Bears.attach`).

A cache notices missing files only where it reads the text of an unobserved module from one of them
(`World.Heeds`).  So as long as that does not happen, collecting changes nothing that a cache gives
(`World.collect_is_invisible`); where it does happen the answers differ
(`World.not_invisible_of_artifact_text`).
-/

namespace Recompile

/-! ### Artifacts that two disks share -/

/-- The artifacts that a manifest names in the namespace of a configuration are the same on both
disks. -/
def Manifest.Shares (manifest : Manifest) (root : Location) (config : Digest)
    (disk left : Disk) : Prop :=
  ∀ id shelf key, (manifest.state id).key? shelf = some key →
    left.node? (root ++ [config.hex, shelf.directory, key ++ "." ++ Archive.ending]) =
      disk.node? (root ++ [config.hex, shelf.directory, key ++ "." ++ Archive.ending])

namespace Manifest.Shares

variable {manifest other : Manifest} {root : Location} {config : Digest}
variable {disk left written rest : Disk}

/-- What is shared stays shared as long as the disks do not come to differ elsewhere. -/
lemma mono (h : manifest.Shares root config disk left)
    (hlacks : written.Lacks rest fun location => left.node? location ≠ disk.node? location) :
    manifest.Shares root config written rest :=
  fun id shelf key hkey => hlacks.node?_eq (not_not_intro (h id shelf key hkey))

/-- A manifest that names no other keys shares as much. -/
lemma of_keys (h : manifest.Shares root config disk left)
    (hkeys : ∀ id shelf key, (other.state id).key? shelf = some key →
      (manifest.state id).key? shelf = some key) : other.Shares root config disk left :=
  fun id shelf key hkey => h id shelf key (hkeys id shelf key hkey)

end Manifest.Shares

/-- A new manifest names no keys. -/
lemma Manifest.key?_fresh (tool : String) (config : Digest) (id : ModuleId) (shelf : Shelf) :
    ((fresh tool config).state id).key? shelf = none := by
  unfold state fresh
  rw [Std.ExtTreeMap.getElem?_empty]
  cases shelf <;> rfl

/-! ### Paths that miss artifacts -/

/-- What a path visits is passed by the path with a name joined to it. -/
lemma Path.passes_join_of_visits {base : Path} {name : String} {location : Location}
    (hname : IsName name) (h : base.Visits location) : (base.join ⟨name⟩).Passes location := by
  obtain ⟨front, rest, hpieces, hlocation⟩ := h
  by_cases hne : base.text = ""
  · -- The name is all there is, and the empty path stays where it starts.
    have hbase : base = ⟨""⟩ := by
      cases base
      exact congrArg Path.mk hne
    subst hbase
    have hjoin : (Path.mk "").join ⟨name⟩ = ⟨name⟩ := by simp [join]
    have hidle : ∀ piece ∈ front, isIdle piece = true := by
      intro piece hpiece
      have hmem : piece ∈ (Path.mk "").pieces := by
        rw [hpieces]
        exact List.mem_append_left _ hpiece
      have hempty : (Path.mk "").pieces = [""] := by decide
      rw [hempty] at hmem
      rw [List.mem_singleton.mp hmem]
      rfl
    rw [foldl_follow_idle hidle] at hlocation
    refine ⟨[], [name], ?_, List.cons_ne_nil _ _, ?_⟩
    · rw [hjoin, pieces_eq_split, hname.not_isAbsolute, if_neg Bool.false_ne_true,
        split_name hname]
      rfl
    · rw [← hlocation, hjoin, hname.not_isAbsolute]
      rfl
  · obtain ⟨whole, hjoin, hbase, habs⟩ := pieces_join hname hne
    rw [← habs] at hlocation
    rcases hbase with hbase | hbase
    · refine ⟨front, rest ++ [name], ?_, by simp, hlocation⟩
      rw [hjoin, ← hbase, hpieces, List.append_assoc]
    · -- The empty piece at the end leads nowhere.
      rcases List.eq_nil_or_concat rest with rfl | ⟨before, last, rfl⟩
      · rw [List.append_nil] at hpieces
        rw [← hpieces, hbase, List.foldl_append] at hlocation
        exact ⟨whole, [name], hjoin, List.cons_ne_nil _ _, hlocation⟩
      · rw [hbase, List.concat_eq_append, ← List.append_assoc] at hpieces
        obtain ⟨rfl, -⟩ := List.append_inj' hpieces rfl
        refine ⟨front, before ++ [name], ?_, by simp, hlocation⟩
        rw [hjoin, List.append_assoc]

/-- The locations are those of artifacts of one configuration, and the path of the root leads
through none of them. -/
structure Confined (root : Path) (config : Digest) (removed : Location → Prop) : Prop where
  /-- They are locations of artifacts. -/
  artifact : ∀ location, removed location → ∃ (shelf : Shelf) (name : String),
    location = root.place ++ [config.hex, shelf.directory, name]
  /-- They are not on the way. -/
  root : root.Misses removed

namespace Confined

variable {root : Path} {config : Digest} {removed : Location → Prop}

/-- What is right below the root or one directory further down is none of them. -/
lemma not_short (h : Confined root config removed) {names : List String}
    (hshort : names.length < 3) : ¬ removed (root.place ++ names) := by
  intro hremoved
  obtain ⟨shelf, name, heq⟩ := h.artifact _ hremoved
  rw [List.append_cancel_left heq] at hshort
  exact absurd hshort (by simp)

/-- The path of a file two directories below the root passes none of them. -/
lemma passes_join (h : Confined root config removed) {dir name : String}
    (hdir : Path.IsName dir) (hname : Path.IsName name) {location : Location}
    (hpasses : ((root.join ⟨dir⟩).join ⟨name⟩).Passes location) : ¬ removed location := by
  rcases Path.passes_join hname hpasses with hbase | rfl
  · rcases Path.passes_join hdir hbase with hroot | rfl
    · exact h.root location hroot.visits
    · exact h.root _ root.visits_place
  · rw [root.place_join hdir]
    exact h.not_short (by simp)

/-- So does the path of a file three directories below it. -/
lemma passes_join_join (h : Confined root config removed) {space dir name : String}
    (hspace : Path.IsName space) (hdir : Path.IsName dir) (hname : Path.IsName name)
    {location : Location}
    (hpasses : (((root.join ⟨space⟩).join ⟨dir⟩).join ⟨name⟩).Passes location) :
    ¬ removed location := by
  rcases Path.passes_join hname hpasses with hbase | rfl
  · exact h.passes_join hspace hdir hbase
  · rw [Path.place_join _ hdir, root.place_join hspace, List.append_assoc]
    exact h.not_short (by simp)

end Confined

namespace Cache

variable {cache after : Cache} {config : Digest} {removed : Location → Prop} {disk left : Disk}

/-- Every write of a flush misses them. -/
lemma misses_flushWrites (h : Confined cache.root config removed) :
    ∀ write ∈ cache.flushWrites, ∀ location, write.path.Passes location → ¬ removed location := by
  intro write hwrite location hpasses
  rcases mem_flushWrites hwrite with ⟨slot, record, -, rfl⟩ | rfl
  · rw [path_artifactWrite] at hpasses
    exact h.passes_join_join cache.config.isName_hex slot.shelf.isName_directory
      (record.isName_key cache.config) hpasses
  · exact h.passes_join cache.config.isName_hex Manifest.isName_fileName hpasses

/-! ### Bearing that files are missing -/

/-- A cache bears that files are missing: neither its own manifest nor one that stands in the
namespace of the configuration names an artifact that is missing. -/
structure Bears (cache : Cache) (config : Digest) (removed : Location → Prop)
    (disk left : Disk) : Prop where
  /-- Nothing else is missing. -/
  lacks : disk.Lacks left removed
  /-- The artifacts that the manifest of the cache names are there. -/
  named : cache.config = config → cache.manifest.Shares cache.root.place config disk left
  /-- So are those of a manifest that can be taken over. -/
  standing : ∀ (content : Bytes) (manifest : Manifest),
    disk.content? (cache.root.place ++ [config.hex, "manifest.json"]) = some content →
    Manifest.ofContent? content = some manifest →
    (∃ start, Disk.start (cache.root.below [config.hex, "manifest.json"]) = .ok start) →
    manifest.Shares cache.root.place config disk left

namespace Bears

/-- Nothing changes for a cache that names the same keys in the same namespace. -/
lemma of_keys (h : cache.Bears config removed disk left) (hroot : after.root = cache.root)
    (hconfig : after.config = cache.config)
    (hkeys : ∀ id shelf, (after.manifest.state id).key? shelf =
      (cache.manifest.state id).key? shelf) : after.Bears config removed disk left where
  lacks := h.lacks
  named hsame := by
    rw [hroot]
    apply (h.named (hconfig.symm.trans hsame)).of_keys
    intro id shelf key hkey
    rw [← hkeys]
    exact hkey
  standing := by
    rw [hroot]
    exact h.standing

/-- Nor for one that names no keys. -/
lemma of_fresh (h : cache.Bears config removed disk left) (hroot : after.root = cache.root)
    (hfresh : after.manifest = .fresh after.tool after.config) :
    after.Bears config removed disk left where
  lacks := h.lacks
  named _ id shelf key hkey := by
    rw [hfresh, Manifest.key?_fresh] at hkey
    cases hkey
  standing := by
    rw [hroot]
    exact h.standing

/-- Disks that differ no further bear it, if the manifest that stands is the same. -/
lemma of_lacks (h : cache.Bears config removed disk left) {written rest : Disk}
    (hlacks : written.Lacks rest fun location => left.node? location ≠ disk.node? location)
    (hstanding : ∀ content,
      written.content? (cache.root.place ++ [config.hex, "manifest.json"]) = some content →
      disk.content? (cache.root.place ++ [config.hex, "manifest.json"]) = some content) :
    cache.Bears config removed written rest where
  lacks := by
    apply hlacks.mono
    intro location hdiffers
    by_contra hkept
    exact hdiffers (h.lacks.node?_eq hkept)
  named hsame := (h.named hsame).mono hlacks
  standing content manifest hcontent hmanifest hstart :=
    (h.standing content manifest (hstanding content hcontent) hmanifest hstart).mono hlacks

/-- What is at the place of a manifest is the same. -/
lemma content?_manifest (h : cache.Bears config removed disk left)
    (hconfined : Confined cache.root config removed) (other : Digest) :
    left.content? (cache.root.place ++ [other.hex, "manifest.json"]) =
      disk.content? (cache.root.place ++ [other.hex, "manifest.json"]) := by
  apply Disk.content?_congr
  exact h.lacks.node?_eq (hconfined.not_short (by simp))

/-! ### Lookups -/

/-- The stored records are the same. -/
lemma stored?_eq (h : cache.Bears config removed disk left)
    (hconfined : Confined cache.root config removed) :
    cache.stored? left = cache.stored? disk := by
  funext slot content generation
  have hread : (cache.manifest.state slot.file).key? slot.shelf =
        some (artifactKey slot.file content cache.config generation) →
      ∀ raw, left.read (cache.archive.pathOf slot.shelf.directory
          (artifactKey slot.file content cache.config generation)) = .ok raw ↔
        disk.read (cache.archive.pathOf slot.shelf.directory
          (artifactKey slot.file content cache.config generation)) = .ok raw := by
    intro hkey raw
    apply h.lacks.read_iff
    rw [Archive.place_pathOf _ _ (isName_artifact _ _ _ _), locate_archive]
    apply Disk.content?_congr
    by_cases hsame : cache.config = config
    · have hshares := h.named hsame slot.file slot.shelf _ hkey
      rw [← hsame] at hshares
      exact hshares
    · apply h.lacks.node?_eq
      intro hremoved
      obtain ⟨shelf, name, hplace⟩ := hconfined.artifact _ hremoved
      exact hsame (artifact_injective hplace).1
  refine Option.ext fun record => ?_
  constructor
  · exact stored?_mono rfl rfl rfl id fun raw hkey _ => (hread hkey raw).mp
  · exact stored?_mono rfl rfl rfl id fun raw hkey _ => (hread hkey raw).mpr

end Bears

/-- Reading an unobserved module is the same if reading its text is. -/
lemma observeOne_congr {id : ModuleId}
    (h : ∀ text, left.readText ⟨id.text⟩ = .ok text ↔ disk.readText ⟨id.text⟩ = .ok text)
    (cache : Cache) : observeOne left cache id = observeOne disk cache id := by
  unfold observeOne SnapshotTable.submitFile
  cases hdisk : disk.readText ⟨id.text⟩ with
  | ok text => rw [(h text).mpr hdisk]
  | error fault =>
    cases hleft : left.readText ⟨id.text⟩ with
    | ok text =>
      rw [(h text).mp hleft] at hdisk
      cases hdisk
    | error other => rfl

namespace Bears

/-- Reading the unobserved modules is the same if none of their texts is missing. -/
lemma observe_eq (h : cache.Bears config removed disk left) {asked : ModuleId}
    (hread : ∀ id ∈ cache.wanted asked, ∀ text, disk.readText ⟨id.text⟩ = .ok text →
      ¬ removed (Path.mk id.text).place) :
    cache.observe left asked = cache.observe disk asked := by
  have hone : ∀ id ∈ cache.wanted asked, ∀ cache : Cache,
      observeOne left cache id = observeOne disk cache id := by
    intro id hid cache
    apply observeOne_congr
    exact h.lacks.readText_iff (hread id hid)
  rw [Cache.observe_eq, Cache.observe_eq]
  generalize cache.wanted asked = ids at hone
  generalize cache = state
  induction ids generalizing state with
  | nil => rfl
  | cons id rest ih =>
    rw [List.foldl_cons, List.foldl_cons, hone id List.mem_cons_self]
    exact ih (fun other hother => hone other (List.mem_cons_of_mem _ hother)) _

/-- Asking for a part gives the same. -/
theorem answer_eq {σ : Type} (h : cache.Bears config removed disk left)
    (hconfined : Confined cache.root config removed) {part : Part} {snapshot : Snapshot}
    (hread : ∀ id ∈ cache.wanted snapshot.id, ∀ text, disk.readText ⟨id.text⟩ = .ok text →
      ¬ removed (Path.mk id.text).place)
    (compute : σ → part.Value × σ) (state : σ) :
    cache.answer left part snapshot compute state =
      cache.answer disk part snapshot compute state := by
  have hhears := cache.hears_observe disk snapshot.id
  have hobserved := h.of_keys hhears.root hhears.config hhears.key
  have hfetch : (cache.observe disk snapshot.id).fetch left =
      (cache.observe disk snapshot.id).fetch disk := by
    unfold fetch
    rw [hobserved.stored?_eq (hhears.root ▸ hconfined)]
  unfold answer lookup
  rw [h.observe_eq hread, hfetch]

/-! ### Flushes -/

/-- Files of a flush are replaced with the same result, and the disks do not come to differ
elsewhere. -/
lemma runAll (h : cache.Bears config removed disk left)
    (hconfined : Confined cache.root config removed) (writes : List Write)
    (hwrites : ∀ write ∈ writes, write ∈ cache.flushWrites) :
    (Write.runAll writes left).1 = (Write.runAll writes disk).1 ∧
      (Write.runAll writes disk).2.Lacks (Write.runAll writes left).2
        fun location => left.node? location ≠ disk.node? location := by
  apply Write.lacks_runAll
  · exact fun write hwrite => cache.filed_flushWrites write (hwrites write hwrite)
  · exact h.lacks.differs
  · intro write hwrite location hpasses hdiffers
    have hkept := misses_flushWrites hconfined write (hwrites write hwrite) location hpasses
    exact hdiffers (h.lacks.node?_eq hkept)

/-- The artifacts of a flush are written with the same result. -/
lemma runArtifacts (h : cache.Bears config removed disk left)
    (hconfined : Confined cache.root config removed)
    (hwrites : ∀ write ∈ cache.artifactWrites, write ∈ cache.flushWrites) :
    (Write.runAll cache.artifactWrites left).1 = (Write.runAll cache.artifactWrites disk).1 ∧
      cache.Bears config removed (Write.runAll cache.artifactWrites disk).2
        (Write.runAll cache.artifactWrites left).2 := by
  obtain ⟨hresult, hlacks⟩ := h.runAll hconfined _ hwrites
  refine ⟨hresult, h.of_lacks hlacks fun content hcontent => ?_⟩
  rcases Write.content?_runAll cache.artifactWrites disk
    (cache.root.place ++ [config.hex, "manifest.json"]) with hsame | ⟨write, hwrite, hplace, -⟩
  · exact hsame.symm.trans hcontent
  · obtain ⟨⟨slot, record⟩, -, rfl⟩ := List.mem_map.mp hwrite
    rw [place_artifactWrite, locate_archive] at hplace
    exact absurd hplace artifact_ne_manifest

/-- After the artifacts of a flush were written on both disks, both have those that the manifest to
be saved names. -/
lemma shares_flushedManifest {written rest : Disk} (h : cache.Bears config removed written rest)
    (hwritten : Write.runAll cache.artifactWrites disk = (.ok (), written))
    (hrest : Write.runAll cache.artifactWrites left = (.ok (), rest))
    (hsame : cache.config = config) :
    cache.flushedManifest.Shares cache.root.place config written rest := by
  intro id shelf key hkey
  obtain ⟨-, -, hkeys⟩ := cache.state_recordKeys cache.pendingRecords cache.manifest id
  rcases hkeys shelf key hkey with ⟨record, hrecord, rfl⟩ | hold
  · -- The artifact was written on both disks.
    have hmem : cache.artifactWrite (⟨shelf, id⟩, record) ∈ cache.artifactWrites :=
      List.mem_map.mpr ⟨_, hrecord, rfl⟩
    obtain ⟨⟨content, hput, hnode⟩, -⟩ := Write.node?_of_runAll hwritten hmem
    obtain ⟨⟨content', hput', hnode'⟩, -⟩ := Write.node?_of_runAll hrest hmem
    obtain rfl := Option.some.inj (hput.symm.trans hput')
    rw [place_artifactWrite, locate_archive] at hnode hnode'
    rw [← hsame, hnode, hnode']
  · exact h.named hsame id shelf key hold

/-- The manifest of a flush is saved with the same result, and it may stand then. -/
lemma save (h : cache.Bears config removed disk left)
    (hconfined : Confined cache.root config removed)
    (hwrites : cache.flushedManifest.saving cache.directory ∈ cache.flushWrites)
    (hshares : cache.config = config →
      cache.flushedManifest.Shares cache.root.place config disk left)
    (after : Cache) (hroot : after.root = cache.root) (hconfig : after.config = cache.config)
    (hmanifest : after.manifest = cache.flushedManifest) :
    (cache.flushedManifest.save left cache.directory).1 =
        (cache.flushedManifest.save disk cache.directory).1 ∧
      after.Bears config removed (cache.flushedManifest.save disk cache.directory).2
        (cache.flushedManifest.save left cache.directory).2 := by
  have hone : ∀ other : Disk, cache.flushedManifest.save other cache.directory =
      Write.runAll [cache.flushedManifest.saving cache.directory] other := by
    intro other
    unfold Manifest.save
    rw [Write.runAll_cons]
    cases (cache.flushedManifest.saving cache.directory).run other with
    | mk result saved => cases result <;> rfl
  have hall : ∀ write ∈ [cache.flushedManifest.saving cache.directory],
      write ∈ cache.flushWrites := by
    intro write hwrite
    rw [List.mem_singleton.mp hwrite]
    exact hwrites
  obtain ⟨hresult, hlacks⟩ := h.runAll hconfined _ hall
  rw [hone, hone]
  refine ⟨hresult, ?_, ?_, ?_⟩
  · apply hlacks.mono
    intro location hdiffers
    by_contra hkept
    exact hdiffers (h.lacks.node?_eq hkept)
  · intro hsame
    rw [hroot, hmanifest]
    exact (hshares (hconfig.symm.trans hsame)).mono hlacks
  · rw [hroot]
    intro content manifest hfound hdescribed hstart
    rcases Write.content?_runAll [cache.flushedManifest.saving cache.directory] disk
      (cache.root.place ++ [config.hex, "manifest.json"]) with
      hold | ⟨write, hwrite, hplace, hcontent⟩
    · rw [hold] at hfound
      exact (h.standing content manifest hfound hdescribed hstart).mono hlacks
    · -- The manifest that stands now is the one that was saved.
      obtain rfl := List.mem_singleton.mp hwrite
      rw [hcontent] at hfound
      rw [← Option.some.inj hfound, Manifest.ofContent?_saving] at hdescribed
      rw [← Option.some.inj hdescribed]
      have hsame : cache.config = config :=
        manifest_injective (cache.place_manifest.symm.trans hplace)
      exact (hshares hsame).mono hlacks

/-- A flush gives the same, and what it leaves bears it as well. -/
theorem done (h : cache.Bears config removed disk left)
    (hconfined : Confined cache.root config removed) :
    (cache.done left).1 = (cache.done disk).1 ∧ (cache.done left).2.1 = (cache.done disk).2.1 ∧
      (cache.done disk).2.1.Bears config removed (cache.done disk).2.2 (cache.done left).2.2 := by
  by_cases hnothing : (cache.pending.isEmpty && !cache.dirty) = true
  · have hclean : ∀ disk, cache.done disk = (.clean, cache, disk) := by
      intro disk
      unfold Cache.done
      rw [if_pos hnothing]
    rw [hclean, hclean]
    exact ⟨rfl, rfl, h⟩
  have hwrites : cache.flushWrites =
      cache.artifactWrites ++ [cache.flushedManifest.saving cache.directory] := by
    unfold flushWrites
    exact if_neg hnothing
  have hartifacts : ∀ write ∈ cache.artifactWrites, write ∈ cache.flushWrites := by
    intro write hwrite
    rw [hwrites]
    exact List.mem_append_left _ hwrite
  have hmanifest : cache.flushedManifest.saving cache.directory ∈ cache.flushWrites := by
    rw [hwrites]
    exact List.mem_append_right _ (List.mem_singleton_self _)
  obtain ⟨hresult, hbears⟩ := h.runArtifacts hconfined hartifacts
  unfold Cache.done
  rw [if_neg hnothing, if_neg hnothing]
  cases hwritten : Write.runAll cache.artifactWrites disk with
  | mk result written =>
    cases hrest : Write.runAll cache.artifactWrites left with
    | mk result' rest =>
      rw [hwritten, hrest] at hresult hbears
      obtain rfl : result' = result := hresult
      cases result' with
      | error error => exact ⟨rfl, rfl, hbears⟩
      | ok done =>
        have hsave := hbears.save hconfined hmanifest
          (hbears.shares_flushedManifest hwritten hrest)
        simp only at hsave ⊢
        cases hsaved : cache.flushedManifest.save written cache.directory with
        | mk result saved =>
          cases hsaved' : cache.flushedManifest.save rest cache.directory with
          | mk result' saved' =>
            rw [hsaved, hsaved'] at hsave
            obtain rfl : result' = result :=
              (hsave { cache with manifest := cache.flushedManifest } rfl rfl rfl).1
            cases result' with
            | error error =>
              refine ⟨rfl, rfl, ?_⟩
              exact (hsave { cache with manifest := cache.flushedManifest } rfl rfl rfl).2
            | ok done =>
              refine ⟨rfl, rfl, ?_⟩
              exact (hsave { cache with
                manifest := cache.flushedManifest, pending := ∅, dirty := false } rfl rfl rfl).2

/-! ### Namespaces -/

/-- Throwing a namespace away gives the same. -/
lemma discard (h : cache.Bears config removed disk left) :
    (cache.discard left).1 = (cache.discard disk).1 ∧
      (cache.discard disk).1.Bears config removed (cache.discard disk).2
        (cache.discard left).2 := by
  have hfresh : (cache.discard disk).1.Bears config removed disk left := h.of_fresh rfl rfl
  refine ⟨rfl, ?_⟩
  unfold Cache.discard at hfresh ⊢
  rcases h.lacks.removeTree cache.directory with ⟨hdisk, hleft⟩ | ⟨⟨fault, hdisk⟩, ⟨other, hleft⟩⟩
  · rw [hdisk, hleft]
    apply hfresh.of_lacks (h.lacks.differs.prune _)
    intro content hcontent
    unfold Disk.content? at hcontent ⊢
    rw [Disk.node?_prune] at hcontent
    split_ifs at hcontent
    · exact hcontent
  · rw [hdisk, hleft]
    exact hfresh

/-- Throwing everything away gives the same. -/
lemma clean (h : cache.Bears config removed disk left) :
    (cache.clean left).1 = (cache.clean disk).1 ∧
      (cache.clean disk).1.Bears config removed (cache.clean disk).2 (cache.clean left).2 :=
  ⟨rfl, h.discard.2.of_keys rfl rfl fun _ _ => rfl⟩

/-- The same manifests are loaded. -/
lemma load_iff (h : cache.Bears config removed disk left)
    (hconfined : Confined cache.root config removed) (manifest : Manifest) :
    Manifest.load left cache.directory = .ok (some manifest) ↔
      Manifest.load disk cache.directory = .ok (some manifest) := by
  refine Manifest.load_congr (fun content _ => h.lacks.read_iff ?_ content) manifest
  rw [place_manifest]
  exact h.content?_manifest hconfined cache.config

/-- Attaching gives the same. -/
theorem attach (h : cache.Bears config removed disk left)
    (hconfined : Confined cache.root config removed) :
    (cache.attach left).1 = (cache.attach disk).1 ∧
      (cache.attach disk).1.Bears config removed (cache.attach disk).2 (cache.attach left).2 := by
  have hload := h.load_iff hconfined
  rcases cache.attach_of_load disk with ⟨manifest, hmanifest, hcompatible, heq⟩ |
    ⟨manifest, hmanifest, hcompatible, heq⟩ | ⟨hnone, heq⟩
  · have hleft : cache.attach left = ((cache.attach disk).1, left) := by
      rw [heq]
      unfold Cache.attach
      rw [(hload manifest).mpr hmanifest]
      simp only
      rw [if_pos hcompatible]
    rw [hleft, heq]
    refine ⟨rfl, h.lacks, fun hsame => ?_, h.standing⟩
    obtain ⟨content, hread, hdescribed⟩ := Manifest.load_eq_some.mp hmanifest
    obtain ⟨⟨first, hstart, -⟩, hcontent⟩ := Disk.read_eq_ok.mp hread
    rw [place_manifest, hsame] at hcontent
    unfold directory at hstart
    rw [Manifest.join_fileName, hsame] at hstart
    exact h.standing content manifest hcontent hdescribed ⟨first, hstart⟩
  · have hleft : cache.attach left = cache.discard left := by
      unfold Cache.attach
      rw [(hload manifest).mpr hmanifest]
      simp only
      rw [if_neg (Bool.eq_false_iff.mp hcompatible)]
    rw [hleft, heq]
    exact h.discard
  · have hleft : cache.attach left = (cache, left) := by
      rcases cache.attach_of_load left with ⟨manifest, hmanifest, -⟩ | ⟨manifest, hmanifest, -⟩ |
        ⟨-, heq⟩
      · exact absurd ((hload manifest).mp hmanifest) (hnone manifest)
      · exact absurd ((hload manifest).mp hmanifest) (hnone manifest)
      · exact heq
    rw [hleft, heq]
    exact ⟨rfl, h⟩

/-- Changing the configuration gives the same. -/
theorem reconfigure (h : cache.Bears config removed disk left)
    (hconfined : Confined cache.root config removed) (other : Digest) :
    (cache.reconfigure left other).1 = (cache.reconfigure disk other).1 ∧
      (cache.reconfigure left other).2.1 = (cache.reconfigure disk other).2.1 ∧
      (cache.reconfigure disk other).2.1.Bears config removed (cache.reconfigure disk other).2.2
        (cache.reconfigure left other).2.2 := by
  obtain ⟨hresult, hcache, hbears⟩ := h.done hconfined
  by_cases hsame : other = cache.config
  · rw [hsame, reconfigure_self, reconfigure_self]
    exact ⟨hresult, hcache, hbears⟩
  · have hroot := (cache.done_frame disk).1
    have hswitch : ((cache.done disk).2.1.switch other).Bears config removed (cache.done disk).2.2
        (cache.done left).2.2 := hbears.of_fresh rfl rfl
    obtain ⟨hattached, hbearsAttached⟩ := hswitch.attach (hroot ▸ hconfined)
    have hhears := hears_recordSnapshots
      (((cache.done disk).2.1.switch other).attach (cache.done disk).2.2).1
    rw [reconfigure_eq cache disk hsame, reconfigure_eq cache left hsame]
    dsimp only
    rw [hcache, hattached]
    exact ⟨hresult, rfl, hbearsAttached.of_keys hhears.root hhears.config hhears.key⟩

end Bears

end Cache

/-! ### Worlds on other disks -/

namespace World

variable {world : World} {root : Path} {first left : Disk} {config : Digest}
variable {removed : Location → Prop}

/-- The same world on another disk. -/
def on (world : World) (disk : Disk) : World :=
  { world with disk }

/-- Whether a call comes from a process that uses the cache, and reads the text of no unobserved
module from one of the locations. -/
def Heeds (removed : Location → Prop) (world : World) : Call → Prop
  | .ask _ snapshot _ => ∀ id ∈ world.cache.wanted snapshot.id, ∀ text,
    world.disk.readText ⟨id.text⟩ = .ok text → ¬ removed (Path.mk id.text).place
  | .collect => False
  | .edit _ => False
  | _ => True

/-- Whether several calls do, one after the other. -/
def HeedsAll (removed : Location → Prop) : World → List Call → Prop
  | _, [] => True
  | world, call :: rest => world.Heeds removed call ∧ (world.take call).HeedsAll removed rest

/-- A call leads to the same world on a disk that lacks files, and the files may still be missing
then. -/
theorem take_on (h : world.cache.Bears config removed world.disk left)
    (hconfined : Confined world.cache.root config removed) {call : Call}
    (hcall : world.Heeds removed call) :
    ∃ rest, (world.on left).take call = (world.take call).on rest ∧
      (world.take call).cache.Bears config removed (world.take call).disk rest := by
  cases call with
  | reopen config' tool entries =>
    have hfresh : (Cache.fresh world.cache.root config' tool entries).Bears config removed
        world.disk left := h.of_fresh rfl rfl
    obtain ⟨hcache, hbears⟩ := hfresh.attach hconfined
    refine ⟨(Cache.openAt left world.cache.root config' tool entries).2, ?_, ?_⟩
    · simp only [World.take, put, on, Cache.openAt]
      rw [hcache]
    · simp only [World.take, put, Cache.openAt]
      exact hbears
  | submit path text =>
    have hhears := world.cache.hears_submit (ModuleId.ofPath path) text
    refine ⟨left, ?_, ?_⟩
    · simp only [World.take, on]
    · simp only [World.take]
      exact h.of_keys hhears.root hhears.config hhears.key
  | addImport edge =>
    refine ⟨left, by simp only [World.take, on], ?_⟩
    simp only [World.take, Cache.addImport]
    split_ifs
    · exact h
    · exact h.of_keys rfl rfl fun _ _ => rfl
  | ask part snapshot value =>
    have hgiven : (world.on left).given part snapshot value = world.given part snapshot value :=
      h.answer_eq hconfined hcall _ _
    obtain ⟨memory, pending, heq⟩ := world.cache_ask part snapshot value
    have hhears := world.cache.hears_observe world.disk snapshot.id
    have hobserved := h.of_keys hhears.root hhears.config hhears.key
    refine ⟨left, ?_, ?_⟩
    · simp only [World.take, World.ask]
      rw [hgiven]
      simp only [on]
    · change (world.ask part snapshot value).cache.Bears config removed world.disk left
      rw [heq]
      exact hobserved.of_keys rfl rfl fun _ _ => rfl
  | done =>
    obtain ⟨-, hcache, hbears⟩ := h.done hconfined
    refine ⟨(world.cache.done left).2.2, ?_, ?_⟩
    · simp only [World.take, put, on]
      rw [hcache]
    · simp only [World.take, put]
      exact hbears
  | collect => exact hcall.elim
  | clean =>
    obtain ⟨hcache, hbears⟩ := h.clean
    refine ⟨(world.cache.clean left).2, ?_, ?_⟩
    · simp only [World.take, put, on]
      rw [hcache]
    · simp only [World.take, put]
      exact hbears
  | reconfigure config' =>
    obtain ⟨-, hcache, hbears⟩ := h.reconfigure hconfined config'
    refine ⟨(world.cache.reconfigure left config').2.2, ?_, ?_⟩
    · simp only [World.take, put, on]
      rw [hcache]
    · simp only [World.take, put]
      exact hbears
  | edit disk => exact hcall.elim

/-- So do several calls. -/
theorem run_on (h : world.cache.Bears config removed world.disk left)
    (hconfined : Confined world.cache.root config removed) {calls : List Call}
    (hcalls : world.HeedsAll removed calls) :
    ∃ rest, (world.on left).run calls = (world.run calls).on rest ∧
      (world.run calls).cache.root = world.cache.root ∧
      (world.run calls).cache.Bears config removed (world.run calls).disk rest := by
  induction calls generalizing world left with
  | nil => exact ⟨left, rfl, rfl, h⟩
  | cons call later ih =>
    obtain ⟨rest, hsame, hbears⟩ := take_on h hconfined hcalls.1
    have hroot := world.root_take call
    obtain ⟨final, hfinal, hrootFinal, hbearsFinal⟩ := ih hbears (hroot.symm ▸ hconfined) hcalls.2
    refine ⟨final, ?_, hrootFinal.trans hroot, hbearsFinal⟩
    calc (world.on left).run (call :: later) = ((world.on left).take call).run later := rfl
      _ = ((world.take call).on rest).run later := by rw [hsame]
      _ = ((world.take call).run later).on final := hfinal

/-! ### Collecting -/

/-- Two worlds give the same: they have the same cache and gave the same answers so far, with the
same parts computed; storing results and changing the configuration come to the same; and the same
manifests are on disk. -/
structure Resembles (world other : World) : Prop where
  /-- The caches are the same. -/
  cache : other.cache = world.cache
  /-- The answers so far are the same, and so is which of them were computed. -/
  log : other.log = world.log
  /-- Storing results comes to the same. -/
  done : (other.cache.done other.disk).1 = (world.cache.done world.disk).1
  /-- Changing the configuration comes to the same. -/
  reconfigure : ∀ config, (other.cache.reconfigure other.disk config).1 =
    (world.cache.reconfigure world.disk config).1
  /-- The same manifests are on disk. -/
  manifest : ∀ config : Digest,
    other.disk.content? (world.cache.root.place ++ [config.hex, "manifest.json"]) =
      world.disk.content? (world.cache.root.place ++ [config.hex, "manifest.json"])

/-- Collecting leaves the same world on another disk. -/
lemma take_collect (world : World) :
    world.take .collect = world.on (world.cache.collect world.disk).2 := by
  simp only [World.take, on]

/-- The locations of the files that collecting removes. -/
def Removes (world : World) (location : Location) : Prop :=
  (world.take .collect).disk.content? location ≠ world.disk.content? location

/-- They are where the content is another one afterwards. -/
lemma removes_iff {location : Location} : world.Removes location ↔
    (world.cache.collect world.disk).2.content? location ≠ world.disk.content? location := by
  unfold Removes
  rw [take_collect]
  simp only [on]

/-- What is removed was a file of no use. -/
lemma spare_of_removes (hspelled : world.disk.Spelled) {location : Location}
    (h : world.Removes location) : world.cache.Spare world.disk location ∧
      ∃ content, world.disk.node? location = some (.file content) := by
  rcases Cache.lacks_collect hspelled world.cache location with hsame | ⟨hfile, -, hspare⟩
  · exact absurd (Disk.content?_congr hsame) (removes_iff.mp h)
  · exact ⟨hspare, hfile⟩

/-- What is removed is not on the way to the root. -/
lemma confined_removes (hspelled : world.disk.Spelled) :
    Confined world.cache.root world.cache.config world.Removes where
  artifact location hremoves := by
    obtain ⟨⟨-, shelf, name, -, -, hplace⟩, -⟩ := spare_of_removes hspelled hremoves
    exact ⟨shelf, name, hplace⟩
  root location hvisits hremoves := by
    obtain ⟨⟨hopens, -⟩, content, hfile⟩ := spare_of_removes hspelled hremoves
    have hpasses := Path.passes_join_of_visits world.cache.config.isName_hex hvisits
    rw [hopens.1.directory hpasses] at hfile
    cases hfile

/-- The artifacts of a manifest are not removed if the cache names its keys. -/
lemma shares_of_names (hspelled : world.disk.Spelled) {manifest : Manifest}
    (hnames : world.disk.Opens world.cache.directory → ∀ id shelf key,
      (manifest.state id).key? shelf = some key →
        (world.cache.manifest.state id).key? shelf = some key) :
    manifest.Shares world.cache.root.place world.cache.config world.disk
      (world.cache.collect world.disk).2 := by
  intro id shelf key hkey
  apply ((Cache.lacks_collect hspelled world.cache) _).resolve_right
  rintro ⟨-, -, hopens, shelf', name, -, hdead, hplace⟩
  obtain ⟨-, rfl, rfl⟩ := Cache.artifact_injective hplace
  rw [Archive.isDead_of_live (Manifest.mem_liveKeys (hnames hopens id shelf key hkey))] at hdead
  cases hdead

/-- The cache bears that what is removed is missing. -/
theorem Settled.bears (h : Settled root first world) (hfirst : first.Spelled) :
    world.cache.Bears world.cache.config world.Removes world.disk
      (world.cache.collect world.disk).2 := by
  have hspelled := h.alone.spelled hfirst
  refine ⟨?_, fun _ => shares_of_names hspelled fun _ _ _ _ => id, ?_⟩
  · intro location
    rcases Cache.lacks_collect hspelled world.cache location with
      hsame | ⟨⟨content, hfile⟩, hnone, -⟩
    · exact .inl hsame
    · refine .inr ⟨⟨content, hfile⟩, hnone, removes_iff.mpr fun hcontent => ?_⟩
      unfold Disk.content? at hcontent
      rw [hfile, hnone] at hcontent
      cases hcontent
  · intro content manifest hcontent hdescribed hstart
    apply shares_of_names hspelled
    intro hopens
    -- Where something can be removed, the manifest that stands can be loaded.
    rw [← Manifest.join_fileName] at hstart
    have hleads : world.disk.Leads (world.cache.directory.join Manifest.fileName) :=
      (Disk.leads_join Manifest.isName_fileName world.cache.directory_ne_empty).mpr
        ⟨hstart, by decide, hopens⟩
    rw [← world.cache.place_manifest] at hcontent
    have hread := Disk.read_eq_ok.mpr ⟨hleads, hcontent⟩
    exact h.covers hfirst manifest (Manifest.load_eq_some.mpr ⟨content, hread, hdescribed⟩)

/-- A process that opens the root after a flush that stored something takes over the manifest that
was stored. -/
lemma Alone.reopen_done (h : Alone root first world) (hfirst : first.Spelled)
    (hdirty : world.cache.dirty = true)
    (hdone : (world.cache.done world.disk).1.isFailed = false) (entries : List ModuleId) :
    (world.take .done).take (.reopen world.cache.config world.cache.tool entries) =
      { cache :=
          { Cache.fresh root world.cache.config world.cache.tool entries with
            graph := ImportGraph.empty.insertAll world.cache.flushedManifest.edges
            unobserved := Cache.unseen .empty world.cache.flushedManifest
            manifest := world.cache.flushedManifest }
        disk := (world.cache.done world.disk).2.2
        log := world.log
        texts := world.texts } := by
  have hadmits : world.Admits .done := trivial
  have halone := h.take hadmits
  have hopen := h.openAt_done hfirst hdone (halone.leaves_self hfirst) entries
  have hroot := halone.root_eq
  have hmanifest : (world.cache.done world.disk).2.1.manifest = world.cache.flushedManifest := by
    rcases world.cache.done_cases world.disk with ⟨-, hclean, -⟩ | ⟨-, hfailed | hfailed | hok⟩
    · rw [hdirty] at hclean
      cases hclean
    · obtain ⟨error, left, -, heq⟩ := hfailed
      rw [heq] at hdone
      cases hdone
    · obtain ⟨error, written, left, -, -, heq⟩ := hfailed
      rw [heq] at hdone
      cases hdone
    · obtain ⟨written, left, -, -, heq⟩ := hok
      rw [heq]
  rw [hmanifest] at hopen
  simp only [World.take, put] at hopen hroot ⊢
  rw [hroot, hopen]

/-- A world where the results for the first text of a module were stored, and those for its second
text were asked for, which imports the file that holds the first ones. -/
@[irreducible]
def entangled : World :=
  (start .empty ⟨"cache"⟩ .zero "" []).run
    [.submit "b" "5108", .ask .output ⟨⟨"b"⟩, "5108", 1⟩ (.ofCode "22554"), .done, .submit "b" "",
      .addImport ⟨⟨"b"⟩,
        ⟨"cache/00000000000000000000000000000000/code/0e514a4deacc622202062589185e210a.bin"⟩⟩,
      .submit "cache/00000000000000000000000000000000/code/0e514a4deacc622202062589185e210a.bin" "",
      .ask .output ⟨⟨"b"⟩, "", 2⟩ .nothing]

/-- The world of the process that opens the root after these are stored as well. -/
def reopened : World where
  cache :=
    { Cache.fresh ⟨"cache"⟩ .zero "" [] with
      graph := ImportGraph.empty.insertAll entangled.cache.flushedManifest.edges
      unobserved := Cache.unseen .empty entangled.cache.flushedManifest
      manifest := entangled.cache.flushedManifest }
  disk := (entangled.cache.done entangled.disk).2.2
  log := entangled.log
  texts := entangled.texts

/-- Nobody else touches its root. -/
lemma alone_entangled : Alone ⟨"cache"⟩ .empty entangled := by
  unfold entangled
  exact (Alone.start .zero "" []).run
    ⟨trivial, trivial, trivial, trivial, trivial, trivial, trivial, trivial⟩

/-- The cache with the results for the first text. -/
@[irreducible]
def early : Cache.Laden ⟨"cache"⟩ .zero "" ⟨.code, ⟨"b"⟩⟩
    ⟨⟨"b"⟩, .ofText "5108", 0, some (.ofCode "22554"), none⟩
    "0e514a4deacc622202062589185e210a" where
  cache := ((Cache.fresh ⟨"cache"⟩ .zero "" []).submit (.ofPath "b") "5108").2.keep .output
    ⟨⟨"b"⟩, "5108", 1⟩ (.ofCode "22554")
  root_eq := rfl
  config_eq := rfl
  tool_eq := rfl
  records_eq := by decide +kernel
  key_eq := by decide +kernel

/-- The directories that its first flush makes. -/
def shelved : Disk :=
  ((Disk.empty.insert ["", "cache"] .directory).insert ["", "cache", Digest.zero.hex]
    .directory).insert ["", "cache", Digest.zero.hex, "code"] .directory

/-- What the first flush leaves. -/
@[irreducible]
def filled : Disk :=
  (shelved.insert
      ["", "cache", Digest.zero.hex, "code", "0e514a4deacc622202062589185e210a" ++ ".bin"]
      (.file (Artifact.encode ""
        (Record.toBytes ⟨⟨"b"⟩, .ofText "5108", 0, some (.ofCode "22554"), none⟩)))).insert
    ["", "cache", Digest.zero.hex, "manifest.json"]
    (.file (Bytes.ofText early.cache.flushedManifest.document))

/-- The cache after the second text and the import were handed in. -/
@[irreducible]
def linked : Cache :=
  let stored : Cache := { early.cache with
    manifest := early.cache.flushedManifest, pending := ∅, dirty := false }
  let importing := (stored.submit (.ofPath "b") "").2.addImport ⟨⟨"b"⟩,
    ⟨"cache/00000000000000000000000000000000/code/0e514a4deacc622202062589185e210a.bin"⟩⟩
  (importing.submit (.ofPath
    "cache/00000000000000000000000000000000/code/0e514a4deacc622202062589185e210a.bin") "").2

/-- The cache with the results for the second text. -/
@[irreducible]
def tangled : Cache.Laden ⟨"cache"⟩ .zero "" ⟨.code, ⟨"b"⟩⟩
    ⟨⟨"b"⟩, .ofText "", 1, some .nothing, none⟩ "65ca154315f893fc83468ff600cc96aa" where
  cache := linked.keep .output ⟨⟨"b"⟩, "", 2⟩ .nothing
  root_eq := by decide +kernel
  config_eq := by decide +kernel
  tool_eq := by decide +kernel
  records_eq := by decide +kernel
  key_eq := by decide +kernel

/-- The cache once these are stored. -/
@[irreducible]
def untangled : Cache :=
  { tangled.cache with manifest := tangled.cache.flushedManifest, pending := ∅, dirty := false }

/-- What the second flush leaves. -/
@[irreducible]
def refilled : Disk :=
  (filled.insert
      ["", "cache", Digest.zero.hex, "code", "65ca154315f893fc83468ff600cc96aa" ++ ".bin"]
      (.file (Artifact.encode ""
        (Record.toBytes ⟨⟨"b"⟩, .ofText "", 1, some .nothing, none⟩)))).insert
    ["", "cache", Digest.zero.hex, "manifest.json"]
    (.file (Bytes.ofText tangled.cache.flushedManifest.document))

/-- The results for the second text are not found. -/
lemma evaluated_linked : (linked.unobserved.isEmpty = true ∧ tangled.cache.dirty = true) ∧
    linked.live? (Part.output.slot ⟨"b"⟩) (.ofText "") (linked.generation ⟨"b"⟩) = none ∧
    linked.stored? filled (Part.output.slot ⟨"b"⟩) (.ofText "") (linked.generation ⟨"b"⟩) =
      none := by
  decide +kernel

/-- The directories for the first ones are made, and nothing but files comes in the places of the
artifacts and of the manifest. -/
lemma evaluated_shelved :
    ((Path.mk "cache").join ⟨Digest.zero.hex⟩).place = ["", "cache", Digest.zero.hex] ∧
      Disk.empty.makeDirectories (((Path.mk "cache").join ⟨Digest.zero.hex⟩).join
        ⟨Shelf.code.directory⟩) = (.ok (), shelved) ∧
      (∀ rest ∈ [["code", "0e514a4deacc622202062589185e210a" ++ ".bin"], ["manifest.json"]],
        shelved.node? (["", "cache", Digest.zero.hex] ++ rest) ≠ some .directory) ∧
      ∀ rest ∈ [["code", "65ca154315f893fc83468ff600cc96aa" ++ ".bin"], ["manifest.json"]],
        filled.node? (["", "cache", Digest.zero.hex] ++ rest) ≠ some .directory := by
  decide +kernel

/-- Then they are there. -/
lemma opens_shelved : shelved.Opens
    (((Path.mk "cache").join ⟨Digest.zero.hex⟩).join ⟨Shelf.code.directory⟩) :=
  Disk.opens_of_makeDirectoriesIn evaluated_shelved.2.1
    (Path.join_ne_empty _ Shelf.code.isName_directory)

/-- Where they are the results are stored. -/
lemma done_shelved : early.cache.done shelved = (.flushed 1,
    { early.cache with manifest := early.cache.flushedManifest, pending := ∅, dirty := false },
    filled) := by
  obtain ⟨hlocation, -, hfree, -⟩ := evaluated_shelved
  have hdone := early.done hlocation opens_shelved (by decide)
  unfold filled
  exact hdone (hfree _ (.head _)) (hfree _ (.tail _ (.head _)))

/-- Then what was asked for is computed. -/
lemma evaluated_tangling : entangled.cache = tangled.cache ∧ entangled.disk = filled := by
  obtain ⟨⟨hunobserved, -⟩, hlive, hstored⟩ := evaluated_linked
  obtain ⟨cache, texts, hcache, hrun⟩ := first_answer (isBare_empty (Path.mk "cache").place) .zero
    "" [] "b" "5108" .output ⟨⟨"b"⟩, "5108", 1⟩ (.ofCode "22554")
  have hlookup : linked.lookup filled .output ⟨⟨"b"⟩, "", 2⟩ = (none, linked) :=
    Cache.lookup_of_none (Std.ExtTreeSet.isEmpty_iff.mp hunobserved) hlive hstored
  have hearly : cache = early.cache := by
    unfold early
    exact hcache
  have hdone := (early.done_of_made evaluated_shelved.2.1).trans done_shelved
  have hlinked : ∃ log heard, (World.mk cache .empty
      [⟨answerOf cache .output ⟨⟨"b"⟩, "5108", 1⟩ (.ofCode "22554"), true⟩] texts).run
        [.done, .submit "b" "", .addImport ⟨⟨"b"⟩,
          ⟨"cache/00000000000000000000000000000000/code/0e514a4deacc622202062589185e210a.bin"⟩⟩,
          .submit
            "cache/00000000000000000000000000000000/code/0e514a4deacc622202062589185e210a.bin"
            ""] = ⟨linked, filled, log, heard⟩ := by
    simp only [World.run, List.foldl_cons, List.foldl_nil, World.take, put, hearly, hdone]
    unfold linked
    exact ⟨_, _, rfl⟩
  obtain ⟨log, heard, hlinked⟩ := hlinked
  have hentangled : entangled =
      (World.mk linked filled log heard).ask .output ⟨⟨"b"⟩, "", 2⟩ .nothing := by
    unfold entangled
    simp only [World.run, List.foldl_cons, List.foldl_nil] at hrun hlinked ⊢
    rw [hrun, hlinked]
    rfl
  have hask := (@ask_of_none ⟨linked, filled, log, heard⟩ _ _ hlookup Output.nothing).2
  rw [hentangled]
  unfold tangled
  exact ⟨congrArg World.cache hask, congrArg World.disk hask⟩

/-- The second flush stores that. -/
lemma done_tangled : tangled.cache.done filled = (.flushed 1, untangled, refilled) := by
  obtain ⟨hlocation, -, -, hfree⟩ := evaluated_shelved
  have hkeeps := early.cache.keeps_done shelved
  rw [done_shelved] at hkeeps
  have hdone := tangled.done hlocation (opens_shelved.mono hkeeps) (by decide)
  unfold untangled refilled
  exact hdone (hfree _ (.head _)) (hfree _ (.tail _ (.head _)))

/-- The cache of the process that opens the root then. -/
@[irreducible]
def renewed : Cache :=
  { Cache.fresh ⟨"cache"⟩ .zero "" [] with
    graph := ImportGraph.empty.insertAll tangled.cache.flushedManifest.edges
    unobserved := Cache.unseen .empty tangled.cache.flushedManifest
    manifest := tangled.cache.flushedManifest }

/-- One file is of no use after the flush, and no file will be read when the text is handed in
again.  The process that opens the root reads that file, and does not find the results; if it was
removed, the process finds those that are stored. -/
lemma evaluated_refilled :
    ((untangled.collect refilled).1.toOption = some 1 ∧
        (untangled.submit (.ofPath "b") "").2.wanted ⟨"b"⟩ = []) ∧
      ((renewed.submit (.ofPath "b") "").2.lookup refilled .output
        ⟨⟨"b"⟩, "", 1⟩).1.isNone = true ∧
      ((renewed.submit (.ofPath "b") "").2.lookup (renewed.collect refilled).2 .output
        ⟨⟨"b"⟩, "", 1⟩).1.isNone = false := by
  -- Each part is evaluated on its own, so that what one leaves in memory is freed before the next.
  exact ⟨by decide +kernel, by decide +kernel, by decide +kernel⟩

/-- The second flush stores what was asked for. -/
lemma done_entangled : entangled.cache = tangled.cache ∧
    entangled.cache.done entangled.disk = (.flushed 1, untangled, refilled) := by
  obtain ⟨hcache, hdisk⟩ := evaluated_tangling
  rw [hcache, hdisk]
  exact ⟨rfl, done_tangled⟩

/-- Opening the root after the flush leads there. -/
lemma reopen_entangled : (entangled.take .done).take (.reopen .zero "" []) = reopened := by
  obtain ⟨hcache, hdone⟩ := done_entangled
  obtain ⟨⟨-, hdirty⟩, -⟩ := evaluated_linked
  have hreopen := alone_entangled.reopen_done .empty (hcache ▸ hdirty) (hdone ▸ rfl) []
  rw [hcache, tangled.config_eq, tangled.tool_eq] at hreopen
  rw [← hcache] at hreopen
  exact hreopen

/-- The process has what the flush left. -/
lemma evaluated_reopened : reopened.cache = renewed ∧ reopened.disk = refilled := by
  obtain ⟨hcache, hdone⟩ := done_entangled
  unfold reopened renewed
  rw [hdone, hcache]
  exact ⟨rfl, rfl⟩

/-- Collecting after a flush that did not fail is invisible: whatever processes ask for, hand in,
store and change afterwards, they are given the same, the same parts are computed and the same
manifests are stored, as long as the text of no unobserved module is read from a file that was
removed.  Collecting again at once removes nothing. -/
theorem collect_is_invisible (h : Settled root first world) (hfirst : first.Spelled) :
    (∀ calls, world.HeedsAll world.Removes calls →
      (world.run calls).Resembles ((world.take .collect).run calls)) ∧
      (world.take .collect).take .collect = world.take .collect ∧
      ∀ count, (world.cache.collect world.disk).1 = .ok count →
        ((world.take .collect).cache.collect (world.take .collect).disk).1 = .ok 0 := by
  have hspelled := h.alone.spelled hfirst
  have hagain := Cache.collect_again hspelled world.cache
  rw [take_collect]
  refine ⟨fun calls hcalls => ?_, ?_, fun count hcount => ?_⟩
  · have hconfined := confined_removes hspelled
    obtain ⟨rest, hsame, hroot, hbears⟩ := run_on (h.bears hfirst) hconfined hcalls
    rw [← hroot] at hconfined
    rw [hsame]
    exact ⟨rfl, rfl, (hbears.done hconfined).1,
      fun config => (hbears.reconfigure hconfined config).1, hbears.content?_manifest hconfined⟩
  · rw [take_collect]
    simp only [on]
    rw [hagain]
  · have hfirst := congrArg Prod.fst hagain
    rw [hcount] at hfirst
    simp only [on]
    exact hfirst

/-- Collecting removes the file of no use, and what the process asks for afterwards is the same. -/
theorem collect_is_invisible_entangled :
    ((entangled.take .done).cache.collect (entangled.take .done).disk).1 = .ok 1 ∧
      ((entangled.take .done).run [.submit "b" "", .ask .output ⟨⟨"b"⟩, "", 2⟩ .nothing]).Resembles
        (((entangled.take .done).take .collect).run
          [.submit "b" "", .ask .output ⟨⟨"b"⟩, "", 2⟩ .nothing]) ∧
      (((entangled.take .done).take .collect).cache.collect
        ((entangled.take .done).take .collect).disk).1 = .ok 0 := by
  obtain ⟨-, hdone⟩ := done_entangled
  obtain ⟨⟨hcount, hwanted⟩, -⟩ := evaluated_refilled
  have hsettled : Settled ⟨"cache"⟩ .empty (entangled.take .done) :=
    .done alone_entangled (hdone ▸ rfl)
  have hflushed := take_done hdone
  have hcollect : ((entangled.take .done).cache.collect (entangled.take .done).disk).1 = .ok 1 := by
    rw [hflushed]
    revert hcount
    generalize (untangled.collect refilled).1 = result
    intro hcount
    cases result with
    | error error => cases hcount
    | ok count => exact congrArg Except.ok (Option.some.inj hcount)
  obtain ⟨hresembles, -, hagain⟩ := collect_is_invisible hsettled .empty
  refine ⟨hcollect, hresembles _ ⟨trivial, ?_, trivial⟩, hagain 1 hcollect⟩
  intro id hid
  rw [hflushed] at hid
  exact absurd hid (List.eq_nil_iff_forall_not_mem.mp hwanted id)

/-- Collecting is not invisible if any file may be read as the text of an unobserved module: what
imports a file that was removed is then found, and computed again otherwise. -/
theorem not_invisible_of_artifact_text :
    ¬ ∀ (root : Path) (first : Disk) (world : World), first.Spelled → Settled root first world →
      ∀ calls, world.HeedsAll (fun _ => False) calls →
        (world.run calls).Resembles ((world.take .collect).run calls) := by
  intro hinvisible
  obtain ⟨hcache, hdisk⟩ := evaluated_reopened
  have hadmits : entangled.Admits .done := trivial
  have hsettled : Settled ⟨"cache"⟩ .empty reopened := by
    rw [← reopen_entangled]
    exact .reopen (alone_entangled.take hadmits) .zero "" []
  have hlast : ∀ world : World,
      (world.run [.submit "b" "", .ask .output ⟨⟨"b"⟩, "", 1⟩ .nothing]).log.getLast?.map
          (·.computed) =
        some ((world.cache.submit (.ofPath "b") "").2.lookup world.disk .output
          ⟨⟨"b"⟩, "", 1⟩).1.isNone := by
    intro world
    simp only [run, List.foldl_cons, List.foldl_nil, World.take, ask, List.getLast?_concat,
      Option.map_some]
    exact congrArg some (computed_given ⟨_, _, _, _⟩ .output _ Output.nothing)
  have hsame := hinvisible ⟨"cache"⟩ .empty reopened .empty hsettled
    [.submit "b" "", .ask .output ⟨⟨"b"⟩, "", 1⟩ .nothing] ⟨trivial, fun _ _ _ _ => id, trivial⟩
  have hboth := hlast (reopened.take .collect)
  rw [hsame.log, hlast, take_collect] at hboth
  simp only [on, hcache, hdisk] at hboth
  rw [evaluated_refilled.2.1, evaluated_refilled.2.2] at hboth
  cases hboth

end World

end Recompile
