import Recompile.Proofs.Cache.Standing
import Recompile.Proofs.Storage.Collecting

/-!
# What collecting removes

Collecting removes files of the archive of the active namespace that the manifest of the cache does
not name (`Cache.lacks_collect`), and nothing is left to remove for a second time
(`Cache.collect_again`).

Whoever opens the namespace later goes by the manifest that stands there, not by that of the cache.
After a flush that did not fail the cache names every artifact that the standing manifest names
(`Cache.Covers`), and so it goes on until a flush fails.  `World.Settled` are the worlds, among
those whose root is left alone, where this holds (`World.Settled.covers`). -/

namespace Recompile

/-! ### Names of artifacts -/

/-- The file of a live key is not dead, whatever the key is. -/
lemma Archive.isDead_of_live {live : List String} {key : String} (h : key ∈ live) :
    isDead live (key ++ "." ++ ending) = false := by
  by_cases hne : key = ""
  · have hname : isDead live (key ++ "." ++ ending) = isDead live ".bin" := by
      rw [hne]
      rfl
    rw [hname]
    unfold isDead
    rw [if_neg (by decide)]
    decide
  · exact isDead_of_mem hne h

namespace Cache

variable {cache after : Cache} {disk : Disk}

/-! ### Collecting in a namespace -/

/-- The files of the active namespace that are of no use: artifacts that the manifest does not name
and what is left of writes that never finished. -/
def Spare (cache : Cache) (disk : Disk) (location : Location) : Prop :=
  disk.Opens cache.directory ∧ ∃ (shelf : Shelf) (name : String), Path.IsName name ∧
    Archive.isDead (cache.manifest.liveKeys shelf) name = true ∧
      location = cache.root.place ++ [cache.config.hex, shelf.directory, name]

/-- The archive of a shelf is below the directory of the namespace. -/
lemma place_shelf (cache : Cache) (shelf : Shelf) :
    (cache.archive.root.join ⟨shelf.directory⟩).place =
      cache.root.place ++ [cache.config.hex, shelf.directory] := by
  rw [Path.place_join _ shelf.isName_directory]
  unfold archive
  rw [place_directory, List.append_assoc]
  rfl

/-- After a shelf was collected the disk lacks spare files and no others. -/
lemma lacks_collectShelf (h : disk.Spelled) (cache : Cache) (shelf : Shelf) :
    disk.Lacks (cache.archive.collect disk shelf.directory (cache.manifest.liveKeys shelf)).2
      (cache.Spare disk) := by
  apply (Archive.lacks_collect h cache.archive shelf.directory _).mono
  rintro location ⟨hopens, name, hname, hdead, rfl⟩
  have hdirectory : disk.Opens cache.directory :=
    ((Disk.leads_join shelf.isName_directory cache.directory_ne_empty).mp hopens.1).2.2
  refine ⟨hdirectory, shelf, name, hname, hdead, ?_⟩
  rw [place_shelf, List.append_assoc]
  rfl

/-- Collecting goes over both shelves, unless it fails at the first one. -/
lemma collect_cases (cache : Cache) (disk : Disk) {codes findings : Except StorageError Nat × Disk}
    (hcodes : codes = cache.archive.collect disk Shelf.code.directory
      (cache.manifest.liveKeys .code))
    (hfindings : findings = cache.archive.collect codes.2 Shelf.diagnostics.directory
      (cache.manifest.liveKeys .diagnostics)) :
    (∃ error, codes.1 = .error error ∧ cache.collect disk = (.error error, codes.2)) ∨
      ∃ count, codes.1 = .ok count ∧
        cache.collect disk = (findings.1.map (count + ·), findings.2) := by
  unfold collect
  simp only
  rw [← hcodes]
  obtain ⟨result, middle⟩ := codes
  cases result with
  | error error => exact .inl ⟨error, rfl, rfl⟩
  | ok count =>
    refine .inr ⟨count, rfl, ?_⟩
    simp only at hfindings ⊢
    rw [← hfindings]
    obtain ⟨result, left⟩ := findings
    cases result <;> rfl

/-- After collecting the disk lacks spare files and no others. -/
theorem lacks_collect (h : disk.Spelled) (cache : Cache) :
    disk.Lacks (cache.collect disk).2 (cache.Spare disk) := by
  obtain ⟨codes, hcodes⟩ : ∃ codes, codes = cache.archive.collect disk Shelf.code.directory
    (cache.manifest.liveKeys .code) := ⟨_, rfl⟩
  have hmiddle : codes.2.Spelled := by
    rw [hcodes]
    exact Archive.spelled_collect h cache.archive _ _
  have hlacks := lacks_collectShelf h cache .code
  rw [← hcodes] at hlacks
  rcases cache.collect_cases disk hcodes rfl with ⟨error, -, heq⟩ | ⟨count, -, heq⟩
  · rw [heq]
    exact hlacks
  · rw [heq]
    apply hlacks.trans
    apply (lacks_collectShelf hmiddle cache .diagnostics).mono
    rintro location ⟨hopens, hspare⟩
    exact ⟨hlacks.opens_iff.mp hopens, hspare⟩

/-- Collecting again removes nothing. -/
theorem collect_again (h : disk.Spelled) (cache : Cache) :
    cache.collect (cache.collect disk).2 =
      ((cache.collect disk).1.map fun _ => 0, (cache.collect disk).2) := by
  obtain ⟨codes, hcodes⟩ : ∃ codes, codes = cache.archive.collect disk Shelf.code.directory
    (cache.manifest.liveKeys .code) := ⟨_, rfl⟩
  obtain ⟨findings, hfindings⟩ : ∃ findings, findings = cache.archive.collect codes.2
    Shelf.diagnostics.directory (cache.manifest.liveKeys .diagnostics) := ⟨_, rfl⟩
  have hmiddle : codes.2.Spelled := by
    rw [hcodes]
    exact Archive.spelled_collect h cache.archive _ _
  have hcodesAgain := Archive.collect_again h cache.archive Shelf.code.directory
    (cache.manifest.liveKeys .code)
  have hfindingsAgain := Archive.collect_again hmiddle cache.archive Shelf.diagnostics.directory
    (cache.manifest.liveKeys .diagnostics)
  rw [← hcodes] at hcodesAgain
  rw [← hfindings] at hfindingsAgain
  rcases cache.collect_cases disk hcodes hfindings with ⟨error, herror, heq⟩ | ⟨count, hok, heq⟩
  · rw [heq]
    rcases cache.collect_cases codes.2 hcodesAgain.symm rfl with ⟨again, hagain, heq'⟩ |
      ⟨again, hagain, -⟩
    · rw [herror] at hagain
      obtain rfl := Except.error.inj hagain
      exact heq'
    · rw [herror] at hagain
      cases hagain
  · -- The first shelf is still collected after the second one was.
    rw [hok] at hcodesAgain
    have hne : (cache.archive.root.join ⟨Shelf.code.directory⟩).place ≠
        (cache.archive.root.join ⟨Shelf.diagnostics.directory⟩).place := by
      rw [place_shelf, place_shelf]
      intro hplaces
      have hnames := List.append_cancel_left hplaces
      simp [Shelf.directory] at hnames
    have hother := Archive.collect_of_other hmiddle Shelf.diagnostics.directory
      (cache.manifest.liveKeys .diagnostics) hne hcodesAgain
    rw [← hfindings] at hother
    rw [heq]
    rcases cache.collect_cases findings.2 hother.symm hfindingsAgain.symm with ⟨again, hagain, -⟩ |
      ⟨again, hagain, heq'⟩
    · cases hagain
    · obtain rfl := Except.ok.inj hagain
      rw [heq']
      cases findings.1 <;> rfl

/-! ### Manifests that cover what stands -/

/-- The manifest of the cache names every artifact that the manifest on disk names, if one can be
loaded. -/
def Covers (cache : Cache) (disk : Disk) : Prop :=
  ∀ manifest, Manifest.load disk cache.directory = .ok (some manifest) → ∀ id shelf key,
    (manifest.state id).key? shelf = some key → (cache.manifest.state id).key? shelf = some key

namespace Covers

/-- A manifest that stands covers itself. -/
lemma of_standing (h : Manifest.standing disk cache.directory cache.tool cache.config =
    cache.manifest) : cache.Covers disk := by
  intro manifest hload id shelf key hkey
  rw [Manifest.standing_of_load hload] at h
  rw [← h]
  exact hkey

/-- A cache that names the same keys in the same namespace covers as much. -/
lemma of_keys (h : cache.Covers disk) (hroot : after.root = cache.root)
    (hconfig : after.config = cache.config)
    (hkeys : ∀ id shelf, (after.manifest.state id).key? shelf =
      (cache.manifest.state id).key? shelf) : after.Covers disk := by
  have hdirectory : after.directory = cache.directory := by
    unfold directory
    rw [hroot, hconfig]
  intro manifest hload id shelf key hkey
  rw [hdirectory] at hload
  rw [hkeys]
  exact h manifest hload id shelf key hkey

/-- On a disk where the same manifest is loaded as much is covered. -/
lemma congr {other : Disk} (h : cache.Covers disk)
    (hload : ∀ manifest, Manifest.load other cache.directory = .ok (some manifest) ↔
      Manifest.load disk cache.directory = .ok (some manifest)) : cache.Covers other :=
  fun manifest hother => h manifest ((hload manifest).mp hother)

/-- What is attached covers what stands. -/
lemma attach (cache : Cache) (disk : Disk) :
    (cache.attach disk).1.Covers (cache.attach disk).2 := by
  rcases cache.attach_of_load disk with ⟨manifest, hload, -, heq⟩ | ⟨manifest, -, -, heq⟩ |
    ⟨hnone, heq⟩
  · rw [heq]
    exact of_standing (Manifest.standing_of_load hload _ _)
  · rw [heq]
    exact fun other hother => absurd hother (cache.load_discard disk other)
  · rw [heq]
    exact fun other hother => absurd hother (hnone other)

/-- Where everything was thrown away there is nothing to cover. -/
lemma clean (cache : Cache) (disk : Disk) : (cache.clean disk).1.Covers (cache.clean disk).2 :=
  fun manifest hload => absurd hload (cache.load_discard disk manifest)

/-- After a flush that did not fail everything that stands is covered. -/
lemma done (h : cache.Stands disk) (hok : (cache.done disk).1.isFailed = false) :
    (cache.done disk).2.1.Covers (cache.done disk).2.2 := by
  obtain ⟨hempty, hdirty⟩ := unmarked_done hok
  exact of_standing (h.done.standing hempty hdirty)

/-- The same if the configuration was changed. -/
lemma reconfigure (h : cache.Stands disk) {config : Digest}
    (hok : (cache.reconfigure disk config).1.isFailed = false) :
    (cache.reconfigure disk config).2.1.Covers (cache.reconfigure disk config).2.2 := by
  by_cases hsame : config = cache.config
  · rw [hsame, reconfigure_self] at hok ⊢
    exact done h hok
  · rw [reconfigure_eq cache disk hsame]
    dsimp only
    have hattach := attach ((cache.done disk).2.1.switch config) (cache.done disk).2.2
    have hhears := hears_recordSnapshots
      (((cache.done disk).2.1.switch config).attach (cache.done disk).2.2).1
    exact hattach.of_keys hhears.root hhears.config hhears.key

end Covers

end Cache

/-! ### Worlds -/

namespace World

variable {world : World} {root : Path} {first : Disk}

/-- The worlds whose root is left alone and whose last flush, in the process that runs, did not
fail. -/
inductive Settled (root : Path) (first : Disk) : World → Prop where
  /-- A process opens the root. -/
  | start (config : Digest) (tool : String) (entries : List ModuleId) :
    Settled root first (World.start first root config tool entries)
  /-- Another process opens it. -/
  | reopen {world : World} (h : Alone root first world) (config : Digest) (tool : String)
    (entries : List ModuleId) : Settled root first (world.take (.reopen config tool entries))
  /-- Results were stored. -/
  | done {world : World} (h : Alone root first world)
    (hok : (world.cache.done world.disk).1.isFailed = false) :
    Settled root first (world.take .done)
  /-- Results were stored to change the configuration. -/
  | reconfigure {world : World} (h : Alone root first world) {config : Digest}
    (hok : (world.cache.reconfigure world.disk config).1.isFailed = false) :
    Settled root first (world.take (.reconfigure config))
  /-- Something happens that stores no results. -/
  | take {world : World} (h : Settled root first world) {call : Call} (hcall : world.Admits call)
    (hdone : call ≠ .done) (hreconfigure : ∀ config, call ≠ .reconfigure config) :
    Settled root first (world.take call)

namespace Settled

/-- The root is left alone. -/
lemma alone (h : Settled root first world) : Alone root first world := by
  induction h with
  | start config tool entries => exact .start config tool entries
  | reopen h config tool entries => exact h.take trivial
  | done h hok => exact h.take trivial
  | reconfigure h hok => exact h.take trivial
  | take _ hcall _ _ ih => exact ih.take hcall

/-- The manifest of the cache names every artifact that the manifest on disk names. -/
theorem covers (h : Settled root first world) (hfirst : first.Spelled) :
    world.cache.Covers world.disk := by
  induction h with
  | start config tool entries =>
    simp only [World.start, Cache.openAt]
    exact Cache.Covers.attach _ first
  | reopen h config tool entries =>
    simp only [World.take, put, Cache.openAt]
    exact Cache.Covers.attach _ _
  | done h hok =>
    simp only [World.take, put]
    exact Cache.Covers.done (h.stands hfirst) hok
  | reconfigure h hok =>
    simp only [World.take, put]
    exact Cache.Covers.reconfigure (h.stands hfirst) hok
  | @take world h call hcall hdone hreconfigure ih =>
    cases call with
    | reopen config tool entries =>
      simp only [World.take, put, Cache.openAt]
      exact Cache.Covers.attach _ _
    | submit path text =>
      have hhears := world.cache.hears_submit (ModuleId.ofPath path) text
      simp only [World.take]
      exact ih.of_keys hhears.root hhears.config hhears.key
    | addImport edge =>
      simp only [World.take, Cache.addImport]
      split_ifs
      · exact ih
      · exact ih.of_keys rfl rfl fun _ _ => rfl
    | ask part snapshot value =>
      obtain ⟨memory, pending, heq⟩ := world.cache_ask part snapshot value
      have hhears := world.cache.hears_observe world.disk snapshot.id
      have hcovers := ih.of_keys hhears.root hhears.config hhears.key
      change (world.ask part snapshot value).cache.Covers world.disk
      rw [heq]
      exact hcovers.of_keys rfl rfl fun _ _ => rfl
    | done => exact absurd rfl hdone
    | collect =>
      simp only [World.take]
      exact ih.congr (Cache.load_collect (h.alone.spelled hfirst))
    | clean =>
      simp only [World.take, put]
      exact Cache.Covers.clean _ _
    | reconfigure config => exact absurd rfl (hreconfigure config)
    | edit disk =>
      simp only [World.take]
      exact ih.congr (hcall.load_iff world.cache.config)

end Settled

end World

end Recompile
