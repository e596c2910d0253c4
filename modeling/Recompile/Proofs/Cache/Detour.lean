import Recompile.Proofs.Cache.Survival
import Recompile.Proofs.Cache.Winding

/-!
# Going away and coming back

A cache that goes over to another configuration stores its results and leaves its namespace behind.
Whatever it does under other configurations, it writes, collects and throws away in their namespaces
only, so what can be read in the one it left stays (`Disk.KeepsNamespace`), as long as the path of
the root does not pass through a namespace (`Path.Clear`); and it keeps its snapshots, as long as no
changed text is handed in (`World.Awaits`).

When it comes back it takes over the manifest that it had stored.  If every recorded module has a
snapshot, no module is unobserved then, and comparing the snapshots with what is recorded raises no
generation.  So everything that was live is found again (`World.detour_loses_nothing`).  Where the
path of the root does pass through a namespace, throwing away that namespace makes the root
unreachable, and results are lost (`World.detour_through_namespace_loses`).
-/

namespace Recompile

/-! ### What is read in a namespace -/

/-- What could be read of some meaning in the namespace of a configuration can still be read. -/
def Disk.KeepsNamespace (root : Path) (config : Digest) (before after : Disk) : Prop :=
  ∀ (names : List String) (content : Bytes), (∀ name ∈ names, Path.IsName name) →
    ¬ content.Meaningless → before.read (root.below (config.hex :: names)) = .ok content →
    after.read (root.below (config.hex :: names)) = .ok content

namespace Disk.KeepsNamespace

variable {root : Path} {config : Digest} {first second third : Disk}

/-- A disk keeps its own namespaces. -/
lemma refl (root : Path) (config : Digest) (disk : Disk) : disk.KeepsNamespace root config disk :=
  fun _ _ _ _ h => h

/-- Keeping a namespace is transitive. -/
lemma trans (h : first.KeepsNamespace root config second)
    (h' : second.KeepsNamespace root config third) : first.KeepsNamespace root config third :=
  fun names content hnames hmeaning hread =>
    h' names content hnames hmeaning (h names content hnames hmeaning hread)

/-- Others that leave the root alone keep its namespaces. -/
lemma of_leaves (h : first.Leaves root second) (config : Digest) :
    first.KeepsNamespace root config second :=
  fun _ content _ hmeaning => (h.reads _ content hmeaning).mpr

/-- What is loaded from a namespace can still be loaded. -/
lemma load {cache : Cache} {manifest : Manifest}
    (h : first.KeepsNamespace cache.root cache.config second)
    (hload : Manifest.load first cache.directory = .ok (some manifest)) :
    Manifest.load second cache.directory = .ok (some manifest) := by
  obtain ⟨content, hread, hcontent⟩ := Manifest.load_eq_some.mp hload
  refine Manifest.load_eq_some.mpr ⟨content, ?_, hcontent⟩
  unfold Cache.directory at hread ⊢
  rw [Manifest.join_fileName] at hread ⊢
  exact h _ content (List.forall_mem_singleton.mpr Manifest.isName_fileName)
    (Bytes.not_meaningless_of_ofContent? hcontent) hread

/-- An artifact that is read in a namespace can still be read. -/
lemma read_artifact {cache : Cache} (h : first.KeepsNamespace cache.root cache.config second)
    (shelf : Shelf) {key : String} (hkey : Path.IsName (key ++ "." ++ Archive.ending)) {raw : Bytes}
    (hmeaning : ¬ raw.Meaningless)
    (hread : first.read (cache.archive.pathOf shelf.directory key) = .ok raw) :
    second.read (cache.archive.pathOf shelf.directory key) = .ok raw := by
  rw [cache.pathOf_archive] at hread ⊢
  exact h _ raw (List.forall_mem_cons.mpr ⟨shelf.isName_directory,
    List.forall_mem_singleton.mpr hkey⟩) hmeaning hread

/-- What is stored in a namespace is still stored there. -/
lemma stored {cache after : Cache} {slot : Slot} {content : Digest} {generation : UInt64}
    {record : Record} (h : first.KeepsNamespace cache.root cache.config second)
    (hroot : after.root = cache.root) (hconfig : after.config = cache.config)
    (htool : after.tool = cache.tool)
    (hkey : ∀ id shelf, (after.manifest.state id).key? shelf = (cache.manifest.state id).key? shelf)
    (hstored : cache.stored? first slot content generation = some record) :
    after.stored? second slot content generation = some record := by
  refine Cache.stored?_mono hroot hconfig htool (fun hnamed => ?_) (fun raw _ hmeaning hread => ?_)
    hstored
  · rw [hkey]
    exact hnamed
  · exact h.read_artifact slot.shelf (isName_artifact _ _ _ _) hmeaning hread

end Disk.KeepsNamespace

namespace Cache

variable {cache : Cache} {disk : Disk} {config : Digest}

/-- What lies in a namespace has its place there. -/
lemma place_namespace (root : Path) (config : Digest) {names : List String}
    (hnames : ∀ name ∈ names, Path.IsName name) :
    (root.below (config.hex :: names)).place = root.place ++ config.hex :: names :=
  Path.place_below (List.forall_mem_cons.mpr ⟨config.isName_hex, hnames⟩)

/-- Different configurations have different namespaces. -/
lemma namespace_apart {root : Location} {config other : Digest} (hne : config ≠ other)
    {names rest : List String} : root ++ config.hex :: names ≠ root ++ other.hex :: rest := by
  intro heq
  exact hne (Digest.hex_injective (List.cons.inj (List.append_cancel_left heq)).1)

/-- A flush keeps the namespaces of other configurations. -/
lemma keepsNamespace_done (hne : config ≠ cache.config) :
    disk.KeepsNamespace cache.root config (cache.done disk).2.2 := by
  intro names content hnames _ hread
  rw [disk_done]
  rcases Write.read_runAll cache.flushWrites hread with hold | ⟨write, hwrite, hplace, -⟩
  · exact hold
  · rw [place_namespace _ _ hnames] at hplace
    rcases mem_flushWrites hwrite with ⟨slot, record, -, rfl⟩ | rfl
    · rw [place_artifactWrite, locate_archive] at hplace
      exact absurd hplace.symm (namespace_apart hne)
    · rw [Manifest.saving, place_manifest] at hplace
      exact absurd hplace.symm (namespace_apart hne)

/-- Collecting keeps the namespaces of other configurations. -/
lemma keepsNamespace_collect (hspelled : disk.Spelled) (hne : config ≠ cache.config) :
    disk.KeepsNamespace cache.root config (cache.collect disk).2 := by
  intro names content hnames _ hread
  refine (read_collect hspelled fun shelf name _ _ hplace => ?_).mpr hread
  rw [place_namespace _ _ hnames] at hplace
  exact namespace_apart hne hplace

/-- Throwing a namespace away keeps those of other configurations. -/
lemma keepsNamespace_discard (hclear : cache.root.Clear) (hne : config ≠ cache.config) :
    disk.KeepsNamespace cache.root config (cache.discard disk).2 := by
  intro names content hnames _ hread
  rcases cache.disk_discard disk with heq | ⟨heq, -⟩
  · rw [heq, place_directory]
    exact Disk.read_prune_namespace hclear hne hnames hread
  · rw [heq]
    exact hread

/-- Attaching to a namespace keeps those of other configurations. -/
lemma keepsNamespace_attach (hclear : cache.root.Clear) (hne : config ≠ cache.config) :
    disk.KeepsNamespace cache.root config (cache.attach disk).2 := by
  rcases cache.attach_of_load disk with ⟨manifest, -, -, heq⟩ | ⟨manifest, -, -, heq⟩ | ⟨-, heq⟩
  · rw [heq]
    exact .refl _ _ _
  · rw [heq]
    exact keepsNamespace_discard hclear hne
  · rw [heq]
    exact .refl _ _ _

/-- Going over to another configuration keeps the namespaces of configurations that are not the new
one, once the results were stored. -/
lemma keepsNamespace_reconfigure (hclear : cache.root.Clear) {other : Digest}
    (hother : config ≠ other) : (cache.done disk).2.2.KeepsNamespace cache.root config
      (cache.reconfigure disk other).2.2 := by
  by_cases hsame : other = cache.config
  · rw [hsame, reconfigure_self]
    exact .refl _ _ _
  · obtain ⟨hroot, -⟩ := cache.done_frame disk
    have hswitch : ((cache.done disk).2.1.switch other).root = cache.root := hroot
    have hne : config ≠ ((cache.done disk).2.1.switch other).config := hother
    rw [← hswitch] at hclear ⊢
    rw [reconfigure_eq cache disk hsame]
    dsimp only
    exact keepsNamespace_attach hclear hne

/-- Going over to another configuration comes to what the flush comes to. -/
lemma outcome_reconfigure (cache : Cache) (disk : Disk) (other : Digest) :
    (cache.reconfigure disk other).1 = (cache.done disk).1 := by
  by_cases hsame : other = cache.config
  · rw [hsame, reconfigure_self]
  · rw [reconfigure_eq cache disk hsame]

/-! ### Comparing the snapshots again -/

/-- Recording texts that are recorded already, or of which nothing is recorded, raises no
generation. -/
lemma generation_foldl_recordContent {snapshots : List Snapshot}
    (hnamed : ∀ one ∈ snapshots, ∀ two ∈ snapshots, one.id = two.id →
      one.fingerprint = two.fingerprint)
    (hsame : ∀ snapshot ∈ snapshots, ¬ cache.Differs snapshot.id snapshot.fingerprint)
    (id : ModuleId) :
    (snapshots.foldl (fun cache snapshot => cache.recordContent snapshot.id snapshot.fingerprint)
      cache).generation id = cache.generation id := by
  induction snapshots generalizing cache with
  | nil => rfl
  | cons first rest ih =>
    have hfirst := hsame first List.mem_cons_self
    rw [List.foldl_cons, ih]
    · rcases cache.generation_recordContent first.id id first.fingerprint with
        ⟨-, hdiffers, -⟩ | ⟨hkept, -⟩
      · exact absurd hdiffers hfirst
      · exact hkept
    · exact fun one hone two htwo =>
        hnamed one (List.mem_cons_of_mem _ hone) two (List.mem_cons_of_mem _ htwo)
    · rintro snapshot hsnapshot ⟨known, hknown, hne⟩
      rw [content?_recordContent] at hknown
      split_ifs at hknown with hid
      · refine hne ((Option.some.inj hknown).symm.trans ?_)
        exact hnamed first List.mem_cons_self snapshot (List.mem_cons_of_mem _ hsnapshot) hid.symm
      · exact hsame snapshot (List.mem_cons_of_mem _ hsnapshot) ⟨known, hknown, hne⟩

/-- Comparing the snapshots raises no generation, if no other text is recorded of any of them. -/
lemma generation_recordSnapshots (hnamed : cache.snapshots.Named)
    (hsame : ∀ id snapshot, cache.snapshots.get? id = some snapshot →
      ¬ cache.Differs id snapshot.fingerprint) (id : ModuleId) :
    cache.recordSnapshots.generation id = cache.generation id := by
  refine generation_foldl_recordContent (fun one hone two htwo hid => ?_)
    (fun snapshot hsnapshot => ?_) id
  · obtain ⟨first, hfirst⟩ := SnapshotTable.mem_snapshots.mp hone
    obtain ⟨second, hsecond⟩ := SnapshotTable.mem_snapshots.mp htwo
    rw [hnamed first one hfirst, hnamed second two hsecond] at hid
    rw [hid, hsecond] at hfirst
    rw [Option.some.inj hfirst]
  · obtain ⟨other, hother⟩ := SnapshotTable.mem_snapshots.mp hsnapshot
    have hdiffers := hsame other snapshot hother
    rwa [← hnamed other snapshot hother] at hdiffers

end Cache

namespace World

variable {world : World} {root : Path} {first : Disk} {config other : Digest}
  {part : Part} {snapshot : Snapshot} {value : part.Value}

/-! ### Away -/

/-- A call of a process that works under other configurations than the given one: no changed text
is handed in, and others leave the root alone. -/
def IsAway (world : World) (config : Digest) : Call → Prop
  | .submit path text => ∀ snapshot,
      world.cache.snapshots.get? (ModuleId.ofPath path) = some snapshot → text = snapshot.text
  | .reconfigure other => config ≠ other
  | .edit disk => world.disk.Leaves world.cache.root disk
  | .reopen _ _ _ => False
  | _ => True

/-- Several such calls, one after the other. -/
def Detours (config : Digest) : World → List Call → Prop
  | _, [] => True
  | world, call :: rest => world.IsAway config call ∧ (world.take call).Detours config rest

/-- Such calls may happen. -/
lemma IsAway.admits {call : Call} (h : world.IsAway config call) : world.Admits call := by
  cases call with
  | edit disk => exact h
  | _ => trivial

/-- A cache that left a namespace behind works under another configuration; it has the snapshots
that it had, and what could be read in the namespace can still be read. -/
structure Awaits (before : Cache) (left : Disk) (world : World) : Prop where
  /-- The root stays. -/
  root : world.cache.root = before.root
  /-- The tool stays. -/
  tool : world.cache.tool = before.tool
  /-- The configuration is another one. -/
  away : before.config ≠ world.cache.config
  /-- The snapshots stay. -/
  snapshots : ∀ id snapshot, before.snapshots.get? id = some snapshot →
    world.cache.snapshots.get? id = some snapshot
  /-- The namespace stays. -/
  reads : left.KeepsNamespace before.root before.config world.disk
  /-- What is listed on the disk has a name. -/
  spelled : world.disk.Spelled
  /-- The snapshots belong to what is recorded. -/
  step : world.InStep

/-- Calls under other configurations leave the snapshots. -/
lemma get?_take_of_isAway (hstep : world.cache.InStep) {call : Call}
    (hcall : world.IsAway config call) {id : ModuleId}
    (h : world.cache.snapshots.get? id = some snapshot) :
    (world.take call).cache.snapshots.get? id = some snapshot := by
  cases call with
  | reopen config tool entries => exact hcall.elim
  | submit path text =>
    simp only [World.take, Cache.submit, Cache.snapshots_recordContent]
    exact SnapshotTable.get?_submit_same hcall h
  | addImport edge =>
    simp only [World.take, Cache.addImport]
    split_ifs <;> exact h
  | ask asked current computed =>
    obtain ⟨memory, pending, heq⟩ := world.cache_ask asked current computed
    simp only [World.take, heq]
    exact hstep.get?_observe h current.id
  | done =>
    obtain ⟨-, -, -, -, -, hsnapshots, -⟩ := world.cache.done_frame world.disk
    simp only [World.take, put, hsnapshots]
    exact h
  | collect => simpa only [World.take] using h
  | clean => simpa only [World.take, put, Cache.clean, Cache.discard] using h
  | reconfigure other =>
    obtain ⟨-, -, hsnapshots⟩ := world.cache.reconfigure_frame world.disk other
    simp only [World.take, put, hsnapshots]
    exact h
  | edit disk => simpa only [World.take] using h

/-- Calls under other configurations keep the namespace that was left. -/
lemma keepsNamespace_take (hspelled : world.disk.Spelled) (hclear : world.cache.root.Clear)
    (hne : config ≠ world.cache.config) {call : Call} (hcall : world.IsAway config call) :
    world.disk.KeepsNamespace world.cache.root config (world.take call).disk := by
  cases call with
  | reopen config tool entries => exact hcall.elim
  | submit path text => exact .refl _ _ _
  | addImport edge => exact .refl _ _ _
  | ask asked current computed => exact .refl _ _ _
  | done =>
    simp only [World.take, put]
    exact Cache.keepsNamespace_done hne
  | collect =>
    simp only [World.take]
    exact Cache.keepsNamespace_collect hspelled hne
  | clean =>
    simp only [World.take, put, Cache.clean]
    exact Cache.keepsNamespace_discard hclear hne
  | reconfigure other =>
    simp only [World.take, put]
    exact (Cache.keepsNamespace_done hne).trans (Cache.keepsNamespace_reconfigure hclear hcall)
  | edit disk =>
    simp only [World.take]
    exact .of_leaves hcall config

/-- The tool stays, and the configuration stays another one than the given one. -/
lemma frame_take_of_isAway (hne : config ≠ world.cache.config) {call : Call}
    (hcall : world.IsAway config call) : (world.take call).cache.tool = world.cache.tool ∧
      config ≠ (world.take call).cache.config := by
  cases call with
  | reopen config tool entries => exact hcall.elim
  | submit path text =>
    have hhears := world.cache.hears_submit (ModuleId.ofPath path) text
    simp only [World.take]
    rw [hhears.tool, hhears.config]
    exact ⟨rfl, hne⟩
  | addImport edge =>
    simp only [World.take, Cache.addImport]
    split_ifs <;> exact ⟨rfl, hne⟩
  | ask asked current computed =>
    have hhears := world.cache.hears_observe world.disk current.id
    obtain ⟨memory, pending, heq⟩ := world.cache_ask asked current computed
    simp only [World.take, heq]
    rw [hhears.tool, hhears.config]
    exact ⟨rfl, hne⟩
  | done =>
    obtain ⟨-, hconfig, htool, -⟩ := world.cache.done_frame world.disk
    simp only [World.take, put]
    rw [hconfig, htool]
    exact ⟨rfl, hne⟩
  | collect => exact ⟨rfl, hne⟩
  | clean => exact ⟨rfl, hne⟩
  | reconfigure other =>
    obtain ⟨hconfig, htool, -⟩ := world.cache.reconfigure_frame world.disk other
    simp only [World.take, put]
    rw [hconfig, htool]
    exact ⟨rfl, hcall⟩
  | edit disk => exact ⟨rfl, hne⟩

namespace Awaits

variable {before : Cache} {left : Disk}

/-- Calls under other configurations leave everything as it was left. -/
theorem take (h : world.Awaits before left) (hclear : before.root.Clear) {call : Call}
    (hcall : world.IsAway before.config call) : (world.take call).Awaits before left where
  root := (root_take _ _).trans h.root
  tool := (frame_take_of_isAway h.away hcall).1.trans h.tool
  away := (frame_take_of_isAway h.away hcall).2
  snapshots id snapshot hbefore :=
    get?_take_of_isAway h.step.cache hcall (h.snapshots id snapshot hbefore)
  reads := by
    have hkeeps := keepsNamespace_take h.spelled (h.root.symm ▸ hclear) h.away hcall
    rw [h.root] at hkeeps
    exact h.reads.trans hkeeps
  spelled := spelled_take h.spelled hcall.admits
  step := h.step.take hcall.admits.allows

/-- So do several calls. -/
theorem run (h : world.Awaits before left) (hclear : before.root.Clear) {calls : List Call}
    (hcalls : world.Detours before.config calls) : (world.run calls).Awaits before left := by
  induction calls generalizing world with
  | nil => exact h
  | cons call rest ih => exact ih (h.take hclear hcalls.1) hcalls.2

end Awaits

/-- Going over to another configuration leaves the namespace as the flush left it. -/
lemma awaits_reconfigure (hspelled : world.disk.Spelled) (hstep : world.InStep)
    (hclear : world.cache.root.Clear) (hother : other ≠ world.cache.config) :
    (world.take (.reconfigure other)).Awaits (world.cache.done world.disk).2.1
      (world.cache.done world.disk).2.2 := by
  obtain ⟨hroot, hconfig, htool, -, -, hsnapshots, -⟩ := world.cache.done_frame world.disk
  obtain ⟨hconfig', htool', hsnapshots'⟩ := world.cache.reconfigure_frame world.disk other
  have hadmits : world.Admits (.reconfigure other) := trivial
  refine ⟨(root_take _ _).trans hroot.symm, htool'.trans htool.symm, ?_, ?_, ?_,
    spelled_take hspelled hadmits, hstep.take hadmits.allows⟩
  · simp only [World.take, put, hconfig, hconfig']
    exact hother.symm
  · intro id snapshot hbefore
    simp only [World.take, put, hsnapshots']
    rwa [hsnapshots] at hbefore
  · rw [hroot, hconfig]
    simp only [World.take, put]
    exact Cache.keepsNamespace_reconfigure hclear hother.symm

/-! ### Back -/

/-- Coming back a cache takes over the manifest that it had stored; the modules that are unobserved
then are those of which it has no snapshot. -/
lemma Awaits.attach_back {before : Cache} {left : Disk} (h : world.Awaits before left)
    (hload : Manifest.load left before.directory = .ok (some before.manifest))
    (hcompatible : before.manifest.isCompatible before.tool before.config = true) :
    ∃ attached disk, ((world.cache.done world.disk).2.1.switch before.config).attach
        (world.cache.done world.disk).2.2 = (attached, disk) ∧
      left.KeepsNamespace before.root before.config disk ∧
      attached.root = before.root ∧ attached.config = before.config ∧ attached.tool = before.tool ∧
      attached.manifest = before.manifest ∧ attached.memory = ∅ ∧
      attached.snapshots = world.cache.snapshots ∧
      attached.unobserved = Cache.unseen world.cache.snapshots before.manifest := by
  obtain ⟨hroot, -, htool, -, -, hsnapshots, -⟩ := world.cache.done_frame world.disk
  have hdone : world.disk.KeepsNamespace world.cache.root before.config
      (world.cache.done world.disk).2.2 := Cache.keepsNamespace_done h.away
  rw [h.root] at hdone
  have hkeeps := h.reads.trans hdone
  generalize (world.cache.done world.disk).2.1 = cache at *
  generalize (world.cache.done world.disk).2.2 = disk at *
  have hdirectory : (cache.switch before.config).directory = before.directory := by
    unfold Cache.directory Cache.switch
    rw [hroot, h.root]
  have htool' : (cache.switch before.config).tool = before.tool := htool.trans h.tool
  have hthere := hkeeps.load hload
  rw [← hdirectory] at hthere
  rcases (cache.switch before.config).attach_of_load disk with
    ⟨manifest, hfound, -, heq⟩ | ⟨manifest, hfound, hother, -⟩ | ⟨hnone, -⟩
  · obtain rfl := Option.some.inj (Except.ok.inj (hfound.symm.trans hthere))
    exact ⟨_, _, heq, hkeeps, hroot.trans h.root, rfl, htool', rfl, rfl, hsnapshots,
      congrArg (Cache.unseen · before.manifest) hsnapshots⟩
  · obtain rfl := Option.some.inj (Except.ok.inj (hfound.symm.trans hthere))
    rw [htool'] at hother
    exact absurd (hcompatible.symm.trans hother) (by decide)
  · exact absurd hthere (hnone _)

/-- Coming back a cache finds what it had stored, and no module is unobserved, if each recorded
module had a snapshot with the recorded text. -/
theorem Awaits.holds_back {before : Cache} {left : Disk} (h : world.Awaits before left)
    (hload : Manifest.load left before.directory = .ok (some before.manifest))
    (hcompatible : before.manifest.isCompatible before.tool before.config = true)
    (hseen : ∀ id content, before.manifest.content? id = some content →
      ∃ snapshot, before.snapshots.get? id = some snapshot ∧ content = snapshot.fingerprint)
    {record : Record} (hstored : before.stored? left (part.slot snapshot.id) snapshot.fingerprint
      (before.generation snapshot.id) = some record) (hvalue : part.get? record = some value) :
    (world.take (.reconfigure before.config)).cache.Holds
        (world.take (.reconfigure before.config)).disk part snapshot value ∧
      (world.take (.reconfigure before.config)).cache.unobserved = ∅ := by
  obtain ⟨attached, disk, heq, hkeeps, hroot, hconfig, htool, hmanifest, hmemory, hsnapshots,
    hunobserved⟩ := h.attach_back hload hcompatible
  have hhears := attached.hears_recordSnapshots
  have hgeneration : attached.recordSnapshots.generation snapshot.id =
      before.generation snapshot.id := by
    have hkept : attached.recordSnapshots.generation snapshot.id =
        attached.generation snapshot.id := by
      refine Cache.generation_recordSnapshots ?_ ?_ snapshot.id
      · rw [hsnapshots]
        exact h.step.cache.named
      · rintro id current hcurrent ⟨known, hknown, hne⟩
        rw [hmanifest] at hknown
        obtain ⟨kept, hkept, rfl⟩ := hseen id known hknown
        rw [hsnapshots, h.snapshots id kept hkept] at hcurrent
        exact hne (congrArg Snapshot.fingerprint (Option.some.inj hcurrent))
    rw [hkept]
    unfold Cache.generation
    rw [hmanifest]
  simp only [World.take, put, Cache.reconfigure_eq _ _ h.away, heq]
  refine ⟨⟨⟨record, ?_, hvalue⟩, fun found hfound => ?_⟩, ?_⟩
  · rw [hgeneration]
    refine hkeeps.stored (hhears.root.trans hroot) (hhears.config.trans hconfig)
      (hhears.tool.trans htool) (fun id shelf => ?_) hstored
    rw [hhears.key, hmanifest]
  · have hfound := (Cache.live?_eq_some.mp hfound).1
    rw [hhears.memory, hmemory, Std.ExtTreeMap.getElem?_empty] at hfound
    cases hfound
  · rw [(Cache.recordSnapshots_frame _).2, hunobserved]
    refine Std.ExtTreeSet.ext_mem fun id => ⟨fun hid => ?_, fun hid => ?_⟩
    · obtain ⟨⟨content, hcontent⟩, hnone⟩ := Cache.mem_unseen.mp hid
      obtain ⟨kept, hkept, -⟩ := hseen id content hcontent
      rw [h.snapshots id kept hkept] at hnone
      cases hnone
    · exact absurd hid Std.ExtTreeSet.not_mem_empty

/-! ### Asking again -/

/-- Where no module is unobserved, asking for parts leaves what is found. -/
lemma holds_asks (h : world.cache.Holds world.disk part snapshot value)
    (hunobserved : world.cache.unobserved = ∅) {asks : List Call}
    (hasks : ∀ call ∈ asks, ∃ asked current computed, call = .ask asked current computed) :
    (world.run asks).cache.Holds (world.run asks).disk part snapshot value ∧
      (world.run asks).cache.unobserved = ∅ := by
  induction asks generalizing world with
  | nil => exact ⟨h, hunobserved⟩
  | cons call rest ih =>
    obtain ⟨asked, current, computed, rfl⟩ := hasks call List.mem_cons_self
    have hobserve := Cache.observe_of_empty hunobserved world.disk current.id
    refine ih ?_ ?_ fun other hother => hasks other (List.mem_cons_of_mem _ hother)
    · refine holds_ask ?_ computed
      rw [hobserve]
      exact h
    · obtain ⟨memory, pending, heq⟩ := world.cache_ask asked current computed
      simp only [World.take, heq, hobserve]
      exact hunobserved

/-- A flush that did not fail and stored the record of a slot left the manifest of the cache where
it is loaded from. -/
lemma Tended.load_done (h : world.Tended)
    (hdone : (world.cache.done world.disk).1.isFailed = false) {slot : Slot} {content : Digest}
    {generation : UInt64} {record : Record}
    (hstored : (world.cache.done world.disk).2.1.stored? (world.cache.done world.disk).2.2 slot
      content generation = some record) :
    Manifest.load (world.cache.done world.disk).2.2 (world.cache.done world.disk).2.1.directory =
      .ok (some (world.cache.done world.disk).2.1.manifest) := by
  obtain ⟨hempty, hdirty⟩ := Cache.unmarked_done hdone
  have hstanding := h.stands.done.standing hempty hdirty
  obtain ⟨hnamed, -⟩ := Cache.stored?_iff.mp hstored
  generalize (world.cache.done world.disk).2.1 = cache at *
  generalize (world.cache.done world.disk).2.2 = left at *
  by_cases hload : ∃ manifest, Manifest.load left cache.directory = .ok (some manifest)
  · obtain ⟨manifest, hmanifest⟩ := hload
    rw [Manifest.standing_of_load hmanifest] at hstanding
    rw [hmanifest, hstanding]
  · -- A new manifest names no artifact.
    have hnone : ∀ manifest, Manifest.load left cache.directory ≠ .ok (some manifest) :=
      fun manifest hmanifest => hload ⟨manifest, hmanifest⟩
    rw [Manifest.standing_of_not_load hnone] at hstanding
    rw [← hstanding, Manifest.state_fresh] at hnamed
    cases hshelf : slot.shelf <;> rw [hshelf] at hnamed <;> cases hnamed

/-- A cache that goes over to other configurations and comes back finds everything that was live,
whatever it does there, as long as no changed text is handed in and each recorded module had a
snapshot: the flush at the beginning did not fail, keys are unique, records can be read back, nobody
else touches the root, and the path of the root does not pass through a namespace. -/
theorem detour_loses_nothing (h : Alone root first world) (hbare : first.IsBare root.place)
    (hfirst : first.Spelled) (hclear : root.Clear) (hunique : KeysUnique world.log)
    (hseen : ∀ id content, world.cache.manifest.content? id = some content →
      ∃ snapshot, world.cache.snapshots.get? id = some snapshot)
    (hother : other ≠ world.cache.config)
    (houtcome : (world.cache.reconfigure world.disk other).1.isFailed = false)
    {detour : List Call}
    (hdetour : (world.take (.reconfigure other)).Detours world.cache.config detour) {back : World}
    (hback : back = ((world.take (.reconfigure other)).run detour).take
      (.reconfigure world.cache.config)) {record : Record}
    (hlive : world.cache.live? (part.slot snapshot.id) snapshot.fingerprint
      (world.cache.generation snapshot.id) = some record)
    (hvalue : part.get? record = some value) (hfits : record.Fits world.cache.tool)
    {asks : List Call}
    (hasks : ∀ call ∈ asks, ∃ asked current computed, call = .ask asked current computed)
    (computed : part.Value) :
    ((back.run asks).given part snapshot computed).1 = value ∧
      ((back.run asks).given part snapshot computed).2.2 = false := by
  obtain rfl := h.root_eq
  have htended := h.tended hbare hfirst hunique
  have hdone := houtcome
  rw [Cache.outcome_reconfigure] at hdone
  have hstored := htended.stored_done hunique hlive hfits hdone
  have hload := htended.load_done hdone hstored
  have hcompatible := htended.stands.done.compatible
  have hawaits := awaits_reconfigure htended.spelled htended.step hclear hother
  obtain ⟨hroot, hconfig, -, -, -, hsnapshots, -⟩ := world.cache.done_frame world.disk
  have hrecorded := (htended.step.cache.done world.disk).recorded
  have hcontent := world.cache.content?_manifest_done world.disk
  have hgeneration := world.cache.generation_done world.disk snapshot.id
  generalize (world.cache.done world.disk).2.1 = before at *
  generalize (world.cache.done world.disk).2.2 = left at *
  rw [← hroot] at hclear
  rw [← hconfig] at hdetour hback
  rw [← hgeneration] at hstored
  have hseen' : ∀ id content, before.manifest.content? id = some content →
      ∃ snapshot, before.snapshots.get? id = some snapshot ∧ content = snapshot.fingerprint := by
    intro id content hknown
    obtain ⟨kept, hkept⟩ := hseen id content ((hcontent id).symm.trans hknown)
    rw [← hsnapshots] at hkept
    exact ⟨kept, hkept, hrecorded id kept content hkept hknown⟩
  obtain ⟨hholds, hunobserved⟩ :=
    (hawaits.run hclear hdetour).holds_back hload hcompatible hseen' hstored hvalue
  rw [← hback] at hholds hunobserved
  obtain ⟨hholds, hunobserved⟩ := holds_asks hholds hunobserved hasks
  refine given_of_holds ?_ computed
  rw [Cache.observe_of_empty hunobserved]
  exact hholds

/-- If no recorded module is unseen, each has a snapshot. -/
lemma seen_of_unseen_empty {cache : Cache}
    (h : (Cache.unseen cache.snapshots cache.manifest).isEmpty = true) (id : ModuleId)
    (content : Digest) (hcontent : cache.manifest.content? id = some content) :
    ∃ snapshot, cache.snapshots.get? id = some snapshot := by
  refine Option.ne_none_iff_exists'.mp fun hnone => ?_
  have hunseen := Cache.mem_unseen.mpr ⟨⟨content, hcontent⟩, hnone⟩
  rw [Std.ExtTreeSet.isEmpty_iff.mp h] at hunseen
  exact Std.ExtTreeSet.not_mem_empty hunseen

/-- An output is asked for, everything is thrown away under another configuration, and the output is
found again. -/
theorem detour_loses_nothing_answered :
    ∃ back, back = ((answered.take (.reconfigure (.ofBytes []))).run [.clean]).take
        (.reconfigure answered.cache.config) ∧
      ((back.run []).given .output ⟨⟨"a"⟩, "", 1⟩ (Output.ofCode "b")).1 = Output.nothing ∧
      ((back.run []).given .output ⟨⟨"a"⟩, "", 1⟩ (Output.ofCode "b")).2.2 = false := by
  have hclear : Path.Clear ⟨"cache"⟩ := Path.clear_of_no_up (by decide +kernel)
  have hunseen :
      (Cache.unseen answered.cache.snapshots answered.cache.manifest).isEmpty = true := by
    decide +kernel
  have hother : Digest.ofBytes [] ≠ answered.cache.config := by decide +kernel
  have houtcome : (answered.cache.reconfigure answered.disk (.ofBytes [])).1.isFailed = false := by
    rw [Cache.outcome_reconfigure]
    exact done_answered.1
  have hdetour : (answered.take (.reconfigure (.ofBytes []))).Detours answered.cache.config
      [.clean] := ⟨trivial, trivial⟩
  obtain ⟨hlive, hfits⟩ := live_answered
  have hvalue : Part.output.get? ⟨⟨"a"⟩, Digest.ofText "", 0, some .nothing, none⟩ =
      some Output.nothing := rfl
  obtain ⟨back, hback⟩ : ∃ back, back = ((answered.take (.reconfigure (.ofBytes []))).run
      [.clean]).take (.reconfigure answered.cache.config) := ⟨_, rfl⟩
  exact ⟨back, hback, detour_loses_nothing alone_answered (isBare_empty _) .empty hclear
    keysUnique_answered (seen_of_unseen_empty hunseen) hother houtcome hdetour hback hlive hvalue
    hfits (fun _ hcall => absurd hcall List.not_mem_nil) (Output.ofCode "b")⟩

/-! ### A root that is reached through a namespace -/

/-- A configuration. -/
def elsewhere : Digest := ⟨List.replicate 16 1, rfl⟩

/-- A disk with the directories of two namespaces and without files. -/
def prepared : Disk :=
  ((Disk.empty.insert ["", elsewhere.hex] .directory).insert ["", Digest.zero.hex]
    .directory).insert ["", Digest.zero.hex, "code"] .directory

/-- What is listed on it has a name. -/
lemma spelled_prepared : prepared.Spelled :=
  ((Disk.Spelled.empty.insert [""] elsewhere.isName_hex _).insert [""] Digest.zero.isName_hex
    _).insert ["", Digest.zero.hex] Shelf.code.isName_directory _

/-- There is no file on it. -/
lemma isBare_prepared (root : Location) : prepared.IsBare root :=
  (((isBare_empty root).insert_directory _).insert_directory _).insert_directory _

/-- A world whose root is reached through the namespace of another configuration, and where the
output of a module was asked for. -/
@[irreducible]
def winding : World :=
  (start prepared ⟨elsewhere.hex ++ "/.."⟩ .zero "" []).run
    [.submit "a" "", .ask .output ⟨⟨"a"⟩, "", 1⟩ .nothing]

/-- The directories of both namespaces and that of the first shelf are there, and nothing is in the
place of an artifact or of the manifest. -/
lemma evaluated_prepared :
    prepared.isDirectory ((Path.mk (elsewhere.hex ++ "/..")).join ⟨elsewhere.hex⟩) = true ∧
      prepared.isDirectory (((Path.mk (elsewhere.hex ++ "/..")).join ⟨Digest.zero.hex⟩).join
        ⟨Shelf.code.directory⟩) = true ∧
      (Path.mk (elsewhere.hex ++ "/..")).text.utf8ByteSize + 82 < Disk.maxPath ∧
      prepared.node? (((Path.mk (elsewhere.hex ++ "/..")).join ⟨Digest.zero.hex⟩).place ++
        [Shelf.code.directory, artifactKey ⟨"a"⟩ (.ofText "") .zero 0 ++ "." ++ Archive.ending]) ≠
          some .directory ∧
      prepared.node? (((Path.mk (elsewhere.hex ++ "/..")).join ⟨Digest.zero.hex⟩).place ++
        ["manifest.json"]) ≠ some .directory := by
  decide +kernel

/-- The cache in which the output was computed. -/
@[irreducible]
def wound : Cache.Laden ⟨elsewhere.hex ++ "/.."⟩ .zero "" ⟨.code, ⟨"a"⟩⟩
    ⟨⟨"a"⟩, .ofText "", 0, some .nothing, none⟩ (artifactKey ⟨"a"⟩ (.ofText "") .zero 0) where
  cache := ((Cache.fresh ⟨elsewhere.hex ++ "/.."⟩ .zero "" []).submit (.ofPath "a") "").2.keep
    .output ⟨⟨"a"⟩, "", 1⟩ .nothing
  root_eq := rfl
  config_eq := rfl
  tool_eq := rfl
  records_eq := by decide +kernel
  key_eq := rfl

/-- What it has in memory is live and fits, and nothing is unseen. -/
lemma evaluated_wound :
    (Cache.unseen wound.cache.snapshots wound.cache.manifest).isEmpty = true ∧
      wound.cache.live? (Part.output.slot ⟨"a"⟩) (Snapshot.fingerprint ⟨⟨"a"⟩, "", 1⟩)
          (wound.cache.generation ⟨"a"⟩) =
        some ⟨⟨"a"⟩, Digest.ofText "", 0, some .nothing, none⟩ ∧
      Artifact.headerCost wound.cache.tool
          (Record.toBytes ⟨⟨"a"⟩, Digest.ofText "", 0, some .nothing, none⟩) ≤
        Artifact.maxHeader ∧
      LawfulPacked.cost (Record.mk ⟨"a"⟩ (Digest.ofText "") 0 (some .nothing) none) ≤
        Record.maxSize := by
  decide +kernel

/-- The output is computed and not stored. -/
lemma evaluated_winding :
    winding.cache = wound.cache ∧ winding.disk = prepared ∧ winding.log.length = 1 := by
  obtain ⟨cache, texts, rfl, hrun⟩ :=
    first_answer (isBare_prepared (Path.mk (elsewhere.hex ++ "/..")).place) .zero "" [] "a" ""
      .output ⟨⟨"a"⟩, "", 1⟩ .nothing
  unfold winding wound
  rw [hrun]
  exact ⟨rfl, rfl, rfl⟩

/-- It can be stored. -/
lemma isFailed_wound : (wound.cache.done prepared).1.isFailed = false := by
  obtain ⟨-, hshelf, hfits, hartifact, hmanifest⟩ := evaluated_prepared
  rw [wound.done rfl (Disk.opens_of_isDirectory hshelf) hfits hartifact hmanifest]
  rfl

/-- When that namespace is thrown away the root is not reached any more, and the output that was
live is computed again: nothing but `Path.Clear` is missing. -/
theorem detour_through_namespace_loses :
    Alone ⟨elsewhere.hex ++ "/.."⟩ prepared winding ∧
      prepared.IsBare (Path.mk (elsewhere.hex ++ "/..")).place ∧ prepared.Spelled ∧
      KeysUnique winding.log ∧
      (∀ id content, winding.cache.manifest.content? id = some content →
        ∃ snapshot, winding.cache.snapshots.get? id = some snapshot) ∧
      elsewhere ≠ winding.cache.config ∧
      (winding.cache.reconfigure winding.disk elsewhere).1.isFailed = false ∧
      (winding.take (.reconfigure elsewhere)).Detours winding.cache.config [.clean] ∧
      (∃ record, winding.cache.live? (Part.output.slot ⟨"a"⟩)
          (Snapshot.fingerprint ⟨⟨"a"⟩, "", 1⟩) (winding.cache.generation ⟨"a"⟩) = some record ∧
        record.Fits winding.cache.tool) ∧
      ((((winding.take (.reconfigure elsewhere)).run [.clean]).take
        (.reconfigure winding.cache.config)).given .output ⟨⟨"a"⟩, "", 1⟩
          (Output.ofCode "b")).2.2 = true := by
  have halone : Alone ⟨elsewhere.hex ++ "/.."⟩ prepared winding := by
    unfold winding
    exact (Alone.start .zero "" []).run ⟨trivial, trivial, trivial⟩
  have hdetour : (winding.take (.reconfigure elsewhere)).Detours winding.cache.config [.clean] :=
    ⟨trivial, trivial⟩
  obtain ⟨hcache, hdisk, hlength⟩ := evaluated_winding
  obtain ⟨hunseen, hlive, hcost⟩ := evaluated_wound
  have hroot := wound.root_eq
  have hconfig := wound.config_eq
  rw [← hcache] at hroot hconfig hunseen hlive hcost
  have hother : elsewhere ≠ winding.cache.config := by
    rw [hconfig]
    decide
  have houtcome : (winding.cache.reconfigure winding.disk elsewhere).1.isFailed = false := by
    rw [Cache.outcome_reconfigure, hcache, hdisk]
    exact isFailed_wound
  have hway : ¬ winding.cache.root.Avoids elsewhere.hex := by
    rw [hroot]
    exact Path.not_avoids_back elsewhere.isName_hex
  have hnone : winding.disk.content?
      (winding.cache.root.place ++ [elsewhere.hex, "manifest.json"]) = none := by
    rw [hdisk]
    exact isBare_prepared _ _
  have hopens : winding.disk.Opens (winding.cache.root.join ⟨elsewhere.hex⟩) := by
    rw [hdisk, hroot]
    exact Disk.opens_of_isDirectory evaluated_prepared.1
  -- Back there the cache has forgotten the output, so it is computed again.
  have hcomputed : ((((winding.take (.reconfigure elsewhere)).run [.clean]).take
      (.reconfigure winding.cache.config)).given .output ⟨⟨"a"⟩, "", 1⟩
        (Output.ofCode "b")).2.2 = true := by
    obtain ⟨texts, hforgets⟩ := forgets_on_the_way hother hway hnone hopens
    have hback : ((winding.take (.reconfigure elsewhere)).run [.clean]).take
        (.reconfigure winding.cache.config) =
          winding.run [.reconfigure elsewhere, .clean, .reconfigure winding.cache.config] := rfl
    have hblank := (Cache.Blank.forgotten winding.cache).recordSnapshots
    rw [hback, hforgets]
    exact congrArg (·.2.2) (@ask_of_none ⟨_, _, _, _⟩ _ _ (hblank.lookup _ .output _)
      (Output.ofCode "b")).1
  exact ⟨halone, isBare_prepared _, spelled_prepared, keysUnique_of_length hlength,
    seen_of_unseen_empty hunseen, hother, houtcome, hdetour,
    ⟨_, hlive, hcost.1, hcost.2⟩, hcomputed⟩

end World

end Recompile
